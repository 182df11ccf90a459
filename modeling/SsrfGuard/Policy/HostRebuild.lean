import SsrfGuard.Policy.HostList
import Mathlib.Algebra.BigOperators.Group.Finset.Basic
import Mathlib.Algebra.Order.BigOperators.Group.Finset

/-! # A host list normalised again

A policy normalises the patterns it is given, and `dataclasses.replace` normalises what is stored once more.
White space is stripped before the dots, and both before the codec runs, so what is stored may still have
white space or a dot at its end, or a `*` that the codec has made of another character. A list is stored in
its final form exactly when none of that happens. -/

namespace SsrfGuard

variable {U : Unicode} {pattern stored entry s : Str}

/-- A map of a finite set onto itself that lengthens nothing, and fixes what it does not shorten, fixes
everything. -/
theorem eq_self_of_image_eq {α : Type} [DecidableEq α] {f : α → α} {size : α → ℕ} {members : Finset α}
    (hle : ∀ a, size (f a) ≤ size a) (hfix : ∀ a, size (f a) = size a → f a = a)
    (h : members.image f = members) : ∀ a ∈ members, f a = a := by
  have hinj : Set.InjOn f members := Finset.card_image_iff.mp (congrArg Finset.card h)
  have hsum : ∑ a ∈ members, size (f a) = ∑ a ∈ members, size a := by
    rw [← Finset.sum_image hinj, h]
  intro a ha
  exact hfix a ((Finset.sum_eq_sum_iff_of_le fun b _ => hle b).mp hsum a ha)

/-! ## The text of an entry -/

/-- Whether a text starts with white space. -/
def StartsInSpace (s : Str) : Prop := ∃ c, s.head? = some c ∧ isSpace c = true

/-- Whether a text ends in white space. -/
def EndsInSpace (s : Str) : Prop := ∃ c, s.getLast? = some c ∧ isSpace c = true

/-- `*` occurs at most as the whole leftmost label, with something behind it. -/
def StarLeads (s : Str) : Prop :=
  ord '*' ∉ s ∨ ∃ base, base ≠ [] ∧ s = text "*." ++ base ∧ ord '*' ∉ base

/-- Stripping leaves no white space in front. -/
theorem not_startsInSpace_hostEntry (s : Str) : ¬ StartsInSpace (hostEntry s) := by
  rintro ⟨c, hhead, hspace⟩
  have hdrop : (s.dropWhile isSpace).head? = some c := by
    obtain ⟨rest, hrest⟩ := hostEntry_begins s
    rw [← hrest, List.head?_append, hhead]
    rfl
  have hnot := List.head?_dropWhile_not isSpace s
  rw [hdrop] at hnot
  exact absurd (hspace.symm.trans hnot) (by decide)

/-- **What stripping leaves alone** has no white space at either end and no dot behind. -/
theorem hostEntry_eq_self : hostEntry s = s ↔ ¬ StartsInSpace s ∧ ¬ EndsInSpace s ∧ ¬ EndsInDot s := by
  constructor
  · intro h
    have hstart := not_startsInSpace_hostEntry s
    have hdot := not_endsInDot_hostEntry s
    rw [h] at hstart hdot
    refine ⟨hstart, ?_, hdot⟩
    -- nothing was taken off, so `strip` took nothing off either
    rintro ⟨c, hlast, hspace⟩
    have hlength : s.length ≤ (strip s).length := by
      have hentry := (List.rdropWhile_prefix (· == ord '.') (strip s)).length_le
      rwa [show (strip s).rdropWhile (· == ord '.') = s from h] at hentry
    have hsub : (strip s).Sublist s := (strip_begins s).sublist.trans (List.dropWhile_sublist _)
    have hstrip : strip s = s := hsub.eq_of_length_le hlength
    have hne : s ≠ [] := by
      rintro rfl
      cases hlast
    have hstripped : strip s ≠ [] := by
      rw [hstrip]
      exact hne
    refine List.rdropWhile_last_not isSpace (s.dropWhile isSpace) hstripped ?_
    have hgetLast : (strip s).getLast? = some c := by rw [hstrip, hlast]
    rw [List.getLast?_eq_some_getLast hstripped] at hgetLast
    rw [show ((s.dropWhile isSpace).rdropWhile isSpace).getLast hstripped = c from Option.some.inj hgetLast]
    exact hspace
  · rintro ⟨hstart, hspace, hdot⟩
    have hdrop : s.dropWhile isSpace = s := by
      cases s with
      | nil => rfl
      | cons c s => exact List.dropWhile_cons_of_neg fun h => hstart ⟨c, rfl, h⟩
    have hrdrop : s.rdropWhile isSpace = s := by
      refine List.rdropWhile_eq_self_iff.mpr fun hne hlast => hspace ⟨_, ?_, hlast⟩
      exact List.getLast?_eq_some_getLast hne
    rw [hostEntry, strip, hdrop, hrdrop, rstripDots_eq_self hdot]

/-! ## One pattern -/

theorem isPrefixOf_star (base : Str) : (text "*.").isPrefixOf (text "*." ++ base) = true :=
  List.isPrefixOf_iff_prefix.mpr (List.prefix_append _ _)

theorem not_isPrefixOf_star (h : ord '*' ∉ s) : ¬ (text "*.").isPrefixOf s = true := by
  intro hprefix
  obtain ⟨rest, rfl⟩ := List.isPrefixOf_iff_prefix.mp hprefix
  exact h (List.mem_append_left _ List.mem_cons_self)

/-- A stored entry is in lower case already. -/
theorem map_lowerChar_of_asHostPattern (h : asHostPattern U pattern = .ok stored) :
    stored.map lowerChar = stored ∧ isAscii stored = true := by
  obtain ⟨-, ⟨-, hlabel⟩ | ⟨base, label, -, -, -, hlabel, rfl⟩⟩ := asHostPattern_eq_ok.mp h
  · exact ⟨map_lowerChar_of_normalise hlabel, isAscii_of_normalise hlabel⟩
  · rw [List.map_append, map_lowerChar_of_normalise hlabel, isAscii_append, isAscii_of_normalise hlabel]
    exact ⟨rfl, rfl⟩

theorem map_lowerChar_hostEntry (h : s.map lowerChar = s) : (hostEntry s).map lowerChar = hostEntry s := by
  have hfix : ∀ c ∈ s, lowerChar c = c := by
    have hmap : s.map lowerChar = s.map id := by rw [h, List.map_id]
    exact fun c hc => List.map_inj_left.mp hmap c hc
  conv_rhs => rw [← List.map_id (hostEntry s)]
  exact List.map_congr_left fun c hc => hfix c ((hostEntry_sublist s).subset hc)

theorem normalise_of_isAscii (url : Str) (h : isAscii s = true) (hlower : s.map lowerChar = s) :
    normalise U url s = .ok s := by
  rw [normalise, if_pos h, hlower]

/-- **A text in lower case**, taken as a pattern, is only stripped. -/
theorem asHostPattern_of_lower (hascii : isAscii s = true) (hlower : s.map lowerChar = s) :
    asHostPattern U s = .ok stored ↔ stored = hostEntry s ∧ hostEntry s ≠ [] ∧ StarLeads (hostEntry s) := by
  have hkept := normalise_of_isAscii (U := U) s (isAscii_hostEntry hascii) (map_lowerChar_hostEntry hlower)
  have hbase {base : Str} (hwild : hostEntry s = text "*." ++ base) : normalise U s base = .ok base := by
    have hasciiBase := isAscii_hostEntry hascii
    have hlowerBase := map_lowerChar_hostEntry hlower
    rw [hwild, isAscii_append, Bool.and_eq_true] at hasciiBase
    rw [hwild, List.map_append] at hlowerBase
    exact normalise_of_isAscii s hasciiBase.2 (List.append_cancel_left hlowerBase)
  rw [asHostPattern_eq_ok]
  constructor
  · rintro ⟨hempty, ⟨hstar, hlabel⟩ | ⟨base, label, hne, hwild, hstar, hlabel, rfl⟩⟩
    · rw [hkept] at hlabel
      exact ⟨(Except.ok.inj hlabel).symm, hempty, .inl hstar⟩
    · rw [hbase hwild] at hlabel
      cases hlabel
      exact ⟨hwild.symm, hempty, .inr ⟨base, hne, hwild, hstar⟩⟩
  · rintro ⟨rfl, hempty, hstar | ⟨base, hne, hwild, hstar⟩⟩
    · exact ⟨hempty, .inl ⟨hstar, hkept⟩⟩
    · exact ⟨hempty, .inr ⟨base, base, hne, hwild, hstar, hbase hwild, hwild⟩⟩

/-- A stored entry comes back as it is exactly when it has the form of one. -/
theorem asHostPattern_fixed (h : asHostPattern U pattern = .ok stored) :
    asHostPattern U stored = .ok stored ↔ stored ≠ [] ∧ StarLeads stored ∧
      ¬ StartsInSpace stored ∧ ¬ EndsInSpace stored ∧ ¬ EndsInDot stored := by
  obtain ⟨hlower, hascii⟩ := map_lowerChar_of_asHostPattern h
  rw [asHostPattern_of_lower hascii hlower, ← hostEntry_eq_self]
  constructor
  · rintro ⟨hself, hempty, hstar⟩
    rw [← hself] at hempty hstar
    exact ⟨hempty, hstar, hself.symm⟩
  · rintro ⟨hempty, hstar, hself⟩
    rw [hself]
    exact ⟨rfl, hempty, hstar⟩

/-! ## Where the form is lost -/

/-- What is normalised of an entry: what is behind the `*.` of a wildcard, or all of it. -/
def codedPart (entry : Str) : Str := if (text "*.").isPrefixOf entry then entry.drop 2 else entry

/-- The pattern is stored in its final form. Written in ASCII, no white space is left behind when the dots
are gone. Otherwise the codec leaves a text that is not empty and ends in neither a dot nor white space;
behind `*.` it holds no `*`, and elsewhere it starts with no white space and a `*` leads it. -/
def Settles (U : Unicode) (pattern : Str) : Prop :=
  let entry := hostEntry pattern
  if isAscii entry then ¬ EndsInSpace entry
  else ∀ bytes label, U.idna (codedPart entry) = .ok bytes → decodeAscii 0 bytes = .ok label →
    label ≠ [] ∧ ¬ EndsInDot label ∧ ¬ EndsInSpace label ∧
      if (text "*.").isPrefixOf entry then ord '*' ∉ label else ¬ StartsInSpace label ∧ StarLeads label

theorem isSpace_lowerChar (c : ℕ) : isSpace (lowerChar c) = isSpace c := by
  unfold lowerChar
  split
  · next h =>
    have hspace {d : ℕ} (hd : 0x41 ≤ d ∧ d ≤ 0x7A) : isSpace d = false := by
      simp only [isSpace, Bool.or_eq_false_iff, Bool.and_eq_false_iff, decide_eq_false_iff_not, beq_eq_false_iff_ne]
      omega
    rw [hspace ⟨by omega, by omega⟩, hspace ⟨h.1, by omega⟩]
  · rfl

theorem exists_isSpace_map_lowerChar (found : Option ℕ) :
    (∃ c, found.map lowerChar = some c ∧ isSpace c = true) ↔ ∃ c, found = some c ∧ isSpace c = true := by
  cases found with
  | none => simp
  | some c => simp [isSpace_lowerChar]

theorem startsInSpace_map_lowerChar : StartsInSpace (s.map lowerChar) ↔ StartsInSpace s := by
  rw [StartsInSpace, List.head?_map]
  exact exists_isSpace_map_lowerChar s.head?

theorem endsInSpace_map_lowerChar : EndsInSpace (s.map lowerChar) ↔ EndsInSpace s := by
  rw [EndsInSpace, List.getLast?_map]
  exact exists_isSpace_map_lowerChar s.getLast?

theorem endsInDot_map_lowerChar : EndsInDot (s.map lowerChar) ↔ EndsInDot s := by
  simp only [EndsInDot, List.getLast?_map, Option.map_eq_some_iff]
  constructor
  · rintro ⟨c, hc, hdot⟩
    rw [hc, lowerChar_eq_dot_iff.mp hdot]
  · intro h
    exact ⟨_, h, by decide⟩

theorem mem_star_map_lowerChar : ord '*' ∈ s.map lowerChar ↔ ord '*' ∈ s :=
  ⟨mem_of_mem_map_lowerChar (by decide), fun h => List.mem_map.mpr ⟨_, h, by decide⟩⟩

theorem map_lowerChar_eq_star {base : Str} :
    s.map lowerChar = text "*." ++ base ↔ ∃ rest, s = text "*." ++ rest ∧ rest.map lowerChar = base := by
  constructor
  · intro h
    obtain ⟨front, rest, rfl, hfront, hrest⟩ := List.map_eq_append_iff.mp h
    refine ⟨rest, ?_, hrest⟩
    obtain ⟨star, front, rfl, hstar, hfront⟩ := List.map_eq_cons_iff.mp hfront
    obtain ⟨dot, front, rfl, hdot, hnil⟩ := List.map_eq_cons_iff.mp hfront
    rw [List.map_eq_nil_iff.mp hnil, eq_of_lowerChar_eq (by decide) hstar, eq_of_lowerChar_eq (by decide) hdot]
    rfl
  · rintro ⟨rest, rfl, rfl⟩
    rw [List.map_append]
    rfl

theorem starLeads_map_lowerChar : StarLeads (s.map lowerChar) ↔ StarLeads s := by
  refine or_congr (not_congr mem_star_map_lowerChar) ⟨?_, ?_⟩
  · rintro ⟨base, hne, hlower, hstar⟩
    obtain ⟨rest, hrest, rfl⟩ := map_lowerChar_eq_star.mp hlower
    exact ⟨rest, fun h => hne (List.map_eq_nil_iff.mpr h), hrest, fun h => hstar (mem_star_map_lowerChar.mpr h)⟩
  · rintro ⟨base, hne, rfl, hstar⟩
    refine ⟨base.map lowerChar, fun h => hne (List.map_eq_nil_iff.mp h), ?_, ?_⟩
    · exact map_lowerChar_eq_star.mpr ⟨base, rfl, rfl⟩
    · exact fun h => hstar (mem_star_map_lowerChar.mp h)

/-- The form of a stored entry is that of the text before its case was folded. -/
theorem fixed_map_lowerChar (h : asHostPattern U pattern = .ok (s.map lowerChar)) :
    asHostPattern U (s.map lowerChar) = .ok (s.map lowerChar) ↔ s ≠ [] ∧ StarLeads s ∧
      ¬ StartsInSpace s ∧ ¬ EndsInSpace s ∧ ¬ EndsInDot s := by
  rw [asHostPattern_fixed h, starLeads_map_lowerChar, startsInSpace_map_lowerChar, endsInSpace_map_lowerChar,
    endsInDot_map_lowerChar, Ne, List.map_eq_nil_iff]

theorem starLeads_wildcard {base : Str} : StarLeads (text "*." ++ base) ↔ base ≠ [] ∧ ord '*' ∉ base := by
  constructor
  · rintro (hstar | ⟨rest, hne, heq, hstar⟩)
    · exact absurd (List.mem_append_left _ List.mem_cons_self) hstar
    · rw [List.append_cancel_left heq]
      exact ⟨hne, hstar⟩
  · rintro ⟨hne, hstar⟩
    exact .inr ⟨base, hne, rfl, hstar⟩

theorem not_startsInSpace_wildcard (base : Str) : ¬ StartsInSpace (text "*." ++ base) := by
  rintro ⟨c, hhead, hspace⟩
  cases hhead
  exact absurd hspace (by decide)

theorem endsInSpace_append (front : Str) {base : Str} (hne : base ≠ []) :
    EndsInSpace (front ++ base) ↔ EndsInSpace base := by
  rw [EndsInSpace, EndsInSpace, List.getLast?_append_of_ne_nil _ hne]

/-- A wildcard keeps its form when its base does. -/
theorem fixed_wildcard {base : Str} (h : asHostPattern U pattern = .ok (text "*." ++ base.map lowerChar)) :
    asHostPattern U (text "*." ++ base.map lowerChar) = .ok (text "*." ++ base.map lowerChar) ↔
      base ≠ [] ∧ ¬ EndsInDot base ∧ ¬ EndsInSpace base ∧ ord '*' ∉ base := by
  have hlower : text "*." ++ base.map lowerChar = (text "*." ++ base).map lowerChar :=
    (map_lowerChar_eq_star.mpr ⟨base, rfl, rfl⟩).symm
  rw [hlower] at h ⊢
  rw [fixed_map_lowerChar h, starLeads_wildcard]
  constructor
  · rintro ⟨-, ⟨hne, hstar⟩, -, hspace, hdot⟩
    rw [endsInSpace_append _ hne] at hspace
    rw [endsInDot_append _ hne] at hdot
    exact ⟨hne, hdot, hspace, hstar⟩
  · rintro ⟨hne, hdot, hspace, hstar⟩
    refine ⟨List.cons_ne_nil _ _, ⟨hne, hstar⟩, not_startsInSpace_wildcard base, ?_, ?_⟩
    · rwa [endsInSpace_append _ hne]
    · rwa [endsInDot_append _ hne]

/-- **One pattern** is stored in its final form exactly when it settles. -/
theorem asHostPattern_fixed_iff (h : asHostPattern U pattern = .ok stored) :
    asHostPattern U stored = .ok stored ↔ Settles U pattern := by
  have hdot := not_endsInDot_hostEntry pattern
  have hspace := not_startsInSpace_hostEntry pattern
  obtain ⟨hempty, ⟨hstar, hlabel⟩ | ⟨base, lowered, hne, hwild, hstar, hlabel, rfl⟩⟩ := asHostPattern_eq_ok.mp h
  · obtain ⟨label, rfl, -, hself, hcodec⟩ := normalise_eq_ok.mp hlabel
    have hname := not_isPrefixOf_star hstar
    rw [fixed_map_lowerChar h, Settles]
    split
    · next hascii =>
      rw [hself hascii]
      exact ⟨fun h => h.2.2.2.1, fun h => ⟨hempty, .inl hstar, hspace, h, hdot⟩⟩
    · next hascii =>
      obtain ⟨bytes, hbytes, hdecode⟩ := hcodec (Bool.eq_false_iff.mpr hascii)
      rw [codedPart, if_neg hname]
      constructor
      · rintro ⟨hne, hleads, hstart, hend, hdot⟩ bytes' label' hbytes' hdecode'
        rw [hbytes] at hbytes'
        cases hbytes'
        rw [hdecode] at hdecode'
        cases hdecode'
        exact ⟨hne, hdot, hend, hstart, hleads⟩
      · intro h
        obtain ⟨hne, hdot, hend, hstart, hleads⟩ := h bytes label hbytes hdecode
        exact ⟨hne, hleads, hstart, hend, hdot⟩
  · obtain ⟨label, rfl, -, hself, hcodec⟩ := normalise_eq_ok.mp hlabel
    have hname : (text "*.").isPrefixOf (hostEntry pattern) = true := by
      rw [hwild]
      exact isPrefixOf_star base
    have hcoded : codedPart (hostEntry pattern) = base := by
      rw [codedPart, if_pos hname, hwild]
      rfl
    have hascii : isAscii (hostEntry pattern) = isAscii base := by
      rw [hwild, isAscii_append]
      rfl
    rw [fixed_wildcard h, Settles]
    rw [hascii, hcoded]
    split
    · next hbase =>
      rw [hself hbase, hwild, endsInSpace_append _ hne]
      rw [hwild, endsInDot_append _ hne] at hdot
      exact ⟨fun h => h.2.2.1, fun h => ⟨hne, hdot, h, hstar⟩⟩
    · next hbase =>
      obtain ⟨bytes, hbytes, hdecode⟩ := hcodec (Bool.eq_false_iff.mpr hbase)
      constructor
      · rintro hfixed bytes' label' hbytes' hdecode'
        rw [hbytes] at hbytes'
        cases hbytes'
        rw [hdecode] at hdecode'
        cases hdecode'
        exact hfixed
      · intro h
        exact h bytes label hbytes hdecode

/-! ## The whole list -/

/-- The list is stored as the members its patterns come to. -/
theorem asHostPatterns_eq (patterns : List Str) :
    asHostPatterns U patterns = (patterns.mapM (asHostPattern U)).map frozenset := by
  induction patterns with
  | nil => rfl
  | cons pattern patterns ih =>
      rw [asHostPatterns, List.mapM_cons, ih]
      cases asHostPattern U pattern with
      | error e => rfl
      | ok entry =>
          cases patterns.mapM (asHostPattern U) with
          | error e => rfl
          | ok entries =>
              refine congrArg Except.ok ?_
              change (entry :: entries.dedup).dedup = (entry :: entries).dedup
              by_cases hmem : entry ∈ entries
              · rw [List.dedup_cons_of_mem hmem, List.dedup_cons_of_mem (List.mem_dedup.mpr hmem),
                  List.dedup_idem]
              · rw [List.dedup_cons_of_notMem hmem,
                  List.dedup_cons_of_notMem (fun h => hmem (List.mem_dedup.mp h)), List.dedup_idem]

theorem asHostPatterns_eq_ok {patterns out : List Str} : asHostPatterns U patterns = .ok out ↔
    ∃ entries, List.Forall₂ (fun pattern entry => asHostPattern U pattern = .ok entry) patterns entries ∧
      entries.dedup = out := by
  rw [asHostPatterns_eq, Except.map_eq_ok]
  exact exists_congr fun entries => and_congr_left fun _ => Except.mapM_eq_ok

/-- What each pattern comes to is stored. -/
theorem exists_mem_asHostPatterns {patterns out : List Str} (h : asHostPatterns U patterns = .ok out)
    (hpattern : pattern ∈ patterns) : ∃ entry ∈ out, asHostPattern U pattern = .ok entry := by
  obtain ⟨entries, hentries, rfl⟩ := asHostPatterns_eq_ok.mp h
  obtain ⟨i, hi, rfl⟩ := List.mem_iff_getElem.mp hpattern
  have hlength := hentries.length_eq
  refine ⟨entries[i], List.mem_dedup.mpr (List.getElem_mem _), ?_⟩
  exact List.forall₂_iff_get.mp hentries |>.2 i hi (hlength ▸ hi)

/-- A list whose members come back as they are comes back as it is. -/
theorem asHostPatterns_of_fixed {out : List Str} (hnodup : out.Nodup)
    (h : ∀ entry ∈ out, asHostPattern U entry = .ok entry) : asHostPatterns U out = .ok out := by
  refine asHostPatterns_eq_ok.mpr ⟨out, ?_, hnodup.dedup⟩
  exact List.forall₂_same.mpr h

/-- **A list comes back as the same set** exactly when each of its members comes back as it is: what is
stripped of a member is missing from its length. -/
theorem asHostPatterns_fixed {out : List Str} (hnodup : out.Nodup)
    (hlower : ∀ entry ∈ out, entry.map lowerChar = entry ∧ isAscii entry = true) :
    (∃ again, asHostPatterns U out = .ok again ∧ ∀ entry, entry ∈ again ↔ entry ∈ out) ↔
      ∀ entry ∈ out, asHostPattern U entry = .ok entry := by
  constructor
  · rintro ⟨again, hagain, hsame⟩
    have hentry : ∀ entry ∈ out, asHostPattern U entry = .ok (hostEntry entry) := by
      intro entry hmem
      obtain ⟨stored, -, hstored⟩ := exists_mem_asHostPatterns hagain hmem
      obtain ⟨rfl, -⟩ := (asHostPattern_of_lower (hlower entry hmem).2 (hlower entry hmem).1).mp hstored
      exact hstored
    have himage : out.toFinset.image hostEntry = out.toFinset := by
      ext stored
      rw [Finset.mem_image, List.mem_toFinset]
      constructor
      · rintro ⟨entry, hmem, rfl⟩
        have hmem := List.mem_toFinset.mp hmem
        obtain ⟨stored, hstored, heq⟩ := exists_mem_asHostPatterns hagain hmem
        rw [hentry entry hmem] at heq
        cases heq
        exact (hsame _).mp hstored
      · intro hmem
        obtain ⟨entry, hfrom, heq⟩ := mem_asHostPatterns hagain ((hsame stored).mpr hmem)
        rw [hentry entry hfrom] at heq
        exact ⟨entry, List.mem_toFinset.mpr hfrom, Except.ok.inj heq⟩
    intro entry hmem
    have hself : hostEntry entry = entry :=
      eq_self_of_image_eq (fun s => (hostEntry_sublist s).length_le)
        (fun s hlength => (hostEntry_sublist s).eq_of_length hlength) himage entry (List.mem_toFinset.mpr hmem)
    have hstored := hentry entry hmem
    rwa [hself] at hstored
  · intro h
    exact ⟨out, asHostPatterns_of_fixed hnodup h, fun _ => Iff.rfl⟩

/-- `dataclasses.replace(policy)`: the policy built again from its own fields. -/
def Policy.replace (U : Unicode) (p : Policy) : Except Exc Policy :=
  Policy.ofArgs U { p.toPolicyFields with allowedNetworks := p.allowedNetworks.map .inr }

/-- The policy is accepted again, and says of every host what it said before. -/
def Policy.Survives (U : Unicode) (p : Policy) : Prop :=
  ∃ again, p.replace U = .ok again ∧ ∀ host, again.checkHostOnly U host = p.checkHostOnly U host ∧
    ∀ url address, again.checkListed U url host address = p.checkListed U url host address

theorem asNetworks_inr (networks : List IPNetwork) : asNetworks U (networks.map .inr) = .ok networks := by
  induction networks with
  | nil => rfl
  | cons network networks ih =>
      rw [List.map_cons, asNetworks, ih]
      rfl

theorem frozenset_ne_nil {α : Type} [DecidableEq α] {l : List α} (h : l ≠ []) : frozenset l ≠ [] := by
  rw [frozenset, Ne, List.dedup_eq_nil]
  exact h

/-- What is asked about hosts depends on the host list alone. -/
theorem Policy.checks_congr {p q : Policy} (h : q.allowedHosts = p.allowedHosts) (host : Str) :
    q.checkHostOnly U host = p.checkHostOnly U host ∧
      ∀ url address, q.checkListed U url host address = p.checkListed U url host address := by
  have hlisted (url : Str) (literal : Bool) :
      q.checkHostIsListed U url host literal = p.checkHostIsListed U url host literal := by
    rw [Policy.checkHostIsListed, Policy.checkHostIsListed, h]
  refine ⟨?_, fun url address => ?_⟩
  · rw [Policy.checkHostOnly, Policy.checkHostOnly, h, hlisted]
  · rw [Policy.checkListed, Policy.checkListed, h, hlisted]

/-- A policy whose host list is in its final form survives being built again. -/
theorem Policy.survives {p : Policy} (h : asHostPatterns U p.allowedHosts = .ok p.allowedHosts) :
    p.Survives U := by
  have hwell := p.wellFormed
  have hagain : ({ p.toPolicyFields with
      allowedSchemes := frozenset (p.allowedSchemes.map (lower U))
      allowedPorts := frozenset p.allowedPorts
      sensitiveHeaders := frozenset (p.sensitiveHeaders.map (lower U)) } : PolicyFields IPNetwork).WellFormed :=
    { schemes_ne_nil := frozenset_ne_nil fun hnil => hwell.schemes_ne_nil (List.map_eq_nil_iff.mp hnil)
      ports_ne_nil := frozenset_ne_nil hwell.ports_ne_nil
      ports_in_range := fun port hport => hwell.ports_in_range port (List.mem_dedup.mp hport)
      partial_block := hwell.partial_block
      redirects_nonneg := hwell.redirects_nonneg
      attempts_pos := hwell.attempts_pos
      url_length_pos := hwell.url_length_pos
      not_translated := hwell.not_translated }
  refine ⟨⟨_, hagain⟩, ?_, fun host => Policy.checks_congr rfl host⟩
  rw [Policy.replace, Policy.ofArgs]
  dsimp only
  rw [asNetworks_inr, h]
  exact Policy.ofFields_eq_ok.mpr rfl

/-- **A host list is in its final form** exactly when each of its patterns settles. Then the list is accepted
again as the same set, every policy that stores it is accepted again and says of every host what it said
before, no entry ends in a dot, and a `*` leads where there is one. -/
theorem asHostPatterns_rebuilt_iff {patterns out : List Str} (h : asHostPatterns U patterns = .ok out) :
    ((∃ again, asHostPatterns U out = .ok again ∧ ∀ entry, entry ∈ again ↔ entry ∈ out) ∧
      (∀ p : Policy, p.allowedHosts = out → p.Survives U) ∧
      ∀ entry ∈ out, ¬ EndsInDot entry ∧ StarLeads entry) ↔
    ∀ pattern ∈ patterns, Settles U pattern := by
  have hnodup : out.Nodup := by
    obtain ⟨entries, -, rfl⟩ := asHostPatterns_eq_ok.mp h
    exact List.nodup_dedup entries
  have hlower : ∀ entry ∈ out, entry.map lowerChar = entry ∧ isAscii entry = true := by
    intro entry hentry
    obtain ⟨pattern, -, heq⟩ := mem_asHostPatterns h hentry
    exact map_lowerChar_of_asHostPattern heq
  have hsettles : (∀ entry ∈ out, asHostPattern U entry = .ok entry) ↔ ∀ pattern ∈ patterns, Settles U pattern := by
    constructor
    · intro hfixed pattern hpattern
      obtain ⟨entry, hentry, heq⟩ := exists_mem_asHostPatterns h hpattern
      exact (asHostPattern_fixed_iff heq).mp (hfixed entry hentry)
    · intro hall entry hentry
      obtain ⟨pattern, hpattern, heq⟩ := mem_asHostPatterns h hentry
      exact (asHostPattern_fixed_iff heq).mpr (hall pattern hpattern)
  rw [← hsettles]
  constructor
  · rintro ⟨hagain, -, -⟩
    exact (asHostPatterns_fixed hnodup hlower).mp hagain
  · intro hfixed
    have hout := asHostPatterns_of_fixed hnodup hfixed
    refine ⟨⟨out, hout, fun _ => Iff.rfl⟩, ?_, fun entry hentry => ?_⟩
    · rintro p rfl
      exact Policy.survives hout
    · obtain ⟨pattern, -, heq⟩ := mem_asHostPatterns h hentry
      obtain ⟨-, hstar, -, -, hdot⟩ := (asHostPattern_fixed heq).mp (hfixed entry hentry)
      exact ⟨hdot, hstar⟩

/-- Patterns that settle: a trailing dot, a wildcard and capital letters. -/
theorem asHostPatterns_rebuilt_settled :
    ∃ again, asHostPatterns .ascii [text "a.b", text "*.c"] = .ok again ∧
      ∀ entry, entry ∈ again ↔ entry ∈ [text "a.b", text "*.c"] := by
  have hstored : asHostPatterns .ascii [text " A.b.", text "*.C"] = .ok [text "a.b", text "*.c"] := by
    decide +kernel
  refine ((asHostPatterns_rebuilt_iff hstored).mpr ?_).1
  have hspace : ¬ EndsInSpace (text "A.b") ∧ ¬ EndsInSpace (text "*.C") := by
    refine ⟨?_, ?_⟩
    · rintro ⟨c, hc, hspace⟩
      cases hc
      exact absurd hspace (by decide)
    · rintro ⟨c, hc, hspace⟩
      cases hc
      exact absurd hspace (by decide)
  intro pattern hpattern
  rcases List.mem_pair.mp hpattern with rfl | rfl
  · exact hspace.1
  · exact hspace.2

/-- `Policy(allowed_hosts={"example.com ."})`: what is stored. -/
def spacedEntry : Policy :=
  ⟨{ allowedHosts := [text "example.com "] }, (@PolicyFields.objection_eq_none .ascii _).mp (by decide +kernel)⟩

/-- White space before the dots at the end is stored. Built again, the policy lists another name, which it
did not permit before. -/
theorem asHostPatterns_spaced :
    Policy.ofArgs .ascii { allowedHosts := [text "example.com ."] } = .ok spacedEntry ∧
      asHostPatterns .ascii [text "example.com ."] = .ok [text "example.com "] ∧
      asHostPatterns .ascii [text "example.com "] = .ok [text "example.com"] ∧
      (spacedEntry.checkHostOnly .ascii (text "example.com")).isOk = false ∧
      ¬ ((∃ again, asHostPatterns .ascii [text "example.com "] = .ok again ∧
          ∀ entry, entry ∈ again ↔ entry ∈ [text "example.com "]) ∧
        (∀ p : Policy, p.allowedHosts = [text "example.com "] → p.Survives .ascii) ∧
        ∀ entry ∈ [text "example.com "], ¬ EndsInDot entry ∧ StarLeads entry) := by
  have hstored : asHostPatterns .ascii [text "example.com ."] = .ok [text "example.com "] := by decide +kernel
  have hagain : asHostPatterns .ascii [text "example.com "] = .ok [text "example.com"] := by decide +kernel
  refine ⟨?_, hstored, hagain, by decide +kernel, ?_⟩
  · rw [Policy.ofArgs, asNetworks, hstored]
    exact Policy.ofFields_eq_ok.mpr rfl
  · rintro ⟨⟨again, heq, hsame⟩, -⟩
    rw [hagain] at heq
    cases heq
    exact absurd ((hsame (text "example.com")).mp (List.mem_singleton_self _)) (by decide)

end SsrfGuard
