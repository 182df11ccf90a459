import SsrfGuard.Policy.CheckUrl

/-! # The host list, label by label

`allowed_hosts` is matched on text: a bare entry by equality, a wildcard by its suffix with the leading dot
kept. What is meant is a rule about labels, and a trailing dot is no part of a name. The dots at the end of
an entry are folded before the entry is normalised, and the codec may leave another one behind: it reads
three more characters as dots. The rule on texts and the rule on labels agree on every entry that ends in
none. -/

namespace SsrfGuard

variable {U : Unicode} {p : Policy} {host entry name base : Str}

/-! ## The rule on labels -/

/-- The labels of a name: its text without trailing dots, split at the dots. -/
def nameLabels (s : Str) : List Str := split '.' (rstripDots s)

/-- Whether a text ends in a dot. -/
def EndsInDot (s : Str) : Prop := s.getLast? = some (ord '.')

/-- The rule for one entry: a bare one has the labels of the name, and the base of a wildcard has the last
ones, behind some further text. -/
def EntryNames (host entry : Str) : Prop :=
  if (text "*.").isPrefixOf entry then
    ∃ front, front ≠ [] ∧ join (text ".") front ≠ [] ∧ nameLabels host = front ++ nameLabels (entry.drop 2)
  else nameLabels host = nameLabels entry

/-- The rule for a list of entries: a literal is listed as it is written, a name by its labels. -/
def Policy.Lists (p : Policy) (host : Str) (literal : Bool) : Prop :=
  if literal then host ∈ p.allowedHosts else ∃ entry ∈ p.allowedHosts, EntryNames host entry

/-- Where a dot at the end makes no difference. A literal ends in none, or is listed with it and without it
alike. For a name, no entry that ends in one has its labels, or an entry that ends in none has them too. -/
def Policy.FoldsDots (p : Policy) (host : Str) (literal : Bool) : Prop :=
  if literal then ¬ EndsInDot host ∨ (host ∈ p.allowedHosts ↔ rstripDots host ∈ p.allowedHosts)
  else (∀ entry ∈ p.allowedHosts, EndsInDot entry → ¬ EntryNames host entry) ∨
    ∃ entry ∈ p.allowedHosts, ¬ EndsInDot entry ∧ EntryNames host entry

/-! ## Dots at the end -/

theorem not_endsInDot_rstripDots (s : Str) : ¬ EndsInDot (rstripDots s) := by
  intro h
  have hne : rstripDots s ≠ [] := by
    intro hnil
    rw [EndsInDot, hnil] at h
    cases h
  refine List.rdropWhile_last_not (· == ord '.') s hne ?_
  rw [EndsInDot, List.getLast?_eq_some_getLast hne] at h
  exact beq_iff_eq.mpr (Option.some.inj h)

theorem rstripDots_eq_self (h : ¬ EndsInDot name) : rstripDots name = name := by
  refine List.rdropWhile_eq_self_iff.mpr fun hne hlast => h ?_
  rw [EndsInDot, List.getLast?_eq_some_getLast hne, beq_iff_eq.mp hlast]

theorem endsInDot_append (front : Str) (hne : base ≠ []) : EndsInDot (front ++ base) ↔ EndsInDot base := by
  rw [EndsInDot, EndsInDot, List.getLast?_append_of_ne_nil _ hne]

theorem not_endsInDot_of_cons (h : ¬ EndsInDot (ord '.' :: base)) : ¬ EndsInDot base := by
  intro hbase
  refine h ((endsInDot_append [ord '.'] ?_).mpr hbase)
  rintro rfl
  cases hbase

/-! ## One entry -/

theorem nameLabels_inj {name other : Str} :
    nameLabels name = nameLabels other ↔ rstripDots name = rstripDots other :=
  Scan.splitOn_inj

/-- The text of a name behind a further label is the text of a wildcard's suffix. -/
theorem patternPermits_wildcard :
    patternPermits name false (text "*." ++ base) = true ↔ ∃ label, label ≠ [] ∧ name = label ++ ord '.' :: base := by
  constructor
  · intro h
    obtain ⟨label, hlabel, hname⟩ := base_lt_of_patternPermits h
    refine ⟨label, hlabel, ?_⟩
    rw [hname, List.append_assoc]
    rfl
  · rintro ⟨label, hlabel, rfl⟩
    have hlead : (text "*.").isPrefixOf (text "*." ++ base) = true :=
      List.isPrefixOf_iff_prefix.mpr (List.prefix_append _ _)
    rw [patternPermits, if_neg (by decide), if_pos hlead, Bool.and_eq_true]
    refine ⟨List.isSuffixOf_iff_suffix.mpr ⟨label, rfl⟩, decide_eq_true ?_⟩
    have hpos := List.length_pos_of_ne_nil hlabel
    rw [List.length_append]
    exact Nat.lt_add_of_pos_left hpos

theorem entryNames_wildcard : EntryNames host (text "*." ++ base) ↔
    ∃ label, label ≠ [] ∧ rstripDots host = label ++ ord '.' :: rstripDots base := by
  have hlead : (text "*.").isPrefixOf (text "*." ++ base) = true :=
    List.isPrefixOf_iff_prefix.mpr (List.prefix_append _ _)
  rw [EntryNames, if_pos hlead]
  exact Scan.splitOn_eq_append_iff

/-- **One entry.** The matcher permits a name for an entry that names it and does not end in a dot. -/
theorem patternPermits_iff :
    patternPermits (rstripDots host) false entry = true ↔ EntryNames host entry ∧ ¬ EndsInDot entry := by
  by_cases hlead : (text "*.").isPrefixOf entry = true
  · obtain ⟨base, rfl⟩ := List.isPrefixOf_iff_prefix.mp hlead
    have hends : EndsInDot (text "*." ++ base) ↔ EndsInDot (ord '.' :: base) :=
      endsInDot_append (text "*") (List.cons_ne_nil _ _)
    rw [patternPermits_wildcard, entryNames_wildcard, hends]
    constructor
    · rintro ⟨label, hlabel, hname⟩
      have hdot : ¬ EndsInDot (ord '.' :: base) := by
        rw [← endsInDot_append label (List.cons_ne_nil _ _), ← hname]
        exact not_endsInDot_rstripDots host
      refine ⟨⟨label, hlabel, ?_⟩, hdot⟩
      rw [rstripDots_eq_self (not_endsInDot_of_cons hdot)]
      exact hname
    · rintro ⟨⟨label, hlabel, hname⟩, hdot⟩
      rw [rstripDots_eq_self (not_endsInDot_of_cons hdot)] at hname
      exact ⟨label, hlabel, hname⟩
  · rw [patternPermits, if_neg (by decide), if_neg hlead, EntryNames, if_neg hlead, nameLabels_inj, beq_iff_eq]
    constructor
    · rintro rfl
      have hdot := not_endsInDot_rstripDots host
      rw [rstripDots_eq_self hdot]
      exact ⟨rfl, hdot⟩
    · rintro ⟨hname, hdot⟩
      rw [hname, rstripDots_eq_self hdot]

/-- A wildcard does not have the text of a literal: an address starts with no `*`. -/
theorem patternPermits_literal (h : (literalAddress U host).isSome = true) (base : Str) :
    patternPermits (rstripDots host) true (text "*." ++ base) = false := by
  rw [patternPermits, if_pos rfl]
  refine beq_eq_false_iff_ne.mpr fun hname => ?_
  rw [literalAddress_eq] at h
  obtain ⟨a, ha⟩ := Option.isSome_iff_exists.mp h
  obtain ⟨addr, zone, hhost, hne, hchars, -⟩ := exists_zone_of_parseAddress ha
  obtain ⟨c, addr, rfl⟩ := List.exists_cons_of_ne_nil hne
  have hprefix : ord '*' :: (text "." ++ base) <+: host := by
    have hstrip : rstripDots host <+: host := List.rdropWhile_prefix _ host
    rw [hname] at hstrip
    exact hstrip
  rw [hhost, List.cons_append, List.cons_prefix_cons] at hprefix
  have hchar := hchars c List.mem_cons_self
  rw [← hprefix.1] at hchar
  exact absurd hchar (by decide)

/-- Text in front of the base that does not end in a dot is no further label. -/
theorem patternPermits_suffix {front : Str} (hname : name = front ++ base) (hfront : ¬ EndsInDot front) :
    patternPermits name false (text "*." ++ base) = false := by
  refine Bool.eq_false_iff.mpr fun h => hfront ?_
  obtain ⟨label, -, hlabel⟩ := patternPermits_wildcard.mp h
  have hcut : front ++ base = (label ++ [ord '.']) ++ base := by
    rw [← hname, hlabel, List.append_assoc, List.singleton_append]
  rw [List.append_cancel_right hcut, EndsInDot, List.getLast?_concat]

/-! ## The whole list -/

theorem hostIsAllowed_literal {patterns : List Str} :
    hostIsAllowed host patterns true = true ↔ rstripDots host ∈ patterns := by
  refine ⟨mem_of_hostIsAllowed_literal, fun h => List.any_eq_true.mpr ⟨_, h, ?_⟩⟩
  rw [patternPermits, if_pos rfl, beq_self_eq_true]

theorem hostIsAllowed_name {patterns : List Str} :
    hostIsAllowed host patterns false = true ↔
      ∃ entry ∈ patterns, EntryNames host entry ∧ ¬ EndsInDot entry := by
  rw [hostIsAllowed, List.any_eq_true]
  exact exists_congr fun entry => and_congr_right fun _ => patternPermits_iff

/-- The matcher follows the rule on labels exactly where dots are folded on both sides. -/
theorem Policy.hostIsAllowed_lists_iff (p : Policy) (host : Str) (literal : Bool) :
    (hostIsAllowed host p.allowedHosts literal = true ↔ p.Lists host literal) ↔ p.FoldsDots host literal := by
  cases literal with
  | true =>
      rw [hostIsAllowed_literal, Policy.Lists, if_pos rfl, Policy.FoldsDots, if_pos rfl]
      refine ⟨fun h => .inr h.symm, fun h => ?_⟩
      rcases h with hdot | h
      · rw [rstripDots_eq_self hdot]
      · exact h.symm
  | false =>
      rw [hostIsAllowed_name, Policy.Lists, if_neg (by decide), Policy.FoldsDots, if_neg (by decide)]
      constructor
      · intro h
        by_cases hall : ∀ entry ∈ p.allowedHosts, EndsInDot entry → ¬ EntryNames host entry
        · exact .inl hall
        · simp only [not_forall, not_not] at hall
          obtain ⟨entry, hentry, -, hnames⟩ := hall
          obtain ⟨other, hother, hnames, hdot⟩ := h.mpr ⟨entry, hentry, hnames⟩
          exact .inr ⟨other, hother, hdot, hnames⟩
      · rintro (hnone | ⟨other, hother, hdot, hnames⟩)
        -- no entry with a dot at its end is asked for, or another entry answers for it
        · refine ⟨fun ⟨entry, hentry, hnames, _⟩ => ⟨entry, hentry, hnames⟩, ?_⟩
          rintro ⟨entry, hentry, hnames⟩
          exact ⟨entry, hentry, hnames, fun hdot => hnone entry hentry hdot hnames⟩
        · exact iff_of_true ⟨other, hother, hnames, hdot⟩ ⟨other, hother, hnames⟩

/-- **The list of hosts, by labels.** Where hosts are listed, a host is admitted exactly when the rule on
labels lists it, on the condition that the dots at the end are folded on both sides: a literal does not end
in a dot, or is listed with it and without it alike; and a name is the name of no entry that ends in a dot,
or also of one that does not. Both layers ask the same question, `check_url` of the host it has parsed. A
wildcard never admits a literal, and never a name that only ends in the text of its base. -/
theorem Policy.checkHostOnly_lists_iff (hlisted : p.allowedHosts ≠ []) (host : Str) :
    ((p.checkHostOnly U host = .ok () ↔ p.Lists host (literalAddress U host).isSome) ↔
      p.FoldsDots host (literalAddress U host).isSome) ∧
    (∀ url split asWritten address, checkHost U url split = .ok (host, asWritten, address) →
      ((p.checkListed U url host address = .ok () ↔ p.Lists host address.isSome) ↔
        p.FoldsDots host address.isSome)) ∧
    ((literalAddress U host).isSome = true →
      ∀ base, patternPermits (rstripDots host) true (text "*." ++ base) = false) ∧
    ∀ front base, rstripDots host = front ++ base → ¬ EndsInDot front →
      patternPermits (rstripDots host) false (text "*." ++ base) = false := by
  refine ⟨?_, fun url split asWritten address _ => ?_, patternPermits_literal, fun front base hname hfront => ?_⟩
  · rw [Policy.checkHostOnly, if_neg hlisted, Policy.checkHostIsListed_eq_ok]
    exact p.hostIsAllowed_lists_iff host _
  · rw [Policy.checkListed, if_neg hlisted, Policy.checkHostIsListed_eq_ok]
    exact p.hostIsAllowed_lists_iff host _
  · exact patternPermits_suffix hname hfront

/-- An interpreter whose codec reads U+3002 as a dot, as the `idna` codec does. -/
def ideographicDot : Unicode :=
  { Unicode.ascii with idna := fun s => .ok (s.map fun c => if c = 0x3002 then 0x2E else UInt8.ofNat c) }

/-- `Policy(allowed_hosts={"example.com\u3002"})`: what the codec has left of the entry. -/
def ideographicEntry : Policy :=
  ⟨{ allowedHosts := [text "example.com."] }, (@PolicyFields.objection_eq_none .ascii _).mp (by decide +kernel)⟩

/-- An entry that ends in U+3002 names no host, not even the one it spells. -/
theorem Policy.ideographicEntry_refused :
    Policy.ofArgs ideographicDot { allowedHosts := [text "example.com\u3002"] } = .ok ideographicEntry ∧
      ideographicEntry.allowedHosts ≠ [] ∧
      (∃ split, checkHost ideographicDot (text "http://example.com/") split =
        .ok (text "example.com", text "example.com", none)) ∧
      (ideographicEntry.decide ideographicDot (text "http://example.com/")).isOk = false ∧
      ¬ (ideographicEntry.checkHostOnly ideographicDot (text "example.com") = .ok () ↔
        ideographicEntry.Lists (text "example.com")
          (literalAddress ideographicDot (text "example.com")).isSome) := by
  have hpatterns : asHostPatterns ideographicDot [text "example.com\u3002"] = .ok [text "example.com."] := by
    decide +kernel
  refine ⟨?_, List.cons_ne_nil _ _, ⟨⟨text "http", text "example.com"⟩, by decide +kernel⟩,
    by decide +kernel, fun h => ?_⟩
  · rw [Policy.ofArgs, asNetworks, hpatterns]
    exact Policy.ofFields_eq_ok.mpr rfl
  · have hname : (literalAddress ideographicDot (text "example.com")).isSome = false := by decide +kernel
    have hlists : ideographicEntry.Lists (text "example.com")
        (literalAddress ideographicDot (text "example.com")).isSome := by
      rw [hname]
      exact ⟨text "example.com.", List.mem_singleton_self _, by rw [EntryNames, if_neg (by decide)]; decide +kernel⟩
    exact absurd (h.mpr hlists) (by decide +kernel)

/-- `Policy(allowed_hosts={"a.b"})`. -/
def listedEntry : Policy :=
  ⟨{ allowedHosts := [text "a.b"] }, (@PolicyFields.objection_eq_none .ascii _).mp (by decide +kernel)⟩

/-- An entry without a dot at its end admits its name with a dot and without one. -/
theorem Policy.checkHostOnly_lists_listed :
    listedEntry.checkHostOnly .ascii (text "a.b.") = .ok () ↔
      listedEntry.Lists (text "a.b.") (literalAddress .ascii (text "a.b.")).isSome := by
  refine (Policy.checkHostOnly_lists_iff (List.cons_ne_nil _ _) (text "a.b.")).1.mpr ?_
  have hname : (literalAddress .ascii (text "a.b.")).isSome = false := by decide +kernel
  rw [hname]
  refine .inl fun entry hentry hdot => ?_
  rw [List.mem_singleton.mp hentry] at hdot
  exact absurd hdot (by rw [EndsInDot]; decide)

/-! ## What an entry is stored as -/

variable {pattern stored s : Str}

/-- What is left of a pattern when it is stripped: of white space at both ends, then of dots behind. -/
def hostEntry (pattern : Str) : Str := rstripDots (strip pattern)

theorem strip_begins (s : Str) : strip s <+: s.dropWhile isSpace := List.rdropWhile_prefix _ _

theorem hostEntry_begins (s : Str) : hostEntry s <+: s.dropWhile isSpace :=
  (List.rdropWhile_prefix _ _).trans (strip_begins s)

theorem hostEntry_sublist (s : Str) : (hostEntry s).Sublist s :=
  (hostEntry_begins s).sublist.trans (List.dropWhile_sublist _)

theorem not_endsInDot_hostEntry (s : Str) : ¬ EndsInDot (hostEntry s) := not_endsInDot_rstripDots _

theorem isAscii_hostEntry (h : isAscii s = true) : isAscii (hostEntry s) = true :=
  isAscii_of_subset (hostEntry_sublist s).subset h

/-- The head of an entry and what is behind its first dot make the entry again. -/
theorem eq_of_partition_dot {head rest : Str} (h : (Scan.partition [ord '.'] s).getD (s, []) = (head, rest)) :
    s = head ∧ rest = [] ∨ s = head ++ ord '.' :: rest := by
  cases hcut : Scan.partition [ord '.'] s with
  | none =>
      rw [hcut] at h
      cases h
      exact .inl ⟨rfl, rfl⟩
  | some cut =>
      rw [hcut, Option.getD_some] at h
      subst h
      exact .inr (Scan.partition_singleton_eq_some.mp hcut).1

theorem partition_dot_star (base : Str) :
    Scan.partition [ord '.'] (text "*." ++ base) = some (text "*", base) :=
  Scan.partition_singleton_eq_some.mpr ⟨rfl, by decide⟩

/-- **One entry**: a name without a `*`, or a base without one behind `*.`, is normalised; anything else is
refused. -/
theorem asHostPattern_eq_ok : asHostPattern U pattern = .ok stored ↔ hostEntry pattern ≠ [] ∧
    (ord '*' ∉ hostEntry pattern ∧ normalise U pattern (hostEntry pattern) = .ok stored ∨
      ∃ base label, base ≠ [] ∧ hostEntry pattern = text "*." ++ base ∧ ord '*' ∉ base ∧
        normalise U pattern base = .ok label ∧ stored = text "*." ++ label) := by
  rw [asHostPattern, show rstripDots (strip pattern) = hostEntry pattern from rfl]
  cases hcut : (Scan.partition [ord '.'] (hostEntry pattern)).getD (hostEntry pattern, []) with
  | mk head rest =>
      have hentry := eq_of_partition_dot hcut
      dsimp only
      constructor
      · intro h
        split_ifs at h with hempty hstar hall hwild
        · obtain ⟨label, hlabel, rfl⟩ := Except.map_eq_ok.mp (Except.mapError_eq_ok.mp h)
          have hrest : rest ≠ [] := fun hnil => hall ⟨hwild, hnil⟩
          refine ⟨hempty, .inr ⟨rest, label, hrest, ?_, fun h => hstar (.inl h), hlabel, rfl⟩⟩
          rcases hentry with ⟨-, hnil⟩ | hentry
          · exact absurd hnil hrest
          · rw [hentry, hwild]
            rfl
        · refine ⟨hempty, .inl ⟨fun hmem => hstar ?_, Except.mapError_eq_ok.mp h⟩⟩
          rcases hentry with ⟨hentry, -⟩ | hentry
          · exact .inr ⟨hentry ▸ hmem, hwild⟩
          · rw [hentry, List.mem_append, List.mem_cons] at hmem
            rcases hmem with hmem | hmem | hmem
            · exact .inr ⟨hmem, hwild⟩
            · exact absurd hmem (by decide)
            · exact .inl hmem
      · rintro ⟨hempty, ⟨hstar, hlabel⟩ | ⟨base, label, hbase, hwild, hstar, hlabel, rfl⟩⟩
        -- a name: neither part of it holds a `*`
        · have hhead : ord '*' ∉ head := by
            rcases hentry with ⟨hentry, -⟩ | hentry
            · rwa [← hentry]
            · exact fun hmem => hstar (hentry ▸ List.mem_append_left _ hmem)
          have hrest : ord '*' ∉ rest := by
            rcases hentry with ⟨-, rfl⟩ | hentry
            · exact List.not_mem_nil
            · exact fun hmem => hstar (hentry ▸ List.mem_append_right _ (List.mem_cons_of_mem _ hmem))
          have hname : head ≠ text "*" := by
            rintro rfl
            exact hhead List.mem_cons_self
          rw [if_neg hempty, if_neg (by rintro (h | h); exacts [hrest h, hhead h.1]),
            if_neg (fun h => hname h.1), if_neg hname]
          exact Except.mapError_eq_ok.mpr hlabel
        · rw [hwild, partition_dot_star, Option.getD_some] at hcut
          cases hcut
          rw [if_neg hempty, if_neg (by rintro (h | h); exacts [hstar h, h.2 rfl]),
            if_neg (fun h => hbase h.2), if_pos rfl]
          exact Except.mapError_eq_ok.mpr (Except.map_eq_ok.mpr ⟨label, hlabel, rfl⟩)

theorem mem_asHostPatterns {patterns out : List Str} (h : asHostPatterns U patterns = .ok out)
    (hentry : entry ∈ out) : ∃ pattern ∈ patterns, asHostPattern U pattern = .ok entry := by
  induction patterns generalizing out with
  | nil =>
      cases h
      cases hentry
  | cons pattern patterns ih =>
      rw [asHostPatterns] at h
      cases hp : asHostPattern U pattern with
      | error e =>
          rw [hp] at h
          cases h
      | ok first =>
          rw [hp] at h
          obtain ⟨rest, hrest, rfl⟩ := Except.map_eq_ok.mp h
          rcases List.mem_cons.mp (List.mem_dedup.mp hentry) with rfl | hentry
          · exact ⟨pattern, List.mem_cons_self, hp⟩
          · obtain ⟨other, hother, heq⟩ := ih hrest hentry
            exact ⟨other, List.mem_cons_of_mem _ hother, heq⟩

end SsrfGuard
