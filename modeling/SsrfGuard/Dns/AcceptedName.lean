import SsrfGuard.Dns.NameRoundTrip
import SsrfGuard.Policy.HostList

/-! # Names the policy accepts and the resolver encodes

`check_url` measures a host as it is written, before the codec has turned it into A-labels, and the codec only
ever makes a name longer. The labels of an accepted name are all labels of the wire format. The whole name is
short enough for it where it was written in ASCII; otherwise it may have grown past what the wire can carry,
and then the encoder refuses it. -/

namespace SsrfGuard.Dns

variable {U : Unicode} {p : Policy} {url host : Str} {t : Target}

/-! ## Labels of a lower-cased name -/

theorem rstripDots_map_lowerChar (s : Str) : rstripDots (s.map lowerChar) = (rstripDots s).map lowerChar := by
  have hdot : (fun c => c == ord '.') ∘ lowerChar = fun c => c == ord '.' := by
    funext c
    rw [Function.comp_apply, Bool.eq_iff_iff, beq_iff_eq, beq_iff_eq, lowerChar_eq_dot_iff]
  rw [rstripDots, rstripDots, List.rdropWhile, List.rdropWhile, ← List.map_reverse, List.dropWhile_map, hdot,
    ← List.map_reverse]

theorem split_map_lowerChar (s : Str) : split '.' (s.map lowerChar) = (split '.' s).map (·.map lowerChar) := by
  have hjoin : s.map lowerChar = [ord '.'].intercalate ((split '.' s).map (·.map lowerChar)) := by
    have hmap := Scan.map_intercalate lowerChar [ord '.'] (split '.' s)
    rw [intercalate_split] at hmap
    exact hmap
  rw [hjoin]
  refine List.splitOn_intercalate (ord '.') ?_ fun h => ?_
  · intro label hlabel hdot
    obtain ⟨part, hpart, rfl⟩ := List.mem_map.mp hlabel
    exact Scan.not_mem_of_mem_splitOn hpart (mem_of_mem_map_lowerChar (by decide) hdot)
  · exact List.splitOn_ne_nil (ord '.') s (List.map_eq_nil_iff.mp h)

/-- Lower-casing leaves the dots where they are. -/
theorem nameLabels_map_lowerChar (s : Str) :
    nameLabels (s.map lowerChar) = (nameLabels s).map (·.map lowerChar) := by
  rw [nameLabels, rstripDots_map_lowerChar, split_map_lowerChar, nameLabels]

/-! ## Labels of an accepted name -/

/-- A label the wire format can carry. -/
structure FitsLabel (label : Str) : Prop where
  /-- It is not empty. -/
  ne_nil : label ≠ []
  /-- It is not too long. -/
  length_le : label.length ≤ maxLabelBytes
  /-- It is ASCII. -/
  ascii : isAscii label = true

instance (label : Str) : Decidable (FitsLabel label) :=
  decidable_of_iff (label ≠ [] ∧ label.length ≤ maxLabelBytes ∧ isAscii label = true)
    ⟨fun h => ⟨h.1, h.2.1, h.2.2⟩, fun h => ⟨h.ne_nil, h.length_le, h.ascii⟩⟩

theorem FitsLabel.map_lowerChar {label : Str} (h : FitsLabel label) : FitsLabel (label.map lowerChar) where
  ne_nil := fun hnil => h.ne_nil (List.map_eq_nil_iff.mp hnil)
  length_le := by rw [List.length_map]; exact h.length_le
  ascii := isAscii_map_lowerChar h.ascii

/-- What is relied on of the interpreter: each label the `idna` codec produces is one to 63 bytes of ASCII,
and lower-casing a text makes no newline. -/
structure WritesLabels (U : Unicode) : Prop where
  /-- The labels of what the codec returns. -/
  idna : ∀ s bytes, U.idna s = .ok bytes → ∀ label ∈ nameLabels (labelChars bytes), FitsLabel label
  /-- A newline in a lower-cased text was there before. -/
  lower : ∀ s, 0x0A ∈ U.lower s → 0x0A ∈ s

theorem fits_of_areHostLabels {labels : List Str} (h : areHostLabels labels = true) {label : Str}
    (hlabel : label ∈ labels) : label ≠ [] ∧ label.length ≤ maxLabelBytes := by
  induction labels with
  | nil => cases hlabel
  | cons first rest ih =>
      cases rest with
      | nil =>
          rw [List.mem_singleton.mp hlabel]
          rw [areHostLabels, isLastHostLabel, Bool.and_eq_true, Bool.and_eq_true, decide_eq_true_eq,
            Bool.not_eq_true', List.isEmpty_eq_false_iff] at h
          exact h.1
      | cons next rest =>
          obtain ⟨hfirst, hrest⟩ := Bool.and_eq_true_iff.mp h
          rcases List.mem_cons.mp hlabel with rfl | hlabel
          · simp only [isHostLabel, Bool.and_eq_true, decide_eq_true_eq] at hfirst
            refine ⟨?_, hfirst.1.1.1⟩
            rintro rfl
            exact absurd hfirst.2 (by decide)
          · exact ih hrest hlabel

/-- Joined labels end as the last one does. -/
theorem exists_join_eq_append (labels : List Str) (last : Str) :
    ∃ front, [ord '.'].intercalate (labels ++ [last]) = front ++ last := by
  by_cases hnil : labels = []
  · rw [hnil]
    exact ⟨[], List.intercalate_singleton⟩
  · refine ⟨[ord '.'].intercalate labels ++ [ord '.'], ?_⟩
    rw [Scan.intercalate_append hnil (List.cons_ne_nil _ _), List.intercalate_singleton, List.append_assoc]
    rfl

/-- The labels the grammar reads are those of the name. -/
theorem nameLabels_eq_hostLabels {s : Str} (h : areHostLabels (hostLabels s) = true) :
    nameLabels s = hostLabels s := by
  have hlabels : hostLabels s =
      if (split '.' s).getLast? = some [] then (split '.' s).dropLast else split '.' s := rfl
  have hjoin := intercalate_split '.' s
  by_cases hlast : (split '.' s).getLast? = some []
  · -- the dot at the end leaves an empty label behind, and the label before it ends in none
    obtain ⟨labels, hsplit⟩ := List.getLast?_eq_some_iff.mp hlast
    rw [hlabels, if_pos hlast, hsplit, List.dropLast_concat] at h ⊢
    have hne : labels ≠ [] := by
      rintro rfl
      cases h
    have hs : s = [ord '.'].intercalate labels ++ [ord '.'] := by
      rw [hsplit, Scan.intercalate_append hne (List.cons_ne_nil _ _), List.intercalate_singleton] at hjoin
      exact hjoin.symm
    have hdots : ∀ label ∈ labels, ord '.' ∉ label := fun label hlabel =>
      Scan.not_mem_of_mem_splitOn (hsplit ▸ List.mem_append_left _ hlabel : label ∈ split '.' s)
    have hend : ¬ EndsInDot ([ord '.'].intercalate labels) := by
      obtain ⟨init, last, rfl⟩ := (List.eq_nil_or_concat' labels).resolve_left hne
      have hmem : last ∈ init ++ [last] := List.mem_append_right _ (List.mem_singleton_self last)
      obtain ⟨front, hfront⟩ := exists_join_eq_append init last
      rw [hfront, endsInDot_append front (fits_of_areHostLabels h hmem).1]
      exact fun hdot => hdots last hmem (List.mem_of_getLast? hdot)
    have hstrip : rstripDots s = [ord '.'].intercalate labels := by
      have hdrop : rstripDots s = rstripDots ([ord '.'].intercalate labels) := by
        rw [hs]
        exact List.rdropWhile_concat_pos _ _ _ rfl
      rw [hdrop, rstripDots_eq_self hend]
    rw [nameLabels, hstrip]
    exact List.splitOn_intercalate (ord '.') hdots hne
  · rw [hlabels, if_neg hlast, nameLabels, rstripDots_eq_self]
    intro hdot
    obtain ⟨front, rfl⟩ := List.getLast?_eq_some_iff.mp hdot
    refine hlast ?_
    have hsplit : split '.' (front ++ [ord '.']) = split '.' front ++ [[]] :=
      List.splitOn_append_cons_self front []
    rw [hsplit, List.getLast?_concat]

theorem WritesLabels.newline_of_lower (hU : WritesLabels U) {s : Str} (h : 0x0A ∈ SsrfGuard.lower U s) :
    0x0A ∈ s := by
  unfold SsrfGuard.lower at h
  split at h
  · exact mem_of_mem_map_lowerChar (by decide) h
  · exact hU.lower s h

/-- A host that has been read holds no newline but one of its authority. -/
theorem WritesLabels.newline_of_hostname (hU : WritesLabels U) {split : SplitResult} {raw : Str}
    (h : split.hostname U = some raw) (hnewline : 0x0A ∈ raw) : 0x0A ∈ split.netloc := by
  refine split.hostinfo_subset ?_
  unfold SplitResult.hostname at h
  dsimp only at h
  split at h
  · cases h
  · split at h
    · cases h
      exact hU.newline_of_lower hnewline
    · next address zone hcut =>
      cases h
      obtain ⟨haddress, hzone⟩ := subset_of_partition hcut
      rcases List.mem_append.mp hnewline with hnewline | hnewline
      · rcases List.mem_append.mp hnewline with hnewline | hnewline
        · exact haddress (hU.newline_of_lower hnewline)
        · exact absurd hnewline (by decide)
      · exact hzone hnewline

theorem subset_of_mem_nameLabels {s label : Str} (h : label ∈ nameLabels s) : label ⊆ s := by
  have hjoin : [ord '.'].intercalate (nameLabels s) = rstripDots s := intercalate_split '.' _
  intro c hc
  have hmem := @Scan.subset_intercalate_of_mem _ [ord '.'] _ _ h c hc
  rw [hjoin] at hmem
  exact (List.rdropWhile_prefix _ s).subset hmem

/-- The labels of a name that matches the grammar, without the newline its end tolerates. -/
theorem fits_of_hostnameMatch {s : Str} (h : hostnameMatch s = true) (hascii : isAscii s = true)
    (hnewline : 0x0A ∉ s) : ∀ label ∈ nameLabels s, FitsLabel label := by
  rw [hostnameMatch, dropFinalNewline, if_neg fun hlast => hnewline (List.mem_of_getLast? hlast)] at h
  intro label hlabel
  have hsub := subset_of_mem_nameLabels hlabel
  rw [nameLabels_eq_hostLabels h] at hlabel
  obtain ⟨hne, hlength⟩ := fits_of_areHostLabels h hlabel
  exact ⟨hne, hlength, isAscii_of_subset hsub hascii⟩

/-- A host written in ASCII holds no newline once it is normalised: the URL held no control character. -/
theorem newline_not_mem_of_decide (hU : WritesLabels U) (h : p.decide U url = .ok t)
    (hascii : isAscii t.hostAsWritten = true) : 0x0A ∉ t.host := by
  obtain ⟨-, hclean, split, hsplit, -, -, hhost, -, -, -⟩ := Policy.decide_eq_ok_iff.mp h
  obtain ⟨hraw, -, -, -, hnormalise, -⟩ := checkHost_eq_ok.mp hhost
  intro hmem
  rw [eq_of_normalise hnormalise hascii] at hmem
  have hnetloc := hU.newline_of_hostname hraw (mem_of_mem_map_lowerChar (by decide) hmem)
  rw [urlsplit_eq_ok (urlsplit_of_splitUrl hsplit)] at hnetloc
  have hurl := cleaned_subset _ (splitScheme_subset _ (netlocOf_subset _ hnetloc))
  exact absurd (hclean _ hurl) (by decide)

/-- Every label of an accepted name fits: of a name written in ASCII by the grammar, of any other by what is
relied on of the codec. -/
theorem fits_of_decide (hU : WritesLabels U) (h : p.decide U url = .ok t) (hname : t.address = none) :
    ∀ label ∈ nameLabels t.host, FitsLabel label := by
  obtain ⟨-, -, split, -, -, -, hhost, -, -, -⟩ := Policy.decide_eq_ok_iff.mp h
  obtain ⟨-, -, -, -, hnormalise, hclassify⟩ := checkHost_eq_ok.mp hhost
  by_cases hascii : isAscii t.hostAsWritten = true
  · rcases shape_of_classifyHost hclassify with ⟨a, -, ha⟩ | ⟨hmatch, -, -⟩
    · rw [hname] at ha
      cases ha
    · exact fits_of_hostnameMatch hmatch (isAscii_of_normalise hnormalise) (newline_not_mem_of_decide hU h hascii)
  · -- what the codec has written, decoded and lower-cased
    obtain ⟨label, hlowered, -, -, hcodec⟩ := normalise_eq_ok.mp hnormalise
    obtain ⟨bytes, hbytes, hdecoded⟩ := hcodec (Bool.eq_false_iff.mpr hascii)
    rw [hlowered, nameLabels_map_lowerChar, (decodeAscii_eq_ok hdecoded).1]
    intro label hlabel
    obtain ⟨part, hpart, rfl⟩ := List.mem_map.mp hlabel
    exact (hU.idna _ _ hbytes part hpart).map_lowerChar

/-! ## What the encoder accepts of them -/

theorem length_dotted {labels : List Bytes} (hne : labels ≠ []) :
    (dotted labels).length + 1 = labelBytes labels := by
  have hlength : ∀ label : Bytes, (labelChars label).length = label.length := fun label => List.length_map _
  have hparts : labels.map labelChars ≠ [] := mt List.map_eq_nil_iff.mp hne
  have hjoined := @Scan.length_intercalate_singleton _ (ord '.') _ hparts
  rw [List.map_map] at hjoined
  exact hjoined.trans (congrArg List.sum (List.map_congr_left fun label _ => congrArg (· + 1) (hlength label)))

/-- A name whose labels fit is encoded where it is short enough with all of them. -/
theorem encodeName_iff_of_fits (hfits : ∀ label ∈ nameLabels host, FitsLabel label) :
    (∃ encoded, encodeName U host = .ok encoded) ↔ (rstripDots host).length ≤ longestHostname := by
  constructor
  · rintro ⟨encoded, h⟩
    obtain ⟨labels, hne, -, hdotted, hsize, -⟩ := encodeName_eq_ok.mp h
    rw [hdotted]
    have hlength := length_dotted hne
    rw [maxNameBytes] at hsize
    rw [longestHostname]
    omega
  · intro hlength
    have hlabels : ∀ label ∈ nameLabels host, labelChars (label.map UInt8.ofNat) = label :=
      fun label hlabel => labelChars_map_ofNat (hfits label hlabel).ascii
    have hchars : ((nameLabels host).map (·.map UInt8.ofNat)).map labelChars = nameLabels host := by
      rw [List.map_map]
      exact (List.map_congr_left hlabels).trans (List.map_id _)
    have hdotted : rstripDots host = dotted ((nameLabels host).map (·.map UInt8.ofNat)) := by
      rw [dotted, hchars]
      exact (intercalate_split '.' _).symm
    have hne : (nameLabels host).map (·.map UInt8.ofNat) ≠ [] := fun hnil =>
      List.splitOn_ne_nil (ord '.') _ (List.map_eq_nil_iff.mp hnil)
    have hsize := length_dotted hne
    rw [← hdotted] at hsize
    rw [longestHostname] at hlength
    refine ⟨_, encodeName_eq_ok.mpr ⟨_, hne, ?_, hdotted, ?_, rfl⟩⟩
    · intro raw hraw
      obtain ⟨label, hlabel, rfl⟩ := List.mem_map.mp hraw
      have hfit := hfits label hlabel
      exact
        { ne_nil := fun hnil => hfit.ne_nil (List.map_eq_nil_iff.mp hnil)
          length_le := by rw [List.length_map]; exact hfit.length_le
          ascii := by
            rw [← isAscii_labelChars, hlabels label hlabel]
            exact hfit.ascii
          not_dot := by
            rw [← dot_mem_labelChars, hlabels label hlabel]
            exact Scan.not_mem_of_mem_splitOn hlabel }
    · rw [maxNameBytes]
      omega

/-- **Names that can be looked up.** Every label of a name that `check_url` accepts is one to 63 bytes of
ASCII. The name itself can be encoded exactly where its A-label form, without the dots at its end, is not
longer than the longest name of DNS; a name written in ASCII always can. -/
theorem encodeName_accepted_iff {ω : Type} (hU : WritesLabels U) {observer : Option (Observer ω)} {w : ω}
    (h : ((p.checkUrl U url observer).exec w).1 = .ok t) (hname : t.address = none) :
    (∀ label ∈ nameLabels t.host, FitsLabel label) ∧
      ((∃ encoded, encodeName U t.host = .ok encoded) ↔ (rstripDots t.host).length ≤ longestHostname) ∧
      (isAscii t.hostAsWritten = true → ∃ encoded, encodeName U t.host = .ok encoded) := by
  have hdecided := Policy.decide_of_checkUrl h
  have hfits := fits_of_decide hU hdecided hname
  refine ⟨hfits, encodeName_iff_of_fits hfits, fun hascii => (encodeName_iff_of_fits hfits).mpr ?_⟩
  obtain ⟨split, -, -, -, hhost, -, -, -⟩ := Policy.decide_eq_ok hdecided
  obtain ⟨-, -, -, hshort, hnormalise, -⟩ := checkHost_eq_ok.mp hhost
  have hstripped : (rstripDots t.host).length ≤ t.host.length := (List.rdropWhile_prefix _ t.host).length_le
  have hlength : t.host.length = t.hostAsWritten.length := by
    rw [eq_of_normalise hnormalise hascii, List.length_map]
  rw [hlength] at hstripped
  exact hstripped.trans hshort

/-! ## A name that has grown -/

/-- Thirty-three times the label `ü`. -/
def umlautHost : Str := join (text ".") (List.replicate 33 [0xFC])

/-- What the codec makes of it. -/
def umlautBytes : Bytes := (join (text ".") (List.replicate 33 (text "xn--tda"))).map UInt8.ofNat

/-- An interpreter whose codec knows the label `ü`, alone and thirty-three times. -/
def umlauts : Unicode :=
  { Unicode.ascii with
    idna := fun s =>
      if s = [0xFC] then .ok ((text "xn--tda").map UInt8.ofNat)
      else if s = umlautHost then .ok umlautBytes
      else .error (text "no such codec") }

theorem writesLabels_umlauts : WritesLabels umlauts where
  idna := by
    intro s bytes h
    change (if s = [0xFC] then Except.ok _ else if s = umlautHost then Except.ok umlautBytes else _) = _ at h
    split at h
    · cases h
      decide +kernel
    · split at h
      · cases h
        decide +kernel
      · cases h
  lower := fun _ h => h

/-- A host of 65 characters whose A-label form has 263: accepted, and too long to encode. -/
theorem encodeName_grown :
    WritesLabels umlauts ∧
    ∃ t, ((Policy.default.checkUrl umlauts (text "http://" ++ umlautHost ++ text "/") none).exec ()).1 = .ok t ∧
      t.address = none ∧ ¬ ∃ encoded, encodeName umlauts t.host = .ok encoded := by
  refine ⟨writesLabels_umlauts, ⟨text "http", umlautBytes.map UInt8.toNat, 80, umlautHost, none⟩, ?_, rfl, ?_⟩
  · decide +kernel
  · rintro ⟨encoded, h⟩
    obtain ⟨labels, hne, -, hdotted, hsize, -⟩ := encodeName_eq_ok.mp h
    have hlength := length_dotted hne
    rw [← hdotted] at hlength
    change (rstripDots (umlautBytes.map UInt8.toNat)).length + 1 = _ at hlength
    have hlong : (rstripDots (umlautBytes.map UInt8.toNat)).length = 263 := by decide +kernel
    rw [maxNameBytes] at hsize
    omega

/-- One label `ü` is encoded in its A-label form. -/
theorem encodeName_umlaut : ∃ encoded, encodeName umlauts (text "xn--tda") = .ok encoded := by
  have haccepted : ((Policy.default.checkUrl umlauts (text "http://" ++ [0xFC] ++ text "/") none).exec ()).1 =
      .ok ⟨text "http", text "xn--tda", 80, [0xFC], none⟩ := by decide +kernel
  exact (encodeName_accepted_iff writesLabels_umlauts haccepted rfl).2.1.mpr (by decide +kernel)

end SsrfGuard.Dns
