import SsrfGuard.Dns.AcceptedName

/-! # Names that can be encoded

A name goes on the wire when it is a sequence of labels that fit. Two functions of the source decide about names
by their text: `_encode_name`, which drops every dot at the end where one is the absolute form, and
`_reject_overlong_host`, which counts the dots at the end and whatever the codec will remove. -/

namespace SsrfGuard.Dns

variable {U : Unicode}

/-! ## What can be encoded -/

/-- The bytes of labels on the wire, each with its length byte, root byte included. -/
def wireSize (labels : List Str) : ℕ := (labels.map fun label => label.length + 1).sum + 1

/-- A dot-separated sequence of labels that fits on the wire. -/
structure IsDomainName (s : Str) : Prop where
  /-- Each label is one to 63 bytes of ASCII. -/
  fits : ∀ label ∈ split '.' s, FitsLabel label
  /-- All of them take at most 255 bytes. -/
  size_le : wireSize (split '.' s) ≤ maxNameBytes

instance (s : Str) : Decidable (IsDomainName s) :=
  haveI : Decidable (∀ label ∈ split '.' s, FitsLabel label) := List.decidableBAll _ _
  decidable_of_iff ((∀ label ∈ split '.' s, FitsLabel label) ∧ wireSize (split '.' s) ≤ maxNameBytes)
    ⟨fun h => ⟨h.1, h.2⟩, fun h => ⟨h.fits, h.size_le⟩⟩

/-- On the wire the dots become length bytes, and there is one more label than dots. -/
theorem wireSize_split (s : Str) : wireSize (split '.' s) = s.length + 2 := by
  have hjoined : [ord '.'].intercalate (split '.' s) = s := intercalate_split '.' s
  have hlength := @Scan.length_intercalate_singleton _ (ord '.') (split '.' s) (List.splitOn_ne_nil _ s)
  rw [hjoined] at hlength
  rw [wireSize, ← hlength]

/-- What `_encode_name` accepts is a domain name with any number of dots behind it. -/
theorem encodeName_iff_isDomainName {name : Str} :
    (∃ encoded, encodeName U name = .ok encoded) ↔ IsDomainName (rstripDots name) := by
  constructor
  · rintro ⟨encoded, h⟩
    have hfits : ∀ label ∈ nameLabels name, FitsLabel label := by
      obtain ⟨labels, hne, hlabels, htext, -, -⟩ := encodeName_eq_ok.mp h
      rw [nameLabels, htext, split_dotted hne fun label hlabel => (hlabels label hlabel).not_dot]
      intro part hpart
      obtain ⟨label, hlabel, rfl⟩ := List.mem_map.mp hpart
      have hlength : (labelChars label).length = label.length := List.length_map _
      exact
        { ne_nil := fun hnil => (hlabels label hlabel).ne_nil (List.map_eq_nil_iff.mp hnil)
          length_le := hlength ▸ (hlabels label hlabel).length_le
          ascii := isAscii_labelChars.mpr (hlabels label hlabel).ascii }
    have hlength := (encodeName_iff_of_fits hfits).mp ⟨encoded, h⟩
    refine ⟨hfits, ?_⟩
    rw [wireSize_split, maxNameBytes]
    rw [longestHostname] at hlength
    omega
  · intro h
    refine (encodeName_iff_of_fits h.fits).mpr ?_
    have hsize := h.size_le
    rw [wireSize_split, maxNameBytes] at hsize
    rw [longestHostname]
    omega

theorem raisesOnly_encodeLabel (name label : Str) :
    Except.RaisesOnly (fun e => ∃ message, e = .valueError message) (encodeLabel U name label) := by
  unfold encodeLabel
  split
  · exact Except.RaisesOnly.error ⟨_, rfl⟩
  · refine Except.RaisesOnly.ite (Except.RaisesOnly.error ⟨_, rfl⟩) ?_
    exact Except.RaisesOnly.ite (Except.RaisesOnly.error ⟨_, rfl⟩) (Except.RaisesOnly.ok _)

/-- What it does not accept raises `ValueError`. -/
theorem raisesOnly_encodeName (name : Str) :
    Except.RaisesOnly (fun e => ∃ message, e = .valueError message) (encodeName U name) := by
  refine Except.RaisesOnly.ite (Except.RaisesOnly.error ⟨_, rfl⟩) ?_
  refine (Except.RaisesOnly.mapM (raisesOnly_encodeLabel name)).bind fun labels => ?_
  exact Except.RaisesOnly.ite (Except.RaisesOnly.error ⟨_, rfl⟩) (Except.RaisesOnly.ok _)

theorem encodeName_error_iff {name : Str} :
    (∃ message, encodeName U name = .error (.valueError message)) ↔ ¬ IsDomainName (rstripDots name) := by
  rw [← encodeName_iff_isDomainName (U := U)]
  cases h : encodeName U name with
  | ok encoded =>
      refine iff_of_false ?_ fun hnot => hnot ⟨encoded, rfl⟩
      rintro ⟨message, hmessage⟩
      cases hmessage
  | error e =>
      obtain ⟨message, rfl⟩ := raisesOnly_encodeName name e h
      refine iff_of_true ⟨message, rfl⟩ ?_
      rintro ⟨encoded, hencoded⟩
      cases hencoded

/-! ## One dot at the end -/

/-- A text without the dot at its end: the relative form of an absolute name. -/
def dropFinalDot (s : Str) : Str := if s.getLast? = some (ord '.') then s.dropLast else s

theorem rstripDots_dropFinalDot (s : Str) : rstripDots (dropFinalDot s) = rstripDots s := by
  unfold dropFinalDot
  split
  · next hlast =>
    obtain ⟨front, rfl⟩ := List.getLast?_eq_some_iff.mp hlast
    rw [List.dropLast_concat]
    exact (List.rdropWhile_concat_pos _ _ _ rfl).symm
  · rfl

/-- No domain name ends in a dot: behind it there would be an empty label. -/
theorem IsDomainName.not_endsInDot {s : Str} (h : IsDomainName s) : ¬ EndsInDot s := by
  intro hdot
  obtain ⟨front, rfl⟩ := List.getLast?_eq_some_iff.mp hdot
  have hsplit : split '.' (front ++ [ord '.']) = split '.' front ++ [[]] :=
    List.splitOn_append_cons_self front []
  refine (h.fits [] ?_).ne_nil rfl
  rw [hsplit]
  exact List.mem_append_right _ (List.mem_singleton_self [])

/-- `_encode_name` does with a text what it is there for: it accepts a domain name, with or without one dot at
its end, and refuses everything else with a `ValueError`. -/
def EncodesNames (U : Unicode) (name : Str) : Prop :=
  ((∃ encoded, encodeName U name = .ok encoded) ↔ IsDomainName (dropFinalDot name)) ∧
    ∀ e, encodeName U name = .error e → ∃ message, e = .valueError message

/-- **What `_encode_name` accepts** are the domain names with at most one dot at the end, except for the texts
that end in two dots or more and are a domain name without them. -/
theorem encodesNames_iff (U : Unicode) (name : Str) :
    EncodesNames U name ↔ ¬ (EndsInDot (dropFinalDot name) ∧ IsDomainName (rstripDots name)) := by
  have herrors : ∀ e, encodeName U name = .error e → ∃ message, e = .valueError message :=
    raisesOnly_encodeName name
  rw [EncodesNames, encodeName_iff_isDomainName, and_iff_left herrors]
  by_cases hdot : EndsInDot (dropFinalDot name)
  -- two dots at the end: nothing is a domain name, and all of them are dropped
  · have hnot : ¬ IsDomainName (dropFinalDot name) := fun h => h.not_endsInDot hdot
    rw [iff_false_right hnot, not_and]
    exact ⟨fun h _ => h, fun h => h hdot⟩
  · rw [← rstripDots_dropFinalDot, rstripDots_eq_self hdot]
    exact iff_of_true Iff.rfl fun h => hdot h.1

/-- An empty label at the end is dropped with the dots around it. -/
theorem encodeName_twoDots :
    encodeName .ascii (text "a..") = .ok [1, 0x61, 0] ∧ ¬ IsDomainName (dropFinalDot (text "a..")) ∧
      ¬ EncodesNames .ascii (text "a..") := by
  refine ⟨by decide +kernel, by decide +kernel, ?_⟩
  rintro ⟨haccepts, -⟩
  exact absurd (haccepts.mp ⟨_, show encodeName .ascii (text "a..") = .ok [1, 0x61, 0] by decide +kernel⟩)
    (by decide +kernel)

/-! ## The length rule -/

/-- A domain name with one dot behind it, or more. -/
def Padded (s : Str) : Prop := ∃ name dots, s = name ++ List.replicate (dots + 1) (ord '.') ∧ IsDomainName name

theorem rstripDots_append_dots (name : Str) (dots : ℕ) :
    rstripDots (name ++ List.replicate dots (ord '.')) = rstripDots name := by
  induction dots with
  | zero => exact congrArg rstripDots (List.append_nil name)
  | succ dots ih =>
      rw [List.replicate_succ', ← List.append_assoc]
      exact (List.rdropWhile_concat_pos _ _ _ rfl).trans ih

/-- A text is a domain name without the dots at its end when it is one, or one is padded. -/
theorem isDomainName_rstripDots_iff {s : Str} : IsDomainName (rstripDots s) ↔ IsDomainName s ∨ Padded s := by
  constructor
  · intro h
    have hcut : rstripDots s ++ s.rtakeWhile (· == ord '.') = s := List.rdropWhile_append_rtakeWhile
    have hdots : s.rtakeWhile (· == ord '.') =
        List.replicate (s.rtakeWhile (· == ord '.')).length (ord '.') :=
      List.eq_replicate_of_mem fun c hc => beq_iff_eq.mp (@List.mem_rtakeWhile_imp _ (· == ord '.') s c hc)
    rw [hdots] at hcut
    -- no dot was cut off, or the text is the name and the dots that were
    cases hlength : (s.rtakeWhile (· == ord '.')).length with
    | zero =>
        rw [hlength, List.replicate_zero, List.append_nil] at hcut
        exact .inl (hcut ▸ h)
    | succ dots =>
        rw [hlength] at hcut
        exact .inr ⟨rstripDots s, dots, hcut.symm, h⟩
  · rintro (h | ⟨name, dots, rfl, h⟩)
    · rwa [rstripDots_eq_self h.not_endsInDot]
    · rwa [rstripDots_append_dots, rstripDots_eq_self h.not_endsInDot]

/-- A domain name takes as much of a text as DNS can carry, and no more. -/
theorem IsDomainName.length_le {s : Str} (h : IsDomainName s) : s.length ≤ longestHostname := by
  have hsize := h.size_le
  rw [wireSize_split, maxNameBytes] at hsize
  rw [longestHostname]
  omega

/-- What a host is lower-cased from: itself where it is ASCII, what the codec makes of it otherwise. -/
def CodecText (U : Unicode) (host s : Str) : Prop :=
  if isAscii host then s = host else ∃ bytes, U.idna host = .ok bytes ∧ decodeAscii 0 bytes = .ok s

theorem codecText_of_isAscii {host s : Str} (h : isAscii host = true) : CodecText U host s ↔ s = host := by
  rw [CodecText, if_pos h]

theorem normalise_eq_ok_iff {url host s : Str} :
    normalise U url host = .ok s ↔ ∃ t, CodecText U host t ∧ s = t.map lowerChar := by
  rw [normalise_eq_ok]
  constructor
  · rintro ⟨t, rfl, -, hself, hcodec⟩
    refine ⟨t, ?_, rfl⟩
    by_cases hascii : isAscii host = true
    · exact (codecText_of_isAscii hascii).mpr (hself hascii)
    · rw [CodecText, if_neg hascii]
      exact hcodec (Bool.eq_false_iff.mpr hascii)
  · rintro ⟨t, ht, rfl⟩
    by_cases hascii : isAscii host = true
    · rw [codecText_of_isAscii hascii] at ht
      subst ht
      exact ⟨t, rfl, hascii, fun _ => rfl, fun hnot => by rw [hascii] at hnot; cases hnot⟩
    · rw [CodecText, if_neg hascii] at ht
      obtain ⟨bytes, hbytes, hdecoded⟩ := ht
      exact ⟨t, rfl, isAscii_of_decodeAscii hdecoded, fun h => absurd h hascii,
        fun _ => ⟨bytes, hbytes, hdecoded⟩⟩

theorem isAscii_of_codecText {host s : Str} (h : CodecText U host s) : isAscii s = true := by
  unfold CodecText at h
  split at h
  · next hascii => exact h ▸ hascii
  · obtain ⟨bytes, -, hdecoded⟩ := h
    exact isAscii_of_decodeAscii hdecoded

/-- Whether an ASCII text is a domain name does not depend on its case. -/
theorem isDomainName_rstripDots_map_lowerChar {s : Str} (hascii : isAscii s = true) :
    IsDomainName (rstripDots (s.map lowerChar)) ↔ IsDomainName (rstripDots s) := by
  have hlabels : split '.' (rstripDots (s.map lowerChar)) = (nameLabels s).map (·.map lowerChar) :=
    nameLabels_map_lowerChar s
  have hsize : wireSize ((nameLabels s).map (·.map lowerChar)) = wireSize (nameLabels s) := by
    rw [wireSize, wireSize, List.map_map]
    simp only [Function.comp_def, List.length_map]
  constructor
  · rintro ⟨hfits, hle⟩
    rw [hlabels] at hfits hle
    refine ⟨fun label hlabel => ?_, hsize ▸ hle⟩
    have hfit := hfits _ (List.mem_map_of_mem hlabel)
    refine ⟨fun hempty => hfit.ne_nil (by rw [hempty]; rfl), ?_, ?_⟩
    · have hlength := hfit.length_le
      rwa [List.length_map] at hlength
    · exact isAscii_of_subset (subset_of_mem_nameLabels hlabel) hascii
  · rintro ⟨hfits, hle⟩
    refine ⟨fun label hlabel => ?_, by rwa [hlabels, hsize]⟩
    rw [hlabels] at hlabel
    obtain ⟨part, hpart, rfl⟩ := List.mem_map.mp hlabel
    exact (hfits part hpart).map_lowerChar

theorem rejectOverlongHost_error_iff {host : Str} :
    (∃ e, rejectOverlongHost host = .error e) ↔ longestHostname < host.length := by
  unfold rejectOverlongHost
  split
  · next hlong => exact iff_of_true ⟨_, rfl⟩ hlong
  · next hshort =>
    refine iff_of_false ?_ hshort
    rintro ⟨e, h⟩
    cases h

/-- No normalised form of the host is one `_encode_name` accepts. -/
def Unresolvable (U : Unicode) (host : Str) : Prop :=
  ∀ url s, normalise U url host = .ok s → ∃ message, encodeName U s = .error (.valueError message)

theorem unresolvable_iff {host : Str} :
    Unresolvable U host ↔ ∀ s, CodecText U host s → ¬ IsDomainName (rstripDots s) := by
  constructor
  · intro hunresolvable s hs hname
    have hrefused := hunresolvable [] _ (normalise_eq_ok_iff.mpr ⟨s, hs, rfl⟩)
    refine encodeName_error_iff.mp hrefused ?_
    exact (isDomainName_rstripDots_map_lowerChar (isAscii_of_codecText hs)).mpr hname
  · intro hnone url s hs
    obtain ⟨t, ht, rfl⟩ := normalise_eq_ok_iff.mp hs
    refine encodeName_error_iff.mpr fun hname => hnone t ht ?_
    exact (isDomainName_rstripDots_map_lowerChar (isAscii_of_codecText ht)).mp hname

/-- **What the length rule refuses.** A refused host is one that could not be looked up, unless the rule has counted
what does not go on the wire: dots behind a domain name, or what the codec takes from a host that is not ASCII. Of an
ASCII host that leaves the dots. -/
theorem overlongHost_refused_iff (U : Unicode) {host : Str} {e : Exc} (h : rejectOverlongHost host = .error e) :
    (Unresolvable U host ↔
      ∀ s, CodecText U host s → ¬ Padded s ∧ ¬ (s.length < host.length ∧ IsDomainName s)) ∧
    (isAscii host = true → (Unresolvable U host ↔ ¬ Padded host)) := by
  have hlong := rejectOverlongHost_error_iff.mp ⟨e, h⟩
  -- a refused host is longer than any domain name, so what is one has lost something on the way
  have hshort : ∀ s, IsDomainName s ↔ s.length < host.length ∧ IsDomainName s :=
    fun s => ⟨fun hname => ⟨hname.length_le.trans_lt hlong, hname⟩, And.right⟩
  have hcodec : Unresolvable U host ↔
      ∀ s, CodecText U host s → ¬ Padded s ∧ ¬ (s.length < host.length ∧ IsDomainName s) := by
    refine unresolvable_iff.trans (forall₂_congr fun s _ => ?_)
    rw [isDomainName_rstripDots_iff, not_or, and_comm, ← hshort s]
  refine ⟨hcodec, fun hascii => ?_⟩
  simp only [hcodec, codecText_of_isAscii hascii, forall_eq, lt_irrefl, false_and, not_false_eq_true, and_true]

/-- One label of 254 characters. -/
def overlongLabel : Str := List.replicate 254 0x61

theorem overlongHost_refused_label :
    (∃ e, rejectOverlongHost overlongLabel = .error e) ∧ Unresolvable .ascii overlongLabel := by
  have hlong : longestHostname < overlongLabel.length := by decide +kernel
  obtain ⟨e, he⟩ := rejectOverlongHost_error_iff.mpr hlong
  have hascii : isAscii overlongLabel = true := by decide +kernel
  refine ⟨⟨e, he⟩, ((overlongHost_refused_iff .ascii he).2 hascii).mpr ?_⟩
  -- its last character is no dot
  rintro ⟨name, dots, hpadded, -⟩
  have hdot : overlongLabel.getLast? = some (ord '.') := by
    rw [hpadded, List.replicate_succ', ← List.append_assoc, List.getLast?_concat]
  rw [overlongLabel, List.getLast?_replicate] at hdot
  exact absurd hdot (by decide)

/-- Four labels of 253 characters together, and the dot of the absolute form. -/
def longestAbsolute : Str :=
  join (text ".") (List.replicate 3 (List.replicate 63 0x61) ++ [List.replicate 61 0x61]) ++ text "."

/-- The absolute form of the longest name is refused, and could be looked up. -/
theorem overlongHost_absolute :
    (∃ e, rejectOverlongHost longestAbsolute = .error e) ∧
      normalise .ascii [] longestAbsolute = .ok longestAbsolute ∧
      (∃ encoded, encodeName .ascii longestAbsolute = .ok encoded) ∧ ¬ Unresolvable .ascii longestAbsolute := by
  have hnormalise : normalise .ascii [] longestAbsolute = .ok longestAbsolute := by decide +kernel
  have hname : IsDomainName (rstripDots longestAbsolute) := by decide +kernel
  have hrefused : ∃ e, rejectOverlongHost longestAbsolute = .error e :=
    rejectOverlongHost_error_iff.mpr (by decide +kernel)
  refine ⟨hrefused, hnormalise, encodeName_iff_isDomainName.mpr hname, fun h => ?_⟩
  exact encodeName_error_iff.mp (h [] longestAbsolute hnormalise) hname

end SsrfGuard.Dns
