import SsrfGuard.Dns.WireName

/-! # Encoding a name and decoding it

`_encode_name` accepts a text exactly when its labels can be written, and writes their wire form. Decoding
that form, at any offset of any message, gives the text back without its trailing dots. The converse
fails at one length: a name whose labels take 255 bytes without the root is decoded and is not encoded. -/

namespace SsrfGuard.Dns

variable {U : Unicode}

/-! ## What encoding accepts -/

theorem encodeAscii_eq_ok {s : Str} {raw : Bytes} :
    encodeAscii s = .ok raw ↔ isAscii s = true ∧ raw = s.map UInt8.ofNat := by
  unfold encodeAscii
  split
  · next h => exact ⟨fun e => ⟨h, (Except.ok.inj e).symm⟩, fun e => by rw [e.2]⟩
  · next h => exact ⟨fun e => (Except.error_ne_ok e).elim, fun e => absurd e.1 h⟩

theorem map_ofNat_labelChars (label : Bytes) : (labelChars label).map UInt8.ofNat = label := by
  rw [labelChars, List.map_map]
  exact List.map_id'' (fun _ => UInt8.ofNat_toNat) label

/-- The bytes of an ASCII text, as text again. -/
theorem labelChars_map_ofNat {s : Str} (h : isAscii s = true) : labelChars (s.map UInt8.ofNat) = s := by
  rw [labelChars, List.map_map]
  refine (List.map_congr_left fun c hc => ?_).trans (List.map_id s)
  have hsmall : c < 0x80 := of_decide_eq_true (List.all_eq_true.mp h c hc)
  exact UInt8.toNat_ofNat_of_lt' (hsmall.trans (by decide))

theorem isAscii_labelChars {label : Bytes} :
    isAscii (labelChars label) = true ↔ ∀ byte ∈ label, byte < 0x80 := by
  simp [isAscii, labelChars, UInt8.lt_iff_toNat_lt]

theorem encodeLabel_eq_ok {name part : Str} {raw : Bytes} :
    encodeLabel U name part = .ok raw ↔
      isAscii part = true ∧ part ≠ [] ∧ part.length ≤ maxLabelBytes ∧
        raw = UInt8.ofNat part.length :: part.map UInt8.ofNat := by
  unfold encodeLabel
  split
  · next bad hbad =>
    refine ⟨fun e => (Except.error_ne_ok e).elim, fun e => ?_⟩
    rw [encodeAscii_eq_ok.mpr ⟨e.1, rfl⟩] at hbad
    cases hbad
  · next encoded hencoded =>
    obtain ⟨hascii, rfl⟩ := encodeAscii_eq_ok.mp hencoded
    simp only [List.length_map, List.map_eq_nil_iff]
    split
    · next hnil => exact ⟨fun e => (Except.error_ne_ok e).elim, fun e => absurd hnil e.2.1⟩
    · next hne =>
      split
      · next hlong =>
        exact ⟨fun e => (Except.error_ne_ok e).elim, fun e => absurd e.2.2.1 (not_le.mpr hlong)⟩
      · next hshort =>
        exact ⟨fun e => ⟨hascii, hne, not_lt.mp hshort, (Except.ok.inj e).symm⟩, fun e => by rw [e.2.2.2]⟩

/-- One part of a text that can be encoded is one label. -/
theorem IsTextLabel.of_encodeLabel {name part : Str} {raw : Bytes} (hdot : ord '.' ∉ part)
    (h : encodeLabel U name part = .ok raw) : IsTextLabel (part.map UInt8.ofNat) where
  ne_nil := by simpa using (encodeLabel_eq_ok.mp h).2.1
  length_le := by simpa using (encodeLabel_eq_ok.mp h).2.2.1
  ascii := by
    rw [← isAscii_labelChars, labelChars_map_ofNat (encodeLabel_eq_ok.mp h).1]
    exact (encodeLabel_eq_ok.mp h).1
  not_dot := by rwa [← dot_mem_labelChars, labelChars_map_ofNat (encodeLabel_eq_ok.mp h).1]

theorem encodeLabel_labelChars {name : Str} {label : Bytes} (h : IsTextLabel label) :
    encodeLabel U name (labelChars label) = .ok (UInt8.ofNat label.length :: label) := by
  have hlength : (labelChars label).length = label.length := List.length_map _
  refine encodeLabel_eq_ok.mpr ⟨isAscii_labelChars.mpr h.ascii, ?_, ?_, ?_⟩
  · exact List.ne_nil_of_length_pos (hlength ▸ List.length_pos_iff.mpr h.ne_nil)
  · rw [hlength]
    exact h.length_le
  · rw [hlength, map_ofNat_labelChars]

/-- What a text whose trailing dots are gone is made of, when each of its parts can be encoded. -/
theorem exists_labels_of_forall₂ {name : Str} {parts : List Str} {encoded : List Bytes}
    (hdots : ∀ part ∈ parts, ord '.' ∉ part)
    (h : List.Forall₂ (fun part raw => encodeLabel U name part = .ok raw) parts encoded) :
    ∃ labels, (∀ label ∈ labels, IsTextLabel label) ∧ parts = labels.map labelChars ∧
      encoded.flatten ++ [0] = wire labels := by
  induction h with
  | nil => exact ⟨[], List.forall_mem_nil _, rfl, rfl⟩
  | @cons part raw parts encoded hpart _ ih =>
      obtain ⟨hdot, hdots⟩ := List.forall_mem_cons.mp hdots
      obtain ⟨labels, hlabels, rfl, hwire⟩ := ih hdots
      obtain ⟨hascii, -, -, rfl⟩ := encodeLabel_eq_ok.mp hpart
      refine ⟨part.map UInt8.ofNat :: labels,
        List.forall_mem_cons.mpr ⟨.of_encodeLabel hdot hpart, hlabels⟩, ?_, ?_⟩
      · rw [List.map_cons, labelChars_map_ofNat hascii]
      · rw [List.flatten_cons, List.append_assoc, hwire, wire_cons, List.length_map]

theorem forall₂_encodeLabel {name : Str} {labels : List Bytes} (h : ∀ label ∈ labels, IsTextLabel label) :
    List.Forall₂ (fun part raw => encodeLabel U name part = .ok raw) (labels.map labelChars)
      (labels.map fun label => UInt8.ofNat label.length :: label) := by
  rw [List.forall₂_map_left_iff, List.forall₂_map_right_iff, List.forall₂_same]
  exact fun label hlabel => encodeLabel_labelChars (h label hlabel)

/-- **Encoding a name**: a text is accepted when, its trailing dots apart, it is the dotted text of labels
that take fewer than 255 bytes without the root; what is written is their wire form. -/
theorem encodeName_eq_ok {name : Str} {encoded : Bytes} :
    encodeName U name = .ok encoded ↔
      ∃ labels, labels ≠ [] ∧ (∀ label ∈ labels, IsTextLabel label) ∧ rstripDots name = dotted labels ∧
        labelBytes labels < maxNameBytes ∧ encoded = wire labels := by
  unfold encodeName
  dsimp only
  split
  · next hempty =>
    refine ⟨fun e => (Except.error_ne_ok e).elim, ?_⟩
    rintro ⟨labels, hne, hlabels, htext, -⟩
    -- the text of a label is not empty
    obtain ⟨label, rest, rfl⟩ := List.exists_cons_of_ne_nil hne
    have hsplit := split_dotted hne fun l hl => (hlabels l hl).not_dot
    rw [← htext, hempty, List.map_cons] at hsplit
    have hnil : labelChars label = [] := (List.cons.inj hsplit.symm).1
    exact absurd (List.map_eq_nil_iff.mp hnil) (hlabels label List.mem_cons_self).ne_nil
  · next hne =>
    constructor
    · intro h
      obtain ⟨pieces, hpieces, h⟩ := Except.bind_eq_ok.mp h
      obtain ⟨labels, hlabels, hparts, hwire⟩ := exists_labels_of_forall₂
        (fun part hpart => Scan.not_mem_of_mem_splitOn hpart) (Except.mapM_eq_ok.mp hpieces)
      have htext : rstripDots name = dotted labels := by
        rw [dotted, join, ← hparts]
        exact (intercalate_split '.' _).symm
      rw [hwire] at h
      split at h
      · cases h
      · next hsize =>
        cases h
        rw [length_wire] at hsize
        refine ⟨labels, ?_, hlabels, htext, by omega, rfl⟩
        rintro rfl
        exact hne htext
    · rintro ⟨labels, hlabelsNe, hlabels, htext, hsize, rfl⟩
      rw [htext, split_dotted hlabelsNe fun label hlabel => (hlabels label hlabel).not_dot]
      refine Except.bind_eq_ok.mpr ⟨_, Except.mapM_eq_ok.mpr (forall₂_encodeLabel hlabels), ?_⟩
      have hwire : (labels.map fun label => UInt8.ofNat label.length :: label).flatten ++ [0] =
          wire labels := by
        rw [wire, List.flatMap_def]
      rw [hwire, if_neg (by rw [length_wire]; omega)]

/-! ## Decoding what was encoded -/

theorem byteAt_append (before after : Bytes) (byte : UInt8) :
    byteAt (before ++ byte :: after) before.length = .ok byte.toNat := by
  simp [byteAt]

theorem slice_append (before part after : Bytes) :
    slice (before ++ (part ++ after)) before.length (before.length + part.length) = part := by
  simp [slice]

/-- What a message holds where a label starts: its length, and then the label itself. -/
theorem label_at {label : Bytes} (h : IsLabel label) (before after : Bytes) :
    let message := before ++ UInt8.ofNat label.length :: (label ++ after)
    byteAt message before.length = .ok label.length ∧ label.length &&& labelMask = 0 ∧
      label.length ≠ 0 ∧ before.length + 1 + label.length ≤ message.length ∧
      slice message (before.length + 1) (before.length + 1 + label.length) = label := by
  have hmax : ∀ n ≤ maxLabelBytes, n &&& labelMask = 0 := by decide +kernel
  have hslice := slice_append (before ++ [UInt8.ofNat label.length]) label after
  refine ⟨?_, hmax _ h.length_le, (List.length_pos_iff.mpr h.ne_nil).ne', ?_, by simpa using hslice⟩
  · rw [byteAt_append, UInt8.toNat_ofNat_of_lt' (h.length_le.trans_lt (by decide))]
  · simp only [List.length_append, List.length_cons]
    omega

/-- The wire form of labels is a name made of them, without a pointer. -/
theorem nameWithin_wire {labels : List Bytes} (jumps : ℕ) (h : ∀ label ∈ labels, IsLabel label)
    (before after : Bytes) :
    NameWithin (before ++ (wire labels ++ after)) jumps before.length labels
      (before.length + (wire labels).length) := by
  induction labels generalizing before with
  | nil => exact .root (byteAt_append before after 0)
  | cons label labels ih =>
      obtain ⟨hlabel, hlabels⟩ := List.forall_mem_cons.mp h
      obtain ⟨hbyte, hplain, hne, hsize, hslice⟩ := label_at hlabel before (wire labels ++ after)
      have hshape : before ++ (wire (label :: labels) ++ after) =
          before ++ UInt8.ofNat label.length :: (label ++ (wire labels ++ after)) := by
        simp
      have hshape' : before ++ UInt8.ofNat label.length :: (label ++ (wire labels ++ after)) =
          (before ++ UInt8.ofNat label.length :: label) ++ (wire labels ++ after) := by
        simp
      have hrest := ih hlabels (before ++ UInt8.ofNat label.length :: label)
      rw [← hshape', List.length_append, List.length_cons, ← Nat.add_assoc,
        Nat.add_right_comm before.length] at hrest
      have hname := NameWithin.label hbyte hplain hne hsize hrest
      rw [hslice] at hname
      have hstop : before.length + (wire (label :: labels)).length =
          before.length + 1 + label.length + (wire labels).length := by
        simp only [length_wire, labelBytes_cons]
        omega
      rwa [hshape, hstop]

theorem nameAt_wire {labels : List Bytes} (h : ∀ label ∈ labels, IsLabel label) (before after : Bytes) :
    NameAt (before ++ (wire labels ++ after)) before.length labels
      (before.length + (wire labels).length) :=
  (nameWithin_wire 0 h before after).nameAt

/-- Decoding the wire form of labels gives their text. -/
theorem decodeName_wire {labels : List Bytes} (h : ∀ label ∈ labels, IsTextLabel label)
    (hbytes : labelBytes labels ≤ maxNameBytes) (before after : Bytes) :
    decodeName (before ++ (wire labels ++ after)) before.length =
      .ok (dotted labels, before.length + (wire labels).length) := by
  refine decodeName_eq_ok_iff.mpr ⟨labels, ⟨nameWithin_wire maxJumps ?_ before after, ?_, hbytes⟩, rfl⟩
  · exact fun label hlabel => (h label hlabel).toIsLabel
  · exact fun label hlabel => (h label hlabel).ascii

/-- What was encoded is decoded wherever it stands in a message. -/
theorem decodeName_of_slice {labels : List Bytes} (h : ∀ label ∈ labels, IsTextLabel label)
    (hbytes : labelBytes labels ≤ maxNameBytes) {message : Bytes} {offset : ℕ}
    (hslice : slice message offset (offset + (wire labels).length) = wire labels) :
    decodeName message offset = .ok (dotted labels, offset + (wire labels).length) := by
  have hstart : offset ≤ message.length := by
    by_contra hpast
    rw [slice, List.drop_eq_nil_of_le (not_le.mp hpast).le, List.take_nil] at hslice
    have := congrArg List.length hslice
    rw [length_wire] at this
    cases this
  have hbefore : (message.take offset).length = offset := List.length_take_of_le hstart
  have hrest : message.drop offset = wire labels ++ (message.drop offset).drop (wire labels).length := by
    rw [slice, Nat.add_sub_cancel_left] at hslice
    conv_lhs => rw [← List.take_append_drop (wire labels).length (message.drop offset), hslice]
  have hshape : message = message.take offset ++
      (wire labels ++ (message.drop offset).drop (wire labels).length) := by
    rw [← hrest, List.take_append_drop]
  have hdecode := decodeName_wire h hbytes (message.take offset)
    ((message.drop offset).drop (wire labels).length)
  rwa [← hshape, hbefore] at hdecode

/-- An encoded name is read back without the trailing dots it was written with. -/
theorem nameOf_of_encodeName {name : Str} {encoded : Bytes} (h : encodeName U name = .ok encoded) :
    nameOf encoded = .ok (rstripDots name) := by
  obtain ⟨labels, -, hlabels, htext, hbytes, rfl⟩ := encodeName_eq_ok.mp h
  have hdecode := decodeName_wire hlabels hbytes.le [] []
  rw [List.nil_append, List.append_nil] at hdecode
  rw [nameOf, htext]
  change (decodeName (wire labels) 0 >>= _) = _
  rw [show (0 : ℕ) = ([] : Bytes).length from rfl, hdecode]
  rfl

/-- **Round trip.** Where a message holds the encoding of a name, decoding gives the name without its
trailing dots, letter for letter, and the offset past the encoding. So two accepted names have one encoding
exactly when they differ in trailing dots alone, and `_name_of` gives back the name that was encoded. -/
theorem decodeName_encodeName (U : Unicode) {name : Str} {encoded : Bytes}
    (h : encodeName U name = .ok encoded) :
    (∀ message offset, slice message offset (offset + encoded.length) = encoded →
      decodeName message offset = .ok (rstripDots name, offset + encoded.length)) ∧
    (∀ other, encodeName U other = .ok encoded ↔ rstripDots other = rstripDots name) ∧
    nameOf encoded = .ok (rstripDots name) := by
  refine ⟨?_, fun other => ⟨fun hother => ?_, fun hsame => ?_⟩, nameOf_of_encodeName h⟩
  · obtain ⟨labels, -, hlabels, htext, hbytes, rfl⟩ := encodeName_eq_ok.mp h
    intro message offset hslice
    rw [htext]
    exact decodeName_of_slice hlabels hbytes.le hslice
  · have hname := nameOf_of_encodeName hother
    rw [nameOf_of_encodeName h] at hname
    exact (Except.ok.inj hname).symm
  · obtain ⟨labels, hne, hlabels, htext, hbytes, rfl⟩ := encodeName_eq_ok.mp h
    exact encodeName_eq_ok.mpr ⟨labels, hne, hlabels, hsame.trans htext, hbytes, rfl⟩

theorem decodeName_encodeName_absolute :
    decodeName [0xFF, 1, 0x41, 1, 0x62, 0, 0xFF] 1 = .ok (text "A.b", 6) ∧
      nameOf [1, 0x41, 1, 0x62, 0] = .ok (text "A.b") := by
  obtain ⟨hdecode, -, hname⟩ := decodeName_encodeName Unicode.ascii
    (show encodeName Unicode.ascii (text "A.b.") = .ok [1, 0x41, 1, 0x62, 0] by decide +kernel)
  exact ⟨hdecode [0xFF, 1, 0x41, 1, 0x62, 0, 0xFF] 1 (by decide), hname⟩

/-! ## The longest name -/

/-- The labels of a decoded name without a dot in them are labels a text can be split into. -/
theorem isTextLabel_of_nameAt {message : Bytes} {offset stop : ℕ} {labels : List Bytes}
    (h : NameAt message offset labels stop) (hascii : ∀ label ∈ labels, ∀ byte ∈ label, byte < 0x80)
    (hdots : ∀ label ∈ labels, dotByte ∉ label) : ∀ label ∈ labels, IsTextLabel label :=
  fun label hlabel => ⟨h.isLabel label hlabel, hascii label hlabel, hdots label hlabel⟩

/-- A dotted text does not end in a dot. -/
theorem rstripDots_dotted {labels : List Bytes} (hne : labels ≠ [])
    (h : ∀ label ∈ labels, IsTextLabel label) : rstripDots (dotted labels) = dotted labels := by
  refine List.rdropWhile_eq_self_iff.mpr fun htext hlast => ?_
  -- a dot at the end would leave an empty part behind it
  have hend : dotted labels = (dotted labels).dropLast ++ [ord '.'] := by
    conv_lhs => rw [← List.dropLast_append_getLast htext, beq_iff_eq.mp hlast]
  have hsplit := split_dotted hne fun label hlabel => (h label hlabel).not_dot
  rw [hend, split, List.splitOn_append_cons_self, List.splitOn_nil] at hsplit
  have hempty : [] ∈ labels.map labelChars := by
    rw [← hsplit]
    exact List.mem_append_right _ (List.mem_singleton.mpr rfl)
  obtain ⟨label, hlabel, hnil⟩ := List.mem_map.mp hempty
  exact (h label hlabel).ne_nil (List.map_eq_nil_iff.mp hnil)

/-- Encoder and decoder agree on a name exactly when its labels, with their length bytes, do not take 255
bytes: the decoder leaves the root out of its count. -/
theorem encodeName_decoded_iff (U : Unicode) {message : Bytes} {offset stop : ℕ} {name : Str}
    {labels : List Bytes} (h : decodeName message offset = .ok (name, stop))
    (hlabels : NameAt message offset labels stop) (hne : labels ≠ [])
    (hdots : ∀ label ∈ labels, dotByte ∉ label) :
    ((∃ encoded, encodeName U name = .ok encoded) ∧ (wire labels).length ≤ maxNameBytes) ↔
      labelBytes labels ≠ maxNameBytes := by
  obtain ⟨labels', hlabels', rfl, hascii, hbytes⟩ := decodeName_eq_ok h
  obtain rfl := (hlabels.unique hlabels').1
  have htext := isTextLabel_of_nameAt hlabels hascii hdots
  rw [length_wire]
  constructor
  · rintro ⟨-, hwire⟩
    omega
  · intro hlong
    have hshort : labelBytes labels < maxNameBytes := by omega
    exact ⟨⟨_, encodeName_eq_ok.mpr ⟨labels, hne, htext, rstripDots_dotted hne htext, hshort, rfl⟩⟩,
      hshort⟩

theorem encodeName_decoded_short :
    (∃ encoded, encodeName Unicode.ascii (text "a") = .ok encoded) ∧
      (wire [[0x61]]).length ≤ maxNameBytes := by
  have hname : NameAt [0xFF, 1, 0x61, 0] 1 [[0x61]] 4 := @nameAt_wire [[0x61]] (by decide) [0xFF] []
  exact (encodeName_decoded_iff Unicode.ascii
    (show decodeName [0xFF, 1, 0x61, 0] 1 = .ok (text "a", 4) by decide +kernel)
    hname (by decide) (by decide)).mpr (by decide)

/-- Three labels of 63 bytes and one of 62. -/
def overlongLabels : List Bytes :=
  List.replicate 3 (List.replicate 63 0x61) ++ [List.replicate 62 0x61]

/-- A name of 256 bytes on the wire is decoded, and its text is not encoded. -/
theorem encodeName_overlong :
    (∃ stop, decodeName (wire overlongLabels) 0 = .ok (dotted overlongLabels, stop) ∧
      NameAt (wire overlongLabels) 0 overlongLabels stop) ∧
    overlongLabels ≠ [] ∧
    (∀ label ∈ overlongLabels, dotByte ∉ label ∧ ∀ byte ∈ label, byte < 0x80) ∧
    (∀ encoded, encodeName Unicode.ascii (dotted overlongLabels) ≠ .ok encoded) ∧
    (wire overlongLabels).length = 256 := by
  have hlabels : ∀ label ∈ overlongLabels, IsTextLabel label := by decide +kernel
  have hdecode := decodeName_wire hlabels (by decide) [] []
  have hname := nameAt_wire (fun label hlabel => (hlabels label hlabel).toIsLabel) [] []
  rw [List.nil_append, List.append_nil] at hdecode hname
  refine ⟨⟨_, hdecode, hname⟩, by decide,
    fun label hlabel => ⟨(hlabels label hlabel).not_dot, (hlabels label hlabel).ascii⟩, ?_,
    (length_wire _).trans (by decide)⟩
  intro encoded h
  obtain ⟨labels, hne, htext, hstrip, hbytes, -⟩ := encodeName_eq_ok.mp h
  rw [rstripDots_dotted (by decide) hlabels] at hstrip
  obtain rfl := eq_of_dotted_eq (by decide) hne (fun l hl => (hlabels l hl).not_dot)
    (fun l hl => (htext l hl).not_dot) hstrip
  exact absurd hbytes (by decide)

end SsrfGuard.Dns
