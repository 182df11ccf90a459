import SsrfGuard.Dns.Name
import Mathlib.Algebra.GroupWithZero.Nat

/-! # Names as sequences of labels

A domain name is a sequence of labels. `NameAt` reads one off a message as the format lays it out, with
no bound on its length or on the pointers; what `_decode_name` returns is the dotted text of the labels
that stand there. `_encode_name` writes the labels of a text, and decoding what it wrote gives the text
back. The two count the bytes of a name differently by one. -/

namespace SsrfGuard.Dns

/-! ## Labels and their text -/

/-- The text of a label. -/
def labelChars (label : Bytes) : Str := label.map UInt8.toNat

/-- The dotted text of a sequence of labels. -/
def dotted (labels : List Bytes) : Str := join (text ".") (labels.map labelChars)

/-- The bytes labels take, each with its length byte, the root left out. -/
def labelBytes (labels : List Bytes) : ℕ := (labels.map fun label => label.length + 1).sum

/-- The wire form of a sequence of labels, with no pointer in it. -/
def wire (labels : List Bytes) : Bytes :=
  labels.flatMap (fun label => UInt8.ofNat label.length :: label) ++ [0]

/-- The dot, as a byte. -/
def dotByte : UInt8 := 0x2E

/-- A label as the format has them: neither empty nor too long. -/
structure IsLabel (label : Bytes) : Prop where
  /-- It is not the root. -/
  ne_nil : label ≠ []
  /-- Its length fits the six bits of a length byte. -/
  length_le : label.length ≤ maxLabelBytes

/-- A label a text can be split into: ASCII, and no dot in it. -/
structure IsTextLabel (label : Bytes) : Prop extends IsLabel label where
  /-- It is ASCII. -/
  ascii : ∀ byte ∈ label, byte < 0x80
  /-- It holds no dot. -/
  not_dot : dotByte ∉ label

instance (label : Bytes) : Decidable (IsLabel label) :=
  decidable_of_iff (label ≠ [] ∧ label.length ≤ maxLabelBytes)
    ⟨fun h => ⟨h.1, h.2⟩, fun h => ⟨h.ne_nil, h.length_le⟩⟩

instance (label : Bytes) : Decidable (IsTextLabel label) :=
  haveI : Decidable (∀ byte ∈ label, byte < 0x80) := List.decidableBAll _ label
  decidable_of_iff (IsLabel label ∧ (∀ byte ∈ label, byte < 0x80) ∧ dotByte ∉ label)
    ⟨fun h => ⟨h.1, h.2.1, h.2.2⟩, fun h => ⟨h.toIsLabel, h.ascii, h.not_dot⟩⟩

@[simp] theorem labelBytes_nil : labelBytes [] = 0 := rfl

@[simp] theorem labelBytes_cons (label : Bytes) (labels : List Bytes) :
    labelBytes (label :: labels) = label.length + 1 + labelBytes labels := by
  simp [labelBytes]

@[simp] theorem wire_nil : wire [] = [0] := rfl

@[simp] theorem wire_cons (label : Bytes) (labels : List Bytes) :
    wire (label :: labels) = UInt8.ofNat label.length :: label ++ wire labels := by
  simp [wire]

@[simp] theorem length_wire (labels : List Bytes) : (wire labels).length = labelBytes labels + 1 := by
  induction labels with
  | nil => rfl
  | cons label labels ih =>
      rw [wire_cons, List.length_append, List.length_cons, ih, labelBytes_cons]
      omega

theorem labelChars_injective : Function.Injective labelChars :=
  List.map_injective_iff.mpr fun _ _ => UInt8.toNat_inj.mp

theorem dot_mem_labelChars {label : Bytes} : ord '.' ∈ labelChars label ↔ dotByte ∈ label := by
  rw [labelChars, List.mem_map]
  constructor
  · rintro ⟨byte, hbyte, hdot⟩
    rwa [show byte = dotByte from UInt8.toNat_inj.mp hdot] at hbyte
  · exact fun h => ⟨dotByte, h, rfl⟩

/-- The text of labels without a dot splits into them again. -/
theorem split_dotted {labels : List Bytes} (hne : labels ≠ []) (h : ∀ label ∈ labels, dotByte ∉ label) :
    split '.' (dotted labels) = labels.map labelChars := by
  refine List.splitOn_intercalate (ord '.') ?_ (by simpa using hne)
  intro part hpart hdot
  obtain ⟨label, hlabel, rfl⟩ := List.mem_map.mp hpart
  exact h label hlabel (dot_mem_labelChars.mp hdot)

/-- Labels without a dot are told apart by their text. -/
theorem eq_of_dotted_eq {labels labels' : List Bytes} (hne : labels ≠ []) (hne' : labels' ≠ [])
    (h : ∀ label ∈ labels, dotByte ∉ label) (h' : ∀ label ∈ labels', dotByte ∉ label)
    (heq : dotted labels = dotted labels') : labels = labels' := by
  have hsplit : labels.map labelChars = labels'.map labelChars := by
    rw [← split_dotted hne h, heq, split_dotted hne' h']
  exact List.map_injective_iff.mpr labelChars_injective hsplit

/-! ## The name that stands at an offset -/

/-- The labels of the name that stands at an offset of a message, and the offset just past the name
where it stands: a pointer takes two bytes there, whatever it leads to. -/
inductive NameAt (message : Bytes) : ℕ → List Bytes → ℕ → Prop
  /-- The root. -/
  | root {offset : ℕ} (hroot : byteAt message offset = .ok 0) : NameAt message offset [] (offset + 1)
  /-- A label of a plain length, and the rest of the name after it. -/
  | label {offset length stop : ℕ} {labels : List Bytes} (hlength : byteAt message offset = .ok length)
      (hplain : length &&& labelMask = 0) (hne : length ≠ 0) (hsize : offset + 1 + length ≤ message.length)
      (rest : NameAt message (offset + 1 + length) labels stop) :
      NameAt message offset (slice message (offset + 1) (offset + 1 + length) :: labels) stop
  /-- A pointer to where the rest of the name stands. -/
  | pointer {offset length stop : ℕ} {labels : List Bytes} (hlength : byteAt message offset = .ok length)
      (hpointer : length &&& labelMask = labelMask) (hsize : offset + 1 < message.length)
      (rest : NameAt message (bigEndian (slice message offset (offset + 2)) &&& 0x3FFF) labels stop) :
      NameAt message offset labels (offset + 2)

/-- One name stands at an offset. -/
theorem NameAt.unique {message : Bytes} {offset stop stop' : ℕ} {labels labels' : List Bytes}
    (h : NameAt message offset labels stop) (h' : NameAt message offset labels' stop') :
    labels = labels' ∧ stop = stop' := by
  induction h generalizing labels' stop' with
  | root hroot =>
      cases h' with
      | root => exact ⟨rfl, rfl⟩
      | label hlength _ hne => rw [hroot] at hlength; cases hlength; exact absurd rfl hne
      | pointer hlength hpointer => rw [hroot] at hlength; cases hlength; cases hpointer
  | label hlength hplain hne _ _ ih =>
      cases h' with
      | root hroot => rw [hroot] at hlength; cases hlength; exact absurd rfl hne
      | label hlength' _ _ _ rest' =>
          rw [hlength] at hlength'
          cases hlength'
          obtain ⟨rfl, rfl⟩ := ih rest'
          exact ⟨rfl, rfl⟩
      | pointer hlength' hpointer' =>
          rw [hlength] at hlength'
          cases hlength'
          rw [hplain] at hpointer'
          cases hpointer'
  | pointer hlength hpointer _ _ ih =>
      cases h' with
      | root hroot => rw [hroot] at hlength; cases hlength; cases hpointer
      | label hlength' hplain' =>
          rw [hlength] at hlength'
          cases hlength'
          rw [hplain'] at hpointer
          cases hpointer
      | pointer hlength' _ _ rest' => exact ⟨(ih rest').1, rfl⟩

theorem byteAt_lt {message : Bytes} {offset byte : ℕ} (h : byteAt message offset = .ok byte) :
    offset < message.length ∧ byte < 0x100 := by
  unfold byteAt at h
  split at h
  · next b hb =>
    cases h
    obtain ⟨hlt, -⟩ := List.getElem?_eq_some_iff.mp hb
    exact ⟨hlt, b.toNat_lt⟩
  · cases h

/-- The bytes of a name are inside the message. -/
theorem NameAt.bounds {message : Bytes} {offset stop : ℕ} {labels : List Bytes}
    (h : NameAt message offset labels stop) : offset < stop ∧ stop ≤ message.length := by
  induction h with
  | root hroot => exact ⟨by omega, (byteAt_lt hroot).1⟩
  | label _ _ _ _ _ ih => exact ⟨by omega, ih.2⟩
  | pointer _ _ hsize => exact ⟨by omega, by omega⟩

theorem length_slice {message : Bytes} {start stop : ℕ} (h : stop ≤ message.length) :
    (slice message start stop).length = stop - start := by
  rw [slice, List.length_take, List.length_drop]
  omega

/-- A name is made of labels. -/
theorem NameAt.isLabel {message : Bytes} {offset stop : ℕ} {labels : List Bytes}
    (h : NameAt message offset labels stop) : ∀ label ∈ labels, IsLabel label := by
  have hsmall : ∀ n < 0x100, n &&& labelMask = 0 → n ≤ maxLabelBytes := by decide +kernel
  induction h with
  | root => exact fun _ hmem => nomatch hmem
  | @label offset length _ _ hlength hplain hne hsize _ ih =>
      intro label hmem
      rcases List.mem_cons.mp hmem with rfl | hmem
      · have hlen : (slice message (offset + 1) (offset + 1 + length)).length = length := by
          rw [length_slice hsize, Nat.add_sub_cancel_left]
        refine ⟨List.ne_nil_of_length_pos (by omega), ?_⟩
        rw [hlen]
        exact hsmall _ (byteAt_lt hlength).2 hplain
      · exact ih label hmem
  | pointer _ _ _ _ ih => exact ih

/-- The name that stands at an offset, reached by following no more than so many pointers. -/
inductive NameWithin (message : Bytes) : ℕ → ℕ → List Bytes → ℕ → Prop
  /-- The root. -/
  | root {jumps offset : ℕ} (hroot : byteAt message offset = .ok 0) :
      NameWithin message jumps offset [] (offset + 1)
  /-- A label of a plain length, and the rest of the name after it. -/
  | label {jumps offset length stop : ℕ} {labels : List Bytes}
      (hlength : byteAt message offset = .ok length) (hplain : length &&& labelMask = 0) (hne : length ≠ 0)
      (hsize : offset + 1 + length ≤ message.length)
      (rest : NameWithin message jumps (offset + 1 + length) labels stop) :
      NameWithin message jumps offset (slice message (offset + 1) (offset + 1 + length) :: labels) stop
  /-- A pointer to where the rest of the name stands. -/
  | pointer {jumps offset length stop : ℕ} {labels : List Bytes}
      (hlength : byteAt message offset = .ok length) (hpointer : length &&& labelMask = labelMask)
      (hsize : offset + 1 < message.length)
      (rest : NameWithin message jumps (bigEndian (slice message offset (offset + 2)) &&& 0x3FFF) labels
        stop) :
      NameWithin message (jumps + 1) offset labels (offset + 2)

theorem NameWithin.nameAt {message : Bytes} {jumps offset stop : ℕ} {labels : List Bytes}
    (h : NameWithin message jumps offset labels stop) : NameAt message offset labels stop := by
  induction h with
  | root hroot => exact .root hroot
  | label hlength hplain hne hsize _ ih => exact .label hlength hplain hne hsize ih
  | pointer hlength hpointer hsize _ ih => exact .pointer hlength hpointer hsize ih

/-- A name `_decode_name` can read: ASCII labels, few enough pointers and few enough bytes. -/
structure Readable (message : Bytes) (offset : ℕ) (labels : List Bytes) (stop : ℕ) : Prop where
  /-- It stands there, at most 64 pointers deep. -/
  within : NameWithin message maxJumps offset labels stop
  /-- Its labels are ASCII. -/
  ascii : ∀ label ∈ labels, ∀ byte ∈ label, byte < 0x80
  /-- They take at most 255 bytes without the root. -/
  bytes_le : labelBytes labels ≤ maxNameBytes

/-! ## What decoding returns -/

theorem decodeAscii_eq_ok {position : ℕ} {raw : Bytes} {s : Str} (h : decodeAscii position raw = .ok s) :
    s = labelChars raw ∧ ∀ byte ∈ raw, byte < 0x80 := by
  induction raw generalizing position s with
  | nil =>
      cases h
      exact ⟨rfl, fun _ hmem => nomatch hmem⟩
  | cons byte raw ih =>
      rw [decodeAscii] at h
      split at h
      · next hbyte =>
        cases hrest : decodeAscii (position + 1) raw with
        | error e => rw [hrest] at h; cases h
        | ok rest =>
            rw [hrest] at h
            cases h
            obtain ⟨rfl, hascii⟩ := ih hrest
            exact ⟨rfl, List.forall_mem_cons.mpr ⟨hbyte, hascii⟩⟩
      · cases h

theorem labelText_eq_ok {raw : Bytes} {label : Str} (h : labelText raw = .ok label) :
    label = labelChars raw ∧ ∀ byte ∈ raw, byte < 0x80 := by
  unfold labelText at h
  split at h
  · next hdecode =>
    cases h
    exact decodeAscii_eq_ok hdecode
  · cases h

theorem decodeAscii_of_ascii {position : ℕ} {raw : Bytes} (h : ∀ byte ∈ raw, byte < 0x80) :
    decodeAscii position raw = .ok (labelChars raw) := by
  induction raw generalizing position with
  | nil => rfl
  | cons byte raw ih =>
      obtain ⟨hbyte, hraw⟩ := List.forall_mem_cons.mp h
      rw [decodeAscii, if_pos hbyte, ih hraw]
      rfl

theorem nameTurn_of_plain {message : Bytes} {c : NameCursor} {length : ℕ}
    (hlength : byteAt message c.offset = .ok length) (hplain : length &&& labelMask = 0) :
    nameTurn message c = readLabel message c length := by
  have hmask : ¬ length &&& labelMask = labelMask := by
    rw [hplain]
    decide
  rw [nameTurn, if_neg (not_le.mpr (byteAt_lt hlength).1), hlength]
  dsimp only [bind, Except.bind]
  rw [if_neg hmask, if_neg (not_not.mpr hplain)]

/-- The loop of `_decode_name` goes on from a cursor to the labels that stand there. -/
theorem exists_nameWithin_of_run {message : Bytes} {c : NameCursor} {name : Str} {stop : ℕ}
    (h : (nameLoop message).run c = .ok (name, stop)) (hc : c.total ≤ maxNameBytes) :
    ∃ labels stop', NameWithin message (maxJumps - c.jumps) c.offset labels stop' ∧
      stop = c.after.getD stop' ∧ name = join (text ".") (c.labels ++ labels.map labelChars) ∧
      (∀ label ∈ labels, ∀ byte ∈ label, byte < 0x80) ∧
      c.total + labelBytes labels ≤ maxNameBytes := by
  revert hc
  refine Loop.of_run_eq_ok ?_ ?_ h
  · intro c hturn hc
    obtain ⟨hroot, rfl, rfl⟩ := nameTurn_eq_done hturn
    exact ⟨[], c.offset + 1, .root hroot, rfl, by simp, List.forall_mem_nil _, hc⟩
  · intro c c' hturn ih hc
    obtain ⟨length, hlength, ⟨hpointer, hsize, hjumps, rfl⟩ |
      ⟨hplain, hne, htotal, hsize, label, hlabel, rfl⟩⟩ := nameTurn_eq_next hturn
    · -- a pointer spends one of the jumps, which the name below it no longer has
      obtain ⟨labels, stop', hname, hstop, rest⟩ := ih hc
      have hleft : maxJumps - c.jumps = maxJumps - (c.jumps + 1) + 1 := by omega
      rw [hleft]
      exact ⟨labels, c.offset + 2, .pointer hlength hpointer hsize hname, hstop, rest⟩
    · obtain ⟨labels, stop', hname, hstop, htext, hascii, hbytes⟩ := ih htotal
      obtain ⟨rfl, hlabelAscii⟩ := labelText_eq_ok hlabel
      have hlen : (slice message (c.offset + 1) (c.offset + 1 + length)).length = length := by
        rw [length_slice hsize, Nat.add_sub_cancel_left]
      refine ⟨_, stop', .label hlength hplain hne hsize hname, hstop, ?_, ?_, ?_⟩
      · rw [htext, List.map_cons, List.append_assoc, List.singleton_append]
      · exact List.forall_mem_cons.mpr ⟨hlabelAscii, hascii⟩
      · rw [labelBytes_cons, hlen]
        dsimp only at hbytes
        omega

/-- A turn at a label reads it, when it fits in what is left of the name. -/
theorem nameTurn_of_label {message : Bytes} {c : NameCursor} {length : ℕ}
    (hlength : byteAt message c.offset = .ok length) (hplain : length &&& labelMask = 0) (hne : length ≠ 0)
    (hsize : c.offset + 1 + length ≤ message.length) (htotal : c.total + (length + 1) ≤ maxNameBytes)
    (hascii : ∀ byte ∈ slice message (c.offset + 1) (c.offset + 1 + length), byte < 0x80) :
    nameTurn message c = .ok (.inl { c with
      labels := c.labels ++ [labelChars (slice message (c.offset + 1) (c.offset + 1 + length))]
      total := c.total + (length + 1)
      offset := c.offset + 1 + length }) := by
  rw [nameTurn_of_plain hlength hplain, readLabel, if_neg hne, if_neg (not_lt.mpr htotal),
    if_neg (not_lt.mpr hsize), labelText, decodeAscii_of_ascii hascii]
  rfl

/-- A turn at a pointer follows it, when there is a byte where it leads. -/
theorem nameTurn_of_pointer {message : Bytes} {c : NameCursor} {length : ℕ}
    (hlength : byteAt message c.offset = .ok length) (hpointer : length &&& labelMask = labelMask)
    (hsize : c.offset + 1 < message.length) (hjumps : c.jumps < maxJumps)
    (htarget : bigEndian (slice message c.offset (c.offset + 2)) &&& 0x3FFF < message.length) :
    nameTurn message c = .ok (.inl { c with
      offset := bigEndian (slice message c.offset (c.offset + 2)) &&& 0x3FFF
      after := some (c.after.getD (c.offset + 2))
      jumps := c.jumps + 1 }) := by
  rw [nameTurn, if_neg (not_le.mpr (byteAt_lt hlength).1), hlength]
  dsimp only [bind, Except.bind]
  rw [if_pos hpointer, followPointer, if_neg (not_le.mpr hsize), if_neg (not_le.mpr hjumps),
    unpackFrom_eq_ok (by omega)]
  dsimp only [bind, Except.bind]
  rw [if_neg (not_le.mpr htarget)]

/-- The loop of `_decode_name` reads the name that stands at a cursor, within what the cursor has left of
pointers and bytes. -/
theorem run_of_nameWithin {message : Bytes} {jumps offset stop : ℕ} {labels : List Bytes}
    (h : NameWithin message jumps offset labels stop)
    (hascii : ∀ label ∈ labels, ∀ byte ∈ label, byte < 0x80) {c : NameCursor} (hoffset : c.offset = offset)
    (hjumps : c.jumps + jumps ≤ maxJumps) (htotal : c.total + labelBytes labels ≤ maxNameBytes) :
    (nameLoop message).run c =
      .ok (join (text ".") (c.labels ++ labels.map labelChars), c.after.getD stop) := by
  induction h generalizing c with
  | root hroot =>
      subst hoffset
      rw [List.map_nil, List.append_nil]
      refine Loop.run_of_done ?_
      exact (nameTurn_of_plain hroot rfl).trans (if_pos rfl)
  | @label jumps offset length stop labels hlength hplain hne hsize _ ih =>
      subst hoffset
      obtain ⟨hlabel, hlabels⟩ := List.forall_mem_cons.mp hascii
      have hlen : (slice message (c.offset + 1) (c.offset + 1 + length)).length = length := by
        rw [length_slice hsize, Nat.add_sub_cancel_left]
      rw [labelBytes_cons, hlen] at htotal
      rw [Loop.run_of_next (nameTurn_of_label hlength hplain hne hsize (by omega) hlabel)]
      refine (ih hlabels ?_ ?_ ?_).trans ?_
      · rfl
      · exact hjumps
      · dsimp only
        omega
      · rw [List.map_cons, List.append_assoc, List.singleton_append]
  | pointer hlength hpointer hsize hrest ih =>
      subst hoffset
      -- something stands where the pointer leads
      have htarget := hrest.nameAt.bounds
      rw [Loop.run_of_next (nameTurn_of_pointer hlength hpointer hsize (by omega) (by omega))]
      refine ih hascii rfl ?_ htotal
      dsimp only
      omega

/-- **Decoding a name** returns the dotted text of the labels that stand there and the offset past the name
where it stands, exactly when the name is readable. -/
theorem decodeName_eq_ok_iff {message : Bytes} {offset stop : ℕ} {name : Str} :
    decodeName message offset = .ok (name, stop) ↔
      ∃ labels, Readable message offset labels stop ∧ name = dotted labels := by
  constructor
  · intro h
    obtain ⟨labels, stop', hname, rfl, htext, hascii, hbytes⟩ := exists_nameWithin_of_run h (Nat.zero_le _)
    exact ⟨labels, ⟨hname, hascii, by simpa using hbytes⟩, htext⟩
  · rintro ⟨labels, hread, rfl⟩
    rw [decodeName, run_of_nameWithin hread.within hread.ascii rfl (by simp)
      (by simpa using hread.bytes_le)]
    rfl

/-- What a decoded name is made of: ASCII labels, which take at most 255 bytes without the root. -/
theorem decodeName_eq_ok {message : Bytes} {offset stop : ℕ} {name : Str}
    (h : decodeName message offset = .ok (name, stop)) :
    ∃ labels, NameAt message offset labels stop ∧ name = dotted labels ∧
      (∀ label ∈ labels, ∀ byte ∈ label, byte < 0x80) ∧ labelBytes labels ≤ maxNameBytes := by
  obtain ⟨labels, hread, htext⟩ := decodeName_eq_ok_iff.mp h
  exact ⟨labels, hread.within.nameAt, htext, hread.ascii, hread.bytes_le⟩

end SsrfGuard.Dns
