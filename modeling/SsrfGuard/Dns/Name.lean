import SsrfGuard.Library.Loop
import SsrfGuard.Python.Bytes

/-! # Domain names on the wire

`_encode_name` and `_decode_name`. A name is read label by label, and a compression pointer moves the
reading elsewhere in the message; two bounds, on the pointers and on the bytes of one name, are why it
ends. -/

namespace SsrfGuard.Dns

/-- `_LABEL_MASK`: the two high bits of a label length. -/
def labelMask : ℕ := 0xC0

/-- `_MAX_NAME_BYTES`. -/
def maxNameBytes : ℕ := 255

/-- `_MAX_LABEL_BYTES`. -/
def maxLabelBytes : ℕ := 63

/-- `_MAX_JUMPS`: how many compression pointers one name may follow. -/
def maxJumps : ℕ := 64

/-! ## Encoding -/

/-- One label of `_encode_name`: its length, then its bytes. -/
def encodeLabel (U : Unicode) (name label : Str) : Except Exc Bytes :=
  match encodeAscii label with
  | .error bad => .error (.valueError (repr U name ++ text " is not an ASCII name: " ++ bad))
  | .ok encoded =>
    if encoded = [] then .error (.valueError (repr U name ++ text " has an empty label"))
    else if maxLabelBytes < encoded.length then
      .error (.valueError (repr U name ++ text " has a label longer than " ++
        natText maxLabelBytes ++ text " bytes"))
    else .ok (UInt8.ofNat encoded.length :: encoded)

/-- `_encode_name`: the labels, length-prefixed, and the root. -/
def encodeName (U : Unicode) (name : Str) : Except Exc Bytes :=
  let stripped := rstripDots name
  if stripped = [] then .error (.valueError (text "cannot resolve the root or an empty name"))
  else do
    let labels ← (split '.' stripped).mapM (encodeLabel U name)
    let out := labels.flatten ++ [0]
    if maxNameBytes < out.length then
      .error (.valueError (repr U name ++ text " is longer than " ++ natText maxNameBytes ++
        text " bytes on the wire"))
    else .ok out

/-! ## Decoding -/

/-- `_label_text`. -/
def labelText (raw : Bytes) : Except Exc Str :=
  match decodeAscii 0 raw with
  | .ok label => .ok label
  | .error bad => .error (.malformedError (text "a label is not ASCII: " ++ bad))

/-- `_follow_pointer`: the new offset, where the name ends in its original position, and the jump
count. -/
def followPointer (message : Bytes) (offset : ℕ) (after : Option ℕ) (jumps : ℕ) :
    Except Exc (ℕ × Option ℕ × ℕ) :=
  if message.length ≤ offset + 1 then
    .error (.malformedError (text "a compression pointer runs past the end of the message"))
  else if maxJumps ≤ jumps then
    .error (.malformedError (text "more than " ++ natText maxJumps ++
      text " compression pointers in one name"))
  else do
    let raw ← unpackFrom 2 message offset
    -- `& ~(_LABEL_MASK << 8)` on sixteen bits
    let target := bigEndian raw &&& 0x3FFF
    if message.length ≤ target then
      .error (.malformedError (text "a compression pointer points outside the message"))
    else .ok (target, some (after.getD (offset + 2)), jumps + 1)

/-- The local variables of `_decode_name`. -/
structure NameCursor where
  /-- The labels read so far, in order. -/
  labels : List Str
  /-- Bytes they took on the wire. -/
  total : ℕ
  /-- Pointers followed. -/
  jumps : ℕ
  /-- Where the name ends in its original position, once known. -/
  after : Option ℕ
  /-- Where to read next. -/
  offset : ℕ
  deriving DecidableEq

/-- The part of a turn that reads a label of a plain length, the root included. -/
def readLabel (message : Bytes) (c : NameCursor) (length : ℕ) :
    Except Exc (NameCursor ⊕ (Str × ℕ)) :=
  -- the root: a pointer met on the way has said where the name ends
  if length = 0 then .ok (.inr (join (text ".") c.labels, c.after.getD (c.offset + 1)))
  else if maxNameBytes < c.total + (length + 1) then
    .error (.malformedError (text "a name is longer than " ++ natText maxNameBytes ++ text " bytes"))
  else if message.length < c.offset + 1 + length then
    .error (.malformedError (text "a label runs past the end of the message"))
  else do
    let label ← labelText (slice message (c.offset + 1) (c.offset + 1 + length))
    .ok (.inl { c with
      labels := c.labels ++ [label]
      total := c.total + (length + 1)
      offset := c.offset + 1 + length })

/-- One turn of the loop of `_decode_name`. -/
def nameTurn (message : Bytes) (c : NameCursor) : Except Exc (NameCursor ⊕ (Str × ℕ)) :=
  if message.length ≤ c.offset then
    .error (.malformedError (text "a name runs past the end of the message"))
  else do
    let length ← byteAt message c.offset
    -- both high bits: a pointer; one of them: reserved; none: a label
    if length &&& labelMask = labelMask then
      let (offset, after, jumps) ← followPointer message c.offset c.after c.jumps
      .ok (.inl { c with offset := offset, after := after, jumps := jumps })
    else if length &&& labelMask ≠ 0 then
      .error (.malformedError (text "reserved label length 0x" ++ hexPadded 2 length))
    else readLabel message c length

/-- What a turn that goes on has done: followed one more pointer, or read one more label. -/
theorem nameTurn_eq_next {message : Bytes} {c c' : NameCursor}
    (h : nameTurn message c = .ok (.inl c')) :
    ∃ length, byteAt message c.offset = .ok length ∧
      ((length &&& labelMask = labelMask ∧ c.offset + 1 < message.length ∧ c.jumps < maxJumps ∧
        c' = { c with
          offset := bigEndian (slice message c.offset (c.offset + 2)) &&& 0x3FFF
          after := some (c.after.getD (c.offset + 2))
          jumps := c.jumps + 1 }) ∨
      (length &&& labelMask = 0 ∧ length ≠ 0 ∧ c.total + (length + 1) ≤ maxNameBytes ∧
        c.offset + 1 + length ≤ message.length ∧
        ∃ label, labelText (slice message (c.offset + 1) (c.offset + 1 + length)) = .ok label ∧
          c' = { c with
            labels := c.labels ++ [label]
            total := c.total + (length + 1)
            offset := c.offset + 1 + length })) := by
  unfold nameTurn at h
  split at h
  · cases h
  · obtain ⟨length, hlength, h⟩ := Except.bind_eq_ok.mp h
    refine ⟨length, hlength, ?_⟩
    split at h
    · next hpointer =>
      obtain ⟨⟨offset, after, jumps⟩, hfollow, h⟩ := Except.bind_eq_ok.mp h
      cases h
      unfold followPointer at hfollow
      split at hfollow
      · cases hfollow
      · next hsize =>
        split at hfollow
        · cases hfollow
        · next hjumps =>
          rw [unpackFrom_eq_ok (by omega)] at hfollow
          obtain ⟨raw, hraw, hfollow⟩ := Except.bind_eq_ok.mp hfollow
          cases hraw
          dsimp only at hfollow
          split at hfollow
          · cases hfollow
          · cases hfollow
            exact .inl ⟨hpointer, by omega, by omega, rfl⟩
    · split at h
      · cases h
      · next hplain =>
        unfold readLabel at h
        split at h
        · cases h
        · split at h
          · cases h
          · split at h
            · cases h
            · obtain ⟨label, hlabel, h⟩ := Except.bind_eq_ok.mp h
              cases h
              exact .inr ⟨not_not.mp hplain, by omega, by omega, by omega, label, hlabel, rfl⟩

/-- A turn that leaves has met the root. -/
theorem nameTurn_eq_done {message : Bytes} {c : NameCursor} {name : Str} {stop : ℕ}
    (h : nameTurn message c = .ok (.inr (name, stop))) :
    byteAt message c.offset = .ok 0 ∧ name = join (text ".") c.labels ∧
      stop = c.after.getD (c.offset + 1) := by
  unfold nameTurn at h
  split at h
  · cases h
  · obtain ⟨length, hlength, h⟩ := Except.bind_eq_ok.mp h
    split at h
    · obtain ⟨_, -, h⟩ := Except.bind_eq_ok.mp h
      cases h
    · split at h
      · cases h
      · unfold readLabel at h
        split at h
        · next hroot =>
          cases h
          exact ⟨hroot ▸ hlength, rfl, rfl⟩
        · split at h
          · cases h
          · split at h
            · cases h
            · obtain ⟨_, -, h⟩ := Except.bind_eq_ok.mp h
              cases h

/-- The loop of `_decode_name`: a pointer uses up a jump, a label uses up bytes of the name. -/
def nameLoop (message : Bytes) : Loop NameCursor Exc (Str × ℕ) where
  turn := nameTurn message
  measure c := (maxJumps - c.jumps) + (maxNameBytes - c.total)
  turn_lowers := by
    intro c c' h
    obtain ⟨length, -, ⟨-, -, hjumps, rfl⟩ | ⟨-, hlength, htotal, -, label, -, rfl⟩⟩ :=
      nameTurn_eq_next h
    · dsimp only
      omega
    · dsimp only
      omega

/-- `_decode_name`: the name, and the offset just past it in its original position. -/
def decodeName (message : Bytes) (offset : ℕ) : Except Exc (Str × ℕ) :=
  (nameLoop message).run { labels := [], total := 0, jumps := 0, after := none, offset := offset }

/-- `_name_of`: the name an encoded question asks about. -/
def nameOf (question : Bytes) : Except Exc Str := do
  let (name, _) ← decodeName question 0
  .ok name

/-! ## What decoding raises -/

/-- What the `_MalformedError` of a message without a whole header says. -/
def noHeader : Str := text "a message is shorter than a DNS header"

/-- A `_MalformedError` about something after the header. -/
def IsBodyError (e : Exc) : Prop := e.isMalformedError = true ∧ e ≠ .malformedError noHeader

theorem raisesOnly_malformed {α : Type} {message : Str} (h : message ≠ noHeader) :
    Except.RaisesOnly IsBodyError (.error (.malformedError message) : Except Exc α) :=
  Except.RaisesOnly.error ⟨rfl, fun he => h (Exc.malformedError.inj he)⟩

theorem raisesOnly_labelText (raw : Bytes) :
    Except.RaisesOnly IsBodyError (labelText raw) := by
  unfold labelText
  split
  · exact Except.RaisesOnly.ok _
  · exact raisesOnly_malformed (by simp [text, noHeader])

theorem raisesOnly_followPointer (message : Bytes) (offset : ℕ) (after : Option ℕ) (jumps : ℕ) :
    Except.RaisesOnly IsBodyError (followPointer message offset after jumps) := by
  unfold followPointer
  refine Except.RaisesOnly.dite (fun _ => raisesOnly_malformed (by simp [text, noHeader])) fun hlength => ?_
  refine Except.RaisesOnly.ite (raisesOnly_malformed (by simp [text, noHeader])) ?_
  -- both bytes of the pointer are inside the message, so `unpack_from` finds them
  rw [unpackFrom_eq_ok (by omega)]
  exact Except.RaisesOnly.ite (raisesOnly_malformed (by simp [text, noHeader])) (Except.RaisesOnly.ok _)

theorem raisesOnly_readLabel (message : Bytes) (c : NameCursor) (length : ℕ) :
    Except.RaisesOnly IsBodyError (readLabel message c length) := by
  unfold readLabel
  refine Except.RaisesOnly.ite (Except.RaisesOnly.ok _) ?_
  refine Except.RaisesOnly.ite (raisesOnly_malformed (by simp [text, noHeader])) ?_
  refine Except.RaisesOnly.ite (raisesOnly_malformed (by simp [text, noHeader])) ?_
  exact (raisesOnly_labelText _).bind fun _ => Except.RaisesOnly.ok _

theorem raisesOnly_nameTurn (message : Bytes) (c : NameCursor) :
    Except.RaisesOnly IsBodyError (nameTurn message c) := by
  unfold nameTurn
  refine Except.RaisesOnly.dite (fun _ => raisesOnly_malformed (by simp [text, noHeader])) fun hoffset => ?_
  obtain ⟨byte, hbyte⟩ := byteAt_eq_ok (not_le.mp hoffset)
  rw [hbyte]
  refine Except.RaisesOnly.ite ?_ (Except.RaisesOnly.ite (raisesOnly_malformed (by simp [text, noHeader])) ?_)
  · exact (raisesOnly_followPointer _ _ _ _).bind fun _ => Except.RaisesOnly.ok _
  · exact raisesOnly_readLabel message c byte

/-- Decoding a name returns or raises `_MalformedError`. -/
theorem raisesOnly_decodeName (message : Bytes) (offset : ℕ) :
    Except.RaisesOnly IsBodyError (decodeName message offset) :=
  Loop.raisesOnly_run (raisesOnly_nameTurn message) _

end SsrfGuard.Dns
