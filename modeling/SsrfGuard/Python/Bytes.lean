import SsrfGuard.Python.IpAddress

/-! # `bytes` and `struct`

A `bytes` is the list of its bytes. Reading one outside its bounds raises what CPython raises there, so
that a parser which never does so can be shown to. -/

namespace SsrfGuard

/-- A `bytes`. -/
abbrev Bytes : Type := List UInt8

/-- `message[offset]`. -/
def byteAt (message : Bytes) (offset : ℕ) : Except Exc ℕ :=
  match message[offset]? with
  | some byte => .ok byte.toNat
  | none => .error (.indexError (text "index out of range"))

/-- `message[start : stop]`. -/
def slice (message : Bytes) (start stop : ℕ) : Bytes := (message.drop start).take (stop - start)

/-- An unsigned integer in network order, as a field of a `!` format. -/
def bigEndian (raw : Bytes) : ℕ := raw.foldl (fun n byte => 256 * n + byte.toNat) 0

/-- `struct.pack("!H", n)`. -/
def packShort (n : ℕ) : Bytes := [UInt8.ofNat (n / 256), UInt8.ofNat n]

/-- The bytes a format of this size is unpacked from: `struct.unpack_from` reads no others. -/
def unpackFrom (size : ℕ) (message : Bytes) (offset : ℕ) : Except Exc Bytes :=
  if offset + size ≤ message.length then .ok (slice message offset (offset + size))
  else .error (.otherException (text "unpack_from requires a buffer of at least " ++
    natText (offset + size) ++ text " bytes for unpacking " ++ natText size ++
    text " bytes at offset " ++ natText offset ++ text " (actual buffer size is " ++
    natText message.length ++ text ")"))

theorem byteAt_eq_ok {message : Bytes} {offset : ℕ} (h : offset < message.length) :
    ∃ byte, byteAt message offset = .ok byte := by
  unfold byteAt
  rw [List.getElem?_eq_getElem h]
  exact ⟨_, rfl⟩

theorem unpackFrom_eq_ok {size offset : ℕ} {message : Bytes} (h : offset + size ≤ message.length) :
    unpackFrom size message offset = .ok (slice message offset (offset + size)) := by
  rw [unpackFrom, if_pos h]

/-! ## The `ascii` codec -/

/-- `raw.decode("ascii")` from the given position on, or what the `UnicodeDecodeError` says. -/
def decodeAscii (position : ℕ) : Bytes → Except Str Str
  | [] => .ok []
  | byte :: raw =>
    if byte < 0x80 then (decodeAscii (position + 1) raw).map (byte.toNat :: ·)
    else .error (text "'ascii' codec can't decode byte 0x" ++ hexPadded 2 byte.toNat ++
      text " in position " ++ natText position ++ text ": ordinal not in range(128)")

theorem isAscii_of_decodeAscii {position : ℕ} {bytes : List UInt8} {s : Str}
    (h : decodeAscii position bytes = .ok s) : isAscii s = true := by
  induction bytes generalizing position s with
  | nil => cases h; rfl
  | cons byte bytes ih =>
      rw [decodeAscii] at h
      split at h
      · next hbyte =>
          cases hrest : decodeAscii (position + 1) bytes with
          | error e => rw [hrest] at h; cases h
          | ok rest =>
              rw [hrest] at h
              cases h
              rw [isAscii_cons, ih hrest, Bool.and_true, decide_eq_true_eq]
              exact UInt8.lt_iff_toNat_lt.mp hbyte
      · cases h

/-- A code point as the text of a `UnicodeEncodeError` shows it. -/
def escapedChar (c : ℕ) : Str :=
  if c ≤ 0xFF then text "\\x" ++ hexPadded 2 c
  else if c ≤ 0xFFFF then text "\\u" ++ hexPadded 4 c
  else text "\\U" ++ hexPadded 8 c

/-- `s.encode("ascii")`, or what the `UnicodeEncodeError` says: it names the first run of characters
outside ASCII. -/
def encodeAscii (s : Str) : Except Str Bytes :=
  if isAscii s then .ok (s.map UInt8.ofNat)
  else
    let start := s.findIdx (0x80 ≤ ·)
    let run := ((s.drop start).takeWhile (0x80 ≤ ·)).length
    .error (
      if run = 1 then text "'ascii' codec can't encode character '" ++ escapedChar (s.getD start 0) ++
        text "' in position " ++ natText start ++ text ": ordinal not in range(128)"
      else text "'ascii' codec can't encode characters in position " ++ natText start ++ text "-" ++
        natText (start + run - 1) ++ text ": ordinal not in range(128)")

/-! ## Packed addresses -/

/-- One byte inside the quotes of a `repr`. -/
def reprByte (quote byte : ℕ) : Str :=
  if byte = quote ∨ byte = 0x5C then [0x5C, byte]
  else if byte = 0x09 then text "\\t"
  else if byte = 0x0A then text "\\n"
  else if byte = 0x0D then text "\\r"
  else if byte < 0x20 ∨ 0x7F ≤ byte then text "\\x" ++ hexPadded 2 byte
  else [byte]

/-- `repr(raw)`. -/
def reprBytes (raw : Bytes) : Str :=
  let quote := if 0x27 ∈ raw ∧ 0x22 ∉ raw then 0x22 else 0x27
  ord 'b' :: quote :: raw.flatMap (fun byte => reprByte quote byte.toNat) ++ [quote]

/-- `ip_address(raw)`: four bytes are an IPv4 address and sixteen an IPv6 one. -/
def ipAddressOfBytes (raw : Bytes) : Except Exc IPAddress :=
  if raw.length = 4 then .ok (.v4 (BitVec.ofNat 32 (bigEndian raw)))
  else if raw.length = 16 then .ok (.v6 (BitVec.ofNat 128 (bigEndian raw)) none)
  else .error (.valueError (reprBytes raw ++ text " does not appear to be an IPv4 or IPv6 address"))

end SsrfGuard
