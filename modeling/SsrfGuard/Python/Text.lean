import SsrfGuard.Library.Scan
import Mathlib.Data.List.DropRight

/-! # `str` as the library sees it

A `str` is the list of its code points, lone surrogates included, so every scan in the source is a
list function here. What CPython reads out of the Unicode database (case, NFKC, printability, digit
values) and what the `idna` codec answers come in through one parameter, `Unicode`, and only for
text that leaves ASCII: on ASCII text the definitions below compute. -/

namespace SsrfGuard

/-- A `str`: its code points in order. -/
abbrev Str : Type := List ℕ

/-- `==` on texts is equality of their code points. -/
instance Str.instLawfulBEq : LawfulBEq Str := inferInstance

/-- `ord`: the code point of a character. -/
def ord (c : Char) : ℕ := c.toNat

/-- The `str` a literal of the source spells. -/
def text (s : String) : Str := s.toList.map Char.toNat

/-- What the interpreter takes from tables that are not part of the source. -/
structure Unicode where
  /-- `str.lower` on a text that is not all ASCII. -/
  lower : Str → Str
  /-- `unicodedata.normalize("NFKC", _)`. -/
  nfkc : Str → Str
  /-- `str.isprintable` of one code point outside ASCII. -/
  printable : ℕ → Bool
  /-- The digit value of a code point outside ASCII, as `int` reads it. -/
  decimal : ℕ → Option ℕ
  /-- `str.encode("idna")` on a text that is not all ASCII: the bytes, or what the error says. -/
  idna : Str → Except Str (List UInt8)

/-- An interpreter whose tables hold nothing outside ASCII. -/
def Unicode.ascii : Unicode where
  lower := id
  nfkc := id
  printable := fun _ => false
  decimal := fun _ => none
  idna := fun _ => .error (text "no such codec")

/-! ## Character classes -/

/-- `str.isascii`. -/
def isAscii (s : Str) : Bool := s.all (· < 0x80)

/-- One of the ten ASCII digits. -/
def isDigit (c : ℕ) : Bool := 0x30 ≤ c && c ≤ 0x39

/-- An ASCII letter, in either case. -/
def isLetter (c : ℕ) : Bool := (0x41 ≤ c && c ≤ 0x5A) || (0x61 ≤ c && c ≤ 0x7A)

/-- `s.isascii() and s.isdigit()`. -/
def isDigits (s : Str) : Bool := !s.isEmpty && s.all isDigit

/-- `str.isspace` of one code point. -/
def isSpace (c : ℕ) : Bool :=
  (0x09 ≤ c && c ≤ 0x0D) || (0x1C ≤ c && c ≤ 0x20) || c == 0x85 || c == 0xA0 || c == 0x1680 ||
    (0x2000 ≤ c && c ≤ 0x200A) || c == 0x2028 || c == 0x2029 || c == 0x202F || c == 0x205F ||
    c == 0x3000

/-- `str.strip()`. -/
def strip (s : Str) : Str := (s.dropWhile isSpace).rdropWhile isSpace

/-- `str.rstrip(".")`. -/
def rstripDots (s : Str) : Str := s.rdropWhile (· == ord '.')

/-- Lower case of one ASCII code point. -/
def lowerChar (c : ℕ) : ℕ := if 0x41 ≤ c ∧ c ≤ 0x5A then c + 0x20 else c

/-- `str.lower`. -/
def lower (U : Unicode) (s : Str) : Str := if isAscii s then s.map lowerChar else U.lower s

theorem isAscii_of_subset {s t : Str} (hsub : s ⊆ t) (h : isAscii t = true) : isAscii s = true := by
  simp only [isAscii, List.all_eq_true, decide_eq_true_eq] at h ⊢
  exact fun c hc => h c (hsub hc)

theorem isAscii_append (s t : Str) : isAscii (s ++ t) = (isAscii s && isAscii t) := by
  simp [isAscii]

theorem isAscii_cons (c : ℕ) (s : Str) : isAscii (c :: s) = (decide (c < 0x80) && isAscii s) := by
  simp [isAscii]

theorem lower_of_isAscii (U : Unicode) {s : Str} (h : isAscii s = true) :
    lower U s = s.map lowerChar := by
  rw [lower, if_pos h]

theorem lowerChar_lt {c : ℕ} (h : c < 0x80) : lowerChar c < 0x80 := by
  unfold lowerChar; split <;> omega

/-- Lower-casing ASCII text leaves it ASCII. -/
theorem isAscii_map_lowerChar {s : Str} (h : isAscii s = true) :
    isAscii (s.map lowerChar) = true := by
  simp only [isAscii, List.all_eq_true, decide_eq_true_eq, List.mem_map] at h ⊢
  rintro c ⟨d, hd, rfl⟩
  exact lowerChar_lt (h d hd)

/-- What is no lower-case letter is not made by lower-casing. -/
theorem eq_of_lowerChar_eq {c d : ℕ} (hd : ¬ (0x61 ≤ d ∧ d ≤ 0x7A)) (h : lowerChar c = d) : c = d := by
  unfold lowerChar at h
  split at h <;> omega

/-- A dot is only made from a dot. -/
theorem lowerChar_eq_dot_iff {c : ℕ} : lowerChar c = ord '.' ↔ c = ord '.' :=
  ⟨eq_of_lowerChar_eq (by decide), fun h => by rw [h]; decide⟩

/-- What is no lower-case letter was in the text before it was lower-cased. -/
theorem mem_of_mem_map_lowerChar {d : ℕ} {s : Str} (hd : ¬ (0x61 ≤ d ∧ d ≤ 0x7A))
    (h : d ∈ s.map lowerChar) : d ∈ s := by
  obtain ⟨c, hc, hlower⟩ := List.mem_map.mp h
  exact eq_of_lowerChar_eq hd hlower ▸ hc

theorem lowerChar_lowerChar (c : ℕ) : lowerChar (lowerChar c) = lowerChar c := by
  unfold lowerChar
  split
  · rw [if_neg]; omega
  · rfl

theorem map_lowerChar_map_lowerChar (s : Str) : (s.map lowerChar).map lowerChar = s.map lowerChar := by
  rw [List.map_map]
  exact List.map_congr_left fun c _ => lowerChar_lowerChar c

/-- Lower-casing ASCII text twice is lower-casing it once. -/
theorem lower_map_lowerChar (U : Unicode) {s : Str} (hs : isAscii s = true) :
    lower U (s.map lowerChar) = s.map lowerChar := by
  rw [lower_of_isAscii U (isAscii_map_lowerChar hs), map_lowerChar_map_lowerChar]

/-! ## Numbers in text -/

/-- `str(n)` of a natural number. -/
def natText (n : ℕ) : Str := (Nat.toDigits 10 n).map Char.toNat

/-- `str(n)` of an integer. -/
def intText (n : ℤ) : Str := if n < 0 then ord '-' :: natText n.natAbs else natText n.natAbs

/-- `"%x" % n`. -/
def hexText (n : ℕ) : Str := (Nat.toDigits 16 n).map Char.toNat

/-- `n` in hexadecimal, padded with zeros to `width` digits. -/
def hexPadded (width n : ℕ) : Str := (hexText n).leftpad width (ord '0')

/-- `int(s)` for a text of ASCII digits. -/
def decimalValue (s : Str) : ℕ := s.foldl (fun n c => 10 * n + (c - 0x30)) 0

theorem isDigits_natText (n : ℕ) : isDigits (natText n) = true := by
  rw [isDigits, Bool.and_eq_true, List.all_eq_true]
  refine ⟨?_, fun c hc => ?_⟩
  · cases hn : natText n with
    | nil => exact absurd (List.map_eq_nil_iff.mp hn) Nat.toDigits_ne_nil
    | cons c s => rfl
  · obtain ⟨digit, hdigit, rfl⟩ := List.mem_map.mp hc
    have h := Nat.isDigit_of_mem_toDigits (by decide) (by decide) hdigit
    simp only [Char.isDigit, Bool.and_eq_true, decide_eq_true_eq] at h
    simp only [isDigit, Bool.and_eq_true, decide_eq_true_eq]
    exact h

/-- A number is read back from its decimal text. -/
theorem decimalValue_natText (n : ℕ) : decimalValue (natText n) = n := by
  rw [decimalValue, natText, List.foldl_map]
  exact Nat.ofDigitChars_ten_toDigits

/-- The value of one digit as `int` reads it. -/
def digitValue (U : Unicode) (c : ℕ) : Option ℕ := if isDigit c then some (c - 0x30) else U.decimal c

/-- The digits of an `int` text, single underscores allowed between them. -/
def intDigits (U : Unicode) : Str → Option (List ℕ)
  | [] => none
  | [c] => (digitValue U c).map ([·])
  | c :: d :: s =>
    match digitValue U c with
    | none => none
    | some v =>
      if d = ord '_' then (intDigits U s).map (v :: ·) else (intDigits U (d :: s)).map (v :: ·)

/-- `int(s)`: `none` where it raises `ValueError`. -/
def intOfText (U : Unicode) (s : Str) : Option ℤ :=
  let value (digits : Str) : Option ℤ :=
    (intDigits U digits).map fun ds => (ds.foldl (fun n d => 10 * n + d) 0 : ℕ)
  match strip s with
  | [] => none
  | c :: rest =>
    if c = ord '-' then (value rest).map (- ·)
    else if c = ord '+' then value rest
    else value (c :: rest)

/-! ## `repr` of a text -/

/-- One code point inside quotes. -/
def reprChar (U : Unicode) (quote c : ℕ) : Str :=
  if c = quote ∨ c = 0x5C then [0x5C, c]
  else if c = 0x09 then text "\\t"
  else if c = 0x0A then text "\\n"
  else if c = 0x0D then text "\\r"
  else if c < 0x20 ∨ c = 0x7F then text "\\x" ++ hexPadded 2 c
  else if c < 0x7F ∨ U.printable c then [c]
  else if c ≤ 0xFF then text "\\x" ++ hexPadded 2 c
  else if c ≤ 0xFFFF then text "\\u" ++ hexPadded 4 c
  else text "\\U" ++ hexPadded 8 c

/-- `repr(s)`: single quotes, unless the text holds one and no double quote. -/
def repr (U : Unicode) (s : Str) : Str :=
  let quote := if 0x27 ∈ s ∧ 0x22 ∉ s then 0x22 else 0x27
  quote :: s.flatMap (reprChar U quote) ++ [quote]

/-! ## Joining -/

/-- `sep.join(parts)`. -/
def join (sep : Str) (parts : List Str) : Str := sep.intercalate parts

/-- `s.split(c)` for a one-character separator. -/
def split (c : Char) (s : Str) : List Str := s.splitOn (ord c)

/-- The parts of a text make it again. -/
theorem intercalate_split (c : Char) (s : Str) : [ord c].intercalate (split c s) = s :=
  List.intercalate_splitOn (ord c)

end SsrfGuard
