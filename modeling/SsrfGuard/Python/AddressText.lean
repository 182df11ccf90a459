import SsrfGuard.Python.IpAddress
import Mathlib.Data.List.GetD

/-! # Reading an address back from its text

`str` writes an address so that `ip_address` reads the same one: the octets in decimal, the hextets in
hexadecimal, the longest run of zeros as `::`, and the zone behind a `%`. The hextets in front of the `::` and
behind it are read back, and the zeros between them fill up the eight. -/

namespace SsrfGuard

/-! ## Numbers in a text -/

theorem parseOctet_natText {n : ℕ} (h : n < 256) : parseOctet (natText n) = some n := by
  have hall : ∀ n < 256, parseOctet (natText n) = some n := by decide +kernel
  exact hall n h

theorem hexValue_digitChar {d : ℕ} (h : d < 16) : hexValue (Nat.digitChar d).toNat = some d := by
  have hall : ∀ d < 16, hexValue (Nat.digitChar d).toNat = some d := by decide
  exact hall d h

/-- The last hexadecimal digit of a number, behind the text of the others. -/
theorem hexText_of_le {n : ℕ} (h : 16 ≤ n) :
    hexText n = hexText (n / 16) ++ [(Nat.digitChar (n % 16)).toNat] := by
  rw [hexText, Nat.toDigits_of_base_le (by decide) h, List.map_append, List.map_singleton, ← hexText]

/-- The digits of a number in hexadecimal are its own. -/
theorem exists_digits_hexText (n : ℕ) :
    ∃ digits, (hexText n).mapM hexValue = some digits ∧ digits.foldl (fun n d => 16 * n + d) 0 = n := by
  induction n using Nat.strong_induction_on with
  | _ n ih =>
      rcases Nat.lt_or_ge n 16 with hlt | hge
      · refine ⟨[n], ?_, ?_⟩
        · rw [hexText, Nat.toDigits_of_lt_base hlt, List.map_singleton, List.mapM_cons, hexValue_digitChar hlt]
          rfl
        · simp
      · obtain ⟨digits, hdigits, hvalue⟩ := ih (n / 16) (by omega)
        refine ⟨digits ++ [n % 16], ?_, ?_⟩
        · rw [hexText_of_le hge, List.mapM_append, hdigits, List.mapM_cons,
            hexValue_digitChar (Nat.mod_lt n (by decide))]
          rfl
        · rw [List.foldl_append, hvalue, List.foldl_cons, List.foldl_nil]
          omega

theorem hexText_ne_nil (n : ℕ) : hexText n ≠ [] := fun h =>
  Nat.toDigits_ne_nil (List.map_eq_nil_iff.mp h)

theorem length_hexText_le {n : ℕ} (h : n < 0x10000) : (hexText n).length ≤ 4 := by
  rw [hexText, List.length_map]
  exact (Nat.length_toDigits_le_iff (by decide) (by decide)).mpr h

/-- A hextet is read back from its hexadecimal text. -/
theorem parseHextet_hexText {n : ℕ} (h : n < 0x10000) : parseHextet (hexText n) = some n := by
  obtain ⟨digits, hdigits, hvalue⟩ := exists_digits_hexText n
  have hshape : ¬ (hexText n = [] ∨ 4 < (hexText n).length) := by
    rw [not_or]
    exact ⟨hexText_ne_nil n, not_lt.mpr (length_hexText_le h)⟩
  rw [parseHextet, if_neg hshape, hdigits, Option.map_some, hvalue]

theorem isSome_hexValue_of_mem_hexText {n c : ℕ} (h : c ∈ hexText n) : (hexValue c).isSome = true := by
  obtain ⟨digits, hdigits, -⟩ := exists_digits_hexText n
  exact isSome_of_mem_mapM hdigits h

theorem colon_not_mem_hexText (n : ℕ) : ord ':' ∉ hexText n := fun h =>
  absurd (isSome_hexValue_of_mem_hexText h) (by decide)

theorem dot_not_mem_hexText (n : ℕ) : ord '.' ∉ hexText n := fun h =>
  absurd (isSome_hexValue_of_mem_hexText h) (by decide)

/-! ## Octets and hextets of a number -/

/-- `str` of an IPv4 address is read back. -/
theorem ipv4FromString_ipv4Text (ip : BitVec 32) : ipv4FromString (ipv4Text ip) = some ip := by
  have hsplit : split '.' (ipv4Text ip) =
      [24, 16, 8, 0].map fun shift => natText ((ip.toNat >>> shift) % 256) := by
    refine List.splitOn_intercalate (ord '.') (fun part hpart hdot => ?_) (List.cons_ne_nil _ _)
    obtain ⟨shift, -, rfl⟩ := List.mem_map.mp hpart
    have hdigits := isDigits_natText ((ip.toNat >>> shift) % 256)
    rw [isDigits, Bool.and_eq_true, List.all_eq_true] at hdigits
    exact absurd (hdigits.2 _ hdot) (by decide)
  have hoctet : ∀ shift, parseOctet (natText ((ip.toNat >>> shift) % 256)) =
      some ((ip.toNat >>> shift) % 256) := fun shift => parseOctet_natText (Nat.mod_lt _ (by decide))
  rw [ipv4FromString, hsplit]
  simp only [List.map_cons, List.map_nil, hoctet, Option.some.injEq]
  have hlt := ip.isLt
  apply BitVec.eq_of_toNat_eq
  simp only [BitVec.toNat_ofNat, Nat.shiftRight_eq_div_pow]
  omega

/-- The number a run of hextets spells, behind what has been read. -/
def hextetValue (start : ℕ) (hs : List ℕ) : ℕ := hs.foldl (fun n h => n * 0x10000 + h) start

theorem hextetValue_append (start : ℕ) (front back : List ℕ) :
    hextetValue start (front ++ back) = hextetValue (hextetValue start front) back :=
  List.foldl_append

theorem hextetValue_replicate_zero (start count : ℕ) :
    hextetValue start (List.replicate count 0) = start <<< (16 * count) := by
  induction count generalizing start with
  | zero => rfl
  | succ count ih =>
      have hcount : 16 * (count + 1) = 16 + 16 * count := by omega
      rw [List.replicate_succ, hextetValue, List.foldl_cons, ← hextetValue, ih, Nat.add_zero, hcount,
        Nat.shiftLeft_add, Nat.shiftLeft_eq start 16]

/-- An address is the number its hextets spell. -/
theorem hextetValue_hextets (ip : BitVec 128) : hextetValue 0 (hextets ip) = ip.toNat := by
  have hlt := ip.isLt
  have hstep : ∀ shift, (ip.toNat >>> (shift + 16)) * 0x10000 + (ip.toNat >>> shift) % 0x10000 =
      ip.toNat >>> shift := by
    intro shift
    rw [Nat.shiftRight_add, Nat.shiftRight_eq_div_pow _ 16]
    exact Nat.div_add_mod' _ _
  have htop : ip.toNat >>> 112 < 0x10000 := by
    rw [Nat.shiftRight_eq_div_pow]
    omega
  simp only [hextetValue, hextets, List.map_cons, List.map_nil, List.foldl_cons, List.foldl_nil,
    Nat.mod_eq_of_lt htop, Nat.zero_mul, Nat.zero_add]
  rw [hstep 96, hstep 80, hstep 64, hstep 48, hstep 32, hstep 16, hstep 0, Nat.shiftRight_zero]

theorem lt_of_mem_hextets {ip : BitVec 128} {n : ℕ} (h : n ∈ hextets ip) : n < 0x10000 := by
  obtain ⟨shift, -, rfl⟩ := List.mem_map.mp h
  exact Nat.mod_lt _ (by decide)

theorem foldHextets_map_hexText (start : ℕ) {hs : List ℕ} (h : ∀ n ∈ hs, n < 0x10000) :
    foldHextets start (hs.map hexText) = some (hextetValue start hs) := by
  have hparts : (hs.map hexText).mapM parseHextet = some hs := by
    induction hs with
    | nil => rfl
    | cons n hs ih =>
        obtain ⟨hn, hhs⟩ := List.forall_mem_cons.mp h
        rw [List.map_cons, List.mapM_cons, parseHextet_hexText hn, ih hhs]
        rfl
  rw [foldHextets, hparts, Option.map_some, hextetValue]

/-! ## Parts of an IPv6 text -/

/-- What stands on one side of a `::`, split at the colons. -/
def hexParts (hs : List ℕ) : List Str := if hs = [] then [[]] else hs.map hexText

theorem hexParts_of_ne_nil {hs : List ℕ} (h : hs ≠ []) : hexParts hs = hs.map hexText := if_neg h

theorem split_join_hexText (hs : List ℕ) : split ':' (join (text ":") (hs.map hexText)) = hexParts hs := by
  by_cases hnil : hs = []
  · rw [hnil]
    rfl
  · rw [hexParts_of_ne_nil hnil]
    refine List.splitOn_intercalate (ord ':') (fun part hpart => ?_) fun h => hnil (List.map_eq_nil_iff.mp h)
    obtain ⟨n, -, rfl⟩ := List.mem_map.mp hpart
    exact colon_not_mem_hexText n

theorem hexParts_ne_nil (hs : List ℕ) : hexParts hs ≠ [] := by
  by_cases hnil : hs = []
  · rw [hnil]
    exact List.cons_ne_nil _ _
  · rw [hexParts_of_ne_nil hnil]
    exact fun h => hnil (List.map_eq_nil_iff.mp h)

theorem length_hexParts (hs : List ℕ) : (hexParts hs).length = max 1 hs.length := by
  by_cases hnil : hs = []
  · rw [hnil]
    rfl
  · have hpos := List.length_pos_iff.mpr hnil
    rw [hexParts_of_ne_nil hnil, List.length_map]
    omega

/-- A part is empty only where there is no hextet. -/
theorem isEmpty_getD_hexParts {hs : List ℕ} {i : ℕ} (hi : i < (hexParts hs).length) (hne : hs ≠ []) :
    ((hexParts hs).getD i []).isEmpty = false := by
  rw [hexParts_of_ne_nil hne] at hi ⊢
  rw [List.getD_eq_getElem _ _ hi, List.getElem_map, List.isEmpty_eq_false_iff]
  exact hexText_ne_nil _

/-- The parts of a text with a `::` in it. -/
def compressedParts (front back : List ℕ) : List Str := hexParts front ++ [] :: hexParts back

theorem length_compressedParts (front back : List ℕ) :
    (compressedParts front back).length = (hexParts front).length + 1 + (hexParts back).length := by
  rw [compressedParts, List.length_append, List.length_cons]
  omega

/-- The text starts with the `::` where no hextet stands in front of it. -/
theorem headD_compressedParts_eq_nil {front back : List ℕ} :
    (compressedParts front back).headD [] = [] ↔ front = [] := by
  rw [compressedParts]
  by_cases hnil : front = []
  · rw [hnil]
    exact iff_of_true rfl rfl
  · obtain ⟨n, ns, rfl⟩ := List.exists_cons_of_ne_nil hnil
    rw [hexParts_of_ne_nil hnil, List.map_cons, List.cons_append, List.headD_cons]
    exact iff_of_false (hexText_ne_nil n) hnil

/-- The text ends with the `::` where no hextet stands behind it. -/
theorem getLastD_compressedParts_eq_nil {front back : List ℕ} :
    (compressedParts front back).getLastD [] = [] ↔ back = [] := by
  rw [compressedParts, List.getLastD_eq_getLast?, List.getLast?_append_of_ne_nil _ (List.cons_ne_nil _ _),
    List.getLast?_cons_of_ne_nil (hexParts_ne_nil back)]
  by_cases hnil : back = []
  · rw [hnil]
    exact iff_of_true rfl rfl
  · obtain ⟨ns, n, rfl⟩ := (List.eq_nil_or_concat' back).resolve_left hnil
    rw [hexParts_of_ne_nil hnil, List.map_append, List.map_singleton, List.getLast?_concat]
    exact iff_of_false (hexText_ne_nil n) hnil

theorem take_compressedParts (front back : List ℕ) :
    (compressedParts front back).take front.length = front.map hexText := by
  rw [compressedParts]
  by_cases hnil : front = []
  · rw [hnil]
    rfl
  · rw [hexParts_of_ne_nil hnil, List.take_left' (List.length_map _)]

theorem drop_compressedParts (front back : List ℕ) :
    (compressedParts front back).drop ((compressedParts front back).length - back.length) = back.map hexText := by
  by_cases hnil : back = []
  · rw [hnil, List.length_nil, Nat.sub_zero, List.drop_length]
    rfl
  · have hpos := List.length_pos_iff.mpr hnil
    have hbackLength := length_hexParts back
    have hwhere : (compressedParts front back).length - back.length = (hexParts front ++ [[]]).length := by
      rw [length_compressedParts, List.length_append, List.length_singleton]
      omega
    have hshape : compressedParts front back = (hexParts front ++ [[]]) ++ hexParts back :=
      List.append_cons _ _ _
    rw [hwhere, hshape, List.drop_left, hexParts_of_ne_nil hnil]

/-- The one part inside a compressed text that is empty is that of the `::`. -/
theorem filter_isEmpty_hexParts (front back : List ℕ) :
    ((List.range' 1 ((compressedParts front back).length - 2)).filter fun i =>
      ((compressedParts front back).getD i []).isEmpty) = [(hexParts front).length] := by
  have hfrontLength := length_hexParts front
  have hbackLength := length_hexParts back
  -- the parts inside are those of the front but the first, the empty one, and those of the back but the last
  have hcount : (compressedParts front back).length - 2 =
      ((hexParts front).length - 1) + (1 + ((hexParts back).length - 1)) := by
    rw [length_compressedParts]
    omega
  have hmiddle : 1 + ((hexParts front).length - 1) = (hexParts front).length := by omega
  rw [hcount, ← List.range'_append_1, ← List.range'_append_1, hmiddle, List.filter_append, List.filter_append]
  have hbefore : (List.range' 1 ((hexParts front).length - 1)).filter
      (fun i => ((compressedParts front back).getD i []).isEmpty) = [] := by
    refine List.filter_eq_nil_iff.mpr fun i hi => ?_
    obtain ⟨hone, hlt⟩ := List.mem_range'_1.mp hi
    have hpart : i < (hexParts front).length := by omega
    rw [compressedParts, List.getD_append _ _ _ _ hpart, isEmpty_getD_hexParts hpart]
    · exact Bool.false_ne_true
    · rintro rfl
      rw [length_hexParts, List.length_nil] at hpart
      omega
  have hafter : (List.range' ((hexParts front).length + 1) ((hexParts back).length - 1)).filter
      (fun i => ((compressedParts front back).getD i []).isEmpty) = [] := by
    refine List.filter_eq_nil_iff.mpr fun i hi => ?_
    obtain ⟨hone, hlt⟩ := List.mem_range'_1.mp hi
    have hpart : i - (hexParts front).length - 1 < (hexParts back).length := by omega
    have hshift : i - (hexParts front).length = (i - (hexParts front).length - 1) + 1 := by omega
    rw [compressedParts, List.getD_append_right _ _ _ _ (by omega), hshift, List.getD_cons_succ,
      isEmpty_getD_hexParts hpart]
    · exact Bool.false_ne_true
    · rintro rfl
      rw [List.length_nil] at hbackLength
      omega
  have hhere : ((compressedParts front back).getD (hexParts front).length []).isEmpty = true := by
    rw [compressedParts, List.getD_append_right _ _ _ _ (Nat.le_refl _), Nat.sub_self, List.getD_cons_zero]
    rfl
  rw [hbefore, hafter, List.nil_append, List.append_nil, List.range'_one]
  exact List.filter_cons_of_pos hhere

/-- Beside the `::` stand the hextets that were written there. -/
theorem hextetsBeside_of_hexParts {hs : List ℕ} {endpoint : Str} (h : endpoint = [] ↔ hs = []) :
    hextetsBeside endpoint (hexParts hs).length = some hs.length := by
  rw [hextetsBeside, length_hexParts]
  by_cases hnil : hs = []
  · rw [if_neg (not_not.mpr (h.mpr hnil)), hnil]
    rfl
  · have hpos := List.length_pos_iff.mpr hnil
    rw [if_pos (fun hend => hnil (h.mp hend))]
    congr 1
    omega

/-- A text with a `::` is the number of the hextets in front of it, of the zeros it stands for, and of the
hextets behind it. -/
theorem ipv6FromString_of_compressed {s : Str} {front back : List ℕ} (hfront : ∀ n ∈ front, n < 0x10000)
    (hback : ∀ n ∈ back, n < 0x10000) (hlength : front.length + back.length < 8)
    (h : ipv6Parts s = some (compressedParts front back)) :
    ipv6FromString s = some (BitVec.ofNat 128 (hextetValue 0
      (front ++ List.replicate (8 - (front.length + back.length)) 0 ++ back))) := by
  have hfrontLength := length_hexParts front
  have hbackLength := length_hexParts back
  have hcount := length_compressedParts front back
  have hbehind : (compressedParts front back).length - (hexParts front).length - 1 =
      (hexParts back).length := by omega
  rw [ipv6FromString, h]
  dsimp only
  -- one part inside is empty, and on either side of it there are as many hextets as were written
  rw [if_neg (by omega), filter_isEmpty_hexParts]
  dsimp only
  rw [hextetsBeside_of_hexParts headD_compressedParts_eq_nil, hbehind,
    hextetsBeside_of_hexParts getLastD_compressedParts_eq_nil]
  dsimp only
  rw [if_neg (by omega), take_compressedParts, foldHextets_map_hexText 0 hfront, Option.bind_some,
    drop_compressedParts, foldHextets_map_hexText _ hback, Option.map_some, hextetValue_append,
    hextetValue_append, hextetValue_replicate_zero]

/-- A text without a `::` is the number of its eight hextets. -/
theorem ipv6FromString_of_whole {s : Str} {hs : List ℕ} (hhs : ∀ n ∈ hs, n < 0x10000) (hlength : hs.length = 8)
    (h : ipv6Parts s = some (hs.map hexText)) :
    ipv6FromString s = some (BitVec.ofNat 128 (hextetValue 0 hs)) := by
  have hne : ∀ i < 8, ((hs.map hexText).getD i []).isEmpty = false := by
    intro i hi
    have hbound : i < (hs.map hexText).length := by
      rw [List.length_map]
      omega
    rw [List.getD_eq_getElem _ _ hbound, List.getElem_map, List.isEmpty_eq_false_iff]
    exact hexText_ne_nil _
  have hnone : (List.range' 1 ((hs.map hexText).length - 2)).filter
      (fun i => ((hs.map hexText).getD i []).isEmpty) = [] := by
    refine List.filter_eq_nil_iff.mpr fun i hi => ?_
    obtain ⟨-, hlt⟩ := List.mem_range'_1.mp hi
    rw [List.length_map] at hlt
    rw [hne i (by omega)]
    exact Bool.false_ne_true
  have hnil : hs ≠ [] := List.ne_nil_of_length_pos (by omega)
  have hfirst : (hs.map hexText).headD [] ≠ [] := by
    obtain ⟨n, ns, rfl⟩ := List.exists_cons_of_ne_nil hnil
    exact hexText_ne_nil n
  have hlast : (hs.map hexText).getLastD [] ≠ [] := by
    obtain ⟨ns, n, rfl⟩ := (List.eq_nil_or_concat' hs).resolve_left hnil
    rw [List.map_append, List.map_singleton, List.getLastD_concat]
    exact hexText_ne_nil n
  rw [ipv6FromString, h]
  dsimp only
  rw [if_neg (by rw [List.length_map]; omega), hnone]
  dsimp only
  rw [if_neg (by rw [not_or, not_or, not_not, List.length_map]; exact ⟨hlength, hfirst, hlast⟩),
    foldHextets_map_hexText 0 hhs, Option.map_some]

/-! ## The longest run of zeros -/

theorem eq_replicate_append_of_le_zeroRun {hs : List ℕ} {count : ℕ} (h : count ≤ zeroRun hs) :
    hs = List.replicate count 0 ++ hs.drop count := by
  induction count generalizing hs with
  | zero => rfl
  | succ count ih =>
      cases hs with
      | nil => exact absurd h (Nat.not_succ_le_zero count)
      | cons n hs =>
          by_cases hzero : n = 0
          · subst hzero
            have hrest : count ≤ zeroRun hs := by
              rw [zeroRun, List.takeWhile_cons_of_pos (by rfl), List.length_cons] at h
              exact Nat.le_of_succ_le_succ h
            rw [List.replicate_succ, List.drop_succ_cons, List.cons_append, ← ih hrest]
          · rw [zeroRun, List.takeWhile_cons_of_neg (by simpa using hzero)] at h
            exact absurd h (Nat.not_succ_le_zero count)

/-- The run that is written `::` is a run of zeros. -/
theorem longestZeroRun_le (hs : List ℕ) :
    (longestZeroRun hs).2 ≤ zeroRun (hs.drop (longestZeroRun hs).1) := by
  have hbest : ∀ (indices : List ℕ) (best : ℕ × ℕ), best.2 ≤ zeroRun (hs.drop best.1) →
      (indices.foldl (fun best i =>
          if best.2 < zeroRun (hs.drop i) then (i, zeroRun (hs.drop i)) else best) best).2 ≤
        zeroRun (hs.drop (indices.foldl (fun best i =>
          if best.2 < zeroRun (hs.drop i) then (i, zeroRun (hs.drop i)) else best) best).1) := by
    intro indices
    induction indices with
    | nil => exact fun best h => h
    | cons i indices ih =>
        intro best h
        rw [List.foldl_cons]
        refine ih _ ?_
        split
        · exact Nat.le_refl _
        · exact h
  exact hbest _ _ (Nat.zero_le _)

/-- An address is the hextets in front of the longest run, its zeros, and the hextets behind it. -/
theorem take_zeros_drop (hs : List ℕ) :
    hs.take (longestZeroRun hs).1 ++ List.replicate (longestZeroRun hs).2 0 ++
      hs.drop ((longestZeroRun hs).1 + (longestZeroRun hs).2) = hs := by
  have hcut := eq_replicate_append_of_le_zeroRun (longestZeroRun_le hs)
  rw [List.drop_drop] at hcut
  rw [List.append_assoc, ← hcut, List.take_append_drop]

/-! ## The texts of `str` -/

theorem ipv6Parts_of_split {s : Str} {parts : List Str} (hsplit : split ':' s = parts)
    (hlength : 3 ≤ parts.length) (hdot : ord '.' ∉ parts.getLastD []) : ipv6Parts s = some parts := by
  rw [ipv6Parts, hsplit, if_neg (not_lt.mpr hlength), if_neg hdot]

theorem dot_not_mem_getLastD {hs : List ℕ} {front : List Str} :
    ord '.' ∉ (front ++ hexParts hs).getLastD [] := by
  rw [List.getLastD_eq_getLast?, List.getLast?_append_of_ne_nil _ (hexParts_ne_nil hs)]
  by_cases hnil : hs = []
  · rw [hnil]
    exact List.not_mem_nil
  · obtain ⟨ns, n, rfl⟩ := (List.eq_nil_or_concat' hs).resolve_left hnil
    rw [hexParts_of_ne_nil hnil, List.map_append, List.map_singleton, List.getLast?_concat]
    exact dot_not_mem_hexText n

theorem split_compressed (front back : List ℕ) :
    split ':' (join (text ":") (front.map hexText) ++ text "::" ++ join (text ":") (back.map hexText)) =
      compressedParts front back := by
  rw [compressedParts, ← split_join_hexText, ← split_join_hexText, List.append_assoc]
  have hcolons := List.splitOn_append_cons_self (a := ord ':') (join (text ":") (front.map hexText))
    (ord ':' :: join (text ":") (back.map hexText))
  have hcolon := List.splitOn_append_cons_self (a := ord ':') [] (join (text ":") (back.map hexText))
  rw [List.nil_append] at hcolon
  rw [hcolon] at hcolons
  exact hcolons

/-- The hextets of an address are read back, the longest run of zeros written out or not. -/
theorem ipv6FromString_ipv6IntText (ip : BitVec 128) : ipv6FromString (ipv6IntText ip) = some ip := by
  have hvalue : BitVec.ofNat 128 (hextetValue 0 (hextets ip)) = ip := by
    rw [hextetValue_hextets, BitVec.ofNat_toNat, BitVec.setWidth_eq]
  have hsmall : ∀ n ∈ hextets ip, n < 0x10000 := fun n hn => lt_of_mem_hextets hn
  have height : (hextets ip).length = 8 := rfl
  have hall := take_zeros_drop (hextets ip)
  rw [ipv6IntText]
  dsimp only
  cases hrun : longestZeroRun (hextets ip) with
  | mk start run =>
      rw [hrun] at hall
      dsimp only at hall ⊢
      split
      · next hshort =>
        -- a run of one hextet is written out
        have hne : hextets ip ≠ [] := List.ne_nil_of_length_pos (by omega)
        have hsplit := split_join_hexText (hextets ip)
        have hparts := ipv6Parts_of_split hsplit (by rw [length_hexParts]; omega)
          (@dot_not_mem_getLastD (hextets ip) [])
        rw [hexParts_of_ne_nil hne] at hparts
        rw [ipv6FromString_of_whole hsmall height hparts, hvalue]
      · next hlong =>
        have hlengths := congrArg List.length hall
        rw [List.length_append, List.length_append, List.length_replicate, height] at hlengths
        have hparts := ipv6Parts_of_split
          (split_compressed ((hextets ip).take start) ((hextets ip).drop (start + run))) ?_ ?_
        · rw [ipv6FromString_of_compressed (fun n hn => hsmall n (List.mem_of_mem_take hn))
            (fun n hn => hsmall n (List.mem_of_mem_drop hn)) (by omega) hparts]
          have hcount : 8 - (((hextets ip).take start).length + ((hextets ip).drop (start + run)).length) =
              run := by omega
          rw [hcount, hall, hvalue]
        · rw [length_compressedParts, length_hexParts, length_hexParts]
          omega
        · rw [compressedParts, List.append_cons]
          exact dot_not_mem_getLastD

theorem colon_not_mem_ipv4Text (ip : BitVec 32) : ord ':' ∉ ipv4Text ip := fun h =>
  have hchars := isDigitsAndDots_of_ipv4FromString (ipv4FromString_ipv4Text ip)
  absurd (List.all_eq_true.mp hchars _ h) (by decide)

theorem dot_mem_ipv4Text (ip : BitVec 32) : ord '.' ∈ ipv4Text ip := by
  rw [ipv4Text, join, List.map_cons, List.map_cons, List.intercalate_cons_cons, List.append_assoc]
  exact List.mem_append_right _ List.mem_cons_self

/-- An IPv4-mapped address is read back from the dotted quad at the end of its text. -/
theorem ipv6FromString_mapped {ip : BitVec 128} (h : ip.toNat >>> 32 = 0xFFFF) :
    ipv6FromString (text "::ffff:" ++ ipv4Text (ip.setWidth 32)) = some ip := by
  have hsplit : split ':' (text "::ffff:" ++ ipv4Text (ip.setWidth 32)) =
      [[], [], text "ffff", ipv4Text (ip.setWidth 32)] := by
    have hjoined : text "::ffff:" ++ ipv4Text (ip.setWidth 32) =
        [ord ':'].intercalate [[], [], text "ffff", ipv4Text (ip.setWidth 32)] := by
      rw [List.intercalate_cons_cons, List.intercalate_cons_cons, List.intercalate_cons_cons,
        List.intercalate_singleton]
      rfl
    rw [hjoined]
    refine List.splitOn_intercalate (ord ':') (fun part hpart => ?_) (List.cons_ne_nil _ _)
    simp only [List.mem_cons, List.not_mem_nil, or_false] at hpart
    rcases hpart with rfl | rfl | rfl | rfl
    · exact List.not_mem_nil
    · exact List.not_mem_nil
    · decide
    · exact colon_not_mem_ipv4Text _
  have hparts : ipv6Parts (text "::ffff:" ++ ipv4Text (ip.setWidth 32)) =
      some (hexParts [] ++ [] :: hexParts [0xFFFF, (ip.setWidth 32).toNat >>> 16,
        (ip.setWidth 32).toNat % 0x10000]) := by
    have hlast : [[], [], text "ffff", ipv4Text (ip.setWidth 32)].getLastD [] = ipv4Text (ip.setWidth 32) := rfl
    rw [ipv6Parts, hsplit, if_neg (by simp), hlast, if_pos (dot_mem_ipv4Text _), ipv4FromString_ipv4Text]
    rfl
  have hlow : (ip.setWidth 32).toNat = ip.toNat % 2 ^ 32 := BitVec.toNat_setWidth _ _
  rw [Nat.shiftRight_eq_div_pow] at h
  rw [ipv6FromString_of_compressed (List.forall_mem_nil _) ?_ (by simp) hparts]
  · refine congrArg some (BitVec.eq_of_toNat_eq ?_)
    simp only [BitVec.toNat_ofNat, hextetValue, hlow, Nat.shiftRight_eq_div_pow, List.length_nil,
      List.length_cons, List.nil_append, List.foldl_append, List.foldl_cons, List.foldl_nil,
      List.replicate_succ, List.replicate_zero]
    have hlt := ip.isLt
    omega
  · intro n hn
    simp only [List.mem_cons, List.not_mem_nil, or_false] at hn
    rcases hn with rfl | rfl | rfl
    · decide
    · rw [hlow, Nat.shiftRight_eq_div_pow]
      omega
    · exact Nat.mod_lt _ (by decide)

/-- `str` of an IPv6 address without a zone is read back. -/
theorem ipv6FromString_ipv6Text (ip : BitVec 128) : ipv6FromString (ipv6Text ip none) = some ip := by
  rw [ipv6Text]
  split
  · next hmapped => exact ipv6FromString_mapped hmapped
  · exact ipv6FromString_ipv6IntText ip

/-! ## Addresses -/

/-- An address whose zone a text can carry: not empty, and without a `%` or a `/` in it. -/
def IPAddress.Spellable : IPAddress → Prop
  | .v6 _ (some zone) => zone ≠ [] ∧ ord '%' ∉ zone ∧ ord '/' ∉ zone
  | _ => True

theorem ipv6Text_zone (ip : BitVec 128) (zone : Str) :
    ipv6Text ip (some zone) = ipv6Text ip none ++ ord '%' :: zone := by
  rw [ipv6Text, ipv6Text, List.append_assoc]
  rfl

theorem not_mem_ipv6Text {ip : BitVec 128} {c : ℕ} (hc : isAddressChar c = false) : c ∉ ipv6Text ip none :=
  fun h => by
    rw [isAddressChar_of_ipv6FromString (ipv6FromString_ipv6Text ip) h] at hc
    cases hc

theorem splitScopeId_ipv6Text {ip : BitVec 128} {scopeId : Option Str}
    (h : (IPAddress.v6 ip scopeId).Spellable) :
    splitScopeId (ipv6Text ip scopeId) = some (ipv6Text ip none, scopeId) := by
  have hpercent : ord '%' ∉ ipv6Text ip none := not_mem_ipv6Text (by decide)
  cases scopeId with
  | none => rw [splitScopeId, Scan.partition_singleton_eq_none.mpr hpercent]
  | some zone =>
      obtain ⟨hne, hzone, -⟩ := h
      rw [splitScopeId, ipv6Text_zone, Scan.partition_singleton_append hpercent]
      dsimp only
      rw [if_neg (not_or.mpr ⟨hne, hzone⟩)]

/-- **`str` of an address is read back by `ip_address`.** -/
theorem parseAddress_str {a : IPAddress} (h : a.Spellable) : parseAddress a.str = some a := by
  cases a with
  | v4 ip =>
      have hchars := isDigitsAndDots_of_ipv4FromString (ipv4FromString_ipv4Text ip)
      have hslash : ord '/' ∉ ipv4Text ip := fun hmem =>
        absurd (List.all_eq_true.mp hchars _ hmem) (by decide)
      rw [parseAddress, IPAddress.str, if_neg hslash, ipv4FromString_ipv4Text]
  | v6 ip scopeId =>
      have haddress : ipv6Address (ipv6Text ip scopeId) = some (.v6 ip scopeId) := by
        rw [ipv6Address, splitScopeId_ipv6Text h, Option.bind_some, ipv6FromString_ipv6Text, Option.map_some]
      have hslash : ord '/' ∉ ipv6Text ip scopeId := by
        have hbody : ord '/' ∉ ipv6Text ip none := not_mem_ipv6Text (by decide)
        cases scopeId with
        | none => exact hbody
        | some zone =>
            rw [ipv6Text_zone, List.mem_append, List.mem_cons, not_or, not_or]
            exact ⟨hbody, by decide, h.2.2⟩
      have hquad : ipv4FromString (ipv6Text ip scopeId) = none := by
        by_contra hsome
        obtain ⟨quad, hquad⟩ := Option.ne_none_iff_exists'.mp hsome
        have hchars := isDigitsAndDots_of_ipv4FromString hquad
        exact absurd (List.all_eq_true.mp hchars _ (colon_mem_of_ipv6Address haddress)) (by decide)
      rw [parseAddress, IPAddress.str, if_neg hslash, hquad, haddress]

/-- What `ip_address` reads from a text, a text can carry. -/
theorem spellable_of_parseAddress {s : Str} {a : IPAddress} (h : parseAddress s = some a) : a.Spellable := by
  rw [parseAddress] at h
  split at h
  · cases h
  · next hslash =>
    split at h
    · cases h
      exact True.intro
    · obtain ⟨parts, hparts, h⟩ := Option.bind_eq_some_iff.mp h
      obtain ⟨ip, -, rfl⟩ := Option.map_eq_some_iff.mp h
      rw [splitScopeId] at hparts
      split at hparts
      · cases hparts
        exact True.intro
      · next addr zone hcut =>
        split at hparts
        · cases hparts
        · next hzone =>
          cases hparts
          rw [not_or] at hzone
          refine ⟨hzone.1, hzone.2, fun hmem => hslash ?_⟩
          rw [Scan.partition_eq_append hcut]
          exact List.mem_append_right _ hmem

end SsrfGuard
