import SsrfGuard.Python.Errors

/-! # `ipaddress`: addresses

IPv4 and IPv6 addresses, the strict text parser behind `ip_address`, and `str`. The zone identifier
of a scoped IPv6 address takes part in equality, as it does in CPython, and in nothing else. -/

namespace SsrfGuard

/-- `IPv4Address | IPv6Address`. -/
inductive IPAddress
  /-- A version 4 address. -/
  | v4 (ip : BitVec 32)
  /-- A version 6 address and its zone identifier. -/
  | v6 (ip : BitVec 128) (scopeId : Option Str)
  deriving DecidableEq

/-- `address.version`. -/
def IPAddress.version : IPAddress → ℕ
  | v4 _ => 4
  | v6 _ _ => 6

@[simp] theorem IPAddress.version_v4 (ip : BitVec 32) : (IPAddress.v4 ip).version = 4 := rfl

@[simp] theorem IPAddress.version_v6 (ip : BitVec 128) (scopeId : Option Str) :
    (IPAddress.v6 ip scopeId).version = 6 := rfl

/-! ## Parsing -/

/-- `_parse_octet`: at most three decimal digits, no leading zero, at most 255. -/
def parseOctet (s : Str) : Option ℕ :=
  if !isDigits s || 3 < s.length then none
  else if s ≠ text "0" ∧ s.head? = some (ord '0') then none
  else if 255 < decimalValue s then none
  else some (decimalValue s)

/-- `_BaseV4._ip_int_from_string`: four octets, big end first. -/
def ipv4FromString (s : Str) : Option (BitVec 32) :=
  match split '.' s with
  | [a, b, c, d] =>
    match parseOctet a, parseOctet b, parseOctet c, parseOctet d with
    | some a, some b, some c, some d => some (BitVec.ofNat 32 (((a * 256 + b) * 256 + c) * 256 + d))
    | _, _, _, _ => none
  | _ => none

/-- The value of a hexadecimal digit. -/
def hexValue (c : ℕ) : Option ℕ :=
  if isDigit c then some (c - 0x30)
  else if 0x61 ≤ c ∧ c ≤ 0x66 then some (c - 0x57)
  else if 0x41 ≤ c ∧ c ≤ 0x46 then some (c - 0x37)
  else none

/-- `_parse_hextet`: one to four hexadecimal digits. -/
def parseHextet (s : Str) : Option ℕ :=
  if s = [] ∨ 4 < s.length then none
  else (s.mapM hexValue).map (·.foldl (fun n d => 16 * n + d) 0)

/-- `ip_int <<= 16; ip_int |= hextet` over a run of parts. -/
def foldHextets (start : ℕ) (parts : List Str) : Option ℕ :=
  (parts.mapM parseHextet).map (·.foldl (fun n h => n * 0x10000 + h) start)

/-- The parts of an IPv6 text, with a dotted quad at the end rewritten as two hextets. -/
def ipv6Parts (s : Str) : Option (List Str) :=
  let parts := split ':' s
  let last := parts.getLastD []
  if parts.length < 3 then none
  else if ord '.' ∈ last then
    (ipv4FromString last).map fun ip =>
      parts.dropLast ++ [hexText (ip.toNat >>> 16), hexText (ip.toNat % 0x10000)]
  else some parts

/-- How many hextets stand before or after a `::`, given whether the text starts or ends there. -/
def hextetsBeside (endpoint : Str) (count : ℕ) : Option ℕ :=
  if endpoint ≠ [] then some count else if count - 1 ≠ 0 then none else some (count - 1)

/-- `_BaseV6._ip_int_from_string`. -/
def ipv6FromString (s : Str) : Option (BitVec 128) :=
  match ipv6Parts s with
  | none => none
  | some parts =>
    let first := parts.headD []
    let last := parts.getLastD []
    if 9 < parts.length then none
    else
      match (List.range' 1 (parts.length - 2)).filter (fun i => (parts.getD i []).isEmpty) with
      | [] =>
        if parts.length ≠ 8 ∨ first = [] ∨ last = [] then none
        else (foldHextets 0 parts).map (BitVec.ofNat 128)
      | [skip] =>
        match hextetsBeside first skip, hextetsBeside last (parts.length - skip - 1) with
        | some hi, some lo =>
          if 8 ≤ hi + lo then none
          else
            (foldHextets 0 (parts.take hi)).bind fun high =>
              (foldHextets (high <<< (16 * (8 - (hi + lo)))) (parts.drop (parts.length - lo))).map
                (BitVec.ofNat 128)
        | _, _ => none
      | _ => none

/-- `IPv6Address._split_scope_id`: the address text and the zone identifier, which may be neither
empty nor hold a second `%`. -/
def splitScopeId (s : Str) : Option (Str × Option Str) :=
  match Scan.partition [ord '%'] s with
  | none => some (s, none)
  | some (addr, scopeId) =>
    if scopeId = [] ∨ ord '%' ∈ scopeId then none else some (addr, some scopeId)

/-- The `IPv6Address` constructor on a text. -/
def ipv6Address (s : Str) : Option IPAddress :=
  (splitScopeId s).bind fun parts => (ipv6FromString parts.1).map (IPAddress.v6 · parts.2)

/-- What `ip_address` makes of a text: IPv4 is tried first, and a `/` is never part of an
address. -/
def parseAddress (s : Str) : Option IPAddress :=
  if ord '/' ∈ s then none
  else
    match ipv4FromString s with
    | some ip => some (.v4 ip)
    | none => ipv6Address s

/-- `ip_address(s)`. -/
def ipAddress (U : Unicode) (s : Str) : Except Exc IPAddress :=
  match parseAddress s with
  | some address => .ok address
  | none => .error (.valueError (repr U s ++ text " does not appear to be an IPv4 or IPv6 address"))

theorem ipAddress_eq_ok {U : Unicode} {s : Str} {a : IPAddress} :
    ipAddress U s = .ok a ↔ parseAddress s = some a := by
  unfold ipAddress
  cases parseAddress s <;> simp

/-! ## What an address text looks like -/

/-- Made of ASCII digits and dots only. -/
def isDigitsAndDots (s : Str) : Bool := s.all fun c => isDigit c || c == ord '.'

theorem mem_split {c : Char} {s : Str} {x : ℕ} (hx : x ∈ s) (hc : x ≠ ord c) :
    ∃ part ∈ split c s, x ∈ part := by
  rw [← intercalate_split c s] at hx
  rcases Scan.mem_of_mem_intercalate hx with hpart | hsep
  · exact hpart
  · exact absurd (List.mem_singleton.mp hsep) hc

theorem isDigits_of_parseOctet {s : Str} {n : ℕ} (h : parseOctet s = some n) :
    isDigits s = true := by
  rw [parseOctet] at h
  split at h
  · cases h
  · next hd => simp at hd; exact hd.1

/-- A text that reads as an IPv4 address holds nothing but digits and dots. -/
theorem isDigitsAndDots_of_ipv4FromString {s : Str} {ip : BitVec 32}
    (h : ipv4FromString s = some ip) : isDigitsAndDots s = true := by
  rw [ipv4FromString] at h
  split at h
  · next a b c d hs =>
      split at h
      · next ha hb hc hd =>
          have hparts : ∀ part ∈ split '.' s, isDigits part = true := by
            rw [hs]
            simp only [List.mem_cons, List.not_mem_nil, or_false]
            rintro part (rfl | rfl | rfl | rfl)
            exacts [isDigits_of_parseOctet ha, isDigits_of_parseOctet hb,
              isDigits_of_parseOctet hc, isDigits_of_parseOctet hd]
          simp only [isDigitsAndDots, List.all_eq_true, Bool.or_eq_true, beq_iff_eq]
          intro x hx
          by_cases hdot : x = ord '.'
          · exact Or.inr hdot
          · obtain ⟨part, hp, hxp⟩ := mem_split hx hdot
            have := hparts part hp
            simp only [isDigits, Bool.and_eq_true, List.all_eq_true] at this
            exact Or.inl (this.2 x hxp)
      · cases h
  · cases h

/-- A text that reads as an IPv6 address holds a colon. -/
theorem colon_mem_of_ipv6Address {s : Str} {a : IPAddress} (h : ipv6Address s = some a) :
    ord ':' ∈ s := by
  rw [ipv6Address] at h
  cases hp : splitScopeId s with
  | none => rw [hp] at h; cases h
  | some parts =>
      rw [hp, Option.bind_some] at h
      have hsub : parts.1 ⊆ s := by
        rw [splitScopeId] at hp
        split at hp
        · cases hp; exact fun _ hx => hx
        · next addr scopeId hc =>
            split at hp
            · cases hp
            · cases hp
              have := Scan.partition_eq_append hc
              intro x hx
              rw [this]
              simp [hx]
      by_contra hcolon
      have hone : split ':' parts.1 = [parts.1] :=
        List.splitOn_eq_singleton fun hc => hcolon (hsub hc)
      have hnone : ipv6FromString parts.1 = none := by
        simp [ipv6FromString, ipv6Parts, hone]
      rw [hnone] at h
      cases h

/-- **Shape of a literal.** Everything `ip_address` accepts either holds a colon or is nothing but
digits and dots. -/
theorem shape_of_parseAddress {s : Str} {a : IPAddress} (h : parseAddress s = some a) :
    isDigitsAndDots s = true ∨ ord ':' ∈ s := by
  rw [parseAddress] at h
  split at h
  · cases h
  · split at h
    · next hip => exact Or.inl (isDigitsAndDots_of_ipv4FromString hip)
    · exact Or.inr (colon_mem_of_ipv6Address h)

/-! ## What an address text is made of -/

/-- A part a run of hextets has been read from is a hextet. -/
theorem isSome_of_mem_mapM {α β : Type} {f : α → Option β} {l : List α} {out : List β}
    (h : l.mapM f = some out) {x : α} (hx : x ∈ l) : (f x).isSome = true := by
  induction l generalizing out with
  | nil => cases hx
  | cons y l ih =>
      rw [List.mapM_cons] at h
      obtain ⟨z, hz, h⟩ := Option.bind_eq_some_iff.mp h
      obtain ⟨zs, hzs, -⟩ := Option.bind_eq_some_iff.mp h
      rcases List.mem_cons.mp hx with rfl | hx
      · rw [hz]
        rfl
      · exact ih hzs hx

theorem isSome_of_foldHextets {start n : ℕ} {parts : List Str} (h : foldHextets start parts = some n)
    {part : Str} (hp : part ∈ parts) : (parseHextet part).isSome = true := by
  obtain ⟨hextets, hmap, -⟩ := Option.map_eq_some_iff.mp h
  exact isSome_of_mem_mapM hmap hp

theorem isSome_hexValue_of_parseHextet {part : Str} (h : (parseHextet part).isSome = true) {c : ℕ}
    (hc : c ∈ part) : (hexValue c).isSome = true := by
  obtain ⟨n, hn⟩ := Option.isSome_iff_exists.mp h
  rw [parseHextet] at hn
  split at hn
  · cases hn
  · obtain ⟨digits, hmap, -⟩ := Option.map_eq_some_iff.mp hn
    exact isSome_of_mem_mapM hmap hc

theorem hextetsBeside_eq_some {endpoint : Str} {count n : ℕ} (h : hextetsBeside endpoint count = some n) :
    n = count ∨ endpoint = [] ∧ count ≤ 1 ∧ n = 0 := by
  unfold hextetsBeside at h
  split_ifs at h with hne hone
  · exact .inl (Option.some.inj h).symm
  · have := Option.some.inj h
    exact .inr ⟨not_not.mp hne, by omega, by omega⟩

/-- A part between the hextets that are read is empty: the one inside, or an end of the text beside it. -/
theorem eq_nil_of_hextetsBeside {parts : List Str} {skip front back i : ℕ} (hi : i < parts.length)
    (hskip : 1 ≤ skip ∧ skip < 1 + (parts.length - 2)) (hempty : (parts.getD skip []).isEmpty = true)
    (hfront : hextetsBeside (parts.headD []) skip = some front)
    (hback : hextetsBeside (parts.getLastD []) (parts.length - skip - 1) = some back)
    (hge : front ≤ i) (hlt : i < parts.length - back) : parts[i] = [] := by
  have hwhere : i = skip ∨ (i = 0 ∧ parts.headD [] = []) ∨
      (i + 1 = parts.length ∧ parts.getLastD [] = []) := by
    rcases hextetsBeside_eq_some hfront with hfull | ⟨hfirst, hone, hzero⟩ <;>
      rcases hextetsBeside_eq_some hback with hfull' | ⟨hlast, hone', hzero'⟩
    · omega
    · rcases Nat.lt_or_ge i (skip + 1) with hle | hgt
      · exact .inl (by omega)
      · exact .inr (.inr ⟨by omega, hlast⟩)
    · rcases Nat.lt_or_ge i 1 with hle | hgt
      · exact .inr (.inl ⟨by omega, hfirst⟩)
      · exact .inl (by omega)
    · rcases Nat.lt_or_ge i 1 with hle | hgt
      · exact .inr (.inl ⟨by omega, hfirst⟩)
      · rcases Nat.lt_or_ge i (skip + 1) with hle | hgt
        · exact .inl (by omega)
        · exact .inr (.inr ⟨by omega, hlast⟩)
  rcases hwhere with rfl | ⟨rfl, hfirst⟩ | ⟨hend, hlast⟩
  · rw [List.getD_eq_getElem?_getD, List.getElem?_eq_getElem hi] at hempty
    exact List.isEmpty_iff.mp hempty
  · rw [List.headD_eq_head?_getD, List.head?_eq_getElem?, List.getElem?_eq_getElem hi] at hfirst
    exact hfirst
  · rw [List.getLastD_eq_getLast?, List.getLast?_eq_getElem?, ← hend, Nat.add_sub_cancel,
      List.getElem?_eq_getElem hi] at hlast
    exact hlast

/-- Every part of an IPv6 text is a hextet or empty. -/
theorem part_of_ipv6FromString {s : Str} {ip : BitVec 128} {parts : List Str}
    (h : ipv6FromString s = some ip) (hparts : ipv6Parts s = some parts) {part : Str}
    (hp : part ∈ parts) : part = [] ∨ (parseHextet part).isSome = true := by
  rw [ipv6FromString, hparts] at h
  simp only at h
  by_cases hnine : 9 < parts.length
  · rw [if_pos hnine] at h
    cases h
  rw [if_neg hnine] at h
  obtain ⟨i, hi, rfl⟩ := List.mem_iff_getElem.mp hp
  split at h
  -- no part inside is empty: all eight are read
  · next hnone =>
    split_ifs at h with hshape
    obtain ⟨n, hn, -⟩ := Option.map_eq_some_iff.mp h
    exact .inr (isSome_of_foldHextets hn hp)
  -- one is: the parts in front of it and the parts behind it are read
  · next skip hskip =>
    have hmem : skip ∈ (List.range' 1 (parts.length - 2)).filter fun i => (parts.getD i []).isEmpty := by
      rw [hskip]
      exact List.mem_singleton_self skip
    have hskipIn := List.mem_range'_1.mp (List.mem_filter.mp hmem).1
    split at h
    · next hi' lo hhi hlo =>
      split_ifs at h with height
      obtain ⟨high, hhigh, h⟩ := Option.bind_eq_some_iff.mp h
      obtain ⟨low, hlow, -⟩ := Option.map_eq_some_iff.mp h
      rcases Nat.lt_or_ge i hi' with hlt | hge
      · exact .inr (isSome_of_foldHextets hhigh (List.mem_take_iff_getElem.mpr ⟨i, by omega, rfl⟩))
      · rcases Nat.lt_or_ge i (parts.length - lo) with hbefore | hafter
        · exact .inl (eq_nil_of_hextetsBeside hi hskipIn (List.mem_filter.mp hmem).2 hhi hlo hge hbefore)
        · refine .inr (isSome_of_foldHextets hlow ?_)
          refine List.mem_drop_iff_getElem.mpr ⟨i - (parts.length - lo), by omega, ?_⟩
          congr 1
          omega
    · cases h
  · cases h

/-- A character of an address text, in front of a zone. -/
def isAddressChar (c : ℕ) : Bool := (hexValue c).isSome || c == ord ':' || c == ord '.'

theorem isAddressChar_of_isDigitsAndDots {s : Str} (h : isDigitsAndDots s = true) {c : ℕ} (hc : c ∈ s) :
    isAddressChar c = true := by
  have hchar := List.all_eq_true.mp h c hc
  rw [Bool.or_eq_true] at hchar
  unfold isAddressChar
  rcases hchar with hdigit | hdot
  · rw [hexValue, if_pos hdigit]
    rfl
  · rw [hdot, Bool.or_true]

/-- An IPv6 text is made of hexadecimal digits, colons and dots. -/
theorem isAddressChar_of_ipv6FromString {s : Str} {ip : BitVec 128} (h : ipv6FromString s = some ip)
    {c : ℕ} (hc : c ∈ s) : isAddressChar c = true := by
  by_cases hcolon : c = ord ':'
  · rw [isAddressChar, hcolon]
    decide
  obtain ⟨part, hp, hcp⟩ := mem_split hc hcolon
  have hofHextet : (parseHextet part).isSome = true → isAddressChar c = true := by
    intro hpart
    rw [isAddressChar, isSome_hexValue_of_parseHextet hpart hcp]
    rfl
  cases hparts : ipv6Parts s with
  | none =>
      rw [ipv6FromString, hparts] at h
      cases h
  | some parts =>
      have hread : ∀ part ∈ parts, part = [] ∨ (parseHextet part).isSome = true :=
        fun _ hp => part_of_ipv6FromString h hparts hp
      unfold ipv6Parts at hparts
      dsimp only at hparts
      split_ifs at hparts with hshort hquad
      -- the dotted quad at the end has been rewritten
      · obtain ⟨quad, hlast, rfl⟩ := Option.map_eq_some_iff.mp hparts
        have hne : split ':' s ≠ [] := List.splitOn_ne_nil (ord ':') s
        rw [← List.dropLast_append_getLast hne, List.mem_append, List.mem_singleton] at hp
        rcases hp with hfront | rfl
        · rcases hread part (List.mem_append_left _ hfront) with rfl | hpart
          · cases hcp
          · exact hofHextet hpart
        · rw [List.getLastD_eq_getLast?, List.getLast?_eq_some_getLast hne] at hlast
          exact isAddressChar_of_isDigitsAndDots (isDigitsAndDots_of_ipv4FromString hlast) hcp
      · cases hparts
        rcases hread part hp with rfl | hpart
        · cases hcp
        · exact hofHextet hpart

/-- **Text of a literal.** An address text is made of hexadecimal digits, colons and dots, and an IPv6
zone may follow it. -/
theorem exists_zone_of_parseAddress {s : Str} {a : IPAddress} (h : parseAddress s = some a) :
    ∃ addr zone, s = addr ++ zone ∧ addr ≠ [] ∧ (∀ c ∈ addr, isAddressChar c = true) ∧
      (zone = [] ∨ zone.head? = some (ord '%')) := by
  rw [parseAddress] at h
  split at h
  · cases h
  · split at h
    · next ip hip =>
      refine ⟨s, [], (List.append_nil s).symm, ?_, fun c hc => ?_, .inl rfl⟩
      · rintro rfl
        cases hip
      · exact isAddressChar_of_isDigitsAndDots (isDigitsAndDots_of_ipv4FromString hip) hc
    · obtain ⟨parts, hsplit, h⟩ := Option.bind_eq_some_iff.mp h
      obtain ⟨ip, hip, -⟩ := Option.map_eq_some_iff.mp h
      have hne : parts.1 ≠ [] := by
        intro hnil
        rw [hnil] at hip
        cases hip
      rw [splitScopeId] at hsplit
      split at hsplit
      · cases hsplit
        exact ⟨s, [], (List.append_nil s).symm, hne, fun c hc => isAddressChar_of_ipv6FromString hip hc,
          .inl rfl⟩
      · next addr scopeId hcut =>
        split at hsplit
        · cases hsplit
        · cases hsplit
          refine ⟨addr, ord '%' :: scopeId, ?_, hne, fun c hc => isAddressChar_of_ipv6FromString hip hc,
            .inr rfl⟩
          rw [Scan.partition_eq_append hcut, List.append_assoc, List.singleton_append]

/-! ## Rendering -/

/-- `str` of an IPv4 address. -/
def ipv4Text (ip : BitVec 32) : Str :=
  join (text ".") ([24, 16, 8, 0].map fun shift => natText ((ip.toNat >>> shift) % 256))

/-- The hextets of an IPv6 address, high end first. -/
def hextets (ip : BitVec 128) : List ℕ :=
  [112, 96, 80, 64, 48, 32, 16, 0].map fun shift => (ip.toNat >>> shift) % 0x10000

/-- How many zeros a list of hextets starts with. -/
def zeroRun (hs : List ℕ) : ℕ := (hs.takeWhile (· == 0)).length

/-- `_compress_hextets`: where the longest run of zeros starts and how long it is, the first one
where two are equally long. -/
def longestZeroRun (hs : List ℕ) : ℕ × ℕ :=
  (List.range hs.length).foldl
    (fun best i => if best.2 < zeroRun (hs.drop i) then (i, zeroRun (hs.drop i)) else best) (0, 0)

/-- `_string_from_ip_int`: the longest run of at least two zero hextets is written `::`. -/
def ipv6IntText (ip : BitVec 128) : Str :=
  let hs := hextets ip
  let parts := fun (l : List ℕ) => join (text ":") (l.map hexText)
  match longestZeroRun hs with
  | (start, run) =>
    if run ≤ 1 then parts hs
    else parts (hs.take start) ++ text "::" ++ parts (hs.drop (start + run))

/-- `str` of an IPv6 address, an IPv4-mapped one with its low half as a dotted quad. -/
def ipv6Text (ip : BitVec 128) (scopeId : Option Str) : Str :=
  let body :=
    if ip.toNat >>> 32 = 0xFFFF then text "::ffff:" ++ ipv4Text (ip.setWidth 32) else ipv6IntText ip
  match scopeId with
  | none => body
  | some zone => body ++ text "%" ++ zone

/-- `str(address)`. -/
def IPAddress.str : IPAddress → Str
  | v4 ip => ipv4Text ip
  | v6 ip scopeId => ipv6Text ip scopeId

example : parseAddress (text "64:ff9b::127.0.0.1%eth0") =
    some (.v6 0x0064ff9b00000000000000007f000001#128 (some (text "eth0"))) := by decide

example : (IPAddress.v6 0x0064ff9b00000000000000007f000001#128 none).str =
    text "64:ff9b::7f00:1" := by decide

end SsrfGuard
