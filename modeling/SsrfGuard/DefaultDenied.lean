import SsrfGuard.Address

/-! # The shipped table on wrapped addresses

Five rows of `DEFAULT_DENIED` are translation prefixes. An address one of them decides is judged by
the IPv4 address, or the two of them, laid out in its bits; an address of one of those ranges that a
more specific row decides is judged by that row, which is never itself a translation prefix. -/

namespace SsrfGuard

/-! ## Where the IPv4 bits lie -/

/-- Masking to 32 bits and taking the low 32 bits are the same. -/
theorem lowWord_eq (packed : BitVec 128) : lowWord packed = .v4 (packed.extractLsb' 0 32) := by
  have hmask : (0xFFFFFFFF : ℕ) = 2 ^ 32 - 1 := rfl
  rw [lowWord]
  congr 1
  apply BitVec.eq_of_toNat_eq
  rw [BitVec.toNat_setWidth, BitVec.toNat_and, BitVec.extractLsb'_toNat, Nat.shiftRight_zero]
  show (packed.toNat &&& 0xFFFFFFFF) % 2 ^ 32 = packed.toNat % 2 ^ 32
  rw [hmask, Nat.and_two_pow_sub_one_eq_mod, Nat.mod_mod]

theorem lowWord_shiftRight (packed : BitVec 128) (n : ℕ) :
    lowWord (packed >>> n) = .v4 (packed.extractLsb' n 32) := by
  rw [lowWord_eq]
  rfl

theorem lowWord_not (packed : BitVec 128) :
    lowWord (~~~ packed) = .v4 (~~~ packed.extractLsb' 0 32) := by
  rw [lowWord_eq]
  congr 1
  apply BitVec.eq_of_getLsbD_eq
  intro i hi
  simp [hi, show i < 128 by omega]

/-! ## The five ranges -/

/-- `::/96`. -/
def v4Compatible : IPNetwork := Registry.network "::/96" Registry.parses_v4Compatible

/-- `::ffff:0:0/96`. -/
def v4Mapped : IPNetwork := Registry.network "::ffff:0:0/96" Registry.parses_v4Mapped

/-- What each translated range carries, as the RFC that defines it lays the bits out. -/
def layout : List (IPNetwork × (BitVec 128 → List (BitVec 32))) := [
  (v4Compatible, fun ip => [ip.extractLsb' 0 32]),
  (v4Mapped, fun ip => [ip.extractLsb' 0 32]),
  (nat64, fun ip => [ip.extractLsb' 0 32]),
  (sixToFour, fun ip => [ip.extractLsb' 80 32]),
  (teredo, fun ip => [ip.extractLsb' 64 32, ~~~ ip.extractLsb' 0 32])]

/-- The decoder reads every range as it is laid out. -/
theorem embeddedV4_of_mem_layout {network : IPNetwork} {read : BitVec 128 → List (BitVec 32)}
    (h : (network, read) ∈ layout) (ip : BitVec 128) :
    embeddedV4 ip network = (read ip).map .v4 := by
  simp only [layout, List.mem_cons, List.not_mem_nil, or_false, Prod.mk.injEq] at h
  rcases h with ⟨rfl, rfl⟩ | ⟨rfl, rfl⟩ | ⟨rfl, rfl⟩ | ⟨rfl, rfl⟩ | ⟨rfl, rfl⟩
  · rw [embeddedV4, if_pos (by decide), lowWord_eq]; rfl
  · rw [embeddedV4, if_pos (by decide), lowWord_eq]; rfl
  · rw [embeddedV4, if_pos (by decide), lowWord_eq]; rfl
  · rw [embeddedV4, if_neg (by decide), if_pos (by decide), lowWord_shiftRight]; rfl
  · rw [embeddedV4, if_neg (by decide), if_neg (by decide), if_pos (by decide),
      lowWord_shiftRight, lowWord_not]
    rfl

/-- The translated rows of the shipped table are the five ranges. -/
theorem reach_eq_translated_iff {row : Block} (h : row ∈ defaultDenied.blocks) :
    row.reach = .translated ↔ row.network ∈ layout.map (·.1) := by
  have hall : ∀ row ∈ Registry.table, row.reach = .translated ↔ row.network ∈ layout.map (·.1) := by
    decide +kernel
  exact hall row h

/-- A row whose network starts inside a translated range is that range's own row, or it is longer
and no translation prefix. -/
theorem row_inside_range {range : IPNetwork} {row : Block} (hrange : range ∈ layout.map (·.1))
    (hrow : row ∈ defaultDenied.blocks)
    (hin : range.contains row.network.networkAddress = true)
    (hle : range.prefixlen ≤ row.network.prefixlen) :
    row.network = range ∨ range.prefixlen < row.network.prefixlen ∧ row.reach ≠ .translated := by
  have hall : ∀ range ∈ layout.map (·.1), ∀ row ∈ Registry.table,
      range.contains row.network.networkAddress = true → range.prefixlen ≤ row.network.prefixlen →
      row.network = range ∨ range.prefixlen < row.network.prefixlen ∧ row.reach ≠ .translated := by
    decide +kernel
  exact hall range hrange row hrow hin hle

/-- Every range has its row. -/
theorem exists_row_of_range {range : IPNetwork} (hrange : range ∈ layout.map (·.1)) :
    ∃ row ∈ defaultDenied.blocks, row.network = range := by
  have hall : ∀ range ∈ layout.map (·.1), ∃ row ∈ Registry.table, row.network = range := by
    decide +kernel
  exact hall range hrange

/-! ## Wrapped addresses -/

/-- An address that a translated range decides is blocked iff one of the IPv4 addresses laid out in
it is. -/
theorem defaultDenied_blocks_iff {ip : BitVec 128} {zone : Option Str} {row : Block}
    {read : BitVec 128 → List (BitVec 32)} (hd : defaultDenied.Deciding (.v6 ip zone) row)
    (hl : (row.network, read) ∈ layout) (hne : read ip ≠ []) :
    defaultDenied.Blocks (.v6 ip zone) ↔ ∃ e ∈ read ip, defaultDenied.Blocks (.v4 e) := by
  have hr : row.reach = .translated :=
    (reach_eq_translated_iff hd.mem).mpr (List.mem_map_of_mem (f := (·.1)) hl)
  have hembedded : (IPAddress.v6 ip zone).embedded row.network = (read ip).map .v4 :=
    embeddedV4_of_mem_layout hl ip
  rw [AddressTable.blocks_iff_of_translated (AddressTable.match_eq_some.mpr hd) hr, hembedded]
  simp [hne]

/-- An address of a translated range that a more specific row decides is judged by that row. -/
theorem defaultDenied_of_more_specific {a : IPAddress} {range : IPNetwork} {row : Block}
    (hrange : range ∈ layout.map (·.1)) (ha : range.contains a = true)
    (hd : defaultDenied.Deciding a row) (hne : row.network ≠ range) :
    range.prefixlen < row.network.prefixlen ∧
      defaultDenied.classify a = ⟨a, decide (row.reach = .denied), some row, []⟩ := by
  have hcontains : row.network.contains a = true := hd.covers_self
  have hle : range.prefixlen ≤ row.network.prefixlen := by
    obtain ⟨own, hown, rfl⟩ := exists_row_of_range hrange
    exact hd.le hown ha
  have hin : range.contains row.network.networkAddress = true :=
    IPNetwork.within_of_prefixlen_le hcontains ha hle _ row.network.contains_networkAddress
  rcases row_inside_range hrange hd.mem hin hle with heq | ⟨hlt, hreach⟩
  · exact absurd heq hne
  · exact ⟨hlt, AddressTable.classify_of_not_translated (AddressTable.match_eq_some.mpr hd) hreach⟩

/-- **Wrapped addresses under the shipped table.** Where a translation prefix decides an IPv6
address, the address is blocked exactly when the IPv4 address, or for Teredo one of the two, written
in the bits that prefix assigns is blocked; an address of one of the five ranges that another row
decides is judged by that row, which is more specific than the range. -/
theorem defaultDenied_translated (ip : BitVec 128) (zone : Option Str) (row : Block)
    (hd : defaultDenied.Deciding (.v6 ip zone) row) :
    (row.network = v4Compatible ∨ row.network = v4Mapped ∨ row.network = nat64 →
      (defaultDenied.Blocks (.v6 ip zone) ↔ defaultDenied.Blocks (.v4 (ip.extractLsb' 0 32)))) ∧
    (row.network = sixToFour →
      (defaultDenied.Blocks (.v6 ip zone) ↔ defaultDenied.Blocks (.v4 (ip.extractLsb' 80 32)))) ∧
    (row.network = teredo →
      (defaultDenied.Blocks (.v6 ip zone) ↔
        defaultDenied.Blocks (.v4 (ip.extractLsb' 64 32)) ∨
          defaultDenied.Blocks (.v4 (~~~ ip.extractLsb' 0 32)))) ∧
    ∀ range ∈ [v4Compatible, v4Mapped, nat64, sixToFour, teredo],
      range.contains (.v6 ip zone) = true → row.network ≠ range →
        range.prefixlen < row.network.prefixlen ∧
          defaultDenied.classify (.v6 ip zone) =
            ⟨.v6 ip zone, decide (row.reach = .denied), some row, []⟩ := by
  refine ⟨?_, ?_, ?_, ?_⟩
  · intro hrow
    have hl : (row.network, fun ip : BitVec 128 => [ip.extractLsb' 0 32]) ∈ layout := by
      rcases hrow with h | h | h
      · rw [h]; simp [layout]
      · rw [h]; simp [layout]
      · rw [h]; simp [layout]
    simpa using defaultDenied_blocks_iff hd hl (List.cons_ne_nil _ _)
  · intro hrow
    have hl : (row.network, fun ip : BitVec 128 => [ip.extractLsb' 80 32]) ∈ layout := by
      rw [hrow]; simp [layout]
    simpa using defaultDenied_blocks_iff hd hl (List.cons_ne_nil _ _)
  · intro hrow
    have hl : (row.network, fun ip : BitVec 128 =>
        [ip.extractLsb' 64 32, ~~~ ip.extractLsb' 0 32]) ∈ layout := by
      rw [hrow]; simp [layout]
    simpa using defaultDenied_blocks_iff hd hl (List.cons_ne_nil _ _)
  · intro range hrange ha hne
    exact defaultDenied_of_more_specific hrange ha hd hne

/-- `64:ff9b::7f00:1` is decided by the NAT64 row, so `127.0.0.1` decides it. -/
theorem defaultDenied_translated_nat64_loopback :
    defaultDenied.Blocks (.v6 0x64ff9b0000000000000000_7f000001#128 none) ↔
      defaultDenied.Blocks (.v4 0x7f000001#32) :=
  (defaultDenied_translated 0x64ff9b0000000000000000_7f000001#128 none
    (Registry.b "64:ff9b::/96" (by decide) "IPv4-IPv6 Translation" "RFC6052" .translated)
    (AddressTable.match_eq_some.mp (by decide +kernel))).1 (Or.inr (Or.inr (by decide)))

example : (defaultDenied.match (.v6 1#128 none)).map (·.name) = some (text "Loopback Address") := by
  decide +kernel

end SsrfGuard
