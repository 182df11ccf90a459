import SsrfGuard.Policy.Config

/-! # Entries refused for a translated block

The constructor refuses an entry of `allowed_networks` when the longest block that holds all of it is a
translated one. What it means to ask is whether that block decides the addresses of the entry, and a longer
row may decide each of them: one alone can only if it holds the whole entry, and then it is the one that is
picked, but several may cover the entry together. -/

namespace SsrfGuard

variable {t : AddressTable} {network : IPNetwork} {block : Block}

namespace IPNetwork

/-- Whether a network holds all of another, zones aside. -/
def holds (outer inner : IPNetwork) : Bool :=
  decide (outer.prefixlen ≤ inner.prefixlen) && outer.contains inner.networkAddress

/-- The prefixes of nested networks. -/
theorem prefixlen_le_of_within {inner outer : IPNetwork} (h : inner.Within outer) :
    outer.prefixlen ≤ inner.prefixlen := by
  by_contra hlt
  have hi := inner.contains_networkAddress
  have hstrict := (strictlyContains_iff hi (h _ hi)).mpr (not_le.mp hlt)
  exact hstrict.2 h

theorem holds_iff_within {inner outer : IPNetwork} : outer.holds inner = true ↔ inner.Within outer := by
  rw [holds, Bool.and_eq_true, decide_eq_true_eq]
  constructor
  · rintro ⟨hle, hcontains⟩
    exact within_of_prefixlen_le inner.contains_networkAddress hcontains hle
  · exact fun h => ⟨prefixlen_le_of_within h, h _ inner.contains_networkAddress⟩

end IPNetwork

/-! ## What decides the addresses of an entry -/

/-- Some address of the network is decided by a translated block that holds the network. -/
def AddressTable.DecidesTranslated (t : AddressTable) (network : IPNetwork) : Prop :=
  ∃ a, network.contains a = true ∧
    ∃ block, t.Deciding a block ∧ block.reach = .translated ∧ network.Within block.network

/-- The longest block that holds a network, zones aside, the first listed where several are as long. -/
def AddressTable.Holding (t : AddressTable) (network : IPNetwork) (block : Block) : Prop :=
  LongestMatch.Longest (·.network.prefixlen) (fun b n => b.network.holds n) t.blocks network block

/-- The rows longer than the network leave an address of it out. -/
def AddressTable.LeavesOut (t : AddressTable) (network : IPNetwork) : Prop :=
  ∃ a, network.contains a = true ∧
    ∀ row ∈ t.blocks, network.prefixlen < row.network.prefixlen → row.network.contains a = false

/-- An address that no longer row holds is decided by the block that holds the network. -/
theorem AddressTable.Holding.deciding (h : t.Holding network block) {a : IPAddress}
    (ha : network.contains a = true)
    (hout : ∀ row ∈ t.blocks, network.prefixlen < row.network.prefixlen → row.network.contains a = false) :
    t.Deciding a block := by
  refine LongestMatch.Longest.of_imp h (IPNetwork.holds_iff_within.mp h.covers_self a ha) fun row hrow hrowa => ?_
  have hle : row.network.prefixlen ≤ network.prefixlen := by
    by_contra hlt
    rw [hout row hrow (not_le.mp hlt)] at hrowa
    cases hrowa
  exact IPNetwork.holds_iff_within.mpr (IPNetwork.within_of_prefixlen_le ha hrowa hle)

/-- A block that decides an address of a network it holds is the one that holds the network. -/
theorem AddressTable.Deciding.holding {a : IPAddress} (h : t.Deciding a block)
    (ha : network.contains a = true) (hin : network.Within block.network) : t.Holding network block :=
  LongestMatch.Longest.of_imp h (IPNetwork.holds_iff_within.mpr hin) fun _ _ hrow =>
    IPNetwork.holds_iff_within.mp hrow a ha

/-- **Decided addresses.** An address of the network is decided by a translated block that holds the network
exactly when the longest block that holds it is translated and the longer rows leave an address of it out. -/
theorem AddressTable.decidesTranslated_iff :
    t.DecidesTranslated network ↔
      t.LeavesOut network ∧ ∃ block, t.Holding network block ∧ block.reach = .translated := by
  constructor
  · rintro ⟨a, ha, block, hd, hreach, hin⟩
    refine ⟨⟨a, ha, fun row hrow hlonger => ?_⟩, block, hd.holding ha hin, hreach⟩
    by_contra hrowa
    have hle := hd.le hrow (Bool.not_eq_false _ ▸ hrowa)
    have hshort := IPNetwork.prefixlen_le_of_within hin
    omega
  · rintro ⟨⟨a, ha, hout⟩, block, hholding, hreach⟩
    exact ⟨a, ha, block, hholding.deciding ha hout, hreach, IPNetwork.holds_iff_within.mp hholding.covers_self⟩

/-! ## Refused entries -/

/-- The constructor gets to its last check, and this is the entry it refuses and the block it names. -/
def PolicyFields.Refuses (U : Unicode) (f : PolicyFields IPNetwork) (network : IPNetwork) (block : Block) :
    Prop :=
  f.allowedNetworks.findSome? (translatedDecider f.deniedNetworks) = some (network, block) ∧
    Policy.ofFields U f = .error (.valueError (allowsTranslationPrefix network block))

theorem Policy.ofFields_eq_error {U : Unicode} {f : PolicyFields IPNetwork} {message : Str}
    (h : f.objection U = some message) : Policy.ofFields U f = .error (.valueError message) := by
  unfold Policy.ofFields
  split
  · next found hfound =>
    rw [h] at hfound
    rw [Option.some.inj hfound]
  · next hnone =>
    rw [h] at hnone
    cases hnone

theorem translatedDecider_eq_some {found : IPNetwork × Block} (h : translatedDecider t network = some found) :
    found.1 = network ∧ decidingBlock t network = some found.2 ∧ found.2.reach = .translated := by
  unfold translatedDecider at h
  split at h
  · cases h
  · next block hblock =>
    split at h
    · next hreach =>
      cases h
      exact ⟨rfl, hblock, hreach⟩
    · cases h

/-- The first entry a translated block decides is refused, where every other check passes. -/
theorem PolicyFields.refuses_of_findSome {U : Unicode} {f : PolicyFields IPNetwork}
    (h : ({ f with allowedNetworks := [] } : PolicyFields IPNetwork).WellFormed)
    (hfound : f.allowedNetworks.findSome? (translatedDecider f.deniedNetworks) = some (network, block)) :
    f.Refuses U network block := by
  refine ⟨hfound, Policy.ofFields_eq_error ?_⟩
  rw [objection_eq_translated h, hfound, Option.map_some]

/-- The block a refusal names is the longest that `subnet_of` places around the entry, and translated. -/
theorem PolicyFields.Refuses.deciding {U : Unicode} {f : PolicyFields IPNetwork}
    (h : f.Refuses U network block) :
    decidingBlock f.deniedNetworks network = some block ∧ block.reach = .translated := by
  obtain ⟨entry, -, hentry⟩ := List.exists_of_findSome?_eq_some h.1
  obtain ⟨rfl, hblock, hreach⟩ := translatedDecider_eq_some hentry
  exact ⟨hblock, hreach⟩

/-- Where no row is set apart from the network by a zone, the deciding block is the one that holds it. -/
theorem holding_of_decidingBlock (h : decidingBlock t network = some block)
    (hzones : ∀ row ∈ t.blocks, ¬ network.ZoneApart row.network) : t.Holding network block := by
  have hlongest : LongestMatch.Longest (·.network.prefixlen)
      (fun (b : Block) n => whollyInside n b.network) t.blocks network block :=
    LongestMatch.argmax_filter_eq_some.mp h
  have hin : network.Within block.network := IPNetwork.within_of_subnetOf hlongest.covers_self
  refine LongestMatch.Longest.of_imp hlongest (IPNetwork.holds_iff_within.mpr hin) fun row hrow hholds => ?_
  have hwithin := IPNetwork.holds_iff_within.mp hholds
  have hself := network.contains_networkAddress
  exact (IPNetwork.subnetOf_iff_of_contains hself (hwithin _ hself)
    (IPNetwork.prefixlen_le_of_within hwithin)).mpr (hzones row hrow)

/-- **Refused for a translated address.** An entry that the constructor refuses for a translated block holds an
address that such a block decides exactly when the rows longer than the entry leave an address of it out and
the longest block that holds the entry, zones aside, is translated. The second always holds where no row has
the network address of the entry under another zone. -/
theorem Policy.refused_decided_iff {U : Unicode} {f : PolicyFields IPNetwork}
    (h : f.Refuses U network block) :
    (f.deniedNetworks.DecidesTranslated network ↔
      f.deniedNetworks.LeavesOut network ∧
        ∃ holding, f.deniedNetworks.Holding network holding ∧ holding.reach = .translated) ∧
    ((∀ row ∈ f.deniedNetworks.blocks, ¬ network.ZoneApart row.network) →
      (f.deniedNetworks.DecidesTranslated network ↔ f.deniedNetworks.LeavesOut network)) := by
  refine ⟨AddressTable.decidesTranslated_iff, fun hzones => ?_⟩
  obtain ⟨hblock, hreach⟩ := h.deciding
  rw [AddressTable.decidesTranslated_iff]
  exact and_iff_left ⟨block, holding_of_decidingBlock hblock hzones, hreach⟩

/-- `64:ff9b::/96`, translated. -/
def nat64Row : Block := Registry.b "64:ff9b::/96" Registry.parses_nat64 "IPv4-IPv6 Translation" "RFC6052" .translated

/-- `64:ff9b::/97`. -/
def lowHalf : Block := Registry.b "64:ff9b::/97" (by decide) "low half" "RFC6052" .denied

/-- `64:ff9b::8000:0/97`. -/
def highHalf : Block := Registry.b "64:ff9b::8000:0/97" (by decide) "high half" "RFC6052" .denied

/-- A translated block, and two denied ones that cover it. -/
def coveredTable : AddressTable := ⟨[nat64Row, lowHalf, highHalf], by decide +kernel⟩

/-- Each address of the block is in one of the halves. -/
theorem half_of_nat64 {a : IPAddress} (h : nat64.contains a = true) :
    lowHalf.network.contains a = true ∨ highHalf.network.contains a = true := by
  have hwhole : nat64 = .v6 ⟨0x64ff9b_0000000000000000_00000000#128, 96, by decide, by decide⟩ none := by
    decide +kernel
  have hlow : lowHalf.network = .v6 ⟨0x64ff9b_0000000000000000_00000000#128, 97, by decide, by decide⟩ none := by
    decide +kernel
  have hhigh : highHalf.network =
      .v6 ⟨0x64ff9b_0000000000000000_80000000#128, 97, by decide, by decide⟩ none := by decide +kernel
  rw [hwhole] at h
  rw [hlow, hhigh]
  cases a with
  | v4 ip => cases h
  | v6 ip zone =>
      obtain ⟨hbase, hlast⟩ := Cidr.contains_iff_between.mp h
      -- the halves meet in the middle of the 32 bits behind the prefix
      by_cases hlt : ip < 0x64ff9b_0000000000000000_80000000#128
      · refine .inl (Cidr.contains_iff_between.mpr ⟨hbase, ?_⟩)
        have hend : Cidr.broadcast ⟨0x64ff9b_0000000000000000_00000000#128, 97, by decide, by decide⟩ =
            0x64ff9b_0000000000000000_7fffffff#128 := by decide
        rw [hend]
        bv_omega
      · exact .inr (Cidr.contains_iff_between.mpr ⟨BitVec.not_lt.mp hlt, hlast⟩)

/-- The translated block as an entry, under a table that decides none of its addresses by it: the constructor
refuses it. -/
theorem Policy.coveredTable_refused :
    ({ deniedNetworks := coveredTable, allowedNetworks := [nat64] } : PolicyFields IPNetwork).Refuses .ascii
        nat64 nat64Row ∧
      ¬ coveredTable.DecidesTranslated nat64 := by
  have hothers : ({ deniedNetworks := coveredTable } : PolicyFields IPNetwork).WellFormed :=
    (@PolicyFields.objection_eq_none .ascii _).mp (by decide +kernel)
  refine ⟨PolicyFields.refuses_of_findSome hothers (by decide +kernel), fun h => ?_⟩
  obtain ⟨⟨a, ha, hout⟩, -⟩ := AddressTable.decidesTranslated_iff.mp h
  rcases half_of_nat64 ha with hlow | hhigh
  · rw [hout lowHalf (by decide +kernel) (by decide +kernel)] at hlow
    cases hlow
  · rw [hout highHalf (by decide +kernel) (by decide +kernel)] at hhigh
    cases hhigh

/-- Under the shipped table the translated block decides an address of its own. -/
theorem Policy.nat64_refused : defaultDenied.DecidesTranslated nat64 := by
  have hrefused : ({ allowedNetworks := [nat64] } : PolicyFields IPNetwork).Refuses .ascii nat64 nat64Row :=
    PolicyFields.refuses_of_findSome Policy.default.wellFormed (by decide +kernel)
  refine ((Policy.refused_decided_iff hrefused).2 (by decide +kernel)).mpr ⟨wrappedLoopback, by decide +kernel, ?_⟩
  decide +kernel

end SsrfGuard
