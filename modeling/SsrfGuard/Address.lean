import SsrfGuard.Library.LongestMatch
import SsrfGuard.Registry
import Mathlib.Data.List.Lex

/-! # Classifying an address

`AddressTable` answers "may a fetcher connect to this address" by longest prefix. A row marked
`translated` is not an answer: the IPv4 addresses the wrapper carries are decoded and the question is
asked again about each of them, by the same table. -/

namespace SsrfGuard

/-- A set of blocks in which no network is named twice. -/
structure AddressTable where
  /-- The blocks, in the order they were given. -/
  blocks : List Block
  /-- No two blocks name the same network. -/
  networks_nodup : (blocks.map (·.network)).Nodup

/-- The networks the loop of `__post_init__` meets a second time, as text, in order. -/
def duplicatedNetworks (seen : List IPNetwork) : List Block → List Str
  | [] => []
  | block :: blocks =>
    if block.network ∈ seen then block.network.str :: duplicatedNetworks seen blocks
    else duplicatedNetworks (block.network :: seen) blocks

theorem duplicatedNetworks_eq_nil {seen : List IPNetwork} {blocks : List Block} :
    duplicatedNetworks seen blocks = [] ↔
      (blocks.map (·.network)).Nodup ∧ ∀ block ∈ blocks, block.network ∉ seen := by
  induction blocks generalizing seen with
  | nil => simp [duplicatedNetworks]
  | cons block blocks ih =>
      rw [duplicatedNetworks]
      by_cases hseen : block.network ∈ seen
      · simp [hseen]
      · rw [if_neg hseen, ih, List.map_cons, List.nodup_cons]
        simp only [List.mem_map, List.mem_cons, forall_eq_or_imp, not_or, hseen, not_false_eq_true,
          true_and]
        constructor
        · rintro ⟨hnodup, hall⟩
          exact ⟨⟨fun ⟨c, hc, he⟩ => (hall c hc).1 he, hnodup⟩, fun c hc => (hall c hc).2⟩
        · rintro ⟨⟨hnot, hnodup⟩, hall⟩
          exact ⟨hnodup, fun c hc => ⟨fun he => hnot ⟨c, hc, he⟩, hall c hc⟩⟩

/-- `AddressTable(blocks)`: refuse a network named twice. -/
def AddressTable.ofBlocks (blocks : List Block) : Except Exc AddressTable :=
  if h : duplicatedNetworks [] blocks = [] then
    .ok ⟨blocks, (duplicatedNetworks_eq_nil.mp h).1⟩
  else
    .error (.valueError (text "address table has duplicate networks: " ++
      join (text ", ") ((duplicatedNetworks [] blocks).insertionSort (· ≤ ·))))

/-- Construction succeeds exactly on the lists a table may hold. -/
theorem AddressTable.ofBlocks_eq_ok {blocks : List Block} {t : AddressTable} :
    AddressTable.ofBlocks blocks = .ok t ↔ t.blocks = blocks := by
  unfold AddressTable.ofBlocks
  by_cases h : duplicatedNetworks [] blocks = []
  · rw [dif_pos h, Except.ok.injEq]
    constructor
    · rintro rfl; rfl
    · rintro rfl; rfl
  · rw [dif_neg h]
    simp only [reduceCtorEq, false_iff]
    rintro rfl
    exact h (duplicatedNetworks_eq_nil.mpr ⟨t.networks_nodup, by simp⟩)

/-- `DEFAULT_DENIED`: the table this package ships. -/
def defaultDenied : AddressTable := ⟨Registry.table, by decide +kernel⟩

/-- What the table says about one address. -/
structure Verdict where
  /-- The address the question was asked about. -/
  address : IPAddress
  /-- Whether a fetcher is kept from connecting to it. -/
  blocked : Bool
  /-- The entry that decided it, or `none` for an ordinary public destination. -/
  block : Option Block
  /-- The translation hops walked to reach the deciding entry, outermost first. -/
  chain : List (Block × IPAddress)

namespace Verdict

/-- Why the address was refused, naming the block, its RFC and any translation. -/
def reason (v : Verdict) : Str :=
  match v.blocked, v.block with
  | false, _ => []
  | true, none => text "refused by policy"
  | true, some block =>
    let core := block.network.str ++ text " is " ++ block.name ++ text " (" ++ block.rfc ++ text ")"
    if v.chain = [] then core
    else
      join (text " -> ") (v.chain.map fun hop =>
        hop.1.name ++ text " " ++ hop.1.network.str ++ text " carries " ++ hop.2.str) ++
      text ", and " ++ core

/-- `raise_if_blocked`. -/
def raiseIfBlocked (v : Verdict) : Except Exc Unit :=
  if v.blocked then .error (.blockedAddressError v.address.str v.reason) else .ok ()

end Verdict

/-! ## Decoding a wrapper -/

/-- How many times an address may be unwrapped before it is refused. -/
def maxTranslationDepth : ℕ := 2

/-- `_V4_MAPPED_LIKE`: the prefixes that carry an IPv4 address in their low 32 bits. -/
def v4MappedLike : List IPNetwork :=
  [Registry.network "::ffff:0:0/96" Registry.parses_v4Mapped,
    Registry.network "::/96" Registry.parses_v4Compatible]

/-- `_NAT64`. -/
def nat64 : IPNetwork := Registry.network "64:ff9b::/96" Registry.parses_nat64

/-- `_SIXTOFOUR`. -/
def sixToFour : IPNetwork := Registry.network "2002::/16" Registry.parses_sixToFour

/-- `_TEREDO`. -/
def teredo : IPNetwork := Registry.network "2001::/32" Registry.parses_teredo

/-- `IPv4Address(packed & 0xFFFFFFFF)`. -/
def lowWord (packed : BitVec 128) : IPAddress := .v4 ((packed &&& 0xFFFFFFFF#128).setWidth 32)

/-- `_embedded_v4`: the IPv4 addresses a translation prefix carries, none where the prefix is not
one of those decoded here. -/
def embeddedV4 (packed : BitVec 128) (network : IPNetwork) : List IPAddress :=
  if network ∈ v4MappedLike ∨ network = nat64 then [lowWord packed]
  else if network = sixToFour then [lowWord (packed >>> 80)]
  else if network = teredo then [lowWord (packed >>> 64), lowWord (~~~ packed)]
  else []

/-- The embedded addresses of any address: an IPv4 one carries none. -/
def IPAddress.embedded (a : IPAddress) (network : IPNetwork) : List IPAddress :=
  match a with
  | .v4 _ => []
  | .v6 ip _ => embeddedV4 ip network

theorem version_of_mem_embeddedV4 {packed : BitVec 128} {network : IPNetwork} {e : IPAddress}
    (h : e ∈ embeddedV4 packed network) : e.version = 4 := by
  unfold embeddedV4 at h
  split at h
  · rw [List.mem_singleton.mp h]; rfl
  · split at h
    · rw [List.mem_singleton.mp h]; rfl
    · split at h
      · rcases List.mem_cons.mp h with rfl | h
        · rfl
        · rw [List.mem_singleton.mp h]; rfl
      · cases h

namespace AddressTable

/-! ## Lookup -/

/-- `_by_version[version]`: the blocks of one family, longest prefix first. -/
def byVersion (t : AddressTable) (version : ℕ) : List Block :=
  LongestMatch.index (·.network.prefixlen) (t.blocks.filter (·.network.version == version))

/-- `match`: the first block of the family's index that contains the address. -/
def «match» (t : AddressTable) (a : IPAddress) : Option Block :=
  (t.byVersion a.version).find? fun block => block.network.contains a

/-- The block that decides an address: the longest that contains it, the first listed where two
blocks that differ in zone alone are equally long. -/
def Deciding (t : AddressTable) (a : IPAddress) (block : Block) : Prop :=
  LongestMatch.Longest (·.network.prefixlen) (fun b a => b.network.contains a) t.blocks a block

/-! ## Classification -/

/-- `_classify`: classify an address, having already walked `chain` translation hops. -/
def classifyFrom (t : AddressTable) (a : IPAddress) (chain : List (Block × IPAddress)) : Verdict :=
  match t.match a with
  | none => ⟨a, false, none, chain⟩
  | some block =>
    match block.reach with
    | .permitted => ⟨a, false, some block, chain⟩
    | .denied => ⟨a, true, some block, chain⟩
    | .translated =>
      -- the answer is about what is inside, not about the wrapper
      if _h : maxTranslationDepth ≤ chain.length ∨ a.version ≠ 6 then ⟨a, true, some block, chain⟩
      else
        let inner := a.embedded block.network
        if inner = [] then ⟨a, true, some block, chain⟩
        else
          match (inner.map fun e => t.classifyFrom e (chain ++ [(block, e)])).find? (·.blocked) with
          | some v => ⟨a, true, v.block, v.chain⟩
          | none => ⟨a, false, some block, chain⟩
termination_by maxTranslationDepth - chain.length
decreasing_by
  simp only [List.length_append, List.length_singleton]
  omega

/-- `classify`. -/
def classify (t : AddressTable) (a : IPAddress) : Verdict := t.classifyFrom a []

/-- Whether the table blocks an address. -/
def Blocks (t : AddressTable) (a : IPAddress) : Prop := (t.classify a).blocked = true

/-- Whether the table permits an address. -/
def Permits (t : AddressTable) (a : IPAddress) : Prop := (t.classify a).blocked = false

instance (t : AddressTable) (a : IPAddress) : Decidable (t.Blocks a) :=
  inferInstanceAs (Decidable ((t.classify a).blocked = true))

instance (t : AddressTable) (a : IPAddress) : Decidable (t.Permits a) :=
  inferInstanceAs (Decidable ((t.classify a).blocked = false))

variable {t : AddressTable} {a : IPAddress} {block : Block}

/-- The family index finds the deciding block. -/
theorem match_eq_lookup (t : AddressTable) (a : IPAddress) :
    t.match a = LongestMatch.lookup (fun b => b.network.prefixlen)
      (fun (b : Block) a => b.network.contains a) t.blocks a := by
  rw [← LongestMatch.lookup_filter (p := fun b => b.network.version == a.version)]
  · rfl
  · intro c hc
    rw [beq_iff_eq, IPNetwork.version_eq_of_contains hc]

theorem match_eq_some : t.match a = some block ↔ t.Deciding a block := by
  rw [match_eq_lookup]
  exact LongestMatch.lookup_eq_some

theorem match_eq_none : t.match a = none ↔ ∀ c ∈ t.blocks, c.network.contains a = false := by
  rw [match_eq_lookup]
  exact LongestMatch.lookup_eq_none

/-! ## What one classification does -/

/-- The verdict on an IPv4 address is its block's: there is nothing further to decode. -/
theorem classifyFrom_v4 (t : AddressTable) {a : IPAddress} (ha : a.version = 4)
    (chain : List (Block × IPAddress)) :
    t.classifyFrom a chain =
      match t.match a with
      | none => ⟨a, false, none, chain⟩
      | some block => ⟨a, decide (block.reach ≠ .permitted), some block, chain⟩ := by
  rw [classifyFrom]
  cases t.match a with
  | none => rfl
  | some block => cases hr : block.reach <;> simp [hr, ha]

/-- A verdict on an IPv4 address does not depend on the hops that led to it. -/
theorem blocked_classifyFrom_v4 (t : AddressTable) {a : IPAddress} (ha : a.version = 4)
    (chain : List (Block × IPAddress)) :
    (t.classifyFrom a chain).blocked = (t.classify a).blocked := by
  rw [classify, classifyFrom_v4 t ha, classifyFrom_v4 t ha]
  cases t.match a <;> rfl

theorem version_of_mem_embedded {network : IPNetwork} {e : IPAddress}
    (h : e ∈ a.embedded network) : e.version = 4 := by
  cases a with
  | v4 ip => cases h
  | v6 ip scopeId => exact version_of_mem_embeddedV4 h

/-- Only an IPv6 address carries anything. -/
theorem version_of_embedded_ne_nil {network : IPNetwork} (h : a.embedded network ≠ []) :
    a.version = 6 := by
  cases a with
  | v4 ip => exact absurd rfl h
  | v6 ip scopeId => rfl

/-- The first blocked verdict among the embedded addresses, as the loop of the source finds it. -/
theorem classify_of_translated (hm : t.match a = some block) (hr : block.reach = .translated) :
    t.classify a =
      if a.embedded block.network = [] then ⟨a, true, some block, []⟩
      else
        match ((a.embedded block.network).map fun e => t.classifyFrom e [(block, e)]).find?
          (·.blocked) with
        | some v => ⟨a, true, v.block, v.chain⟩
        | none => ⟨a, false, some block, []⟩ := by
  rw [classify, classifyFrom, hm]
  simp only [hr, maxTranslationDepth, List.length_nil, List.nil_append]
  cases a with
  | v4 ip => simp [IPAddress.embedded]
  | v6 ip scopeId => simp

/-- An address in a translated block is blocked when it carries nothing that can be decoded, or
when one of the addresses it carries is blocked. -/
theorem blocks_iff_of_translated (hm : t.match a = some block) (hr : block.reach = .translated) :
    t.Blocks a ↔ a.embedded block.network = [] ∨ ∃ e ∈ a.embedded block.network, t.Blocks e := by
  rw [Blocks, classify_of_translated hm hr]
  by_cases hnil : a.embedded block.network = []
  · simp [hnil]
  · rw [if_neg hnil]
    have hinner : ∀ e ∈ a.embedded block.network,
        (t.classifyFrom e [(block, e)]).blocked = (t.classify e).blocked := fun e he =>
      blocked_classifyFrom_v4 t (version_of_mem_embedded he) _
    -- the hops so far do not change a verdict on an IPv4 address
    cases hf : ((a.embedded block.network).map fun e => t.classifyFrom e [(block, e)]).find?
        (·.blocked) with
    | none =>
        have hnone := List.find?_eq_none.mp hf
        simp only [hnil, false_or, Bool.false_eq_true, false_iff, not_exists, not_and]
        intro e he hblocked
        refine hnone _ (List.mem_map_of_mem he) ?_
        rw [hinner e he]
        exact hblocked
    | some v =>
        obtain ⟨e, he, rfl⟩ := List.mem_map.mp (List.mem_of_find?_eq_some hf)
        have hv : (t.classifyFrom e [(block, e)]).blocked = true := by
          simpa using List.find?_some hf
        rw [hinner e he] at hv
        simp only [hnil, false_or, true_iff]
        exact ⟨e, he, hv⟩

/-- Where the deciding block is no translation prefix, its row is the answer. -/
theorem classify_of_not_translated (hm : t.match a = some block) (hr : block.reach ≠ .translated) :
    t.classify a = ⟨a, decide (block.reach = .denied), some block, []⟩ := by
  rw [classify, classifyFrom, hm]
  cases hc : block.reach with
  | denied => simp [hc]
  | permitted => simp [hc]
  | translated => exact absurd hc hr

theorem classify_of_no_match (hm : t.match a = none) : t.classify a = ⟨a, false, none, []⟩ := by
  rw [classify, classifyFrom, hm]

/-- A table either blocks an address or permits it. -/
theorem blocks_iff_not_permits : t.Blocks a ↔ ¬ t.Permits a := by
  simp [Blocks, Permits]

/-- The verdict is on the address that was asked about. -/
theorem classify_address (t : AddressTable) (a : IPAddress) : (t.classify a).address = a := by
  cases hm : t.match a with
  | none => rw [classify_of_no_match hm]
  | some block =>
      by_cases hr : block.reach = .translated
      · rw [classify_of_translated hm hr]
        split
        · rfl
        · split <;> rfl
      · rw [classify_of_not_translated hm hr]

/-! ## What is permitted -/

/-- The condition under which an address may be connected to: nothing contains it, or the block that
decides it permits it, or that block is a translation prefix and everything the address carries, at
least one address, may be connected to. -/
theorem permits_iff_deciding (t : AddressTable) (a : IPAddress) :
    t.Permits a ↔
      (∀ c ∈ t.blocks, c.network.contains a = false) ∨
      (∃ block, t.Deciding a block ∧ block.reach = .permitted) ∨
      ∃ block, t.Deciding a block ∧ block.reach = .translated ∧
        a.embedded block.network ≠ [] ∧ ∀ e ∈ a.embedded block.network, t.Permits e := by
  cases hm : t.match a with
  | none =>
      have hpermits : t.Permits a := by rw [Permits, classify_of_no_match hm]
      exact iff_of_true hpermits (Or.inl (match_eq_none.mp hm))
  | some block =>
      have hdeciding := match_eq_some.mp hm
      have hnot : ¬ ∀ c ∈ t.blocks, c.network.contains a = false := by
        intro hnone
        rw [match_eq_none.mpr hnone] at hm
        cases hm
      -- the deciding block is one, so each alternative is about `block`
      have hother : ∀ c, t.Deciding a c ↔ c = block := fun c =>
        ⟨fun hc => hc.unique hdeciding, fun hc => hc ▸ hdeciding⟩
      simp only [hnot, false_or, hother, exists_eq_left]
      by_cases hr : block.reach = .translated
      · rw [← not_iff_not, ← blocks_iff_not_permits, blocks_iff_of_translated hm hr]
        simp only [hr, reduceCtorEq, true_and, false_or, not_and_or, not_not, not_forall,
          blocks_iff_not_permits, exists_prop]
      · rw [Permits, classify_of_not_translated hm hr]
        simp only [hr, false_and, or_false]
        cases hc : block.reach with
        | denied => simp
        | permitted => simp
        | translated => exact absurd hc hr

/-- A refusal names its block: the one that decides the address, or the one that decides an address
it carries. That block is never a permitted one. -/
theorem block_of_blocks (h : t.Blocks a) :
    ∃ block, (t.classify a).block = some block ∧ block.reach ≠ .permitted ∧
      (t.Deciding a block ∨ ∃ wrapper, t.Deciding a wrapper ∧ wrapper.reach = .translated ∧
        ∃ e ∈ a.embedded wrapper.network, t.Blocks e ∧ t.Deciding e block) := by
  cases hm : t.match a with
  | none => rw [Blocks, classify_of_no_match hm] at h; cases h
  | some block =>
      have hdeciding := match_eq_some.mp hm
      by_cases hr : block.reach = .translated
      · rw [Blocks, classify_of_translated hm hr] at h
        rw [classify_of_translated hm hr]
        split at h
        · next hnil => exact ⟨block, by rw [if_pos hnil], by simp [hr], Or.inl hdeciding⟩
        · next hnil =>
            rw [if_neg hnil]
            split at h
            · next v hf =>
                obtain ⟨e, he, rfl⟩ := List.mem_map.mp (List.mem_of_find?_eq_some hf)
                have hv : (t.classifyFrom e [(block, e)]).blocked = true := by
                  simpa using List.find?_some hf
                have hve := version_of_mem_embedded he
                have hblocks : t.Blocks e := by
                  rw [Blocks, ← blocked_classifyFrom_v4 t hve]
                  exact hv
                rw [classifyFrom_v4 t hve] at hv ⊢
                cases hme : t.match e with
                | none => rw [hme] at hv; cases hv
                | some inner =>
                    rw [hme] at hv
                    refine ⟨inner, rfl, by simpa using hv, Or.inr ⟨block, hdeciding, hr, ?_⟩⟩
                    exact ⟨e, he, hblocks, match_eq_some.mp hme⟩
            · cases h
      · rw [Blocks, classify_of_not_translated hm hr] at h
        rw [classify_of_not_translated hm hr]
        have hdenied : block.reach = .denied := by simpa using h
        exact ⟨block, rfl, by simp [hdenied], Or.inl hdeciding⟩

/-- **Classification.** Every table answers about every address, an address is permitted exactly
when nothing contains it, its deciding block permits it, or that block is a translation prefix, the
address an IPv6 one, and everything it carries is permitted; every other address is blocked and the
verdict names the block that decided it or decided an address it carries. -/
theorem classify_correct (t : AddressTable) (a : IPAddress) :
    (t.Permits a ↔
      (∀ c ∈ t.blocks, c.network.contains a = false) ∨
      (∃ block, t.Deciding a block ∧ block.reach = .permitted) ∨
      ∃ block, t.Deciding a block ∧ block.reach = .translated ∧ a.version = 6 ∧
        a.embedded block.network ≠ [] ∧ ∀ e ∈ a.embedded block.network,
          e.version = 4 ∧ t.Permits e) ∧
    (¬ t.Permits a →
      t.Blocks a ∧ ∃ block, (t.classify a).block = some block ∧ block.reach ≠ .permitted ∧
        (t.Deciding a block ∨ ∃ wrapper, t.Deciding a wrapper ∧ wrapper.reach = .translated ∧
          ∃ e ∈ a.embedded wrapper.network, t.Blocks e ∧ t.Deciding e block)) := by
  constructor
  · rw [permits_iff_deciding]
    refine or_congr Iff.rfl (or_congr Iff.rfl (exists_congr fun block => ?_))
    constructor
    · rintro ⟨hd, hr, hne, hall⟩
      exact ⟨hd, hr, version_of_embedded_ne_nil hne, hne, fun e he =>
        ⟨version_of_mem_embedded he, hall e he⟩⟩
    · rintro ⟨hd, hr, -, hne, hall⟩
      exact ⟨hd, hr, hne, fun e he => (hall e he).2⟩
  · intro hnot
    have hblocks := blocks_iff_not_permits.mpr hnot
    exact ⟨hblocks, block_of_blocks hblocks⟩

end AddressTable

end SsrfGuard
