import SsrfGuard.Address
import SsrfGuard.Policy.Host

/-! # What a caller is willing to reach

A `Policy` is a record of narrowings that has passed its own checks, so the checks are fields of the
type: a value of `Policy` is what the constructor returned. The last check is about
`allowed_networks`. An explicit allow beats the table, so an entry inside a translation prefix would
let the addresses wrapped there through undecoded, and the constructor means to refuse it. -/

namespace SsrfGuard

/-! ## The block that decides a whole network -/

/-- `_wholly_inside`. -/
def whollyInside (inner outer : IPNetwork) : Bool := inner.subnetOf outer

/-- `_deciding_block`: the most specific block that holds all of a network, the first listed where
several are equally specific. -/
def decidingBlock (t : AddressTable) (network : IPNetwork) : Option Block :=
  (t.blocks.filter fun block => whollyInside network block.network).argmax (·.network.prefixlen)

/-- A block that decides an address decides every network around that address which `subnet_of`
places inside it. -/
theorem decidingBlock_of_deciding {t : AddressTable} {a : IPAddress} {block : Block}
    {network : IPNetwork} (hd : t.Deciding a block) (hn : network.contains a = true)
    (hin : whollyInside network block.network = true) : decidingBlock t network = some block := by
  have hlongest : LongestMatch.Longest (·.network.prefixlen)
      (fun (b : Block) n => whollyInside n b.network) t.blocks network block :=
    hd.of_imp hin fun c _ hc => IPNetwork.within_of_subnetOf hc a hn
  exact LongestMatch.argmax_filter_eq_some.mpr hlongest

/-! ## The record -/

/-- The fields of a policy, with `ν` for the entries of `allowed_networks`: texts or networks as the
caller gives them, networks once they are parsed. -/
structure PolicyFields (ν : Type) where
  /-- Schemes a URL may use. -/
  allowedSchemes : List Str := [text "http", text "https"]
  /-- The address table. -/
  deniedNetworks : AddressTable := defaultDenied
  /-- Networks that are permitted even when the table denies them. -/
  allowedNetworks : List ν := []
  /-- Ports a URL may name. -/
  allowedPorts : List ℤ := [80, 443]
  /-- Names a URL may carry, any name where the list is empty. -/
  allowedHosts : List Str := []
  /-- Whether credentials may ride in the authority. -/
  allowUserinfo : Bool := false
  /-- `"reject"` or `"drop"`: what becomes of a name with both permitted and denied addresses. -/
  onPartialBlock : Str := text "reject"
  /-- How many hops a redirect chain may take. -/
  maxRedirects : ℤ := 5
  /-- How many of a name's addresses are tried. -/
  maxConnectionAttempts : ℤ := 4
  /-- Header names dropped when a redirect crosses to another origin. -/
  sensitiveHeaders : List Str := [text "authorization", text "proxy-authorization", text "cookie"]
  /-- Whether to proceed when a proxy is configured. -/
  allowProxy : Bool := false
  /-- How long a URL may be. -/
  maxUrlLength : ℤ := 8192

/-- `_LOWEST_PORT`. -/
def lowestPort : ℤ := 1

/-- `_HIGHEST_PORT`. -/
def highestPort : ℤ := 65535

/-- What every check of `__post_init__` asks of a normalised record. -/
structure PolicyFields.WellFormed (f : PolicyFields IPNetwork) : Prop where
  /-- Some scheme is allowed. -/
  schemes_ne_nil : f.allowedSchemes ≠ []
  /-- Some port is allowed. -/
  ports_ne_nil : f.allowedPorts ≠ []
  /-- Every allowed port is a port. -/
  ports_in_range : ∀ port ∈ f.allowedPorts, lowestPort ≤ port ∧ port ≤ highestPort
  /-- One of the two ways to treat a partly blocked name. -/
  partial_block : f.onPartialBlock = text "reject" ∨ f.onPartialBlock = text "drop"
  /-- A chain is not negative. -/
  redirects_nonneg : 0 ≤ f.maxRedirects
  /-- Some attempt is permitted. -/
  attempts_pos : 1 ≤ f.maxConnectionAttempts
  /-- Some URL is short enough. -/
  url_length_pos : 1 ≤ f.maxUrlLength
  /-- No allowed network is one the table would have decoded. -/
  not_translated : ∀ network ∈ f.allowedNetworks, ∀ block,
    decidingBlock f.deniedNetworks network = some block → block.reach ≠ .translated

/-- A configuration that passed every check of `__post_init__`. -/
structure Policy extends PolicyFields IPNetwork where
  /-- The checks. -/
  wellFormed : toPolicyFields.WellFormed

/-! ## Construction -/

/-- `_as_networks`: parse the entries that are text. -/
def asNetworks (U : Unicode) : List (Str ⊕ IPNetwork) → Except Exc (List IPNetwork)
  | [] => .ok []
  | .inr network :: entries => (asNetworks U entries).map (network :: ·)
  | .inl cidr :: entries =>
    match ipNetwork U cidr with
    | .error e => .error e
    | .ok network => (asNetworks U entries).map (network :: ·)

/-- What is wrong with an entry of `allowed_networks`: the translated block that would decide it. -/
def translatedDecider (t : AddressTable) (network : IPNetwork) : Option (IPNetwork × Block) :=
  match decidingBlock t network with
  | none => none
  | some block => if block.reach = .translated then some (network, block) else none

/-- The refusal of an entry that would permit an undecoded wrapper. -/
def allowsTranslationPrefix (network : IPNetwork) (block : Block) : Str :=
  text "allowed_networks contains " ++ network.str ++ text ", which overlaps " ++
    block.network.str ++ text " (" ++ block.name ++ text ", " ++ block.rfc ++
    text "), a prefix that carries an IPv4 destination inside it. " ++
    text "An explicit allow beats the denied table, so this would permit " ++
    text "every address embedded in that prefix without decoding any of them, " ++
    text "including loopback and the cloud metadata endpoints. To reach specific " ++
    text "internal hosts, allow the embedded IPv4 range instead; to turn address " ++
    text "filtering off, pass a denied_networks table that says so rather than an " ++
    text "allowed_networks entry wide enough to cover this"

/-- The message of an `if` of `__post_init__`, where its condition holds. -/
def objectionWhen (condition : Prop) [Decidable condition] (message : Str) : Option Str :=
  if condition then some message else none

/-- The checks of `__post_init__` in its order, each with the message it raises. -/
def PolicyFields.checks (U : Unicode) (f : PolicyFields IPNetwork) : List (Option Str) := [
  objectionWhen (f.allowedSchemes = [])
    (text "allowed_schemes is empty, so no URL can ever be permitted"),
  objectionWhen (f.allowedPorts = [])
    (text "allowed_ports is empty, so no URL can ever be permitted"),
  (f.allowedPorts.find? fun port => !(lowestPort ≤ port && port ≤ highestPort)).map fun port =>
    text "allowed_ports contains " ++ intText port ++ text ", which is not a port",
  objectionWhen (¬ (f.onPartialBlock = text "reject" ∨ f.onPartialBlock = text "drop"))
    (text "on_partial_block must be 'reject' or 'drop', not " ++ repr U f.onPartialBlock),
  objectionWhen (f.maxRedirects < 0)
    (text "max_redirects must not be negative, got " ++ intText f.maxRedirects),
  objectionWhen (f.maxConnectionAttempts < 1)
    (text "max_connection_attempts must be at least 1, got " ++ intText f.maxConnectionAttempts ++
      text "; a policy that permits no attempt can never connect to anything"),
  objectionWhen (f.maxUrlLength < 1)
    (text "max_url_length must be at least 1, got " ++ intText f.maxUrlLength ++
      text "; a policy that permits no URL can never fetch anything"),
  (f.allowedNetworks.findSome? (translatedDecider f.deniedNetworks)).map fun found =>
    allowsTranslationPrefix found.1 found.2]

/-- The message of the first check a normalised record fails. -/
def PolicyFields.objection (U : Unicode) (f : PolicyFields IPNetwork) : Option Str :=
  (f.checks U).findSome? id

theorem objectionWhen_eq_none {condition : Prop} [Decidable condition] {message : Str} :
    objectionWhen condition message = none ↔ ¬ condition := by
  unfold objectionWhen
  by_cases h : condition <;> simp [h]

theorem translatedDecider_eq_none {t : AddressTable} {network : IPNetwork} :
    translatedDecider t network = none ↔
      ∀ block, decidingBlock t network = some block → block.reach ≠ .translated := by
  unfold translatedDecider
  cases decidingBlock t network <;> simp

/-- **No objection means well formed**, and the other way round. -/
theorem PolicyFields.objection_eq_none {U : Unicode} {f : PolicyFields IPNetwork} :
    f.objection U = none ↔ f.WellFormed := by
  simp only [PolicyFields.objection, PolicyFields.checks, List.findSome?_eq_none_iff, id_eq,
    List.forall_mem_cons, objectionWhen_eq_none, Option.map_eq_none_iff, List.find?_eq_none,
    translatedDecider_eq_none, not_not, not_lt]
  constructor
  · rintro ⟨hschemes, hports, hrange, hpartial, hredirects, hattempts, hlength, hnetworks, -⟩
    exact
      { schemes_ne_nil := hschemes
        ports_ne_nil := hports
        ports_in_range := fun port hp => by simpa using hrange port hp
        partial_block := hpartial
        redirects_nonneg := hredirects
        attempts_pos := hattempts
        url_length_pos := hlength
        not_translated := hnetworks }
  · intro h
    refine ⟨h.schemes_ne_nil, h.ports_ne_nil, fun port hp => ?_, h.partial_block,
      h.redirects_nonneg, h.attempts_pos, h.url_length_pos, h.not_translated, by simp⟩
    simpa using h.ports_in_range port hp

/-- Where every other check passes, what is left to object to is an entry of `allowed_networks`. -/
theorem PolicyFields.objection_eq_translated {U : Unicode} {f : PolicyFields IPNetwork}
    (h : ({ f with allowedNetworks := [] } : PolicyFields IPNetwork).WellFormed) :
    f.objection U = (f.allowedNetworks.findSome? (translatedDecider f.deniedNetworks)).map fun found =>
      allowsTranslationPrefix found.1 found.2 := by
  have hnone := (objection_eq_none (U := U)).mpr h
  simp only [objection, checks, List.findSome?_eq_none_iff, List.forall_mem_cons, id_eq] at hnone
  obtain ⟨hschemes, hports, hrange, hpartial, hredirects, hattempts, hlength, -⟩ := hnone
  simp only [objection, checks, List.findSome?_cons, id_eq, hschemes, hports, hrange, hpartial, hredirects,
    hattempts, hlength]
  cases f.allowedNetworks.findSome? (translatedDecider f.deniedNetworks) <;> rfl

/-- The checks of `__post_init__`. -/
def Policy.ofFields (U : Unicode) (f : PolicyFields IPNetwork) : Except Exc Policy :=
  match h : f.objection U with
  | some message => .error (.valueError message)
  | none => .ok { f with wellFormed := PolicyFields.objection_eq_none.mp h }

/-- `Policy(...)`: normalise the arguments, then check them. -/
def Policy.ofArgs (U : Unicode) (args : PolicyFields (Str ⊕ IPNetwork)) : Except Exc Policy :=
  match asNetworks U args.allowedNetworks with
  | .error e => .error e
  | .ok networks =>
    match asHostPatterns U args.allowedHosts with
    | .error e => .error e
    | .ok hosts =>
      Policy.ofFields U
        { args with
          allowedSchemes := frozenset (args.allowedSchemes.map (lower U))
          allowedNetworks := networks
          allowedPorts := frozenset args.allowedPorts
          allowedHosts := hosts
          sensitiveHeaders := frozenset (args.sensitiveHeaders.map (lower U)) }

/-- **A policy is what its checks accept**: construction succeeds on exactly the well-formed records
and returns them unchanged. -/
theorem Policy.ofFields_eq_ok {U : Unicode} {f : PolicyFields IPNetwork} {p : Policy} :
    Policy.ofFields U f = .ok p ↔ p.toPolicyFields = f := by
  unfold Policy.ofFields
  constructor
  · intro h
    split at h
    · cases h
    · cases h; rfl
  · rintro rfl
    split
    · next message h =>
        rw [PolicyFields.objection_eq_none.mpr p.wellFormed] at h
        cases h
    · rfl

/-- The records `ofFields` accepts, by running its checks. -/
theorem Policy.exists_of_objection_eq_none (U : Unicode) (f : PolicyFields IPNetwork)
    (h : f.objection U = none) : ∃ p, Policy.ofFields U f = .ok p ∧ p.toPolicyFields = f :=
  ⟨{ f with wellFormed := PolicyFields.objection_eq_none.mp h }, ofFields_eq_ok.mpr rfl, rfl⟩

/-! ## Addresses -/

/-- `check_address` on a parsed address: an explicit allow beats the table. -/
def Policy.checkAddress (p : Policy) (a : IPAddress) : Except Exc Unit :=
  if p.allowedNetworks.any fun network => a.version == network.version && network.contains a then
    .ok ()
  else (p.deniedNetworks.classify a).raiseIfBlocked

/-- Whether the policy permits an address. -/
def Policy.Permits (p : Policy) (a : IPAddress) : Prop := p.checkAddress a = .ok ()

instance (p : Policy) (a : IPAddress) : Decidable (p.Permits a) :=
  inferInstanceAs (Decidable (p.checkAddress a = .ok ()))

/-- An address is permitted by an entry that holds it, or by the table. -/
theorem Policy.permits_iff {p : Policy} {a : IPAddress} :
    p.Permits a ↔
      (∃ network ∈ p.allowedNetworks, network.contains a = true) ∨ p.deniedNetworks.Permits a := by
  have hany : (p.allowedNetworks.any fun network =>
      a.version == network.version && network.contains a) = true ↔
      ∃ network ∈ p.allowedNetworks, network.contains a = true := by
    simp only [List.any_eq_true, Bool.and_eq_true, beq_iff_eq]
    refine exists_congr fun network => and_congr_right fun _ => ?_
    exact ⟨And.right, fun h => ⟨IPNetwork.version_eq_of_contains h, h⟩⟩
  rw [Permits, checkAddress, ← hany]
  by_cases h : (p.allowedNetworks.any fun network =>
      a.version == network.version && network.contains a) = true
  · simp [h]
  · simp [h, Verdict.raiseIfBlocked, AddressTable.Permits]

/-- What `check_address` raises is a refusal of the address it was asked about. -/
theorem Policy.checkAddress_eq_error {p : Policy} {a : IPAddress} {e : Exc}
    (h : p.checkAddress a = .error e) :
    e = .blockedAddressError a.str (p.deniedNetworks.classify a).reason := by
  rw [checkAddress] at h
  split at h
  · cases h
  · rw [Verdict.raiseIfBlocked] at h
    split at h
    · cases h; rw [AddressTable.classify_address]
    · cases h

/-! ## Allowed networks inside a translation prefix -/

section TranslatedBlock

variable {p : Policy} {a : IPAddress} {block : Block} {network : IPNetwork}

/-- **What slips past the guard.** An accepted entry that holds an address decided by a translated
block strictly contains the block, unless it is a zoned twin: its network address is the block's own,
under another zone, and `subnet_of` does not place it inside. -/
theorem Policy.strictlyContains_iff_not_zonedTwin (hd : p.deniedNetworks.Deciding a block)
    (hr : block.reach = .translated) (hn : network ∈ p.allowedNetworks)
    (ha : network.contains a = true) :
    network.StrictlyContains block.network ↔ ¬ network.ZonedTwin block.network := by
  have hblock : block.network.contains a = true := hd.covers_self
  rw [IPNetwork.strictlyContains_iff ha hblock]
  constructor
  · rintro hlt ⟨-, hle⟩
    exact absurd hlt hle.not_gt
  · intro htwin
    by_contra hlt
    have hle : block.network.prefixlen ≤ network.prefixlen := not_lt.mp hlt
    have hin : whollyInside network block.network = true := by
      refine (IPNetwork.subnetOf_iff_of_contains ha hblock hle).mpr fun hapart => ?_
      exact htwin ⟨hapart, hle⟩
    exact p.wellFormed.not_translated network hn block (decidingBlock_of_deciding hd ha hin) hr

/-- **Undecoded wrappers.** A permitted address that a translated block decides is either decoded
and found permitted or inside an entry that strictly contains the block, unless an entry that holds
it is a zoned twin of the block, no entry that holds it is wider than the block, and the table blocks
an address it carries. Entry by entry, the twins are exactly the accepted ones that are no wider than
the block. -/
theorem Policy.decoded_iff (hd : p.deniedNetworks.Deciding a block)
    (hr : block.reach = .translated) (hok : p.checkAddress a = .ok ()) :
    (((∀ e ∈ a.embedded block.network, p.deniedNetworks.Permits e) ∨
        ∃ network ∈ p.allowedNetworks, network.StrictlyContains block.network) ↔
      ¬ ((∃ network ∈ p.allowedNetworks,
            network.contains a = true ∧ network.ZonedTwin block.network) ∧
          (∀ network ∈ p.allowedNetworks, network.contains a = true →
            block.network.prefixlen ≤ network.prefixlen) ∧
          ∃ e ∈ a.embedded block.network, p.deniedNetworks.Blocks e)) ∧
    ∀ network ∈ p.allowedNetworks, network.contains a = true →
      (network.StrictlyContains block.network ↔ ¬ network.ZonedTwin block.network) := by
  have hblock : block.network.contains a = true := hd.covers_self
  refine ⟨⟨?_, ?_⟩, fun network hn ha => strictlyContains_iff_not_zonedTwin hd hr hn ha⟩
  · rintro (hall | ⟨network, hn, hstrict⟩) ⟨-, hwide, e, he, hblocked⟩
    · exact AddressTable.blocks_iff_not_permits.mp hblocked (hall e he)
    · have ha : network.contains a = true := hstrict.1 a hblock
      have hlt := (IPNetwork.strictlyContains_iff ha hblock).mp hstrict
      exact absurd hlt (hwide network hn ha).not_gt
  · intro hnot
    rcases permits_iff.mp hok with ⟨network, hn, ha⟩ | htable
    · by_cases htwin : network.ZonedTwin block.network
      · -- a twin lets the address through: one of the other two conditions must fail
        by_contra hneither
        rw [not_or] at hneither
        refine hnot ⟨⟨network, hn, ha, htwin⟩, fun other ho hoa => ?_, ?_⟩
        · by_contra hlt
          have hstrict := (IPNetwork.strictlyContains_iff hoa hblock).mpr (not_le.mp hlt)
          exact hneither.2 ⟨other, ho, hstrict⟩
        · obtain ⟨e, he, hblocked⟩ := by simpa using hneither.1
          exact ⟨e, he, AddressTable.blocks_iff_not_permits.mpr hblocked⟩
      · exact Or.inr ⟨network, hn, (strictlyContains_iff_not_zonedTwin hd hr hn ha).mpr htwin⟩
    -- the table permits it, so it permits what it carries
    · refine Or.inl fun e he => ?_
      by_contra hblocked
      have hblocks : p.deniedNetworks.Blocks a :=
        (AddressTable.blocks_iff_of_translated (AddressTable.match_eq_some.mpr hd) hr).mpr
          (Or.inr ⟨e, he, AddressTable.blocks_iff_not_permits.mpr hblocked⟩)
      exact AddressTable.blocks_iff_not_permits.mp hblocks htable

end TranslatedBlock

/-- `64:ff9b::%x/96`. -/
def zonedNat64 : IPNetwork := Registry.network "64:ff9b::%x/96" (by decide)

/-- `64:ff9b::7f00:1`, which carries `127.0.0.1`. -/
def wrappedLoopback : IPAddress := .v6 0x64ff9b0000000000000000_7f000001#128 none

/-- `64:ff9b::%x/96` as an allowed network: the constructor accepts it, and the wrapped loopback
address is permitted undecoded. -/
theorem Policy.zonedTwin_accepted :
    ∃ p, Policy.ofArgs .ascii { allowedNetworks := [.inl (text "64:ff9b::%x/96")] } = .ok p ∧
      ∃ block, p.deniedNetworks.Deciding wrappedLoopback block ∧ block.reach = .translated ∧
        p.checkAddress wrappedLoopback = .ok () ∧
        ¬ ((∀ e ∈ wrappedLoopback.embedded block.network, p.deniedNetworks.Permits e) ∨
          ∃ network ∈ p.allowedNetworks, network.StrictlyContains block.network) := by
  have hparse : ipNetwork .ascii (text "64:ff9b::%x/96") = .ok zonedNat64 :=
    ipNetwork_eq_ok.mpr (by decide +kernel)
  obtain ⟨p, hp, hf⟩ := Policy.exists_of_objection_eq_none .ascii
    { allowedNetworks := [zonedNat64] } (by decide +kernel)
  have hdenied : p.deniedNetworks = defaultDenied := by rw [hf]
  have hallowed : p.allowedNetworks = [zonedNat64] := by rw [hf]
  refine ⟨p, ?_, ?_⟩
  · rw [Policy.ofArgs, asNetworks, hparse]
    exact hp
  · rw [hdenied, hallowed]
    have hcontains : zonedNat64.contains wrappedLoopback = true := by decide +kernel
    refine ⟨Registry.b "64:ff9b::/96" (by decide) "IPv4-IPv6 Translation" "RFC6052" .translated,
      AddressTable.match_eq_some.mp (by decide +kernel), rfl, ?_, ?_⟩
    · exact Policy.permits_iff.mpr (Or.inl ⟨zonedNat64, by rw [hallowed]; simp, hcontains⟩)
    · rintro (hall | ⟨network, hn, hstrict⟩)
      · have hloopback : defaultDenied.Permits (.v4 0x7f000001#32) := hall _ (by decide +kernel)
        exact absurd hloopback (by decide +kernel)
      · rw [List.mem_singleton.mp hn] at hstrict
        have hlt := (IPNetwork.strictlyContains_iff hcontains (by decide +kernel)).mp hstrict
        exact absurd hlt (by decide +kernel)

/-- `64:ff9b::808:808`, which carries `8.8.8.8`. -/
def wrappedPublic : IPAddress := .v6 0x64ff9b0000000000000000_08080808#128 none

/-- `Policy()`: every field at its default. -/
def Policy.default : Policy :=
  ⟨{}, (@PolicyFields.objection_eq_none .ascii _).mp (by decide +kernel)⟩

/-- Under the default policy the wrapped public address is permitted because it is decoded. -/
theorem Policy.decoded_default :
    (∀ e ∈ wrappedPublic.embedded nat64, defaultDenied.Permits e) ∨
      ∃ network ∈ Policy.default.allowedNetworks, network.StrictlyContains nat64 := by
  have hd : Policy.default.deniedNetworks.Deciding wrappedPublic
      (Registry.b "64:ff9b::/96" (by decide) "IPv4-IPv6 Translation" "RFC6052" .translated) :=
    AddressTable.match_eq_some.mp (by decide +kernel)
  refine (Policy.decoded_iff hd rfl (by decide +kernel)).1.mpr ?_
  rintro ⟨⟨network, hn, -⟩, -⟩
  cases hn

end SsrfGuard
