import SsrfGuard.Library.Cidr
import SsrfGuard.Python.IpAddress

/-! # `ipaddress`: networks

A network is an address block, and for version 6 the zone identifier its text carried. Membership
looks at the block alone. Equality and `subnet_of` look at the zone too: `subnet_of` compares the two
network addresses with `<=`, which for equal integers falls back on `==`, and that compares zones. -/

namespace SsrfGuard

/-- `IPv4Network | IPv6Network`. -/
inductive IPNetwork
  /-- A version 4 network. -/
  | v4 (net : Cidr 32)
  /-- A version 6 network and the zone identifier of its network address. -/
  | v6 (net : Cidr 128) (scopeId : Option Str)
  deriving DecidableEq

namespace IPNetwork

/-- `network.version`. -/
def version : IPNetwork → ℕ
  | v4 _ => 4
  | v6 _ _ => 6

/-- `network.prefixlen`. -/
def prefixlen : IPNetwork → ℕ
  | v4 net => net.prefixlen
  | v6 net _ => net.prefixlen

/-- `address in network`: false across versions, and blind to zones. -/
def contains : IPNetwork → IPAddress → Bool
  | v4 net, .v4 ip => net.contains ip
  | v6 net _, .v6 ip _ => net.contains ip
  | _, _ => false

/-- `inner.subnet_of(outer)` for two networks of one version, `false` for a mixed pair, where the
method raises and its caller in the source never asks. -/
def subnetOf : IPNetwork → IPNetwork → Bool
  | v4 inner, v4 outer =>
    decide (outer.base ≤ inner.base) && decide (inner.broadcast ≤ outer.broadcast)
  | v6 inner zone, v6 outer zone' =>
    (decide (outer.base < inner.base) || (outer.base == inner.base && zone' == zone)) &&
      decide (inner.broadcast ≤ outer.broadcast)
  | _, _ => false

/-- `str(network)`. -/
def str (n : IPNetwork) : Str :=
  let address := match n with
    | v4 net => ipv4Text net.base
    | v6 net scopeId => ipv6Text net.base scopeId
  address ++ text "/" ++ natText n.prefixlen

theorem version_eq_of_contains {n : IPNetwork} {a : IPAddress} (h : n.contains a = true) :
    a.version = n.version := by
  cases n <;> cases a <;> first | rfl | cases h

/-- The network address of a block, as an address. -/
def networkAddress : IPNetwork → IPAddress
  | v4 net => .v4 net.base
  | v6 net scopeId => .v6 net.base scopeId

theorem contains_networkAddress (n : IPNetwork) : n.contains n.networkAddress = true := by
  cases n with
  | v4 net => exact net.contains_base
  | v6 net scopeId => exact net.contains_base

/-! ## Nesting, with zones set aside -/

/-- `inner` lies inside `outer` as a set of addresses. -/
def Within (inner outer : IPNetwork) : Prop :=
  ∀ a, inner.contains a = true → outer.contains a = true

/-- The network addresses are equal as integers and the zones differ: the one way two nested
networks of one version escape `subnet_of`. -/
def ZoneApart : IPNetwork → IPNetwork → Prop
  | v6 inner zone, v6 outer zone' => inner.base = outer.base ∧ zone ≠ zone'
  | _, _ => False

instance (inner outer : IPNetwork) : Decidable (ZoneApart inner outer) := by
  cases inner <;> cases outer <;> unfold ZoneApart <;> infer_instance

/-- `entry` is no wider than `block` and names the same network address under another zone. -/
def ZonedTwin (entry block : IPNetwork) : Prop :=
  ZoneApart entry block ∧ block.prefixlen ≤ entry.prefixlen

instance (entry block : IPNetwork) : Decidable (ZonedTwin entry block) :=
  inferInstanceAs (Decidable (_ ∧ _))

/-- Two networks that hold one address are nested, the shorter prefix outside. -/
theorem within_of_prefixlen_le {inner outer : IPNetwork} {a : IPAddress}
    (hi : inner.contains a = true) (ho : outer.contains a = true)
    (hle : outer.prefixlen ≤ inner.prefixlen) : inner.Within outer := by
  intro b hb
  cases inner with
  | v4 n =>
      cases a with
      | v6 x zone => cases hi
      | v4 x =>
          cases outer with
          | v6 m zone => cases ho
          | v4 m =>
              cases b with
              | v6 y zone => cases hb
              | v4 y => exact Cidr.contains_of_prefixlen_le ho hi hle hb
  | v6 n s =>
      cases a with
      | v4 x => cases hi
      | v6 x zone =>
          cases outer with
          | v4 m => cases ho
          | v6 m t =>
              cases b with
              | v4 y => cases hb
              | v6 y zone' => exact Cidr.contains_of_prefixlen_le ho hi hle hb

/-- **`subnet_of` on nested networks.** Where the inner network lies inside the outer one as an
address block, `subnet_of` says so unless the two differ in zone alone at the network address. -/
theorem subnetOf_iff_of_contains {inner outer : IPNetwork} {a : IPAddress}
    (hi : inner.contains a = true) (ho : outer.contains a = true)
    (hle : outer.prefixlen ≤ inner.prefixlen) :
    inner.subnetOf outer = true ↔ ¬ ZoneApart inner outer := by
  have hwithin := within_of_prefixlen_le hi ho hle
  cases inner with
  | v4 n =>
      cases outer with
      | v6 m zone => cases a <;> first | cases hi | cases ho
      | v4 m =>
          have hbase : m.contains n.base = true := hwithin (.v4 n.base) n.contains_base
          simp [subnetOf, ZoneApart, Cidr.base_le_of_contains hbase, Cidr.broadcast_le hbase hle]
  | v6 n s =>
      cases outer with
      | v4 m => cases a <;> first | cases hi | cases ho
      | v6 m t =>
          have hbase : m.contains n.base = true := hwithin (.v6 n.base none) n.contains_base
          have hlow := Cidr.base_le_of_contains hbase
          simp only [subnetOf, ZoneApart, Cidr.broadcast_le hbase hle, decide_true, Bool.and_true,
            Bool.or_eq_true, decide_eq_true_eq, Bool.and_eq_true, beq_iff_eq, not_and, not_not]
          constructor
          · rintro (hlt | ⟨-, hzone⟩) heq
            · exact absurd heq (BitVec.ne_of_lt hlt).symm
            · exact hzone.symm
          · intro h
            by_cases heq : n.base = m.base
            · exact Or.inr ⟨heq.symm, (h heq).symm⟩
            · exact Or.inl (by bv_omega)

/-- What `subnet_of` accepts lies inside. -/
theorem within_of_subnetOf {inner outer : IPNetwork} (h : inner.subnetOf outer = true) :
    inner.Within outer := by
  intro a ha
  cases inner with
  | v4 n =>
      cases outer with
      | v6 m zone => cases h
      | v4 m =>
          cases a with
          | v6 x zone => cases ha
          | v4 x =>
              obtain ⟨hlow, hhigh⟩ := Cidr.contains_iff_between.mp ha
              simp only [subnetOf, Bool.and_eq_true, decide_eq_true_eq] at h
              exact Cidr.contains_iff_between.mpr
                ⟨BitVec.le_trans h.1 hlow, BitVec.le_trans hhigh h.2⟩
  | v6 n zone =>
      cases outer with
      | v4 m => cases h
      | v6 m zone' =>
          cases a with
          | v4 x => cases ha
          | v6 x s =>
              obtain ⟨hlow, hhigh⟩ := Cidr.contains_iff_between.mp ha
              simp only [subnetOf, Bool.and_eq_true, Bool.or_eq_true, decide_eq_true_eq,
                beq_iff_eq] at h
              have hbase : m.base ≤ n.base := by
                rcases h.1 with hlt | heq
                · exact BitVec.le_of_lt hlt
                · rw [heq.1]; exact BitVec.le_refl _
              exact Cidr.contains_iff_between.mpr
                ⟨BitVec.le_trans hbase hlow, BitVec.le_trans hhigh h.2⟩

/-- `outer` holds every address of `inner` and more. -/
def StrictlyContains (outer inner : IPNetwork) : Prop :=
  inner.Within outer ∧ ¬ outer.Within inner

/-- Of two networks that hold one address, the one with the shorter prefix strictly contains the
other. -/
theorem strictlyContains_iff {outer inner : IPNetwork} {a : IPAddress}
    (ho : outer.contains a = true) (hi : inner.contains a = true) :
    outer.StrictlyContains inner ↔ outer.prefixlen < inner.prefixlen := by
  constructor
  · rintro ⟨-, hnot⟩
    by_contra hle
    exact hnot (within_of_prefixlen_le ho hi (Nat.le_of_not_lt hle))
  · intro hlt
    refine ⟨within_of_prefixlen_le hi ho hlt.le, fun hwithin => ?_⟩
    cases outer with
    | v4 m =>
        cases inner with
        | v6 n s => cases a <;> first | cases ho | cases hi
        | v4 n =>
            have hle : n.prefixlen ≤ m.prefixlen :=
              Cidr.prefixlen_le_of_subset fun y hy => hwithin (.v4 y) hy
            exact absurd hlt hle.not_gt
    | v6 m t =>
        cases inner with
        | v4 n => cases a <;> first | cases ho | cases hi
        | v6 n s =>
            have hle : n.prefixlen ≤ m.prefixlen :=
              Cidr.prefixlen_le_of_subset fun y hy => hwithin (.v6 y none) hy
            exact absurd hlt hle.not_gt

end IPNetwork

/-! ## Parsing -/

/-- `_prefix_from_prefix_string`: decimal digits naming a length up to `width`. -/
def prefixFromString (width : ℕ) (s : Str) : Option ℕ :=
  if isDigits s && decimalValue s ≤ width then some (decimalValue s) else none

/-- `_prefix_from_ip_int`: the length of which the integer is the mask. -/
def prefixFromMask (ip : BitVec 32) : Option ℕ :=
  (List.range 33).find? fun p => Cidr.netmask 32 p == ip

/-- `_prefix_from_ip_string`: a netmask, or a hostmask, written as an address. -/
def prefixFromIpString (s : Str) : Option ℕ :=
  (ipv4FromString s).bind fun ip => (prefixFromMask ip).or (prefixFromMask (~~~ ip))

/-- `IPv4Network._make_netmask` on the part after the slash. -/
def makeNetmask4 (s : Str) : Option ℕ := (prefixFromString 32 s).or (prefixFromIpString s)

/-- The address and the length of an IPv4 network text. -/
def ipv4NetworkParts (s : Str) : Option (BitVec 32 × ℕ) :=
  match split '/' s with
  | [addr] => (ipv4FromString addr).map (·, 32)
  | [addr, mask] => (ipv4FromString addr).bind fun ip => (makeNetmask4 mask).map (ip, ·)
  | _ => none

/-- The address, the zone and the length of an IPv6 network text. -/
def ipv6NetworkParts (s : Str) : Option (BitVec 128 × Option Str × ℕ) :=
  let address (addr : Str) : Option (BitVec 128 × Option Str) :=
    (splitScopeId addr).bind fun parts => (ipv6FromString parts.1).map (·, parts.2)
  match split '/' s with
  | [addr] => (address addr).map fun a => (a.1, a.2, 128)
  | [addr, mask] => (address addr).bind fun a => (prefixFromString 128 mask).map (a.1, a.2, ·)
  | _ => none

/-- `ip_network(s)`: IPv4 is tried first, and host bits are an error in either version. -/
def ipNetwork (U : Unicode) (s : Str) : Except Exc IPNetwork :=
  let hostBits (address : Str) (p : ℕ) : Exc :=
    .valueError (address ++ text "/" ++ natText p ++ text " has host bits set")
  match ipv4NetworkParts s with
  | some (ip, p) =>
    match Cidr.mk? ip p with
    | some net => .ok (.v4 net)
    | none => .error (hostBits (ipv4Text ip) p)
  | none =>
    match ipv6NetworkParts s with
    | some (ip, zone, p) =>
      match Cidr.mk? ip p with
      | some net => .ok (.v6 net zone)
      | none => .error (hostBits (ipv6Text ip zone) p)
    | none =>
      .error (.valueError (repr U s ++ text " does not appear to be an IPv4 or IPv6 network"))

/-- The network a CIDR text names, where it names one. -/
def parseNetwork (s : Str) : Option IPNetwork :=
  match ipv4NetworkParts s with
  | some (ip, p) => (Cidr.mk? ip p).map .v4
  | none => (ipv6NetworkParts s).bind fun n => (Cidr.mk? n.1 n.2.2).map (.v6 · n.2.1)

theorem ipNetwork_eq_ok {U : Unicode} {s : Str} {n : IPNetwork} :
    ipNetwork U s = .ok n ↔ parseNetwork s = some n := by
  unfold ipNetwork parseNetwork
  cases ipv4NetworkParts s with
  | some r => cases h : Cidr.mk? r.1 r.2 <;> simp [h]
  | none =>
      cases ipv6NetworkParts s with
      | some r => cases h : Cidr.mk? r.1 r.2.2 <;> simp [h]
      | none => simp

end SsrfGuard
