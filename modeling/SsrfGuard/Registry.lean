import SsrfGuard.Python.IpNetwork

/-! # The address table

The rows transcribed from the IANA special-purpose registries, and the ones the registries do not
carry. A row's note is left out: nothing reads it. -/

namespace SsrfGuard

/-- What the table says about a block. -/
inductive Reach
  /-- Refuse any address in this block. -/
  | denied
  /-- Allow, overriding any enclosing denied block. -/
  | permitted
  /-- The block carries an IPv4 destination: decode it and ask again about that. -/
  | translated
  deriving DecidableEq

/-- One row of the address table. -/
structure Block where
  /-- The address block. -/
  network : IPNetwork
  /-- The registry's name for it. -/
  name : Str
  /-- The RFC that defines it, for the refusal message. -/
  rfc : Str
  /-- What the table says about it. -/
  reach : Reach
  deriving DecidableEq

namespace Registry

/-- `ip_network(cidr)` of a literal that parses. -/
def network (cidr : String) (h : (parseNetwork (text cidr)).isSome = true) : IPNetwork :=
  (parseNetwork (text cidr)).get h

/-! The ranges that hold an IPv4 address in their low or middle bits are named outside the table
too; their literals parse. -/

theorem parses_v4Compatible : (parseNetwork (text "::/96")).isSome = true := by decide

theorem parses_v4Mapped : (parseNetwork (text "::ffff:0:0/96")).isSome = true := by decide

theorem parses_nat64 : (parseNetwork (text "64:ff9b::/96")).isSome = true := by decide

theorem parses_sixToFour : (parseNetwork (text "2002::/16")).isSome = true := by decide

theorem parses_teredo : (parseNetwork (text "2001::/32")).isSome = true := by decide

/-- Build a row, parsing the CIDR once. -/
def b (cidr : String) (h : (parseNetwork (text cidr)).isSome = true) (name rfc : String)
    (reach : Reach) : Block :=
  ⟨network cidr h, text name, text rfc, reach⟩

/-- `TABLE`: every row the package ships. -/
def table : List Block := [
    -- IANA IPv4 Special-Purpose Address Registry
    b "0.0.0.0/8" (by decide) "This network" "RFC791" .denied,
    b "0.0.0.0/32" (by decide) "This host on this network" "RFC1122" .denied,
    b "10.0.0.0/8" (by decide) "Private-Use" "RFC1918" .denied,
    b "100.64.0.0/10" (by decide) "Shared Address Space" "RFC6598" .denied,
    b "127.0.0.0/8" (by decide) "Loopback" "RFC1122" .denied,
    b "169.254.0.0/16" (by decide) "Link Local" "RFC3927" .denied,
    b "172.16.0.0/12" (by decide) "Private-Use" "RFC1918" .denied,
    b "192.0.0.0/24" (by decide) "IETF Protocol Assignments" "RFC6890" .denied,
    b "192.0.0.0/29" (by decide) "IPv4 Service Continuity Prefix" "RFC7335" .denied,
    b "192.0.0.8/32" (by decide) "IPv4 dummy address" "RFC7600" .denied,
    b "192.0.0.9/32" (by decide) "Port Control Protocol Anycast" "RFC7723" .permitted,
    b "192.0.0.10/32" (by decide) "Traversal Using Relays around NAT Anycast" "RFC8155" .permitted,
    b "192.0.0.170/32" (by decide) "NAT64/DNS64 Discovery" "RFC7050, RFC8880" .denied,
    b "192.0.0.171/32" (by decide) "NAT64/DNS64 Discovery" "RFC7050, RFC8880" .denied,
    b "192.0.2.0/24" (by decide) "Documentation (TEST-NET-1)" "RFC5737" .denied,
    b "192.31.196.0/24" (by decide) "AS112-v4" "RFC7535" .permitted,
    b "192.52.193.0/24" (by decide) "AMT" "RFC7450" .permitted,
    b "192.88.99.0/24" (by decide) "Deprecated (6to4 Relay Anycast)" "RFC7526" .denied,
    b "192.88.99.2/32" (by decide) "6a44-relay anycast address" "RFC6751" .denied,
    b "192.168.0.0/16" (by decide) "Private-Use" "RFC1918" .denied,
    b "192.175.48.0/24" (by decide) "Direct Delegation AS112 Service" "RFC7534" .permitted,
    b "198.18.0.0/15" (by decide) "Benchmarking" "RFC2544" .denied,
    b "198.51.100.0/24" (by decide) "Documentation (TEST-NET-2)" "RFC5737" .denied,
    b "203.0.113.0/24" (by decide) "Documentation (TEST-NET-3)" "RFC5737" .denied,
    b "240.0.0.0/4" (by decide) "Reserved" "RFC1112" .denied,
    b "255.255.255.255/32" (by decide) "Limited Broadcast" "RFC8190, RFC919" .denied,
    -- IANA IPv6 Special-Purpose Address Registry
    b "::1/128" (by decide) "Loopback Address" "RFC4291" .denied,
    b "::/128" (by decide) "Unspecified Address" "RFC4291" .denied,
    b "::ffff:0:0/96" (by decide) "IPv4-mapped Address" "RFC4291" .translated,
    b "64:ff9b::/96" (by decide) "IPv4-IPv6 Translation" "RFC6052" .translated,
    b "64:ff9b:1::/48" (by decide) "IPv4-IPv6 Translation" "RFC8215" .denied,
    b "100::/64" (by decide) "Discard-Only Address Block" "RFC6666" .denied,
    b "100:0:0:1::/64" (by decide) "Dummy IPv6 Prefix" "RFC9780" .denied,
    b "2001::/23" (by decide) "IETF Protocol Assignments" "RFC2928" .denied,
    b "2001::/32" (by decide) "TEREDO" "RFC4380, RFC8190" .translated,
    b "2001:1::1/128" (by decide) "Port Control Protocol Anycast" "RFC7723" .permitted,
    b "2001:1::2/128" (by decide) "Traversal Using Relays around NAT Anycast" "RFC8155" .permitted,
    b "2001:1::3/128" (by decide)
      "DNS-SD Service Registration Protocol Anycast" "RFC9665" .permitted,
    b "2001:2::/48" (by decide) "Benchmarking" "RFC5180" .denied,
    b "2001:3::/32" (by decide) "AMT" "RFC7450" .permitted,
    b "2001:4:112::/48" (by decide) "AS112-v6" "RFC7535" .permitted,
    b "2001:10::/28" (by decide) "Deprecated (previously ORCHID)" "RFC4843" .denied,
    b "2001:20::/28" (by decide) "ORCHIDv2" "RFC7343" .permitted,
    b "2001:30::/28" (by decide)
      "Drone Remote ID Protocol Entity Tags (DETs) Prefix" "RFC9374" .permitted,
    b "2001:db8::/32" (by decide) "Documentation" "RFC3849" .denied,
    b "2002::/16" (by decide) "6to4" "RFC3056" .translated,
    b "2620:4f:8000::/48" (by decide) "Direct Delegation AS112 Service" "RFC7534" .permitted,
    b "3fff::/20" (by decide) "Documentation" "RFC9637" .denied,
    b "5f00::/16" (by decide) "Segment Routing (SRv6) SIDs" "RFC9602" .denied,
    b "fc00::/7" (by decide) "Unique-Local" "RFC4193, RFC8190" .denied,
    b "fe80::/10" (by decide) "Link-Local Unicast" "RFC4291" .denied,
    -- Not carried by the special-purpose registries; see the generator
    b "::/96" (by decide) "IPv4-Compatible (deprecated)" "RFC4291" .translated,
    b "224.0.0.0/4" (by decide) "Multicast" "RFC5771" .denied,
    b "ff00::/8" (by decide) "Multicast" "RFC4291" .denied,
    b "fec0::/10" (by decide) "Site-Local (deprecated)" "RFC3879" .denied,
    -- Named only so a refusal can say what it refused
    b "169.254.169.254/32" (by decide) "Cloud metadata (AWS, GCP, Azure IMDS)" "RFC3927" .denied,
    b "169.254.170.2/32" (by decide) "Cloud metadata (AWS ECS task)" "RFC3927" .denied,
    b "100.100.100.200/32" (by decide) "Cloud metadata (Alibaba Cloud)" "RFC6598" .denied,
    b "192.0.0.192/32" (by decide) "Cloud metadata (Oracle Cloud)" "RFC6890" .denied,
    b "fd00:ec2::254/128" (by decide) "Cloud metadata (AWS IMDS over IPv6)" "RFC4193" .denied]

end Registry

end SsrfGuard
