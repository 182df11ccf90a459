import SsrfGuard.Policy.Translated

/-! # The rows of a table

What a table says depends on which rows it has and not on their order, as long as no two rows name one block
under different zones: their networks are unequal, so both may stand in a table, and they hold the same
addresses. A denied row that is added permits nothing, and one that stands inside a denied row can go. -/

namespace SsrfGuard

/-- Two networks of one length that hold one address are the same but for their zones. -/
theorem IPNetwork.eq_or_zoneApart {n m : IPNetwork} {a : IPAddress} (hn : n.contains a = true)
    (hm : m.contains a = true) (hlength : n.prefixlen = m.prefixlen) : n = m ∨ n.ZoneApart m := by
  have hsame {w : ℕ} {c d : Cidr w} {x : BitVec w} (hc : c.contains x = true) (hd : d.contains x = true)
      (hlength : c.prefixlen = d.prefixlen) : c = d := by
    have hbase : c.base = d.base := by
      rw [← Cidr.contains_iff.mp hc, ← Cidr.contains_iff.mp hd, Cidr.mask, Cidr.mask, hlength]
    cases c
    cases d
    cases hbase
    cases hlength
    rfl
  cases a with
  | v4 x =>
      cases n with
      | v6 c zone => cases hn
      | v4 c =>
          cases m with
          | v6 d zone => cases hm
          | v4 d => exact .inl (congrArg v4 (hsame hn hm hlength))
  | v6 x zone =>
      cases n with
      | v4 c => cases hn
      | v6 c s =>
          cases m with
          | v4 d => cases hm
          | v6 d s' =>
              obtain rfl : c = d := hsame hn hm hlength
              by_cases hzone : s = s'
              · exact .inl (congrArg (v6 c) hzone)
              · exact .inr ⟨rfl, hzone⟩

namespace AddressTable

variable {t u : AddressTable} {a : IPAddress} {block row : Block}

/-- An address whose row is denied is blocked. -/
theorem blocks_of_denied (hm : t.match a = some block) (hr : block.reach = .denied) : t.Blocks a := by
  have hnot : block.reach ≠ .translated := by
    rw [hr]
    decide
  rw [Blocks, classify_of_not_translated hm hnot, hr]
  rfl

/-! ## The order of the rows -/

/-- The row has the address's family and holds it, and every other row that holds it has a shorter prefix. -/
def UniquelyLongest (t : AddressTable) (a : IPAddress) (block : Block) : Prop :=
  block ∈ t.blocks ∧ block.network.version = a.version ∧ block.network.contains a = true ∧
    ∀ row ∈ t.blocks, row ≠ block → row.network.contains a = true →
      row.network.prefixlen < block.network.prefixlen

/-- `match` is the longest prefix: it finds the one row that is longest, and none where no row holds the
address. -/
def MatchesLongest (t : AddressTable) : Prop :=
  ∀ a, (∀ block, t.match a = some block ↔ t.UniquelyLongest a block) ∧
    (t.match a = none ↔ ∀ row ∈ t.blocks, row.network.contains a = false)

/-- Any order of the rows gives the same matches and the same verdicts. -/
def OrderFree (t : AddressTable) : Prop :=
  ∀ u : AddressTable, u.blocks.Perm t.blocks → ∀ a, u.match a = t.match a ∧ u.classify a = t.classify a

/-- Two rows name the same block of addresses under two zones. -/
def Twins (b c : Block) : Prop :=
  b.network.ZoneApart c.network ∧ b.network.prefixlen = c.network.prefixlen

/-- Every address that two such rows hold is in a longer row. -/
def TwinsOverruled (t : AddressTable) : Prop :=
  ∀ b ∈ t.blocks, ∀ c ∈ t.blocks, Twins b c → ∀ a, b.network.contains a = true →
    ∃ row ∈ t.blocks, b.network.prefixlen < row.network.prefixlen ∧ row.network.contains a = true

theorem not_zoneApart_self (n : IPNetwork) : ¬ n.ZoneApart n := by
  cases n with
  | v4 net => exact id
  | v6 net zone => exact fun h => h.2 rfl

/-- Twins hold the same addresses. -/
theorem Twins.contains {b c : Block} (h : Twins b c) (ha : b.network.contains a = true) :
    c.network.contains a = true := by
  obtain ⟨hapart, hlength⟩ := h
  revert ha hapart hlength
  cases b.network with
  | v4 n => exact fun _ hapart _ => hapart.elim
  | v6 n zone =>
      cases c.network with
      | v4 m => exact fun _ hapart _ => hapart.elim
      | v6 m zone' =>
          rintro ha ⟨hbase, -⟩ hlength
          cases a with
          | v4 x => cases ha
          | v6 x s =>
              have hx := Cidr.contains_iff.mp ha
              refine Cidr.contains_iff.mpr ?_
              rw [← hbase, ← hx, Cidr.mask, Cidr.mask, show m.prefixlen = n.prefixlen from hlength.symm]

theorem eq_of_network_eq {b c : Block} (hb : b ∈ t.blocks) (hc : c ∈ t.blocks)
    (h : b.network = c.network) : b = c :=
  List.inj_on_of_nodup_map t.networks_nodup hb hc h

/-- A row that is longer than the others is what the lookup finds, whatever its family index looks like. -/
theorem uniquelyLongest_iff : t.UniquelyLongest a block ↔
    LongestMatch.Strict (·.network.prefixlen) (fun (b : Block) a => b.network.contains a) t.blocks a block := by
  constructor
  · rintro ⟨hmem, -, hcontains, hshorter⟩
    exact ⟨hmem, hcontains, hshorter⟩
  · rintro ⟨hmem, hcontains, hshorter⟩
    exact ⟨hmem, (IPNetwork.version_eq_of_contains hcontains).symm, hcontains, hshorter⟩

theorem match_of_uniquelyLongest (h : t.UniquelyLongest a block) : t.match a = some block := by
  rw [match_eq_lookup]
  exact LongestMatch.lookup_of_strict (uniquelyLongest_iff.mp h)

/-- Where twins are overruled the row that decides an address is longer than the others. -/
theorem TwinsOverruled.uniquelyLongest (h : t.TwinsOverruled) (hd : t.Deciding a block) :
    t.UniquelyLongest a block := by
  refine ⟨hd.mem, (IPNetwork.version_eq_of_contains hd.covers_self).symm, hd.covers_self, ?_⟩
  intro row hrow hne hcontains
  refine lt_of_le_of_ne (hd.le hrow hcontains) fun hlength => ?_
  rcases IPNetwork.eq_or_zoneApart hcontains hd.covers_self hlength with hsame | hapart
  · exact hne (eq_of_network_eq hrow hd.mem hsame)
  -- a longer row would decide the address
  · obtain ⟨longer, hlonger, hlt, hholds⟩ := h row hrow block hd.mem ⟨hapart, hlength⟩ a hcontains
    have hle := hd.le hlonger hholds
    rw [← hlength] at hle
    exact absurd hle (not_le.mpr hlt)

/-- What is classified depends on the matches alone. -/
theorem classify_congr (h : ∀ a, u.match a = t.match a) (a : IPAddress) : u.classify a = t.classify a := by
  cases hm : t.match a with
  | none => rw [classify_of_no_match hm, classify_of_no_match ((h a).trans hm)]
  | some block =>
      have hm' := (h a).trans hm
      by_cases hr : block.reach = .translated
      · have hinner : (a.embedded block.network).map (fun e => u.classifyFrom e [(block, e)]) =
            (a.embedded block.network).map fun e => t.classifyFrom e [(block, e)] := by
          refine List.map_congr_left fun e he => ?_
          have hv4 := version_of_mem_embedded he
          rw [classifyFrom_v4 u hv4, classifyFrom_v4 t hv4, h e]
        rw [classify_of_translated hm hr, classify_of_translated hm' hr, hinner]
      · rw [classify_of_not_translated hm hr, classify_of_not_translated hm' hr]

/-- Where every match is unique the order of the rows does not matter. -/
theorem MatchesLongest.orderFree (h : t.MatchesLongest) : t.OrderFree := by
  intro u hperm
  have hmatch : ∀ a, u.match a = t.match a := by
    intro a
    rw [match_eq_lookup, match_eq_lookup]
    refine LongestMatch.lookup_perm hperm fun b hb => ?_
    rw [← match_eq_lookup] at hb
    exact uniquelyLongest_iff.mp (((h a).1 b).mp hb)
  exact fun a => ⟨hmatch a, classify_congr hmatch a⟩

theorem ofBlocks_eq_error {blocks : List Block} (h : ¬ (blocks.map (·.network)).Nodup) :
    ∃ message, AddressTable.ofBlocks blocks = .error (.valueError message) := by
  have hdup : duplicatedNetworks [] blocks ≠ [] := fun hnil => h (duplicatedNetworks_eq_nil.mp hnil).1
  exact ⟨_, dif_neg hdup⟩

/-- **Longest prefix.** A table matches every address with the one row that is longest, whatever the order of
its rows, exactly when every address that two rows hold which differ in zone alone is in a longer row. A list
that repeats a network is no table. -/
theorem matchesLongest_iff (t : AddressTable) :
    (t.MatchesLongest ∧ t.OrderFree ↔ t.TwinsOverruled) ∧
      ∀ blocks : List Block, ¬ (blocks.map (·.network)).Nodup →
        ∃ message, AddressTable.ofBlocks blocks = .error (.valueError message) := by
  refine ⟨⟨?_, fun h => ?_⟩, fun blocks => ofBlocks_eq_error⟩
  · rintro ⟨h, -⟩ b hb c hc ⟨hapart, hlength⟩ a hba
    by_contra hnone
    have hlongest : ∀ row ∈ t.blocks, row.network.contains a = true →
        row.network.prefixlen ≤ b.network.prefixlen :=
      fun row hrow hcontains => not_lt.mp fun hlt => hnone ⟨row, hrow, hlt, hcontains⟩
    have hca : c.network.contains a = true := Twins.contains ⟨hapart, hlength⟩ hba
    cases hm : t.match a with
    | none =>
        rw [(h a).2.mp hm b hb] at hba
        cases hba
    | some found =>
        -- both twins are the row that was found
        obtain ⟨hmem, -, hcontains, hshorter⟩ := ((h a).1 found).mp hm
        have hle := hlongest found hmem hcontains
        have hbf : b = found := by
          by_contra hne
          exact absurd (hshorter b hb hne hba) (not_lt.mpr hle)
        have hcf : c = found := by
          by_contra hne
          exact absurd (hshorter c hc hne hca) (not_lt.mpr (hlength ▸ hle))
        rw [hbf, hcf] at hapart
        exact not_zoneApart_self found.network hapart
  · have hmatches : t.MatchesLongest := by
      refine fun a => ⟨fun block => ⟨fun hm => ?_, match_of_uniquelyLongest⟩, match_eq_none⟩
      exact h.uniquelyLongest (match_eq_some.mp hm)
    exact ⟨hmatches, hmatches.orderFree⟩

theorem isSome_linkLocal : (parseNetwork (text "fe80::/10")).isSome = true := by decide

/-- `fe80::/10`, denied. -/
def linkLocal : Block := Registry.b "fe80::/10" isSome_linkLocal "Link-Local Unicast" "RFC4291" .denied

/-- `fe80::%x/10`, permitted: the same block of addresses under a zone. -/
def zonedLinkLocal : Block := Registry.b "fe80::%x/10" (by decide) "one link" "RFC4007" .permitted

/-- `fe80::1`. -/
def linkAddress : IPAddress := .v6 0xfe80_0000_0000_0000_0000_0000_0000_0001#128 none

/-- Two rows whose networks are unequal and hold the same addresses: the one listed first decides them. -/
theorem matchesLongest_zoned :
    ∃ t u, AddressTable.ofBlocks [linkLocal, zonedLinkLocal] = .ok t ∧
      AddressTable.ofBlocks [zonedLinkLocal, linkLocal] = .ok u ∧
      t.Blocks linkAddress ∧ u.Permits linkAddress ∧ ¬ (t.MatchesLongest ∧ t.OrderFree) := by
  refine ⟨⟨[linkLocal, zonedLinkLocal], by decide +kernel⟩, ⟨[zonedLinkLocal, linkLocal], by decide +kernel⟩,
    ofBlocks_eq_ok.mpr rfl, ofBlocks_eq_ok.mpr rfl, ?_, ?_, ?_⟩
  · have hmatch : (⟨[linkLocal, zonedLinkLocal], by decide +kernel⟩ : AddressTable).match linkAddress =
        some linkLocal := by decide +kernel
    exact blocks_of_denied hmatch rfl
  · refine (permits_iff_deciding _ _).mpr (.inr (.inl ⟨zonedLinkLocal, match_eq_some.mp ?_, rfl⟩))
    decide +kernel
  · rintro ⟨-, horder⟩
    have hsame := (horder ⟨[zonedLinkLocal, linkLocal], by decide +kernel⟩ (List.Perm.swap _ _ _) linkAddress).1
    exact absurd hsame (by decide +kernel)

/-! ## Rows added and removed -/

/-- Every address is matched as before, or now by a denied row. -/
def DeniesMore (t u : AddressTable) : Prop :=
  ∀ a, u.match a = t.match a ∨ ∃ row, u.match a = some row ∧ row.reach = .denied

/-- What is blocked stays blocked, when that holds of the addresses that are carried. -/
theorem DeniesMore.blocks_of_embedded (h : t.DeniesMore u) (a : IPAddress)
    (hinner : ∀ network, ∀ e ∈ a.embedded network, t.Blocks e → u.Blocks e) (hblocks : t.Blocks a) :
    u.Blocks a := by
  rcases h a with hsame | ⟨row, hrow, hdenied⟩
  · cases hm : t.match a with
    | none =>
        rw [Blocks, classify_of_no_match hm] at hblocks
        cases hblocks
    | some block =>
        have hm' := hsame.trans hm
        by_cases hr : block.reach = .translated
        · rw [blocks_iff_of_translated hm hr] at hblocks
          rw [blocks_iff_of_translated hm' hr]
          refine hblocks.imp id ?_
          rintro ⟨e, he, hblocked⟩
          exact ⟨e, he, hinner _ e he hblocked⟩
        · rw [Blocks, classify_of_not_translated hm hr] at hblocks
          rw [Blocks, classify_of_not_translated hm' hr]
          exact hblocks
  · exact blocks_of_denied hrow hdenied

/-- **Denying more blocks more**, and the addresses that are carried with it: they are IPv4 addresses, which
carry nothing further. -/
theorem DeniesMore.blocks (h : t.DeniesMore u) (a : IPAddress) (hblocks : t.Blocks a) : u.Blocks a := by
  refine h.blocks_of_embedded a (fun network e he => ?_) hblocks
  refine h.blocks_of_embedded e fun network e' he' => ?_
  have hv4 := version_of_mem_embedded he
  have hv6 := version_of_embedded_ne_nil (List.ne_nil_of_mem he')
  rw [hv4] at hv6
  cases hv6

section

variable {before after : List Block} {enclosing : Block}

/-- One more row matches an address itself, or changes nothing there. -/
theorem match_insert (ht : t.blocks = before ++ after) (hu : u.blocks = before ++ row :: after)
    (a : IPAddress) : u.match a = some row ∨ u.match a = t.match a := by
  rw [match_eq_lookup, match_eq_lookup, ht, hu]
  exact LongestMatch.lookup_insert before after row a

theorem deniesMore_insert (ht : t.blocks = before ++ after) (hu : u.blocks = before ++ row :: after)
    (hdenied : row.reach = .denied) : t.DeniesMore u := by
  intro a
  rcases match_insert ht hu a with hrow | hsame
  · exact .inr ⟨row, hrow, hdenied⟩
  · exact .inl hsame

/-- Without a row, its addresses are decided by the row around it. -/
theorem match_remove (ht : t.blocks = before ++ after) (hu : u.blocks = before ++ row :: after)
    (henclosing : t.Holding row.network enclosing) (hrow : u.match a = some row) :
    t.match a = some enclosing := by
  have hd := match_eq_some.mp hrow
  refine match_eq_some.mpr (LongestMatch.Longest.of_imp henclosing ?_ fun c hc hca => ?_)
  · exact IPNetwork.holds_iff_within.mp henclosing.covers_self a hd.covers_self
  -- a row that holds the address is no longer than the removed one, so it holds all of it
  · have hmem : c ∈ u.blocks := by
      rw [ht] at hc
      rw [hu]
      rcases List.mem_append.mp hc with hc | hc
      · exact List.mem_append_left _ hc
      · exact List.mem_append_right _ (List.mem_cons_of_mem _ hc)
    exact IPNetwork.holds_iff_within.mpr
      (IPNetwork.within_of_prefixlen_le hd.covers_self hca (hd.le hmem hca))

theorem deniesMore_remove (ht : t.blocks = before ++ after) (hu : u.blocks = before ++ row :: after)
    (henclosing : t.Holding row.network enclosing) (hdenied : enclosing.reach = .denied) :
    u.DeniesMore t := by
  intro a
  rcases match_insert ht hu a with hrow | hsame
  · exact .inr ⟨enclosing, match_remove ht hu henclosing hrow, hdenied⟩
  · exact .inl hsame.symm

/-- A table takes one more row when it does not name its network yet. -/
theorem exists_insert (ht : t.blocks = before ++ after) (hnew : row.network ∉ t.blocks.map (·.network)) :
    ∃ u, AddressTable.ofBlocks (before ++ row :: after) = .ok u ∧ u.blocks = before ++ row :: after := by
  have hnodup : ((before ++ row :: after).map (·.network)).Nodup := by
    have hrows := t.networks_nodup
    rw [ht] at hrows hnew
    rw [List.perm_middle.map _ |>.nodup_iff, List.map_cons]
    exact List.nodup_cons.mpr ⟨hnew, hrows⟩
  exact ⟨⟨_, hnodup⟩, ofBlocks_eq_ok.mpr rfl, rfl⟩

theorem exists_remove (hu : u.blocks = before ++ row :: after) :
    ∃ t, AddressTable.ofBlocks (before ++ after) = .ok t ∧ t.blocks = before ++ after := by
  have hnodup : ((before ++ after).map (·.network)).Nodup := by
    have hrows := u.networks_nodup
    rw [hu, List.perm_middle.map _ |>.nodup_iff, List.map_cons] at hrows
    exact (List.nodup_cons.mp hrows).2
  exact ⟨⟨_, hnodup⟩, ofBlocks_eq_ok.mpr rfl, rfl⟩

/-- **Tightening is monotone.** A denied row whose network a table does not name yet can be added anywhere,
and every address that was blocked stays blocked. A denied row can be removed when the longest of the other
rows that hold its network is denied, and the same addresses are blocked. Either way the addresses that are
carried inside others are among them. -/
theorem tightening_monotone (row : Block) (hdenied : row.reach = .denied) (before after : List Block) :
    (∀ t : AddressTable, t.blocks = before ++ after → row.network ∉ t.blocks.map (·.network) →
      ∃ u, AddressTable.ofBlocks (before ++ row :: after) = .ok u ∧ ∀ a, t.Blocks a → u.Blocks a) ∧
    ∀ u : AddressTable, u.blocks = before ++ row :: after →
      ∃ t, AddressTable.ofBlocks (before ++ after) = .ok t ∧
        ∀ enclosing, t.Holding row.network enclosing → enclosing.reach = .denied →
          ∀ a, t.Blocks a ↔ u.Blocks a := by
  constructor
  · intro t ht hnew
    obtain ⟨u, hok, hu⟩ := exists_insert ht hnew
    exact ⟨u, hok, (deniesMore_insert ht hu hdenied).blocks⟩
  · intro u hu
    obtain ⟨t, hok, ht⟩ := exists_remove hu
    refine ⟨t, hok, fun enclosing henclosing hreach a => ⟨?_, ?_⟩⟩
    · exact (deniesMore_insert ht hu hdenied).blocks a
    · exact (deniesMore_remove ht hu henclosing hreach).blocks a

end

/-- Where the table ships the rows that only name a metadata service. -/
def metadataRows : List ℕ := [55, 56, 57, 58, 59]

/-- **The rows kept for their description** can go: each stands inside a denied row of the shipped table. -/
theorem tightening_monotone_metadata : metadataRows.Forall fun i =>
    ∃ t, AddressTable.ofBlocks (Registry.table.take i ++ Registry.table.drop (i + 1)) = .ok t ∧
      ∀ a, t.Blocks a ↔ defaultDenied.Blocks a := by
  have hinside : ∀ i ∈ metadataRows, (Registry.table[i]?.bind fun row =>
      if row.reach = .denied then
        (LongestMatch.lookup (·.network.prefixlen) (fun (b : Block) n => b.network.holds n)
          (Registry.table.take i ++ Registry.table.drop (i + 1)) row.network).map (·.reach)
      else none) = some .denied := by decide +kernel
  refine List.forall_iff_forall_mem.mpr fun i hi => ?_
  obtain ⟨row, hrow, hlookup⟩ := Option.bind_eq_some_iff.mp (hinside i hi)
  split at hlookup
  · next hdenied =>
    obtain ⟨enclosing, henclosing, hreach⟩ := Option.map_eq_some_iff.mp hlookup
    obtain ⟨hlt, rfl⟩ := List.getElem?_eq_some_iff.mp hrow
    have hsplit : defaultDenied.blocks =
        Registry.table.take i ++ Registry.table[i] :: Registry.table.drop (i + 1) := by
      rw [← List.drop_eq_getElem_cons hlt, List.take_append_drop]
      rfl
    obtain ⟨t, hok, hsame⟩ := (tightening_monotone _ hdenied _ _).2 defaultDenied hsplit
    have hholding : t.Holding Registry.table[i].network enclosing := by
      rw [Holding, ofBlocks_eq_ok.mp hok]
      exact LongestMatch.lookup_eq_some.mp henclosing
    exact ⟨t, hok, hsame enclosing hholding hreach⟩
  · cases hlookup

end AddressTable

end SsrfGuard
