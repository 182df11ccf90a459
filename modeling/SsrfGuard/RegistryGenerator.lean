import SsrfGuard.Library.Raises
import SsrfGuard.Registry
import Mathlib.Data.List.Lex
import Mathlib.Data.List.Sort

/-! # The generator of the table

The rows of a registry become rows of the table: each address block is cleaned, parsed and given a verdict. What
the parser makes of a block is thrown away, and a translated prefix is told by its text. The fetch and the CSV reader
are left out. -/

namespace SsrfGuard.RegistryGenerator

/-! ## The two patterns -/

variable (U : Unicode)

/-- The digits a text starts with: `\d*`. -/
def digits (s : Str) : Str := s.takeWhile fun c => (digitValue U c).isSome

/-- `RFC\s?(\d+)` at the start of a text: the group, and how long the match is. -/
def matchRfc (s : Str) : Option (Str × ℕ) :=
  if (text "RFC").isPrefixOf s then
    let rest := s.drop 3
    let spaces := if rest.head?.any isSpace then 1 else 0
    let number := digits U (rest.drop spaces)
    if number = [] then none else some (number, 3 + spaces + number.length)
  else none

/-- `\s*\[\d+\]` at the start of a text: how long the match is. -/
def matchFootnote (s : Str) : Option ℕ :=
  let spaces := s.takeWhile isSpace
  match s.drop spaces.length with
  | [] => none
  | c :: rest =>
    if c = ord '[' then
      let number := digits U rest
      if number ≠ [] ∧ (rest.drop number.length).head? = some (ord ']') then
        some (spaces.length + 1 + number.length + 1)
      else none
    else none

/-- `re.findall(r"RFC\s?(\d+)", s)`, from where `skip` code points are part of the last match. -/
def findRfcs (skip : ℕ) : Str → List Str
  | [] => []
  | c :: s =>
    match skip with
    | skip + 1 => findRfcs skip s
    | 0 =>
      match matchRfc U (c :: s) with
      -- the match starts at `c`, so the rest of it is one shorter
      | some (number, length) => number :: findRfcs (length - 1) s
      | none => findRfcs 0 s

/-- `re.sub(r"\s*\[\d+\]", "", s)`, from where `skip` code points are part of the last match. -/
def removeFootnotes (skip : ℕ) : Str → Str
  | [] => []
  | c :: s =>
    match skip with
    | skip + 1 => removeFootnotes skip s
    | 0 =>
      match matchFootnote U (c :: s) with
      | some length => removeFootnotes (length - 1) s
      | none => c :: removeFootnotes 0 s

/-! ## The generator -/

/-- One row of a registry: the cells the generator reads. -/
structure Row where
  /-- `row["Address Block"]`. -/
  addressBlock : Str
  /-- `row["Name"]`. -/
  name : Str
  /-- `row["RFC"]`. -/
  rfc : Str
  /-- `row["Termination Date"]`. -/
  terminationDate : Str
  /-- `row["Globally Reachable"]`. -/
  globallyReachable : Str

/-- One generated row of the table. -/
structure Entry where
  /-- The address block, as it is spelled. -/
  cidr : Str
  /-- Its name. -/
  name : Str
  /-- What defines it. -/
  rfc : Str
  /-- The verdict. -/
  reach : Reach
  /-- Why the verdict departs from the registry. -/
  note : Str
  deriving DecidableEq

/-- `TRANSLATED_PREFIXES`: the prefixes that carry an IPv4 destination, and why each departs from the registry. -/
def translatedPrefixes : List (Str × Str) :=
    [ (text "::ffff:0:0/96",
        text "IANA marks this not globally reachable, which read literally is a flat refusal. That would " ++
        text "be a wrong deny: ::ffff:8.8.8.8 reaches 8.8.8.8, and getaddrinfo returns mapped addresses " ++
        text "wherever AI_V4MAPPED is in play. Decoding is both safer and more permissive than the " ++
        text "registry here, which is unusual and worth the note."),
      (text "64:ff9b::/96",
        text "IANA marks this globally reachable and is right about routing: the prefix is public. We " ++
        text "decode anyway, because the question here is not whether the address is routable but where " ++
        text "the packet ends up, and 64:ff9b::7f00:1 ends up at 127.0.0.1. This is the single most " ++
        text "important departure in the table; a guard that trusts is_global permits it."),
      (text "2002::/16",
        text "IANA answers N/A precisely because reachability depends on the embedded address. 6to4 is " ++
        text "deprecated for its relay anycast (RFC 7526) but the prefix still carries an IPv4 " ++
        text "destination in bits 16 to 48, so 2002:7f00:1:: reaches 127.0.0.1."),
      (text "2001::/32",
        text "IANA answers N/A for the same reason as 6to4. Teredo carries two IPv4 addresses: the server " ++
        text "in bits 32 to 64 and the client, bit-inverted, in the low 32 (RFC 4380 section 4). Either " ++
        text "being internal is disqualifying, so both are decoded.") ]

/-- `RENAMES`. -/
def renames : List (Str × Str) := [(text "IPv4-IPv6 Translat.", text "IPv4-IPv6 Translation")]

/-- What two cells of a row say about its blocks. -/
def cellsVerdict (terminationDate globallyReachable : Str) : Reach × Str :=
  if strip terminationDate ∉ [text "N/A", []] then
    (.denied, text "Deprecated allocation; IANA stopped asserting reachability for it.")
  else
    let reachable := strip globallyReachable
    if reachable = [] then
      (.denied, text "Registry asserts nothing for this block; refused rather than assumed.")
    else if (text "True").isPrefixOf reachable then (.permitted, [])
    else (.denied, [])

/-- `_verdict`: map one registry row to a verdict, for one of its blocks. -/
def verdict (row : Row) (cidr : Str) : Reach × Str :=
  match translatedPrefixes.lookup cidr with
  -- the key is the text of the block, not the network it names
  | some note => (.translated, note)
  | none => cellsVerdict row.terminationDate row.globallyReachable

/-- The references of a row, one spelling for each. -/
def rfcsOf (row : Row) : Str :=
  join (text ", ") (((findRfcs U 0 row.rfc).map fun n => text "RFC" ++ n).dedup.insertionSort (· ≤ ·))

/-- The name of a row, without quotes and with single blanks. -/
def nameOf (row : Row) : Str :=
  let name := join (text " ") (((row.name.filter (· ≠ ord '"')).splitOnP isSpace).filter (· ≠ []))
  (renames.lookup name).getD name

/-- The blocks of a row, split and cleaned. -/
def cidrsOf (row : Row) : List Str :=
  ((split ',' row.addressBlock).map fun raw => strip (removeFootnotes U 0 raw)).filter (· ≠ [])

/-- The blocks of a registry, each with its row. -/
def blocks (registry : List Row) : List (Row × Str) :=
  registry.flatMap fun row => (cidrsOf U row).map (row, ·)

/-- The body of the inner loop of `_rows`: parse a block, and emit it. -/
def transcribe (version : ℕ) (row : Row) (cidr : Str) : Except Exc Entry :=
  match ipNetwork U cidr with
  | .error bad =>
    .error (.baseException (text "IPv" ++ natText version ++ text " registry row " ++ repr U row.name ++
      text " has an address block this generator cannot parse: " ++ repr U cidr ++ text " (" ++ bad.str U ++
      text "). Read the registry before widening this, because the block is going into a table that decides " ++
      text "what gets refused."))
  | .ok _ =>
    -- the network is not kept
    let (reach, note) := verdict row cidr
    .ok { cidr := cidr, name := nameOf row, rfc := rfcsOf U row, reach := reach, note := note }

/-- `_rows`: transcribe one registry. -/
def rows (version : ℕ) (registry : List Row) : Except Exc (List Entry) :=
  (blocks U registry).mapM fun block => transcribe U version block.1 block.2

variable {U} {version : ℕ} {registry : List Row} {entries : List Entry}

/-- What the generator makes of a block it does not stop at. -/
theorem transcribe_eq_ok {row : Row} {cidr : Str} {entry : Entry} (h : transcribe U version row cidr = .ok entry) :
    (∃ n, ipNetwork U cidr = .ok n) ∧ entry.cidr = cidr ∧ (entry.reach, entry.note) = verdict row cidr := by
  unfold transcribe at h
  split at h
  · cases h
  · next n hn =>
    cases h
    exact ⟨⟨n, hn⟩, rfl, rfl⟩

/-! ## Deciding by the network -/

/-- The networks that carry an IPv4 destination. -/
def translatedNetworks : List IPNetwork := translatedPrefixes.filterMap fun p => parseNetwork p.1

/-- The verdict on a network, from the two cells of its row. -/
def networkVerdict (n : IPNetwork) (terminationDate globallyReachable : Str) : Reach × Str :=
  match translatedPrefixes.find? fun p => parseNetwork p.1 = some n with
  | some p => (.translated, p.2)
  | none => cellsVerdict terminationDate globallyReachable

theorem mem_translatedNetworks {n : IPNetwork} :
    n ∈ translatedNetworks ↔ ∃ p ∈ translatedPrefixes, parseNetwork p.1 = some n := by
  rw [translatedNetworks, List.mem_filterMap]

theorem networkVerdict_of_mem {n : IPNetwork} (h : n ∈ translatedNetworks) (terminationDate globallyReachable : Str) :
    (networkVerdict n terminationDate globallyReachable).1 = .translated := by
  obtain ⟨p, hp, hn⟩ := mem_translatedNetworks.mp h
  unfold networkVerdict
  split
  · rfl
  · next hnone => exact absurd (decide_eq_true hn) (List.find?_eq_none.mp hnone p hp)

theorem networkVerdict_of_not_mem {n : IPNetwork} (h : n ∉ translatedNetworks)
    (terminationDate globallyReachable : Str) :
    networkVerdict n terminationDate globallyReachable = cellsVerdict terminationDate globallyReachable := by
  unfold networkVerdict
  split
  · next p hp =>
    have hn := List.find?_some hp
    rw [decide_eq_true_eq] at hn
    exact absurd (mem_translatedNetworks.mpr ⟨p, List.mem_of_find?_eq_some hp, hn⟩) h
  · rfl

/-- The prefixes parse to different networks, so that the network tells which note is meant. -/
theorem find?_translatedPrefixes :
    ∀ p ∈ translatedPrefixes, ∃ n, parseNetwork p.1 = some n ∧
      translatedPrefixes.find? (fun q => parseNetwork q.1 = some n) = some p := by
  have hparse : ∀ p ∈ translatedPrefixes, (parseNetwork p.1).isSome = true := by decide +kernel
  have hnodup : (translatedPrefixes.map fun p => parseNetwork p.1).Nodup := by decide +kernel
  intro p hp
  obtain ⟨n, hn⟩ := Option.isSome_iff_exists.mp (hparse p hp)
  have hfound : (translatedPrefixes.find? fun q => parseNetwork q.1 = some n).isSome = true :=
    List.find?_isSome.mpr ⟨p, hp, decide_eq_true hn⟩
  obtain ⟨q, hq⟩ := Option.isSome_iff_exists.mp hfound
  have hqn := List.find?_some hq
  rw [decide_eq_true_eq] at hqn
  refine ⟨n, hn, hq.trans (congrArg some ?_)⟩
  exact List.inj_on_of_nodup_map hnodup (List.mem_of_find?_eq_some hq) hp (hqn.trans hn.symm)

/-- A block is spelled as the prefix is that it names, if it names one. -/
def SpelledAsPrefix (U : Unicode) (cidr : Str) : Prop :=
  ∀ n ∈ translatedNetworks, ipNetwork U cidr = .ok n → cidr ∈ translatedPrefixes.map Prod.fst

theorem verdict_of_spelled {row : Row} {cidr : Str} {n : IPNetwork} (hn : ipNetwork U cidr = .ok n)
    (h : SpelledAsPrefix U cidr) :
    verdict row cidr = networkVerdict n row.terminationDate row.globallyReachable := by
  have hparse := ipNetwork_eq_ok.mp hn
  unfold verdict
  split
  · next note hlookup =>
    have hmem : (cidr, note) ∈ translatedPrefixes := by
      obtain ⟨before, after, heq, -⟩ := List.lookup_eq_some_iff.mp hlookup
      rw [heq]
      exact List.mem_append_right _ List.mem_cons_self
    obtain ⟨m, hm, hfound⟩ := find?_translatedPrefixes _ hmem
    rw [hparse] at hm
    cases hm
    rw [networkVerdict, hfound]
  · next hlookup =>
    -- no key has this text, so by the spelling no translated prefix has this network
    refine (networkVerdict_of_not_mem (fun htranslated => ?_) _ _).symm
    obtain ⟨p, hp, hkey⟩ := List.mem_map.mp (h n htranslated hn)
    have hne := List.lookup_eq_none_iff.mp hlookup p hp
    rw [hkey, bne_self_eq_false] at hne
    cases hne

/-- What is marked translated is spelled as a prefix. -/
theorem mem_of_verdict_translated {row : Row} {cidr : Str} (h : (verdict row cidr).1 = .translated) :
    cidr ∈ translatedPrefixes.map Prod.fst := by
  unfold verdict at h
  split at h
  · next note hlookup =>
    obtain ⟨before, after, heq, -⟩ := List.lookup_eq_some_iff.mp hlookup
    rw [heq, List.map_append, List.map_cons]
    exact List.mem_append_right _ List.mem_cons_self
  · unfold cellsVerdict at h
    split at h
    · cases h
    · dsimp only at h
      split at h
      · cases h
      · split at h
        · cases h
        · cases h

/-- The verdict of an entry is the one that is decided from the network of its block and the cells of its row. -/
def DecidedBy (U : Unicode) (decided : IPNetwork → Str → Str → Reach × Str) (block : Row × Str) (entry : Entry) :
    Prop :=
  entry.cidr = block.2 ∧ ∃ n, ipNetwork U block.2 = .ok n ∧
    (entry.reach, entry.note) = decided n block.1.terminationDate block.1.globallyReachable

/-- The generated verdicts depend on nothing of a block but the network it names, and on nothing of its row but
two cells; a translated prefix is marked so. -/
def DecidesByNetwork (U : Unicode) (registry : List Row) (entries : List Entry) : Prop :=
  ∃ decided : IPNetwork → Str → Str → Reach × Str,
    (∀ n ∈ translatedNetworks, ∀ terminationDate globallyReachable,
      (decided n terminationDate globallyReachable).1 = .translated) ∧
    List.Forall₂ (DecidedBy U decided) (blocks U registry) entries

theorem spelledAsPrefix_of_decidedBy {decided : IPNetwork → Str → Str → Reach × Str}
    (htranslated : ∀ n ∈ translatedNetworks, ∀ terminationDate globallyReachable,
      (decided n terminationDate globallyReachable).1 = .translated)
    {registered : List (Row × Str)}
    (hrows : List.Forall₂ (fun block entry => transcribe U version block.1 block.2 = .ok entry) registered entries)
    (hdecided : List.Forall₂ (DecidedBy U decided) registered entries) :
    ∀ block ∈ registered, SpelledAsPrefix U block.2 := by
  induction hrows with
  | nil => exact List.forall_mem_nil _
  | @cons block entry registered entries hentry _ ih =>
      obtain ⟨⟨-, m, hm, hverdict⟩, hrest⟩ := List.forall₂_cons.mp hdecided
      -- what is decided from a translated network is `translated`, and only a key of the table is marked so
      refine List.forall_mem_cons.mpr ⟨fun n hn hparsed => ?_, ih hrest⟩
      rw [hparsed] at hm
      cases hm
      obtain ⟨-, -, htranscribed⟩ := transcribe_eq_ok hentry
      refine @mem_of_verdict_translated block.1 _ ?_
      rw [← htranscribed, hverdict]
      exact htranslated _ hn _ _

/-- **The verdicts of the generator** depend on the network of a block and two cells of its row exactly where
every block that names a translated prefix is spelled as the generator spells it. -/
theorem decidesByNetwork_iff (h : rows U version registry = .ok entries) :
    DecidesByNetwork U registry entries ↔ ∀ block ∈ blocks U registry, SpelledAsPrefix U block.2 := by
  have hrows := Except.mapM_eq_ok.mp h
  constructor
  · rintro ⟨decided, htranslated, hdecided⟩
    exact spelledAsPrefix_of_decidedBy htranslated hrows hdecided
  · intro hspelled
    refine ⟨networkVerdict, fun n hn => networkVerdict_of_mem hn, ?_⟩
    refine ((List.forall₂_and_left _ _).mpr ⟨hspelled, hrows⟩).imp fun block entry hblock => ?_
    obtain ⟨hspelled, hentry⟩ := hblock
    obtain ⟨⟨n, hn⟩, hcidr, hverdict⟩ := transcribe_eq_ok hentry
    exact ⟨hcidr, n, hn, hverdict.trans (verdict_of_spelled hn hspelled)⟩

/-- Rows as the registries have them, with two blocks in a cell and a footnote. -/
def sampleRegistry : List Row :=
  [ ⟨text "2001::/32", text "TEREDO", text "[RFC4380]\n[RFC8190]", text "N/A", text "N/A [2]"⟩,
    ⟨text "192.0.0.170/32, 192.0.0.171/32 [3]", text "NAT64/DNS64 Discovery",
      text "[RFC 8880][RFC7050, Section 2.2]", text "N/A", text "False"⟩,
    ⟨text "192.52.193.0/24", text "AMT", text "[RFC7450]", text "N/A", text "True"⟩ ]

/-- What is generated from them. -/
def sampleEntries : List Entry :=
  [ ⟨text "2001::/32", text "TEREDO", text "RFC4380, RFC8190", .translated,
      (verdict ⟨[], [], [], [], []⟩ (text "2001::/32")).2⟩,
    ⟨text "192.0.0.170/32", text "NAT64/DNS64 Discovery", text "RFC7050, RFC8880", .denied, []⟩,
    ⟨text "192.0.0.171/32", text "NAT64/DNS64 Discovery", text "RFC7050, RFC8880", .denied, []⟩,
    ⟨text "192.52.193.0/24", text "AMT", text "RFC7450", .permitted, []⟩ ]

theorem decidesByNetwork_sampleEntries :
    rows Unicode.ascii 6 sampleRegistry = .ok sampleEntries ∧
      DecidesByNetwork Unicode.ascii sampleRegistry sampleEntries := by
  have hrows : rows Unicode.ascii 6 sampleRegistry = .ok sampleEntries := by decide +kernel
  refine ⟨hrows, (decidesByNetwork_iff hrows).mpr ?_⟩
  have hspelled : ∀ block ∈ blocks Unicode.ascii sampleRegistry, ∀ n ∈ translatedNetworks,
      ipNetwork Unicode.ascii block.2 = .ok n → block.2 ∈ translatedPrefixes.map Prod.fst := by decide +kernel
  exact hspelled

/-- The NAT64 prefix in capitals. -/
def capitalRow : Row :=
  ⟨text "64:FF9B::/96", text "IPv4-IPv6 Translat.", text "[RFC6052]", text "N/A", text "True"⟩

/-- A translated prefix in another spelling is permitted. -/
theorem rows_capitals :
    rows Unicode.ascii 6 [capitalRow] =
      .ok [⟨text "64:FF9B::/96", text "IPv4-IPv6 Translation", text "RFC6052", .permitted, []⟩] ∧
    ipNetwork Unicode.ascii (text "64:FF9B::/96") = ipNetwork Unicode.ascii (text "64:ff9b::/96") ∧
    ¬ DecidesByNetwork Unicode.ascii [capitalRow]
      [⟨text "64:FF9B::/96", text "IPv4-IPv6 Translation", text "RFC6052", .permitted, []⟩] := by
  have hrows : rows Unicode.ascii 6 [capitalRow] =
      .ok [⟨text "64:FF9B::/96", text "IPv4-IPv6 Translation", text "RFC6052", .permitted, []⟩] := by decide +kernel
  refine ⟨hrows, by decide +kernel, ?_⟩
  rintro ⟨decided, htranslated, hdecided⟩
  have hspelled := spelledAsPrefix_of_decidedBy htranslated (Except.mapM_eq_ok.mp hrows) hdecided
  have hunspelled : ∃ block ∈ blocks Unicode.ascii [capitalRow], ∃ n ∈ translatedNetworks,
      ipNetwork Unicode.ascii block.2 = .ok n ∧ block.2 ∉ translatedPrefixes.map Prod.fst := by decide +kernel
  obtain ⟨block, hblock, n, hn, hparsed, hnot⟩ := hunspelled
  exact hnot (hspelled block hblock n hn hparsed)

end SsrfGuard.RegistryGenerator
