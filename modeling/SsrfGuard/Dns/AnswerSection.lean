import SsrfGuard.Dns.Message

/-! # What an answer section says

The addresses a well-formed answer section gives a name are those of the records whose owner the name
leads to through the aliases of the section, wherever in the section these stand. `_read_records` reads
the section once, so it finds an address only when the aliases that lead to it stand before it, in the
order they lead. -/

namespace SsrfGuard.Dns

/-! ## The section as a zone sees it -/

/-- What a resource record says about its owner. -/
inductive RData
  /-- The owner has this address, given by a record of this type. -/
  | address (rtype : ℕ) (ip : IPAddress)
  /-- The owner is another name for this one. -/
  | cname (target : Str)
  /-- Nothing that is asked for here. -/
  | other
  deriving DecidableEq

/-- A well-formed resource record. -/
structure Resource where
  /-- The owner name, folded to lower case. -/
  owner : Str
  /-- What it says. -/
  data : RData
  deriving DecidableEq

/-- The address the data holds, when the record is of the type asked for. -/
def RData.address? (qtype : ℕ) : RData → Option IPAddress
  | address rtype ip => if rtype = qtype then some ip else none
  | _ => none

/-- The name the data is an alias for. -/
def RData.target? : RData → Option Str
  | cname target => some target
  | _ => none

/-- The address a record gives its owner, when the record is of the type asked for. -/
def Resource.address (qtype : ℕ) (r : Resource) : Option IPAddress := r.data.address? qtype

/-- The alias a record makes of its owner. -/
def Resource.edge (r : Resource) : Option (Str × Str) := r.data.target?.map (r.owner, ·)

/-- The aliases of a section, in the order they stand. -/
def aliases (rs : List Resource) : List (Str × Str) := rs.filterMap (·.edge)

/-- A record gives an address asked for to a name that `asked` leads to. -/
def Resource.Answers (asked : Str) (qtype : ℕ) (rs : List Resource) (r : Resource) : Prop :=
  (r.address qtype).isSome ∧ Reach.Reachable (aliases rs) asked r.owner

open Classical in
/-- The addresses of a section for the name and the type asked for. -/
noncomputable def addressesOf (asked : Str) (qtype : ℕ) (rs : List Resource) : Multiset IPAddress :=
  ↑((rs.filter fun r => r.Answers asked qtype rs).filterMap (·.address qtype))

/-- Every record that answers stands after the aliases that lead to its owner, and these in the order
they lead. -/
def AliasesLead (asked : Str) (qtype : ℕ) (rs : List Resource) : Prop :=
  ∀ before r after, rs = before ++ r :: after → r.Answers asked qtype rs →
    Reach.InOrder (aliases before) asked r.owner

theorem RData.address?_self (rtype : ℕ) (ip : IPAddress) :
    (RData.address rtype ip).address? rtype = some ip := if_pos rfl

@[simp] theorem aliases_append (rs rs' : List Resource) :
    aliases (rs ++ rs') = aliases rs ++ aliases rs' := List.filterMap_append

theorem aliases_singleton (r : Resource) : aliases [r] = r.edge.toList := by
  cases h : r.edge with
  | none => simp [aliases, h]
  | some edge => simp [aliases, h]

theorem mem_addressesOf {asked : Str} {qtype : ℕ} {rs : List Resource} {ip : IPAddress} :
    ip ∈ addressesOf asked qtype rs ↔
      ∃ r ∈ rs, r.Answers asked qtype rs ∧ r.address qtype = some ip := by
  simp only [addressesOf, Multiset.mem_coe, List.mem_filterMap, List.mem_filter, decide_eq_true_eq,
    and_assoc]

/-- The addresses of a section do not depend on the order of its records. -/
theorem addressesOf_perm {asked : Str} {qtype : ℕ} {rs rs' : List Resource} (h : rs.Perm rs') :
    addressesOf asked qtype rs = addressesOf asked qtype rs' := by
  have hanswers : ∀ r : Resource, r.Answers asked qtype rs ↔ r.Answers asked qtype rs' := by
    intro r
    have hmem : ∀ e, e ∈ aliases rs ↔ e ∈ aliases rs' := fun e => (h.filterMap _).mem_iff
    rw [Resource.Answers, Resource.Answers, Reach.reachable_congr hmem]
  rw [addressesOf, addressesOf, Multiset.coe_eq_coe]
  classical
  have hfilter : (fun r : Resource => decide (r.Answers asked qtype rs)) =
      fun r => decide (r.Answers asked qtype rs') := by
    funext r
    exact decide_eq_decide.mpr (hanswers r)
  rw [hfilter]
  exact (h.filter _).filterMap _

/-! ## The section as a message carries it -/

variable (U : Unicode)

/-- What a record read off a message says, when it is well formed: an address of the length of its
type, an alias whose data is one encoded name. -/
def rdataOf (message : Bytes) (record : ResourceRecord) : Option RData :=
  if record.rclass ≠ classIn then some .other
  else if record.rtype = typeCname then
    match decodeName message (record.offset - record.rdata.length) with
    | .error _ => none
    | .ok (target, stop) => if stop = record.offset then some (.cname (lower U target)) else none
  else if record.rtype = typeA then
    if record.rdata.length = 4 then
      some (.address typeA (.v4 (BitVec.ofNat 32 (bigEndian record.rdata))))
    else none
  else if record.rtype = typeAaaa then
    if record.rdata.length = 16 then
      some (.address typeAaaa (.v6 (BitVec.ofNat 128 (bigEndian record.rdata)) none))
    else none
  else some .other

/-- The answer section of a message, when every one of its records is whole and well formed. -/
def answerSection (message : Bytes) : ℕ → ℕ → Option (List Resource)
  | _, 0 => some []
  | offset, count + 1 =>
    match readRecord U message offset with
    | .error _ => none
    | .ok record =>
      match rdataOf U message record, answerSection message record.offset count with
      | some data, some rs => some ({ owner := record.owner, data := data } :: rs)
      | _, _ => none

variable {U} {message : Bytes} {asked : Str} {qtype : ℕ}

/-- A record of the type asked for carries the address the reader takes from it. -/
theorem addressFrom_of_rdataOf {record : ResourceRecord} {data : RData}
    (hqtype : qtype = typeA ∨ qtype = typeAaaa) (hclass : record.rclass = classIn)
    (htype : record.rtype = qtype) (h : rdataOf U message record = some data) :
    ∃ ip, addressFrom record.rdata qtype = .ok ip ∧ data.address? qtype = some ip := by
  unfold rdataOf at h
  rw [if_neg (not_not.mpr hclass)] at h
  rcases hqtype with rfl | rfl
  · rw [htype, if_neg (by decide), if_pos rfl] at h
    split at h
    · next hlength =>
      cases h
      refine ⟨_, ?_, RData.address?_self _ _⟩
      simp [addressFrom, ipAddressOfBytes, hlength]
    · cases h
  · rw [htype, if_neg (by decide), if_neg (by decide), if_pos rfl] at h
    split at h
    · next hlength =>
      cases h
      refine ⟨_, ?_, RData.address?_self _ _⟩
      simp [addressFrom, ipAddressOfBytes, hlength, typeA, typeAaaa]
    · cases h

/-- A record of another class or type gives no address that is asked for. -/
theorem address?_of_rdataOf {record : ResourceRecord} {data : RData}
    (hother : record.rclass ≠ classIn ∨ record.rtype ≠ qtype)
    (h : rdataOf U message record = some data) : data.address? qtype = none := by
  unfold rdataOf at h
  split at h
  · cases h
    rfl
  · next hclass =>
    have htype : record.rtype ≠ qtype := hother.resolve_left hclass
    split_ifs at h with hcname ha hfour haaaa hsixteen
    · split at h
      · cases h
      · split_ifs at h
        cases h
        rfl
    · cases h
      exact if_neg (ha ▸ htype.symm ∘ Eq.symm)
    · cases h
      exact if_neg (haaaa ▸ htype.symm ∘ Eq.symm)
    · cases h
      rfl

/-- An alias points at the name the reader follows it to. -/
theorem targetOf_of_rdataOf {record : ResourceRecord} {data : RData} (hclass : record.rclass = classIn)
    (htype : record.rtype = typeCname) (h : rdataOf U message record = some data) :
    ∃ target, targetOf U message record = .ok target ∧ data.target? = some target := by
  unfold rdataOf at h
  rw [if_neg (not_not.mpr hclass), if_pos htype] at h
  split at h
  · cases h
  · next target stop hdecode =>
    split at h
    · cases h
      refine ⟨lower U target, ?_, rfl⟩
      rw [targetOf, hdecode]
      rfl
    · cases h

/-- A record of another class or type makes no alias. -/
theorem target?_of_rdataOf {record : ResourceRecord} {data : RData}
    (hother : record.rclass ≠ classIn ∨ record.rtype ≠ typeCname)
    (h : rdataOf U message record = some data) : data.target? = none := by
  unfold rdataOf at h
  split at h
  · cases h
    rfl
  · next hclass =>
    rw [if_neg (hother.resolve_left hclass)] at h
    split_ifs at h <;> cases h <;> rfl

/-! ## One pass over the section -/

/-- A record is admitted when the aliases before it lead to its owner. -/
def Resource.Admitted (asked : Str) (qtype : ℕ) (before : List Resource) (r : Resource) : Prop :=
  (r.address qtype).isSome ∧ Reach.InOrder (aliases before) asked r.owner

/-- An alias after the others lets the pass reach one more name, when it has reached its owner. -/
theorem inOrder_aliases_snoc {before : List Resource} {r : Resource} {x : Str} :
    Reach.InOrder (aliases (before ++ [r])) asked x ↔
      Reach.InOrder (aliases before) asked x ∨
        (Reach.InOrder (aliases before) asked r.owner ∧ r.data.target? = some x) := by
  rw [aliases_append, aliases_singleton, Resource.edge]
  cases r.data.target? with
  | none => simp
  | some target =>
      simp only [Option.map_some, Option.toList_some, Reach.InOrder.snoc_iff, Option.some.injEq]

/-- A record that makes no alias, or one whose owner is not reached, leaves what is reached alone. -/
theorem inOrder_aliases_snoc_of_not {before : List Resource} {r : Resource} {x : Str}
    (h : r.data.target? = none ∨ ¬ Reach.InOrder (aliases before) asked r.owner) :
    Reach.InOrder (aliases (before ++ [r])) asked x ↔ Reach.InOrder (aliases before) asked x := by
  rw [inOrder_aliases_snoc]
  constructor
  · rintro (hx | ⟨howner, htarget⟩)
    · exact hx
    · rcases h with hnone | hnot
      · rw [hnone] at htarget
        cases htarget
      · exact absurd howner hnot
  · exact .inl

/-- A record that is not of the type asked for, or of another class, is not admitted. -/
theorem not_admitted_of_rdataOf {record : ResourceRecord} {data : RData} {before : List Resource}
    {owner : Str} (hother : record.rclass ≠ classIn ∨ record.rtype ≠ qtype)
    (h : rdataOf U message record = some data) :
    ¬ Resource.Admitted asked qtype before { owner := owner, data := data } := by
  rintro ⟨haddress, -⟩
  rw [Resource.address, address?_of_rdataOf hother h] at haddress
  cases haddress

/-- One turn of the pass, over a well-formed record: it goes on from the names the aliases lead to by
then, and has kept the record's address when the record is admitted. -/
theorem readRecordsFrom_turn (hqtype : qtype = typeA ∨ qtype = typeAaaa) (count : ℕ) {offset : ℕ}
    {accepted : List Str} {before : List Resource} {record : ResourceRecord} {data : RData}
    (hrecord : readRecord U message offset = .ok record) (hdata : rdataOf U message record = some data)
    (haccepted : ∀ x, x ∈ accepted ↔ Reach.InOrder (aliases before) asked x) :
    ∃ accepted', (∀ x, x ∈ accepted' ↔ Reach.InOrder
        (aliases (before ++ [{ owner := record.owner, data := data }])) asked x) ∧
      (¬ Resource.Admitted asked qtype before { owner := record.owner, data := data } ∧
        readRecordsFrom U message qtype (count + 1) offset accepted =
          readRecordsFrom U message qtype count record.offset accepted' ∨
      Resource.Admitted asked qtype before { owner := record.owner, data := data } ∧
        ∃ ip, data.address? qtype = some ip ∧
          readRecordsFrom U message qtype (count + 1) offset accepted =
            (readRecordsFrom U message qtype count record.offset accepted').map
              ({ ip := ip, ttl := record.ttl } :: ·)) := by
  rw [readRecordsFrom, hrecord]
  dsimp only [bind, Except.bind]
  by_cases hskip : record.rclass ≠ classIn ∨ record.owner ∉ accepted
  · -- the record is skipped: another class, or an owner that is not reached
    refine ⟨accepted, fun x => ?_, .inl ⟨?_, if_pos hskip⟩⟩
    · rw [haccepted, inOrder_aliases_snoc_of_not]
      rcases hskip with hclass | howner
      · exact .inl (target?_of_rdataOf (.inl hclass) hdata)
      · exact .inr fun h => howner ((haccepted _).mpr h)
    · rcases hskip with hclass | howner
      · exact not_admitted_of_rdataOf (.inl hclass) hdata
      · exact fun h => howner ((haccepted _).mpr h.2)
  · rw [if_neg hskip]
    obtain ⟨hclass, howner⟩ : record.rclass = classIn ∧ record.owner ∈ accepted := by
      rwa [not_or, not_not, not_not] at hskip
    have hreached := (haccepted _).mp howner
    by_cases hcname : record.rtype = typeCname
    · -- an alias of an accepted owner: its target is accepted from here on
      rw [if_pos hcname]
      obtain ⟨target, htarget, halias⟩ := targetOf_of_rdataOf hclass hcname hdata
      refine ⟨accepted.insert target, fun x => ?_, .inl ⟨?_, by rw [htarget]⟩⟩
      · rw [List.mem_insert_iff, haccepted, inOrder_aliases_snoc, halias, Option.some.injEq, or_comm,
          eq_comm, and_iff_right hreached]
      · refine not_admitted_of_rdataOf (.inr ?_) hdata
        rw [hcname]
        rcases hqtype with rfl | rfl <;> decide
    · rw [if_neg hcname]
      refine ⟨accepted, fun x => ?_, ?_⟩
      · rw [haccepted, inOrder_aliases_snoc_of_not (.inl (target?_of_rdataOf (.inr hcname) hdata))]
      · by_cases htype : record.rtype = qtype
        · obtain ⟨ip, haddress, hip⟩ := addressFrom_of_rdataOf hqtype hclass htype hdata
          refine .inr ⟨⟨?_, hreached⟩, ip, hip, ?_⟩
          · rw [Resource.address, hip]
            rfl
          · rw [if_pos htype, haddress]
            rfl
        · exact .inl ⟨not_admitted_of_rdataOf (.inr htype) hdata, if_neg htype⟩

/-- The pass over a well-formed section returns the admitted addresses, in their order. -/
theorem readRecordsFrom_eq_ok (hqtype : qtype = typeA ∨ qtype = typeAaaa) {count offset : ℕ}
    {accepted : List Str} {before rs : List Resource}
    (hs : answerSection U message offset count = some rs)
    (haccepted : ∀ x, x ∈ accepted ↔ Reach.InOrder (aliases before) asked x) :
    ∃ out, readRecordsFrom U message qtype count offset accepted = .ok out ∧
      out.map Record.ip =
        (Reach.prefixFilter (Resource.Admitted asked qtype) before rs).filterMap (·.address qtype) := by
  induction count generalizing offset accepted before rs with
  | zero =>
      cases hs
      exact ⟨[], rfl, rfl⟩
  | succ count ih =>
      rw [answerSection] at hs
      split at hs
      · cases hs
      · next record hrecord =>
        split at hs
        · next data rs' hdata hrest =>
          cases hs
          obtain ⟨accepted', haccepted', hturn⟩ :=
            readRecordsFrom_turn hqtype count hrecord hdata haccepted
          obtain ⟨out, hout, hips⟩ := ih hrest haccepted'
          rcases hturn with ⟨hadmitted, hturn⟩ | ⟨hadmitted, ip, hip, hturn⟩
          · rw [hturn, Reach.prefixFilter_cons_of_neg hadmitted]
            exact ⟨out, hout, hips⟩
          · rw [hturn, hout, Reach.prefixFilter_cons_of_pos hadmitted]
            refine ⟨_, rfl, ?_⟩
            rw [List.map_cons, hips, List.filterMap_cons]
            simp only [Resource.address, hip]
        · cases hs

/-- What `_read_records` returns for a well-formed section. -/
theorem readRecords_eq_ok {offset count : ℕ} {name : Str} {rs : List Resource}
    (hqtype : qtype = typeA ∨ qtype = typeAaaa) (hs : answerSection U message offset count = some rs) :
    ∃ out, readRecords U message offset count name qtype = .ok out ∧
      out.map Record.ip = (Reach.prefixFilter (Resource.Admitted (lower U name) qtype) [] rs).filterMap
        (·.address qtype) := by
  refine readRecordsFrom_eq_ok hqtype hs fun x => ?_
  rw [List.mem_singleton]
  exact eq_comm.trans Reach.InOrder.nil_iff.symm

/-- A selection of records that all carry an address has as many addresses. -/
theorem length_filterMap_address {l : List Resource} (h : ∀ r ∈ l, (r.address qtype).isSome) :
    (l.filterMap (·.address qtype)).length = l.length := by
  induction l with
  | nil => rfl
  | cons r l ih =>
      obtain ⟨ip, hip⟩ := Option.isSome_iff_exists.mp (h r List.mem_cons_self)
      rw [List.filterMap_cons_some hip, List.length_cons, List.length_cons,
        ih fun r' hr' => h r' (List.mem_cons_of_mem _ hr')]

/-- What is admitted in a section answers in it. -/
theorem Resource.Admitted.answers {before after : List Resource} {r : Resource}
    (h : r.Admitted asked qtype before) : r.Answers asked qtype (before ++ r :: after) := by
  refine ⟨h.1, h.2.reachable.mono fun e he => ?_⟩
  rw [aliases_append]
  exact List.mem_append_left _ he

/-- The admitted addresses are all the addresses of the section exactly when its aliases lead. -/
theorem admitted_eq_addressesOf_iff {rs : List Resource} :
    (((Reach.prefixFilter (Resource.Admitted asked qtype) [] rs).filterMap (·.address qtype) :
        List IPAddress) : Multiset IPAddress) = addressesOf asked qtype rs ↔
      AliasesLead asked qtype rs := by
  classical
  have hadmits : ∀ before r after, rs = before ++ r :: after →
      Resource.Admitted asked qtype ([] ++ before) r → r.Answers asked qtype rs := by
    rintro before r after rfl h
    exact h.answers
  have hsub := Reach.prefixFilter_sublist_filter hadmits
  have hiff := Reach.prefixFilter_eq_filter_iff hadmits
  constructor
  · intro h
    -- as many addresses, so as many records, so the same records
    have hlength := (Multiset.coe_eq_coe.mp h).length_eq
    rw [length_filterMap_address fun r hr => (Reach.of_mem_prefixFilter hr).choose_spec.1,
      length_filterMap_address fun r hr =>
        (of_decide_eq_true (List.mem_filter.mp hr).2 : r.Answers asked qtype rs).1] at hlength
    have heq := hsub.eq_of_length hlength
    exact fun before r after hsplit hr => (hiff.mp heq before r after hsplit hr).2
  · intro h
    have heq := hiff.mpr fun before r after hsplit hr => ⟨hr.1, h before r after hsplit hr⟩
    rw [heq, addressesOf]

/-- For every well-formed answer section, `_read_records` returns the addresses of the section exactly
when its aliases lead, and it returns the same for every order of the records in which they do. -/
theorem readRecords_eq_addressesOf_iff {offset count : ℕ} {name : Str} {rs : List Resource}
    (hqtype : qtype = typeA ∨ qtype = typeAaaa) (hs : answerSection U message offset count = some rs) :
    (∃ out, readRecords U message offset count name qtype = .ok out ∧
      (((out.map Record.ip : List IPAddress) : Multiset IPAddress) =
        addressesOf (lower U name) qtype rs ↔ AliasesLead (lower U name) qtype rs)) ∧
    ∀ message' offset' count' rs', answerSection U message' offset' count' = some rs' →
      rs'.Perm rs → AliasesLead (lower U name) qtype rs' →
      ∃ out', readRecords U message' offset' count' name qtype = .ok out' ∧
        ((out'.map Record.ip : List IPAddress) : Multiset IPAddress) =
          addressesOf (lower U name) qtype rs := by
  constructor
  · obtain ⟨out, hout, hips⟩ := readRecords_eq_ok hqtype hs
    refine ⟨out, hout, ?_⟩
    rw [hips]
    exact admitted_eq_addressesOf_iff
  · intro message' offset' count' rs' hs' hperm hlead
    obtain ⟨out', hout', hips'⟩ := readRecords_eq_ok hqtype hs'
    refine ⟨out', hout', ?_⟩
    rw [hips', admitted_eq_addressesOf_iff.mpr hlead]
    exact addressesOf_perm hperm

/-- A response to `a`, type `A`, whose answer section holds the alias `a` for `b` and then the address
of `b`. -/
def aliasFirst : Bytes :=
  [0x12, 0x34, 0x81, 0x80, 0, 1, 0, 2, 0, 0, 0, 0,
   1, 0x61, 0, 0, 1, 0, 1,
   0xC0, 0x0C, 0, 5, 0, 1, 0, 0, 0, 60, 0, 3, 1, 0x62, 0,
   1, 0x62, 0, 0, 1, 0, 1, 0, 0, 0, 60, 0, 4, 10, 0, 0, 1]

/-- The same response with the two records the other way round. -/
def addressFirst : Bytes :=
  [0x12, 0x34, 0x81, 0x80, 0, 1, 0, 2, 0, 0, 0, 0,
   1, 0x61, 0, 0, 1, 0, 1,
   1, 0x62, 0, 0, 1, 0, 1, 0, 0, 0, 60, 0, 4, 10, 0, 0, 1,
   0xC0, 0x0C, 0, 5, 0, 1, 0, 0, 0, 60, 0, 3, 1, 0x62, 0]

/-- What both responses say. -/
def aliasedSection : List Resource :=
  [{ owner := text "a", data := .cname (text "b") },
   { owner := text "b", data := .address typeA (.v4 0x0A000001) }]

theorem answerSection_aliasFirst :
    answerSection Unicode.ascii aliasFirst 19 2 = some aliasedSection := by
  decide +kernel

theorem aliasesLead_aliasedSection : AliasesLead (text "a") typeA aliasedSection := by
  intro before r after hsplit hr
  rcases before with _ | ⟨first, _ | ⟨second, before⟩⟩
  · -- the alias itself gives no address
    cases hsplit
    exact absurd hr.1 (by decide)
  · cases hsplit
    exact .take (.refl _)
  · simp [aliasedSection] at hsplit

/-- With the alias first the address is found. -/
theorem readRecords_aliasFirst :
    ∃ out, readRecords Unicode.ascii aliasFirst 19 2 (text "a") typeA = .ok out ∧
      ((out.map Record.ip : List IPAddress) : Multiset IPAddress) =
        addressesOf (lower Unicode.ascii (text "a")) typeA aliasedSection := by
  obtain ⟨out, hout, hiff⟩ := (readRecords_eq_addressesOf_iff (.inl rfl) answerSection_aliasFirst).1
  exact ⟨out, hout, hiff.mpr aliasesLead_aliasedSection⟩

/-- With the address first it is lost: the section says that `a` has an address, and the response parses
to none. -/
theorem readRecords_addressFirst :
    parse Unicode.ascii addressFirst 0x1234 (text "a") typeA = .ok { records := [], truncated := false } ∧
      readRecords Unicode.ascii addressFirst 19 2 (text "a") typeA = .ok [] ∧
      answerSection Unicode.ascii addressFirst 19 2 = some aliasedSection.reverse ∧
      ¬ ∃ out, readRecords Unicode.ascii addressFirst 19 2 (text "a") typeA = .ok out ∧
        ((out.map Record.ip : List IPAddress) : Multiset IPAddress) =
          addressesOf (lower Unicode.ascii (text "a")) typeA aliasedSection.reverse := by
  have hnone : readRecords Unicode.ascii addressFirst 19 2 (text "a") typeA = .ok [] := by
    decide +kernel
  refine ⟨by decide +kernel, hnone, by decide +kernel, ?_⟩
  rintro ⟨out, hout, hips⟩
  rw [hnone] at hout
  cases hout
  have hmem : IPAddress.v4 0x0A000001 ∈
      addressesOf (lower Unicode.ascii (text "a")) typeA aliasedSection.reverse := by
    refine mem_addressesOf.mpr ⟨_, List.mem_cons_self, ⟨rfl, .single ?_⟩, rfl⟩
    exact List.mem_singleton.mpr rfl
  rw [← hips] at hmem
  exact absurd hmem (Multiset.notMem_zero _)

end SsrfGuard.Dns
