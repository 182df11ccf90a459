import SsrfGuard.Dns.ParseBounds

/-! # Where the name of an alias ends

`_read_records` follows an alias to the name that starts at the first byte of its data, and does not look
where that name ends. So the length a record declares for its data is never held against the name: the
two agree for every alias it follows exactly when each declares the length of the name at its data, and a
record that declares another length is followed like any other. -/

namespace SsrfGuard.Dns

variable (U : Unicode)

/-! ## The records the loop comes to -/

/-- A class `IN` alias of an accepted owner: what `_read_records` follows. -/
def ResourceRecord.IsAlias (accepted : List Str) (record : ResourceRecord) : Prop :=
  record.rclass = classIn ∧ record.owner ∈ accepted ∧ record.rtype = typeCname

/-- Where the data of a record starts. -/
def ResourceRecord.dataStart (record : ResourceRecord) : ℕ := record.offset - record.rdata.length

/-- The data of the record is the encoding of one name, from its first byte to its last. -/
def ResourceRecord.HoldsName (message : Bytes) (record : ResourceRecord) (labels : List Bytes) : Prop :=
  NameAt message record.dataStart labels record.offset

/-- The accepted owners once `_read_records` has dealt with a record. -/
def acceptedAfter (message : Bytes) (qtype : ℕ) (accepted : List Str) (record : ResourceRecord) :
    Except Exc (List Str) :=
  if record.rclass ≠ classIn ∨ record.owner ∉ accepted then .ok accepted
  else if record.rtype = typeCname then do
    let target ← targetOf U message record
    .ok (accepted.insert target)
  else if record.rtype = qtype then do
    let _ ← addressFrom record.rdata qtype
    .ok accepted
  else .ok accepted

/-- The loop of `_read_records`, from an offset and these accepted owners on, comes to a record with
those. -/
inductive ComesTo (message : Bytes) (qtype : ℕ) : ℕ → ℕ → List Str → List Str → ResourceRecord → Prop
  /-- The first record. -/
  | first {count offset : ℕ} {accepted : List Str} {record : ResourceRecord}
      (hrecord : readRecord U message offset = .ok record) :
      ComesTo message qtype (count + 1) offset accepted accepted record
  /-- A record after one that was dealt with. -/
  | later {count offset : ℕ} {accepted accepted' owners : List Str} {record record' : ResourceRecord}
      (hrecord : readRecord U message offset = .ok record)
      (haccepted : acceptedAfter U message qtype accepted record = .ok accepted')
      (rest : ComesTo message qtype count record.offset accepted' owners record') :
      ComesTo message qtype (count + 1) offset accepted owners record'

/-- `_parse` comes to the answer section of a message at an offset. -/
structure ReadsAnswers (message : Bytes) (txid : ℕ) (name : Str) (qtype offset : ℕ) : Prop where
  /-- There is a whole header. -/
  size : headerSize ≤ message.length
  /-- It carries the transaction id of the query. -/
  id : headerField message 0 = txid
  /-- The response bit is set. -/
  response : headerField message 1 &&& flagResponse ≠ 0
  /-- The question is the one that was asked, and ends here. -/
  question : checkQuestion U message (headerField message 2) name qtype = .ok offset
  /-- The server reports no error. -/
  noerror : headerField message 1 &&& rcodeMask = rcodeNoerror

variable {U} {message : Bytes} {qtype : ℕ}

/-- The data of a record is the part of the message from its start to the end of the record. -/
theorem rdata_of_readRecord {offset : ℕ} {record : ResourceRecord}
    (h : readRecord U message offset = .ok record) :
    record.dataStart + record.rdata.length = record.offset ∧
      record.rdata = slice message record.dataStart record.offset := by
  obtain ⟨⟨owner, stop⟩, -, h⟩ := Except.bind_eq_ok.mp h
  dsimp only at h
  split at h
  · cases h
  · obtain ⟨raw, -, h⟩ := Except.bind_eq_ok.mp h
    split at h
    · cases h
    · next hdata =>
      cases h
      dsimp only [ResourceRecord.dataStart]
      rw [length_slice (not_lt.mp hdata), Nat.add_sub_cancel_left, Nat.add_sub_cancel]
      exact ⟨rfl, rfl⟩

/-- One turn of the loop: it goes on from the owners accepted after the record. -/
theorem readRecordsFrom_of_acceptedAfter {count offset : ℕ} {accepted accepted' : List Str}
    {record : ResourceRecord} (hrecord : readRecord U message offset = .ok record)
    (haccepted : acceptedAfter U message qtype accepted record = .ok accepted') :
    ∃ keep : List Record → List Record, readRecordsFrom U message qtype (count + 1) offset accepted =
      (readRecordsFrom U message qtype count record.offset accepted').map keep := by
  rw [readRecordsFrom, hrecord]
  dsimp only [bind, Except.bind]
  unfold acceptedAfter at haccepted
  split at haccepted
  · next hskip =>
    -- another class, or an owner that is not accepted
    cases haccepted
    rw [if_pos hskip]
    exact ⟨id, (congrFun Except.map_id _).symm⟩
  · next hskip =>
    rw [if_neg hskip]
    split at haccepted
    · next hcname =>
      -- an alias adds an owner and no address
      obtain ⟨target, htarget, haccepted⟩ := Except.bind_eq_ok.mp haccepted
      cases haccepted
      rw [if_pos hcname, htarget]
      exact ⟨id, (congrFun Except.map_id _).symm⟩
    · next hcname =>
      rw [if_neg hcname]
      split at haccepted
      · next htype =>
        -- an address is kept in front of the rest
        obtain ⟨ip, hip, haccepted⟩ := Except.bind_eq_ok.mp haccepted
        cases haccepted
        rw [if_pos htype, hip]
        exact ⟨({ ip := ip, ttl := record.ttl } :: ·), rfl⟩
      · next htype =>
        cases haccepted
        rw [if_neg htype]
        exact ⟨id, (congrFun Except.map_id _).symm⟩

/-- An alias whose target cannot be read ends the loop. -/
theorem readRecordsFrom_of_targetOf_error {count offset : ℕ} {accepted : List Str}
    {record : ResourceRecord} {e : Exc} (hrecord : readRecord U message offset = .ok record)
    (halias : record.IsAlias accepted) (htarget : targetOf U message record = .error e) :
    readRecordsFrom U message qtype (count + 1) offset accepted = .error e := by
  obtain ⟨hclass, howner, htype⟩ := halias
  rw [readRecordsFrom, hrecord]
  dsimp only [bind, Except.bind]
  rw [if_neg (by simp [hclass, howner]), if_pos htype, htarget]

/-- What the loop raises on at a record it comes to, it raises. -/
theorem readRecordsFrom_of_comesTo {count offset : ℕ} {accepted owners : List Str}
    {record : ResourceRecord} {e : Exc} (h : ComesTo U message qtype count offset accepted owners record)
    (halias : record.IsAlias owners) (htarget : targetOf U message record = .error e) :
    readRecordsFrom U message qtype count offset accepted = .error e := by
  induction h with
  | first hrecord => exact readRecordsFrom_of_targetOf_error hrecord halias htarget
  | later hrecord haccepted _ ih =>
      obtain ⟨keep, hturn⟩ := readRecordsFrom_of_acceptedAfter hrecord haccepted
      rw [hturn, ih halias htarget]
      rfl

/-- From there on `_parse` reads the answer section, truncated or not. -/
theorem parse_of_readsAnswers {txid offset : ℕ} {name : Str}
    (h : ReadsAnswers U message txid name qtype offset) :
    parse U message txid name qtype =
      (readRecords U message offset (headerField message 3) name qtype).map fun records =>
        { records := records, truncated := decide (headerField message 1 &&& flagTruncated ≠ 0) } := by
  unfold parse
  rw [if_neg (not_lt.mpr h.size), unpackFrom_eq_ok (by simpa using h.size), Nat.zero_add]
  dsimp only [bind, Except.bind]
  have hid := h.id
  have hresponse := h.response
  have hquestion := h.question
  have hnoerror := h.noerror
  unfold headerField at hid hresponse hquestion hnoerror ⊢
  rw [if_neg (not_not.mpr hid), if_neg hresponse, hquestion]
  dsimp only
  rw [if_neg (by rw [hnoerror]; decide), if_neg (not_not.mpr hnoerror)]
  cases readRecords U message offset (bigEndian (slice (slice message 0 headerSize) (2 * 3) (2 * 3 + 2)))
      name qtype with
  | error e => rfl
  | ok records => rfl

/-! ## Which aliases are held to their length -/

/-- The target of a record is the text of a readable name at the start of its data. -/
theorem targetOf_eq_ok_iff {record : ResourceRecord} {target : Str} :
    targetOf U message record = .ok target ↔
      ∃ labels stop, Readable message record.dataStart labels stop ∧ target = lower U (dotted labels) := by
  constructor
  · intro h
    obtain ⟨⟨name, stop⟩, hdecode, h⟩ := Except.bind_eq_ok.mp h
    obtain ⟨labels, hread, rfl⟩ := decodeName_eq_ok_iff.mp hdecode
    cases h
    exact ⟨labels, stop, hread, rfl⟩
  · rintro ⟨labels, stop, hread, rfl⟩
    exact Except.bind_eq_ok.mpr ⟨_, decodeName_eq_ok_iff.mpr ⟨labels, hread, rfl⟩, rfl⟩

/-- A computation ends in `_MalformedError`. -/
def RaisesMalformed {α : Type} (x : Except Exc α) : Prop := ∃ e, x = .error e ∧ e.isMalformedError = true

/-- An alias is bounded by its length: the target that is added is a name that takes all of its data, and
data that is no such name ends the parse. -/
structure Bounded (U : Unicode) (message : Bytes) (offset count : ℕ) (name : Str) (qtype : ℕ)
    (record : ResourceRecord) : Prop where
  /-- What is added takes the data from its first byte to its last. -/
  added : ∀ target, targetOf U message record = .ok target →
    ∃ labels, record.HoldsName message labels ∧ target = lower U (dotted labels)
  /-- What does not is refused by `_read_records`. -/
  refused : (¬ ∃ labels, record.HoldsName message labels) →
    RaisesMalformed (readRecords U message offset count name qtype)
  /-- The parse that reads this section is refused with it. -/
  parse_refused : (¬ ∃ labels, record.HoldsName message labels) →
    ∀ txid, ReadsAnswers U message txid name qtype offset → count = headerField message 3 →
      RaisesMalformed (parse U message txid name qtype)

/-- A record declares the length of the name at its data, when a readable name stands there. -/
def ResourceRecord.Declares (message : Bytes) (record : ResourceRecord) : Prop :=
  ∀ labels stop, Readable message record.dataStart labels stop →
    record.rdata.length = stop - record.dataStart

/-- Every record the loop comes to was read off the message. -/
theorem ComesTo.exists_readRecord {count offset : ℕ} {accepted owners : List Str}
    {record : ResourceRecord} (h : ComesTo U message qtype count offset accepted owners record) :
    ∃ start, readRecord U message start = .ok record := by
  induction h with
  | first hrecord => exact ⟨_, hrecord⟩
  | later _ _ _ ih => exact ih

/-- What a record adds takes all of its data, when it declares the length of the name there. -/
theorem ResourceRecord.Declares.holdsName {start : ℕ} {record : ResourceRecord} {target : Str}
    (h : record.Declares message) (hrecord : readRecord U message start = .ok record)
    (htarget : targetOf U message record = .ok target) :
    ∃ labels, record.HoldsName message labels ∧ target = lower U (dotted labels) := by
  obtain ⟨labels, stop, hread, htext⟩ := targetOf_eq_ok_iff.mp htarget
  have hend := (rdata_of_readRecord hrecord).1
  have hlength := h labels stop hread
  have hname := hread.within.nameAt
  have hstop : stop = record.offset := by
    have := hname.bounds.1
    omega
  rw [hstop] at hname
  exact ⟨labels, hname, htext⟩

/-- An alias the loop comes to is bounded by its length, when what it adds takes all of its data: data that
is no name has no target, and the loop ends there. -/
theorem ComesTo.bounded {count offset : ℕ} {accepted : List Str} {name : Str} {record : ResourceRecord}
    (h : ComesTo U message qtype count offset [lower U name] accepted record) (halias : record.IsAlias accepted)
    (hadded : ∀ target, targetOf U message record = .ok target →
      ∃ labels, record.HoldsName message labels ∧ target = lower U (dotted labels)) :
    Bounded U message offset count name qtype record := by
  have hrefused : (¬ ∃ labels, record.HoldsName message labels) →
      RaisesMalformed (readRecords U message offset count name qtype) := by
    intro hnone
    cases htarget : targetOf U message record with
    | ok target =>
        obtain ⟨labels, hholds, -⟩ := hadded target htarget
        exact absurd ⟨labels, hholds⟩ hnone
    | error e =>
        exact ⟨e, readRecordsFrom_of_comesTo h halias htarget,
          (raisesOnly_targetOf message record e htarget).1⟩
  refine ⟨hadded, hrefused, ?_⟩
  intro hnone txid hreads hcount
  obtain ⟨e, hraise, hmalformed⟩ := hrefused hnone
  rw [hcount] at hraise
  exact ⟨e, by rw [parse_of_readsAnswers hreads, hraise]; rfl, hmalformed⟩

/-- The loop of `_read_records` holds every alias it comes to to its length exactly when each of them
declares the length of the name at its data, or no readable name stands there. -/
theorem readRecords_bounded_iff (U : Unicode) (message : Bytes) (offset count : ℕ) (name : Str)
    (qtype : ℕ) :
    (∀ accepted record, ComesTo U message qtype count offset [lower U name] accepted record →
      record.IsAlias accepted → Bounded U message offset count name qtype record) ↔
    ∀ accepted record, ComesTo U message qtype count offset [lower U name] accepted record →
      record.IsAlias accepted → record.Declares message := by
  refine forall_congr' fun accepted => forall_congr' fun record => ?_
  refine forall_congr' fun hcomes => forall_congr' fun halias => ?_
  obtain ⟨start, hrecord⟩ := hcomes.exists_readRecord
  constructor
  · intro hbounded labels stop hread
    -- the name that stands there is the one that was added
    obtain ⟨labels', hholds, -⟩ := hbounded.added _ (targetOf_eq_ok_iff.mpr ⟨labels, stop, hread, rfl⟩)
    obtain ⟨-, rfl⟩ := hread.within.nameAt.unique hholds
    have hend := (rdata_of_readRecord hrecord).1
    omega
  · intro hdeclares
    exact hcomes.bounded halias fun target htarget => hdeclares.holdsName hrecord htarget

/-- A response to `a`, type `A`, whose first record is an alias of `a` with no data at all. What is read
as its target is the owner of the next record, `b`. -/
def emptyAlias : Bytes :=
  [0x12, 0x34, 0x81, 0x80, 0, 1, 0, 2, 0, 0, 0, 0,
   1, 0x61, 0, 0, 1, 0, 1,
   0xC0, 0x0C, 0, 5, 0, 1, 0, 0, 0, 60, 0, 0,
   1, 0x62, 0, 0, 1, 0, 1, 0, 0, 0, 60, 0, 4, 10, 0, 0, 1]

/-- The alias, as it is read off that message. -/
def emptyAliasRecord : ResourceRecord :=
  { owner := text "a", rtype := typeCname, rclass := classIn, ttl := 60, rdata := [], offset := 31 }

/-- The address of `b` is accepted as an address of `a`, since the first bytes of its record were taken
for the target of the alias. -/
theorem readRecords_emptyAlias :
    parse Unicode.ascii emptyAlias 0x1234 (text "a") typeA =
      .ok { records := [{ ip := .v4 0x0A000001, ttl := 60 }], truncated := false } ∧
    ¬ ∀ accepted record,
      ComesTo Unicode.ascii emptyAlias typeA 2 19 [lower Unicode.ascii (text "a")] accepted record →
      record.IsAlias accepted → Bounded Unicode.ascii emptyAlias 19 2 (text "a") typeA record := by
  refine ⟨by decide +kernel, ?_⟩
  intro hall
  have hrecord : readRecord Unicode.ascii emptyAlias 19 = .ok emptyAliasRecord := by decide +kernel
  have howner : emptyAliasRecord.owner ∈ [lower Unicode.ascii (text "a")] := by decide +kernel
  have hbounded := hall _ _ (.first hrecord) ⟨rfl, howner, rfl⟩
  have hnone : ¬ ∃ labels, emptyAliasRecord.HoldsName emptyAlias labels := by
    rintro ⟨labels, hholds⟩
    exact absurd hholds.bounds.1 (by decide)
  obtain ⟨e, he, -⟩ := hbounded.refused hnone
  -- and yet the section is read
  have hread : readRecords Unicode.ascii emptyAlias 19 2 (text "a") typeA =
      .ok [{ ip := .v4 0x0A000001, ttl := 60 }] := by decide +kernel
  rw [hread] at he
  cases he

end SsrfGuard.Dns
