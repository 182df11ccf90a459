import SsrfGuard.Dns.Name
import SsrfGuard.Library.Reach
import Mathlib.Data.Multiset.Filter

/-! # Reading a response

`_parse` and what it calls: a response is matched against the question that was asked, and then the
answer section is read in one pass, which accepts a record when its owner is the name asked for or a
name an accepted `CNAME` has pointed at. -/

namespace SsrfGuard.Dns

variable (U : Unicode)

/-- `_TYPE_A`. -/
def typeA : ℕ := 1

/-- `_TYPE_CNAME`. -/
def typeCname : ℕ := 5

/-- `_TYPE_AAAA`. -/
def typeAaaa : ℕ := 28

/-- `_CLASS_IN`. -/
def classIn : ℕ := 1

/-- `_HEADER.size`. -/
def headerSize : ℕ := 12

/-- `_RECORD.size`. -/
def recordSize : ℕ := 10

/-- `_FLAG_RESPONSE`. -/
def flagResponse : ℕ := 0x8000

/-- `_FLAG_TRUNCATED`. -/
def flagTruncated : ℕ := 0x0200

/-- `_RCODE_MASK`. -/
def rcodeMask : ℕ := 0x000F

/-- `_RCODE_NOERROR`. -/
def rcodeNoerror : ℕ := 0

/-- `_RCODE_NXDOMAIN`. -/
def rcodeNxdomain : ℕ := 3

/-- `Record`: one address record, with its lifetime. -/
structure Record where
  /-- The address. -/
  ip : IPAddress
  /-- Seconds the zone says it may be cached. -/
  ttl : ℕ
  deriving DecidableEq

/-- `_Answer`: one parsed response. -/
structure Answer where
  /-- Every address record it carried for the question asked. -/
  records : List Record
  /-- Whether the server set `TC`. -/
  truncated : Bool
  deriving DecidableEq

/-- What `_read_record` returns: one resource record, its owner folded to lower case. -/
structure ResourceRecord where
  /-- The owner name. -/
  owner : Str
  /-- The type. -/
  rtype : ℕ
  /-- The class. -/
  rclass : ℕ
  /-- The lifetime. -/
  ttl : ℕ
  /-- The data. -/
  rdata : Bytes
  /-- The offset just past the record. -/
  offset : ℕ
  deriving DecidableEq

/-- `_read_record`. -/
def readRecord (message : Bytes) (offset : ℕ) : Except Exc ResourceRecord := do
  let (owner, offset) ← decodeName message offset
  if message.length < offset + recordSize then
    .error (.malformedError (text "a record header runs past the end of the message"))
  else do
    let raw ← unpackFrom recordSize message offset
    let rdlength := bigEndian (slice raw 8 10)
    let offset := offset + recordSize
    if message.length < offset + rdlength then
      .error (.malformedError (text "a record's data runs past the end of the message"))
    else .ok {
      owner := lower U owner
      rtype := bigEndian (slice raw 0 2)
      rclass := bigEndian (slice raw 2 4)
      ttl := bigEndian (slice raw 4 8)
      rdata := slice message offset (offset + rdlength)
      offset := offset + rdlength }

/-- `_address_from`. -/
def addressFrom (rdata : Bytes) (qtype : ℕ) : Except Exc IPAddress :=
  let expected := if qtype = typeA then 4 else 16
  if rdata.length ≠ expected then
    .error (.malformedError (text "a type " ++ natText qtype ++ text " record carries " ++
      natText rdata.length ++ text " bytes rather than " ++ natText expected))
  else ipAddressOfBytes rdata

/-- The name a `CNAME` record points at, as `_read_records` reads it: from the start of the record's
data, wherever the name may end. -/
def targetOf (message : Bytes) (record : ResourceRecord) : Except Exc Str := do
  let (target, _) ← decodeName message (record.offset - record.rdata.length)
  .ok (lower U target)

/-- The loop of `_read_records`, from the accepted owners on. -/
def readRecordsFrom (message : Bytes) (qtype : ℕ) : ℕ → ℕ → List Str → Except Exc (List Record)
  | 0, _, _ => .ok []
  | count + 1, offset, accepted => do
    let record ← readRecord U message offset
    -- an owner nothing has led to so far, whatever comes later
    if record.rclass ≠ classIn ∨ record.owner ∉ accepted then
      readRecordsFrom message qtype count record.offset accepted
    else if record.rtype = typeCname then do
      let target ← targetOf U message record
      readRecordsFrom message qtype count record.offset (accepted.insert target)
    else if record.rtype = qtype then do
      let ip ← addressFrom record.rdata qtype
      let out ← readRecordsFrom message qtype count record.offset accepted
      .ok ({ ip := ip, ttl := record.ttl } :: out)
    else readRecordsFrom message qtype count record.offset accepted

/-- `_read_records`. -/
def readRecords (message : Bytes) (offset count : ℕ) (name : Str) (qtype : ℕ) :
    Except Exc (List Record) :=
  readRecordsFrom U message qtype count offset [lower U name]

/-- `_check_question`: the offset just past the question section. -/
def checkQuestion (message : Bytes) (qdcount : ℕ) (name : Str) (qtype : ℕ) : Except Exc ℕ :=
  if qdcount ≠ 1 then
    .error (.wrongQuestionError (text "a response carries " ++ natText qdcount ++
      text " questions rather than one"))
  else do
    let (asked, offset) ← decodeName message headerSize
    if message.length < offset + 4 then
      .error (.malformedError (text "a question runs past the end of the message"))
    else do
      let raw ← unpackFrom 4 message offset
      let rtype := bigEndian (slice raw 0 2)
      let rclass := bigEndian (slice raw 2 4)
      if lower U asked ≠ lower U name then
        .error (.wrongQuestionError (text "a response answers " ++ repr U asked ++
          text " rather than " ++ repr U name))
      else if rtype ≠ qtype ∨ rclass ≠ classIn then
        .error (.wrongQuestionError (text "a response answers type " ++ natText rtype ++
          text " class " ++ natText rclass))
      else .ok (offset + 4)

/-- `_parse`: read a response, having first established that it answers the question asked. -/
def parse (message : Bytes) (txid : ℕ) (name : Str) (qtype : ℕ) : Except Exc Answer :=
  if message.length < headerSize then
    .error (.malformedError (text "a message is shorter than a DNS header"))
  else do
    let raw ← unpackFrom headerSize message 0
    let replyId := bigEndian (slice raw 0 2)
    let flags := bigEndian (slice raw 2 4)
    let qdcount := bigEndian (slice raw 4 6)
    let ancount := bigEndian (slice raw 6 8)
    if replyId ≠ txid then
      .error (.wrongQuestionError (text "transaction id 0x" ++ hexPadded 4 replyId ++
        text " is not 0x" ++ hexPadded 4 txid))
    else if flags &&& flagResponse = 0 then
      .error (.wrongQuestionError (text "a query arrived where a response was expected"))
    else do
      let offset ← checkQuestion U message qdcount name qtype
      let rcode := flags &&& rcodeMask
      if rcode = rcodeNxdomain then .ok { records := [], truncated := false }
      else if rcode ≠ rcodeNoerror then
        .error (.serverFailureError (text "the server answered with rcode " ++ natText rcode))
      else do
        -- a truncated section is read like any other
        let records ← readRecords U message offset ancount name qtype
        .ok { records := records, truncated := flags &&& flagTruncated ≠ 0 }

/-! ## What parsing raises -/

/-- One of the three classes a reply with a whole header is refused with. -/
def IsRefusal (e : Exc) : Prop :=
  IsBodyError e ∨ e.isWrongQuestionError = true ∨ e.isServerFailureError = true

/-- One of the three classes a reply is refused with. -/
def IsReplyError (e : Exc) : Prop :=
  e.isMalformedError = true ∨ e.isWrongQuestionError = true ∨ e.isServerFailureError = true

variable {U}

theorem raisesOnly_readRecord (message : Bytes) (offset : ℕ) :
    Except.RaisesOnly IsBodyError (readRecord U message offset) := by
  unfold readRecord
  refine (raisesOnly_decodeName message offset).bind fun ⟨owner, next⟩ => ?_
  refine Except.RaisesOnly.dite (fun _ => raisesOnly_malformed (by simp [text, noHeader])) fun hsize => ?_
  -- the fixed part is inside the message, so `unpack_from` finds it
  rw [unpackFrom_eq_ok (by omega)]
  exact Except.RaisesOnly.ite (raisesOnly_malformed (by simp [text, noHeader])) (Except.RaisesOnly.ok _)

theorem raisesOnly_addressFrom (rdata : Bytes) (qtype : ℕ) :
    Except.RaisesOnly IsBodyError (addressFrom rdata qtype) := by
  unfold addressFrom
  refine Except.RaisesOnly.dite (fun _ => raisesOnly_malformed (by simp [text, noHeader])) fun hlength => ?_
  rw [not_not] at hlength
  by_cases hqtype : qtype = typeA
  · rw [ipAddressOfBytes, if_pos (by rw [hlength, if_pos hqtype])]
    exact Except.RaisesOnly.ok _
  · rw [ipAddressOfBytes, if_neg (by rw [hlength, if_neg hqtype]; decide),
      if_pos (by rw [hlength, if_neg hqtype])]
    exact Except.RaisesOnly.ok _

theorem raisesOnly_targetOf (message : Bytes) (record : ResourceRecord) :
    Except.RaisesOnly IsBodyError (targetOf U message record) :=
  (raisesOnly_decodeName _ _).bind fun _ => Except.RaisesOnly.ok _

theorem raisesOnly_readRecordsFrom (message : Bytes) (qtype count offset : ℕ) (accepted : List Str) :
    Except.RaisesOnly IsBodyError
      (readRecordsFrom U message qtype count offset accepted) := by
  induction count generalizing offset accepted with
  | zero => exact Except.RaisesOnly.ok _
  | succ count ih =>
      rw [readRecordsFrom]
      refine (raisesOnly_readRecord message offset).bind fun record => ?_
      refine Except.RaisesOnly.ite (ih _ _) (Except.RaisesOnly.ite ?_ (Except.RaisesOnly.ite ?_ (ih _ _)))
      · exact (raisesOnly_targetOf message record).bind fun target => ih _ _
      · refine (raisesOnly_addressFrom _ _).bind fun ip => ?_
        exact (ih _ _).bind fun out => Except.RaisesOnly.ok _

theorem raisesOnly_checkQuestion (message : Bytes) (qdcount : ℕ) (name : Str) (qtype : ℕ) :
    Except.RaisesOnly IsRefusal (checkQuestion U message qdcount name qtype) := by
  unfold checkQuestion
  refine Except.RaisesOnly.ite (Except.RaisesOnly.error (.inr (.inl rfl))) ?_
  refine ((raisesOnly_decodeName message headerSize).mono fun _ => .inl).bind fun ⟨asked, offset⟩ => ?_
  refine Except.RaisesOnly.dite
    (fun _ => (raisesOnly_malformed (by simp [text, noHeader])).mono fun _ => .inl) fun hsize => ?_
  rw [unpackFrom_eq_ok (by omega)]
  refine Except.RaisesOnly.ite (Except.RaisesOnly.error (.inr (.inl rfl))) ?_
  exact Except.RaisesOnly.ite (Except.RaisesOnly.error (.inr (.inl rfl))) (Except.RaisesOnly.ok _)

/-- A message with a whole header is refused for something else. -/
theorem raisesOnly_parse_of_size {message : Bytes} (hsize : headerSize ≤ message.length) (txid : ℕ)
    (name : Str) (qtype : ℕ) : Except.RaisesOnly IsRefusal (parse U message txid name qtype) := by
  unfold parse
  rw [if_neg (not_lt.mpr hsize), unpackFrom_eq_ok (by omega)]
  refine Except.RaisesOnly.ite (Except.RaisesOnly.error (.inr (.inl rfl))) ?_
  refine Except.RaisesOnly.ite (Except.RaisesOnly.error (.inr (.inl rfl))) ?_
  refine (raisesOnly_checkQuestion message _ name qtype).bind fun offset => ?_
  refine Except.RaisesOnly.ite (Except.RaisesOnly.ok _) ?_
  refine Except.RaisesOnly.ite (Except.RaisesOnly.error (.inr (.inr rfl))) ?_
  exact ((raisesOnly_readRecordsFrom _ _ _ _ _).mono fun _ => .inl).bind fun _ => Except.RaisesOnly.ok _

theorem parse_of_not_size {message : Bytes} (hsize : ¬ headerSize ≤ message.length) (txid : ℕ) (name : Str)
    (qtype : ℕ) : parse U message txid name qtype = .error (.malformedError noHeader) := by
  unfold parse
  rw [if_pos (not_le.mp hsize), noHeader]

/-- Parsing a message returns an answer or raises one of the three classes. -/
theorem raisesOnly_parse (message : Bytes) (txid : ℕ) (name : Str) (qtype : ℕ) :
    Except.RaisesOnly IsReplyError (parse U message txid name qtype) := by
  by_cases hsize : headerSize ≤ message.length
  · exact (raisesOnly_parse_of_size hsize txid name qtype).mono fun _ => Or.imp_left And.left
  · rw [parse_of_not_size hsize]
    exact Except.RaisesOnly.error (.inl rfl)

end SsrfGuard.Dns
