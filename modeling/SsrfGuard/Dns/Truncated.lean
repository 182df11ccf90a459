import SsrfGuard.Dns.AliasBounds
import SsrfGuard.Dns.Deadline
import SsrfGuard.Dns.Replies

/-! # Replies that did not fit

A server sets `TC` on a reply that did not fit in a datagram, and `_ask` then puts the question again over
TCP. `_parse` reads the answer section of such a reply all the same, before it looks at the bit, so the
question is put again exactly when what did arrive of the section holds every record the header announces.
A section that was cut short is refused as malformed. -/

namespace SsrfGuard.Dns

variable (U : Unicode)

/-! ## Sections that can be read -/

/-- The record whose owner has these labels and ends here. -/
def recordAfter (message : Bytes) (labels : List Bytes) (stop : ℕ) : ResourceRecord :=
  let fixed := slice message stop (stop + recordSize)
  let rdlength := bigEndian (slice fixed 8 10)
  { owner := lower U (dotted labels)
    rtype := bigEndian (slice fixed 0 2)
    rclass := bigEndian (slice fixed 2 4)
    ttl := bigEndian (slice fixed 4 8)
    rdata := slice message (stop + recordSize) (stop + recordSize + rdlength)
    offset := stop + recordSize + rdlength }

/-- A record lies whole at an offset of a message: the readable name of its owner, ten bytes, and as many
bytes of data as these announce. -/
def WholeRecord (message : Bytes) (offset : ℕ) (record : ResourceRecord) : Prop :=
  ∃ labels stop, Readable message offset labels stop ∧ record = recordAfter U message labels stop ∧
    record.offset ≤ message.length

/-- How long an address of this type is. -/
def addressLength (qtype : ℕ) : ℕ := if qtype = typeA then 4 else 16

/-- So many records lie whole from an offset on, with these owners accepted: an alias that is followed has a
readable name at its data, and an address that is taken has the length of its type. -/
inductive WholeSection (message : Bytes) (qtype : ℕ) : ℕ → ℕ → List Str → Prop
  /-- Nothing more was announced. -/
  | done {offset : ℕ} {accepted : List Str} : WholeSection message qtype 0 offset accepted
  /-- A record that is not looked into. -/
  | passed {count offset : ℕ} {accepted : List Str} {record : ResourceRecord}
      (hrecord : WholeRecord U message offset record)
      (hpassed : record.rclass ≠ classIn ∨ record.owner ∉ accepted ∨
        record.rtype ≠ typeCname ∧ record.rtype ≠ qtype)
      (rest : WholeSection message qtype count record.offset accepted) :
      WholeSection message qtype (count + 1) offset accepted
  /-- An alias. -/
  | followed {count offset stop : ℕ} {accepted : List Str} {record : ResourceRecord} {labels : List Bytes}
      (hrecord : WholeRecord U message offset record) (halias : record.IsAlias accepted)
      (hname : Readable message record.dataStart labels stop)
      (rest : WholeSection message qtype count record.offset (accepted.insert (lower U (dotted labels)))) :
      WholeSection message qtype (count + 1) offset accepted
  /-- An address. -/
  | taken {count offset : ℕ} {accepted : List Str} {record : ResourceRecord}
      (hrecord : WholeRecord U message offset record) (hclass : record.rclass = classIn)
      (howner : record.owner ∈ accepted) (hcname : record.rtype ≠ typeCname) (htype : record.rtype = qtype)
      (hlength : record.rdata.length = addressLength qtype)
      (rest : WholeSection message qtype count record.offset accepted) :
      WholeSection message qtype (count + 1) offset accepted

variable {U} {message : Bytes} {qtype : ℕ}

theorem readRecord_eq_ok_iff {offset : ℕ} {record : ResourceRecord} :
    readRecord U message offset = .ok record ↔ WholeRecord U message offset record := by
  constructor
  · intro h
    obtain ⟨⟨owner, stop⟩, hdecode, h⟩ := Except.bind_eq_ok.mp h
    obtain ⟨labels, hread, rfl⟩ := decodeName_eq_ok_iff.mp hdecode
    dsimp only at h
    split at h
    · cases h
    · next hfixed =>
      rw [unpackFrom_eq_ok (not_lt.mp hfixed)] at h
      obtain ⟨raw, hraw, h⟩ := Except.bind_eq_ok.mp h
      cases hraw
      split at h
      · cases h
      · next hdata =>
        cases h
        exact ⟨labels, stop, hread, rfl, not_lt.mp hdata⟩
  · rintro ⟨labels, stop, hread, rfl, hdata⟩
    have hfixed : stop + recordSize ≤ message.length := (Nat.le_add_right _ _).trans hdata
    refine Except.bind_eq_ok.mpr ⟨_, decodeName_eq_ok_iff.mpr ⟨labels, hread, rfl⟩, ?_⟩
    dsimp only
    rw [if_neg (not_lt.mpr hfixed), unpackFrom_eq_ok hfixed]
    exact if_neg (not_lt.mpr hdata)

theorem addressFrom_eq (rdata : Bytes) (qtype : ℕ) :
    addressFrom rdata qtype =
      if rdata.length ≠ addressLength qtype then
        .error (.malformedError (text "a type " ++ natText qtype ++ text " record carries " ++
          natText rdata.length ++ text " bytes rather than " ++ natText (addressLength qtype)))
      else ipAddressOfBytes rdata := rfl

theorem exists_addressFrom_iff {rdata : Bytes} :
    (∃ ip, addressFrom rdata qtype = .ok ip) ↔ rdata.length = addressLength qtype := by
  rw [addressFrom_eq]
  by_cases hlength : rdata.length = addressLength qtype
  · rw [if_neg (not_not.mpr hlength)]
    refine iff_of_true ?_ hlength
    rw [addressLength] at hlength
    by_cases hqtype : qtype = typeA
    · rw [if_pos hqtype] at hlength
      exact ⟨_, if_pos hlength⟩
    · rw [if_neg hqtype] at hlength
      exact ⟨_, by rw [ipAddressOfBytes, if_neg (by rw [hlength]; decide), if_pos hlength]⟩
  · rw [if_pos hlength]
    refine iff_of_false ?_ hlength
    rintro ⟨ip, h⟩
    exact Except.error_ne_ok h

/-- **Which sections can be read.** -/
theorem exists_readRecordsFrom_iff {count offset : ℕ} {accepted : List Str} :
    (∃ records, readRecordsFrom U message qtype count offset accepted = .ok records) ↔
      WholeSection U message qtype count offset accepted := by
  constructor
  · intro h
    induction count generalizing offset accepted with
    | zero => exact .done
    | succ count ih =>
        obtain ⟨records, h⟩ := h
        rw [readRecordsFrom] at h
        obtain ⟨record, hrecord, h⟩ := Except.bind_eq_ok.mp h
        rw [readRecord_eq_ok_iff] at hrecord
        split at h
        · next hskip =>
          exact .passed hrecord (hskip.imp_right .inl) (ih ⟨_, h⟩)
        · next hskip =>
          rw [not_or, not_not, not_not] at hskip
          split at h
          · next hcname =>
            obtain ⟨target, htarget, h⟩ := Except.bind_eq_ok.mp h
            obtain ⟨labels, stop, hname, rfl⟩ := targetOf_eq_ok_iff.mp htarget
            exact .followed hrecord ⟨hskip.1, hskip.2, hcname⟩ hname (ih ⟨_, h⟩)
          · next hcname =>
            split at h
            · next htype =>
              obtain ⟨ip, hip, h⟩ := Except.bind_eq_ok.mp h
              obtain ⟨rest, hrest, -⟩ := Except.bind_eq_ok.mp h
              exact .taken hrecord hskip.1 hskip.2 hcname htype (exists_addressFrom_iff.mp ⟨ip, hip⟩)
                (ih ⟨rest, hrest⟩)
            · next htype => exact .passed hrecord (.inr (.inr ⟨hcname, htype⟩)) (ih ⟨_, h⟩)
  · intro h
    induction h with
    | done => exact ⟨[], rfl⟩
    | passed hrecord hpassed _ ih =>
        rw [readRecordsFrom, readRecord_eq_ok_iff.mpr hrecord]
        dsimp only [bind, Except.bind]
        split
        · exact ih
        · next hskip =>
          rw [not_or, not_not, not_not] at hskip
          obtain ⟨hcname, htype⟩ := (hpassed.resolve_left (not_not.mpr hskip.1)).resolve_left
            (not_not.mpr hskip.2)
          rwa [if_neg hcname, if_neg htype]
    | followed hrecord halias hname _ ih =>
        obtain ⟨hclass, howner, hcname⟩ := halias
        rw [readRecordsFrom, readRecord_eq_ok_iff.mpr hrecord]
        dsimp only [bind, Except.bind]
        rw [if_neg (by simp [hclass, howner]), if_pos hcname, targetOf_eq_ok_iff.mpr ⟨_, _, hname, rfl⟩]
        exact ih
    | taken hrecord hclass howner hcname htype hlength _ ih =>
        obtain ⟨rest, hrest⟩ := ih
        obtain ⟨ip, hip⟩ := exists_addressFrom_iff.mpr hlength
        rw [readRecordsFrom, readRecord_eq_ok_iff.mpr hrecord]
        dsimp only [bind, Except.bind]
        rw [if_neg (by simp [hclass, howner]), if_neg hcname, if_pos htype, hip, hrest]
        exact ⟨_, rfl⟩

/-! ## The reply that ends the wait -/

namespace UdpResolver

/-- The receive loop of `_over_udp` up to the datagram that ends the wait. -/
def awaitMessage (U : Unicode) (server : Str) (query : Query) (attemptEnds : ℚ) :
    List (Timed Bytes) → Net Bytes
  | [] => do
    let left ← timeLeft attemptEnds (text "waiting for an answer")
    silence left
  | arrival :: arrivals => do
    let left ← timeLeft attemptEnds (text "waiting for an answer")
    let datagram ← await left arrival
    let message := datagram.take udpReadLimit
    note (.received .udp server query message)
    match parse U message query.txid query.name query.qtype with
    | .ok _ => pure message
    | .error e =>
      if e.isWrongQuestionError then awaitMessage U server query attemptEnds arrivals else pure message

/-- The loop is that, and the verdict on the datagram. -/
theorem awaitAnswer_eq (server : Str) (query : Query) (attemptEnds : ℚ) (arrivals : List (Timed Bytes)) :
    awaitAnswer U server query attemptEnds arrivals = (do
      let message ← awaitMessage U server query attemptEnds arrivals
      Prog.ofExcept (parse U message query.txid query.name query.qtype)) := by
  induction arrivals with
  | nil =>
      rw [awaitAnswer, awaitMessage]
      simp only [silence, bind_assoc]
      rfl
  | cons arrival arrivals ih =>
      rw [awaitAnswer, awaitMessage]
      simp only [bind_assoc]
      refine bind_congr fun left => bind_congr fun datagram => bind_congr fun _ => ?_
      cases hparse : parse U (datagram.take udpReadLimit) query.txid query.name query.qtype with
      | ok answer =>
          simp only [pure_bind, hparse]
          rfl
      | error e =>
          dsimp only
          split
          · exact ih
          · simp only [pure_bind, hparse]
            rfl

variable (r : UdpResolver U)

/-- `_ask` up to the datagram that ends the wait: what was sent, and the reply received. -/
def askReply (server : Str) (question : Bytes) (qtype : ℕ) (deadline : ℚ) : Net (Bytes × Query × Bytes) := do
  let txid ← randbits
  let message := queryMessage txid question qtype
  let name ← Prog.ofExcept (nameOf question)
  let query : Query := { txid := txid, name := name, qtype := qtype }
  let now ← monotonic
  let attemptEnds := min deadline (now + r.fields.attemptTimeout.value)
  let family ← Prog.ofExcept (familyOf U server)
  let exchange ← openDatagram family
  note (.sent .udp server message)
  let reply ← awaitMessage U server query attemptEnds exchange.arrivals
  pure (message, query, reply)

/-- What `_ask` does with the reply it has received. -/
theorem ask_eq_reply (server : Str) (question : Bytes) (qtype : ℕ) (deadline : ℚ) :
    r.ask server question qtype deadline = (do
      let (message, query, reply) ← r.askReply server question qtype deadline
      let answer ← Prog.ofExcept (parse U reply query.txid query.name query.qtype)
      if answer.truncated then r.overTcp server message query deadline else pure answer) := by
  simp only [ask, askReply, overUdp, awaitAnswer_eq, bind_assoc, pure_bind]

/-- The message is refused as an answer to another question, and the wait goes on. -/
def Passes (U : Unicode) (query : Query) (message : Bytes) : Prop :=
  ∃ e, parse U message query.txid query.name query.qtype = .error e ∧ e.isWrongQuestionError = true

/-- Of the datagrams received, only the one that ends the wait does not pass. -/
theorem adds_awaitMessage (server : Str) (query : Query) (attemptEnds : ℚ) (arrivals : List (Timed Bytes)) :
    Prog.Adds World.log (awaitMessage U server query attemptEnds arrivals) fun result added =>
      ∀ query' message, .received .udp server query' message ∈ added →
        query' = query ∧ (Passes U query message ∨ result = .ok message) := by
  have hnone : ∀ {result : Except Exc Bytes} (query' : Query) (message : Bytes),
      Event.received .udp server query' message ∈ [] →
        query' = query ∧ (Passes U query message ∨ result = .ok message) :=
    fun _ _ hmem => absurd hmem List.not_mem_nil
  induction arrivals with
  | nil =>
      rw [awaitMessage]
      refine (unlogged_timeLeft _ _).bind_silent (fun left => ?_) fun _ => hnone
      exact (unlogged_silence left).conseq fun _ _ hadded => hadded ▸ hnone
  | cons arrival arrivals ih =>
      rw [awaitMessage]
      refine (unlogged_timeLeft _ _).bind_silent (fun left => ?_) fun _ => hnone
      refine (unlogged_await left arrival).bind_silent (fun datagram => ?_) fun _ => hnone
      refine (adds_note _).bind ?_ ?_
      · rintro _ first ⟨-, rfl⟩
        cases hparse : parse U (datagram.take udpReadLimit) query.txid query.name query.qtype with
        | ok answer =>
            refine Prog.Adds.pure fun query' message hmem => ?_
            cases List.mem_singleton.mp hmem
            exact ⟨rfl, .inr rfl⟩
        | error e =>
            dsimp only
            split
            · next hpasses =>
              refine ih.conseq fun result added hadded query' message hmem => ?_
              rcases List.mem_cons.mp hmem with hfirst | hlater
              · cases hfirst
                exact ⟨rfl, .inl ⟨e, hparse, hpasses⟩⟩
              · exact hadded query' message hlater
            · refine Prog.Adds.pure fun query' message hmem => ?_
              cases List.mem_singleton.mp hmem
              exact ⟨rfl, .inr rfl⟩
      · rintro e first ⟨he, -⟩
        cases he

theorem adds_askReply (server : Str) (question : Bytes) (qtype : ℕ) (deadline : ℚ) :
    Prog.Adds World.log (r.askReply server question qtype deadline) fun result added =>
      ∀ query message, .received .udp server query message ∈ added →
        Passes U query message ∨ ∃ sent, result = .ok (sent, query, message) := by
  have hnone : ∀ {result : Except Exc (Bytes × Query × Bytes)} (query : Query) (message : Bytes),
      Event.received .udp server query message ∈ [] →
        Passes U query message ∨ ∃ sent, result = .ok (sent, query, message) :=
    fun _ _ hmem => absurd hmem List.not_mem_nil
  rw [askReply]
  refine unlogged_randbits.bind_silent (fun txid => ?_) fun _ => hnone
  refine Prog.Adds.bind_ofExcept (fun name _ => ?_) fun _ _ => hnone
  refine unlogged_monotonic.bind_silent (fun now => ?_) fun _ => hnone
  refine Prog.Adds.bind_ofExcept (fun family _ => ?_) fun _ _ => hnone
  refine (adds_openDatagram family).bind ?_ ?_
  · rintro exchange _ rfl
    refine (adds_note _).bind ?_ ?_
    · rintro _ _ ⟨-, rfl⟩
      refine (adds_awaitMessage server _ _ exchange.arrivals).bind ?_ ?_
      · intro reply added hadded
        refine Prog.Adds.pure fun query message hmem => ?_
        simp only [List.append_nil, List.singleton_append, List.mem_cons, reduceCtorEq, false_or] at hmem
        obtain ⟨rfl, hpasses | hreply⟩ := hadded query message hmem
        · exact .inl hpasses
        · cases hreply
          exact .inr ⟨_, rfl⟩
      · intro e added hadded query message hmem
        simp only [List.singleton_append, List.mem_cons, reduceCtorEq, false_or] at hmem
        obtain ⟨rfl, hpasses | hreply⟩ := hadded query message hmem
        · exact .inl hpasses
        · cases hreply
    · rintro e _ ⟨he, -⟩
      cases he
  · rintro e _ rfl query message hmem
    simp at hmem

end UdpResolver

/-! ## The retry -/

/-- A reply to the query that did not fit: it carries the transaction id, answers the question without an
error, and has the bit set. Its answer section starts at the offset, whatever it holds. -/
structure TruncatedReply (U : Unicode) (message : Bytes) (query : Query) (offset : ℕ) : Prop where
  /-- `_parse` comes to its answer section. -/
  reads : ReadsAnswers U message query.txid query.name query.qtype offset
  /-- `TC` is set. -/
  truncated : headerField message 1 &&& flagTruncated ≠ 0

/-- The records it announces are there to be read. -/
def TruncatedReply.Whole (U : Unicode) (message : Bytes) (query : Query) (offset : ℕ) : Prop :=
  WholeSection U message query.qtype (headerField message 3) offset [lower U query.name]

/-- What `_parse` makes of such a reply. -/
theorem TruncatedReply.parse_eq {query : Query} {offset : ℕ} (h : TruncatedReply U message query offset) :
    (TruncatedReply.Whole U message query offset ∧ ∃ records,
      parse U message query.txid query.name query.qtype = .ok { records := records, truncated := true }) ∨
    (¬ TruncatedReply.Whole U message query offset ∧
      RaisesMalformed (parse U message query.txid query.name query.qtype)) := by
  rw [Whole, ← exists_readRecordsFrom_iff, parse_of_readsAnswers h.reads, readRecords]
  have hraises := raisesOnly_readRecordsFrom (U := U) message query.qtype (headerField message 3) offset
    [lower U query.name]
  cases hrecords : readRecordsFrom U message query.qtype (headerField message 3) offset
      [lower U query.name] with
  | ok records =>
      refine .inl ⟨⟨records, rfl⟩, records, ?_⟩
      rw [decide_eq_true h.truncated]
      rfl
  | error e =>
      refine .inr ⟨?_, e, rfl, (hraises e hrecords).1⟩
      rintro ⟨records, hok⟩
      exact Except.error_ne_ok hok

/-- It ends the wait. -/
theorem TruncatedReply.not_passes {query : Query} {offset : ℕ} (h : TruncatedReply U message query offset) :
    ¬ UdpResolver.Passes U query message := by
  rintro ⟨e, hparse, hpasses⟩
  rcases h.parse_eq with ⟨-, records, hok⟩ | ⟨-, e', he', hmalformed⟩
  · rw [hok] at hparse
    cases hparse
  · rw [he'] at hparse
    cases hparse
    cases e with
    | wrongQuestionError => cases hmalformed
    | _ => cases hpasses

/-- The clock has been read so often by the end of the program, when it has been by its start. -/
abbrev ReadsClock (readings : ℕ) {α : Type} (x : Net α) : Prop :=
  Prog.Keeps (fun w => readings ≤ w.readings) (fun _ => True) x

theorem timeless_readings (readings : ℕ) : Timeless fun w => readings ≤ w.readings :=
  ⟨fun hw _ => Nat.le_succ_of_le hw, fun hw _ => hw⟩

theorem readsClock_await {readings : ℕ} {α : Type} (timeout : ℚ) (operation : Timed α) :
    ReadsClock readings (await timeout operation) :=
  ((timeless_readings readings).await timeout operation).imp_error fun _ _ => True.intro

theorem readsClock_recvExactly {readings : ℕ} (until_ : ℚ) (count : ℕ) (arrivals : List (Timed Bytes)) :
    ReadsClock readings (recvExactly until_ count arrivals) :=
  ((timeless_readings readings).recvExactly until_ count arrivals).imp_error fun _ _ => True.intro

theorem readsClock_note {readings : ℕ} (event : Event) : ReadsClock readings (note event) :=
  Prog.Keeps.ofFun fun _ hw => ⟨_, _, rfl, hw⟩

/-- A retry looks at the clock before anything else. -/
theorem readings_lt_overTcp (r : UdpResolver U) (server : Str) (sent : Bytes) (query : Query) (until_ : ℚ)
    (w : World) : w.readings < ((r.overTcp server sent query until_).exec w).2.readings := by
  have hstart : Prog.Triple (· = w) (timeLeft until_ (text "before a TCP retry"))
      (fun _ v => w.readings + 1 ≤ v.readings) fun _ v => w.readings + 1 ≤ v.readings := by
    rintro _ rfl
    rw [exec_timeLeft]
    split
    · next hexec => exact (congrArg World.readings (Prod.mk.inj hexec).2).le
    · next hexec => exact (congrArg World.readings (Prod.mk.inj hexec).2).le
  have hrest (left : ℚ) : ReadsClock (w.readings + 1) (do
      let remaining := min left r.fields.attemptTimeout.value
      let exchange ← openStream
      await remaining exchange.connecting
      note (.sent .tcp server (packShort sent.length ++ sent))
      await remaining exchange.sending
      let reply ← UdpResolver.recvReply server query until_ exchange.arrivals
      let answer ← Prog.ofExcept (parse U reply query.txid query.name query.qtype)
      if answer.truncated then throw (.malformedError (text "a TCP reply is marked truncated"))
      else pure answer : Net Answer) := by
    refine Prog.Keeps.bind (Prog.Keeps.ofFun fun _ hw => ⟨_, _, rfl, hw⟩) fun exchange => ?_
    refine (readsClock_await _ _).bind fun _ => (readsClock_note _).bind fun _ => ?_
    refine (readsClock_await _ _).bind fun _ => Prog.Keeps.bind ?_ fun reply => ?_
    · refine (readsClock_recvExactly _ _ _).bind fun length => ?_
      refine Prog.Keeps.ite (Prog.Keeps.throw True.intro) ((readsClock_recvExactly _ _ _).bind fun reply => ?_)
      exact (readsClock_note _).bind fun _ => Prog.Keeps.pure _
    · refine (Prog.Keeps.ofExcept fun _ _ => True.intro).bind fun answer => ?_
      exact Prog.Keeps.ite (Prog.Keeps.throw True.intro) (Prog.Keeps.pure _)
  have hrun := hstart.bind (R := fun _ v => w.readings + 1 ≤ v.readings) fun left =>
    (hrest left).conseq (fun _ => id) (fun _ _ => id) fun _ _ => And.right
  have hend := hrun w rfl
  rw [UdpResolver.overTcp]
  split at hend
  · next hexec => exact congrArg Prod.snd hexec ▸ hend
  · next hexec => exact congrArg Prod.snd hexec ▸ hend

/-- **A truncated reply is asked for again over TCP exactly when its answer section holds what its header
announces.** The retry starts from the world the reply was received in. -/
theorem ask_retries_iff (r : UdpResolver U) (server : Str) (question : Bytes) (qtype : ℕ) (deadline : ℚ)
    {w : World} {added : List Event} {query : Query} {reply : Bytes} {offset : ℕ}
    (hadded : ((r.askReply server question qtype deadline).exec w).2.log = w.log ++ added)
    (hreceived : .received .udp server query reply ∈ added)
    (htruncated : TruncatedReply U reply query offset) :
    (∃ sent v, (r.askReply server question qtype deadline).exec w = (.ok (sent, query, reply), v) ∧
      (r.ask server question qtype deadline).exec w = (r.overTcp server sent query deadline).exec v) ↔
    TruncatedReply.Whole U reply query offset := by
  obtain ⟨added', hlog, hends⟩ := r.adds_askReply server question qtype deadline w
  rw [hadded, List.append_cancel_left_eq] at hlog
  subst hlog
  obtain ⟨sent, hreply⟩ := (hends query reply hreceived).resolve_left htruncated.not_passes
  have hask : (r.askReply server question qtype deadline).exec w =
      (.ok (sent, query, reply), ((r.askReply server question qtype deadline).exec w).2) :=
    Prod.ext hreply rfl
  generalize ((r.askReply server question qtype deadline).exec w).2 = v at hask
  have hrun : (r.ask server question qtype deadline).exec w = (do
      let answer ← Prog.ofExcept (parse U reply query.txid query.name query.qtype)
      if answer.truncated then r.overTcp server sent query deadline else pure answer : Net Answer).exec v := by
    rw [UdpResolver.ask_eq_reply, Prog.exec_bind, hask]
  rcases htruncated.parse_eq with ⟨hwhole, records, hparse⟩ | ⟨hcut, e, hparse, -⟩
  · refine iff_of_true ⟨sent, v, hask, ?_⟩ hwhole
    rw [hrun, hparse]
    rfl
  · refine iff_of_false ?_ hcut
    rintro ⟨sent', v', hask', hretry⟩
    rw [hask] at hask'
    cases hask'
    -- the run stops at the reply, and a retry would have looked at the clock
    rw [hrun, hparse] at hretry
    have hreadings : v.readings = ((r.overTcp server sent query deadline).exec v).2.readings :=
      congrArg (fun run => run.2.readings) hretry
    have hlater := readings_lt_overTcp r server sent query deadline v
    omega

/-- A server that sends this over a datagram, and the address of the name over a stream. -/
def answersOverTcp (reply : Bytes) : Schedule where
  tick _ := 0
  tick_nonneg := still_nonneg
  txid _ := plainTxid
  udp _ := { failure := none, arrivals := [.ready reply] }
  tcp _ := {
    connecting := .ready ()
    sending := .ready ()
    arrivals := [.ready (packShort 35 ++ responseAbout 0x8180 typeA 1 documentationRecord)] }

/-- A truncated reply that announces one record and holds it. -/
def wholeReply : Bytes := responseAbout 0x8380 typeA 1 documentationRecord

/-- A truncated reply that announces one record and ends in the middle of it. -/
def cutReply : Bytes := responseAbout 0x8380 typeA 1 (documentationRecord.take 8)

theorem truncatedReply_wholeReply : TruncatedReply Unicode.ascii wholeReply plainQuery 19 where
  reads := ⟨by decide, by decide, by decide, by decide +kernel, by decide⟩
  truncated := by decide

theorem truncatedReply_cutReply : TruncatedReply Unicode.ascii cutReply plainQuery 19 where
  reads := ⟨by decide, by decide, by decide, by decide +kernel, by decide⟩
  truncated := by decide

/-- The one record is read, and the question is asked again all the same. -/
theorem ask_retries_wholeReply :
    ∃ sent v, (hasty.askReply (text "127.0.0.1") [1, 0x61, 0] typeA 1).exec
        (World.start (answersOverTcp wholeReply)) = (.ok (sent, plainQuery, wholeReply), v) ∧
      (hasty.ask (text "127.0.0.1") [1, 0x61, 0] typeA 1).exec (World.start (answersOverTcp wholeReply)) =
        (hasty.overTcp (text "127.0.0.1") sent plainQuery 1).exec v := by
  have hadded : ((hasty.askReply (text "127.0.0.1") [1, 0x61, 0] typeA 1).exec
      (World.start (answersOverTcp wholeReply))).2.log =
        (World.start (answersOverTcp wholeReply)).log ++
          [.asked afInet, .sent .udp (text "127.0.0.1") (UdpResolver.queryMessage 0x1234 [1, 0x61, 0] typeA),
            .received .udp (text "127.0.0.1") plainQuery wholeReply] := by
    decide +kernel
  have hwhole : TruncatedReply.Whole Unicode.ascii wholeReply plainQuery 19 :=
    exists_readRecordsFrom_iff.mp ⟨[{ ip := .v4 0xC0000201, ttl := 60 }], by decide +kernel⟩
  exact (ask_retries_iff hasty (text "127.0.0.1") [1, 0x61, 0] typeA 1 hadded (by simp)
    truncatedReply_wholeReply).mpr hwhole

/-- The record of a truncated reply is cut in the middle: the server is not asked over TCP, where it would
have answered, and its reply is refused as malformed. -/
theorem ask_cutReply :
    TruncatedReply Unicode.ascii cutReply plainQuery 19 ∧
    .received .udp (text "127.0.0.1") plainQuery cutReply ∈
      ((hasty.askReply (text "127.0.0.1") [1, 0x61, 0] typeA 1).exec
        (World.start (answersOverTcp cutReply))).2.log ∧
    ((hasty.ask (text "127.0.0.1") [1, 0x61, 0] typeA 1).exec (World.start (answersOverTcp cutReply))).1 =
      .error (.malformedError (text "a record header runs past the end of the message")) ∧
    ¬ ∃ sent v, (hasty.askReply (text "127.0.0.1") [1, 0x61, 0] typeA 1).exec
        (World.start (answersOverTcp cutReply)) = (.ok (sent, plainQuery, cutReply), v) ∧
      (hasty.ask (text "127.0.0.1") [1, 0x61, 0] typeA 1).exec (World.start (answersOverTcp cutReply)) =
        (hasty.overTcp (text "127.0.0.1") sent plainQuery 1).exec v := by
  refine ⟨truncatedReply_cutReply, by decide +kernel, by decide +kernel, ?_⟩
  rintro ⟨sent, v, hask, hretry⟩
  have hlater := readings_lt_overTcp hasty (text "127.0.0.1") sent plainQuery 1 v
  have hread : ((hasty.ask (text "127.0.0.1") [1, 0x61, 0] typeA 1).exec
      (World.start (answersOverTcp cutReply))).2.readings = ((hasty.askReply (text "127.0.0.1")
        [1, 0x61, 0] typeA 1).exec (World.start (answersOverTcp cutReply))).2.readings := by
    decide +kernel
  rw [hask, hretry] at hread
  exact absurd hread hlater.ne'

end SsrfGuard.Dns
