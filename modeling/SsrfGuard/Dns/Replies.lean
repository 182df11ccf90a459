import SsrfGuard.Dns.Question
import SsrfGuard.Dns.UdpResolver
import SsrfGuard.Library.Trace

/-! # The replies behind an answer

A lookup that returns has accepted one reply for every family in scope, and its rows are what those
replies carry. `Accepted` says what a reply and the part of the run up to it have to do with the question;
the loops over attempts and families hand it on, and a family without such a reply ends the lookup. -/

namespace SsrfGuard.Dns

variable {U : Unicode}

/-- A reply that ends the search for one family, and what was written down while that family was asked
about. -/
structure Reply where
  /-- The server asked. -/
  server : Str
  /-- How it answered. -/
  transport : Transport
  /-- The query it was matched against. -/
  query : Query
  /-- The message. -/
  message : Bytes
  /-- The records read from it. -/
  records : List Record
  /-- The part of the log that belongs to the family. -/
  part : List Event

/-- A message as it is sent: over a stream its length goes first. -/
def framed : Transport → Bytes → Bytes
  | .udp, message => message
  | .tcp, message => packShort message.length ++ message

/-- The reply is the last thing the run has received for a question about this name, and answers it: it
came from a configured server to which its query had gone, and over a stream only after a truncated
datagram. -/
structure Accepted (r : UdpResolver U) (name : Str) (question : Bytes) (qtype : ℕ) (reply : Reply) :
    Prop where
  /-- The server is one of the configured ones. -/
  configured : reply.server ∈ r.fields.nameservers
  /-- The query asks about the name. -/
  name_eq : reply.query.name = name
  /-- It asks for the type. -/
  qtype_eq : reply.query.qtype = qtype
  /-- It was sent, and then the reply received. -/
  exchanged : ∃ before,
    reply.part = before ++ [.received reply.transport reply.server reply.query reply.message] ∧
    .sent reply.transport reply.server
      (framed reply.transport (UdpResolver.queryMessage reply.query.txid question qtype)) ∈ before ∧
    (reply.transport = .tcp → ∃ message records,
      .received .udp reply.server reply.query message ∈ before ∧
      parse U message reply.query.txid name qtype = .ok { records := records, truncated := true })
  /-- The message is a response to the query, about the same name but for ASCII case, is not truncated,
  and carries the records. -/
  responds : ∃ labels stop, Responds U reply.message reply.query.txid name qtype labels stop
    { records := reply.records, truncated := false } ∧
      (dotted labels).map lowerChar = name.map lowerChar

/-- What was written down earlier does not matter. -/
theorem Accepted.prepend {r : UdpResolver U} {name : Str} {question : Bytes} {qtype : ℕ} {reply : Reply}
    (h : Accepted r name question qtype reply) (first : List Event) :
    Accepted r name question qtype { reply with part := first ++ reply.part } := by
  obtain ⟨before, hpart, hsent, hudp⟩ := h.exchanged
  refine ⟨h.configured, h.name_eq, h.qtype_eq, ⟨first ++ before, ?_, ?_, ?_⟩, h.responds⟩
  · rw [hpart, List.append_assoc]
  · exact List.mem_append_right _ hsent
  · intro htcp
    obtain ⟨message, records, hreceived, hparse⟩ := hudp htcp
    exact ⟨message, records, List.mem_append_right _ hreceived, hparse⟩

/-- The name read back from a question is ASCII, so no other case is folded. -/
theorem responds_of_parse {message question : Bytes} {txid qtype : ℕ} {name : Str} {answer : Answer}
    (hname : nameOf question = .ok name) (h : parse U message txid name qtype = .ok answer) :
    ∃ labels stop, Responds U message txid name qtype labels stop answer ∧
      (dotted labels).map lowerChar = name.map lowerChar := by
  obtain ⟨labels, stop, hresponds⟩ := parse_eq_ok h
  refine ⟨labels, stop, hresponds, ?_⟩
  obtain ⟨⟨asked, _⟩, hdecode, hasked⟩ := Except.bind_eq_ok.mp hname
  cases hasked
  obtain ⟨asked, -, rfl, hascii, -⟩ := decodeName_eq_ok hdecode
  rw [map_lowerChar_dotted, map_lowerChar_dotted, ← lower_dotted hresponds.ascii, ← lower_dotted hascii,
    hresponds.name_eq]

/-! ## One exchange -/

/-- What the program leaves in the log of a run. -/
abbrev Logs {α : Type} (x : Net α) (Q : α → List Event → Prop) : Prop := Prog.Leaves World.log x Q

/-- The program writes nothing down. -/
abbrev Unlogged {α : Type} (x : Net α) : Prop := Prog.Adds World.log x fun _ added => added = []

theorem Unlogged.logs {α : Type} {x : Net α} (h : Unlogged x) : Logs x fun _ added => added = [] :=
  h.conseq fun _ _ hadded _ _ => hadded

/-- A program that keeps every condition on the log writes nothing down. -/
theorem unlogged_of_keeps {α : Type} {E : Exc → Prop} {x : Net α}
    (h : ∀ log, Timeless (fun w => w.log = log) → Prog.Keeps (fun w => w.log = log) E x) : Unlogged x :=
  Prog.Adds.silent (Prog.Keeps.unchanged fun log => h log ⟨fun hw _ => hw, fun hw _ => hw⟩) fun _ => rfl

theorem unlogged_monotonic : Unlogged monotonic := Prog.Adds.silent (fun _ => rfl) fun _ => rfl

theorem unlogged_randbits : Unlogged randbits := Prog.Adds.silent (fun _ => rfl) fun _ => rfl

theorem unlogged_elapse (span : ℚ) : Unlogged (elapse span) := Prog.Adds.silent (fun _ => rfl) fun _ => rfl

theorem unlogged_openStream : Unlogged openStream := Prog.Adds.silent (fun _ => rfl) fun _ => rfl

theorem unlogged_timeLeft (until_ : ℚ) (whose : Str) : Unlogged (timeLeft until_ whose) :=
  unlogged_of_keeps fun _ h => h.timeLeft until_ whose

theorem unlogged_await {α : Type} (timeout : ℚ) (operation : Timed α) : Unlogged (await timeout operation) :=
  unlogged_of_keeps fun _ h => h.await timeout operation

theorem unlogged_silence {α : Type} (timeout : ℚ) : Unlogged (silence timeout : Net α) :=
  unlogged_of_keeps fun _ h => h.silence timeout

theorem logs_silence {α : Type} {Q : α → List Event → Prop} (timeout : ℚ) :
    Logs (silence timeout : Net α) Q :=
  (unlogged_elapse timeout).logs.bind_silent fun _ => Prog.Leaves.throw _

theorem unlogged_recvExactly (until_ : ℚ) (count : ℕ) (arrivals : List (Timed Bytes)) :
    Unlogged (recvExactly until_ count arrivals) :=
  unlogged_of_keeps fun _ h => h.recvExactly until_ count arrivals

/-- Writing an event down. -/
theorem adds_note (event : Event) :
    Prog.Adds World.log (note event) fun result added => result = .ok () ∧ added = [event] :=
  fun _ => ⟨[event], rfl, rfl, rfl⟩

theorem logs_note (event : Event) : Logs (note event) fun _ added => added = [event] :=
  (adds_note event).conseq fun _ _ hadded _ _ => hadded.2

/-- Opening a datagram socket asks for one, and may fail. -/
theorem adds_openDatagram (family : ℤ) :
    Prog.Adds World.log (openDatagram family) fun _ added => added = [.asked family] := by
  refine (adds_note (.asked family)).bind ?_ ?_
  · rintro _ first ⟨-, rfl⟩
    refine Prog.Adds.bind_silent (Prog.Adds.silent (fun _ => rfl) fun _ => rfl) (fun exchange => ?_)
      fun _ => rfl
    cases exchange.failure with
    | some failure => exact Prog.Adds.throw rfl
    | none => exact Prog.Adds.pure rfl
  · rintro e first ⟨he, -⟩
    cases he

theorem logs_openDatagram (family : ℤ) : Logs (openDatagram family) fun _ added => added = [.asked family] :=
  (adds_openDatagram family).conseq fun _ _ hadded _ _ => hadded

/-- The wait on a datagram socket ends with the datagram that answers. -/
theorem logs_awaitAnswer (server : Str) (query : Query) (attemptEnds : ℚ)
    (arrivals : List (Timed Bytes)) :
    Logs (UdpResolver.awaitAnswer U server query attemptEnds arrivals) fun answer added =>
      ∃ before message, added = before ++ [.received .udp server query message] ∧
        parse U message query.txid query.name query.qtype = .ok answer := by
  induction arrivals with
  | nil => exact (unlogged_timeLeft _ _).logs.bind_silent fun left => logs_silence left
  | cons arrival arrivals ih =>
      rw [UdpResolver.awaitAnswer]
      refine (unlogged_timeLeft _ _).logs.bind_silent fun left => ?_
      refine (unlogged_await left arrival).logs.bind_silent fun datagram => ?_
      refine (logs_note _).bind ?_
      rintro _ first rfl
      cases hparse : parse U (datagram.take udpReadLimit) query.txid query.name query.qtype with
      | ok answer => exact Prog.Leaves.pure ⟨[], _, rfl, hparse⟩
      | error e =>
          refine Prog.Leaves.ite (fun _ => ih.conseq ?_) fun _ => Prog.Leaves.throw e
          -- a reply to another question is only one more thing that came before
          rintro answer added ⟨before, message, rfl, hanswer⟩
          exact ⟨_ :: before, message, rfl, hanswer⟩

variable {r : UdpResolver U}

theorem logs_overUdp (server : Str) (sent : Bytes) (query : Query) (until_ : ℚ) :
    Logs (r.overUdp server sent query until_) fun answer added =>
      ∃ before message, added = before ++ [.received .udp server query message] ∧
        .sent .udp server sent ∈ before ∧
        parse U message query.txid query.name query.qtype = .ok answer := by
  rw [UdpResolver.overUdp]
  refine unlogged_monotonic.logs.bind_silent fun now => ?_
  refine Prog.Leaves.bind_silent (Prog.Leaves.ofExcept fun _ _ => rfl) fun family => ?_
  refine (logs_openDatagram family).bind ?_
  rintro exchange _ rfl
  refine (logs_note _).bind ?_
  rintro _ _ rfl
  refine (logs_awaitAnswer server query _ exchange.arrivals).conseq ?_
  rintro answer added ⟨before, message, rfl, hparse⟩
  refine ⟨[.asked family, .sent .udp server sent] ++ before, message, rfl, ?_, hparse⟩
  exact List.mem_append_left _ (List.mem_cons_of_mem _ (List.mem_singleton.mpr rfl))

theorem logs_recvReply (server : Str) (query : Query) (until_ : ℚ) (arrivals : List (Timed Bytes)) :
    Logs (UdpResolver.recvReply server query until_ arrivals) fun reply added =>
      added = [.received .tcp server query reply] := by
  rw [UdpResolver.recvReply]
  refine (unlogged_recvExactly _ _ _).logs.bind_silent fun length => ?_
  refine Prog.Leaves.ite (fun _ => Prog.Leaves.throw _) fun _ => ?_
  refine (unlogged_recvExactly _ _ _).logs.bind_silent fun reply => ?_
  refine (logs_note _).bind ?_
  rintro _ _ rfl
  exact Prog.Leaves.pure rfl

theorem logs_overTcp (server : Str) (sent : Bytes) (query : Query) (until_ : ℚ) :
    Logs (r.overTcp server sent query until_) fun answer added =>
      answer.truncated = false ∧ ∃ before message,
        added = before ++ [.received .tcp server query message] ∧
        .sent .tcp server (framed .tcp sent) ∈ before ∧
        parse U message query.txid query.name query.qtype = .ok answer := by
  rw [UdpResolver.overTcp]
  refine (unlogged_timeLeft _ _).logs.bind_silent fun left => ?_
  refine unlogged_openStream.logs.bind_silent fun exchange => ?_
  refine (unlogged_await _ _).logs.bind_silent fun _ => (logs_note _).bind ?_
  rintro _ _ rfl
  refine (unlogged_await _ _).logs.bind_silent fun _ => (logs_recvReply _ _ _ _).bind ?_
  rintro message _ rfl
  refine Prog.Leaves.bind_ofExcept fun answer hparse => ?_
  refine Prog.Leaves.ite (fun _ => Prog.Leaves.throw _) fun htruncated => Prog.Leaves.pure ?_
  exact ⟨Bool.not_eq_true _ ▸ htruncated, _, message, rfl, List.mem_singleton.mpr rfl, hparse⟩

/-! ## One family -/

/-- One question to one server: the reply over a datagram, or the one over a stream after it. -/
theorem logs_ask {server : Str} (hserver : server ∈ r.fields.nameservers) {question : Bytes} {name : Str}
    (hname : nameOf question = .ok name) (qtype : ℕ) (deadline : ℚ) :
    Logs (r.ask server question qtype deadline) fun answer added => answer.truncated = false ∧
      ∃ reply, Accepted r name question qtype reply ∧ reply.part = added ∧
        reply.records = answer.records := by
  rw [UdpResolver.ask, hname]
  refine unlogged_randbits.logs.bind_silent fun txid => ?_
  refine Prog.Leaves.bind_ofExcept fun asked hasked => ?_
  cases hasked
  refine (logs_overUdp _ _ _ _).bind ?_
  rintro answer _ ⟨before, message, rfl, hsent, hparse⟩
  refine Prog.Leaves.ite (fun htruncated => ?_) fun htruncated => Prog.Leaves.pure ?_
  · obtain ⟨records, truncated⟩ := answer
    obtain rfl : truncated = true := htruncated
    refine (logs_overTcp _ _ _ _).conseq ?_
    rintro ⟨records', _⟩ _ ⟨rfl, before', message', rfl, hsent', hparse'⟩
    refine ⟨rfl, ⟨server, .tcp, ⟨txid, name, qtype⟩, message', records', _⟩,
      ⟨hserver, rfl, rfl, ?_, responds_of_parse hname hparse'⟩, rfl, rfl⟩
    refine ⟨before ++ [.received .udp server ⟨txid, name, qtype⟩ message] ++ before',
      (List.append_assoc _ _ _).symm, List.mem_append_right _ hsent',
      fun _ => ⟨message, records, ?_, hparse⟩⟩
    exact List.mem_append_left _ (List.mem_append_right _ (List.mem_singleton.mpr rfl))
  · obtain ⟨records, truncated⟩ := answer
    obtain rfl : truncated = false := Bool.not_eq_true _ ▸ htruncated
    refine ⟨rfl, ⟨server, .udp, ⟨txid, name, qtype⟩, message, records, _⟩,
      ⟨hserver, rfl, rfl, ?_, responds_of_parse hname hparse⟩, rfl, rfl⟩
    refine ⟨before, List.append_nil _, hsent, ?_⟩
    intro htcp
    cases htcp

/-- The retry loop returns what one of its attempts returns; the failed ones before it leave only more
in the log. -/
theorem logs_queryFrom {host : Str} {question : Bytes} {name : Str} (hname : nameOf question = .ok name)
    (qtype : ℕ) (deadline : ℚ) {attempts : List Str} (failures : List Str)
    (h : ∀ server ∈ attempts, server ∈ r.fields.nameservers) :
    Logs (r.queryFrom host question qtype deadline attempts failures) fun records added =>
      ∃ reply, Accepted r name question qtype reply ∧ reply.part = added ∧ reply.records = records := by
  induction attempts generalizing failures with
  | nil => exact Prog.Leaves.throw _
  | cons server attempts ih =>
      rw [UdpResolver.queryFrom]
      refine unlogged_monotonic.logs.bind_silent fun now => ?_
      refine Prog.Leaves.ite (fun _ => Prog.Leaves.throw _) fun _ => ?_
      refine Prog.Leaves.tryCatch ?_ fun e first => ?_
      · refine (logs_ask (h server List.mem_cons_self) hname qtype deadline).bind ?_
        rintro answer _ ⟨-, reply, hreply, rfl, hrecords⟩
        exact Prog.Leaves.pure ⟨reply, hreply, (List.append_nil _).symm, hrecords⟩
      · refine Prog.Leaves.ite (fun _ => ?_) fun _ => Prog.Leaves.throw e
        refine (ih _ fun s hs => h s (List.mem_cons_of_mem _ hs)).conseq ?_
        rintro records _ ⟨reply, hreply, rfl, hrecords⟩
        exact ⟨_, hreply.prepend first, rfl, hrecords⟩

/-! ## Every family in scope -/

/-- The families a call asks about. -/
def scope (r : UdpResolver U) (family : ℤ) : List ℤ :=
  r.fields.families.filter fun wanted => family = 0 ∨ family = wanted

/-- One accepted reply for every family, in their order, and nothing else in the log. -/
theorem logs_lookupFrom {host : Str} {question : Bytes} {name : Str} (hname : nameOf question = .ok name)
    (deadline : ℚ) (families : List ℤ) :
    Logs (r.lookupFrom host question deadline families) fun records added => ∃ replies,
      List.Forall₂ (fun wanted => Accepted r name question (UdpResolver.qtypeOf wanted)) families replies ∧
        added = replies.flatMap Reply.part ∧ records = replies.flatMap Reply.records := by
  induction families with
  | nil => exact Prog.Leaves.pure ⟨[], List.Forall₂.nil, rfl, rfl⟩
  | cons wanted families ih =>
      rw [UdpResolver.lookupFrom]
      refine (logs_queryFrom hname _ deadline [] fun _ => mem_nameservers_of_mem_attempts).bind ?_
      rintro _ _ ⟨reply, hreply, rfl, rfl⟩
      refine ih.bind ?_
      rintro _ _ ⟨replies, hreplies, rfl, rfl⟩
      refine Prog.Leaves.pure ⟨reply :: replies, List.Forall₂.cons hreply hreplies, ?_, rfl⟩
      rw [List.append_nil, List.flatMap_cons]

/-- The first family that fails ends the loop with its error, whatever the families before it gave. -/
theorem exec_lookupFrom_of_failed {host : Str} {question : Bytes} {deadline : ℚ} {before : List ℤ}
    {wanted : ℤ} {after : List ℤ} {records : List Record} {e : Exc} {w w₁ w₂ : World}
    (hbefore : (r.lookupFrom host question deadline before).exec w = (.ok records, w₁))
    (hfailed : (r.query host question (UdpResolver.qtypeOf wanted) deadline).exec w₁ = (.error e, w₂)) :
    (r.lookupFrom host question deadline (before ++ wanted :: after)).exec w = (.error e, w₂) := by
  induction before generalizing w records with
  | nil =>
      cases hbefore
      rw [List.nil_append, UdpResolver.lookupFrom, Prog.exec_bind, hfailed]
  | cons first before ih =>
      rw [UdpResolver.lookupFrom, Prog.exec_bind] at hbefore
      rw [List.cons_append, UdpResolver.lookupFrom, Prog.exec_bind]
      cases hfirst : (r.query host question (UdpResolver.qtypeOf first) deadline).exec w with
      | mk result v =>
          rw [hfirst] at hbefore
          cases result with
          | error e' => cases hbefore
          | ok found =>
              dsimp only at hbefore ⊢
              rw [Prog.exec_bind] at hbefore ⊢
              cases hrest : (r.lookupFrom host question deadline before).exec v with
              | mk result' v' =>
                  rw [hrest] at hbefore
                  cases result' with
                  | error e' => cases hbefore
                  | ok found' =>
                      cases hbefore
                      rw [ih hrest]

/-! ## The call -/

/-- A call for a name returns the rows of the replies it has accepted. -/
theorem logs_call {host : Str} {port family socktype proto flags : ℤ}
    (hliteral : UdpResolver.literal U host (UdpResolver.numericHost flags) = .ok none) :
    Logs (r.call host port family socktype proto flags) fun rows added => ∃ question replies,
      encodeName U host = .ok question ∧
      List.Forall₂ (fun wanted => Accepted r (rstripDots host) question (UdpResolver.qtypeOf wanted))
        (scope r family) replies ∧
      added = replies.flatMap Reply.part ∧
      rows = (replies.flatMap Reply.records).map fun record =>
        UdpResolver.row record.ip port socktype proto := by
  rw [UdpResolver.call, hliteral]
  refine unlogged_monotonic.logs.bind_silent fun now => Prog.Leaves.bind_ofExcept fun parsed hparsed => ?_
  cases hparsed
  dsimp only
  unfold UdpResolver.lookup
  cases hquestion : encodeName U host with
  | error bad => exact Prog.Leaves.throw _
  | ok question =>
      refine (logs_lookupFrom (nameOf_of_encodeName hquestion) _ _).bind ?_
      rintro _ _ ⟨replies, hreplies, rfl, rfl⟩
      refine Prog.Leaves.ite (fun _ => Prog.Leaves.throw _) fun _ => Prog.Leaves.pure ?_
      exact ⟨question, replies, rfl, hreplies, List.append_nil _, rfl⟩

/-- A family that fails, once the ones before it have been answered, ends the call. -/
theorem exec_call_of_failed {host : Str} {port family socktype proto flags : ℤ} {question : Bytes}
    {before after : List ℤ} {wanted : ℤ} {now : ℚ} {records : List Record} {e : Exc}
    {w w₀ w₁ w₂ : World}
    (hliteral : UdpResolver.literal U host (UdpResolver.numericHost flags) = .ok none)
    (hquestion : encodeName U host = .ok question) (hscope : scope r family = before ++ wanted :: after)
    (hnow : monotonic.exec w = (.ok now, w₀))
    (hbefore : (r.lookupFrom host question (now + r.fields.timeout.value) before).exec w₀ =
      (.ok records, w₁))
    (hfailed : (r.query host question (UdpResolver.qtypeOf wanted)
      (now + r.fields.timeout.value)).exec w₁ = (.error e, w₂)) :
    (r.call host port family socktype proto flags).exec w = (.error e, w₂) := by
  have hlookup : (r.lookup host family (now + r.fields.timeout.value)).exec w₀ = (.error e, w₂) := by
    unfold UdpResolver.lookup
    rw [scope] at hscope
    rw [hquestion]
    dsimp only
    rw [hscope]
    exact exec_lookupFrom_of_failed hbefore hfailed
  -- `now` is what the one look at the clock has shown
  cases hnow
  rw [exec_call_of_lookup hliteral, hlookup]

/-- **A lookup that returns rests on one accepted reply for every family in scope.** Its rows are what
those replies carry, in the order of the families, and a family that fails ends the call. -/
theorem call_accepted (r : UdpResolver U) (schedule : Schedule) {host : Str}
    (port family socktype proto : ℤ) {flags : ℤ}
    (hliteral : UdpResolver.literal U host (UdpResolver.numericHost flags) = .ok none) :
    let run := (r.call host port family socktype proto flags).exec (World.start schedule)
    (∀ rows, run.1 = .ok rows → ∃ question replies, encodeName U host = .ok question ∧
      List.Forall₂ (fun wanted => Accepted r (rstripDots host) question (UdpResolver.qtypeOf wanted))
        (scope r family) replies ∧
      run.2.log = replies.flatMap Reply.part ∧
      rows = (replies.flatMap Reply.records).map fun record =>
        UdpResolver.row record.ip port socktype proto) ∧
    ∀ (question : Bytes) (before : List ℤ) (wanted : ℤ) (after : List ℤ) (now : ℚ)
      (records : List Record) (e : Exc) (w₀ w₁ w₂ : World),
      encodeName U host = .ok question → scope r family = before ++ wanted :: after →
      monotonic.exec (World.start schedule) = (.ok now, w₀) →
      (r.lookupFrom host question (now + r.fields.timeout.value) before).exec w₀ = (.ok records, w₁) →
      (r.query host question (UdpResolver.qtypeOf wanted) (now + r.fields.timeout.value)).exec w₁ =
        (.error e, w₂) →
      run = (.error e, w₂) := by
  intro run
  refine ⟨?_, ?_⟩
  · intro rows hrows
    have hrun : (r.call host port family socktype proto flags).exec (World.start schedule) =
        (.ok rows, run.2) := Prod.ext hrows rfl
    obtain ⟨added, hlog, question, replies, hquestion, hreplies, rfl, hrows⟩ :=
      (logs_call hliteral).ok hrun
    exact ⟨question, replies, hquestion, hreplies, hlog, hrows⟩
  · intro question before wanted after now records e w₀ w₁ w₂ hquestion hscope hnow hbefore hfailed
    exact exec_call_of_failed hliteral hquestion hscope hnow hbefore hfailed

/-- A resolver that asks one server, for both families. -/
def dualStack : UdpResolver Unicode.ascii where
  fields := { nameservers := [text "127.0.0.1"] }
  valid := by decide +kernel

/-- A response about `a` with these flags, type and answer section. -/
def responseAbout (flags qtype ancount : ℕ) (answers : Bytes) : Bytes :=
  packShort 0x1234 ++ packShort flags ++ packShort 1 ++ packShort ancount ++ [0, 0, 0, 0, 1, 0x61, 0] ++
    packShort qtype ++ packShort classIn ++ answers

/-- A record of `192.0.2.1` for the name in the question. -/
def documentationRecord : Bytes := [0xC0, 12, 0, 1, 0, 1, 0, 0, 0, 60, 0, 4, 192, 0, 2, 1]

/-- The query for the IPv4 addresses of `a`. -/
def plainQuery : Query := { txid := plainTxid, name := text "a", qtype := typeA }

/-- The name has no IPv6 address, and its IPv4 address does not fit in a datagram. -/
def addressOverTcp : Schedule where
  tick _ := 0
  tick_nonneg := still_nonneg
  txid _ := plainTxid
  udp
    | 0 => { failure := none, arrivals := [.ready (responseAbout 0x8180 typeAaaa 0 [])] }
    | _ => { failure := none, arrivals := [.ready (responseAbout 0x8380 typeA 0 [])] }
  tcp _ := {
    connecting := .ready ()
    sending := .ready ()
    arrivals := [.ready (packShort 35 ++ responseAbout 0x8180 typeA 1 documentationRecord)] }

theorem call_accepted_dualStack :
    let run := (dualStack.call (text "a") 80 0 sockStream 0 0).exec (World.start addressOverTcp)
    run.1 = .ok [UdpResolver.row (.v4 0xC0000201) 80 sockStream 0] ∧
      ∃ replies, List.Forall₂ (fun wanted => Accepted dualStack (text "a") [1, 0x61, 0]
          (UdpResolver.qtypeOf wanted)) [afInet6, afInet] replies ∧
        run.2.log = replies.flatMap Reply.part := by
  have hrun : ((dualStack.call (text "a") 80 0 sockStream 0 0).exec (World.start addressOverTcp)).1 =
      .ok [UdpResolver.row (.v4 0xC0000201) 80 sockStream 0] := by
    decide +kernel
  refine ⟨hrun, ?_⟩
  obtain ⟨question, replies, hquestion, hreplies, hlog, -⟩ :=
    (call_accepted dualStack addressOverTcp 80 0 sockStream 0
      (show UdpResolver.literal _ (text "a") (UdpResolver.numericHost 0) = .ok none by
        decide +kernel)).1 _ hrun
  have hencoded : encodeName Unicode.ascii (text "a") = .ok [1, 0x61, 0] := by decide +kernel
  rw [hencoded] at hquestion
  cases hquestion
  exact ⟨replies, hreplies, hlog⟩

end SsrfGuard.Dns
