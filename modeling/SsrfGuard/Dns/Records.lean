import SsrfGuard.Dns.Replies

/-! # The lookup with the lifetimes kept

`records` is meant to be the lookup of `__call__` with the lifetimes kept. It makes the same queries, and two
things it leaves out: it does not look whether the host is a literal, which it asks a nameserver about, and it
does not look whether an address was found, where `__call__` raises. So the two agree exactly when the host
is a name and not every family in scope is answered without an address. -/

namespace SsrfGuard.Dns

variable (U : Unicode)

/-! ## The answers of a run -/

/-- The records of an answer, when the event is the receipt of one that is not truncated. -/
def Event.answer : Event → Option (List Record)
  | .received _ _ query message =>
    match parse U message query.txid query.name query.qtype with
    | .ok { records := records, truncated := false } => some records
    | _ => none
  | _ => none

/-- The answers received in a run, in order. -/
def answers (log : List Event) : List (List Record) := log.filterMap (Event.answer U)

variable {U}

@[simp] theorem answers_nil : answers U [] = [] := rfl

@[simp] theorem answers_append (first second : List Event) :
    answers U (first ++ second) = answers U first ++ answers U second := List.filterMap_append

theorem answers_received_of_error {transport : Transport} {server : Str} {query : Query} {message : Bytes}
    {e : Exc} (h : parse U message query.txid query.name query.qtype = .error e) :
    answers U [.received transport server query message] = [] := by
  simp [answers, Event.answer, h]

theorem answers_received {transport : Transport} {server : Str} {query : Query} {message : Bytes}
    {answer : Answer} (h : parse U message query.txid query.name query.qtype = .ok answer) :
    answers U [.received transport server query message] =
      if answer.truncated then [] else [answer.records] := by
  obtain ⟨records, truncated⟩ := answer
  cases truncated <;> simp [answers, Event.answer, h]

/-- The program receives the answers of what it returns, and none when it raises. -/
def Answers (U : Unicode) {α : Type} (x : Net α) (found : α → List (List Record)) : Prop :=
  Prog.Adds World.log x fun result added =>
    answers U added = match result with
      | .ok a => found a
      | .error _ => []

namespace Answers

variable {α β : Type} {found : α → List (List Record)}

theorem pure {a : α} (h : found a = []) : Answers U (Pure.pure a) found := Prog.Adds.pure h.symm

theorem throw (e : Exc) : Answers U (MonadExcept.throw e) found := Prog.Adds.throw rfl

/-- A program that writes nothing down receives no answer. -/
theorem of_unlogged {x : Net α} (h : Unlogged x) : Answers U x fun _ => [] := by
  refine h.conseq fun result added hadded => ?_
  rw [hadded]
  cases result <;> rfl

/-- Sequence after a program that receives none. -/
theorem bind {x : Net β} {f : β → Net α} (hx : Answers U x fun _ => []) (hf : ∀ b, Answers U (f b) found) :
    Answers U (x >>= f) found := by
  refine Prog.Adds.bind hx (fun b first hfirst => ?_) fun e first hfirst => hfirst
  refine (hf b).conseq fun result second hsecond => ?_
  rw [answers_append, hfirst, List.nil_append, hsecond]

theorem note {event : Event} (h : answers U [event] = []) : Answers U (Dns.note event) fun _ => [] := by
  refine (adds_note event).conseq ?_
  rintro _ _ ⟨rfl, rfl⟩
  exact h

/-- A message is received and read: it is an answer when it is read as one. -/
theorem received_bind {transport : Transport} {server : Str} {query : Query} {message : Bytes}
    {f : Unit → Net α}
    (hok : ∀ answer, parse U message query.txid query.name query.qtype = .ok answer →
      Prog.Adds World.log (f ()) fun result added =>
        (if answer.truncated then [] else [answer.records]) ++ answers U added =
          match result with
          | .ok a => found a
          | .error _ => [])
    (herror : ∀ e, parse U message query.txid query.name query.qtype = .error e → Answers U (f ()) found) :
    Answers U (Dns.note (.received transport server query message) >>= f) found := by
  refine (adds_note _).bind ?_ ?_
  · rintro _ first ⟨-, rfl⟩
    cases hparse : parse U message query.txid query.name query.qtype with
    | ok answer =>
        refine (hok answer hparse).conseq fun result second hsecond => ?_
        rw [answers_append, answers_received hparse, hsecond]
    | error e =>
        refine (herror e hparse).conseq fun result second hsecond => ?_
        rw [answers_append, answers_received_of_error hparse, List.nil_append, hsecond]
  · rintro e first ⟨he, -⟩
    cases he

end Answers

/-! ## One exchange -/

/-- The wait on a datagram socket receives an answer when it returns one that is not truncated. -/
theorem answers_awaitAnswer (server : Str) (query : Query) (attemptEnds : ℚ)
    (arrivals : List (Timed Bytes)) :
    Answers U (UdpResolver.awaitAnswer U server query attemptEnds arrivals) fun answer =>
      if answer.truncated then [] else [answer.records] := by
  induction arrivals with
  | nil =>
      rw [UdpResolver.awaitAnswer]
      refine (Answers.of_unlogged (unlogged_timeLeft _ _)).bind fun left => ?_
      exact (Answers.of_unlogged (unlogged_elapse left)).bind fun _ => Answers.throw _
  | cons arrival arrivals ih =>
      rw [UdpResolver.awaitAnswer]
      refine (Answers.of_unlogged (unlogged_timeLeft _ _)).bind fun left => ?_
      refine (Answers.of_unlogged (unlogged_await left arrival)).bind fun datagram => ?_
      refine Answers.received_bind (fun answer hparse => ?_) fun e hparse => ?_
      · rw [hparse]
        exact Prog.Adds.pure (List.append_nil _)
      · rw [hparse]
        dsimp only
        split
        · exact ih
        · exact Answers.throw e

variable {r : UdpResolver U}

theorem answers_overUdp (server : Str) (sent : Bytes) (query : Query) (until_ : ℚ) :
    Answers U (r.overUdp server sent query until_) fun answer =>
      if answer.truncated then [] else [answer.records] := by
  rw [UdpResolver.overUdp]
  refine (Answers.of_unlogged unlogged_monotonic).bind fun now => ?_
  refine (Answers.of_unlogged (Prog.Adds.ofExcept rfl)).bind fun family => Answers.bind ?_ fun exchange => ?_
  · refine (adds_openDatagram family).conseq fun result added hadded => ?_
    rw [hadded]
    cases result <;> rfl
  · exact (Answers.note rfl).bind fun _ => answers_awaitAnswer _ _ _ _

/-- The reply over a stream is an answer when it is returned: a truncated one is refused. -/
theorem answers_overTcp (server : Str) (sent : Bytes) (query : Query) (until_ : ℚ) :
    Answers U (r.overTcp server sent query until_) fun answer => [answer.records] := by
  rw [UdpResolver.overTcp]
  refine (Answers.of_unlogged (unlogged_timeLeft _ _)).bind fun left => ?_
  refine (Answers.of_unlogged unlogged_openStream).bind fun exchange => ?_
  refine (Answers.of_unlogged (unlogged_await _ _)).bind fun _ => (Answers.note rfl).bind fun _ => ?_
  refine (Answers.of_unlogged (unlogged_await _ _)).bind fun _ => ?_
  rw [UdpResolver.recvReply]
  simp only [bind_assoc]
  refine (Answers.of_unlogged (unlogged_recvExactly _ _ _)).bind fun length => ?_
  split
  · exact Answers.throw _
  · rw [bind_assoc]
    refine (Answers.of_unlogged (unlogged_recvExactly _ _ _)).bind fun reply => ?_
    simp only [bind_assoc, pure_bind]
    refine Answers.received_bind (fun answer hparse => ?_) fun e hparse => ?_
    · rw [hparse]
      refine Prog.Adds.bind_ofExcept (fun answer' hanswer => ?_) fun e he => ?_
      · cases hanswer
        split
        · exact Prog.Adds.throw rfl
        · exact Prog.Adds.pure rfl
      · cases he
    · rw [hparse]
      refine Prog.Adds.bind_ofExcept (fun answer hanswer => ?_) fun _ _ => rfl
      cases hanswer

/-- One question to one server brings one answer, the one that is returned. -/
theorem answers_ask (server : Str) (question : Bytes) (qtype : ℕ) (deadline : ℚ) :
    Answers U (r.ask server question qtype deadline) fun answer => [answer.records] := by
  rw [UdpResolver.ask]
  refine (Answers.of_unlogged unlogged_randbits).bind fun txid => ?_
  refine (Answers.of_unlogged (Prog.Adds.ofExcept rfl)).bind fun name => ?_
  refine Prog.Adds.bind (answers_overUdp _ _ _ _) (fun answer first hfirst => ?_) fun e first hfirst => hfirst
  dsimp only at hfirst
  split
  · next htruncated =>
    rw [if_pos htruncated] at hfirst
    refine (answers_overTcp _ _ _ _).conseq fun result second hsecond => ?_
    rw [answers_append, hfirst, List.nil_append, hsecond]
  · next htruncated =>
    rw [if_neg htruncated] at hfirst
    exact Prog.Adds.pure (by rw [List.append_nil, hfirst])

/-! ## The lookup -/

/-- However often it is asked, one family brings one answer, the one that is returned. -/
theorem answers_queryFrom (host : Str) (question : Bytes) (qtype : ℕ) (deadline : ℚ)
    (attempts failures : List Str) :
    Answers U (r.queryFrom host question qtype deadline attempts failures) fun records => [records] := by
  induction attempts generalizing failures with
  | nil => exact Answers.throw _
  | cons server attempts ih =>
      rw [UdpResolver.queryFrom]
      refine (Answers.of_unlogged unlogged_monotonic).bind fun now => ?_
      split
      · exact Answers.throw _
      · have hask : Answers U (do
            let answer ← r.ask server question qtype deadline
            pure answer.records : Net (List Record)) fun records => [records] := by
          refine Prog.Adds.bind (answers_ask server question qtype deadline) (fun answer first hfirst => ?_)
            fun e first hfirst => hfirst
          exact Prog.Adds.pure (by rw [List.append_nil, hfirst])
        refine Prog.Adds.tryCatch hask (fun _ _ hfirst => hfirst) fun e first hfirst => ?_
        split
        · refine (ih _).conseq fun result second hsecond => ?_
          rw [answers_append, hfirst, List.nil_append, hsecond]
        · exact Prog.Adds.throw (by rw [List.append_nil, hfirst])

/-- A lookup that returns has one answer for every family, and its records are theirs; one that raises has
fewer. -/
theorem answers_lookupFrom (host : Str) (question : Bytes) (deadline : ℚ) (families : List ℤ) :
    Prog.Adds World.log (r.lookupFrom host question deadline families) fun result added =>
      match result with
      | .ok records => (answers U added).length = families.length ∧ (answers U added).flatten = records
      | .error _ => (answers U added).length < families.length := by
  induction families with
  | nil => exact Prog.Adds.pure ⟨rfl, rfl⟩
  | cons wanted families ih =>
      rw [UdpResolver.lookupFrom]
      refine Prog.Adds.bind (answers_queryFrom host question _ deadline _ _) (fun records first hfirst => ?_)
        fun e first hfirst => ?_
      · refine ih.bind (fun rest second hsecond => Prog.Adds.pure ?_) fun e second hsecond => ?_
        · rw [List.append_nil, answers_append, hfirst]
          obtain ⟨hlength, hrest⟩ := hsecond
          exact ⟨by simp [hlength], by simp [hrest]⟩
        · dsimp only at hsecond ⊢
          rw [answers_append, hfirst, List.length_append]
          simp only [List.length_cons, List.length_nil]
          omega
      · dsimp only at hfirst ⊢
        rw [hfirst]
        exact Nat.succ_pos _

namespace UdpResolver

/-- A log in which every family in scope is answered and no answer carries an address, for a name that can
be asked about. -/
def AnsweredEmpty (r : UdpResolver U) (host : Str) (family : ℤ) (log : List Event) : Prop :=
  (∃ question, encodeName U host = .ok question) ∧
    (answers U log).length = (scope r family).length ∧ (answers U log).flatten = []

end UdpResolver

theorem answers_lookup (host : Str) (family : ℤ) (deadline : ℚ) :
    Prog.Adds World.log (r.lookup host family deadline) fun result added =>
      match result with
      | .ok records => (r.AnsweredEmpty host family added ↔ records = [])
      | .error _ => ¬ r.AnsweredEmpty host family added := by
  unfold UdpResolver.lookup
  cases hquestion : encodeName U host with
  | error bad =>
      refine Prog.Adds.throw ?_
      rintro ⟨⟨question, hok⟩, -⟩
      rw [hquestion] at hok
      cases hok
  | ok question =>
      refine (answers_lookupFrom host question deadline _).conseq fun result added hadded => ?_
      cases result with
      | ok records =>
          obtain ⟨hlength, hrecords⟩ := hadded
          dsimp only
          rw [UdpResolver.AnsweredEmpty, hrecords, hquestion]
          exact ⟨fun h => h.2.2, fun h => ⟨⟨question, rfl⟩, hlength, h⟩⟩
      | error e =>
          rintro ⟨-, hlength, -⟩
          exact absurd hlength hadded.ne

/-- The query of the first reply was sent. -/
theorem sent_of_replies {name : Str} {question : Bytes} {families : List ℤ} {replies : List Reply}
    (h : List.Forall₂ (fun wanted => Accepted r name question (UdpResolver.qtypeOf wanted)) families replies)
    (hne : replies.flatMap Reply.records ≠ []) :
    ∃ transport server message, .sent transport server message ∈ replies.flatMap Reply.part := by
  cases h with
  | nil => exact absurd rfl hne
  | cons hreply _ =>
      obtain ⟨before, hpart, hsent, -⟩ := hreply.exchanged
      exact ⟨_, _, _, List.mem_append_left _ (hpart ▸ List.mem_append_left _ hsent)⟩

/-- A lookup that finds an address has sent a query. -/
theorem sent_of_lookup {host : Str} {family : ℤ} {deadline : ℚ} {w v : World} {records : List Record}
    (h : (r.lookup host family deadline).exec w = (.ok records, v)) (hne : records ≠ []) :
    ∃ transport server message, .sent transport server message ∈ v.log := by
  unfold UdpResolver.lookup at h
  cases hquestion : encodeName U host with
  | error bad =>
      rw [hquestion] at h
      cases h
  | ok question =>
      rw [hquestion] at h
      obtain ⟨added, hlog, replies, hreplies, rfl, rfl⟩ :=
        (logs_lookupFrom (nameOf_of_encodeName hquestion) deadline _).ok h
      obtain ⟨transport, server, message, hsent⟩ := sent_of_replies hreplies hne
      exact ⟨transport, server, message, hlog ▸ List.mem_append_right _ hsent⟩

/-! ## The two entry points -/

/-- The same addresses in the same order, or a failure of both. -/
def SameAddresses : Except Exc (List Record) → Except Exc (List ResolverAnswer) → Prop
  | .ok records, .ok rows =>
    rows.map (·.sockaddr.head?) = records.map fun record => some (.str record.ip.str)
  | .error _, .error _ => True
  | _, _ => False

namespace UdpResolver

/-- `records` and `__call__` agree about a host: they give the same addresses or both fail, and neither asks
a nameserver about a literal. -/
def Agrees (r : UdpResolver U) (host : Str) (family : ℤ) (w : World) : Prop :=
  let recordsRun := (r.records host family).exec w
  let callRun := (r.call host 0 family 0 0 0).exec w
  SameAddresses recordsRun.1 callRun.1 ∧
    ∀ address, literal U host false = .ok (some address) → ∀ transport server message,
      .sent transport server message ∉ recordsRun.2.log ∧ .sent transport server message ∉ callRun.2.log

theorem literal_ok (host : Str) : ∃ parsed, literal U host false = .ok parsed := by
  unfold literal
  cases ipAddress U (stripBrackets host) with
  | ok address => exact ⟨_, rfl⟩
  | error e => exact ⟨none, rfl⟩

theorem head?_row (ip : IPAddress) (port socktype proto : ℤ) :
    (row ip port socktype proto).sockaddr.head? = some (.str ip.str) := by
  cases ip <;> rfl

variable (r : UdpResolver U) {host : Str} (family : ℤ)

/-- A name is looked up as `records` does, and then found to have an address or not. -/
theorem exec_call_of_name (h : literal U host false = .ok none) (w : World) :
    (r.call host 0 family 0 0 0).exec w =
      match (r.records host family).exec w with
      | (.ok records, v) =>
        (if records = [] then .error (.gaierror (some eaiNoname) (host ++ text ": no address records"))
          else .ok (records.map fun record => row record.ip 0 0 0), v)
      | (.error e, v) => (.error e, v) := by
  have hflags : literal U host (numericHost 0) = .ok none := h
  rw [exec_call_of_lookup hflags]
  rfl

/-- What `records` leaves behind in a fresh run. -/
theorem records_run (r : UdpResolver U) (schedule : Schedule) (host : Str) (family : ℤ) :
    let run := (r.records host family).exec (World.start schedule)
    match run.1 with
    | .ok records =>
      (r.AnsweredEmpty host family run.2.log ↔ records = []) ∧
        (records ≠ [] → ∃ transport server message, .sent transport server message ∈ run.2.log)
    | .error _ => ¬ r.AnsweredEmpty host family run.2.log := by
  intro run
  have hrun : run = (r.lookup host family (schedule.tick 0 + r.fields.timeout.value)).exec
      { World.start schedule with clock := schedule.tick 0, readings := 1 } := by
    show (r.records host family).exec (World.start schedule) = _
    rw [records, Prog.exec_bind]
    dsimp only [monotonic, Prog.exec_ofFun, World.start]
    rw [zero_add]
  obtain ⟨added, hlog, hempty⟩ := @answers_lookup U r host family
    (schedule.tick 0 + r.fields.timeout.value)
    { World.start schedule with clock := schedule.tick 0, readings := 1 }
  rw [← hrun] at hlog hempty
  have hadded : run.2.log = added := hlog
  rw [hadded]
  cases hresult : run.1 with
  | error e =>
      rw [hresult] at hempty
      exact hempty
  | ok records =>
      rw [hresult] at hempty
      refine ⟨hempty, fun hne => ?_⟩
      rw [← hadded]
      exact sent_of_lookup (hrun.symm.trans (Prod.ext hresult rfl)) hne

end UdpResolver

/-- **`records` and `__call__` agree exactly about names that do not come back without an address.** -/
theorem records_agrees_iff (r : UdpResolver U) (schedule : Schedule) (host : Str) (family : ℤ) :
    r.Agrees host family (World.start schedule) ↔
      UdpResolver.literal U host false = .ok none ∧
        ¬ r.AnsweredEmpty host family ((r.records host family).exec (World.start schedule)).2.log := by
  have hrun := UdpResolver.records_run r schedule host family
  dsimp only at hrun
  rw [UdpResolver.Agrees]
  obtain ⟨parsed, hparsed⟩ := UdpResolver.literal_ok (U := U) host
  cases parsed with
  | none =>
      rw [r.exec_call_of_name family hparsed, hparsed]
      cases hexec : (r.records host family).exec (World.start schedule) with
      | mk result v =>
          rw [hexec] at hrun
          cases result with
          | error e =>
              refine iff_of_true ⟨True.intro, fun address h => ?_⟩ ⟨rfl, hrun⟩
              cases h
          | ok records =>
              dsimp only at hrun ⊢
              rw [hrun.1]
              by_cases hnone : records = []
              · rw [if_pos hnone]
                exact iff_of_false (fun h => h.1) fun h => h.2 hnone
              · rw [if_neg hnone]
                refine iff_of_true ⟨?_, fun address h => ?_⟩ ⟨rfl, hnone⟩
                · simp only [SameAddresses, List.map_map]
                  exact List.map_congr_left fun record _ => UdpResolver.head?_row _ _ _ _
                · cases h
  | some address =>
      -- a literal that comes back with an address was asked about
      rw [exec_call_of_literal hparsed, hparsed]
      refine iff_of_false ?_ fun h => ?_
      · rintro ⟨hsame, hunsent⟩
        cases hexec : (r.records host family).exec (World.start schedule) with
        | mk result v =>
            rw [hexec] at hrun hsame hunsent
            cases result with
            | error e => exact hsame
            | ok records =>
                have hne : records ≠ [] := by
                  rintro rfl
                  cases hsame
                obtain ⟨transport, server, message, hsent⟩ := hrun.2 hne
                exact (hunsent address rfl transport server message).1 hsent
      · cases h.1

/-- A network where every exchange brings this datagram at once. -/
def repliesWith (datagram : Bytes) : Schedule where
  tick _ := 0
  tick_nonneg := still_nonneg
  txid _ := plainTxid
  udp _ := { failure := none, arrivals := [.ready datagram] }
  tcp _ := { connecting := .ready (), sending := .ready (), arrivals := [] }

/-- A response about `a` without a record. -/
def emptyResponse : Bytes := responseAbout 0x8180 typeA 0 []

/-- A name without an address is an empty answer to the one and a failure to the other, and a literal is sent
to a nameserver. -/
theorem records_disagrees :
    ((dualStack.records (text "a") afInet).exec (World.start (repliesWith emptyResponse))).1 = .ok [] ∧
    ((dualStack.call (text "a") 0 afInet 0 0 0).exec (World.start (repliesWith emptyResponse))).1 =
      .error (.gaierror (some eaiNoname) (text "a: no address records")) ∧
    ¬ dualStack.Agrees (text "a") afInet (World.start (repliesWith emptyResponse)) ∧
    .sent .udp (text "127.0.0.1") (UdpResolver.queryMessage 0x1234
        [1, 0x31, 1, 0x30, 1, 0x30, 1, 0x31, 0] typeA) ∈
      ((dualStack.records (text "1.0.0.1") afInet).exec (World.start (repliesWith []))).2.log ∧
    ¬ dualStack.Agrees (text "1.0.0.1") afInet (World.start (repliesWith [])) := by
  have hrecords : ((dualStack.records (text "a") afInet).exec
      (World.start (repliesWith emptyResponse))).1 = .ok [] := by
    decide +kernel
  have hcall : ((dualStack.call (text "a") 0 afInet 0 0 0).exec
      (World.start (repliesWith emptyResponse))).1 =
        .error (.gaierror (some eaiNoname) (text "a: no address records")) := by
    decide +kernel
  have hsent : .sent .udp (text "127.0.0.1") (UdpResolver.queryMessage 0x1234
        [1, 0x31, 1, 0x30, 1, 0x30, 1, 0x31, 0] typeA) ∈
      ((dualStack.records (text "1.0.0.1") afInet).exec (World.start (repliesWith []))).2.log := by
    decide +kernel
  refine ⟨hrecords, hcall, ?_, hsent, ?_⟩
  · rintro ⟨hsame, -⟩
    rw [hrecords, hcall] at hsame
    exact hsame
  · rintro ⟨-, hunsent⟩
    have hliteral : UdpResolver.literal Unicode.ascii (text "1.0.0.1") false = .ok (some (.v4 0x01000001)) := by
      decide +kernel
    exact (hunsent _ hliteral _ _ _).1 hsent

end SsrfGuard.Dns
