import SsrfGuard.Dns.UdpResolver

/-! # How a lookup ends

A lookup returns rows or raises `socket.gaierror`, as long as no nameserver answers a different question
over TCP. A reply to a different question is waited out on a datagram socket; on a stream it raises
`_WrongQuestionError`, which the retry loop does not catch, so the lookup ends there. -/

namespace SsrfGuard.Dns

variable (U : Unicode)

/-- A message received over TCP that answers a different question than the one sent: another transaction
id, not a response, or another question. -/
def Event.isForeign : Event → Bool
  | .received .tcp _ query message =>
    match parse U message query.txid query.name query.qtype with
    | .error e => e.isWrongQuestionError
    | .ok _ => false
  | _ => false

/-- The world's log has a property that only a foreign reply may take away. -/
structure LogInvariant where
  /-- The property. -/
  holds : List Event → Prop
  /-- Every other event keeps it. -/
  kept : ∀ {log event}, holds log → event.isForeign U = false → holds (log ++ [event])

/-- No foreign reply so far. -/
def LogInvariant.clean : LogInvariant U where
  holds log := ∀ event ∈ log, event.isForeign U = false
  kept := by
    intro log event hlog hevent e he
    rcases List.mem_append.mp he with he | he
    · exact hlog e he
    · rwa [List.mem_singleton.mp he]

/-- No condition on the log. -/
def LogInvariant.trivial : LogInvariant U where
  holds _ := True
  kept _ _ := True.intro

variable {U} (I : LogInvariant U)

/-- The invariant as a condition on the world. -/
def LogInvariant.world (w : World) : Prop := I.holds w.log

/-- The program keeps the invariant and raises only what is in `E`. -/
abbrev Quiet {α : Type} (E : Exc → Prop) (x : Net α) : Prop := Prog.Keeps I.world E x

/-- What the handler of `_query` catches. -/
abbrev Caught (e : Exc) : Prop := UdpResolver.isCaught e = true

/-! ## Programs that cannot meet a foreign reply -/

section Quiet

variable {I} {E : Exc → Prop}

/-- The condition is about the log, and time leaves that alone. -/
theorem timeless_world : Timeless I.world := ⟨fun hw _ => hw, fun hw _ => hw⟩

theorem quiet_monotonic : Quiet I E monotonic := timeless_world.monotonic

theorem quiet_randbits : Quiet I E randbits := Prog.Keeps.ofFun fun _ hw => ⟨_, _, rfl, hw⟩

theorem quiet_note {event : Event} (h : event.isForeign U = false) : Quiet I E (note event) :=
  Prog.Keeps.ofFun fun _ hw => ⟨_, _, rfl, I.kept hw h⟩

theorem caught_of_isOSError {e : Exc} (h : e.isOSError = true) : Caught e := by
  simp [Caught, UdpResolver.isCaught, h]

theorem caught_of_isMalformedError {e : Exc} (h : e.isMalformedError = true) : Caught e := by
  simp [Caught, UdpResolver.isCaught, h]

/-- A reply that is not to a different question is refused with a class the retry loop catches. -/
theorem caught_of_parse {message : Bytes} {txid qtype : ℕ} {name : Str} {e : Exc}
    (h : parse U message txid name qtype = .error e) (hwrong : e.isWrongQuestionError = false) :
    Caught e := by
  rcases raisesOnly_parse _ _ _ _ e h with hmalformed | hwrong' | hfailure
  · exact caught_of_isMalformedError hmalformed
  · rw [hwrong] at hwrong'
    cases hwrong'
  · simp [Caught, UdpResolver.isCaught, hfailure]

theorem quiet_await {α : Type} (timeout : ℚ) (operation : Timed α) :
    Quiet I Caught (await timeout operation) := timeless_world.await timeout operation

theorem quiet_silence {α : Type} (timeout : ℚ) : Quiet I Caught (silence timeout : Net α) :=
  timeless_world.silence timeout

theorem quiet_openDatagram (family : ℤ) : Quiet I Caught (openDatagram family) := by
  refine (quiet_note rfl).bind fun _ => ?_
  refine Prog.Keeps.bind (Prog.Keeps.ofFun fun _ hw => ⟨_, _, rfl, hw⟩) fun exchange => ?_
  split
  · exact Prog.Keeps.throw (caught_of_isOSError (SocketError.isOSError_exc _))
  · exact Prog.Keeps.pure _

theorem quiet_openStream : Quiet I E openStream := Prog.Keeps.ofFun fun _ hw => ⟨_, _, rfl, hw⟩

theorem quiet_timeLeft (until_ : ℚ) (whose : Str) : Quiet I Caught (timeLeft until_ whose) :=
  timeless_world.timeLeft until_ whose

theorem quiet_recvExactly (until_ : ℚ) (count : ℕ) (arrivals : List (Timed Bytes)) :
    Quiet I Caught (recvExactly until_ count arrivals) := timeless_world.recvExactly until_ count arrivals

/-- A wrong reply over UDP is waited out; a malformed one, or a failure, is caught by the retry loop. -/
theorem quiet_awaitAnswer (server : Str) (query : Query) (attemptEnds : ℚ)
    (arrivals : List (Timed Bytes)) :
    Quiet I Caught (UdpResolver.awaitAnswer U server query attemptEnds arrivals) := by
  induction arrivals with
  | nil => exact (quiet_timeLeft _ _).bind fun left => quiet_silence left
  | cons arrival arrivals ih =>
      rw [UdpResolver.awaitAnswer]
      refine (quiet_timeLeft _ _).bind fun left => (quiet_await left arrival).bind fun datagram => ?_
      refine (quiet_note rfl).bind fun _ => ?_
      split
      · exact Prog.Keeps.pure _
      · next e he =>
        split
        · exact ih
        · next hwrong => exact Prog.Keeps.throw (caught_of_parse he (Bool.not_eq_true _ ▸ hwrong))

variable {r : UdpResolver U} {server : Str}

/-- A configured nameserver is an address. -/
theorem familyOf_eq_ok (h : server ∈ r.fields.nameservers) : ∃ family, familyOf U server = .ok family := by
  have hvalid := r.valid
  rw [ResolverFields.postInit] at hvalid
  split at hvalid
  · cases hvalid
  · obtain ⟨⟨⟩, hservers, -⟩ := Except.bind_eq_ok.mp hvalid
    have hchecked : ResolverFields.checkNameserver U server = .ok () := Except.forM_eq_ok.mp hservers _ h
    rw [ResolverFields.checkNameserver] at hchecked
    split at hchecked
    · next address haddress =>
      rw [familyOf, haddress]
      exact ⟨_, rfl⟩
    · cases hchecked

theorem quiet_overUdp (h : server ∈ r.fields.nameservers) (message : Bytes) (query : Query)
    (until_ : ℚ) : Quiet I Caught (r.overUdp server message query until_) := by
  obtain ⟨family, hfamily⟩ := familyOf_eq_ok h
  rw [UdpResolver.overUdp, hfamily]
  refine quiet_monotonic.bind fun now => ?_
  refine Prog.Keeps.bind (Prog.Keeps.ofExcept fun _ he => nomatch he) fun _ => ?_
  refine (quiet_openDatagram _).bind fun exchange => (quiet_note rfl).bind fun _ => ?_
  exact quiet_awaitAnswer _ _ _ _

end Quiet

/-! ## The one exception that gets out -/

/-- The log is one the invariant holds of, and then a foreign reply. -/
def EndsForeign (w : World) : Prop :=
  ∃ log event, w.log = log ++ [event] ∧ I.holds log ∧ event.isForeign U = true

/-- The program keeps the invariant and raises what is in `E`, or else it has just met a foreign reply
and raises `_WrongQuestionError`. -/
def Ends {α : Type} (E : Exc → Prop) (x : Net α) : Prop :=
  Prog.Triple I.world x (fun _ => I.world) fun e w =>
    (E e ∧ I.world w) ∨ (e.isWrongQuestionError = true ∧ EndsForeign I w)

section Ends

variable {I} {E : Exc → Prop} {α β : Type} {x : Net α}

theorem Ends.of_quiet (h : Quiet I E x) : Ends I E x :=
  h.conseq (fun _ => id) (fun _ _ => id) fun _ _ => .inl

theorem Ends.bind {f : α → Net β} (hx : Ends I E x) (hf : ∀ a, Ends I E (f a)) : Ends I E (x >>= f) :=
  Prog.Triple.bind hx hf

/-- Reading a reply over TCP writes it down last. -/
theorem recvReply_spec (server : Str) (query : Query) (until_ : ℚ) (arrivals : List (Timed Bytes)) :
    Prog.Triple I.world (UdpResolver.recvReply server query until_ arrivals)
      (fun reply w => ∃ log, I.holds log ∧ w.log = log ++ [.received .tcp server query reply])
      fun e w => Caught e ∧ I.world w := by
  rw [UdpResolver.recvReply]
  refine Prog.Triple.bind (quiet_recvExactly _ _ _) fun ⟨length, rest⟩ => ?_
  dsimp only
  split
  · exact Prog.Triple.throw fun _ hw => ⟨rfl, hw⟩
  · refine Prog.Triple.bind (quiet_recvExactly _ _ _) fun ⟨reply, _⟩ => ?_
    intro w hw
    exact ⟨w.log, hw, rfl⟩

/-- What a reply over TCP comes to: an answer, a caught error, or a foreign reply. -/
theorem ends_parseReply (server : Str) (query : Query) (until_ : ℚ) (arrivals : List (Timed Bytes)) :
    Ends I Caught (do
      let reply ← UdpResolver.recvReply server query until_ arrivals
      let answer ← Prog.ofExcept (parse U reply query.txid query.name query.qtype)
      if answer.truncated then throw (.malformedError (text "a TCP reply is marked truncated"))
      else pure answer) := by
  refine Prog.Triple.bind ((recvReply_spec server query until_ arrivals).conseq (fun _ => id)
    (fun _ _ => id) fun _ _ => .inl) fun reply => ?_
  -- here an answer, a caught refusal and a foreign reply part
  have hparse : Prog.Triple (fun w => ∃ log, I.holds log ∧ w.log = log ++ [.received .tcp server query reply])
      (Prog.ofExcept (parse U reply query.txid query.name query.qtype)) (fun _ => I.world)
      fun e w => (Caught e ∧ I.world w) ∨ (e.isWrongQuestionError = true ∧ EndsForeign I w) := by
    rintro w ⟨log, hlog, hw⟩
    rw [Prog.exec_ofExcept]
    cases hp : parse U reply query.txid query.name query.qtype with
    | ok answer =>
        refine show I.holds w.log from ?_
        rw [hw]
        refine I.kept hlog ?_
        simp only [Event.isForeign, hp]
    | error e =>
        cases hwrong : e.isWrongQuestionError with
        | true =>
            refine .inr ⟨hwrong, log, _, hw, hlog, ?_⟩
            simp only [Event.isForeign, hp, hwrong]
        | false =>
            refine .inl ⟨caught_of_parse hp hwrong, show I.holds w.log from ?_⟩
            rw [hw]
            refine I.kept hlog ?_
            simp only [Event.isForeign, hp, hwrong]
  refine Prog.Triple.bind hparse fun answer => ?_
  exact Ends.of_quiet (Prog.Keeps.ite (Prog.Keeps.throw rfl) (Prog.Keeps.pure _))

variable {r : UdpResolver U} {server : Str}

theorem ends_overTcp (message : Bytes) (query : Query) (until_ : ℚ) :
    Ends I Caught (r.overTcp server message query until_) := by
  rw [UdpResolver.overTcp]
  refine (Ends.of_quiet (quiet_timeLeft _ _)).bind fun left => ?_
  refine (Ends.of_quiet quiet_openStream).bind fun exchange => ?_
  refine (Ends.of_quiet (quiet_await _ _)).bind fun _ => ?_
  refine (Ends.of_quiet (quiet_note rfl)).bind fun _ => ?_
  exact (Ends.of_quiet (quiet_await _ _)).bind fun _ => ends_parseReply _ _ _ _

/-- One question to one server: an answer, an error the retry loop catches, or the escape. -/
theorem ends_ask (h : server ∈ r.fields.nameservers) (question : Bytes) (qtype : ℕ) (deadline : ℚ) :
    Ends I Caught (r.ask server question qtype deadline) := by
  rw [UdpResolver.ask]
  refine (Ends.of_quiet quiet_randbits).bind fun txid => ?_
  refine Ends.bind (Ends.of_quiet (Prog.Keeps.ofExcept ?_)) fun name => ?_
  · intro e he
    rcases Except.bind_eq_error.mp he with hdecode | ⟨_, _, hok⟩
    · exact caught_of_isMalformedError (raisesOnly_decodeName _ _ e hdecode).1
    · cases hok
  · refine (Ends.of_quiet (quiet_overUdp h _ _ _)).bind fun answer => ?_
    split
    · exact ends_overTcp _ _ _
    · exact Ends.of_quiet (Prog.Keeps.pure _)

theorem not_caught_of_isWrongQuestionError {e : Exc} (h : e.isWrongQuestionError = true) :
    ¬ Caught e := by
  intro hcaught
  cases e <;> cases h
  cases hcaught

/-- The retry loop raises `socket.gaierror` or the escape. -/
theorem ends_queryFrom (host : Str) (question : Bytes) (qtype : ℕ) (deadline : ℚ)
    (attempts failures : List Str) (h : ∀ server ∈ attempts, server ∈ r.fields.nameservers) :
    Ends I (·.isGaierror = true) (r.queryFrom host question qtype deadline attempts failures) := by
  induction attempts generalizing failures with
  | nil => exact Ends.of_quiet (Prog.Keeps.throw rfl)
  | cons server attempts ih =>
      rw [UdpResolver.queryFrom]
      refine (Ends.of_quiet quiet_monotonic).bind fun now => ?_
      split
      · exact Ends.of_quiet (Prog.Keeps.throw rfl)
      · have hask : Ends I Caught (r.ask server question qtype deadline) :=
          ends_ask (h server List.mem_cons_self) question qtype deadline
        refine Prog.Triple.tryCatch (hask.bind fun _ => Ends.of_quiet (Prog.Keeps.pure _)) fun e => ?_
        have hrest : ∀ failures, Ends I (·.isGaierror = true)
            (r.queryFrom host question qtype deadline attempts failures) :=
          fun failures => ih failures fun s hs => h s (List.mem_cons_of_mem _ hs)
        -- the handler goes on with the attempts left, or lets the escape through
        rintro w (⟨hcaught, hw⟩ | ⟨hwrong, hforeign⟩)
        · rw [if_pos hcaught]
          exact hrest _ w hw
        · rw [if_neg (not_caught_of_isWrongQuestionError hwrong)]
          exact .inr ⟨hwrong, hforeign⟩

theorem ends_lookupFrom (host : Str) (question : Bytes) (deadline : ℚ) (families : List ℤ) :
    Ends I (·.isGaierror = true) (r.lookupFrom host question deadline families) := by
  induction families with
  | nil => exact Ends.of_quiet (Prog.Keeps.pure _)
  | cons wanted families ih =>
      rw [UdpResolver.lookupFrom]
      refine Ends.bind ?_ fun _ => ih.bind fun _ => Ends.of_quiet (Prog.Keeps.pure _)
      exact ends_queryFrom _ _ _ _ _ _ fun _ => mem_nameservers_of_mem_attempts

/-- A call raises `socket.gaierror` or the escape. -/
theorem ends_call (host : Str) (port family socktype proto flags : ℤ) :
    Ends I (·.isGaierror = true) (r.call host port family socktype proto flags) := by
  rw [UdpResolver.call]
  refine (Ends.of_quiet quiet_monotonic).bind fun now => ?_
  refine Ends.bind (Ends.of_quiet (Prog.Keeps.ofExcept ?_)) fun parsed => ?_
  · intro e he
    unfold UdpResolver.literal at he
    split at he
    · cases he
    · split at he <;> cases he
      rfl
  · split
    · exact Ends.of_quiet (Prog.Keeps.pure _)
    · refine Ends.bind ?_ fun addresses => Ends.of_quiet ?_
      · rw [UdpResolver.lookup]
        split
        · exact Ends.of_quiet (Prog.Keeps.throw rfl)
        · exact ends_lookupFrom _ _ _ _
      · exact Prog.Keeps.ite (Prog.Keeps.throw rfl) (Prog.Keeps.pure _)

end Ends

/-- A call returns rows or raises `socket.gaierror` when no reply over TCP answers a different question; otherwise the
last of its log is such a reply, and the private exception gets out. -/
theorem call_ends (r : UdpResolver U) (schedule : Schedule) (host : Str) (port family socktype proto flags : ℤ) :
    let run := (r.call host port family socktype proto flags).exec (World.start schedule)
    (((∃ rows, run.1 = .ok rows) ∨ ∃ errno message, run.1 = .error (.gaierror errno message)) ∧
        ∀ event ∈ run.2.log, event.isForeign U = false) ∨
      ∃ e log event, run.1 = .error e ∧ e.isWrongQuestionError = true ∧ run.2.log = log ++ [event] ∧
        event.isForeign U = true := by
  have hclean : (LogInvariant.clean U).world (World.start schedule) := by
    intro event hevent
    cases hevent
  have hrun : Ends (LogInvariant.clean U) (·.isGaierror = true)
      (r.call host port family socktype proto flags) := ends_call _ _ _ _ _ _
  cases hexec : (r.call host port family socktype proto flags).exec (World.start schedule) with
  | mk result w =>
      cases result with
      | ok rows => exact .inl ⟨.inl ⟨rows, rfl⟩, hrun.ok hclean hexec⟩
      | error e =>
          rcases hrun.error hclean hexec with ⟨hgai, hw⟩ | ⟨hwrong, log, event, hw, -, hforeign⟩
          · refine .inl ⟨.inr ?_, hw⟩
            cases e <;> cases hgai
            exact ⟨_, _, rfl⟩
          · exact .inr ⟨e, log, event, rfl, hwrong, hw, hforeign⟩

/-- A resolver that asks two servers for `A` records. -/
def twoServers : UdpResolver Unicode.ascii where
  fields := { nameservers := [text "127.0.0.1", text "127.0.0.2"], families := [afInet] }
  valid := by decide +kernel

/-- A response to `a`, type `A`, with this id and these flags, and no record. -/
def bareResponse (txid flags : ℕ) : Bytes :=
  packShort txid ++ packShort flags ++ [0, 1, 0, 0, 0, 0, 0, 0, 1, 0x61, 0, 0, 1, 0, 1]

/-- Every reply over UDP is truncated, and every reply over TCP is to another query. -/
def foreignOverTcp : Schedule where
  tick _ := 0
  tick_nonneg _ := le_rfl
  txid _ := 0x1234
  udp _ := { failure := none, arrivals := [.ready (bareResponse 0x1234 0x8380)] }
  tcp _ := {
    connecting := .ready ()
    sending := .ready ()
    arrivals := [.ready (packShort 19 ++ bareResponse 0x4321 0x8180)] }

end SsrfGuard.Dns
