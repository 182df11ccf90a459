import SsrfGuard.Dns.Outcome
import SsrfGuard.Dns.Replies

/-! # The attempts of a lookup

A server that cannot answer must not end a lookup: the resolver goes on to its next attempt, and from a server to the
next. What a run leaves in its log shows it, attempt after attempt. Each was in vain, but for one that was answered;
and a query that finds no answer has made every attempt there was time for. -/

namespace SsrfGuard.Dns

variable {U : Unicode}

/-! ## Attempts in vain -/

/-- A message that answers the query it was matched against, in full. -/
def Event.answers (U : Unicode) : Event → Bool
  | .received _ _ query message =>
    match parse U message query.txid query.name query.qtype with
    | .ok answer => !answer.truncated
    | .error _ => false
  | _ => false

/-- An event of an attempt to ask this server. -/
def Event.concerns (U : Unicode) (server : Str) : Event → Prop
  | .asked family => familyOf U server = .ok family
  | .sent _ s _ => s = server
  | .received _ s _ _ => s = server

/-- An event of an attempt to ask this server, and no answer. -/
structure Event.Vain (U : Unicode) (server : Str) (event : Event) : Prop where
  /-- It has to do with the server. -/
  concerns : event.concerns U server
  /-- It is not an answer. -/
  unanswered : event.answers U = false

/-- What an attempt in vain leaves in the log. -/
structure InVain (U : Unicode) (server : Str) (part : List Event) : Prop where
  /-- A socket was asked for. -/
  starts : ∃ family rest, part = .asked family :: rest
  /-- What came of it was no answer. -/
  vain : ∀ event ∈ part, event.Vain U server

/-- What an attempt that is answered leaves in the log. -/
structure Answered (U : Unicode) (server : Str) (part : List Event) : Prop where
  /-- A socket was asked for. -/
  starts : ∃ family rest, part = .asked family :: rest
  /-- Last of all the answer was received, and nothing before it was one. -/
  ends : ∃ before event, part = before ++ [event] ∧ (∀ earlier ∈ before, earlier.Vain U server) ∧
    event.concerns U server ∧ event.answers U = true

theorem Event.vain_of_error {server : Str} {transport : Transport} {query : Query} {message : Bytes} {e : Exc}
    (h : parse U message query.txid query.name query.qtype = .error e) :
    Event.Vain U server (.received transport server query message) := by
  refine ⟨rfl, ?_⟩
  rw [Event.answers, h]

/-- What an exchange with a server leaves: events in vain, and last of all the reply it returns, an answer unless it
is truncated. -/
def Yields (U : Unicode) (server : Str) : Except Exc Answer → List Event → Prop
  | .error _, added => ∀ event ∈ added, event.Vain U server
  | .ok answer, added => ∃ before event, added = before ++ [event] ∧
      (∀ earlier ∈ before, earlier.Vain U server) ∧ event.concerns U server ∧ event.answers U = !answer.truncated

/-- What was in vain before does not matter. -/
theorem Yields.prepend {server : Str} {result : Except Exc Answer} {first added : List Event}
    (h : Yields U server result added) (hfirst : ∀ event ∈ first, event.Vain U server) :
    Yields U server result (first ++ added) := by
  cases result with
  | error e => exact List.forall_mem_append.mpr ⟨hfirst, h⟩
  | ok answer =>
      obtain ⟨before, event, rfl, hbefore, hevent⟩ := h
      exact ⟨first ++ before, event, (List.append_assoc _ _ _).symm,
        List.forall_mem_append.mpr ⟨hfirst, hbefore⟩, hevent⟩

theorem Yields.cons {server : Str} {result : Except Exc Answer} {event : Event} {added : List Event}
    (h : Yields U server result added) (hevent : event.Vain U server) : Yields U server result (event :: added) :=
  h.prepend (List.forall_mem_singleton.mpr hevent)

/-- A truncated reply is no answer, so all of it was in vain. -/
theorem Yields.vain {server : Str} {answer : Answer} {added : List Event} (h : Yields U server (.ok answer) added)
    (htruncated : answer.truncated = true) : ∀ event ∈ added, event.Vain U server := by
  obtain ⟨before, event, rfl, hbefore, hconcerns, hanswers⟩ := h
  rw [htruncated] at hanswers
  exact List.forall_mem_append.mpr ⟨hbefore, List.forall_mem_singleton.mpr ⟨hconcerns, hanswers⟩⟩

/-- A reply that is read is all there is. -/
theorem Yields.received {server : Str} {transport : Transport} {query : Query} {message : Bytes} {answer : Answer}
    (h : parse U message query.txid query.name query.qtype = .ok answer) :
    Yields U server (.ok answer) [.received transport server query message] := by
  refine ⟨[], _, rfl, List.forall_mem_nil _, rfl, ?_⟩
  rw [Event.answers, h]

/-- The program leaves what an exchange leaves. -/
abbrev Tries (U : Unicode) (server : Str) (x : Net Answer) : Prop := Prog.Adds World.log x (Yields U server)

theorem Tries.bind_unlogged {α : Type} {server : Str} {x : Net α} {f : α → Net Answer} (hx : Unlogged x)
    (hf : ∀ a, Tries U server (f a)) : Tries U server (x >>= f) :=
  hx.bind_silent hf fun _ => List.forall_mem_nil _

theorem Tries.throw {server : Str} (e : Exc) : Tries U server (throw e) :=
  Prog.Adds.throw (List.forall_mem_nil _)

theorem Tries.silence {server : Str} (timeout : ℚ) : Tries U server (silence timeout) :=
  .bind_unlogged (unlogged_elapse timeout) fun _ => .throw _

theorem tries_awaitAnswer (server : Str) (query : Query) (attemptEnds : ℚ) (arrivals : List (Timed Bytes)) :
    Tries U server (UdpResolver.awaitAnswer U server query attemptEnds arrivals) := by
  induction arrivals with
  | nil => exact .bind_unlogged (unlogged_timeLeft _ _) fun left => .silence left
  | cons arrival arrivals ih =>
      rw [UdpResolver.awaitAnswer]
      refine .bind_unlogged (unlogged_timeLeft _ _) fun left => ?_
      refine .bind_unlogged (unlogged_await left arrival) fun datagram => ?_
      refine (adds_note _).bind ?_ ?_
      · rintro _ _ ⟨-, rfl⟩
        cases hparse : parse U (datagram.take udpReadLimit) query.txid query.name query.qtype with
        | ok answer => exact Prog.Adds.pure (Yields.received hparse)
        | error e =>
            -- a datagram that is waited out, or one that ends the wait, is one more event in vain
            have hmore : Tries U server (if e.isWrongQuestionError then
                UdpResolver.awaitAnswer U server query attemptEnds arrivals else throw e) := by
              split
              · exact ih
              · exact .throw e
            exact hmore.conseq fun result added hadded => hadded.cons (Event.vain_of_error hparse)
      · rintro e _ ⟨he, -⟩
        cases he

variable {r : UdpResolver U} {server : Str}

/-- A program that writes nothing down and raises nothing can be passed over. -/
theorem adds_after {α β : Type} {x : Net α} {f : α → Net β} {Q : Except Exc β → List Event → Prop}
    (hx : ∀ w, ∃ a w', x.exec w = (.ok a, w') ∧ w'.log = w.log) (hf : ∀ a, Prog.Adds World.log (f a) Q) :
    Prog.Adds World.log (x >>= f) Q := by
  have hreturns : Prog.Adds World.log x fun result added => (∃ a, result = .ok a) ∧ added = [] := by
    intro w
    obtain ⟨a, w', hexec, hlog⟩ := hx w
    exact ⟨[], by rw [hexec, hlog, List.append_nil], ⟨a, by rw [hexec]⟩, rfl⟩
  refine hreturns.bind ?_ ?_
  · rintro a _ ⟨-, rfl⟩
    exact hf a
  · rintro e _ ⟨⟨a, ha⟩, -⟩
    cases ha

/-- What an attempt leaves, whose first event asks for a socket. -/
abbrev Attempts (U : Unicode) (server : Str) (x : Net Answer) : Prop :=
  Prog.Adds World.log x fun result added =>
    (∃ family rest, added = .asked family :: rest) ∧ Yields U server result added

theorem attempts_overUdp (hserver : server ∈ r.fields.nameservers) (message : Bytes) (query : Query)
    (until_ : ℚ) : Attempts U server (r.overUdp server message query until_) := by
  obtain ⟨family, hfamily⟩ := familyOf_eq_ok hserver
  have hasked : Event.Vain U server (.asked family) := ⟨hfamily, rfl⟩
  have hsent : Event.Vain U server (.sent .udp server message) := ⟨rfl, rfl⟩
  rw [UdpResolver.overUdp, hfamily]
  refine adds_after (fun w => ⟨_, _, rfl, rfl⟩) fun now => ?_
  refine Prog.Adds.bind_ofExcept (fun _ hread => ?_) fun e hraised => absurd hraised.symm Except.error_ne_ok
  cases hread
  refine (adds_openDatagram family).bind ?_ ?_
  · rintro exchange _ rfl
    have hrest : Tries U server (do
        note (.sent .udp server message)
        UdpResolver.awaitAnswer U server query (min until_ (now + r.fields.attemptTimeout.value))
          exchange.arrivals) := by
      refine (adds_note _).bind ?_ ?_
      · rintro _ _ ⟨-, rfl⟩
        exact (tries_awaitAnswer server query _ _).conseq fun result added hadded => hadded.cons hsent
      · rintro e _ ⟨he, -⟩
        cases he
    exact hrest.conseq fun result added hadded => ⟨⟨family, added, rfl⟩, hadded.cons hasked⟩
  · rintro e _ rfl
    exact ⟨⟨family, [], rfl⟩, List.forall_mem_singleton.mpr hasked⟩

/-- A reply over TCP that is truncated once more is refused. -/
theorem tries_overTcp (server : Str) (message : Bytes) (query : Query) (until_ : ℚ) :
    Prog.Adds World.log (r.overTcp server message query until_) fun result added =>
      Yields U server result added ∧ ∀ answer, result = .ok answer → answer.truncated = false := by
  have hsent : Event.Vain U server (.sent .tcp server (packShort message.length ++ message)) := ⟨rfl, rfl⟩
  have hraised : ∀ e : Exc, Yields U server (.error e) [] ∧
      ∀ answer, (.error e : Except Exc Answer) = .ok answer → answer.truncated = false :=
    fun e => ⟨List.forall_mem_nil _, fun _ h => absurd h Except.error_ne_ok⟩
  have hreply : ∀ arrivals, Prog.Adds World.log (UdpResolver.recvReply server query until_ arrivals)
      fun result added => (∀ reply, result = .ok reply → added = [.received .tcp server query reply]) ∧
        ∀ e, result = .error e → added = [] := by
    intro arrivals
    have hnothing : ∀ e : Exc, (∀ reply, (.error e : Except Exc Bytes) = .ok reply →
        ([] : List Event) = [.received .tcp server query reply]) ∧
        ∀ e', (.error e : Except Exc Bytes) = .error e' → ([] : List Event) = [] :=
      fun e => ⟨fun _ h => absurd h Except.error_ne_ok, fun _ _ => rfl⟩
    rw [UdpResolver.recvReply]
    refine (unlogged_recvExactly _ _ _).bind_silent (fun prefixed => ?_) hnothing
    obtain ⟨length, rest⟩ := prefixed
    dsimp only
    split
    · exact Prog.Adds.throw (hnothing _)
    · refine (unlogged_recvExactly _ _ _).bind_silent (fun received => ?_) hnothing
      refine (adds_note _).bind ?_ ?_
      · rintro _ _ ⟨-, rfl⟩
        refine Prog.Adds.pure ⟨fun _ h => ?_, fun e he => ?_⟩
        · cases h
          rfl
        · cases he
      · rintro e _ ⟨he, -⟩
        cases he
  rw [UdpResolver.overTcp]
  refine (unlogged_timeLeft _ _).bind_silent (fun left => ?_) hraised
  refine unlogged_openStream.bind_silent (fun exchange => ?_) hraised
  refine (unlogged_await _ _).bind_silent (fun _ => (adds_note _).bind ?_ ?_) hraised
  · rintro _ _ ⟨-, rfl⟩
    have hrest : Prog.Adds World.log (do
        await (min left r.fields.attemptTimeout.value) exchange.sending
        let reply ← UdpResolver.recvReply server query until_ exchange.arrivals
        let answer ← Prog.ofExcept (parse U reply query.txid query.name query.qtype)
        if answer.truncated then throw (.malformedError (text "a TCP reply is marked truncated"))
        else pure answer) fun result added =>
          Yields U server result added ∧ ∀ answer, result = .ok answer → answer.truncated = false := by
      refine (unlogged_await _ _).bind_silent (fun _ => (hreply _).bind ?_ ?_) hraised
      · rintro reply _ ⟨hreceived, -⟩
        obtain rfl := hreceived reply rfl
        refine Prog.Adds.bind_ofExcept (fun answer hparse => ?_) fun e hparse => ?_
        · split
          · next htruncated =>
            refine Prog.Adds.throw ⟨?_, fun _ h => absurd h Except.error_ne_ok⟩
            exact (Yields.received hparse).vain htruncated
          · next htruncated =>
            refine Prog.Adds.pure ⟨Yields.received hparse, ?_⟩
            rintro _ ⟨⟩
            exact Bool.not_eq_true _ ▸ htruncated
        · refine ⟨?_, fun _ h => absurd h Except.error_ne_ok⟩
          exact List.forall_mem_singleton.mpr (Event.vain_of_error hparse)
      · rintro e _ ⟨-, hnothing⟩
        rw [hnothing e rfl]
        exact hraised e
    exact hrest.conseq fun result added hadded => ⟨hadded.1.cons hsent, hadded.2⟩
  · rintro e _ ⟨he, -⟩
    cases he

/-- **An attempt** is in vain when it raises, and answered when it returns. -/
theorem attempt_ask (hserver : server ∈ r.fields.nameservers) {question : Bytes} {name : Str}
    (hname : nameOf question = .ok name) (qtype : ℕ) (deadline : ℚ) :
    Prog.Adds World.log (r.ask server question qtype deadline) fun result added =>
      (∀ e, result = .error e → InVain U server added) ∧ ∀ answer, result = .ok answer → Answered U server added := by
  rw [UdpResolver.ask, hname]
  refine adds_after (fun w => ⟨_, _, rfl, rfl⟩) fun txid => adds_after (fun w => ⟨_, _, rfl, rfl⟩) fun name => ?_
  refine (attempts_overUdp hserver _ _ deadline).bind ?_ ?_
  · rintro answer first ⟨⟨family, rest, rfl⟩, hfirst⟩
    split
    · next htruncated =>
      -- what came over UDP was in vain, and the exchange over TCP decides
      refine (tries_overTcp server _ _ deadline).conseq ?_
      rintro result added ⟨hadded, hwhole⟩
      have hall := hadded.prepend (hfirst.vain htruncated)
      refine ⟨?_, ?_⟩
      · rintro e rfl
        exact ⟨⟨family, rest ++ added, rfl⟩, hall⟩
      · rintro answer' rfl
        obtain ⟨before, event, hpart, hbefore, hconcerns, hanswers⟩ := hall
        rw [hwhole answer' rfl] at hanswers
        exact ⟨⟨family, rest ++ added, rfl⟩, before, event, hpart, hbefore, hconcerns, hanswers⟩
    · next htruncated =>
      have hwhole : answer.truncated = false := Bool.not_eq_true _ ▸ htruncated
      obtain ⟨before, event, hpart, hbefore, hconcerns, hanswers⟩ := hfirst
      rw [hwhole] at hanswers
      refine Prog.Adds.pure ⟨fun e he => absurd he.symm Except.error_ne_ok, fun _ _ => ?_⟩
      rw [List.append_nil]
      exact ⟨⟨family, rest, rfl⟩, before, event, hpart, hbefore, hconcerns, hanswers⟩
  · rintro e first ⟨hstarts, hfirst⟩
    exact ⟨fun _ _ => ⟨hstarts, hfirst⟩, fun _ h => absurd h Except.error_ne_ok⟩

/-- The body of the `try` of `_query`. -/
theorem attempt_records (hserver : server ∈ r.fields.nameservers) {question : Bytes} {name : Str}
    (hname : nameOf question = .ok name) (qtype : ℕ) (deadline : ℚ) :
    Prog.Adds World.log (do
      let answer ← r.ask server question qtype deadline
      pure answer.records : Net (List Record)) fun result added =>
        (∀ e, result = .error e → InVain U server added) ∧
          ∀ records, result = .ok records → Answered U server added := by
  refine (attempt_ask hserver hname qtype deadline).bind (fun answer first hfirst => ?_) fun e first hfirst => ?_
  · refine Prog.Adds.pure ⟨fun e he => absurd he.symm Except.error_ne_ok, fun _ _ => ?_⟩
    rw [List.append_nil]
    exact hfirst.2 answer rfl
  · exact ⟨fun _ _ => hfirst.1 e rfl, fun _ h => absurd h Except.error_ne_ok⟩

/-! ## Finding an answer -/

/-- Some of these attempts were made in vain, in their order, and the one after them was answered. -/
def FoundAfter (U : Unicode) (attempts : List Str) (part : List Event) : Prop :=
  ∃ tried server later before last, attempts = tried ++ server :: later ∧ part = before ++ last ∧
    InTurn (InVain U) tried before ∧ Answered U server last

theorem FoundAfter.first {attempts : List Str} {part : List Event} (h : Answered U server part) :
    FoundAfter U (server :: attempts) part :=
  ⟨[], server, attempts, [], part, rfl, rfl, rfl, h⟩

theorem FoundAfter.cons {attempts : List Str} {first part : List Event} (hfirst : InVain U server first)
    (h : FoundAfter U attempts part) : FoundAfter U (server :: attempts) (first ++ part) := by
  obtain ⟨tried, found, later, before, last, rfl, rfl, hbefore, hlast⟩ := h
  exact ⟨server :: tried, found, later, first ++ before, last, rfl, (List.append_assoc _ _ _).symm,
    hbefore.cons hfirst, hlast⟩

/-- **A query that returns has gone on** from each attempt in vain to the next, until one was answered. -/
theorem found_queryFrom {host : Str} {question : Bytes} {name : Str} (hname : nameOf question = .ok name)
    {qtype : ℕ} {deadline : ℚ} {attempts : List Str} (failures : List Str)
    (hservers : ∀ server ∈ attempts, server ∈ r.fields.nameservers) :
    Prog.Adds World.log (r.queryFrom host question qtype deadline attempts failures) fun result added =>
      ∀ records, result = .ok records → FoundAfter U attempts added := by
  have hraised : ∀ (attempts : List Str) (e : Exc) (added : List Event) (records : List Record),
      (.error e : Except Exc (List Record)) = .ok records → FoundAfter U attempts added :=
    fun _ _ _ _ h => absurd h Except.error_ne_ok
  induction attempts generalizing failures with
  | nil => exact Prog.Adds.throw (hraised [] _ [])
  | cons server attempts ih =>
      obtain ⟨hserver, hothers⟩ := List.forall_mem_cons.mp hservers
      rw [UdpResolver.queryFrom]
      refine unlogged_monotonic.bind_silent (fun now => ?_) fun e => hraised _ e []
      split
      · exact Prog.Adds.throw (hraised _ _ [])
      · refine (attempt_records hserver hname qtype deadline).tryCatch (fun _ _ hfirst _ _ => ?_)
          fun e first hfirst => ?_
        · exact .first (hfirst.2 _ rfl)
        · split
          · exact (ih _ hothers).conseq fun _ _ hrest records hok => (hrest records hok).cons (hfirst.1 e rfl)
          · exact Prog.Adds.throw (hraised _ e _)

/-- Every family has been found in its turn. -/
theorem found_lookupFrom {host : Str} {question : Bytes} {name : Str} (hname : nameOf question = .ok name)
    (deadline : ℚ) (families : List ℤ) :
    Prog.Adds World.log (r.lookupFrom host question deadline families) fun result added =>
      ∀ records, result = .ok records → InTurn (fun _ => FoundAfter U r.attempts) families added := by
  induction families with
  | nil => exact Prog.Adds.pure fun _ _ => rfl
  | cons wanted families ih =>
      have hquery := @found_queryFrom U r host question name hname (UdpResolver.qtypeOf wanted) deadline r.attempts []
        fun _ => mem_nameservers_of_mem_attempts
      rw [UdpResolver.lookupFrom]
      refine hquery.bind (fun records first hfirst => ?_) fun e first _ _ h => absurd h Except.error_ne_ok
      refine ih.bind (fun rest second hsecond => ?_) fun e second _ _ h => absurd h Except.error_ne_ok
      refine Prog.Adds.pure fun _ _ => ?_
      rw [List.append_nil]
      exact (hsecond rest rfl).cons (hfirst records rfl)

/-! ## Giving up -/

/-- What `_give_up` says. -/
def giveUpText (host : Str) (qtype : ℕ) (failures : List Str) : Str :=
  host ++ text ": no " ++ (if qtype = typeAaaa then text "AAAA" else text "A") ++ text " answer; tried " ++
    join (text "; ") failures

/-- What is said of each attempt. -/
def blames (tried reasons : List Str) : List Str :=
  List.zipWith (fun server reason => server ++ text ": " ++ reason) tried reasons

/-- What is said of the attempt that was not made any more. -/
def blameDeadline (r : UdpResolver U) (server : Str) : Str :=
  server ++ text ": the " ++ r.fields.timeout.shown ++ text "s deadline passed"

/-- Of these attempts some were made, in their order and each in vain, and each is named with its reason. The others
were not made because the deadline had passed. -/
def GivenUpAfter (r : UdpResolver U) (host : Str) (qtype : ℕ) (deadline clock : ℚ) (attempts failures : List Str)
    (part : List Event) (message : Str) : Prop :=
  ∃ tried rest reasons, attempts = tried ++ rest ∧ InTurn (InVain U) tried part ∧ reasons.length = tried.length ∧
    (rest = [] ∧ message = giveUpText host qtype (failures ++ blames tried reasons) ∨
      ∃ server later, rest = server :: later ∧ deadline ≤ clock ∧
        message = giveUpText host qtype (failures ++ blames tried reasons ++ [blameDeadline r server]))

theorem GivenUpAfter.cons {host : Str} {qtype : ℕ} {deadline clock : ℚ} {attempts failures : List Str}
    {first part : List Event} {reason message : Str} (hfirst : InVain U server first)
    (h : GivenUpAfter r host qtype deadline clock attempts (failures ++ [server ++ text ": " ++ reason]) part
      message) :
    GivenUpAfter r host qtype deadline clock (server :: attempts) failures (first ++ part) message := by
  obtain ⟨tried, rest, reasons, rfl, hpart, hlength, hmessage⟩ := h
  refine ⟨server :: tried, rest, reason :: reasons, rfl, hpart.cons hfirst, ?_, ?_⟩
  · rw [List.length_cons, List.length_cons, hlength]
  · have hblames : failures ++ blames (server :: tried) (reason :: reasons) =
        failures ++ [server ++ text ": " ++ reason] ++ blames tried reasons :=
      List.append_cons failures _ (blames tried reasons)
    rw [hblames]
    exact hmessage

/-- **A query that gives up has made every attempt there was time for.** -/
theorem givenUpAfter_queryFrom {host : Str} {question : Bytes} {name : Str} (hname : nameOf question = .ok name)
    {qtype : ℕ} {deadline : ℚ} {attempts : List Str} (failures : List Str)
    (hservers : ∀ server ∈ attempts, server ∈ r.fields.nameservers) {w w' : World} {errno : Option ℤ}
    {message : Str}
    (h : (r.queryFrom host question qtype deadline attempts failures).exec w =
      (.error (.gaierror errno message), w')) :
    errno = some eaiAgain ∧ ∃ part, w'.log = w.log ++ part ∧
      GivenUpAfter r host qtype deadline w'.clock attempts failures part message := by
  induction attempts generalizing failures w with
  | nil =>
      cases h
      refine ⟨rfl, [], (List.append_nil _).symm, [], [], [], rfl, rfl, rfl, .inl ⟨rfl, ?_⟩⟩
      rw [blames, List.zipWith_nil_left, List.append_nil]
      rfl
  | cons server attempts ih =>
      obtain ⟨hserver, hothers⟩ := List.forall_mem_cons.mp hservers
      rw [UdpResolver.queryFrom, Prog.exec_bind] at h
      dsimp only [monotonic, Prog.exec_ofFun] at h
      split at h
      · next hpassed =>
        -- the deadline had passed, and no attempt was made
        cases h
        refine ⟨rfl, [], (List.append_nil _).symm, [], server :: attempts, [], rfl, rfl, rfl, .inr ?_⟩
        refine ⟨server, attempts, rfl, hpassed, ?_⟩
        rw [blames, List.zipWith_nil_left, List.append_nil]
        rfl
      · rw [Prog.exec_tryCatch] at h
        obtain ⟨first, hlog, hvain, -⟩ := attempt_records hserver hname qtype deadline
          { w with clock := w.clock + w.schedule.tick w.readings, readings := w.readings + 1 }
        split at h
        · cases h
        · next failed w₂ hfailed =>
          rw [hfailed] at hlog hvain
          split at h
          · -- the next attempt, after one in vain
            obtain ⟨rfl, part, hrest, hgiven⟩ := ih _ hothers h
            refine ⟨rfl, first ++ part, ?_, hgiven.cons (hvain failed rfl)⟩
            rw [hrest, hlog, List.append_assoc]
          · next huncaught =>
            -- `socket.gaierror` is an `OSError`, and does not get out of an attempt
            cases h
            exact absurd (caught_of_isOSError rfl) huncaught

theorem GivenUpAfter.inVain {host : Str} {qtype : ℕ} {deadline clock : ℚ} {attempts failures : List Str}
    {part : List Event} {message : Str}
    (h : GivenUpAfter r host qtype deadline clock attempts failures part message) :
    ∃ tried rest, attempts = tried ++ rest ∧ InTurn (InVain U) tried part ∧ (rest = [] ∨ deadline ≤ clock) := by
  obtain ⟨tried, rest, reasons, hattempts, hpart, -, hmessage⟩ := h
  refine ⟨tried, rest, hattempts, hpart, hmessage.imp And.left ?_⟩
  rintro ⟨server, later, -, hpassed, -⟩
  exact hpassed

/-- The first family that is given up ends the lookup, after a reply for each family before it. -/
theorem givenUpAfter_lookupFrom {host : Str} {question : Bytes} {name : Str} (hname : nameOf question = .ok name)
    {deadline : ℚ} (families : List ℤ) {w w' : World} {errno : Option ℤ} {message : Str}
    (h : (r.lookupFrom host question deadline families).exec w = (.error (.gaierror errno message), w')) :
    errno = some eaiAgain ∧ ∃ before wanted after replies part, families = before ++ wanted :: after ∧
      List.Forall₂ (fun wanted => Accepted r name question (UdpResolver.qtypeOf wanted)) before replies ∧
      InTurn (fun _ => FoundAfter U r.attempts) before (replies.flatMap Reply.part) ∧
      w'.log = w.log ++ (replies.flatMap Reply.part ++ part) ∧
      GivenUpAfter r host (UdpResolver.qtypeOf wanted) deadline w'.clock r.attempts [] part message := by
  induction families generalizing w with
  | nil => cases h
  | cons wanted families ih =>
      rw [UdpResolver.lookupFrom, Prog.exec_bind] at h
      cases hquery : (r.query host question (UdpResolver.qtypeOf wanted) deadline).exec w with
      | mk result w₁ =>
          rw [hquery] at h
          cases result with
          | error e =>
              cases h
              obtain ⟨rfl, part, hlog, hgiven⟩ :=
                givenUpAfter_queryFrom hname [] (fun _ => mem_nameservers_of_mem_attempts) hquery
              exact ⟨rfl, [], wanted, families, [], part, rfl, .nil, rfl, hlog, hgiven⟩
          | ok records =>
              obtain ⟨_, hlog, reply, hreply, rfl, -⟩ :=
                (logs_queryFrom hname _ deadline [] fun _ => mem_nameservers_of_mem_attempts).ok hquery
              -- what was found is what the accepted reply has left
              have hquestion : Prog.Adds World.log (r.query host question (UdpResolver.qtypeOf wanted) deadline) _ :=
                found_queryFrom hname [] fun _ => mem_nameservers_of_mem_attempts
              obtain ⟨found, hsame, hfound⟩ := hquestion w
              rw [hquery] at hsame hfound
              obtain rfl : found = reply.part := List.append_cancel_left (hsame.symm.trans hlog)
              dsimp only at h
              rw [Prog.exec_bind] at h
              split at h
              · cases h
              · next e w₂ hrest =>
                cases h
                obtain ⟨rfl, before, given, after, replies, part, rfl, hreplies, hinTurn, hlog', hgiven⟩ := ih hrest
                refine ⟨rfl, wanted :: before, given, after, reply :: replies, part, rfl, .cons hreply hreplies,
                  ?_, ?_, hgiven⟩
                · exact hinTurn.cons (hfound _ rfl)
                rw [hlog', hlog, List.flatMap_cons]
                simp only [List.append_assoc]

/-! ## The call -/

section

variable {host : Str} {port family socktype proto flags : ℤ}

/-- The host is an address, or nothing else was asked for, or it cannot be written on the wire. -/
def AsksNobody (U : Unicode) (host : Str) (flags : ℤ) : Prop :=
  UdpResolver.literal U host (UdpResolver.numericHost flags) ≠ .ok none ∨ ∃ bad, encodeName U host = .error bad

/-- How a lookup has gone by its log: from each attempt that was in vain on to the next, and with an answer on to the
next family, until every family was answered, or one had no attempt left or no time for it. -/
inductive MovesOn (r : UdpResolver U) (host : Str) (family flags : ℤ) (deadline clock : ℚ) (log : List Event) :
    Except Exc (List ResolverAnswer) → Prop
  /-- There is nobody to ask. -/
  | unasked {result : Except Exc (List ResolverAnswer)} (hnobody : AsksNobody U host flags) (hlog : log = []) :
      MovesOn r host family flags deadline clock log result
  /-- Every family was answered. -/
  | found {result : Except Exc (List ResolverAnswer)}
      (hlog : InTurn (fun _ => FoundAfter U r.attempts) (scope r family) log) :
      MovesOn r host family flags deadline clock log result
  /-- A family was given up: every attempt was in vain, or each of those made before the deadline passed. -/
  | givenUp {before after : List ℤ} {wanted : ℤ} {first part : List Event} {tried rest : List Str} {message : Str}
      (hscope : scope r family = before ++ wanted :: after)
      (hfirst : InTurn (fun _ => FoundAfter U r.attempts) before first)
      (hattempts : r.attempts = tried ++ rest) (hpart : InTurn (InVain U) tried part)
      (hrest : rest = [] ∨ deadline ≤ clock) (hlog : log = first ++ part) :
      MovesOn r host family flags deadline clock log (.error (.gaierror (some eaiAgain) message))

/-- A lookup that has nobody to ask leaves nothing. -/
theorem unlogged_call (h : AsksNobody U host flags) : Unlogged (r.call host port family socktype proto flags) := by
  intro w
  cases hliteral : UdpResolver.literal U host (UdpResolver.numericHost flags) with
  | error e =>
      rw [exec_call_of_refused hliteral]
      exact ⟨[], (List.append_nil _).symm, rfl⟩
  | ok parsed =>
      cases parsed with
      | some address =>
          rw [exec_call_of_literal hliteral]
          exact ⟨[], (List.append_nil _).symm, rfl⟩
      | none =>
          -- it is a name, so it is one that cannot be written on the wire
          obtain ⟨bad, hbad⟩ := h.resolve_left (not_not.mpr hliteral)
          rw [exec_call_of_lookup hliteral, UdpResolver.lookup, hbad]
          exact ⟨[], (List.append_nil _).symm, rfl⟩

/-- Otherwise the families in scope are asked about, by the deadline. -/
theorem exec_call_of_encoded {question : Bytes}
    (hliteral : UdpResolver.literal U host (UdpResolver.numericHost flags) = .ok none)
    (hquestion : encodeName U host = .ok question) (w : World) :
    (r.call host port family socktype proto flags).exec w =
      match (r.lookupFrom host question (w.clock + w.schedule.tick w.readings + r.fields.timeout.value)
          (scope r family)).exec
            { w with clock := w.clock + w.schedule.tick w.readings, readings := w.readings + 1 } with
      | (.ok records, v) =>
        (if records = [] then .error (.gaierror (some eaiNoname) (host ++ text ": no address records"))
          else .ok (records.map fun record => UdpResolver.row record.ip port socktype proto), v)
      | (.error e, v) => (.error e, v) := by
  rw [exec_call_of_lookup hliteral, UdpResolver.lookup, hquestion]
  rfl

/-- **A call that returns rows or raises `socket.gaierror` has moved on.** -/
theorem movesOn_call {w w' : World} {result : Except Exc (List ResolverAnswer)} (hempty : w.log = [])
    (hrun : (r.call host port family socktype proto flags).exec w = (result, w'))
    (hends : (∃ rows, result = .ok rows) ∨ ∃ errno message, result = .error (.gaierror errno message)) :
    MovesOn r host family flags (w.clock + w.schedule.tick w.readings + r.fields.timeout.value) w'.clock w'.log
      result := by
  by_cases hnobody : AsksNobody U host flags
  · obtain ⟨added, hlog, rfl⟩ := @unlogged_call U r host port family socktype proto flags hnobody w
    rw [hrun, hempty] at hlog
    exact .unasked hnobody hlog
  · rw [AsksNobody, not_or, not_not] at hnobody
    obtain ⟨hliteral, hencodes⟩ := hnobody
    cases hquestion : encodeName U host with
    | error bad => exact absurd ⟨bad, hquestion⟩ hencodes
    | ok question =>
        have hname := nameOf_of_encodeName hquestion
        rw [exec_call_of_encoded hliteral hquestion] at hrun
        split at hrun
        · next records v hlookup =>
          cases hrun
          obtain ⟨added, hlog, hfound⟩ := found_lookupFrom hname _ _ _
          rw [hlookup] at hlog hfound
          rw [show w'.log = added from hlog.trans (congrArg (· ++ added) hempty)]
          exact .found (hfound records rfl)
        · next e v hlookup =>
          cases hrun
          -- an error of a lookup that is `socket.gaierror` is that of a family that was given up
          rcases hends with ⟨rows, hrows⟩ | ⟨errno, message, hraised⟩
          · cases hrows
          · cases hraised
            obtain ⟨rfl, before, wanted, after, replies, part, hscope, -, hfirst, hlog, hgiven⟩ :=
              givenUpAfter_lookupFrom hname _ hlookup
            obtain ⟨tried, rest, hattempts, hpart, hrest⟩ := hgiven.inVain
            exact .givenUp hscope hfirst hattempts hpart hrest (hlog.trans (congrArg (· ++ _) hempty))

/-- Where every family was answered, an answer is the last of the log. -/
theorem answers_last {attempts : List Str} {families : List ℤ} {added : List Event}
    (h : InTurn (fun _ => FoundAfter U attempts) families added) :
    added = [] ∨ ∃ before event, added = before ++ [event] ∧ event.answers U = true := by
  induction families generalizing added with
  | nil => exact .inl h
  | cons wanted families ih =>
      obtain ⟨first, second, rfl, hfirst, hsecond⟩ := h
      right
      rcases ih hsecond with rfl | ⟨before, event, rfl, hevent⟩
      -- this was the last family, and what it found ends the log
      · obtain ⟨tried, server, later, before, last, -, rfl, -, hanswered⟩ := hfirst
        obtain ⟨earlier, event, rfl, -, -, hevent⟩ := hanswered.ends
        exact ⟨before ++ earlier, event, by simp only [List.append_assoc, List.append_nil], hevent⟩
      · exact ⟨first ++ before, event, (List.append_assoc _ _ _).symm, hevent⟩

/-- A reply to a different question is no answer. -/
theorem Event.answers_of_isForeign {event : Event} (h : event.isForeign U = true) : event.answers U = false := by
  unfold Event.isForeign at h
  split at h
  · next server query message =>
    split at h
    · next e hparse => rw [Event.answers, hparse]
    · cases h
  · cases h

/-- A lookup that has moved on does not end on a reply to a different question. -/
theorem MovesOn.not_foreign {deadline clock : ℚ} {log : List Event} {event : Event} {e : Exc}
    (h : MovesOn r host family flags deadline clock (log ++ [event]) (.error e))
    (hwrong : e.isWrongQuestionError = true) (hforeign : event.isForeign U = true) : False := by
  generalize hend : log ++ [event] = whole at h
  cases h with
  | unasked _ hlog => exact absurd (hend.trans hlog) (List.append_ne_nil_of_right_ne_nil _ (List.cons_ne_nil _ _))
  | found hlog =>
      rcases answers_last hlog with hnil | ⟨before, last, hlast, hanswers⟩
      · exact absurd (hend.trans hnil) (List.append_ne_nil_of_right_ne_nil _ (List.cons_ne_nil _ _))
      · obtain ⟨-, rfl⟩ := List.append_singleton_inj.mp (hend.trans hlast)
        rw [Event.answers_of_isForeign hforeign] at hanswers
        cases hanswers
  | givenUp => cases hwrong

end

/-- **How a lookup ends.** It returns rows or raises `socket.gaierror` exactly when no nameserver's reply over TCP in
the run answers a different question. And exactly then it moves on: each attempt that comes to nothing is followed by
the next one, until there is an answer, no attempt is left or the deadline has passed. -/
theorem call_ends_iff (r : UdpResolver U) (schedule : Schedule) (host : Str)
    (port family socktype proto flags : ℤ) :
    let run := (r.call host port family socktype proto flags).exec (World.start schedule)
    (((∃ rows, run.1 = .ok rows) ∨ ∃ errno message, run.1 = .error (.gaierror errno message)) ↔
      ∀ event ∈ run.2.log, event.isForeign U = false) ∧
    (MovesOn r host family flags (0 + schedule.tick 0 + r.fields.timeout.value) run.2.clock run.2.log run.1 ↔
      ∀ event ∈ run.2.log, event.isForeign U = false) := by
  intro run
  rcases call_ends r schedule host port family socktype proto flags with
    ⟨hends, hclean⟩ | ⟨e, log, event, hrun, hwrong, hlog, hforeign⟩
  · exact ⟨iff_of_true hends hclean, iff_of_true (movesOn_call rfl rfl hends) hclean⟩
  -- the run ended on a foreign reply, which its log holds
  · have hnot : ¬ ∀ event ∈ run.2.log, event.isForeign U = false := by
      intro hall
      have hmem : event ∈ run.2.log := hlog ▸ List.mem_append_right _ (List.mem_singleton_self event)
      rw [hall event hmem] at hforeign
      cases hforeign
    refine ⟨iff_of_false ?_ hnot, iff_of_false (fun hmoves => ?_) hnot⟩
    · rintro (⟨rows, hok⟩ | ⟨errno, message, hgai⟩)
      · cases hok.symm.trans hrun
      · cases hgai.symm.trans hrun
        cases hwrong
    · rw [hrun, hlog] at hmoves
      exact hmoves.not_foreign hwrong hforeign

/-- The first server's reply over TCP ends the lookup: the private exception gets out, and nothing is
asked of the second server. -/
theorem call_foreignOverTcp :
    let run := (twoServers.call (text "a") 80 0 sockStream 0 0).exec (World.start foreignOverTcp)
    run.1 = .error (.wrongQuestionError (text "transaction id 0x4321 is not 0x1234")) ∧
      run.2.udpCount = 1 ∧
      ¬ ((∃ rows, run.1 = .ok rows) ∨ ∃ errno message, run.1 = .error (.gaierror errno message)) := by
  have hrun : ((twoServers.call (text "a") 80 0 sockStream 0 0).exec
      (World.start foreignOverTcp)).1 =
        .error (.wrongQuestionError (text "transaction id 0x4321 is not 0x1234")) := by
    decide +kernel
  refine ⟨hrun, by decide +kernel, ?_⟩
  rw [hrun]
  rintro (⟨rows, hok⟩ | ⟨errno, message, hgai⟩)
  · cases hok
  · cases hgai

end SsrfGuard.Dns
