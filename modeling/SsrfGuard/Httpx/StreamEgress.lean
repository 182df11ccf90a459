import SsrfGuard.Egress
import SsrfGuard.Httpx.PeerCheck
import SsrfGuard.Httpx.Failover

/-! # What leaves the process asynchronously

The asynchronous seam looks a name up in a worker thread and asks the network library for streams, so its calls are
in two logs. After a lookup the streams follow a protocol of their own: one at a time to the addresses that may be
dialled, in their order, to the address itself and the port that came with it, and once one has come up no other is
asked for. -/

namespace SsrfGuard

variable {σ : Type} (U : Unicode) (p : Policy)

/-! ## The protocol -/

/-- Where a run stands between two calls to the network library. -/
inductive StreamPhase
  /-- No stream has come up. -/
  | dialling (queue : List Address)
  /-- A stream has. -/
  | connected (stream : StreamId) (address : Address)
  /-- Its peer is the address, or missing. -/
  | admitted (stream : StreamId)
  /-- Its peer is another one, or a call on it has failed. -/
  | refused (stream : StreamId)
  /-- It was closed. -/
  | closed
  deriving DecidableEq

namespace StreamPhase

/-- A stream is asked for, to the first address of the queue. -/
def openFor (stream : StreamId) (host : IPAddress) (port : ℤ) (result : Except Exc Unit) :
    StreamPhase → Option StreamPhase
  | dialling (address :: queue) =>
    if host = address.ip ∧ address.port U = .ok port then
      some (if result = .ok () then connected stream address else dialling queue)
    else none
  | _ => none

/-- An option of the stream is set. -/
def shape (stream : StreamId) (result : Except Exc Unit) : StreamPhase → Option StreamPhase
  | connected s address =>
    if s = stream then some (if result = .ok () then connected s address else refused s) else none
  | _ => none

/-- It is asked for its peer. -/
def identify (stream : StreamId) (result : Except Exc (Option SockAddr)) : StreamPhase → Option StreamPhase
  | connected s address =>
    if s = stream then
      match result with
      | .ok none => some (admitted s)
      | .ok (some sockaddr) => some (if sockaddrIp U sockaddr = .ok address.ip then admitted s else refused s)
      | .error _ => some (refused s)
    else none
  | _ => none

/-- It is closed. -/
def shut (stream : StreamId) : StreamPhase → Option StreamPhase
  | admitted s => if s = stream then some closed else none
  | refused s => if s = stream then some closed else none
  | _ => none

/-- One call. -/
def step (phase : StreamPhase) : StreamCall → Option StreamPhase
  | .connectTcp stream host port result => openFor U stream host port result phase
  | .setsockopt stream _ result => shape stream result phase
  | .remoteAddress stream result => identify U stream result phase
  | .aclose stream _ => shut stream phase

/-- No stream is left in the middle. -/
def settled : StreamPhase → Bool
  | dialling _ => true
  | admitted _ => true
  | closed => true
  | _ => false

end StreamPhase

/-- The monitor of the protocol. -/
def streamEgress : Monitor StreamPhase StreamCall where
  step := StreamPhase.step U

variable {U p}

/-! ## One stream -/

/-- From the states in `P` the protocol accepts the calls of a program to the network library. -/
abbrev Streamed {ε α : Type} (U : Unicode) (P : StreamPhase → Prop) (x : Prog (AsyncWorld σ) ε α)
    (Q : α → StreamPhase → Prop) (E : ε → StreamPhase → Prop) : Prop :=
  Prog.Obeys AsyncWorld.calls (streamEgress U) P x Q E

/-- One call to the network library. -/
theorem streamed_callStream {α : Type} {operation : Prog σ Exc α} {call : Except Exc α → StreamCall}
    {P : StreamPhase → Prop} {Q : α → StreamPhase → Prop} {E : Exc → StreamPhase → Prop}
    (hok : ∀ a s, P s → ∃ s', StreamPhase.step U s (call (.ok a)) = some s' ∧ Q a s')
    (herror : ∀ e s, P s → ∃ s', StreamPhase.step U s (call (.error e)) = some s' ∧ E e s') :
    Streamed U P (callStream operation call) Q E := Prog.Obeys.entry (streams_callStream _ _) hok herror

/-- What the two backends share calls no network library. -/
theorem streamed_shared {ε α : Type} {P : StreamPhase → Prop} (x : Prog (World σ) ε α) :
    Streamed U P (shared x) (fun _ => P) fun _ => P :=
  Prog.Obeys.silent (streams_shared x) (fun _ _ => id) fun _ _ => id

variable {stream : StreamId} {address : Address} {queue : List Address}

/-- A stream whose peer was checked, or could not be; or one to close. -/
def Checkpoint (stream : StreamId) (s : StreamPhase) : Prop := s = .admitted stream ∨ s = .refused stream

theorem streamed_verifyStream (io : Anyio σ) (stream : StreamId) (address : Address)
    (observer : Option (Observer σ)) :
    Streamed U (· = .connected stream address) (verifyStream U io stream address observer)
      (fun _ => (· = .admitted stream)) fun _ => Checkpoint stream := by
  have hread : Streamed U (· = .connected stream address)
      (callStream (io.remoteAddress stream) (.remoteAddress stream))
      (fun remote s => StreamPhase.identify U stream (.ok remote) (.connected stream address) = some s)
      fun _ => Checkpoint stream := by
    refine streamed_callStream ?_ ?_
    · rintro remote _ rfl
      cases remote with
      | none => exact ⟨_, if_pos rfl, if_pos rfl⟩
      | some sockaddr => exact ⟨_, if_pos rfl, if_pos rfl⟩
    · rintro e _ rfl
      exact ⟨_, if_pos rfl, .inr rfl⟩
  refine hread.bind fun remote => ?_
  cases remote with
  | none =>
      refine Prog.Obeys.pure fun s hs => ?_
      rw [StreamPhase.identify, if_pos rfl] at hs
      cases hs
      rfl
  | some sockaddr =>
      have hidentify : ∀ s, StreamPhase.identify U stream (.ok (some sockaddr)) (.connected stream address) =
          some s → s = if sockaddrIp U sockaddr = .ok address.ip then .admitted stream else .refused stream := by
        intro s hs
        rw [StreamPhase.identify, if_pos rfl] at hs
        exact (Option.some.inj hs).symm
      refine Prog.Obeys.conseq (P := (· = if sockaddrIp U sockaddr = .ok address.ip then
        StreamPhase.admitted stream else .refused stream)) ?_ hidentify (fun _ _ => id) fun _ _ => id
      refine Prog.Obeys.bind_ofExcept (fun peer hpeer => ?_) fun e s hraised hs => ?_
      · rw [hpeer]
        refine .ite (fun hother => ?_) fun hsame => ?_
        · have hrefused : ¬ (.ok peer : Except Exc IPAddress) = .ok address.ip :=
            fun h => hother (Except.ok.inj h)
          rw [if_neg hrefused]
          refine Prog.Obeys.bind ((streamed_shared _).conseq (fun _ => id) (fun _ _ => id) fun _ _ => .inr)
            fun _ => Prog.Obeys.throw fun _ => .inr
        · rw [not_not.mp hsame, if_pos rfl]
          exact (streamed_shared _).conseq (fun _ => id) (fun _ _ => id) fun _ _ => .inl
      · rw [hraised, if_neg Except.error_ne_ok] at hs
        exact .inr hs

/-- A stream that is not admitted is closed. -/
theorem streamed_admitStream (io : Anyio σ) (stream : StreamId) (address : Address) (options : TcpOptions)
    (observer : Option (Observer σ)) :
    Streamed U (· = .connected stream address) (admitStream U io stream address options observer)
      (fun s => (· = .admitted s)) fun _ => (· = .closed) := by
  have hoption : ∀ option, Streamed U (· = .connected stream address)
      (callStream (io.setsockopt stream option) (.setsockopt stream option))
      (fun _ => (· = .connected stream address)) fun _ => Checkpoint stream := by
    intro option
    refine streamed_callStream ?_ ?_
    · rintro ⟨⟩ _ rfl
      exact ⟨_, by rw [StreamPhase.step, StreamPhase.shape, if_pos rfl, if_pos rfl], rfl⟩
    · rintro e _ rfl
      exact ⟨_, by rw [StreamPhase.step, StreamPhase.shape, if_pos rfl, if_neg Except.error_ne_ok], .inr rfl⟩
  have hclosed : ∀ e, Streamed U (Checkpoint stream) (do
      callStream (io.aclose stream) (.aclose stream)
      throw e : Prog (AsyncWorld σ) Exc Unit) (fun _ => (· = .admitted stream)) fun _ => (· = .closed) := by
    intro e
    have hshut : ∀ s, Checkpoint stream s → StreamPhase.shut stream s = some .closed := by
      rintro s (rfl | rfl)
      · exact if_pos rfl
      · exact if_pos rfl
    refine Prog.Obeys.bind (Q := fun _ => (· = .closed)) ?_ fun _ => Prog.Obeys.throw fun _ => id
    exact streamed_callStream (fun _ s hs => ⟨_, hshut s hs, rfl⟩) fun _ s hs => ⟨_, hshut s hs, rfl⟩
  refine Prog.Obeys.bind (Prog.Obeys.tryCatch ?_ hclosed) fun _ => Prog.Obeys.pure fun _ => id
  exact (Prog.Obeys.forM hoption _).bind fun _ => streamed_verifyStream io stream address observer

/-- Asking for a stream uses up the first address, unless its port cannot be read. -/
theorem streamed_openStream (io : Anyio σ) (address : Address) (options : TcpOptions) :
    Streamed U (· = .dialling (address :: queue)) (openStream U io address options)
      (fun stream => (· = .connected stream address))
      fun e s => s = .dialling queue ∨ Ends e ∧ s = .dialling (address :: queue) := by
  refine Prog.Obeys.bind_ofExcept (fun port hport => ?_) fun e s hraised hs =>
    .inr ⟨address.raisesOnly_port e hraised, hs⟩
  refine Prog.Obeys.bind (Q := fun _ => (· = .dialling (address :: queue))) ?_ fun stream => ?_
  · exact fun s hs _ => ⟨[], (List.append_nil _).symm, s, rfl, hs⟩
  · refine Prog.Obeys.bind (Q := fun _ => (· = .connected stream address)) ?_ fun _ => Prog.Obeys.pure fun _ => id
    refine streamed_callStream ?_ ?_
    · rintro ⟨⟩ _ rfl
      exact ⟨_, by rw [StreamPhase.step, StreamPhase.openFor, if_pos ⟨rfl, hport⟩, if_pos rfl], rfl⟩
    · rintro e _ rfl
      exact ⟨_, by rw [StreamPhase.step, StreamPhase.openFor, if_pos ⟨rfl, hport⟩, if_neg Except.error_ne_ok],
        .inl rfl⟩

/-! ## Failover -/

theorem streamed_reachFrom (io : Anyio σ) (options : TcpOptions) (observer : Option (Observer σ))
    (message : List Str → Str) (attempted : List Address) (failures : List Str) (onlyTimeouts : Bool) :
    Streamed U (· = .dialling attempted)
      (reachFrom U io options observer message attempted failures onlyTimeouts) (fun s => (· = .admitted s))
      fun _ => (·.settled = true) := by
  induction attempted generalizing failures onlyTimeouts with
  | nil =>
      refine Prog.Obeys.throw ?_
      rintro _ rfl
      rfl
  | cons address attempted ih =>
      rw [reachFrom]
      refine Prog.Obeys.bind_attempt (streamed_openStream io address options) (fun stream => ?_) fun failed => ?_
      · refine (streamed_admitStream io stream address options observer).mapError ?_
        rintro e _ rfl
        rfl
      · -- the addresses that are left, after what is an `OSError`
        have hrest : ∀ (rest : Str → List Str) (timeouts : Bool), failed.isOSError = true →
            Streamed U (fun s => s = .dialling attempted ∨ Ends failed ∧ s = .dialling (address :: attempted))
              (do
                let shown ← Prog.mapError .untranslated (Prog.ofExcept (address.str U))
                reachFrom U io options observer message attempted (rest shown) timeouts)
              (fun s => (· = .admitted s)) fun _ => (·.settled = true) := by
          intro rest timeouts hos
          refine Prog.Obeys.conseq (P := (· = .dialling attempted)) ?_ ?_ (fun _ _ => id) fun _ _ => id
          · rw [Prog.mapError_ofExcept]
            refine Prog.Obeys.bind_ofExcept (fun shown _ => ih _ _) ?_
            rintro e _ - rfl
            rfl
          · rintro s (hs | ⟨hends, -⟩)
            · exact hs
            · rw [Ends, hos] at hends
              cases hends
        dsimp only
        refine .ite (fun htimeout => ?_) fun _ => .ite (fun hos => ?_) fun _ => Prog.Obeys.throw ?_
        · exact hrest (fun shown => failures ++ [shown ++ text " (timed out)"]) onlyTimeouts
            (Exc.isOSError_of_isTimeoutError htimeout)
        · exact hrest (fun shown => failures ++ [shown ++ text " (" ++ failed.str U ++ text ")"]) false hos
        · rintro s (rfl | ⟨-, rfl⟩)
          · rfl
          · rfl

/-! ## What the streams leave alone -/

/-- The calls of the worker thread. -/
def AsyncWorld.trace (v : AsyncWorld σ) : List Action := v.world.trace

/-- The program makes no call in the worker thread. -/
abbrev Unthreaded {ε α : Type} (x : Prog (AsyncWorld σ) ε α) : Prop :=
  Prog.Adds AsyncWorld.trace x fun _ added => added = []

theorem unthreaded_callStream {α : Type} (operation : Prog σ Exc α) (call : Except Exc α → StreamCall) :
    Unthreaded (callStream operation call) := Prog.Adds.silent (fun _ => rfl) fun _ => rfl

/-- What the two backends share calls in the worker thread what it calls. -/
theorem adds_shared {ε α : Type} {x : Prog (World σ) ε α} {Q : Except ε α → List Action → Prop}
    (hx : Prog.Adds World.trace x Q) : Prog.Adds AsyncWorld.trace (shared x) Q := fun v => hx v.world

theorem unthreaded_admitStream (io : Anyio σ) (stream : StreamId) (address : Address) (options : TcpOptions)
    (observer : Option (Observer σ)) : Unthreaded (admitStream U io stream address options observer) := by
  have hreport : ∀ peer refusal, Unthreaded (shared (reportPeer U address observer peer refusal)) :=
    fun peer refusal => adds_shared (traces_reportPeer address observer peer refusal).adds
  have hverify : Unthreaded (verifyStream U io stream address observer) := by
    refine (unthreaded_callStream _ _).bind_silent (fun remote => ?_) fun _ => rfl
    cases remote with
    | none => exact Prog.Adds.pure rfl
    | some sockaddr =>
        refine Prog.Adds.bind_ofExcept (fun peer _ => ?_) fun _ _ => rfl
        split
        · exact (hreport _ _).bind_silent (fun _ => Prog.Adds.throw rfl) fun _ => rfl
        · exact hreport _ _
  have hoptions : Unthreaded (options.socketOptions.forM fun option =>
      callStream (io.setsockopt stream option) (.setsockopt stream option)) := by
    refine Prog.Adds.forM rfl ?_ (fun _ => unthreaded_callStream _ _) _
    rintro _ _ _ rfl rfl
    rfl
  have hclosed : ∀ e, Unthreaded (do
      callStream (io.aclose stream) (.aclose stream)
      throw e : Prog (AsyncWorld σ) Exc Unit) :=
    fun e => (unthreaded_callStream _ _).bind_silent (fun _ => Prog.Adds.throw rfl) fun _ => rfl
  refine Prog.Adds.bind_silent ?_ (fun _ => Prog.Adds.pure rfl) fun _ => rfl
  refine (hoptions.bind_silent (fun _ => hverify) fun _ => rfl).tryCatch (fun _ _ => id) ?_
  rintro e _ rfl
  exact hclosed e

theorem unthreaded_reachFrom (io : Anyio σ) (options : TcpOptions) (observer : Option (Observer σ))
    (message : List Str → Str) (attempted : List Address) (failures : List Str) (onlyTimeouts : Bool) :
    Unthreaded (reachFrom U io options observer message attempted failures onlyTimeouts) := by
  have hopen : ∀ address, Unthreaded (openStream U io address options) := by
    intro address
    refine Prog.Adds.bind_ofExcept (fun port _ => ?_) fun _ _ => rfl
    refine Prog.Adds.bind_silent (Prog.Adds.silent (fun _ => rfl) fun _ => rfl) (fun stream => ?_) fun _ => rfl
    exact (unthreaded_callStream _ _).bind_silent (fun _ => Prog.Adds.pure rfl) fun _ => rfl
  induction attempted generalizing failures onlyTimeouts with
  | nil => exact Prog.Adds.throw rfl
  | cons address attempted ih =>
      rw [reachFrom]
      refine (hopen address).bind_attempt ?_
      rintro (failed | stream) _ rfl
      · dsimp only
        have hrest : ∀ (rest : Str → List Str) (timeouts : Bool), Unthreaded (do
            let shown ← Prog.mapError .untranslated (Prog.ofExcept (address.str U))
            reachFrom U io options observer message attempted (rest shown) timeouts) :=
          fun rest timeouts => Prog.Adds.bind_silent (Prog.Adds.silent (fun _ => rfl) fun _ => rfl)
            (fun _ => ih _ _) fun _ => rfl
        split
        · exact hrest (fun shown => failures ++ [shown ++ text " (timed out)"]) onlyTimeouts
        · split
          · exact hrest (fun shown => failures ++ [shown ++ text " (" ++ failed.str U ++ text ")"]) false
          · exact Prog.Adds.throw rfl
      · exact (unthreaded_admitStream io stream address options observer).mapError fun _ _ => id

/-! ## The seam -/

/-- What a seam did for one connection: a lookup in the worker thread, and then calls to the network library. -/
structure Visit where
  /-- The host that was looked up. -/
  host : Str
  /-- The port it was looked up with. -/
  port : ℤ
  /-- The flags. -/
  flags : ℤ
  /-- What the resolver answered. -/
  answer : Except Exc (List ResolverAnswer)
  /-- The calls to the network library after it. -/
  calls : List StreamCall

/-- The call to the resolver. -/
def Visit.lookup (visit : Visit) : Action := .lookup visit.host visit.port visit.flags visit.answer

/-- The policy admits the host and the port, and the calls follow the protocol from what may be dialled. -/
def Visit.Follows (U : Unicode) (p : Policy) (visit : Visit) : Prop :=
  checkOrigin U p visit.host visit.port = .ok () ∧ ∃ phase,
    (streamEgress U).run (.dialling (p.queueAfter U visit.host visit.answer)) visit.calls = some phase ∧
      phase.settled = true

/-- What was done between two worlds is these visits, in their order. -/
structure Visited (U : Unicode) (p : Policy) (visits : List Visit) (v v' : AsyncWorld σ) : Prop where
  /-- In the worker thread. -/
  trace : v'.trace = v.trace ++ visits.map Visit.lookup
  /-- In the network library. -/
  calls : v'.calls = v.calls ++ visits.flatMap Visit.calls
  /-- As the policy allows. -/
  follows : ∀ visit ∈ visits, visit.Follows U p

theorem Visited.of_eq {v v' : AsyncWorld σ} (htrace : v'.trace = v.trace) (hcalls : v'.calls = v.calls) :
    Visited U p [] v v' :=
  ⟨htrace.trans (List.append_nil _).symm, hcalls.trans (List.append_nil _).symm, List.forall_mem_nil _⟩

theorem Visited.trans {visits visits' : List Visit} {v v' v'' : AsyncWorld σ} (h : Visited U p visits v v')
    (h' : Visited U p visits' v' v'') : Visited U p (visits ++ visits') v v'' := by
  refine ⟨?_, ?_, List.forall_mem_append.mpr ⟨h.follows, h'.follows⟩⟩
  · rw [h'.trace, h.trace, List.map_append, List.append_assoc]
  · rw [h'.calls, h.calls, List.flatMap_append, List.append_assoc]

/-- The rest of a connection, once its addresses are known. -/
theorem streamed_checkAll_firstReachable (io : Anyio σ) (addresses : List Address) (options : TcpOptions)
    (observer : Option (Observer σ)) :
    Streamed U (· = .dialling (addresses.take p.maxConnectionAttempts.toNat)) (do
      Prog.mapError .untranslated (Prog.ofExcept (checkAll p addresses))
      firstReachable U p io addresses options observer : Prog (AsyncWorld σ) BackendExc StreamId)
      (fun _ => (·.settled = true)) fun _ => (·.settled = true) := by
  rw [Prog.mapError_ofExcept]
  refine Prog.Obeys.bind_ofExcept (fun _ _ => ?_) ?_
  · refine (streamed_reachFrom io options observer _ _ _ _).conseq (fun _ => id) ?_ fun _ _ => id
    rintro stream _ rfl
    rfl
  · rintro e _ - rfl
    rfl

theorem unthreaded_checkAll_firstReachable (io : Anyio σ) (addresses : List Address) (options : TcpOptions)
    (observer : Option (Observer σ)) :
    Unthreaded (do
      Prog.mapError .untranslated (Prog.ofExcept (checkAll p addresses))
      firstReachable U p io addresses options observer : Prog (AsyncWorld σ) BackendExc StreamId) := by
  rw [Prog.mapError_ofExcept]
  exact Prog.Adds.bind_ofExcept (fun _ _ => unthreaded_reachFrom io options observer _ _ _ _) fun _ _ => rfl

/-- The one lookup of `resolve`, and what may be dialled after it. -/
theorem queueAfter_of_resolve {target : Target} {resolver : Resolver σ} {observer : Option (Observer σ)}
    (hadmits : checkOrigin U p target.host target.port = .ok ()) {w w' : World σ}
    {result : Except Exc (List Address)} (h : (resolve U p target resolver observer).exec w = (result, w')) :
    ∃ flags answer, w'.trace = w.trace ++ [.lookup target.host target.port flags answer] ∧
      ∀ addresses, result = .ok addresses →
        p.queueAfter U target.host answer = addresses.take p.maxConnectionAttempts.toNat := by
  obtain ⟨added, htrace, s', hrun, hend⟩ := follows_resolve target resolver observer hadmits (.dialling []) rfl w
  obtain ⟨_, hlookup, flags, answer, rfl, -⟩ := traces_resolve (U := U) p target resolver observer w
  rw [h] at htrace hlookup hend
  obtain rfl := List.append_cancel_left (htrace.symm.trans hlookup)
  refine ⟨flags, answer, hlookup, ?_⟩
  rintro addresses rfl
  rw [Monitor.run_singleton] at hrun
  obtain ⟨-, hs'⟩ := Phase.lookUp_eq_some hrun
  exact Phase.dialling.inj (hs'.symm.trans hend)

/-- **The asynchronous seam.** A connection costs one visit at most. -/
theorem AsyncSafeBackend.visited_connectTcp (resolver : Resolver σ) (io : Anyio σ)
    (observer : Option (Observer σ)) (host : Str) (port : ℤ) (options : TcpOptions) (v : AsyncWorld σ) :
    ∃ visits : List Visit, visits.length ≤ 1 ∧ Visited U p visits v
      ((AsyncSafeBackend.connectTcp U p resolver io observer host port options).exec v).2 := by
  rw [AsyncSafeBackend.connectTcp, Prog.mapError_ofExcept, Prog.exec_bind, Prog.exec_ofExcept]
  cases hadmits : checkOrigin U p host port with
  | error e => exact ⟨[], Nat.zero_le _, .of_eq rfl rfl⟩
  | ok u =>
      dsimp only [Except.mapError]
      rw [Prog.exec_bind, Prog.exec_attempt, shared, Prog.exec_zoom]
      cases hresolve : (resolve U p (originTarget U host port) resolver observer).exec v.world with
      | mk result w' =>
          obtain ⟨flags, answer, htrace, hqueue⟩ := queueAfter_of_resolve hadmits hresolve
          dsimp only
          cases result with
          | error e =>
              refine ⟨[⟨host, port, flags, answer, []⟩], le_rfl, ?_⟩
              have hend : Visited U p [⟨host, port, flags, answer, []⟩] v { v with world := w' } :=
                ⟨htrace, (List.append_nil _).symm, List.forall_mem_singleton.mpr ⟨hadmits, _, rfl, rfl⟩⟩
              dsimp only
              split
              · exact hend
              · exact hend
          | ok addresses =>
              obtain ⟨calls, hcalls, phase, hrun, hend⟩ :=
                streamed_checkAll_firstReachable (U := U) (p := p) io addresses options observer _ rfl
                  { v with world := w' }
              obtain ⟨added, hrest, rfl⟩ := unthreaded_checkAll_firstReachable (U := U) (p := p) io addresses
                options observer { v with world := w' }
              have hsettled : phase.settled = true := by
                split at hend
                · exact hend
                · exact hend
              refine ⟨[⟨host, port, flags, answer, calls⟩], le_rfl, ?_, ?_,
                List.forall_mem_singleton.mpr ⟨hadmits, phase, ?_, hsettled⟩⟩
              · exact (hrest.trans (List.append_nil _)).trans htrace
              · rw [List.flatMap_singleton]
                exact hcalls
              · rw [← hqueue addresses rfl] at hrun
                exact hrun

/-! ## What the protocol says of a stream -/

namespace StreamPhase

/-- The addresses that may still be dialled. -/
def remaining : StreamPhase → List Address
  | dialling queue => queue
  | _ => []

variable {phase next : StreamPhase}

/-- A stream is asked for to an address that remains, by its port. -/
theorem remaining_of_openFor {host : IPAddress} {port : ℤ} {result : Except Exc Unit}
    (h : openFor U stream host port result phase = some next) :
    (∃ a ∈ phase.remaining, a.ip = host ∧ a.port U = .ok port) ∧ ∀ a ∈ next.remaining, a ∈ phase.remaining := by
  unfold openFor at h
  split at h
  · split_ifs at h with hown hresult
    · cases h
      exact ⟨⟨_, List.mem_cons_self, hown.1.symm, hown.2⟩, List.forall_mem_nil _⟩
    · cases h
      exact ⟨⟨_, List.mem_cons_self, hown.1.symm, hown.2⟩, fun _ => List.mem_cons_of_mem _⟩
  · cases h

/-- Once a stream has come up none remains. -/
theorem remaining_of_step {call : StreamCall} (h : step U phase call = some next) :
    ∀ a ∈ next.remaining, a ∈ phase.remaining := by
  have hnone : ∀ {s : StreamPhase}, some s = some next → s.remaining = [] →
      ∀ a ∈ next.remaining, a ∈ phase.remaining := by
    intro s hs hempty a ha
    cases hs
    rw [hempty] at ha
    cases ha
  cases call with
  | connectTcp stream host port result => exact (remaining_of_openFor h).2
  | setsockopt stream option result =>
      rw [step] at h
      unfold shape at h
      split at h
      · split_ifs at h
        · exact hnone h rfl
        · exact hnone h rfl
      · cases h
  | remoteAddress stream result =>
      rw [step] at h
      unfold identify at h
      split at h
      · split_ifs at h
        split at h
        · exact hnone h rfl
        · split_ifs at h
          · exact hnone h rfl
          · exact hnone h rfl
        · exact hnone h rfl
      · cases h
  | aclose stream result =>
      rw [step] at h
      unfold shut at h
      split at h
      · split_ifs at h
        exact hnone h rfl
      · split_ifs at h
        exact hnone h rfl
      · cases h

end StreamPhase

/-- A stream a visit has asked for goes to an address its lookup has brought, and the policy permits. -/
theorem Visit.Follows.connectTcp {visit : Visit} (h : visit.Follows U p) {host : IPAddress} {port : ℤ}
    {result : Except Exc Unit} (hmem : .connectTcp stream host port result ∈ visit.calls) :
    ∃ infos, visit.answer = .ok infos ∧ p.Permits host ∧ ∃ address : Address, address.ip = host ∧
      address.port U = .ok port ∧ sockaddrIp U address.sockaddr = .ok host ∧
      ∃ info ∈ infos, info.key = address.key := by
  obtain ⟨-, phase, hrun, -⟩ := h
  obtain ⟨before, after, hcalls⟩ := List.append_of_mem hmem
  rw [hcalls] at hrun
  obtain ⟨here, next, hbefore, hstep⟩ := Monitor.exists_step hrun
  have hremaining : ∀ a ∈ here.remaining, a ∈ p.queueAfter U visit.host visit.answer :=
    Monitor.invariant (I := fun _ (s : StreamPhase) => ∀ a ∈ s.remaining, a ∈ p.queueAfter U visit.host visit.answer)
      (fun _ => id) (fun _ _ _ _ hhere hnext a ha => hhere a (StreamPhase.remaining_of_step hnext a ha)) hbefore
  obtain ⟨⟨address, haddress, rfl, hport⟩, -⟩ := StreamPhase.remaining_of_openFor hstep
  have hqueue := hremaining address haddress
  cases hanswer : visit.answer with
  | error e =>
      rw [hanswer] at hqueue
      cases hqueue
  | ok infos =>
      rw [hanswer] at hqueue
      obtain ⟨hpermits, hip, hinfo⟩ := mem_dialled hqueue
      exact ⟨infos, rfl, hpermits, address, rfl, hport, hip, hinfo⟩

end SsrfGuard
