import SsrfGuard.Httpx.ConnectFailover
import SsrfGuard.Httpx.PeerCheck

/-! # Failover of the asynchronous backend, and of both

`_first_reachable` follows `failover` as well, so the two backends attempt the same addresses in the same
order and come to the same ending, however their attempts end. -/

namespace SsrfGuard

variable {σ : Type} {U : Unicode}

/-! ## What the network library is asked for -/

/-- The attempt at the address with this stream ends so, in whatever state the outside is. -/
structure Anyio.Plays (U : Unicode) (io : Anyio σ) (options : TcpOptions) (stream : StreamId)
    (address : Address) (attempt : Attempt) : Prop where
  /-- How dialling ends. -/
  dials : ∀ port env, address.port U = .ok port →
    attempt.Dials ((io.connectTcp stream address.ip port options.localAddress options.timeout).exec env).1
  /-- The options of a stream that is connected can be set. -/
  sets : ¬ attempt.Fails → ∀ option ∈ options.socketOptions, ∀ env,
    ((io.setsockopt stream option).exec env).1 = .ok ()
  /-- The peer of a stream that is connected. -/
  meets : ¬ attempt.Fails → ∀ env, ∃ sockaddr,
    ((io.remoteAddress stream).exec env).1 = .ok (some sockaddr) ∧ attempt.Meets U address.ip sockaddr
  /-- The stream can be closed. -/
  closes : ∀ env, ((io.aclose stream).exec env).1 = .ok ()

theorem follows_callStream {α : Type} (operation : Prog σ Exc α) (call : Except Exc α → StreamCall) :
    Prog.Follows (fun v => v.world.env) AsyncWorld.streams (callStream operation call) operation :=
  fun _ => ⟨_, rfl, rfl, rfl⟩

section

variable {io : Anyio σ} {options : TcpOptions} {observer : Option (Observer σ)} {message : List Str → Str}
  {address : Address} {attempted : List Address} {attempt : Attempt} {failures : List Str}
  {onlyTimeouts : Bool} {stream : StreamId} {port : ℤ} {v : AsyncWorld σ}

/-! ## One attempt -/

/-- A stream is asked for as the library plays it. -/
theorem exec_openStream (hport : address.port U = .ok port)
    (hplays : io.Plays U options v.streams address attempt) :
    ∃ dialled v', (openStream U io address options).exec v = (dialled.map fun _ => v.streams, v') ∧
      v'.streams = v.streams + 1 ∧ attempt.Dials dialled := by
  obtain ⟨v', hcall, -, hstreams⟩ := follows_callStream
    (io.connectTcp v.streams address.ip port options.localAddress options.timeout)
    (.connectTcp v.streams address.ip port) { v with streams := v.streams + 1 }
  refine ⟨_, v', ?_, hstreams, hplays.dials port v.world.env hport⟩
  rw [openStream, Prog.exec_bind, hport, Prog.exec_ofExcept]
  dsimp only
  rw [Prog.exec_bind, newStream, Prog.exec_ofFun]
  dsimp only
  rw [Prog.exec_bind, hcall]
  dsimp only
  cases ((io.connectTcp v.streams address.ip port options.localAddress options.timeout).exec
    v.world.env).1 <;> rfl

/-- A stream that is there is admitted or refused as its peer is the address or not. -/
theorem exec_admitStream (hport : address.port U = .ok port)
    (hplays : io.Plays U options stream address attempt) (hfails : ¬ attempt.Fails) :
    attempt.Ends observer stream ((admitStream U io stream address options observer).exec v).1 := by
  have hset : ∀ option ∈ options.socketOptions, ∀ v : AsyncWorld σ,
      ((callStream (io.setsockopt stream option) (.setsockopt stream option)).exec v).1 = .ok () :=
    fun option hmem v => hplays.sets hfails option hmem v.world.env
  have hsets := Prog.exec_forM_eq_ok hset v
  have hverify (v₁ : AsyncWorld σ) :
      attempt.Ends observer () ((verifyStream U io stream address observer).exec v₁).1 := by
    obtain ⟨sockaddr, hpeer, hmeets⟩ := hplays.meets hfails v₁.world.env
    obtain ⟨v₂, hget, -, -⟩ := follows_callStream (io.remoteAddress stream) (.remoteAddress stream) v₁
    rw [verifyStream, Prog.exec_bind, hget, hpeer]
    have hreporting : ∀ peer refusal (v : AsyncWorld σ), Attempt.connected.Ends observer ()
        ((shared (reportPeer U address observer peer refusal)).exec v).1 :=
      fun peer refusal v => exec_reportPeer hport observer peer refusal v.world
    exact ends_comparison hreporting hfails hmeets v₂
  have hcloses : ∀ v : AsyncWorld σ, ((callStream (io.aclose stream) (.aclose stream)).exec v).1 = .ok () :=
    fun v => hplays.closes v.world.env
  cases hoptions : (options.socketOptions.forM fun option =>
      callStream (io.setsockopt stream option) (.setsockopt stream option)).exec v with
  | mk result v₁ =>
      rw [hoptions] at hsets
      obtain rfl : result = .ok () := hsets
      -- the guarded part ends as the check of the peer does
      have hbody : (do
          options.socketOptions.forM fun option =>
            callStream (io.setsockopt stream option) (.setsockopt stream option)
          verifyStream U io stream address observer : Prog (AsyncWorld σ) Exc Unit).exec v =
            (verifyStream U io stream address observer).exec v₁ := by
        rw [Prog.exec_bind, hoptions]
      obtain ⟨v', hguarded, -⟩ := Prog.exec_tryCatch_cleanup hcloses (hbody.trans (Prod.eta _).symm)
      have hends := (hverify v₁).map fun _ => stream
      rw [admitStream, Prog.exec_bind, hguarded]
      cases hresult : ((verifyStream U io stream address observer).exec v₁).1 with
      | ok u => rw [hresult] at hends; exact hends
      | error e => rw [hresult] at hends; exact hends

/-! ## The calls of an attempt -/

/-- Whether a call asks for a stream. -/
def StreamCall.opens : StreamCall → Bool
  | connectTcp .. => true
  | _ => false

/-- The calls of an attempt at this address: one stream to it is asked for, and then none. -/
def StreamAttempt (U : Unicode) (address : Address) (calls : List StreamCall) : Prop :=
  ∃ stream port result later, address.port U = .ok port ∧
    calls = .connectTcp stream address.ip port result :: later ∧ ∀ call ∈ later, call.opens = false

theorem StreamAttempt.append {calls last : List StreamCall} (h : StreamAttempt U address calls)
    (hlast : ∀ call ∈ last, call.opens = false) : StreamAttempt U address (calls ++ last) := by
  obtain ⟨stream, port, result, later, hport, rfl, hlater⟩ := h
  exact ⟨stream, port, result, later ++ last, hport, rfl, List.forall_mem_append.mpr ⟨hlater, hlast⟩⟩

theorem attempts_openStream (io : Anyio σ) (options : TcpOptions) (hport : address.port U = .ok port) :
    Streams (openStream U io address options) fun _ added => StreamAttempt U address added := by
  have hnew : Streams (newStream : Prog (AsyncWorld σ) Exc StreamId) fun result added =>
      added = [] ∧ ∃ stream, result = .ok stream := fun v => ⟨[], (List.append_nil _).symm, rfl, _, rfl⟩
  have hattempt (stream : StreamId) (result : Except Exc Unit) :
      StreamAttempt U address [.connectTcp stream address.ip port result] :=
    ⟨stream, port, result, [], hport, rfl, List.forall_mem_nil _⟩
  rw [openStream, hport]
  refine Prog.Adds.bind_ofExcept (fun _ h => ?_) fun e h => absurd h.symm Except.error_ne_ok
  cases h
  refine hnew.bind ?_ ?_
  · rintro stream _ ⟨rfl, -⟩
    refine (streams_callStream _ _).bind ?_ ?_
    · rintro _ _ rfl
      exact Prog.Adds.pure (hattempt stream _)
    · rintro e _ rfl
      exact hattempt stream _
  · rintro e _ ⟨-, stream, h⟩
    cases h

/-- A stream that is there needs no other. -/
theorem opensNone_admitStream (io : Anyio σ) (stream : StreamId) (address : Address) (options : TcpOptions)
    (observer : Option (Observer σ)) :
    Prog.AddsOnly AsyncWorld.calls (fun call => call.opens = false)
      (admitStream U io stream address options observer) := by
  have hcall {α : Type} {operation : Prog σ Exc α} {call : Except Exc α → StreamCall}
      (h : ∀ result, (call result).opens = false) :
      Prog.AddsOnly AsyncWorld.calls (fun call => call.opens = false) (callStream operation call) := by
    refine (streams_callStream operation call).conseq ?_
    rintro result _ rfl
    exact List.forall_mem_singleton.mpr (h result)
  have hreport (peer : IPAddress) (refusal : Option Str) :
      Prog.AddsOnly AsyncWorld.calls (fun call => call.opens = false)
        (shared (reportPeer U address observer peer refusal)) := .silent fun _ => rfl
  refine .bind (.tryCatch (.bind (.forM (fun _ => hcall fun _ => rfl) _) fun _ => ?_) fun e => ?_)
    fun _ => .pure _
  · refine .bind (hcall fun _ => rfl) fun remote => ?_
    cases remote with
    | none => exact .pure _
    | some sockaddr =>
        refine .bind (.ofExcept _) fun peer => ?_
        split
        · exact .bind (hreport _ _) fun _ => .throw _
        · exact hreport _ _
  · exact .bind (hcall fun _ => rfl) fun _ => .throw _

/-! ## The loop -/

/-- After an `OSError` the loop goes on with the addresses that are left. -/
theorem exec_reachFrom_failed {e : Exc} {v' : AsyncWorld σ} (hport : address.port U = .ok port)
    (h : (openStream U io address options).exec v = (.error e, v')) (hos : e.isOSError = true) :
    ∃ failures', (reachFrom U io options observer message (address :: attempted) failures
      onlyTimeouts).exec v = (reachFrom U io options observer message attempted failures'
        (onlyTimeouts && e.isTimeoutError)).exec v' := by
  obtain ⟨shown, hshown⟩ := Address.str_of_port hport
  rw [reachFrom, Prog.exec_bind, Prog.exec_attempt, h]
  dsimp only
  cases htimeout : e.isTimeoutError with
  | true =>
      refine ⟨failures ++ [shown ++ text " (timed out)"], ?_⟩
      rw [if_pos rfl, Bool.and_true, Prog.exec_bind, hshown]
      rfl
  | false =>
      refine ⟨failures ++ [shown ++ text " (" ++ e.str U ++ text ")"], ?_⟩
      rw [if_neg Bool.false_ne_true, if_pos hos, Bool.and_false, Prog.exec_bind, hshown]
      rfl

/-- A stream that is there ends the loop. -/
theorem exec_reachFrom_opened {v' : AsyncWorld σ}
    (h : (openStream U io address options).exec v = (.ok stream, v')) :
    (reachFrom U io options observer message (address :: attempted) failures onlyTimeouts).exec v =
      (Prog.mapError .untranslated (admitStream U io stream address options observer)).exec v' := by
  rw [reachFrom, Prog.exec_bind, Prog.exec_attempt, h]

/-- **The loop of `_first_reachable` follows `failover`**: in how it ends, and in which addresses it
attempts. -/
theorem reachFrom_follows {script : List (Address × Attempt)}
    (hports : ∀ entry ∈ script, ∃ port, entry.1.port U = .ok port)
    (hplays : ∀ i address attempt, script[i]? = some (address, attempt) →
      io.Plays U options (v.streams + i) address attempt) :
    let run := (reachFrom U io options observer message (script.map Prod.fst) failures onlyTimeouts).exec v
    ∃ added, run.2.calls = v.calls ++ added ∧
      (failover onlyTimeouts (script.map Prod.snd)).Accounts observer (StreamAttempt U) v.streams
        (script.map Prod.fst) run.1 added := by
  induction script generalizing failures onlyTimeouts v with
  | nil =>
      refine ⟨[], (List.append_nil _).symm, ?_⟩
      cases onlyTimeouts with
      | true => exact ⟨⟨_, rfl⟩, rfl⟩
      | false => exact ⟨⟨_, rfl⟩, rfl⟩
  | cons entry script ih =>
      obtain ⟨address, attempt⟩ := entry
      intro run
      obtain ⟨port, hport⟩ := hports _ List.mem_cons_self
      have hfirst := hplays 0 address attempt rfl
      obtain ⟨dialled, v', hexec, hstreams, hdials⟩ := exec_openStream hport hfirst
      obtain ⟨first, hadded, hattempt⟩ := attempts_openStream io options hport v
      rw [hexec] at hadded
      cases dialled with
      -- a failed attempt, and those after it
      | error e =>
          have hends : attempt.Ends observer v.streams (.error e) := hdials.ends
          obtain ⟨_, he, hos, hfailover⟩ := hends.failed hdials.fails onlyTimeouts (script.map Prod.snd)
          cases he
          have hplays' := plays_tail hplays
          rw [← hstreams] at hplays'
          obtain ⟨failures', hrun⟩ : ∃ failures', run = _ := exec_reachFrom_failed hport hexec hos
          obtain ⟨second, hsecond, hending⟩ := ih (List.forall_mem_cons.mp hports).2 hplays'
          rw [hstreams] at hending
          have haccounts := hending.cons hattempt
          rw [← hfailover] at haccounts
          refine ⟨first ++ second, ?_, ?_⟩
          · rw [hrun, hsecond, hadded, List.append_assoc]
          · rw [hrun]
            exact haccounts
      | ok u =>
          have hrun : run = _ := exec_reachFrom_opened hexec
          obtain ⟨second, hsecond, hnone⟩ :=
            opensNone_admitStream (U := U) io v.streams address options observer v'
          refine ⟨first ++ second, ?_, ?_⟩
          · rw [hrun, Prog.exec_mapError, hsecond, hadded, List.append_assoc]
          · rw [hrun, Prog.exec_mapError]
            exact (exec_admitStream hport hfirst hdials.not_fails).accounts hdials.not_fails onlyTimeouts
              (fun e _ => rfl) (hattempt.append hnone)

/-- So does `_first_reachable`, as far as its cap. -/
theorem firstReachable_follows {p : Policy} {script : List (Address × Attempt)}
    (hports : ∀ entry ∈ script, ∃ port, entry.1.port U = .ok port)
    (hplays : ∀ i address attempt, script[i]? = some (address, attempt) →
      io.Plays U options (v.streams + i) address attempt) :
    let tried := script.take p.maxConnectionAttempts.toNat
    let run := (firstReachable U p io (script.map Prod.fst) options observer).exec v
    ∃ added, run.2.calls = v.calls ++ added ∧
      (failover true (tried.map Prod.snd)).Accounts observer (StreamAttempt U) v.streams (tried.map Prod.fst)
        run.1 added := by
  intro tried run
  rw [show run = (firstReachable U p io (script.map Prod.fst) options observer).exec v from rfl,
    firstReachable, ← List.map_take]
  refine reachFrom_follows (fun entry hmem => hports entry (List.mem_of_mem_take hmem)) ?_
  intro i address attempt hentry
  exact hplays i address attempt (getElem?_of_take hentry)

end

/-- **The two backends fail over alike.** Over validated addresses, and however the attempts at them end,
both attempt the same ones in the same order, and come to the same ending: the connection of the same
index, a `BlockedAddressError` at the first other peer, or `ConnectTimeout` when every attempt timed out
and `ConnectError` when not. Only an observer that raises outside `Exception` cuts a run short. -/
theorem failover_alike (U : Unicode) (p : Policy) (script : List (Address × Attempt)) (kernel : Kernel σ)
    (io : Anyio σ) (options : TcpOptions) (observer : Option (Observer σ)) (w : World σ) (v : AsyncWorld σ)
    (hne : script ≠ []) (hvalid : ∀ entry ∈ script, p.Permits entry.1.ip)
    (hports : ∀ entry ∈ script, ∃ port, entry.1.port U = .ok port)
    (hkernel : ∀ i address attempt, script[i]? = some (address, attempt) →
      kernel.Plays U options.toConnectOptions (w.sockets + i) address attempt)
    (hio : ∀ i address attempt, script[i]? = some (address, attempt) →
      io.Plays U options (v.streams + i) address attempt) :
    let addresses := script.map Prod.fst
    let tried := script.take p.maxConnectionAttempts.toNat
    let sync := (Prog.mapError (translated U)
      (connect U p kernel addresses options.toConnectOptions observer)).exec w
    let async := (firstReachable U p io addresses options observer).exec v
    -- `sync` is what `SafeBackend.connect_tcp` comes to, once it has resolved these addresses
    (∀ host port resolver start, checkOrigin U p host port = .ok () →
      (resolve U p (originTarget U host port) resolver observer).exec start = (.ok addresses, w) →
      (SafeBackend.connectTcp U p resolver kernel observer host port options).exec start = sync) ∧
    ∃ ending : Ending, ending.Describes true (tried.map Prod.snd) ∧
      let attempted := (tried.map Prod.fst).take (ending.attempts tried.length)
      (∃ added, sync.2.trace = w.trace ++ added ∧ InTurn SocketAttempt attempted added) ∧
      (∃ added, async.2.calls = v.calls ++ added ∧ InTurn (StreamAttempt U) attempted added) ∧
      ending.Comes observer w.sockets sync.1 ∧ ending.Comes observer v.streams async.1 := by
  intro addresses tried sync async
  refine ⟨fun host port resolver start horigin hresolve => ?_, failover true (tried.map Prod.snd),
    failover_describes _ _, ?_⟩
  · exact SafeBackend.exec_of_resolved horigin hresolve
  · obtain ⟨added, htrace, hsync, hturns⟩ := connect_follows hne hvalid hports hkernel
    obtain ⟨added', hcalls, hasync, hturns'⟩ := firstReachable_follows hports hio
    rw [List.length_map] at hturns hturns'
    exact ⟨⟨added, htrace, hturns⟩, ⟨added', hcalls, hturns'⟩, hsync, hasync⟩

/-- An answer for the name `a`. -/
def answerAt (literal : Str) (ip : IPAddress) : Address :=
  { family := afInet, sockaddr := [.str literal, .int 443], ip := ip, hostname := text "a" }

/-- A dead address and a live one. -/
def deadFirst : List (Address × Attempt) :=
  [(answerAt (text "8.8.8.8") (.v4 0x08080808), .timedOut),
    (answerAt (text "8.8.4.4") (.v4 0x08080404), .connected)]

/-- A kernel whose first socket times out, and whose other ones reach the live address. -/
def deadFirstKernel : Kernel Unit where
  socket _ _ _ := pure ()
  setsockopt _ _ := pure ()
  settimeout _ _ := pure ()
  bind _ _ := pure ()
  connect sock _ := if sock = 0 then throw (.timeoutError (text "timed out")) else pure ()
  getpeername _ := pure [.str (text "8.8.4.4"), .int 443]
  close _ := pure ()

/-- A network library that does the same with its streams. -/
def deadFirstStreams : Anyio Unit where
  connectTcp stream _ _ _ _ := if stream = 0 then throw (.timeoutError []) else pure ()
  setsockopt _ _ := pure ()
  remoteAddress _ := pure (some [.str (text "8.8.4.4"), .int 443])
  aclose _ := pure ()

theorem failover_alike_deadFirst :
    let sync := (Prog.mapError (translated Unicode.ascii) (connect Unicode.ascii Policy.default
      deadFirstKernel (deadFirst.map Prod.fst) (TcpOptions.toConnectOptions {}) none)).exec World.start
    let async := (firstReachable Unicode.ascii Policy.default deadFirstStreams (deadFirst.map Prod.fst) {}
      none).exec (AsyncWorld.around World.start)
    sync.1 = .ok 1 ∧ async.1 = .ok 1 ∧ ∃ ending : Ending, ending.Describes true [.timedOut, .connected] ∧
      ending.Comes (none : Option (Observer Unit)) 0 sync.1 ∧
      ending.Comes (none : Option (Observer Unit)) 0 async.1 := by
  have hlive : sockaddrIp Unicode.ascii [.str (text "8.8.4.4"), .int 443] = .ok (.v4 0x08080404) := by
    decide +kernel
  have hkernel : ∀ i address attempt, deadFirst[i]? = some (address, attempt) →
      deadFirstKernel.Plays Unicode.ascii (TcpOptions.toConnectOptions {}) (0 + i) address attempt := by
    rintro (_ | _ | i) address attempt hentry
    · cases hentry
      exact ⟨fun _ => ⟨_, rfl, rfl⟩, fun h => absurd (.inl rfl) h, fun _ => rfl⟩
    · cases hentry
      exact ⟨fun _ => rfl, fun _ _ => ⟨_, rfl, hlive⟩, fun _ => rfl⟩
    · cases hentry
  have hio : ∀ i address attempt, deadFirst[i]? = some (address, attempt) →
      deadFirstStreams.Plays Unicode.ascii {} (0 + i) address attempt := by
    rintro (_ | _ | i) address attempt hentry
    · cases hentry
      exact ⟨fun _ _ _ => ⟨_, rfl, rfl⟩, fun h => absurd (.inl rfl) h, fun h => absurd (.inl rfl) h,
        fun _ => rfl⟩
    · cases hentry
      exact ⟨fun _ _ _ => rfl, fun _ _ h => absurd h List.not_mem_nil, fun _ _ => ⟨_, rfl, hlive⟩,
        fun _ => rfl⟩
    · cases hentry
  have hvalid : ∀ entry ∈ deadFirst, Policy.default.Permits entry.1.ip := by decide +kernel
  have hports : ∀ entry ∈ deadFirst, ∃ port, entry.1.port Unicode.ascii = .ok port := by
    rintro entry hmem
    rcases List.mem_pair.mp hmem with rfl | rfl
    · exact ⟨443, rfl⟩
    · exact ⟨443, rfl⟩
  obtain ⟨-, ending, hdescribes, -, -, hsync, hasync⟩ := failover_alike Unicode.ascii Policy.default
    deadFirst deadFirstKernel deadFirstStreams {} none World.start (AsyncWorld.around World.start)
    (by decide) hvalid hports hkernel hio
  exact ⟨by decide +kernel, by decide +kernel, ending, hdescribes, hsync, hasync⟩

end SsrfGuard
