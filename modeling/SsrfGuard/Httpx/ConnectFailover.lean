import SsrfGuard.Httpx.Failover

/-! # Failover of the synchronous backend

The loop of `connect`, under the two handlers of `SafeBackend.connect_tcp`, follows `failover`: it makes
the same attempts, one after the other, and ends the same way. -/

namespace SsrfGuard

variable {σ : Type} {U : Unicode}

/-! ## What the kernel is asked for -/

/-- The options, the timeout and the local address of one socket, with nothing written down. -/
def Kernel.configure (kernel : Kernel σ) (sock : SockId) (options : ConnectOptions) : Prog σ Exc Unit := do
  options.socketOptions.forM fun option => kernel.setsockopt sock option
  options.timeout.forM fun timeout => kernel.settimeout sock timeout
  options.sourceAddress.forM fun address => kernel.bind sock address

/-- Everything `_open` asks of the kernel up to the connection. -/
def Kernel.dial (kernel : Kernel σ) (sock : SockId) (address : Address) (options : ConnectOptions) :
    Prog σ Exc Unit := do
  kernel.socket sock address.family sockStream
  kernel.configure sock options
  kernel.connect sock address.sockaddr

/-- The attempt at the address with this socket ends so, in whatever state the outside is. -/
structure Kernel.Plays (U : Unicode) (kernel : Kernel σ) (options : ConnectOptions) (sock : SockId)
    (address : Address) (attempt : Attempt) : Prop where
  /-- How dialling ends. -/
  dials : ∀ env, attempt.Dials ((kernel.dial sock address options).exec env).1
  /-- The peer of a socket that is connected. -/
  meets : ¬ attempt.Fails → ∀ env, ∃ sockaddr, ((kernel.getpeername sock).exec env).1 = .ok sockaddr ∧
    attempt.Meets U address.ip sockaddr
  /-- The socket can be closed. -/
  closes : ∀ env, ((kernel.close sock).exec env).1 = .ok ()

theorem follows_perform {α : Type} (operation : Prog σ Exc α) (action : Except Exc α → Action) :
    Prog.Follows World.env World.sockets (perform operation action) operation :=
  fun _ => ⟨_, rfl, rfl, rfl⟩

theorem follows_configure (kernel : Kernel σ) (sock : SockId) (options : ConnectOptions) :
    Prog.Follows World.env World.sockets (configure kernel sock options)
      (kernel.configure sock options) := by
  refine (Prog.Follows.forM (fun _ => follows_perform _ _) _).bind fun _ => ?_
  refine (Prog.Follows.optionForM (fun _ => follows_perform _ _) _).bind fun _ => ?_
  exact Prog.Follows.optionForM (fun _ => follows_perform _ _) _

/-! ## One attempt -/

/-- The guarded part of an attempt, once the socket is there. -/
theorem exec_openBody {kernel : Kernel σ} {options : ConnectOptions} {observer : Option (Observer σ)}
    {sock : SockId} {address : Address} {port : ℤ} {attempt : Attempt} {w : World σ}
    (hport : address.port U = .ok port) (hplays : kernel.Plays U options sock address attempt)
    (hdials : attempt.Dials ((do
      kernel.configure sock options
      kernel.connect sock address.sockaddr : Prog σ Exc Unit).exec w.env).1) :
    ∃ result w', (openBody U kernel sock address options observer).exec w = (result, w') ∧
      (attempt.Fails → w'.sockets = w.sockets) ∧ attempt.Ends observer () result := by
  have hassoc : openBody U kernel sock address options observer = ((do
      configure kernel sock options
      perform (kernel.connect sock address.sockaddr) (.connect sock address.sockaddr)) >>= fun _ =>
        verifyPeer U kernel sock address observer) := by
    rw [bind_assoc]
    rfl
  obtain ⟨v, hexec, -, hsockets⟩ := ((follows_configure kernel sock options).bind fun _ =>
    follows_perform (kernel.connect sock address.sockaddr) (.connect sock address.sockaddr)) w
  rw [hassoc, Prog.exec_bind, hexec]
  cases hresult : ((do
      kernel.configure sock options
      kernel.connect sock address.sockaddr : Prog σ Exc Unit).exec w.env).1 with
  | error e =>
      rw [hresult] at hdials
      exact ⟨.error e, v, rfl, fun _ => hsockets, hdials.ends⟩
  | ok u =>
      rw [hresult] at hdials
      -- a connected socket is asked for its peer
      have hfails := hdials.not_fails
      obtain ⟨sockaddr, hpeer, hmeets⟩ := hplays.meets hfails v.env
      obtain ⟨v', hget, -, -⟩ := follows_perform (kernel.getpeername sock) (.getpeername sock) v
      refine ⟨((verifyPeer U kernel sock address observer).exec v).1,
        ((verifyPeer U kernel sock address observer).exec v).2, rfl, fun h => absurd h hfails, ?_⟩
      rw [verifyPeer, Prog.exec_bind, hget, hpeer]
      exact ends_comparison (exec_reportPeer hport observer) hfails hmeets v'

/-- One attempt ends as the kernel plays it, and takes one socket if it fails. -/
theorem exec_openSocket {kernel : Kernel σ} {options : ConnectOptions} {observer : Option (Observer σ)}
    {address : Address} {port : ℤ} {attempt : Attempt} {w : World σ} (hport : address.port U = .ok port)
    (hplays : kernel.Plays U options w.sockets address attempt) :
    ∃ result w', (openSocket U kernel address options observer).exec w = (result, w') ∧
      (attempt.Fails → w'.sockets = w.sockets + 1) ∧ attempt.Ends observer w.sockets result := by
  have hdials := hplays.dials w.env
  obtain ⟨w₁, hsocket, henv, hsockets⟩ := follows_perform
    (kernel.socket w.sockets address.family sockStream) (.socket w.sockets address.family)
    { w with sockets := w.sockets + 1 }
  rw [openSocket, Prog.exec_bind, newSocket, Prog.exec_ofFun]
  dsimp only
  rw [Prog.exec_bind, hsocket]
  rw [Kernel.dial, Prog.exec_bind] at hdials
  dsimp only at henv hsockets ⊢
  cases hexec : (kernel.socket w.sockets address.family sockStream).exec w.env with
  | mk result env =>
      rw [hexec] at hdials henv
      cases result with
      | error e => exact ⟨.error e, w₁, rfl, fun _ => hsockets, hdials.ends⟩
      | ok u =>
          dsimp only at hdials henv ⊢
          rw [← henv] at hdials
          obtain ⟨result, v, hbody, hfails, hends⟩ := exec_openBody hport hplays hdials
          have hcloses : ∀ v : World σ,
              ((perform (kernel.close w.sockets) (.close w.sockets)).exec v).1 = .ok () :=
            fun v => hplays.closes v.env
          obtain ⟨v', hguarded, hsame⟩ := Prog.exec_tryCatch_cleanup hcloses hbody
          refine ⟨result.map fun _ => w.sockets, v', ?_, fun h => ?_, hends.map fun _ => w.sockets⟩
          · rw [Prog.exec_bind, hguarded]
            cases result <;> rfl
          · rcases hsame with rfl | rfl
            · rw [hfails h, hsockets]
            · exact (hfails h).trans hsockets

/-! ## The calls of an attempt -/

/-- Whether a call asks for a socket. -/
def Action.opens : Action → Bool
  | socket .. => true
  | _ => false

/-- The socket address a call connects to. -/
def Action.dialled : Action → Option SockAddr
  | connect _ sockaddr _ => some sockaddr
  | _ => none

/-- Whether a call raised. -/
def Action.raised : Action → Bool
  | lookup _ _ _ (.error _) | socket _ _ (.error _) | setsockopt _ _ (.error _) | settimeout _ _ (.error _)
  | bind _ _ (.error _) | connect _ _ (.error _) | getpeername _ (.error _) | close _ (.error _) => true
  | _ => false

/-- The calls connect to this address once and to nothing else, or to nothing at all because one of them
raised. -/
def Dialled (sockaddr : SockAddr) (calls : List Action) : Prop :=
  calls.filterMap Action.dialled = [sockaddr] ∨
    calls.filterMap Action.dialled = [] ∧ ∃ call ∈ calls, call.raised = true

/-- The calls of an attempt at this address: one socket of its family, and what is done with it. -/
def SocketAttempt (address : Address) (calls : List Action) : Prop :=
  ∃ sock result later, calls = .socket sock address.family result :: later ∧
    (∀ call ∈ later, call.opens = false) ∧ Dialled address.sockaddr calls

/-- The calls neither ask for a socket nor connect one. -/
def Quiet (calls : List Action) : Prop := ∀ call ∈ calls, call.opens = false ∧ call.dialled = none

/-- The calls before connecting: quiet ones, and when they end in a raise one of them raised. -/
def Prepares (result : Except Exc Unit) (calls : List Action) : Prop :=
  Quiet calls ∧ ∀ e, result = .error e → ∃ call ∈ calls, call.raised = true

theorem Quiet.append {first second : List Action} (h₁ : Quiet first) (h₂ : Quiet second) :
    Quiet (first ++ second) := by
  intro call hmem
  rcases List.mem_append.mp hmem with hmem | hmem
  · exact h₁ call hmem
  · exact h₂ call hmem

theorem quiet_singleton {call : Action} (hopens : call.opens = false) (hdialled : call.dialled = none) :
    Quiet [call] := by
  intro other hmem
  rw [List.mem_singleton.mp hmem]
  exact ⟨hopens, hdialled⟩

theorem Quiet.filterMap_dialled {calls : List Action} (h : Quiet calls) :
    calls.filterMap Action.dialled = [] := List.filterMap_eq_nil_iff.mpr fun call hmem => (h call hmem).2

theorem prepares_nil : Prepares (.ok ()) [] :=
  ⟨List.forall_mem_nil _, fun _ h => absurd h.symm Except.error_ne_ok⟩

theorem Prepares.append (result : Except Exc Unit) (first second : List Action)
    (h₁ : Prepares (.ok ()) first) (h₂ : Prepares result second) :
    Prepares result (first ++ second) := by
  refine ⟨h₁.1.append h₂.1, fun e he => ?_⟩
  obtain ⟨call, hmem, hraised⟩ := h₂.2 e he
  exact ⟨call, List.mem_append_right _ hmem, hraised⟩

theorem traces_prepare {operation : Prog σ Exc Unit} {action : Except Exc Unit → Action}
    (hopens : ∀ result, (action result).opens = false)
    (hdialled : ∀ result, (action result).dialled = none)
    (hraised : ∀ e, (action (.error e)).raised = true) :
    Traces (perform operation action) Prepares := by
  refine Traces.perform fun result => ⟨quiet_singleton (hopens _) (hdialled _), ?_⟩
  rintro e rfl
  exact ⟨_, List.mem_singleton.mpr rfl, hraised e⟩

theorem traces_configure (kernel : Kernel σ) (sock : SockId) (options : ConnectOptions) :
    Traces (configure kernel sock options) Prepares := by
  have hthen {x y : Prog (World σ) Exc Unit} (hx : Traces x Prepares) (hy : Traces y Prepares) :
      Traces (x >>= fun _ => y) Prepares := by
    refine hx.bind (fun _ first hfirst => ?_) fun _ _ hfirst => hfirst
    exact hy.conseq fun result second hsecond => hfirst.append result first second hsecond
  refine hthen (Prog.Adds.forM prepares_nil Prepares.append (fun option => ?_) _) (hthen ?_ ?_)
  · exact traces_prepare (fun _ => rfl) (fun _ => rfl) fun _ => rfl
  · exact Prog.Adds.optionForM prepares_nil
      (fun _ => traces_prepare (fun _ => rfl) (fun _ => rfl) fun _ => rfl) _
  · exact Prog.Adds.optionForM prepares_nil
      (fun _ => traces_prepare (fun _ => rfl) (fun _ => rfl) fun _ => rfl) _

theorem Dialled.append_quiet {sockaddr : SockAddr} {calls last : List Action} (h : Dialled sockaddr calls)
    (hlast : Quiet last) : Dialled sockaddr (calls ++ last) := by
  have hsame : (calls ++ last).filterMap Action.dialled = calls.filterMap Action.dialled := by
    rw [List.filterMap_append, hlast.filterMap_dialled, List.append_nil]
  rcases h with h | ⟨h, call, hmem, hraised⟩
  · exact .inl (hsame.trans h)
  · exact .inr ⟨hsame.trans h, call, List.mem_append_left _ hmem, hraised⟩

/-- What is done with a socket connects it to the address, unless something raised before. -/
def Handles (address : Address) (calls : List Action) : Prop :=
  (∀ call ∈ calls, call.opens = false) ∧ Dialled address.sockaddr calls

theorem Handles.append_quiet {address : Address} {calls last : List Action} (h : Handles address calls)
    (hlast : Quiet last) : Handles address (calls ++ last) := by
  refine ⟨fun call hmem => ?_, h.2.append_quiet hlast⟩
  rcases List.mem_append.mp hmem with hmem | hmem
  · exact h.1 call hmem
  · exact (hlast call hmem).1

theorem handles_openBody (kernel : Kernel σ) (sock : SockId) (address : Address) (options : ConnectOptions)
    (observer : Option (Observer σ)) :
    Traces (openBody U kernel sock address options observer) fun _ added => Handles address added := by
  refine (traces_configure kernel sock options).bind (fun _ first hfirst => ?_) fun e first hfirst => ?_
  -- whatever comes after the call to connect, the call is the one there is
  · have hconnect (result : Except Exc Unit) :
        Handles address (first ++ [.connect sock address.sockaddr result]) := by
      refine ⟨fun call hmem => ?_, .inl ?_⟩
      · rcases List.mem_append.mp hmem with hmem | hmem
        · exact (hfirst.1 call hmem).1
        · rw [List.mem_singleton.mp hmem]
          rfl
      · rw [List.filterMap_append, hfirst.1.filterMap_dialled]
        rfl
    refine Traces.bind_perform (fun _ => ?_) fun e => hconnect _
    refine (traces_verifyPeer kernel sock address observer).conseq ?_
    rintro result _ ⟨remote, rfl, -⟩
    rw [List.append_cons]
    exact (hconnect _).append_quiet (quiet_singleton rfl rfl)
  · exact ⟨fun call hmem => (hfirst.1 call hmem).1, .inr ⟨hfirst.1.filterMap_dialled, hfirst.2 e rfl⟩⟩

/-- Opening a socket is one attempt at its address. -/
theorem attempts_openSocket (kernel : Kernel σ) (address : Address) (options : ConnectOptions)
    (observer : Option (Observer σ)) :
    Traces (openSocket U kernel address options observer) fun _ added => SocketAttempt address added := by
  have hnew : Traces (newSocket : Prog (World σ) Exc SockId) fun result added =>
      added = [] ∧ ∃ sock, result = .ok sock := Traces.newSocket fun sock => ⟨rfl, sock, rfl⟩
  refine hnew.bind ?_ ?_
  · rintro sock _ ⟨rfl, -⟩
    refine Traces.bind_perform (fun _ => ?_) fun e => ?_
    -- what follows the socket, the call that closes it included
    · have hguarded : Traces (tryCatch (openBody U kernel sock address options observer) fun e => do
          perform (kernel.close sock) (.close sock)
          throw e) fun _ added => Handles address added := by
        refine (handles_openBody kernel sock address options observer).tryCatch (fun _ _ => id) ?_
        intro e first hfirst
        have hclosed (result : Except Exc Unit) : Handles address (first ++ [.close sock result]) :=
          hfirst.append_quiet (quiet_singleton rfl rfl)
        exact Traces.bind_perform (fun _ => Traces.throw (hclosed _)) fun _ => hclosed _
      have hafter {later : List Action} (h : Handles address later) :
          SocketAttempt address (.socket sock address.family (.ok ()) :: later) := by
        refine ⟨sock, .ok (), later, rfl, h.1, h.2.imp id ?_⟩
        rintro ⟨hnone, call, hmem, hraised⟩
        exact ⟨hnone, call, List.mem_cons_of_mem _ hmem, hraised⟩
      refine hguarded.bind (fun _ first hfirst => Traces.pure ?_) fun _ first hfirst => hafter hfirst
      rw [List.append_nil]
      exact hafter hfirst
    · refine ⟨sock, .error e, [], rfl, List.forall_mem_nil _, .inr ⟨rfl, ?_⟩⟩
      exact ⟨_, List.mem_singleton.mpr rfl, rfl⟩
  · rintro e _ ⟨-, sock, h⟩
    cases h

/-! ## The loop -/

section

variable {kernel : Kernel σ} {options : ConnectOptions} {observer : Option (Observer σ)}
  {message : List Str → Str} {address : Address} {attempted : List Address} {failures : List Str}
  {onlyTimeouts : Bool} {w v : World σ} {e : Exc}

theorem Address.str_of_port {port : ℤ} (h : address.port U = .ok port) :
    ∃ shown, address.str U = .ok shown := by
  rw [Address.str, h]
  exact ⟨_, rfl⟩

/-- After an `OSError` the loop goes on once it can show the address. -/
theorem exec_attemptFrom_shown {shown : Str} (hshown : address.str U = .ok shown)
    (h : (openSocket U kernel address options observer).exec w = (.error e, v)) (hos : e.isOSError = true) :
    ∃ failures', (attemptFrom U kernel options observer message (address :: attempted) failures
      onlyTimeouts).exec w = (attemptFrom U kernel options observer message attempted failures'
        (onlyTimeouts && e.isTimeoutError)).exec v := by
  refine ⟨failures ++ [shown ++ text " (" ++ e.str U ++ text ")"], ?_⟩
  rw [attemptFrom, Prog.exec_tryCatch, h]
  dsimp only
  rw [if_pos hos, hshown]
  rfl

/-- After an `OSError` the loop goes on with the addresses that are left. -/
theorem exec_attemptFrom_failed {port : ℤ} (hport : address.port U = .ok port)
    (h : (openSocket U kernel address options observer).exec w = (.error e, v)) (hos : e.isOSError = true) :
    ∃ failures', (attemptFrom U kernel options observer message (address :: attempted) failures
      onlyTimeouts).exec w = (attemptFrom U kernel options observer message attempted failures'
        (onlyTimeouts && e.isTimeoutError)).exec v := by
  obtain ⟨shown, hshown⟩ := Address.str_of_port hport
  exact exec_attemptFrom_shown hshown h hos

/-- Any other ending of an attempt ends the loop. -/
theorem exec_attemptFrom_ended {result : Except Exc SockId}
    (h : (openSocket U kernel address options observer).exec w = (result, v))
    (hos : ∀ e, result = .error e → e.isOSError = false) :
    (attemptFrom U kernel options observer message (address :: attempted) failures onlyTimeouts).exec w =
      (result, v) := by
  rw [attemptFrom, Prog.exec_tryCatch, h]
  cases result with
  | ok sock => rfl
  | error e =>
      dsimp only
      rw [hos e rfl]
      rfl

theorem translated_of_not_isOSError (h : e.isOSError = false) : translated U e = .untranslated e := by
  have htimeout : e.isTimeoutError ≠ true := fun htimeout =>
    absurd (Exc.isOSError_of_isTimeoutError htimeout) (by rw [h]; decide)
  rw [translated, if_neg htimeout, if_neg (by rw [h]; decide)]

/-- **The loop of `connect` follows `failover`**: in how it ends, and in which addresses it attempts. -/
theorem attemptFrom_follows {script : List (Address × Attempt)}
    (hports : ∀ entry ∈ script, ∃ port, entry.1.port U = .ok port)
    (hplays : ∀ i address attempt, script[i]? = some (address, attempt) →
      kernel.Plays U options (w.sockets + i) address attempt) :
    let run := (attemptFrom U kernel options observer message (script.map Prod.fst) failures
      onlyTimeouts).exec w
    ∃ added, run.2.trace = w.trace ++ added ∧
      (failover onlyTimeouts (script.map Prod.snd)).Accounts observer SocketAttempt w.sockets
        (script.map Prod.fst) (run.1.mapError (translated U)) added := by
  induction script generalizing failures onlyTimeouts w with
  | nil =>
      refine ⟨[], (List.append_nil _).symm, ?_⟩
      cases onlyTimeouts with
      | true => exact ⟨⟨_, rfl⟩, rfl⟩
      | false => exact ⟨⟨_, rfl⟩, rfl⟩
  | cons entry script ih =>
      obtain ⟨address, attempt⟩ := entry
      intro run
      obtain ⟨port, hport⟩ := hports _ List.mem_cons_self
      obtain ⟨result, v, hexec, hsockets, hends⟩ := exec_openSocket hport (hplays 0 address attempt rfl)
      obtain ⟨first, hfirst, hattempt⟩ := attempts_openSocket (U := U) kernel address options observer w
      rw [hexec] at hfirst
      by_cases hfails : attempt.Fails
      -- a failed attempt, and those after it
      · obtain ⟨e, rfl, hos, hfailover⟩ := hends.failed hfails onlyTimeouts (script.map Prod.snd)
        have hplays' := plays_tail hplays
        rw [← hsockets hfails] at hplays'
        obtain ⟨failures', hrun⟩ : ∃ failures', run = _ := exec_attemptFrom_failed hport hexec hos
        obtain ⟨second, hsecond, hending⟩ := ih (List.forall_mem_cons.mp hports).2 hplays'
        rw [hsockets hfails] at hending
        refine ⟨first ++ second, ?_, ?_⟩
        · rw [hrun, hsecond, hfirst, List.append_assoc]
        · have haccounts := hending.cons hattempt
          rw [← hfailover] at haccounts
          rw [hrun]
          exact haccounts
      · have hrun : run = (result, v) :=
          exec_attemptFrom_ended hexec fun e he => hends.not_isOSError hfails he
        rw [hrun]
        exact ⟨first, hfirst, hends.accounts hfails _ (fun e => translated_of_not_isOSError) hattempt⟩

/-- Over addresses that are all permitted, `connect` is its loop. -/
theorem exec_connect {p : Policy} {addresses : List Address} (hne : addresses ≠ [])
    (hchecked : checkAll p addresses = .ok ()) :
    ∃ message, (connect U p kernel addresses options observer).exec w =
      (attemptFrom U kernel options observer message (addresses.take p.maxConnectionAttempts.toNat) []
        true).exec w := by
  rw [connect, if_neg hne, hchecked]
  exact ⟨_, rfl⟩

theorem getElem?_of_take {α : Type} {l : List α} {n i : ℕ} {a : α} (h : (l.take n)[i]? = some a) :
    l[i]? = some a := by
  rw [List.getElem?_take] at h
  split at h
  · exact h
  · cases h

/-- So does `connect` over validated addresses, as far as its cap. -/
theorem connect_follows {p : Policy} {script : List (Address × Attempt)} (hne : script ≠ [])
    (hvalid : ∀ entry ∈ script, p.Permits entry.1.ip)
    (hports : ∀ entry ∈ script, ∃ port, entry.1.port U = .ok port)
    (hplays : ∀ i address attempt, script[i]? = some (address, attempt) →
      kernel.Plays U options (w.sockets + i) address attempt) :
    let tried := script.take p.maxConnectionAttempts.toNat
    let run := (Prog.mapError (translated U)
      (connect U p kernel (script.map Prod.fst) options observer)).exec w
    ∃ added, run.2.trace = w.trace ++ added ∧
      (failover true (tried.map Prod.snd)).Accounts observer SocketAttempt w.sockets (tried.map Prod.fst)
        run.1 added := by
  intro tried run
  have hne' : script.map Prod.fst ≠ [] := by simpa using hne
  have hchecked : checkAll p (script.map Prod.fst) = .ok () := by
    refine checkAll_of_permits fun address hmem => ?_
    obtain ⟨entry, hentry, rfl⟩ := List.mem_map.mp hmem
    exact hvalid entry hentry
  obtain ⟨message, hmessage⟩ := exec_connect (U := U) (w := w) hne' hchecked
  rw [show run = ((((connect U p kernel (script.map Prod.fst) options observer).exec w).1.mapError
    (translated U)), ((connect U p kernel (script.map Prod.fst) options observer).exec w).2) from rfl,
    hmessage, ← List.map_take]
  refine attemptFrom_follows (fun entry hmem => hports entry (List.mem_of_mem_take hmem)) ?_
  intro i address attempt hentry
  exact hplays i address attempt (getElem?_of_take hentry)

end

end SsrfGuard
