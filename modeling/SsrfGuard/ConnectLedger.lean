import SsrfGuard.Library.Ledger
import SsrfGuard.Httpx.FailoverParity

/-! # The sockets of a connection

`connect` opens no socket before every address is permitted, attempts the addresses in their order as long as
the attempts fail, and stops at the first that succeeds. Of the sockets it opened only the one it returns is open
afterwards, whatever the socket operations and the observer raise. -/

namespace SsrfGuard

variable {σ : Type} {U : Unicode}

/-! ## The ledger of sockets -/

/-- The socket a call opens. -/
def Action.opened : Action → Option SockId
  | socket sock _ (.ok _) => some sock
  | _ => none

/-- The socket a call closes. A socket whose `close` raises is closed too: it gives up its descriptor
before it asks for the descriptor to be closed. -/
def Action.closed : Action → Option SockId
  | close sock _ => some sock
  | _ => none

/-- The sockets that calls open and close. -/
def socketLedger : Ledger Action SockId where
  opens := Action.opened
  closes := Action.closed

theorem passes_perform {α : Type} {operation : Prog σ Exc α} {action : Except Exc α → Action}
    (h : ∀ result, socketLedger.Passes (action result)) :
    Prog.AddsOnly World.trace socketLedger.Passes (perform operation action) := by
  intro w
  exact ⟨_, rfl, List.forall_mem_singleton.mpr (h _)⟩

theorem passes_configure (kernel : Kernel σ) (sock : SockId) (options : ConnectOptions) :
    Prog.AddsOnly World.trace socketLedger.Passes (configure kernel sock options) := by
  refine (Prog.AddsOnly.forM (fun _ => passes_perform fun _ => ⟨rfl, rfl⟩) _).bind fun _ => ?_
  refine (Prog.AddsOnly.optionForM (fun _ => passes_perform fun _ => ⟨rfl, rfl⟩) _).bind fun _ => ?_
  exact .optionForM (fun _ => passes_perform fun _ => ⟨rfl, rfl⟩) _

theorem passes_verifyPeer (kernel : Kernel σ) (sock : SockId) (address : Address)
    (observer : Option (Observer σ)) :
    Prog.AddsOnly World.trace socketLedger.Passes (verifyPeer U kernel sock address observer) := by
  intro w
  obtain ⟨_, htrace, remote, rfl, -⟩ := traces_verifyPeer (U := U) kernel sock address observer w
  exact ⟨_, htrace, List.forall_mem_singleton.mpr ⟨rfl, rfl⟩⟩

theorem passes_openBody (kernel : Kernel σ) (sock : SockId) (address : Address) (options : ConnectOptions)
    (observer : Option (Observer σ)) :
    Prog.AddsOnly World.trace socketLedger.Passes (openBody U kernel sock address options observer) := by
  refine (passes_configure kernel sock options).bind fun _ => ?_
  exact (passes_perform fun _ => ⟨rfl, rfl⟩).bind fun _ => passes_verifyPeer kernel sock address observer

/-- One attempt leaves the socket it returns open, and no other. -/
theorem balances_openSocket (kernel : Kernel σ) (address : Address) (options : ConnectOptions)
    (observer : Option (Observer σ)) :
    Traces (openSocket U kernel address options observer) fun result added =>
      socketLedger.Balances result.toOption.toList added := by
  refine Traces.bind_silent (Traces.newSocket fun _ => rfl) (fun sock => ?_) fun _ => Ledger.balances_nil
  refine Traces.bind_perform (fun _ => ?_) fun e => ?_
  · refine Prog.Adds.guarded rfl (passes_openBody kernel sock address options observer) ?_
    intro w
    exact ⟨_, rfl, _, rfl, rfl, rfl⟩
  -- a socket that could not be opened needs no closing
  · exact Ledger.balances_of_passes (List.forall_mem_singleton.mpr ⟨rfl, rfl⟩)

/-- The whole loop leaves the socket it returns open, and no other. -/
theorem balances_attemptFrom (kernel : Kernel σ) (options : ConnectOptions)
    (observer : Option (Observer σ)) (message : List Str → Str) (attempted : List Address)
    (failures : List Str) (onlyTimeouts : Bool) :
    Traces (attemptFrom U kernel options observer message attempted failures onlyTimeouts)
      fun result added => socketLedger.Balances result.toOption.toList added := by
  induction attempted generalizing failures onlyTimeouts with
  | nil => exact Traces.throw Ledger.balances_nil
  | cons address attempted ih =>
      rw [attemptFrom]
      refine (balances_openSocket kernel address options observer).tryCatch (fun _ _ => id) ?_
      intro e first hfirst
      -- an attempt that raised has closed what it opened
      have hraised : socketLedger.Balances [] (first ++ []) := by
        rw [List.append_nil]
        exact hfirst
      split
      · refine Traces.bind_ofExcept (fun shown _ => ?_) fun _ _ => hraised
        exact (ih _ _).conseq fun result second hsecond => hfirst.append hsecond
      · exact Traces.throw hraised

/-! ## The attempts in their order -/

/-- How attempts at these addresses end, each made in the world that the one before it left. -/
def endings (U : Unicode) (kernel : Kernel σ) (options : ConnectOptions) (observer : Option (Observer σ)) :
    List Address → World σ → List (Except Exc SockId)
  | [], _ => []
  | address :: attempted, w =>
    let (result, v) := (openSocket U kernel address options observer).exec w
    result :: endings U kernel options observer attempted v

/-- The attempt raised an `OSError`, which is failed over from. -/
def FailsOver (ending : Except Exc SockId) : Prop := ∃ e, ending = .error e ∧ e.isOSError = true

/-- The first `n` of the attempts were made and the loop came to this result: all but the last of them
failed, and one that did not fail is the result. -/
structure StopsAfter (attempts : List (Except Exc SockId)) (n : ℕ) (result : Except Exc SockId) : Prop where
  /-- The number of attempts made. -/
  le_length : n ≤ attempts.length
  /-- Only the last attempt may have ended the loop. -/
  failsOver : ∀ ending ∈ attempts.take (n - 1), FailsOver ending
  /-- An attempt that did not fail ended it. -/
  ended : ∀ ending ∈ attempts.take n, ¬ FailsOver ending → result = ending
  /-- A socket is that of an attempt. -/
  returned : ∀ sock, result = .ok sock → .ok sock ∈ attempts.take n

theorem length_endings (kernel : Kernel σ) (options : ConnectOptions) (observer : Option (Observer σ))
    (attempted : List Address) (w : World σ) :
    (endings U kernel options observer attempted w).length = attempted.length := by
  induction attempted generalizing w with
  | nil => rfl
  | cons address attempted ih => exact congrArg (· + 1) (ih _)

/-- A loop that made one attempt, which failed, before it raised something. -/
theorem StopsAfter.raised {ending : Except Exc SockId} {attempts : List (Except Exc SockId)} {e : Exc}
    (h : FailsOver ending) : StopsAfter (ending :: attempts) 1 (.error e) where
  le_length := Nat.le_add_left 1 _
  failsOver := List.forall_mem_nil _
  ended := by
    intro other hmem hother
    rw [List.mem_singleton.mp hmem] at hother
    exact absurd h hother
  returned := fun _ h => nomatch h

/-- A loop whose first attempt does not fail. -/
theorem StopsAfter.first {ending : Except Exc SockId} {attempts : List (Except Exc SockId)} :
    StopsAfter (ending :: attempts) 1 ending where
  le_length := Nat.le_add_left 1 _
  failsOver := List.forall_mem_nil _
  ended := fun other hmem _ => (List.mem_singleton.mp hmem).symm
  returned := by
    rintro sock rfl
    exact List.mem_singleton.mpr rfl

/-- A failed attempt before the others. -/
theorem StopsAfter.cons {ending result : Except Exc SockId} {attempts : List (Except Exc SockId)} {n : ℕ}
    (hfails : FailsOver ending) (h : StopsAfter attempts n result) :
    StopsAfter (ending :: attempts) (n + 1) result where
  le_length := Nat.succ_le_succ h.le_length
  failsOver := by
    intro other hmem
    cases n with
    | zero => exact absurd hmem List.not_mem_nil
    | succ n =>
        rcases List.mem_cons.mp hmem with rfl | hmem
        · exact hfails
        · exact h.failsOver other hmem
  ended := by
    intro other hmem hother
    rcases List.mem_cons.mp hmem with rfl | hmem
    · exact absurd hfails hother
    · exact h.ended other hmem hother
  returned := fun sock hsock => List.mem_cons_of_mem _ (h.returned sock hsock)

/-- What the text of an address raises is what its port raises. -/
theorem Address.port_of_str {address : Address} {e : Exc} (h : address.str U = .error e) :
    address.port U = .error e := by
  rw [Address.str] at h
  cases hport : address.port U with
  | ok port =>
      rw [hport] at h
      cases h
  | error e' =>
      rw [hport] at h
      cases h
      rfl

/-- What is raised when every attempt failed with one of these. -/
def Exhausts (onlyTimeouts : Bool) (raised : List Exc) (result : Except Exc SockId) : Prop :=
  ((∃ message, result = .error (.timeoutError message)) ↔
      onlyTimeouts = true ∧ ∀ e ∈ raised, e.isTimeoutError = true) ∧
    (¬ (onlyTimeouts = true ∧ ∀ e ∈ raised, e.isTimeoutError = true) →
      ∃ message, result = .error (.osError message))

/-- Some address has no port to show, and what reading it raises is raised. An address is documented to carry a
socket address of two elements, or of four, but nothing checks one that is built by hand. -/
def Unshown (U : Unicode) (attempted : List Address) (result : Except Exc SockId) : Prop :=
  ∃ address ∈ attempted, ∃ e, address.port U = .error e ∧ result = .error e

theorem Unshown.mono {attempted attempted' : List Address} {result : Except Exc SockId}
    (h : Unshown U attempted result) (hsub : attempted ⊆ attempted') : Unshown U attempted' result := by
  obtain ⟨address, hmem, hunshown⟩ := h
  exact ⟨address, hsub hmem, hunshown⟩

theorem exhausts_nil (onlyTimeouts : Bool) (message : Str) :
    Exhausts onlyTimeouts []
      (.error (if onlyTimeouts then .timeoutError message else .osError message)) := by
  cases onlyTimeouts with
  | true => exact ⟨⟨fun _ => ⟨rfl, List.forall_mem_nil _⟩, fun _ => ⟨message, rfl⟩⟩,
      fun h => absurd ⟨rfl, List.forall_mem_nil _⟩ h⟩
  | false =>
      refine ⟨⟨?_, fun h => absurd h.1 Bool.false_ne_true⟩, fun _ => ⟨message, rfl⟩⟩
      rintro ⟨other, h⟩
      cases h

theorem Exhausts.cons {onlyTimeouts : Bool} {e : Exc} {raised : List Exc} {result : Except Exc SockId}
    (h : Exhausts (onlyTimeouts && e.isTimeoutError) raised result) :
    Exhausts onlyTimeouts (e :: raised) result := by
  have hsame : (onlyTimeouts && e.isTimeoutError) = true ∧ (∀ e ∈ raised, e.isTimeoutError = true) ↔
      onlyTimeouts = true ∧ ∀ e' ∈ e :: raised, e'.isTimeoutError = true := by
    rw [Bool.and_eq_true, List.forall_mem_cons, and_assoc]
  rw [Exhausts, ← hsame]
  exact h

section

variable {kernel : Kernel σ} {options : ConnectOptions} {observer : Option (Observer σ)}
  {message : List Str → Str} {address : Address} {attempted : List Address} {failures : List Str}
  {onlyTimeouts : Bool} {w v : World σ} {e : Exc}

/-- An address that cannot be shown ends the loop. -/
theorem exec_attemptFrom_unshown {unshown : Exc} (hshown : address.str U = .error unshown)
    (h : (openSocket U kernel address options observer).exec w = (.error e, v)) (hos : e.isOSError = true) :
    (attemptFrom U kernel options observer message (address :: attempted) failures onlyTimeouts).exec w =
      (.error unshown, v) := by
  rw [attemptFrom, Prog.exec_tryCatch, h]
  dsimp only
  rw [if_pos hos, hshown]
  rfl

/-- **The loop makes the first `n` attempts** and stops after them, but not while they fail and there is another to
make; when all of them failed it says how. -/
theorem exec_attemptFrom (kernel : Kernel σ) (options : ConnectOptions) (observer : Option (Observer σ))
    (message : List Str → Str) (attempted : List Address) (failures : List Str) (onlyTimeouts : Bool)
    (w : World σ) :
    let run := (attemptFrom U kernel options observer message attempted failures onlyTimeouts).exec w
    let attempts := endings U kernel options observer attempted w
    ∃ n added, run.2.trace = w.trace ++ added ∧ InTurn SocketAttempt (attempted.take n) added ∧
      StopsAfter attempts n run.1 ∧
      ((∀ ending ∈ attempts.take n, FailsOver ending) →
        n = attempts.length ∨ Unshown U (attempted.take n) run.1) ∧
      ∀ raised : List Exc, attempts = raised.map .error → (∀ e ∈ raised, e.isOSError = true) →
        Exhausts onlyTimeouts raised run.1 ∨ Unshown U attempted run.1 := by
  induction attempted generalizing failures onlyTimeouts w with
  | nil =>
      refine ⟨0, [], (List.append_nil _).symm, rfl, ?_, fun _ => .inl rfl, ?_⟩
      · exact ⟨le_rfl, List.forall_mem_nil _, List.forall_mem_nil _, fun _ h => nomatch h⟩
      · intro raised h _
        obtain rfl := List.map_eq_nil_iff.mp h.symm
        exact .inl (exhausts_nil onlyTimeouts _)
  | cons address attempted ih =>
      obtain ⟨first, hfirst, hattempt⟩ := attempts_openSocket (U := U) kernel address options observer w
      cases hexec : (openSocket U kernel address options observer).exec w with
      | mk ending v =>
          rw [hexec] at hfirst
          have hattempts : endings U kernel options observer (address :: attempted) w =
              ending :: endings U kernel options observer attempted v := by
            rw [endings, hexec]
          rw [hattempts]
          by_cases hfails : FailsOver ending
          · obtain ⟨e, rfl, hos⟩ := hfails
            have hfails : FailsOver (.error e) := ⟨e, rfl, hos⟩
            cases hshown : address.str U with
            | error unshown =>
                -- the failure cannot be written down, and the loop ends before the next attempt
                have hunshown : Unshown U [address] (.error unshown) :=
                  ⟨address, List.mem_cons_self, unshown, Address.port_of_str hshown, rfl⟩
                rw [exec_attemptFrom_unshown hshown hexec hos]
                refine ⟨1, first, hfirst, InTurn.singleton hattempt, .raised hfails, fun _ => .inr hunshown,
                  fun _ _ _ => .inr (hunshown.mono ?_)⟩
                exact List.cons_subset_cons address (List.nil_subset attempted)
            | ok shown =>
                have hrest : ∃ failures', (attemptFrom U kernel options observer message
                    (address :: attempted) failures onlyTimeouts).exec w = _ :=
                  exec_attemptFrom_shown hshown hexec hos
                obtain ⟨failures', hrun⟩ := hrest
                obtain ⟨n, second, hsecond, hturns, hstops, hgoesOn, hexhausts⟩ := ih failures'
                  (onlyTimeouts && e.isTimeoutError) v
                rw [hrun]
                refine ⟨n + 1, first ++ second, ?_, hturns.cons hattempt, hstops.cons hfails, ?_, ?_⟩
                · rw [hsecond, hfirst, List.append_assoc]
                -- the rest of the loop goes on as long as it fails, and this attempt has failed
                · intro hall
                  rcases hgoesOn (List.forall_mem_cons.mp hall).2 with hlength | hunshown
                  · exact .inl (congrArg (· + 1) hlength)
                  · exact .inr (hunshown.mono (List.subset_cons_self address _))
                · intro raised hraised hall
                  cases raised with
                  | nil => cases hraised
                  | cons e' raised =>
                      obtain ⟨hhead, htail⟩ := List.cons.inj hraised
                      cases hhead
                      refine (hexhausts raised htail (List.forall_mem_cons.mp hall).2).imp .cons fun hunshown => ?_
                      exact hunshown.mono (List.subset_cons_self address attempted)
          -- an attempt that does not fail ends the loop
          · rw [exec_attemptFrom_ended hexec fun e he => by
              rw [← Bool.not_eq_true]
              exact fun hos => hfails ⟨e, he, hos⟩]
            refine ⟨1, first, hfirst, InTurn.singleton hattempt, .first, fun hall => ?_, ?_⟩
            · exact absurd (hall ending List.mem_cons_self) hfails
            · intro raised hraised hall
              cases raised with
              | nil => cases hraised
              | cons e raised =>
                  obtain ⟨hhead, -⟩ := List.cons.inj hraised
                  exact absurd ⟨e, hhead, hall e List.mem_cons_self⟩ hfails

end

/-! ## The whole call -/

/-- Attempts at addresses ask for one socket each. -/
theorem countP_opens {attempted : List Address} {added : List Action}
    (h : InTurn SocketAttempt attempted added) : added.countP Action.opens = attempted.length := by
  induction attempted generalizing added with
  | nil =>
      obtain rfl : added = [] := h
      rfl
  | cons address attempted ih =>
      obtain ⟨first, second, rfl, ⟨sock, result, later, rfl, hlater, -⟩, hsecond⟩ := h
      have hnone : later.countP Action.opens = 0 := by
        refine List.countP_eq_zero.mpr fun call hmem => ?_
        rw [hlater call hmem]
        exact Bool.false_ne_true
      rw [List.countP_append, List.countP_cons_of_pos rfl, hnone, ih hsecond, List.length_cons,
        Nat.add_comm, Nat.zero_add]

/-- A sequence with a denied address fails its check with the refusal of one that is denied. -/
theorem checkAll_of_not_permits {p : Policy} {addresses : List Address}
    (h : ∃ address ∈ addresses, ¬ p.Permits address.ip) :
    ∃ address ∈ addresses, ¬ p.Permits address.ip ∧ checkAll p addresses =
      .error (.blockedAddressError address.ip.str (p.deniedNetworks.classify address.ip).reason) := by
  induction addresses with
  | nil =>
      obtain ⟨address, hmem, -⟩ := h
      exact absurd hmem List.not_mem_nil
  | cons first addresses ih =>
      cases hfirst : p.checkAddress first.ip with
      | error e =>
          obtain rfl := Policy.checkAddress_eq_error hfirst
          refine ⟨first, List.mem_cons_self, fun hpermits => ?_, ?_⟩
          · exact Except.error_ne_ok (hfirst.symm.trans hpermits)
          · exact Except.bind_eq_error.mpr (.inl hfirst)
      | ok u =>
          obtain ⟨address, hmem, hdenied⟩ := h
          rcases List.mem_cons.mp hmem with rfl | hmem
          · exact absurd hfirst hdenied
          · obtain ⟨other, hother, hrefused, hcheck⟩ := ih ⟨address, hmem, hdenied⟩
            refine ⟨other, List.mem_cons_of_mem _ hother, hrefused, ?_⟩
            exact Except.bind_eq_error.mpr (.inr ⟨u, hfirst, hcheck⟩)

/-- **The ledger of `connect`.** When an address is denied it raises the refusal and calls nothing.
Otherwise it attempts the addresses in their order, up to the cap and for as long as the attempts fail, and stops at
the first success; the socket it returns is open afterwards and every other one it opened is closed, whatever is
raised; and when every attempt fails with an `OSError` it raises a `TimeoutError` exactly when each of them was one,
and an `OSError` that is none when not. Only a socket address without a port, which is none that an `Address` is
documented to carry, ends the loop early: showing the failure raises. -/
theorem connect_ledger (U : Unicode) (p : Policy) (kernel : Kernel σ) (addresses : List Address)
    (options : ConnectOptions) (observer : Option (Observer σ)) (w : World σ) (hne : addresses ≠ []) :
    let run := (connect U p kernel addresses options observer).exec w
    let attempted := addresses.take p.maxConnectionAttempts.toNat
    let attempts := endings U kernel options observer attempted w
    ((∃ address ∈ addresses, ¬ p.Permits address.ip) →
      run.2 = w ∧ ∃ address ∈ addresses, ¬ p.Permits address.ip ∧ run.1 =
        .error (.blockedAddressError address.ip.str (p.deniedNetworks.classify address.ip).reason)) ∧
    ((∀ address ∈ addresses, p.Permits address.ip) →
      ∃ n added, run.2.trace = w.trace ++ added ∧
        InTurn SocketAttempt (attempted.take n) added ∧ StopsAfter attempts n run.1 ∧
        ((∀ ending ∈ attempts.take n, FailsOver ending) →
          n = attempts.length ∨ Unshown U (attempted.take n) run.1) ∧
        added.countP Action.opens = n ∧ n ≤ p.maxConnectionAttempts ∧
        socketLedger.Balances run.1.toOption.toList added ∧
        (∀ before sock family after, added = before ++ .socket sock family (.ok ()) :: after →
          run.1 = .ok sock ∨ ∃ result, .close sock result ∈ after) ∧
        ∀ raised : List Exc, attempts = raised.map .error → (∀ e ∈ raised, e.isOSError = true) →
          Exhausts true raised run.1 ∨ Unshown U attempted run.1) := by
  intro run attempted attempts
  constructor
  · intro hdenied
    obtain ⟨address, hmem, hrefused, hcheck⟩ := checkAll_of_not_permits hdenied
    have hrun : run = (.error (.blockedAddressError address.ip.str
        (p.deniedNetworks.classify address.ip).reason), w) := by
      rw [show run = (connect U p kernel addresses options observer).exec w from rfl, connect,
        if_neg hne, hcheck]
      rfl
    rw [hrun]
    exact ⟨rfl, address, hmem, hrefused, rfl⟩
  · intro hpermits
    have hloop : ∃ message, run = (attemptFrom U kernel options observer message attempted [] true).exec w :=
      exec_connect hne (checkAll_of_permits hpermits)
    obtain ⟨message, hrun⟩ := hloop
    obtain ⟨n, added, htrace, hturns, hstops, hgoesOn, hexhausts⟩ :=
      exec_attemptFrom (U := U) kernel options observer message attempted [] true w
    obtain ⟨added', htrace', hbalances⟩ :=
      balances_attemptFrom (U := U) kernel options observer message attempted [] true w
    rw [← hrun] at htrace hstops hgoesOn hexhausts htrace' hbalances
    obtain rfl : added = added' := List.append_cancel_left (htrace.symm.trans htrace')
    have hlength : n ≤ attempted.length := by
      have := hstops.le_length
      rwa [length_endings] at this
    have hcap : n ≤ p.maxConnectionAttempts.toNat := hlength.trans (List.length_take_le _ _)
    refine ⟨n, added, htrace, hturns, hstops, hgoesOn, ?_, ?_, hbalances, ?_, hexhausts⟩
    · rw [countP_opens hturns, List.length_take, min_eq_left hlength]
    · have := p.wellFormed.attempts_pos
      omega
    · rintro before sock family after rfl
      rcases hbalances.mem_or_closes (a := sock) rfl with hkept | ⟨later, hmem, hcloses⟩
      · exact .inl (Except.eq_ok_of_mem_toList hkept)
      · right
        cases later with
        | close sock' result =>
            cases hcloses
            exact ⟨result, hmem⟩
        | _ => cases hcloses

theorem connect_ledger_deadFirst :
    ∃ added, ((connect Unicode.ascii Policy.default deadFirstKernel (deadFirst.map Prod.fst) {}
        none).exec World.start).2.trace = added ∧
      ((connect Unicode.ascii Policy.default deadFirstKernel (deadFirst.map Prod.fst) {}
        none).exec World.start).1 = .ok 1 ∧
      added.countP Action.opens ≤ 4 ∧ socketLedger.Balances [1] added := by
  have hrun : ((connect Unicode.ascii Policy.default deadFirstKernel (deadFirst.map Prod.fst) {}
      none).exec World.start).1 = .ok 1 := by decide +kernel
  have hpermits : ∀ address ∈ deadFirst.map Prod.fst, Policy.default.Permits address.ip := by
    decide +kernel
  obtain ⟨n, added, htrace, -, -, -, hcount, hcap, hbalances, -⟩ := (connect_ledger Unicode.ascii
    Policy.default deadFirstKernel (deadFirst.map Prod.fst) {} none World.start (by decide)).2 hpermits
  rw [hrun] at hbalances
  refine ⟨added, htrace, hrun, ?_, hbalances⟩
  rw [hcount]
  have hfour : Policy.default.maxConnectionAttempts = 4 := rfl
  omega

/-- A dead address whose socket address is of one element. -/
def portless : Address :=
  { family := afInet, sockaddr := [.str (text "8.8.8.8")], ip := .v4 0x08080808, hostname := text "a" }

/-- A failure that cannot be shown: the one attempt times out, and what is raised is no `OSError`. -/
theorem connect_portless :
    let run := (connect Unicode.ascii Policy.default deadFirstKernel [portless] {} none).exec World.start
    Policy.default.Permits portless.ip ∧
      endings Unicode.ascii deadFirstKernel {} none [portless] World.start =
        [.error (.timeoutError (text "timed out"))] ∧
      run.1 = .error (.indexError (text "tuple index out of range")) ∧
      ¬ Exhausts true [.timeoutError (text "timed out")] run.1 := by
  have hrun : ((connect Unicode.ascii Policy.default deadFirstKernel [portless] {} none).exec World.start).1 =
      .error (.indexError (text "tuple index out of range")) := by decide +kernel
  refine ⟨by decide +kernel, by decide +kernel, hrun, fun h => ?_⟩
  obtain ⟨message, hmessage⟩ := h.1.mpr ⟨rfl, List.forall_mem_singleton.mpr rfl⟩
  rw [hrun] at hmessage
  cases hmessage

end SsrfGuard
