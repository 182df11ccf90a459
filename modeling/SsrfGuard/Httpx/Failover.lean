import SsrfGuard.Httpx.Resolution
import SsrfGuard.Library.Follow

/-! # Failover

What failing over comes to depends only on how each attempt ends. `failover` says so for any loop that
takes the addresses one after another. The loop of `connect`, under the two handlers of the synchronous
backend, follows it: attempt for attempt, and in how it ends. -/

namespace SsrfGuard

variable {σ : Type} {U : Unicode}

/-! ## Attempts and endings -/

/-- How an attempt at one address ends. -/
inductive Attempt
  /-- Connected, and the peer is the address. -/
  | connected
  /-- Connected, and the peer is another address. -/
  | rewritten
  /-- A `TimeoutError`. -/
  | timedOut
  /-- Any other `OSError`. -/
  | failed
  deriving DecidableEq

/-- The attempt raises what is failed over from. -/
def Attempt.Fails (attempt : Attempt) : Prop := attempt = .timedOut ∨ attempt = .failed

/-- How failing over ends. -/
inductive Ending
  /-- The attempt at this index brought a connection. -/
  | connected (index : ℕ)
  /-- The attempt at this index met another peer. -/
  | rewritten (index : ℕ)
  /-- Every attempt timed out. -/
  | timedOut
  /-- Every attempt failed, not all of them for time. -/
  | failed

/-- How many of `n` attempts were made. -/
def Ending.attempts (n : ℕ) : Ending → ℕ
  | connected index | rewritten index => index + 1
  | timedOut | failed => n

/-- The same ending, one attempt later. -/
def Ending.later : Ending → Ending
  | connected index => connected (index + 1)
  | rewritten index => rewritten (index + 1)
  | timedOut => timedOut
  | failed => failed

/-- How failing over ends, from whether every attempt so far timed out. -/
def failover : Bool → List Attempt → Ending
  | onlyTimeouts, [] => if onlyTimeouts then .timedOut else .failed
  | _, .connected :: _ => .connected 0
  | _, .rewritten :: _ => .rewritten 0
  | onlyTimeouts, .timedOut :: attempts => (failover onlyTimeouts attempts).later
  | _, .failed :: attempts => (failover false attempts).later

/-- What an ending says about the attempts, from whether every attempt before them timed out. -/
def Ending.Describes (onlyTimeouts : Bool) (attempts : List Attempt) : Ending → Prop
  | connected index => ∃ before after, attempts = before ++ .connected :: after ∧ before.length = index ∧
      ∀ attempt ∈ before, attempt.Fails
  | rewritten index => ∃ before after, attempts = before ++ .rewritten :: after ∧ before.length = index ∧
      ∀ attempt ∈ before, attempt.Fails
  | timedOut => onlyTimeouts = true ∧ ∀ attempt ∈ attempts, attempt = .timedOut
  | failed => (∀ attempt ∈ attempts, attempt.Fails) ∧ (onlyTimeouts = false ∨ .failed ∈ attempts)

theorem Ending.attempts_later (ending : Ending) (n : ℕ) :
    ending.later.attempts (n + 1) = ending.attempts n + 1 := by
  cases ending <;> rfl

/-- A first decisive attempt is as decisive after one more failure. -/
theorem exists_split_cons {attempt decisive : Attempt} {attempts : List Attempt} {index : ℕ}
    (hfails : attempt.Fails)
    (h : ∃ before after, attempts = before ++ decisive :: after ∧ before.length = index ∧
      ∀ attempt ∈ before, attempt.Fails) :
    ∃ before after, attempt :: attempts = before ++ decisive :: after ∧ before.length = index + 1 ∧
      ∀ attempt ∈ before, attempt.Fails := by
  obtain ⟨before, after, rfl, hlength, hbefore⟩ := h
  refine ⟨attempt :: before, after, rfl, ?_, ?_⟩
  · rw [List.length_cons, hlength]
  · exact List.forall_mem_cons.mpr ⟨hfails, hbefore⟩

/-- One more timeout before the attempts. -/
theorem Ending.Describes.timedOut_cons {onlyTimeouts : Bool} {attempts : List Attempt} {ending : Ending}
    (h : ending.Describes onlyTimeouts attempts) :
    ending.later.Describes onlyTimeouts (.timedOut :: attempts) := by
  cases ending with
  | connected index => exact exists_split_cons (.inl rfl) h
  | rewritten index => exact exists_split_cons (.inl rfl) h
  | timedOut => exact ⟨h.1, List.forall_mem_cons.mpr ⟨rfl, h.2⟩⟩
  | failed =>
      exact ⟨List.forall_mem_cons.mpr ⟨.inl rfl, h.1⟩, h.2.imp_right (List.mem_cons_of_mem _)⟩

/-- One more failure of another kind before the attempts. -/
theorem Ending.Describes.failed_cons {attempts : List Attempt} {ending : Ending}
    (h : ending.Describes false attempts) (onlyTimeouts : Bool) :
    ending.later.Describes onlyTimeouts (.failed :: attempts) := by
  cases ending with
  | connected index => exact exists_split_cons (.inr rfl) h
  | rewritten index => exact exists_split_cons (.inr rfl) h
  | timedOut => exact absurd h.1 Bool.false_ne_true
  | failed => exact ⟨List.forall_mem_cons.mpr ⟨.inr rfl, h.1⟩, .inr List.mem_cons_self⟩

/-- **How failing over ends** is by the first attempt that connects, wherever to; when none does, by
whether all of them timed out. -/
theorem failover_describes (onlyTimeouts : Bool) (attempts : List Attempt) :
    (failover onlyTimeouts attempts).Describes onlyTimeouts attempts := by
  induction attempts generalizing onlyTimeouts with
  | nil => cases onlyTimeouts <;> simp [failover, Ending.Describes]
  | cons attempt attempts ih =>
      cases attempt with
      | connected => exact ⟨[], attempts, rfl, rfl, List.forall_mem_nil _⟩
      | rewritten => exact ⟨[], attempts, rfl, rfl, List.forall_mem_nil _⟩
      | timedOut => exact (ih onlyTimeouts).timedOut_cons
      | failed => exact (ih false).failed_cons onlyTimeouts

/-! ## What an attempt meets outside -/

/-- How dialling ends in such an attempt. -/
def Attempt.Dials : Attempt → Except Exc Unit → Prop
  | .connected, result | .rewritten, result => result = .ok ()
  | .timedOut, result => ∃ e, result = .error e ∧ e.isTimeoutError = true
  | .failed, result => ∃ e, result = .error e ∧ e.isOSError = true ∧ e.isTimeoutError = false

/-- The socket address such an attempt finds at the other end. -/
def Attempt.Meets (U : Unicode) (ip : IPAddress) : Attempt → SockAddr → Prop
  | .connected, sockaddr => sockaddrIp U sockaddr = .ok ip
  | .rewritten, sockaddr => ∃ peer, sockaddrIp U sockaddr = .ok peer ∧ peer ≠ ip
  | .timedOut, _ | .failed, _ => True

/-- The observer raised this exception, which is outside `Exception`. -/
def Interrupts (observer : Option (Observer σ)) (e : Exc) : Prop :=
  e.isException = false ∧
    ∃ callback decision env, observer = some callback ∧ ((callback decision).exec env).1 = .error e

/-- How the code that makes such an attempt ends: with this value, or by raising. An observer it reports
to may cut it short. -/
def Attempt.Ends {α : Type} (observer : Option (Observer σ)) (value : α) : Attempt → Except Exc α → Prop
  | .connected, result => result = .ok value ∨ ∃ e, result = .error e ∧ Interrupts observer e
  | .rewritten, result => ∃ e, result = .error e ∧
      ((∃ peer reason, e = .blockedAddressError peer reason) ∨ Interrupts observer e)
  | .timedOut, result => ∃ e, result = .error e ∧ e.isTimeoutError = true
  | .failed, result => ∃ e, result = .error e ∧ e.isOSError = true ∧ e.isTimeoutError = false

theorem Exc.isOSError_of_isTimeoutError {e : Exc} (h : e.isTimeoutError = true) : e.isOSError = true := by
  cases e with
  | timeoutError message => rfl
  | _ => cases h

theorem Interrupts.not_isOSError {observer : Option (Observer σ)} {e : Exc} (h : Interrupts observer e) :
    e.isOSError = false := by
  by_contra hos
  rw [Bool.not_eq_false] at hos
  exact absurd (Exc.isException_of_isOSError hos) (by rw [h.1]; decide)

/-- A raise while dialling is how the attempt ends. -/
theorem Attempt.Dials.ends {α : Type} {attempt : Attempt} {observer : Option (Observer σ)} {value : α}
    {e : Exc} (h : attempt.Dials (.error e)) : attempt.Ends observer value (.error e) := by
  cases attempt with
  | connected => cases h
  | rewritten => cases h
  | timedOut =>
      obtain ⟨_, he, htimeout⟩ := h
      cases he
      exact ⟨e, rfl, htimeout⟩
  | failed =>
      obtain ⟨_, he, hos, htimeout⟩ := h
      cases he
      exact ⟨e, rfl, hos, htimeout⟩

theorem Attempt.Dials.fails {attempt : Attempt} {e : Exc} (h : attempt.Dials (.error e)) :
    attempt.Fails := by
  cases attempt with
  | connected => cases h
  | rewritten => cases h
  | timedOut => exact .inl rfl
  | failed => exact .inr rfl

theorem Attempt.Dials.not_fails {attempt : Attempt} (h : attempt.Dials (.ok ())) : ¬ attempt.Fails := by
  rintro (rfl | rfl)
  · obtain ⟨_, he, -⟩ := h
    cases he
  · obtain ⟨_, he, -⟩ := h
    cases he

/-- What is computed from the value does not change how the attempt ends. -/
theorem Attempt.Ends.map {α β : Type} {attempt : Attempt} {observer : Option (Observer σ)} {value : α}
    {result : Except Exc α} (f : α → β) (h : attempt.Ends observer value result) :
    attempt.Ends observer (f value) (result.map f) := by
  cases attempt with
  | connected =>
      rcases h with rfl | ⟨e, rfl, he⟩
      · exact .inl rfl
      · exact .inr ⟨e, rfl, he⟩
  | rewritten => obtain ⟨e, rfl, he⟩ := h; exact ⟨e, rfl, he⟩
  | timedOut => obtain ⟨e, rfl, he⟩ := h; exact ⟨e, rfl, he⟩
  | failed => obtain ⟨e, rfl, he⟩ := h; exact ⟨e, rfl, he⟩

/-! ## The comparison of the peer -/

theorem interrupts_of_report {observer : Option (Observer σ)} {decision : Decision} {w w' : World σ}
    {e : Exc} (h : (report (outside observer) decision).exec w = (.error e, w')) :
    Interrupts observer e := by
  obtain ⟨lifted, hlifted, hraise, hexception⟩ := exec_report_error h
  obtain ⟨callback, hcallback, rfl⟩ := Option.map_eq_some_iff.mp hlifted
  exact ⟨hexception, callback, decision, w.env, hcallback, congrArg Prod.fst hraise⟩

/-- Reporting the peer returns, or the observer cuts it short. -/
theorem exec_reportPeer {address : Address} {port : ℤ} (hport : address.port U = .ok port)
    (observer : Option (Observer σ)) (peer : IPAddress) (refusal : Option Str) (w : World σ) :
    Attempt.connected.Ends observer () ((reportPeer U address observer peer refusal).exec w).1 := by
  cases observer with
  | none => exact .inl rfl
  | some callback =>
      rw [reportPeer, hport, Prog.exec_bind, Prog.exec_ofExcept]
      dsimp only
      cases hreport : (report (outside (some callback)) _).exec w with
      | mk result w' =>
          cases result with
          | ok u => exact .inl rfl
          | error e => exact .inr ⟨e, rfl, interrupts_of_report hreport⟩

/-- The comparison of a peer with the address, whatever it reports through. -/
theorem ends_comparison {ω : Type} {observer : Option (Observer σ)} {attempt : Attempt} {address : Address}
    {sockaddr : SockAddr} {reporting : IPAddress → Option Str → Prog ω Exc Unit}
    (hreporting : ∀ peer refusal w,
      Attempt.connected.Ends observer () ((reporting peer refusal).exec w).1)
    (hfails : ¬ attempt.Fails) (hmeets : attempt.Meets U address.ip sockaddr) (w : ω) :
    attempt.Ends observer () ((do
      let peer ← Prog.ofExcept (sockaddrIp U sockaddr)
      if peer ≠ address.ip then do
        reporting peer (some (peerReason peer address))
        throw (.blockedAddressError peer.str (peerReason peer address))
      else reporting peer none : Prog ω Exc Unit).exec w).1 := by
  rw [Prog.exec_bind, Prog.exec_ofExcept]
  cases attempt with
  | connected =>
      rw [show sockaddrIp U sockaddr = .ok address.ip from hmeets]
      dsimp only
      rw [if_neg (not_not.mpr rfl)]
      exact hreporting _ _ _
  | rewritten =>
      obtain ⟨peer, hpeer, hne⟩ := hmeets
      rw [hpeer]
      dsimp only
      rw [if_pos hne, Prog.exec_bind]
      have hreport := hreporting peer (some (peerReason peer address)) w
      cases hexec : (reporting peer (some (peerReason peer address))).exec w with
      | mk result w' =>
          rw [hexec] at hreport
          rcases hreport with rfl | ⟨e, rfl, he⟩
          · exact ⟨_, rfl, .inl ⟨_, _, rfl⟩⟩
          · exact ⟨e, rfl, .inr he⟩
  | timedOut => exact absurd (.inl rfl) hfails
  | failed => exact absurd (.inr rfl) hfails

/-! ## Out of a backend -/

/-- What is said about each attempt of a script, numbered from one attempt later, when its first is made. -/
theorem plays_tail {P : ℕ → Address → Attempt → Prop} {start : ℕ} {entry : Address × Attempt}
    {script : List (Address × Attempt)}
    (h : ∀ i address attempt, (entry :: script)[i]? = some (address, attempt) →
      P (start + i) address attempt) :
    ∀ i address attempt, script[i]? = some (address, attempt) → P (start + 1 + i) address attempt := by
  intro i address attempt hentry
  rw [Nat.add_right_comm]
  exact h (i + 1) address attempt hentry

/-- How a failover that ends so comes out of a backend, whose attempts are numbered from here. -/
def Ending.Comes (observer : Option (Observer σ)) (start : ℕ) : Ending → Except BackendExc ℕ → Prop
  | .connected index, result => result = .ok (start + index) ∨
      ∃ e, result = .error (.untranslated e) ∧ Interrupts observer e
  | .rewritten _, result => ∃ e, result = .error (.untranslated e) ∧
      ((∃ peer reason, e = .blockedAddressError peer reason) ∨ Interrupts observer e)
  | .timedOut, result => ∃ message, result = .error (.connectTimeout message)
  | .failed, result => ∃ message, result = .error (.connectError message)

/-- An ending one attempt later, counted from one attempt earlier. -/
theorem Ending.Comes.later {observer : Option (Observer σ)} {start : ℕ} {ending : Ending}
    {result : Except BackendExc ℕ} (h : ending.Comes observer (start + 1) result) :
    ending.later.Comes observer start result := by
  cases ending with
  | connected index =>
      refine h.imp_left fun hresult => ?_
      rw [hresult]
      exact congrArg Except.ok (by omega)
  | rewritten index => exact h
  | timedOut => exact h
  | failed => exact h

/-- The ending accounts for a run over these addresses: for how it came out, and for what it wrote down,
one stretch for each attempt. -/
def Ending.Accounts {τ : Type} (observer : Option (Observer σ)) (P : Address → List τ → Prop) (start : ℕ)
    (addresses : List Address) (ending : Ending) (result : Except BackendExc ℕ) (added : List τ) : Prop :=
  ending.Comes observer start result ∧ InTurn P (addresses.take (ending.attempts addresses.length)) added

/-- A first attempt that failed, and the run after it. -/
theorem Ending.Accounts.cons {τ : Type} {observer : Option (Observer σ)} {P : Address → List τ → Prop}
    {start : ℕ} {address : Address} {addresses : List Address} {ending : Ending}
    {result : Except BackendExc ℕ} {first second : List τ} (hfirst : P address first)
    (h : ending.Accounts observer P (start + 1) addresses result second) :
    ending.later.Accounts observer P start (address :: addresses) result (first ++ second) := by
  refine ⟨h.1.later, ?_⟩
  rw [List.length_cons, Ending.attempts_later, List.take_succ_cons]
  exact h.2.cons hfirst

section

variable {attempt : Attempt} {attempts : List Attempt} {observer : Option (Observer σ)} {start : ℕ}
  {result : Except Exc ℕ}

/-- What a failed attempt raised goes on to the next address. -/
theorem Attempt.Ends.failed (h : attempt.Ends observer start result) (hfails : attempt.Fails)
    (onlyTimeouts : Bool) (attempts : List Attempt) :
    ∃ e, result = .error e ∧ e.isOSError = true ∧
      failover onlyTimeouts (attempt :: attempts) =
        (failover (onlyTimeouts && e.isTimeoutError) attempts).later := by
  rcases hfails with rfl | rfl
  · obtain ⟨e, rfl, htimeout⟩ := h
    refine ⟨e, rfl, Exc.isOSError_of_isTimeoutError htimeout, ?_⟩
    rw [htimeout, Bool.and_true]
    rfl
  · obtain ⟨e, rfl, hos, htimeout⟩ := h
    refine ⟨e, rfl, hos, ?_⟩
    rw [htimeout, Bool.and_false]
    rfl

/-- What another attempt raises ends the run. -/
theorem Attempt.Ends.not_isOSError (h : attempt.Ends observer start result) (hfails : ¬ attempt.Fails)
    {e : Exc} (he : result = .error e) : e.isOSError = false := by
  cases attempt with
  | connected =>
      obtain rfl | ⟨_, rfl, hinterrupts⟩ := h
      · cases he
      · cases he
        exact hinterrupts.not_isOSError
  | rewritten =>
      obtain ⟨_, rfl, ⟨peer, reason, rfl⟩ | hinterrupts⟩ := h
      · cases he
        rfl
      · cases he
        exact hinterrupts.not_isOSError
  | timedOut => exact absurd (.inl rfl) hfails
  | failed => exact absurd (.inr rfl) hfails

/-- The last attempt of a run, when it does not fail. -/
theorem Attempt.Ends.accounts {τ : Type} {P : Address → List τ → Prop} {address : Address}
    {addresses : List Address} {added : List τ} {f : Exc → BackendExc}
    (h : attempt.Ends observer start result) (hfails : ¬ attempt.Fails) (onlyTimeouts : Bool)
    (hf : ∀ e, e.isOSError = false → f e = .untranslated e) (hadded : P address added) :
    (failover onlyTimeouts (attempt :: attempts)).Accounts observer P start (address :: addresses)
      (result.mapError f) added := by
  have huntranslated {e : Exc} (he : result = .error e) : result.mapError f = .error (.untranslated e) := by
    rw [he, Except.mapError, hf e (h.not_isOSError hfails he)]
  cases attempt with
  | connected =>
      refine ⟨?_, InTurn.singleton hadded⟩
      obtain rfl | ⟨e, he, hinterrupts⟩ := h
      · exact .inl rfl
      · exact .inr ⟨e, huntranslated he, hinterrupts⟩
  | rewritten =>
      obtain ⟨e, he, hwhy⟩ := h
      exact ⟨⟨e, huntranslated he, hwhy⟩, InTurn.singleton hadded⟩
  | timedOut => exact absurd (.inl rfl) hfails
  | failed => exact absurd (.inr rfl) hfails

end

end SsrfGuard
