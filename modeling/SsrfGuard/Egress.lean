import SsrfGuard.Library.Monitor
import SsrfGuard.Httpx.OriginParity
import SsrfGuard.Httpx.Resolution
import SsrfGuard.Requests.Seam

/-! # What leaves the process

The calls a seam makes of the resolver and the kernel follow a protocol: a lookup of a host and a port the policy
admits, then one socket at a time for the addresses that may be dialled, in their order, each configured, connected
to its own socket address and asked for its peer, and closed when anything goes wrong. The protocol is a monitor
over the calls, and both blocking seams obey it for every resolver, kernel and observer. -/

namespace SsrfGuard

variable {σ : Type} (U : Unicode) (p : Policy)

/-! ## The protocol -/

/-- The addresses that may be dialled after a lookup, in the order they are. -/
def Policy.dialled (host : Str) (infos : List ResolverAnswer) : List Address :=
  match addressesFrom U host [] infos with
  | .error _ => []
  | .ok answers =>
    if p.denied answers ≠ [] ∧ p.onPartialBlock = text "reject" then []
    else (p.permitted answers).take p.maxConnectionAttempts.toNat

/-- What is left to dial after a lookup. -/
def Policy.queueAfter (host : Str) : Except Exc (List ResolverAnswer) → List Address
  | .ok infos => p.dialled U host infos
  | .error _ => []

/-- Where a run stands between two calls. The queue is what is left to dial. -/
inductive Phase
  /-- No socket is in hand. -/
  | dialling (queue : List Address)
  /-- A socket was opened for an address. -/
  | configuring (sock : SockId) (address : Address) (queue : List Address)
  /-- It was connected. -/
  | connected (sock : SockId) (address : Address) (queue : List Address)
  /-- Its peer is the address. -/
  | verified (sock : SockId) (queue : List Address)
  /-- Its peer is not. -/
  | refused (sock : SockId) (queue : List Address)
  /-- A call on it has failed. -/
  | failed (sock : SockId) (queue : List Address)
  deriving DecidableEq

namespace Phase

/-- No socket is left in the middle: there is none, or the last one was handed over. -/
def settled : Phase → Bool
  | dialling _ => true
  | verified _ _ => true
  | _ => false

/-- A lookup replaces the queue. -/
def lookUp (phase : Phase) (host : Str) (port : ℤ) (result : Except Exc (List ResolverAnswer)) : Option Phase :=
  if phase.settled ∧ checkOrigin U p host port = .ok () then some (dialling (p.queueAfter U host result)) else none

/-- A socket is opened for the first address of the queue. -/
def openFor (sock : SockId) (family : ℤ) (result : Except Exc Unit) : Phase → Option Phase
  | dialling (address :: queue) =>
    if family = address.family then
      some (if result = .ok () then configuring sock address queue else dialling queue)
    else none
  | _ => none

/-- The socket in hand is configured. -/
def shape (sock : SockId) (result : Except Exc Unit) : Phase → Option Phase
  | configuring s address queue =>
    if s = sock then some (if result = .ok () then configuring s address queue else failed s queue) else none
  | _ => none

/-- It is connected to the socket address the lookup has brought. -/
def dial (sock : SockId) (sockaddr : SockAddr) (result : Except Exc Unit) : Phase → Option Phase
  | configuring s address queue =>
    if s = sock ∧ sockaddr = address.sockaddr then
      some (if result = .ok () then connected s address queue else failed s queue)
    else none
  | _ => none

/-- It is asked for its peer. -/
def identify (sock : SockId) (result : Except Exc SockAddr) : Phase → Option Phase
  | connected s address queue =>
    if s = sock then
      match result with
      | .ok sockaddr => some (if sockaddrIp U sockaddr = .ok address.ip then verified s queue else refused s queue)
      | .error _ => some (failed s queue)
    else none
  | _ => none

/-- It is closed. A peer that was refused ends the dialling, unless closing its socket fails instead. -/
def shut (sock : SockId) (result : Except Exc Unit) : Phase → Option Phase
  | failed s queue => if s = sock then some (dialling queue) else none
  | refused s queue => if s = sock then some (dialling (if result = .ok () then [] else queue)) else none
  | verified s queue => if s = sock then some (dialling (if result = .ok () then [] else queue)) else none
  | _ => none

/-- One call. -/
def step (phase : Phase) : Action → Option Phase
  | .lookup host port _ result => lookUp U p phase host port result
  | .socket sock family result => openFor sock family result phase
  | .setsockopt sock _ result => shape sock result phase
  | .settimeout sock _ result => shape sock result phase
  | .bind sock _ result => shape sock result phase
  | .connect sock sockaddr result => dial sock sockaddr result phase
  | .getpeername sock result => identify U sock result phase
  | .close sock result => shut sock result phase

/-- The addresses that may still be dialled, the one in hand first. -/
def addresses : Phase → List Address
  | dialling queue => queue
  | configuring _ address queue => address :: queue
  | connected _ address queue => address :: queue
  | verified _ queue => queue
  | refused _ queue => queue
  | failed _ queue => queue

end Phase

/-- The monitor of the protocol. -/
def egress : Monitor Phase Action where
  step := Phase.step U p

variable {U p}

/-! ## One socket -/

/-- From the states in `P` the protocol accepts the calls of a program. -/
abbrev Follows {ε α : Type} (U : Unicode) (p : Policy) (P : Phase → Prop) (x : Prog (World σ) ε α)
    (Q : α → Phase → Prop) (E : ε → Phase → Prop) : Prop :=
  Prog.Obeys World.trace (egress U p) P x Q E

/-- The trace is a log. -/
theorem Traces.adds {α : Type} {x : Prog (World σ) Exc α} {Q : Except Exc α → List Action → Prop}
    (h : Traces x Q) : Prog.Adds World.trace x Q := h

/-- One call to the outside. -/
theorem follows_outside {α : Type} {operation : Prog σ Exc α} {action : Except Exc α → Action}
    {P : Phase → Prop} {Q : α → Phase → Prop} {E : Exc → Phase → Prop}
    (hok : ∀ a s, P s → ∃ s', Phase.step U p s (action (.ok a)) = some s' ∧ Q a s')
    (herror : ∀ e s, P s → ∃ s', Phase.step U p s (action (.error e)) = some s' ∧ E e s') :
    Follows U p P (perform operation action) Q E :=
  Prog.Obeys.entry (fun _ => ⟨_, rfl, rfl⟩) hok herror

variable {sock : SockId} {address : Address} {queue : List Address}

/-- A socket stays in hand while it is configured. -/
theorem follows_shaping (kernel : Kernel σ) (sock : SockId) (options : ConnectOptions) :
    Follows U p (· = .configuring sock address queue) (configure kernel sock options)
      (fun _ => (· = .configuring sock address queue)) (fun _ => (· = .failed sock queue)) := by
  have hshape : ∀ {operation : Prog σ Exc Unit} {action : Except Exc Unit → Action},
      (∀ phase result, Phase.step U p phase (action result) = Phase.shape sock result phase) →
      Follows U p (· = .configuring sock address queue) (perform operation action)
        (fun _ => (· = .configuring sock address queue)) (fun _ => (· = .failed sock queue)) := by
    intro operation action haction
    refine follows_outside ?_ ?_
    · rintro ⟨⟩ _ rfl
      exact ⟨_, by rw [haction, Phase.shape, if_pos rfl, if_pos rfl], rfl⟩
    · rintro e _ rfl
      exact ⟨_, by rw [haction, Phase.shape, if_pos rfl, if_neg Except.error_ne_ok], rfl⟩
  refine (Prog.Obeys.forM (fun option => hshape fun _ _ => rfl) _).bind fun _ => ?_
  refine (Prog.Obeys.optionForM (fun timeout => hshape fun _ _ => rfl) _).bind fun _ => ?_
  exact Prog.Obeys.optionForM (fun source => hshape fun _ _ => rfl) _

/-- Not an `OSError`: it ends the loop over the addresses. -/
def Ends (e : Exc) : Prop := e.isOSError = false

theorem raisesOnly_sockaddrIp (sockaddr : SockAddr) : (sockaddrIp U sockaddr).RaisesOnly Ends := by
  cases sockaddr with
  | nil => exact .error rfl
  | cons item rest =>
      rw [sockaddrIp, ipAddress]
      split
      · exact .ok _
      · exact .error rfl

theorem Address.raisesOnly_port (address : Address) : (address.port U).RaisesOnly Ends := by
  unfold Address.port
  split
  · exact .ok _
  · split
    · exact .ok _
    · exact .error rfl
  · exact .error rfl

/-- What gets out of a report ends the loop. -/
theorem ends_of_report {ω : Type} {observer : Option (Observer ω)} {decision : Decision} {w w' : ω} {e : Exc}
    (h : (report observer decision).exec w = (.error e, w')) : Ends e := by
  obtain ⟨-, -, -, hexception⟩ := exec_report_error h
  cases hos : e.isOSError with
  | false => exact hos
  | true =>
      rw [Exc.isException_of_isOSError hos] at hexception
      cases hexception

/-- A report calls nothing. -/
theorem follows_report {P : Phase → Prop} (observer : Option (Observer σ)) (decision : Decision) :
    Follows U p P (report (outside observer) decision) (fun _ => P) fun e s => Ends e ∧ P s := by
  intro s hs w
  obtain ⟨added, htrace, hadded⟩ :=
    Traces.report observer decision (Q := fun _ added => added = []) (fun _ => rfl) w
  refine ⟨added, htrace, s, ?_⟩
  rw [hadded]
  refine ⟨rfl, ?_⟩
  cases hreport : (report (outside observer) decision).exec w with
  | mk result w' =>
      cases result with
      | ok u => exact hs
      | error e => exact ⟨ends_of_report hreport, hs⟩

theorem follows_reportPeer {P : Phase → Prop} (address : Address) (observer : Option (Observer σ))
    (peer : IPAddress) (refusal : Option Str) :
    Follows U p P (reportPeer U address observer peer refusal) (fun _ => P) fun e s => Ends e ∧ P s := by
  cases observer with
  | none => exact Prog.Obeys.pure fun _ => id
  | some callback =>
      refine Prog.Obeys.bind_ofExcept (fun port _ => follows_report _ _) fun e s hport hs => ?_
      exact ⟨address.raisesOnly_port e hport, hs⟩

/-- What a check on a connected socket leaves behind when it raises: a call on the socket that failed, or the end
of the loop. -/
def AfterDial (sock : SockId) (queue : List Address) (e : Exc) (s : Phase) : Prop :=
  s = .failed sock queue ∨ Ends e ∧ (s = .refused sock queue ∨ s = .verified sock queue)

/-- A socket that passes the check of its peer is verified. -/
theorem follows_verifyPeer (kernel : Kernel σ) (sock : SockId) (address : Address)
    (observer : Option (Observer σ)) :
    Follows U p (· = .connected sock address queue) (verifyPeer U kernel sock address observer)
      (fun _ => (· = .verified sock queue)) (AfterDial sock queue) := by
  have hidentified : Follows U p (· = .connected sock address queue)
      (perform (kernel.getpeername sock) (.getpeername sock))
      (fun sockaddr s => s = if sockaddrIp U sockaddr = .ok address.ip then .verified sock queue
        else .refused sock queue) (AfterDial sock queue) := by
    refine follows_outside ?_ ?_
    · rintro sockaddr _ rfl
      exact ⟨_, if_pos rfl, rfl⟩
    · rintro e _ rfl
      exact ⟨_, if_pos rfl, .inl rfl⟩
  refine hidentified.bind fun sockaddr => ?_
  refine Prog.Obeys.bind_ofExcept (fun peer hpeer => ?_) fun e s hraised hs => ?_
  · rw [hpeer]
    refine .ite (fun hother => ?_) fun hsame => ?_
    · -- another peer, so the monitor has refused it
      have hrefused : ¬ (.ok peer : Except Exc IPAddress) = .ok address.ip := fun h => hother (Except.ok.inj h)
      rw [if_neg hrefused]
      refine Prog.Obeys.bind ((follows_reportPeer address observer peer _).conseq (fun _ => id) (fun _ _ => id) ?_)
        fun _ => Prog.Obeys.throw ?_
      · rintro e s ⟨hends, hs⟩
        exact .inr ⟨hends, .inl hs⟩
      · rintro s hs
        exact .inr ⟨rfl, .inl hs⟩
    · rw [not_not.mp hsame, if_pos rfl]
      refine (follows_reportPeer address observer _ none).conseq (fun _ => id) (fun _ _ => id) ?_
      rintro e s ⟨hends, hs⟩
      exact .inr ⟨hends, .inr hs⟩
  · rw [hraised, if_neg Except.error_ne_ok] at hs
    exact .inr ⟨raisesOnly_sockaddrIp sockaddr e hraised, .inl hs⟩

/-- The body of the `try` of `_open`. -/
theorem follows_openBody (kernel : Kernel σ) (sock : SockId) (address : Address) (options : ConnectOptions)
    (observer : Option (Observer σ)) :
    Follows U p (· = .configuring sock address queue) (openBody U kernel sock address options observer)
      (fun _ => (· = .verified sock queue)) (AfterDial sock queue) := by
  refine Prog.Obeys.bind ((follows_shaping kernel sock options).conseq (fun _ => id) (fun _ _ => id)
    fun _ _ => .inl) fun _ => ?_
  have hdialled : Follows U p (· = .configuring sock address queue)
      (perform (kernel.connect sock address.sockaddr) (.connect sock address.sockaddr))
      (fun _ => (· = .connected sock address queue)) (AfterDial sock queue) := by
    refine follows_outside ?_ ?_
    · rintro ⟨⟩ _ rfl
      exact ⟨_, by rw [Phase.step, Phase.dial, if_pos ⟨rfl, rfl⟩, if_pos rfl], rfl⟩
    · rintro e _ rfl
      exact ⟨_, by rw [Phase.step, Phase.dial, if_pos ⟨rfl, rfl⟩, if_neg Except.error_ne_ok], .inl rfl⟩
  exact hdialled.bind fun _ => follows_verifyPeer kernel sock address observer

/-- Closing a socket after a raise: the address after it may follow only where the loop goes on. -/
theorem follows_close (kernel : Kernel σ) (sock : SockId) (e : Exc) :
    Follows U p (AfterDial sock queue e) (do
      perform (kernel.close sock) (.close sock)
      throw e : Prog (World σ) Exc Unit) (fun _ _ => False)
      fun e s => ∃ rest, s = .dialling rest ∧ (rest = queue ∨ Ends e ∧ rest = []) := by
  have hclosed : Follows U p (AfterDial sock queue e) (perform (kernel.close sock) (.close sock))
      (fun _ s => ∃ rest, s = .dialling rest ∧ (rest = queue ∨ Ends e ∧ rest = []))
      fun _ s => ∃ rest, s = .dialling rest ∧ rest = queue := by
    refine follows_outside ?_ ?_
    · rintro ⟨⟩ s (rfl | ⟨hends, rfl | rfl⟩)
      · exact ⟨_, if_pos rfl, _, rfl, .inl rfl⟩
      · exact ⟨_, if_pos rfl, _, rfl, .inr ⟨hends, if_pos rfl⟩⟩
      · exact ⟨_, if_pos rfl, _, rfl, .inr ⟨hends, if_pos rfl⟩⟩
    · rintro e' s (rfl | ⟨-, rfl | rfl⟩)
      · exact ⟨_, if_pos rfl, _, rfl, rfl⟩
      · exact ⟨_, if_pos rfl, _, rfl, if_neg Except.error_ne_ok⟩
      · exact ⟨_, if_pos rfl, _, rfl, if_neg Except.error_ne_ok⟩
  refine Prog.Obeys.bind (hclosed.conseq (fun _ => id) (fun _ _ => id) ?_) fun _ => Prog.Obeys.throw fun _ => id
  rintro e' s ⟨rest, hs, hrest⟩
  exact ⟨rest, hs, .inl hrest⟩

theorem follows_newSocket {P : Phase → Prop} {E : Exc → Phase → Prop} :
    Follows U p P (newSocket : Prog (World σ) Exc SockId) (fun _ => P) E :=
  fun s hs _ => ⟨[], (List.append_nil _).symm, s, rfl, hs⟩

/-- What a raise of one attempt leaves in the queue: the addresses after it, or none where the loop ends. -/
def AfterAttempt (queue : List Address) (e : Exc) (s : Phase) : Prop :=
  ∃ rest, s = .dialling rest ∧ (rest = queue ∨ Ends e ∧ rest = [])

/-- `_open` uses up the first address: the socket it returns is verified. -/
theorem follows_openSocket (kernel : Kernel σ) (address : Address) (options : ConnectOptions)
    (observer : Option (Observer σ)) :
    Follows U p (· = .dialling (address :: queue)) (openSocket U kernel address options observer)
      (fun sock => (· = .verified sock queue)) (AfterAttempt queue) := by
  refine follows_newSocket.bind fun sock => ?_
  have hopened : Follows U p (· = .dialling (address :: queue))
      (perform (kernel.socket sock address.family sockStream) (.socket sock address.family))
      (fun _ => (· = .configuring sock address queue)) (AfterAttempt queue) := by
    refine follows_outside ?_ ?_
    · rintro ⟨⟩ _ rfl
      exact ⟨_, by rw [Phase.step, Phase.openFor, if_pos rfl, if_pos rfl], rfl⟩
    · rintro e _ rfl
      exact ⟨_, by rw [Phase.step, Phase.openFor, if_pos rfl, if_neg Except.error_ne_ok], _, rfl, .inl rfl⟩
  refine hopened.bind fun _ => Prog.Obeys.bind ?_ fun _ => Prog.Obeys.pure fun _ => id
  refine (follows_openBody kernel sock address options observer).tryCatch fun e => ?_
  exact (follows_close kernel sock e).conseq (fun _ => id) (fun _ _ => False.elim) fun _ _ => id

/-! ## Failover -/

/-- The loop takes the addresses in their order. -/
theorem follows_attemptFrom (kernel : Kernel σ) (options : ConnectOptions) (observer : Option (Observer σ))
    (message : List Str → Str) (attempted : List Address) (failures : List Str) (onlyTimeouts : Bool) :
    Follows U p (· = .dialling attempted)
      (attemptFrom U kernel options observer message attempted failures onlyTimeouts)
      (fun sock s => ∃ rest, s = .verified sock rest) fun _ s => ∃ rest, s = .dialling rest := by
  induction attempted generalizing failures onlyTimeouts with
  | nil => exact Prog.Obeys.throw fun _ hs => ⟨_, hs⟩
  | cons address attempted ih =>
      rw [attemptFrom]
      refine Prog.Obeys.tryCatch ((follows_openSocket kernel address options observer).conseq (fun _ => id)
        (fun _ _ hs => ⟨_, hs⟩) fun _ _ => id) fun e => ?_
      refine .ite (fun hos => ?_) fun _ => Prog.Obeys.throw fun s hs => ?_
      · -- only an `OSError` goes on, and it leaves the rest of the queue
        have hrest : ∀ s, AfterAttempt attempted e s → s = .dialling attempted := by
          rintro s ⟨rest, rfl, rfl | ⟨hends, -⟩⟩
          · rfl
          · rw [Ends, hos] at hends
            cases hends
        refine Prog.Obeys.bind_ofExcept (fun shown _ => (ih _ _).conseq hrest (fun _ _ => id) fun _ _ => id) ?_
        exact fun _ s _ hs => ⟨_, hrest s hs⟩
      · obtain ⟨rest, hs, -⟩ := hs
        exact ⟨rest, hs⟩

/-- `connect` dials the addresses it is given, as many as the policy allows. -/
theorem follows_connect (kernel : Kernel σ) (addresses : List Address) (options : ConnectOptions)
    (observer : Option (Observer σ)) :
    Follows U p (· = .dialling (addresses.take p.maxConnectionAttempts.toNat))
      (connect U p kernel addresses options observer)
      (fun sock s => ∃ rest, s = .verified sock rest) fun _ s => ∃ rest, s = .dialling rest := by
  refine .ite (fun _ => Prog.Obeys.throw fun _ hs => ⟨_, hs⟩) fun _ => ?_
  refine Prog.Obeys.bind_ofExcept (fun _ _ => ?_) fun _ _ _ hs => ⟨_, hs⟩
  exact follows_attemptFrom kernel options observer _ _ _ _

/-! ## Resolution -/

/-- Sorting the answers calls nothing, and gives the permitted and the denied ones. -/
theorem adds_checkAnswers (p : Policy) (target : Target) (observer : Option (Observer σ))
    (answers : List Address) :
    Prog.Adds World.trace (checkAnswers p target (outside observer) answers) fun result added => added = [] ∧
      ∀ sorted, result = .ok sorted → sorted = (p.permitted answers, p.denied answers) := by
  have hreport : ∀ decision, Prog.Adds World.trace (report (outside observer) decision) fun _ added =>
      added = [] := fun decision =>
    (Traces.report observer decision (Q := fun _ added => added = []) fun _ => rfl).adds
  have herror : ∀ (e : Exc) (sorted : List Address × List Denial), .error e = Except.ok sorted →
      sorted = (p.permitted answers, p.denied answers) := fun _ _ h => absurd h Except.error_ne_ok
  induction answers with
  | nil =>
      refine Prog.Adds.pure ⟨rfl, fun sorted h => ?_⟩
      cases h
      rfl
  | cons answer answers ih =>
      rw [checkAnswers]
      cases hcheck : p.checkAddress answer.ip with
      | ok u =>
          have hpermits : p.Permits answer.ip := hcheck
          refine Prog.Adds.bind_silent (hreport _) (fun _ => ?_) fun e => ⟨rfl, herror e⟩
          refine (ih fun _ _ h => absurd h Except.error_ne_ok).bind ?_ fun e first hfirst => ⟨hfirst.1, herror e⟩
          rintro ⟨permitted, denied⟩ first ⟨rfl, hrest⟩
          refine Prog.Adds.pure ⟨rfl, fun sorted h => ?_⟩
          cases h
          cases hrest _ rfl
          rw [Policy.permitted_cons_of_permits hpermits, Policy.denied_cons_of_permits hpermits]
      | error e =>
          have hnot := Policy.not_permits_of_checkAddress hcheck
          obtain rfl := Policy.checkAddress_eq_error hcheck
          refine Prog.Adds.bind_silent (hreport _) (fun _ => ?_) fun e => ⟨rfl, herror e⟩
          refine (ih fun _ _ h => absurd h Except.error_ne_ok).bind ?_ fun e first hfirst => ⟨hfirst.1, herror e⟩
          rintro ⟨permitted, denied⟩ first ⟨rfl, hrest⟩
          refine Prog.Adds.pure ⟨rfl, fun sorted h => ?_⟩
          cases h
          cases hrest _ rfl
          rw [Policy.permitted_cons_of_not_permits hnot, Policy.denied_cons_of_not_permits hnot]
          rfl

/-- What `resolve` returns, cut to the attempts, is what may be dialled after its lookup. -/
theorem dialled_of_verdictOn {host : Str} {target : Target} {infos : List ResolverAnswer}
    {answers out : List Address} (hanswers : addressesFrom U host [] infos = .ok answers)
    (h : verdictOn p target (p.permitted answers) (p.denied answers) = .ok out) :
    p.dialled U host infos = out.take p.maxConnectionAttempts.toNat := by
  rw [Policy.dialled, hanswers]
  unfold verdictOn at h
  split_ifs at h with hnone hpartial
  cases h
  exact if_neg hpartial

/-- `resolve` makes the lookup of a target the policy admits. -/
theorem follows_resolve (target : Target) (resolver : Resolver σ) (observer : Option (Observer σ))
    (hadmits : checkOrigin U p target.host target.port = .ok ()) :
    Follows U p (·.settled = true) (resolve U p target resolver observer)
      (fun addresses => (· = .dialling (addresses.take p.maxConnectionAttempts.toNat)))
      fun _ s => ∃ rest, s = .dialling rest := by
  have hlookup : Follows U p (·.settled = true) (perform (lookupOf target resolver)
      (.lookup target.host target.port (if target.isLiteralAddress then aiNumerichost else 0)))
      (fun infos => (· = .dialling (p.dialled U target.host infos))) fun _ s => ∃ rest, s = .dialling rest := by
    refine follows_outside ?_ ?_
    · intro infos s hs
      exact ⟨_, if_pos ⟨hs, hadmits⟩, rfl⟩
    · intro e s hs
      exact ⟨_, if_pos ⟨hs, hadmits⟩, _, rfl⟩
  refine hlookup.bind fun infos => ?_
  refine Prog.Obeys.bind_ofExcept (fun answers hanswers => ?_) fun _ _ _ hs => ⟨_, hs⟩
  refine .ite (fun _ => Prog.Obeys.throw fun _ hs => ⟨_, hs⟩) fun _ => ?_
  intro s hs
  refine Prog.Adds.bind (adds_checkAnswers p target observer answers) ?_ ?_
  · rintro sorted first ⟨rfl, hsorted⟩
    obtain rfl := hsorted _ rfl
    refine Prog.Adds.ofExcept ⟨s, rfl, ?_⟩
    cases hverdict : verdictOn p target (p.permitted answers) (p.denied answers) with
    | ok out => exact hs.trans (congrArg _ (dialled_of_verdictOn hanswers hverdict))
    | error e => exact ⟨_, hs⟩
  · rintro e first ⟨rfl, -⟩
    exact ⟨s, rfl, _, hs⟩

/-! ## The seams -/

/-- Checking a URL calls nothing. -/
theorem follows_checkUrl {P : Phase → Prop} (url : Str) (observer : Option (Observer σ)) :
    Follows U p P (p.checkUrl U url (outside observer)) (fun t s => p.decide U url = .ok t ∧ P s)
      fun _ => P := by
  intro s hs w
  obtain ⟨added, htrace, rfl⟩ := traces_checkUrl (U := U) p url observer w
  refine ⟨[], htrace, s, rfl, ?_⟩
  cases hresult : ((p.checkUrl U url (outside observer)).exec w).1 with
  | ok t => exact ⟨Policy.decide_of_checkUrl hresult, hs⟩
  | error e => exact hs

/-- The origin of a URL `check_url` accepts passes the check of the backends. -/
theorem checkOrigin_of_decide {url : Str} {t : Target} (h : p.decide U url = .ok t) :
    checkOrigin U p t.host t.port = .ok () := by
  obtain ⟨split, -, -, -, hhost, hport, hlisted, -⟩ := Policy.decide_eq_ok h
  have hadmitted : p.checkHostOnly U t.host = .ok () := by
    rw [Policy.checkHostOnly, literalAddress_of_checkHost hhost]
    split
    · rfl
    · next hlists => exact Policy.checkHostIsListed_eq_ok.mpr (Policy.checkListed_eq_ok.mp hlisted hlists)
  have hallowed : ¬ t.port ∉ p.allowedPorts := not_not.mpr (Policy.mem_allowedPorts_of_checkPort hport)
  rw [checkOrigin, checkOriginPort, if_neg hallowed]
  exact hadmitted

/-- What a seam leaves behind: a verified socket when it returns, and none in hand when it raises. -/
theorem SafeBackend.follows_connectTcp (resolver : Resolver σ) (kernel : Kernel σ)
    (observer : Option (Observer σ)) (host : Str) (port : ℤ) (options : TcpOptions) :
    Follows U p (·.settled = true) (SafeBackend.connectTcp U p resolver kernel observer host port options)
      (fun sock s => ∃ rest, s = .verified sock rest) fun _ => (·.settled = true) := by
  rw [SafeBackend.connectTcp, Prog.mapError_ofExcept]
  refine Prog.Obeys.bind_ofExcept (fun _ hchecked => ?_) fun _ _ _ hs => hs
  have hadmits := Except.mapError_eq_ok.mp hchecked
  refine Prog.Obeys.mapError (E := fun _ s => ∃ rest, s = .dialling rest) ?_ ?_
  · exact (follows_resolve (originTarget U host port) resolver observer hadmits).bind fun addresses =>
      follows_connect kernel addresses _ observer
  · rintro e s ⟨rest, rfl⟩
    rfl

theorem follows_pinnedSocket (connection : HTTPConnection) (resolver : Resolver σ) (kernel : Kernel σ)
    (audit : Prog σ Exc Unit) (observer : Option (Observer σ)) :
    Follows U p (·.settled = true) (pinnedSocket U p connection resolver kernel audit observer)
      (fun sock s => ∃ rest, s = .verified sock rest) fun _ => (·.settled = true) := by
  refine .ite (fun _ => Prog.Obeys.throw fun _ => id) fun _ => ?_
  have hchecked := follows_checkUrl (U := U) (p := p) (P := (·.settled = true))
    (origin connection.scheme connection.dnsHost connection.port) observer
  refine Prog.Obeys.bind (hchecked.mapError fun _ _ => id) fun target => .assume fun hdecided => ?_
  have hopened : Follows U p (·.settled = true) (Prog.mapError (connection.translated U) do
      let addresses ← resolve U p target resolver observer
      connect U p kernel addresses connection.options observer)
      (fun sock s => ∃ rest, s = .verified sock rest) fun _ => (·.settled = true) := by
    refine Prog.Obeys.mapError (E := fun _ s => ∃ rest, s = .dialling rest) ?_ ?_
    · exact (follows_resolve target resolver observer (checkOrigin_of_decide hdecided)).bind fun addresses =>
        follows_connect kernel addresses _ observer
    · rintro e s ⟨rest, rfl⟩
      rfl
  refine hopened.bind fun sock => Prog.Obeys.bind (Q := fun _ s => ∃ rest, s = .verified sock rest) ?_ fun _ =>
    Prog.Obeys.pure fun _ => id
  -- a hook may raise, and the socket stays as it is
  refine Prog.Obeys.silent (fun w => ⟨[], (List.append_nil _).symm, rfl⟩) (fun _ _ => id) ?_
  rintro e s ⟨rest, rfl⟩
  rfl

/-! ## What the protocol says of a connection -/

/-- Every address the loop over the answers gives was read from a row. -/
theorem exists_key_of_addressesFrom {hostname : Str} {seen : List (ℤ × SockAddr)}
    {infos : List ResolverAnswer} {out : List Address} (h : addressesFrom U hostname seen infos = .ok out) :
    ∀ address ∈ out, sockaddrIp U address.sockaddr = .ok address.ip ∧ ∃ info ∈ infos, info.key = address.key := by
  induction infos generalizing seen out with
  | nil =>
      cases h
      exact List.forall_mem_nil _
  | cons info infos ih =>
      have hrest : ∀ {seen out}, addressesFrom U hostname seen infos = .ok out → ∀ address ∈ out,
          sockaddrIp U address.sockaddr = .ok address.ip ∧ ∃ row ∈ info :: infos, row.key = address.key := by
        intro seen out h address haddress
        obtain ⟨hip, row, hrow, hkey⟩ := ih h address haddress
        exact ⟨hip, row, List.mem_cons_of_mem _ hrow, hkey⟩
      rw [addressesFrom] at h
      split at h
      · exact hrest h
      · obtain ⟨first, hfirst, h⟩ := Except.bind_eq_ok.mp h
        obtain ⟨rest, hout, h⟩ := Except.bind_eq_ok.mp h
        cases h
        refine List.forall_mem_cons.mpr ⟨?_, hrest hout⟩
        obtain ⟨family, hfamily, hfirst⟩ := Except.bind_eq_ok.mp hfirst
        obtain ⟨ip, hip, hfirst⟩ := Except.bind_eq_ok.mp hfirst
        unfold addressFamily at hfamily
        split_ifs at hfamily
        cases hfamily
        cases hfirst
        exact ⟨hip, info, List.mem_cons_self, rfl⟩

/-- An address that may be dialled is permitted, is the one its socket address holds, and came in a row. -/
theorem mem_dialled {host : Str} {infos : List ResolverAnswer} {address : Address}
    (h : address ∈ p.dialled U host infos) :
    p.Permits address.ip ∧ sockaddrIp U address.sockaddr = .ok address.ip ∧
      ∃ info ∈ infos, info.key = address.key := by
  unfold Policy.dialled at h
  split at h
  · cases h
  · next answers hanswers =>
    split_ifs at h
    · cases h
    · obtain ⟨hmem, hpermits⟩ := List.mem_filter.mp (List.mem_of_mem_take h)
      exact ⟨of_decide_eq_true hpermits, exists_key_of_addressesFrom hanswers address hmem⟩

/-- The last lookup was of a host and a port the policy admits, and the address may be dialled after it. -/
def FromLookup (U : Unicode) (p : Policy) (read : List Action) (address : Address) : Prop :=
  ∃ earlier host port flags infos between, read = earlier ++ .lookup host port flags (.ok infos) :: between ∧
    NoLookup between ∧ checkOrigin U p host port = .ok () ∧ address ∈ p.dialled U host infos

theorem FromLookup.snoc {read : List Action} {action : Action} (h : FromLookup U p read address)
    (hquiet : action.isLookup = false) : FromLookup U p (read ++ [action]) address := by
  obtain ⟨earlier, host, port, flags, infos, between, rfl, hbetween, hadmits, hmem⟩ := h
  refine ⟨earlier, host, port, flags, infos, between ++ [action], ?_, ?_, hadmits, hmem⟩
  · rw [List.append_assoc, List.cons_append]
  · exact hbetween.append (noLookup_singleton hquiet)

namespace Phase

variable {phase next : Phase}

theorem addresses_of_openFor {family : ℤ} {result : Except Exc Unit}
    (h : openFor sock family result phase = some next) : ∀ a ∈ next.addresses, a ∈ phase.addresses := by
  unfold openFor at h
  split at h
  · split_ifs at h
    · cases h
      exact fun _ => id
    · cases h
      exact fun _ => List.mem_cons_of_mem _
  · cases h

theorem addresses_of_shape {result : Except Exc Unit} (h : shape sock result phase = some next) :
    ∀ a ∈ next.addresses, a ∈ phase.addresses := by
  unfold shape at h
  split at h
  · split_ifs at h
    · cases h
      exact fun _ => id
    · cases h
      exact fun _ => List.mem_cons_of_mem _
  · cases h

/-- A connection is made to an address in the queue, by its own socket address. -/
theorem addresses_of_dial {sockaddr : SockAddr} {result : Except Exc Unit}
    (h : dial sock sockaddr result phase = some next) :
    (∃ a ∈ phase.addresses, a.sockaddr = sockaddr) ∧ ∀ a ∈ next.addresses, a ∈ phase.addresses := by
  unfold dial at h
  split at h
  · split_ifs at h with hown hresult
    · cases h
      exact ⟨⟨_, List.mem_cons_self, hown.2.symm⟩, fun _ => id⟩
    · cases h
      exact ⟨⟨_, List.mem_cons_self, hown.2.symm⟩, fun _ => List.mem_cons_of_mem _⟩
  · cases h

theorem addresses_of_identify {result : Except Exc SockAddr} (h : identify U sock result phase = some next) :
    ∀ a ∈ next.addresses, a ∈ phase.addresses := by
  unfold identify at h
  split at h
  · split_ifs at h
    split at h
    · split_ifs at h
      · cases h
        exact fun _ => List.mem_cons_of_mem _
      · cases h
        exact fun _ => List.mem_cons_of_mem _
    · cases h
      exact fun _ => List.mem_cons_of_mem _
  · cases h

theorem addresses_of_shut {result : Except Exc Unit} (h : shut sock result phase = some next) :
    ∀ a ∈ next.addresses, a ∈ phase.addresses := by
  have hclosed : ∀ {queue : List Address}, ∀ a ∈ (if result = .ok () then [] else queue), a ∈ queue := by
    intro queue a ha
    split at ha
    · cases ha
    · exact ha
  unfold shut at h
  split at h
  · split_ifs at h
    cases h
    exact fun _ => id
  · rw [Option.ite_none_right_eq_some] at h
    cases h.2
    exact hclosed
  · rw [Option.ite_none_right_eq_some] at h
    cases h.2
    exact hclosed
  · cases h

/-- A lookup is of a host and a port the policy admits, and what may be dialled after it is new. -/
theorem lookUp_eq_some {host : Str} {port : ℤ} {result : Except Exc (List ResolverAnswer)}
    (h : lookUp U p phase host port result = some next) :
    checkOrigin U p host port = .ok () ∧ next = .dialling (p.queueAfter U host result) := by
  unfold lookUp at h
  split_ifs at h with hadmits
  cases h
  exact ⟨hadmits.2, rfl⟩

/-- Only a lookup adds to what may be dialled. -/
theorem addresses_of_step {action : Action} (h : step U p phase action = some next)
    (hquiet : action.isLookup = false) : ∀ a ∈ next.addresses, a ∈ phase.addresses := by
  cases action with
  | lookup => cases hquiet
  | socket sock family result => exact addresses_of_openFor h
  | setsockopt sock option result => exact addresses_of_shape h
  | settimeout sock timeout result => exact addresses_of_shape h
  | bind sock source result => exact addresses_of_shape h
  | connect sock sockaddr result => exact (addresses_of_dial h).2
  | getpeername sock result => exact addresses_of_identify h
  | close sock result => exact addresses_of_shut h

end Phase

/-- Wherever the monitor comes, what may be dialled rests on the last lookup. -/
theorem fromLookup_of_run {calls : List Action} {phase : Phase}
    (h : (egress U p).run (.dialling []) calls = some phase) :
    ∀ a ∈ phase.addresses, FromLookup U p calls a := by
  refine Monitor.invariant (I := fun read phase => ∀ a ∈ phase.addresses, FromLookup U p read a)
    (List.forall_mem_nil _) ?_ h
  intro read here action next hhere hstep a ha
  cases hlookup : action.isLookup with
  | false => exact (hhere a (Phase.addresses_of_step hstep hlookup a ha)).snoc hlookup
  | true =>
      cases action with
      | lookup host port flags result =>
          obtain ⟨hadmits, rfl⟩ := Phase.lookUp_eq_some hstep
          cases result with
          | ok infos => exact ⟨read, host, port, flags, infos, [], rfl, noLookup_nil, hadmits, ha⟩
          | error e => cases ha
      | _ => cases hlookup

/-- What stands before a connection the monitor has accepted: the last lookup was of a host and a port the policy
admits, and the socket address came in one of its rows and holds a permitted address. -/
theorem connect_of_run {before after : List Action} {sockaddr : SockAddr} {result : Except Exc Unit}
    {phase : Phase} (h : (egress U p).run (.dialling []) (before ++ .connect sock sockaddr result :: after) =
      some phase) :
    ∃ earlier host port flags infos between, before = earlier ++ .lookup host port flags (.ok infos) :: between ∧
      NoLookup between ∧ checkOrigin U p host port = .ok () ∧
      ∃ info ∈ infos, info.sockaddr = sockaddr ∧ ∃ ip, sockaddrIp U sockaddr = .ok ip ∧ p.Permits ip := by
  obtain ⟨here, next, hbefore, hstep⟩ := Monitor.exists_step h
  obtain ⟨⟨a, ha, rfl⟩, -⟩ := Phase.addresses_of_dial hstep
  obtain ⟨earlier, host, port, flags, infos, between, hread, hbetween, hadmits, hmem⟩ :=
    fromLookup_of_run hbefore a ha
  obtain ⟨hpermits, hip, info, hinfo, hkey⟩ := mem_dialled hmem
  exact ⟨earlier, host, port, flags, infos, between, hread, hbetween, hadmits, info, hinfo,
    congrArg Prod.snd hkey, a.ip, hip, hpermits⟩

end SsrfGuard
