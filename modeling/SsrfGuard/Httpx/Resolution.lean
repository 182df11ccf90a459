import SsrfGuard.Httpx.Backend

/-! # Resolution in the two backends

Both backends resolve the same way and go on to connecting with the same addresses. What resolution
raises, the synchronous one translates in one handler for every `OSError`; the asynchronous one handles
`socket.gaierror` alone. So they part exactly when a resolver raises an `OSError` of another class. -/

namespace SsrfGuard

variable {σ : Type} {U : Unicode}

/-- Two exceptions a caller of a backend tells apart from no other way: the same class of `httpcore`, or
the same exception let through, which is no `OSError`. -/
def BackendExc.SameClass : BackendExc → BackendExc → Prop
  | .connectTimeout _, .connectTimeout _ => True
  | .connectError _, .connectError _ => True
  | .untranslated e, .untranslated e' => e = e' ∧ e.isOSError = false
  | _, _ => False

theorem Exc.isException_of_isOSError {e : Exc} (h : e.isOSError = true) : e.isException = true := by
  cases e with
  | baseException message => cases h
  | _ => rfl

/-- No `OSError` but `socket.gaierror`. -/
def GaierrorOnly (e : Exc) : Prop := e.isOSError = true → e.isGaierror = true

theorem gaierrorOnly_of_not_isOSError {e : Exc} (h : e.isOSError = false) : GaierrorOnly e := by
  intro hos
  rw [h] at hos
  cases hos

/-! ## What resolution raises by itself -/

theorem raisesOnly_addressesFrom (hostname : Str) (seen : List (ℤ × SockAddr))
    (infos : List ResolverAnswer) : (addressesFrom U hostname seen infos).RaisesOnly GaierrorOnly := by
  induction infos generalizing seen with
  | nil => exact Except.RaisesOnly.ok _
  | cons info infos ih =>
      rw [addressesFrom]
      refine Except.RaisesOnly.ite (ih _) (Except.RaisesOnly.bind ?_ fun address => ?_)
      · refine Except.RaisesOnly.bind ?_ fun family => Except.RaisesOnly.bind ?_ fun ip =>
          Except.RaisesOnly.ok _
        · exact Except.RaisesOnly.ite (Except.RaisesOnly.ok _)
            (Except.RaisesOnly.error (gaierrorOnly_of_not_isOSError rfl))
        · unfold sockaddrIp
          cases info.sockaddr with
          | nil => exact Except.RaisesOnly.error (gaierrorOnly_of_not_isOSError rfl)
          | cons item rest =>
              dsimp only
              unfold ipAddress
              cases parseAddress item.text with
              | none => exact Except.RaisesOnly.error (gaierrorOnly_of_not_isOSError rfl)
              | some address => exact Except.RaisesOnly.ok _
      · exact (ih _).bind fun out => Except.RaisesOnly.ok _

theorem raisesOnly_verdictOn (p : Policy) (target : Target) (permitted : List Address)
    (denied : List Denial) : (verdictOn p target permitted denied).RaisesOnly GaierrorOnly := by
  unfold verdictOn
  refine Except.RaisesOnly.ite (Except.RaisesOnly.error ?_)
    (Except.RaisesOnly.ite (Except.RaisesOnly.error (gaierrorOnly_of_not_isOSError rfl)) (Except.RaisesOnly.ok _))
  unfold refuseAllDenied
  split <;> exact gaierrorOnly_of_not_isOSError rfl

/-- What gets out of a report was raised outside `Exception`, so it is no `OSError`. -/
theorem keeps_report {ω : Type} (observer : Option (Observer ω)) (decision : Decision) :
    Prog.Keeps (fun _ => True) GaierrorOnly (report observer decision) := by
  intro w _
  cases hreport : (report observer decision).exec w with
  | mk result w' =>
      cases result with
      | ok _ => exact True.intro
      | error e =>
          obtain ⟨_, -, -, hexception⟩ := exec_report_error hreport
          refine ⟨fun hos => ?_, True.intro⟩
          rw [Exc.isException_of_isOSError hos] at hexception
          cases hexception

theorem keeps_checkAnswers (p : Policy) (target : Target) (observer : Option (Observer (World σ)))
    (answers : List Address) :
    Prog.Keeps (fun _ => True) GaierrorOnly (checkAnswers p target observer answers) := by
  induction answers with
  | nil => exact Prog.Keeps.pure _
  | cons answer answers ih =>
      rw [checkAnswers]
      cases hcheck : p.checkAddress answer.ip with
      | ok _ =>
          exact (keeps_report _ _).bind fun _ => ih.bind fun sorted => Prog.Keeps.pure _
      | error e =>
          obtain rfl := Policy.checkAddress_eq_error hcheck
          exact (keeps_report _ _).bind fun _ => ih.bind fun sorted => Prog.Keeps.pure _

/-- What `resolve` raises, its resolver raised, or it is no `OSError` but `socket.gaierror`. -/
theorem triple_resolve (p : Policy) (target : Target) (resolver : Resolver σ)
    (observer : Option (Observer σ)) (start : World σ) :
    Prog.Triple (fun w => w = start) (resolve U p target resolver observer) (fun _ _ => True) fun e _ =>
      ((lookupOf target resolver).exec start.env).1 = .error e ∨ GaierrorOnly e := by
  have hlookup : Prog.Triple (fun w => w = start) (perform (lookupOf target resolver)
      (.lookup target.host target.port (if target.isLiteralAddress then aiNumerichost else 0)))
      (fun _ _ => True) fun e _ => ((lookupOf target resolver).exec start.env).1 = .error e := by
    rintro w rfl
    rw [perform, Prog.exec_ofFun]
    cases hexec : (lookupOf target resolver).exec w.env with
    | mk result env =>
        cases result with
        | ok infos => exact True.intro
        | error e => exact rfl
  refine Prog.Triple.bind (hlookup.conseq (fun _ => id) (fun _ _ => id) fun _ _ => .inl) fun infos => ?_
  -- the rest of it raises nothing else
  suffices hrest : Prog.Keeps (fun _ => True) GaierrorOnly _ from
    hrest.conseq (fun _ => id) (fun _ _ => id) fun _ _ h => .inr h.1
  refine (Prog.Keeps.ofExcept (raisesOnly_addressesFrom _ _ _)).bind fun answers => ?_
  refine Prog.Keeps.ite (Prog.Keeps.throw fun _ => rfl) ?_
  exact (keeps_checkAnswers _ _ _ _).bind fun _ => Prog.Keeps.ofExcept (raisesOnly_verdictOn _ _ _ _)

/-- What its resolver raises, `resolve` raises. -/
theorem exec_resolve_of_raise {p : Policy} {target : Target} {resolver : Resolver σ}
    {observer : Option (Observer σ)} {w : World σ} {e : Exc}
    (h : ((lookupOf target resolver).exec w.env).1 = .error e) :
    ((resolve U p target resolver observer).exec w).1 = .error e := by
  rw [lookupOf] at h
  rw [resolve, Prog.exec_bind]
  simp only [perform, Prog.exec_ofFun]
  rw [h]

theorem raisesOnly_checkOrigin (p : Policy) (host : Str) (port : ℤ) :
    (checkOrigin U p host port).RaisesOnly Exc.IsBlockedURL := by
  refine .bind (.ite (.error ⟨_, _, rfl⟩) (.ok _)) fun _ => .ite (.ok _) ?_
  exact .ite (.ok _) (.error ⟨_, _, rfl⟩)

/-! ## The two backends, by how resolution ends -/

section

variable {p : Policy} {resolver : Resolver σ} {kernel : Kernel σ} {io : Anyio σ}
  {observer : Option (Observer σ)} {host : Str} {port : ℤ} {options : TcpOptions} {w w' : World σ} {e : Exc}
  {addresses : List Address}

theorem SafeBackend.exec_of_refused (h : checkOrigin U p host port = .error e) :
    (SafeBackend.connectTcp U p resolver kernel observer host port options).exec w =
      (.error (.untranslated e), w) := by
  rw [SafeBackend.connectTcp, Prog.exec_bind, h]
  rfl

theorem AsyncSafeBackend.exec_of_refused (h : checkOrigin U p host port = .error e) (v : AsyncWorld σ) :
    (AsyncSafeBackend.connectTcp U p resolver io observer host port options).exec v =
      (.error (.untranslated e), v) := by
  rw [AsyncSafeBackend.connectTcp, Prog.exec_bind, h]
  rfl

theorem SafeBackend.exec_of_resolve (h : checkOrigin U p host port = .ok ()) :
    (SafeBackend.connectTcp U p resolver kernel observer host port options).exec w =
      (Prog.mapError (translated U) (do
        let addresses ← resolve U p (originTarget U host port) resolver observer
        connect U p kernel addresses options.toConnectOptions observer)).exec w := by
  rw [SafeBackend.connectTcp, Prog.exec_bind, h]
  rfl

/-- Resolution brought addresses. -/
theorem SafeBackend.exec_of_resolved (h : checkOrigin U p host port = .ok ())
    (hresolve : (resolve U p (originTarget U host port) resolver observer).exec w = (.ok addresses, w')) :
    (SafeBackend.connectTcp U p resolver kernel observer host port options).exec w =
      (Prog.mapError (translated U)
        (connect U p kernel addresses options.toConnectOptions observer)).exec w' := by
  rw [SafeBackend.exec_of_resolve h, Prog.exec_mapError, Prog.exec_bind, hresolve]
  rfl

/-- Resolution raised. -/
theorem SafeBackend.exec_of_raised (h : checkOrigin U p host port = .ok ())
    (hresolve : (resolve U p (originTarget U host port) resolver observer).exec w = (.error e, w')) :
    ((SafeBackend.connectTcp U p resolver kernel observer host port options).exec w).1 =
      .error (translated U e) := by
  rw [SafeBackend.exec_of_resolve h, Prog.exec_mapError, Prog.exec_bind, hresolve]
  rfl

/-- What resolution returns passes the second check. -/
theorem checkAll_of_resolved
    (h : (resolve U p (originTarget U host port) resolver observer).exec w = (.ok addresses, w')) :
    checkAll p addresses = .ok () := by
  obtain ⟨added, -, flags, answer, -, hpermits⟩ :=
    traces_resolve (U := U) p (originTarget U host port) resolver observer w
  rw [h] at hpermits
  obtain ⟨infos, -, hall⟩ := hpermits addresses rfl
  exact checkAll_of_permits fun address hmem => (hall address hmem).1

theorem exec_shared {ε α : Type} {x : Prog (World σ) ε α} {result : Except ε α}
    (h : x.exec w = (result, w')) :
    (shared x).exec (AsyncWorld.around w) = (result, AsyncWorld.around w') := by
  rw [shared, Prog.exec_zoom, AsyncWorld.around, h]
  rfl

/-- Resolution brought addresses. -/
theorem AsyncSafeBackend.exec_of_resolved (h : checkOrigin U p host port = .ok ())
    (hresolve : (resolve U p (originTarget U host port) resolver observer).exec w = (.ok addresses, w')) :
    (AsyncSafeBackend.connectTcp U p resolver io observer host port options).exec (AsyncWorld.around w) =
      (firstReachable U p io addresses options observer).exec (AsyncWorld.around w') := by
  simp only [AsyncSafeBackend.connectTcp, Prog.exec_bind, Prog.exec_mapError, Prog.exec_ofExcept, h,
    Prog.exec_attempt, exec_shared hresolve, checkAll_of_resolved hresolve, Except.mapError]

/-- Resolution raised. -/
theorem AsyncSafeBackend.exec_of_raised (h : checkOrigin U p host port = .ok ())
    (hresolve : (resolve U p (originTarget U host port) resolver observer).exec w = (.error e, w')) :
    ((AsyncSafeBackend.connectTcp U p resolver io observer host port options).exec
      (AsyncWorld.around w)).1 =
        .error (if e.isGaierror then .connectError (e.str U) else .untranslated e) := by
  simp only [AsyncSafeBackend.connectTcp, Prog.exec_bind, Prog.exec_mapError, Prog.exec_ofExcept, h,
    Prog.exec_attempt, exec_shared hresolve, Except.mapError]
  split <;> rfl

end

/-! ## When the two agree -/

/-- Both backends raised, and alike. -/
def RaiseAlike (sync : Except BackendExc SockId) (async : Except BackendExc StreamId) : Prop :=
  ∃ e e', sync = .error e ∧ async = .error e' ∧ e.SameClass e'

/-- The two handlers of the one backend and the one handler of the other. -/
theorem sameClass_iff {e : Exc} :
    (translated U e).SameClass (if e.isGaierror then .connectError (e.str U) else .untranslated e) ↔
      GaierrorOnly e := by
  cases e <;> simp [translated, BackendExc.SameClass, GaierrorOnly, Exc.isOSError, Exc.isGaierror,
    Exc.isTimeoutError]

/-- What resolution raised comes out of both backends alike exactly when it is no `OSError` but
`socket.gaierror`. -/
theorem raiseAlike_iff_of_raised {p : Policy} {resolver : Resolver σ} {kernel : Kernel σ} {io : Anyio σ}
    {observer : Option (Observer σ)} {host : Str} {port : ℤ} {options : TcpOptions} {w w' : World σ} {e : Exc}
    (horigin : checkOrigin U p host port = .ok ())
    (hresolve : (resolve U p (originTarget U host port) resolver observer).exec w = (.error e, w')) :
    RaiseAlike ((SafeBackend.connectTcp U p resolver kernel observer host port options).exec w).1
      ((AsyncSafeBackend.connectTcp U p resolver io observer host port options).exec
        (AsyncWorld.around w)).1 ↔ GaierrorOnly e := by
  rw [SafeBackend.exec_of_raised horigin hresolve, AsyncSafeBackend.exec_of_raised horigin hresolve,
    ← sameClass_iff]
  constructor
  · rintro ⟨_, _, he, he', hsame⟩
    cases he
    cases he'
    exact hsame
  · exact fun hsame => ⟨_, _, rfl, rfl, hsame⟩

/-- **The two backends agree on resolution exactly when no resolver raises an `OSError` other than
`socket.gaierror`**: both go on to connecting, with the same addresses from the same world, or both raise
the same class, and no `OSError` untranslated. The origin is checked before the resolver is asked. -/
theorem connectTcp_alike_iff (U : Unicode) (p : Policy) (resolver : Resolver σ) (kernel : Kernel σ)
    (io : Anyio σ) (observer : Option (Observer σ)) (host : Str) (port : ℤ) (options : TcpOptions)
    (w : World σ) :
    let target := originTarget U host port
    let sync := (SafeBackend.connectTcp U p resolver kernel observer host port options).exec w
    let async := (AsyncSafeBackend.connectTcp U p resolver io observer host port options).exec
      (AsyncWorld.around w)
    ((∃ addresses w', (resolve U p target resolver observer).exec w = (.ok addresses, w') ∧
        sync = (Prog.mapError (translated U)
          (connect U p kernel addresses options.toConnectOptions observer)).exec w' ∧
        async = (firstReachable U p io addresses options observer).exec (AsyncWorld.around w')) ∨
      RaiseAlike sync.1 async.1) ↔
      (checkOrigin U p host port = .ok () →
        ∀ e, ((lookupOf target resolver).exec w.env).1 = .error e → e.isOSError = true →
          e.isGaierror = true) := by
  intro target sync async
  cases horigin : checkOrigin U p host port with
  | error e =>
      obtain ⟨url, reason, rfl⟩ := raisesOnly_checkOrigin p host port e horigin
      refine iff_of_true (.inr ⟨_, _, congrArg Prod.fst (SafeBackend.exec_of_refused horigin),
        congrArg Prod.fst (AsyncSafeBackend.exec_of_refused horigin _), ?_⟩) fun h =>
        absurd h Except.error_ne_ok
      exact ⟨rfl, rfl⟩
  | ok u =>
      cases hresolve : (resolve U p target resolver observer).exec w with
      | mk result w' =>
          cases result with
          | ok addresses =>
              refine iff_of_true (.inl ⟨addresses, w', rfl, ?_, ?_⟩) fun _ e he => ?_
              · exact SafeBackend.exec_of_resolved horigin hresolve
              · exact AsyncSafeBackend.exec_of_resolved horigin hresolve
              · have hraised : ((resolve U p target resolver observer).exec w).1 = .error e :=
                  exec_resolve_of_raise he
                rw [hresolve] at hraised
                cases hraised
          | error e =>
              rw [raiseAlike_iff_of_raised horigin hresolve]
              constructor
              · rintro (⟨addresses, w'', hok, -⟩ | honly) _ e' he'
                · cases hok
                · have hraised : ((resolve U p target resolver observer).exec w).1 = .error e' :=
                    exec_resolve_of_raise he'
                  rw [hresolve] at hraised
                  cases hraised
                  exact honly
              · intro h
                refine .inr ?_
                rcases (triple_resolve p target resolver observer w).error rfl hresolve with hraised | hown
                · exact h rfl e hraised
                · exact hown

/-- A resolver that runs out of time. -/
def slowResolver : Resolver Unit := fun _ _ _ _ _ _ => throw (.timeoutError (text "slow"))

/-- A network library that opens nothing. -/
def noStreams : Anyio Unit where
  connectTcp _ _ _ _ _ := throw (.osError [])
  setsockopt _ _ := throw (.osError [])
  remoteAddress _ := throw (.osError [])
  aclose _ := throw (.osError [])

/-- The synchronous backend translates the `TimeoutError` of a resolver, the asynchronous one lets it
through. -/
theorem connectTcp_slowResolver :
    let sync := (SafeBackend.connectTcp Unicode.ascii Policy.default slowResolver publicKernel none
      (text "a") 443 {}).exec World.start
    let async := (AsyncSafeBackend.connectTcp Unicode.ascii Policy.default slowResolver noStreams none
      (text "a") 443 {}).exec (AsyncWorld.around World.start)
    sync.1 = .error (.connectTimeout (text "slow")) ∧
      async.1 = .error (.untranslated (.timeoutError (text "slow"))) ∧ ¬ RaiseAlike sync.1 async.1 := by
  intro sync async
  have hsync : sync.1 = .error (.connectTimeout (text "slow")) := by decide +kernel
  have hasync : async.1 = .error (.untranslated (.timeoutError (text "slow"))) := by decide +kernel
  refine ⟨hsync, hasync, ?_⟩
  rintro ⟨e, e', he, he', hsame⟩
  rw [hsync] at he
  rw [hasync] at he'
  cases he
  cases he'
  exact hsame

end SsrfGuard
