import SsrfGuard.Connect
import SsrfGuard.RebindingWatch
import SsrfGuard.Library.Follow

/-! # Observers change no verdict

A sink has a state of its own, sees the outside and cannot change it, and may raise an `Exception` at
every decision. A run that reports to a sink is followed step by step by the run that reports to nobody:
both end alike, and both leave the same trace of calls. -/

namespace SsrfGuard

variable {σ τ : Type} {U : Unicode}

/-! ## Sinks -/

/-- An observer with a state of its own: any callable that raises nothing outside `Exception`. -/
structure Sink (σ τ : Type) where
  /-- What it does with a decision, given what it sees of the outside. -/
  call : σ → Decision → Prog τ Exc Unit
  /-- It raises nothing outside `Exception`. -/
  tame : ∀ env decision own e own',
    (call env decision).exec own = (.error e, own') → e.isException = true

/-- A sink as an observer, beside the outside. -/
def Sink.observer (sink : Sink σ τ) : Observer (σ × τ) := fun decision => Prog.ofFun fun env =>
  let run := (sink.call env.1 decision).exec env.2
  (run.1, (env.1, run.2))

/-- `RebindingWatch.__call__` around a sink, with the time its clock shows. -/
def RebindingWatch.forward (call : σ → Decision → Prog τ Exc Unit) (clock : σ → τ → ℚ) (env : σ)
    (decision : Decision) : Prog (RebindingWatch × τ) Exc Unit := Prog.ofFun fun own =>
  let (watch, decision) := own.1.call (clock env own.2) decision
  let run := (call env decision).exec own.2
  (run.1, (watch, run.2))

/-- A watch raises what the observer it wraps raises. -/
theorem RebindingWatch.tame_forward (sink : Sink σ τ) (clock : σ → τ → ℚ) (env : σ) (decision : Decision)
    (own : RebindingWatch × τ) (e : Exc) (own' : RebindingWatch × τ)
    (h : (forward sink.call clock env decision).exec own = (.error e, own')) : e.isException = true := by
  have hresult := congrArg Prod.fst h
  exact sink.tame env _ own.2 e _ (Prod.ext hresult rfl)

/-- A sink wrapped in a `RebindingWatch`: the watch is part of its state. -/
def Sink.watched (sink : Sink σ τ) (clock : σ → τ → ℚ) : Sink σ (RebindingWatch × τ) where
  call := RebindingWatch.forward sink.call clock
  tame := RebindingWatch.tame_forward sink clock

/-! ## The outside beside a sink -/

/-- The world as it is without the state of the sink. -/
def World.unobserved (w : World (σ × τ)) : World σ :=
  { env := w.env.1, sockets := w.sockets, trace := w.trace }

/-- An operation of the outside, which leaves the sink alone. -/
def beside {α : Type} (operation : Prog σ Exc α) : Prog (σ × τ) Exc α :=
  Prog.zoom Prod.fst (fun env outer => (outer, env.2)) operation

/-- A resolver, beside a sink. -/
def Resolver.beside (resolver : Resolver σ) : Resolver (σ × τ) :=
  fun host port family socktype proto flags =>
    SsrfGuard.beside (resolver host port family socktype proto flags)

/-- The socket operations, beside a sink. -/
def Kernel.beside (kernel : Kernel σ) : Kernel (σ × τ) where
  socket sock family socktype := SsrfGuard.beside (kernel.socket sock family socktype)
  setsockopt sock option := SsrfGuard.beside (kernel.setsockopt sock option)
  settimeout sock timeout := SsrfGuard.beside (kernel.settimeout sock timeout)
  bind sock address := SsrfGuard.beside (kernel.bind sock address)
  connect sock sockaddr := SsrfGuard.beside (kernel.connect sock sockaddr)
  getpeername sock := SsrfGuard.beside (kernel.getpeername sock)
  close sock := SsrfGuard.beside (kernel.close sock)

/-- A socket connects to a socket address with a number for its port, or raises. -/
def Kernel.ConnectsToPorts (kernel : Kernel σ) : Prop :=
  ∀ sock sockaddr env env', (kernel.connect sock sockaddr).exec env = (.ok (), env') →
    ∃ host port more, sockaddr = host :: .int port :: more

/-- The observed run ends as the other does, and leaves the same state outside, the same sockets and the
same trace. -/
abbrev SameVerdict {α : Type} (observed : Prog (World (σ × τ)) Exc α) (bare : Prog (World σ) Exc α) :
    Prop :=
  Prog.Follows World.unobserved (fun _ => ()) observed bare

/-! ## Each step -/

theorem sameVerdict_perform {α : Type} (operation : Prog σ Exc α) (action : Except Exc α → Action) :
    SameVerdict (τ := τ) (perform (beside operation) action) (perform operation action) :=
  fun _ => ⟨_, rfl, rfl, rfl⟩

theorem sameVerdict_newSocket : SameVerdict (σ := σ) (τ := τ) newSocket newSocket :=
  fun _ => ⟨_, rfl, rfl, rfl⟩

/-- Reporting to a sink is doing nothing, whatever the sink does. -/
theorem sameVerdict_report (sink : Sink σ τ) (decision : Decision) :
    SameVerdict (report (outside (some sink.observer)) decision) (report none decision) := by
  intro w
  have hrun : ∃ result own, (sink.observer decision).exec w.env = (result, (w.env.1, own)) ∧
      ∀ e, result = .error e → e.isException = true :=
    ⟨_, _, rfl, fun e he => sink.tame _ _ _ e _ (Prod.ext he rfl)⟩
  obtain ⟨result, own, hrun, htame⟩ := hrun
  refine ⟨{ w with env := (w.env.1, own) }, ?_, rfl, rfl⟩
  change (tryCatch _ _ : Prog (World (σ × τ)) Exc Unit).exec w = _
  rw [Prog.exec_tryCatch, Prog.exec_zoom, hrun]
  cases result with
  | ok u => rfl
  | error e =>
      dsimp only
      rw [if_pos (htame e rfl)]
      rfl

/-! ## `check_url` and `resolve` -/

/-- Reporting to one observer, beside the outside, is reporting to the other. -/
def SameReports (observed : Option (Observer (World (σ × τ)))) (bare : Option (Observer (World σ))) :
    Prop :=
  ∀ decision, SameVerdict (report observed decision) (report bare decision)

section SameReports

variable {observed : Option (Observer (World (σ × τ)))} {bare : Option (Observer (World σ))}

theorem sameVerdict_checkUrl (p : Policy) (hreports : SameReports observed bare) (url : Str) :
    SameVerdict (p.checkUrl U url observed) (p.checkUrl U url bare) := by
  unfold Policy.checkUrl
  cases p.decide U url with
  | error refused =>
      dsimp only
      split
      · exact (hreports _).bind fun _ => .throw _
      · exact .throw _
  | ok target => exact (hreports _).bind fun _ => .pure _

theorem sameVerdict_checkAnswers (p : Policy) (target : Target) (hreports : SameReports observed bare)
    (answers : List Address) :
    SameVerdict (checkAnswers p target observed answers) (checkAnswers p target bare answers) := by
  induction answers with
  | nil => exact .pure _
  | cons answer answers ih =>
      rw [checkAnswers, checkAnswers]
      cases hcheck : p.checkAddress answer.ip with
      | ok u => exact (hreports _).bind fun _ => ih.bind fun _ => .pure _
      | error e =>
          obtain rfl := Policy.checkAddress_eq_error hcheck
          exact (hreports _).bind fun _ => ih.bind fun _ => .pure _

end SameReports

theorem sameVerdict_resolve (p : Policy) (target : Target) (resolver : Resolver σ)
    {observed : Option (Observer (σ × τ))} {bare : Option (Observer σ)}
    (hreports : SameReports (outside observed) (outside bare)) :
    SameVerdict (resolve U p target resolver.beside observed) (resolve U p target resolver bare) := by
  refine (sameVerdict_perform _ _).bind fun infos => (Prog.Follows.ofExcept _).bind fun answers => ?_
  refine .ite (.throw _) ?_
  exact (sameVerdict_checkAnswers p target hreports answers).bind fun _ => .ofExcept _

/-! ## `connect` -/

/-- The report of a peer reads the port of the address, which is there. -/
theorem sameVerdict_reportPeer (sink : Sink σ τ) {address : Address} {port : ℤ}
    (hport : address.port U = .ok port) (peer : IPAddress) (refusal : Option Str) :
    SameVerdict (reportPeer U address (some sink.observer) peer refusal)
      (reportPeer U address none peer refusal) := by
  unfold reportPeer
  dsimp only
  rw [hport]
  exact sameVerdict_report sink _

theorem sameVerdict_verifyPeer (kernel : Kernel σ) (sock : SockId) (sink : Sink σ τ) {address : Address}
    {port : ℤ} (hport : address.port U = .ok port) :
    SameVerdict (verifyPeer U kernel.beside sock address (some sink.observer))
      (verifyPeer U kernel sock address none) := by
  refine (sameVerdict_perform _ _).bind fun sockaddr => (Prog.Follows.ofExcept _).bind fun peer => ?_
  refine .ite ((sameVerdict_reportPeer sink hport _ _).bind fun _ => .throw _) ?_
  exact sameVerdict_reportPeer sink hport _ _

theorem sameVerdict_configure (kernel : Kernel σ) (sock : SockId) (options : ConnectOptions) :
    SameVerdict (τ := τ) (configure kernel.beside sock options) (configure kernel sock options) := by
  refine (Prog.Follows.forM (fun _ => sameVerdict_perform _ _) _).bind fun _ => ?_
  refine (Prog.Follows.optionForM (fun _ => sameVerdict_perform _ _) _).bind fun _ => ?_
  exact .optionForM (fun _ => sameVerdict_perform _ _) _

theorem sameVerdict_openBody {kernel : Kernel σ} (hkernel : kernel.ConnectsToPorts) (sock : SockId)
    (address : Address) (options : ConnectOptions) (sink : Sink σ τ) :
    SameVerdict (openBody U kernel.beside sock address options (some sink.observer))
      (openBody U kernel sock address options none) := by
  refine (sameVerdict_configure kernel sock options).bind fun _ => ?_
  by_cases haddress : ∃ host port more, address.sockaddr = host :: .int port :: more
  · obtain ⟨host, port, more, hsockaddr⟩ := haddress
    have hport : address.port U = .ok port := by
      rw [Address.port, hsockaddr]
    exact (sameVerdict_perform _ _).bind fun _ => sameVerdict_verifyPeer kernel sock sink hport
  · -- no port to report, and no connection to report it of
    refine (sameVerdict_perform _ _).bind_of_raises fun w u h => haddress ?_
    exact hkernel sock address.sockaddr w.env _ (Prod.ext h rfl)

theorem sameVerdict_openSocket {kernel : Kernel σ} (hkernel : kernel.ConnectsToPorts)
    (address : Address) (options : ConnectOptions) (sink : Sink σ τ) :
    SameVerdict (openSocket U kernel.beside address options (some sink.observer))
      (openSocket U kernel address options none) := by
  refine sameVerdict_newSocket.bind fun sock => (sameVerdict_perform _ _).bind fun _ => ?_
  refine Prog.Follows.bind ?_ fun _ => .pure _
  refine (sameVerdict_openBody hkernel sock address options sink).tryCatch fun e => ?_
  exact (sameVerdict_perform _ _).bind fun _ => .throw _

theorem sameVerdict_attemptFrom {kernel : Kernel σ} (hkernel : kernel.ConnectsToPorts)
    (options : ConnectOptions) (sink : Sink σ τ) (message : List Str → Str) (attempted : List Address)
    (failures : List Str) (onlyTimeouts : Bool) :
    SameVerdict
      (attemptFrom U kernel.beside options (some sink.observer) message attempted failures onlyTimeouts)
      (attemptFrom U kernel options none message attempted failures onlyTimeouts) := by
  induction attempted generalizing failures onlyTimeouts with
  | nil => exact .throw _
  | cons address attempted ih =>
      rw [attemptFrom, attemptFrom]
      refine (sameVerdict_openSocket hkernel address options sink).tryCatch fun failed => ?_
      refine .ite ?_ (.throw _)
      exact (Prog.Follows.ofExcept _).bind fun _ => ih _ _

theorem sameVerdict_connect (p : Policy) {kernel : Kernel σ} (hkernel : kernel.ConnectsToPorts)
    (addresses : List Address) (options : ConnectOptions) (sink : Sink σ τ) :
    SameVerdict (connect U p kernel.beside addresses options (some sink.observer))
      (connect U p kernel addresses options none) := by
  refine .ite (.throw _) ((Prog.Follows.ofExcept _).bind fun _ => ?_)
  exact sameVerdict_attemptFrom hkernel options sink _ _ _ _

/-! ## Every observer -/

/-- **Observers change no verdict.** Whatever a sink does, `check_url`, `resolve` and `connect` end as they
do without an observer, and leave the same sockets and the same trace of calls. A sink wrapped in a
`RebindingWatch` is such a sink, whatever the watch remembers and its clock shows. -/
theorem sameVerdict (U : Unicode) (p : Policy) (resolver : Resolver σ) (kernel : Kernel σ)
    (hkernel : kernel.ConnectsToPorts) (sink : Sink σ τ) :
    (∀ url, SameVerdict (p.checkUrl U url (outside (some sink.observer))) (p.checkUrl U url none)) ∧
    (∀ target, SameVerdict (resolve U p target resolver.beside (some sink.observer))
      (resolve U p target resolver none)) ∧
    (∀ addresses options, SameVerdict (connect U p kernel.beside addresses options (some sink.observer))
      (connect U p kernel addresses options none)) ∧
    ∀ clock,
      (∀ url, SameVerdict (p.checkUrl U url (outside (some (sink.watched clock).observer)))
        (p.checkUrl U url none)) ∧
      (∀ target, SameVerdict (resolve U p target resolver.beside (some (sink.watched clock).observer))
        (resolve U p target resolver none)) ∧
      ∀ addresses options,
        SameVerdict (connect U p kernel.beside addresses options (some (sink.watched clock).observer))
          (connect U p kernel addresses options none) := by
  refine ⟨sameVerdict_checkUrl p (sameVerdict_report sink),
    fun target => sameVerdict_resolve p target resolver (sameVerdict_report sink),
    fun addresses options => sameVerdict_connect p hkernel addresses options sink, fun clock => ?_⟩
  refine ⟨sameVerdict_checkUrl p (sameVerdict_report _),
    fun target => sameVerdict_resolve p target resolver (sameVerdict_report _), ?_⟩
  exact fun addresses options => sameVerdict_connect p hkernel addresses options _

/-- The kernel whose peers are all the public address, and which connects to pairs of a host and a port. -/
def pairKernel : Kernel Unit where
  socket := publicKernel.socket
  setsockopt := publicKernel.setsockopt
  settimeout := publicKernel.settimeout
  bind := publicKernel.bind
  connect _ sockaddr :=
    match sockaddr with
    | _ :: .int _ :: _ => pure ()
    | _ => throw (.otherException (text "AF_INET address must be a pair (host, port)"))
  getpeername := publicKernel.getpeername
  close := publicKernel.close

theorem connectsToPorts_pairKernel : pairKernel.ConnectsToPorts := by
  rintro sock (_ | ⟨host, _ | ⟨s | n, more⟩⟩) env env' h
  · cases h
  · cases h
  · cases h
  · exact ⟨host, n, more, rfl⟩

/-- What a broken sink does: it counts the decisions, and raises at each of them. -/
def brokenCall (_ : Unit) (_ : Decision) : Prog ℕ Exc Unit :=
  Prog.ofFun fun n => (.error (.otherException (text "the sink is full")), n + 1)

theorem tame_brokenCall (env : Unit) (decision : Decision) (n : ℕ) (e : Exc) (n' : ℕ)
    (h : (brokenCall env decision).exec n = (.error e, n')) : e.isException = true := by
  cases h
  rfl

/-- The broken sink. -/
def brokenSink : Sink Unit ℕ := { call := brokenCall, tame := tame_brokenCall }

/-- The public address, as an answer for `a`. -/
def publicAddress : Address :=
  { family := afInet, sockaddr := [.str (text "8.8.8.8"), .int 443], ip := .v4 0x08080808,
    hostname := text "a" }

/-- A world with a watch that has seen nothing, around a sink that has counted nothing. -/
def watchedWorld : World (Unit × RebindingWatch × ℕ) :=
  { env := ((), { window := 60, capacity := 512, seen := [] }, 0), sockets := 0, trace := [] }

/-- With a watch around a sink that raises at every decision, `connect` returns the socket it returns
without an observer. -/
theorem connect_brokenSink :
    ((connect Unicode.ascii Policy.default pairKernel.beside [publicAddress] {}
      (some (brokenSink.watched fun _ n => n).observer)).exec watchedWorld).1 = .ok 0 := by
  obtain ⟨-, -, -, hwatched⟩ := sameVerdict Unicode.ascii Policy.default
    (fun _ _ _ _ _ _ => pure listedTwice) pairKernel connectsToPorts_pairKernel brokenSink
  obtain ⟨w', hrun, -⟩ := (hwatched fun _ n => n).2.2 [publicAddress] {} watchedWorld
  have hbare : ((connect Unicode.ascii Policy.default pairKernel [publicAddress] {} none).exec
      World.start).1 = .ok 0 := by
    decide +kernel
  rw [hrun]
  exact hbare

end SsrfGuard
