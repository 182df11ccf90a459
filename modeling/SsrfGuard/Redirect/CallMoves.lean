import SsrfGuard.Library.Moves
import SsrfGuard.Redirect.CallEgress

/-! # What the steps of the outside keep, a call keeps

A call touches the world through the resolver, the kernel or the network library, the observer, and what the HTTP
library does on its own, and through nothing else. So a preorder on worlds that holds across each of these holds
across a whole call, redirects and all. -/

namespace SsrfGuard

variable {σ υ ω κ γ ε : Type} {U : Unicode} {C : HttpLibraries υ} {p : Policy}

/-- The state of the outside, in a world. -/
def World.setEnv (w : World σ) (env : σ) : World σ := { w with env := env }

/-- What the outside does unobserved keeps to the relation. -/
def Unseen {ε α : Type} (R : World σ → World σ → Prop) (x : Prog σ ε α) : Prop :=
  Prog.Moves R (Prog.zoom World.env World.setEnv x)

/-- A call to the outside keeps to the relation. -/
def Seen {α : Type} (R : World σ → World σ → Prop) (operation : Prog σ Exc α)
    (action : Except Exc α → Action) : Prop :=
  Prog.Moves R (perform operation action)

/-- The relation holds across what the observer does. -/
def CrossesObserver (R : World σ → World σ → Prop) (observer : Option (Observer σ)) : Prop :=
  ∀ callback, observer = some callback → ∀ decision, Unseen R (callback decision)

/-- The relation holds across a lookup. -/
def CrossesLookup (R : World σ → World σ → Prop) (resolver : Resolver σ) : Prop :=
  ∀ host port flags, Seen R (resolver host port 0 sockStream 0 flags) (.lookup host port flags)

/-- The relation holds across every operation of the kernel. -/
structure CrossesKernel (R : World σ → World σ → Prop) (kernel : Kernel σ) : Prop where
  /-- A number for a new socket object. -/
  newSocket : Prog.Moves R (newSocket : Prog (World σ) Exc SockId)
  /-- `socket.socket`. -/
  socket : ∀ sock family, Seen R (kernel.socket sock family sockStream) (.socket sock family)
  /-- `setsockopt`. -/
  setsockopt : ∀ sock option, Seen R (kernel.setsockopt sock option) (.setsockopt sock option)
  /-- `settimeout`. -/
  settimeout : ∀ sock timeout, Seen R (kernel.settimeout sock timeout) (.settimeout sock timeout)
  /-- `bind`. -/
  bind : ∀ sock address, Seen R (kernel.bind sock address) (.bind sock address)
  /-- `connect`. -/
  connect : ∀ sock sockaddr, Seen R (kernel.connect sock sockaddr) (.connect sock sockaddr)
  /-- `getpeername`. -/
  getpeername : ∀ sock, Seen R (kernel.getpeername sock) (.getpeername sock)
  /-- `close`. -/
  close : ∀ sock, Seen R (kernel.close sock) (.close sock)

/-- The relation holds across every operation of the network library. -/
structure CrossesAnyio (R : World σ → World σ → Prop) (io : Anyio σ) : Prop where
  /-- `anyio.connect_tcp`. -/
  connectTcp : ∀ stream host port source timeout, Unseen R (io.connectTcp stream host port source timeout)
  /-- `setsockopt`. -/
  setsockopt : ∀ stream option, Unseen R (io.setsockopt stream option)
  /-- The peer. -/
  remoteAddress : ∀ stream, Unseen R (io.remoteAddress stream)
  /-- `aclose`. -/
  aclose : ∀ stream, Unseen R (io.aclose stream)

/-- The relation holds across what the HTTP library does on its own. -/
structure CrossesExchange (R : World σ → World σ → Prop) (exchange : Exchange σ υ κ γ ε) : Prop where
  /-- Looking for a connection. -/
  dial : ∀ request, Unseen R (exchange.dial request)
  /-- The request and the response. -/
  converse : ∀ request connection, Unseen R (exchange.converse request connection)

section Moves

variable {R : World σ → World σ → Prop} [IsPreorder (World σ) R] {observer : Option (Observer σ)}

/-! ## The seam -/

theorem moves_report (h : CrossesObserver R observer) (decision : Decision) :
    Prog.Moves R (report (outside observer) decision) := by
  cases observer with
  | none => exact .pure _
  | some callback =>
      exact Prog.Moves.tryCatch (h callback rfl decision) fun e => .ite (.pure _) (.throw _)

theorem moves_checkUrl (h : CrossesObserver R observer) (url : Str) :
    Prog.Moves R (p.checkUrl U url (outside observer)) := by
  unfold Policy.checkUrl
  split
  · exact .ite ((moves_report h _).bind fun _ => .throw _) (.throw _)
  · exact (moves_report h _).bind fun _ => .pure _

theorem moves_checkAnswers (h : CrossesObserver R observer) (target : Target) (answers : List Address) :
    Prog.Moves R (checkAnswers p target (outside observer) answers) := by
  induction answers with
  | nil => exact .pure _
  | cons answer answers ih =>
      rw [checkAnswers]
      split
      · exact (moves_report h _).bind fun _ => ih.bind fun _ => .pure _
      · exact .throw _
      · exact (moves_report h _).bind fun _ => ih.bind fun _ => .pure _

theorem moves_resolve {resolver : Resolver σ} (hlookup : CrossesLookup R resolver)
    (h : CrossesObserver R observer) (target : Target) :
    Prog.Moves R (resolve U p target resolver observer) := by
  refine Prog.Moves.bind (hlookup _ _ _) fun infos => Prog.Moves.bind (.ofExcept _) fun answers => ?_
  exact .ite (.throw _) ((moves_checkAnswers h target answers).bind fun _ => .ofExcept _)

theorem moves_reportPeer (h : CrossesObserver R observer) (address : Address) (peer : IPAddress)
    (refusal : Option Str) : Prog.Moves R (reportPeer U address observer peer refusal) := by
  cases observer with
  | none => exact .pure _
  | some callback => exact Prog.Moves.bind (.ofExcept _) fun port => moves_report h _

section Kernel

variable {kernel : Kernel σ} (hkernel : CrossesKernel R kernel) (h : CrossesObserver R observer)
include hkernel h

theorem moves_verifyPeer (sock : SockId) (address : Address) :
    Prog.Moves R (verifyPeer U kernel sock address observer) := by
  refine Prog.Moves.bind (hkernel.getpeername sock) fun sockaddr => Prog.Moves.bind (.ofExcept _) fun peer => ?_
  exact .ite ((moves_reportPeer h _ _ _).bind fun _ => .throw _) (moves_reportPeer h _ _ _)

theorem moves_openSocket (address : Address) (options : ConnectOptions) :
    Prog.Moves R (openSocket U kernel address options observer) := by
  refine hkernel.newSocket.bind fun sock => Prog.Moves.bind (hkernel.socket sock _) fun _ => ?_
  have hconfigured : Prog.Moves R (configure kernel sock options) :=
    (Prog.Moves.forM (hkernel.setsockopt sock) _).bind fun _ =>
      (Prog.Moves.optionForM (hkernel.settimeout sock) _).bind fun _ =>
        Prog.Moves.optionForM (hkernel.bind sock) _
  have hbody : Prog.Moves R (openBody U kernel sock address options observer) :=
    hconfigured.bind fun _ => Prog.Moves.bind (hkernel.connect sock _) fun _ =>
      moves_verifyPeer hkernel h sock address
  refine Prog.Moves.bind (hbody.tryCatch fun e => ?_) fun _ => .pure _
  exact Prog.Moves.bind (hkernel.close sock) fun _ => .throw _

theorem moves_connect (addresses : List Address) (options : ConnectOptions) :
    Prog.Moves R (connect U p kernel addresses options observer) := by
  have hattempts : ∀ message attempted failures onlyTimeouts,
      Prog.Moves R (attemptFrom U kernel options observer message attempted failures onlyTimeouts) := by
    intro message attempted
    induction attempted with
    | nil => exact fun _ _ => .throw _
    | cons address attempted ih =>
        intro failures onlyTimeouts
        rw [attemptFrom]
        refine (moves_openSocket hkernel h address options).tryCatch fun failed => ?_
        exact .ite (Prog.Moves.bind (.ofExcept _) fun shown => ih _ _) (.throw _)
  exact .ite (.throw _) (Prog.Moves.bind (.ofExcept _) fun _ => hattempts _ _ _ _)

variable {resolver : Resolver σ} (hlookup : CrossesLookup R resolver)
include hlookup

theorem SafeBackend.moves_connectTcp (host : Str) (port : ℤ) (options : TcpOptions) :
    Prog.Moves R (SafeBackend.connectTcp U p resolver kernel observer host port options) := by
  rw [SafeBackend.connectTcp, Prog.mapError_ofExcept]
  refine Prog.Moves.bind (.ofExcept _) fun _ => Prog.Moves.mapError ?_
  exact (moves_resolve hlookup h _).bind fun addresses => moves_connect hkernel h addresses _

theorem moves_pinnedSocket {audit : Prog σ Exc Unit} (haudit : Unseen R audit) (connection : HTTPConnection) :
    Prog.Moves R (pinnedSocket U p connection resolver kernel audit observer) := by
  refine .ite (.throw _) ((moves_checkUrl h _).mapError.bind fun target => ?_)
  refine Prog.Moves.bind (.mapError ?_) fun opened => Prog.Moves.bind (Prog.Moves.mapError haudit) fun _ => .pure _
  exact (moves_resolve hlookup h target).bind fun addresses => moves_connect hkernel h addresses _

end Kernel

/-! ## The asynchronous seam -/

/-- The relation, between the worlds of two asynchronous worlds. -/
def Around (R : World σ → World σ → Prop) (v v' : AsyncWorld σ) : Prop := R v.world v'.world

instance : IsPreorder (AsyncWorld σ) (Around R) where
  refl v := Std.Refl.refl v.world
  trans v v' v'' := IsTrans.trans v.world v'.world v''.world

omit [IsPreorder (World σ) R] in
theorem moves_shared {ε α : Type} {x : Prog (World σ) ε α} (hx : Prog.Moves R x) :
    Prog.Moves (Around R) (shared x) := hx.zoom fun _ _ => id

omit [IsPreorder (World σ) R] in
theorem moves_callStream {α : Type} {operation : Prog σ Exc α} (hoperation : Unseen R operation)
    (call : Except Exc α → StreamCall) : Prog.Moves (Around R) (callStream operation call) :=
  fun v => hoperation v.world

section Anyio

variable {io : Anyio σ} (hio : CrossesAnyio R io) (h : CrossesObserver R observer)
include hio h

theorem moves_verifyStream (stream : StreamId) (address : Address) :
    Prog.Moves (Around R) (verifyStream U io stream address observer) := by
  refine Prog.Moves.bind (moves_callStream (hio.remoteAddress stream) _) fun remote => ?_
  cases remote with
  | none => exact .pure _
  | some sockaddr =>
      refine Prog.Moves.bind (.ofExcept _) fun peer => ?_
      exact .ite ((moves_shared (moves_reportPeer h _ _ _)).bind fun _ => .throw _)
        (moves_shared (moves_reportPeer h _ _ _))

theorem moves_admitStream (stream : StreamId) (address : Address) (options : TcpOptions) :
    Prog.Moves (Around R) (admitStream U io stream address options observer) := by
  refine Prog.Moves.bind (Prog.Moves.tryCatch ?_ fun e => ?_) fun _ => .pure _
  · exact (Prog.Moves.forM (fun option => moves_callStream (hio.setsockopt stream option) _) _).bind fun _ =>
      moves_verifyStream hio h stream address
  · exact (moves_callStream (hio.aclose stream) _).bind fun _ => .throw _

theorem moves_firstReachable (addresses : List Address) (options : TcpOptions) :
    Prog.Moves (Around R) (firstReachable U p io addresses options observer) := by
  have hopened : ∀ address : Address, Prog.Moves (Around R) (openStream U io address options) := by
    intro address
    refine Prog.Moves.bind (.ofExcept _) fun port => Prog.Moves.bind (fun v => Std.Refl.refl v.world) fun stream => ?_
    exact (moves_callStream (hio.connectTcp stream _ _ _ _) _).bind fun _ => .pure _
  have hreached : ∀ message attempted failures onlyTimeouts,
      Prog.Moves (Around R) (reachFrom U io options observer message attempted failures onlyTimeouts) := by
    intro message attempted
    induction attempted with
    | nil => exact fun _ _ => .throw _
    | cons address attempted ih =>
        intro failures onlyTimeouts
        rw [reachFrom]
        refine (hopened address).attempt.bind fun opened => ?_
        cases opened with
        | ok stream => exact (moves_admitStream hio h stream address options).mapError
        | error failed =>
            exact .ite (Prog.Moves.bind (Prog.Moves.mapError (.ofExcept _)) fun _ => ih _ _)
              (.ite (Prog.Moves.bind (Prog.Moves.mapError (.ofExcept _)) fun _ => ih _ _) (.throw _))
  exact hreached _ _ _ _

theorem AsyncSafeBackend.moves_connectTcp {resolver : Resolver σ} (hlookup : CrossesLookup R resolver)
    (host : Str) (port : ℤ) (options : TcpOptions) :
    Prog.Moves (Around R) (AsyncSafeBackend.connectTcp U p resolver io observer host port options) := by
  refine Prog.Moves.bind (Prog.Moves.mapError (.ofExcept _)) fun _ => ?_
  refine (moves_shared (moves_resolve hlookup h _)).attempt.bind fun looked => ?_
  cases looked with
  | error e => exact .ite (.throw _) (.throw _)
  | ok addresses =>
      exact Prog.Moves.bind (Prog.Moves.mapError (.ofExcept _)) fun _ => moves_firstReachable hio h addresses options

end Anyio

end Moves

/-! ## The call -/

/-- A request moves the world as the HTTP library and the seam do. -/
theorem Exchange.moves_send {R : ω → ω → Prop} [IsPreorder ω R] {get : ω → σ} {set : ω → σ → ω}
    {exchange : Exchange σ υ κ γ ε} {seam : κ → Prog ω ε γ}
    (hdial : ∀ request, Prog.Moves R (Prog.zoom get set (exchange.dial request)))
    (hconverse : ∀ request connection, Prog.Moves R (Prog.zoom get set (exchange.converse request connection)))
    (hseam : ∀ target, Prog.Moves R (seam target)) (request : Request υ) :
    Prog.Moves R (exchange.send get set seam request) := by
  refine (hdial request).bind fun needed => ?_
  cases needed with
  | none => exact hconverse request none
  | some target => exact (hseam target).bind fun connection => hconverse request (some connection)

/-- Building a hop moves the world only as the observer does. -/
theorem Agent.moves_follow {R : ω → ω → Prop} [IsPreorder ω R] {observer : Option (Observer ω)}
    (h : ∀ decision, Prog.Moves R (report observer decision)) (agent : Agent) (history : List υ)
    (request : Request υ) (hop : Hop υ) : Prog.Moves R (agent.follow U C p observer history request hop) := by
  have hrefuse : ∀ {α : Type} (chain : List Str),
      Prog.Moves R (refuseChain p chain observer : Prog ω Exc α) :=
    fun _ => (h _).bind fun _ => .throw _
  have hcap : Prog.Moves R (checkRedirectCap C p history request.url observer) := by
    unfold checkRedirectCap
    exact .ite (hrefuse _) (.pure _)
  cases agent with
  | client => exact hcap.bind fun _ => .ofExcept _
  | asyncClient => exact hcap.bind fun _ => .ofExcept _
  | session =>
      rw [Agent.follow, Session.resolveRedirect]
      exact .ite (hrefuse _) (Prog.Moves.bind (.ofExcept _) fun _ => .pure _)

/-- A call moves the world as its requests and its hops do. -/
theorem Agent.moves_call {R : ω → ω → Prop} [IsPreorder ω R] {observer : Option (Observer ω)}
    (h : ∀ decision, Prog.Moves R (report observer decision)) {send : Request υ → Prog ω ε (Option (Hop υ))}
    (hsend : ∀ request, Prog.Moves R (send request)) (agent : Agent) (own : ℤ) (following : Bool)
    (request : Request υ) (w : ω) : R w (agent.call U C p own following observer send [] request w).world :=
  Agent.along_call (R := fun _ => R) Std.Refl.refl (fun h h' => IsTrans.trans _ _ _ h h')
    (fun request => hsend request) (fun history request hop => Agent.moves_follow h agent history request hop)
    [] request w

section Call

variable {R : World σ → World σ → Prop} [IsPreorder (World σ) R] {observer : Option (Observer σ)}
  {resolver : Resolver σ} (h : CrossesObserver R observer) (hlookup : CrossesLookup R resolver)
include h hlookup

theorem Client.moves_call {kernel : Kernel σ} (hkernel : CrossesKernel R kernel)
    {exchange : Exchange σ υ TcpArguments SockId BackendExc} (hexchange : CrossesExchange R exchange) (own : ℤ)
    (following : Bool) (request : Request υ) (w : World σ) :
    R w (Client.call U C p own following resolver kernel observer exchange request w).world := by
  refine Agent.moves_call (fun _ => moves_report h _) (fun request => ?_) .client own following request w
  refine (moves_checkUrl h _).mapError.bind fun _ => ?_
  exact Exchange.moves_send hexchange.dial hexchange.converse
    (fun args => SafeBackend.moves_connectTcp hkernel h hlookup args.host args.port args.options) request

theorem Session.moves_call {kernel : Kernel σ} (hkernel : CrossesKernel R kernel) {audit : Prog σ Exc Unit}
    (haudit : Unseen R audit) {exchange : Exchange σ υ HTTPConnection SockId SeamExc}
    (hexchange : CrossesExchange R exchange) (own : ℤ) (following : Bool) (request : Request υ) (w : World σ) :
    R w (Session.call U C p own following resolver kernel audit observer exchange request w).world := by
  refine Agent.moves_call (fun _ => moves_report h _) (fun request => ?_) .session own following request w
  refine (moves_checkUrl h _).mapError.bind fun _ => ?_
  exact Exchange.moves_send hexchange.dial hexchange.converse
    (fun connection => moves_pinnedSocket hkernel h hlookup haudit connection) request

theorem AsyncClient.moves_call {io : Anyio σ} (hio : CrossesAnyio R io)
    {exchange : Exchange σ υ TcpArguments StreamId BackendExc} (hexchange : CrossesExchange R exchange) (own : ℤ)
    (following : Bool) (request : Request υ) (v : AsyncWorld σ) :
    R v.world (AsyncClient.call U C p own following resolver io observer exchange request v).world.world := by
  have hreport : ∀ decision, Prog.Moves (Around R) (report (alongside observer) decision) := by
    intro decision
    cases observer with
    | none => exact .pure _
    | some callback =>
        exact Prog.Moves.tryCatch (moves_shared (h callback rfl decision)) fun e => .ite (.pure _) (.throw _)
  have hsend : ∀ request, Prog.Moves (Around R)
      (AsyncSafeTransport.handleAsyncRequest U C p resolver io observer exchange request) := by
    intro request
    have hchecked := moves_shared (moves_checkUrl (U := U) (p := p) h (C.str request.url))
    refine hchecked.mapError.bind fun _ => ?_
    have hdial : ∀ request, Prog.Moves (Around R)
        (Prog.zoom (fun v : AsyncWorld σ => v.world.env) AsyncWorld.setEnv (exchange.dial request)) :=
      fun request v => hexchange.dial request v.world
    exact Exchange.moves_send hdial (fun request connection v => hexchange.converse request connection v.world)
      (fun args => AsyncSafeBackend.moves_connectTcp hio h hlookup args.host args.port args.options) request
  exact Agent.moves_call (R := Around R) hreport hsend .asyncClient own following request v

end Call

end SsrfGuard
