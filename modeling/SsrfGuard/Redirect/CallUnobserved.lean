import SsrfGuard.Redirect.Call
import SsrfGuard.Redirect.PlainUrl
import SsrfGuard.Unobserved

/-! # Observers change no call

A call reports to its observer at every step: when a URL is checked, when a name is resolved, when a peer is compared,
and when a chain of redirects is refused. The backends of httpx and the seam of requests translate what they catch, and
the asynchronous one catches less than the others, so a report that raised in one of them would end the call with
another exception, or leave a stream open. It does not: a call that reports to a sink is followed, step by step and
through every redirect, by the one that reports to nobody. -/

namespace SsrfGuard

variable {σ τ υ ω ω' ρ κ γ ε : Type} {U : Unicode} {C : HttpLibraries υ} {p : Policy}

/-! ## The outside beside a sink -/

/-- The world as it is without the state of the sink. -/
def AsyncWorld.unobserved (v : AsyncWorld (σ × τ)) : AsyncWorld σ :=
  { world := v.world.unobserved, streams := v.streams, calls := v.calls }

/-- The network library, beside a sink. -/
def Anyio.beside (io : Anyio σ) : Anyio (σ × τ) where
  connectTcp stream host port localAddress timeout :=
    SsrfGuard.beside (io.connectTcp stream host port localAddress timeout)
  setsockopt stream option := SsrfGuard.beside (io.setsockopt stream option)
  remoteAddress stream := SsrfGuard.beside (io.remoteAddress stream)
  aclose stream := SsrfGuard.beside (io.aclose stream)

/-- What the HTTP library does on its own, beside a sink. -/
def Exchange.beside (exchange : Exchange σ υ κ γ ε) : Exchange (σ × τ) υ κ γ ε where
  dial request := Prog.zoom Prod.fst (fun env outer => (outer, env.2)) (exchange.dial request)
  converse request connection :=
    Prog.zoom Prod.fst (fun env outer => (outer, env.2)) (exchange.converse request connection)

/-- The observed asynchronous run ends as the other does, and leaves the same outside, the same streams and the same
calls. -/
abbrev SameStreams {α : Type} (observed : Prog (AsyncWorld (σ × τ)) ε α) (bare : Prog (AsyncWorld σ) ε α) : Prop :=
  Prog.Follows AsyncWorld.unobserved (fun _ => ()) observed bare

theorem sameStreams_shared {α : Type} {observed : Prog (World (σ × τ)) ε α} {bare : Prog (World σ) ε α}
    (h : Prog.Follows World.unobserved (fun _ => ()) observed bare) : SameStreams (shared observed) (shared bare) := by
  intro v
  obtain ⟨w, hexec, hworld, -⟩ := h v.world
  refine ⟨{ v with world := w }, ?_, ?_, rfl⟩
  · rw [shared, Prog.exec_zoom, hexec]
    rfl
  · rw [AsyncWorld.unobserved, hworld]
    rfl

theorem sameStreams_callStream {α : Type} (operation : Prog σ Exc α) (call : Except Exc α → StreamCall) :
    SameStreams (τ := τ) (callStream (beside operation) call) (callStream operation call) :=
  fun _ => ⟨_, rfl, rfl, rfl⟩

/-- What the outside does unseen, it does beside a sink too. -/
theorem follows_hidden {α : Type} (x : Prog σ ε α) :
    Prog.Follows World.unobserved (fun _ => ())
      (Prog.zoom World.env (fun w env => { w with env := env })
        (Prog.zoom Prod.fst (fun (env : σ × τ) outer => (outer, env.2)) x))
      (Prog.zoom World.env (fun w env => { w with env := env }) x) :=
  fun _ => ⟨_, rfl, rfl, rfl⟩

theorem sameStreams_hidden {α : Type} (x : Prog σ ε α) :
    SameStreams
      (Prog.zoom (fun v : AsyncWorld (σ × τ) => v.world.env)
        (fun v env => { v with world := { v.world with env := env } })
        (Prog.zoom Prod.fst (fun env outer => (outer, env.2)) x))
      (Prog.zoom (fun v : AsyncWorld σ => v.world.env)
        (fun v env => { v with world := { v.world with env := env } }) x) :=
  fun _ => ⟨_, rfl, rfl, rfl⟩

/-! ## The asynchronous backend -/

section Anyio

variable (io : Anyio σ) (sink : Sink σ τ)

theorem sameStreams_verifyStream (stream : StreamId) {address : Address} {port : ℤ}
    (hport : address.port U = .ok port) :
    SameStreams (verifyStream U io.beside stream address (some sink.observer))
      (verifyStream U io stream address none) := by
  refine (sameStreams_callStream _ _).bind fun remote => ?_
  cases remote with
  | none => exact .pure _
  | some sockaddr =>
      refine (Prog.Follows.ofExcept _).bind fun peer => ?_
      refine .ite ((sameStreams_shared (sameVerdict_reportPeer sink hport _ _)).bind fun _ => .throw _) ?_
      exact sameStreams_shared (sameVerdict_reportPeer sink hport _ _)

theorem sameStreams_admitStream (stream : StreamId) {address : Address} {port : ℤ}
    (hport : address.port U = .ok port) (options : TcpOptions) :
    SameStreams (admitStream U io.beside stream address options (some sink.observer))
      (admitStream U io stream address options none) := by
  refine Prog.Follows.bind (Prog.Follows.tryCatch ?_ fun e => ?_) fun _ => .pure _
  · exact (Prog.Follows.forM (fun _ => sameStreams_callStream _ _) _).bind fun _ =>
      sameStreams_verifyStream io sink stream hport
  · exact (sameStreams_callStream _ _).bind fun _ => .throw _

theorem sameStreams_openStream (address : Address) (options : TcpOptions) :
    SameStreams (τ := τ) (openStream U io.beside address options) (openStream U io address options) := by
  refine (Prog.Follows.ofExcept _).bind fun port => ?_
  have hstream : SameStreams (σ := σ) (τ := τ) (ε := Exc) newStream newStream := fun _ => ⟨_, rfl, rfl, rfl⟩
  exact hstream.bind fun stream => (sameStreams_callStream _ _).bind fun _ => .pure _

/-- A stream was opened to an address that has a port. -/
theorem port_of_openStream {address : Address} {options : TcpOptions} {v : AsyncWorld σ} {stream : StreamId}
    (h : ((openStream U io address options).exec v).1 = .ok stream) : ∃ port, address.port U = .ok port := by
  cases hport : address.port U with
  | ok port => exact ⟨port, rfl⟩
  | error e =>
      rw [openStream, hport] at h
      cases h

theorem sameStreams_reachFrom (options : TcpOptions) (message : List Str → Str) (attempted : List Address)
    (failures : List Str) (onlyTimeouts : Bool) :
    SameStreams (reachFrom U io.beside options (some sink.observer) message attempted failures onlyTimeouts)
      (reachFrom U io options none message attempted failures onlyTimeouts) := by
  induction attempted generalizing failures onlyTimeouts with
  | nil => exact .throw _
  | cons address attempted ih =>
      rw [reachFrom, reachFrom]
      refine (sameStreams_openStream io address options).attempt.bind_of_returns fun v opened hopened => ?_
      cases opened with
      | ok stream =>
          obtain ⟨port, hport⟩ := port_of_openStream io (Except.ok.inj hopened)
          exact (sameStreams_admitStream io sink stream hport options).mapError
      | error failed =>
          refine .ite ?_ (.ite ?_ (.throw _))
          · exact (Prog.Follows.ofExcept _).mapError.bind fun _ => ih _ _
          · exact (Prog.Follows.ofExcept _).mapError.bind fun _ => ih _ _

theorem AsyncSafeBackend.sameStreams_connectTcp (resolver : Resolver σ) (host : Str) (port : ℤ)
    (options : TcpOptions) :
    SameStreams (AsyncSafeBackend.connectTcp U p resolver.beside io.beside (some sink.observer) host port options)
      (AsyncSafeBackend.connectTcp U p resolver io none host port options) := by
  refine (Prog.Follows.ofExcept _).mapError.bind fun _ => ?_
  have hresolved : SameVerdict (resolve U p (originTarget U host port) resolver.beside (some sink.observer))
      (resolve U p (originTarget U host port) resolver none) :=
    sameVerdict_resolve p _ resolver (sameVerdict_report sink)
  refine (sameStreams_shared hresolved).attempt.bind fun looked => ?_
  cases looked with
  | error e => exact .ite (.throw _) (.throw _)
  | ok addresses =>
      refine (Prog.Follows.ofExcept _).mapError.bind fun _ => ?_
      exact sameStreams_reachFrom io sink options _ _ _ _

end Anyio

/-! ## The blocking seams -/

section Kernel

variable {kernel : Kernel σ} (hkernel : kernel.ConnectsToPorts) (sink : Sink σ τ) (resolver : Resolver σ)
include hkernel

theorem sameVerdict_resolve_connect (target : Target) (options : ConnectOptions) :
    SameVerdict
      (do
        let addresses ← resolve U p target resolver.beside (some sink.observer)
        connect U p kernel.beside addresses options (some sink.observer))
      (do
        let addresses ← resolve U p target resolver none
        connect U p kernel addresses options none) := by
  have hresolved : SameVerdict (resolve U p target resolver.beside (some sink.observer))
      (resolve U p target resolver none) := sameVerdict_resolve p target resolver (sameVerdict_report sink)
  exact hresolved.bind fun addresses => sameVerdict_connect p hkernel addresses options sink

theorem SafeBackend.follows_connectTcp_bare (host : Str) (port : ℤ) (options : TcpOptions) :
    Prog.Follows World.unobserved (fun _ => ())
      (SafeBackend.connectTcp U p resolver.beside kernel.beside (some sink.observer) host port options)
      (SafeBackend.connectTcp U p resolver kernel none host port options) :=
  (Prog.Follows.ofExcept _).mapError.bind fun _ =>
    (sameVerdict_resolve_connect hkernel sink resolver _ _).mapError

theorem follows_pinnedSocket_bare (connection : HTTPConnection) (audit : Prog σ Exc Unit) :
    Prog.Follows World.unobserved (fun _ => ())
      (pinnedSocket U p connection resolver.beside kernel.beside (beside audit) (some sink.observer))
      (pinnedSocket U p connection resolver kernel audit none) := by
  refine .ite (.throw _) ?_
  refine (sameVerdict_checkUrl p (sameVerdict_report sink) _).mapError.bind fun target => ?_
  refine (sameVerdict_resolve_connect hkernel sink resolver _ _).mapError.bind fun opened => ?_
  exact (follows_hidden audit).mapError.bind fun _ => .pure _

end Kernel

/-! ## The call -/

/-- What a call has done, by what is kept of the world it left behind. -/
def Called.onto (get : ω → ω') (called : Called υ ω ε) : Called υ ω' ε :=
  { sent := called.sent, redirects := called.redirects, outcome := called.outcome, world := get called.world }

/-- A request is sent alike where the seam connects alike. -/
theorem Exchange.follows_send_bare {part : ω → ω'} {get : ω → σ × τ} {set : ω → σ × τ → ω} {bareGet : ω' → σ}
    {bareSet : ω' → σ → ω'} {seam : κ → Prog ω ε γ} {bareSeam : κ → Prog ω' ε γ} (exchange : Exchange σ υ κ γ ε)
    (houtside : ∀ {α : Type} (x : Prog σ ε α), Prog.Follows part (fun _ => ())
      (Prog.zoom get set (Prog.zoom Prod.fst (fun env outer => (outer, env.2)) x)) (Prog.zoom bareGet bareSet x))
    (hseam : ∀ target, Prog.Follows part (fun _ => ()) (seam target) (bareSeam target)) (request : Request υ) :
    Prog.Follows part (fun _ => ()) (exchange.beside.send get set seam request)
      (exchange.send bareGet bareSet bareSeam request) := by
  refine (houtside _).bind fun needed => ?_
  cases needed with
  | none => exact houtside _
  | some target => exact (hseam target).bind fun connection => houtside _

section Call

variable {part : ω → ω'} {rest : ω → ρ} {observed : Option (Observer ω)} {bare : Option (Observer ω')}
  (hreports : ∀ decision, Prog.Follows part rest (report observed decision) (report bare decision))
include hreports

/-- A hop is built, or refused, alike where reports are alike. -/
theorem Agent.follows_follow (agent : Agent) (history : List υ) (request : Request υ) (hop : Hop υ) :
    Prog.Follows part rest (agent.follow U C p observed history request hop)
      (agent.follow U C p bare history request hop) := by
  have hrefuse : ∀ {α : Type} (chain : List Str), Prog.Follows part rest
      (refuseChain p chain observed : Prog ω Exc α) (refuseChain p chain bare) :=
    fun _ => (hreports _).bind fun _ => .throw _
  have hcap : Prog.Follows part rest (checkRedirectCap C p history request.url observed)
      (checkRedirectCap C p history request.url bare) := by
    unfold checkRedirectCap
    exact .ite (hrefuse _) (.pure _)
  cases agent with
  | client => exact hcap.bind fun _ => .ofExcept _
  | asyncClient => exact hcap.bind fun _ => .ofExcept _
  | session =>
      rw [Agent.follow, Agent.follow, Session.resolveRedirect, Session.resolveRedirect]
      exact .ite (hrefuse _) ((Prog.Follows.ofExcept _).bind fun _ => .pure _)

/-- A call does what the other does, where requests are sent alike and reports are alike. -/
theorem Agent.onto_call {send : Request υ → Prog ω ε (Option (Hop υ))}
    {bareSend : Request υ → Prog ω' ε (Option (Hop υ))}
    (hsend : ∀ request, Prog.Follows part rest (send request) (bareSend request)) (agent : Agent) (own : ℤ)
    (following : Bool) (history : List υ) (request : Request υ) (w : ω) :
    (agent.call U C p own following observed send history request w).onto part =
      agent.call U C p own following bare bareSend history request (part w) := by
  -- one step of the other, from where this one has come
  have hsent : ∀ {request w result w'}, (send request).exec w = (result, w') →
      (bareSend request).exec (part w) = (result, part w') := by
    intro request w result w' h
    obtain ⟨w₁, hexec, hpart, -⟩ := hsend request w
    rw [hexec] at h
    cases h
    exact Prod.ext rfl hpart.symm
  have hfollowed : ∀ {history request hop w result w'},
      (agent.follow U C p observed history request hop).exec w = (result, w') →
      (agent.follow U C p bare history request hop).exec (part w) = (result, part w') := by
    intro history request hop w result w' h
    obtain ⟨w₁, hexec, hpart, -⟩ :=
      Agent.follows_follow (U := U) (C := C) (p := p) hreports agent history request hop w
    rw [hexec] at h
    cases h
    exact Prod.ext rfl hpart.symm
  induction history, request, w using Agent.call.induct U C p agent own following observed send with
  | case1 history request w hgives =>
      rw [Agent.call, if_pos hgives, Agent.call, if_pos hgives]
      rfl
  | case2 history request w hgives e w₁ hsend₁ =>
      rw [Agent.call, if_neg hgives, hsend₁, Agent.call, if_neg hgives, hsent hsend₁]
      rfl
  | case3 history request w hgives w₁ hsend₁ =>
      rw [Agent.call, if_neg hgives, hsend₁, Agent.call, if_neg hgives, hsent hsend₁]
      rfl
  | case4 history request w hgives hop w₁ hsend₁ e w₂ hfollow =>
      rw [Agent.call_of_refused hgives hsend₁ hfollow,
        Agent.call_of_refused hgives (hsent hsend₁) (hfollowed hfollow)]
      rfl
  | case5 history request w hgives hop w₁ hsend₁ next w₂ hfollow hfollowing ih =>
      rw [Agent.call_of_built hgives hsend₁ hfollow, Agent.call_of_built hgives (hsent hsend₁) (hfollowed hfollow),
        if_pos hfollowing, if_pos hfollowing, ← ih]
      rfl
  | case6 history request w hgives hop w₁ hsend₁ next w₂ hfollow hfollowing =>
      rw [Agent.call_of_built hgives hsend₁ hfollow, Agent.call_of_built hgives (hsent hsend₁) (hfollowed hfollow),
        if_neg hfollowing, if_neg hfollowing]
      rfl

end Call

/-- A report of an asynchronous run is a report of the run inside it. -/
theorem report_alongside (observer : Option (Observer σ)) (decision : Decision) :
    report (alongside observer) decision = shared (report (outside observer) decision) := by
  cases observer with
  | none => rfl
  | some callback =>
      refine funext fun v => ?_
      change (tryCatch _ _ : Prog (AsyncWorld σ) Exc Unit).exec v = (shared (tryCatch _ _)).exec v
      simp only [Prog.exec_tryCatch, shared, Prog.exec_zoom]
      cases (callback decision).exec v.world.env with
      | mk result env =>
          cases result with
          | ok u => rfl
          | error e =>
              dsimp only
              split
              · rfl
              · rfl

/-- **Observers change no call.** On each of the three clients, whatever the server answers and whatever a sink does
with the decisions of a call, the call sends the same requests, follows the same redirects, ends alike, and leaves the
same outside, the same sockets or streams and the same calls to the kernel or the network library, as the call that
reports to nobody. -/
theorem call_unobserved (U : Unicode) (C : HttpLibraries υ) (p : Policy) (own : ℤ) (following : Bool)
    (resolver : Resolver σ) (sink : Sink σ τ) (request : Request υ) :
    (∀ (kernel : Kernel σ) exchange (w : World (σ × τ)), kernel.ConnectsToPorts →
      (Client.call U C p own following resolver.beside kernel.beside (some sink.observer) exchange.beside request
        w).onto World.unobserved =
        Client.call U C p own following resolver kernel none exchange request w.unobserved) ∧
    (∀ io exchange (v : AsyncWorld (σ × τ)),
      (AsyncClient.call U C p own following resolver.beside io.beside (some sink.observer) exchange.beside request
        v).onto AsyncWorld.unobserved =
        AsyncClient.call U C p own following resolver io none exchange request v.unobserved) ∧
    ∀ (kernel : Kernel σ) audit exchange (w : World (σ × τ)), kernel.ConnectsToPorts →
      (Session.call U C p own following resolver.beside kernel.beside (beside audit) (some sink.observer)
        exchange.beside request w).onto World.unobserved =
        Session.call U C p own following resolver kernel audit none exchange request w.unobserved := by
  refine ⟨fun kernel exchange w hkernel => ?_, fun io exchange v => ?_, fun kernel audit exchange w hkernel => ?_⟩
  · refine Agent.onto_call (sameVerdict_report sink) (fun request => ?_) .client own following []
      request w
    refine (sameVerdict_checkUrl p (sameVerdict_report sink) _).mapError.bind fun _ => ?_
    refine exchange.follows_send_bare follows_hidden (fun args => ?_) request
    exact SafeBackend.follows_connectTcp_bare hkernel sink resolver args.host args.port args.options
  · have hreports : ∀ decision, SameStreams (report (alongside (some sink.observer)) decision)
        (report (alongside none) decision) := by
      intro decision
      rw [report_alongside]
      exact sameStreams_shared (sameVerdict_report sink decision)
    refine Agent.onto_call hreports (fun request => ?_) .asyncClient own following [] request v
    refine (sameStreams_shared (sameVerdict_checkUrl p (sameVerdict_report sink) _)).mapError.bind fun _ => ?_
    refine exchange.follows_send_bare sameStreams_hidden (fun args => ?_) request
    exact AsyncSafeBackend.sameStreams_connectTcp io sink resolver args.host args.port args.options
  · refine Agent.onto_call (sameVerdict_report sink) (fun request => ?_) .session own following []
      request w
    refine (sameVerdict_checkUrl p (sameVerdict_report sink) _).mapError.bind fun _ => ?_
    refine exchange.follows_send_bare follows_hidden (fun connection => ?_) request
    exact follows_pinnedSocket_bare hkernel sink resolver connection audit

/-- A library that connects to the host of every request, and reads no redirect. -/
def straightExchange : Exchange Unit Location TcpArguments SockId BackendExc where
  dial request := pure (some { host := request.url.host, port := 443, options := {} })
  converse _ _ := pure none

/-- `GET https://a/`. -/
def requestA : Request Location :=
  { method := text "GET", url := { scheme := text "https", host := text "a", port := none, path := text "/" },
    headers := [] }

/-- With a watch around a sink that raises at every decision, a call ends as it does without an observer. -/
theorem call_unobserved_brokenSink :
    (Client.call Unicode.ascii plainLibraries Policy.default 20 true
      (Resolver.beside fun _ _ _ _ _ _ => pure listedTwice) pairKernel.beside
      (some (brokenSink.watched fun _ n => n).observer) straightExchange.beside requestA watchedWorld).outcome =
        .ok () := by
  obtain ⟨hclient, -, -⟩ := call_unobserved Unicode.ascii plainLibraries Policy.default 20 true
    (fun _ _ _ _ _ _ => pure listedTwice) (brokenSink.watched fun _ n => n) requestA
  have hsame := congrArg Called.outcome
    (hclient pairKernel straightExchange watchedWorld connectsToPorts_pairKernel)
  refine hsame.trans ?_
  -- without an observer the one request is answered, and that is all
  have hanswer : ((SafeTransport.handleRequest Unicode.ascii plainLibraries Policy.default
      (fun _ _ _ _ _ _ => pure listedTwice) pairKernel none straightExchange requestA).exec
      watchedWorld.unobserved).1.toOption.map Option.isNone = some true := by
    decide +kernel
  rw [Client.call, Agent.call, if_neg (by decide)]
  revert hanswer
  generalize (SafeTransport.handleRequest _ _ _ _ _ _ _ requestA).exec _ = run
  rcases run with ⟨_ | _ | hop, w⟩
  · rintro ⟨⟩
  · intro _
    rfl
  · rintro ⟨⟩

end SsrfGuard
