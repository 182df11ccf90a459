import SsrfGuard.SocketCost
import SsrfGuard.Redirect.Chain

/-! # One call

A call on a client sends a request, and after each redirect the next one, until a response is not a redirect
or somebody gives up. The HTTP library drives this loop, each in its own way: httpx compares the responses so
far with its own `max_redirects` before it sends, requests compares the hops it has followed with the
attribute the session has set. The hooks of the library count in both. Whatever the server answers, and
whatever the limit of the client, no more requests are sent than the policy allows. -/

namespace SsrfGuard

variable {σ υ ω κ γ ε : Type} (U : Unicode) (C : HttpLibraries υ) (p : Policy)

/-! ## The loop -/

/-- How a call fails. -/
inductive CallExc (ε : Type)
  /-- A hook of the library has raised. -/
  | raised (e : Exc)
  /-- `httpx.TooManyRedirects`: the client's own limit. -/
  | tooManyRedirects
  /-- A request could not be sent, or its response not be read. -/
  | sending (e : ε)

/-- A call that was made. -/
structure Called (υ ω ε : Type) where
  /-- The requests that were sent, in order. -/
  sent : List (Request υ)
  /-- The redirects the server answered with, in order. -/
  redirects : List (Hop υ)
  /-- How it ended: with a response, or not. -/
  outcome : Except (CallExc ε) Unit
  /-- The world it left behind. -/
  world : ω

/-- Whether the HTTP library gives up before it sends: httpx does when there are more responses than its own
`max_redirects`. In place of this number requests reads the one the session has set, and only once a response
has redirected. -/
def Agent.givesUp (agent : Agent) (own : ℤ) (history : List υ) : Bool :=
  match agent with
  | .client | .asyncClient => own < history.length
  | .session => false

/-- One call from a request on, after the responses in `history`: send the request; when the response
redirects, build the next one, and send it too when redirects are followed. -/
def Agent.call (agent : Agent) (own : ℤ) (following : Bool) (observer : Option (Observer ω))
    (send : Request υ → Prog ω ε (Option (Hop υ))) (history : List υ) (request : Request υ) (w : ω) :
    Called υ ω ε :=
  if agent.givesUp own history then
    { sent := [], redirects := [], outcome := .error .tooManyRedirects, world := w }
  else
    match (send request).exec w with
    | (.error e, w) => { sent := [request], redirects := [], outcome := .error (.sending e), world := w }
    | (.ok none, w) => { sent := [request], redirects := [], outcome := .ok (), world := w }
    | (.ok (some hop), w) =>
      match _h : (agent.follow U C p observer history request hop).exec w with
      | (.error e, w) => { sent := [request], redirects := [hop], outcome := .error (.raised e), world := w }
      | (.ok next, w) =>
        if following then
          let rest := agent.call own following observer send (history ++ [request.url]) next w
          { rest with sent := request :: rest.sent, redirects := hop :: rest.redirects }
        else { sent := [request], redirects := [hop], outcome := .ok (), world := w }
termination_by p.maxRedirects.toNat - history.length
decreasing_by
  have hbelow := Agent.lt_of_follow _h
  rw [List.length_append, List.length_singleton]
  omega

section Equations

variable {U C p}
variable {agent : Agent} {own : ℤ} {following : Bool} {observer : Option (Observer ω)}
  {send : Request υ → Prog ω ε (Option (Hop υ))} {history : List υ} {request : Request υ} {hop : Hop υ}
  {w w₁ w₂ : ω}

/-- A call whose next hop is refused. -/
theorem Agent.call_of_refused {e : Exc} (hgives : ¬ agent.givesUp own history = true)
    (hsent : (send request).exec w = (.ok (some hop), w₁))
    (hfollow : (agent.follow U C p observer history request hop).exec w₁ = (.error e, w₂)) :
    agent.call U C p own following observer send history request w =
      { sent := [request], redirects := [hop], outcome := .error (.raised e), world := w₂ } := by
  rw [Agent.call, if_neg hgives, hsent]
  dsimp only
  split
  · next hfollow' =>
    rw [hfollow] at hfollow'
    cases hfollow'
    rfl
  · next hfollow' =>
    rw [hfollow] at hfollow'
    cases hfollow'

/-- A call whose next hop is built. -/
theorem Agent.call_of_built {next : Request υ} (hgives : ¬ agent.givesUp own history = true)
    (hsent : (send request).exec w = (.ok (some hop), w₁))
    (hfollow : (agent.follow U C p observer history request hop).exec w₁ = (.ok next, w₂)) :
    agent.call U C p own following observer send history request w =
      if following then
        let rest := agent.call U C p own following observer send (history ++ [request.url]) next w₂
        { rest with sent := request :: rest.sent, redirects := hop :: rest.redirects }
      else { sent := [request], redirects := [hop], outcome := .ok (), world := w₂ } := by
  rw [Agent.call, if_neg hgives, hsent]
  dsimp only
  split
  · next hfollow' =>
    rw [hfollow] at hfollow'
    cases hfollow'
  · next hfollow' =>
    rw [hfollow] at hfollow'
    cases hfollow'
    rfl

end Equations

/-! ## The three clients -/

/-- What the HTTP library does around the seam to send one request. Connections are not retried, so it asks
the seam for one at most. -/
structure Exchange (σ υ κ γ ε : Type) where
  /-- What to connect to, unless a connection of the pool serves. -/
  dial : Request υ → Prog σ ε (Option κ)
  /-- Send the request over the connection opened for it, or one of the pool, and read where the response
  redirects to. -/
  converse : Request υ → Option γ → Prog σ ε (Option (Hop υ))

/-- Send one request, with a connection from the seam when one is needed. -/
def Exchange.send (exchange : Exchange σ υ κ γ ε) (get : ω → σ) (set : ω → σ → ω) (seam : κ → Prog ω ε γ)
    (request : Request υ) : Prog ω ε (Option (Hop υ)) := do
  let needed ← Prog.zoom get set (exchange.dial request)
  match needed with
  | none => Prog.zoom get set (exchange.converse request none)
  | some target => do
    let connection ← seam target
    Prog.zoom get set (exchange.converse request (some connection))

/-- The arguments of `connect_tcp`. -/
structure TcpArguments where
  /-- `host`. -/
  host : Str
  /-- `port`. -/
  port : ℤ
  /-- The others. -/
  options : TcpOptions

/-- `SafeTransport.handle_request`: check the URL, and send. -/
def SafeTransport.handleRequest (resolver : Resolver σ) (kernel : Kernel σ) (observer : Option (Observer σ))
    (exchange : Exchange σ υ TcpArguments SockId BackendExc) (request : Request υ) :
    Prog (World σ) BackendExc (Option (Hop υ)) := do
  let _ ← Prog.mapError .untranslated (p.checkUrl U (C.str request.url) (outside observer))
  exchange.send World.env (fun w env => { w with env := env })
    (fun args => SafeBackend.connectTcp U p resolver kernel observer args.host args.port args.options) request

/-- `AsyncSafeTransport.handle_async_request`. -/
def AsyncSafeTransport.handleAsyncRequest (resolver : Resolver σ) (io : Anyio σ)
    (observer : Option (Observer σ)) (exchange : Exchange σ υ TcpArguments StreamId BackendExc)
    (request : Request υ) : Prog (AsyncWorld σ) BackendExc (Option (Hop υ)) := do
  let _ ← Prog.mapError .untranslated (shared (p.checkUrl U (C.str request.url) (outside observer)))
  exchange.send (fun v => v.world.env) (fun v env => { v with world := { v.world with env := env } })
    (fun args => AsyncSafeBackend.connectTcp U p resolver io observer args.host args.port args.options) request

/-- `Session.get_adapter`, which checks the URL, and then `SafeAdapter.send`, where no proxy applies. -/
def SafeAdapter.send (resolver : Resolver σ) (kernel : Kernel σ) (audit : Prog σ Exc Unit)
    (observer : Option (Observer σ)) (exchange : Exchange σ υ HTTPConnection SockId SeamExc)
    (request : Request υ) : Prog (World σ) SeamExc (Option (Hop υ)) := do
  let _ ← Prog.mapError .untranslated (p.checkUrl U (C.str request.url) (outside observer))
  exchange.send World.env (fun w env => { w with env := env })
    (fun connection => pinnedSocket U p connection resolver kernel audit observer) request

/-- An observer beside an asynchronous run. -/
def alongside (observer : Option (Observer σ)) : Option (Observer (AsyncWorld σ)) :=
  (outside observer).map fun callback decision => shared (callback decision)

/-- A call on `Client`. -/
def Client.call (own : ℤ) (following : Bool) (resolver : Resolver σ) (kernel : Kernel σ)
    (observer : Option (Observer σ)) (exchange : Exchange σ υ TcpArguments SockId BackendExc)
    (request : Request υ) (w : World σ) : Called υ (World σ) BackendExc :=
  Agent.call U C p .client own following (outside observer)
    (SafeTransport.handleRequest U C p resolver kernel observer exchange) [] request w

/-- A call on `AsyncClient`. -/
def AsyncClient.call (own : ℤ) (following : Bool) (resolver : Resolver σ) (io : Anyio σ)
    (observer : Option (Observer σ)) (exchange : Exchange σ υ TcpArguments StreamId BackendExc)
    (request : Request υ) (v : AsyncWorld σ) : Called υ (AsyncWorld σ) BackendExc :=
  Agent.call U C p .asyncClient own following (alongside observer)
    (AsyncSafeTransport.handleAsyncRequest U C p resolver io observer exchange) [] request v

/-- A call on `Session`. -/
def Session.call (own : ℤ) (following : Bool) (resolver : Resolver σ) (kernel : Kernel σ)
    (audit : Prog σ Exc Unit) (observer : Option (Observer σ))
    (exchange : Exchange σ υ HTTPConnection SockId SeamExc) (request : Request υ) (w : World σ) :
    Called υ (World σ) SeamExc :=
  Agent.call U C p .session own following (outside observer)
    (SafeAdapter.send U C p resolver kernel audit observer exchange) [] request w

/-! ## The cap holds -/

variable {U C p}

/-- A call from a world on and after `n` responses stays within the policy: in its requests, in how it ends
when the server goes on redirecting, and in its sockets. -/
structure Called.CappedFrom (n : ℕ) (p : Policy) (own : ℤ) (observer : Option (Observer ω))
    (opened : ω → ℕ) (w : ω) (called : Called υ ω ε) : Prop where
  /-- The requests and the responses before them are no more than the redirects allowed, and one. -/
  requests : (n : ℤ) + called.sent.length ≤ p.maxRedirects + 1
  /-- A chain that would go further is refused before the request over the limit. -/
  refused : p.maxRedirects ≤ own → p.maxRedirects < n + called.redirects.length →
    (n : ℤ) + called.sent.length = p.maxRedirects + 1 ∧
      ∃ e, called.outcome = .error (.raised e) ∧ RefusesChain p observer e
  /-- Each request opens no more sockets than may be attempted. -/
  sockets : opened called.world ≤ opened w + called.sent.length * p.maxConnectionAttempts.toNat

/-- Building a hop opens no socket. -/
theorem Agent.costs_follow {opened : ω → ℕ} {observer : Option (Observer ω)}
    (hobserver : ∀ callback, observer = some callback → ∀ decision, Prog.Costs opened 0 (callback decision))
    (agent : Agent) (history : List υ) (request : Request υ) (hop : Hop υ) :
    Prog.Costs opened 0 (agent.follow U C p observer history request hop) := by
  have hrefuse : ∀ {α : Type} (chain : List Str),
      Prog.Costs opened 0 (refuseChain p chain observer : Prog ω Exc α) :=
    fun _ => (costs_report hobserver _).free_bind fun _ => .throw _
  have hcap : Prog.Costs opened 0 (checkRedirectCap C p history request.url observer) :=
    .ite (hrefuse _) (.pure _)
  cases agent with
  | client => exact hcap.free_bind fun _ => .ofExcept _
  | asyncClient => exact hcap.free_bind fun _ => .ofExcept _
  | session => exact .ite (hrefuse _) ((Prog.Costs.ofExcept _).free_bind fun _ => .pure _)

section CappedFrom

variable {n : ℕ} {own : ℤ} {observer : Option (Observer ω)} {opened : ω → ℕ} {w w' : ω}
  {request : Request υ} {hop : Hop υ}

/-- A call that has sent one request, and was not redirected beyond the cap. -/
theorem Called.cappedFrom_single {redirects : List (Hop υ)} {outcome : Except (CallExc ε) Unit}
    (hn : (n : ℤ) ≤ p.maxRedirects) (hlength : (n : ℤ) + redirects.length ≤ p.maxRedirects)
    (hsockets : opened w' ≤ opened w + p.maxConnectionAttempts.toNat) :
    ({ sent := [request], redirects := redirects, outcome := outcome, world := w' } :
      Called υ ω ε).CappedFrom n p own observer opened w := by
  refine ⟨?_, fun _ hmore => absurd hlength (not_le.mpr hmore), ?_⟩
  · rw [List.length_singleton]
    push_cast
    omega
  · rw [List.length_singleton, Nat.one_mul]
    exact hsockets

/-- A call whose first redirect was refused. -/
theorem Called.cappedFrom_refused {e : Exc} (hn : (n : ℤ) ≤ p.maxRedirects)
    (hrefuses : p.maxRedirects ≤ n → RefusesChain p observer e)
    (hsockets : opened w' ≤ opened w + p.maxConnectionAttempts.toNat) :
    ({ sent := [request], redirects := [hop], outcome := .error (.raised e), world := w' } :
      Called υ ω ε).CappedFrom n p own observer opened w := by
  refine ⟨?_, fun _ hmore => ?_, ?_⟩
  · rw [List.length_singleton]
    push_cast
    omega
  · rw [List.length_singleton] at hmore ⊢
    push_cast at hmore ⊢
    exact ⟨by omega, e, rfl, hrefuses (by omega)⟩
  · rw [List.length_singleton, Nat.one_mul]
    exact hsockets

/-- One more request in front of a call. -/
theorem Called.CappedFrom.cons {rest : Called υ ω ε}
    (hrest : rest.CappedFrom (n + 1) p own observer opened w')
    (hsockets : opened w' ≤ opened w + p.maxConnectionAttempts.toNat) :
    ({ rest with sent := request :: rest.sent, redirects := hop :: rest.redirects } :
      Called υ ω ε).CappedFrom n p own observer opened w := by
  obtain ⟨hrequests, hrefused, hopened⟩ := hrest
  push_cast at hrequests hrefused
  refine ⟨?_, fun hown hmore => ?_, ?_⟩
  · rw [List.length_cons]
    push_cast
    omega
  · rw [List.length_cons] at hmore ⊢
    push_cast at hmore ⊢
    obtain ⟨hlength, hraised⟩ := hrefused hown (by omega)
    exact ⟨by omega, hraised⟩
  · rw [List.length_cons, Nat.succ_mul]
    dsimp only
    omega

end CappedFrom

/-- **The loop stays within the policy**, whatever is sent and whatever comes back. -/
theorem Agent.cappedFrom_call {opened : ω → ℕ} {observer : Option (Observer ω)}
    (hobserver : ∀ callback, observer = some callback → ∀ decision, Prog.Costs opened 0 (callback decision))
    {send : Request υ → Prog ω ε (Option (Hop υ))}
    (hsend : ∀ request, Prog.Costs opened p.maxConnectionAttempts.toNat (send request)) (agent : Agent)
    (own : ℤ) (following : Bool) (history : List υ) (request : Request υ) (w : ω)
    (hhistory : (history.length : ℤ) ≤ p.maxRedirects) :
    (agent.call U C p own following observer send history request w).CappedFrom history.length p own
      observer opened w := by
  -- the request that was sent, and the hop that was built after it
  have hstep : ∀ {history request hop w w₁ w₂ result}, (send request).exec w = (.ok (some hop), w₁) →
      (agent.follow U C p observer history request hop).exec w₁ = (result, w₂) →
      opened w₂ ≤ opened w + p.maxConnectionAttempts.toNat := by
    intro history request hop w w₁ w₂ result hsent hfollow
    have hcost := hsend request w
    have hbuild := Agent.costs_follow (U := U) (C := C) (p := p) hobserver agent history request hop w₁
    rw [hsent] at hcost
    rw [hfollow] at hbuild
    dsimp only at hcost hbuild
    omega
  -- along the loop: the history grows by one response for each request
  induction history, request, w using Agent.call.induct U C p agent own following observer send with
  | case1 history request w hgives =>
      -- the library gave up below the cap, and nothing was sent
      rw [Agent.call, if_pos hgives]
      refine ⟨?_, fun _ hmore => ?_, ?_⟩
      · rw [List.length_nil]
        omega
      · rw [List.length_nil] at hmore
        omega
      · rw [List.length_nil, Nat.zero_mul, Nat.add_zero]
  | case2 history request w hgives e w₁ hsent =>
      have hcost := hsend request w
      rw [hsent] at hcost
      rw [Agent.call, if_neg hgives, hsent]
      exact Called.cappedFrom_single hhistory (by simpa using hhistory) hcost
  | case3 history request w hgives w₁ hsent =>
      have hcost := hsend request w
      rw [hsent] at hcost
      rw [Agent.call, if_neg hgives, hsent]
      exact Called.cappedFrom_single hhistory (by simpa using hhistory) hcost
  | case4 history request w hgives hop w₁ hsent e w₂ hfollow =>
      -- the hop was refused: at the cap that is the cap's doing
      rw [Agent.call_of_refused hgives hsent hfollow]
      refine Called.cappedFrom_refused hhistory (fun hcap => ?_) (hstep hsent hfollow)
      obtain ⟨e', w', hexec, hrefuses⟩ :=
        @Agent.follow_of_le _ _ U C p agent observer history request hop hcap w₁
      rw [hfollow] at hexec
      cases hexec
      exact hrefuses
  | case5 history request w hgives hop w₁ hsent next w₂ hfollow hfollowing ih =>
      have hbelow := Agent.lt_of_follow hfollow
      rw [List.length_append, List.length_singleton] at ih
      rw [Agent.call_of_built hgives hsent hfollow, if_pos hfollowing]
      refine Called.CappedFrom.cons (ih ?_) (hstep hsent hfollow)
      push_cast
      omega
  | case6 history request w hgives hop w₁ hsent next w₂ hfollow hfollowing =>
      have hbelow := Agent.lt_of_follow hfollow
      rw [Agent.call_of_built hgives hsent hfollow, if_neg hfollowing]
      refine Called.cappedFrom_single hhistory ?_ (hstep hsent hfollow)
      rw [List.length_singleton]
      push_cast
      omega

/-! ## One connection for each request -/

/-- A request opens what the seam opens. -/
theorem Exchange.costs_send {opened : ω → ℕ} {n : ℕ} {get : ω → σ} {set : ω → σ → ω}
    (exchange : Exchange σ υ κ γ ε) (hset : ∀ w env, opened (set w env) = opened w) {seam : κ → Prog ω ε γ}
    (hseam : ∀ target, Prog.Costs opened n (seam target)) (request : Request υ) :
    Prog.Costs opened n (exchange.send get set seam request) := by
  have houtside : ∀ {α : Type} (x : Prog σ ε α), Prog.Costs opened 0 (Prog.zoom get set x) :=
    fun x => .free fun w => hset w _
  refine (houtside _).free_bind fun needed => ?_
  cases needed with
  | none => exact (houtside _).mono (Nat.zero_le _)
  | some target => exact (hseam target).bind_free fun _ => houtside _

theorem costs_alongside {observer : Option (Observer σ)} (callback : Observer (AsyncWorld σ))
    (h : alongside observer = some callback) (decision : Decision) :
    Prog.Costs AsyncWorld.opened 0 (callback decision) := by
  obtain ⟨inner, hinner, rfl⟩ := Option.map_eq_some_iff.mp h
  exact costs_shared (costs_outside inner hinner decision)

/-- A call stays within the policy: in its requests, in how it ends when the server goes on redirecting, and
in its sockets. -/
structure Called.Capped (p : Policy) (own : ℤ) (observer : Option (Observer ω)) (opened : ω → ℕ) (w : ω)
    (called : Called υ ω ε) : Prop where
  /-- There are no more requests than redirects allowed, and one. -/
  requests : (called.sent.length : ℤ) ≤ p.maxRedirects + 1
  /-- Where the client's own limit is no lower than the policy's, a chain that would go further ends before
  the request over the limit, in `TooManyRedirectsError` or in what the observer raised outside
  `Exception`. -/
  refused : p.maxRedirects ≤ own → p.maxRedirects < called.redirects.length →
    (called.sent.length : ℤ) = p.maxRedirects + 1 ∧
      ∃ e, called.outcome = .error (.raised e) ∧ RefusesChain p observer e
  /-- There are no more sockets than attempts allowed for each request allowed. -/
  sockets : (opened called.world : ℤ) ≤
    opened w + (p.maxRedirects + 1) * p.maxConnectionAttempts

theorem Called.CappedFrom.capped {own : ℤ} {observer : Option (Observer ω)} {opened : ω → ℕ} {w : ω}
    {called : Called υ ω ε} (h : called.CappedFrom 0 p own observer opened w) :
    called.Capped p own observer opened w := by
  obtain ⟨hrequests, hrefused, hopened⟩ := h
  rw [Int.natCast_zero, Int.zero_add] at hrequests
  refine ⟨hrequests, fun hown hmore => ?_, ?_⟩
  · simpa using hrefused hown (by simpa using hmore)
  · have hattempts : 0 ≤ p.maxConnectionAttempts := (Int.zero_le_ofNat 1).trans p.wellFormed.attempts_pos
    have hrequested : (called.sent.length : ℤ) * p.maxConnectionAttempts ≤
        (p.maxRedirects + 1) * p.maxConnectionAttempts :=
      Int.mul_le_mul_of_nonneg_right hrequests hattempts
    have hcast : (opened called.world : ℤ) ≤
        opened w + called.sent.length * (p.maxConnectionAttempts.toNat : ℤ) := by
      exact_mod_cast hopened
    rw [Int.toNat_of_nonneg hattempts] at hcast
    omega

/-- **One call.** On each of the three clients, whatever the server answers, whatever the client's own limit
is and whether it follows redirects, a call sends at most `max_redirects + 1` requests; where its own limit
is no lower than the policy's, a chain that would go further ends in `TooManyRedirectsError` before the
request over the limit; and it opens at most `(max_redirects + 1) * max_connection_attempts` sockets. -/
theorem call_capped (U : Unicode) (C : HttpLibraries υ) (p : Policy) (own : ℤ) (following : Bool)
    (resolver : Resolver σ) (observer : Option (Observer σ)) (request : Request υ) :
    (∀ kernel exchange (w : World σ),
      (Client.call U C p own following resolver kernel observer exchange request w).Capped p own
        (outside observer) World.sockets w) ∧
    (∀ io exchange (v : AsyncWorld σ),
      (AsyncClient.call U C p own following resolver io observer exchange request v).Capped p own
        (alongside observer) AsyncWorld.opened v) ∧
    ∀ kernel audit exchange (w : World σ),
      (Session.call U C p own following resolver kernel audit observer exchange request w).Capped p own
        (outside observer) World.sockets w := by
  have hstart : ((([] : List υ).length : ℕ) : ℤ) ≤ p.maxRedirects := p.wellFormed.redirects_nonneg
  refine ⟨fun kernel exchange w => ?_, fun io exchange v => ?_, fun kernel audit exchange w => ?_⟩
  · refine (Agent.cappedFrom_call costs_outside (fun request => ?_) .client own following [] request w
      hstart).capped
    refine (costs_checkUrl p _ observer).mapError.free_bind fun _ => ?_
    refine exchange.costs_send (fun _ _ => ?_) (fun args => ?_) request
    · rfl
    · exact SafeBackend.costs_connectTcp p resolver kernel observer _ _ _
  · refine (Agent.cappedFrom_call costs_alongside (fun request => ?_) .asyncClient own following [] request
      v hstart).capped
    refine (costs_shared (costs_checkUrl p _ observer)).mapError.free_bind fun _ => ?_
    refine exchange.costs_send (fun _ _ => ?_) (fun args => ?_) request
    · rfl
    · exact AsyncSafeBackend.costs_connectTcp p resolver io observer _ _ _
  · refine (Agent.cappedFrom_call costs_outside (fun request => ?_) .session own following [] request w
      hstart).capped
    refine (costs_checkUrl p _ observer).mapError.free_bind fun _ => ?_
    refine exchange.costs_send (fun _ _ => ?_) (fun connection => ?_) request
    · rfl
    · exact costs_pinnedSocket p connection resolver kernel audit observer

end SsrfGuard
