import SsrfGuard.Httpx.StreamEgress
import SsrfGuard.Redirect.Call

/-! # What a whole call lets out

A call follows redirects, so it sends requests to URLs of the server's choosing, and the HTTP library decides when
it asks the seam for a connection and what for. Through all of it the calls to the resolver and the kernel follow
the protocol of the seam, a request whose URL is refused makes none, and no request makes more than one lookup. -/

namespace SsrfGuard

variable {σ υ ω κ γ ε τ : Type} {U : Unicode} {C : HttpLibraries υ} {p : Policy}

/-! ## Along a call -/

/-- Building a hop adds nothing to a log the observer does not write. -/
theorem Agent.adds_follow {log : ω → List τ} {observer : Option (Observer ω)}
    (hobserver : ∀ callback, observer = some callback → ∀ decision,
      Prog.Adds log (callback decision) fun _ added => added = [])
    (agent : Agent) (history : List υ) (request : Request υ) (hop : Hop υ) :
    Prog.Adds log (agent.follow U C p observer history request hop) fun _ added => added = [] := by
  have hreport : ∀ decision, Prog.Adds log (report observer decision) fun _ added => added = [] := by
    intro decision
    cases observer with
    | none => exact Prog.Adds.pure rfl
    | some callback =>
        refine Prog.Adds.tryCatch (hobserver callback rfl decision) (fun _ _ => id) ?_
        rintro e first rfl
        split
        · exact Prog.Adds.pure rfl
        · exact Prog.Adds.throw rfl
  have hrefuse : ∀ {α : Type} (chain : List Str),
      Prog.Adds log (refuseChain p chain observer : Prog ω Exc α) fun _ added => added = [] :=
    fun _ => (hreport _).bind_silent (fun _ => Prog.Adds.throw rfl) fun _ => rfl
  have hcap : Prog.Adds log (checkRedirectCap C p history request.url observer) fun _ added => added = [] := by
    unfold checkRedirectCap
    dsimp only
    split
    · exact hrefuse _
    · exact Prog.Adds.pure rfl
  cases agent with
  | client => exact hcap.bind_silent (fun _ => Prog.Adds.ofExcept rfl) fun _ => rfl
  | asyncClient => exact hcap.bind_silent (fun _ => Prog.Adds.ofExcept rfl) fun _ => rfl
  | session =>
      rw [Agent.follow, Session.resolveRedirect]
      split
      · exact hrefuse _
      · exact Prog.Adds.bind_ofExcept (fun _ _ => Prog.Adds.pure rfl) fun _ _ => rfl

/-- **Along a call.** What relates the world before and after each request, and is kept when a hop is built and
from one request to the next, relates the world before and after the call, of the requests it sent. -/
theorem Agent.along_call {R : List (Request υ) → ω → ω → Prop} (hrefl : ∀ w, R [] w w)
    (htrans : ∀ {sent sent' w w' w''}, R sent w w' → R sent' w' w'' → R (sent ++ sent') w w'')
    {agent : Agent} {own : ℤ} {following : Bool} {observer : Option (Observer ω)}
    {send : Request υ → Prog ω ε (Option (Hop υ))}
    (hsend : ∀ request w, R [request] w ((send request).exec w).2)
    (hfollow : ∀ history request hop w, R [] w ((agent.follow U C p observer history request hop).exec w).2)
    (history : List υ) (request : Request υ) (w : ω) :
    R (agent.call U C p own following observer send history request w).sent w
      (agent.call U C p own following observer send history request w).world := by
  -- the request that was sent, and the hop that was built after it
  have hstep : ∀ {history request hop w w₁ w₂ result}, (send request).exec w = (.ok (some hop), w₁) →
      (agent.follow U C p observer history request hop).exec w₁ = (result, w₂) → R [request] w w₂ := by
    intro history request hop w w₁ w₂ result hsent hfollowed
    have hbefore := hsend request w
    have hafter := hfollow history request hop w₁
    rw [hsent] at hbefore
    rw [hfollowed] at hafter
    exact htrans hbefore hafter
  induction history, request, w using Agent.call.induct U C p agent own following observer send with
  | case1 history request w hgives =>
      rw [Agent.call, if_pos hgives]
      exact hrefl w
  | case2 history request w hgives e w₁ hsent =>
      have hlast := hsend request w
      rw [hsent] at hlast
      rw [Agent.call, if_neg hgives, hsent]
      exact hlast
  | case3 history request w hgives w₁ hsent =>
      have hlast := hsend request w
      rw [hsent] at hlast
      rw [Agent.call, if_neg hgives, hsent]
      exact hlast
  | case4 history request w hgives hop w₁ hsent e w₂ hfollowed =>
      rw [Agent.call_of_refused hgives hsent hfollowed]
      exact hstep hsent hfollowed
  | case5 history request w hgives hop w₁ hsent next w₂ hfollowed hfollowing ih =>
      rw [Agent.call_of_built hgives hsent hfollowed, if_pos hfollowing]
      exact htrans (hstep hsent hfollowed) ih
  | case6 history request w hgives hop w₁ hsent next w₂ hfollowed hfollowing =>
      rw [Agent.call_of_built hgives hsent hfollowed, if_neg hfollowing]
      exact hstep hsent hfollowed

/-! ## The URLs -/

/-- The policy accepts the URL of a request. -/
def Policy.accepts (U : Unicode) (C : HttpLibraries υ) (p : Policy) (request : Request υ) : Bool :=
  (p.decide U (C.str request.url)).isOk

/-- Every request that was answered was accepted, so only the last of a call may not be, and then it failed. -/
structure Called.Screened (U : Unicode) (C : HttpLibraries υ) (p : Policy) (called : Called υ ω ε) : Prop where
  /-- All requests but the last. -/
  before : ∀ request ∈ called.sent.dropLast, p.accepts U C request = true
  /-- The last one. -/
  last : ∀ request, called.sent.getLast? = some request → p.accepts U C request = true ∨
    ∃ e, called.outcome = .error (.sending e)

/-- Of the requests of a call all but the last hold something, and the last one unless it failed. -/
structure Called.Answered (P : Request υ → Prop) (called : Called υ ω ε) : Prop where
  /-- All requests but the last. -/
  before : ∀ request ∈ called.sent.dropLast, P request
  /-- The last one. -/
  last : ∀ request, called.sent.getLast? = some request → P request ∨ ∃ e, called.outcome = .error (.sending e)

/-- What holds of every request that is answered holds of all requests of a call but the last, and of that one unless
it failed. -/
theorem Agent.answered_call {P : Request υ → Prop} {agent : Agent} {own : ℤ} {following : Bool}
    {observer : Option (Observer ω)} {send : Request υ → Prog ω ε (Option (Hop υ))}
    (hsend : ∀ request w w' answer, (send request).exec w = (.ok answer, w') → P request)
    (history : List υ) (request : Request υ) (w : ω) :
    (agent.call U C p own following observer send history request w).Answered P := by
  have hsingle : ∀ {request : Request υ} {redirects : List (Hop υ)} {outcome : Except (CallExc ε) Unit} {w : ω},
      (P request ∨ ∃ e, outcome = .error (.sending e)) →
      Called.Answered P { sent := [request], redirects := redirects, outcome := outcome, world := w } := by
    intro request redirects outcome w h
    refine ⟨fun _ hmem => absurd hmem List.not_mem_nil, fun other hother => ?_⟩
    cases hother
    exact h
  induction history, request, w using Agent.call.induct U C p agent own following observer send with
  | case1 history request w hgives =>
      rw [Agent.call, if_pos hgives]
      exact ⟨fun _ hmem => absurd hmem List.not_mem_nil, fun _ hlast => by cases hlast⟩
  | case2 history request w hgives e w₁ hsent =>
      rw [Agent.call, if_neg hgives, hsent]
      exact hsingle (.inr ⟨e, rfl⟩)
  | case3 history request w hgives w₁ hsent =>
      rw [Agent.call, if_neg hgives, hsent]
      exact hsingle (.inl (hsend request _ _ _ hsent))
  | case4 history request w hgives hop w₁ hsent e w₂ hfollowed =>
      rw [Agent.call_of_refused hgives hsent hfollowed]
      exact hsingle (.inl (hsend request _ _ _ hsent))
  | case5 history request w hgives hop w₁ hsent next w₂ hfollowed hfollowing ih =>
      rw [Agent.call_of_built hgives hsent hfollowed, if_pos hfollowing]
      have hanswered := hsend request _ _ _ hsent
      generalize agent.call U C p own following observer send (history ++ [request.url]) next w₂ = rest at ih ⊢
      obtain ⟨hbefore, hlast⟩ := ih
      cases hrest : rest.sent with
      | nil =>
          refine ⟨fun _ hmem => ?_, fun other hother => ?_⟩
          · dsimp only at hmem
            rw [hrest] at hmem
            cases hmem
          · dsimp only at hother
            rw [hrest] at hother
            cases hother
            exact .inl hanswered
      | cons second others =>
          rw [hrest] at hbefore hlast
          refine ⟨fun other hmem => ?_, fun other hother => ?_⟩
          · dsimp only at hmem
            rw [hrest, List.dropLast_cons_cons] at hmem
            rcases List.mem_cons.mp hmem with rfl | hmem
            · exact hanswered
            · exact hbefore other hmem
          · dsimp only at hother
            rw [hrest, List.getLast?_cons_cons] at hother
            exact hlast other hother
  | case6 history request w hgives hop w₁ hsent next w₂ hfollowed hfollowing =>
      rw [Agent.call_of_built hgives hsent hfollowed, if_neg hfollowing]
      exact hsingle (.inl (hsend request _ _ _ hsent))

/-- **A call is screened** when a request is answered only if its URL is accepted. -/
theorem Agent.screened_call {agent : Agent} {own : ℤ} {following : Bool} {observer : Option (Observer ω)}
    {send : Request υ → Prog ω ε (Option (Hop υ))}
    (hsend : ∀ request w w' answer, (send request).exec w = (.ok answer, w') → p.accepts U C request = true)
    (history : List υ) (request : Request υ) (w : ω) :
    (agent.call U C p own following observer send history request w).Screened U C p := by
  obtain ⟨hbefore, hlast⟩ := Agent.answered_call (U := U) (C := C) (p := p) hsend history request w
  exact ⟨hbefore, hlast⟩

/-! ## The blocking clients -/

/-- A request follows the protocol when the seam does. -/
theorem Exchange.follows_send (exchange : Exchange σ υ κ SockId ε) {seam : κ → Prog (World σ) ε SockId}
    (hseam : ∀ target, Follows U p (·.settled = true) (seam target) (fun sock s => ∃ rest, s = .verified sock rest)
      fun _ => (·.settled = true)) (request : Request υ) :
    Follows U p (·.settled = true)
      (exchange.send World.env (fun w env => { w with env := env }) seam request) (fun _ => (·.settled = true))
      fun _ => (·.settled = true) := by
  have houtside : ∀ {α : Type} {P : Phase → Prop} (x : Prog σ ε α), (∀ s, P s → s.settled = true) →
      Follows U p P (Prog.zoom World.env (fun w env => { w with env := env }) x) (fun _ => P)
        fun _ => (·.settled = true) :=
    fun x h => Prog.Obeys.silent (Prog.Adds.silent (fun _ => rfl) fun _ => rfl) (fun _ _ => id) fun _ => h
  refine (houtside _ fun _ => id).bind fun needed => ?_
  cases needed with
  | none => exact houtside _ fun _ => id
  | some target =>
      refine (hseam target).bind fun sock => (houtside _ ?_).conseq (fun _ => id) ?_ fun _ _ => id
      · rintro s ⟨rest, rfl⟩
        rfl
      · rintro answer s ⟨rest, rfl⟩
        rfl

/-- A request looks up nothing before its URL is accepted, and then what the seam looks up. -/
theorem Exchange.adds_send (exchange : Exchange σ υ κ SockId ε) {seam : κ → Prog (World σ) ε SockId}
    (hseam : ∀ target, Prog.Adds World.trace (seam target) fun _ added => added.countP Action.isLookup ≤ 1)
    (request : Request υ) :
    Prog.Adds World.trace (exchange.send World.env (fun w env => { w with env := env }) seam request)
      fun _ added => added.countP Action.isLookup ≤ 1 := by
  have houtside : ∀ {α : Type} (x : Prog σ ε α),
      Prog.Adds World.trace (Prog.zoom World.env (fun w env => { w with env := env }) x) fun _ added =>
        added = [] := fun x => Prog.Adds.silent (fun _ => rfl) fun _ => rfl
  refine (houtside _).bind_silent (fun needed => ?_) fun _ => Nat.zero_le _
  cases needed with
  | none => exact (houtside _).conseq fun _ added h => by rw [h]; exact Nat.zero_le _
  | some target =>
      refine (hseam target).bind (fun sock first hfirst => ?_) fun _ _ => id
      refine (houtside _).conseq ?_
      rintro result _ rfl
      rw [List.append_nil]
      exact hfirst

/-- A stretch of a call: the protocol goes on from wherever it has settled, and there are no more lookups than
requests the policy accepts. -/
def Along (U : Unicode) (C : HttpLibraries υ) (p : Policy) (sent : List (Request υ)) (w w' : World σ) : Prop :=
  ∀ s : Phase, s.settled = true → ∃ added s', w'.trace = w.trace ++ added ∧
    (egress U p).run s added = some s' ∧ s'.settled = true ∧
    added.countP Action.isLookup ≤ sent.countP (p.accepts U C)

theorem Along.of_trace {w w' : World σ} (h : w'.trace = w.trace) : Along U C p [] w w' :=
  fun s hs => ⟨[], s, h.trans (List.append_nil _).symm, rfl, hs, Nat.zero_le _⟩

theorem Along.trans {sent sent' : List (Request υ)} {w w' w'' : World σ} (h : Along U C p sent w w')
    (h' : Along U C p sent' w' w'') : Along U C p (sent ++ sent') w w'' := by
  intro s hs
  obtain ⟨first, middle, hfirst, hrun, hmiddle, hcount⟩ := h s hs
  obtain ⟨second, s', hsecond, hrun', hs', hcount'⟩ := h' middle hmiddle
  refine ⟨first ++ second, s', ?_, Monitor.run_append_eq_some.mpr ⟨middle, hrun, hrun'⟩, hs', ?_⟩
  · rw [hsecond, hfirst, List.append_assoc]
  · rw [List.countP_append, List.countP_append]
    exact Nat.add_le_add hcount hcount'

/-- Check the URL of a request and send it, as `handle_request` of the httpx transport and `get_adapter` and `send`
of the requests adapter do. -/
def checkedSend (U : Unicode) (C : HttpLibraries υ) (p : Policy) (untranslated : Exc → ε)
    (observer : Option (Observer σ)) (exchange : Exchange σ υ κ SockId ε) (seam : κ → Prog (World σ) ε SockId)
    (request : Request υ) : Prog (World σ) ε (Option (Hop υ)) := do
  let _ ← Prog.mapError untranslated (p.checkUrl U (C.str request.url) (outside observer))
  exchange.send World.env (fun w env => { w with env := env }) seam request

section CheckedSend

variable {untranslated : Exc → ε} {observer : Option (Observer σ)} {exchange : Exchange σ υ κ SockId ε}
  {seam : κ → Prog (World σ) ε SockId}

/-- A request is answered, and something looked up for it, only if its URL is accepted. -/
theorem adds_checkedSend
    (hseam : ∀ target, Prog.Adds World.trace (seam target) fun _ added => added.countP Action.isLookup ≤ 1)
    (request : Request υ) :
    Prog.Adds World.trace (checkedSend U C p untranslated observer exchange seam request) fun result added =>
      ((∃ answer, result = .ok answer) → p.accepts U C request = true) ∧
      added.countP Action.isLookup ≤ [request].countP (p.accepts U C) := by
  have hchecked : Prog.Adds World.trace (Prog.mapError untranslated
      (p.checkUrl U (C.str request.url) (outside observer))) fun result added =>
        added = [] ∧ ∀ t, result = .ok t → p.accepts U C request = true := by
    intro w
    obtain ⟨added, htrace, rfl⟩ := traces_checkUrl (U := U) p (C.str request.url) observer w
    refine ⟨[], htrace, rfl, fun t ht => ?_⟩
    rw [Prog.exec_mapError] at ht
    have hdecided := Policy.decide_of_checkUrl (Except.mapError_eq_ok.mp ht)
    rw [Policy.accepts, hdecided]
    rfl
  refine hchecked.bind ?_ ?_
  · rintro t _ ⟨rfl, haccepted⟩
    have haccepts := haccepted t rfl
    refine (exchange.adds_send hseam request).conseq fun result added hcount => ⟨fun _ => haccepts, ?_⟩
    rw [List.countP_singleton, if_pos haccepts]
    exact hcount
  · rintro e _ ⟨rfl, -⟩
    refine ⟨?_, Nat.zero_le _⟩
    rintro ⟨answer, h⟩
    cases h

theorem follows_checkedSend
    (hseam : ∀ target, Follows U p (·.settled = true) (seam target) (fun sock s => ∃ rest, s = .verified sock rest)
      fun _ => (·.settled = true)) (request : Request υ) :
    Follows U p (·.settled = true) (checkedSend U C p untranslated observer exchange seam request)
      (fun _ => (·.settled = true)) fun _ => (·.settled = true) := by
  have hchecked := follows_checkUrl (U := U) (p := p) (P := (·.settled = true)) (C.str request.url) observer
  exact Prog.Obeys.bind (hchecked.mapError fun _ _ => id) fun t => .assume fun _ =>
    exchange.follows_send hseam request

/-- What one request does to the trace. -/
theorem along_checkedSend
    (hfollows : ∀ target, Follows U p (·.settled = true) (seam target)
      (fun sock s => ∃ rest, s = .verified sock rest) fun _ => (·.settled = true))
    (hadds : ∀ target, Prog.Adds World.trace (seam target) fun _ added => added.countP Action.isLookup ≤ 1)
    (request : Request υ) (w : World σ) :
    Along U C p [request] w
      ((checkedSend U C p untranslated observer exchange seam request).exec w).2 := by
  intro s hs
  obtain ⟨added, htrace, s', hrun, hend⟩ := follows_checkedSend (C := C) hfollows request s hs w
  obtain ⟨counted, hcounted, -, hcount⟩ := adds_checkedSend (U := U) (C := C) (p := p) hadds request w
  obtain rfl := List.append_cancel_left (htrace.symm.trans hcounted)
  refine ⟨added, s', htrace, hrun, ?_, hcount⟩
  split at hend
  · exact hend
  · exact hend

end CheckedSend

/-- Resolving and connecting looks up one name. -/
theorem traces_resolve_connect (target : Target) (resolver : Resolver σ) (kernel : Kernel σ)
    (options : ConnectOptions) (observer : Option (Observer σ)) :
    Traces (do
      let addresses ← resolve U p target resolver observer
      connect U p kernel addresses options observer) fun _ added => added.countP Action.isLookup ≤ 1 := by
  refine (traces_resolve p target resolver observer).bind ?_ ?_
  · rintro addresses _ ⟨flags, answer, rfl, -⟩
    refine (traces_connect p kernel addresses options observer).conseq ?_
    rintro result added ⟨hquiet, -⟩
    have hnone : added.countP Action.isLookup = 0 :=
      List.countP_eq_zero.mpr fun action haction => Bool.eq_false_iff.mp (hquiet action haction)
    rw [List.countP_append, hnone]
    exact List.countP_le_length
  · rintro e _ ⟨flags, answer, rfl, -⟩
    exact List.countP_le_length

theorem SafeBackend.adds_connectTcp (resolver : Resolver σ) (kernel : Kernel σ) (observer : Option (Observer σ))
    (host : Str) (port : ℤ) (options : TcpOptions) :
    Prog.Adds World.trace (SafeBackend.connectTcp U p resolver kernel observer host port options) fun _ added =>
      added.countP Action.isLookup ≤ 1 := by
  rw [SafeBackend.connectTcp, Prog.mapError_ofExcept]
  refine Prog.Adds.bind_ofExcept (fun _ _ => ?_) fun _ _ => Nat.zero_le _
  exact (traces_resolve_connect _ resolver kernel _ observer).adds.mapError fun _ _ => id

theorem adds_pinnedSocket (connection : HTTPConnection) (resolver : Resolver σ) (kernel : Kernel σ)
    (audit : Prog σ Exc Unit) (observer : Option (Observer σ)) :
    Prog.Adds World.trace (pinnedSocket U p connection resolver kernel audit observer) fun _ added =>
      added.countP Action.isLookup ≤ 1 := by
  unfold pinnedSocket
  split
  · exact Prog.Adds.throw (Nat.zero_le _)
  · have hchecked : Prog.Adds World.trace (Prog.mapError SeamExc.untranslated (p.checkUrl U
        (origin connection.scheme connection.dnsHost connection.port) (outside observer))) fun _ added =>
        added = [] := (traces_checkUrl p _ observer).adds.mapError fun _ _ => id
    have haudited : Prog.Adds World.trace (Prog.mapError SeamExc.untranslated
        (Prog.zoom World.env (fun w env => { w with env := env }) audit)) fun _ added => added = [] :=
      Prog.Adds.silent (fun _ => rfl) fun _ => rfl
    refine hchecked.bind_silent (fun target => ?_) fun _ => Nat.zero_le _
    have hopened : Prog.Adds World.trace (Prog.mapError (connection.translated U) do
        let addresses ← resolve U p target resolver observer
        connect U p kernel addresses connection.options observer) fun _ added =>
        added.countP Action.isLookup ≤ 1 :=
      (traces_resolve_connect target resolver kernel connection.options observer).adds.mapError fun _ _ => id
    refine hopened.bind (fun sock first hfirst => ?_) fun _ _ => id
    refine haudited.bind ?_ ?_
    · rintro _ _ rfl
      refine Prog.Adds.pure ?_
      rw [List.append_nil, List.append_nil]
      exact hfirst
    · rintro _ _ rfl
      rw [List.append_nil]
      exact hfirst

/-! ## The call -/

/-- The lookup and the connection a call makes stand in this order: a connection is made to a socket address from a
row of the last lookup, of a host and a port the policy admits, and it holds a permitted address. -/
def Preceded (U : Unicode) (p : Policy) (before : List Action) (sockaddr : SockAddr) : Prop :=
  ∃ earlier host port flags infos between, before = earlier ++ .lookup host port flags (.ok infos) :: between ∧
    NoLookup between ∧ checkOrigin U p host port = .ok () ∧
    ∃ info ∈ infos, info.sockaddr = sockaddr ∧ ∃ ip, sockaddrIp U sockaddr = .ok ip ∧ p.Permits ip

/-- A call that lets out only what the policy allows. -/
structure Called.Guarded (U : Unicode) (C : HttpLibraries υ) (p : Policy) (w : World σ)
    (called : Called υ (World σ) ε) : Prop where
  /-- Its calls to the outside follow the protocol, look up no more names than it sent accepted requests, and make
  no connection that was not looked up and permitted. -/
  calls : ∃ added phase, called.world.trace = w.trace ++ added ∧
    (egress U p).run (.dialling []) added = some phase ∧ phase.settled = true ∧
    added.countP Action.isLookup ≤ called.sent.countP (p.accepts U C) ∧
    ∀ before sock sockaddr result after, added = before ++ .connect sock sockaddr result :: after →
      Preceded U p before sockaddr
  /-- Its requests, but for one that failed at the end, have accepted URLs. -/
  screened : called.Screened U C p

theorem Agent.guarded_call {send : Request υ → Prog (World σ) ε (Option (Hop υ))} {observer : Option (Observer σ)}
    (halong : ∀ request w, Along U C p [request] w ((send request).exec w).2)
    (haccepts : ∀ request, Prog.Adds World.trace (send request) fun result _ =>
      (∃ answer, result = .ok answer) → p.accepts U C request = true)
    (agent : Agent) (own : ℤ) (following : Bool) (request : Request υ) (w : World σ) :
    (agent.call U C p own following (outside observer) send [] request w).Guarded U C p w := by
  have hobserver : ∀ callback, outside observer = some callback → ∀ decision,
      Prog.Adds World.trace (callback decision) fun _ added => added = [] := by
    intro callback hcallback decision
    obtain ⟨inner, -, rfl⟩ := Option.map_eq_some_iff.mp hcallback
    exact Prog.Adds.silent (fun _ => rfl) fun _ => rfl
  have hfollow : ∀ history request hop w, Along U C p [] w
      ((agent.follow U C p (outside observer) history request hop).exec w).2 := by
    intro history request hop w
    obtain ⟨added, htrace, rfl⟩ := Agent.adds_follow (U := U) (C := C) (p := p) hobserver agent history request
      hop w
    exact .of_trace (by rw [htrace, List.append_nil])
  refine ⟨?_, Agent.screened_call (fun request w w' answer hsent => ?_) _ _ _⟩
  · obtain ⟨added, phase, htrace, hrun, hsettled, hcount⟩ :=
      Agent.along_call (fun _ => .of_trace rfl) (fun h h' => h.trans h') halong hfollow [] request w
        (.dialling []) rfl
    refine ⟨added, phase, htrace, hrun, hsettled, hcount, ?_⟩
    rintro before sock sockaddr result after rfl
    exact connect_of_run hrun
  · obtain ⟨-, -, h⟩ := haccepts request w
    rw [hsent] at h
    exact h ⟨answer, rfl⟩

section Blocking

variable (own : ℤ) (following : Bool) (resolver : Resolver σ) (kernel : Kernel σ) (observer : Option (Observer σ))
  (request : Request υ) (w : World σ)

theorem Client.guarded_call (exchange : Exchange σ υ TcpArguments SockId BackendExc) :
    (Client.call U C p own following resolver kernel observer exchange request w).Guarded U C p w := by
  have hfollows := fun args : TcpArguments => SafeBackend.follows_connectTcp (U := U) (p := p) resolver kernel
    observer args.host args.port args.options
  have hadds := fun args : TcpArguments => SafeBackend.adds_connectTcp (U := U) (p := p) resolver kernel
    observer args.host args.port args.options
  refine Agent.guarded_call (fun request w => ?_) (fun request => ?_) .client own following request w
  · exact along_checkedSend hfollows hadds request w
  · exact (adds_checkedSend hadds request).conseq fun _ _ h => h.1

theorem Session.guarded_call (audit : Prog σ Exc Unit) (exchange : Exchange σ υ HTTPConnection SockId SeamExc) :
    (Session.call U C p own following resolver kernel audit observer exchange request w).Guarded U C p w := by
  have hfollows := fun connection => follows_pinnedSocket (U := U) (p := p) connection resolver kernel audit observer
  have hadds := fun connection => adds_pinnedSocket (U := U) (p := p) connection resolver kernel audit observer
  refine Agent.guarded_call (fun request w => ?_) (fun request => ?_) .session own following request w
  · exact along_checkedSend hfollows hadds request w
  · exact (adds_checkedSend hadds request).conseq fun _ _ h => h.1

end Blocking

/-- **What a call lets out.** On the two blocking clients, whatever redirects the server answers with, whatever the
HTTP library asks the seam for, and whatever the resolver, the kernel and the observer do: the calls to the outside
follow the protocol of the seam; every connection goes to a socket address from a row of the last lookup before it,
holds an address the policy permits, and the lookup was of a host and a port the policy admits; there are no more
lookups than requests whose URL `check_url` accepts; and a request with another URL ends the call without an
answer. -/
theorem call_guarded (U : Unicode) (C : HttpLibraries υ) (p : Policy) (own : ℤ) (following : Bool)
    (resolver : Resolver σ) (kernel : Kernel σ) (observer : Option (Observer σ)) (request : Request υ)
    (w : World σ) :
    (∀ exchange, (Client.call U C p own following resolver kernel observer exchange request w).Guarded U C p w) ∧
    ∀ audit exchange,
      (Session.call U C p own following resolver kernel audit observer exchange request w).Guarded U C p w :=
  ⟨Client.guarded_call own following resolver kernel observer request w,
    Session.guarded_call own following resolver kernel observer request w⟩

/-! ## The asynchronous client -/

/-- A stretch of an asynchronous call: visits the policy allows, no more of them than accepted requests. -/
def AlongVisits (U : Unicode) (C : HttpLibraries υ) (p : Policy) (sent : List (Request υ))
    (v v' : AsyncWorld σ) : Prop :=
  ∃ visits : List Visit, visits.length ≤ sent.countP (p.accepts U C) ∧ Visited U p visits v v'

theorem AlongVisits.of_eq {sent : List (Request υ)} {v v' : AsyncWorld σ} (htrace : v'.trace = v.trace)
    (hcalls : v'.calls = v.calls) : AlongVisits U C p sent v v' :=
  ⟨[], Nat.zero_le _, .of_eq htrace hcalls⟩

theorem AlongVisits.trans {sent sent' : List (Request υ)} {v v' v'' : AsyncWorld σ}
    (h : AlongVisits U C p sent v v') (h' : AlongVisits U C p sent' v' v'') :
    AlongVisits U C p (sent ++ sent') v v'' := by
  obtain ⟨visits, hcount, hvisited⟩ := h
  obtain ⟨visits', hcount', hvisited'⟩ := h'
  refine ⟨visits ++ visits', ?_, hvisited.trans hvisited'⟩
  rw [List.length_append, List.countP_append]
  exact Nat.add_le_add hcount hcount'

/-- The state of the outside, in an asynchronous world. -/
def AsyncWorld.setEnv (v : AsyncWorld σ) (env : σ) : AsyncWorld σ :=
  { v with world := { v.world with env := env } }

/-- An asynchronous request makes the visits of the seam. -/
theorem Exchange.visited_send (exchange : Exchange σ υ κ StreamId ε) {seam : κ → Prog (AsyncWorld σ) ε StreamId}
    (hseam : ∀ target v, ∃ visits : List Visit, visits.length ≤ 1 ∧ Visited U p visits v ((seam target).exec v).2)
    (request : Request υ) (v : AsyncWorld σ) :
    ∃ visits : List Visit, visits.length ≤ 1 ∧
      Visited U p visits v ((exchange.send (fun v => v.world.env) AsyncWorld.setEnv seam request).exec v).2 := by
  have houtside : ∀ {α : Type} (x : Prog σ ε α) (v : AsyncWorld σ), Visited U p [] v
      ((Prog.zoom (fun v : AsyncWorld σ => v.world.env) AsyncWorld.setEnv x).exec v).2 :=
    fun x v => .of_eq rfl rfl
  rw [Exchange.send, Prog.exec_bind]
  have hdialled := houtside (exchange.dial request) v
  cases hdial : (Prog.zoom (fun v : AsyncWorld σ => v.world.env) AsyncWorld.setEnv (exchange.dial request)).exec v with
  | mk result v₁ =>
      rw [hdial] at hdialled
      cases result with
      | error e => exact ⟨[], Nat.zero_le _, hdialled⟩
      | ok needed =>
          dsimp only
          cases needed with
          | none => exact ⟨[], Nat.zero_le _, hdialled.trans (houtside _ v₁)⟩
          | some target =>
              obtain ⟨visits, hlength, hvisited⟩ := hseam target v₁
              refine ⟨visits, hlength, ?_⟩
              dsimp only
              rw [Prog.exec_bind]
              cases hopened : (seam target).exec v₁ with
              | mk result v₂ =>
                  rw [hopened] at hvisited
                  have hbefore := hdialled.trans hvisited
                  cases result with
                  | error e => exact hbefore
                  | ok stream =>
                      have hafter := hbefore.trans (houtside (exchange.converse request (some stream)) v₂)
                      rw [List.append_nil] at hafter
                      exact hafter

/-- A request of the asynchronous client is answered, and a visit made for it, only if its URL is accepted. -/
theorem AsyncSafeTransport.visited_handleAsyncRequest (resolver : Resolver σ) (io : Anyio σ)
    (observer : Option (Observer σ)) (exchange : Exchange σ υ TcpArguments StreamId BackendExc)
    (request : Request υ) (v : AsyncWorld σ) :
    let run := (AsyncSafeTransport.handleAsyncRequest U C p resolver io observer exchange request).exec v
    AlongVisits U C p [request] v run.2 ∧ ((∃ answer, run.1 = .ok answer) → p.accepts U C request = true) := by
  intro run
  obtain ⟨added, htrace, rfl⟩ := traces_checkUrl (U := U) p (C.str request.url) observer v.world
  have hchecked : Visited U p [] v ((Prog.mapError BackendExc.untranslated
      (shared (p.checkUrl U (C.str request.url) (outside observer)))).exec v).2 :=
    .of_eq (htrace.trans (List.append_nil _)) rfl
  have hrun : run = (AsyncSafeTransport.handleAsyncRequest U C p resolver io observer exchange request).exec v := rfl
  rw [AsyncSafeTransport.handleAsyncRequest, Prog.exec_bind] at hrun
  cases hexec : (Prog.mapError BackendExc.untranslated
      (shared (p.checkUrl U (C.str request.url) (outside observer)))).exec v with
  | mk result v₁ =>
      rw [hexec] at hchecked hrun
      cases result with
      | error e =>
          rw [hrun]
          refine ⟨⟨[], Nat.zero_le _, hchecked⟩, ?_⟩
          rintro ⟨answer, h⟩
          cases h
      | ok t =>
          have hreturned : ((p.checkUrl U (C.str request.url) (outside observer)).exec v.world).1 = .ok t :=
            Except.mapError_eq_ok.mp (congrArg Prod.fst hexec)
          have hdecided := Policy.decide_of_checkUrl hreturned
          have haccepts : p.accepts U C request = true := by
            rw [Policy.accepts, hdecided]
            rfl
          refine ⟨?_, fun _ => haccepts⟩
          obtain ⟨visits, hlength, hvisited⟩ := exchange.visited_send (fun args : TcpArguments =>
            AsyncSafeBackend.visited_connectTcp (U := U) (p := p) resolver io observer args.host args.port
              args.options) request v₁
          refine ⟨visits, ?_, ?_⟩
          · rw [List.countP_singleton, if_pos haccepts]
            exact hlength
          · rw [hrun]
            exact hchecked.trans hvisited

section Asynchronous

variable (own : ℤ) (following : Bool) (resolver : Resolver σ) (io : Anyio σ) (observer : Option (Observer σ))
  (exchange : Exchange σ υ TcpArguments StreamId BackendExc) (request : Request υ) (v : AsyncWorld σ)

/-- The visits of an asynchronous call. -/
theorem AsyncClient.along_call :
    let called := AsyncClient.call U C p own following resolver io observer exchange request v
    AlongVisits U C p called.sent v called.world := by
  have hobserver : ∀ {τ : Type} (log : AsyncWorld σ → List τ), (∀ w env, log { w with
      world := { w.world with env := env } } = log w) → ∀ callback, alongside observer = some callback →
      ∀ decision, Prog.Adds log (callback decision) fun _ added => added = [] := by
    intro τ log hlog callback hcallback decision
    obtain ⟨inner, hinner, rfl⟩ := Option.map_eq_some_iff.mp hcallback
    obtain ⟨inner, -, rfl⟩ := Option.map_eq_some_iff.mp hinner
    exact Prog.Adds.silent (fun w => hlog w _) fun _ => rfl
  refine Agent.along_call (R := AlongVisits U C p) (fun _ => .of_eq rfl rfl) (fun h h' => h.trans h')
    (fun request v => ?_) ?_ [] request v
  · exact (AsyncSafeTransport.visited_handleAsyncRequest resolver io observer exchange request v).1
  · intro history request hop v
    obtain ⟨_, htrace, rfl⟩ := Agent.adds_follow (U := U) (C := C) (p := p) (hobserver AsyncWorld.trace fun _ _ => rfl)
      .asyncClient history request hop v
    obtain ⟨_, hcalls, rfl⟩ := Agent.adds_follow (U := U) (C := C) (p := p) (hobserver AsyncWorld.calls fun _ _ => rfl)
      .asyncClient history request hop v
    exact .of_eq (htrace.trans (List.append_nil _)) (hcalls.trans (List.append_nil _))

/-- The requests of an asynchronous call. -/
theorem AsyncClient.screened_call :
    (AsyncClient.call U C p own following resolver io observer exchange request v).Screened U C p := by
  refine Agent.screened_call (fun request v v' answer hsent => ?_) _ _ _
  have hanswered := (AsyncSafeTransport.visited_handleAsyncRequest (U := U) (C := C) (p := p) resolver io observer
    exchange request v).2
  exact hanswered ⟨answer, congrArg Prod.fst hsent⟩

end Asynchronous

/-- **What an asynchronous call lets out.** On the asynchronous client, whatever redirects the server answers with,
whatever httpx asks the seam for, and whatever the resolver, the network library and the observer do: the call is a
sequence of visits, no more of them than requests whose URL `check_url` accepts; each looks up a host and a port the
policy admits and then follows the protocol of the streams, so a stream is asked for only to a permitted address and
the port from a row of that lookup; and a request with another URL ends the call without an answer. -/
theorem asyncCall_guarded (U : Unicode) (C : HttpLibraries υ) (p : Policy) (own : ℤ) (following : Bool)
    (resolver : Resolver σ) (io : Anyio σ) (observer : Option (Observer σ))
    (exchange : Exchange σ υ TcpArguments StreamId BackendExc) (request : Request υ) (v : AsyncWorld σ) :
    let called := AsyncClient.call U C p own following resolver io observer exchange request v
    called.Screened U C p ∧
    ∃ visits : List Visit, visits.length ≤ called.sent.countP (p.accepts U C) ∧
      Visited U p visits v called.world ∧
      ∀ visit ∈ visits, ∀ stream host port result, .connectTcp stream host port result ∈ visit.calls →
        ∃ infos, visit.answer = .ok infos ∧ p.Permits host ∧ ∃ address : Address, address.ip = host ∧
          address.port U = .ok port ∧ sockaddrIp U address.sockaddr = .ok host ∧
          ∃ info ∈ infos, info.key = address.key := by
  intro called
  have hscreened : called.Screened U C p :=
    AsyncClient.screened_call own following resolver io observer exchange request v
  obtain ⟨visits, hcount, hvisited⟩ :=
    AsyncClient.along_call (U := U) (C := C) (p := p) own following resolver io observer exchange request v
  exact ⟨hscreened, visits, hcount, hvisited,
    fun visit hvisit _ _ _ _ hmem => (hvisited.follows visit hvisit).connectTcp hmem⟩

end SsrfGuard
