import SsrfGuard.Redirect.PlainUrl

/-! # What crosses to another origin

On a hop that leaves the origin the request must carry none of the policy's sensitive headers. The
session strips last, so it never does. The httpx clients strip inside `_redirect_headers`, and httpx
adds the jar's cookies afterwards, so what is sent is clean exactly where the policy does not call
`cookie` sensitive or no cookie of the jar applies to the new URL. -/

namespace SsrfGuard

variable {υ ω : Type} (U : Unicode) (C : HttpLibraries υ) (p : Policy)

/-! ## One hop -/

/-- The headers an agent sends on a hop, its loop over the names run. -/
def Agent.hopHeaders (agent : Agent) (request : Request υ) (hop : Hop υ) : List Header :=
  match agent with
  | .session =>
    let prepared := C.rebuildAuth request.url hop (C.prepareRedirect request hop)
    if C.shouldStripAuth request.url hop.url then withoutSensitive U p prepared.items
    else prepared.items
  | _ =>
    let headers := C.redirectHeaders request hop.url hop.method
    setCookieHeader C hop.jar hop.url
      (if C.sameOrigin hop.url request.url || C.isHttpsRedirect request.url hop.url then headers
      else withoutSensitive U p headers)

/-- The request an agent builds for a hop. -/
def Agent.nextRequest (agent : Agent) (request : Request υ) (hop : Hop υ) : Request υ :=
  { method := hop.method, url := hop.url, headers := agent.hopHeaders U C p request hop }

theorem strippedHeaders_eq (headers : List Header) (request : Request υ) (url : υ) :
    strippedHeaders U C p headers request url =
      .ok (if C.sameOrigin url request.url || C.isHttpsRedirect request.url url then headers
        else withoutSensitive U p headers) := by
  unfold strippedHeaders
  split
  · rfl
  · exact dropSensitive_of_names U p (names_httpxNames U headers)

theorem Session.rebuildAuth_eq (request : Request υ) (hop : Hop υ) (prepared : CaseInsensitiveDict) :
    Session.rebuildAuth U C p request hop prepared =
      .ok (if C.shouldStripAuth request.url hop.url then
          withoutSensitive U p (C.rebuildAuth request.url hop prepared).items
        else (C.rebuildAuth request.url hop prepared).items) := by
  unfold Session.rebuildAuth
  cases hs : C.shouldStripAuth request.url hop.url with
  | false => rfl
  | true =>
      have hnames := CaseInsensitiveDict.names_items U (C.rebuildAuth request.url hop prepared)
      exact dropSensitive_of_names U p hnames

/-- The jar's cookies leave clean headers clean exactly where the policy lets a `Cookie` header through
or there is no cookie to put in one. -/
theorem carriesNoSensitive_setCookieHeader {jar : List Cookie} {url : υ} {headers : List Header}
    (h : CarriesNoSensitive U p headers) :
    CarriesNoSensitive U p (setCookieHeader C jar url headers) ↔
      text "cookie" ∉ p.sensitiveHeaders ∨ ∀ cookie ∈ jar, C.applies cookie url = false := by
  have hname : ∀ value, lower U (cookieHeader value).name = text "cookie" := by
    intro value
    rw [Header.lower_name]
    show (text "Cookie").map lowerChar = text "cookie"
    decide +kernel
  rw [setCookieHeader]
  by_cases hs : text "cookie" ∈ p.sensitiveHeaders
  · -- No `Cookie` header is there yet: the loop has just dropped it.
    have hfresh : ∀ header ∈ headers, header.key ≠ text "cookie" := by
      intro header hheader hkey
      exact h header hheader (by rwa [header.lower_name U, hkey])
    by_cases hjar : jar.filter (C.applies · url) = []
    · rw [if_neg fun hcond => hcond.1 hjar]
      have hnone : ∀ cookie ∈ jar, C.applies cookie url = false := by
        simpa [List.filter_eq_nil_iff] using hjar
      exact ⟨fun _ => .inr hnone, fun _ => h⟩
    -- the header that is added is the one that was dropped
    · rw [if_pos ⟨hjar, hfresh⟩]
      constructor
      · intro hclean
        have hcookie := hclean (cookieHeader (C.cookieAttrs (jar.filter (C.applies · url))))
          (List.mem_append_right _ List.mem_cons_self)
        rw [hname] at hcookie
        exact absurd hs hcookie
      · rintro (hs' | hnone)
        · exact absurd hs hs'
        · exact absurd (List.filter_eq_nil_iff.mpr fun cookie hc => by simp [hnone cookie hc]) hjar
  · refine ⟨fun _ => .inl hs, fun _ => ?_⟩
    split
    · intro header hheader
      rcases List.mem_append.mp hheader with hheader | hheader
      · exact h header hheader
      · obtain rfl := List.mem_singleton.mp hheader
        rwa [hname]
    · exact h

/-- **One hop**: a request that leaves the origin carries nothing sensitive exactly where the session
built it, or no `Cookie` header can have been added back. -/
theorem Agent.nextRequest_carriesNoSensitive_iff (hlaw : StripsOffOrigin C) (agent : Agent)
    {request : Request υ} {hop : Hop υ} (hleave : LeavesOrigin C request.url hop.url) :
    CarriesNoSensitive U p (agent.nextRequest U C p request hop).headers ↔
      agent = .session ∨ text "cookie" ∉ p.sensitiveHeaders ∨
        ∀ cookie ∈ hop.jar, C.applies cookie hop.url = false := by
  have hhttpx : CarriesNoSensitive U p (setCookieHeader C hop.jar hop.url
      (if C.sameOrigin hop.url request.url || C.isHttpsRedirect request.url hop.url then
        C.redirectHeaders request hop.url hop.method
      else withoutSensitive U p (C.redirectHeaders request hop.url hop.method))) ↔
      text "cookie" ∉ p.sensitiveHeaders ∨ ∀ cookie ∈ hop.jar, C.applies cookie hop.url = false := by
    rw [if_neg (by rw [hleave.1, hleave.2]; decide)]
    exact carriesNoSensitive_setCookieHeader U C p (carriesNoSensitive_withoutSensitive U p _)
  cases agent with
  | client => exact hhttpx.trans (by simp)
  | asyncClient => exact hhttpx.trans (by simp)
  | session =>
      refine ⟨fun _ => .inl rfl, fun _ => ?_⟩
      show CarriesNoSensitive U p (hopHeaders U C p .session request hop)
      rw [hopHeaders, if_pos (hlaw _ _ hleave)]
      exact carriesNoSensitive_withoutSensitive U p _

/-! ## The cap -/

/-- **Below the cap** a hop is followed, and no exception stops it. -/
theorem Agent.follow_of_lt (agent : Agent) {observer : Option (Observer ω)} {history : List υ}
    {request : Request υ} {hop : Hop υ} (hcap : (history.length : ℤ) < p.maxRedirects) :
    agent.follow U C p observer history request hop = pure (agent.nextRequest U C p request hop) := by
  cases agent with
  | client =>
      show (checkRedirectCap C p history request.url observer >>= fun _ => _) = _
      rw [checkRedirectCap_of_lt hcap, pure_bind, httpxBuildRedirectRequest,
        Client.redirectHeaders, strippedHeaders_eq]
      rfl
  | asyncClient =>
      show (checkRedirectCap C p history request.url observer >>= fun _ => _) = _
      rw [checkRedirectCap_of_lt hcap, pure_bind, httpxBuildRedirectRequest,
        AsyncClient.redirectHeaders, strippedHeaders_eq]
      rfl
  | session =>
      show Session.resolveRedirect U C p observer history request hop = _
      rw [Session.resolveRedirect, if_neg (not_le.mpr hcap), Session.rebuildAuth_eq]
      rfl

/-! ## The whole chain -/

/-- A hop with the URL it starts from. -/
abbrev Leg (υ : Type) : Type := υ × Hop υ

/-- The legs of a chain. -/
def legs : υ → List (Hop υ) → List (Leg υ)
  | _, [] => []
  | old, hop :: hops => (old, hop) :: legs hop.url hops

/-- **A walk follows the chain up to the cap**: its steps are the legs the policy allows, each with the
request its agent builds. -/
theorem Agent.walk_steps (agent : Agent) (observer : Option (Observer ω)) (history : List υ)
    (request : Request υ) (hops : List (Hop υ)) (w : ω) :
    (agent.walk U C p observer history request hops w).steps.map
        (fun step => (step.request.url, step.hop)) =
      legs request.url (hops.take (p.maxRedirects - history.length).toNat) ∧
    ∀ step ∈ (agent.walk U C p observer history request hops w).steps,
      step.next = agent.nextRequest U C p step.request step.hop := by
  -- the history grows by one response a hop, and the cap counts it
  induction hops generalizing history request w with
  | nil => simp [walk, legs]
  | cons hop hops ih =>
      rcases lt_or_ge (history.length : ℤ) p.maxRedirects with hcap | hcap
      · -- One hop more in the history is one fewer to go.
        have hleft : (p.maxRedirects - history.length).toNat =
            (p.maxRedirects - (history ++ [request.url]).length).toNat + 1 := by
          rw [List.length_append, List.length_singleton]
          omega
        obtain ⟨ihlegs, ihnext⟩ := ih (history ++ [request.url])
          (agent.nextRequest U C p request hop) w
        rw [walk, agent.follow_of_lt U C p hcap, Prog.exec_pure, hleft, List.take_succ_cons, legs]
        refine ⟨?_, ?_⟩
        · rw [List.map_cons, ihlegs]
          rfl
        · intro step hstep
          rcases List.mem_cons.mp hstep with rfl | hstep
          · rfl
          · exact ihnext step hstep
      · obtain ⟨e, w', he, -⟩ := @Agent.follow_of_le _ _ U C p agent observer history request hop hcap w
        have hnone : (p.maxRedirects - history.length).toNat = 0 := by omega
        rw [walk, he, hnone]
        simp [legs]

/-- Along a chain, no request that leaves the origin carries anything sensitive. -/
def Agent.HoldsBack (agent : Agent) (observer : Option (Observer ω)) (request : Request υ)
    (hops : List (Hop υ)) (w : ω) : Prop :=
  ∀ step ∈ (agent.walk U C p observer [] request hops w).steps,
    LeavesOrigin C step.request.url step.next.url → CarriesNoSensitive U p step.next.headers

instance (agent : Agent) (observer : Option (Observer ω)) (request : Request υ)
    (hops : List (Hop υ)) (w : ω) : Decidable (agent.HoldsBack U C p observer request hops w) :=
  inferInstanceAs (Decidable (∀ step ∈ (agent.walk U C p observer [] request hops w).steps, _))

/-- **What crosses**: over a whole chain, every request that leaves the origin carries nothing sensitive
exactly where a session walks the chain, or the policy does not call `cookie` sensitive, or no cookie of
the jar applies on any leg that leaves the origin. -/
theorem Agent.crossing_iff (hlaw : StripsOffOrigin C) (agent : Agent) (observer : Option (Observer ω))
    (request : Request υ) (hops : List (Hop υ)) (w : ω) :
    agent.HoldsBack U C p observer request hops w ↔
    (agent = .session ∨ text "cookie" ∉ p.sensitiveHeaders ∨
      ∀ leg ∈ legs request.url (hops.take p.maxRedirects.toNat),
        LeavesOrigin C leg.1 leg.2.url →
          ∀ cookie ∈ leg.2.jar, C.applies cookie leg.2.url = false) := by
  obtain ⟨hlegs, hnext⟩ := agent.walk_steps U C p observer [] request hops w
  have hall : (p.maxRedirects - (([] : List υ).length : ℤ)).toNat = p.maxRedirects.toNat := by
    rw [List.length_nil]
    omega
  rw [← hall, ← hlegs]
  constructor
  · intro h
    by_cases hagent : agent = .session
    · exact .inl hagent
    by_cases hcookie : text "cookie" ∈ p.sensitiveHeaders
    · refine .inr (.inr ?_)
      intro leg hleg hleave
      obtain ⟨step, hstep, rfl⟩ := List.mem_map.mp hleg
      have hclean := h step hstep
      rw [hnext step hstep] at hclean
      rcases (agent.nextRequest_carriesNoSensitive_iff U C p hlaw hleave).mp (hclean hleave) with
        hs | hs | hs
      · exact absurd hs hagent
      · exact absurd hcookie hs
      · exact hs
    · exact .inr (.inl hcookie)
  · intro h step hstep hleave
    rw [hnext step hstep] at hleave ⊢
    refine (agent.nextRequest_carriesNoSensitive_iff U C p hlaw hleave).mpr ?_
    rcases h with hs | hs | hs
    · exact .inl hs
    · exact .inr (.inl hs)
    · exact .inr (.inr (hs _ (List.mem_map_of_mem hstep) hleave))

/-- A session cookie set on the client rides in its first request. -/
def signedIn : Request Location where
  method := text "GET"
  url := ⟨text "http", text "first.test", none, text "/"⟩
  headers := [cookieHeader (text "session=secret")]

/-- The first origin redirects to a second one; the cookie has no domain. -/
def toSecond : Hop Location where
  method := text "GET"
  url := ⟨text "http", text "second.test", none, text "/landed"⟩
  jar := [⟨[], text "session", text "secret"⟩]
  netrc := none

/-- On that chain the session sends nothing sensitive. -/
theorem Agent.crossing_session :
    Agent.session.HoldsBack .ascii plainLibraries Policy.default (none : Option (Observer Unit)) signedIn
      [toSecond] () :=
  (Agent.crossing_iff .ascii plainLibraries Policy.default plainLibraries_stripsOffOrigin .session none
    signedIn [toSecond] ()).mpr (.inl rfl)

/-- **The httpx clients send the cookie on**: the second origin is handed what the first one's session
hangs on, under the default policy. -/
theorem Agent.crossing_jarCookie :
    ¬ Agent.client.HoldsBack .ascii plainLibraries Policy.default (none : Option (Observer Unit))
        signedIn [toSecond] () ∧
      ¬ Agent.asyncClient.HoldsBack .ascii plainLibraries Policy.default
        (none : Option (Observer Unit)) signedIn [toSecond] () := by
  decide +kernel

end SsrfGuard
