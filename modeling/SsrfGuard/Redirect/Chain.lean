import SsrfGuard.Observer
import SsrfGuard.Redirect.Headers

/-! # Walking a redirect chain

The two httpx clients override `_build_redirect_request`, which counts the hop, and
`_redirect_headers`, which drops the sensitive headers when the hop leaves the origin; httpx then adds
the cookies of the client's jar to the headers it was handed. The requests session overrides
`rebuild_auth`, which requests calls last, after the cookies. What httpx and requests do around these
hooks is a parameter. -/

namespace SsrfGuard

/-- A cookie of a client's jar. -/
structure Cookie where
  /-- `domain`, empty where the caller named none. -/
  domain : Str
  /-- `name`. -/
  name : Str
  /-- `value`. -/
  value : Str
  deriving DecidableEq

/-- A request as it is about to be sent. -/
structure Request (υ : Type) where
  /-- The method. -/
  method : Str
  /-- The URL. -/
  url : υ
  /-- The headers. -/
  headers : List Header

/-- Where a response redirects to, and what the client holds by then. -/
structure Hop (υ : Type) where
  /-- The method of the next request. -/
  method : Str
  /-- The URL of the next request. -/
  url : υ
  /-- The cookies in the jar, those of the response included. -/
  jar : List Cookie
  /-- What `get_netrc_auth` answers for the URL. -/
  netrc : Option Str

/-- What httpx, requests and `http.cookiejar` do around the hooks, for URLs of a type `υ`. -/
structure HttpLibraries (υ : Type) where
  /-- `str(url)`. -/
  str : υ → Str
  /-- `httpx._client._same_origin`. -/
  sameOrigin : υ → υ → Bool
  /-- `httpx._client._is_https_redirect`. -/
  isHttpsRedirect : υ → υ → Bool
  /-- `httpx.Client._redirect_headers`. -/
  redirectHeaders : Request υ → υ → Str → List Header
  /-- Whether a cookie of the jar is sent to a URL. -/
  applies : Cookie → υ → Bool
  /-- The text of the `Cookie` header for some cookies. -/
  cookieAttrs : List Cookie → Str
  /-- `requests.Session.should_strip_auth`. -/
  shouldStripAuth : υ → υ → Bool
  /-- The headers requests has prepared for a hop, cookies and proxy credentials among them, when it
  calls `rebuild_auth`. -/
  prepareRedirect : Request υ → Hop υ → CaseInsensitiveDict
  /-- `requests.Session.rebuild_auth`, from the URL that redirected. -/
  rebuildAuth : υ → Hop υ → CaseInsensitiveDict → CaseInsensitiveDict
  /-- `[*walked.history, walked]` when requests gives up, from the responses so far. -/
  walked : List υ → List υ

variable {υ ω : Type} (U : Unicode) (C : HttpLibraries υ) (p : Policy)

/-! ## Origins -/

/-- A hop that leaves the origin: neither the same origin nor its upgrade from http to https. -/
def LeavesOrigin (old new : υ) : Prop :=
  C.sameOrigin new old = false ∧ C.isHttpsRedirect old new = false

instance (old new : υ) : Decidable (LeavesOrigin C old new) :=
  inferInstanceAs (Decidable (_ ∧ _))

/-- requests strips credentials on every hop that leaves the origin. -/
def StripsOffOrigin : Prop :=
  ∀ old new, LeavesOrigin C old new → C.shouldStripAuth old new = true

/-! ## The cap -/

/-- Report a chain that is too long and refuse it. -/
def refuseChain {α : Type} (chain : List Str) (observer : Option (Observer ω)) : Prog ω Exc α := do
  report observer
    { stage := .redirect
      outcome := .refused
      reason := some (text "redirect chain exceeded max_redirects=" ++ intText p.maxRedirects)
      url := chain.getLast?.map redacted
      chain := chain.map redacted }
  throw (.tooManyRedirectsError p.maxRedirects chain)

/-- `_check_redirect_cap`, from the URLs of the response and of its history. -/
def checkRedirectCap (history : List υ) (response : υ) (observer : Option (Observer ω)) :
    Prog ω Exc Unit :=
  let walked := history ++ [response]
  if p.maxRedirects < walked.length then refuseChain p (walked.map C.str) observer
  else pure ()

/-! ## httpx -/

/-- `_stripped_headers`. -/
def strippedHeaders (headers : List Header) (request : Request υ) (url : υ) :
    Except Exc (List Header) :=
  if C.sameOrigin url request.url || C.isHttpsRedirect request.url url then .ok headers
  else dropSensitive U p (httpxNames headers) headers

/-- `Client._redirect_headers`. -/
def Client.redirectHeaders (request : Request υ) (url : υ) (method : Str) :
    Except Exc (List Header) :=
  strippedHeaders U C p (C.redirectHeaders request url method) request url

/-- `AsyncClient._redirect_headers`. -/
def AsyncClient.redirectHeaders (request : Request υ) (url : υ) (method : Str) :
    Except Exc (List Header) :=
  strippedHeaders U C p (C.redirectHeaders request url method) request url

/-- The `Cookie` header. -/
def cookieHeader (value : Str) : Header := ⟨text "Cookie", value, by decide +kernel⟩

/-- `Cookies.set_cookie_header`: a `Cookie` header with the cookies of the jar that apply, where some
do and there is none yet. -/
def setCookieHeader (jar : List Cookie) (url : υ) (headers : List Header) : List Header :=
  let cookies := jar.filter (C.applies · url)
  if cookies ≠ [] ∧ (∀ h ∈ headers, h.key ≠ text "cookie") then
    headers ++ [cookieHeader (C.cookieAttrs cookies)]
  else headers

/-- `httpx.Client._build_redirect_request`, given `self._redirect_headers`: the jar's cookies go onto
the headers the hook returned. -/
def httpxBuildRedirectRequest (redirectHeaders : Request υ → υ → Str → Except Exc (List Header))
    (request : Request υ) (hop : Hop υ) : Except Exc (Request υ) := do
  let headers ← redirectHeaders request hop.url hop.method
  .ok { method := hop.method, url := hop.url, headers := setCookieHeader C hop.jar hop.url headers }

/-- `Client._build_redirect_request`. -/
def Client.buildRedirectRequest (observer : Option (Observer ω)) (history : List υ)
    (request : Request υ) (hop : Hop υ) : Prog ω Exc (Request υ) := do
  checkRedirectCap C p history request.url observer
  Prog.ofExcept (httpxBuildRedirectRequest C (Client.redirectHeaders U C p) request hop)

/-- `AsyncClient._build_redirect_request`. -/
def AsyncClient.buildRedirectRequest (observer : Option (Observer ω)) (history : List υ)
    (request : Request υ) (hop : Hop υ) : Prog ω Exc (Request υ) := do
  checkRedirectCap C p history request.url observer
  Prog.ofExcept (httpxBuildRedirectRequest C (AsyncClient.redirectHeaders U C p) request hop)

/-! ## requests -/

/-- `Session.rebuild_auth`. -/
def Session.rebuildAuth (request : Request υ) (hop : Hop υ) (prepared : CaseInsensitiveDict) :
    Except Exc (List Header) :=
  let prepared := C.rebuildAuth request.url hop prepared
  if !C.shouldStripAuth request.url hop.url then .ok prepared.items
  else dropSensitive U p prepared.names prepared.items

/-- One turn of `Session.resolve_redirects`: requests gives up once the hops it followed reach
`self.max_redirects`, and otherwise prepares the next request and rebuilds its credentials. -/
def Session.resolveRedirect (observer : Option (Observer ω)) (history : List υ)
    (request : Request υ) (hop : Hop υ) : Prog ω Exc (Request υ) :=
  if p.maxRedirects ≤ history.length then
    refuseChain p ((C.walked (history ++ [request.url])).map C.str) observer
  else do
    let headers ← Prog.ofExcept (Session.rebuildAuth U C p request hop (C.prepareRedirect request hop))
    pure { method := hop.method, url := hop.url, headers := headers }

/-! ## The agents -/

/-- Who walks the chain. -/
inductive Agent
  /-- `ssrfguard.httpx.Client`. -/
  | client
  /-- `ssrfguard.httpx.AsyncClient`. -/
  | asyncClient
  /-- `ssrfguard.requests.Session`. -/
  | session
  deriving DecidableEq

/-- Build the request for a hop. -/
def Agent.follow (agent : Agent) (observer : Option (Observer ω)) (history : List υ)
    (request : Request υ) (hop : Hop υ) : Prog ω Exc (Request υ) :=
  match agent with
  | .client => Client.buildRedirectRequest U C p observer history request hop
  | .asyncClient => AsyncClient.buildRedirectRequest U C p observer history request hop
  | .session => Session.resolveRedirect U C p observer history request hop

/-! ## The chain -/

/-- One hop that was followed. -/
structure Step (υ : Type) where
  /-- The request that was redirected. -/
  request : Request υ
  /-- Where to. -/
  hop : Hop υ
  /-- The request that was built. -/
  next : Request υ

/-- A chain that was walked. -/
structure Walk (υ ω : Type) where
  /-- The hops that were followed. -/
  steps : List (Step υ)
  /-- How it ended: out of redirects, or with what a hop raised. -/
  outcome : Except Exc Unit
  /-- What the observer made of it. -/
  world : ω

/-- Walk a chain: build a request for each hop, until one is refused. -/
def Agent.walk (agent : Agent) (observer : Option (Observer ω)) :
    List υ → Request υ → List (Hop υ) → ω → Walk υ ω
  | _, _, [], w => ⟨[], .ok (), w⟩
  | history, request, hop :: hops, w =>
    match (agent.follow U C p observer history request hop).exec w with
    | (.error e, w') => ⟨[], .error e, w'⟩
    | (.ok next, w') =>
      let rest := agent.walk observer (history ++ [request.url]) next hops w'
      ⟨⟨request, hop, next⟩ :: rest.steps, rest.outcome, rest.world⟩

/-! ## At the cap -/

variable {U C p}

theorem checkRedirectCap_of_lt {history : List υ} {response : υ} {observer : Option (Observer ω)}
    (hcap : (history.length : ℤ) < p.maxRedirects) :
    checkRedirectCap C p history response observer = pure () := by
  have hle : ¬ p.maxRedirects < ((history ++ [response]).length : ℤ) := by
    rw [List.length_append, List.length_singleton]
    omega
  rw [checkRedirectCap]
  exact if_neg hle

theorem checkRedirectCap_of_le {history : List υ} {response : υ} {observer : Option (Observer ω)}
    (hcap : p.maxRedirects ≤ history.length) :
    checkRedirectCap C p history response observer =
      refuseChain p ((history ++ [response]).map C.str) observer := by
  have hlt : p.maxRedirects < ((history ++ [response]).length : ℤ) := by
    rw [List.length_append, List.length_singleton]
    omega
  rw [checkRedirectCap]
  exact if_pos hlt

/-- What refuses a chain: `TooManyRedirectsError`, or what its report has let through. -/
def RefusesChain (p : Policy) (observer : Option (Observer ω)) (e : Exc) : Prop :=
  (∃ chain, e = .tooManyRedirectsError p.maxRedirects chain) ∨ ObserverRaises observer e

/-- A refused chain ends in an error, its own or what the observer raised. -/
theorem exec_refuseChain {α : Type} (chain : List Str) (observer : Option (Observer ω)) (w : ω) :
    ∃ e w', (refuseChain p chain observer : Prog ω Exc α).exec w = (.error e, w') ∧
      RefusesChain p observer e := by
  rw [refuseChain, Prog.exec_bind]
  split
  · exact ⟨_, _, Prog.exec_throw _ _, .inl ⟨chain, rfl⟩⟩
  · next e w' hreport =>
    obtain ⟨callback, hcallback, hraise, he⟩ := exec_report_error hreport
    exact ⟨e, w', rfl, .inr ⟨callback, _, w, w', hcallback, hraise, he⟩⟩

/-- **At the cap** the chain is refused. -/
theorem Agent.follow_of_le (agent : Agent) {observer : Option (Observer ω)} {history : List υ}
    {request : Request υ} {hop : Hop υ} (hcap : p.maxRedirects ≤ history.length) (w : ω) :
    ∃ e w', (agent.follow U C p observer history request hop).exec w = (.error e, w') ∧
      RefusesChain p observer e := by
  -- Both clients count first, so the build that follows is not reached.
  have hclient : ∀ build : Prog ω Exc (Request υ), ∃ e w',
      (checkRedirectCap C p history request.url observer >>= fun _ => build).exec w =
        (.error e, w') ∧ RefusesChain p observer e := by
    intro build
    have hrefuse : ∃ e w', (refuseChain p ((history ++ [request.url]).map C.str) observer :
        Prog ω Exc Unit).exec w = (.error e, w') ∧ RefusesChain p observer e :=
      exec_refuseChain _ observer w
    obtain ⟨e, w', he, hrefuses⟩ := hrefuse
    refine ⟨e, w', ?_, hrefuses⟩
    rw [checkRedirectCap_of_le hcap, Prog.exec_bind, he]
  cases agent with
  | client => exact hclient _
  | asyncClient => exact hclient _
  | session =>
      rw [Agent.follow, Session.resolveRedirect, if_pos hcap]
      exact exec_refuseChain _ observer w

/-- A hop that is built is below the cap. -/
theorem Agent.lt_of_follow {agent : Agent} {observer : Option (Observer ω)} {history : List υ}
    {request next : Request υ} {hop : Hop υ} {w w' : ω}
    (h : (agent.follow U C p observer history request hop).exec w = (.ok next, w')) :
    (history.length : ℤ) < p.maxRedirects := by
  by_contra hcap
  obtain ⟨e, w₁, he, -⟩ := @Agent.follow_of_le _ _ U C p agent observer history request hop
    (not_lt.mp hcap) w
  rw [he] at h
  cases h

end SsrfGuard
