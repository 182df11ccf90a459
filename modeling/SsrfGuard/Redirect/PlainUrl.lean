import SsrfGuard.Redirect.Chain

/-! # httpx and requests on plain URLs

What the two clients do around the hooks, on URLs with nothing in them but what a redirect looks at, and
where no proxy is configured. -/

namespace SsrfGuard

/-- A URL as far as a redirect looks at it. -/
structure Location where
  /-- The scheme. -/
  scheme : Str
  /-- The host. -/
  host : Str
  /-- The port, where one is written. -/
  port : Option ℕ
  /-- The path. -/
  path : Str
  deriving DecidableEq

namespace Location

/-- `host[:port]`. -/
def netloc (url : Location) : Str :=
  url.host ++ (url.port.map fun port => ord ':' :: natText port).getD []

/-- `str(url)`. -/
def str (url : Location) : Str := url.scheme ++ text "://" ++ url.netloc ++ url.path

/-- `{"http": 80, "https": 443}.get(scheme)`. -/
def defaultPort (scheme : Str) : Option ℕ :=
  if scheme = text "http" then some 80 else if scheme = text "https" then some 443 else none

/-- `httpx._utils.port_or_default`. -/
def portOrDefault (url : Location) : Option ℕ := url.port.orElse fun _ => defaultPort url.scheme

/-- A port that is the default, or left out, is the default. -/
theorem portOrDefault_of_mem {url : Location} {port : Option ℕ} (h : url.port ∈ [port, none])
    (hdefault : defaultPort url.scheme = port) : url.portOrDefault = port := by
  rw [portOrDefault]
  rcases List.mem_cons.mp h with h | h
  · rw [h]
    cases port with
    | none => exact hdefault
    | some port => rfl
  · rw [List.mem_singleton.mp h]
    exact hdefault

/-- `httpx._client._same_origin`. -/
def sameOrigin (url other : Location) : Bool :=
  url.scheme == other.scheme && url.host == other.host && url.portOrDefault == other.portOrDefault

/-- `httpx._client._is_https_redirect`. -/
def isHttpsRedirect (url location : Location) : Bool :=
  url.host == location.host && url.scheme == text "http" && url.portOrDefault == some 80 &&
    location.scheme == text "https" && location.portOrDefault == some 443

/-- `requests.Session.should_strip_auth`. -/
def shouldStripAuth (old new : Location) : Bool :=
  if old.host ≠ new.host then true
  else if old.scheme = text "http" ∧ old.port ∈ [some 80, none] ∧ new.scheme = text "https" ∧
      new.port ∈ [some 443, none] then false
  else if old.scheme = new.scheme ∧ old.port ∈ [defaultPort old.scheme, none] ∧
      new.port ∈ [defaultPort old.scheme, none] then false
  else old.port ≠ new.port || old.scheme ≠ new.scheme

end Location

namespace Cookie

/-- A cookie without a domain goes to every host, one with a domain to it and what lies below. -/
def applies (cookie : Cookie) (url : Location) : Bool :=
  cookie.domain.isEmpty || (ord '.' :: cookie.domain).isSuffixOf (ord '.' :: url.host)

/-- `"; ".join(f"{cookie.name}={cookie.value}" ...)`. -/
def attrs (cookies : List Cookie) : Str :=
  join (text "; ") (cookies.map fun cookie => cookie.name ++ text "=" ++ cookie.value)

end Cookie

/-- `headers["Host"] = netloc` of `httpx.Headers`. -/
def setHost (netloc : Str) (headers : List Header) : List Header :=
  let host : Header := ⟨text "Host", netloc, by decide +kernel⟩
  if headers.any (·.key == host.key) then
    headers.map fun h => if h.key = host.key then host else h
  else headers ++ [host]

theorem isAscii_authorization : isAscii (text "Authorization") = true := by decide +kernel

/-- httpx and requests, where no proxy is configured. -/
def plainLibraries : HttpLibraries Location where
  str := Location.str
  sameOrigin := Location.sameOrigin
  isHttpsRedirect := Location.isHttpsRedirect
  redirectHeaders request url method :=
    let headers :=
      if Location.sameOrigin url request.url then request.headers
      else setHost url.netloc
        (if Location.isHttpsRedirect request.url url then request.headers
        else request.headers.filter fun h => h.key ≠ text "authorization")
    let headers :=
      if method ≠ request.method ∧ method = text "GET" then
        headers.filter fun h => h.key ∉ [text "content-length", text "transfer-encoding"]
      else headers
    headers.filter fun h => h.key ≠ text "cookie"
  applies := Cookie.applies
  cookieAttrs := Cookie.attrs
  shouldStripAuth := Location.shouldStripAuth
  prepareRedirect request hop :=
    let headers := (CaseInsensitiveDict.ofList request.headers).pop (text "cookie")
    let cookies := hop.jar.filter (Cookie.applies · hop.url)
    if cookies = [] then headers else headers.setItem (cookieHeader (Cookie.attrs cookies))
  rebuildAuth old hop headers :=
    let headers :=
      if Location.shouldStripAuth old hop.url then headers.pop (text "authorization") else headers
    match hop.netrc with
    | none => headers
    | some value => headers.setItem ⟨text "Authorization", value, isAscii_authorization⟩
  walked responses := responses

/-- requests strips wherever httpx sees another origin: a port that is written out counts as the
default it equals. -/
theorem plainLibraries_stripsOffOrigin : StripsOffOrigin plainLibraries := by
  rintro old new ⟨hsame, hupgrade⟩
  change Location.sameOrigin new old = false at hsame
  change Location.isHttpsRedirect old new = false at hupgrade
  show Location.shouldStripAuth old new = true
  rw [Location.shouldStripAuth]
  by_cases hhost : old.host = new.host
  · rw [if_neg (not_not.mpr hhost)]
    split
    · next h =>
        -- The special case of `should_strip_auth` is the upgrade, on its standard ports.
        obtain ⟨hold, holdport, hnew, hnewport⟩ := h
        have h80 := Location.portOrDefault_of_mem holdport (by rw [hold]; decide +kernel)
        have h443 := Location.portOrDefault_of_mem hnewport (by rw [hnew]; decide +kernel)
        simp [Location.isHttpsRedirect, hhost, hold, hnew, h80, h443] at hupgrade
    · split
      · next h =>
          obtain ⟨hscheme, holdport, hnewport⟩ := h
          have hold := Location.portOrDefault_of_mem holdport rfl
          have hnew := Location.portOrDefault_of_mem hnewport (by rw [hscheme])
          simp [Location.sameOrigin, hhost, hscheme, hold, hnew] at hsame
      · by_contra hno
        have heq : old.port = new.port ∧ old.scheme = new.scheme := by simpa using hno
        simp [Location.sameOrigin, Location.portOrDefault, hhost, heq.1, heq.2] at hsame
  · rw [if_pos hhost]

end SsrfGuard
