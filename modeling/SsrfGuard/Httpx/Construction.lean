import SsrfGuard.Httpx.Backend
import Mathlib.Data.List.AList

/-! # Constructing a client

A client takes the options of two objects: the transport it builds and the client of httpx it is. One that is
given a transport builds none. The constructors of httpx and httpcore are any functions of their arguments that
may raise; of what they build, only the transport made for a proxy is read. -/

namespace SsrfGuard.Construction

/-! ## Options -/

/-- `httpx.Limits`. -/
structure Limits where
  /-- `limits.max_connections`. -/
  maxConnections : Option ℤ
  /-- `limits.max_keepalive_connections`. -/
  maxKeepaliveConnections : Option ℤ
  /-- `limits.keepalive_expiry`. -/
  keepaliveExpiry : Option ℚ
  deriving DecidableEq

/-- The value of an option. -/
inductive Value
  /-- `None`. -/
  | null
  /-- A boolean. -/
  | bool (b : Bool)
  /-- An integer. -/
  | int (n : ℤ)
  /-- A text. -/
  | str (s : Str)
  /-- Limits of a pool. -/
  | limits (l : Limits)
  /-- Any other object, told from the rest by its identity. -/
  | object (id : ℕ)
  deriving DecidableEq

/-- Keyword arguments: no name is given twice. -/
abbrev Kwargs : Type := AList fun _ : Str => Value

namespace Kwargs

/-- `kwargs.get(name)`. -/
def get (kwargs : Kwargs) (name : Str) : Value := (kwargs.lookup name).getD .null

/-- `{name: value for name, value in kwargs.items() if p(name)}`. -/
def keep (kwargs : Kwargs) (p : Str → Prop) [DecidablePred p] : Kwargs where
  entries := kwargs.entries.filter fun entry => p entry.1
  nodupKeys := kwargs.nodupKeys.sublist List.filter_sublist

end Kwargs

/-- What a TLS context is made from. -/
structure SslContext where
  /-- `verify`. -/
  verify : Value
  /-- `cert`. -/
  cert : Value
  /-- `trust_env`. -/
  trustEnv : Value

/-- The arguments of `httpx.HTTPTransport`. -/
structure TransportArgs where
  /-- `verify`, already made into a context. -/
  sslContext : SslContext
  /-- `trust_env`. -/
  trustEnv : Value
  /-- `http1`. -/
  http1 : Value
  /-- `http2`. -/
  http2 : Value
  /-- `limits`. -/
  limits : Value
  /-- `proxy`. -/
  proxy : Value
  /-- `local_address`. -/
  localAddress : Value
  /-- `retries`. -/
  retries : Value
  /-- `socket_options`. -/
  socketOptions : Value

/-- The arguments of `httpcore.ConnectionPool`, but for its backend. -/
structure PoolArgs where
  /-- `ssl_context`. -/
  sslContext : SslContext
  /-- `max_connections`, `max_keepalive_connections` and `keepalive_expiry`. -/
  limits : Limits
  /-- `http1`. -/
  http1 : Value
  /-- `http2`. -/
  http2 : Value
  /-- `local_address`. -/
  localAddress : Value
  /-- `retries`. -/
  retries : Value
  /-- `socket_options`. -/
  socketOptions : Value

/-- What the constructors take from httpx, httpcore, the environment and the objects they are given. -/
structure Httpx where
  /-- `httpx.create_ssl_context(verify, cert, trust_env)`. -/
  createSslContext : SslContext → Except Exc Unit
  /-- `httpx.HTTPTransport.__init__`. -/
  initTransport : TransportArgs → Except Exc Unit
  /-- `httpcore.ConnectionPool(...)`. -/
  connectionPool : PoolArgs → Except Exc Unit
  /-- `httpx.Client.__init__(transport=transport, **options)`. -/
  initClient : Kwargs → Except Exc Unit
  /-- `get_environment_proxies().values()`. -/
  environmentProxies : List (Option Str)
  /-- `bool(value)` of an object. -/
  objectTruth : ℕ → Bool
  /-- `str(value)` of what is not a text. -/
  objectStr : Value → Str
  /-- What `value.max_connections` raises where the value is no `Limits`. -/
  attributeError : Value → Exc
  /-- What the transport has for an option that httpx makes for a proxy from the options of its client. -/
  proxied : Kwargs → Str → Value

namespace Httpx

/-- `bool(value)`. -/
def truth (httpx : Httpx) : Value → Bool
  | .null => false
  | .bool b => b
  | .int n => n ≠ 0
  | .str s => s ≠ []
  | .limits _ => true
  | .object id => httpx.objectTruth id

/-- `str(value)`. -/
def str (httpx : Httpx) : Value → Str
  | .str s => s
  | value => httpx.objectStr value

/-- The three attributes of `limits` a pool is made with. -/
def readLimits (httpx : Httpx) : Value → Except Exc Limits
  | .limits l => .ok l
  | value => .error (httpx.attributeError value)

end Httpx

/-! ## Backends -/

variable {σ : Type}

/-- `SafeBackend`. -/
structure SafeBackend (σ : Type) where
  /-- `self.policy`. -/
  policy : Policy
  /-- `self.resolver`. -/
  resolver : Option (Resolver σ)
  /-- `self.observer`. -/
  observer : Option (Observer σ)

/-- `AsyncSafeBackend`. -/
structure AsyncSafeBackend (σ : Type) extends SafeBackend σ where
  /-- The tokens of `self._resolver_limiter`. -/
  resolverSlots : ℤ
  /-- Some lookup may be in flight. -/
  resolverSlots_pos : 1 ≤ resolverSlots

/-- `AsyncSafeBackend.__init__`. -/
def AsyncSafeBackend.init (policy : Policy) (resolver : Option (Resolver σ)) (observer : Option (Observer σ))
    (resolverSlots : ℤ) : Except Exc (AsyncSafeBackend σ) :=
  if h : resolverSlots < 1 then
    .error (.valueError (text "resolver_slots must be at least 1, got " ++ intText resolverSlots ++
      text "; a client that permits no lookup can never connect to anything"))
  else
    .ok { policy := policy, resolver := resolver, observer := observer, resolverSlots := resolverSlots,
          resolverSlots_pos := not_lt.mp h }

/-! ## Transports -/

/-- `_NO_UNIX_SOCKETS`. -/
def noUnixSockets : Str :=
  text "is a unix domain socket, which has no address for this policy to check; every " ++
    text "guarantee this package makes is about which address a connection reaches, and a " ++
    text "socket in the filesystem has none"

/-- `_HTTPX_DEFAULT_LIMITS`. -/
def httpxDefaultLimits : Limits := ⟨some 100, some 20, some 5⟩

/-- `_RESOLVER_SLOTS`. -/
def defaultResolverSlots : ℤ := 100

/-- `_resolver_slots_for`. -/
def resolverSlotsFor (limits : Limits) (requested : Option ℤ) : ℤ :=
  match requested with
  | some n => n
  | none => limits.maxConnections.getD defaultResolverSlots

/-- The arguments of a guarded transport beside the policy, the resolver and the observer. -/
structure TransportOptions where
  /-- TLS verification. -/
  verify : Value := .bool true
  /-- A client certificate. -/
  cert : Value := .null
  /-- Whether to read TLS settings from the environment. -/
  trustEnv : Value := .bool true
  /-- Whether to offer HTTP/1.1. -/
  http1 : Value := .bool true
  /-- Whether to offer HTTP/2. -/
  http2 : Value := .bool false
  /-- Pool limits. -/
  limits : Value := .null
  /-- A proxy. -/
  proxy : Value := .null
  /-- A unix domain socket. -/
  uds : Option Str := none
  /-- Address to bind before connecting. -/
  localAddress : Value := .null
  /-- Connection retries. -/
  retries : Value := .int 0
  /-- `setsockopt` triples. -/
  socketOptions : Value := .null

/-- The arguments that `**kwargs` binds, of those a client passes on. -/
def TransportOptions.ofKwargs (kwargs : Kwargs) : TransportOptions where
  verify := (kwargs.lookup (text "verify")).getD (.bool true)
  cert := (kwargs.lookup (text "cert")).getD .null
  trustEnv := (kwargs.lookup (text "trust_env")).getD (.bool true)
  http1 := (kwargs.lookup (text "http1")).getD (.bool true)
  http2 := (kwargs.lookup (text "http2")).getD (.bool false)
  limits := (kwargs.lookup (text "limits")).getD .null
  localAddress := (kwargs.lookup (text "local_address")).getD .null
  retries := (kwargs.lookup (text "retries")).getD (.int 0)
  socketOptions := (kwargs.lookup (text "socket_options")).getD .null

/-- A guarded transport over a kind of backend. -/
structure Transport (σ β : Type) where
  /-- `self.policy`. -/
  policy : Policy
  /-- `self.observer`. -/
  observer : Option (Observer σ)
  /-- What the transport of httpx was initialised with. -/
  args : TransportArgs
  /-- The pinning pool and its backend, or `none` where httpx's own pool for a proxy is left in place. -/
  pool : Option (PoolArgs × β)

/-- `SafeTransport`. -/
abbrev SafeTransport (σ : Type) : Type := Transport σ (SafeBackend σ)

/-- `AsyncSafeTransport`. -/
abbrev AsyncSafeTransport (σ : Type) : Type := Transport σ (AsyncSafeBackend σ)

/-- The body of the two constructors, which differ in the backend. -/
def initTransport (httpx : Httpx) {β : Type} (backend : Limits → Except Exc β) (policy : Policy)
    (observer : Option (Observer σ)) (o : TransportOptions) : Except Exc (Transport σ β) :=
  match o.uds with
  | some path => .error (.blockedURLError path noUnixSockets)
  | none =>
    if o.proxy ≠ .null ∧ ¬ policy.allowProxy then .error (.proxyUnsupportedError (httpx.str o.proxy))
    else do
      let limits := if o.limits = .null then .limits httpxDefaultLimits else o.limits
      let sslContext : SslContext := { verify := o.verify, cert := o.cert, trustEnv := o.trustEnv }
      httpx.createSslContext sslContext
      let args : TransportArgs :=
        { sslContext := sslContext, trustEnv := o.trustEnv, http1 := o.http1, http2 := o.http2, limits := limits,
          proxy := o.proxy, localAddress := o.localAddress, retries := o.retries,
          socketOptions := o.socketOptions }
      httpx.initTransport args
      if o.proxy ≠ .null then
        -- a pinning pool would pin the proxy's address and leave the target unchecked
        return { policy := policy, observer := observer, args := args, pool := none }
      else
        let bounds ← httpx.readLimits limits
        let networkBackend ← backend bounds
        let pool : PoolArgs :=
          { sslContext := sslContext, limits := bounds, http1 := o.http1, http2 := o.http2,
            localAddress := o.localAddress, retries := o.retries, socketOptions := o.socketOptions }
        httpx.connectionPool pool
        return { policy := policy, observer := observer, args := args, pool := some (pool, networkBackend) }

/-- `SafeTransport.__init__`. -/
def SafeTransport.init (httpx : Httpx) (policy : Policy) (resolver : Option (Resolver σ))
    (observer : Option (Observer σ)) (o : TransportOptions) : Except Exc (SafeTransport σ) :=
  initTransport httpx (fun _ => .ok { policy := policy, resolver := resolver, observer := observer }) policy
    observer o

/-- `AsyncSafeTransport.__init__`. -/
def AsyncSafeTransport.init (httpx : Httpx) (policy : Policy) (resolver : Option (Resolver σ))
    (observer : Option (Observer σ)) (o : TransportOptions) (resolverSlots : Option ℤ) :
    Except Exc (AsyncSafeTransport σ) :=
  initTransport httpx
    (fun limits => AsyncSafeBackend.init policy resolver observer (resolverSlotsFor limits resolverSlots)) policy
    observer o

/-! ## Clients -/

/-- What is passed as `transport`. -/
inductive TransportArg (τ : Type)
  /-- `None`. -/
  | none
  /-- An instance of the class the client accepts. -/
  | guarded (transport : τ)
  /-- An instance of a class with another name. -/
  | other (typeName : Str)

/-- The transport that is given, or else the one that is built. -/
def TransportArg.getOr {τ : Type} (built : Except Exc τ) : TransportArg τ → Except Exc τ
  | .guarded transport => .ok transport
  | _ => built

/-- The arguments of `Client`. -/
structure ClientArgs (σ β : Type) where
  /-- `policy`. -/
  policy : Option Policy := none
  /-- `resolver`. -/
  resolver : Option (Resolver σ) := none
  /-- `observer`. -/
  observer : Option (Observer σ) := none
  /-- `transport`. -/
  transport : TransportArg (Transport σ β) := .none
  /-- `**options`. -/
  options : Kwargs := ∅

/-- A client over a kind of backend. -/
structure Client (σ β : Type) where
  /-- `self.policy`. -/
  policy : Policy
  /-- `self.observer`. -/
  observer : Option (Observer σ)
  /-- The transport the client of httpx was initialised with. -/
  transport : Transport σ β
  /-- The options it was initialised with. -/
  options : Kwargs

/-- `_TRANSPORT_OPTIONS`. -/
def transportOptions : List Str :=
  [text "verify", text "cert", text "http1", text "http2", text "limits", text "local_address", text "retries",
    text "socket_options"]

/-- `_SHARED_OPTIONS`. -/
def sharedOptions : List Str := [text "trust_env"]

/-- `_ROUTING_OPTIONS`. -/
def routingOptions : List Str := [text "proxy", text "mounts"]

/-- `_CLIENT_OPTIONS`. -/
def clientOptions : List Str :=
  [text "auth", text "base_url", text "cookies", text "default_encoding", text "event_hooks",
    text "follow_redirects", text "headers", text "max_redirects", text "params", text "timeout"]

/-- `_environment_proxy`. -/
def environmentProxy (httpx : Httpx) (trustEnv : Bool) : Option Str :=
  if trustEnv then httpx.environmentProxies.findSome? id else none

/-- `_configured_proxy`. -/
def configuredProxy (httpx : Httpx) (options : Kwargs) (trustEnv : Bool) : Option Str :=
  let proxy := options.get (text "proxy")
  let explicit := if httpx.truth proxy then proxy else options.get (text "mounts")
  if httpx.truth explicit then some (httpx.str explicit) else environmentProxy httpx trustEnv

variable {β : Type}

/-- `_policy_from`. -/
def policyFrom (policy : Option Policy) (resolver : Option (Resolver σ)) :
    TransportArg (Transport σ β) → Except Exc Policy
  | .none =>
    match policy with
    | none => .error (.otherException (text "Client needs a policy, or a transport that already has one"))
    | some policy => .ok policy
  | .other typeName =>
    .error (.otherException (text "transport is a " ++ typeName ++ text ", which does not pin anything; " ++
      text "this class exists to make that impossible to pass in by accident"))
  | .guarded transport =>
    if policy.isSome ∨ resolver.isSome then
      .error (.otherException (text "transport already carries a policy and a resolver, so passing either " ++
        text "alongside it would leave two answers to one question"))
    else .ok transport.policy

/-- The options that neither the transport nor the client knows. -/
def unknownOptions (options : Kwargs) : List Str :=
  options.keys.filter fun name =>
    name ∉ transportOptions ∧ name ∉ sharedOptions ∧ name ∉ routingOptions ∧ name ∉ clientOptions

/-- `_split_options`. -/
def splitOptions (options : Kwargs) : Except Exc (Kwargs × Kwargs) :=
  if unknownOptions options ≠ [] then
    let named := join (text ", ") ((unknownOptions options).insertionSort (· ≤ ·))
    .error (.otherException (text "Client does not know what to do with " ++ named ++
      text "; if httpx has grown an argument since this was written, it needs a decision here rather than to " ++
      text "be passed through, because the ones that route a request are the whole subject"))
  else
    .ok (options.keep fun name => name ∈ transportOptions ∨ name ∈ sharedOptions,
      options.keep fun name => name ∉ transportOptions)

/-- Refuse a proxy the policy does not permit. -/
def rejectProxy (policy : Policy) : Option Str → Except Exc Unit
  | some proxy => if policy.allowProxy then .ok () else .error (.proxyUnsupportedError proxy)
  | none => .ok ()

/-- The body of the two constructors, which differ in the transport they build. -/
def initClient (httpx : Httpx) (build : Policy → TransportOptions → Except Exc (Transport σ β))
    (args : ClientArgs σ β) : Except Exc (Client σ β) := do
  let policy ← policyFrom args.policy args.resolver args.transport
  let (forTransport, forClient) ← splitOptions args.options
  let trustEnv := httpx.truth ((forClient.lookup (text "trust_env")).getD (.bool true))
  rejectProxy policy (configuredProxy httpx forClient trustEnv)
  -- beside a transport that is given, the options of a transport end here
  let transport ← TransportArg.getOr (build policy (.ofKwargs forTransport)) args.transport
  httpx.initClient forClient
  return { policy := policy, observer := args.observer, transport := transport, options := forClient }

/-- `Client.__init__`. -/
def Client.init (httpx : Httpx) (args : ClientArgs σ (SafeBackend σ)) :
    Except Exc (Client σ (SafeBackend σ)) :=
  initClient httpx (fun policy o => SafeTransport.init httpx policy args.resolver args.observer o) args

/-- `AsyncClient.__init__`. -/
def AsyncClient.init (httpx : Httpx) (args : ClientArgs σ (AsyncSafeBackend σ)) (resolverSlots : Option ℤ) :
    Except Exc (Client σ (AsyncSafeBackend σ)) :=
  initClient httpx
    (fun policy o => AsyncSafeTransport.init httpx policy args.resolver args.observer o resolverSlots) args

end SsrfGuard.Construction
