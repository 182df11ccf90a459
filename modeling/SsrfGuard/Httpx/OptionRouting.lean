import SsrfGuard.Httpx.Construction

/-! # Where the options of a client go

An option a client is given is one of the client of httpx, or one of the transport that carries its requests. A
transport is built with every option it is handed. What is missing is the other way round: a transport that is not
built from the options never sees them. -/

namespace SsrfGuard.Construction

variable {σ β : Type}

/-! ## What reaches what -/

/-- A value as a transport takes it: no limits are httpx's limits. -/
def effective (name : Str) (value : Value) : Value :=
  if name = text "limits" ∧ value = .null then .limits httpxDefaultLimits else value

/-- The options of a pinning pool. -/
def PoolArgs.settings (pool : PoolArgs) : List (Str × Value) :=
  [(text "verify", pool.sslContext.verify), (text "cert", pool.sslContext.cert),
    (text "trust_env", pool.sslContext.trustEnv), (text "http1", pool.http1), (text "http2", pool.http2),
    (text "limits", .limits pool.limits), (text "local_address", pool.localAddress),
    (text "retries", pool.retries), (text "socket_options", pool.socketOptions)]

/-- The options of a transport of httpx. -/
def TransportArgs.settings (args : TransportArgs) : List (Str × Value) :=
  [(text "verify", args.sslContext.verify), (text "cert", args.sslContext.cert),
    (text "trust_env", args.trustEnv), (text "http1", args.http1), (text "http2", args.http2),
    (text "limits", args.limits), (text "local_address", args.localAddress), (text "retries", args.retries),
    (text "socket_options", args.socketOptions)]

/-- The options of a guarded transport: those of its pool. -/
def Transport.settings (t : Transport σ β) : List (Str × Value) :=
  match t.pool with
  | some (pool, _) => pool.settings
  | none => t.args.settings

/-- A transport has an option, as it is given. -/
def Transport.Has (t : Transport σ β) (name : Str) (value : Value) : Prop :=
  t.settings.lookup name = some (effective name value)

/-- A proxy is among the options: httpx makes another transport, and no request reaches the guarded one. -/
def Proxied (options : Kwargs) : Prop := options.get (text "proxy") ≠ .null

instance (options : Kwargs) : Decidable (Proxied options) := inferInstanceAs (Decidable (_ ≠ _))

/-- A transport reports to an observer, and so does the backend it opens connections with, where it has one. -/
def Transport.ReportsTo (observer : β → Option (Observer σ)) (t : Transport σ β) (o : Observer σ) : Prop :=
  t.observer = some o ∧ ∀ pool backend, t.pool = some (pool, backend) → observer backend = some o

/-- What is given agrees with what is in use. -/
structure ClientArgs.Agrees (httpx : Httpx) (observer : β → Option (Observer σ)) (args : ClientArgs σ β) :
    Prop where
  /-- The options of a transport are those of the transport httpx makes for a proxy where there is one, else of a
  transport that is given. -/
  options : ∀ name ∈ transportOptions, ∀ value, args.options.lookup name = some value →
    if Proxied args.options then
      httpx.proxied (args.options.keep fun name => name ∉ transportOptions) name = effective name value
    else ∀ t, args.transport = .guarded t → t.Has name value
  /-- The observer is the one that a transport that is given reports to already. -/
  observer : ∀ o, args.observer = some o → ∀ t, args.transport = .guarded t → t.ReportsTo observer o

/-! ## The transport that is built -/

/-- An observer that takes no notice. -/
def idle : Observer Unit := fun _ => pure ()

end SsrfGuard.Construction
