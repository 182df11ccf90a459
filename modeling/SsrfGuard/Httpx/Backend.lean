import SsrfGuard.Connect

/-! # The httpx backends

`SafeBackend` and `AsyncSafeBackend` are handed a host and a port and return a connected stream. The
first goes through `connect` and translates what it raises; the second resolves in a worker thread, and
has its own failover loop over a network library that opens the connections. That library is any program
over the state of the outside, like the kernel. -/

namespace SsrfGuard

variable {σ : Type} (U : Unicode)

/-- What a backend raises. -/
inductive BackendExc
  /-- An exception no handler of the backend touched. -/
  | untranslated (e : Exc)
  /-- `httpcore.ConnectTimeout`. -/
  | connectTimeout (message : Str)
  /-- `httpcore.ConnectError`. -/
  | connectError (message : Str)
  deriving DecidableEq

/-! ## The origin -/

/-- `_TCP`. -/
def tcpScheme : Str := text "tcp"

/-- `_NODELAY`: `(IPPROTO_TCP, TCP_NODELAY, 1)`. -/
def nodelay : SocketOption := .number ipprotoTcp 1 1

/-- `_check_port`. -/
def checkOriginPort (p : Policy) (port : ℤ) : Except Exc Unit :=
  if port ∉ p.allowedPorts then
    .error (.blockedURLError (tcpScheme ++ text "://" ++ intText port)
      (text "port " ++ intText port ++ text " is not in allowed_ports (" ++
        join (text ", ") ((p.allowedPorts.insertionSort (· ≤ ·)).map intText) ++ text ")"))
  else .ok ()

/-- `_check_origin`. -/
def checkOrigin (p : Policy) (host : Str) (port : ℤ) : Except Exc Unit := do
  checkOriginPort p port
  p.checkHostOnly U host

/-- `_origin_target`. -/
def originTarget (host : Str) (port : ℤ) : Target where
  scheme := tcpScheme
  host := host
  port := port
  hostAsWritten := host
  address := literalAddress U host

/-- The arguments of `connect_tcp` after the host and the port. -/
structure TcpOptions where
  /-- Seconds to wait for the connection. -/
  timeout : Option ℚ := none
  /-- Address to bind before connecting. -/
  localAddress : Option Str := none
  /-- `setsockopt` arguments to apply. -/
  socketOptions : List SocketOption := []

/-! ## `SafeBackend` -/

/-- The two handlers of `SafeBackend.connect_tcp`. -/
def translated (e : Exc) : BackendExc :=
  if e.isTimeoutError then .connectTimeout (e.str U)
  else if e.isOSError then .connectError (e.str U)
  else .untranslated e

/-- What `SafeBackend.connect_tcp` hands to `connect`. -/
def TcpOptions.toConnectOptions (options : TcpOptions) : ConnectOptions where
  timeout := options.timeout
  sourceAddress := options.localAddress.map fun address => (address, 0)
  socketOptions := options.socketOptions ++ [nodelay]

/-- `SafeBackend.connect_tcp`, with the socket in place of the stream that wraps it. -/
def SafeBackend.connectTcp (p : Policy) (resolver : Resolver σ) (kernel : Kernel σ)
    (observer : Option (Observer σ)) (host : Str) (port : ℤ) (options : TcpOptions) :
    Prog (World σ) BackendExc SockId := do
  Prog.mapError .untranslated (Prog.ofExcept (checkOrigin U p host port))
  Prog.mapError (translated U) do
    let addresses ← resolve U p (originTarget U host port) resolver observer
    connect U p kernel addresses options.toConnectOptions observer

/-! ## The network library -/

/-- A stream object, numbered in the order they are asked for. -/
abbrev StreamId : Type := ℕ

/-- The operations of the network library. -/
structure Anyio (σ : Type) where
  /-- `anyio.connect_tcp(remote_host, remote_port, local_host)` inside `anyio.fail_after(timeout)`, for
  the stream with this number. -/
  connectTcp : StreamId → IPAddress → ℤ → Option Str → Option ℚ → Prog σ Exc Unit
  /-- `stream.extra(raw_socket).setsockopt(*option)`. -/
  setsockopt : StreamId → SocketOption → Prog σ Exc Unit
  /-- `stream.extra(remote_address, None)`. -/
  remoteAddress : StreamId → Prog σ Exc (Option SockAddr)
  /-- `stream.aclose()`. -/
  aclose : StreamId → Prog σ Exc Unit

/-- A call to the network library, and how it ended. -/
inductive StreamCall
  /-- A stream was asked for. -/
  | connectTcp (stream : StreamId) (host : IPAddress) (port : ℤ) (result : Except Exc Unit)
  /-- An option was set. -/
  | setsockopt (stream : StreamId) (option : SocketOption) (result : Except Exc Unit)
  /-- A stream was asked for its peer. -/
  | remoteAddress (stream : StreamId) (result : Except Exc (Option SockAddr))
  /-- A stream was closed. -/
  | aclose (stream : StreamId) (result : Except Exc Unit)
  deriving DecidableEq

/-- The world of an asynchronous run: the one resolution runs in, and the streams. -/
structure AsyncWorld (σ : Type) where
  /-- The state of the outside, and the calls of the worker thread. -/
  world : World σ
  /-- How many streams have been asked for. -/
  streams : ℕ
  /-- The calls to the network library, in order. -/
  calls : List StreamCall

/-- The asynchronous world before a run, around the other one. -/
def AsyncWorld.around (world : World σ) : AsyncWorld σ := { world := world, streams := 0, calls := [] }

/-- Run what the two backends share. -/
def shared {ε α : Type} (x : Prog (World σ) ε α) : Prog (AsyncWorld σ) ε α :=
  Prog.zoom AsyncWorld.world (fun w world => { w with world := world }) x

/-- Call the network library, and write the call down. -/
def callStream {α : Type} (operation : Prog σ Exc α) (call : Except Exc α → StreamCall) :
    Prog (AsyncWorld σ) Exc α := Prog.ofFun fun w =>
  let (result, env) := operation.exec w.world.env
  (result, { w with world := { w.world with env := env }, calls := w.calls ++ [call result] })

/-- A number for a new stream object. -/
def newStream : Prog (AsyncWorld σ) Exc StreamId := Prog.ofFun fun w =>
  (.ok w.streams, { w with streams := w.streams + 1 })

/-! ## `AsyncSafeBackend` -/

/-- `_verify_peer` of the asynchronous backend. -/
def verifyStream (io : Anyio σ) (stream : StreamId) (address : Address) (observer : Option (Observer σ)) :
    Prog (AsyncWorld σ) Exc Unit := do
  let remote ← callStream (io.remoteAddress stream) (.remoteAddress stream)
  match remote with
  -- `if remote is None: return`
  | none => pure ()
  | some sockaddr => do
    let peer ← Prog.ofExcept (sockaddrIp U sockaddr)
    if peer ≠ address.ip then do
      shared (reportPeer U address observer peer (some (peerReason peer address)))
      throw (.blockedAddressError peer.str (peerReason peer address))
    else shared (reportPeer U address observer peer none)

/-- The first `try` of the loop: ask for a stream to the address. -/
def openStream (io : Anyio σ) (address : Address) (options : TcpOptions) :
    Prog (AsyncWorld σ) Exc StreamId := do
  let port ← Prog.ofExcept (address.port U)
  let stream ← newStream
  callStream (io.connectTcp stream address.ip port options.localAddress options.timeout)
    (.connectTcp stream address.ip port)
  pure stream

/-- The second `try` of the loop: the options and the check of a stream, closed again whatever goes
wrong. -/
def admitStream (io : Anyio σ) (stream : StreamId) (address : Address) (options : TcpOptions)
    (observer : Option (Observer σ)) : Prog (AsyncWorld σ) Exc StreamId := do
  tryCatch (do
      options.socketOptions.forM fun option =>
        callStream (io.setsockopt stream option) (.setsockopt stream option)
      verifyStream U io stream address observer) fun e => do
    callStream (io.aclose stream) (.aclose stream)
    throw e
  pure stream

/-- The loop of `_first_reachable` over the addresses still to be attempted. -/
def reachFrom (io : Anyio σ) (options : TcpOptions) (observer : Option (Observer σ))
    (message : List Str → Str) :
    List Address → List Str → Bool → Prog (AsyncWorld σ) BackendExc StreamId
  | [], failures, onlyTimeouts =>
    throw (if onlyTimeouts then .connectTimeout (message failures) else .connectError (message failures))
  | address :: attempted, failures, onlyTimeouts => do
    let opened ← Prog.attempt (openStream U io address options)
    match opened with
    | .ok stream => Prog.mapError .untranslated (admitStream U io stream address options observer)
    | .error failed =>
      if failed.isTimeoutError then do
        let shown ← Prog.mapError .untranslated (Prog.ofExcept (address.str U))
        reachFrom io options observer message attempted (failures ++ [shown ++ text " (timed out)"])
          onlyTimeouts
      else if failed.isOSError then do
        let shown ← Prog.mapError .untranslated (Prog.ofExcept (address.str U))
        reachFrom io options observer message attempted
          (failures ++ [shown ++ text " (" ++ failed.str U ++ text ")"]) false
      else throw (.untranslated failed)

/-- `_first_reachable`: connect to the first validated address that answers. -/
def firstReachable (p : Policy) (io : Anyio σ) (addresses : List Address) (options : TcpOptions)
    (observer : Option (Observer σ)) : Prog (AsyncWorld σ) BackendExc StreamId :=
  let attempted := addresses.take p.maxConnectionAttempts.toNat
  let message (failures : List Str) : Str :=
    exhausted failures (addresses.length - attempted.length) p.maxConnectionAttempts
  reachFrom U io options observer message attempted [] true

/-- `AsyncSafeBackend.connect_tcp`, with the stream itself in place of the one that wraps it. -/
def AsyncSafeBackend.connectTcp (p : Policy) (resolver : Resolver σ) (io : Anyio σ)
    (observer : Option (Observer σ)) (host : Str) (port : ℤ) (options : TcpOptions) :
    Prog (AsyncWorld σ) BackendExc StreamId := do
  Prog.mapError .untranslated (Prog.ofExcept (checkOrigin U p host port))
  let looked ← Prog.attempt (shared (resolve U p (originTarget U host port) resolver observer))
  match looked with
  | .error e =>
    -- `except socket.gaierror` is the only handler here
    if e.isGaierror then throw (.connectError (e.str U)) else throw (.untranslated e)
  | .ok addresses => do
    Prog.mapError .untranslated (Prog.ofExcept (checkAll p addresses))
    firstReachable U p io addresses options observer

end SsrfGuard
