import SsrfGuard.Dns.Network

/-! # The stub resolver

`UdpResolver`: every family in scope is asked about, server by server and attempt by attempt, over a
datagram and, when the reply is truncated, over a stream. -/

namespace SsrfGuard.Dns

variable (U : Unicode)

/-- `_QUERY_FLAGS`. -/
def queryFlags : ℕ := 0x0100

/-- `_UDP_READ_LIMIT`. -/
def udpReadLimit : ℕ := 4096

/-- `_TCP_READ_LIMIT`. -/
def tcpReadLimit : ℕ := 65535

/-- A `float` number of seconds, with its `str`. -/
structure Seconds where
  /-- The value. -/
  value : ℚ
  /-- `str(seconds)`. -/
  shown : Str

/-- The fields of a `UdpResolver`. -/
structure ResolverFields where
  /-- Addresses of the recursive resolvers to ask, in order. -/
  nameservers : List Str
  /-- The ceiling on one call. -/
  timeout : Seconds := { value := 5, shown := text "5.0" }
  /-- How long to wait for one server before trying the next. -/
  attemptTimeout : Seconds := { value := 1, shown := text "1.0" }
  /-- How many times to ask each server before moving on. -/
  attempts : ℤ := 2
  /-- Which address families to ask about, in order. -/
  families : List ℤ := [afInet6, afInet]

namespace ResolverFields

/-- The check of one nameserver in `UdpResolver.__post_init__`. -/
def checkNameserver (server : Str) : Except Exc Unit :=
  match ipAddress U server with
  | .ok _ => .ok ()
  | .error _ => .error (.valueError (text "nameserver " ++ repr U server ++
      text " is not an IP address, and a name here could only be " ++
      text "resolved by the resolver being configured"))

/-- The check of one family. -/
def checkFamily (family : ℤ) : Except Exc Unit :=
  if family ≠ afInet ∧ family ≠ afInet6 then
    .error (.valueError (text "family " ++ intText family ++ text " is neither AF_INET nor AF_INET6"))
  else .ok ()

/-- The checks of the numbers, after which the families are looked at. -/
def checkNumbers (fields : ResolverFields) : Except Exc Unit :=
  if fields.timeout.value ≤ 0 then
    .error (.valueError (text "timeout=" ++ fields.timeout.shown ++ text " must be positive"))
  else if fields.attemptTimeout.value ≤ 0 then
    .error (.valueError (text "attempt_timeout=" ++ fields.attemptTimeout.shown ++
      text " must be positive"))
  else if fields.attempts < 1 then
    .error (.valueError (text "attempts=" ++ intText fields.attempts ++ text " must be at least 1"))
  else if fields.families = [] then
    .error (.valueError (text "families is empty, so no query would be sent"))
  else .ok ()

/-- `UdpResolver.__post_init__`. -/
def postInit (fields : ResolverFields) : Except Exc Unit :=
  if fields.nameservers = [] then
    .error (.valueError (text "nameservers is empty, so no lookup could succeed"))
  else do
    fields.nameservers.forM (checkNameserver U)
    fields.checkNumbers
    fields.families.forM checkFamily

end ResolverFields

/-- A `UdpResolver` that could be constructed. -/
structure UdpResolver where
  /-- Its fields. -/
  fields : ResolverFields
  /-- They pass `__post_init__`. -/
  valid : fields.postInit U = .ok ()

/-! ## Time and sockets -/

/-- `_time_left`: the seconds remaining, or a `TimeoutError`. -/
def timeLeft (until_ : ℚ) (whose : Str) : Net ℚ := do
  let now ← monotonic
  if until_ - now ≤ 0 then throw (.timeoutError (text "the deadline passed " ++ whose))
  else pure (until_ - now)

/-- `_recv_exactly`: this many bytes, and what is still to arrive. A piece that is longer than what is
missing is cut, as `recv(count - got)` cuts it. -/
def recvExactly (until_ : ℚ) : ℕ → List (Timed Bytes) → Net (Bytes × List (Timed Bytes))
  | 0, arrivals => pure ([], arrivals)
  | _ + 1, [] => do
    let left ← timeLeft until_ (text "mid-reply")
    silence left
  | missing + 1, arrival :: arrivals => do
    let left ← timeLeft until_ (text "mid-reply")
    let chunk ← await left arrival
    if chunk = [] then throw (.malformedError (text "the server closed the connection mid-reply"))
    else if missing + 1 < chunk.length then
      pure (chunk.take (missing + 1), .ready (chunk.drop (missing + 1)) :: arrivals)
    else do
      let (rest, arrivals) ← recvExactly until_ (missing + 1 - chunk.length) arrivals
      pure (chunk ++ rest, arrivals)

/-- `_family_of`. -/
def familyOf (server : Str) : Except Exc ℤ := do
  let parsed ← ipAddress U server
  .ok (if parsed.version = 6 then afInet6 else afInet)

/-! ## One question to one server -/

namespace UdpResolver

variable {U} (r : UdpResolver U)

/-- The receive loop of `_over_udp`: a reply to another question does not end the wait. -/
def awaitAnswer (U : Unicode) (server : Str) (query : Query) (attemptEnds : ℚ) :
    List (Timed Bytes) → Net Answer
  | [] => do
    let left ← timeLeft attemptEnds (text "waiting for an answer")
    silence left
  | arrival :: arrivals => do
    let left ← timeLeft attemptEnds (text "waiting for an answer")
    let datagram ← await left arrival
    let message := datagram.take udpReadLimit
    note (.received .udp server query message)
    match parse U message query.txid query.name query.qtype with
    | .ok answer => pure answer
    | .error e =>
      -- `except _WrongQuestionError: continue`
      if e.isWrongQuestionError then awaitAnswer U server query attemptEnds arrivals else throw e

/-- `_over_udp`. -/
def overUdp (server : Str) (message : Bytes) (query : Query) (until_ : ℚ) : Net Answer := do
  let now ← monotonic
  let attemptEnds := min until_ (now + r.fields.attemptTimeout.value)
  let family ← Prog.ofExcept (familyOf U server)
  let exchange ← openDatagram family
  note (.sent .udp server message)
  awaitAnswer U server query attemptEnds exchange.arrivals

/-- The reading half of `_over_tcp`: a length, and that many bytes. -/
def recvReply (server : Str) (query : Query) (until_ : ℚ) (arrivals : List (Timed Bytes)) :
    Net Bytes := do
  let (length, arrivals) ← recvExactly until_ 2 arrivals
  if tcpReadLimit < bigEndian length then
    throw (.malformedError (text "a TCP reply claims " ++ natText (bigEndian length) ++ text " bytes"))
  else do
    let (reply, _) ← recvExactly until_ (bigEndian length) arrivals
    note (.received .tcp server query reply)
    pure reply

/-- `_over_tcp`. -/
def overTcp (server : Str) (message : Bytes) (query : Query) (until_ : ℚ) : Net Answer := do
  let left ← timeLeft until_ (text "before a TCP retry")
  -- one timeout, taken before the connect, for the connect and for the send
  let remaining := min left r.fields.attemptTimeout.value
  let exchange ← openStream
  await remaining exchange.connecting
  note (.sent .tcp server (packShort message.length ++ message))
  await remaining exchange.sending
  let reply ← recvReply server query until_ exchange.arrivals
  let answer ← Prog.ofExcept (parse U reply query.txid query.name query.qtype)
  if answer.truncated then throw (.malformedError (text "a TCP reply is marked truncated"))
  else pure answer

/-- The bytes of a query. -/
def queryMessage (txid : ℕ) (question : Bytes) (qtype : ℕ) : Bytes :=
  packShort txid ++ packShort queryFlags ++ packShort 1 ++ packShort 0 ++ packShort 0 ++ packShort 0 ++
    question ++ (packShort qtype ++ packShort classIn)

/-- `_ask`: one question to one server, falling back to TCP if truncated. -/
def ask (server : Str) (question : Bytes) (qtype : ℕ) (deadline : ℚ) : Net Answer := do
  let txid ← randbits
  let message := queryMessage txid question qtype
  let name ← Prog.ofExcept (nameOf question)
  let query : Query := { txid := txid, name := name, qtype := qtype }
  let answer ← r.overUdp server message query deadline
  if answer.truncated then r.overTcp server message query deadline else pure answer

/-! ## Every server, every family -/

/-- `_give_up`. -/
def giveUp {α : Type} (host : Str) (qtype : ℕ) (failures : List Str) : Net α :=
  throw (.gaierror (some eaiAgain) (host ++ text ": no " ++
    (if qtype = typeAaaa then text "AAAA" else text "A") ++ text " answer; tried " ++
    join (text "; ") failures))

/-- What the handler of `_query` catches. -/
def isCaught (e : Exc) : Bool :=
  e.isTimeoutError || e.isOSError || e.isMalformedError || e.isServerFailureError

/-- The two loops of `_query`, over the attempts still to be made, each named by its server. -/
def queryFrom (host : Str) (question : Bytes) (qtype : ℕ) (deadline : ℚ) :
    List Str → List Str → Net (List Record)
  | [], failures => giveUp host qtype failures
  | server :: attempts, failures => do
    -- looked at before every attempt, not only between servers
    let now ← monotonic
    if deadline ≤ now then
      giveUp host qtype (failures ++ [server ++ text ": the " ++ r.fields.timeout.shown ++
        text "s deadline passed"])
    else
      tryCatch (do let answer ← r.ask server question qtype deadline; pure answer.records) fun failed =>
        -- the question is asked again, of this server or of the next
        if isCaught failed then
          queryFrom host question qtype deadline attempts
            (failures ++ [server ++ text ": " ++ failed.str U])
        else throw failed

/-- The attempts `_query` makes: each server so many times, in order. -/
def attempts : List Str :=
  r.fields.nameservers.flatMap fun server => List.replicate r.fields.attempts.toNat server

/-- `_query`. -/
def query (host : Str) (question : Bytes) (qtype : ℕ) (deadline : ℚ) : Net (List Record) :=
  r.queryFrom host question qtype deadline r.attempts []

/-- The record type asked for to learn addresses of a family. -/
def qtypeOf (wanted : ℤ) : ℕ := if wanted = afInet6 then typeAaaa else typeA

/-- The loop of `_lookup` over the families in scope. -/
def lookupFrom (host : Str) (question : Bytes) (deadline : ℚ) : List ℤ → Net (List Record)
  | [] => pure []
  | wanted :: families => do
    let records ← r.query host question (qtypeOf wanted) deadline
    let rest ← lookupFrom host question deadline families
    pure (records ++ rest)

/-- `_lookup`. -/
def lookup (host : Str) (family : ℤ) (deadline : ℚ) : Net (List Record) :=
  match encodeName U host with
  | .error bad => throw (.gaierror (some eaiNoname) (host ++ text ": " ++ bad.str U))
  | .ok question =>
    r.lookupFrom host question deadline
      (r.fields.families.filter fun wanted => family = 0 ∨ family = wanted)

/-- `str.strip("[]")`. -/
def stripBrackets (s : Str) : Str :=
  let bracket (c : ℕ) : Bool := c == ord '[' || c == ord ']'
  (s.dropWhile bracket).rdropWhile bracket

/-- `_literal`. -/
def literal (U : Unicode) (host : Str) (numericOnly : Bool) : Except Exc (Option IPAddress) :=
  match ipAddress U (stripBrackets host) with
  | .ok address => .ok (some address)
  | .error _ =>
    if numericOnly then
      .error (.gaierror (some eaiNoname)
        (host ++ text ": AI_NUMERICHOST was given and this is not an address"))
    else .ok none

/-- `_row`. -/
def row (ip : IPAddress) (port socktype proto : ℤ) : ResolverAnswer :=
  -- `socktype or SOCK_STREAM`
  let kind := if socktype ≠ 0 then socktype else sockStream
  let number := if proto ≠ 0 then proto else if kind = sockDgram then ipprotoUdp else ipprotoTcp
  match ip with
  | .v6 _ _ => { family := afInet6, socktype := kind, proto := number, canonname := [],
                 sockaddr := [.str ip.str, .int port, .int 0, .int 0] }
  | .v4 _ => { family := afInet, socktype := kind, proto := number, canonname := [],
               sockaddr := [.str ip.str, .int port] }

/-- `flags & AI_NUMERICHOST`, of an `int` in two's complement. -/
def numericHost (flags : ℤ) : Bool := flags / aiNumerichost % 2 = 1

/-- `UdpResolver.__call__`. -/
def call (host : Str) (port family socktype proto flags : ℤ) : Net (List ResolverAnswer) := do
  let now ← monotonic
  let deadline := now + r.fields.timeout.value
  let parsed ← Prog.ofExcept (literal U host (numericHost flags))
  match parsed with
  | some address => pure [row address port socktype proto]
  | none =>
    let addresses ← r.lookup host family deadline
    if addresses = [] then throw (.gaierror (some eaiNoname) (host ++ text ": no address records"))
    else pure (addresses.map fun record => row record.ip port socktype proto)

/-- `UdpResolver.records`. -/
def records (host : Str) (family : ℤ) : Net (List Record) := do
  let now ← monotonic
  let deadline := now + r.fields.timeout.value
  -- no look at whether the host is a literal, and none at whether anything was found
  r.lookup host family deadline

end UdpResolver

variable {U}

theorem mem_nameservers_of_mem_attempts {r : UdpResolver U} {server : Str} (h : server ∈ r.attempts) :
    server ∈ r.fields.nameservers := by
  obtain ⟨first, hfirst, hserver⟩ := List.mem_flatMap.mp h
  rwa [List.eq_of_mem_replicate hserver]

section Call

variable {r : UdpResolver U} {host : Str} {port family socktype proto flags : ℤ}

/-- A host that is no address is refused when only an address was asked for, once the clock has been looked at. -/
theorem exec_call_of_refused {e : Exc} (h : UdpResolver.literal U host (UdpResolver.numericHost flags) = .error e)
    (w : World) :
    (r.call host port family socktype proto flags).exec w =
      (.error e, { w with clock := w.clock + w.schedule.tick w.readings, readings := w.readings + 1 }) := by
  rw [UdpResolver.call, h, Prog.exec_bind]
  rfl

/-- A literal is answered without a lookup. -/
theorem exec_call_of_literal {address : IPAddress}
    (h : UdpResolver.literal U host (UdpResolver.numericHost flags) = .ok (some address)) (w : World) :
    (r.call host port family socktype proto flags).exec w =
      (.ok [UdpResolver.row address port socktype proto],
        { w with clock := w.clock + w.schedule.tick w.readings, readings := w.readings + 1 }) := by
  rw [UdpResolver.call, h, Prog.exec_bind]
  rfl

/-- A name is looked up by the deadline, and then found to have an address or not. -/
theorem exec_call_of_lookup (h : UdpResolver.literal U host (UdpResolver.numericHost flags) = .ok none) (w : World) :
    (r.call host port family socktype proto flags).exec w =
      match (r.lookup host family (w.clock + w.schedule.tick w.readings + r.fields.timeout.value)).exec
          { w with clock := w.clock + w.schedule.tick w.readings, readings := w.readings + 1 } with
      | (.ok records, v) =>
        (if records = [] then .error (.gaierror (some eaiNoname) (host ++ text ": no address records"))
          else .ok (records.map fun record => UdpResolver.row record.ip port socktype proto), v)
      | (.error e, v) => (.error e, v) := by
  rw [UdpResolver.call, h, Prog.exec_bind]
  dsimp only [monotonic, Prog.exec_ofFun]
  rw [Prog.exec_bind, Prog.exec_ofExcept]
  dsimp only
  rw [Prog.exec_bind]
  cases (r.lookup host family (w.clock + w.schedule.tick w.readings + r.fields.timeout.value)).exec
      { w with clock := w.clock + w.schedule.tick w.readings, readings := w.readings + 1 } with
  | mk result v =>
      cases result with
      | error e => rfl
      | ok records =>
          dsimp only
          split <;> rfl

end Call

/-! ## What waiting leaves alone -/

/-- Looking at the clock and letting time pass keep the condition. -/
structure Timeless (I : World → Prop) : Prop where
  /-- A look at the clock. -/
  reading : ∀ {w : World}, I w → ∀ clock, I { w with clock := clock, readings := w.readings + 1 }
  /-- Time that passes. -/
  elapsing : ∀ {w : World}, I w → ∀ clock, I { w with clock := clock }

section Timeless

variable {I : World → Prop} {E : Exc → Prop}

theorem Timeless.monotonic (h : Timeless I) : Prog.Keeps I E monotonic :=
  Prog.Keeps.ofFun fun _ hw => ⟨_, _, rfl, h.reading hw _⟩

theorem Timeless.elapse (h : Timeless I) (span : ℚ) : Prog.Keeps I E (elapse span) :=
  Prog.Keeps.ofFun fun _ hw => ⟨_, _, rfl, h.elapsing hw _⟩

theorem Timeless.timeLeft (h : Timeless I) (until_ : ℚ) (whose : Str) :
    Prog.Keeps I (fun e => UdpResolver.isCaught e = true) (timeLeft until_ whose) :=
  h.monotonic.bind fun _ => .ite (.throw rfl) (.pure _)

theorem Timeless.await (h : Timeless I) {α : Type} (timeout : ℚ) (operation : Timed α) :
    Prog.Keeps I (fun e => UdpResolver.isCaught e = true) (await timeout operation) := by
  refine .ite ?_ ?_
  · exact (h.elapse timeout).bind fun _ => .throw rfl
  · refine (h.elapse operation.lag).bind fun _ => ?_
    cases operation.result with
    | ok a => exact .pure a
    | error failure => exact .throw (by simp [UdpResolver.isCaught, failure.isOSError_exc])

theorem Timeless.silence (h : Timeless I) {α : Type} (timeout : ℚ) :
    Prog.Keeps I (fun e => UdpResolver.isCaught e = true) (silence timeout : Net α) :=
  (h.elapse timeout).bind fun _ => .throw rfl

theorem Timeless.recvExactly (h : Timeless I) (until_ : ℚ) (count : ℕ) (arrivals : List (Timed Bytes)) :
    Prog.Keeps I (fun e => UdpResolver.isCaught e = true) (recvExactly until_ count arrivals) := by
  -- nothing missing ends the read before the deadline is looked at
  induction arrivals generalizing count with
  | nil =>
      cases count with
      | zero => exact .pure _
      | succ missing => exact (h.timeLeft _ _).bind fun left => h.silence left
  | cons arrival arrivals ih =>
      cases count with
      | zero => exact .pure _
      | succ missing =>
          rw [SsrfGuard.Dns.recvExactly]
          refine (h.timeLeft _ _).bind fun left => (h.await left arrival).bind fun chunk => ?_
          exact .ite (.throw rfl) (.ite (.pure _) ((ih _).bind fun _ => .pure _))

end Timeless

end SsrfGuard.Dns
