import SsrfGuard.Dns.Message
import SsrfGuard.Library.Effect
import SsrfGuard.Python.Socket
import Mathlib.Data.Rat.Defs
import Mathlib.Algebra.Order.Ring.Rat

/-! # The network a stub resolver sees

Everything outside the resolver is a schedule fixed in advance: how far the clock moves before each
reading, the transaction ids the interpreter draws, and, for each exchange the resolver starts, what the
sockets do. A run reads the schedule from left to right and writes down what was sent and received.
A server that answers according to what it was asked is one schedule for each run of it, so a statement
over all schedules is one over all servers. Times are exact seconds. -/

namespace SsrfGuard.Dns

/-- A failure of a socket operation: some `OSError`. -/
inductive SocketError
  /-- `TimeoutError`. -/
  | timeoutError (message : Str)
  /-- `socket.gaierror`. -/
  | gaierror (errno : Option ℤ) (message : Str)
  /-- Any other `OSError`. -/
  | osError (message : Str)
  deriving DecidableEq

/-- The failure as the exception it raises. -/
def SocketError.exc : SocketError → Exc
  | timeoutError message => .timeoutError message
  | gaierror errno message => .gaierror errno message
  | osError message => .osError message

theorem SocketError.isOSError_exc (failure : SocketError) : failure.exc.isOSError = true := by
  cases failure <;> rfl

/-- What a blocking operation comes to if it is left to finish, and after how long. -/
structure Timed (α : Type) where
  /-- How long it takes. -/
  lag : ℚ
  /-- Time does not run back. -/
  lag_nonneg : 0 ≤ lag
  /-- What it returns or raises. -/
  result : Except SocketError α

/-- What is there already. -/
def Timed.ready {α : Type} (a : α) : Timed α where
  lag := 0
  lag_nonneg := le_rfl
  result := .ok a

/-- One exchange over a datagram socket, as the network plays it. -/
structure UdpExchange where
  /-- What opening the socket, connecting it or sending the query fails with. -/
  failure : Option SocketError
  /-- What the receives bring, in order; after the last the server is silent. -/
  arrivals : List (Timed Bytes)

/-- One exchange over a stream socket, as the network plays it. -/
structure TcpExchange where
  /-- Connecting. -/
  connecting : Timed Unit
  /-- Sending the query. -/
  sending : Timed Unit
  /-- The bytes that arrive, piece by piece, an empty piece for the end of the stream; after the last
  the server is silent. -/
  arrivals : List (Timed Bytes)

/-- Everything outside the resolver. -/
structure Schedule where
  /-- How far the clock moves before each reading of it. -/
  tick : ℕ → ℚ
  /-- The clock is monotonic. -/
  tick_nonneg : ∀ n, 0 ≤ tick n
  /-- The transaction ids drawn. -/
  txid : ℕ → Fin 0x10000
  /-- The datagram exchanges. -/
  udp : ℕ → UdpExchange
  /-- The stream exchanges. -/
  tcp : ℕ → TcpExchange

/-- A clock that stands still does not go back. -/
theorem still_nonneg (_ : ℕ) : (0 : ℚ) ≤ 0 := le_rfl

theorem plainTxid_lt : 0x1234 < 0x10000 := by decide

/-- A transaction id. -/
def plainTxid : Fin 0x10000 := ⟨0x1234, plainTxid_lt⟩

/-- The two transports. -/
inductive Transport
  /-- Datagrams. -/
  | udp
  /-- A stream. -/
  | tcp
  deriving DecidableEq

/-- What a reply is matched against. -/
structure Query where
  /-- The transaction id sent. -/
  txid : ℕ
  /-- The name asked about. -/
  name : Str
  /-- The record type asked for. -/
  qtype : ℕ
  deriving DecidableEq

/-- What is written down of a run. -/
inductive Event
  /-- A datagram socket of this family was asked for. -/
  | asked (family : ℤ)
  /-- A query was sent. -/
  | sent (transport : Transport) (server : Str) (message : Bytes)
  /-- A whole message was received in reply to a query. -/
  | received (transport : Transport) (server : Str) (query : Query) (message : Bytes)
  deriving DecidableEq

/-- The world of one lookup. -/
structure World where
  /-- What is to come. -/
  schedule : Schedule
  /-- The time. -/
  clock : ℚ
  /-- Readings of the clock so far. -/
  readings : ℕ
  /-- Transaction ids drawn so far. -/
  draws : ℕ
  /-- Datagram exchanges so far. -/
  udpCount : ℕ
  /-- Stream exchanges so far. -/
  tcpCount : ℕ
  /-- What has happened, in order. -/
  log : List Event

/-- The world before a run. -/
def World.start (schedule : Schedule) : World where
  schedule := schedule
  clock := 0
  readings := 0
  draws := 0
  udpCount := 0
  tcpCount := 0
  log := []

/-- A program over the world of a lookup. -/
abbrev Net (α : Type) : Type := Prog World Exc α

/-- `time.monotonic()`. -/
def monotonic : Net ℚ := Prog.ofFun fun w =>
  let now := w.clock + w.schedule.tick w.readings
  (.ok now, { w with clock := now, readings := w.readings + 1 })

/-- `secrets.randbits(16)`. -/
def randbits : Net ℕ := Prog.ofFun fun w =>
  (.ok (w.schedule.txid w.draws), { w with draws := w.draws + 1 })

/-- Write an event down. -/
def note (event : Event) : Net Unit := Prog.ofFun fun w => (.ok (), { w with log := w.log ++ [event] })

/-- Let time pass. -/
def elapse (span : ℚ) : Net Unit := Prog.ofFun fun w => (.ok (), { w with clock := w.clock + span })

/-- A blocking operation on a socket whose timeout is `timeout`. -/
def await {α : Type} (timeout : ℚ) (operation : Timed α) : Net α :=
  if timeout < operation.lag then do
    elapse timeout
    throw (.timeoutError (text "timed out"))
  else do
    elapse operation.lag
    match operation.result with
    | .ok a => pure a
    | .error failure => throw failure.exc

/-- A receive to which nothing comes. -/
def silence {α : Type} (timeout : ℚ) : Net α := do
  elapse timeout
  throw (.timeoutError (text "timed out"))

/-- Open, connect and send on a datagram socket of this family. -/
def openDatagram (family : ℤ) : Net UdpExchange := do
  note (.asked family)
  let exchange : UdpExchange ← Prog.ofFun fun w =>
    (.ok (w.schedule.udp w.udpCount), { w with udpCount := w.udpCount + 1 })
  match exchange.failure with
  | some failure => throw failure.exc
  | none => pure exchange

/-- The next stream exchange. -/
def openStream : Net TcpExchange := Prog.ofFun fun w =>
  (.ok (w.schedule.tcp w.tcpCount), { w with tcpCount := w.tcpCount + 1 })

end SsrfGuard.Dns
