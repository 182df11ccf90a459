import SsrfGuard.Python.IpAddress

/-! # `socket`: constants and address rows

The numbers are those of Linux, where the library is developed and tested. -/

namespace SsrfGuard

/-- `AF_INET`. -/
def afInet : ℤ := 2

/-- `AF_INET6`. -/
def afInet6 : ℤ := 10

/-- `SOCK_STREAM`. -/
def sockStream : ℤ := 1

/-- `SOCK_DGRAM`. -/
def sockDgram : ℤ := 2

/-- `IPPROTO_TCP`. -/
def ipprotoTcp : ℤ := 6

/-- `IPPROTO_UDP`. -/
def ipprotoUdp : ℤ := 17

/-- `AI_NUMERICHOST`. -/
def aiNumerichost : ℤ := 4

/-- `EAI_NONAME`. -/
def eaiNoname : ℤ := -2

/-- `EAI_AGAIN`. -/
def eaiAgain : ℤ := -3

/-- One element of a socket address. -/
inductive SockItem
  /-- A text, such as the address. -/
  | str (s : Str)
  /-- A number, such as the port. -/
  | int (n : ℤ)
  deriving DecidableEq

/-- `str(item)`. -/
def SockItem.text : SockItem → Str
  | str s => s
  | int n => intText n

/-- A `SockAddr`: two elements for IPv4, four for IPv6. -/
abbrev SockAddr : Type := List SockItem

/-- One row of a resolver's answer. -/
structure ResolverAnswer where
  /-- The address family. -/
  family : ℤ
  /-- The socket type. -/
  socktype : ℤ
  /-- The protocol. -/
  proto : ℤ
  /-- The canonical name. -/
  canonname : Str
  /-- The socket address. -/
  sockaddr : SockAddr
  deriving DecidableEq

end SsrfGuard
