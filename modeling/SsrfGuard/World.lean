import SsrfGuard.Library.Trace
import SsrfGuard.Observer
import SsrfGuard.Python.Socket
import Mathlib.Data.Rat.Defs

/-! # The resolver and the kernel

What the library calls and does not control: a resolver, and the socket operations. Each is any program
over a state of the outside, so it may answer whatever it likes, remember, and raise. The world is that
state together with the trace of the calls made, which the outside cannot touch. -/

namespace SsrfGuard

variable {σ : Type}

/-- A `Resolver`: host, port, family, socket type, protocol and flags to the rows of an answer. -/
abbrev Resolver (σ : Type) : Type :=
  Str → ℤ → ℤ → ℤ → ℤ → ℤ → Prog σ Exc (List ResolverAnswer)

/-- The arguments of one `setsockopt`. -/
inductive SocketOption
  /-- `(level, optname, number)`. -/
  | number (level optname value : ℤ)
  /-- `(level, optname, bytes)`. -/
  | bytes (level optname : ℤ) (value : List UInt8)
  /-- `(level, optname, None, optlen)`. -/
  | sized (level optname optlen : ℤ)
  deriving DecidableEq

/-- A socket object, numbered in the order they are opened. -/
abbrev SockId : Type := ℕ

/-- The socket operations. -/
structure Kernel (σ : Type) where
  /-- `socket.socket(family, type)`, for the object with this number. -/
  socket : SockId → ℤ → ℤ → Prog σ Exc Unit
  /-- `sock.setsockopt(*option)`. -/
  setsockopt : SockId → SocketOption → Prog σ Exc Unit
  /-- `sock.settimeout(timeout)`. -/
  settimeout : SockId → ℚ → Prog σ Exc Unit
  /-- `sock.bind(address)`. -/
  bind : SockId → Str × ℤ → Prog σ Exc Unit
  /-- `sock.connect(sockaddr)`. -/
  connect : SockId → SockAddr → Prog σ Exc Unit
  /-- `sock.getpeername()`. -/
  getpeername : SockId → Prog σ Exc SockAddr
  /-- `sock.close()`. -/
  close : SockId → Prog σ Exc Unit

/-- A call to the outside, and how it ended. -/
inductive Action
  /-- A lookup. -/
  | lookup (host : Str) (port flags : ℤ) (result : Except Exc (List ResolverAnswer))
  /-- A socket was opened, or failed to be. -/
  | socket (sock : SockId) (family : ℤ) (result : Except Exc Unit)
  /-- An option was set. -/
  | setsockopt (sock : SockId) (option : SocketOption) (result : Except Exc Unit)
  /-- A timeout was set. -/
  | settimeout (sock : SockId) (timeout : ℚ) (result : Except Exc Unit)
  /-- A socket was bound. -/
  | bind (sock : SockId) (address : Str × ℤ) (result : Except Exc Unit)
  /-- A socket was connected. -/
  | connect (sock : SockId) (sockaddr : SockAddr) (result : Except Exc Unit)
  /-- A socket was asked for its peer. -/
  | getpeername (sock : SockId) (result : Except Exc SockAddr)
  /-- A socket was closed. -/
  | close (sock : SockId) (result : Except Exc Unit)

/-- Whether a call is a lookup. -/
def Action.isLookup : Action → Bool
  | lookup .. => true
  | _ => false

/-- The world of a run. -/
structure World (σ : Type) where
  /-- The state of the outside. -/
  env : σ
  /-- How many sockets have been asked for. -/
  sockets : ℕ
  /-- The calls made, in order. -/
  trace : List Action

/-- Call the outside, and write the call down. -/
def perform {α : Type} (operation : Prog σ Exc α) (action : Except Exc α → Action) :
    Prog (World σ) Exc α := Prog.ofFun fun w =>
  let (result, env) := operation.exec w.env
  (result, { w with env := env, trace := w.trace ++ [action result] })

/-- A number for a new socket object. -/
def newSocket : Prog (World σ) Exc SockId := Prog.ofFun fun w =>
  (.ok w.sockets, { w with sockets := w.sockets + 1 })

/-- An observer runs in the outside. -/
def outside (observer : Option (Observer σ)) : Option (Observer (World σ)) :=
  observer.map fun callback decision =>
    Prog.zoom World.env (fun w env => { w with env := env }) (callback decision)

/-! ## Traces -/

/-- The program only adds calls to the trace, and what it adds satisfies `Q` together with how it
ends. -/
def Traces {α : Type} (x : Prog (World σ) Exc α) (Q : Except Exc α → List Action → Prop) : Prop :=
  ∀ w, ∃ added, (x.exec w).2.trace = w.trace ++ added ∧ Q (x.exec w).1 added

namespace Traces

variable {α β : Type} {x : Prog (World σ) Exc α} {Q Q' : Except Exc α → List Action → Prop}

theorem conseq (hx : Traces x Q) (h : ∀ result added, Q result added → Q' result added) :
    Traces x Q' := Prog.Adds.conseq hx h

theorem pure {a : α} (h : Q (.ok a) []) : Traces (Pure.pure a : Prog (World σ) Exc α) Q :=
  Prog.Adds.pure h

theorem throw {e : Exc} (h : Q (.error e) []) :
    Traces (MonadExcept.throw e : Prog (World σ) Exc α) Q := Prog.Adds.throw h

theorem ofExcept {r : Except Exc α} (h : Q r []) : Traces (Prog.ofExcept r : Prog (World σ) Exc α) Q :=
  Prog.Adds.ofExcept h

/-- Sequence: the calls of the first program, and then, when it returns, those of the second. -/
theorem bind {f : α → Prog (World σ) Exc β} {R : Except Exc β → List Action → Prop} (hx : Traces x Q)
    (hf : ∀ a first, Q (.ok a) first → Traces (f a) fun result second => R result (first ++ second))
    (he : ∀ e first, Q (.error e) first → R (.error e) first) : Traces (x >>= f) R :=
  Prog.Adds.bind hx hf he

/-- Sequence after a program that calls nothing. -/
theorem bind_silent {f : α → Prog (World σ) Exc β} {R : Except Exc β → List Action → Prop}
    (hx : Traces x fun _ added => added = []) (hf : ∀ a, Traces (f a) R)
    (he : ∀ e, R (.error e) []) : Traces (x >>= f) R := Prog.Adds.bind_silent hx hf he

/-- Sequence after a value that is there or an error. -/
theorem bind_ofExcept {r : Except Exc α} {f : α → Prog (World σ) Exc β}
    {R : Except Exc β → List Action → Prop} (hf : ∀ a, r = .ok a → Traces (f a) R)
    (he : ∀ e, r = .error e → R (.error e) []) : Traces (Prog.ofExcept r >>= f) R :=
  Prog.Adds.bind_ofExcept hf he

/-- Sequence after one call. -/
theorem bind_perform {operation : Prog σ Exc α} {action : Except Exc α → Action}
    {f : α → Prog (World σ) Exc β} {R : Except Exc β → List Action → Prop}
    (hf : ∀ a, Traces (f a) fun result second => R result (action (.ok a) :: second))
    (he : ∀ e, R (.error e) [action (.error e)]) :
    Traces (SsrfGuard.perform operation action >>= f) R := by
  have hcall : Traces (SsrfGuard.perform operation action) fun result added =>
      added = [action result] := fun w => ⟨_, rfl, rfl⟩
  refine hcall.bind ?_ ?_
  · rintro a first rfl
    exact hf a
  · rintro e first rfl
    exact he e

/-- Handler: the calls of the program, and then, when it raises, those of the handler. -/
theorem tryCatch {handler : Exc → Prog (World σ) Exc α} {R : Except Exc α → List Action → Prop}
    (hx : Traces x Q) (ha : ∀ a first, Q (.ok a) first → R (.ok a) first)
    (hh : ∀ e first, Q (.error e) first →
      Traces (handler e) fun result second => R result (first ++ second)) :
    Traces (MonadExcept.tryCatch x handler) R := Prog.Adds.tryCatch hx ha hh

/-- A call adds itself. -/
theorem perform {operation : Prog σ Exc α} {action : Except Exc α → Action}
    (h : ∀ result, Q result [action result]) : Traces (SsrfGuard.perform operation action) Q := by
  intro w
  exact ⟨_, rfl, h _⟩

theorem newSocket {Q : Except Exc SockId → List Action → Prop} (h : ∀ sock, Q (.ok sock) []) :
    Traces (SsrfGuard.newSocket : Prog (World σ) Exc SockId) Q := by
  intro w
  exact ⟨[], (List.append_nil _).symm, h _⟩

/-- Reporting adds nothing. -/
theorem report (observer : Option (Observer σ)) (decision : Decision)
    {Q : Except Exc Unit → List Action → Prop} (h : ∀ result, Q result []) :
    Traces (SsrfGuard.report (outside observer) decision) Q := by
  cases observer with
  | none => exact pure (h _)
  | some callback =>
      have hcallback : Traces (Prog.zoom World.env (fun w env => { w with env := env })
          (callback decision)) (fun _ added => added = []) := by
        intro w
        exact ⟨[], (List.append_nil _).symm, rfl⟩
      refine tryCatch hcallback ?_ ?_
      · rintro a first rfl
        exact h _
      · rintro e first rfl
        split
        · exact pure (h _)
        · exact throw (h _)

end Traces

/-! ## Calls without a lookup -/

/-- None of the calls is a lookup. -/
def NoLookup (added : List Action) : Prop := ∀ action ∈ added, action.isLookup = false

theorem noLookup_nil : NoLookup [] := fun _ h => nomatch h

theorem noLookup_singleton {action : Action} (h : action.isLookup = false) : NoLookup [action] := by
  intro a ha
  rwa [List.mem_singleton.mp ha]

theorem NoLookup.append {first second : List Action} (h₁ : NoLookup first) (h₂ : NoLookup second) :
    NoLookup (first ++ second) := by
  intro action hmem
  rcases List.mem_append.mp hmem with hmem | hmem
  · exact h₁ action hmem
  · exact h₂ action hmem

/-- The program makes no lookup. -/
def LooksUpNothing {α : Type} (x : Prog (World σ) Exc α) : Prop := Traces x fun _ => NoLookup

namespace LooksUpNothing

variable {α β : Type} {x : Prog (World σ) Exc α} {f : α → Prog (World σ) Exc β}

theorem bind (hx : LooksUpNothing x) (hf : ∀ a, LooksUpNothing (f a)) : LooksUpNothing (x >>= f) :=
  Prog.AddsOnly.bind hx hf

theorem perform {operation : Prog σ Exc α} {action : Except Exc α → Action}
    (h : ∀ result, (action result).isLookup = false) :
    LooksUpNothing (SsrfGuard.perform operation action) :=
  Traces.perform fun result => noLookup_singleton (h result)

theorem forM {γ : Type} {g : γ → Prog (World σ) Exc Unit} (h : ∀ c, LooksUpNothing (g c)) (l : List γ) :
    LooksUpNothing (l.forM g) := Prog.AddsOnly.forM h l

theorem optionForM {γ : Type} {g : γ → Prog (World σ) Exc Unit} (h : ∀ c, LooksUpNothing (g c))
    (o : Option γ) : LooksUpNothing (o.forM g) := Prog.AddsOnly.optionForM h o

end LooksUpNothing

end SsrfGuard
