import SsrfGuard.Library.Cost
import SsrfGuard.Requests.Seam
import SsrfGuard.Httpx.Backend

/-! # How many sockets a connection costs

Every connection of the library goes through one of three seams, and each of them asks for at most
`max_connection_attempts` sockets, whatever the resolver, the kernel, the network library and the observer
do. -/

namespace SsrfGuard

variable {σ : Type} {U : Unicode}

/-! ## The blocking seams -/

/-- What the outside does costs no socket. -/
theorem costs_perform {α : Type} {n : ℕ} (operation : Prog σ Exc α) (action : Except Exc α → Action) :
    Prog.Costs World.sockets n (perform operation action) := .free fun _ => rfl

theorem costs_newSocket : Prog.Costs World.sockets 1 (newSocket : Prog (World σ) Exc SockId) :=
  fun _ => le_rfl

/-- A report costs what the observer costs. -/
theorem costs_report {ω : Type} {cost : ω → ℕ} {observer : Option (Observer ω)}
    (h : ∀ callback, observer = some callback → ∀ decision, Prog.Costs cost 0 (callback decision))
    (decision : Decision) : Prog.Costs cost 0 (report observer decision) := by
  cases observer with
  | none => exact .pure _
  | some callback =>
      refine (h callback rfl decision).tryCatch_free fun e => ?_
      split
      · exact .pure _
      · exact .throw _

/-- An observer in the outside opens no socket of the library. -/
theorem costs_outside {observer : Option (Observer σ)} (callback : Observer (World σ))
    (h : outside observer = some callback) (decision : Decision) :
    Prog.Costs World.sockets 0 (callback decision) := by
  obtain ⟨inner, -, rfl⟩ := Option.map_eq_some_iff.mp h
  exact .free fun _ => rfl

theorem costs_checkUrl (p : Policy) (url : Str) (observer : Option (Observer σ)) :
    Prog.Costs World.sockets 0 (p.checkUrl U url (outside observer)) := by
  unfold Policy.checkUrl
  split
  · split
    · exact (costs_report costs_outside _).free_bind fun _ => .throw _
    · exact .throw _
  · exact (costs_report costs_outside _).free_bind fun _ => .pure _

theorem costs_checkAnswers (p : Policy) (target : Target) (observer : Option (Observer σ))
    (answers : List Address) :
    Prog.Costs World.sockets 0 (checkAnswers p target (outside observer) answers) := by
  induction answers with
  | nil => exact .pure _
  | cons answer answers ih =>
      rw [checkAnswers]
      split
      · exact (costs_report costs_outside _).free_bind fun _ => ih.free_bind fun _ => .pure _
      · exact .throw _
      · exact (costs_report costs_outside _).free_bind fun _ => ih.free_bind fun _ => .pure _

theorem costs_resolve (p : Policy) (target : Target) (resolver : Resolver σ)
    (observer : Option (Observer σ)) :
    Prog.Costs World.sockets 0 (resolve U p target resolver observer) := by
  refine (costs_perform _ _).free_bind fun infos => (Prog.Costs.ofExcept _).free_bind fun answers => ?_
  refine .ite (.throw _) ?_
  exact (costs_checkAnswers p target observer answers).free_bind fun _ => .ofExcept _

theorem costs_reportPeer (address : Address) (observer : Option (Observer σ)) (peer : IPAddress)
    (refusal : Option Str) : Prog.Costs World.sockets 0 (reportPeer U address observer peer refusal) := by
  cases observer with
  | none => exact .pure _
  | some callback => exact (Prog.Costs.ofExcept _).free_bind fun _ => costs_report costs_outside _

theorem costs_verifyPeer (kernel : Kernel σ) (sock : SockId) (address : Address)
    (observer : Option (Observer σ)) :
    Prog.Costs World.sockets 0 (verifyPeer U kernel sock address observer) := by
  refine (costs_perform _ _).free_bind fun _ => (Prog.Costs.ofExcept _).free_bind fun _ => ?_
  exact .ite ((costs_reportPeer _ _ _ _).free_bind fun _ => .throw _) (costs_reportPeer _ _ _ _)

theorem costs_configure (kernel : Kernel σ) (sock : SockId) (options : ConnectOptions) :
    Prog.Costs World.sockets 0 (configure kernel sock options) := by
  refine (Prog.Costs.forM (fun _ => costs_perform _ _) _).free_bind fun _ => ?_
  refine (Prog.Costs.optionForM (fun _ => costs_perform _ _) _).free_bind fun _ => ?_
  exact .optionForM (fun _ => costs_perform _ _) _

/-- One address costs one socket. -/
theorem costs_openSocket (kernel : Kernel σ) (address : Address) (options : ConnectOptions)
    (observer : Option (Observer σ)) :
    Prog.Costs World.sockets 1 (openSocket U kernel address options observer) := by
  refine costs_newSocket.bind_free fun sock => (costs_perform _ _).free_bind fun _ => ?_
  have hbody : Prog.Costs World.sockets 0 (openBody U kernel sock address options observer) :=
    (costs_configure kernel sock options).free_bind fun _ =>
      (costs_perform _ _).free_bind fun _ => costs_verifyPeer kernel sock address observer
  refine Prog.Costs.free_bind ?_ fun _ => .pure _
  exact hbody.tryCatch_free fun e => (costs_perform _ _).free_bind fun _ => .throw e

theorem costs_attemptFrom (kernel : Kernel σ) (options : ConnectOptions) (observer : Option (Observer σ))
    (message : List Str → Str) (attempted : List Address) (failures : List Str) (onlyTimeouts : Bool) :
    Prog.Costs World.sockets attempted.length
      (attemptFrom U kernel options observer message attempted failures onlyTimeouts) := by
  induction attempted generalizing failures onlyTimeouts with
  | nil => exact .throw _
  | cons address attempted ih =>
      rw [attemptFrom, List.length_cons, Nat.add_comm]
      refine (costs_openSocket kernel address options observer).tryCatch fun e => ?_
      exact .ite ((Prog.Costs.ofExcept _).free_bind fun _ => ih _ _) (.throw _)

/-- `connect` asks for a socket for each address it attempts, and attempts no more than the cap. -/
theorem costs_connect (p : Policy) (kernel : Kernel σ) (addresses : List Address)
    (options : ConnectOptions) (observer : Option (Observer σ)) :
    Prog.Costs World.sockets p.maxConnectionAttempts.toNat
      (connect U p kernel addresses options observer) := by
  refine .ite (.throw _) ((Prog.Costs.ofExcept _).free_bind fun _ => ?_)
  exact (costs_attemptFrom kernel options observer _ _ _ _).mono (List.length_take_le _ _)

theorem SafeBackend.costs_connectTcp (p : Policy) (resolver : Resolver σ) (kernel : Kernel σ)
    (observer : Option (Observer σ)) (host : Str) (port : ℤ) (options : TcpOptions) :
    Prog.Costs World.sockets p.maxConnectionAttempts.toNat
      (SafeBackend.connectTcp U p resolver kernel observer host port options) := by
  refine (Prog.Costs.ofExcept _).mapError.free_bind fun _ => Prog.Costs.mapError ?_
  exact (costs_resolve p _ resolver observer).free_bind fun addresses =>
    costs_connect p kernel addresses _ observer

theorem costs_pinnedSocket (p : Policy) (connection : HTTPConnection) (resolver : Resolver σ)
    (kernel : Kernel σ) (audit : Prog σ Exc Unit) (observer : Option (Observer σ)) :
    Prog.Costs World.sockets p.maxConnectionAttempts.toNat
      (pinnedSocket U p connection resolver kernel audit observer) := by
  refine .ite (.throw _) ((costs_checkUrl p _ observer).mapError.free_bind fun target => ?_)
  have hopened : Prog.Costs World.sockets p.maxConnectionAttempts.toNat (do
      let addresses ← resolve U p target resolver observer
      connect U p kernel addresses connection.options observer) :=
    (costs_resolve p target resolver observer).free_bind fun addresses =>
      costs_connect p kernel addresses _ observer
  have haudit : Prog.Costs World.sockets 0 (Prog.mapError SeamExc.untranslated
      (Prog.zoom World.env (fun w env => { w with env := env }) audit)) := .free fun _ => rfl
  exact hopened.mapError.bind_free fun _ => haudit.free_bind fun _ => .pure _

/-! ## The asynchronous seam -/

/-- The sockets of an asynchronous world: its streams, and what the shared code has asked for. -/
def AsyncWorld.opened (v : AsyncWorld σ) : ℕ := v.streams + v.world.sockets

/-- What the two backends share costs the same in both. -/
theorem costs_shared {ε α : Type} {n : ℕ} {x : Prog (World σ) ε α} (hx : Prog.Costs World.sockets n x) :
    Prog.Costs AsyncWorld.opened n (shared x) := by
  refine hx.zoom fun v w => ?_
  dsimp only [AsyncWorld.opened]
  omega

theorem costs_callStream {α : Type} (operation : Prog σ Exc α) (call : Except Exc α → StreamCall) :
    Prog.Costs AsyncWorld.opened 0 (callStream operation call) := .free fun _ => rfl

theorem costs_openStream (io : Anyio σ) (address : Address) (options : TcpOptions) :
    Prog.Costs AsyncWorld.opened 1 (openStream U io address options) := by
  have hstream : Prog.Costs AsyncWorld.opened 1 (newStream : Prog (AsyncWorld σ) Exc StreamId) := by
    intro v
    change v.streams + 1 + v.world.sockets ≤ v.streams + v.world.sockets + 1
    omega
  refine (Prog.Costs.ofExcept _).free_bind fun _ => hstream.bind_free fun _ => ?_
  exact (costs_callStream _ _).free_bind fun _ => .pure _

theorem costs_admitStream (io : Anyio σ) (stream : StreamId) (address : Address) (options : TcpOptions)
    (observer : Option (Observer σ)) :
    Prog.Costs AsyncWorld.opened 0 (admitStream U io stream address options observer) := by
  have hverify : Prog.Costs AsyncWorld.opened 0 (verifyStream U io stream address observer) := by
    refine (costs_callStream _ _).free_bind fun remote => ?_
    cases remote with
    | none => exact .pure _
    | some sockaddr =>
        refine (Prog.Costs.ofExcept _).free_bind fun _ => .ite ?_ (costs_shared (costs_reportPeer _ _ _ _))
        exact (costs_shared (costs_reportPeer _ _ _ _)).free_bind fun _ => .throw _
  have hbody : Prog.Costs AsyncWorld.opened 0 (do
      options.socketOptions.forM fun option =>
        callStream (io.setsockopt stream option) (.setsockopt stream option)
      verifyStream U io stream address observer) :=
    (Prog.Costs.forM (fun _ => costs_callStream _ _) _).free_bind fun _ => hverify
  refine Prog.Costs.free_bind ?_ fun _ => .pure _
  exact hbody.tryCatch_free fun e => (costs_callStream _ _).free_bind fun _ => .throw e

theorem costs_reachFrom (io : Anyio σ) (options : TcpOptions) (observer : Option (Observer σ))
    (message : List Str → Str) (attempted : List Address) (failures : List Str) (onlyTimeouts : Bool) :
    Prog.Costs AsyncWorld.opened attempted.length
      (reachFrom U io options observer message attempted failures onlyTimeouts) := by
  induction attempted generalizing failures onlyTimeouts with
  | nil => exact .throw _
  | cons address attempted ih =>
      rw [reachFrom, List.length_cons, Nat.add_comm]
      -- the stream that was opened is paid for, and admitting it is free
      refine (costs_openStream io address options).attempt.bind fun opened => ?_
      cases opened with
      | ok stream =>
          exact (costs_admitStream io stream address options observer).mapError.mono (Nat.zero_le _)
      | error failed =>
          refine .ite ?_ (.ite ?_ (.throw _))
          · exact (Prog.Costs.ofExcept _).mapError.free_bind fun _ => ih _ _
          · exact (Prog.Costs.ofExcept _).mapError.free_bind fun _ => ih _ _

theorem AsyncSafeBackend.costs_connectTcp (p : Policy) (resolver : Resolver σ) (io : Anyio σ)
    (observer : Option (Observer σ)) (host : Str) (port : ℤ) (options : TcpOptions) :
    Prog.Costs AsyncWorld.opened p.maxConnectionAttempts.toNat
      (AsyncSafeBackend.connectTcp U p resolver io observer host port options) := by
  refine (Prog.Costs.ofExcept _).mapError.free_bind fun _ => ?_
  refine (costs_shared (costs_resolve p _ resolver observer)).attempt.free_bind fun looked => ?_
  cases looked with
  | error e => exact .ite (.throw _) (.throw _)
  | ok addresses =>
      refine (Prog.Costs.ofExcept _).mapError.free_bind fun _ => ?_
      exact (costs_reachFrom io options observer _ _ _ _).mono (List.length_take_le _ _)

end SsrfGuard
