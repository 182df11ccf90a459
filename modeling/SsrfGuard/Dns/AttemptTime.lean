import SsrfGuard.Dns.Deadline
import SsrfGuard.Dns.Outcome
import SsrfGuard.Dns.Replies
import Mathlib.Tactic.Ring

/-! # How long one server may take

`attempt_timeout` is how long to wait for one server before trying the next. It holds for an exchange over a
datagram. A retry over TCP takes it for the connect and again for the send, and reads the reply under the
deadline of the whole call; so a server that accepts the connection and then stalls keeps the next one from
being asked. A retry is over in time exactly when the server is done connecting, taking the query and sending
its reply by then. -/

namespace SsrfGuard.Dns

variable {U : Unicode}

/-- The time spent waiting so far. -/
def World.waited (w : World) : ℚ := w.clock - w.idle

/-! ## What a program waits for -/

/-- The waits of a program, under a deadline and from this reading of the clock on, fit in a budget; `none`
is a wait to which nothing comes. -/
def WaitsFit (tick : ℕ → ℚ) (deadline : ℚ) : ℚ → ℕ → ℚ → List (Option ℚ) → Prop
  | _, _, _, [] => True
  | clock, readings, budget, wait :: waits =>
    let now := clock + tick readings
    now < deadline →
      match wait with
      | none => deadline - now ≤ budget
      | some lag =>
        min (deadline - now) lag ≤ budget ∧
          (now + lag ≤ deadline → WaitsFit tick deadline (now + lag) (readings + 1) (budget - lag) waits)

/-- The program waits for these, one after the other, as long as the deadline has not passed. -/
def Waits (schedule : Schedule) (deadline : ℚ) {α : Type} (x : Net α) (waits : List (Option ℚ)) : Prop :=
  ∀ w : World, w.schedule = schedule → w.waited ≤ (x.exec w).2.waited ∧ ∀ budget, 0 ≤ budget →
    ((x.exec w).2.waited ≤ w.waited + budget ↔
      WaitsFit schedule.tick deadline w.clock w.readings budget waits)

section Waits

variable {schedule : Schedule} {deadline : ℚ} {α β : Type}

/-- A program that does not wait. -/
theorem Waits.done {x : Net α} (hclock : ∀ w, (x.exec w).2.waited = w.waited) :
    Waits schedule deadline x [] := by
  intro w _
  rw [hclock]
  exact ⟨le_rfl, fun budget hbudget => iff_of_true (by linarith) True.intro⟩

theorem Waits.pure (a : α) : Waits schedule deadline (Pure.pure a) [] := .done fun _ => rfl

theorem Waits.throw (e : Exc) : Waits schedule deadline (MonadExcept.throw e : Net α) [] := .done fun _ => rfl

theorem Waits.ofExcept_bind {result : Except Exc α} {f : α → Net β} (hf : ∀ a, Waits schedule deadline (f a) []) :
    Waits schedule deadline (Prog.ofExcept result >>= f) [] := by
  intro w hw
  rw [Prog.exec_bind, Prog.exec_ofExcept]
  cases result with
  | ok a => exact hf a w hw
  | error e => exact ⟨le_rfl, fun budget hbudget => iff_of_true (by dsimp only; linarith) True.intro⟩

/-- Writing an event down takes no time. -/
theorem Waits.note_bind {event : Event} {f : Unit → Net α} {waits : List (Option ℚ)}
    (h : Waits schedule deadline (f ()) waits) : Waits schedule deadline (note event >>= f) waits := by
  intro w hw
  exact h { w with log := w.log ++ [event] } hw

/-- Reading the clock moves it between operations. -/
theorem waited_reading (w : World) (clock : ℚ) :
    ({ w with clock := clock, readings := w.readings + 1 } : World).waited =
      w.waited + (clock - (w.clock + w.schedule.tick w.readings)) := by
  rw [World.waited, World.waited, idle_reading]
  ring

/-- A wait moves it, whatever else has happened. -/
theorem waited_elapse (w : World) (clock : ℚ) (tcpCount : ℕ) (log : List Event) :
    ({ w with clock := clock, tcpCount := tcpCount, log := log } : World).waited =
      w.waited + (clock - w.clock) := by
  simp only [World.waited, World.idle]
  ring

theorem Waits.silence (whose : Str) :
    Waits schedule deadline (do
      let left ← timeLeft deadline whose
      silence left : Net α) [none] := by
  rintro w rfl
  rw [exec_silence]
  by_cases hover : deadline ≤ w.clock + w.schedule.tick w.readings
  · rw [if_pos hover, waited_reading]
    refine ⟨by linarith, fun budget hbudget => ?_⟩
    exact iff_of_true (by linarith) fun h => absurd h (not_lt.mpr hover)
  · rw [if_neg hover, waited_reading]
    refine ⟨by linarith, fun budget hbudget => ?_⟩
    rw [WaitsFit, forall_prop_of_true (not_le.mp hover)]
    constructor <;> intro h <;> linarith

theorem Waits.wait (whose : Str) (operation : Timed α) {f : α → Net β} {waits : List (Option ℚ)}
    (hf : ∀ a, operation.result = .ok a → Waits schedule deadline (f a) waits)
    (herror : ∀ failure, operation.result = .error failure → waits = []) :
    Waits schedule deadline (do
      let left ← timeLeft deadline whose
      let a ← await left operation
      f a) (some operation.lag :: waits) := by
  rintro w rfl
  rw [exec_wait]
  have hlag := operation.lag_nonneg
  by_cases hover : deadline ≤ w.clock + w.schedule.tick w.readings
  · rw [if_pos hover, waited_reading]
    refine ⟨by linarith, fun budget hbudget => ?_⟩
    exact iff_of_true (by linarith) fun h => absurd h (not_lt.mpr hover)
  rw [if_neg hover]
  by_cases hlate : deadline < w.clock + w.schedule.tick w.readings + operation.lag
  · rw [if_pos hlate, waited_reading]
    refine ⟨by linarith, fun budget hbudget => ?_⟩
    rw [WaitsFit, forall_prop_of_true (not_le.mp hover), min_eq_left (by linarith),
      forall_prop_of_false (not_le.mpr hlate), and_iff_left True.intro]
    constructor <;> intro h <;> linarith
  rw [if_neg hlate]
  -- the wait is over before the deadline, and what follows has the rest of the budget
  have hnow : ∀ budget, WaitsFit w.schedule.tick deadline w.clock w.readings budget
      (some operation.lag :: waits) ↔ operation.lag ≤ budget ∧
        WaitsFit w.schedule.tick deadline (w.clock + w.schedule.tick w.readings + operation.lag)
          (w.readings + 1) (budget - operation.lag) waits := by
    intro budget
    rw [WaitsFit, forall_prop_of_true (not_le.mp hover), min_eq_right (by linarith),
      forall_prop_of_true (not_lt.mp hlate)]
  cases hresult : operation.result with
  | error failure =>
      dsimp only
      rw [waited_reading]
      refine ⟨by linarith, fun budget hbudget => ?_⟩
      rw [hnow, herror failure hresult, WaitsFit, and_true]
      constructor <;> intro h <;> linarith
  | ok a =>
      dsimp only
      obtain ⟨hmono, hrest⟩ := hf a hresult { w with
        clock := w.clock + w.schedule.tick w.readings + operation.lag
        readings := w.readings + 1 } rfl
      rw [waited_reading] at hmono hrest
      refine ⟨by linarith, fun budget hbudget => ?_⟩
      rw [hnow]
      by_cases hfits : operation.lag ≤ budget
      · rw [and_iff_right hfits, ← hrest (budget - operation.lag) (by linarith)]
        constructor <;> intro h <;> linarith
      · exact iff_of_false (fun h => hfits (by linarith)) fun h => hfits h.1

/-! ## What reading a reply waits for -/

/-- How long the receives of `_recv_exactly` take. -/
def receiveWaits : ℕ → List (Timed Bytes) → List (Option ℚ)
  | 0, _ => []
  | _ + 1, [] => [none]
  | missing + 1, arrival :: arrivals =>
    some arrival.lag ::
      match arrival.result with
      | .error _ => []
      | .ok chunk =>
        if chunk = [] ∨ missing + 1 < chunk.length then []
        else receiveWaits (missing + 1 - chunk.length) arrivals

/-- What they bring when they all come, and what is still to arrive. -/
def received : ℕ → List (Timed Bytes) → Option (Bytes × List (Timed Bytes))
  | 0, arrivals => some ([], arrivals)
  | _ + 1, [] => none
  | missing + 1, arrival :: arrivals =>
    match arrival.result with
    | .error _ => none
    | .ok chunk =>
      if chunk = [] then none
      else if missing + 1 < chunk.length then
        some (chunk.take (missing + 1), .ready (chunk.drop (missing + 1)) :: arrivals)
      else (received (missing + 1 - chunk.length) arrivals).map fun (rest, arrivals) => (chunk ++ rest, arrivals)

/-- How long the receives of a reply take: those of its length, and those of that many bytes. -/
def replyWaits (arrivals : List (Timed Bytes)) : List (Option ℚ) :=
  receiveWaits 2 arrivals ++
    match received 2 arrivals with
    | none => []
    | some (length, arrivals) =>
      if tcpReadLimit < bigEndian length then [] else receiveWaits (bigEndian length) arrivals

theorem waits_recvExactly {count : ℕ} {arrivals : List (Timed Bytes)}
    {f : Bytes × List (Timed Bytes) → Net β} {waits : List (Option ℚ)}
    (hf : ∀ result, received count arrivals = some result → Waits schedule deadline (f result) waits)
    (hnone : received count arrivals = none → waits = []) :
    Waits schedule deadline (recvExactly deadline count arrivals >>= f)
      (receiveWaits count arrivals ++ waits) := by
  induction arrivals generalizing count f with
  | nil =>
      cases count with
      | zero => exact hf _ rfl
      | succ missing =>
          rw [hnone rfl, List.append_nil, receiveWaits, recvExactly]
          simp only [silence, bind_assoc]
          exact Waits.silence (text "mid-reply")
  | cons arrival arrivals ih =>
      cases count with
      | zero => exact hf _ rfl
      | succ missing =>
          rw [received] at hf hnone
          rw [recvExactly, receiveWaits, List.cons_append]
          simp only [bind_assoc]
          refine Waits.wait (text "mid-reply") arrival (fun chunk hresult => ?_) fun failure hresult => ?_
          · rw [hresult] at hf hnone ⊢
            dsimp only at hf hnone ⊢
            by_cases hempty : chunk = []
            · -- the end of the stream
              rw [if_pos hempty] at hnone
              rw [if_pos hempty, if_pos (.inl hempty), hnone rfl]
              exact Waits.throw _
            rw [if_neg hempty] at hf hnone ⊢
            by_cases hlong : missing + 1 < chunk.length
            · rw [if_pos hlong] at hf
              rw [if_pos hlong, if_pos (.inr hlong), List.nil_append, pure_bind]
              exact hf _ rfl
            · rw [if_neg hlong] at hf hnone ⊢
              rw [if_neg (not_or.mpr ⟨hempty, hlong⟩), bind_assoc]
              refine ih (fun result hrest => ?_) fun hrest => hnone (by rw [hrest]; rfl)
              rw [pure_bind]
              exact hf _ (by rw [hrest]; rfl)
          · rw [hresult] at hnone ⊢
            exact hnone rfl

theorem waits_recvReply (server : Str) (query : Query) (arrivals : List (Timed Bytes)) {f : Bytes → Net β}
    (hf : ∀ reply, Waits schedule deadline (f reply) []) :
    Waits schedule deadline (UdpResolver.recvReply server query deadline arrivals >>= f)
      (replyWaits arrivals) := by
  rw [UdpResolver.recvReply, bind_assoc]
  refine waits_recvExactly (fun result hlength => ?_) fun hnone => by rw [hnone]
  obtain ⟨length, rest⟩ := result
  rw [hlength]
  dsimp only
  by_cases hlimit : tcpReadLimit < bigEndian length
  · rw [if_pos hlimit, if_pos hlimit]
    exact Waits.throw _
  · rw [if_neg hlimit, if_neg hlimit, bind_assoc, ← List.append_nil (receiveWaits _ _)]
    refine waits_recvExactly (fun result _ => ?_) fun _ => rfl
    obtain ⟨reply, _⟩ := result
    simp only [bind_assoc, pure_bind]
    exact Waits.note_bind (hf reply)

end Waits

/-! ## One exchange -/

namespace UdpResolver

variable (r : UdpResolver U)

/-- The server is done in time with the retry that begins in this world: connecting and taking the query
together take no longer than `attempt_timeout`, and what is left of it is enough for the waits of the
reply. -/
def StreamFits (deadline : ℚ) (w : World) : Prop :=
  let now := w.clock + w.schedule.tick w.readings
  let remaining := min (deadline - now) r.fields.attemptTimeout.value
  let exchange := w.schedule.tcp w.tcpCount
  now < deadline → exchange.connecting.lag ≤ remaining → exchange.connecting.result = .ok () →
    exchange.connecting.lag + min remaining exchange.sending.lag ≤ r.fields.attemptTimeout.value ∧
    (exchange.sending.lag ≤ remaining → exchange.sending.result = .ok () →
      WaitsFit w.schedule.tick deadline (now + exchange.connecting.lag + exchange.sending.lag)
        (w.readings + 1)
        (r.fields.attemptTimeout.value - exchange.connecting.lag - exchange.sending.lag)
        (replyWaits exchange.arrivals))

end UdpResolver

/-- The connect, the send and the reply, once the timeout for the first two has been taken. -/
theorem waited_retry_iff {deadline remaining limit : ℚ} (w : World)
    (hle : remaining ≤ limit) (sent : Event) {rest : TcpExchange → Net Answer}
    (hrest : ∀ exchange, Waits w.schedule deadline (rest exchange) (replyWaits exchange.arrivals)) :
    ((do
      let exchange ← openStream
      await remaining exchange.connecting
      note sent
      await remaining exchange.sending
      rest exchange : Net Answer).exec w).2.waited ≤ w.waited + limit ↔
    ((w.schedule.tcp w.tcpCount).connecting.lag ≤ remaining →
      (w.schedule.tcp w.tcpCount).connecting.result = .ok () →
      (w.schedule.tcp w.tcpCount).connecting.lag +
        min remaining (w.schedule.tcp w.tcpCount).sending.lag ≤ limit ∧
      ((w.schedule.tcp w.tcpCount).sending.lag ≤ remaining →
        (w.schedule.tcp w.tcpCount).sending.result = .ok () →
        WaitsFit w.schedule.tick deadline
          (w.clock + (w.schedule.tcp w.tcpCount).connecting.lag + (w.schedule.tcp w.tcpCount).sending.lag)
          w.readings
          (limit - (w.schedule.tcp w.tcpCount).connecting.lag - (w.schedule.tcp w.tcpCount).sending.lag)
          (replyWaits (w.schedule.tcp w.tcpCount).arrivals))) := by
  rw [Prog.exec_bind]
  dsimp only [openStream, Prog.exec_ofFun]
  generalize w.schedule.tcp w.tcpCount = exchange
  have hconnecting := exchange.connecting.lag_nonneg
  have hsending := exchange.sending.lag_nonneg
  -- the connect
  rw [Prog.exec_bind, exec_await]
  by_cases hlate : remaining < exchange.connecting.lag
  · rw [if_pos hlate, min_eq_left hlate.le]
    dsimp only
    rw [waited_elapse]
    exact iff_of_true (by linarith) fun hconnect => absurd hconnect (not_le.mpr hlate)
  rw [if_neg hlate, min_eq_right (not_lt.mp hlate), forall_prop_of_true (not_lt.mp hlate)]
  rw [not_lt] at hlate
  cases hconnect : exchange.connecting.result with
  | error failure =>
      dsimp only [Except.mapError]
      rw [waited_elapse]
      exact iff_of_true (by linarith) fun hok => nomatch hok
  | ok _ =>
      rw [forall_prop_of_true rfl]
      dsimp only [Except.mapError, note]
      rw [Prog.exec_bind, Prog.exec_ofFun]
      dsimp only
      -- the send, under the same timeout
      rw [Prog.exec_bind, exec_await]
      by_cases hslow : remaining < exchange.sending.lag
      · rw [if_pos hslow, min_eq_left hslow.le]
        dsimp only
        rw [waited_elapse, forall_prop_of_false (not_le.mpr hslow), and_true]
        constructor <;> intro h <;> linarith
      rw [if_neg hslow, min_eq_right (not_lt.mp hslow), forall_prop_of_true (not_lt.mp hslow)]
      cases hsend : exchange.sending.result with
      | error failure =>
          dsimp only [Except.mapError]
          rw [waited_elapse, forall_prop_of_false (by simp), and_true]
          constructor <;> intro h <;> linarith
      | ok _ =>
          rw [forall_prop_of_true rfl]
          dsimp only [Except.mapError]
          -- the reply, with what is left
          obtain ⟨hmono, hfits⟩ := hrest exchange { w with
            clock := w.clock + exchange.connecting.lag + exchange.sending.lag
            tcpCount := w.tcpCount + 1
            log := w.log ++ [sent] } rfl
          rw [waited_elapse w _ (w.tcpCount + 1) (w.log ++ [sent])] at hmono hfits
          by_cases hbudget : exchange.connecting.lag + exchange.sending.lag ≤ limit
          · rw [and_iff_right hbudget, ← hfits _ (by linarith)]
            constructor <;> intro h <;> linarith
          · exact iff_of_false (fun h => hbudget (by linarith)) fun h => hbudget h.1

theorem waits_reply {schedule : Schedule} {deadline : ℚ} (server : Str) (query : Query)
    (arrivals : List (Timed Bytes)) :
    Waits schedule deadline (do
      let reply ← UdpResolver.recvReply server query deadline arrivals
      let answer ← Prog.ofExcept (parse U reply query.txid query.name query.qtype)
      if answer.truncated then throw (.malformedError (text "a TCP reply is marked truncated"))
      else pure answer : Net Answer) (replyWaits arrivals) := by
  refine waits_recvReply server query arrivals fun reply => Waits.ofExcept_bind fun answer => ?_
  split
  · exact Waits.throw _
  · exact Waits.pure _

namespace UdpResolver

variable (r : UdpResolver U)

/-- A retry over TCP takes no longer than `attempt_timeout` exactly when the server is done by then. -/
theorem waited_overTcp_iff (server : Str) (message : Bytes) (query : Query) (deadline : ℚ) (w : World) :
    ((r.overTcp server message query deadline).exec w).2.waited ≤
        w.waited + r.fields.attemptTimeout.value ↔ r.StreamFits deadline w := by
  have hattempt := (timeouts_pos r).2
  rw [overTcp, Prog.exec_bind, exec_timeLeft, StreamFits]
  dsimp only
  by_cases hover : deadline - (w.clock + w.schedule.tick w.readings) ≤ 0
  · rw [if_pos hover]
    dsimp only
    rw [waited_reading]
    exact iff_of_true (by linarith) fun hearly => absurd hover (not_le.mpr (sub_pos.mpr hearly))
  rw [if_neg hover, forall_prop_of_true (sub_pos.mp (not_le.mp hover))]
  have hretry := @waited_retry_iff deadline _ _
    { w with clock := w.clock + w.schedule.tick w.readings, readings := w.readings + 1 }
    (min_le_right (deadline - (w.clock + w.schedule.tick w.readings)) r.fields.attemptTimeout.value)
    (.sent .tcp server (packShort message.length ++ message)) _
    fun exchange => waits_reply (U := U) server query exchange.arrivals
  rw [waited_reading, sub_self, add_zero] at hretry
  exact hretry

/-- An exchange over a datagram never takes longer. -/
theorem waited_askUdp_le (server : Str) (question : Bytes) (qtype : ℕ) (deadline : ℚ) (w : World) :
    ((r.askUdp server question qtype deadline).exec w).2.waited ≤
      w.waited + r.fields.attemptTimeout.value := by
  have hattempt := (timeouts_pos r).2
  rw [askUdp, Prog.exec_bind]
  dsimp only [randbits, Prog.exec_ofFun]
  rw [Prog.exec_bind, Prog.exec_ofExcept]
  cases nameOf question with
  | error e =>
      show w.waited ≤ w.waited + r.fields.attemptTimeout.value
      linarith
  | ok name =>
      dsimp only
      rw [overUdp, bind_assoc, Prog.exec_bind]
      dsimp only [monotonic, Prog.exec_ofFun]
      -- from here on every wait ends when the attempt does
      have hstart : Settled w.schedule
          (min deadline (w.clock + w.schedule.tick w.readings + r.fields.attemptTimeout.value))
          (w.waited + r.fields.attemptTimeout.value) True
          { w with
            clock := w.clock + w.schedule.tick w.readings
            readings := w.readings + 1
            draws := w.draws + 1 } := by
        have hidle := idle_reading { w with draws := w.draws + 1 } (w.clock + w.schedule.tick w.readings)
        have hsame : ({ w with draws := w.draws + 1 } : World).idle = w.idle := rfl
        refine ⟨rfl, (min_le_right _ _).trans ?_, iff_of_true ?_ True.intro⟩
        · rw [hidle, hsame, World.waited]
          linarith
        · rw [hidle, hsame, World.waited]
          dsimp only
          linarith
      refine sub_le_iff_le_add'.mpr ((Prog.Spares.exec ?_ hstart).inTime_iff.mpr True.intro)
      refine Prog.Spares.bind ?_ fun answer => Prog.Spares.pure _
      refine (Prog.Spares.ofExcept _).bind fun family => (prompt_openDatagram family).bind fun exchange => ?_
      exact (prompt_note _).bind fun _ => prompt_awaitAnswer le_rfl _ _ _

/-- Each exchange of `_ask` takes no longer than `attempt_timeout`: the one over a datagram, and the retry
over TCP, if there is one, from the world it begins in. -/
def ExchangesInTime (server : Str) (question : Bytes) (qtype : ℕ) (deadline : ℚ) (w : World) : Prop :=
  ((r.askUdp server question qtype deadline).exec w).2.waited ≤ w.waited + r.fields.attemptTimeout.value ∧
  ∀ v ∈ r.retryOfAsk server question qtype deadline w,
    ((r.ask server question qtype deadline).exec w).2.waited ≤ v.waited + r.fields.attemptTimeout.value

end UdpResolver

/-- **The exchanges with one server each take no longer than `attempt_timeout` exactly when the server is
done with the retry over TCP by then.** Asking it then takes no longer than two such timeouts, whatever the
deadline of the call. -/
theorem exchangesInTime_iff (r : UdpResolver U) (server : Str) (question : Bytes) (qtype : ℕ)
    (deadline : ℚ) (w : World) :
    (r.ExchangesInTime server question qtype deadline w ↔
      ∀ v ∈ r.retryOfAsk server question qtype deadline w, r.StreamFits deadline v) ∧
    (r.ExchangesInTime server question qtype deadline w →
      ((r.ask server question qtype deadline).exec w).2.waited ≤
        w.waited + 2 * r.fields.attemptTimeout.value) := by
  have hudp := r.waited_askUdp_le server question qtype deadline w
  have hattempt := (timeouts_pos r).2
  rw [UdpResolver.ExchangesInTime, and_iff_right hudp, UdpResolver.retryOfAsk, Prog.after,
    UdpResolver.ask_eq, Prog.exec_bind]
  cases hexec : (r.askUdp server question qtype deadline).exec w with
  | mk result v =>
      rw [hexec] at hudp
      cases result with
      | error e =>
          refine ⟨iff_of_true (List.forall_mem_nil _) (List.forall_mem_nil _), fun _ => ?_⟩
          dsimp only at hudp ⊢
          linarith
      | ok reply =>
          obtain ⟨message, query, records, truncated⟩ := reply
          dsimp only at hudp ⊢
          cases truncated with
          | false =>
              refine ⟨iff_of_true (List.forall_mem_nil _) (List.forall_mem_nil _), fun _ => ?_⟩
              show v.waited ≤ w.waited + 2 * r.fields.attemptTimeout.value
              linarith
          | true =>
              rw [if_pos rfl, if_pos rfl, List.forall_mem_singleton, List.forall_mem_singleton]
              refine ⟨r.waited_overTcp_iff server message query deadline v, fun hretry => ?_⟩
              linarith

/-- A server that truncates its reply, accepts the connection that follows, takes the query, and says
nothing more. -/
def stallsOverTcp : Schedule where
  tick _ := 0
  tick_nonneg := still_nonneg
  txid _ := plainTxid
  udp _ := { failure := none, arrivals := [.ready (bareResponse 0x1234 0x8380)] }
  tcp _ := { connecting := .ready (), sending := .ready (), arrivals := [] }

/-- The first of two servers stalls: five times `attempt_timeout` go by on it, and the second is never
asked. -/
theorem query_stallsOverTcp :
    let run := (twoServers.query (text "a") [1, 0x61, 0] typeA 5).exec (World.start stallsOverTcp)
    twoServers.fields.attemptTimeout.value = 1 ∧ run.2.clock = 5 ∧
    (∀ message, .sent .udp (text "127.0.0.2") message ∉ run.2.log) ∧
    ¬ twoServers.ExchangesInTime (text "127.0.0.1") [1, 0x61, 0] typeA 5 (World.start stallsOverTcp) := by
  have hlog : ((twoServers.query (text "a") [1, 0x61, 0] typeA 5).exec (World.start stallsOverTcp)).2.log =
      [.asked afInet, .sent .udp (text "127.0.0.1") (UdpResolver.queryMessage 0x1234 [1, 0x61, 0] typeA),
        .received .udp (text "127.0.0.1") plainQuery (bareResponse 0x1234 0x8380),
        .sent .tcp (text "127.0.0.1")
          (packShort 19 ++ UdpResolver.queryMessage 0x1234 [1, 0x61, 0] typeA)] := by
    decide +kernel
  refine ⟨rfl, by decide +kernel, fun message => ?_, ?_⟩
  · rw [hlog]
    have hserver : text "127.0.0.2" ≠ text "127.0.0.1" := by decide
    simp [hserver]
  · rintro ⟨-, hretry⟩
    have hstart : (twoServers.retryOfAsk (text "127.0.0.1") [1, 0x61, 0] typeA 5
        (World.start stallsOverTcp)).map World.waited = [0] := by
      decide +kernel
    obtain ⟨v, hv, hwaited⟩ := List.mem_map.mp (hstart ▸ List.mem_singleton.mpr rfl)
    have hlate : ((twoServers.ask (text "127.0.0.1") [1, 0x61, 0] typeA 5).exec
        (World.start stallsOverTcp)).2.waited = 5 := by
      decide +kernel
    have h := hretry v hv
    rw [hlate, hwaited] at h
    exact absurd h (by decide +kernel)

end SsrfGuard.Dns
