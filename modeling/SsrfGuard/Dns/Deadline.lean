import SsrfGuard.Dns.UdpResolver
import SsrfGuard.Library.Blame
import Mathlib.Algebra.BigOperators.Group.List.Basic
import Mathlib.Tactic.Linarith
import Mathlib.Tactic.Positivity

/-! # When a lookup ends

Every wait of a call runs under a timeout taken from the deadline just before it, with one exception: a
retry over TCP takes the time left once, and both the connect and the send run under it. So a call is over
by its deadline exactly when each of its retries is done with both by then. -/

namespace SsrfGuard.Dns

variable {U : Unicode}

/-- The time that has passed between the operations rather than in one of them. -/
def World.idle (w : World) : ℚ := ((List.range w.readings).map w.schedule.tick).sum

/-! ## The retries of a call -/

namespace UdpResolver

variable (r : UdpResolver U)

/-- `_ask` up to the reply over a datagram. -/
def askUdp (server : Str) (question : Bytes) (qtype : ℕ) (deadline : ℚ) : Net (Bytes × Query × Answer) := do
  let txid ← randbits
  let message := queryMessage txid question qtype
  let name ← Prog.ofExcept (nameOf question)
  let query : Query := { txid := txid, name := name, qtype := qtype }
  let answer ← r.overUdp server message query deadline
  pure (message, query, answer)

/-- `_ask` is that, and a retry over TCP when the reply is truncated. -/
theorem ask_eq (server : Str) (question : Bytes) (qtype : ℕ) (deadline : ℚ) :
    r.ask server question qtype deadline = (do
      let (message, query, answer) ← r.askUdp server question qtype deadline
      if answer.truncated then r.overTcp server message query deadline else pure answer) := by
  simp only [ask, askUdp, bind_assoc, pure_bind]

/-- The world in which `_ask` retries over TCP, if it does. -/
def retryOfAsk (server : Str) (question : Bytes) (qtype : ℕ) (deadline : ℚ) : World → List World :=
  (r.askUdp server question qtype deadline).after fun (_, _, answer) w =>
    if answer.truncated then [w] else []

/-- The worlds in which the attempts of `_query` retry over TCP. -/
def retriesOfQuery (question : Bytes) (qtype : ℕ) (deadline : ℚ) : List Str → World → List World
  | [] => fun _ => []
  | server :: attempts => monotonic.after fun now w =>
    if deadline ≤ now then []
    else r.retryOfAsk server question qtype deadline w ++
      (r.ask server question qtype deadline).afterRaise (fun failed =>
        if isCaught failed then retriesOfQuery question qtype deadline attempts else fun _ => []) w

/-- The worlds in which the queries for these families retry over TCP. -/
def retriesOfFamilies (host : Str) (question : Bytes) (deadline : ℚ) : List ℤ → World → List World
  | [] => fun _ => []
  | wanted :: families => fun w =>
    r.retriesOfQuery question (qtypeOf wanted) deadline r.attempts w ++
      (r.query host question (qtypeOf wanted) deadline).after
        (fun _ => retriesOfFamilies host question deadline families) w

/-- The worlds in which `_lookup` retries over TCP. -/
def retriesOfLookup (host : Str) (family : ℤ) (deadline : ℚ) : World → List World :=
  match encodeName U host with
  | .error _ => fun _ => []
  | .ok question =>
    r.retriesOfFamilies host question deadline
      (r.fields.families.filter fun wanted => family = 0 ∨ family = wanted)

/-- The worlds in which a call retries over TCP. -/
def retries (host : Str) (family flags : ℤ) : World → List World :=
  monotonic.after fun now =>
    match literal U host (numericHost flags) with
    | .ok none => r.retriesOfLookup host family (now + r.fields.timeout.value)
    | _ => fun _ => []

/-- A retry that begins in this world with some time left, and whose connection is made in time, is done
with the connect and the send before the call has waited longer than its timeout. -/
def RetryFits (deadline : ℚ) (w : World) : Prop :=
  let now := w.clock + w.schedule.tick w.readings
  let remaining := min (deadline - now) r.fields.attemptTimeout.value
  let exchange := w.schedule.tcp w.tcpCount
  now < deadline → exchange.connecting.lag ≤ remaining → exchange.connecting.result = .ok () →
    w.clock + exchange.connecting.lag + min remaining exchange.sending.lag ≤
      w.idle + r.fields.timeout.value

end UdpResolver

/-! ## What one wait does to the clock -/

/-- The deadline is no further off than the timeout, time between operations apart, and `inTime` says
whether the call has waited no longer than that. -/
structure Settled (schedule : Schedule) (deadline limit : ℚ) (inTime : Prop) (w : World) : Prop where
  /-- The schedule is the one of the run. -/
  schedule_eq : w.schedule = schedule
  /-- No wait that ends by the deadline is too long. -/
  deadline_le : deadline ≤ w.idle + limit
  /-- Whether the call is in time. -/
  inTime_iff : w.clock ≤ w.idle + limit ↔ inTime

section Settled

variable {schedule : Schedule} {deadline limit : ℚ} {inTime : Prop}

/-- Whatever has happened, a world at the deadline or before it is in time. -/
theorem Settled.of_le {w w' : World} (h : Settled schedule deadline limit inTime w)
    (hschedule : w'.schedule = w.schedule) (hreadings : w'.readings = w.readings)
    (hle : w.clock ≤ w'.clock) (hclock : w'.clock ≤ deadline) :
    Settled schedule deadline limit inTime w' := by
  have hidle : w'.idle = w.idle := by rw [World.idle, World.idle, hschedule, hreadings]
  refine ⟨hschedule.trans h.schedule_eq, hidle ▸ h.deadline_le, ?_⟩
  rw [← h.inTime_iff, hidle]
  have := h.deadline_le
  exact iff_of_true (by linarith) (by linarith)

theorem Settled.early {w : World} (h : Settled schedule deadline limit inTime w)
    (hclock : w.clock ≤ deadline) : inTime := h.inTime_iff.mp (hclock.trans h.deadline_le)

theorem Settled.congr {w : World} {inTime' : Prop} (h : Settled schedule deadline limit inTime w)
    (hiff : inTime ↔ inTime') : Settled schedule deadline limit inTime' w :=
  ⟨h.schedule_eq, h.deadline_le, h.inTime_iff.trans hiff⟩

/-- The parts of the world that do not carry time do not matter. -/
theorem Settled.of_eq {w w' : World} (h : Settled schedule deadline limit inTime w)
    (hschedule : w'.schedule = w.schedule) (hreadings : w'.readings = w.readings)
    (hclock : w'.clock = w.clock) : Settled schedule deadline limit inTime w' := by
  have hidle : w'.idle = w.idle := by rw [World.idle, World.idle, hschedule, hreadings]
  exact ⟨hschedule.trans h.schedule_eq, hidle ▸ h.deadline_le, hclock ▸ hidle ▸ h.inTime_iff⟩

theorem idle_reading (w : World) (now : ℚ) :
    ({ w with clock := now, readings := w.readings + 1 } : World).idle =
      w.idle + w.schedule.tick w.readings := by
  simp [World.idle, List.range_succ]

/-- Reading the clock moves it between operations. -/
theorem Settled.reading {w : World} (h : Settled schedule deadline limit inTime w) :
    Settled schedule deadline limit inTime
      { w with clock := w.clock + w.schedule.tick w.readings, readings := w.readings + 1 } := by
  have htick := w.schedule.tick_nonneg w.readings
  refine ⟨h.schedule_eq, ?_, ?_⟩
  · rw [idle_reading]
    have := h.deadline_le
    linarith
  · rw [← h.inTime_iff, idle_reading]
    dsimp only
    constructor <;> intro hle <;> linarith

end Settled

/-- The program leaves it as it was whether the call is in time. -/
abbrev Prompt (schedule : Schedule) (deadline limit : ℚ) {α : Type} (x : Net α) : Prop :=
  Prog.Spares (Settled schedule deadline limit) x

section Prompt

variable {schedule : Schedule} {deadline limit : ℚ} {inTime : Prop} {α : Type}

theorem prompt_monotonic : Prompt schedule deadline limit monotonic :=
  fun _ => Prog.Keeps.ofFun fun _ hw => ⟨_, _, rfl, hw.reading⟩

theorem prompt_randbits : Prompt schedule deadline limit randbits :=
  fun _ => Prog.Keeps.ofFun fun _ hw => ⟨_, _, rfl, hw.of_eq rfl rfl rfl⟩

theorem prompt_note (event : Event) : Prompt schedule deadline limit (note event) :=
  fun _ => Prog.Keeps.ofFun fun _ hw => ⟨_, _, rfl, hw.of_eq rfl rfl rfl⟩

theorem prompt_openDatagram (family : ℤ) : Prompt schedule deadline limit (openDatagram family) := by
  refine (prompt_note _).bind fun _ => Prog.Spares.bind ?_ fun exchange => ?_
  · exact fun _ => Prog.Keeps.ofFun fun _ hw => ⟨_, _, rfl, hw.of_eq rfl rfl rfl⟩
  · cases exchange.failure with
    | some failure => exact Prog.Spares.throw _
    | none => exact Prog.Spares.pure _

/-- The time left is positive, and a wait of that long ends when it is up. -/
theorem timeLeft_spec (until_ : ℚ) (whose : Str) :
    Prog.Triple (Settled schedule deadline limit inTime) (timeLeft until_ whose)
      (fun left w => Settled schedule deadline limit inTime w ∧ 0 < left ∧ w.clock + left = until_)
      fun _ => Settled schedule deadline limit inTime := by
  have hnow : Prog.Triple (Settled schedule deadline limit inTime) monotonic
      (fun now w => Settled schedule deadline limit inTime w ∧ w.clock = now)
      fun _ => Settled schedule deadline limit inTime := fun w hw => ⟨hw.reading, rfl⟩
  refine hnow.bind fun now => ?_
  split
  · exact Prog.Triple.throw fun _ hw => hw.1
  · next hleft =>
    refine Prog.Triple.pure ?_
    rintro w ⟨hw, rfl⟩
    exact ⟨hw, not_le.mp hleft, add_sub_cancel _ _⟩

/-- Letting time pass up to the deadline. -/
theorem elapse_spec {span : ℚ} (hspan : 0 ≤ span) :
    Prog.Triple (fun w => Settled schedule deadline limit inTime w ∧ w.clock + span ≤ deadline)
      (elapse span) (fun _ => Settled schedule deadline limit inTime)
      fun _ => Settled schedule deadline limit inTime := by
  rintro w ⟨hw, hle⟩
  exact hw.of_le rfl rfl (le_add_of_nonneg_right hspan) hle

/-- A wait under a timeout that ends by the deadline. -/
theorem await_spec {timeout : ℚ} (operation : Timed α) :
    Prog.Triple
      (fun w => Settled schedule deadline limit inTime w ∧ 0 < timeout ∧ w.clock + timeout ≤ deadline)
      (await timeout operation) (fun _ => Settled schedule deadline limit inTime)
      fun _ => Settled schedule deadline limit inTime := by
  by_cases htimeout : 0 < timeout
  · rw [await]
    split
    · refine ((elapse_spec htimeout.le).conseq (fun w hw => ⟨hw.1, hw.2.2⟩) (fun _ _ => id)
        fun _ _ => id).bind fun _ => ?_
      exact Prog.Triple.throw fun _ => id
    · next hfits =>
      refine ((elapse_spec operation.lag_nonneg).conseq (fun w hw => ⟨hw.1, ?_⟩) (fun _ _ => id)
        fun _ _ => id).bind fun _ => ?_
      · have := hw.2.2
        linarith
      · cases operation.result with
        | ok a => exact Prog.Triple.pure fun _ => id
        | error failure => exact Prog.Triple.throw fun _ => id
  · intro w hw
    exact absurd hw.2.1 htimeout

/-- A receive, or any wait, under the time left before a point no later than the deadline. -/
theorem prompt_wait {until_ : ℚ} (h : until_ ≤ deadline) (whose : Str) (operation : Timed α) {β : Type}
    {f : α → Net β} (hf : ∀ a, Prompt schedule deadline limit (f a)) :
    Prompt schedule deadline limit (do
      let left ← timeLeft until_ whose
      let a ← await left operation
      f a) := by
  intro inTime
  refine Prog.Triple.bind ((timeLeft_spec until_ whose).conseq (fun _ => id) (fun _ _ => id)
    fun _ _ hw => ⟨True.intro, hw⟩) fun left => ?_
  refine Prog.Triple.bind ((await_spec operation).conseq ?_ (fun _ _ => id)
    fun _ _ hw => ⟨True.intro, hw⟩) fun a => hf a inTime
  rintro w ⟨hw, hleft, hend⟩
  exact ⟨hw, hleft, hend.le.trans h⟩

theorem prompt_silence {until_ : ℚ} (h : until_ ≤ deadline) (whose : Str) :
    Prompt schedule deadline limit (do
      let left ← timeLeft until_ whose
      silence left : Net α) := by
  intro inTime
  refine Prog.Triple.bind ((timeLeft_spec until_ whose).conseq (fun _ => id) (fun _ _ => id)
    fun _ _ hw => ⟨True.intro, hw⟩) fun left => ?_
  rintro w ⟨hw, hleft, hend⟩
  exact ⟨True.intro, hw.of_le rfl rfl (le_add_of_nonneg_right hleft.le) (hend.le.trans h)⟩

theorem prompt_recvExactly {until_ : ℚ} (h : until_ ≤ deadline) (count : ℕ)
    (arrivals : List (Timed Bytes)) :
    Prompt schedule deadline limit (recvExactly until_ count arrivals) := by
  induction arrivals generalizing count with
  | nil =>
      cases count with
      | zero => exact Prog.Spares.pure _
      | succ missing => exact prompt_silence h _
  | cons arrival arrivals ih =>
      cases count with
      | zero => exact Prog.Spares.pure _
      | succ missing =>
          rw [recvExactly]
          refine prompt_wait h _ arrival fun chunk => ?_
          refine Prog.Spares.ite (fun _ => Prog.Spares.throw _) fun _ => ?_
          refine Prog.Spares.ite (fun _ => Prog.Spares.pure _) fun _ => ?_
          exact (ih _).bind fun _ => Prog.Spares.pure _

theorem prompt_awaitAnswer {attemptEnds : ℚ} (h : attemptEnds ≤ deadline) (server : Str) (query : Query)
    (arrivals : List (Timed Bytes)) :
    Prompt schedule deadline limit (UdpResolver.awaitAnswer U server query attemptEnds arrivals) := by
  induction arrivals with
  | nil => exact prompt_silence h _
  | cons arrival arrivals ih =>
      rw [UdpResolver.awaitAnswer]
      refine prompt_wait h _ arrival fun datagram => (prompt_note _).bind fun _ => ?_
      cases parse U (datagram.take udpReadLimit) query.txid query.name query.qtype with
      | ok answer => exact Prog.Spares.pure _
      | error e => exact Prog.Spares.ite (fun _ => ih) fun _ => Prog.Spares.throw _

theorem prompt_recvReply (server : Str) (query : Query) (arrivals : List (Timed Bytes)) :
    Prompt schedule deadline limit (UdpResolver.recvReply server query deadline arrivals) := by
  rw [UdpResolver.recvReply]
  refine (prompt_recvExactly le_rfl _ _).bind fun length => ?_
  refine Prog.Spares.ite (fun _ => Prog.Spares.throw _) fun _ => ?_
  exact (prompt_recvExactly le_rfl _ _).bind fun reply => (prompt_note _).bind fun _ => Prog.Spares.pure _

variable {r : UdpResolver U}

/-- The attempt's own end is no later than the deadline. -/
theorem prompt_askUdp (server : Str) (question : Bytes) (qtype : ℕ) :
    Prompt schedule deadline limit (r.askUdp server question qtype deadline) := by
  rw [UdpResolver.askUdp]
  refine prompt_randbits.bind fun txid => (Prog.Spares.ofExcept _).bind fun name => ?_
  refine Prog.Spares.bind ?_ fun answer => Prog.Spares.pure _
  rw [UdpResolver.overUdp]
  refine prompt_monotonic.bind fun now => (Prog.Spares.ofExcept _).bind fun family => ?_
  refine (prompt_openDatagram family).bind fun exchange => (prompt_note _).bind fun _ => ?_
  exact prompt_awaitAnswer (min_le_left _ _) _ _ _

end Prompt

/-! ## What a retry does to the clock -/

theorem exec_await {α : Type} (timeout : ℚ) (operation : Timed α) (w : World) :
    (await timeout operation).exec w =
      (if timeout < operation.lag then .error (.timeoutError (text "timed out"))
        else operation.result.mapError SocketError.exc,
        { w with clock := w.clock + min timeout operation.lag }) := by
  rw [await]
  split
  · next hlate =>
    rw [min_eq_left hlate.le]
    rfl
  · next hlag =>
    rw [min_eq_right (not_lt.mp hlag)]
    cases h : operation.result with
    | ok a => rfl
    | error failure => rfl

section Retry

variable {schedule : Schedule} {deadline limit : ℚ} {inTime : Prop}

/-- The end of the send decides, when there is a send. -/
theorem settled_retry {w : World} {remaining : ℚ} (hw : Settled schedule deadline limit inTime w)
    (hpos : 0 < remaining) (hle : w.clock + remaining ≤ deadline) (sent : Event)
    {rest : TcpExchange → Net Answer} (hrest : ∀ exchange, Prompt schedule deadline limit (rest exchange)) :
    Settled schedule deadline limit
      ((w.schedule.tcp w.tcpCount).connecting.lag ≤ remaining →
        (w.schedule.tcp w.tcpCount).connecting.result = .ok () →
        w.clock + (w.schedule.tcp w.tcpCount).connecting.lag +
          min remaining (w.schedule.tcp w.tcpCount).sending.lag ≤ w.idle + limit)
      ((do
        let exchange ← openStream
        await remaining exchange.connecting
        note sent
        await remaining exchange.sending
        rest exchange : Net Answer).exec w).2 := by
  have hinTime : inTime := hw.early (by linarith)
  rw [Prog.exec_bind]
  dsimp only [openStream, Prog.exec_ofFun]
  generalize w.schedule.tcp w.tcpCount = exchange
  have hlag := exchange.connecting.lag_nonneg
  rw [Prog.exec_bind, exec_await]
  by_cases hlate : remaining < exchange.connecting.lag
  · rw [if_pos hlate, min_eq_left hlate.le]
    have hend : Settled schedule deadline limit inTime
        { w with clock := w.clock + remaining, tcpCount := w.tcpCount + 1 } :=
      hw.of_le rfl rfl (le_add_of_nonneg_right hpos.le) hle
    exact hend.congr (iff_of_true hinTime fun hconnect => absurd hconnect (not_le.mpr hlate))
  · rw [if_neg hlate, min_eq_right (not_lt.mp hlate)]
    rw [not_lt] at hlate
    have hconnected : Settled schedule deadline limit inTime
        { w with clock := w.clock + exchange.connecting.lag, tcpCount := w.tcpCount + 1 } :=
      hw.of_le rfl rfl (le_add_of_nonneg_right hlag) (by dsimp only; linarith)
    cases hresult : exchange.connecting.result with
    | error failure => exact hconnected.congr (iff_of_true hinTime fun _ hok => nomatch hok)
    | ok _ =>
        dsimp only [Except.mapError, note]
        rw [Prog.exec_bind, Prog.exec_ofFun]
        dsimp only
        rw [Prog.exec_bind, exec_await]
        -- the send has run, under the timeout the connect has used up a part of
        have hsent : Settled schedule deadline limit
            (w.clock + exchange.connecting.lag + min remaining exchange.sending.lag ≤ w.idle + limit)
            { w with
              clock := w.clock + exchange.connecting.lag + min remaining exchange.sending.lag
              tcpCount := w.tcpCount + 1
              log := w.log ++ [sent] } :=
          ⟨hw.schedule_eq, hw.deadline_le, Iff.rfl⟩
        have hconnect : (w.clock + exchange.connecting.lag + min remaining exchange.sending.lag ≤
            w.idle + limit) ↔ (exchange.connecting.lag ≤ remaining →
              (.ok () : Except SocketError Unit) = .ok () →
              w.clock + exchange.connecting.lag + min remaining exchange.sending.lag ≤ w.idle + limit) :=
          ⟨fun h _ _ => h, fun h => h hlate rfl⟩
        have hdecided := hsent.congr hconnect
        split
        · next a w' hexec =>
          obtain ⟨-, rfl⟩ := Prod.mk.inj hexec
          exact (hrest exchange).exec hdecided
        · next e w' hexec =>
          obtain ⟨-, rfl⟩ := Prod.mk.inj hexec
          exact hdecided

variable {r : UdpResolver U}

/-- The checks of a resolver's fields leave no timeout that is not positive. -/
theorem timeouts_pos (r : UdpResolver U) :
    0 < r.fields.timeout.value ∧ 0 < r.fields.attemptTimeout.value := by
  have hvalid := r.valid
  rw [ResolverFields.postInit] at hvalid
  split at hvalid
  · cases hvalid
  · obtain ⟨_, _, hvalid⟩ := Except.bind_eq_ok.mp hvalid
    obtain ⟨_, hnumbers, _⟩ := Except.bind_eq_ok.mp hvalid
    unfold ResolverFields.checkNumbers at hnumbers
    split at hnumbers
    · cases hnumbers
    · next htimeout =>
      split at hnumbers
      · cases hnumbers
      · next hattempt => exact ⟨not_le.mp htimeout, not_le.mp hattempt⟩

theorem exec_timeLeft (until_ : ℚ) (whose : Str) (w : World) :
    (timeLeft until_ whose).exec w =
      (if until_ - (w.clock + w.schedule.tick w.readings) ≤ 0 then
        .error (.timeoutError (text "the deadline passed " ++ whose))
      else .ok (until_ - (w.clock + w.schedule.tick w.readings)),
        { w with clock := w.clock + w.schedule.tick w.readings, readings := w.readings + 1 }) := by
  rw [timeLeft, Prog.exec_bind]
  dsimp only [monotonic, Prog.exec_ofFun]
  split
  · rfl
  · rfl

/-- A wait under the time left before a point. -/
theorem exec_wait {α β : Type} (until_ : ℚ) (whose : Str) (operation : Timed α) (f : α → Net β) (w : World) :
    (do
      let left ← timeLeft until_ whose
      let a ← await left operation
      f a : Net β).exec w =
      if until_ ≤ w.clock + w.schedule.tick w.readings then
        (.error (.timeoutError (text "the deadline passed " ++ whose)),
          { w with clock := w.clock + w.schedule.tick w.readings, readings := w.readings + 1 })
      else if until_ < w.clock + w.schedule.tick w.readings + operation.lag then
        (.error (.timeoutError (text "timed out")),
          { w with clock := until_, readings := w.readings + 1 })
      else
        match operation.result with
        | .ok a => (f a).exec
            { w with
              clock := w.clock + w.schedule.tick w.readings + operation.lag
              readings := w.readings + 1 }
        | .error failure => (.error failure.exc,
            { w with
              clock := w.clock + w.schedule.tick w.readings + operation.lag
              readings := w.readings + 1 }) := by
  rw [Prog.exec_bind, exec_timeLeft]
  by_cases hover : until_ ≤ w.clock + w.schedule.tick w.readings
  · rw [if_pos (sub_nonpos.mpr hover), if_pos hover]
  · rw [if_neg (not_le.mpr (sub_pos.mpr (not_le.mp hover))), if_neg hover]
    dsimp only
    rw [Prog.exec_bind, exec_await]
    by_cases hlate : until_ < w.clock + w.schedule.tick w.readings + operation.lag
    · have hlag : until_ - (w.clock + w.schedule.tick w.readings) < operation.lag := by linarith
      rw [if_pos hlag, if_pos hlate, min_eq_left hlag.le]
      dsimp only
      rw [add_sub_cancel]
    · have hlag : ¬ until_ - (w.clock + w.schedule.tick w.readings) < operation.lag := by linarith
      rw [if_neg hlag, if_neg hlate, min_eq_right (not_lt.mp hlag)]
      cases operation.result with
      | ok a => rfl
      | error failure => rfl

/-- A wait for what does not come. -/
theorem exec_silence {α : Type} (until_ : ℚ) (whose : Str) (w : World) :
    (do
      let left ← timeLeft until_ whose
      silence left : Net α).exec w =
      if until_ ≤ w.clock + w.schedule.tick w.readings then
        (.error (.timeoutError (text "the deadline passed " ++ whose)),
          { w with clock := w.clock + w.schedule.tick w.readings, readings := w.readings + 1 })
      else
        (.error (.timeoutError (text "timed out")),
          { w with clock := until_, readings := w.readings + 1 }) := by
  rw [Prog.exec_bind, exec_timeLeft]
  by_cases hover : until_ ≤ w.clock + w.schedule.tick w.readings
  · rw [if_pos (sub_nonpos.mpr hover), if_pos hover]
  · rw [if_neg (not_le.mpr (sub_pos.mpr (not_le.mp hover))), if_neg hover]
    dsimp only [silence, elapse]
    rw [Prog.exec_bind, Prog.exec_ofFun]
    dsimp only
    rw [add_sub_cancel]
    rfl

/-- A retry over TCP decides by itself. -/
theorem blames_overTcp (server : Str) (message : Bytes) (query : Query) :
    Prog.Blames (Settled schedule deadline r.fields.timeout.value) (r.RetryFits deadline) (fun w => [w])
      (r.overTcp server message query deadline) := by
  intro inTime w hw
  have hnow := hw.reading
  rw [UdpResolver.overTcp, Prog.exec_bind, exec_timeLeft]
  simp only [List.forall_mem_singleton]
  by_cases hover : deadline - (w.clock + w.schedule.tick w.readings) ≤ 0
  · rw [if_pos hover]
    refine hnow.congr ⟨fun h => ⟨h, fun hearly => ?_⟩, And.left⟩
    linarith
  · rw [if_neg hover]
    rw [not_le] at hover
    have hearly : w.clock + w.schedule.tick w.readings < deadline := by linarith
    have hpos := lt_min hover (timeouts_pos r).2
    have hle := min_le_left (deadline - (w.clock + w.schedule.tick w.readings)) r.fields.attemptTimeout.value
    have hrest (exchange : TcpExchange) : Prompt schedule deadline r.fields.timeout.value (do
        let reply ← UdpResolver.recvReply server query deadline exchange.arrivals
        let answer ← Prog.ofExcept (parse U reply query.txid query.name query.qtype)
        if answer.truncated then throw (.malformedError (text "a TCP reply is marked truncated"))
        else pure answer : Net Answer) := by
      refine (prompt_recvReply _ _ _).bind fun reply => (Prog.Spares.ofExcept _).bind fun answer => ?_
      exact Prog.Spares.ite (fun _ => Prog.Spares.throw _) fun _ => Prog.Spares.pure _
    have hretry := settled_retry hnow hpos (by dsimp only; linarith)
      (.sent .tcp server (packShort message.length ++ message)) hrest
    refine hretry.congr ?_
    rw [idle_reading, UdpResolver.RetryFits]
    dsimp only
    constructor
    · intro h
      refine ⟨hnow.early hearly.le, fun _ hconnect hresult => ?_⟩
      have := h hconnect hresult
      linarith
    · rintro ⟨-, h⟩ hconnect hresult
      have := h hearly hconnect hresult
      linarith

/-! ## The call -/

theorem blames_ask (server : Str) (question : Bytes) (qtype : ℕ) :
    Prog.Blames (Settled schedule deadline r.fields.timeout.value) (r.RetryFits deadline)
      (r.retryOfAsk server question qtype deadline) (r.ask server question qtype deadline) := by
  rw [UdpResolver.ask_eq]
  refine Prog.Blames.spares_bind (prompt_askUdp _ _ _) fun ⟨message, query, records, truncated⟩ => ?_
  cases truncated with
  | true => exact blames_overTcp _ _ _
  | false => exact Prog.Blames.of_spares (Prog.Spares.pure _)

/-- The retry loop: what is to blame in each attempt, and in the attempts after one that failed. -/
theorem blames_queryFrom (host : Str) (question : Bytes) (qtype : ℕ) (attempts failures : List Str) :
    Prog.Blames (Settled schedule deadline r.fields.timeout.value) (r.RetryFits deadline)
      (r.retriesOfQuery question qtype deadline attempts)
      (r.queryFrom host question qtype deadline attempts failures) := by
  induction attempts generalizing failures with
  | nil => exact Prog.Blames.of_spares (Prog.Spares.throw _)
  | cons server attempts ih =>
      rw [UdpResolver.queryFrom, UdpResolver.retriesOfQuery]
      refine Prog.Blames.spares_bind prompt_monotonic fun now => ?_
      split
      · exact Prog.Blames.of_spares (Prog.Spares.throw _)
      · have hask : Prog.Blames (Settled schedule deadline r.fields.timeout.value) (r.RetryFits deadline)
            (r.retryOfAsk server question qtype deadline)
            (do let answer ← r.ask server question qtype deadline; pure answer.records) :=
          (blames_ask server question qtype).bind_spares fun answer => Prog.Spares.pure answer.records
        have hhandler (failed : Exc) : Prog.Blames (Settled schedule deadline r.fields.timeout.value)
            (r.RetryFits deadline)
            (if UdpResolver.isCaught failed then r.retriesOfQuery question qtype deadline attempts
              else fun _ => [])
            (if UdpResolver.isCaught failed then
              r.queryFrom host question qtype deadline attempts
                (failures ++ [server ++ text ": " ++ failed.str U])
            else throw failed) :=
          Prog.Blames.ite (fun _ => ih _) fun _ => Prog.Blames.of_spares (Prog.Spares.throw failed)
        have hattempt := hask.tryCatch hhandler
        simp only [Prog.afterRaise_bind_pure] at hattempt
        exact hattempt

theorem blames_lookupFrom (host : Str) (question : Bytes) (families : List ℤ) :
    Prog.Blames (Settled schedule deadline r.fields.timeout.value) (r.RetryFits deadline)
      (r.retriesOfFamilies host question deadline families)
      (r.lookupFrom host question deadline families) := by
  induction families with
  | nil => exact Prog.Blames.of_spares (Prog.Spares.pure _)
  | cons wanted families ih =>
      rw [UdpResolver.lookupFrom]
      refine Prog.Blames.bind (blames_queryFrom _ _ _ _ _) fun records => ?_
      exact ih.bind_spares fun rest => Prog.Spares.pure _

theorem blames_lookup (host : Str) (family : ℤ) :
    Prog.Blames (Settled schedule deadline r.fields.timeout.value) (r.RetryFits deadline)
      (r.retriesOfLookup host family deadline) (r.lookup host family deadline) := by
  unfold UdpResolver.lookup UdpResolver.retriesOfLookup
  cases encodeName U host with
  | error bad => exact Prog.Blames.of_spares (Prog.Spares.throw _)
  | ok question => exact blames_lookupFrom _ _ _

/-- The clock of a run decides whether it was in time. -/
theorem settled_call (r : UdpResolver U) (schedule : Schedule) (host : Str)
    (port family socktype proto flags : ℤ) :
    Settled schedule (schedule.tick 0 + r.fields.timeout.value) r.fields.timeout.value
      (∀ v ∈ r.retries host family flags (World.start schedule),
        r.RetryFits (schedule.tick 0 + r.fields.timeout.value) v)
      ((r.call host port family socktype proto flags).exec (World.start schedule)).2 := by
  have hstart : monotonic.exec (World.start schedule) = (.ok (schedule.tick 0),
      { World.start schedule with clock := schedule.tick 0, readings := 1 }) := by
    simp [monotonic, World.start]
  have hsettled : Settled schedule (schedule.tick 0 + r.fields.timeout.value) r.fields.timeout.value True
      { World.start schedule with clock := schedule.tick 0, readings := 1 } := by
    have hidle : World.idle { World.start schedule with clock := schedule.tick 0, readings := 1 } =
        schedule.tick 0 := by
      simp [World.idle, World.start, List.range_succ]
    refine ⟨rfl, hidle ▸ le_rfl, iff_true_intro ?_⟩
    rw [hidle]
    exact le_add_of_nonneg_right (timeouts_pos r).1.le
  rw [UdpResolver.call, UdpResolver.retries, Prog.after, Prog.exec_bind, hstart]
  dsimp only
  cases UdpResolver.literal U host (UdpResolver.numericHost flags) with
  | error e =>
      have hthrow := Prog.Blames.of_spares (P := r.RetryFits (schedule.tick 0 + r.fields.timeout.value))
        (Prog.Spares.throw (α := List ResolverAnswer) e) True _ hsettled
      exact hthrow.congr (iff_of_eq (true_and _))
  | ok parsed =>
      rw [Prog.exec_bind, Prog.exec_ofExcept]
      dsimp only
      cases parsed with
      | some address =>
          have hpure := Prog.Blames.of_spares (P := r.RetryFits (schedule.tick 0 + r.fields.timeout.value))
            (Prog.Spares.pure (ε := Exc) [UdpResolver.row address port socktype proto]) True _ hsettled
          exact hpure.congr (iff_of_eq (true_and _))
      | none =>
          have hrows (addresses : List Record) :
              Prompt schedule (schedule.tick 0 + r.fields.timeout.value) r.fields.timeout.value
                (if addresses = [] then
                    throw (.gaierror (some eaiNoname) (host ++ text ": no address records"))
                  else pure (addresses.map fun record => UdpResolver.row record.ip port socktype proto) :
                  Net (List ResolverAnswer)) :=
            Prog.Spares.ite (fun _ => Prog.Spares.throw _) fun _ => Prog.Spares.pure _
          have hlookup := (blames_lookup (r := r) host family).bind_spares hrows True _ hsettled
          exact hlookup.congr (iff_of_eq (true_and _))

/-- **A call is over by its deadline exactly when each of its retries over TCP is done sending by then.**
Time that passes between the operations is set apart; where none does, the deadline is the timeout. -/
theorem call_inTime_iff (r : UdpResolver U) (schedule : Schedule) (host : Str)
    (port family socktype proto flags : ℤ) :
    let run := (r.call host port family socktype proto flags).exec (World.start schedule)
    let fit := ∀ v ∈ r.retries host family flags (World.start schedule),
      r.RetryFits (schedule.tick 0 + r.fields.timeout.value) v
    (run.2.clock ≤ run.2.idle + r.fields.timeout.value ↔ fit) ∧
      ((∀ n, schedule.tick n = 0) → (run.2.clock ≤ r.fields.timeout.value ↔ fit)) := by
  intro run fit
  have hsettled := settled_call r schedule host port family socktype proto flags
  refine ⟨hsettled.inTime_iff, fun hticks => ?_⟩
  have hidle : run.2.idle = 0 := by
    show World.idle ((r.call host port family socktype proto flags).exec (World.start schedule)).2 = 0
    rw [World.idle, hsettled.schedule_eq, show schedule.tick = fun _ => 0 from funext hticks,
      List.map_const', List.sum_replicate, nsmul_zero]
  have hiff : run.2.clock ≤ run.2.idle + r.fields.timeout.value ↔ fit := hsettled.inTime_iff
  rwa [hidle, zero_add] at hiff

end Retry

theorem tenths_nonneg (tenths : ℕ) : (0 : ℚ) ≤ tenths / 10 := by positivity

/-- Something that succeeds after so many tenths of a second. -/
def lasting (tenths : ℕ) : Timed Unit where
  lag := tenths / 10
  lag_nonneg := tenths_nonneg tenths
  result := .ok ()

/-- A resolver with a second for everything. -/
def hasty : UdpResolver Unicode.ascii where
  fields := {
    nameservers := [text "127.0.0.1"]
    timeout := { value := 1, shown := text "1.0" }
    families := [afInet] }
  valid := by decide +kernel

/-- A truncated reply at once, and then a server that takes so long to accept a connection and as long to
take the query, before it is silent. -/
def slowStream (tenths : ℕ) : Schedule where
  tick _ := 0
  tick_nonneg := still_nonneg
  txid _ := plainTxid
  udp _ := { failure := none, arrivals := [.ready
    [0x12, 0x34, 0x83, 0x80, 0, 1, 0, 0, 0, 0, 0, 0, 1, 0x61, 0, 0, 1, 0, 1]] }
  tcp _ := { connecting := lasting tenths, sending := lasting tenths, arrivals := [] }

theorem call_inTime_quick :
    ∀ v ∈ hasty.retries (text "a") 0 0 (World.start (slowStream 2)), hasty.RetryFits 1 v := by
  have hclock : ((hasty.call (text "a") 80 0 sockStream 0 0).exec
      (World.start (slowStream 2))).2.clock ≤ hasty.fields.timeout.value := by
    decide +kernel
  have hfit := ((call_inTime_iff hasty (slowStream 2) (text "a") 80 0 sockStream 0 0).2
    fun _ => rfl).mp hclock
  intro v hv
  have hdeadline : (slowStream 2).tick 0 + hasty.fields.timeout.value = 1 := by decide +kernel
  exact hdeadline ▸ hfit v hv

/-- Nine tenths for the connect and nine for the send, each within the second allowed: the call of a
resolver that allows itself one second takes nearly two. -/
theorem call_slowStream :
    (∀ n, (slowStream 9).tick n = 0) ∧
    ((hasty.call (text "a") 80 0 sockStream 0 0).exec (World.start (slowStream 9))).2.clock = 9 / 5 ∧
    ¬ ((hasty.call (text "a") 80 0 sockStream 0 0).exec (World.start (slowStream 9))).2.clock ≤
      hasty.fields.timeout.value := by
  have hclock : ((hasty.call (text "a") 80 0 sockStream 0 0).exec
      (World.start (slowStream 9))).2.clock = 9 / 5 := by
    decide +kernel
  refine ⟨fun _ => rfl, hclock, ?_⟩
  rw [hclock]
  decide +kernel

end SsrfGuard.Dns
