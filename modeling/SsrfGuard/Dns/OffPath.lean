import SsrfGuard.Dns.Deadline
import SsrfGuard.Dns.Outcome
import SsrfGuard.Dns.Replies

/-! # Datagrams from somebody else

A datagram that does not carry the transaction id is meant to be a delay and no more: `_over_udp` goes on
waiting for the reply. It does for those with a whole header. One that is shorter is refused as malformed
before its id is looked at, and that ends the exchange; so a forgery changes nothing exactly when none that
is too short for a header comes before the datagram that ends the wait. -/

namespace SsrfGuard.Dns

variable (U : Unicode)

/-! ## What ends the wait -/

/-- What a receive comes to: an error, or what `_parse` makes of the datagram. -/
def readReply (query : Query) : Except SocketError Bytes → Except Exc Answer
  | .error failure => .error failure.exc
  | .ok datagram => parse U (datagram.take udpReadLimit) query.txid query.name query.qtype

/-- The wait ends with everything but an answer to another question. -/
def endsWait (query : Query) (received : Except SocketError Bytes) : Bool :=
  match readReply U query received with
  | .ok _ => true
  | .error e => !e.isWrongQuestionError

/-- How an exchange ends when it receives these in time. -/
def verdict (query : Query) (received : List (Except SocketError Bytes)) : Except Exc Answer :=
  match received.find? (endsWait U query) with
  | none => .error (.timeoutError (text "timed out"))
  | some last => readReply U query last

/-- The exchange has ended in a `TimeoutError`. -/
def TimedOut {α : Type} (result : Except Exc α) : Prop := ∃ message, result = .error (.timeoutError message)

/-- Two exchanges end alike: in the same way, or both for want of time. -/
def EndAlike {α : Type} (result result' : Except Exc α) : Prop :=
  result = result' ∨ TimedOut result ∧ TimedOut result'

/-- What comes up to the end of the wait comes before the attempt is over, when the clock stands here. -/
def InTime (query : Query) (tick : ℕ → ℚ) (attemptEnds : ℚ) : ℚ → ℕ → List (Timed Bytes) → Prop
  | _, _, [] => True
  | clock, readings, arrival :: arrivals =>
    let now := clock + tick readings
    now < attemptEnds ∧ now + arrival.lag ≤ attemptEnds ∧
      (endsWait U query arrival.result ∨
        InTime query tick attemptEnds (now + arrival.lag) (readings + 1) arrivals)

variable {U} {query : Query}

theorem verdict_cons_of_ends {first : Except SocketError Bytes} {received : List (Except SocketError Bytes)}
    (h : endsWait U query first = true) : verdict U query (first :: received) = readReply U query first := by
  rw [verdict, List.find?_cons_of_pos h]

theorem verdict_cons_of_not_ends {first : Except SocketError Bytes}
    {received : List (Except SocketError Bytes)} (h : ¬ endsWait U query first = true) :
    verdict U query (first :: received) = verdict U query received := by
  rw [verdict, List.find?_cons_of_neg h, verdict]

theorem endsWait_error (failure : SocketError) : endsWait U query (.error failure) = true := by
  cases failure <;> rfl

/-- One turn of the wait: the attempt is over before it or during it, or something is received, which ends
the wait as what it is read as or does not end it. -/
theorem exec_awaitAnswer_cons (server : Str) (attemptEnds : ℚ) (arrival : Timed Bytes)
    (arrivals : List (Timed Bytes)) (w : World) :
    (UdpResolver.awaitAnswer U server query attemptEnds (arrival :: arrivals)).exec w =
      let now := w.clock + w.schedule.tick w.readings
      if attemptEnds ≤ now then
        (.error (.timeoutError (text "the deadline passed " ++ text "waiting for an answer")),
          { w with clock := now, readings := w.readings + 1 })
      else if attemptEnds < now + arrival.lag then
        (.error (.timeoutError (text "timed out")), { w with clock := attemptEnds, readings := w.readings + 1 })
      else
        let v := { w with clock := now + arrival.lag, readings := w.readings + 1 }
        match arrival.result with
        | .error failure => (.error failure.exc, v)
        | .ok datagram =>
          let v := { v with log := w.log ++ [.received .udp server query (datagram.take udpReadLimit)] }
          if endsWait U query (.ok datagram) then (readReply U query (.ok datagram), v)
          else (UdpResolver.awaitAnswer U server query attemptEnds arrivals).exec v := by
  rw [UdpResolver.awaitAnswer, exec_wait]
  refine ite_congr rfl (fun _ => rfl) fun _ => ite_congr rfl (fun _ => rfl) fun _ => ?_
  cases arrival.result with
  | error failure => rfl
  | ok datagram =>
      dsimp only
      rw [Prog.exec_bind, note, Prog.exec_ofFun]
      cases hparse : parse U (datagram.take udpReadLimit) query.txid query.name query.qtype with
      | ok answer =>
          have hends : endsWait U query (.ok datagram) = true := by rw [endsWait, readReply, hparse]
          rw [if_pos hends, readReply, hparse]
          rfl
      | error e =>
          have hends : endsWait U query (.ok datagram) = !e.isWrongQuestionError := by
            rw [endsWait, readReply, hparse]
          rw [hends, readReply, hparse]
          dsimp only
          by_cases hwrong : e.isWrongQuestionError = true
          · rw [if_pos hwrong, if_neg (by simp [hwrong])]
          · rw [if_neg hwrong, if_pos (by simp [hwrong])]
            rfl

/-- **How the wait ends**, from the world it starts in. -/
theorem awaitAnswer_verdict (server : Str) (attemptEnds : ℚ) (arrivals : List (Timed Bytes)) (w : World) :
    (InTime U query w.schedule.tick attemptEnds w.clock w.readings arrivals →
      EndAlike ((UdpResolver.awaitAnswer U server query attemptEnds arrivals).exec w).1
        (verdict U query (arrivals.map Timed.result))) ∧
    (¬ InTime U query w.schedule.tick attemptEnds w.clock w.readings arrivals →
      TimedOut ((UdpResolver.awaitAnswer U server query attemptEnds arrivals).exec w).1) := by
  induction arrivals generalizing w with
  | nil =>
      refine ⟨fun _ => .inr ⟨?_, _, rfl⟩, fun h => absurd True.intro h⟩
      rw [UdpResolver.awaitAnswer, exec_silence]
      split
      · exact ⟨_, rfl⟩
      · exact ⟨_, rfl⟩
  | cons arrival arrivals ih =>
      rw [exec_awaitAnswer_cons, InTime, List.map_cons]
      dsimp only
      by_cases hover : attemptEnds ≤ w.clock + w.schedule.tick w.readings
      · rw [if_pos hover]
        exact ⟨fun h => absurd h.1 (not_lt.mpr hover), fun _ => ⟨_, rfl⟩⟩
      by_cases hlate : attemptEnds < w.clock + w.schedule.tick w.readings + arrival.lag
      · rw [if_neg hover, if_pos hlate]
        exact ⟨fun h => absurd h.2.1 (not_le.mpr hlate), fun _ => ⟨_, rfl⟩⟩
      rw [if_neg hover, if_neg hlate, and_iff_right (not_le.mp hover), and_iff_right (not_lt.mp hlate)]
      -- the receive is in time, and what it brings either ends the wait or does not
      cases hresult : arrival.result with
      | error failure =>
          rw [verdict_cons_of_ends (endsWait_error failure)]
          exact ⟨fun _ => .inl rfl, fun h => absurd (.inl (endsWait_error failure)) h⟩
      | ok datagram =>
          dsimp only
          by_cases hends : endsWait U query (.ok datagram) = true
          · rw [if_pos hends, verdict_cons_of_ends hends]
            exact ⟨fun _ => .inl rfl, fun h => absurd (.inl hends) h⟩
          · rw [if_neg hends, verdict_cons_of_not_ends hends, or_iff_right hends]
            exact ih { w with
              clock := w.clock + w.schedule.tick w.readings + arrival.lag
              readings := w.readings + 1
              log := w.log ++ [.received .udp server query (datagram.take udpReadLimit)] }

/-! ## Forged datagrams among the others -/

/-- A datagram that does not start with the transaction id of the query. -/
def Forged (query : Query) (datagram : Bytes) : Prop := ¬ packShort query.txid <+: datagram

/-- What an exchange receives, each with whether somebody else put it in. -/
abbrev Mixed : Type := List (Except SocketError Bytes × Bool)

/-- What it receives without the forgeries. -/
def genuine (mixed : Mixed) : List (Except SocketError Bytes) :=
  (mixed.filter fun received => !received.2).map Prod.fst

/-- Everything put in is a datagram without the transaction id. -/
def OnlyForged (query : Query) (mixed : Mixed) : Prop :=
  ∀ received ∈ mixed, received.2 = true → ∃ datagram, received.1 = .ok datagram ∧ Forged query datagram

variable (U) in
/-- What comes before the genuine receive that ends the wait. -/
def beforeEnd (query : Query) (mixed : Mixed) : Mixed :=
  mixed.takeWhile fun received => received.2 || !endsWait U query received.1

variable (U) in
/-- No forgery that comes in time to matter is too short for a header. -/
def Harmless (query : Query) (mixed : Mixed) : Prop :=
  ∀ datagram, (.ok datagram, true) ∈ beforeEnd U query mixed → headerSize ≤ datagram.length

theorem packShort_headerField {datagram : Bytes} (hsize : headerSize ≤ datagram.length) :
    packShort (headerField datagram 0) <+: datagram := by
  match datagram, hsize with
  | first :: second :: rest, _ =>
      have hfield : headerField (first :: second :: rest) 0 = 256 * first.toNat + second.toNat := by
        simp [headerField, slice, bigEndian, headerSize]
      have hsecond := second.toNat_lt
      have hdiv : (256 * first.toNat + second.toNat) / 256 = first.toNat := by omega
      refine ⟨rest, ?_⟩
      rw [hfield, packShort, hdiv, UInt8.ofNat_toNat]
      have hmod : UInt8.ofNat (256 * first.toNat + second.toNat) = second := by
        rw [← UInt8.toNat_inj, UInt8.toNat_ofNat']
        omega
      rw [hmod]
      rfl

/-- A forgery with a whole header is taken for an answer to another question. -/
theorem endsWait_of_forged {datagram : Bytes} (h : Forged query datagram)
    (hsize : headerSize ≤ datagram.length) : ¬ endsWait U query (.ok datagram) = true := by
  have htake : headerSize ≤ (datagram.take udpReadLimit).length := by
    rw [List.length_take, udpReadLimit, le_min_iff]
    exact ⟨by decide, hsize⟩
  have hid : headerField (datagram.take udpReadLimit) 0 ≠ query.txid := by
    rintro hid
    exact h (hid ▸ (packShort_headerField htake).trans (List.take_prefix _ _))
  rw [endsWait, readReply, parse, if_neg (not_lt.mpr htake), unpackFrom_eq_ok (by simpa using htake)]
  dsimp only [bind, Except.bind]
  rw [if_pos (by simpa [headerField] using hid)]
  exact Bool.false_ne_true

/-- A datagram that is too short for a header ends the wait, as what it is. -/
theorem readReply_of_short {datagram : Bytes} (h : ¬ headerSize ≤ datagram.length) :
    readReply U query (.ok datagram) = .error (.malformedError noHeader) := by
  rw [readReply, List.take_of_length_le (by rw [udpReadLimit]; rw [headerSize] at h; omega),
    parse_of_not_size h]

theorem endsWait_of_short {datagram : Bytes} (h : ¬ headerSize ≤ datagram.length) :
    endsWait U query (.ok datagram) = true := by
  rw [endsWait, readReply_of_short h]
  rfl

/-- Nothing else is refused that way. -/
theorem short_of_readReply {received : Except SocketError Bytes}
    (h : readReply U query received = .error (.malformedError noHeader)) :
    ∃ datagram, received = .ok datagram ∧ datagram.length < headerSize := by
  cases received with
  | error failure => cases failure <;> cases h
  | ok datagram =>
      refine ⟨datagram, rfl, ?_⟩
      by_contra hsize
      rw [not_lt] at hsize
      have htake : headerSize ≤ (datagram.take udpReadLimit).length := by
        rw [List.length_take, udpReadLimit, le_min_iff]
        exact ⟨by decide, hsize⟩
      rcases raisesOnly_parse_of_size htake _ _ _ _ h with hbody | hwrong | hfailure
      · exact hbody.2 rfl
      · cases hwrong
      · cases hfailure

theorem OnlyForged.tail {first : Except SocketError Bytes × Bool} {mixed : Mixed}
    (h : OnlyForged query (first :: mixed)) : OnlyForged query mixed :=
  fun received hmem => h received (List.mem_cons_of_mem _ hmem)

theorem harmless_cons_forged {datagram : Bytes} {mixed : Mixed} :
    Harmless U query ((.ok datagram, true) :: mixed) ↔
      headerSize ≤ datagram.length ∧ Harmless U query mixed := by
  simp only [Harmless, beforeEnd]
  rw [List.takeWhile_cons_of_pos (by rfl)]
  constructor
  · exact fun h => ⟨h _ List.mem_cons_self, fun d hd => h d (List.mem_cons_of_mem _ hd)⟩
  · rintro ⟨hfirst, hrest⟩ d hd
    rcases List.mem_cons.mp hd with hd | hd
    · cases hd
      exact hfirst
    · exact hrest d hd

theorem harmless_cons_genuine {received : Except SocketError Bytes} {mixed : Mixed} :
    Harmless U query ((received, false) :: mixed) ↔
      endsWait U query received = true ∨ Harmless U query mixed := by
  simp only [Harmless, beforeEnd]
  by_cases hends : endsWait U query received = true
  · rw [List.takeWhile_cons_of_neg (by simp [hends])]
    exact iff_of_true (fun d hd => absurd hd List.not_mem_nil) (.inl hends)
  · rw [List.takeWhile_cons_of_pos (by simpa using hends), or_iff_right hends]
    simp

/-- **What forgeries do to a wait.** Harmless ones leave its end as it is, and any other ends it at once. -/
theorem verdict_mixed {mixed : Mixed} (h : OnlyForged query mixed) :
    (Harmless U query mixed → verdict U query (mixed.map Prod.fst) = verdict U query (genuine mixed)) ∧
    (¬ Harmless U query mixed →
      verdict U query (mixed.map Prod.fst) = .error (.malformedError noHeader)) := by
  induction mixed with
  | nil => exact ⟨fun _ => rfl, fun hnot => absurd (fun d hd => absurd hd List.not_mem_nil) hnot⟩
  | cons first mixed ih =>
      obtain ⟨received, inserted⟩ := first
      have hrest := ih h.tail
      rw [List.map_cons]
      cases inserted with
      | true =>
          obtain ⟨datagram, rfl, hforged⟩ := h _ List.mem_cons_self rfl
          rw [harmless_cons_forged]
          by_cases hsize : headerSize ≤ datagram.length
          · rw [verdict_cons_of_not_ends (endsWait_of_forged hforged hsize), and_iff_right hsize]
            exact hrest
          · rw [verdict_cons_of_ends (endsWait_of_short hsize), readReply_of_short hsize]
            exact ⟨fun hharmless => absurd hharmless.1 hsize, fun _ => rfl⟩
      | false =>
          have hgenuine : genuine ((received, false) :: mixed) = received :: genuine mixed := rfl
          rw [harmless_cons_genuine, hgenuine]
          by_cases hends : endsWait U query received = true
          · rw [verdict_cons_of_ends hends, verdict_cons_of_ends hends]
            exact ⟨fun _ => rfl, fun hnot => absurd (.inl hends) hnot⟩
          · rw [verdict_cons_of_not_ends hends, verdict_cons_of_not_ends hends, or_iff_right hends]
            exact hrest

/-- An exchange ends as if a datagram too short for a header had come when one has. -/
theorem verdict_eq_noHeader_iff {received : List (Except SocketError Bytes)} :
    verdict U query received = .error (.malformedError noHeader) ↔
      ∃ datagram, received.find? (endsWait U query) = some (.ok datagram) ∧
        datagram.length < headerSize := by
  unfold verdict
  cases received.find? (endsWait U query) with
  | none => simp
  | some last =>
      constructor
      · intro h
        obtain ⟨datagram, rfl, hshort⟩ := short_of_readReply h
        exact ⟨datagram, rfl, hshort⟩
      · rintro ⟨datagram, hlast, hshort⟩
        cases hlast
        exact readReply_of_short (not_le.mpr hshort)

variable (U) in
/-- The forgeries make no difference: none that is too short for a header comes before the genuine receive
that ends the wait, or that one is itself too short. -/
def Ignored (query : Query) (mixed : Mixed) : Prop :=
  Harmless U query mixed ∨
    ∃ datagram, (genuine mixed).find? (endsWait U query) = some (.ok datagram) ∧
      datagram.length < headerSize

theorem endAlike_verdict_iff {mixed : Mixed} (h : OnlyForged query mixed) :
    EndAlike (verdict U query (genuine mixed)) (verdict U query (mixed.map Prod.fst)) ↔
      Ignored U query mixed := by
  obtain ⟨hsame, hshort⟩ := verdict_mixed (U := U) h
  rw [Ignored, ← verdict_eq_noHeader_iff]
  by_cases hharmless : Harmless U query mixed
  · exact iff_of_true (.inl (hsame hharmless).symm) (.inl hharmless)
  · rw [hshort hharmless, or_iff_right hharmless]
    constructor
    · rintro (heq | ⟨-, message, htimeout⟩)
      · exact heq
      · cases htimeout
    · exact .inl

/-! ## The exchange -/

theorem EndAlike.symm {α : Type} {result result' : Except Exc α} (h : EndAlike result result') :
    EndAlike result' result := h.imp Eq.symm And.symm

theorem EndAlike.trans {α : Type} {result result' result'' : Except Exc α} (h : EndAlike result result')
    (h' : EndAlike result' result'') : EndAlike result result'' := by
  rcases h with rfl | ⟨htimeout, htimeout'⟩
  · exact h'
  · rcases h' with rfl | ⟨-, htimeout''⟩
    · exact .inr ⟨htimeout, htimeout'⟩
    · exact .inr ⟨htimeout, htimeout''⟩

namespace UdpResolver

variable (r : UdpResolver U)

/-- When the attempt that begins in this world is over. -/
def attemptEnd (until_ : ℚ) (w : World) : ℚ :=
  min until_ (w.clock + w.schedule.tick w.readings + r.fields.attemptTimeout.value)

/-- What ends the wait of the exchange that begins in this world comes before the attempt is over. -/
def ExchangeInTime (query : Query) (until_ : ℚ) (w : World) : Prop :=
  InTime U query w.schedule.tick (r.attemptEnd until_ w) (w.clock + w.schedule.tick w.readings)
    (w.readings + 1) (w.schedule.udp w.udpCount).arrivals

/-- The exchange over a connected socket is the wait. -/
theorem exec_overUdp {server : Str} {family : ℤ} (hfamily : familyOf U server = .ok family) (sent : Bytes)
    (query : Query) (until_ : ℚ) {w : World} (hfailure : (w.schedule.udp w.udpCount).failure = none) :
    (r.overUdp server sent query until_).exec w =
      (awaitAnswer U server query (r.attemptEnd until_ w) (w.schedule.udp w.udpCount).arrivals).exec
        { w with
          clock := w.clock + w.schedule.tick w.readings
          readings := w.readings + 1
          udpCount := w.udpCount + 1
          log := w.log ++ [.asked family] ++ [.sent .udp server sent] } := by
  rw [overUdp, hfamily, Prog.exec_bind]
  dsimp only [monotonic, Prog.exec_ofFun]
  rw [Prog.exec_bind, Prog.exec_ofExcept]
  dsimp only
  rw [Prog.exec_bind, openDatagram, Prog.exec_bind]
  dsimp only [note, Prog.exec_ofFun]
  rw [Prog.exec_bind, Prog.exec_ofFun]
  dsimp only
  rw [hfailure]
  dsimp only [Prog.exec_pure]
  rw [Prog.exec_bind, Prog.exec_ofFun]
  rfl

/-- How the exchange ends. -/
theorem overUdp_verdict {server : Str} (hserver : server ∈ r.fields.nameservers) (sent : Bytes)
    (query : Query) (until_ : ℚ) {w : World} (hfailure : (w.schedule.udp w.udpCount).failure = none) :
    (r.ExchangeInTime query until_ w →
      EndAlike ((r.overUdp server sent query until_).exec w).1
        (verdict U query ((w.schedule.udp w.udpCount).arrivals.map Timed.result))) ∧
    (¬ r.ExchangeInTime query until_ w →
      TimedOut ((r.overUdp server sent query until_).exec w).1) := by
  obtain ⟨family, hfamily⟩ := familyOf_eq_ok hserver
  rw [r.exec_overUdp hfamily sent query until_ hfailure]
  exact awaitAnswer_verdict server _ _ { w with
    clock := w.clock + w.schedule.tick w.readings
    readings := w.readings + 1
    udpCount := w.udpCount + 1
    log := w.log ++ [.asked family] ++ [.sent .udp server sent] }

end UdpResolver

/-- **Forged datagrams make no difference to an exchange exactly when they are ignored.** The two exchanges
receive the same but for the forgeries, each at its own times; one whose end does not come in time is over
for want of it. -/
theorem overUdp_endAlike_iff (r : UdpResolver U) {server : Str} (hserver : server ∈ r.fields.nameservers)
    (sent : Bytes) (until_ until_' : ℚ) {mixed : Mixed} (hforged : OnlyForged query mixed) {w w' : World}
    (hfailure : (w.schedule.udp w.udpCount).failure = none)
    (hfailure' : (w'.schedule.udp w'.udpCount).failure = none)
    (hreceived : (w.schedule.udp w.udpCount).arrivals.map Timed.result = genuine mixed)
    (hreceived' : (w'.schedule.udp w'.udpCount).arrivals.map Timed.result = mixed.map Prod.fst) :
    let result := ((r.overUdp server sent query until_).exec w).1
    let result' := ((r.overUdp server sent query until_').exec w').1
    (r.ExchangeInTime query until_ w → r.ExchangeInTime query until_' w' →
      (EndAlike result result' ↔ Ignored U query mixed)) ∧
    (¬ r.ExchangeInTime query until_ w → TimedOut result) ∧
    (¬ r.ExchangeInTime query until_' w' → TimedOut result') := by
  intro result result'
  obtain ⟨hend, hlate⟩ := r.overUdp_verdict hserver sent query until_ hfailure
  obtain ⟨hend', hlate'⟩ := r.overUdp_verdict hserver sent query until_' hfailure'
  refine ⟨fun hin hin' => ?_, hlate, hlate'⟩
  rw [hreceived] at hend
  rw [hreceived'] at hend'
  rw [← endAlike_verdict_iff hforged]
  constructor
  · exact fun h => ((hend hin).symm.trans h).trans (hend' hin')
  · exact fun h => ((hend hin).trans h).trans (hend' hin').symm

/-- A network that delivers these datagrams at once. -/
def delivers (datagrams : List Bytes) : Schedule where
  tick _ := 0
  tick_nonneg := still_nonneg
  txid _ := plainTxid
  udp _ := { failure := none, arrivals := datagrams.map Timed.ready }
  tcp _ := { connecting := .ready (), sending := .ready (), arrivals := [] }

/-- The address of the name that was asked about. -/
def genuineReply : Bytes := responseAbout 0x8180 typeA 1 documentationRecord

/-- The reply after a forgery. -/
def forgedFirst (forgery : Bytes) : Mixed := [(.ok forgery, true), (.ok genuineReply, false)]

theorem onlyForged_forgedFirst {forgery : Bytes} (h : Forged plainQuery forgery) :
    OnlyForged plainQuery (forgedFirst forgery) := by
  intro received hmem hinserted
  rcases List.mem_cons.mp hmem with rfl | hmem
  · exact ⟨forgery, rfl, h⟩
  · rw [List.mem_singleton.mp hmem] at hinserted
    cases hinserted

theorem overUdp_endAlike_header :
    EndAlike ((hasty.overUdp (text "127.0.0.1") [] plainQuery 1).exec
        (World.start (delivers [genuineReply]))).1
      ((hasty.overUdp (text "127.0.0.1") [] plainQuery 1).exec
        (World.start (delivers [List.replicate 12 0, genuineReply]))).1 := by
  have hforged : Forged plainQuery (List.replicate 12 0) := by
    rw [Forged]
    decide
  refine ((overUdp_endAlike_iff hasty (List.mem_singleton.mpr rfl) [] 1 1 (onlyForged_forgedFirst hforged)
    rfl rfl rfl rfl).1 ?_ ?_).mpr (.inl ?_)
  · exact ⟨by decide +kernel, by decide +kernel, .inr True.intro⟩
  · exact ⟨by decide +kernel, by decide +kernel, .inr ⟨by decide +kernel, by decide +kernel, .inr True.intro⟩⟩
  · rw [forgedFirst, harmless_cons_forged, harmless_cons_genuine]
    exact ⟨by decide, .inl (by decide +kernel)⟩

/-- Three bytes from anybody end the exchange before the reply is read. -/
theorem overUdp_shortForgery :
    OnlyForged plainQuery (forgedFirst [0, 0, 0]) ∧
    hasty.ExchangeInTime plainQuery 1 (World.start (delivers [genuineReply])) ∧
    hasty.ExchangeInTime plainQuery 1 (World.start (delivers [[0, 0, 0], genuineReply])) ∧
    ((hasty.overUdp (text "127.0.0.1") [] plainQuery 1).exec (World.start (delivers [genuineReply]))).1 =
      .ok { records := [{ ip := .v4 0xC0000201, ttl := 60 }], truncated := false } ∧
    ((hasty.overUdp (text "127.0.0.1") [] plainQuery 1).exec
        (World.start (delivers [[0, 0, 0], genuineReply]))).1 =
      .error (.malformedError (text "a message is shorter than a DNS header")) ∧
    ¬ EndAlike ((hasty.overUdp (text "127.0.0.1") [] plainQuery 1).exec
        (World.start (delivers [genuineReply]))).1
      ((hasty.overUdp (text "127.0.0.1") [] plainQuery 1).exec
        (World.start (delivers [[0, 0, 0], genuineReply]))).1 := by
  have hforged : Forged plainQuery [0, 0, 0] := by
    rw [Forged]
    decide
  have hgenuine : ((hasty.overUdp (text "127.0.0.1") [] plainQuery 1).exec
      (World.start (delivers [genuineReply]))).1 =
        .ok { records := [{ ip := .v4 0xC0000201, ttl := 60 }], truncated := false } := by
    decide +kernel
  have hshort : ((hasty.overUdp (text "127.0.0.1") [] plainQuery 1).exec
      (World.start (delivers [[0, 0, 0], genuineReply]))).1 =
        .error (.malformedError (text "a message is shorter than a DNS header")) := by
    decide +kernel
  refine ⟨onlyForged_forgedFirst hforged, ?_, ?_, hgenuine, hshort, ?_⟩
  · exact ⟨by decide +kernel, by decide +kernel, .inr True.intro⟩
  · exact ⟨by decide +kernel, by decide +kernel, .inl (by decide +kernel)⟩
  · rw [hgenuine, hshort]
    rintro (heq | ⟨⟨message, htimeout⟩, -⟩)
    · cases heq
    · cases htimeout

end SsrfGuard.Dns
