import SsrfGuard.Httpx.Backend

/-! # The peer of a stream

The asynchronous backend reads the peer of a stream off an attribute that may be missing, and a stream
without it passes the check. So a stream it returns was compared with the address it was opened for
exactly when no reading of that attribute came back empty; the synchronous backend has no such case. -/

namespace SsrfGuard

variable {σ : Type} {U : Unicode}

/-- A stream was asked for its peer, and had none to give. -/
def PeerMissing (calls : List StreamCall) : Prop :=
  ∃ stream, StreamCall.remoteAddress stream (.ok none) ∈ calls

/-- The calls end by asking this stream for its peer, it was opened to this address, and any peer it
reports is the address. -/
structure EndsAtStream (U : Unicode) (stream : StreamId) (ip : IPAddress) (remote : Option SockAddr)
    (calls : List StreamCall) : Prop where
  /-- The last call, and what comes before it. -/
  ends : ∃ before port, calls = before ++ [.remoteAddress stream (.ok remote)] ∧ ¬ PeerMissing before ∧
    .connectTcp stream ip port (.ok ()) ∈ before
  /-- A peer that is reported is the address. -/
  same : ∀ sockaddr, remote = some sockaddr → sockaddrIp U sockaddr = .ok ip

/-- The calls end by comparing the peer of this stream with the address it was opened to. -/
def Compared (U : Unicode) (stream : StreamId) (ip : IPAddress) (calls : List StreamCall) : Prop :=
  ∃ sockaddr, EndsAtStream U stream ip (some sockaddr) calls

theorem not_peerMissing_nil : ¬ PeerMissing [] := by
  rintro ⟨stream, hmem⟩
  cases hmem

theorem peerMissing_append {first second : List StreamCall} :
    PeerMissing (first ++ second) ↔ PeerMissing first ∨ PeerMissing second := by
  simp only [PeerMissing, List.mem_append, exists_or]

theorem not_peerMissing_append {first second : List StreamCall} (h₁ : ¬ PeerMissing first)
    (h₂ : ¬ PeerMissing second) : ¬ PeerMissing (first ++ second) := by
  rw [peerMissing_append, not_or]
  exact ⟨h₁, h₂⟩

theorem EndsAtStream.append {stream : StreamId} {ip : IPAddress} {remote : Option SockAddr}
    {calls first : List StreamCall} (h : EndsAtStream U stream ip remote calls)
    (hfirst : ¬ PeerMissing first) : EndsAtStream U stream ip remote (first ++ calls) := by
  obtain ⟨before, port, rfl, hbefore, hopened⟩ := h.ends
  refine ⟨⟨first ++ before, port, (List.append_assoc _ _ _).symm, not_peerMissing_append hfirst hbefore,
    List.mem_append_right _ hopened⟩, h.same⟩

/-- What the program adds to the calls. -/
abbrev Streams {ε α : Type} (x : Prog (AsyncWorld σ) ε α) (Q : Except ε α → List StreamCall → Prop) :
    Prop := Prog.Adds AsyncWorld.calls x Q

theorem streams_callStream {α : Type} (operation : Prog σ Exc α) (call : Except Exc α → StreamCall) :
    Streams (callStream operation call) fun result added => added = [call result] :=
  fun _ => ⟨_, rfl, rfl⟩

theorem streams_shared {ε α : Type} (x : Prog (World σ) ε α) :
    Streams (shared x) fun _ added => added = [] := Prog.Adds.silent (fun _ => rfl) fun _ => rfl

theorem streams_newStream : Streams (newStream : Prog (AsyncWorld σ) Exc StreamId) fun _ added =>
    added = [] := Prog.Adds.silent (fun _ => rfl) fun _ => rfl

/-- One reading of the peer: when the check passes there is none, or it is the address; when the check
fails it was not missing. -/
def Checked (U : Unicode) (stream : StreamId) (ip : IPAddress) (result : Except Exc Unit)
    (added : List StreamCall) : Prop :=
  ∃ remote, added = [.remoteAddress stream remote] ∧
    match result with
    | .ok _ => ∃ peer, remote = .ok peer ∧ ∀ sockaddr, peer = some sockaddr → sockaddrIp U sockaddr = .ok ip
    | .error _ => remote ≠ .ok none

theorem streams_verifyStream (io : Anyio σ) (stream : StreamId) (address : Address)
    (observer : Option (Observer σ)) :
    Streams (verifyStream U io stream address observer) (Checked U stream address.ip) := by
  refine (streams_callStream _ _).bind ?_ ?_
  · rintro (_ | sockaddr) _ rfl
    · exact Prog.Adds.pure ⟨.ok none, rfl, none, rfl, fun _ h => absurd h (by simp)⟩
    · have hread : (.ok (some sockaddr) : Except Exc (Option SockAddr)) ≠ .ok none := by simp
      refine Prog.Adds.bind_ofExcept (fun peer hpeer => ?_) fun e _ => ⟨_, rfl, hread⟩
      split
      · refine (streams_shared _).bind_silent (fun _ => Prog.Adds.throw ⟨_, rfl, hread⟩) fun e => ?_
        exact ⟨_, rfl, hread⟩
      · next hsame =>
        refine (streams_shared _).conseq ?_
        rintro (e | _) _ rfl
        · exact ⟨_, rfl, hread⟩
        · refine ⟨_, rfl, some sockaddr, rfl, fun other hother => ?_⟩
          cases hother
          rw [hpeer, not_not.mp hsame]
  · rintro e _ rfl
    exact ⟨_, rfl, Except.error_ne_ok⟩

/-- What a stream that was admitted rests on; a stream that was not was never without a peer. -/
def Admitted (U : Unicode) (stream : StreamId) (ip : IPAddress) (result : Except Exc StreamId)
    (added : List StreamCall) : Prop :=
  match result with
  | .ok s => s = stream ∧ ∃ before remote, added = before ++ [.remoteAddress stream (.ok remote)] ∧
      ¬ PeerMissing before ∧ ∀ sockaddr, remote = some sockaddr → sockaddrIp U sockaddr = .ok ip
  | .error _ => ¬ PeerMissing added

theorem not_peerMissing_singleton {call : StreamCall}
    (h : ∀ stream, call ≠ .remoteAddress stream (.ok none)) : ¬ PeerMissing [call] := by
  rintro ⟨stream, hmem⟩
  exact h stream (List.mem_singleton.mp hmem).symm

theorem streams_admitStream (io : Anyio σ) (stream : StreamId) (address : Address) (options : TcpOptions)
    (observer : Option (Observer σ)) :
    Streams (admitStream U io stream address options observer) (Admitted U stream address.ip) := by
  have hoptions : Streams (options.socketOptions.forM fun option =>
      callStream (io.setsockopt stream option) (.setsockopt stream option)) fun _ added =>
      ¬ PeerMissing added := by
    refine Prog.Adds.forM not_peerMissing_nil (fun _ _ _ => not_peerMissing_append) (fun option => ?_) _
    refine (streams_callStream _ _).conseq ?_
    rintro result _ rfl
    exact not_peerMissing_singleton fun _ h => by cases h
  -- the body of the `try`
  have hbody : Streams (do
      options.socketOptions.forM fun option =>
        callStream (io.setsockopt stream option) (.setsockopt stream option)
      verifyStream U io stream address observer) fun result added =>
      ∃ first second, added = first ++ second ∧ ¬ PeerMissing first ∧
        (Checked U stream address.ip result second ∨ result ≠ .ok () ∧ second = []) := by
    refine hoptions.bind (fun _ first hfirst => ?_) fun e first hfirst => ?_
    · refine (streams_verifyStream io stream address observer).conseq fun result second hsecond => ?_
      exact ⟨first, second, rfl, hfirst, .inl hsecond⟩
    · exact ⟨first, [], (List.append_nil _).symm, hfirst, .inr ⟨Except.error_ne_ok, rfl⟩⟩
  -- the handler closes the stream and raises again, so it never returns
  have hguarded : Streams (tryCatch (do
      options.socketOptions.forM fun option =>
        callStream (io.setsockopt stream option) (.setsockopt stream option)
      verifyStream U io stream address observer) fun e => do
        callStream (io.aclose stream) (.aclose stream)
        throw e) fun result added => Admitted U stream address.ip (result.map fun _ => stream) added := by
    refine hbody.tryCatch ?_ ?_
    · rintro _ _ ⟨first, second, rfl, hfirst, ⟨remote, rfl, peer, rfl, hpeer⟩ | ⟨hne, -⟩⟩
      · exact ⟨rfl, first, peer, rfl, hfirst, hpeer⟩
      · exact absurd rfl hne
    · rintro e _ ⟨first, second, rfl, hfirst, hsecond⟩
      have hquiet : ¬ PeerMissing (first ++ second) := by
        refine not_peerMissing_append hfirst ?_
        rcases hsecond with ⟨remote, rfl, hremote⟩ | ⟨-, rfl⟩
        · exact not_peerMissing_singleton fun _ h => hremote (by cases h; rfl)
        · exact not_peerMissing_nil
      have hclosed (result : Except Exc Unit) : ¬ PeerMissing [StreamCall.aclose stream result] :=
        not_peerMissing_singleton fun _ h => by cases h
      refine (streams_callStream _ _).bind ?_ ?_
      · rintro _ _ rfl
        refine Prog.Adds.throw ?_
        rw [List.append_nil]
        exact not_peerMissing_append hquiet (hclosed _)
      · rintro e' _ rfl
        exact not_peerMissing_append hquiet (hclosed _)
  refine hguarded.bind (fun _ first hfirst => Prog.Adds.pure ?_) fun _ _ hfirst => hfirst
  rw [List.append_nil]
  exact hfirst

/-- What a stream the loop returns rests on; a run that raises met no stream without a peer. -/
def Reached (U : Unicode) (attempted : List Address) (result : Except BackendExc StreamId)
    (added : List StreamCall) : Prop :=
  match result with
  | .ok stream => ∃ address ∈ attempted, ∃ remote, EndsAtStream U stream address.ip remote added
  | .error _ => ¬ PeerMissing added

/-- What was added earlier does not matter, as long as no peer was missing. -/
theorem Reached.append {attempted rest : List Address} {result : Except BackendExc StreamId}
    {first second : List StreamCall} (h : Reached U rest result second)
    (hsub : ∀ address ∈ rest, address ∈ attempted) (hfirst : ¬ PeerMissing first) :
    Reached U attempted result (first ++ second) := by
  cases result with
  | ok stream =>
      obtain ⟨address, hmem, remote, hends⟩ := h
      exact ⟨address, hsub address hmem, remote, hends.append hfirst⟩
  | error e => exact not_peerMissing_append hfirst h

/-- Asking for a stream reads no peer. -/
theorem streams_openStream (io : Anyio σ) (address : Address) (options : TcpOptions) :
    Streams (openStream U io address options) fun result added => ¬ PeerMissing added ∧
      ∀ stream, result = .ok stream → ∃ port, .connectTcp stream address.ip port (.ok ()) ∈ added := by
  have hquiet {stream : StreamId} {port : ℤ} (result : Except Exc Unit) :
      ¬ PeerMissing [StreamCall.connectTcp stream address.ip port result] :=
    not_peerMissing_singleton fun _ h => by cases h
  refine Prog.Adds.bind_ofExcept (fun port _ => ?_) fun e _ => ?_
  · refine streams_newStream.bind_silent (fun stream => ?_) fun e => ?_
    · refine (streams_callStream _ _).bind ?_ ?_
      · rintro _ _ rfl
        refine Prog.Adds.pure ⟨hquiet _, fun s hs => ?_⟩
        cases hs
        exact ⟨port, List.mem_singleton.mpr rfl⟩
      · rintro e _ rfl
        exact ⟨hquiet _, fun _ h => absurd h Except.error_ne_ok⟩
    · exact ⟨not_peerMissing_nil, fun _ h => absurd h Except.error_ne_ok⟩
  · exact ⟨not_peerMissing_nil, fun _ h => absurd h Except.error_ne_ok⟩

theorem streams_reachFrom (io : Anyio σ) (options : TcpOptions) (observer : Option (Observer σ))
    (message : List Str → Str) (attempted : List Address) (failures : List Str) (onlyTimeouts : Bool) :
    Streams (reachFrom U io options observer message attempted failures onlyTimeouts)
      (Reached U attempted) := by
  induction attempted generalizing failures onlyTimeouts with
  | nil => exact Prog.Adds.throw not_peerMissing_nil
  | cons address attempted ih =>
      rw [reachFrom]
      refine (streams_openStream io address options).bind_attempt ?_
      rintro (failed | stream) first ⟨hfirst, hopened⟩
      -- no stream: the addresses that are left, or an end that is no return
      · have hrest (failures : Str → List Str) (onlyTimeouts : Bool) :
            Streams (do
              let shown ← Prog.mapError .untranslated (Prog.ofExcept (address.str U))
              reachFrom U io options observer message attempted (failures shown) onlyTimeouts)
              fun result second => Reached U (address :: attempted) result (first ++ second) := by
          refine Prog.Adds.bind_silent (Prog.Adds.silent (fun _ => rfl) fun _ => rfl) (fun shown => ?_)
            fun e => ?_
          · refine (ih _ _).conseq fun result second h => ?_
            exact h.append (fun _ => List.mem_cons_of_mem _) hfirst
          · rw [List.append_nil]
            exact hfirst
        dsimp only
        split
        · exact hrest (fun shown => failures ++ [shown ++ text " (timed out)"]) onlyTimeouts
        · split
          · exact hrest (fun shown => failures ++ [shown ++ text " (" ++ failed.str U ++ text ")"]) false
          · refine Prog.Adds.throw ?_
            rw [List.append_nil]
            exact hfirst
      -- a stream: it is admitted, or the loop ends
      · obtain ⟨port, hport⟩ := hopened stream rfl
        refine (streams_admitStream io stream address options observer).mapError ?_
        rintro (e | s) second hsecond
        · exact not_peerMissing_append hfirst hsecond
        · obtain ⟨rfl, before, remote, rfl, hbefore, hsame⟩ := hsecond
          refine ⟨address, List.mem_cons_self, remote, ⟨first ++ before, port, ?_, ?_, ?_⟩, hsame⟩
          · rw [List.append_assoc]
          · exact not_peerMissing_append hfirst hbefore
          · exact List.mem_append_left _ hport

/-- The backend as a whole. -/
theorem streams_connectTcp (p : Policy) (resolver : Resolver σ) (io : Anyio σ)
    (observer : Option (Observer σ)) (host : Str) (port : ℤ) (options : TcpOptions) :
    Streams (AsyncSafeBackend.connectTcp U p resolver io observer host port options) fun result added =>
      match result with
      | .ok stream => ∃ ip remote, p.Permits ip ∧ EndsAtStream U stream ip remote added
      | .error _ => ¬ PeerMissing added := by
  rw [AsyncSafeBackend.connectTcp]
  refine Prog.Adds.bind_silent (Prog.Adds.silent (fun _ => rfl) fun _ => rfl) (fun _ => ?_)
    fun _ => not_peerMissing_nil
  refine (streams_shared _).bind_attempt ?_
  rintro (e | addresses) _ rfl
  · dsimp only
    split
    · exact Prog.Adds.throw not_peerMissing_nil
    · exact Prog.Adds.throw not_peerMissing_nil
  · dsimp only
    rw [Prog.mapError_ofExcept]
    refine Prog.Adds.bind_ofExcept (fun _ hchecked => ?_) fun _ _ => not_peerMissing_nil
    refine (streams_reachFrom _ _ _ _ _ _ _).conseq ?_
    rintro (e | stream) added h
    · exact h
    · obtain ⟨address, hmem, remote, hends⟩ := h
      have hpermits := permits_of_checkAll (Except.mapError_eq_ok.mp hchecked)
      exact ⟨address.ip, remote, hpermits address (List.mem_of_mem_take hmem), hends⟩

/-- **A stream of the asynchronous backend was compared with the address it was opened for exactly when
its peer was not missing**: the run returns only streams whose peer is a permitted address they were
opened to, if and only if no stream of the run had no peer to give. -/
theorem connectTcp_compared_iff (U : Unicode) (p : Policy) (resolver : Resolver σ) (io : Anyio σ)
    (observer : Option (Observer σ)) (host : Str) (port : ℤ) (options : TcpOptions) (w : AsyncWorld σ) :
    let run := (AsyncSafeBackend.connectTcp U p resolver io observer host port options).exec w
    ∃ added, run.2.calls = w.calls ++ added ∧
      ((∀ stream, run.1 = .ok stream → ∃ ip, p.Permits ip ∧ Compared U stream ip added) ↔
        ¬ PeerMissing added) := by
  intro run
  obtain ⟨added, hcalls, hresult⟩ := streams_connectTcp (U := U) p resolver io observer host port options w
  rw [show (AsyncSafeBackend.connectTcp U p resolver io observer host port options).exec w = run from
    rfl] at hresult
  refine ⟨added, hcalls, ?_⟩
  cases hrun : run.1 with
  | error e =>
      rw [hrun] at hresult
      exact iff_of_true (fun _ h => absurd h Except.error_ne_ok) hresult
  | ok stream =>
      rw [hrun] at hresult
      obtain ⟨ip, remote, hpermits, hends⟩ := hresult
      obtain ⟨before, port, rfl, hbefore, -⟩ := id hends.ends
      cases remote with
      | none =>
          refine iff_of_false (fun h => ?_) fun h => h ⟨stream, List.mem_append_right _ List.mem_cons_self⟩
          obtain ⟨ip', -, sockaddr, hother⟩ := h stream rfl
          obtain ⟨before', port', hsplit, -⟩ := hother.ends
          cases (List.append_inj' hsplit rfl).2
      | some sockaddr =>
          refine iff_of_true (fun s hs => ?_) ?_
          · cases hs
            exact ⟨ip, hpermits, sockaddr, hends⟩
          · exact not_peerMissing_append hbefore (not_peerMissing_singleton fun _ h => by cases h)

/-- A network library whose streams do not know their peer. -/
def mutePeers : Anyio Unit where
  connectTcp _ _ _ _ _ := pure ()
  setsockopt _ _ := pure ()
  remoteAddress _ := pure none
  aclose _ := pure ()

/-- A stream without a peer is returned, and nothing was compared. -/
theorem connectTcp_mutePeers :
    let run := (AsyncSafeBackend.connectTcp Unicode.ascii Policy.default
      (fun _ _ _ _ _ _ => pure listedTwice) mutePeers none (text "a") 443 {}).exec
        (AsyncWorld.around World.start)
    run.1 = .ok 0 ∧
      run.2.calls = [.connectTcp 0 (.v4 0x08080808) 443 (.ok ()), .remoteAddress 0 (.ok none)] ∧
      ¬ ∃ ip, Compared Unicode.ascii 0 ip run.2.calls := by
  have hcalls : ((AsyncSafeBackend.connectTcp Unicode.ascii Policy.default
      (fun _ _ _ _ _ _ => pure listedTwice) mutePeers none (text "a") 443 {}).exec
        (AsyncWorld.around World.start)).2.calls =
      [.connectTcp 0 (.v4 0x08080808) 443 (.ok ()), .remoteAddress 0 (.ok none)] := by
    decide +kernel
  refine ⟨by decide +kernel, hcalls, ?_⟩
  rintro ⟨ip, sockaddr, hends⟩
  rw [hcalls] at hends
  obtain ⟨before, port, hsplit, -⟩ := hends.ends
  cases (@List.append_inj' _ [_] _ _ _ hsplit rfl).2

end SsrfGuard
