import SsrfGuard.Resolve

/-! # Connecting

`connect` tries the validated addresses in order and returns the first socket that comes up, having
checked that its peer is the address that was validated. Whatever the kernel does, a socket it returns
reports the address of one of the answers, and the policy permits that address. -/

namespace SsrfGuard

variable {σ : Type} (U : Unicode)

/-! ## Rendering an address -/

/-- `address.port`: `int(sockaddr[1])`. -/
def Address.port (address : Address) : Except Exc ℤ :=
  match address.sockaddr with
  | _ :: .int n :: _ => .ok n
  | _ :: .str s :: _ =>
    match intOfText U s with
    | some n => .ok n
    | none => .error (.valueError (text "invalid literal for int() with base 10: " ++ repr U s))
  | _ => .error (.indexError (text "tuple index out of range"))

/-- `str(address)`. -/
def Address.str (address : Address) : Except Exc Str := do
  let literal := if address.family = afInet6 then text "[" ++ address.ip.str ++ text "]"
    else address.ip.str
  let port ← address.port U
  let via := if address.hostname = address.ip.str then [] else text " (via " ++ address.hostname ++ text ")"
  .ok (literal ++ text ":" ++ intText port ++ via)

/-- `exhausted`: what was tried, what each attempt cost, and what was left untried. -/
def exhausted (failures : List Str) (skipped : ℕ) (cap : ℤ) : Str :=
  text "could not connect to any validated address: " ++ join (text "; ") failures ++
    (if skipped = 0 then []
     else text "; " ++ natText skipped ++ text " further address(es) not tried (max_connection_attempts=" ++
      intText cap ++ text ")")

/-! ## One socket -/

/-- The arguments of `connect` that shape a socket. -/
structure ConnectOptions where
  /-- Seconds to wait per attempt. -/
  timeout : Option ℚ := none
  /-- Local address to bind before connecting. -/
  sourceAddress : Option (Str × ℤ) := none
  /-- `setsockopt` arguments applied to every attempt. -/
  socketOptions : List SocketOption := []

/-- Why a peer is refused. -/
def peerReason (peer : IPAddress) (address : Address) : Str :=
  text "the connection was made to " ++ peer.str ++ text " after " ++ address.ip.str ++
    text " was validated, so something " ++
    text "between this process and the network rewrote the destination"

/-- The report of `_verify_peer`, made only when there is an observer. -/
def reportPeer (address : Address) (observer : Option (Observer σ)) (peer : IPAddress)
    (refusal : Option Str) : Prog (World σ) Exc Unit :=
  match observer with
  | none => pure ()
  | some callback => do
    let port ← Prog.ofExcept (address.port U)
    report (outside (some callback))
      { stage := .peer, outcome := if refusal.isSome then .refused else .permitted, reason := refusal,
        host := some address.hostname, port := some port, address := some peer }

/-- `_verify_peer`. -/
def verifyPeer (kernel : Kernel σ) (sock : SockId) (address : Address) (observer : Option (Observer σ)) :
    Prog (World σ) Exc Unit := do
  let sockaddr ← perform (kernel.getpeername sock) (.getpeername sock)
  let peer ← Prog.ofExcept (sockaddrIp U sockaddr)
  if peer ≠ address.ip then do
    reportPeer U address observer peer (some (peerReason peer address))
    throw (.blockedAddressError peer.str (peerReason peer address))
  else reportPeer U address observer peer none

/-- The options, the timeout and the local address of one socket. -/
def configure (kernel : Kernel σ) (sock : SockId) (options : ConnectOptions) :
    Prog (World σ) Exc Unit := do
  options.socketOptions.forM fun option =>
    perform (kernel.setsockopt sock option) (.setsockopt sock option)
  options.timeout.forM fun timeout => perform (kernel.settimeout sock timeout) (.settimeout sock timeout)
  options.sourceAddress.forM fun address => perform (kernel.bind sock address) (.bind sock address)

/-- The body of the `try` of `_open`. -/
def openBody (kernel : Kernel σ) (sock : SockId) (address : Address) (options : ConnectOptions)
    (observer : Option (Observer σ)) : Prog (World σ) Exc Unit := do
  configure kernel sock options
  perform (kernel.connect sock address.sockaddr) (.connect sock address.sockaddr)
  verifyPeer U kernel sock address observer

/-- `_open`: one socket to one address, closed again whatever goes wrong. -/
def openSocket (kernel : Kernel σ) (address : Address) (options : ConnectOptions)
    (observer : Option (Observer σ)) : Prog (World σ) Exc SockId := do
  let sock ← newSocket
  perform (kernel.socket sock address.family sockStream) (.socket sock address.family)
  tryCatch (openBody U kernel sock address options observer) fun e => do
    perform (kernel.close sock) (.close sock)
    throw e
  pure sock

/-! ## Failover -/

/-- The loop of `connect` over the addresses still to be attempted. -/
def attemptFrom (kernel : Kernel σ) (options : ConnectOptions) (observer : Option (Observer σ))
    (message : List Str → Str) :
    List Address → List Str → Bool → Prog (World σ) Exc SockId
  | [], failures, onlyTimeouts =>
    throw (if onlyTimeouts then .timeoutError (message failures) else .osError (message failures))
  | address :: attempted, failures, onlyTimeouts =>
    tryCatch (openSocket U kernel address options observer) fun failed =>
      -- a refusal is no `OSError`, so it ends the loop
      if failed.isOSError then do
        let shown ← Prog.ofExcept (address.str U)
        attemptFrom kernel options observer message attempted
          (failures ++ [shown ++ text " (" ++ failed.str U ++ text ")"])
          (onlyTimeouts && failed.isTimeoutError)
      else throw failed

/-- The check of every address before the first attempt. -/
def checkAll (p : Policy) (addresses : List Address) : Except Exc Unit :=
  addresses.forM fun address => p.checkAddress address.ip

/-- `connect`: the first reachable address among those validated, up to the attempt cap. -/
def connect (p : Policy) (kernel : Kernel σ) (addresses : List Address) (options : ConnectOptions)
    (observer : Option (Observer σ)) : Prog (World σ) Exc SockId :=
  if addresses = [] then
    throw (.valueError (text "connect needs at least one address; resolve never returns none"))
  else do
    -- all of them, also those the cap will leave untried
    Prog.ofExcept (checkAll p addresses)
    let attempted := addresses.take p.maxConnectionAttempts.toNat
    let message (failures : List Str) : Str :=
      exhausted failures (addresses.length - attempted.length) p.maxConnectionAttempts
    attemptFrom U kernel options observer message attempted [] true

/-! ## The pin -/

/-- The calls end by asking the socket for its peer, and the peer it reports is this address. -/
def EndsAtPeer (sock : SockId) (ip : IPAddress) (added : List Action) : Prop :=
  ∃ before sockaddr, added = before ++ [.getpeername sock (.ok sockaddr)] ∧
    sockaddrIp U sockaddr = .ok ip

variable {U}

theorem EndsAtPeer.append {sock : SockId} {ip : IPAddress} {added : List Action}
    (h : EndsAtPeer U sock ip added) (first : List Action) : EndsAtPeer U sock ip (first ++ added) := by
  obtain ⟨before, sockaddr, rfl, hip⟩ := h
  exact ⟨first ++ before, sockaddr, (List.append_assoc _ _ _).symm, hip⟩

theorem traces_reportPeer (address : Address) (observer : Option (Observer σ)) (peer : IPAddress)
    (refusal : Option Str) :
    Traces (reportPeer U address observer peer refusal) fun _ added => added = [] := by
  cases observer with
  | none => exact Traces.pure rfl
  | some callback =>
      refine Traces.bind_ofExcept (fun port _ => ?_) fun _ _ => rfl
      exact Traces.report _ _ fun _ => rfl

/-- A socket is asked for its peer once, and a verified peer is the address that was validated. -/
theorem traces_verifyPeer (kernel : Kernel σ) (sock : SockId) (address : Address)
    (observer : Option (Observer σ)) :
    Traces (verifyPeer U kernel sock address observer) fun result added =>
      ∃ remote, added = [.getpeername sock remote] ∧ (result = .ok () →
        ∃ sockaddr, remote = .ok sockaddr ∧ sockaddrIp U sockaddr = .ok address.ip) := by
  refine Traces.bind_perform (fun sockaddr => ?_) fun e => ⟨_, rfl, fun h => absurd h Except.error_ne_ok⟩
  -- another peer is refused after the report; the same peer is what the last call reported
  refine Traces.bind_ofExcept (fun peer hpeer => ?_) fun e _ =>
    ⟨_, rfl, fun h => absurd h Except.error_ne_ok⟩
  split
  · refine Traces.bind_silent (traces_reportPeer _ _ _ _) (fun _ => ?_) fun _ => ?_
    · exact Traces.throw ⟨_, rfl, fun h => absurd h Except.error_ne_ok⟩
    · exact ⟨_, rfl, fun h => absurd h Except.error_ne_ok⟩
  · next hsame =>
    refine (traces_reportPeer _ _ _ _).conseq ?_
    rintro result added rfl
    refine ⟨_, rfl, fun _ => ⟨sockaddr, rfl, ?_⟩⟩
    rw [hpeer, not_not.mp hsame]

theorem looksUpNothing_configure (kernel : Kernel σ) (sock : SockId) (options : ConnectOptions) :
    LooksUpNothing (configure kernel sock options) := by
  refine (LooksUpNothing.forM (fun _ => .perform fun _ => rfl) _).bind fun _ => ?_
  refine (LooksUpNothing.optionForM (fun _ => .perform fun _ => rfl) _).bind fun _ => ?_
  exact LooksUpNothing.optionForM (fun _ => .perform fun _ => rfl) _

/-- A socket that comes up ends at the peer of the address it was opened for. -/
theorem traces_openSocket (kernel : Kernel σ) (address : Address) (options : ConnectOptions)
    (observer : Option (Observer σ)) :
    Traces (openSocket U kernel address options observer) fun result added =>
      NoLookup added ∧ ∀ sock, result = .ok sock → EndsAtPeer U sock address.ip added := by
  refine Traces.bind_silent (Traces.newSocket fun _ => rfl) (fun sock => ?_) fun _ =>
    ⟨noLookup_nil, fun _ h => nomatch h⟩
  refine Traces.bind_perform (fun _ => ?_) fun _ => ⟨noLookup_singleton rfl, fun _ h => nomatch h⟩
  -- the body of the `try`: only its last call asks for the peer
  have hbody : Traces (openBody U kernel sock address options observer) fun result added =>
      NoLookup added ∧ (result = .ok () → EndsAtPeer U sock address.ip added) := by
    refine Traces.bind (looksUpNothing_configure kernel sock options) (fun _ first hfirst => ?_)
      fun _ first hfirst => ⟨hfirst, fun h => nomatch h⟩
    refine Traces.bind_perform (fun _ => ?_) fun _ => ?_
    · refine (traces_verifyPeer kernel sock address observer).conseq ?_
      rintro result _ ⟨remote, rfl, hpeer⟩
      refine ⟨hfirst.append (.append (noLookup_singleton rfl) (noLookup_singleton rfl)), fun h => ?_⟩
      obtain ⟨sockaddr, rfl, hip⟩ := hpeer h
      have hends : EndsAtPeer U sock address.ip [.getpeername sock (.ok sockaddr)] :=
        ⟨[], sockaddr, rfl, hip⟩
      exact (hends.append [_]).append first
    · exact ⟨hfirst.append (noLookup_singleton rfl), fun h => nomatch h⟩
  -- the handler closes the socket and raises again, so it never returns
  have hguarded : Traces (tryCatch (openBody U kernel sock address options observer) fun e => do
      perform (kernel.close sock) (.close sock)
      throw e) fun result added =>
      NoLookup added ∧ (result = .ok () → EndsAtPeer U sock address.ip added) := by
    refine hbody.tryCatch (fun _ _ => id) fun e first hfirst => ?_
    have hclosed : ∀ result, NoLookup (first ++ [Action.close sock result]) :=
      fun _ => hfirst.1.append (noLookup_singleton rfl)
    refine Traces.bind_perform (fun _ => Traces.throw ?_) fun _ => ?_
    · exact ⟨hclosed _, fun h => nomatch h⟩
    · exact ⟨hclosed _, fun h => nomatch h⟩
  have hopened : NoLookup [Action.socket sock address.family (.ok ())] := noLookup_singleton rfl
  refine hguarded.bind (fun _ first hfirst => Traces.pure ?_) fun _ first hfirst => ?_
  · rw [List.append_nil]
    refine ⟨hopened.append hfirst.1, fun sock' h => ?_⟩
    cases h
    exact (hfirst.2 rfl).append [_]
  · exact ⟨hopened.append hfirst.1, fun _ h => nomatch h⟩

/-- The failover loop returns a socket that ends at the peer of one of the addresses it attempted. -/
theorem traces_attemptFrom (kernel : Kernel σ) (options : ConnectOptions)
    (observer : Option (Observer σ)) (message : List Str → Str) (attempted : List Address)
    (failures : List Str) (onlyTimeouts : Bool) :
    Traces (attemptFrom U kernel options observer message attempted failures onlyTimeouts)
      fun result added => NoLookup added ∧
        ∀ sock, result = .ok sock → ∃ address ∈ attempted, EndsAtPeer U sock address.ip added := by
  induction attempted generalizing failures onlyTimeouts with
  | nil => exact Traces.throw ⟨noLookup_nil, fun _ h => nomatch h⟩
  | cons address attempted ih =>
      rw [attemptFrom]
      -- this address, or after an `OSError` one of those that are left
      refine (traces_openSocket kernel address options observer).tryCatch ?_ fun e first hfirst => ?_
      · rintro sock first ⟨hquiet, hpeer⟩
        refine ⟨hquiet, fun sock' h => ⟨address, List.mem_cons_self, hpeer sock' h⟩⟩
      · split
        · refine Traces.bind_ofExcept (fun shown _ => ?_) fun _ _ => ?_
          · refine (ih _ _).conseq ?_
            rintro result second ⟨hquiet, hpeer⟩
            refine ⟨hfirst.1.append hquiet, fun sock h => ?_⟩
            obtain ⟨other, hother, hends⟩ := hpeer sock h
            exact ⟨other, List.mem_cons_of_mem _ hother, hends.append first⟩
          · rw [List.append_nil]
            exact ⟨hfirst.1, fun _ h => nomatch h⟩
        · refine Traces.throw ?_
          rw [List.append_nil]
          exact ⟨hfirst.1, fun _ h => nomatch h⟩

/-- Every address is permitted once all are checked. -/
theorem permits_of_checkAll {p : Policy} {addresses : List Address} (h : checkAll p addresses = .ok ()) :
    ∀ address ∈ addresses, p.Permits address.ip := by
  induction addresses with
  | nil => exact fun _ hmem => nomatch hmem
  | cons first addresses ih =>
      obtain ⟨⟨⟩, hfirst, hrest⟩ := Except.bind_eq_ok.mp h
      intro address hmem
      rcases List.mem_cons.mp hmem with rfl | hmem
      · exact hfirst
      · exact ih hrest address hmem

theorem checkAll_of_permits {p : Policy} {addresses : List Address}
    (h : ∀ address ∈ addresses, p.Permits address.ip) : checkAll p addresses = .ok () := by
  induction addresses with
  | nil => rfl
  | cons first addresses ih =>
      obtain ⟨hfirst, hrest⟩ := List.forall_mem_cons.mp h
      exact Except.bind_eq_ok.mpr ⟨(), hfirst, ih hrest⟩

/-- `connect` returns a socket that ends at the peer of a permitted address among those given. -/
theorem traces_connect (p : Policy) (kernel : Kernel σ) (addresses : List Address)
    (options : ConnectOptions) (observer : Option (Observer σ)) :
    Traces (connect U p kernel addresses options observer) fun result added => NoLookup added ∧
      ∀ sock, result = .ok sock →
        ∃ address ∈ addresses, p.Permits address.ip ∧ EndsAtPeer U sock address.ip added := by
  unfold connect
  split
  · exact Traces.throw ⟨noLookup_nil, fun _ h => nomatch h⟩
  · refine Traces.bind_ofExcept (fun _ hchecked => ?_) fun _ _ => ⟨noLookup_nil, fun _ h => nomatch h⟩
    refine (traces_attemptFrom _ _ _ _ _ _ _).conseq ?_
    rintro result added ⟨hquiet, hpeer⟩
    refine ⟨hquiet, fun sock h => ?_⟩
    obtain ⟨address, hmem, hends⟩ := hpeer sock h
    have haddress := List.mem_of_mem_take hmem
    exact ⟨address, haddress, permits_of_checkAll hchecked address haddress, hends⟩

/-! ## The whole run -/

/-- Checking a URL calls nothing. -/
theorem traces_checkUrl (p : Policy) (url : Str) (observer : Option (Observer σ)) :
    Traces (p.checkUrl U url (outside observer)) fun _ added => added = [] := by
  rw [Policy.checkUrl]
  split
  · split
    · exact Traces.bind_silent (Traces.report _ _ fun _ => rfl) (fun _ => Traces.throw rfl) fun _ => rfl
    · exact Traces.throw rfl
  · exact Traces.bind_silent (Traces.report _ _ fun _ => rfl) (fun _ => Traces.pure rfl) fun _ => rfl

/-- Sorting the answers calls nothing, and what it permits is permitted and was given. -/
theorem traces_checkAnswers (p : Policy) (target : Target) (observer : Option (Observer σ))
    (answers : List Address) :
    Traces (checkAnswers p target (outside observer) answers) fun result added => added = [] ∧
      ∀ sorted, result = .ok sorted → ∀ a ∈ sorted.1, a ∈ answers ∧ p.Permits a.ip := by
  induction answers with
  | nil =>
      refine Traces.pure ⟨rfl, ?_⟩
      rintro sorted h
      cases h
      exact fun _ hmem => nomatch hmem
  | cons answer answers ih =>
      rw [checkAnswers]
      have hreport : ∀ decision, Traces (report (outside observer) decision) fun _ added => added = [] :=
        fun decision => Traces.report _ _ fun _ => rfl
      split
      · refine Traces.bind_silent (hreport _) (fun _ => ?_) fun _ => ⟨rfl, fun _ h => absurd h Except.error_ne_ok⟩
        refine ih.bind ?_ fun e first hfirst => ⟨hfirst.1, fun _ h => absurd h Except.error_ne_ok⟩
        rintro ⟨permitted, denied⟩ first ⟨rfl, hrest⟩
        refine Traces.pure ⟨rfl, fun sorted h => ?_⟩
        cases h
        intro a ha
        obtain ⟨hmem, hpermits⟩ := hrest _ rfl a ha
        exact ⟨List.mem_cons_of_mem _ hmem, hpermits⟩
      · exact Traces.throw ⟨rfl, fun _ h => absurd h Except.error_ne_ok⟩
      · next hcheck =>
        refine Traces.bind_silent (hreport _) (fun _ => ?_) fun _ => ⟨rfl, fun _ h => absurd h Except.error_ne_ok⟩
        refine ih.bind ?_ fun e first hfirst => ⟨hfirst.1, fun _ h => absurd h Except.error_ne_ok⟩
        rintro ⟨permitted, denied⟩ first ⟨rfl, hrest⟩
        refine Traces.pure ⟨rfl, fun sorted h => ?_⟩
        cases h
        intro a ha
        rcases List.mem_cons.mp ha with rfl | ha
        · exact ⟨List.mem_cons_self, hcheck⟩
        · obtain ⟨hmem, hpermits⟩ := hrest _ rfl a ha
          exact ⟨List.mem_cons_of_mem _ hmem, hpermits⟩

/-- The address of an answer is the one its row's socket address holds. -/
theorem exists_row_of_addressesFrom {hostname : Str} {seen : List (ℤ × SockAddr)}
    {infos : List ResolverAnswer} {out : List Address}
    (h : addressesFrom U hostname seen infos = .ok out) :
    ∀ address ∈ out, ∃ info ∈ infos, sockaddrIp U info.sockaddr = .ok address.ip := by
  induction infos generalizing seen out with
  | nil =>
      cases h
      exact fun _ hmem => nomatch hmem
  | cons info infos ih =>
      rw [addressesFrom] at h
      split at h
      · intro address haddress
        obtain ⟨row, hrow, hip⟩ := ih h address haddress
        exact ⟨row, List.mem_cons_of_mem _ hrow, hip⟩
      · obtain ⟨first, hfirst, h⟩ := Except.bind_eq_ok.mp h
        obtain ⟨rest, hrest, h⟩ := Except.bind_eq_ok.mp h
        cases h
        intro address haddress
        rcases List.mem_cons.mp haddress with rfl | haddress
        · obtain ⟨family, -, hfirst⟩ := Except.bind_eq_ok.mp hfirst
          obtain ⟨ip, hip, hfirst⟩ := Except.bind_eq_ok.mp hfirst
          cases hfirst
          exact ⟨info, List.mem_cons_self, hip⟩
        · obtain ⟨row, hrow, hip⟩ := ih hrest address haddress
          exact ⟨row, List.mem_cons_of_mem _ hrow, hip⟩

theorem eq_permitted_of_verdictOn {p : Policy} {target : Target} {permitted : List Address}
    {denied : List Denial} {out : List Address} (h : verdictOn p target permitted denied = .ok out) :
    out = permitted := by
  unfold verdictOn at h
  split_ifs at h
  cases h
  rfl

/-- Resolving makes one lookup, and returns permitted addresses of the rows it brought. -/
theorem traces_resolve (p : Policy) (target : Target) (resolver : Resolver σ)
    (observer : Option (Observer σ)) :
    Traces (resolve U p target resolver observer) fun result added =>
      ∃ flags answer, added = [.lookup target.host target.port flags answer] ∧
        ∀ addresses, result = .ok addresses → ∃ infos, answer = .ok infos ∧
          ∀ a ∈ addresses, p.Permits a.ip ∧ ∃ info ∈ infos, sockaddrIp U info.sockaddr = .ok a.ip := by
  unfold resolve
  dsimp only
  refine Traces.bind_perform (fun infos => ?_) fun e => ⟨_, _, rfl, fun _ h => nomatch h⟩
  refine Traces.bind_ofExcept (fun answers hanswers => ?_) fun _ _ => ⟨_, _, rfl, fun _ h => nomatch h⟩
  split
  · exact Traces.throw ⟨_, _, rfl, fun _ h => nomatch h⟩
  · refine (traces_checkAnswers p target observer answers).bind ?_ ?_
    · rintro ⟨permitted, denied⟩ first ⟨rfl, hsorted⟩
      refine Traces.ofExcept ⟨_, _, rfl, fun addresses h => ⟨infos, rfl, ?_⟩⟩
      obtain rfl := eq_permitted_of_verdictOn h
      intro a ha
      obtain ⟨hmem, hpermits⟩ := hsorted _ rfl a ha
      exact ⟨hpermits, exists_row_of_addressesFrom hanswers a hmem⟩
    · rintro e first ⟨rfl, -⟩
      exact ⟨_, _, rfl, fun _ h => nomatch h⟩

/-- `check_url`, then `resolve`, then `connect`. -/
def checkedConnect (U : Unicode) (p : Policy) (url : Str) (resolver : Resolver σ) (kernel : Kernel σ)
    (options : ConnectOptions) (observer : Option (Observer σ)) : Prog (World σ) Exc SockId := do
  let target ← p.checkUrl U url (outside observer)
  let addresses ← resolve U p target resolver observer
  connect U p kernel addresses options observer

/-- **The pin.** A socket that comes out of `check_url`, `resolve` and `connect` was preceded by exactly
one lookup, and the peer it reports is a permitted address of one of the rows of that lookup; a socket
that comes out of `connect` alone, over any addresses, reports a permitted address among them. This holds
for every resolver, every kernel and every observer. -/
theorem connect_pinned (U : Unicode) (p : Policy) (resolver : Resolver σ) (kernel : Kernel σ)
    (options : ConnectOptions) (observer : Option (Observer σ)) :
    (∀ (url : Str) (w w' : World σ) (sock : SockId),
      (checkedConnect U p url resolver kernel options observer).exec w = (.ok sock, w') →
      ∃ host port flags infos added,
        w'.trace = w.trace ++ .lookup host port flags (.ok infos) :: added ∧ NoLookup added ∧
        ∃ info ∈ infos, ∃ ip, sockaddrIp U info.sockaddr = .ok ip ∧ p.Permits ip ∧
          EndsAtPeer U sock ip added) ∧
    ∀ (addresses : List Address) (w w' : World σ) (sock : SockId),
      (connect U p kernel addresses options observer).exec w = (.ok sock, w') →
      ∃ added, w'.trace = w.trace ++ added ∧ NoLookup added ∧
        ∃ address ∈ addresses, p.Permits address.ip ∧ EndsAtPeer U sock address.ip added := by
  constructor
  · intro url w w' sock hrun
    have htrace : Traces (checkedConnect U p url resolver kernel options observer) fun result added =>
        ∀ sock, result = .ok sock → ∃ host port flags infos rest,
          added = .lookup host port flags (.ok infos) :: rest ∧ NoLookup rest ∧
          ∃ info ∈ infos, ∃ ip, sockaddrIp U info.sockaddr = .ok ip ∧ p.Permits ip ∧
            EndsAtPeer U sock ip rest := by
      refine Traces.bind_silent (traces_checkUrl p url observer) (fun target => ?_) fun _ _ h => nomatch h
      refine (traces_resolve p target resolver observer).bind ?_ fun _ _ _ _ h => nomatch h
      rintro addresses first ⟨flags, answer, rfl, hrows⟩
      refine (traces_connect p kernel addresses options observer).conseq ?_
      rintro result added ⟨hquiet, hpeer⟩ sock h
      obtain ⟨infos, rfl, hpermitted⟩ := hrows addresses rfl
      obtain ⟨address, hmem, hpermits, hends⟩ := hpeer sock h
      obtain ⟨-, info, hinfo, hip⟩ := hpermitted address hmem
      exact ⟨_, _, flags, infos, added, rfl, hquiet, info, hinfo, address.ip, hip, hpermits, hends⟩
    obtain ⟨added, hadded, hsock⟩ := htrace w
    rw [hrun] at hadded hsock
    obtain ⟨host, port, flags, infos, rest, rfl, hrest⟩ := hsock sock rfl
    exact ⟨host, port, flags, infos, rest, hadded, hrest⟩
  · intro addresses w w' sock hrun
    obtain ⟨added, hadded, hquiet, hsock⟩ := traces_connect p kernel addresses options observer w
    rw [hrun] at hadded hsock
    exact ⟨added, hadded, hquiet, hsock sock rfl⟩

/-- A kernel that does what it is asked, and whose peers are all the public address. -/
def publicKernel : Kernel Unit where
  socket _ _ _ := pure ()
  setsockopt _ _ := pure ()
  settimeout _ _ := pure ()
  bind _ _ := pure ()
  connect _ _ := pure ()
  getpeername _ := pure [.str (text "8.8.8.8"), .int 443]
  close _ := pure ()

theorem connect_pinned_listedTwice :
    ∃ infos, ∃ info ∈ infos, ∃ ip, sockaddrIp Unicode.ascii info.sockaddr = .ok ip ∧
      Policy.default.Permits ip ∧
      ((checkedConnect Unicode.ascii Policy.default (text "https://a/") (fun _ _ _ _ _ _ => pure listedTwice)
        publicKernel {} none).exec World.start).1 = .ok 0 ∧
      ∃ host port flags added, ((checkedConnect Unicode.ascii Policy.default (text "https://a/")
        (fun _ _ _ _ _ _ => pure listedTwice) publicKernel {} none).exec World.start).2.trace =
          .lookup host port flags (.ok infos) :: added ∧ EndsAtPeer Unicode.ascii 0 ip added := by
  have hrun : ((checkedConnect Unicode.ascii Policy.default (text "https://a/")
      (fun _ _ _ _ _ _ => pure listedTwice) publicKernel {} none).exec World.start).1 = .ok 0 := by
    decide +kernel
  obtain ⟨host, port, flags, infos, added, htrace, -, info, hinfo, ip, hip, hpermits, hends⟩ :=
    (connect_pinned Unicode.ascii Policy.default (fun _ _ _ _ _ _ => pure listedTwice) publicKernel {}
      none).1 (text "https://a/") World.start _ 0 (Prod.ext hrun rfl)
  exact ⟨infos, info, hinfo, ip, hip, hpermits, hrun, host, port, flags, added, htrace, hends⟩

end SsrfGuard
