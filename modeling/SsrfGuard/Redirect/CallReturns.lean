import SsrfGuard.Library.Stays
import SsrfGuard.Httpx.ConnectFailover
import SsrfGuard.Httpx.OriginParity
import SsrfGuard.Redirect.CallEgress
import SsrfGuard.Redirect.Crossing
import SsrfGuard.Redirect.CallUnobserved

/-! # Nothing else fails

A guard that refused everything would be safe. This one refuses what the policy refuses and nothing more: where the
outside cooperates, so that names resolve to addresses the policy permits, one of them within reach, and a connection
that comes up leads where it was made to, a call on each of the three clients ends in a response, or in a URL that
`check_url` refuses, or in a chain of redirects that is too long. -/

namespace SsrfGuard

variable {σ υ ω κ γ ε : Type} {U : Unicode} {C : HttpLibraries υ} {p : Policy} {I : σ → Prop}
  {Reaches : Address → Prop}

/-! ## An outside that cooperates -/

/-- The outside is in one of these states. -/
def World.In (I : σ → Prop) (w : World σ) : Prop := I w.env

/-- An observer that leaves the outside in these states, and raises nothing but `Exception`s. -/
def KeptBy (I : σ → Prop) (observer : Option (Observer σ)) : Prop :=
  ∀ callback, observer = some callback → ∀ decision,
    Prog.Stays I (callback decision) (fun _ => True) fun e => e.isException = true

/-- A host resolves to addresses that are returned, each with a port, and one of those that are tried is in reach. -/
structure Dialable (U : Unicode) (p : Policy) (Reaches : Address → Prop) (addresses : List Address) : Prop where
  /-- They have ports. -/
  ports : ∀ address ∈ addresses, ∃ port, address.port U = .ok port
  /-- One of the first is in reach. -/
  reaches : ∃ address ∈ addresses.take p.maxConnectionAttempts.toNat, Reaches address

/-- A host resolves, to addresses that can be dialled. -/
def Resolver.Serves (U : Unicode) (p : Policy) (I : σ → Prop) (Reaches : Address → Prop) (resolver : Resolver σ)
    (t : Target) : Prop :=
  Prog.Stays I (lookupOf t resolver)
    (fun infos => ∃ addresses, resolved U p t infos = .ok addresses ∧ Dialable U p Reaches addresses) fun _ => False

/-- A kernel whose sockets work: only a connection can fail, to an address that is not in reach, and one that comes up
leads to the address it was made to. -/
structure Kernel.Works (U : Unicode) (I : σ → Prop) (Reaches : Address → Prop) (kernel : Kernel σ) : Prop where
  /-- Sockets are opened. -/
  socket : ∀ sock family type, Prog.Stays I (kernel.socket sock family type) (fun _ => True) fun _ => False
  /-- Options are set. -/
  setsockopt : ∀ sock option, Prog.Stays I (kernel.setsockopt sock option) (fun _ => True) fun _ => False
  /-- Timeouts are set. -/
  settimeout : ∀ sock timeout, Prog.Stays I (kernel.settimeout sock timeout) (fun _ => True) fun _ => False
  /-- Sockets are bound. -/
  bind : ∀ sock source, Prog.Stays I (kernel.bind sock source) (fun _ => True) fun _ => False
  /-- Sockets are closed. -/
  close : ∀ sock, Prog.Stays I (kernel.close sock) (fun _ => True) fun _ => False
  /-- Sockets are connected, and know their peer. -/
  connect : ∀ sock address, ∃ Connected : σ → Prop,
    Prog.Triple I (kernel.connect sock address.sockaddr) (fun _ => Connected)
      (fun e env => (e.isOSError = true ∧ ¬ Reaches address) ∧ I env) ∧
    Prog.Triple Connected (kernel.getpeername sock)
      (fun peer env => sockaddrIp U peer = sockaddrIp U address.sockaddr ∧ I env) fun _ _ => False

/-- The same of the network library, whose streams need not know their peer. -/
structure Anyio.Works (U : Unicode) (I : σ → Prop) (Reaches : Address → Prop) (io : Anyio σ) : Prop where
  /-- Streams are connected, take options and know their peer, if they say anything about it. -/
  connectTcp : ∀ stream address port source timeout, address.port U = .ok port → ∃ Connected : σ → Prop,
    Prog.Triple I (io.connectTcp stream address.ip port source timeout) (fun _ => Connected)
      (fun e env => (e.isOSError = true ∧ ¬ Reaches address) ∧ I env) ∧
    (∀ option, Prog.Stays Connected (io.setsockopt stream option) (fun _ => True) fun _ => False) ∧
    Prog.Triple Connected (io.remoteAddress stream)
      (fun remote env => (∀ sockaddr, remote = some sockaddr → sockaddrIp U sockaddr = .ok address.ip) ∧ I env)
      fun _ _ => False

/-- An HTTP library that asks for the connections of its requests, and reads every response. -/
structure Exchange.Works (U : Unicode) (C : HttpLibraries υ) (p : Policy) (I : σ → Prop) (Asks : κ → Target → Prop)
    (exchange : Exchange σ υ κ γ ε) : Prop where
  /-- It asks for nothing else. -/
  dial : ∀ request t, p.decide U (C.str request.url) = .ok t → Prog.Stays I (exchange.dial request)
    (fun needed => ∀ target, needed = some target → Asks target t) fun _ => False
  /-- It reads the response. -/
  converse : ∀ request connection,
    Prog.Stays I (exchange.converse request connection) (fun _ => True) fun _ => False

/-! ## The steps of a seam -/

theorem triple_perform {α : Type} {operation : Prog σ Exc α} {P : σ → Prop} {Q : α → σ → Prop}
    {E : Exc → σ → Prop} (h : Prog.Triple P operation Q E) (action : Except Exc α → Action) :
    Prog.Triple (fun w => P w.env) (perform operation action) (fun a w => Q a w.env) fun e w => E e w.env := by
  intro w hw
  have hend := h w.env hw
  rw [perform, Prog.exec_ofFun]
  cases hexec : operation.exec w.env with
  | mk result env =>
      rw [hexec] at hend
      cases result with
      | ok a => exact hend
      | error e => exact hend

theorem stays_perform {α : Type} {operation : Prog σ Exc α} {Q : α → Prop} {E : Exc → Prop}
    (h : Prog.Stays I operation Q E) (action : Except Exc α → Action) :
    Prog.Stays (World.In I) (perform operation action) Q E := triple_perform h action

theorem stays_report {observer : Option (Observer σ)} (hobserver : KeptBy I observer) (decision : Decision) :
    Prog.Stays (World.In I) (report (outside observer) decision) (fun _ => True) fun _ => False := by
  cases observer with
  | none => exact .pure True.intro
  | some callback =>
      refine Prog.Stays.tryCatch (E := fun e => e.isException = true) ?_ fun e he => ?_
      · exact Prog.Stays.zoom (fun _ _ => rfl) (hobserver callback rfl decision)
      · rw [if_pos he]
        exact .pure True.intro

/-- `check_url` ends as it decides. -/
theorem stays_checkUrl {observer : Option (Observer σ)} (hobserver : KeptBy I observer) (url : Str) :
    Prog.Stays (World.In I) (p.checkUrl U url (outside observer)) (fun t => p.decide U url = .ok t)
      fun e => p.decide U url = .error e := by
  unfold Policy.checkUrl
  cases hdecided : p.decide U url with
  | ok t =>
      exact ((stays_report hobserver _).conseq (fun _ => id) fun _ h => h.elim).bind fun _ _ => .pure rfl
  | error e =>
      have hthrow : Prog.Stays (World.In I) (throw e : Prog (World σ) Exc Target)
          (fun t => (Except.error e : Except Exc Target) = .ok t) fun e' => (Except.error e : Except Exc Target) =
            .error e' := .throw rfl
      dsimp only
      split
      · exact ((stays_report hobserver _).conseq (fun _ => id) fun _ h => h.elim).bind fun _ _ => hthrow
      · exact hthrow

theorem stays_checkAnswers {observer : Option (Observer σ)} (hobserver : KeptBy I observer) (target : Target)
    (answers : List Address) :
    Prog.Stays (World.In I) (checkAnswers p target (outside observer) answers)
      (fun sorted => sorted = (p.permitted answers, p.denied answers)) fun _ => False := by
  induction answers with
  | nil => exact .pure rfl
  | cons answer answers ih =>
      rw [checkAnswers]
      cases hcheck : p.checkAddress answer.ip with
      | ok u =>
          have hpermits : p.Permits answer.ip := hcheck
          refine (stays_report hobserver _).bind fun _ _ => ih.bind fun sorted hsorted => .pure ?_
          rw [hsorted, Policy.permitted_cons_of_permits hpermits, Policy.denied_cons_of_permits hpermits]
      | error e =>
          have hnot : ¬ p.Permits answer.ip := Policy.not_permits_of_checkAddress hcheck
          obtain rfl := Policy.checkAddress_eq_error hcheck
          refine (stays_report hobserver _).bind fun _ _ => ih.bind fun sorted hsorted => .pure ?_
          rw [hsorted, Policy.permitted_cons_of_not_permits hnot, Policy.denied_cons_of_not_permits hnot]
          rfl

/-- `resolve` returns what its lookup comes to. -/
theorem stays_resolve {observer : Option (Observer σ)} (hobserver : KeptBy I observer) {target : Target}
    {resolver : Resolver σ} {Q : List Address → Prop}
    (hlookup : Prog.Stays I (lookupOf target resolver)
      (fun infos => ∃ addresses, resolved U p target infos = .ok addresses ∧ Q addresses) fun _ => False) :
    Prog.Stays (World.In I) (resolve U p target resolver observer) Q fun _ => False := by
  refine (stays_perform hlookup _).bind fun infos ⟨addresses, hresolved, hgood⟩ => ?_
  unfold resolved at hresolved
  cases hanswers : addressesFrom U target.host [] infos with
  | error e =>
      rw [hanswers] at hresolved
      cases hresolved
  | ok answers =>
      rw [hanswers] at hresolved
      dsimp only [bind, Except.bind] at hresolved
      split_ifs at hresolved with hnone
      refine Prog.Stays.bind (Q := (· = answers))
        (.ofExcept (fun _ h => (Except.ok.inj h).symm) fun _ h => by cases h) ?_
      rintro found rfl
      rw [if_neg hnone]
      refine (stays_checkAnswers hobserver target found).bind fun sorted hsorted => ?_
      rw [hsorted]
      dsimp only
      rw [hresolved]
      exact .ofExcept (fun _ h => Except.ok.inj h ▸ hgood) fun _ h => by cases h

/-- The addresses that come out of a lookup are permitted, and each is the one its socket address holds. -/
theorem mem_of_resolved {target : Target} {infos : List ResolverAnswer} {addresses : List Address}
    (h : resolved U p target infos = .ok addresses) {a : Address} (ha : a ∈ addresses) :
    p.Permits a.ip ∧ sockaddrIp U a.sockaddr = .ok a.ip := by
  obtain ⟨answers, hanswers, h⟩ := Except.bind_eq_ok.mp h
  split_ifs at h with hnone
  unfold verdictOn at h
  split_ifs at h with hnothing hpartial
  cases h
  obtain ⟨hmem, hpermits⟩ := List.mem_filter.mp ha
  exact ⟨of_decide_eq_true hpermits, (exists_key_of_addressesFrom hanswers a hmem).1⟩

/-- What `resolve` returns is permitted and can be dialled, where its lookup is of a host that resolves. -/
theorem stays_resolve_dialable {observer : Option (Observer σ)} (hobserver : KeptBy I observer) {target : Target}
    {resolver : Resolver σ} (hserves : resolver.Serves U p I Reaches target) :
    Prog.Stays (World.In I) (resolve U p target resolver observer) (fun addresses => Dialable U p Reaches addresses ∧
      ∀ a ∈ addresses, p.Permits a.ip ∧ sockaddrIp U a.sockaddr = .ok a.ip) fun _ => False := by
  refine stays_resolve hobserver (hserves.conseq ?_ fun _ => id)
  rintro infos ⟨addresses, hresolved, hdialable⟩
  exact ⟨addresses, hresolved, hdialable, fun _ => mem_of_resolved hresolved⟩

/-! ## Connecting -/

section Connecting

variable {kernel : Kernel σ} {observer : Option (Observer σ)} {address : Address}

theorem stays_configure (hkernel : kernel.Works U I Reaches) (sock : SockId) (options : ConnectOptions) :
    Prog.Stays (World.In I) (configure kernel sock options) (fun _ => True) fun _ => False := by
  refine (Prog.Stays.forM (fun option => stays_perform (hkernel.setsockopt sock option) _) _).bind fun _ _ => ?_
  refine (Prog.Stays.optionForM (fun timeout => stays_perform (hkernel.settimeout sock timeout) _) _).bind
    fun _ _ => ?_
  exact Prog.Stays.optionForM (fun source => stays_perform (hkernel.bind sock source) _) _

theorem stays_reportPeer (hobserver : KeptBy I observer) (hport : ∃ port, address.port U = .ok port) (peer : IPAddress)
    (refusal : Option Str) :
    Prog.Stays (World.In I) (reportPeer U address observer peer refusal) (fun _ => True) fun _ => False := by
  unfold reportPeer
  cases observer with
  | none => exact .pure True.intro
  | some callback =>
      obtain ⟨port, hport⟩ := hport
      refine Prog.Stays.bind (Q := fun _ => True) (.ofExcept (fun _ _ => True.intro) fun e he => ?_) fun _ _ =>
        stays_report hobserver _
      rw [hport] at he
      cases he

/-- One attempt fails only at an address that is not in reach. -/
theorem stays_openSocket (hkernel : kernel.Works U I Reaches) (hobserver : KeptBy I observer)
    (hport : ∃ port, address.port U = .ok port) (hip : sockaddrIp U address.sockaddr = .ok address.ip)
    (options : ConnectOptions) :
    Prog.Stays (World.In I) (openSocket U kernel address options observer) (fun _ => True)
      fun e => e.isOSError = true ∧ ¬ Reaches address := by
  have hnever : ∀ {α : Type} {x : Prog (World σ) Exc α} {Q : α → Prop}, Prog.Stays (World.In I) x Q (fun _ => False) →
      Prog.Stays (World.In I) x Q fun e => e.isOSError = true ∧ ¬ Reaches address :=
    fun h => h.conseq (fun _ => id) fun _ h => h.elim
  have hnew : Prog.Stays (World.In I) (newSocket : Prog (World σ) Exc SockId) (fun _ => True) fun _ => False :=
    fun w hw => ⟨True.intro, hw⟩
  refine (hnever hnew).bind fun sock _ => (hnever (stays_perform (hkernel.socket sock _ _) _)).bind fun _ _ => ?_
  refine Prog.Stays.bind (Q := fun _ => True) (Prog.Stays.tryCatch (E := fun e => e.isOSError = true ∧
    ¬ Reaches address) ?_ fun e he => ?_) fun _ _ => .pure True.intro
  · refine (hnever (stays_configure hkernel sock options)).bind fun _ _ => ?_
    obtain ⟨Connected, hconnect, hpeer⟩ := hkernel.connect sock address
    refine Prog.Triple.bind (triple_perform hconnect _) fun _ => ?_
    refine Prog.Triple.bind ((triple_perform hpeer _).conseq (fun _ => id) (fun _ _ => id) fun _ _ h => h.elim)
      fun sockaddr w hw => ?_
    -- the peer is the address itself, so it is reported and let through
    refine (hnever (?_ : Prog.Stays (World.In I) _ (fun _ => True) fun _ => False)) w hw.2
    have hfound : sockaddrIp U sockaddr = .ok address.ip := hw.1.trans hip
    refine Prog.Stays.bind (Q := (· = address.ip)) (.ofExcept (fun peer h => ?_) fun e h => ?_) ?_
    · rw [hfound] at h
      exact (Except.ok.inj h).symm
    · rw [hfound] at h
      cases h
    · rintro peer rfl
      rw [if_neg (not_not.mpr rfl)]
      exact stays_reportPeer hobserver hport _ _
  · exact (hnever (stays_perform (hkernel.close sock) _)).bind fun _ _ => .throw he

/-- The attempts fail only where none of the addresses is in reach. -/
theorem stays_attemptFrom (hkernel : kernel.Works U I Reaches) (hobserver : KeptBy I observer)
    (options : ConnectOptions) (message : List Str → Str) (attempted : List Address)
    (hports : ∀ a ∈ attempted, ∃ port, a.port U = .ok port)
    (hips : ∀ a ∈ attempted, sockaddrIp U a.sockaddr = .ok a.ip) (failures : List Str) (onlyTimeouts : Bool) :
    Prog.Stays (World.In I) (attemptFrom U kernel options observer message attempted failures onlyTimeouts)
      (fun _ => True) fun _ => ∀ a ∈ attempted, ¬ Reaches a := by
  induction attempted generalizing failures onlyTimeouts with
  | nil => exact .throw (List.forall_mem_nil _)
  | cons address attempted ih =>
      obtain ⟨hport, hports⟩ := List.forall_mem_cons.mp hports
      obtain ⟨hip, hips⟩ := List.forall_mem_cons.mp hips
      rw [attemptFrom]
      refine (stays_openSocket hkernel hobserver hport hip options).tryCatch fun failed hfailed => ?_
      rw [if_pos hfailed.1]
      obtain ⟨port, hport⟩ := hport
      obtain ⟨shown, hshown⟩ := Address.str_of_port hport
      refine Prog.Stays.bind (Q := fun _ => True) (.ofExcept (fun _ _ => True.intro) fun e he => ?_) fun _ _ => ?_
      · rw [hshown] at he
        cases he
      · exact (ih hports hips _ _).conseq (fun _ => id) fun _ h => List.forall_mem_cons.mpr ⟨hfailed.2, h⟩

theorem stays_connect (hkernel : kernel.Works U I Reaches) (hobserver : KeptBy I observer) {addresses : List Address}
    (hdialable : Dialable U p Reaches addresses)
    (hread : ∀ a ∈ addresses, p.Permits a.ip ∧ sockaddrIp U a.sockaddr = .ok a.ip) (options : ConnectOptions) :
    Prog.Stays (World.In I) (connect U p kernel addresses options observer) (fun _ => True) fun _ => False := by
  obtain ⟨reached, hreached, hreaches⟩ := hdialable.reaches
  have hne : addresses ≠ [] := List.ne_nil_of_mem (List.mem_of_mem_take hreached)
  rw [connect, if_neg hne, checkAll_of_permits fun a ha => (hread a ha).1]
  refine Prog.Stays.bind (Q := fun _ => True) (.ofExcept (fun _ _ => True.intro) fun _ h => by cases h) fun _ _ => ?_
  refine (stays_attemptFrom hkernel hobserver options _ _ (fun a ha => ?_) (fun a ha => ?_) [] true).conseq
    (fun _ => id) fun _ h => h reached hreached hreaches
  · exact hdialable.ports a (List.mem_of_mem_take ha)
  · exact (hread a (List.mem_of_mem_take ha)).2

end Connecting

/-! ## The seams -/

section Seams

variable {resolver : Resolver σ} {observer : Option (Observer σ)} {url : Str} {t : Target}

/-- The host of a URL is looked up alike under the scheme of the backends. -/
theorem serves_originTarget (hserves : resolver.Serves U p I Reaches t) (h : p.decide U url = .ok t) :
    resolver.Serves U p I Reaches (originTarget U t.host t.port) := by
  obtain ⟨split, -, -, -, hhost, -⟩ := Policy.decide_eq_ok h
  have hliteral : (originTarget U t.host t.port).isLiteralAddress = t.isLiteralAddress :=
    congrArg Option.isSome (literalAddress_of_checkHost hhost)
  have hlookup : lookupOf (originTarget U t.host t.port) resolver = lookupOf t resolver := by
    rw [lookupOf, lookupOf, hliteral]
    rfl
  rw [Resolver.Serves, hlookup]
  exact hserves

theorem SafeBackend.stays_connectTcp {kernel : Kernel σ} (hkernel : kernel.Works U I Reaches)
    (hobserver : KeptBy I observer) (h : p.decide U url = .ok t) (hserves : resolver.Serves U p I Reaches t)
    (options : TcpOptions) :
    Prog.Stays (World.In I) (SafeBackend.connectTcp U p resolver kernel observer t.host t.port options) (fun _ => True)
      fun _ => False := by
  rw [SafeBackend.connectTcp, checkOrigin_of_decide h]
  refine Prog.Stays.bind (Q := fun _ => True)
    (.mapError (E := fun _ => False) (.ofExcept (fun _ _ => True.intro) fun _ h => by cases h) fun _ => id)
    fun _ _ => ?_
  refine Prog.Stays.mapError (E := fun _ => False) ?_ fun _ => id
  exact (stays_resolve_dialable hobserver (serves_originTarget hserves h)).bind fun addresses haddresses =>
    stays_connect hkernel hobserver haddresses.1 haddresses.2 _

/-- The seam of requests asks `check_url` again, about the origin. -/
theorem stays_pinnedSocket {kernel : Kernel σ} (hkernel : kernel.Works U I Reaches) (hobserver : KeptBy I observer)
    {audit : Prog σ Exc Unit} (haudit : Prog.Stays I audit (fun _ => True) fun _ => False)
    {connection : HTTPConnection} (htunnel : connection.tunnelHost = none)
    (hserves : ∀ target, p.decide U (origin connection.scheme connection.dnsHost connection.port) = .ok target →
      resolver.Serves U p I Reaches target) :
    Prog.Stays (World.In I) (pinnedSocket U p connection resolver kernel audit observer) (fun _ => True) fun e =>
      ∃ refused, p.decide U (origin connection.scheme connection.dnsHost connection.port) = .error refused ∧
        e = .untranslated refused := by
  unfold pinnedSocket
  rw [if_neg (by rw [htunnel]; exact Bool.false_ne_true)]
  refine Prog.Stays.bind ((stays_checkUrl hobserver _).mapError fun e he => ⟨e, he, rfl⟩) fun target htarget => ?_
  refine Prog.Stays.conseq (Q := fun _ => True) (E := fun _ => False) ?_ (fun _ => id) fun _ h => h.elim
  refine Prog.Stays.bind (Q := fun _ => True) (Prog.Stays.mapError (E := fun _ => False) ?_ fun _ => id)
    fun sock _ => ?_
  · exact (stays_resolve_dialable hobserver (hserves target htarget)).bind fun addresses haddresses =>
      stays_connect hkernel hobserver haddresses.1 haddresses.2 _
  · exact ((haudit.zoom fun _ _ => rfl).mapError fun _ => id).bind fun _ _ => .pure True.intro

end Seams

/-! ## The asynchronous seam -/

section Asynchronous

variable {io : Anyio σ} {observer : Option (Observer σ)} {address : Address}

/-- The same of an asynchronous world. -/
def AsyncWorld.In (I : σ → Prop) (v : AsyncWorld σ) : Prop := I v.world.env

theorem triple_callStream {α : Type} {operation : Prog σ Exc α} {P : σ → Prop} {Q : α → σ → Prop}
    {E : Exc → σ → Prop} (h : Prog.Triple P operation Q E) (call : Except Exc α → StreamCall) :
    Prog.Triple (fun v => P v.world.env) (callStream operation call) (fun a v => Q a v.world.env)
      fun e v => E e v.world.env := by
  intro v hv
  have hend := h v.world.env hv
  rw [callStream, Prog.exec_ofFun]
  cases hexec : operation.exec v.world.env with
  | mk result env =>
      rw [hexec] at hend
      cases result with
      | ok a => exact hend
      | error e => exact hend

theorem stays_shared {α : Type} {x : Prog (World σ) ε α} {Q : α → Prop} {E : ε → Prop}
    (h : Prog.Stays (World.In I) x Q E) : Prog.Stays (AsyncWorld.In I) (shared x) Q E := h.zoom fun _ _ => rfl

/-- A stream is connected to an address: it takes options, and whatever it says of its peer is that address. -/
def Anyio.Admits (U : Unicode) (I : σ → Prop) (io : Anyio σ) (stream : StreamId) (ip : IPAddress) (env : σ) : Prop :=
  ∃ Connected : σ → Prop, Connected env ∧
    (∀ option, Prog.Stays Connected (io.setsockopt stream option) (fun _ => True) fun _ => False) ∧
    Prog.Triple Connected (io.remoteAddress stream)
      (fun remote env => (∀ sockaddr, remote = some sockaddr → sockaddrIp U sockaddr = .ok ip) ∧ I env)
      fun _ _ => False

theorem triple_openStream (hio : io.Works U I Reaches) (hport : ∃ port, address.port U = .ok port)
    (options : TcpOptions) :
    Prog.Triple (AsyncWorld.In I) (openStream U io address options)
      (fun stream v => io.Admits U I stream address.ip v.world.env)
      fun e v => (e.isOSError = true ∧ ¬ Reaches address) ∧ AsyncWorld.In I v := by
  obtain ⟨port, hport⟩ := hport
  rw [openStream, hport]
  refine Prog.Triple.bind (Q := fun found v => found = port ∧ AsyncWorld.In I v) (fun v hv => ⟨rfl, hv⟩) ?_
  rintro found v ⟨rfl, hv⟩
  refine Prog.Triple.bind (Q := fun _ => AsyncWorld.In I) (fun _ => id) (fun stream => ?_) v hv
  obtain ⟨Connected, hconnect, hoptions, hremote⟩ :=
    hio.connectTcp stream address found options.localAddress options.timeout hport
  refine Prog.Triple.bind (triple_callStream hconnect _) fun _ => Prog.Triple.pure fun v hv => ?_
  exact ⟨Connected, hv, hoptions, hremote⟩

theorem triple_admitStream {Connected : σ → Prop} {stream : StreamId} (hobserver : KeptBy I observer)
    (hport : ∃ port, address.port U = .ok port)
    (hoptions : ∀ option, Prog.Stays Connected (io.setsockopt stream option) (fun _ => True) fun _ => False)
    (hremote : Prog.Triple Connected (io.remoteAddress stream)
      (fun remote env => (∀ sockaddr, remote = some sockaddr → sockaddrIp U sockaddr = .ok address.ip) ∧ I env)
      fun _ _ => False) (options : TcpOptions) :
    Prog.Triple (fun v => Connected v.world.env) (admitStream U io stream address options observer)
      (fun _ => AsyncWorld.In I) fun _ _ => False := by
  refine Prog.Triple.bind (Q := fun _ => AsyncWorld.In I)
    (Prog.Triple.tryCatch (E := fun _ _ => False) ?_ fun _ _ h => h.elim) fun _ => Prog.Triple.pure fun _ => id
  refine Prog.Triple.bind (Q := fun _ v => Connected v.world.env) ?_ fun _ => ?_
  · have hset : Prog.Stays (fun v : AsyncWorld σ => Connected v.world.env) (options.socketOptions.forM fun option =>
        callStream (io.setsockopt stream option) (.setsockopt stream option)) (fun _ => True) fun _ => False :=
      Prog.Stays.forM (fun option => triple_callStream (hoptions option) _) _
    exact Prog.Triple.conseq hset (fun _ => id) (fun _ _ h => h.2) fun _ _ h => h.1
  · refine Prog.Triple.bind (triple_callStream hremote _) fun remote v hv => ?_
    obtain ⟨hpeer, hv⟩ := hv
    cases remote with
    | none => exact hv
    | some sockaddr =>
        have hfound := hpeer sockaddr rfl
        have hcompared : Prog.Stays (AsyncWorld.In I) (Prog.ofExcept (sockaddrIp U sockaddr) >>= fun peer =>
            if peer ≠ address.ip then do
              shared (reportPeer U address observer peer (some (peerReason peer address)))
              throw (.blockedAddressError peer.str (peerReason peer address))
            else shared (reportPeer U address observer peer none)) (fun _ => True) fun _ => False := by
          refine Prog.Stays.bind (Q := (· = address.ip)) (.ofExcept (fun peer h => ?_) fun e h => ?_) ?_
          · rw [hfound] at h
            exact (Except.ok.inj h).symm
          · rw [hfound] at h
            cases h
          · rintro peer rfl
            rw [if_neg (not_not.mpr rfl)]
            exact stays_shared (stays_reportPeer hobserver hport _ _)
        exact Prog.Triple.conseq hcompared (fun _ => id) (fun _ _ h => h.2) (fun _ _ h => h.1) v hv

/-- The attempts fail only where none of the addresses is in reach. -/
theorem stays_reachFrom (hio : io.Works U I Reaches) (hobserver : KeptBy I observer) (options : TcpOptions)
    (message : List Str → Str) (attempted : List Address) (hports : ∀ a ∈ attempted, ∃ port, a.port U = .ok port)
    (failures : List Str) (onlyTimeouts : Bool) :
    Prog.Stays (AsyncWorld.In I) (reachFrom U io options observer message attempted failures onlyTimeouts)
      (fun _ => True) fun _ => ∀ a ∈ attempted, ¬ Reaches a := by
  induction attempted generalizing failures onlyTimeouts with
  | nil => exact .throw (List.forall_mem_nil _)
  | cons address attempted ih =>
      obtain ⟨hport, hports⟩ := List.forall_mem_cons.mp hports
      have hshown : Prog.Stays (AsyncWorld.In I)
          (Prog.mapError BackendExc.untranslated (Prog.ofExcept (address.str U))) (fun _ => True) fun _ => False := by
        obtain ⟨port, hport⟩ := hport
        obtain ⟨shown, hshown⟩ := Address.str_of_port hport
        rw [hshown]
        exact .mapError (E := fun _ => False) (.ofExcept (fun _ _ => True.intro) fun _ h => by cases h) fun _ => id
      have hnext : ∀ {shown : Prog (AsyncWorld σ) BackendExc Str} {E : BackendExc → Prop}, Prog.Stays (AsyncWorld.In I)
          shown (fun _ => True) (fun _ => False) → Prog.Stays (AsyncWorld.In I) shown (fun _ => True) E :=
        fun h => h.conseq (fun _ => id) fun _ h => h.elim
      refine Prog.Triple.bind ((triple_openStream hio hport options).attempt.conseq (fun _ => id) (fun _ _ => id)
        fun _ _ h => h.elim) fun opened => ?_
      cases opened with
      | ok stream =>
          rintro v ⟨Connected, hv, hoptions, hremote⟩
          have hadmitted := triple_admitStream hobserver hport hoptions hremote options v hv
          dsimp only
          rw [Prog.exec_mapError]
          cases hexec : (admitStream U io stream address options observer).exec v with
          | mk result v' =>
              rw [hexec] at hadmitted
              cases result with
              | ok stream => exact ⟨True.intro, hadmitted⟩
              | error e => exact hadmitted.elim
      | error failed =>
          rintro v ⟨⟨hos, hunreached⟩, hv⟩
          have hrest : ∀ failures onlyTimeouts, Prog.Stays (AsyncWorld.In I)
              (reachFrom U io options observer message attempted failures onlyTimeouts) (fun _ => True)
              fun _ => ∀ a ∈ address :: attempted, ¬ Reaches a := fun failures onlyTimeouts =>
            (ih hports failures onlyTimeouts).conseq (fun _ => id) fun _ h => List.forall_mem_cons.mpr ⟨hunreached, h⟩
          dsimp only
          by_cases htimeout : failed.isTimeoutError = true
          · rw [if_pos htimeout]
            exact (hnext hshown).bind (fun _ _ => hrest _ _) v hv
          · rw [if_neg htimeout, if_pos hos]
            exact (hnext hshown).bind (fun _ _ => hrest _ _) v hv

theorem AsyncSafeBackend.stays_connectTcp {resolver : Resolver σ} {url : Str} {t : Target}
    (hio : io.Works U I Reaches) (hobserver : KeptBy I observer) (h : p.decide U url = .ok t)
    (hserves : resolver.Serves U p I Reaches t) (options : TcpOptions) :
    Prog.Stays (AsyncWorld.In I) (AsyncSafeBackend.connectTcp U p resolver io observer t.host t.port options)
      (fun _ => True) fun _ => False := by
  have hchecked : ∀ {checked : Except Exc Unit}, checked = .ok () → Prog.Stays (AsyncWorld.In I)
      (Prog.mapError BackendExc.untranslated (Prog.ofExcept checked)) (fun _ => True) fun _ => False := by
    rintro _ rfl
    exact .mapError (E := fun _ => False) (.ofExcept (fun _ _ => True.intro) fun _ h => by cases h) fun _ => id
  refine (hchecked (checkOrigin_of_decide h)).bind fun _ _ => ?_
  refine (stays_shared (stays_resolve_dialable hobserver (serves_originTarget hserves h))).attempt.bind
    fun looked hlooked => ?_
  cases looked with
  | error e => exact hlooked.elim
  | ok addresses =>
      obtain ⟨⟨hports, reached, hreached, hreaches⟩, hread⟩ := hlooked
      refine (hchecked (checkAll_of_permits fun a ha => (hread a ha).1)).bind fun _ _ => ?_
      refine (stays_reachFrom hio hobserver options _ _ (fun a ha => ?_) [] true).conseq (fun _ => id)
        fun _ h => h reached hreached hreaches
      exact hports a (List.mem_of_mem_take ha)

end Asynchronous

/-! ## One request -/

section Request

variable {resolver : Resolver σ} {observer : Option (Observer σ)}

/-- What is raised is that the policy refuses the URL of the request. -/
def Refuses (U : Unicode) (C : HttpLibraries υ) (p : Policy) (untranslated : Exc → ε) (request : Request υ) (e : ε) :
    Prop :=
  ∃ refused, p.decide U (C.str request.url) = .error refused ∧ e = untranslated refused

/-- What is raised is that the policy refuses the origin of the request. -/
def RefusesOrigin (U : Unicode) (C : HttpLibraries υ) (p : Policy) (request : Request υ) (e : SeamExc) : Prop :=
  ∃ t refused, p.decide U (C.str request.url) = .ok t ∧ p.decide U (origin t.scheme t.host t.port) = .error refused ∧
    e = .untranslated refused

/-- The host of a request resolves, if the policy accepts its URL. -/
def Served (U : Unicode) (C : HttpLibraries υ) (p : Policy) (I : σ → Prop) (Reaches : Address → Prop)
    (resolver : Resolver σ) (request : Request υ) : Prop :=
  ∀ t, p.decide U (C.str request.url) = .ok t → resolver.Serves U p I Reaches t

/-- The host of a request resolves, if the policy accepts its URL and then the origin of it. -/
def ServedAgain (U : Unicode) (C : HttpLibraries υ) (p : Policy) (I : σ → Prop) (Reaches : Address → Prop)
    (resolver : Resolver σ) (request : Request υ) : Prop :=
  ∀ t again, p.decide U (C.str request.url) = .ok t → p.decide U (origin t.scheme t.host t.port) = .ok again →
    resolver.Serves U p I Reaches again

/-- The connection httpx asks for is to the host and the port of the URL. -/
def TcpArguments.To (args : TcpArguments) (t : Target) : Prop := args.host = t.host ∧ args.port = t.port

/-- The connection requests asks for is to the origin of the URL. -/
def HTTPConnection.To (connection : HTTPConnection) (t : Target) : Prop :=
  connection.scheme = t.scheme ∧ connection.dnsHost = t.host ∧ connection.port = t.port ∧ connection.tunnelHost = none

theorem Exchange.stays_send {get : ω → σ} {set : ω → σ → ω} (hget : ∀ w env, get (set w env) = env)
    {exchange : Exchange σ υ κ γ ε} {Asks : κ → Target → Prop} (hexchange : exchange.Works U C p I Asks)
    {seam : κ → Prog ω ε γ} {request : Request υ} {t : Target} (h : p.decide U (C.str request.url) = .ok t)
    {E : ε → Prop}
    (hseam : ∀ target, Asks target t → Prog.Stays (fun w => I (get w)) (seam target) (fun _ => True) E) :
    Prog.Stays (fun w => I (get w)) (exchange.send get set seam request) (fun _ => True) E := by
  have hread : ∀ connection, Prog.Stays (fun w => I (get w)) (Prog.zoom get set (exchange.converse request connection))
      (fun _ => True) E := fun connection =>
    ((hexchange.converse request connection).zoom hget).conseq (fun _ => id) fun _ h => h.elim
  refine (((hexchange.dial request t h).zoom hget).conseq (fun _ => id) fun _ h => h.elim).bind
    fun needed hneeded => ?_
  cases needed with
  | none => exact hread none
  | some target => exact (hseam target (hneeded target rfl)).bind fun connection _ => hread (some connection)

theorem SafeTransport.stays_handleRequest {kernel : Kernel σ} (hkernel : kernel.Works U I Reaches)
    (hobserver : KeptBy I observer) {exchange : Exchange σ υ TcpArguments SockId BackendExc}
    (hexchange : exchange.Works U C p I TcpArguments.To) {request : Request υ}
    (hserved : Served U C p I Reaches resolver request) :
    Prog.Stays (World.In I) (SafeTransport.handleRequest U C p resolver kernel observer exchange request)
      (fun _ => True) (Refuses U C p .untranslated request) := by
  refine Prog.Stays.bind ((stays_checkUrl hobserver _).mapError fun e he => ⟨e, he, rfl⟩) fun t ht => ?_
  refine Exchange.stays_send (fun _ _ => rfl) hexchange ht fun args hargs => ?_
  rw [hargs.1, hargs.2]
  exact (SafeBackend.stays_connectTcp hkernel hobserver ht (hserved t ht) _).conseq (fun _ => id) fun _ h => h.elim

theorem AsyncSafeTransport.stays_handleAsyncRequest {io : Anyio σ} (hio : io.Works U I Reaches)
    (hobserver : KeptBy I observer) {exchange : Exchange σ υ TcpArguments StreamId BackendExc}
    (hexchange : exchange.Works U C p I TcpArguments.To) {request : Request υ}
    (hserved : Served U C p I Reaches resolver request) :
    Prog.Stays (AsyncWorld.In I) (AsyncSafeTransport.handleAsyncRequest U C p resolver io observer exchange request)
      (fun _ => True) (Refuses U C p .untranslated request) := by
  refine Prog.Stays.bind ((stays_shared (stays_checkUrl hobserver _)).mapError fun e he => ⟨e, he, rfl⟩) fun t ht => ?_
  refine Exchange.stays_send (fun _ _ => rfl) hexchange ht fun args hargs => ?_
  rw [hargs.1, hargs.2]
  exact (AsyncSafeBackend.stays_connectTcp hio hobserver ht (hserved t ht) _).conseq (fun _ => id) fun _ h => h.elim

theorem SafeAdapter.stays_send {kernel : Kernel σ} (hkernel : kernel.Works U I Reaches)
    (hobserver : KeptBy I observer) {audit : Prog σ Exc Unit}
    (haudit : Prog.Stays I audit (fun _ => True) fun _ => False)
    {exchange : Exchange σ υ HTTPConnection SockId SeamExc} (hexchange : exchange.Works U C p I HTTPConnection.To)
    {request : Request υ} (hserved : ServedAgain U C p I Reaches resolver request) :
    Prog.Stays (World.In I) (SafeAdapter.send U C p resolver kernel audit observer exchange request) (fun _ => True)
      fun e => Refuses U C p .untranslated request e ∨ RefusesOrigin U C p request e := by
  refine Prog.Stays.bind ((stays_checkUrl hobserver _).mapError fun e he => .inl ⟨e, he, rfl⟩) fun t ht => ?_
  refine Exchange.stays_send (fun _ _ => rfl) hexchange ht fun connection hconnection => ?_
  obtain ⟨hscheme, hhost, hport, htunnel⟩ := hconnection
  refine (stays_pinnedSocket hkernel hobserver haudit htunnel fun again hagain => ?_).conseq (fun _ => id) ?_
  · rw [hscheme, hhost, hport] at hagain
    exact hserved t again ht hagain
  · rintro _ ⟨refused, hrefused, rfl⟩
    rw [hscheme, hhost, hport] at hrefused
    exact .inr ⟨t, refused, ht, hrefused, rfl⟩

end Request

/-! ## The call -/

/-- A call, after `n` responses, that leaves the outside as cooperative as it was and fails only by the policy. -/
structure Called.ReturnsFrom (n : ℕ) (p : Policy) (own : ℤ) (I : ω → Prop) (Refused : Request υ → ε → Prop)
    (called : Called υ ω ε) : Prop where
  /-- The outside. -/
  world : I called.world
  /-- A hook raises over a chain that is longer than the policy allows. -/
  raised : ∀ e, called.outcome = .error (.raised e) →
    p.maxRedirects < n + called.redirects.length ∧ ∃ chain, e = .tooManyRedirectsError p.maxRedirects chain
  /-- The HTTP library gives up over one that is longer than its own limit. -/
  tooMany : called.outcome = .error .tooManyRedirects → own < n + called.redirects.length
  /-- A request that is not answered is refused. -/
  sending : ∀ e, called.outcome = .error (.sending e) →
    ∃ request, called.sent.getLast? = some request ∧ Refused request e

section Call

variable {agent : Agent} {own : ℤ} {following : Bool} {observer : Option (Observer ω)} {I : ω → Prop}
  {Refused : Request υ → ε → Prop} {IsServed : Request υ → Prop}

/-- A hop is built below the cap. -/
theorem Agent.stays_follow
    (hreport : ∀ decision, Prog.Stays I (report observer decision) (fun _ => True) fun _ => False)
    (agent : Agent) (history : List υ) (request : Request υ) (hop : Hop υ) :
    Prog.Stays I (agent.follow U C p observer history request hop) (fun _ => True) fun e =>
      p.maxRedirects ≤ history.length ∧ ∃ chain, e = .tooManyRedirectsError p.maxRedirects chain := by
  have hrefuse : ∀ {α : Type} {Q : α → Prop} (chain : List Str), p.maxRedirects ≤ history.length →
      Prog.Stays I (refuseChain p chain observer : Prog ω Exc α) Q fun e =>
        p.maxRedirects ≤ history.length ∧ ∃ chain, e = .tooManyRedirectsError p.maxRedirects chain :=
    fun chain hcap => ((hreport _).conseq (fun _ => id) fun _ h => h.elim).bind fun _ _ => .throw ⟨hcap, chain, rfl⟩
  have hclient : ∀ {build : Except Exc (Request υ)} {next : Request υ}, build = .ok next → Prog.Stays I
      (checkRedirectCap C p history request.url observer >>= fun _ => Prog.ofExcept build) (fun _ => True) fun e =>
        p.maxRedirects ≤ history.length ∧ ∃ chain, e = .tooManyRedirectsError p.maxRedirects chain := by
    rintro _ next rfl
    refine Prog.Stays.bind (Q := fun _ => True) ?_ fun _ _ => .ofExcept (fun _ _ => True.intro) fun _ h => by cases h
    by_cases hcap : p.maxRedirects ≤ history.length
    · rw [checkRedirectCap_of_le hcap]
      exact hrefuse _ hcap
    · rw [checkRedirectCap_of_lt (not_le.mp hcap)]
      exact .pure True.intro
  have hbuilt : ∀ redirectHeaders, redirectHeaders = (fun request url method =>
      strippedHeaders U C p (C.redirectHeaders request url method) request url) →
      ∃ next, httpxBuildRedirectRequest C redirectHeaders request hop = .ok next := by
    rintro _ rfl
    rw [httpxBuildRedirectRequest, strippedHeaders_eq]
    exact ⟨_, rfl⟩
  cases agent with
  | client =>
      obtain ⟨next, hnext⟩ := hbuilt (Client.redirectHeaders U C p) rfl
      exact hclient hnext
  | asyncClient =>
      obtain ⟨next, hnext⟩ := hbuilt (AsyncClient.redirectHeaders U C p) rfl
      exact hclient hnext
  | session =>
      refine .ite (hrefuse _) fun _ => ?_
      refine Prog.Stays.bind (Q := fun _ => True) (.ofExcept (fun _ _ => True.intro) fun e he => ?_) fun _ _ =>
        .pure True.intro
      rw [Session.rebuildAuth_eq] at he
      cases he

/-- **Along a call.** Where a request that is served fails only when it is refused, and reports go through, a call that
sends no others returns, or ends over a request that is refused, or over a chain that is too long. -/
theorem Agent.returnsFrom_call
    (hreport : ∀ decision, Prog.Stays I (report observer decision) (fun _ => True) fun _ => False)
    {send : Request υ → Prog ω ε (Option (Hop υ))}
    (hsend : ∀ request, IsServed request → Prog.Stays I (send request) (fun _ => True) (Refused request))
    (history : List υ) (request : Request υ) (w : ω) (hw : I w)
    (hserved : ∀ sent ∈ (agent.call U C p own following observer send history request w).sent, IsServed sent) :
    (agent.call U C p own following observer send history request w).ReturnsFrom history.length p own I Refused := by
  -- one step, from a world in the invariant
  have hsent : ∀ {request result w w₁}, I w → IsServed request → (send request).exec w = (result, w₁) →
      (∀ e, result = .error e → Refused request e) ∧ I w₁ := by
    intro request result w w₁ hw hserves hexec
    have hend := hsend request hserves w hw
    rw [hexec] at hend
    cases result with
    | ok answer => exact ⟨fun _ h => (by cases h), hend.2⟩
    | error e => exact ⟨fun _ h => Except.error.inj h ▸ hend.1, hend.2⟩
  have hfollowed : ∀ {history request hop result w w₁}, I w →
      (agent.follow U C p observer history request hop).exec w = (result, w₁) →
      (∀ e, result = .error e → p.maxRedirects ≤ history.length ∧
        ∃ chain, e = .tooManyRedirectsError p.maxRedirects chain) ∧ I w₁ := by
    intro history request hop result w w₁ hw hexec
    have hend := Agent.stays_follow (U := U) (C := C) (p := p) hreport agent history request hop w hw
    rw [hexec] at hend
    cases result with
    | ok next => exact ⟨fun _ h => (by cases h), hend.2⟩
    | error e => exact ⟨fun _ h => Except.error.inj h ▸ hend.1, hend.2⟩
  induction history, request, w using Agent.call.induct U C p agent own following observer send with
  | case1 history request w hgives =>
      rw [Agent.call, if_pos hgives]
      refine ⟨hw, fun _ h => (by cases h), fun _ => ?_, fun _ h => by cases h⟩
      have hown : own < history.length := by
        cases agent with
        | session => cases hgives
        | client => exact of_decide_eq_true hgives
        | asyncClient => exact of_decide_eq_true hgives
      rw [List.length_nil]
      omega
  | case2 history request w hgives e w₁ hexec =>
      rw [Agent.call, if_neg hgives, hexec] at hserved ⊢
      obtain ⟨hrefused, hw₁⟩ := hsent hw (hserved request List.mem_cons_self) hexec
      refine ⟨hw₁, fun _ h => (by cases h), fun h => (by cases h), fun _ h => ?_⟩
      cases h
      exact ⟨request, rfl, hrefused e rfl⟩
  | case3 history request w hgives w₁ hexec =>
      rw [Agent.call, if_neg hgives, hexec] at hserved ⊢
      exact ⟨(hsent hw (hserved request List.mem_cons_self) hexec).2, fun _ h => (by cases h), fun h => (by cases h),
        fun _ h => by cases h⟩
  | case4 history request w hgives hop w₁ hexec e w₂ hfollow =>
      rw [Agent.call_of_refused hgives hexec hfollow] at hserved ⊢
      obtain ⟨hcap, hw₂⟩ := hfollowed (hsent hw (hserved request List.mem_cons_self) hexec).2 hfollow
      refine ⟨hw₂, fun _ h => ?_, fun h => (by cases h), fun _ h => by cases h⟩
      cases h
      obtain ⟨hcap, hraised⟩ := hcap e rfl
      refine ⟨?_, hraised⟩
      rw [List.length_singleton]
      push_cast
      omega
  | case5 history request w hgives hop w₁ hexec next w₂ hfollow hfollowing ih =>
      rw [Agent.call_of_built hgives hexec hfollow, if_pos hfollowing] at hserved ⊢
      have hw₂ := (hfollowed (hsent hw (hserved request List.mem_cons_self) hexec).2 hfollow).2
      obtain ⟨hworld, hraised, htoo, hsending⟩ := ih hw₂ fun sent hmem => hserved sent (List.mem_cons_of_mem _ hmem)
      rw [List.length_append, List.length_singleton] at hraised htoo
      refine ⟨hworld, fun e he => ?_, fun he => ?_, fun e he => ?_⟩
      · obtain ⟨hcap, hchain⟩ := hraised e he
        refine ⟨?_, hchain⟩
        rw [List.length_cons]
        push_cast at hcap ⊢
        omega
      · have hown := htoo he
        rw [List.length_cons]
        push_cast at hown ⊢
        omega
      · obtain ⟨last, hlast, hrefused⟩ := hsending e he
        refine ⟨last, ?_, hrefused⟩
        dsimp only
        rw [List.getLast?_cons, hlast]
        rfl
  | case6 history request w hgives hop w₁ hexec next w₂ hfollow hfollowing =>
      rw [Agent.call_of_built hgives hexec hfollow, if_neg hfollowing] at hserved ⊢
      refine ⟨(hfollowed (hsent hw (hserved request List.mem_cons_self) hexec).2 hfollow).2, fun _ h => ?_,
        fun h => ?_, fun _ h => ?_⟩
      · cases h
      · cases h
      · cases h

end Call

/-- **Nothing else fails.** On each of the three clients, where the kernel or the network library and the HTTP library
do their part and the host of every request that is sent resolves to permitted addresses, one of those tried being in
reach, a call returns; or it ends over a request whose URL `check_url` refuses (on requests, whose origin it refuses),
or over a chain of redirects longer than the policy, or httpx itself, allows. What a sink does makes no difference. -/
theorem call_returns (U : Unicode) (C : HttpLibraries υ) (p : Policy) (own : ℤ) (following : Bool)
    (resolver : Resolver σ) {observer : Option (Observer σ)} {I : σ → Prop} (Reaches : Address → Prop)
    (hobserver : KeptBy I observer) (request : Request υ) :
    (∀ kernel exchange (w : World σ), kernel.Works U I Reaches → exchange.Works U C p I TcpArguments.To → I w.env →
      let called := Client.call U C p own following resolver kernel observer exchange request w
      (∀ sent ∈ called.sent, Served U C p I Reaches resolver sent) →
      called.ReturnsFrom 0 p own (World.In I) (Refuses U C p .untranslated)) ∧
    (∀ io exchange (v : AsyncWorld σ), io.Works U I Reaches → exchange.Works U C p I TcpArguments.To → I v.world.env →
      let called := AsyncClient.call U C p own following resolver io observer exchange request v
      (∀ sent ∈ called.sent, Served U C p I Reaches resolver sent) →
      called.ReturnsFrom 0 p own (AsyncWorld.In I) (Refuses U C p .untranslated)) ∧
    ∀ kernel audit exchange (w : World σ), kernel.Works U I Reaches →
      Prog.Stays I audit (fun _ => True) (fun _ => False) → exchange.Works U C p I HTTPConnection.To → I w.env →
      let called := Session.call U C p own following resolver kernel audit observer exchange request w
      (∀ sent ∈ called.sent, ServedAgain U C p I Reaches resolver sent) →
      called.ReturnsFrom 0 p own (World.In I) fun request e =>
        Refuses U C p .untranslated request e ∨ RefusesOrigin U C p request e := by
  refine ⟨fun kernel exchange w hkernel hexchange hw => ?_, fun io exchange v hio hexchange hv => ?_,
    fun kernel audit exchange w hkernel haudit hexchange hw => ?_⟩
  · exact Agent.returnsFrom_call (stays_report hobserver)
      (fun _ hserved => SafeTransport.stays_handleRequest hkernel hobserver hexchange hserved) [] request w hw
  · refine Agent.returnsFrom_call (fun decision => ?_)
      (fun _ hserved => AsyncSafeTransport.stays_handleAsyncRequest hio hobserver hexchange hserved) [] request v hv
    rw [report_alongside]
    exact stays_shared (stays_report hobserver decision)
  · exact Agent.returnsFrom_call (stays_report hobserver)
      (fun _ hserved => SafeAdapter.stays_send hkernel hobserver haudit hexchange hserved) [] request w hw

/-! ## A dead address first -/

/-- `("8.8.4.4", 443)`, where nobody answers. -/
def deadSockaddr : SockAddr := [.str (text "8.8.4.4"), .int 443]

/-- A name with a dead address and then a public one. -/
def deadThenAlive : List ResolverAnswer :=
  { family := afInet, socktype := sockStream, proto := ipprotoTcp, canonname := [], sockaddr := deadSockaddr } ::
    listedTwice

/-- A kernel that remembers what it has connected to. -/
def rememberingKernel : Kernel (Option SockAddr) where
  socket _ _ _ := pure ()
  setsockopt _ _ := pure ()
  settimeout _ _ := pure ()
  bind _ _ := pure ()
  connect _ sockaddr := Prog.ofFun fun last =>
    if sockaddr = deadSockaddr then (.error (.timeoutError (text "timed out")), last) else (.ok (), some sockaddr)
  getpeername _ := Prog.ofFun fun last =>
    match last with
    | some sockaddr => (.ok sockaddr, last)
    | none => (.error (.osError (text "Transport endpoint is not connected")), last)
  close _ := pure ()

/-- A library that asks for the host and the port that were accepted, and reads no redirect. -/
def acceptedExchange : Exchange (Option SockAddr) Location TcpArguments SockId BackendExc where
  dial request :=
    match Policy.default.decide Unicode.ascii (plainLibraries.str request.url) with
    | .ok t => pure (some { host := t.host, port := t.port, options := {} })
    | .error _ => pure none
  converse _ _ := pure none

theorem works_rememberingKernel :
    rememberingKernel.Works Unicode.ascii (fun _ => True) fun address => address.sockaddr ≠ deadSockaddr where
  socket _ _ _ := .pure True.intro
  setsockopt _ _ := .pure True.intro
  settimeout _ _ := .pure True.intro
  bind _ _ := .pure True.intro
  close _ := .pure True.intro
  connect sock address := by
    refine ⟨fun last => last = some address.sockaddr, fun last _ => ?_, fun last hlast => ?_⟩
    · rw [rememberingKernel, Prog.exec_ofFun]
      split_ifs with hdead
      · exact ⟨⟨rfl, not_not.mpr hdead⟩, True.intro⟩
      · rfl
    · rw [rememberingKernel, Prog.exec_ofFun, hlast]
      exact ⟨rfl, True.intro⟩

theorem works_acceptedExchange :
    acceptedExchange.Works Unicode.ascii plainLibraries Policy.default (fun _ => True) TcpArguments.To where
  dial request t h := by
    unfold acceptedExchange
    dsimp only
    rw [h]
    refine .pure fun target htarget => ?_
    cases htarget
    exact ⟨rfl, rfl⟩
  converse _ _ := .pure True.intro

/-- The two answers, for a name. -/
def deadAddress (hostname : Str) : Address :=
  { family := afInet, sockaddr := deadSockaddr, ip := .v4 0x08080404, hostname := hostname }

/-- The answer that is in reach. -/
def aliveAddress (hostname : Str) : Address :=
  { family := afInet, sockaddr := publicAddress.sockaddr, ip := publicAddress.ip, hostname := hostname }

theorem resolved_deadThenAlive (t : Target) :
    resolved Unicode.ascii Policy.default t deadThenAlive = .ok [deadAddress t.host, aliveAddress t.host] := by
  have hread : addressesFrom Unicode.ascii t.host [] deadThenAlive =
      .ok [deadAddress t.host, aliveAddress t.host] := by
    have hdead : sockaddrIp Unicode.ascii deadSockaddr = .ok (.v4 0x08080404) := by decide +kernel
    have halive : sockaddrIp Unicode.ascii publicAddress.sockaddr = .ok publicAddress.ip := by decide +kernel
    rw [deadThenAlive, addressesFrom, if_neg (by decide), addressOf, hdead, listedTwice]
    dsimp only
    rw [addressesFrom, if_neg (by decide), addressOf]
    have hlisted : (⟨afInet, sockStream, ipprotoTcp, [], [.str (text "8.8.8.8"), .int 443]⟩ :
        ResolverAnswer).sockaddr = publicAddress.sockaddr := rfl
    rw [hlisted, halive, addressesFrom, if_pos (by decide)]
    rfl
  have hdead : Policy.default.Permits (deadAddress t.host).ip := by
    change Policy.default.Permits (.v4 0x08080404)
    decide +kernel
  have halive : Policy.default.Permits (aliveAddress t.host).ip := by
    change Policy.default.Permits publicAddress.ip
    decide +kernel
  rw [resolved, hread]
  dsimp only [bind, Except.bind]
  rw [if_neg (List.cons_ne_nil _ _), Policy.permitted_cons_of_permits hdead, Policy.permitted_cons_of_permits halive,
    Policy.denied_cons_of_permits hdead, Policy.denied_cons_of_permits halive]
  rfl

theorem serves_deadThenAlive (t : Target) :
    Resolver.Serves Unicode.ascii Policy.default (fun _ : Option SockAddr => True)
      (fun address => address.sockaddr ≠ deadSockaddr) (fun _ _ _ _ _ _ => pure deadThenAlive) t := by
  refine .pure ⟨_, resolved_deadThenAlive t, fun address hmem => ⟨443, ?_⟩, aliveAddress t.host, ?_, ?_⟩
  · rcases List.mem_pair.mp hmem with rfl | rfl
    · rfl
    · rfl
  · exact List.mem_cons_of_mem _ List.mem_cons_self
  · change publicAddress.sockaddr ≠ deadSockaddr
    decide

/-- The first address of the name is dead, and the call still returns: its one request is accepted, and there is
nothing to redirect it. -/
theorem call_returns_deadFirst :
    let called := Client.call Unicode.ascii plainLibraries Policy.default 20 true
      (fun _ _ _ _ _ _ => pure deadThenAlive) rememberingKernel none acceptedExchange requestA
      { env := none, sockets := 0, trace := [] }
    called.ReturnsFrom 0 Policy.default 20 (World.In fun _ => True)
      (Refuses Unicode.ascii plainLibraries Policy.default .untranslated) := by
  have hnobody : KeptBy (fun _ => True) (none : Option (Observer (Option SockAddr))) := fun _ h => nomatch h
  obtain ⟨hclient, -, -⟩ := call_returns Unicode.ascii plainLibraries Policy.default 20 true
    (fun _ _ _ _ _ _ => pure deadThenAlive) (fun address => address.sockaddr ≠ deadSockaddr) hnobody requestA
  exact hclient rememberingKernel acceptedExchange _ works_rememberingKernel works_acceptedExchange True.intro
    fun _ _ t _ => serves_deadThenAlive t

end SsrfGuard
