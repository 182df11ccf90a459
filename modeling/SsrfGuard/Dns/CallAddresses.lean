import SsrfGuard.Dns.CallRows
import SsrfGuard.Redirect.CallMoves

/-! # Where the addresses of a call come from

A client may look names up with the stub resolver. Then nothing it connects to was made up along the way: each
address is the one the host spells, or stands in a reply the resolver has accepted during the call. The rest of the
outside may change what the network has in store, but nothing that has been received. -/

namespace SsrfGuard.Dns

variable {ρ υ κ γ ε : Type} {U : Unicode} {C : HttpLibraries υ} {p : Policy}

/-- The outside of a client that has a stub resolver: the world of its lookups, and the rest. -/
abbrev Outside (ρ : Type) : Type := World × ρ

/-- What the rest of the outside does. -/
def beside {ε α : Type} (x : Prog (Schedule × ρ) ε α) : Prog (Outside ρ) ε α :=
  Prog.zoom (fun v => (v.1.schedule, v.2)) (fun v rest => ({ v.1 with schedule := rest.1 }, rest.2)) x

/-- A stub resolver as the `resolver` of a client. -/
def UdpResolver.asResolver (r : UdpResolver U) : Resolver (Outside ρ) :=
  fun host port family socktype proto flags =>
    Prog.zoom Prod.fst (fun v net => (net, v.2)) (r.call host port family socktype proto flags)

/-- A kernel in the rest of the outside. -/
def besideKernel (kernel : Kernel (Schedule × ρ)) : Kernel (Outside ρ) where
  socket sock family kind := beside (kernel.socket sock family kind)
  setsockopt sock option := beside (kernel.setsockopt sock option)
  settimeout sock timeout := beside (kernel.settimeout sock timeout)
  bind sock address := beside (kernel.bind sock address)
  connect sock sockaddr := beside (kernel.connect sock sockaddr)
  getpeername sock := beside (kernel.getpeername sock)
  close sock := beside (kernel.close sock)

/-- A network library in the rest of the outside. -/
def besideAnyio (io : Anyio (Schedule × ρ)) : Anyio (Outside ρ) where
  connectTcp stream host port source timeout := beside (io.connectTcp stream host port source timeout)
  setsockopt stream option := beside (io.setsockopt stream option)
  remoteAddress stream := beside (io.remoteAddress stream)
  aclose stream := beside (io.aclose stream)

/-- An observer in the rest of the outside. -/
def besideObserver (observer : Option (Observer (Schedule × ρ))) : Option (Observer (Outside ρ)) :=
  observer.map fun callback decision => beside (callback decision)

/-- The HTTP library in the rest of the outside. -/
def besideExchange (exchange : Exchange (Schedule × ρ) υ κ γ ε) : Exchange (Outside ρ) υ κ γ ε where
  dial request := beside (exchange.dial request)
  converse request connection := beside (exchange.converse request connection)

/-! ## The source of an address -/

/-- The address is the one the host spells, or a reply accepted in this part of the log carries it. -/
def Sourced (r : UdpResolver U) (host : Str) (log : List Event) (ip : IPAddress) : Prop :=
  ipAddress U (UdpResolver.stripBrackets host) = .ok ip ∨
    ∃ question qtype reply, encodeName U host = .ok question ∧
      Accepted r (rstripDots host) question qtype reply ∧ reply.part <:+: log ∧
      ∃ record ∈ reply.records, record.ip = ip

variable {r : UdpResolver U}

theorem Sourced.mono {host : Str} {log log' : List Event} {ip : IPAddress} (h : Sourced r host log ip)
    (hlog : log <:+: log') : Sourced r host log' ip := by
  rcases h with hspelled | ⟨question, qtype, reply, hquestion, haccepted, hpart, hrecord⟩
  · exact .inl hspelled
  · exact .inr ⟨question, qtype, reply, hquestion, haccepted, hpart.trans hlog, hrecord⟩

/-- Such an address can be read back from its text. -/
theorem Sourced.spellable {host : Str} {log : List Event} {ip : IPAddress} (h : Sourced r host log ip) :
    ip.Spellable := by
  rcases h with hspelled | ⟨question, qtype, reply, -, haccepted, -, record, hrecord, rfl⟩
  · exact spellable_of_parseAddress (ipAddress_eq_ok.mp hspelled)
  · exact (haccepted.of_mem_records record hrecord).1

theorem ipAddress_of_literal {host : Str} {numericOnly : Bool} {ip : IPAddress}
    (h : UdpResolver.literal U host numericOnly = .ok (some ip)) :
    ipAddress U (UdpResolver.stripBrackets host) = .ok ip := by
  unfold UdpResolver.literal at h
  split at h
  · next haddress =>
    cases h
    exact haddress
  · split at h
    · cases h
    · cases h

/-- Each of the replies was accepted, whatever family it was asked for. -/
theorem accepted_of_mem_replies {name : Str} {question : Bytes} {families : List ℤ} {replies : List Reply}
    (h : List.Forall₂ (fun wanted => Accepted r name question (UdpResolver.qtypeOf wanted)) families replies) :
    ∀ reply ∈ replies, ∃ qtype, Accepted r name question qtype reply := by
  induction h with
  | nil => exact List.forall_mem_nil _
  | cons haccepted _ ih => exact List.forall_mem_cons.mpr ⟨⟨_, haccepted⟩, ih⟩

/-- A row of a call is that of an address with a source in what the call has received. -/
def RowSourced (r : UdpResolver U) (host : Str) (port : ℤ) (log : List Event) (row : ResolverAnswer) : Prop :=
  ∃ ip, row = UdpResolver.row ip port sockStream 0 ∧ Sourced r host log ip

/-- Every row of a call has its source, from whatever world the call starts. -/
theorem adds_call (host : Str) (port flags : ℤ) :
    Prog.Adds World.log (r.call host port 0 sockStream 0 flags) fun result logged =>
      ∀ rows, result = .ok rows → ∀ row ∈ rows, RowSourced r host port logged row := by
  cases hliteral : UdpResolver.literal U host (UdpResolver.numericHost flags) with
  | error e =>
      intro w
      rw [exec_call_of_refused hliteral]
      refine ⟨[], (List.append_nil _).symm, ?_⟩
      rintro rows ⟨⟩
  | ok parsed =>
      cases parsed with
      | some address =>
          intro w
          rw [exec_call_of_literal hliteral]
          refine ⟨[], (List.append_nil _).symm, ?_⟩
          rintro _ ⟨⟩ row hrow
          exact ⟨address, List.mem_singleton.mp hrow, .inl (ipAddress_of_literal hliteral)⟩
      | none =>
          refine Prog.Adds.conseq (logs_call hliteral) ?_
          rintro result logged h rows rfl row hrow
          obtain ⟨question, replies, hquestion, hreplies, rfl, rfl⟩ := h rows rfl
          obtain ⟨record, hrecord, rfl⟩ := List.mem_map.mp hrow
          obtain ⟨reply, hreply, hrecord⟩ := List.mem_flatMap.mp hrecord
          obtain ⟨qtype, haccepted⟩ := accepted_of_mem_replies hreplies reply hreply
          have hpart : reply.part <:+: replies.flatMap Reply.part := by
            rw [List.flatMap_def]
            exact List.infix_of_mem_flatten (List.mem_map_of_mem hreply)
          exact ⟨record.ip, rfl, .inr ⟨question, qtype, reply, hquestion, haccepted, hpart, record, hrecord, rfl⟩⟩

/-- What a row of a call says: its socket address holds the address it is for, and the port asked for. -/
theorem sockaddrIp_row {ip : IPAddress} (h : ip.Spellable) (port socktype proto : ℤ) :
    sockaddrIp U (UdpResolver.row ip port socktype proto).sockaddr = .ok ip := by
  have htext : ipAddress U ip.str = .ok ip := ipAddress_eq_ok.mpr (parseAddress_str h)
  cases ip <;> exact htext

theorem port_of_row {address : Address} {ip : IPAddress} {port socktype proto : ℤ}
    (h : address.sockaddr = (UdpResolver.row ip port socktype proto).sockaddr) : address.port U = .ok port := by
  unfold Address.port
  rw [h]
  cases ip <;> rfl

/-! ## Along a call -/

/-- The trace and the log grow, and the rows of every new lookup have their sources in what is new of the log. -/
def Grows (r : UdpResolver U) (w w' : SsrfGuard.World (Outside ρ)) : Prop :=
  ∃ added logged, w'.trace = w.trace ++ added ∧ w'.env.1.log = w.env.1.log ++ logged ∧
    ∀ host port flags rows, .lookup host port flags (.ok rows) ∈ added →
      ∀ row ∈ rows, RowSourced r host port logged row

theorem Grows.of_eq {w w' : SsrfGuard.World (Outside ρ)} (htrace : w'.trace = w.trace)
    (hlog : w'.env.1.log = w.env.1.log) : Grows r w w' :=
  ⟨[], [], htrace.trans (List.append_nil _).symm, hlog.trans (List.append_nil _).symm,
    fun _ _ _ _ h => absurd h List.not_mem_nil⟩

instance : IsPreorder (SsrfGuard.World (Outside ρ)) (Grows r) where
  refl _ := .of_eq rfl rfl
  trans := by
    rintro w w' w'' ⟨added, logged, htrace, hlog, hrows⟩ ⟨added', logged', htrace', hlog', hrows'⟩
    refine ⟨added ++ added', logged ++ logged', ?_, ?_, ?_⟩
    · rw [htrace', htrace, List.append_assoc]
    · rw [hlog', hlog, List.append_assoc]
    · intro host port flags rows hmem row hrow
      rcases List.mem_append.mp hmem with hmem | hmem
      · obtain ⟨ip, hip, hsourced⟩ := hrows host port flags rows hmem row hrow
        exact ⟨ip, hip, hsourced.mono (List.prefix_append _ _).isInfix⟩
      · obtain ⟨ip, hip, hsourced⟩ := hrows' host port flags rows hmem row hrow
        exact ⟨ip, hip, hsourced.mono (List.suffix_append _ _).isInfix⟩

/-- The rest of the outside receives nothing for the resolver. -/
theorem unseen_beside {ε α : Type} (x : Prog (Schedule × ρ) ε α) : Unseen (Grows r) (beside x) :=
  fun _ => .of_eq rfl rfl

/-- An operation of the kernel is no lookup. -/
theorem seen_beside {α : Type} (x : Prog (Schedule × ρ) Exc α) {action : Except Exc α → Action}
    (h : ∀ result, (action result).isLookup = false) : Seen (Grows r) (beside x) action := by
  intro w
  refine ⟨[action (x.exec (w.env.1.schedule, w.env.2)).1], [], rfl, (List.append_nil _).symm, ?_⟩
  intro host port flags rows hmem
  have hlookup := h (x.exec (w.env.1.schedule, w.env.2)).1
  rw [← List.mem_singleton.mp hmem] at hlookup
  cases hlookup

theorem crossesObserver_beside (observer : Option (Observer (Schedule × ρ))) :
    CrossesObserver (Grows r) (besideObserver observer) := by
  intro callback hcallback decision
  obtain ⟨inner, -, rfl⟩ := Option.map_eq_some_iff.mp hcallback
  exact unseen_beside _

theorem crossesLookup_asResolver : CrossesLookup (Grows r) (r.asResolver : Resolver (Outside ρ)) := by
  intro host port flags w
  obtain ⟨logged, hlog, hrows⟩ := adds_call (r := r) host port flags w.env.1
  refine ⟨_, logged, rfl, hlog, ?_⟩
  intro host' port' flags' rows hmem row hrow
  have hlookup := List.mem_singleton.mp hmem
  injection hlookup with hhost hport _ hresult
  subst hhost hport
  exact hrows rows hresult.symm row hrow

theorem crossesKernel_beside (kernel : Kernel (Schedule × ρ)) :
    CrossesKernel (Grows r) (besideKernel kernel) where
  newSocket _ := .of_eq rfl rfl
  socket _ _ := seen_beside _ fun _ => rfl
  setsockopt _ _ := seen_beside _ fun _ => rfl
  settimeout _ _ := seen_beside _ fun _ => rfl
  bind _ _ := seen_beside _ fun _ => rfl
  connect _ _ := seen_beside _ fun _ => rfl
  getpeername _ := seen_beside _ fun _ => rfl
  close _ := seen_beside _ fun _ => rfl

theorem crossesAnyio_beside (io : Anyio (Schedule × ρ)) : CrossesAnyio (Grows r) (besideAnyio io) where
  connectTcp _ _ _ _ _ := unseen_beside _
  setsockopt _ _ := unseen_beside _
  remoteAddress _ := unseen_beside _
  aclose _ := unseen_beside _

theorem crossesExchange_beside (exchange : Exchange (Schedule × ρ) υ κ γ ε) :
    CrossesExchange (Grows r) (besideExchange exchange) where
  dial _ := unseen_beside _
  converse _ _ := unseen_beside _

/-! ## The connections of a call -/

/-- The address may be connected to: the policy permits it, and it has its source in a lookup of a host and a port
the policy admits. -/
structure Due (U : Unicode) (p : Policy) (r : UdpResolver U) (log : List Event) (ip : IPAddress) (port : ℤ) :
    Prop where
  /-- The policy permits it. -/
  permits : p.Permits ip
  /-- It was not made up. -/
  sourced : ∃ host, checkOrigin U p host port = .ok () ∧ Sourced r host log ip

/-- On a blocking client, each new connection is to an address that is due. -/
def ConnectsWhereDue (U : Unicode) (p : Policy) (r : UdpResolver U) (w w' : SsrfGuard.World (Outside ρ)) : Prop :=
  ∃ added logged, w'.trace = w.trace ++ added ∧ w'.env.1.log = w.env.1.log ++ logged ∧
    ∀ sock sockaddr result, .connect sock sockaddr result ∈ added → ∃ ip port, Due U p r logged ip port ∧
      sockaddr = (UdpResolver.row ip port sockStream 0).sockaddr

/-- A row that holds a permitted address is due, when the lookup it came from was of an admitted host and port. -/
theorem due_of_row {host : Str} {port : ℤ} {log : List Event} {row : ResolverAnswer} {ip : IPAddress}
    (hadmits : checkOrigin U p host port = .ok ()) (hrow : RowSourced r host port log row)
    (hip : sockaddrIp U row.sockaddr = .ok ip) (hpermits : p.Permits ip) :
    Due U p r log ip port ∧ row = UdpResolver.row ip port sockStream 0 := by
  obtain ⟨ip', rfl, hsourced⟩ := hrow
  rw [sockaddrIp_row hsourced.spellable] at hip
  cases hip
  exact ⟨⟨hpermits, host, hadmits, hsourced⟩, rfl⟩

theorem connectsWhereDue_of_guarded {w : SsrfGuard.World (Outside ρ)}
    {called : Called υ (SsrfGuard.World (Outside ρ)) ε} (hguarded : called.Guarded U C p w)
    (hgrows : Grows r w called.world) : ConnectsWhereDue U p r w called.world := by
  obtain ⟨added, phase, htrace, -, -, -, hconnects⟩ := hguarded.calls
  obtain ⟨added', logged, htrace', hlog, hrows⟩ := hgrows
  obtain rfl := List.append_cancel_left (htrace.symm.trans htrace')
  refine ⟨added, logged, htrace, hlog, fun sock sockaddr result hmem => ?_⟩
  obtain ⟨before, after, rfl⟩ := List.append_of_mem hmem
  obtain ⟨earlier, host, port, flags, infos, between, rfl, -, hadmits, info, hinfo, rfl, ip, hip, hpermits⟩ :=
    hconnects before sock sockaddr result after rfl
  have hlookup : .lookup host port flags (.ok infos) ∈
      (earlier ++ .lookup host port flags (.ok infos) :: between) ++ .connect sock info.sockaddr result :: after :=
    List.mem_append_left _ (List.mem_append_right _ List.mem_cons_self)
  have hrow := hrows host port flags infos hlookup info hinfo
  obtain ⟨hdue, rfl⟩ := due_of_row hadmits hrow hip hpermits
  exact ⟨ip, port, hdue, rfl⟩

/-- On the asynchronous client, each new stream is asked for to an address that is due. -/
def StreamsWhereDue (U : Unicode) (p : Policy) (r : UdpResolver U) (v v' : AsyncWorld (Outside ρ)) : Prop :=
  ∃ calls logged, v'.calls = v.calls ++ calls ∧ v'.world.env.1.log = v.world.env.1.log ++ logged ∧
    ∀ stream ip port result, .connectTcp stream ip port result ∈ calls → Due U p r logged ip port

theorem streamsWhereDue_of_visited {visits : List Visit} {v v' : AsyncWorld (Outside ρ)}
    (hvisited : Visited U p visits v v') (hgrows : Grows r v.world v'.world) : StreamsWhereDue U p r v v' := by
  obtain ⟨added, logged, htrace, hlog, hrows⟩ := hgrows
  obtain rfl := List.append_cancel_left (hvisited.trace.symm.trans htrace)
  refine ⟨_, logged, hvisited.calls, hlog, fun stream ip port result hmem => ?_⟩
  obtain ⟨visit, hvisit, hcall⟩ := List.mem_flatMap.mp hmem
  have hfollows := hvisited.follows visit hvisit
  obtain ⟨infos, hanswer, hpermits, address, rfl, hport, hip, info, hinfo, hkey⟩ := hfollows.connectTcp hcall
  have hlookup : Visit.lookup visit ∈ visits.map Visit.lookup := List.mem_map_of_mem hvisit
  rw [Visit.lookup, hanswer] at hlookup
  have hrow := hrows visit.host visit.port visit.flags infos hlookup info hinfo
  have hsockaddr : info.sockaddr = address.sockaddr := congrArg Prod.snd hkey
  rw [← hsockaddr] at hip
  obtain ⟨hdue, rfl⟩ := due_of_row hfollows.1 hrow hip hpermits
  -- the port of the stream is the one in the row
  rw [port_of_row hsockaddr.symm] at hport
  cases hport
  exact hdue

/-- **Where the addresses of a call come from.** On each of the three clients, with a stub resolver, whatever the
nameservers and everyone else send, however the redirects go, and whatever the kernel, the network library, the
HTTP library and the observer do: every connection is made to the socket address of a permitted address, under a
port the policy admits; and that address is the one the host spells, or an address record of a reply that came
during this call, from a configured nameserver, to a query about that host. -/
theorem call_connectsWhereDue (U : Unicode) (C : HttpLibraries υ) (p : Policy) (r : UdpResolver U) (own : ℤ)
    (following : Bool) (observer : Option (Observer (Schedule × ρ))) (request : Request υ)
    (v : AsyncWorld (Outside ρ)) :
    (∀ kernel exchange, ConnectsWhereDue U p r v.world (Client.call U C p own following r.asResolver
      (besideKernel kernel) (besideObserver observer) (besideExchange exchange) request v.world).world) ∧
    (∀ kernel audit exchange, ConnectsWhereDue U p r v.world (Session.call U C p own following r.asResolver
      (besideKernel kernel) (beside audit) (besideObserver observer) (besideExchange exchange) request
      v.world).world) ∧
    ∀ io exchange, StreamsWhereDue U p r v (AsyncClient.call U C p own following r.asResolver (besideAnyio io)
      (besideObserver observer) (besideExchange exchange) request v).world := by
  have hobserver := crossesObserver_beside (r := r) observer
  have hlookup := crossesLookup_asResolver (ρ := ρ) (r := r)
  refine ⟨fun kernel exchange => ?_, fun kernel audit exchange => ?_, fun io exchange => ?_⟩
  · refine connectsWhereDue_of_guarded (Client.guarded_call own following _ _ _ request v.world _) ?_
    exact Client.moves_call hobserver hlookup (crossesKernel_beside kernel) (crossesExchange_beside exchange) own
      following request v.world
  · refine connectsWhereDue_of_guarded (Session.guarded_call own following _ _ _ request v.world _ _) ?_
    exact Session.moves_call hobserver hlookup (crossesKernel_beside kernel) (unseen_beside audit)
      (crossesExchange_beside exchange) own following request v.world
  · obtain ⟨visits, -, hvisited⟩ := AsyncClient.along_call own following r.asResolver (besideAnyio io)
      (besideObserver observer) (besideExchange exchange) request v
    refine streamsWhereDue_of_visited hvisited ?_
    exact AsyncClient.moves_call hobserver hlookup (crossesAnyio_beside io) (crossesExchange_beside exchange) own
      following request v

end SsrfGuard.Dns
