import SsrfGuard.Redirect.CallEgress
import SsrfGuard.Redirect.CallUnobserved
import SsrfGuard.TableRows

/-! # Tightening a policy

A policy is a record of narrowings, so policies are ordered: one is tighter than another when it asks for at least as
much wherever it says where a request may go. Whoever edits a policy towards the tighter side wants to know that
nothing opens. A URL the tighter policy accepts is accepted by the other, for the same target; the addresses it
resolves a target to are among the other's; and a whole call under it does nothing the other would have refused. -/

namespace SsrfGuard

variable {σ υ ε : Type} {U : Unicode} {C : HttpLibraries υ} {p q r : Policy}

/-! ## The order -/

/-- The policy asks for at least as much as the other in every field that decides where a request may go. -/
structure Policy.Tighter (p q : Policy) : Prop where
  /-- No more schemes. -/
  schemes : p.allowedSchemes ⊆ q.allowedSchemes
  /-- No more ports. -/
  ports : p.allowedPorts ⊆ q.allowedPorts
  /-- No more names: an empty list admits all of them. -/
  hosts : q.allowedHosts = [] ∨ p.allowedHosts ≠ [] ∧ p.allowedHosts ⊆ q.allowedHosts
  /-- No credentials where there were none. -/
  userinfo : p.allowUserinfo = true → q.allowUserinfo = true
  /-- No more networks, and none that is wider. -/
  networks : ∀ n ∈ p.allowedNetworks, ∃ m ∈ q.allowedNetworks, ∀ a, n.contains a = true → m.contains a = true
  /-- The table has the same rows, or more that deny. -/
  table : q.deniedNetworks.DeniesMore p.deniedNetworks
  /-- A partly blocked name is refused where it was. -/
  partialBlock : q.onPartialBlock = text "reject" → p.onPartialBlock = text "reject"
  /-- No longer URLs. -/
  urlLength : p.maxUrlLength ≤ q.maxUrlLength

theorem AddressTable.DeniesMore.refl (t : AddressTable) : t.DeniesMore t := fun _ => .inl rfl

theorem AddressTable.DeniesMore.trans {t u v : AddressTable} (h : t.DeniesMore u) (h' : u.DeniesMore v) :
    t.DeniesMore v := by
  intro a
  rcases h' a with hsame | hdenied
  · rw [hsame]
    exact h a
  · exact .inr hdenied

theorem Policy.Tighter.refl (p : Policy) : p.Tighter p where
  schemes := List.Subset.refl _
  ports := List.Subset.refl _
  hosts := by
    by_cases h : p.allowedHosts = []
    · exact .inl h
    · exact .inr ⟨h, List.Subset.refl _⟩
  userinfo := id
  networks n hn := ⟨n, hn, fun _ => id⟩
  table := .refl _
  partialBlock := id
  urlLength := le_rfl

theorem Policy.Tighter.trans (h : p.Tighter q) (h' : q.Tighter r) : p.Tighter r where
  schemes := List.Subset.trans h.schemes h'.schemes
  ports := List.Subset.trans h.ports h'.ports
  hosts := by
    rcases h'.hosts with hs | ⟨hq, hqs⟩
    · exact .inl hs
    · rcases h.hosts with hnone | ⟨hp, hpq⟩
      · exact absurd hnone hq
      · exact .inr ⟨hp, List.Subset.trans hpq hqs⟩
  userinfo := h'.userinfo ∘ h.userinfo
  networks n hn := by
    obtain ⟨m, hm, hnm⟩ := h.networks n hn
    obtain ⟨k, hk, hmk⟩ := h'.networks m hm
    exact ⟨k, hk, fun a ha => hmk a (hnm a ha)⟩
  table := h'.table.trans h.table
  partialBlock := h.partialBlock ∘ h'.partialBlock
  urlLength := h.urlLength.trans h'.urlLength

instance : IsPreorder Policy Policy.Tighter where
  refl := Policy.Tighter.refl
  trans _ _ _ := Policy.Tighter.trans

/-! ## Addresses, hosts and URLs -/

/-- The check of the backends: an allowed port, and a host that is listed where hosts are. -/
theorem checkOrigin_eq_ok {host : Str} {port : ℤ} :
    checkOrigin U p host port = .ok () ↔ port ∈ p.allowedPorts ∧
      (p.allowedHosts ≠ [] → hostIsAllowed host p.allowedHosts (literalAddress U host).isSome = true) := by
  have hlisted : p.checkHostOnly U host = .ok () ↔
      (p.allowedHosts ≠ [] → hostIsAllowed host p.allowedHosts (literalAddress U host).isSome = true) :=
    @Policy.checkListed_eq_ok U p host host (literalAddress U host)
  unfold checkOrigin checkOriginPort
  by_cases hport : port ∈ p.allowedPorts
  · rw [if_neg (not_not.mpr hport), and_iff_right hport, ← hlisted]
    rfl
  · rw [if_pos hport]
    exact iff_of_false (fun hok => absurd hok Except.error_ne_ok) fun hok => hport hok.1

section Tighter

variable (h : p.Tighter q)
include h

theorem Policy.Tighter.permits {a : IPAddress} (hpermits : p.Permits a) : q.Permits a := by
  rcases Policy.permits_iff.mp hpermits with ⟨n, hn, ha⟩ | htable
  · obtain ⟨m, hm, hnm⟩ := h.networks n hn
    exact Policy.permits_iff.mpr (.inl ⟨m, hm, hnm a ha⟩)
  · refine Policy.permits_iff.mpr (.inr ?_)
    by_contra hblocked
    have hblocks := h.table.blocks a (AddressTable.blocks_iff_not_permits.mpr hblocked)
    exact AddressTable.blocks_iff_not_permits.mp hblocks htable

theorem Policy.Tighter.hostIsAllowed {host : Str} {literal : Bool} (hq : q.allowedHosts ≠ [])
    (hallowed : p.allowedHosts ≠ [] → hostIsAllowed host p.allowedHosts literal = true) :
    hostIsAllowed host q.allowedHosts literal = true := by
  rcases h.hosts with hnone | ⟨hp, hsubset⟩
  · exact absurd hnone hq
  · obtain ⟨pattern, hpattern, hmatches⟩ := List.any_eq_true.mp (hallowed hp)
    exact List.any_eq_true.mpr ⟨pattern, hsubset hpattern, hmatches⟩

theorem Policy.Tighter.checkUserinfo {url : Str} {split : SplitResult}
    (hok : p.checkUserinfo url split = .ok ()) : q.checkUserinfo url split = .ok () := by
  unfold Policy.checkUserinfo at hok ⊢
  by_cases hq : q.allowUserinfo = true
  · rw [if_pos hq]
  · rw [if_neg fun hp => hq (h.userinfo hp)] at hok
    rw [if_neg hq]
    exact hok

/-- A target of the tighter policy is the other's too. -/
theorem Policy.Tighter.decide (url : Str) : Except.Below (p.decide U url) (q.decide U url) := by
  intro t ht
  obtain ⟨hlength, hclean, split, hsplit, hscheme, huserinfo, hhost, hport, hlisted, hliteral⟩ :=
    Policy.decide_eq_ok_iff.mp ht
  refine Policy.decide_eq_ok_iff.mpr
    ⟨hlength.trans h.urlLength, hclean, split, hsplit, ?_, h.checkUserinfo huserinfo, hhost, ?_, ?_, ?_⟩
  · obtain ⟨hlower, hne, hmem⟩ := Policy.checkScheme_eq_ok.mp hscheme
    exact Policy.checkScheme_eq_ok.mpr ⟨hlower, hne, h.schemes hmem⟩
  · obtain ⟨named, hnamed, hfound, hmem⟩ := Policy.checkPort_eq_ok.mp hport
    exact Policy.checkPort_eq_ok.mpr ⟨named, hnamed, hfound, h.ports hmem⟩
  · exact Policy.checkListed_eq_ok.mpr fun hq => h.hostIsAllowed hq (Policy.checkListed_eq_ok.mp hlisted)
  · exact Policy.checkLiteral_eq_ok.mpr fun a ha => h.permits (Policy.checkLiteral_eq_ok.mp hliteral a ha)

theorem Policy.Tighter.accepts {request : Request υ} (haccepts : p.accepts U C request = true) :
    q.accepts U C request = true := by
  unfold Policy.accepts at haccepts ⊢
  cases hp : p.decide U (C.str request.url) with
  | error e =>
      rw [hp] at haccepts
      cases haccepts
  | ok t =>
      rw [h.decide _ t hp]
      rfl

theorem Policy.Tighter.checkOrigin {host : Str} {port : ℤ} (hok : checkOrigin U p host port = .ok ()) :
    checkOrigin U q host port = .ok () := by
  obtain ⟨hport, hlisted⟩ := checkOrigin_eq_ok.mp hok
  exact checkOrigin_eq_ok.mpr ⟨h.ports hport, fun hq => h.hostIsAllowed hq hlisted⟩

/-! ## Resolution -/

theorem Policy.Tighter.permitted (answers : List Address) :
    (p.permitted answers).Sublist (q.permitted answers) := by
  refine List.monotone_filter_right answers fun answer hanswer => ?_
  exact decide_eq_true (h.permits (of_decide_eq_true hanswer))

theorem Policy.Tighter.denied {answers : List Address} (hdenied : q.denied answers ≠ []) :
    p.denied answers ≠ [] := by
  obtain ⟨denial, hdenial⟩ := List.exists_mem_of_ne_nil _ hdenied
  obtain ⟨answer, hanswer, -⟩ := List.mem_map.mp hdenial
  obtain ⟨hmem, hnot⟩ := List.mem_filter.mp hanswer
  refine List.ne_nil_of_mem (List.mem_map_of_mem (List.mem_filter.mpr ⟨hmem, ?_⟩))
  exact decide_eq_true fun hpermits => of_decide_eq_true hnot (h.permits hpermits)

/-- What is left of an answer under the tighter policy is left under the other, in the same order. -/
theorem Policy.Tighter.resolved {target : Target} {infos : List ResolverAnswer} {addresses : List Address}
    (hok : resolved U p target infos = .ok addresses) :
    ∃ more, resolved U q target infos = .ok more ∧ addresses.Sublist more := by
  unfold SsrfGuard.resolved at hok ⊢
  cases hanswers : addressesFrom U target.host [] infos with
  | error e =>
      rw [hanswers] at hok
      cases hok
  | ok answers =>
      rw [hanswers] at hok
      dsimp only [bind, Except.bind] at hok ⊢
      have hmore := h.permitted answers
      unfold verdictOn at hok ⊢
      split_ifs at hok with hnone hnothing hpartial
      cases hok
      have hsome : q.permitted answers ≠ [] := fun hnil => hnothing (List.sublist_nil.mp (hnil ▸ hmore))
      -- what the other denies is denied here, and refuses the whole name here too
      have hwhole : ¬ (q.denied answers ≠ [] ∧ q.onPartialBlock = text "reject") := by
        rintro ⟨hdenied, hreject⟩
        exact hpartial ⟨h.denied hdenied, h.partialBlock hreject⟩
      rw [if_neg hnone, if_neg hsome, if_neg hwhole]
      exact ⟨_, rfl, hmore⟩

/-- `resolve` returns no address under the tighter policy that it would not have returned under the other. -/
theorem Policy.Tighter.resolve {target : Target} {resolver : Resolver σ} {observer : Option (Observer σ)}
    (hobserver : TameObserver observer) {w : World σ} {addresses : List Address}
    (hok : ((resolve U p target resolver observer).exec w).1 = .ok addresses) :
    ∃ more, ((SsrfGuard.resolve U q target resolver observer).exec w).1 = .ok more ∧ addresses.Sublist more := by
  cases hlookup : (lookupOf target resolver).exec w.env with
  | mk result env =>
      cases result with
      | error e =>
          rw [exec_resolve_of_raise (congrArg Prod.fst hlookup)] at hok
          cases hok
      | ok infos =>
          rw [exec_resolve hobserver hlookup] at hok ⊢
          exact h.resolved hok

/-! ## Calls -/

theorem Policy.Tighter.preceded {before : List Action} {sockaddr : SockAddr}
    (hpreceded : Preceded U p before sockaddr) : Preceded U q before sockaddr := by
  obtain ⟨earlier, host, port, flags, infos, between, hbefore, hbetween, hadmits, info, hinfo, hsockaddr, ip, hip,
    hpermits⟩ := hpreceded
  exact ⟨earlier, host, port, flags, infos, between, hbefore, hbetween, h.checkOrigin hadmits, info, hinfo,
    hsockaddr, ip, hip, h.permits hpermits⟩

theorem Policy.Tighter.screened {ω : Type} {called : Called υ ω ε} (hscreened : called.Screened U C p) :
    called.Screened U C q :=
  ⟨fun request hrequest => h.accepts (hscreened.before request hrequest),
    fun request hrequest => (hscreened.last request hrequest).imp h.accepts id⟩

theorem Policy.Tighter.countP_accepts (sent : List (Request υ)) :
    sent.countP (p.accepts U C) ≤ sent.countP (q.accepts U C) :=
  List.countP_mono_left fun _ _ => h.accepts

end Tighter

/-- A call that lets out nothing the policy would have refused. -/
structure Called.Within (U : Unicode) (C : HttpLibraries υ) (p : Policy) (w : World σ)
    (called : Called υ (World σ) ε) : Prop where
  /-- It looks up no more names than it sent accepted requests, each with a host and a port the policy admits, and
  makes no connection that was not looked up and permitted. -/
  calls : ∃ added, called.world.trace = w.trace ++ added ∧
    added.countP Action.isLookup ≤ called.sent.countP (p.accepts U C) ∧
    (∀ host port flags result, .lookup host port flags result ∈ added → checkOrigin U p host port = .ok ()) ∧
    ∀ before sock sockaddr result after, added = before ++ .connect sock sockaddr result :: after →
      Preceded U p before sockaddr
  /-- Its requests, but for one that failed at the end, have accepted URLs. -/
  screened : called.Screened U C p

/-- A guarded call is within the policy, and within every policy it is tighter than. -/
theorem Called.Guarded.within {w : World σ} {called : Called υ (World σ) ε} (hguarded : called.Guarded U C p w)
    (h : p.Tighter q) : called.Within U C q w := by
  obtain ⟨added, phase, htrace, hrun, -, hcount, hconnects⟩ := hguarded.calls
  refine ⟨⟨added, htrace, hcount.trans (h.countP_accepts called.sent), ?_, ?_⟩, h.screened hguarded.screened⟩
  · intro host port flags result hlookup
    obtain ⟨before, after, rfl⟩ := List.append_of_mem hlookup
    obtain ⟨here, next, -, hstep⟩ := Monitor.exists_step hrun
    exact h.checkOrigin (Phase.lookUp_eq_some hstep).1
  · intro before sock sockaddr result after hadded
    exact h.preceded (hconnects before sock sockaddr result after hadded)

/-- A visit that lets out nothing the policy would have refused. -/
structure Visit.Within (U : Unicode) (p : Policy) (visit : Visit) : Prop where
  /-- It looks up a host and a port the policy admits. -/
  origin : checkOrigin U p visit.host visit.port = .ok ()
  /-- It asks for streams to permitted addresses from the rows of that lookup. -/
  streams : ∀ stream host port result, .connectTcp stream host port result ∈ visit.calls →
    p.Permits host ∧ ∃ infos, visit.answer = .ok infos ∧ ∃ info ∈ infos, sockaddrIp U info.sockaddr = .ok host

theorem Visit.Follows.within {visit : Visit} (hfollows : visit.Follows U p) (h : p.Tighter q) :
    visit.Within U q := by
  refine ⟨h.checkOrigin hfollows.1, fun stream host port result hmem => ?_⟩
  obtain ⟨infos, hanswer, hpermits, address, -, -, hip, info, hinfo, hkey⟩ := hfollows.connectTcp hmem
  have hsockaddr : info.sockaddr = address.sockaddr := congrArg Prod.snd hkey
  exact ⟨h.permits hpermits, infos, hanswer, info, hinfo, hsockaddr ▸ hip⟩

/-- An asynchronous call that lets out nothing the policy would have refused. -/
structure Called.VisitsWithin (U : Unicode) (C : HttpLibraries υ) (p : Policy) (v : AsyncWorld σ)
    (called : Called υ (AsyncWorld σ) ε) : Prop where
  /-- It is a sequence of visits, no more of them than it sent accepted requests, within the policy. -/
  visits : ∃ visits : List Visit, visits.length ≤ called.sent.countP (p.accepts U C) ∧
    called.world.trace = v.trace ++ visits.map Visit.lookup ∧
    called.world.calls = v.calls ++ visits.flatMap Visit.calls ∧ ∀ visit ∈ visits, visit.Within U p
  /-- Its requests, but for one that failed at the end, have accepted URLs. -/
  screened : called.Screened U C p

/-- **Tightening a policy opens nothing.** Where one policy is tighter than another: a URL it accepts is accepted by
the other, for the same target; the addresses `resolve` returns under it are among those it returns under the other,
in the same order; and a call under it, on each of the three clients, whatever the server, the resolver, the network
and the observer do, sends no request, looks up no name and connects to no address the other would have refused. -/
theorem tightened (U : Unicode) (C : HttpLibraries υ) (p q : Policy) (h : p.Tighter q) (own : ℤ) (following : Bool)
    (resolver : Resolver σ) (observer : Option (Observer σ)) (request : Request υ) :
    (∀ url, Except.Below (p.decide U url) (q.decide U url)) ∧
    (TameObserver observer → ∀ target (w : World σ) addresses,
      ((resolve U p target resolver observer).exec w).1 = .ok addresses →
      ∃ more, ((resolve U q target resolver observer).exec w).1 = .ok more ∧ addresses.Sublist more) ∧
    (∀ kernel exchange w,
      (Client.call U C p own following resolver kernel observer exchange request w).Within U C q w) ∧
    (∀ kernel audit exchange w,
      (Session.call U C p own following resolver kernel audit observer exchange request w).Within U C q w) ∧
    ∀ io exchange v,
      (AsyncClient.call U C p own following resolver io observer exchange request v).VisitsWithin U C q v := by
  refine ⟨h.decide, fun hobserver target w addresses => h.resolve hobserver, ?_, ?_, ?_⟩
  · intro kernel exchange w
    exact (Client.guarded_call own following resolver kernel observer request w exchange).within h
  · intro kernel audit exchange w
    exact (Session.guarded_call own following resolver kernel observer request w audit exchange).within h
  · intro io exchange v
    obtain ⟨visits, hcount, hvisited⟩ :=
      AsyncClient.along_call (U := U) (C := C) (p := p) own following resolver io observer exchange request v
    refine ⟨⟨visits, hcount.trans (h.countP_accepts _), hvisited.trace, hvisited.calls, ?_⟩, h.screened ?_⟩
    · exact fun visit hvisit => (hvisited.follows visit hvisit).within h
    · exact AsyncClient.screened_call own following resolver io observer exchange request v

/-- HTTPS to one host, and nothing else. -/
def pinnedPolicy : Policy :=
  ⟨{ allowedSchemes := [text "https"], allowedPorts := [443], allowedHosts := [text "a"] },
    (@PolicyFields.objection_eq_none Unicode.ascii _).mp (by decide +kernel)⟩

theorem pinnedPolicy_tighter : pinnedPolicy.Tighter Policy.default where
  schemes := List.subset_cons_self _ _
  ports := List.subset_cons_self _ _
  hosts := .inl rfl
  userinfo := id
  networks _ hn := absurd hn List.not_mem_nil
  table := .refl _
  partialBlock := id
  urlLength := le_rfl

/-- A call pinned to one host stays within the default policy, and dials an address it would have dialled. -/
theorem tightened_pinned :
    (∃ more, ((resolve Unicode.ascii Policy.default targetA (fun _ _ _ _ _ _ => pure listedTwice) none).exec
      World.start).1 = .ok more ∧ [publicAddress].Sublist more) ∧
    (Client.call Unicode.ascii plainLibraries pinnedPolicy 20 true (fun _ _ _ _ _ _ => pure listedTwice) pairKernel
      none straightExchange requestA World.start).Within Unicode.ascii plainLibraries Policy.default World.start := by
  have hresolved : ((resolve Unicode.ascii pinnedPolicy targetA (fun _ _ _ _ _ _ => pure listedTwice) none).exec
      World.start).1 = .ok [publicAddress] := by decide +kernel
  obtain ⟨-, hresolve, hclient, -⟩ := tightened Unicode.ascii plainLibraries pinnedPolicy Policy.default
    pinnedPolicy_tighter 20 true (fun _ _ _ _ _ _ => pure listedTwice) (none : Option (Observer Unit)) requestA
  exact ⟨hresolve (fun _ h => nomatch h) targetA World.start [publicAddress] hresolved,
    hclient pairKernel straightExchange World.start⟩

end SsrfGuard
