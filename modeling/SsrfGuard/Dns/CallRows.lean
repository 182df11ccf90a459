import SsrfGuard.Dns.Replies
import SsrfGuard.Python.AddressText

/-! # The rows of a call

What asks for addresses relies on the contract of `getaddrinfo`: a row is of the family that was asked for, its
socket address has the shape of that family, and its text is that of the address. A call builds its rows in two
ways, from what nameservers sent and from a literal. Both give such rows, but for the family of a literal, which
nothing compares with the one asked for. -/

namespace SsrfGuard.Dns

variable {U : Unicode}

/-- The address family of an address. -/
def familyOfAddress : IPAddress → ℤ
  | .v4 _ => afInet
  | .v6 _ _ => afInet6

/-- How many elements a socket address of a family has. -/
def sockaddrLength (family : ℤ) : ℕ := if family = afInet6 then 4 else 2

/-- A row as `getaddrinfo` has it for an address and the arguments of a call. -/
structure IsRow (U : Unicode) (port family socktype proto : ℤ) (ip : IPAddress) (row : ResolverAnswer) :
    Prop where
  /-- It is of the family asked for. -/
  requested : family ≠ 0 → row.family = family
  /-- It is of the family of the address. -/
  family_eq : row.family = familyOfAddress ip
  /-- Its socket address has the shape of the family. -/
  shape : row.sockaddr.length = sockaddrLength row.family
  /-- Its first element is a text that reads as the address. -/
  address : ∃ s, row.sockaddr[0]? = some (.str s) ∧ ipAddress U s = .ok ip
  /-- Its second element is the port. -/
  port_eq : row.sockaddr[1]? = some (.int port)
  /-- The socket type is the one asked for. -/
  socktype_eq : socktype ≠ 0 → row.socktype = socktype
  /-- The protocol is the one asked for. -/
  proto_eq : proto ≠ 0 → row.proto = proto

theorem family_row (ip : IPAddress) (port socktype proto : ℤ) :
    (UdpResolver.row ip port socktype proto).family = familyOfAddress ip := by
  cases ip <;> rfl

/-- `_row` keeps to the contract, but for the family asked for, which it is not given. -/
theorem isRow_row_iff {ip : IPAddress} (h : ip.Spellable) (port family socktype proto : ℤ) :
    IsRow U port family socktype proto ip (UdpResolver.row ip port socktype proto) ↔
      (family ≠ 0 → familyOfAddress ip = family) := by
  have htext : ipAddress U ip.str = .ok ip := ipAddress_eq_ok.mpr (parseAddress_str h)
  rw [← family_row ip port socktype proto]
  refine ⟨IsRow.requested, fun hfamily => ⟨hfamily, family_row _ _ _ _, ?_, ?_, ?_, ?_, ?_⟩⟩
  · cases ip <;> rfl
  · refine ⟨ip.str, ?_, htext⟩
    cases ip <;> rfl
  · cases ip <;> rfl
  · intro hne
    cases ip <;> exact if_pos hne
  · intro hne
    cases ip <;> exact if_pos hne

/-! ## Rows from the wire -/

/-- The family whose addresses a record type carries. -/
def familyOfType (qtype : ℕ) : ℤ := if qtype = typeA then afInet else afInet6

theorem addressFrom_eq_ok {rdata : Bytes} {qtype : ℕ} {ip : IPAddress} (h : addressFrom rdata qtype = .ok ip) :
    ip.Spellable ∧ familyOfAddress ip = familyOfType qtype := by
  rw [addressFrom] at h
  rw [familyOfType]
  by_cases hqtype : qtype = typeA
  · rw [if_pos hqtype] at h
    split at h
    · cases h
    · next hlength =>
      rw [ipAddressOfBytes, if_pos (not_not.mp hlength)] at h
      rw [if_pos hqtype]
      cases h
      exact ⟨True.intro, rfl⟩
  · rw [if_neg hqtype] at h
    split at h
    · cases h
    · next hlength =>
      rw [ipAddressOfBytes, not_not.mp hlength, if_neg (by decide), if_pos rfl] at h
      rw [if_neg hqtype]
      cases h
      exact ⟨True.intro, rfl⟩

/-- Every record that is read carries an address of the type asked for. -/
theorem of_mem_readRecordsFrom {message : Bytes} {qtype count offset : ℕ} {accepted : List Str}
    {records : List Record} (h : readRecordsFrom U message qtype count offset accepted = .ok records) :
    ∀ record ∈ records, record.ip.Spellable ∧ familyOfAddress record.ip = familyOfType qtype := by
  induction count generalizing offset accepted records with
  | zero =>
      cases h
      exact List.forall_mem_nil _
  | succ count ih =>
      rw [readRecordsFrom] at h
      obtain ⟨read, -, h⟩ := Except.bind_eq_ok.mp h
      split at h
      · exact ih h
      · split at h
        · obtain ⟨target, -, h⟩ := Except.bind_eq_ok.mp h
          exact ih h
        · split at h
          · obtain ⟨ip, hip, h⟩ := Except.bind_eq_ok.mp h
            obtain ⟨rest, hrest, h⟩ := Except.bind_eq_ok.mp h
            cases h
            exact List.forall_mem_cons.mpr ⟨addressFrom_eq_ok hip, ih hrest⟩
          · exact ih h

variable {r : UdpResolver U}

/-- A family of a resolver is one of the two it knows. -/
theorem family_of_mem_scope {family wanted : ℤ} (h : wanted ∈ scope r family) :
    (wanted = afInet ∨ wanted = afInet6) ∧ (family ≠ 0 → wanted = family) := by
  obtain ⟨hmem, hasked⟩ := List.mem_filter.mp h
  refine ⟨?_, fun hne => ((of_decide_eq_true hasked).resolve_left hne).symm⟩
  have hvalid := r.valid
  rw [ResolverFields.postInit] at hvalid
  split at hvalid
  · cases hvalid
  · obtain ⟨_, _, hvalid⟩ := Except.bind_eq_ok.mp hvalid
    obtain ⟨_, _, hfamilies⟩ := Except.bind_eq_ok.mp hvalid
    have hchecked := Except.forM_eq_ok.mp hfamilies wanted hmem
    rw [ResolverFields.checkFamily] at hchecked
    split at hchecked
    · cases hchecked
    · next hknown =>
      rw [not_and_or, not_not, not_not] at hknown
      exact hknown

theorem familyOfType_qtypeOf {wanted : ℤ} (h : wanted = afInet ∨ wanted = afInet6) :
    familyOfType (UdpResolver.qtypeOf wanted) = wanted := by
  rcases h with rfl | rfl
  · rfl
  · rfl

/-- What an accepted reply carries are addresses of the family it was asked for. -/
theorem Accepted.of_mem_records {name : Str} {question : Bytes} {qtype : ℕ} {reply : Reply}
    (h : Accepted r name question qtype reply) :
    ∀ record ∈ reply.records, record.ip.Spellable ∧ familyOfAddress record.ip = familyOfType qtype := by
  obtain ⟨labels, stop, hresponds, -⟩ := h.responds
  -- `NXDOMAIN` carries nothing; anything else carries what its answer section was read into
  rcases hresponds.outcome with ⟨-, hnone⟩ | ⟨-, hrecords, -⟩
  · rw [(Answer.mk.inj hnone).1]
    exact List.forall_mem_nil _
  · exact of_mem_readRecordsFrom hrecords

/-- The replies to a call carry addresses of the family asked for. -/
theorem of_mem_replies {name : Str} {question : Bytes} {family : ℤ} {families : List ℤ} {replies : List Reply}
    (hfamilies : ∀ wanted ∈ families, wanted ∈ scope r family)
    (h : List.Forall₂ (fun wanted => Accepted r name question (UdpResolver.qtypeOf wanted)) families replies) :
    ∀ record ∈ replies.flatMap Reply.records,
      record.ip.Spellable ∧ (family ≠ 0 → familyOfAddress record.ip = family) := by
  induction h with
  | nil => exact List.forall_mem_nil _
  | @cons wanted reply families replies hreply _ ih =>
      obtain ⟨hwanted, hrest⟩ := List.forall_mem_cons.mp hfamilies
      obtain ⟨hknown, hasked⟩ := family_of_mem_scope hwanted
      intro record hrecord
      rw [List.flatMap_cons, List.mem_append] at hrecord
      rcases hrecord with hrecord | hrecord
      · obtain ⟨hspellable, hfamily⟩ := hreply.of_mem_records record hrecord
        rw [familyOfType_qtypeOf hknown] at hfamily
        exact ⟨hspellable, fun hne => hfamily.trans (hasked hne)⟩
      · exact ih hrest record hrecord

/-! ## Every way a call returns -/

namespace UdpResolver

/-- The addresses a call has to give rows for: that of a literal, or those the accepted replies carry. -/
def Finds (r : UdpResolver U) (host : Str) (family flags : ℤ) (log : List Event) (addresses : List IPAddress) :
    Prop :=
  (∃ address, literal U host (numericHost flags) = .ok (some address) ∧ addresses = [address]) ∨
    literal U host (numericHost flags) = .ok none ∧
      ∃ question replies, encodeName U host = .ok question ∧
        List.Forall₂ (fun wanted => Accepted r (rstripDots host) question (qtypeOf wanted)) (scope r family)
          replies ∧
        log = replies.flatMap Reply.part ∧ addresses = (replies.flatMap Reply.records).map Record.ip

/-- A call returns nothing but rows as `getaddrinfo` has them, one for each address it has found. -/
def ReturnsRows (r : UdpResolver U) (schedule : Schedule) (host : Str)
    (port family socktype proto flags : ℤ) : Prop :=
  let run := (r.call host port family socktype proto flags).exec (World.start schedule)
  ∀ rows, run.1 = .ok rows → ∃ addresses, r.Finds host family flags run.2.log addresses ∧
    List.Forall₂ (IsRow U port family socktype proto) addresses rows

variable (schedule : Schedule) {host : Str} (port family socktype proto : ℤ) {flags : ℤ}

theorem returnsRows_of_name (h : literal U host (numericHost flags) = .ok none) :
    r.ReturnsRows schedule host port family socktype proto flags := by
  unfold ReturnsRows
  dsimp only
  intro rows hrows
  have hrun : (r.call host port family socktype proto flags).exec (World.start schedule) =
      (.ok rows, ((r.call host port family socktype proto flags).exec (World.start schedule)).2) :=
    Prod.ext hrows rfl
  obtain ⟨added, hlog, question, replies, hquestion, hreplies, rfl, rfl⟩ := (logs_call h).ok hrun
  refine ⟨_, .inr ⟨h, question, replies, hquestion, hreplies, hlog, rfl⟩, ?_⟩
  have hfound := of_mem_replies (fun _ => id) hreplies
  rw [List.forall₂_map_left_iff, List.forall₂_map_right_iff, List.forall₂_same]
  intro record hrecord
  obtain ⟨hspellable, hfamily⟩ := hfound record hrecord
  exact (isRow_row_iff hspellable _ _ _ _).mpr hfamily

theorem returnsRows_of_literal {address : IPAddress}
    (h : literal U host (numericHost flags) = .ok (some address)) :
    r.ReturnsRows schedule host port family socktype proto flags ↔
      (family ≠ 0 → familyOfAddress address = family) := by
  have hspellable : address.Spellable := by
    unfold literal at h
    split at h
    · next haddress =>
      cases h
      exact spellable_of_parseAddress (ipAddress_eq_ok.mp haddress)
    · split at h
      · cases h
      · cases h
  -- the one row is `_row` of the address, whatever family was asked for
  have hrow := @isRow_row_iff U _ hspellable port family socktype proto
  have hexec := @exec_call_of_literal U r _ port family socktype proto _ _ h (World.start schedule)
  unfold ReturnsRows
  rw [hexec, ← hrow]
  dsimp only
  constructor
  · intro hreturns
    obtain ⟨addresses, ⟨found, hfound, rfl⟩ | ⟨hnone, -⟩, hrows⟩ := hreturns _ rfl
    · rw [h] at hfound
      cases hfound
      exact (List.forall₂_cons.mp hrows).1
    · rw [h] at hnone
      cases hnone
  · intro hrow rows hrows
    cases hrows
    exact ⟨[address], .inl ⟨address, h, rfl⟩, .cons hrow .nil⟩

end UdpResolver

/-- **The rows of a call** keep to the contract of `getaddrinfo`, whatever the nameservers do, except where a
family is asked for and the host is a literal of the other one. -/
theorem returnsRows_iff (r : UdpResolver U) (schedule : Schedule) (host : Str)
    (port family socktype proto flags : ℤ) :
    r.ReturnsRows schedule host port family socktype proto flags ↔
      (family ≠ 0 → ∀ address, UdpResolver.literal U host (UdpResolver.numericHost flags) = .ok (some address) →
        familyOfAddress address = family) := by
  cases hliteral : UdpResolver.literal U host (UdpResolver.numericHost flags) with
  | error e =>
      -- `AI_NUMERICHOST` and a name: nothing is returned
      refine iff_of_true (fun rows hrows => ?_) fun _ address h => ?_
      · rw [exec_call_of_refused hliteral] at hrows
        cases hrows
      · cases h
  | ok parsed =>
      cases parsed with
      | none =>
          refine iff_of_true (UdpResolver.returnsRows_of_name schedule port family socktype proto hliteral) ?_
          intro _ address h
          cases h
      | some address =>
          rw [UdpResolver.returnsRows_of_literal schedule port family socktype proto hliteral]
          refine forall_congr' fun _ => ⟨fun hfamily other h => ?_, fun h => h address rfl⟩
          cases h
          exact hfamily

/-- A literal of the other family is returned all the same. -/
theorem call_otherFamily :
    ((dualStack.call (text "::1") 443 afInet sockStream 0 0).exec (World.start addressOverTcp)).1 =
      .ok [{ family := afInet6, socktype := sockStream, proto := ipprotoTcp, canonname := [],
             sockaddr := [.str (text "::1"), .int 443, .int 0, .int 0] }] ∧
    ¬ dualStack.ReturnsRows addressOverTcp (text "::1") 443 afInet sockStream 0 0 := by
  have hliteral : UdpResolver.literal Unicode.ascii (text "::1") (UdpResolver.numericHost 0) =
      .ok (some (.v6 1 none)) := by decide +kernel
  refine ⟨by decide +kernel, fun hreturns => ?_⟩
  rw [UdpResolver.returnsRows_of_literal _ _ _ _ _ hliteral] at hreturns
  exact absurd (hreturns (by decide)) (by decide)

end SsrfGuard.Dns
