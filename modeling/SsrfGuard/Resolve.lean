import SsrfGuard.Policy.CheckUrl
import SsrfGuard.World

/-! # Resolution

`resolve` makes one lookup and validates every answer: the addresses it returns are the ones it checked.
An answer is identified by its family and its socket address, and repeated answers count once. -/

namespace SsrfGuard

variable {σ : Type} (U : Unicode)

/-- `Address`: one validated answer, in the form the socket layer wants. -/
structure Address where
  /-- `AF_INET` or `AF_INET6`. -/
  family : ℤ
  /-- The socket address the resolver produced, unmodified. -/
  sockaddr : SockAddr
  /-- The parsed address, which is what the policy was asked about. -/
  ip : IPAddress
  /-- The name this answer came from. -/
  hostname : Str
  deriving DecidableEq

/-! ## Reading an answer -/

/-- The members of `socket.AddressFamily`. -/
def addressFamilies : List ℤ :=
  [0, 1, 2, 3, 4, 5, 6, 7, 8, 9, 10, 11, 13, 14, 15, 16, 17, 18, 19, 20, 21, 22, 23, 24, 25, 26, 29, 30,
    38]

/-- `socket.AddressFamily(family)`. -/
def addressFamily (family : ℤ) : Except Exc ℤ :=
  if family ∈ addressFamilies then .ok family
  else .error (.valueError (intText family ++ text " is not a valid AddressFamily"))

/-- `ip_address(str(sockaddr[0]))`. -/
def sockaddrIp (sockaddr : SockAddr) : Except Exc IPAddress :=
  match sockaddr with
  | [] => .error (.indexError (text "tuple index out of range"))
  | item :: _ => ipAddress U item.text

/-- The `Address` of one row. -/
def addressOf (hostname : Str) (info : ResolverAnswer) : Except Exc Address := do
  let family ← addressFamily info.family
  let ip ← sockaddrIp U info.sockaddr
  .ok { family := family, sockaddr := info.sockaddr, ip := ip, hostname := hostname }

/-- What a row is identified by in `seen`. -/
def ResolverAnswer.key (info : ResolverAnswer) : ℤ × SockAddr := (info.family, info.sockaddr)

/-- The loop of `_addresses_from`, from the keys already seen. -/
def addressesFrom (hostname : Str) : List (ℤ × SockAddr) → List ResolverAnswer → Except Exc (List Address)
  | _, [] => .ok []
  | seen, info :: infos =>
    if info.key ∈ seen then addressesFrom hostname seen infos
    else do
      let address ← addressOf U hostname info
      let out ← addressesFrom hostname (info.key :: seen) infos
      .ok (address :: out)

/-! ## Refusing a name -/

/-- A refused answer, and why. -/
abbrev Denial : Type := Address × Str

/-- One denial in a message. -/
def Denial.listed (denial : Denial) : Str := denial.1.ip.str ++ text " (" ++ denial.2 ++ text ")"

/-- `_refuse_all_denied`. -/
def refuseAllDenied (target : Target) (denied : List Denial) : Exc :=
  match denied with
  | [] => .indexError (text "tuple index out of range")
  | [(first, reason)] => .blockedAddressError first.ip.str reason
  | denied => .blockedAddressError target.host (text "every address it resolves to is refused: " ++
      join (text "; ") (denied.map Denial.listed))

/-- `_refuse_partial`. -/
def refusePartial (target : Target) (permitted : List Address) (denied : List Denial) : Exc :=
  .blockedAddressError target.host
    (text "resolves to both permitted and denied addresses; permitted: " ++
      join (text ", ") (permitted.map fun address => address.ip.str) ++ text "; " ++
      text "denied: " ++ join (text "; ") (denied.map Denial.listed) ++
      text ". A name that resolves both ways is the signature of a DNS " ++
      text "rebinding attempt rather than of a misconfiguration, so on_partial_block='reject' " ++
      text "refuses the whole name. Set on_partial_block='drop' to use only the permitted " ++
      text "answers, which is safe only if you know this name")

/-! ## `resolve` -/

/-- The decision reported on one answer. -/
def addressDecision (target : Target) (answer : Address) (refusal : Option Str) : Decision :=
  { stage := .address, outcome := if refusal.isSome then .refused else .permitted, reason := refusal,
    host := some target.host, port := some target.port, address := some answer.ip }

/-- The loop of `resolve`: the permitted answers, and the denied ones with the reasons. -/
def checkAnswers (p : Policy) (target : Target) (observer : Option (Observer (World σ))) :
    List Address → Prog (World σ) Exc (List Address × List Denial)
  | [] => pure ([], [])
  | answer :: answers =>
    match p.checkAddress answer.ip with
    | .error (.blockedAddressError _ reason) => do
      report observer (addressDecision target answer (some reason))
      let (permitted, denied) ← checkAnswers p target observer answers
      pure (permitted, (answer, reason) :: denied)
    -- `check_address` raises nothing else, and the source would let it out
    | .error e => throw e
    | .ok () => do
      report observer (addressDecision target answer none)
      let (permitted, denied) ← checkAnswers p target observer answers
      pure (answer :: permitted, denied)

/-- How `resolve` ends, given the permitted and the denied answers. -/
def verdictOn (p : Policy) (target : Target) (permitted : List Address) (denied : List Denial) :
    Except Exc (List Address) :=
  if permitted = [] then .error (refuseAllDenied target denied)
  else if denied ≠ [] ∧ p.onPartialBlock = text "reject" then
    .error (refusePartial target permitted denied)
  else .ok permitted

/-- `resolve`: one lookup, every answer validated. -/
def resolve (p : Policy) (target : Target) (resolver : Resolver σ) (observer : Option (Observer σ)) :
    Prog (World σ) Exc (List Address) := do
  let flags := if target.isLiteralAddress then aiNumerichost else 0
  let infos ← perform (resolver target.host target.port 0 sockStream 0 flags)
    (.lookup target.host target.port flags)
  let answers ← Prog.ofExcept (addressesFrom U target.host [] infos)
  if answers = [] then throw (.gaierror none (target.host ++ text " resolved to no addresses"))
  else do
    let (permitted, denied) ← checkAnswers p target (outside observer) answers
    Prog.ofExcept (verdictOn p target permitted denied)

/-! ## What `resolve` returns -/

variable {U}

/-- What an address is identified by. -/
def Address.key (address : Address) : ℤ × SockAddr := (address.family, address.sockaddr)

/-- An answer that can be read as an address: its family is known and its socket address parses. -/
def ResolverAnswer.Readable (U : Unicode) (info : ResolverAnswer) : Prop :=
  info.family ∈ addressFamilies ∧ ∃ ip, sockaddrIp U info.sockaddr = .ok ip

/-- The distinct answers, in the order of their first occurrence. -/
def distinctAnswers (infos : List ResolverAnswer) : List (ℤ × SockAddr) :=
  (infos.map ResolverAnswer.key).eraseDups

/-- The policy permits an answer when it permits the address its socket address holds. -/
def Policy.PermitsAnswer (U : Unicode) (p : Policy) (answer : ℤ × SockAddr) : Prop :=
  ∃ ip, sockaddrIp U answer.2 = .ok ip ∧ p.Permits ip

instance (p : Policy) (answer : ℤ × SockAddr) : Decidable (p.PermitsAnswer U answer) :=
  match h : sockaddrIp U answer.2 with
  | .error _ => .isFalse fun ⟨_, hip, _⟩ => by rw [h] at hip; cases hip
  | .ok ip =>
    decidable_of_iff (p.Permits ip)
      ⟨fun hp => ⟨ip, h, hp⟩, fun ⟨_, hip, hp⟩ => by rw [h] at hip; cases hip; exact hp⟩

theorem addressOf_eq_ok {hostname : Str} {info : ResolverAnswer} (h : info.Readable U) :
    ∃ address, addressOf U hostname info = .ok address ∧ address.key = info.key ∧
      sockaddrIp U address.sockaddr = .ok address.ip := by
  obtain ⟨hfamily, ip, hip⟩ := h
  refine ⟨{ family := info.family, sockaddr := info.sockaddr, ip := ip, hostname := hostname }, ?_,
    rfl, hip⟩
  rw [addressOf, addressFamily, if_pos hfamily, hip]
  rfl

/-- Readable answers become one address for each distinct answer not seen before, in order. -/
theorem addressesFrom_eq_ok {hostname : Str} {seen : List (ℤ × SockAddr)} {infos : List ResolverAnswer}
    (h : ∀ info ∈ infos, info.Readable U) :
    ∃ out, addressesFrom U hostname seen infos = .ok out ∧
      out.map Address.key = ((infos.map ResolverAnswer.key).filter (· ∉ seen)).eraseDups ∧
      ∀ address ∈ out, sockaddrIp U address.sockaddr = .ok address.ip := by
  induction infos generalizing seen with
  | nil => exact ⟨[], rfl, rfl, fun _ hmem => nomatch hmem⟩
  | cons info infos ih =>
      have hrest : ∀ info ∈ infos, info.Readable U := fun i hi => h i (List.mem_cons_of_mem _ hi)
      rw [addressesFrom, List.map_cons]
      -- a repeated answer changes nothing, a new one is read and remembered
      by_cases hseen : info.key ∈ seen
      · rw [if_pos hseen, List.filter_cons_of_neg (by simpa using hseen)]
        exact ih hrest
      · rw [if_neg hseen, List.filter_cons_of_pos (by simpa using hseen), List.eraseDups_cons]
        obtain ⟨address, haddress, hkey, hip⟩ := addressOf_eq_ok (h info List.mem_cons_self)
        obtain ⟨out, hout, hkeys, hips⟩ := @ih (info.key :: seen) hrest
        refine ⟨address :: out, ?_, ?_, ?_⟩
        · rw [haddress, hout]
          rfl
        · rw [List.map_cons, hkey, hkeys, List.filter_filter]
          congr 3
          funext key
          rw [Bool.eq_iff_iff]
          simp [and_comm]
        · intro a ha
          rcases List.mem_cons.mp ha with rfl | ha
          · exact hip
          · exact hips a ha

/-- The observer raises nothing outside `Exception`. -/
def TameObserver (observer : Option (Observer σ)) : Prop :=
  ∀ callback, observer = some callback → ∀ decision env e env',
    (callback decision).exec env = (.error e, env') → e.isException = true

/-- Reporting to a tame observer returns. -/
theorem exec_report_of_tame {observer : Option (Observer σ)} (h : TameObserver observer)
    (decision : Decision) (w : World σ) :
    ∃ w', (report (outside observer) decision).exec w = (.ok (), w') := by
  cases hexec : (report (outside observer) decision).exec w with
  | mk result w' =>
      cases result with
      | ok u => exact ⟨w', rfl⟩
      | error e =>
          obtain ⟨lifted, hlifted, hraise, hbase⟩ := exec_report_error hexec
          obtain ⟨callback, hcallback, rfl⟩ := Option.map_eq_some_iff.mp hlifted
          have hresult : ((callback decision).exec w.env).1 = .error e := congrArg Prod.fst hraise
          rw [h callback hcallback decision w.env e _ (Prod.ext hresult rfl)] at hbase
          cases hbase

/-- The reason an address is refused for. -/
def Policy.denialReason (p : Policy) (answer : Address) : Str :=
  (p.deniedNetworks.classify answer.ip).reason

/-- The answers the policy permits. -/
def Policy.permitted (p : Policy) (answers : List Address) : List Address :=
  answers.filter fun answer => p.Permits answer.ip

/-- The answers it denies, with the reasons. -/
def Policy.denied (p : Policy) (answers : List Address) : List Denial :=
  (answers.filter fun answer => ¬ p.Permits answer.ip).map fun answer => (answer, p.denialReason answer)

variable {p : Policy} {answer : Address}

theorem Policy.permitted_cons_of_permits (h : p.Permits answer.ip) (answers : List Address) :
    p.permitted (answer :: answers) = answer :: p.permitted answers := by
  simp [Policy.permitted, h]

theorem Policy.permitted_cons_of_not_permits (h : ¬ p.Permits answer.ip) (answers : List Address) :
    p.permitted (answer :: answers) = p.permitted answers := by
  simp [Policy.permitted, h]

theorem Policy.denied_cons_of_permits (h : p.Permits answer.ip) (answers : List Address) :
    p.denied (answer :: answers) = p.denied answers := by
  simp [Policy.denied, h]

theorem Policy.denied_cons_of_not_permits (h : ¬ p.Permits answer.ip) (answers : List Address) :
    p.denied (answer :: answers) = (answer, p.denialReason answer) :: p.denied answers := by
  simp [Policy.denied, h]

/-- An address that is refused is not permitted. -/
theorem Policy.not_permits_of_checkAddress {a : IPAddress} {e : Exc} (h : p.checkAddress a = .error e) :
    ¬ p.Permits a := by
  intro hpermits
  rw [Policy.Permits, h] at hpermits
  cases hpermits

/-- The loop of `resolve` sorts the answers, whatever is reported on the way. -/
theorem exec_checkAnswers (p : Policy) (target : Target) {observer : Option (Observer σ)}
    (h : TameObserver observer) (answers : List Address) (w : World σ) :
    ∃ w', (checkAnswers p target (outside observer) answers).exec w =
      (.ok (p.permitted answers, p.denied answers), w') := by
  induction answers generalizing w with
  | nil => exact ⟨w, rfl⟩
  | cons answer answers ih =>
      cases hcheck : p.checkAddress answer.ip with
      | ok u =>
          have hpermits : p.Permits answer.ip := hcheck
          obtain ⟨w₁, hreport⟩ := exec_report_of_tame h (addressDecision target answer none) w
          obtain ⟨w₂, hrest⟩ := ih w₁
          refine ⟨w₂, ?_⟩
          rw [Policy.permitted_cons_of_permits hpermits, Policy.denied_cons_of_permits hpermits]
          simp only [checkAnswers, hcheck, Prog.exec_bind, hreport, hrest, Prog.exec_pure]
      | error e =>
          have hnot : ¬ p.Permits answer.ip := Policy.not_permits_of_checkAddress hcheck
          obtain rfl := Policy.checkAddress_eq_error hcheck
          obtain ⟨w₁, hreport⟩ :=
            exec_report_of_tame h (addressDecision target answer (some (p.denialReason answer))) w
          obtain ⟨w₂, hrest⟩ := ih w₁
          refine ⟨w₂, ?_⟩
          rw [Policy.permitted_cons_of_not_permits hnot, Policy.denied_cons_of_not_permits hnot]
          rw [Policy.denialReason] at hreport ⊢
          simp only [checkAnswers, hcheck, Prog.exec_bind, hreport, hrest, Prog.exec_pure]

/-- What `resolve` comes to for the rows of an answer. -/
def resolved (U : Unicode) (p : Policy) (target : Target) (infos : List ResolverAnswer) :
    Except Exc (List Address) := do
  let answers ← addressesFrom U target.host [] infos
  if answers = [] then .error (.gaierror none (target.host ++ text " resolved to no addresses"))
  else verdictOn p target (p.permitted answers) (p.denied answers)

/-- The call `resolve` makes of its resolver. -/
def lookupOf (target : Target) (resolver : Resolver σ) : Prog σ Exc (List ResolverAnswer) :=
  resolver target.host target.port 0 sockStream 0 (if target.isLiteralAddress then aiNumerichost else 0)

/-- After the lookup, `resolve` reads its rows, checks every answer and gives its verdict. -/
theorem exec_resolve_of_lookup {p : Policy} {target : Target} {resolver : Resolver σ}
    (observer : Option (Observer σ)) {w : World σ} {infos : List ResolverAnswer} {env : σ}
    (hlookup : (lookupOf target resolver).exec w.env = (.ok infos, env)) :
    ∃ trace, (resolve U p target resolver observer).exec w =
      (Prog.ofExcept (addressesFrom U target.host [] infos) >>= fun answers =>
        if answers = [] then throw (Exc.gaierror none (target.host ++ text " resolved to no addresses"))
        else checkAnswers p target (outside observer) answers >>= fun sorted =>
          Prog.ofExcept (verdictOn p target sorted.1 sorted.2)).exec
        { w with env := env, trace := trace } := by
  have hperform : (perform (lookupOf target resolver) (.lookup target.host target.port
      (if target.isLiteralAddress then aiNumerichost else 0))).exec w =
      (.ok infos, { w with env := env, trace := w.trace ++ [.lookup target.host target.port
        (if target.isLiteralAddress then aiNumerichost else 0) (.ok infos)] }) := by
    rw [perform, Prog.exec_ofFun, hlookup]
  rw [lookupOf] at hperform
  rw [resolve, Prog.exec_bind]
  dsimp only
  rw [hperform]
  exact ⟨_, rfl⟩

/-- When the resolver answers, `resolve` ends as its rows decide. -/
theorem exec_resolve {p : Policy} {target : Target} {resolver : Resolver σ}
    {observer : Option (Observer σ)} (h : TameObserver observer) {w : World σ}
    {infos : List ResolverAnswer} {env : σ}
    (hlookup : (lookupOf target resolver).exec w.env = (.ok infos, env)) :
    ((resolve U p target resolver observer).exec w).1 = resolved U p target infos := by
  obtain ⟨trace, hexec⟩ := exec_resolve_of_lookup (U := U) (p := p) observer hlookup
  rw [hexec, resolved, Prog.exec_bind, Prog.exec_ofExcept]
  cases addressesFrom U target.host [] infos with
  | error e => rfl
  | ok answers =>
      dsimp only [bind, Except.bind]
      split
      · rfl
      · obtain ⟨w', hw'⟩ := exec_checkAnswers p target h answers _
        change Prod.fst ((checkAnswers p target (outside observer) answers >>= _).exec _) = _
        rw [Prog.exec_bind, hw']
        rfl

/-- What `resolve` comes to for readable rows: the answers are the distinct ones, in order, each with the
address its own socket address holds. -/
theorem exists_answers (target : Target) {infos : List ResolverAnswer} (hne : infos ≠ [])
    (hread : ∀ info ∈ infos, info.Readable U) :
    ∃ answers, answers ≠ [] ∧ answers.map Address.key = distinctAnswers infos ∧
      (∀ answer ∈ answers, sockaddrIp U answer.sockaddr = .ok answer.ip) ∧
      ∀ p, resolved U p target infos = verdictOn p target (p.permitted answers) (p.denied answers) := by
  obtain ⟨answers, hanswers, hkeys, hips⟩ := @addressesFrom_eq_ok U target.host [] infos hread
  have hdistinct : answers.map Address.key = distinctAnswers infos := by
    simpa [distinctAnswers] using hkeys
  have hanswersNe : answers ≠ [] := by
    rintro rfl
    obtain ⟨info, hinfo⟩ := List.exists_mem_of_ne_nil infos hne
    have hmem : info.key ∈ distinctAnswers infos :=
      List.mem_eraseDups.mpr (List.mem_map_of_mem hinfo)
    rw [← hdistinct] at hmem
    cases hmem
  refine ⟨answers, hanswersNe, hdistinct, hips, fun p => ?_⟩
  rw [resolved, hanswers]
  exact if_neg hanswersNe

theorem permitsAnswer_key {p : Policy} {answer : Address}
    (h : sockaddrIp U answer.sockaddr = .ok answer.ip) :
    p.PermitsAnswer U answer.key ↔ p.Permits answer.ip := by
  constructor
  · rintro ⟨ip, hip, hp⟩
    rw [Address.key, h] at hip
    cases hip
    exact hp
  · exact fun hp => ⟨answer.ip, h, hp⟩

/-- When `resolve` refuses: no distinct answer is permitted, or one is denied and a partly denied name
is rejected. -/
def Policy.Refuses (U : Unicode) (p : Policy) (answers : List (ℤ × SockAddr)) : Prop :=
  (∀ answer ∈ answers, ¬ p.PermitsAnswer U answer) ∨
    ((∃ answer ∈ answers, ¬ p.PermitsAnswer U answer) ∧ p.onPartialBlock = text "reject")

/-- A `BlockedAddressError`. -/
def IsBlockedAddress (result : Except Exc (List Address)) : Prop :=
  ∃ address reason, result = .error (.blockedAddressError address reason)

theorem isBlockedAddress_refuseAllDenied {target : Target} {denied : List Denial} (h : denied ≠ []) :
    IsBlockedAddress (.error (refuseAllDenied target denied)) := by
  unfold refuseAllDenied
  split
  · exact absurd rfl h
  · exact ⟨_, _, rfl⟩
  · exact ⟨_, _, rfl⟩

/-- The verdict on the distinct answers. -/
theorem verdictOn_spec (p : Policy) (target : Target) {answers : List Address} (hne : answers ≠ [])
    (hips : ∀ answer ∈ answers, sockaddrIp U answer.sockaddr = .ok answer.ip) :
    let result := verdictOn p target (p.permitted answers) (p.denied answers)
    (IsBlockedAddress result ↔ p.Refuses U (answers.map Address.key)) ∧
      (¬ IsBlockedAddress result → result = .ok (p.permitted answers) ∧ p.permitted answers ≠ []) := by
  have hnone : p.permitted answers = [] ↔
      ∀ answer ∈ answers.map Address.key, ¬ p.PermitsAnswer U answer := by
    rw [Policy.permitted, List.filter_eq_nil_iff, List.forall_mem_map]
    refine forall₂_congr fun answer hanswer => ?_
    rw [permitsAnswer_key (hips answer hanswer), decide_eq_true_eq]
  have hsome : p.denied answers ≠ [] ↔
      ∃ answer ∈ answers.map Address.key, ¬ p.PermitsAnswer U answer := by
    rw [Policy.denied, ne_eq, List.map_eq_nil_iff, List.filter_eq_nil_iff]
    push Not
    constructor
    · rintro ⟨answer, hanswer, hnot⟩
      refine ⟨answer.key, List.mem_map_of_mem hanswer, ?_⟩
      rw [permitsAnswer_key (hips answer hanswer)]
      exact of_decide_eq_true hnot
    · rintro ⟨_, hkey, hnot⟩
      obtain ⟨answer, hanswer, rfl⟩ := List.mem_map.mp hkey
      rw [permitsAnswer_key (hips answer hanswer)] at hnot
      exact ⟨answer, hanswer, decide_eq_true hnot⟩
  intro result
  by_cases hpermitted : p.permitted answers = []
  · have hall := hnone.mp hpermitted
    -- nothing is permitted, so every answer there is, and there is one, is denied
    have hdenied : p.denied answers ≠ [] := by
      obtain ⟨answer, hanswer⟩ := List.exists_mem_of_ne_nil answers hne
      exact hsome.mpr ⟨answer.key, List.mem_map_of_mem hanswer, hall _ (List.mem_map_of_mem hanswer)⟩
    have hblocked : IsBlockedAddress result := by
      rw [show result = _ from if_pos hpermitted]
      exact isBlockedAddress_refuseAllDenied hdenied
    exact ⟨iff_of_true hblocked (.inl hall), fun h => absurd hblocked h⟩
  · by_cases hpartial : p.denied answers ≠ [] ∧ p.onPartialBlock = text "reject"
    -- some are permitted and some denied, and that is refused
    · have hblocked : IsBlockedAddress result := by
        rw [show result = _ from (if_neg hpermitted).trans (if_pos hpartial)]
        exact ⟨_, _, rfl⟩
      exact ⟨iff_of_true hblocked (.inr ⟨hsome.mp hpartial.1, hpartial.2⟩), fun h => absurd hblocked h⟩
    · have hresult : result = .ok (p.permitted answers) := (if_neg hpermitted).trans (if_neg hpartial)
      refine ⟨iff_of_false ?_ ?_, fun _ => ⟨hresult, hpermitted⟩⟩
      · rintro ⟨address, reason, h⟩
        rw [hresult] at h
        cases h
      · rintro (hall | ⟨hany, hreject⟩)
        · exact hpermitted (hnone.mpr hall)
        · exact hpartial ⟨hsome.mpr hany, hreject⟩

/-- The permitted answers, as the distinct answers the policy permits. -/
theorem map_key_permitted {p : Policy} {answers : List Address}
    (hips : ∀ answer ∈ answers, sockaddrIp U answer.sockaddr = .ok answer.ip) :
    (p.permitted answers).map Address.key =
      (answers.map Address.key).filter fun answer => p.PermitsAnswer U answer := by
  rw [List.filter_map, Policy.permitted]
  congr 1
  refine List.filter_congr fun answer hanswer => ?_
  exact decide_eq_decide.mpr (permitsAnswer_key (hips answer hanswer)).symm

/-- What `resolve` comes to for readable rows, in terms of the distinct answers. -/
theorem resolved_spec (p : Policy) (target : Target) {infos : List ResolverAnswer} (hne : infos ≠ [])
    (hread : ∀ info ∈ infos, info.Readable U) :
    (IsBlockedAddress (resolved U p target infos) ↔ p.Refuses U (distinctAnswers infos)) ∧
      (¬ IsBlockedAddress (resolved U p target infos) → ∃ out, resolved U p target infos = .ok out ∧
        out ≠ [] ∧
        out.map Address.key =
          (distinctAnswers infos).filter (fun answer => p.PermitsAnswer U answer) ∧
        ∀ address ∈ out, sockaddrIp U address.sockaddr = .ok address.ip) := by
  obtain ⟨answers, hanswers, hkeys, hips, hresolved⟩ := exists_answers target hne hread
  obtain ⟨hblocked, hok⟩ := verdictOn_spec p target hanswers hips
  rw [hresolved, ← hkeys]
  refine ⟨hblocked, fun h => ?_⟩
  obtain ⟨hresult, hpermitted⟩ := hok h
  refine ⟨_, hresult, hpermitted, map_key_permitted hips, fun address haddress => ?_⟩
  exact hips address (List.mem_of_mem_filter haddress)

/-- The refusal looks at the distinct answers as a set. -/
theorem Policy.refuses_congr {p : Policy} {answers answers' : List (ℤ × SockAddr)}
    (h : ∀ answer, answer ∈ answers ↔ answer ∈ answers') :
    p.Refuses U answers ↔ p.Refuses U answers' := by
  simp only [Policy.Refuses, h]

/-- Rows that name the answers of readable rows are readable. -/
theorem readable_of_same_keys {infos infos' : List ResolverAnswer} (hne : infos ≠ [])
    (hread : ∀ info ∈ infos, info.Readable U)
    (hsame : ∀ answer, answer ∈ infos'.map ResolverAnswer.key ↔ answer ∈ infos.map ResolverAnswer.key) :
    infos' ≠ [] ∧ ∀ info ∈ infos', info.Readable U := by
  constructor
  · rintro rfl
    obtain ⟨info, hinfo⟩ := List.exists_mem_of_ne_nil infos hne
    exact absurd ((hsame _).mpr (List.mem_map_of_mem hinfo)) List.not_mem_nil
  · intro info' hinfo'
    obtain ⟨info, hinfo, hkey⟩ := List.mem_map.mp ((hsame _).mp (List.mem_map_of_mem hinfo'))
    obtain ⟨hfamily, hsockaddr⟩ := Prod.mk.inj hkey
    rw [ResolverAnswer.Readable, ← hfamily, ← hsockaddr]
    exact hread info hinfo

/-- A name that is returned under `reject` is returned under `drop`. -/
theorem resolved_drop {p p' : Policy} {target : Target} {infos : List ResolverAnswer} {out : List Address}
    (hne : infos ≠ []) (hread : ∀ info ∈ infos, info.Readable U)
    (hfields : p'.toPolicyFields = { p.toPolicyFields with onPartialBlock := text "drop" })
    (hout : resolved U p target infos = .ok out) : resolved U p' target infos = .ok out := by
  obtain ⟨answers, -, -, -, hresolved⟩ := exists_answers target hne hread
  rw [hresolved] at hout ⊢
  have hpermits : ∀ a, p'.Permits a ↔ p.Permits a := by
    intro a
    rw [Policy.Permits, Policy.Permits, Policy.checkAddress, Policy.checkAddress, hfields]
  have hpermitted : p'.permitted answers = p.permitted answers := by
    simp only [Policy.permitted, hpermits]
  unfold verdictOn at hout ⊢
  rw [hpermitted]
  split_ifs at hout with hnil hpartial
  cases hout
  -- under `drop` the second refusal cannot fire
  have hdrop : ¬ (p'.denied answers ≠ [] ∧ p'.onPartialBlock = text "reject") := by
    rintro ⟨-, hreject⟩
    have hword : text "drop" = text "reject" := by
      rw [hfields] at hreject
      exact hreject
    exact absurd hword (by decide)
  rw [if_neg hnil, if_neg hdrop]

/-- **`resolve`.** For every non-empty list of readable rows a resolver answers with: `resolve` raises
`BlockedAddressError` exactly when no distinct answer is permitted, or one is denied and a partly denied
name is rejected; otherwise it returns the permitted ones among the distinct answers, in their order.
Rows that name the same answers in another order, or more than once, are refused alike, and what is
returned under `reject` is returned under `drop`. -/
theorem resolve_correct (U : Unicode) (p : Policy) (target : Target) (resolver : Resolver σ)
    (observer : Option (Observer σ)) (hobserver : TameObserver observer) (w : World σ)
    (infos : List ResolverAnswer) (env : σ)
    (hlookup : (lookupOf target resolver).exec w.env = (.ok infos, env))
    (hne : infos ≠ []) (hread : ∀ info ∈ infos, info.Readable U) :
    let result := ((resolve U p target resolver observer).exec w).1
    (IsBlockedAddress result ↔ p.Refuses U (distinctAnswers infos)) ∧
    (¬ IsBlockedAddress result → ∃ out, result = .ok out ∧ out ≠ [] ∧
      out.map Address.key = (distinctAnswers infos).filter (fun answer => p.PermitsAnswer U answer) ∧
      ∀ address ∈ out, sockaddrIp U address.sockaddr = .ok address.ip) ∧
    (∀ (resolver' : Resolver σ) (w' : World σ) (infos' : List ResolverAnswer) (env' : σ),
      (lookupOf target resolver').exec w'.env = (.ok infos', env') →
      (∀ answer, answer ∈ infos'.map ResolverAnswer.key ↔ answer ∈ infos.map ResolverAnswer.key) →
      (IsBlockedAddress ((resolve U p target resolver' observer).exec w').1 ↔
        IsBlockedAddress result)) ∧
    ∀ (p' : Policy) (out : List Address),
      p'.toPolicyFields = { p.toPolicyFields with onPartialBlock := text "drop" } →
      result = .ok out → ((resolve U p' target resolver observer).exec w).1 = .ok out := by
  intro result
  have hresult : result = resolved U p target infos := exec_resolve hobserver hlookup
  obtain ⟨hblocked, hok⟩ := resolved_spec p target hne hread
  refine ⟨by rw [hresult]; exact hblocked, by rw [hresult]; exact hok, ?_, ?_⟩
  · intro resolver' w' infos' env' hlookup' hsame
    obtain ⟨hne', hread'⟩ := readable_of_same_keys hne hread hsame
    rw [exec_resolve hobserver hlookup', (resolved_spec p target hne' hread').1, hresult, hblocked]
    refine Policy.refuses_congr fun answer => ?_
    rw [distinctAnswers, distinctAnswers, List.mem_eraseDups, List.mem_eraseDups, hsame]
  · intro p' out hfields hout
    rw [exec_resolve hobserver hlookup]
    rw [hresult] at hout
    exact resolved_drop hne hread hfields hout

/-- A name with one public address, listed twice. -/
def listedTwice : List ResolverAnswer :=
  let info : ResolverAnswer :=
    { family := afInet, socktype := sockStream, proto := ipprotoTcp, canonname := [],
      sockaddr := [.str (text "8.8.8.8"), .int 443] }
  [info, info]

/-- The target of `https://a/`. -/
def targetA : Target :=
  { scheme := text "https", host := text "a", port := 443, hostAsWritten := text "a", address := none }

/-- A world with nothing outside but what is called. -/
def World.start : World Unit := { env := (), sockets := 0, trace := [] }

theorem resolve_correct_listedTwice :
    ∃ out, ((resolve Unicode.ascii Policy.default targetA
        (fun _ _ _ _ _ _ => pure listedTwice) none).exec World.start).1 = .ok out ∧
      out.map Address.key = [(afInet, [.str (text "8.8.8.8"), .int 443])] := by
  have hread : ∀ info ∈ listedTwice, info.Readable Unicode.ascii := by
    intro info hinfo
    simp only [listedTwice, List.mem_cons, List.not_mem_nil, or_false, or_self] at hinfo
    subst hinfo
    exact ⟨by decide, .v4 0x08080808#32, by decide +kernel⟩
  obtain ⟨hblocked, hok, -⟩ := resolve_correct Unicode.ascii Policy.default targetA
    (fun _ _ _ _ _ _ => pure listedTwice) none (fun _ h => nomatch h) World.start listedTwice ()
    rfl (by decide) hread
  have hpermitted : ¬ Policy.default.Refuses Unicode.ascii (distinctAnswers listedTwice) := by
    unfold Policy.Refuses
    decide +kernel
  obtain ⟨out, hout, -, hkeys, -⟩ := hok fun h => hpermitted (hblocked.mp h)
  refine ⟨out, hout, hkeys.trans ?_⟩
  decide +kernel

/-- A row with a private address, of a family that `socket.AddressFamily` does not know. -/
def unknownFamily : ResolverAnswer :=
  { family := 999, socktype := sockStream, proto := ipprotoTcp, canonname := [],
    sockaddr := [.str (text "10.0.0.1"), .int 443] }

/-- The address parses and is denied, and what is raised is no refusal. -/
theorem resolve_unknownFamily :
    let run := (resolve Unicode.ascii Policy.default targetA (fun _ _ _ _ _ _ => pure [unknownFamily])
      none).exec World.start
    sockaddrIp Unicode.ascii unknownFamily.sockaddr = .ok (.v4 0x0A000001) ∧
      Policy.default.Refuses Unicode.ascii (distinctAnswers [unknownFamily]) ∧
      run.1 = .error (.valueError (text "999 is not a valid AddressFamily")) ∧ ¬ IsBlockedAddress run.1 := by
  have hrun : ((resolve Unicode.ascii Policy.default targetA (fun _ _ _ _ _ _ => pure [unknownFamily])
      none).exec World.start).1 = .error (.valueError (text "999 is not a valid AddressFamily")) := by
    decide +kernel
  refine ⟨by decide +kernel, ?_, hrun, ?_⟩
  · unfold Policy.Refuses
    decide +kernel
  · rw [hrun]
    rintro ⟨address, reason, h⟩
    cases h

end SsrfGuard
