import SsrfGuard.Library.Raises
import SsrfGuard.Observer
import SsrfGuard.Policy.Config
import SsrfGuard.Python.Url

/-! # Deciding a URL

`check_url` asks everything that can be asked without the network: length, control characters,
syntax, scheme, credentials, host, port, the host list, and the address where the host is a literal
one. Every step either passes something on or raises `BlockedURLError`, and the host leaves the
pipeline in one of two shapes: a literal with its address checked, or a name. -/

namespace SsrfGuard

/-- `Target`: an origin that survived the policy check. -/
structure Target where
  /-- The scheme, lower-cased. -/
  scheme : Str
  /-- The host as the resolver will see it. -/
  host : Str
  /-- The port, explicit or defaulted from the scheme. -/
  port : ℤ
  /-- The host as the caller wrote it. -/
  hostAsWritten : Str
  /-- The address, where the host is a literal one. -/
  address : Option IPAddress
  deriving DecidableEq

/-- `is_literal_address`. -/
def Target.isLiteralAddress (t : Target) : Bool := t.address.isSome

/-- `except ValueError as bad: raise ...`: any other error passes through. -/
def exceptValueError {α : Type} (x : Except Exc α) (handler : Str → Exc) : Except Exc α :=
  match x with
  | .error (.valueError message) => .error (handler message)
  | x => x

/-- `except BlockedAddressError as blocked: raise BlockedURLError(url, blocked.reason)`. -/
def exceptBlockedAddress {α : Type} (x : Except Exc α) (url : Str) : Except Exc α :=
  match x with
  | .error (.blockedAddressError _ reason) => .error (.blockedURLError url reason)
  | x => x

variable (U : Unicode)

/-! ## The steps -/

/-- `_reject_overlong`. -/
def Policy.rejectOverlong (p : Policy) (url : Str) : Except Exc Unit :=
  if p.maxUrlLength < url.length then
    .error (.blockedURLError (text "<" ++ natText url.length ++ text " characters>")
      (text "is longer than max_url_length (" ++ intText p.maxUrlLength ++
        text "); refused unread, " ++ text "because every check after this one reads the whole string"))
  else .ok ()

/-- `_CONTROL_CHARACTERS`: `[\x00-\x20\x7f]`. -/
def isControlCharacter (c : ℕ) : Bool := c ≤ 0x20 || c == 0x7F

/-- `_reject_control_characters`. -/
def rejectControlCharacters (url : Str) : Except Exc Unit :=
  match url.find? isControlCharacter with
  | some c =>
    .error (.blockedURLError url
      (text "contains the control character " ++ repr U [c] ++ text " at offset " ++
        natText (url.findIdx isControlCharacter) ++
        text ", which urlsplit strips silently, so the URL that was checked would not be " ++
        text "the URL that was parsed"))
  | none => .ok ()

/-- `_split`. -/
def splitUrl (url : Str) : Except Exc SplitResult :=
  exceptValueError (urlsplit U url) fun bad =>
    .blockedURLError url (text "cannot be parsed as a URL: " ++ bad)

/-- `_check_scheme`. -/
def Policy.checkScheme (p : Policy) (url : Str) (split : SplitResult) : Except Exc Str :=
  let scheme := lower U split.scheme
  if scheme = [] then
    .error (.blockedURLError url (text "has no scheme; a relative URL names no origin to check"))
  else if scheme ∉ p.allowedSchemes then
    .error (.blockedURLError url (text "scheme " ++ repr U scheme ++
      text " is not in allowed_schemes (" ++ join (text ", ") (sortedText p.allowedSchemes) ++
      text ")"))
  else .ok scheme

/-- `_check_userinfo`. -/
def Policy.checkUserinfo (p : Policy) (url : Str) (split : SplitResult) : Except Exc Unit :=
  if p.allowUserinfo then .ok ()
  else if split.username = none ∧ split.password = none then .ok ()
  else
    .error (.blockedURLError url
      (text "carries credentials in its authority and allow_userinfo is off; the text before " ++
        text "'@' is not the host, which is what makes this a classic disguise"))

/-- `_LONGEST_HOSTNAME`. -/
def longestHostname : ℕ := 253

/-- `_reject_overlong_host`. -/
def rejectOverlongHost (host : Str) : Except Exc Unit :=
  if longestHostname < host.length then
    .error (.blockedURLError (text "<host of " ++ natText host.length ++ text " characters>")
      (text "is longer than " ++ natText longestHostname ++
        text " characters, which is the longest name DNS " ++
        text "can carry, so it could never resolve; refused before normalisation, because the " ++
        text "idna codec runs nameprep per label and a long host is what makes that expensive"))
  else .ok ()

/-- What `_check_host` makes of a normalised host: a literal, a refusal, or a name. -/
def classifyHost (url host : Str) : Except Exc (Option IPAddress) :=
  let literal := if numericShaped host || ord ':' ∈ host then literalAddress U host else none
  match literal with
  | some address => .ok (some address)
  | none =>
    if numericShaped host then
      .error (.blockedURLError url (text "host " ++ repr U host ++
        text " is made only of digits and dots but is not a valid address, so " ++
        text "it is an encoded one; no registered hostname has this shape"))
    else if !hostnameMatch host then
      .error (.blockedURLError url (text "host " ++ repr U host ++
        text " is not a well-formed hostname"))
    else .ok none

/-- `_check_host`: the normalised host, the host as written, and the address it spells. -/
def checkHost (url : Str) (split : SplitResult) : Except Exc (Str × Str × Option IPAddress) :=
  match split.hostname U with
  | none => .error (.blockedURLError url (text "has no host"))
  | some raw =>
    if raw = [] then .error (.blockedURLError url (text "has no host"))
    else if ord '%' ∈ raw then
      .error (.blockedURLError url
        (text "host contains '%', which is either percent-encoding that the resolver will " ++
          text "not decode or an IPv6 zone identifier, and neither belongs in a fetched URL"))
    else do
      rejectOverlongHost raw
      let host ← normalise U url raw
      let address ← classifyHost U url host
      return (host, raw, address)

/-- `repr` of a list of texts. -/
def reprList (parts : List Str) : Str := text "[" ++ join (text ", ") (parts.map (repr U)) ++ text "]"

/-- `_check_host_is_listed`. -/
def Policy.checkHostIsListed (p : Policy) (url host : Str) (literal : Bool) : Except Exc Unit :=
  if hostIsAllowed host p.allowedHosts literal then .ok ()
  else
    let nearly := (nearestPattern host p.allowedHosts).getD []
    let hint := if nearly = [] then [] else text "; the nearest entry is " ++ repr U nearly
    .error (.blockedURLError url (text "host " ++ repr U host ++
      text " is not in allowed_hosts, which lists " ++ reprList U (sortedText p.allowedHosts) ++ hint))

/-- `check_host`: the half of the question a host is enough to answer. -/
def Policy.checkHostOnly (p : Policy) (host : Str) : Except Exc Unit :=
  if p.allowedHosts = [] then .ok ()
  else p.checkHostIsListed U host host (literalAddress U host).isSome

/-- `_DEFAULT_PORTS`. -/
def defaultPorts (scheme : Str) : Option ℤ :=
  if scheme = text "http" ∨ scheme = text "ws" then some 80
  else if scheme = text "https" ∨ scheme = text "wss" then some 443
  else none

/-- `_check_port`. -/
def Policy.checkPort (p : Policy) (url : Str) (split : SplitResult) (scheme : Str) :
    Except Exc ℤ := do
  let named ← exceptValueError (split.port U) fun bad =>
    .blockedURLError url (text "has an unusable port: " ++ bad)
  match named.or (defaultPorts scheme) with
  | none =>
    .error (.blockedURLError url (text "names no port and scheme " ++ repr U scheme ++
      text " has no default this policy knows"))
  | some port =>
    if ¬ (lowestPort ≤ port ∧ port ≤ highestPort) then
      .error (.blockedURLError url (text "port " ++ intText port ++ text " is not a port"))
    else if port ∉ p.allowedPorts then
      .error (.blockedURLError url (text "port " ++ intText port ++
        text " is not in allowed_ports (" ++
        join (text ", ") ((p.allowedPorts.insertionSort (· ≤ ·)).map intText) ++ text ")"))
    else .ok port

/-- `if self.allowed_hosts: self._check_host_is_listed(...)`. -/
def Policy.checkListed (p : Policy) (url host : Str) (address : Option IPAddress) :
    Except Exc Unit :=
  if p.allowedHosts = [] then .ok () else p.checkHostIsListed U url host address.isSome

/-- `if address is not None`: check a literal, with its refusal turned into one of the URL. -/
def Policy.checkLiteral (p : Policy) (url : Str) (address : Option IPAddress) : Except Exc Unit :=
  match address with
  | some a => exceptBlockedAddress (p.checkAddress a) url
  | none => .ok ()

/-- `_decide`. -/
protected def Policy.decide (p : Policy) (url : Str) : Except Exc Target := do
  p.rejectOverlong url
  rejectControlCharacters U url
  let split ← splitUrl U url
  let scheme ← p.checkScheme U url split
  p.checkUserinfo url split
  -- the host, the host as written, and the address where it is a literal one
  let named ← checkHost U url split
  let port ← p.checkPort U url split scheme
  p.checkListed U url named.1 named.2.2
  p.checkLiteral url named.2.2
  return ⟨scheme, named.1, port, named.2.1, named.2.2⟩

/-- The decision `check_url` reports on one outcome. -/
def urlDecision (url : Str) : Except Exc Target → Decision
  | .error refused =>
    { stage := .url, outcome := .refused, reason := some (refused.reason U),
      url := some (redacted url) }
  | .ok target =>
    { stage := .url, outcome := .permitted, url := some (redacted url), host := some target.host,
      port := some target.port, address := target.address }

/-- `check_url`: decide, report, and return or raise what was decided. Only a refusal of the library
is reported. -/
def Policy.checkUrl {ω : Type} (p : Policy) (url : Str) (observer : Option (Observer ω)) :
    Prog ω Exc Target :=
  match p.decide U url with
  | .error refused => do
    if refused.isSSRFGuardError then report observer (urlDecision U url (.error refused))
    throw refused
  | .ok target => do
    report observer (urlDecision U url (.ok target))
    return target

/-! ## Every refusal is a `BlockedURLError` -/

/-- Whether an exception is a `BlockedURLError`. -/
def Exc.IsBlockedURL (e : Exc) : Prop := ∃ url reason, e = .blockedURLError url reason

variable {U}

theorem raisesOnly_exceptValueError {α : Type} {x : Except Exc α} {handler : Str → Exc}
    (hx : x.RaisesOnly Exc.IsValueError) (hh : ∀ message, (handler message).IsBlockedURL) :
    (exceptValueError x handler).RaisesOnly Exc.IsBlockedURL := by
  intro e h
  cases x with
  | ok a => cases h
  | error e' =>
      obtain ⟨message, rfl⟩ := hx e' rfl
      cases h
      exact hh message

theorem raisesOnly_splitUrl (url : Str) : (splitUrl U url).RaisesOnly Exc.IsBlockedURL :=
  raisesOnly_exceptValueError (fun _ h => isValueError_of_urlsplit h) fun _ => ⟨_, _, rfl⟩

theorem raisesOnly_classifyHost (url host : Str) :
    (classifyHost U url host).RaisesOnly Exc.IsBlockedURL := by
  unfold classifyHost
  simp only
  split
  · exact .ok _
  · exact .ite (.error ⟨_, _, rfl⟩) (.ite (.error ⟨_, _, rfl⟩) (.ok _))

theorem raisesOnly_checkHost (url : Str) (split : SplitResult) :
    (checkHost U url split).RaisesOnly Exc.IsBlockedURL := by
  unfold checkHost
  split
  · exact .error ⟨_, _, rfl⟩
  · refine .ite (.error ⟨_, _, rfl⟩) (.ite (.error ⟨_, _, rfl⟩) ?_)
    refine .bind (.ite (.error ⟨_, _, rfl⟩) (.ok _)) fun _ => .bind ?_ fun host => ?_
    · intro e h
      obtain ⟨why, rfl⟩ := exists_reason_of_normalise h
      exact ⟨_, _, rfl⟩
    · exact .bind (raisesOnly_classifyHost url host) fun _ => .ok _

theorem Policy.raisesOnly_checkPort (p : Policy) (url : Str) (split : SplitResult) (scheme : Str) :
    (p.checkPort U url split scheme).RaisesOnly Exc.IsBlockedURL := by
  refine .bind (raisesOnly_exceptValueError (fun _ h => SplitResult.isValueError_of_port h)
    fun _ => ⟨_, _, rfl⟩) fun named => ?_
  split
  · exact .error ⟨_, _, rfl⟩
  · exact .ite (.error ⟨_, _, rfl⟩) (.ite (.error ⟨_, _, rfl⟩) (.ok _))

theorem Policy.raisesOnly_checkListed (p : Policy) (url host : Str) (address : Option IPAddress) :
    (p.checkListed U url host address).RaisesOnly Exc.IsBlockedURL :=
  .ite (.ok _) (.ite (.ok _) (.error ⟨_, _, rfl⟩))

theorem Policy.raisesOnly_checkLiteral (p : Policy) (url : Str) (address : Option IPAddress) :
    (p.checkLiteral url address).RaisesOnly Exc.IsBlockedURL := by
  cases address with
  | none => exact .ok _
  | some a =>
      rw [Policy.checkLiteral]
      cases h : p.checkAddress a with
      | ok u => exact .ok _
      | error e =>
          rw [Policy.checkAddress_eq_error h]
          exact .error ⟨_, _, rfl⟩

/-- **Every step refuses in one way**: what `_decide` raises is a `BlockedURLError`. -/
theorem Policy.raisesOnly_decide (p : Policy) (url : Str) :
    (p.decide U url).RaisesOnly Exc.IsBlockedURL := by
  refine .bind (.ite (.error ⟨_, _, rfl⟩) (.ok _)) fun _ => .bind ?_ fun _ =>
    .bind (raisesOnly_splitUrl url) fun split => .bind ?_ fun scheme => .bind ?_ fun _ =>
    .bind (raisesOnly_checkHost url split) fun host =>
    .bind (p.raisesOnly_checkPort url split scheme) fun port =>
    .bind (p.raisesOnly_checkListed url _ _) fun _ =>
    .bind (p.raisesOnly_checkLiteral url _) fun _ => .ok _
  · unfold rejectControlCharacters
    split
    · exact .error ⟨_, _, rfl⟩
    · exact .ok _
  · exact .ite (.error ⟨_, _, rfl⟩) (.ite (.error ⟨_, _, rfl⟩) (.ok _))
  · exact .ite (.ok _) (.ite (.ok _) (.error ⟨_, _, rfl⟩))

/-! ## What a target promises -/

theorem exceptBlockedAddress_eq_ok {α : Type} {x : Except Exc α} {url : Str} {a : α} :
    exceptBlockedAddress x url = .ok a ↔ x = .ok a := by
  unfold exceptBlockedAddress
  split <;> simp

theorem Policy.rejectOverlong_eq_ok {p : Policy} {url : Str} :
    p.rejectOverlong url = .ok () ↔ (url.length : ℤ) ≤ p.maxUrlLength := by
  unfold Policy.rejectOverlong
  split
  · next h => exact iff_of_false (fun hok => absurd hok Except.error_ne_ok) (not_le.mpr h)
  · next h => exact iff_of_true rfl (not_lt.mp h)

theorem rejectControlCharacters_eq_ok {url : Str} :
    rejectControlCharacters U url = .ok () ↔ ∀ c ∈ url, isControlCharacter c = false := by
  unfold rejectControlCharacters
  split
  · next c hc =>
    refine iff_of_false (fun hok => absurd hok Except.error_ne_ok) fun hall => ?_
    have hcontrol := List.find?_some hc
    rw [hall c (List.mem_of_find?_eq_some hc)] at hcontrol
    cases hcontrol
  · next hnone =>
    refine iff_of_true rfl fun c hc => Bool.eq_false_iff.mpr ?_
    exact List.find?_eq_none.mp hnone c hc

/-- What `_decide` asks of a URL, and returns. -/
theorem Policy.decide_eq_ok_iff {p : Policy} {url : Str} {t : Target} :
    p.decide U url = .ok t ↔
      (url.length : ℤ) ≤ p.maxUrlLength ∧ (∀ c ∈ url, isControlCharacter c = false) ∧
      ∃ split, splitUrl U url = .ok split ∧
        p.checkScheme U url split = .ok t.scheme ∧
        p.checkUserinfo url split = .ok () ∧
        checkHost U url split = .ok (t.host, t.hostAsWritten, t.address) ∧
        p.checkPort U url split t.scheme = .ok t.port ∧
        p.checkListed U url t.host t.address = .ok () ∧
        p.checkLiteral url t.address = .ok () := by
  rw [← Policy.rejectOverlong_eq_ok, ← @rejectControlCharacters_eq_ok U url]
  constructor
  · intro h
    simp only [Policy.decide, Except.bind_eq_ok] at h
    obtain ⟨⟨⟩, hshort, ⟨⟩, hclean, split, hsplit, scheme, hscheme, ⟨⟩, huserinfo, named, hnamed, port,
      hport, ⟨⟩, hlisted, ⟨⟩, hliteral, hreturn⟩ := h
    cases hreturn
    exact ⟨hshort, hclean, split, hsplit, hscheme, huserinfo, hnamed, hport, hlisted, hliteral⟩
  · rintro ⟨hshort, hclean, split, hsplit, hscheme, huserinfo, hnamed, hport, hlisted, hliteral⟩
    rw [Policy.decide, hshort, hclean, hsplit]
    dsimp only [bind, Except.bind]
    rw [hscheme, huserinfo, hnamed]
    dsimp only
    rw [hport, hlisted, hliteral]
    rfl

/-- What `_decide` went through on its way to a target. -/
theorem Policy.decide_eq_ok {p : Policy} {url : Str} {t : Target} (h : p.decide U url = .ok t) :
    ∃ split, splitUrl U url = .ok split ∧
      p.checkScheme U url split = .ok t.scheme ∧
      p.checkUserinfo url split = .ok () ∧
      checkHost U url split = .ok (t.host, t.hostAsWritten, t.address) ∧
      p.checkPort U url split t.scheme = .ok t.port ∧
      p.checkListed U url t.host t.address = .ok () ∧
      p.checkLiteral url t.address = .ok () :=
  (Policy.decide_eq_ok_iff.mp h).2.2

theorem Policy.exec_checkUrl_none {ω : Type} (p : Policy) (url : Str) (w : ω) :
    (p.checkUrl U url none).exec w = (p.decide U url, w) := by
  unfold Policy.checkUrl
  cases p.decide U url with
  | ok t => rfl
  | error e =>
      dsimp only
      split
      · rfl
      · rfl

/-- A target that comes out of `check_url` is the one that was decided on. -/
theorem Policy.decide_of_checkUrl {ω : Type} {p : Policy} {url : Str} {observer : Option (Observer ω)}
    {w : ω} {t : Target} (h : ((p.checkUrl U url observer).exec w).1 = .ok t) : p.decide U url = .ok t := by
  unfold Policy.checkUrl at h
  cases hd : p.decide U url with
  | ok target =>
      rw [hd] at h
      dsimp only at h
      rw [Prog.exec_bind] at h
      split at h
      · exact congrArg Except.ok (Except.ok.inj h)
      · exact absurd h Except.error_ne_ok
  | error e =>
      rw [hd] at h
      dsimp only at h
      split at h
      · rw [Prog.exec_bind] at h
        split at h
        · exact absurd h Except.error_ne_ok
        · exact absurd h Except.error_ne_ok
      · exact absurd h Except.error_ne_ok

theorem urlsplit_of_splitUrl {url : Str} {split : SplitResult} (h : splitUrl U url = .ok split) :
    urlsplit U url = .ok split := by
  unfold splitUrl exceptValueError at h
  split at h
  · exact absurd h Except.error_ne_ok
  · exact h

theorem Policy.checkScheme_eq_ok {p : Policy} {url : Str} {split : SplitResult} {scheme : Str} :
    p.checkScheme U url split = .ok scheme ↔
      lower U split.scheme = scheme ∧ scheme ≠ [] ∧ scheme ∈ p.allowedSchemes := by
  unfold Policy.checkScheme
  dsimp only
  by_cases hnil : lower U split.scheme = []
  · rw [if_pos hnil]
    refine iff_of_false Except.error_ne_ok ?_
    rintro ⟨rfl, hne, -⟩
    exact hne hnil
  · by_cases hmem : lower U split.scheme ∈ p.allowedSchemes
    · rw [if_neg hnil, if_neg (not_not.mpr hmem)]
      constructor
      · intro h
        cases h
        exact ⟨rfl, hnil, hmem⟩
      · rintro ⟨rfl, -, -⟩
        rfl
    · rw [if_neg hnil, if_pos hmem]
      refine iff_of_false Except.error_ne_ok ?_
      rintro ⟨rfl, -, hin⟩
      exact hmem hin

theorem Policy.mem_allowedSchemes_of_checkScheme {p : Policy} {url : Str} {split : SplitResult}
    {scheme : Str} (h : p.checkScheme U url split = .ok scheme) : scheme ∈ p.allowedSchemes :=
  (Policy.checkScheme_eq_ok.mp h).2.2

/-- The port of a URL, written out or the one of its scheme, passes where it is allowed. -/
theorem Policy.checkPort_eq_ok {p : Policy} {url : Str} {split : SplitResult} {scheme : Str} {port : ℤ} :
    p.checkPort U url split scheme = .ok port ↔
      ∃ named, split.port U = .ok named ∧ named.or (defaultPorts scheme) = some port ∧
        port ∈ p.allowedPorts := by
  unfold Policy.checkPort
  constructor
  · intro h
    obtain ⟨named, hnamed, h⟩ := Except.bind_eq_ok.mp h
    have hread : split.port U = .ok named := by
      unfold exceptValueError at hnamed
      split at hnamed
      · exact absurd hnamed Except.error_ne_ok
      · exact hnamed
    split at h
    · cases h
    · next found hport =>
      split_ifs at h with hrange hmem
      cases h
      exact ⟨named, hread, hport, hmem⟩
  · rintro ⟨named, hnamed, hport, hallowed⟩
    rw [hnamed]
    dsimp only [exceptValueError, bind, Except.bind]
    rw [hport]
    dsimp only
    rw [if_neg (not_not.mpr (p.wellFormed.ports_in_range port hallowed)), if_neg (not_not.mpr hallowed)]

theorem Policy.mem_allowedPorts_of_checkPort {p : Policy} {url : Str} {split : SplitResult}
    {scheme : Str} {port : ℤ} (h : p.checkPort U url split scheme = .ok port) :
    port ∈ p.allowedPorts := by
  obtain ⟨named, -, -, hallowed⟩ := Policy.checkPort_eq_ok.mp h
  exact hallowed

theorem Policy.checkHostIsListed_eq_ok {p : Policy} {url host : Str} {literal : Bool} :
    p.checkHostIsListed U url host literal = .ok () ↔ hostIsAllowed host p.allowedHosts literal = true := by
  unfold Policy.checkHostIsListed
  split
  · next h => exact iff_of_true rfl h
  · next h =>
    refine iff_of_false (fun hok => ?_) h
    cases hok

theorem Policy.checkListed_eq_ok {p : Policy} {url host : Str} {address : Option IPAddress} :
    p.checkListed U url host address = .ok () ↔
      (p.allowedHosts ≠ [] → hostIsAllowed host p.allowedHosts address.isSome = true) := by
  unfold Policy.checkListed
  split
  · next h => exact iff_of_true rfl fun hne => absurd h hne
  · next h => rw [Policy.checkHostIsListed_eq_ok, forall_prop_of_true h]

theorem Policy.checkLiteral_eq_ok {p : Policy} {url : Str} {address : Option IPAddress} :
    p.checkLiteral url address = .ok () ↔ ∀ a, address = some a → p.checkAddress a = .ok () := by
  cases address with
  | none => exact iff_of_true rfl fun a h => nomatch h
  | some a =>
      rw [Policy.checkLiteral, exceptBlockedAddress_eq_ok]
      refine ⟨fun h b hb => ?_, fun h => h a rfl⟩
      cases hb
      exact h

/-- **The two shapes of a host.** What `_check_host` lets through is the text of an address, and then
that address comes with it, or a name of the grammar that no address is spelled like. -/
theorem shape_of_classifyHost {url host : Str} {address : Option IPAddress}
    (h : classifyHost U url host = .ok address) :
    (∃ a, ipAddress U host = .ok a ∧ address = some a) ∨
      hostnameMatch host = true ∧ (∃ e, ipAddress U host = .error e) ∧ address = none := by
  have hliteral : literalAddress U host = parseAddress host := literalAddress_eq U host
  unfold classifyHost at h
  simp only at h
  split at h
  · next a ha =>
      cases h
      -- the shape test let it through, and the literal parser read it
      split_ifs at ha with hshape
      rw [hliteral] at ha
      exact Or.inl ⟨a, ipAddress_eq_ok.mpr ha, rfl⟩
  · next hnone =>
      -- digits and dots alone are refused, so the grammar is what is left
      split_ifs at h with hnumeric hname
      cases h
      refine Or.inr ⟨by simpa using hname, ?_, rfl⟩
      cases hp : ipAddress U host with
      | error e => exact ⟨e, rfl⟩
      | ok a =>
          -- a literal the shape test turned away: it would hold a colon or only digits and dots
          exfalso
          have hparse : parseAddress host = some a := ipAddress_eq_ok.mp hp
          have hshape : (numericShaped host || decide (ord ':' ∈ host)) = true := by
            rw [Bool.or_eq_true, decide_eq_true_eq]
            rcases shape_of_parseAddress hparse with hdigits | hcolon
            · left
              refine numericShaped_of_isDigitsAndDots ?_ hdigits
              rintro rfl
              have hempty : parseAddress [] = none := by decide
              rw [hempty] at hparse
              cases hparse
            · exact Or.inr hcolon
          rw [if_pos hshape, hliteral, hparse] at hnone
          cases hnone

/-- What `_check_host` asks of a host, and returns. -/
theorem checkHost_eq_ok {url : Str} {split : SplitResult} {host asWritten : Str} {address : Option IPAddress} :
    checkHost U url split = .ok (host, asWritten, address) ↔
      split.hostname U = some asWritten ∧ asWritten ≠ [] ∧ ord '%' ∉ asWritten ∧
        asWritten.length ≤ longestHostname ∧ normalise U url asWritten = .ok host ∧
        classifyHost U url host = .ok address := by
  constructor
  · intro h
    unfold checkHost at h
    split at h
    · cases h
    · next raw hraw =>
      split_ifs at h with hempty hpercent
      obtain ⟨⟨⟩, hshort, h⟩ := Except.bind_eq_ok.mp h
      obtain ⟨normalised, hnormalise, h⟩ := Except.bind_eq_ok.mp h
      obtain ⟨literal, hclassify, h⟩ := Except.bind_eq_ok.mp h
      cases h
      refine ⟨hraw, hempty, hpercent, ?_, hnormalise, hclassify⟩
      unfold rejectOverlongHost at hshort
      split_ifs at hshort with hlong
      exact not_lt.mp hlong
  · rintro ⟨hraw, hempty, hpercent, hshort, hnormalise, hclassify⟩
    unfold checkHost
    have hfits : rejectOverlongHost asWritten = .ok () := by
      unfold rejectOverlongHost
      rw [if_neg (not_lt.mpr hshort)]
    rw [hraw]
    dsimp only
    rw [if_neg hempty, if_neg hpercent, hfits, hnormalise]
    dsimp only [bind, Except.bind]
    rw [hclassify]
    rfl

/-- What a host is does not depend on the URL a refusal would quote. -/
theorem classifyHost_eq_ok_of {url other host : Str} {address : Option IPAddress}
    (h : classifyHost U url host = .ok address) : classifyHost U other host = .ok address := by
  unfold classifyHost at h ⊢
  simp only at h ⊢
  split at h
  · exact h
  · split_ifs at h with hnumeric hname
    rw [if_neg hnumeric, if_neg hname]
    exact h

theorem shape_of_checkHost {url : Str} {split : SplitResult} {host asWritten : Str}
    {address : Option IPAddress} (h : checkHost U url split = .ok (host, asWritten, address)) :
    (∃ a, ipAddress U host = .ok a ∧ address = some a) ∨
      hostnameMatch host = true ∧ (∃ e, ipAddress U host = .error e) ∧ address = none := by
  obtain ⟨-, -, -, -, -, hclassify⟩ := checkHost_eq_ok.mp h
  exact shape_of_classifyHost hclassify

/-- The address `check_url` has found in a host is the one its text spells. -/
theorem literalAddress_of_checkHost {url : Str} {split : SplitResult} {host asWritten : Str}
    {address : Option IPAddress} (h : checkHost U url split = .ok (host, asWritten, address)) :
    literalAddress U host = address := by
  unfold literalAddress
  rcases shape_of_checkHost h with ⟨a, ha, rfl⟩ | ⟨-, ⟨e, he⟩, rfl⟩
  · rw [ha]
  · rw [he]

/-- **Deciding a URL.** Whatever the policy, the text and the observer, `check_url` raises
`BlockedURLError` and nothing else, an observer's own `BaseException` apart; and a target it returns
has an allowed scheme and an allowed port, is listed where hosts are listed, and names either a
literal, whose parsed address it carries and the policy permits, or a name of the hostname grammar
that `ip_address` rejects, and then it carries no address. -/
theorem Policy.checkUrl_correct {ω : Type} (U : Unicode) (p : Policy) (url : Str)
    (observer : Option (Observer ω)) (w : ω) :
    match ((p.checkUrl U url observer).exec w).1 with
    | .ok t =>
      t.scheme ∈ p.allowedSchemes ∧ t.port ∈ p.allowedPorts ∧
        (p.allowedHosts ≠ [] → hostIsAllowed t.host p.allowedHosts t.address.isSome = true) ∧
        ((∃ a, ipAddress U t.host = .ok a ∧ t.address = some a ∧ p.checkAddress a = .ok ()) ∨
          hostnameMatch t.host = true ∧ (∃ e, ipAddress U t.host = .error e) ∧ t.address = none)
    | .error e =>
      e.IsBlockedURL ∨ ∃ callback decision v', observer = some callback ∧
        (callback decision).exec w = (.error e, v') ∧ e.isException = false := by
  unfold Policy.checkUrl
  cases hd : p.decide U url with
  | error refused =>
      have hblocked : refused.IsBlockedURL := p.raisesOnly_decide url refused hd
      have hguard : refused.isSSRFGuardError = true := by
        obtain ⟨u, why, rfl⟩ := hblocked
        rfl
      simp only [hguard, if_true, Prog.exec_bind]
      cases hr : (report observer (urlDecision U url (.error refused))).exec w with
      | mk result v =>
          cases result with
          | ok u => exact Or.inl hblocked
          | error e =>
              obtain ⟨callback, hcallback, hexec, he⟩ := exec_report_error hr
              exact Or.inr ⟨callback, _, v, hcallback, hexec, he⟩
  | ok t =>
      simp only [Prog.exec_bind]
      cases hr : (report observer (urlDecision U url (.ok t))).exec w with
      | mk result v =>
          cases result with
          | error e =>
              obtain ⟨callback, hcallback, hexec, he⟩ := exec_report_error hr
              exact Or.inr ⟨callback, _, v, hcallback, hexec, he⟩
          | ok u =>
              obtain ⟨split, -, hscheme, -, hhost, hport, hlisted, hliteral⟩ := Policy.decide_eq_ok hd
              refine ⟨Policy.mem_allowedSchemes_of_checkScheme hscheme,
                Policy.mem_allowedPorts_of_checkPort hport,
                Policy.checkListed_eq_ok.mp hlisted, ?_⟩
              rcases shape_of_checkHost hhost with ⟨a, ha, hta⟩ | hname
              · rw [hta] at hliteral
                exact Or.inl ⟨a, ha, hta, exceptBlockedAddress_eq_ok.mp hliteral⟩
              · exact Or.inr hname

end SsrfGuard
