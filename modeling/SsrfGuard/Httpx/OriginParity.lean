import SsrfGuard.Httpx.Backend

/-! # The origin check of the backends and of `check_url`

A backend is handed the host and the port of a URL that `check_url` has read, and asks the two questions
it can answer: is the port allowed, and is the host listed. `check_url` knows whether the host is a
literal because it has just parsed it, and only where its shape allows one; the backend asks the parser
again. The two agree on every URL. -/

namespace SsrfGuard

variable {U : Unicode} {p : Policy} {url : Str} {split : SplitResult} {scheme host asWritten : Str}
  {port : ℤ} {address : Option IPAddress}

/-- How far `check_url` has come when it asks about the port and the list of hosts: the scheme and the
credentials have passed, and the host, the port and the address the host spells are known. -/
structure Parsed (U : Unicode) (p : Policy) (url : Str) (split : SplitResult) (scheme host asWritten : Str)
    (port : ℤ) (address : Option IPAddress) : Prop where
  /-- The URL is not too long. -/
  short : p.rejectOverlong url = .ok ()
  /-- It holds no control character. -/
  clean : rejectControlCharacters U url = .ok ()
  /-- It has been split. -/
  split_eq : splitUrl U url = .ok split
  /-- Its scheme is allowed. -/
  scheme_eq : p.checkScheme U url split = .ok scheme
  /-- Its credentials, if any, are. -/
  userinfo : p.checkUserinfo url split = .ok ()
  /-- Its host has been read. -/
  host_eq : checkHost U url split = .ok (host, asWritten, address)
  /-- It names a port, or its scheme has one. -/
  port_eq : ∃ named, split.port U = .ok named ∧ named.or (defaultPorts scheme) = some port

/-- The port rule refuses the ports that are not allowed, an allowed one being a port. -/
theorem Parsed.checkPort_eq (h : Parsed U p url split scheme host asWritten port address) :
    (port ∈ p.allowedPorts → p.checkPort U url split scheme = .ok port) ∧
      (port ∉ p.allowedPorts → ∃ e, p.checkPort U url split scheme = .error e) := by
  obtain ⟨named, hnamed, hport⟩ := h.port_eq
  refine ⟨fun hallowed => Policy.checkPort_eq_ok.mpr ⟨named, hnamed, hport, hallowed⟩, fun hnot => ?_⟩
  cases hcheck : p.checkPort U url split scheme with
  | error e => exact ⟨e, rfl⟩
  | ok other =>
      -- the rule can only return the port that has been read
      obtain ⟨named', hnamed', hother, hallowed⟩ := Policy.checkPort_eq_ok.mp hcheck
      rw [hnamed] at hnamed'
      cases hnamed'
      rw [hport] at hother
      cases hother
      exact absurd hallowed hnot

theorem checkOriginPort_eq_error_iff :
    (∃ e, checkOriginPort p port = .error e) ↔ port ∉ p.allowedPorts := by
  unfold checkOriginPort
  split
  · next h => exact iff_of_true ⟨_, rfl⟩ h
  · next h =>
    refine iff_of_false ?_ h
    rintro ⟨e, he⟩
    cases he

/-- The list of hosts is asked the same question on both sides. -/
theorem Parsed.checkListed_eq_error_iff (h : Parsed U p url split scheme host asWritten port address) :
    (∃ e, p.checkHostOnly U host = .error e) ↔ ∃ e, p.checkListed U url host address = .error e := by
  unfold Policy.checkHostOnly Policy.checkListed
  rw [literalAddress_of_checkHost h.host_eq]
  split
  · rfl
  · unfold Policy.checkHostIsListed
    split
    · rfl
    · exact iff_of_true ⟨_, rfl⟩ ⟨_, rfl⟩

/-- From there on `check_url` asks about the port, the list of hosts, and the address of a literal. -/
theorem Parsed.decide_eq (h : Parsed U p url split scheme host asWritten port address) :
    p.decide U url = (do
      let port ← p.checkPort U url split scheme
      p.checkListed U url host address
      p.checkLiteral url address
      return ⟨scheme, host, port, asWritten, address⟩) := by
  rw [Policy.decide, h.short, h.clean, h.split_eq]
  dsimp only [bind, Except.bind]
  rw [h.scheme_eq, h.userinfo, h.host_eq]

/-- **The seam asks what `check_url` asks.** Once a URL has been read to a host, a port and the address
the host spells, what is left of `check_url` is its port rule, its rule on the list of hosts and the
check of the address; the seam refuses the port exactly when the first does and the host exactly when the
second does, and so it refuses the origin exactly when one of them refuses the URL. -/
theorem checkOrigin_eq_error_iff (h : Parsed U p url split scheme host asWritten port address) :
    (p.decide U url = (do
      let port ← p.checkPort U url split scheme
      p.checkListed U url host address
      p.checkLiteral url address
      return ⟨scheme, host, port, asWritten, address⟩)) ∧
    ((∃ e, checkOriginPort p port = .error e) ↔ ∃ e, p.checkPort U url split scheme = .error e) ∧
    ((∃ e, p.checkHostOnly U host = .error e) ↔ ∃ e, p.checkListed U url host address = .error e) ∧
    ((∃ e, checkOrigin U p host port = .error e) ↔
      (∃ e, p.checkPort U url split scheme = .error e) ∨
        ∃ e, p.checkListed U url host address = .error e) := by
  have hport : (∃ e, checkOriginPort p port = .error e) ↔ ∃ e, p.checkPort U url split scheme = .error e := by
    rw [checkOriginPort_eq_error_iff]
    refine ⟨h.checkPort_eq.2, ?_⟩
    rintro ⟨e, he⟩ hallowed
    rw [h.checkPort_eq.1 hallowed] at he
    cases he
  refine ⟨h.decide_eq, hport, h.checkListed_eq_error_iff, ?_⟩
  rw [← hport, ← h.checkListed_eq_error_iff]
  unfold checkOrigin
  cases hchecked : checkOriginPort p port with
  | error e => exact iff_of_true ⟨e, rfl⟩ (.inl ⟨e, rfl⟩)
  | ok u =>
      refine ⟨fun hrefused => .inr hrefused, fun hrefused => ?_⟩
      rcases hrefused with ⟨e, he⟩ | hrefused
      · cases he
      · exact hrefused

/-- A URL on a port that is not allowed: both refuse it. -/
theorem checkOrigin_eq_error_otherPort :
    (∃ e, checkOrigin Unicode.ascii Policy.default (text "a") 8080 = .error e) := by
  have hparsed : Parsed Unicode.ascii Policy.default (text "http://a:8080/")
      ⟨text "http", text "a:8080"⟩ (text "http") (text "a") (text "a") 8080 none :=
    { short := by decide +kernel
      clean := by decide +kernel
      split_eq := by decide +kernel
      scheme_eq := by decide +kernel
      userinfo := by decide +kernel
      host_eq := by decide +kernel
      port_eq := ⟨some 8080, by decide +kernel, by decide +kernel⟩ }
  exact (checkOrigin_eq_error_iff hparsed).2.2.2.mpr (.inl ⟨_, rfl⟩)

end SsrfGuard
