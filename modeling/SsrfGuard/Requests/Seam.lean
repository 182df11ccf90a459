import SsrfGuard.Connect
import SsrfGuard.Requests.Origin

/-! # The connection seam of the requests adapter

`_pinned_socket` opens the socket of a connection: it writes the origin of the connection as a URL, asks
`check_url`, resolves what comes back, and connects. The URL it asks about is not the one the request was
made for, only its origin, so two rules that measure a text measure another one here: `max_url_length`,
which the path and the port take part in, and the longest host, which is the A-label form where the request
was measured as it was written. -/

namespace SsrfGuard

variable {σ : Type} (U : Unicode)

/-! ## The seam -/

/-- What `_pinned_socket` raises. -/
inductive SeamExc
  /-- An exception no handler of the seam touched. -/
  | untranslated (e : Exc)
  /-- `NameResolutionError(host, ...)`, with its cause. -/
  | nameResolutionError (host : Str) (cause : Exc)
  /-- `ConnectTimeoutError`, whose message is made of a host and a timeout, with its cause. -/
  | connectTimeoutError (host : Str) (timeout : Option ℚ) (cause : Exc)
  /-- `NewConnectionError`. -/
  | newConnectionError (message : Str)
  deriving DecidableEq

/-- A connection of urllib3, as far as the seam reads it. -/
structure HTTPConnection where
  /-- The scheme of the pool class. -/
  scheme : Str
  /-- `_dns_host`. -/
  dnsHost : Str
  /-- `port`. -/
  port : ℤ
  /-- `_tunnel_host`. -/
  tunnelHost : Option Str := none
  /-- `timeout`, `source_address` and `socket_options`. -/
  options : ConnectOptions := {}

namespace HTTPConnection

/-- `host`: the name without the dots of an absolute one. -/
def host (connection : HTTPConnection) : Str := rstripDots connection.dnsHost

/-- The three handlers of `_pinned_socket`. -/
def translated (connection : HTTPConnection) (e : Exc) : SeamExc :=
  if e.isGaierror then .nameResolutionError connection.host e
  else if e.isTimeoutError then .connectTimeoutError connection.host connection.options.timeout e
  else if e.isOSError then .newConnectionError (text "Failed to establish a new connection: " ++ e.str U)
  else .untranslated e

end HTTPConnection

/-- `_pinned_socket`, with the hooks of `sys.audit` as a program over the outside. -/
def pinnedSocket (p : Policy) (connection : HTTPConnection) (resolver : Resolver σ) (kernel : Kernel σ)
    (audit : Prog σ Exc Unit) (observer : Option (Observer σ)) : Prog (World σ) SeamExc SockId :=
  if connection.tunnelHost.isSome then
    throw (.untranslated
      (.proxyUnsupportedError (connection.host ++ text ":" ++ intText connection.port)))
  else do
    let target ← Prog.mapError .untranslated
      (p.checkUrl U (origin connection.scheme connection.dnsHost connection.port) (outside observer))
    let opened ← Prog.mapError (connection.translated U) do
      let addresses ← resolve U p target resolver observer
      connect U p kernel addresses connection.options observer
    Prog.mapError .untranslated (Prog.zoom World.env (fun w env => { w with env := env }) audit)
    pure opened

/-! ## Asked twice -/

variable {U}

/-- The condition under which the origin of a URL passes the rules that measure a text: it is not longer
than a URL may be, its host in the A-label form is not longer than DNS can carry, and holds neither a `%`
nor the newline that the end of the grammar tolerates. -/
def Policy.Reopens (U : Unicode) (p : Policy) (url : Str) : Prop :=
  ∀ split raw host named port, splitUrl U url = .ok split → split.hostname U = some raw →
    normalise U url raw = .ok host → split.port U = .ok named →
    named.or (defaultPorts (lower U split.scheme)) = some port →
    ((origin (lower U split.scheme) host port).length : ℤ) ≤ p.maxUrlLength ∧
      host.length ≤ longestHostname ∧ ord '%' ∉ host ∧ 0x0A ∉ host

theorem isOriginChar_of_isAddressChar {c : ℕ} (h : isAddressChar c = true) : isOriginChar c = true := by
  simp only [isAddressChar, Bool.or_eq_true, beq_iff_eq] at h
  rcases h with (hhex | rfl) | rfl
  · unfold hexValue at hhex
    simp only [isOriginChar, isLetter, Bool.or_eq_true, Bool.and_eq_true, decide_eq_true_eq, beq_iff_eq]
    split_ifs at hhex with hdigit hlower hupper
    · exact .inl (.inl (.inl (.inr hdigit)))
    · exact .inl (.inl (.inl (.inl (by omega))))
    · exact .inl (.inl (.inl (.inl (by omega))))
    · cases hhex
  · decide
  · decide

theorem isOriginChar_of_isHostChar {c : ℕ} (h : isHostChar c = true) (hascii : c < 0x80) :
    isOriginChar c = true := by
  simp only [isHostChar, isHostAlnum, isHostLetter, Bool.or_eq_true, beq_iff_eq] at h
  simp only [isOriginChar, Bool.or_eq_true, beq_iff_eq]
  rcases h with ((((hletter | h) | h) | h) | h) | h
  · rcases hletter with hletter | h
    · exact .inl (.inl (.inl (.inl hletter)))
    · omega
  · omega
  · omega
  · omega
  · exact .inl (.inl (.inl (.inr h)))
  · exact .inl (.inl (.inr h))

/-- A literal with a colon is an address of version 6. -/
theorem exists_v6_of_parseAddress {host : Str} {a : IPAddress} (h : parseAddress host = some a)
    (hcolon : ord ':' ∈ host) : ∃ ip zone, a = .v6 ip zone := by
  rw [parseAddress] at h
  split at h
  · cases h
  · split at h
    · next ip hip =>
      have hdigits := List.all_eq_true.mp (isDigitsAndDots_of_ipv4FromString hip) _ hcolon
      exact absurd hdigits (by decide)
    · obtain ⟨parts, -, h⟩ := Option.bind_eq_some_iff.mp h
      obtain ⟨ip, -, rfl⟩ := Option.map_eq_some_iff.mp h
      exact ⟨ip, parts.2, rfl⟩

/-- The host of a target is made of characters an origin can carry. -/
theorem isOriginChar_of_classifyHost {url host : Str} {address : Option IPAddress}
    (h : classifyHost U url host = .ok address) (hascii : isAscii host = true) (hpercent : ord '%' ∉ host)
    (hnewline : 0x0A ∉ host) : ∀ c ∈ host, isOriginChar c = true := by
  intro c hc
  rcases shape_of_classifyHost h with ⟨a, ha, -⟩ | ⟨hname, -, -⟩
  · obtain ⟨addr, zone, hhost, -, hchars, hzone⟩ := exists_zone_of_parseAddress (ipAddress_eq_ok.mp ha)
    rcases hzone with rfl | hzone
    · rw [hhost, List.append_nil] at hc
      exact isOriginChar_of_isAddressChar (hchars c hc)
    · refine absurd ?_ hpercent
      rw [hhost]
      exact List.mem_append_right _ (List.mem_of_head? hzone)
  · by_cases hdot : c = ord '.'
    · rw [hdot]
      decide
    · have hlt := of_decide_eq_true (List.all_eq_true.mp hascii c hc)
      exact isOriginChar_of_isHostChar (isHostChar_of_hostnameMatch hname hnewline hc hdot) hlt

theorem ne_nil_of_classifyHost {url host : Str} {address : Option IPAddress}
    (h : classifyHost U url host = .ok address) : host ≠ [] := by
  rintro rfl
  rcases shape_of_classifyHost h with ⟨a, ha, -⟩ | ⟨hname, -, -⟩
  · have hnil : parseAddress [] = none := by decide
    rw [ipAddress_eq_ok, hnil] at ha
    cases ha
  · exact absurd hname (by decide)

/-- The scheme of a target is the one `urlsplit` has read. -/
theorem scheme_of_checkScheme {p : Policy} {url scheme : Str} {split : SplitResult}
    (hsplit : splitUrl U url = .ok split) (h : p.checkScheme U url split = .ok scheme) :
    scheme.head?.any isLetter = true ∧ scheme.all isSchemeChar = true ∧ scheme.map lowerChar = scheme := by
  obtain ⟨hlower, hne, -⟩ := Policy.checkScheme_eq_ok.mp h
  have hscheme : split.scheme = (splitScheme (cleaned url)).1 := by
    rw [urlsplit_eq_ok (urlsplit_of_splitUrl hsplit)]
  have hread : (splitScheme (cleaned url)).1 ≠ [] := by
    intro hnil
    rw [hscheme, hnil] at hlower
    exact hne hlower.symm
  obtain ⟨hhead, hchars, hmap⟩ := scheme_of_splitScheme hread
  have hascii : isAscii split.scheme = true := by
    rw [hscheme]
    exact isAscii_of_isSchemeChar hchars
  rw [lower_of_isAscii U hascii, hscheme, hmap] at hlower
  rw [← hlower]
  exact ⟨hhead, hchars, hmap⟩

/-- The pieces of a target make an origin that can be read back. -/
theorem originPieces_of_decide {p : Policy} {url : Str} {t : Target} (h : p.decide U url = .ok t)
    (hpercent : ord '%' ∉ t.host) (hnewline : 0x0A ∉ t.host) : OriginPieces t.scheme t.host t.port := by
  obtain ⟨split, hsplit, hscheme, -, hhost, hport, -, -⟩ := Policy.decide_eq_ok h
  obtain ⟨hhead, hschars, hslower⟩ := scheme_of_checkScheme hsplit hscheme
  obtain ⟨-, -, -, -, hnormalise, hclassify⟩ := checkHost_eq_ok.mp hhost
  exact
    { scheme_head := hhead
      scheme_chars := hschars
      scheme_lower := hslower
      host_ne := ne_nil_of_classifyHost hclassify
      host_chars := isOriginChar_of_classifyHost hclassify (isAscii_of_normalise hnormalise) hpercent hnewline
      host_lower := map_lowerChar_of_normalise hnormalise
      literal := by
        intro hcolon
        rcases shape_of_classifyHost hclassify with ⟨a, ha, -⟩ | ⟨hname, -, -⟩
        · obtain ⟨ip, zone, rfl⟩ := exists_v6_of_parseAddress (ipAddress_eq_ok.mp ha) hcolon
          exact ⟨ip, zone, ipAddress_eq_ok.mp ha⟩
        · exact absurd (isHostChar_of_hostnameMatch hname hnewline hcolon (by decide)) (by decide)
      port_range := p.wellFormed.ports_in_range _ (Policy.mem_allowedPorts_of_checkPort hport) }

/-- Asked about its own origin, `check_url` decides as it did, where the two rules on lengths agree. -/
theorem decide_origin {p : Policy} {url : Str} {t : Target} (h : p.decide U url = .ok t)
    (hlength : ((origin t.scheme t.host t.port).length : ℤ) ≤ p.maxUrlLength)
    (hshort : t.host.length ≤ longestHostname) (hpercent : ord '%' ∉ t.host) (hnewline : 0x0A ∉ t.host) :
    p.decide U (origin t.scheme t.host t.port) = .ok { t with hostAsWritten := t.host } := by
  have hpieces := originPieces_of_decide h hpercent hnewline
  obtain ⟨split, -, hscheme, -, hhost, hport, hlisted, hliteral⟩ := Policy.decide_eq_ok h
  obtain ⟨-, hschemene, hallowed⟩ := Policy.checkScheme_eq_ok.mp hscheme
  obtain ⟨-, -, -, -, hnormalise, hclassify⟩ := checkHost_eq_ok.mp hhost
  have hascii := isAscii_of_normalise hnormalise
  refine Policy.decide_eq_ok_iff.mpr ⟨hlength, fun c hc => hpieces.origin_printable hc,
    ⟨t.scheme, originNetloc t.host t.port⟩, ?_, ?_, ?_, ?_, ?_, ?_, ?_⟩
  · rw [splitUrl, hpieces.urlsplit_origin]
    rfl
  -- the scheme was lower-cased already, and stays what it was
  · refine Policy.checkScheme_eq_ok.mpr ⟨?_, hschemene, hallowed⟩
    rw [lower_of_isAscii U (isAscii_of_isSchemeChar hpieces.scheme_chars), hpieces.scheme_lower]
  · have hnone : (⟨t.scheme, originNetloc t.host t.port⟩ : SplitResult).username = none ∧
        (⟨t.scheme, originNetloc t.host t.port⟩ : SplitResult).password = none := by
      rw [SplitResult.username, SplitResult.password, hpieces.userinfo_netloc]
      exact ⟨rfl, rfl⟩
    unfold Policy.checkUserinfo
    rw [if_pos hnone, ite_self]
  -- and so was the host, which is measured in the form it has now
  · refine checkHost_eq_ok.mpr ⟨hpieces.hostname_netloc, hpieces.host_ne, hpercent, hshort, ?_,
      classifyHost_eq_ok_of hclassify⟩
    rw [normalise, if_pos hascii, hpieces.host_lower]
  · exact Policy.checkPort_eq_ok.mpr
      ⟨some t.port, hpieces.port_netloc, rfl, Policy.mem_allowedPorts_of_checkPort hport⟩
  · exact Policy.checkListed_eq_ok.mpr (Policy.checkListed_eq_ok.mp hlisted)
  · exact Policy.checkLiteral_eq_ok.mpr (Policy.checkLiteral_eq_ok.mp hliteral)

/-- What the origin is asked to be, where `check_url` returns the same host for it. -/
theorem lengths_of_decide_origin {p : Policy} {url : Str} {t again : Target} (h : p.decide U url = .ok t)
    (hagain : p.decide U (origin t.scheme t.host t.port) = .ok again) (hsame : again.host = t.host) :
    ((origin t.scheme t.host t.port).length : ℤ) ≤ p.maxUrlLength ∧ t.host.length ≤ longestHostname ∧
      ord '%' ∉ t.host ∧ 0x0A ∉ t.host := by
  obtain ⟨split, hsplit, hscheme, -, hhost, hport, -, -⟩ := Policy.decide_eq_ok h
  obtain ⟨hlength, hclean, split', hsplit', -, -, hhost', -, -, -⟩ := Policy.decide_eq_ok_iff.mp hagain
  obtain ⟨hraw, -, hpercent, hshort, hnormalise', -⟩ := checkHost_eq_ok.mp hhost'
  obtain ⟨-, -, -, -, hnormalise, -⟩ := checkHost_eq_ok.mp hhost
  -- every piece of the origin is ASCII, so the host that is read out of it is only lower-cased
  have horigin : isAscii (origin t.scheme t.host t.port) = true := by
    have hschars := (scheme_of_checkScheme hsplit hscheme).2.1
    have hrange := p.wellFormed.ports_in_range _ (Policy.mem_allowedPorts_of_checkPort hport)
    exact isAscii_origin hschars (isAscii_of_normalise hnormalise) hrange.1
  have hnetloc : split'.netloc ⊆ origin t.scheme t.host t.port := by
    rw [urlsplit_eq_ok (urlsplit_of_splitUrl hsplit')]
    intro c hc
    exact cleaned_subset _ (splitScheme_subset _ (netlocOf_subset _ hc))
  have hrawAscii := SplitResult.isAscii_hostname hraw (isAscii_of_subset hnetloc horigin)
  have hlowered : t.host = again.hostAsWritten.map lowerChar := by
    rw [← hsame, eq_of_normalise hnormalise' hrawAscii]
  refine ⟨hlength, ?_, ?_, fun hnewline => ?_⟩
  · rw [hlowered, List.length_map]
    exact hshort
  · rw [hlowered]
    exact fun hmem => hpercent (mem_of_mem_map_lowerChar (by decide) hmem)
  · exact absurd (hclean _ (host_subset_origin hnewline)) (by decide)

/-- **The seam asks again.** Of a URL that `check_url` accepts, the check at the connection seam accepts the
origin, with the same scheme, host, port and address, exactly where the origin passes the rules that measure
a text: the ceiling on a URL, which is put on a text that spells out the port and ends in a slash, and the
longest host, which is put on the A-label form. -/
theorem Policy.checkUrl_origin_iff {ω : Type} {p : Policy} {url : Str} {t : Target}
    {observer : Option (Observer ω)} {w : ω} (h : ((p.checkUrl U url observer).exec w).1 = .ok t) (v : ω) :
    (∃ again, ((p.checkUrl U (origin t.scheme t.host t.port) none).exec v).1 = .ok again ∧
      again.scheme = t.scheme ∧ again.host = t.host ∧ again.port = t.port ∧ again.address = t.address) ↔
      p.Reopens U url := by
  have hdecided := Policy.decide_of_checkUrl h
  obtain ⟨split, hsplit, hscheme, -, hhost, hport, -, -⟩ := Policy.decide_eq_ok hdecided
  obtain ⟨hlower, -, -⟩ := Policy.checkScheme_eq_ok.mp hscheme
  obtain ⟨hraw, -, -, -, hnormalise, -⟩ := checkHost_eq_ok.mp hhost
  obtain ⟨named, hnamed, hportEq, -⟩ := Policy.checkPort_eq_ok.mp hport
  rw [Policy.exec_checkUrl_none]
  constructor
  · rintro ⟨again, hagain, -, hsame, -, -⟩ split' raw host named' port hsplit' hraw' hnormalise' hnamed' hport'
    obtain rfl := Except.ok.inj (hsplit.symm.trans hsplit')
    obtain rfl := Option.some.inj (hraw.symm.trans hraw')
    obtain rfl := Except.ok.inj (hnormalise.symm.trans hnormalise')
    obtain rfl := Except.ok.inj (hnamed.symm.trans hnamed')
    rw [hlower] at hport' ⊢
    obtain rfl := Option.some.inj (hportEq.symm.trans hport')
    exact lengths_of_decide_origin hdecided hagain hsame
  · intro hreopens
    rw [← hlower] at hportEq
    obtain ⟨hlength, hshort, hpercent, hnewline⟩ :=
      hreopens split t.hostAsWritten t.host named t.port hsplit hraw hnormalise hnamed hportEq
    rw [hlower] at hlength
    exact ⟨_, decide_origin hdecided hlength hshort hpercent hnewline, rfl, rfl, rfl, rfl⟩

/-- `Policy(max_url_length=10)`. -/
def tenCharacters : Policy :=
  ⟨{ maxUrlLength := 10 }, (@PolicyFields.objection_eq_none .ascii _).mp (by decide +kernel)⟩

/-- `http://a.b` is short enough, and its origin is not: the port and the slash are added. -/
theorem Policy.origin_overlong :
    ∃ t, ((tenCharacters.checkUrl .ascii (text "http://a.b") none).exec ()).1 = .ok t ∧
      ¬ ∃ again, ((tenCharacters.checkUrl .ascii (origin t.scheme t.host t.port) none).exec ()).1 = .ok again ∧
        again.scheme = t.scheme ∧ again.host = t.host ∧ again.port = t.port ∧ again.address = t.address := by
  refine ⟨⟨text "http", text "a.b", 80, text "a.b", none⟩, by decide +kernel, ?_⟩
  rintro ⟨again, hagain, -⟩
  have hrefused : ((tenCharacters.checkUrl .ascii (origin (text "http") (text "a.b") 80) none).exec ()).1.isOk =
      false := by decide +kernel
  rw [hagain] at hrefused
  cases hrefused

/-- An address in brackets, under the default policy. -/
theorem Policy.checkUrl_origin_literal :
    ∃ again, ((Policy.default.checkUrl .ascii (origin (text "https") (text "2606:4700::1111") 443) none).exec ()).1 =
      .ok again ∧ again.host = text "2606:4700::1111" := by
  have haccepted : ((Policy.default.checkUrl .ascii (text "https://[2606:4700::1111]/a") none).exec ()).1 =
      .ok ⟨text "https", text "2606:4700::1111", 443, text "2606:4700::1111",
        some (.v6 0x26064700000000000000000000001111#128 none)⟩ := by decide +kernel
  have hreopens : Policy.default.Reopens .ascii (text "https://[2606:4700::1111]/a") := by
    intro split raw host named port hsplit hraw hnormalise hnamed hport
    have hread : splitUrl .ascii (text "https://[2606:4700::1111]/a") =
        .ok ⟨text "https", text "[2606:4700::1111]"⟩ := by decide +kernel
    obtain rfl := Except.ok.inj (hread.symm.trans hsplit)
    have hname : (⟨text "https", text "[2606:4700::1111]"⟩ : SplitResult).hostname .ascii =
        some (text "2606:4700::1111") := by decide +kernel
    obtain rfl := Option.some.inj (hname.symm.trans hraw)
    have hascii : normalise .ascii (text "https://[2606:4700::1111]/a") (text "2606:4700::1111") =
        .ok (text "2606:4700::1111") := by decide +kernel
    obtain rfl := Except.ok.inj (hascii.symm.trans hnormalise)
    have hdefault : (⟨text "https", text "[2606:4700::1111]"⟩ : SplitResult).port .ascii = .ok none := by
      decide +kernel
    obtain rfl := Except.ok.inj (hdefault.symm.trans hnamed)
    have hhttps : (none : Option ℤ).or (defaultPorts (lower .ascii (text "https"))) = some 443 := by
      decide +kernel
    obtain rfl := Option.some.inj (hhttps.symm.trans hport)
    decide +kernel
  obtain ⟨again, hagain, -, hhost, -⟩ := (Policy.checkUrl_origin_iff haccepted ()).mpr hreopens
  exact ⟨again, hagain, hhost⟩

end SsrfGuard
