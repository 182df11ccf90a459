import SsrfGuard.Policy.CheckUrl

/-! # The origin of a connection, as a URL

Where the requests adapter opens a connection it holds a scheme, a host and a port. It writes them as a URL
for `check_url` to read, so what matters is that the text reads back as the pieces it was written from:
the scheme ends at the first colon, the authority at the last slash, and a host with colons of its own
stands in brackets. -/

namespace SsrfGuard

variable {U : Unicode} {scheme host : Str} {port : ℤ}

/-- `f"[{host}]" if ":" in host else host`. -/
def originHost (host : Str) : Str := if ord ':' ∈ host then text "[" ++ host ++ text "]" else host

/-- The authority of an origin. -/
def originNetloc (host : Str) (port : ℤ) : Str := originHost host ++ ord ':' :: intText port

/-- `_origin`: the URL that names an origin and nothing else. -/
def origin (scheme host : Str) (port : ℤ) : Str :=
  scheme ++ text "://" ++ originNetloc host port ++ text "/"

/-- A host without a colon stands as it is. -/
theorem originNetloc_of_name (hname : ord ':' ∉ host) : originNetloc host port = host ++ ord ':' :: intText port := by
  rw [originNetloc, originHost, if_neg hname]

/-- A host with one stands in brackets. -/
theorem originNetloc_of_literal (hliteral : ord ':' ∈ host) :
    originNetloc host port = ord '[' :: (host ++ ord ']' :: ord ':' :: intText port) := by
  rw [originNetloc, originHost, if_pos hliteral, List.append_assoc, List.append_assoc]
  rfl

/-! ## The pieces -/

/-- A character of a host, in an A-label or in an address. -/
def isOriginChar (c : ℕ) : Bool :=
  isLetter c || isDigit c || c == ord '-' || c == ord '.' || c == ord ':'

/-- Pieces that make an origin which can be read back. -/
structure OriginPieces (scheme host : Str) (port : ℤ) : Prop where
  /-- A scheme starts with a letter. -/
  scheme_head : scheme.head?.any isLetter = true
  /-- It is made of scheme characters. -/
  scheme_chars : scheme.all isSchemeChar = true
  /-- It is in lower case. -/
  scheme_lower : scheme.map lowerChar = scheme
  /-- There is a host. -/
  host_ne : host ≠ []
  /-- It is made of host characters. -/
  host_chars : ∀ c ∈ host, isOriginChar c = true
  /-- It is in lower case. -/
  host_lower : host.map lowerChar = host
  /-- A colon makes it an address of version 6. -/
  literal : ord ':' ∈ host → ∃ ip zone, parseAddress host = some (.v6 ip zone)
  /-- The port is one. -/
  port_range : lowestPort ≤ port ∧ port ≤ highestPort

theorem isOriginChar_of_isDigit {c : ℕ} (h : isDigit c = true) : isOriginChar c = true := by
  simp only [isOriginChar, h, Bool.or_true, Bool.true_or]

theorem lt_of_isOriginChar {c : ℕ} (h : isOriginChar c = true) : c < 0x80 := by
  simp only [isOriginChar, isLetter, isDigit, Bool.or_eq_true, Bool.and_eq_true, decide_eq_true_eq, beq_iff_eq] at h
  have hdash : ord '-' = 0x2D := rfl
  have hdot : ord '.' = 0x2E := rfl
  have hcolon : ord ':' = 0x3A := rfl
  omega

theorem printable_of_isOriginChar {c : ℕ} (h : isOriginChar c = true) : isControlCharacter c = false := by
  simp only [isOriginChar, isLetter, isDigit, Bool.or_eq_true, Bool.and_eq_true, decide_eq_true_eq, beq_iff_eq] at h
  simp only [isControlCharacter, Bool.or_eq_false_iff, decide_eq_false_iff_not, beq_eq_false_iff_ne]
  have hdash : ord '-' = 0x2D := rfl
  have hdot : ord '.' = 0x2E := rfl
  have hcolon : ord ':' = 0x3A := rfl
  omega

theorem lt_of_isSchemeChar {c : ℕ} (h : isSchemeChar c = true) : c < 0x80 := by
  simp only [isSchemeChar, isLetter, isDigit, Bool.or_eq_true, Bool.and_eq_true, decide_eq_true_eq, beq_iff_eq] at h
  have hplus : ord '+' = 0x2B := rfl
  have hdash : ord '-' = 0x2D := rfl
  have hdot : ord '.' = 0x2E := rfl
  omega

theorem isAscii_of_isSchemeChar {s : Str} (h : s.all isSchemeChar = true) : isAscii s = true :=
  List.all_eq_true.mpr fun c hc => decide_eq_true (lt_of_isSchemeChar (List.all_eq_true.mp h c hc))

theorem isAscii_of_isOriginChar {s : Str} (h : ∀ c ∈ s, isOriginChar c = true) : isAscii s = true :=
  List.all_eq_true.mpr fun c hc => decide_eq_true (lt_of_isOriginChar (h c hc))

theorem printable_of_isSchemeChar {c : ℕ} (h : isSchemeChar c = true) : isControlCharacter c = false := by
  simp only [isSchemeChar, isLetter, isDigit, Bool.or_eq_true, Bool.and_eq_true, decide_eq_true_eq, beq_iff_eq] at h
  simp only [isControlCharacter, Bool.or_eq_false_iff, decide_eq_false_iff_not, beq_eq_false_iff_ne]
  have hplus : ord '+' = 0x2B := rfl
  have hdash : ord '-' = 0x2D := rfl
  have hdot : ord '.' = 0x2E := rfl
  omega

theorem intText_eq_natText (h : lowestPort ≤ port) : intText port = natText port.natAbs := by
  rw [intText, if_neg]
  rw [lowestPort] at h
  omega

theorem host_subset_origin : host ⊆ origin scheme host port := by
  intro c hc
  refine List.mem_append_left _ (List.mem_append_right _ (List.mem_append_left _ ?_))
  unfold originHost
  split
  · exact List.mem_append_left _ (List.mem_append_right _ hc)
  · exact hc

theorem isAscii_origin (hscheme : scheme.all isSchemeChar = true) (hhost : isAscii host = true)
    (hport : lowestPort ≤ port) : isAscii (origin scheme host port) = true := by
  have hdigits := isDigits_natText port.natAbs
  rw [← intText_eq_natText hport, isDigits, Bool.and_eq_true, List.all_eq_true] at hdigits
  have hportAscii : isAscii (intText port) = true :=
    isAscii_of_isOriginChar fun c hc => isOriginChar_of_isDigit (hdigits.2 c hc)
  have hbracketed : isAscii (originHost host) = true := by
    unfold originHost
    split
    · rw [isAscii_append, isAscii_append, hhost]
      decide
    · exact hhost
  rw [origin, originNetloc, isAscii_append, isAscii_append, isAscii_append, isAscii_append, isAscii_cons,
    isAscii_of_isSchemeChar hscheme, hbracketed, hportAscii]
  decide

/-- A text without control characters is parsed as it stands. -/
theorem cleaned_eq_self {url : Str} (h : ∀ c ∈ url, isControlCharacter c = false) : cleaned url = url := by
  have hdrop : url.dropWhile isC0OrSpace = url := by
    cases url with
    | nil => rfl
    | cons c url =>
        have hc := h c List.mem_cons_self
        rw [List.dropWhile_cons_of_neg]
        intro hspace
        rw [isControlCharacter, Bool.or_eq_false_iff] at hc
        rw [isC0OrSpace, hc.1] at hspace
        cases hspace
  rw [cleaned, hdrop, List.filter_eq_self]
  intro c hc
  have hclean := h c hc
  simp only [isControlCharacter, isUnsafe, Bool.or_eq_false_iff, decide_eq_false_iff_not, beq_eq_false_iff_ne,
    Bool.not_eq_true'] at hclean ⊢
  omega

namespace OriginPieces

variable (h : OriginPieces scheme host port)
include h

theorem port_digits : isDigits (intText port) = true := by
  rw [intText_eq_natText h.port_range.1]
  exact isDigits_natText _

theorem port_chars : ∀ c ∈ intText port, isOriginChar c = true := by
  intro c hc
  have hdigits := h.port_digits
  rw [isDigits, Bool.and_eq_true, List.all_eq_true] at hdigits
  exact isOriginChar_of_isDigit (hdigits.2 c hc)

/-- The authority is made of host characters and brackets. -/
theorem netloc_chars {c : ℕ} (hc : c ∈ originNetloc host port) :
    isOriginChar c = true ∨ c = ord '[' ∨ c = ord ']' := by
  have hhost := h.host_chars
  unfold originNetloc originHost at hc
  rw [List.mem_append, List.mem_cons] at hc
  rcases hc with hc | rfl | hc
  · split at hc
    · rw [List.mem_append, List.mem_append] at hc
      rcases hc with (hc | hc) | hc
      · exact .inr (.inl (List.mem_singleton.mp hc))
      · exact .inl (hhost c hc)
      · exact .inr (.inr (List.mem_singleton.mp hc))
    · exact .inl (hhost c hc)
  · exact .inl (by decide)
  · exact .inl (h.port_chars c hc)

/-- A delimiter outside the brackets is not in the authority. -/
theorem not_mem_netloc {c : ℕ} (hc : isOriginChar c = false) (hopen : c ≠ ord '[') (hclose : c ≠ ord ']') :
    c ∉ originNetloc host port := by
  intro hmem
  rcases h.netloc_chars hmem with hchar | hc' | hc'
  · rw [hchar] at hc
    cases hc
  · exact hopen hc'
  · exact hclose hc'

theorem isAscii_netloc : isAscii (originNetloc host port) = true := by
  refine List.all_eq_true.mpr fun c hc => ?_
  rcases h.netloc_chars hc with hchar | rfl | rfl
  · exact decide_eq_true (lt_of_isOriginChar hchar)
  · decide
  · decide

/-- A scheme holds no colon. -/
theorem colon_not_mem_scheme : ord ':' ∉ scheme := by
  intro hc
  exact absurd (List.all_eq_true.mp h.scheme_chars _ hc) (by decide)

theorem afterUserinfo_netloc : afterUserinfo (originNetloc host port) = originNetloc host port := by
  rw [afterUserinfo, Scan.rpartition_eq_none.mpr (h.not_mem_netloc (by decide) (by decide) (by decide))]

/-- An address in brackets is one of version 6. -/
theorem checkBracketedHost_host (hliteral : ord ':' ∈ host) : checkBracketedHost U host = .ok () := by
  obtain ⟨ip, zone, hparse⟩ := h.literal hliteral
  obtain ⟨addr, rest, hhost, hne, hchars, -⟩ := exists_zone_of_parseAddress hparse
  obtain ⟨c, addr, rfl⟩ := List.exists_cons_of_ne_nil hne
  have hhead : host.head? ≠ some (ord 'v') := by
    rw [hhost]
    intro hv
    have hc := hchars c List.mem_cons_self
    rw [Option.some.inj hv] at hc
    exact absurd hc (by decide)
  rw [checkBracketedHost, if_neg hhead, ipAddress_eq_ok.mpr hparse]

/-- The authority of a name is the name and the port, and has no brackets. -/
theorem not_mem_netloc_of_name (hname : ord ':' ∉ host) {c : ℕ} (hc : isOriginChar c = false) :
    c ∉ originNetloc host port := by
  rw [originNetloc_of_name hname]
  intro hmem
  have hchar : isOriginChar c = true := by
    rcases List.mem_append.mp hmem with hmem | hmem
    · exact h.host_chars c hmem
    · rcases List.mem_cons.mp hmem with rfl | hmem
      · decide
      · exact h.port_chars c hmem
  rw [hchar] at hc
  cases hc

/-- The brackets of the authority are as they should be. -/
theorem checkBrackets_netloc : checkBrackets U (originNetloc host port) = .ok () := by
  by_cases hliteral : ord ':' ∈ host
  · have hhas : ord '[' ∈ originNetloc host port ∧ ord ']' ∈ originNetloc host port := by
      rw [originNetloc_of_literal hliteral]
      exact ⟨List.mem_cons_self, List.mem_cons_of_mem _ (List.mem_append_right _ List.mem_cons_self)⟩
    have hclose : ord ']' ∉ host := fun hc => absurd (h.host_chars _ hc) (by decide)
    rw [checkBrackets, if_neg (by tauto), if_pos hhas, checkBracketedNetloc, h.afterUserinfo_netloc,
      originNetloc_of_literal hliteral, Scan.partition_singleton_self]
    dsimp only
    rw [if_neg (not_not.mpr rfl), Scan.partition_singleton_append hclose, Option.getD_some,
      if_neg (fun hrest => hrest.2 rfl)]
    exact h.checkBracketedHost_host hliteral
  · have hno : ord '[' ∉ originNetloc host port ∧ ord ']' ∉ originNetloc host port :=
      ⟨h.not_mem_netloc_of_name hliteral (by decide), h.not_mem_netloc_of_name hliteral (by decide)⟩
    rw [checkBrackets, if_neg (by tauto), if_neg (by tauto)]

/-- No character of an origin is a control character. -/
theorem origin_printable {c : ℕ} (hc : c ∈ origin scheme host port) : isControlCharacter c = false := by
  unfold origin at hc
  rw [List.mem_append, List.mem_append, List.mem_append] at hc
  rcases hc with ((hc | hc) | hc) | hc
  · exact printable_of_isSchemeChar (List.all_eq_true.mp h.scheme_chars c hc)
  · have hmarks : ∀ c ∈ text "://", isControlCharacter c = false := by decide
    exact hmarks c hc
  · rcases h.netloc_chars hc with hchar | rfl | rfl
    · exact printable_of_isOriginChar hchar
    · decide
    · decide
  · rw [List.mem_singleton.mp hc]
    decide

theorem splitScheme_origin : splitScheme (origin scheme host port) =
    (scheme, text "//" ++ (originNetloc host port ++ text "/")) := by
  have hshape : origin scheme host port =
      scheme ++ ord ':' :: (text "//" ++ (originNetloc host port ++ text "/")) := by
    rw [origin, List.append_assoc, List.append_assoc]
    rfl
  rw [splitScheme, hshape, Scan.partition_singleton_append h.colon_not_mem_scheme]
  dsimp only
  rw [h.scheme_head, h.scheme_chars, Bool.true_and, if_pos rfl, h.scheme_lower]

/-- The authority ends at the slash: it holds none of the delimiters that would end it before. -/
theorem netlocOf_origin :
    netlocOf (text "//" ++ (originNetloc host port ++ text "/")) = originNetloc host port := by
  rw [netlocOf, if_pos (List.isPrefixOf_iff_prefix.mpr (List.prefix_append _ _)), splitNetloc]
  have hdrop : (text "//" ++ (originNetloc host port ++ text "/")).drop 2 =
      originNetloc host port ++ text "/" := rfl
  rw [hdrop, List.takeWhile_append_of_pos]
  · exact List.append_nil _
  · intro c hc
    rw [Bool.not_eq_true']
    refine Bool.eq_false_iff.mpr fun hends => ?_
    simp only [endsNetloc, Bool.or_eq_true, beq_iff_eq] at hends
    rcases hends with (rfl | rfl) | rfl
    · exact h.not_mem_netloc (by decide) (by decide) (by decide) hc
    · exact h.not_mem_netloc (by decide) (by decide) (by decide) hc
    · exact h.not_mem_netloc (by decide) (by decide) (by decide) hc

/-- The origin is split into its scheme and its authority. -/
theorem urlsplit_origin :
    urlsplit U (origin scheme host port) = .ok ⟨scheme, originNetloc host port⟩ := by
  have hcleaned : cleaned (origin scheme host port) = origin scheme host port :=
    cleaned_eq_self fun c hc => h.origin_printable hc
  have hnfkc : nfkcRefuses U (originNetloc host port) = false := by
    rw [nfkcRefuses, h.isAscii_netloc]
    rfl
  rw [urlsplit, hcleaned, h.splitScheme_origin]
  dsimp only
  rw [h.netlocOf_origin, h.checkBrackets_netloc]
  dsimp only
  rw [checkNetloc, hnfkc, if_neg Bool.false_ne_true]

/-- There are no credentials in it. -/
theorem userinfo_netloc : (⟨scheme, originNetloc host port⟩ : SplitResult).userinfo = (none, none) := by
  rw [SplitResult.userinfo, Scan.rpartition_eq_none.mpr (h.not_mem_netloc (by decide) (by decide) (by decide))]

/-- The host comes out of its brackets, and the port is what stands behind it. -/
theorem hostinfo_netloc :
    (⟨scheme, originNetloc host port⟩ : SplitResult).hostinfo = (host, some (intText port)) := by
  have hport : intText port ≠ [] := by
    have hdigits := h.port_digits
    rintro hnil
    rw [hnil] at hdigits
    cases hdigits
  by_cases hliteral : ord ':' ∈ host
  · have hclose : ord ']' ∉ host := fun hc => absurd (h.host_chars _ hc) (by decide)
    simp only [SplitResult.hostinfo, h.afterUserinfo_netloc]
    simp only [originNetloc_of_literal hliteral, Scan.partition_singleton_self,
      Scan.partition_singleton_append hclose, Option.getD_some, if_neg hport]
  · have hopen : ord '[' ∉ originNetloc host port := h.not_mem_netloc_of_name hliteral (by decide)
    simp only [SplitResult.hostinfo, h.afterUserinfo_netloc, Scan.partition_singleton_eq_none.mpr hopen]
    simp only [originNetloc_of_name hliteral, Scan.partition_singleton_append hliteral, Option.getD_some,
      if_neg hport]

theorem hostname_netloc : (⟨scheme, originNetloc host port⟩ : SplitResult).hostname U = some host := by
  have hpercent : ord '%' ∉ host := fun hc => absurd (h.host_chars _ hc) (by decide)
  have hascii := isAscii_of_isOriginChar h.host_chars
  rw [SplitResult.hostname, h.hostinfo_netloc]
  dsimp only
  rw [if_neg h.host_ne, Scan.partition_singleton_eq_none.mpr hpercent]
  dsimp only
  rw [lower_of_isAscii U hascii, h.host_lower]

theorem port_netloc : (⟨scheme, originNetloc host port⟩ : SplitResult).port U = .ok (some port) := by
  obtain ⟨hlow, hhigh⟩ := h.port_range
  have hvalue : decimalValue (intText port) = port.natAbs := by
    rw [intText_eq_natText hlow, decimalValue_natText]
  have hlength : (intText port).length ≤ 5 := by
    rw [intText_eq_natText hlow, natText, List.length_map, Nat.length_toDigits_le_iff (by decide) (by decide)]
    rw [lowestPort] at hlow
    rw [highestPort] at hhigh
    omega
  rw [lowestPort] at hlow
  rw [highestPort] at hhigh
  rw [SplitResult.port, h.hostinfo_netloc]
  dsimp only
  rw [if_neg (by rw [h.port_digits]; decide), if_neg (by omega), if_neg (by omega), hvalue]
  congr 2
  omega

end OriginPieces

end SsrfGuard
