import SsrfGuard.Policy.CheckUrl

/-! # What an observer learns about credentials

Two URLs that differ in their userinfo alone, letter for letter, are checked side by side. Every step
of `_decide` ends alike in the two runs, its refusal carrying the same reason, with one exception: a
parse failure under NFKC quotes the whole authority. The reported URL is cut by a second scan, which
agrees with `urlsplit` on where the authority starts exactly when nothing stands between the two
slashes. -/

namespace SsrfGuard

/-! ## Two URLs that differ in their userinfo -/

/-- A character of a userinfo that is varied: an ASCII letter, a digit or a colon. -/
def isUserinfoChar (c : ℕ) : Bool := isLetter c || isDigit c || c == ord ':'

/-- Two characters at one place of the userinfo: both are varied, or both are one that `urlsplit`
removes. -/
def SamePlace (c d : ℕ) : Prop :=
  isUserinfoChar c = true ∧ isUserinfoChar d = true ∨ isUnsafe c = true ∧ c = d

/-- What stands before an authority: once cleaned, a scheme with its colon or nothing, and then the
two slashes. -/
def StartsAuthority (pre : Str) : Prop :=
  ∃ scheme, cleaned pre = scheme ++ text "//" ∧
    (scheme = [] ∨ ∃ name, scheme = name ++ text ":" ∧ name.head?.any isLetter = true ∧
      name.all isSchemeChar = true)

/-- Two URLs that differ only in the userinfo `urlsplit` finds in them: `pre` ends where the
authority starts, and no further `@` comes before the authority ends. -/
structure SameButUserinfo (pre info₁ info₂ post url₁ url₂ : Str) : Prop where
  /-- The first URL. -/
  left : url₁ = pre ++ info₁ ++ ord '@' :: post
  /-- The second URL. -/
  right : url₂ = pre ++ info₂ ++ ord '@' :: post
  /-- The authority starts after `pre`. -/
  starts : StartsAuthority pre
  /-- The userinfos are alike, place by place. -/
  alike : List.Forall₂ SamePlace info₁ info₂
  /-- The `@` after the userinfo is the last of the authority. -/
  last : ord '@' ∉ post.takeWhile (!endsNetloc ·)

namespace SameButUserinfo

variable {pre info₁ info₂ post url₁ url₂ : Str}

theorem symm (h : SameButUserinfo pre info₁ info₂ post url₁ url₂) :
    SameButUserinfo pre info₂ info₁ post url₂ url₁ where
  left := h.right
  right := h.left
  starts := h.starts
  alike := by
    refine (List.Forall₂.flip h.alike).imp ?_
    rintro c d (⟨hd, hc⟩ | ⟨hd, rfl⟩)
    · exact Or.inl ⟨hc, hd⟩
    · exact Or.inr ⟨hd, rfl⟩
  last := h.last

end SameButUserinfo

/-! ## Where `urlsplit` finds the authority -/

theorem isUserinfoChar_bounds {c : ℕ} (h : isUserinfoChar c = true) :
    0x30 ≤ c ∧ c < 0x80 ∧ c ≠ 0x3F ∧ c ≠ 0x40 ∧ c ≠ 0x5B ∧ c ≠ 0x5D ∧ c ≠ 0x7F := by
  simp only [isUserinfoChar, isLetter, isDigit, Bool.or_eq_true, Bool.and_eq_true,
    decide_eq_true_eq, beq_iff_eq, ord] at h
  have : ':'.toNat = 0x3A := rfl
  omega

/-- The scheme and the rest, for every text whose authority starts after `pre`. -/
theorem exists_splitScheme_of_startsAuthority {pre : Str} (h : StartsAuthority pre) :
    ∃ scheme, ∀ rest, splitScheme (cleaned (pre ++ rest)) =
      (scheme, text "//" ++ rest.filter (!isUnsafe ·)) := by
  obtain ⟨scheme, hclean, hscheme⟩ := h
  -- two slashes survive the cleaning, so there is something to keep
  have hne : pre.dropWhile isC0OrSpace ≠ [] := by
    intro hnil
    rw [cleaned, hnil] at hclean
    have := congrArg List.length hclean
    simp [text] at this
  have hcleaned : ∀ rest, cleaned (pre ++ rest) = scheme ++ text "//" ++ rest.filter (!isUnsafe ·) := by
    intro rest
    rw [← hclean, cleaned, cleaned, List.dropWhile_append, if_neg (by simpa using hne),
      List.filter_append]
  rcases hscheme with rfl | ⟨name, rfl, hhead, hall⟩
  · refine ⟨[], fun rest => ?_⟩
    rw [hcleaned, List.nil_append, splitScheme]
    cases hp : Scan.partition [ord ':'] (text "//" ++ rest.filter (!isUnsafe ·)) with
    | none => rfl
    | some cut =>
        obtain ⟨before, after⟩ := cut
        have hcut := (Scan.partition_singleton_eq_some.mp hp).1
        -- what precedes the first colon starts with a slash, so it is no scheme
        cases before with
        | nil => cases hcut
        | cons c before =>
            have hc : c = ord '/' := (List.cons.inj hcut).1.symm
            subst hc
            rfl
  · refine ⟨name.map lowerChar, fun rest => ?_⟩
    have hcolon : ord ':' ∉ name := by
      intro hmem
      exact absurd (List.all_eq_true.mp hall _ hmem) (by decide)
    have hshape : name ++ text ":" ++ text "//" ++ rest.filter (!isUnsafe ·) =
        name ++ ord ':' :: (text "//" ++ rest.filter (!isUnsafe ·)) := by
      simp [text, ord]
    -- the colon of the scheme is the first one
    rw [hcleaned, hshape, splitScheme, Scan.partition_singleton_append hcolon]
    simp [hhead, hall]

/-- What follows the userinfo inside the authority. -/
def hostinfoOf (post : Str) : Str := (post.filter (!isUnsafe ·)).takeWhile (!endsNetloc ·)

theorem not_endsNetloc_of_isUserinfoChar {c : ℕ} (h : isUserinfoChar c = true) :
    endsNetloc c = false := by
  have := isUserinfoChar_bounds h
  simp only [endsNetloc, Bool.or_eq_false_iff, beq_eq_false_iff_ne, ord]
  have : '/'.toNat = 0x2F := rfl
  have : '?'.toNat = 0x3F := rfl
  have : '#'.toNat = 0x23 := rfl
  omega

/-- The authority of both URLs: the userinfo, an `@`, and what follows. -/
theorem netlocOf_of_userinfo {info post : Str}
    (hinfo : ∀ c ∈ info.filter (!isUnsafe ·), isUserinfoChar c = true) :
    netlocOf (text "//" ++ (info ++ ord '@' :: post).filter (!isUnsafe ·)) =
      info.filter (!isUnsafe ·) ++ ord '@' :: hostinfoOf post := by
  have hlead : ∀ rest, (text "//").isPrefixOf (text "//" ++ rest) = true := fun rest =>
    List.isPrefixOf_iff_prefix.mpr (List.prefix_append _ _)
  have hdrop : ∀ rest : Str, (text "//" ++ rest).drop 2 = rest := fun rest => rfl
  have hat : (ord '@' :: post).filter (!isUnsafe ·) = ord '@' :: post.filter (!isUnsafe ·) := rfl
  rw [netlocOf, if_pos (hlead _), splitNetloc, hdrop, List.filter_append, hat,
    List.takeWhile_append_of_pos]
  · rfl
  · intro c hc
    rw [not_endsNetloc_of_isUserinfoChar (hinfo c hc)]
    rfl

theorem not_mem_hostinfoOf {post : Str} (h : ord '@' ∉ post.takeWhile (!endsNetloc ·)) :
    ord '@' ∉ hostinfoOf post := by
  induction post with
  | nil => exact List.not_mem_nil
  | cons c post ih =>
      -- cleaning takes out no character that ends the authority
      by_cases hends : endsNetloc c = true
      · have hsafe : isUnsafe c = false := by
          simp only [endsNetloc, Bool.or_eq_true, beq_iff_eq] at hends
          rcases hends with (rfl | rfl) | rfl <;> rfl
        simp [hostinfoOf, hsafe, hends]
      · rw [List.takeWhile_cons_of_pos (by simpa using hends), List.mem_cons, not_or] at h
        by_cases hsafe : isUnsafe c = true
        · simpa [hostinfoOf, hsafe] using ih h.2
        · have hcons : hostinfoOf (c :: post) = c :: hostinfoOf post := by
            simp [hostinfoOf, hsafe, hends]
          rw [hcons, List.mem_cons, not_or]
          exact ⟨h.1, ih h.2⟩

/-! ## What the two runs share -/

section Authority

variable {U : Unicode} {info info₁ info₂ host : Str}

theorem afterUserinfo_of_userinfo (hhost : ord '@' ∉ host) :
    afterUserinfo (info ++ ord '@' :: host) = host := by
  rw [afterUserinfo, Scan.rpartition_append info hhost]

/-- A character outside the userinfo alphabet is in the authority iff it is in the host part. -/
theorem mem_netloc_iff {c : ℕ} (hinfo : ∀ c ∈ info, isUserinfoChar c = true)
    (hc : isUserinfoChar c = false) (hat : c ≠ ord '@') :
    c ∈ info ++ ord '@' :: host ↔ c ∈ host := by
  have hnot : c ∉ info := by
    intro hmem
    rw [hinfo c hmem] at hc
    cases hc
  simp [hnot, hat]

theorem checkBrackets_of_userinfo (hinfo : ∀ c ∈ info, isUserinfoChar c = true)
    (hhost : ord '@' ∉ host) :
    checkBrackets U (info ++ ord '@' :: host) = checkBrackets U (ord '@' :: host) := by
  have hempty : ∀ c ∈ ([] : Str), isUserinfoChar c = true := by simp
  have hopen : ord '[' ∈ info ++ ord '@' :: host ↔ ord '[' ∈ ord '@' :: host := by
    rw [mem_netloc_iff hinfo rfl (by decide), ← List.nil_append (ord '@' :: host),
      mem_netloc_iff hempty rfl (by decide)]
  have hclose : ord ']' ∈ info ++ ord '@' :: host ↔ ord ']' ∈ ord '@' :: host := by
    rw [mem_netloc_iff hinfo rfl (by decide), ← List.nil_append (ord '@' :: host),
      mem_netloc_iff hempty rfl (by decide)]
  have hafter : afterUserinfo (info ++ ord '@' :: host) = afterUserinfo (ord '@' :: host) := by
    rw [afterUserinfo_of_userinfo hhost, ← List.nil_append (ord '@' :: host),
      afterUserinfo_of_userinfo hhost]
  simp only [checkBrackets, checkBracketedNetloc, hopen, hclose, hafter]

end Authority

/-- What the interpreter's NFKC tables are relied on for: ASCII is left alone, and a delimiter comes
out of a text iff it comes out of one of its characters, since no delimiter composes with a
neighbour. -/
structure Unicode.NfkcByCharacter (U : Unicode) : Prop where
  /-- ASCII characters are their own normal form. -/
  ascii : ∀ c, c < 0x80 → U.nfkc [c] = [c]
  /-- Delimiters come out character by character. -/
  delimiter : ∀ s, (U.nfkc s).any isDelimiter = s.any fun c => (U.nfkc [c]).any isDelimiter

/-- Whether some character of a host part turns into a delimiter under NFKC. -/
def hidesDelimiter (U : Unicode) (host : Str) : Bool :=
  !isAscii host && (host.filter (!isKnownDelimiter ·)).any fun c => (U.nfkc [c]).any isDelimiter

theorem not_isDelimiter_of_isUserinfoChar {c : ℕ} (h : isUserinfoChar c = true)
    (hcolon : c ≠ ord ':') : isDelimiter c = false := by
  have hbounds := isUserinfoChar_bounds h
  simp only [isDelimiter, isKnownDelimiter, Bool.or_eq_false_iff, beq_eq_false_iff_ne, ord]
    at hcolon ⊢
  have : '/'.toNat = 0x2F := rfl
  have : '?'.toNat = 0x3F := rfl
  have : '#'.toNat = 0x23 := rfl
  have : '@'.toNat = 0x40 := rfl
  omega

/-- What NFKC is applied to has no delimiter of its own on the userinfo's side: its colons are taken
out first. -/
theorem not_isDelimiter_of_mem_info {info : Str} (hinfo : ∀ c ∈ info, isUserinfoChar c = true) :
    ∀ c ∈ info.filter (!isKnownDelimiter ·), isDelimiter c = false := by
  intro c hc
  obtain ⟨hmem, hnot⟩ := List.mem_filter.mp hc
  have hcolon : c ≠ ord ':' := by
    rintro rfl
    exact absurd hnot (by decide)
  exact not_isDelimiter_of_isUserinfoChar (hinfo c hmem) hcolon

/-- Nor on the host's side: a slash would have ended the authority. -/
theorem not_isDelimiter_of_mem_host {host : Str} (hends : ∀ c ∈ host, endsNetloc c = false) :
    ∀ c ∈ host.filter (!isKnownDelimiter ·), isDelimiter c = false := by
  intro c hc
  obtain ⟨hmem, hnot⟩ := List.mem_filter.mp hc
  have hslash := hends c hmem
  simp only [endsNetloc, Bool.or_eq_false_iff] at hslash
  rw [isDelimiter, hslash.1.1, Bool.false_or]
  simpa using hnot

/-- The NFKC check looks past the userinfo. -/
theorem nfkcRefuses_of_userinfo {U : Unicode} (hU : U.NfkcByCharacter) {info host : Str}
    (hinfo : ∀ c ∈ info, isUserinfoChar c = true) (hends : ∀ c ∈ host, endsNetloc c = false) :
    nfkcRefuses U (info ++ ord '@' :: host) = hidesDelimiter U host := by
  have hascii : isAscii (info ++ ord '@' :: host) = isAscii host := by
    have hinfoAscii : isAscii info = true := by
      simp only [isAscii, List.all_eq_true, decide_eq_true_eq]
      exact fun c hc => (isUserinfoChar_bounds (hinfo c hc)).2.1
    rw [isAscii_append, hinfoAscii, isAscii_cons]
    rfl
  have hknown : (info ++ ord '@' :: host).filter (!isKnownDelimiter ·) =
      info.filter (!isKnownDelimiter ·) ++ host.filter (!isKnownDelimiter ·) := by
    rw [List.filter_append]
    rfl
  have hinfoPlain : (info.filter (!isKnownDelimiter ·)).any
      (fun c => (U.nfkc [c]).any isDelimiter) = false := by
    rw [List.any_eq_false]
    intro c hc
    have hplain := not_isDelimiter_of_mem_info hinfo c hc
    rw [hU.ascii c (isUserinfoChar_bounds (hinfo c (List.mem_of_mem_filter hc))).2.1]
    simp [hplain]
  have hout := hU.delimiter (info.filter (!isKnownDelimiter ·) ++ host.filter (!isKnownDelimiter ·))
  rw [List.any_append, hinfoPlain, Bool.false_or] at hout
  simp only [nfkcRefuses, hidesDelimiter, hascii, hknown, hout]
  by_cases hany : (host.filter (!isKnownDelimiter ·)).any
      (fun c => (U.nfkc [c]).any isDelimiter) = true
  · -- a delimiter came out and none went in, so the text has changed
    have hchanged : U.nfkc (info.filter (!isKnownDelimiter ·) ++ host.filter (!isKnownDelimiter ·)) ≠
        info.filter (!isKnownDelimiter ·) ++ host.filter (!isKnownDelimiter ·) := by
      intro heq
      rw [heq, hany, List.any_append, Bool.or_eq_true, List.any_eq_true, List.any_eq_true] at hout
      rcases hout with ⟨c, hc, hdelim⟩ | ⟨c, hc, hdelim⟩
      · rw [not_isDelimiter_of_mem_info hinfo c hc] at hdelim
        cases hdelim
      · rw [not_isDelimiter_of_mem_host hends c hc] at hdelim
        cases hdelim
    simp [hany, hchanged]
  · simp [hany]

/-! ## Step by step -/

/-- Errors that give the same reason. -/
def SameReason (U : Unicode) (e e' : Exc) : Prop := e.reason U = e'.reason U

theorem SameReason.refl (U : Unicode) (e : Exc) : SameReason U e e := rfl

/-- Split URLs that differ in their userinfo alone. -/
structure SameHost (s₁ s₂ : SplitResult) : Prop where
  /-- One scheme. -/
  scheme : s₁.scheme = s₂.scheme
  /-- Two authorities with one host part. -/
  netloc : ∃ info₁ info₂ host, ord '@' ∉ host ∧ s₁.netloc = info₁ ++ ord '@' :: host ∧
    s₂.netloc = info₂ ++ ord '@' :: host

section Steps

variable {U : Unicode} {p : Policy} {url₁ url₂ : Str} {s₁ s₂ : SplitResult}

theorem SameHost.hostinfo (h : SameHost s₁ s₂) : s₁.hostinfo = s₂.hostinfo := by
  obtain ⟨info₁, info₂, host, hhost, h₁, h₂⟩ := h.netloc
  simp only [SplitResult.hostinfo, h₁, h₂, afterUserinfo_of_userinfo hhost]

theorem username_ne_none {s : SplitResult} {info host : Str} (hhost : ord '@' ∉ host)
    (h : s.netloc = info ++ ord '@' :: host) : s.username ≠ none := by
  unfold SplitResult.username SplitResult.userinfo
  rw [h, Scan.rpartition_append info hhost]
  cases hp : Scan.partition [ord ':'] info <;> simp [hp]

theorem agree_checkScheme (h : SameHost s₁ s₂) :
    Except.Agree Eq (SameReason U) (p.checkScheme U url₁ s₁) (p.checkScheme U url₂ s₂) := by
  simp only [Policy.checkScheme, h.scheme]
  exact .ite (.error rfl) (.ite (.error rfl) (.ok rfl))

theorem agree_checkUserinfo (h : SameHost s₁ s₂) :
    Except.Agree Eq (SameReason U) (p.checkUserinfo url₁ s₁) (p.checkUserinfo url₂ s₂) := by
  obtain ⟨info₁, info₂, host, hhost, h₁, h₂⟩ := h.netloc
  simp only [Policy.checkUserinfo, username_ne_none hhost h₁, username_ne_none hhost h₂, false_and,
    if_false]
  exact .ite (.ok rfl) (.error rfl)

theorem agree_normalise (raw : Str) :
    Except.Agree Eq (SameReason U) (normalise U url₁ raw) (normalise U url₂ raw) := by
  simp only [normalise]
  refine .ite (.ok rfl) ?_
  split
  · exact .error rfl
  · split
    · exact .error rfl
    · exact .ok rfl

theorem agree_classifyHost (host : Str) :
    Except.Agree Eq (SameReason U) (classifyHost U url₁ host) (classifyHost U url₂ host) := by
  simp only [classifyHost]
  split
  · exact .ok rfl
  · exact .ite (.error rfl) (.ite (.error rfl) (.ok rfl))

theorem agree_checkHost (h : SameHost s₁ s₂) :
    Except.Agree Eq (SameReason U) (checkHost U url₁ s₁) (checkHost U url₂ s₂) := by
  have hhost : s₁.hostname U = s₂.hostname U := by
    simp only [SplitResult.hostname, h.hostinfo]
  simp only [checkHost, hhost]
  split
  · exact .error rfl
  · refine .ite (.error rfl) (.ite (.error rfl) ?_)
    refine .bind (.refl (SameReason.refl U) _) fun _ _ _ _ _ => .bind (agree_normalise _) ?_
    rintro host _ - - rfl
    refine .bind (agree_classifyHost host) ?_
    rintro address _ - - rfl
    exact .ok rfl

theorem agree_checkPort (h : SameHost s₁ s₂) (scheme : Str) :
    Except.Agree Eq (SameReason U) (p.checkPort U url₁ s₁ scheme) (p.checkPort U url₂ s₂ scheme) := by
  have hport : s₁.port U = s₂.port U := by
    simp only [SplitResult.port, h.hostinfo]
  have hnamed : Except.Agree Eq (SameReason U)
      (exceptValueError (s₁.port U) fun bad =>
        .blockedURLError url₁ (text "has an unusable port: " ++ bad))
      (exceptValueError (s₂.port U) fun bad =>
        .blockedURLError url₂ (text "has an unusable port: " ++ bad)) := by
    rw [hport]
    cases hp : s₂.port U with
    | ok port => exact .ok rfl
    | error e =>
        obtain ⟨message, rfl⟩ := SplitResult.isValueError_of_port hp
        exact .error rfl
  refine .bind hnamed ?_
  rintro named _ - - rfl
  split
  · exact .error rfl
  · exact .ite (.error rfl) (.ite (.error rfl) (.ok rfl))

theorem agree_checkListed (host : Str) (address : Option IPAddress) :
    Except.Agree Eq (SameReason U) (p.checkListed U url₁ host address)
      (p.checkListed U url₂ host address) :=
  .ite (.ok rfl) (.ite (.ok rfl) (.error rfl))

theorem agree_checkLiteral (address : Option IPAddress) :
    Except.Agree Eq (SameReason U) (p.checkLiteral url₁ address) (p.checkLiteral url₂ address) := by
  cases address with
  | none => exact .ok rfl
  | some a =>
      simp only [Policy.checkLiteral]
      cases h : p.checkAddress a with
      | ok u => exact .ok rfl
      | error e =>
          rw [Policy.checkAddress_eq_error h]
          exact .error rfl

/-- Past the parser, the two runs do not look at the userinfo again. -/
theorem agree_afterSplit (h : SameHost s₁ s₂) :
    Except.Agree Eq (SameReason U)
      (do
        let scheme ← p.checkScheme U url₁ s₁
        p.checkUserinfo url₁ s₁
        let named ← checkHost U url₁ s₁
        let port ← p.checkPort U url₁ s₁ scheme
        p.checkListed U url₁ named.1 named.2.2
        p.checkLiteral url₁ named.2.2
        return (⟨scheme, named.1, port, named.2.1, named.2.2⟩ : Target))
      (do
        let scheme ← p.checkScheme U url₂ s₂
        p.checkUserinfo url₂ s₂
        let named ← checkHost U url₂ s₂
        let port ← p.checkPort U url₂ s₂ scheme
        p.checkListed U url₂ named.1 named.2.2
        p.checkLiteral url₂ named.2.2
        return (⟨scheme, named.1, port, named.2.1, named.2.2⟩ : Target)) := by
  refine .bind (agree_checkScheme h) ?_
  rintro scheme _ - - rfl
  refine .bind (agree_checkUserinfo h) fun _ _ _ _ _ => .bind (agree_checkHost h) ?_
  rintro named _ - - rfl
  refine .bind (agree_checkPort h scheme) ?_
  rintro port _ - - rfl
  exact .bind (agree_checkListed _ _) fun _ _ _ _ _ =>
    .bind (agree_checkLiteral _) fun _ _ _ _ _ => .ok rfl

end Steps

/-! ## Before the parser -/

/-- Two characters a search for control characters cannot tell apart. -/
def SameControl (c d : ℕ) : Prop :=
  c = d ∨ isControlCharacter c = false ∧ isControlCharacter d = false

theorem SamePlace.sameControl {c d : ℕ} (h : SamePlace c d) : SameControl c d := by
  rcases h with ⟨hc, hd⟩ | ⟨-, rfl⟩
  · right
    have := isUserinfoChar_bounds hc
    have := isUserinfoChar_bounds hd
    simp only [isControlCharacter, Bool.or_eq_false_iff, decide_eq_false_iff_not,
      beq_eq_false_iff_ne]
    omega
  · exact Or.inl rfl

theorem forall₂_sameControl {pre info₁ info₂ post url₁ url₂ : Str}
    (h : SameButUserinfo pre info₁ info₂ post url₁ url₂) :
    List.Forall₂ SameControl url₁ url₂ := by
  have hrefl : ∀ l : Str, List.Forall₂ SameControl l l := fun l =>
    List.forall₂_same.mpr fun c _ => Or.inl rfl
  rw [h.left, h.right]
  exact List.rel_append (List.rel_append (hrefl pre) (h.alike.imp fun _ _ => SamePlace.sameControl))
    (hrefl _)

/-- The first control character is the same one at the same place. -/
theorem find?_of_sameControl {l₁ l₂ : Str} (h : List.Forall₂ SameControl l₁ l₂) :
    l₁.find? isControlCharacter = l₂.find? isControlCharacter ∧
      l₁.findIdx isControlCharacter = l₂.findIdx isControlCharacter := by
  induction h with
  | nil => exact ⟨rfl, rfl⟩
  | cons hcd _ ih =>
      rcases hcd with rfl | ⟨hc, hd⟩
      · simp only [List.find?_cons, List.findIdx_cons, ih.1, ih.2, and_self]
      · simp only [List.find?_cons, List.findIdx_cons, hc, hd, ih.1, ih.2, and_self]

theorem agree_rejectControlCharacters {U : Unicode} {pre info₁ info₂ post url₁ url₂ : Str}
    (h : SameButUserinfo pre info₁ info₂ post url₁ url₂) :
    Except.Agree Eq (SameReason U) (rejectControlCharacters U url₁)
      (rejectControlCharacters U url₂) := by
  obtain ⟨hfind, hidx⟩ := find?_of_sameControl (forall₂_sameControl h)
  simp only [rejectControlCharacters, hfind, hidx]
  split
  · exact .error rfl
  · exact .ok rfl

/-! ## The parser -/

/-- The authority `urlsplit` finds in a URL. -/
def authorityOf (url : Str) : Str := netlocOf (splitScheme (cleaned url)).2

/-- `urlsplit` is its two checks on the authority, then the scheme and the authority it found. -/
theorem urlsplit_eq (url : Str) : urlsplit U url =
    (checkBrackets U (authorityOf url)).bind fun _ =>
      (checkNetloc U (authorityOf url)).bind fun _ =>
        .ok ⟨(splitScheme (cleaned url)).1, authorityOf url⟩ := by
  simp only [urlsplit, authorityOf]
  cases checkBrackets U (netlocOf (splitScheme (cleaned url)).2) with
  | error e => rfl
  | ok u =>
      cases checkNetloc U (netlocOf (splitScheme (cleaned url)).2) with
      | error e => rfl
      | ok u => rfl

theorem isUserinfoChar_of_alike {info₁ info₂ : Str} (h : List.Forall₂ SamePlace info₁ info₂) :
    ∀ c ∈ info₁.filter (!isUnsafe ·), isUserinfoChar c = true := by
  induction h with
  | nil => simp
  | cons hcd _ ih =>
      rcases hcd with ⟨hc, -⟩ | ⟨hc, -⟩
      · intro d hd
        rw [List.filter_cons] at hd
        split at hd
        · rcases List.mem_cons.mp hd with rfl | hd
          · exact hc
          · exact ih d hd
        · exact ih d hd
      · simpa [List.filter_cons, hc] using ih

/-- Both URLs have one scheme, and authorities that differ in their userinfo. -/
theorem exists_authority {pre info₁ info₂ post url₁ url₂ : Str}
    (h : SameButUserinfo pre info₁ info₂ post url₁ url₂) :
    (splitScheme (cleaned url₁)).1 = (splitScheme (cleaned url₂)).1 ∧
      authorityOf url₁ = info₁.filter (!isUnsafe ·) ++ ord '@' :: hostinfoOf post ∧
      authorityOf url₂ = info₂.filter (!isUnsafe ·) ++ ord '@' :: hostinfoOf post := by
  obtain ⟨scheme, hsplit⟩ := exists_splitScheme_of_startsAuthority h.starts
  rw [authorityOf, authorityOf, h.left, h.right, List.append_assoc, List.append_assoc, hsplit, hsplit]
  exact ⟨rfl, netlocOf_of_userinfo (isUserinfoChar_of_alike h.alike),
    netlocOf_of_userinfo (isUserinfoChar_of_alike h.symm.alike)⟩

/-- The refusal that quotes an authority: the URL is short enough, holds no control character, its
brackets add up, and NFKC makes delimiters of its authority. -/
structure Policy.QuotesNetloc (U : Unicode) (p : Policy) (url : Str) : Prop where
  /-- The URL is read at all. -/
  short : url.length ≤ p.maxUrlLength
  /-- It reaches the parser. -/
  printable : ∀ c ∈ url, isControlCharacter c = false
  /-- Its brackets are accepted. -/
  brackets : checkBrackets U (authorityOf url) = .ok ()
  /-- Its authority is refused. -/
  refused : nfkcRefuses U (authorityOf url) = true

/-- The message of that refusal. -/
def quotedNetloc (netloc : Str) : Str :=
  text "cannot be parsed as a URL: " ++
    (text "netloc '" ++ netloc ++ text "' contains invalid " ++
      text "characters under NFKC normalization")

section Parser

variable {U : Unicode} {p : Policy} {pre info₁ info₂ post url url₁ url₂ : Str}

/-- A URL whose authority NFKC refuses is refused with the authority in the reason. -/
theorem decide_of_quotesNetloc (h : p.QuotesNetloc U url) :
    p.decide U url = .error (.blockedURLError url (quotedNetloc (authorityOf url))) := by
  have hsplit : splitUrl U url = .error (.blockedURLError url (quotedNetloc (authorityOf url))) := by
    simp only [splitUrl, urlsplit_eq, h.brackets, checkNetloc, h.refused, if_true]
    rfl
  simp only [Policy.decide, Policy.rejectOverlong_eq_ok.mpr h.short,
    rejectControlCharacters_eq_ok.mpr h.printable, hsplit]
  rfl

/-- The two URLs are quoted together. -/
theorem quotesNetloc_of_sameButUserinfo (hU : U.NfkcByCharacter)
    (h : SameButUserinfo pre info₁ info₂ post url₁ url₂) (hq : p.QuotesNetloc U url₁) :
    p.QuotesNetloc U url₂ := by
  obtain ⟨-, h₁, h₂⟩ := exists_authority h
  have hhost := not_mem_hostinfoOf h.last
  have hinfo₁ := isUserinfoChar_of_alike h.alike
  have hinfo₂ := isUserinfoChar_of_alike h.symm.alike
  have hends : ∀ c ∈ hostinfoOf post, endsNetloc c = false := fun c hc => by
    simpa using List.mem_takeWhile_imp hc
  have hcontrol := forall₂_sameControl h
  refine ⟨?_, ?_, ?_, ?_⟩
  · rw [← hcontrol.length_eq]
    exact hq.short
  · have hfind := List.find?_eq_none.mpr fun c hc => by
      simpa using hq.printable c hc
    rw [(find?_of_sameControl hcontrol).1] at hfind
    intro c hc
    simpa using List.find?_eq_none.mp hfind c hc
  · have hb := hq.brackets
    rw [h₁, checkBrackets_of_userinfo hinfo₁ hhost] at hb
    rw [h₂, checkBrackets_of_userinfo hinfo₂ hhost]
    exact hb
  · have hr := hq.refused
    rw [h₁, nfkcRefuses_of_userinfo hU hinfo₁ hends] at hr
    rw [h₂, nfkcRefuses_of_userinfo hU hinfo₂ hends]
    exact hr

/-- Where no authority is quoted, the parser ends alike on both URLs. -/
theorem agree_splitUrl (hU : U.NfkcByCharacter)
    (h : SameButUserinfo pre info₁ info₂ post url₁ url₂)
    (hplain : checkBrackets U (authorityOf url₁) = .ok () →
      nfkcRefuses U (authorityOf url₁) = false) :
    Except.Agree SameHost (SameReason U) (splitUrl U url₁) (splitUrl U url₂) := by
  obtain ⟨hscheme, h₁, h₂⟩ := exists_authority h
  have hhost := not_mem_hostinfoOf h.last
  have hinfo₁ := isUserinfoChar_of_alike h.alike
  have hinfo₂ := isUserinfoChar_of_alike h.symm.alike
  have hends : ∀ c ∈ hostinfoOf post, endsNetloc c = false := fun c hc => by
    simpa using List.mem_takeWhile_imp hc
  have hbrackets : checkBrackets U (authorityOf url₂) = checkBrackets U (authorityOf url₁) := by
    rw [h₁, h₂, checkBrackets_of_userinfo hinfo₁ hhost, checkBrackets_of_userinfo hinfo₂ hhost]
  have hrefuses : nfkcRefuses U (authorityOf url₂) = nfkcRefuses U (authorityOf url₁) := by
    rw [h₁, h₂, nfkcRefuses_of_userinfo hU hinfo₁ hends, nfkcRefuses_of_userinfo hU hinfo₂ hends]
  simp only [splitUrl, urlsplit_eq, checkNetloc, hbrackets, hrefuses]
  cases hb : checkBrackets U (authorityOf url₁) with
  | error e =>
      obtain ⟨message, rfl⟩ := isValueError_of_checkBrackets hb
      exact .error rfl
  | ok u =>
      rw [hplain hb]
      exact .ok ⟨hscheme, _, _, _, hhost, h₁, h₂⟩

/-- **Two runs, one outcome**: where no authority is quoted, `_decide` ends alike on both URLs. -/
theorem agree_decide (hU : U.NfkcByCharacter) (h : SameButUserinfo pre info₁ info₂ post url₁ url₂)
    (hq : ¬ p.QuotesNetloc U url₁) :
    Except.Agree Eq (SameReason U) (p.decide U url₁) (p.decide U url₂) := by
  have hlength : url₁.length = url₂.length := (forall₂_sameControl h).length_eq
  have hoverlong : Except.Agree Eq (SameReason U) (p.rejectOverlong url₁) (p.rejectOverlong url₂) := by
    simp only [Policy.rejectOverlong, hlength]
    exact .refl (SameReason.refl U) _
  refine .bind hoverlong fun _ _ hshort _ _ =>
    .bind (agree_rejectControlCharacters h) fun _ _ hprintable _ _ =>
    .bind (agree_splitUrl hU h fun hbrackets => ?_) fun s₁ s₂ _ _ hs => agree_afterSplit hs
  by_contra hrefused
  exact hq ⟨Policy.rejectOverlong_eq_ok.mp hshort, rejectControlCharacters_eq_ok.mp hprintable, hbrackets,
    by simpa using hrefused⟩

end Parser

/-! ## The second scan -/

section Scan

variable {pre info₁ info₂ post url₁ url₂ : Str}

theorem slash_not_mem_of_alike (h : List.Forall₂ SamePlace info₁ info₂) : ord '/' ∉ info₁ := by
  induction h with
  | nil => exact List.not_mem_nil
  | cons hcd _ ih =>
      rw [List.mem_cons, not_or]
      refine ⟨?_, ih⟩
      rintro rfl
      rcases hcd with ⟨hc, -⟩ | ⟨hc, -⟩
      · exact absurd hc (by decide)
      · exact absurd hc (by decide)

/-- Cleaning removes no slash. -/
theorem count_slash_cleaned (url : Str) : (cleaned url).count (ord '/') = url.count (ord '/') := by
  have hdrop : (url.dropWhile isC0OrSpace).count (ord '/') = url.count (ord '/') := by
    induction url with
    | nil => rfl
    | cons c url ih =>
        by_cases hc : isC0OrSpace c = true
        · have hne : c ≠ ord '/' := by
            rintro rfl
            exact absurd hc (by decide)
          rw [List.dropWhile_cons_of_pos hc, ih, List.count_cons_of_ne hne]
        · rw [List.dropWhile_cons_of_neg hc]
  rw [cleaned, List.count_filter (by decide), hdrop]

/-- Two slashes in a row before the authority are the only slashes there. -/
theorem split_of_infix (hpre : StartsAuthority pre) (h : text "//" <:+: pre) :
    ∃ before after, pre = before ++ text "//" ++ after ∧ ord '/' ∉ before ∧ ord '/' ∉ after := by
  obtain ⟨before, after, rfl⟩ := h
  obtain ⟨scheme, hclean, hscheme⟩ := hpre
  have hnone : scheme.count (ord '/') = 0 := by
    rw [List.count_eq_zero]
    rcases hscheme with rfl | ⟨name, rfl, -, hall⟩
    · exact List.not_mem_nil
    · intro hmem
      rcases List.mem_append.mp hmem with hname | hcolon
      · exact absurd (List.all_eq_true.mp hall _ hname) (by decide)
      · exact absurd hcolon (by decide)
  have htwo : (text "//").count (ord '/') = 2 := by decide
  have hcount := count_slash_cleaned (before ++ text "//" ++ after)
  -- two slashes in all, and the pair is two
  rw [hclean, List.count_append, List.count_append, List.count_append, hnone, htwo] at hcount
  refine ⟨before, after, rfl, ?_, ?_⟩
  · rw [← List.count_eq_zero]
    omega
  · rw [← List.count_eq_zero]
    omega

/-- Where the scan ends the authority does not depend on what precedes the `@`. -/
theorem exists_cut_of_slash_not_mem (post : Str) :
    ∃ authPost tail, ∀ w : Str, ord '/' ∉ w →
      ((Scan.partition [ord '/'] (w ++ ord '@' :: post)).map fun cut =>
        (cut.1, ord '/' :: cut.2)).getD (w ++ ord '@' :: post, []) =
      (w ++ ord '@' :: authPost, tail) := by
  have hcut : ∀ w : Str, ord '/' ∉ w → Scan.partition [ord '/'] (w ++ ord '@' :: post) =
      (Scan.partition [ord '/'] post).map fun cut => (w ++ [ord '@'] ++ cut.1, cut.2) := by
    intro w hw
    have hdisjoint : ∀ c ∈ w ++ [ord '@'], c ∉ [ord '/'] := by
      intro c hc hslash
      rw [List.mem_singleton.mp hslash, List.mem_append, List.mem_singleton] at hc
      rcases hc with hc | hc
      · exact hw hc
      · exact absurd hc (by decide)
    have hshape : w ++ ord '@' :: post = (w ++ [ord '@']) ++ post := by simp
    rw [hshape, Scan.partition_append_of_disjoint (by simp) hdisjoint]
  cases hp : Scan.partition [ord '/'] post with
  | none =>
      refine ⟨post, [], fun w hw => ?_⟩
      rw [hcut w hw, hp]
      rfl
  | some cut =>
      refine ⟨cut.1, ord '/' :: cut.2, fun w hw => ?_⟩
      rw [hcut w hw, hp]
      simp

/-- What the scan reports of a URL whose slashes stand together, for any userinfo. -/
theorem exists_redacted_of_slashes {before after : Str} (post : Str) (hbefore : ord '/' ∉ before)
    (hafter : ord '/' ∉ after) :
    ∃ reported, ∀ info, ord '/' ∉ info →
      redacted (before ++ text "//" ++ after ++ info ++ ord '@' :: post) = reported := by
  obtain ⟨authPost, tail, hpost⟩ := exists_cut_of_slash_not_mem post
  obtain ⟨host, hhost⟩ := Scan.exists_rpartition_after (ord '@') authPost
  refine ⟨before ++ text "//" ++ redaction ++ text "@" ++ host ++ tail, fun info hinfo => ?_⟩
  have hrest : ord '/' ∉ after ++ info := by
    rw [List.mem_append, not_or]
    exact ⟨hafter, hinfo⟩
  have hcut : Scan.partition (text "//")
      (before ++ text "//" ++ after ++ info ++ ord '@' :: post) =
        some (before, after ++ info ++ ord '@' :: post) := by
    have hshape : before ++ text "//" ++ after ++ info ++ ord '@' :: post =
        before ++ (ord '/' :: [ord '/'] ++ (after ++ info ++ ord '@' :: post)) := by
      simp [text, ord]
    rw [hshape]
    exact Scan.partition_cons_append hbefore _
  obtain ⟨userinfo, hat⟩ := hhost (after ++ info)
  simp only [redacted, hcut, hpost _ hrest, hat]

/-- Where the slashes stand together, the userinfo is cut out. -/
theorem redacted_eq_of_infix (h : SameButUserinfo pre info₁ info₂ post url₁ url₂)
    (hslashes : text "//" <:+: pre) : redacted url₁ = redacted url₂ := by
  obtain ⟨before, after, rfl, hbefore, hafter⟩ := split_of_infix h.starts hslashes
  obtain ⟨reported, hreported⟩ := exists_redacted_of_slashes post hbefore hafter
  rw [h.left, h.right, hreported info₁ (slash_not_mem_of_alike h.alike),
    hreported info₂ (slash_not_mem_of_alike h.symm.alike)]

/-- Where something stands between the slashes, the scan passes the userinfo over. -/
theorem redacted_eq_of_not_infix {info : Str} (hslashes : ¬ text "//" <:+: pre)
    (hinfo : ord '/' ∉ info) :
    redacted (pre ++ info ++ ord '@' :: post) = pre ++ info ++ ord '@' :: redacted post := by
  have hdisjoint : ∀ c ∈ info ++ [ord '@'], c ∉ text "//" := by
    intro c hc hslash
    have hc' : c = ord '/' := by simpa [text, ord] using hslash
    rw [hc', List.mem_append, List.mem_singleton] at hc
    rcases hc with hc | hc
    · exact hinfo hc
    · exact absurd hc (by decide)
  have hshape : ∀ l : Str, pre ++ info ++ ord '@' :: l = pre ++ (info ++ [ord '@']) ++ l := by
    intro l
    simp
  have hcut := Scan.partition_append_of_not_infix (by simp) hslashes hdisjoint post
  rw [hshape, hshape]
  simp only [redacted, hcut]
  cases hp : Scan.partition (text "//") post with
  | none => rfl
  | some cut =>
      simp only [Option.map_some]
      split
      · rfl
      · simp only [List.append_assoc]

/-- The characters `urlsplit` keeps tell two userinfos apart. -/
theorem eq_of_alike_of_filter_eq (h : List.Forall₂ SamePlace info₁ info₂)
    (heq : info₁.filter (!isUnsafe ·) = info₂.filter (!isUnsafe ·)) : info₁ = info₂ := by
  have hsafe : ∀ c, isUserinfoChar c = true → isUnsafe c = false := by
    intro c hc
    have := isUserinfoChar_bounds hc
    simp only [isUnsafe, Bool.or_eq_false_iff, beq_eq_false_iff_ne]
    omega
  induction h with
  | nil => rfl
  | cons hcd _ ih =>
      rcases hcd with ⟨hc, hd⟩ | ⟨hc, rfl⟩
      · simp only [List.filter_cons, hsafe _ hc, hsafe _ hd, Bool.not_false, if_true,
          List.cons.injEq] at heq
        rw [heq.1, ih heq.2]
      · simp only [List.filter_cons, hc, Bool.not_true, Bool.false_eq_true, if_false] at heq
        rw [ih heq]

end Scan

/-! ## What is reported -/

/-- An observer that keeps every decision it is handed. -/
def recorder : Observer (List Decision) := fun decision =>
  Prog.ofFun fun seen => (.ok (), seen ++ [decision])

/-- Every decision `check_url` reports on a URL. -/
def Policy.reported (U : Unicode) (p : Policy) (url : Str) : List Decision :=
  ((p.checkUrl U url (some recorder)).exec []).2

/-- `check_url` reports one decision, the one that goes with how `_decide` ends. -/
theorem Policy.reported_eq (U : Unicode) (p : Policy) (url : Str) :
    p.reported U url = [urlDecision U url (p.decide U url)] := by
  unfold Policy.reported Policy.checkUrl
  cases hd : p.decide U url with
  | ok t => rfl
  | error e =>
      obtain ⟨u, why, rfl⟩ := p.raisesOnly_decide url e hd
      rfl

/-- **Credentials and observers.** Two URLs that differ only in their userinfo are reported alike
exactly when the userinfos are equal, or the two slashes before the authority stand together and the
URL is not one whose authority the parser refuses by quoting it. -/
theorem Policy.reported_eq_iff {U : Unicode} (hU : U.NfkcByCharacter) (p : Policy)
    {pre info₁ info₂ post url₁ url₂ : Str}
    (h : SameButUserinfo pre info₁ info₂ post url₁ url₂) :
    p.reported U url₁ = p.reported U url₂ ↔
      info₁ = info₂ ∨ text "//" <:+: pre ∧ ¬ p.QuotesNetloc U url₁ := by
  have hslash₁ := slash_not_mem_of_alike h.alike
  have hslash₂ := slash_not_mem_of_alike h.symm.alike
  rw [Policy.reported_eq, Policy.reported_eq, List.cons.injEq]
  simp only [and_true]
  constructor
  · intro heq
    by_contra hnot
    rw [not_or, not_and, not_not] at hnot
    obtain ⟨hne, hleak⟩ := hnot
    have hredacted : redacted url₁ = redacted url₂ := by
      have hurl := congrArg Decision.url heq
      cases h₁ : p.decide U url₁ <;> cases h₂ : p.decide U url₂ <;>
        simpa [urlDecision, h₁, h₂] using hurl
    by_cases hslashes : text "//" <:+: pre
    · -- the reason quotes the authority
      have hq := hleak hslashes
      have hq₂ := quotesNetloc_of_sameButUserinfo hU h hq
      have hreason := congrArg Decision.reason heq
      rw [decide_of_quotesNetloc hq, decide_of_quotesNetloc hq₂] at hreason
      simp only [urlDecision, quotedNetloc, Exc.reason_blockedURLError, Option.some.injEq,
        List.append_cancel_left_eq, List.append_cancel_right_eq] at hreason
      obtain ⟨-, ha₁, ha₂⟩ := exists_authority h
      rw [ha₁, ha₂, List.append_cancel_right_eq] at hreason
      exact hne (eq_of_alike_of_filter_eq h.alike hreason)
    · -- the URL itself is reported as it is
      rw [h.left, h.right, redacted_eq_of_not_infix hslashes hslash₁,
        redacted_eq_of_not_infix hslashes hslash₂, List.append_cancel_right_eq,
        List.append_cancel_left_eq] at hredacted
      exact hne hredacted
  · rintro (rfl | ⟨hslashes, hq⟩)
    · rw [h.left, h.right]
    · have hredacted := redacted_eq_of_infix h hslashes
      have hagree := agree_decide hU h hq
      cases h₁ : p.decide U url₁ with
      | ok t₁ =>
          cases h₂ : p.decide U url₂ with
          | ok t₂ =>
              rw [h₁, h₂] at hagree
              obtain rfl : t₁ = t₂ := hagree
              simp only [urlDecision, hredacted]
          | error e => rw [h₁, h₂] at hagree; exact absurd hagree id
      | error e₁ =>
          cases h₂ : p.decide U url₂ with
          | ok t => rw [h₁, h₂] at hagree; exact absurd hagree id
          | error e₂ =>
              rw [h₁, h₂] at hagree
              have hreason : e₁.reason U = e₂.reason U := hagree
              simp only [urlDecision, hredacted, hreason]

/-- Under the default policy nothing tells `http://ab@h/` from `http://cd@h/`. -/
theorem Policy.reported_eq_default :
    Policy.default.reported .ascii (text "http://ab@h/") =
      Policy.default.reported .ascii (text "http://cd@h/") := by
  have hU : Unicode.ascii.NfkcByCharacter :=
    { ascii := fun _ _ => rfl
      delimiter := fun s => by simp [Unicode.ascii] }
  have h : SameButUserinfo (text "http://") (text "ab") (text "cd") (text "h/")
      (text "http://ab@h/") (text "http://cd@h/") :=
    { left := by decide
      right := by decide
      starts := ⟨text "http:", by decide, Or.inr ⟨text "http", by decide⟩⟩
      alike := .cons (Or.inl (by decide)) (.cons (Or.inl (by decide)) .nil)
      last := by decide }
  refine (Policy.reported_eq_iff hU Policy.default h).mpr (Or.inr ⟨by decide, fun hq => ?_⟩)
  exact absurd hq.refused (by decide)

/-- The tables of an interpreter that knows one compatibility character, U+2100. -/
def Unicode.accountOf : Unicode :=
  { Unicode.ascii with nfkc := fun s => s.flatMap fun c => if c = 0x2100 then text "a/c" else [c] }

/-- Two leaks under the default policy: a tab between the slashes keeps the userinfo in the reported
URL, and a host that NFKC turns into `a/c` puts the whole authority into the reported reason. -/
theorem Policy.reported_userinfo :
    (∃ pre post, SameButUserinfo pre (text "ab") (text "cd") post
        (text "http:/\t/ab@h/") (text "http:/\t/cd@h/") ∧
      Policy.default.reported .ascii (text "http:/\t/ab@h/") ≠
        Policy.default.reported .ascii (text "http:/\t/cd@h/")) ∧
    ∃ pre post, SameButUserinfo pre (text "ab") (text "cd") post
        (text "http://ab@" ++ [0x2100]) (text "http://cd@" ++ [0x2100]) ∧
      Policy.default.reported .accountOf (text "http://ab@" ++ [0x2100]) ≠
        Policy.default.reported .accountOf (text "http://cd@" ++ [0x2100]) := by
  have hstarts : ∀ pre, cleaned pre = text "http://" → StartsAuthority pre := fun pre h =>
    ⟨text "http:", h, Or.inr ⟨text "http", by decide⟩⟩
  have halike : List.Forall₂ SamePlace (text "ab") (text "cd") :=
    .cons (Or.inl (by decide)) (.cons (Or.inl (by decide)) .nil)
  refine ⟨⟨text "http:/\t/", text "h/", ?_, by decide +kernel⟩,
    text "http://", [0x2100], ?_, by decide +kernel⟩
  · exact ⟨by decide, by decide, hstarts _ (by decide), halike, by decide⟩
  · exact ⟨by decide, by decide, hstarts _ (by decide), halike, by decide⟩

end SsrfGuard
