import SsrfGuard.Python.IpAddress

/-! # `urllib.parse.urlsplit`

As CPython 3.13 computes it: leading control characters and spaces are stripped and tab, CR and LF
removed from anywhere before the text is read, the authority ends at the first of `/?#`, brackets must
be balanced and hold an IPv6 literal, and an authority that NFKC would turn into delimiters is refused
with a message that quotes it. The path, the query and the fragment are left out: nothing here reads
them. -/

namespace SsrfGuard

variable (U : Unicode)

/-! ## What is read -/

/-- One of the characters `urlsplit` strips from the front. -/
def isC0OrSpace (c : ℕ) : Bool := c ≤ 0x20

/-- One of the characters `urlsplit` removes from anywhere. -/
def isUnsafe (c : ℕ) : Bool := c == 0x09 || c == 0x0D || c == 0x0A

/-- The text that is parsed. -/
def cleaned (url : Str) : Str := (url.dropWhile isC0OrSpace).filter (!isUnsafe ·)

/-- A character of `scheme_chars`. -/
def isSchemeChar (c : ℕ) : Bool :=
  isLetter c || isDigit c || c == ord '+' || c == ord '-' || c == ord '.'

/-- The scheme and what follows its colon, or no scheme and the whole text. -/
def splitScheme (url : Str) : Str × Str :=
  match Scan.partition [ord ':'] url with
  | none => ([], url)
  | some (scheme, rest) =>
    if scheme.head?.any isLetter && scheme.all isSchemeChar then (scheme.map lowerChar, rest)
    else ([], url)

/-- One of the characters that end an authority. -/
def endsNetloc (c : ℕ) : Bool := c == ord '/' || c == ord '?' || c == ord '#'

/-- `_splitnetloc`: the authority of a text that starts with `//`, and what follows it. -/
def splitNetloc (rest : Str) : Str := (rest.drop 2).takeWhile (!endsNetloc ·)

/-! ## What is refused -/

/-- The error of an authority whose brackets do not add up. -/
def invalidIpv6Url : Exc := .valueError (text "Invalid IPv6 URL")

/-- `\Av[a-fA-F0-9]+\..+\Z`: an address of a future version, after its `v`. -/
def isIpvFuture (s : Str) : Bool :=
  match s with
  | [] => false
  | v :: rest =>
    v == ord 'v' && !(rest.takeWhile fun c => (hexValue c).isSome).isEmpty &&
      match rest.dropWhile fun c => (hexValue c).isSome with
      | dot :: c :: after => dot == ord '.' && (c :: after).all (· != 0x0A)
      | _ => false

/-- `_check_bracketed_host`. -/
def checkBracketedHost (hostname : Str) : Except Exc Unit :=
  if hostname.head? = some (ord 'v') then
    if isIpvFuture hostname then .ok () else .error (.valueError (text "IPvFuture address is invalid"))
  else
    match ipAddress U hostname with
    | .error e => .error e
    | .ok (.v4 _) => .error (.valueError (text "An IPv4 address cannot be in brackets"))
    | .ok (.v6 _ _) => .ok ()

/-- What stands after the last `@` of an authority. -/
def afterUserinfo (netloc : Str) : Str :=
  match Scan.rpartition (ord '@') netloc with
  | some (_, hostinfo) => hostinfo
  | none => netloc

/-- `_check_bracketed_netloc`. -/
def checkBracketedNetloc (netloc : Str) : Except Exc Unit :=
  let hostnameAndPort := afterUserinfo netloc
  match Scan.partition [ord '['] hostnameAndPort with
  | some (before, bracketed) =>
    if before ≠ [] then .error invalidIpv6Url
    else
      let host := (Scan.partition [ord ']'] bracketed).getD (bracketed, [])
      if host.2 ≠ [] ∧ host.2.head? ≠ some (ord ':') then .error invalidIpv6Url
      else checkBracketedHost U host.1
  | none =>
    checkBracketedHost U ((Scan.partition [ord ':'] hostnameAndPort).getD (hostnameAndPort, [])).1

/-- The bracket checks of `urlsplit`. -/
def checkBrackets (netloc : Str) : Except Exc Unit :=
  if ord '[' ∈ netloc ∧ ord ']' ∉ netloc ∨ ord ']' ∈ netloc ∧ ord '[' ∉ netloc then
    .error invalidIpv6Url
  else if ord '[' ∈ netloc ∧ ord ']' ∈ netloc then checkBracketedNetloc U netloc
  else .ok ()

/-- One of the delimiters `_checknetloc` sets aside. -/
def isKnownDelimiter (c : ℕ) : Bool := c == ord '@' || c == ord ':' || c == ord '#' || c == ord '?'

/-- One of the delimiters that must not appear under NFKC. -/
def isDelimiter (c : ℕ) : Bool := c == ord '/' || isKnownDelimiter c

/-- Whether NFKC makes delimiters out of an authority. -/
def nfkcRefuses (netloc : Str) : Bool :=
  let known := netloc.filter (!isKnownDelimiter ·)
  !isAscii netloc && U.nfkc known != known && (U.nfkc known).any isDelimiter

/-- `_checknetloc`: the message quotes the authority. -/
def checkNetloc (netloc : Str) : Except Exc Unit :=
  if nfkcRefuses U netloc then
    .error (.valueError (text "netloc '" ++ netloc ++ text "' contains invalid " ++
      text "characters under NFKC normalization"))
  else .ok ()

/-! ## The result -/

/-- `SplitResult`: the parts the policy reads. -/
structure SplitResult where
  /-- The scheme, lower-cased, empty where there is none. -/
  scheme : Str
  /-- The authority. -/
  netloc : Str
  deriving DecidableEq

/-- The authority of what follows the scheme, empty unless `//` introduces one. -/
def netlocOf (rest : Str) : Str := if (text "//").isPrefixOf rest then splitNetloc rest else []

/-- `urlsplit(url)`. -/
def urlsplit (url : Str) : Except Exc SplitResult :=
  let parts := splitScheme (cleaned url)
  match checkBrackets U (netlocOf parts.2) with
  | .error e => .error e
  | .ok () =>
    match checkNetloc U (netlocOf parts.2) with
    | .error e => .error e
    | .ok () => .ok ⟨parts.1, netlocOf parts.2⟩

namespace SplitResult

variable (s : SplitResult)

/-- `_userinfo`: the user name and the password. -/
def userinfo : Option Str × Option Str :=
  match Scan.rpartition (ord '@') s.netloc with
  | none => (none, none)
  | some (userinfo, _) =>
    match Scan.partition [ord ':'] userinfo with
    | some (username, password) => (some username, some password)
    | none => (some userinfo, none)

/-- `_hostinfo`: the host, out of its brackets, and the port text where there is one. -/
def hostinfo : Str × Option Str :=
  let info := afterUserinfo s.netloc
  let parts :=
    match Scan.partition [ord '['] info with
    | some (_, bracketed) =>
      let host := (Scan.partition [ord ']'] bracketed).getD (bracketed, [])
      (host.1, ((Scan.partition [ord ':'] host.2).getD (host.2, [])).2)
    | none => (Scan.partition [ord ':'] info).getD (info, [])
  (parts.1, if parts.2 = [] then none else some parts.2)

/-- `username`. -/
def username : Option Str := s.userinfo.1

/-- `password`. -/
def password : Option Str := s.userinfo.2

/-- `hostname`: lower-cased up to a zone identifier. -/
def hostname : Option Str :=
  let hostname := s.hostinfo.1
  if hostname = [] then none
  else
    match Scan.partition [ord '%'] hostname with
    | none => some (lower U hostname)
    | some (address, zone) => some (lower U address ++ text "%" ++ zone)

/-- `port`. The interpreter reads no decimal text of more than 4300 digits. -/
def port : Except Exc (Option ℤ) :=
  match s.hostinfo.2 with
  | none => .ok none
  | some port =>
    if !isDigits port then
      .error (.valueError (text "Port could not be cast to integer value as " ++ repr U port))
    else if 4300 < port.length then
      .error (.valueError (text "Exceeds the limit (4300 digits) for integer string conversion: " ++
        text "value has " ++ natText port.length ++
        text " digits; use sys.set_int_max_str_digits() to increase the limit"))
    else if 65535 < decimalValue port then .error (.valueError (text "Port out of range 0-65535"))
    else .ok (some (decimalValue port))

end SplitResult

variable {U}

/-! ## Parts of what is parsed -/

theorem subset_of_partition {sep l before after : Str} (h : Scan.partition sep l = some (before, after)) :
    before ⊆ l ∧ after ⊆ l := by
  rw [Scan.partition_eq_append h]
  exact ⟨fun c hc => List.mem_append_left _ (List.mem_append_left _ hc), fun c hc => List.mem_append_right _ hc⟩

theorem subset_of_getD_partition (sep l : Str) :
    ((Scan.partition sep l).getD (l, [])).1 ⊆ l ∧ ((Scan.partition sep l).getD (l, [])).2 ⊆ l := by
  cases h : Scan.partition sep l with
  | none => exact ⟨fun _ hc => hc, List.nil_subset _⟩
  | some cut => exact subset_of_partition h

theorem afterUserinfo_subset (netloc : Str) : afterUserinfo netloc ⊆ netloc := by
  rw [afterUserinfo]
  cases h : Scan.rpartition (ord '@') netloc with
  | none => exact fun _ hc => hc
  | some cut =>
      rw [Scan.rpartition_eq_append h]
      exact fun _ hc => List.mem_append_right _ (List.mem_cons_of_mem _ hc)

theorem netlocOf_subset (rest : Str) : netlocOf rest ⊆ rest := by
  rw [netlocOf]
  split
  · exact fun c hc => (List.drop_subset 2 rest) ((List.takeWhile_sublist _).subset hc)
  · exact List.nil_subset _

theorem cleaned_subset (url : Str) : cleaned url ⊆ url := fun _ hc =>
  (List.dropWhile_sublist _).subset (List.mem_of_mem_filter hc)

/-- What `urlsplit` returns. -/
theorem urlsplit_eq_ok {url : Str} {split : SplitResult} (h : urlsplit U url = .ok split) :
    split = ⟨(splitScheme (cleaned url)).1, netlocOf (splitScheme (cleaned url)).2⟩ := by
  unfold urlsplit at h
  simp only at h
  split at h
  · cases h
  · split at h
    · cases h
    · cases h
      rfl

theorem isSchemeChar_lowerChar {c : ℕ} (h : isSchemeChar c = true) : isSchemeChar (lowerChar c) = true := by
  unfold lowerChar
  split
  · next hupper =>
    have hletter : isLetter (c + 0x20) = true := by
      simp only [isLetter, Bool.or_eq_true, Bool.and_eq_true, decide_eq_true_eq]
      omega
    rw [isSchemeChar, hletter]
    rfl
  · exact h

theorem isLetter_lowerChar {c : ℕ} (h : isLetter c = true) : isLetter (lowerChar c) = true := by
  unfold lowerChar
  simp only [isLetter, Bool.or_eq_true, Bool.and_eq_true, decide_eq_true_eq] at h ⊢
  split <;> omega

/-- A scheme starts with a letter, is made of scheme characters and is in lower case. -/
theorem scheme_of_splitScheme {url : Str} (hne : (splitScheme url).1 ≠ []) :
    (splitScheme url).1.head?.any isLetter = true ∧ (splitScheme url).1.all isSchemeChar = true ∧
      (splitScheme url).1.map lowerChar = (splitScheme url).1 := by
  unfold splitScheme at hne ⊢
  split
  · next hnone =>
    rw [hnone] at hne
    exact absurd rfl hne
  · next scheme rest hcut =>
    rw [hcut] at hne
    dsimp only at hne
    split
    · next hchars =>
      rw [Bool.and_eq_true] at hchars
      refine ⟨?_, ?_, ?_⟩
      · cases scheme with
        | nil => cases hchars.1
        | cons c scheme => exact isLetter_lowerChar hchars.1
      · rw [List.all_map, List.all_eq_true]
        exact fun c hc => isSchemeChar_lowerChar (List.all_eq_true.mp hchars.2 c hc)
      · exact map_lowerChar_map_lowerChar scheme
    · next hchars =>
      rw [if_neg hchars] at hne
      exact absurd rfl hne

theorem splitScheme_subset (url : Str) : (splitScheme url).2 ⊆ url := by
  unfold splitScheme
  split
  · exact fun _ hc => hc
  · next hcut =>
    split
    · exact (subset_of_partition hcut).2
    · exact fun _ hc => hc

namespace SplitResult

theorem hostinfo_subset (s : SplitResult) : s.hostinfo.1 ⊆ s.netloc := by
  refine fun c hc => afterUserinfo_subset s.netloc ?_
  unfold hostinfo at hc
  dsimp only at hc
  split at hc
  · next bracketed hcut =>
    exact (subset_of_partition hcut).2 ((subset_of_getD_partition [ord ']'] bracketed).1 hc)
  · exact (subset_of_getD_partition _ _).1 hc

/-- The host of an ASCII authority is ASCII. -/
theorem isAscii_hostname {s : SplitResult} {host : Str} (h : s.hostname U = some host)
    (hascii : isAscii s.netloc = true) : isAscii host = true := by
  have hinfo : isAscii s.hostinfo.1 = true := isAscii_of_subset s.hostinfo_subset hascii
  unfold hostname at h
  dsimp only at h
  split at h
  · cases h
  · split at h
    · cases h
      rw [lower_of_isAscii U hinfo]
      exact isAscii_map_lowerChar hinfo
    · next address zone hcut =>
      cases h
      obtain ⟨haddress, hzone⟩ := subset_of_partition hcut
      have haddress := isAscii_of_subset haddress hinfo
      rw [isAscii_append, isAscii_append, lower_of_isAscii U haddress, isAscii_map_lowerChar haddress,
        isAscii_of_subset hzone hinfo]
      decide

end SplitResult

/-! ## Only `ValueError` -/

/-- Whether an exception is a `ValueError`. -/
def Exc.IsValueError (e : Exc) : Prop := ∃ message, e = .valueError message

theorem isValueError_of_checkBracketedHost {hostname : Str} {e : Exc}
    (h : checkBracketedHost U hostname = .error e) : e.IsValueError := by
  rw [checkBracketedHost] at h
  split at h
  · split at h
    · cases h
    · cases h; exact ⟨_, rfl⟩
  · rw [ipAddress] at h
    cases hp : parseAddress hostname with
    | none => rw [hp] at h; cases h; exact ⟨_, rfl⟩
    | some a =>
        rw [hp] at h
        cases a with
        | v4 ip => cases h; exact ⟨_, rfl⟩
        | v6 ip zone => cases h

theorem isValueError_of_checkBracketedNetloc {netloc : Str} {e : Exc}
    (h : checkBracketedNetloc U netloc = .error e) : e.IsValueError := by
  simp only [checkBracketedNetloc] at h
  split at h
  · split_ifs at h
    · cases h; exact ⟨_, rfl⟩
    · cases h; exact ⟨_, rfl⟩
    · exact isValueError_of_checkBracketedHost h
  · exact isValueError_of_checkBracketedHost h

theorem isValueError_of_checkBrackets {netloc : Str} {e : Exc}
    (h : checkBrackets U netloc = .error e) : e.IsValueError := by
  rw [checkBrackets] at h
  split_ifs at h
  · cases h; exact ⟨_, rfl⟩
  · exact isValueError_of_checkBracketedNetloc h

theorem isValueError_of_checkNetloc {netloc : Str} {e : Exc}
    (h : checkNetloc U netloc = .error e) : e.IsValueError := by
  rw [checkNetloc] at h
  split_ifs at h
  cases h
  exact ⟨_, rfl⟩

/-- `urlsplit` raises nothing but `ValueError`. -/
theorem isValueError_of_urlsplit {url : Str} {e : Exc} (h : urlsplit U url = .error e) :
    e.IsValueError := by
  unfold urlsplit at h
  simp only at h
  split at h
  · next hb => cases h; exact isValueError_of_checkBrackets hb
  · split at h
    · next hn => cases h; exact isValueError_of_checkNetloc hn
    · cases h

/-- `.port` raises nothing but `ValueError`. -/
theorem SplitResult.isValueError_of_port {s : SplitResult} {e : Exc} (h : s.port U = .error e) :
    e.IsValueError := by
  rw [SplitResult.port] at h
  split at h
  · cases h
  · split_ifs at h <;> cases h <;> exact ⟨_, rfl⟩

end SsrfGuard
