import SsrfGuard.Python.Bytes
import Mathlib.Data.List.Lex
import Mathlib.Data.List.Dedup
import Mathlib.Data.List.Sort

/-! # Hosts and host patterns

A host is normalised the way the resolver would normalise it, and then it is one of two things: the
text of an address, or a name in the hostname grammar. An entry of `allowed_hosts` is normalised the
same way and matched on whole labels. -/

namespace SsrfGuard

variable (U : Unicode)

/-- Members of a `frozenset`, each once. -/
abbrev frozenset {α : Type} [DecidableEq α] (l : List α) : List α := l.dedup

/-- `sorted` over texts. -/
def sortedText (l : List Str) : List Str := l.insertionSort (· ≤ ·)

/-! ## Normalisation -/

/-- `_normalise`: the A-label form, lowercased. -/
def normalise (url host : Str) : Except Exc Str :=
  if isAscii host then .ok (host.map lowerChar)
  else
    let unusable (bad : Str) : Exc :=
      .blockedURLError url (text "host " ++ repr U host ++ text " is not a usable name: " ++ bad)
    match U.idna host with
    | .error bad => .error (unusable bad)
    | .ok bytes =>
      match decodeAscii 0 bytes with
      | .error bad => .error (unusable bad)
      | .ok label => .ok (label.map lowerChar)

variable {U}

/-- What `_normalise` returns: an ASCII host lowercased, and of any other what the codec makes of it. -/
theorem normalise_eq_ok {url host s : Str} :
    normalise U url host = .ok s ↔ ∃ label, s = label.map lowerChar ∧ isAscii label = true ∧
      (isAscii host = true → label = host) ∧
      (isAscii host = false → ∃ bytes, U.idna host = .ok bytes ∧ decodeAscii 0 bytes = .ok label) := by
  unfold normalise
  dsimp only
  constructor
  · intro h
    split at h
    · next hascii =>
      cases h
      exact ⟨host, rfl, hascii, fun _ => rfl, fun hnot => by rw [hascii] at hnot; cases hnot⟩
    · next hnot =>
      split at h
      · cases h
      · next bytes hbytes =>
        split at h
        · cases h
        · next label hlabel =>
          cases h
          exact ⟨label, rfl, isAscii_of_decodeAscii hlabel, fun h => absurd h hnot,
            fun _ => ⟨bytes, hbytes, hlabel⟩⟩
  · rintro ⟨label, rfl, -, hself, hcodec⟩
    by_cases hascii : isAscii host = true
    · rw [if_pos hascii, hself hascii]
    · obtain ⟨bytes, hbytes, hlabel⟩ := hcodec (Bool.eq_false_iff.mpr hascii)
      rw [if_neg hascii, hbytes]
      dsimp only
      rw [hlabel]

/-- A normalised host is ASCII. -/
theorem isAscii_of_normalise {url host s : Str} (h : normalise U url host = .ok s) :
    isAscii s = true := by
  obtain ⟨label, rfl, hlabel, -⟩ := normalise_eq_ok.mp h
  exact isAscii_map_lowerChar hlabel

/-- What has been normalised is in lower case. -/
theorem map_lowerChar_of_normalise {url host s : Str} (h : normalise U url host = .ok s) :
    s.map lowerChar = s := by
  obtain ⟨label, rfl, -⟩ := normalise_eq_ok.mp h
  exact map_lowerChar_map_lowerChar label

/-- The ASCII half of the normalisation only lowercases. -/
theorem eq_of_normalise {url host s : Str} (h : normalise U url host = .ok s) (hascii : isAscii host = true) :
    s = host.map lowerChar := by
  obtain ⟨label, rfl, -, hself, -⟩ := normalise_eq_ok.mp h
  rw [hself hascii]

/-- A refused normalisation is a refusal of the URL it was given. -/
theorem exists_reason_of_normalise {url host : Str} {e : Exc} (h : normalise U url host = .error e) :
    ∃ why, e = .blockedURLError url why := by
  rw [normalise] at h
  split at h
  · cases h
  · split at h
    · cases h; exact ⟨_, rfl⟩
    · split at h
      · cases h; exact ⟨_, rfl⟩
      · cases h

/-! ## The two shapes of a host -/

/-- Drop one newline at the end: what `$` tolerates. -/
def dropFinalNewline (s : Str) : Str := if s.getLast? = some 0x0A then s.dropLast else s

/-- `[a-z]` under `re.IGNORECASE`, which folds four letters outside ASCII into the range. -/
def isHostLetter (c : ℕ) : Bool :=
  isLetter c || c == 0x130 || c == 0x131 || c == 0x17F || c == 0x212A

/-- `[a-z0-9]` under `re.IGNORECASE`. -/
def isHostAlnum (c : ℕ) : Bool := isHostLetter c || isDigit c

/-- `[a-z0-9-]` under `re.IGNORECASE`. -/
def isHostChar (c : ℕ) : Bool := isHostAlnum c || c == ord '-'

/-- `[a-z0-9](?:[a-z0-9-]{0,61}[a-z0-9])?`. -/
def isHostLabel (s : Str) : Bool :=
  decide (s.length ≤ 63) && s.all isHostChar && s.head?.any isHostAlnum && s.getLast?.any isHostAlnum

/-- `[a-z0-9-]{1,63}`. -/
def isLastHostLabel (s : Str) : Bool := !s.isEmpty && decide (s.length ≤ 63) && s.all isHostChar

/-- A list of labels the grammar accepts, the last one under the looser rule. -/
def areHostLabels : List Str → Bool
  | [] => false
  | [last] => isLastHostLabel last
  | label :: labels => isHostLabel label && areHostLabels labels

/-- The labels of a name, without the empty one a trailing dot leaves behind. -/
def hostLabels (s : Str) : List Str :=
  let parts := split '.' s
  if parts.getLast? = some [] then parts.dropLast else parts

/-- `_HOSTNAME.match(host) is not None`. -/
def hostnameMatch (host : Str) : Bool := areHostLabels (hostLabels (dropFinalNewline host))

theorem isHostChar_of_areHostLabels {labels : List Str} (h : areHostLabels labels = true) {label : Str}
    (hlabel : label ∈ labels) {c : ℕ} (hc : c ∈ label) : isHostChar c = true := by
  induction labels with
  | nil => cases hlabel
  | cons first rest ih =>
      cases rest with
      | nil =>
          rw [List.mem_singleton.mp hlabel] at hc
          rw [areHostLabels, isLastHostLabel, Bool.and_eq_true] at h
          exact List.all_eq_true.mp h.2 c hc
      | cons next rest =>
          obtain ⟨hfirst, hrest⟩ := Bool.and_eq_true_iff.mp h
          rcases List.mem_cons.mp hlabel with rfl | hlabel
          · rw [isHostLabel, Bool.and_eq_true, Bool.and_eq_true, Bool.and_eq_true] at hfirst
            exact List.all_eq_true.mp hfirst.1.1.2 c hc
          · exact ih hrest hlabel

/-- A name of the grammar is made of host characters and dots, but for a newline at its end. -/
theorem isHostChar_of_hostnameMatch {host : Str} (h : hostnameMatch host = true) (hnewline : 0x0A ∉ host)
    {c : ℕ} (hc : c ∈ host) (hdot : c ≠ ord '.') : isHostChar c = true := by
  have hdrop : dropFinalNewline host = host := by
    rw [dropFinalNewline, if_neg]
    exact fun hlast => hnewline (List.mem_of_getLast? hlast)
  rw [hostnameMatch, hdrop] at h
  obtain ⟨part, hpart, hcp⟩ := mem_split hc hdot
  refine isHostChar_of_areHostLabels h ?_ hcp
  have hlabels : hostLabels host =
      if (split '.' host).getLast? = some [] then (split '.' host).dropLast else split '.' host := rfl
  rw [hlabels]
  split
  · next hlast =>
    -- the label a trailing dot leaves behind is empty
    have hparts := List.dropLast_append_getLast? [] hlast
    rw [← hparts, List.mem_append, List.mem_singleton] at hpart
    rcases hpart with hpart | rfl
    · exact hpart
    · cases hcp
  · exact hpart

/-- `_NUMERIC_SHAPED.match(host) is not None`. -/
def numericShaped (host : Str) : Bool :=
  !(dropFinalNewline host).isEmpty && isDigitsAndDots (dropFinalNewline host)

variable (U) in
/-- `_literal_address`: the address a host spells, or `None` where it is a name. -/
def literalAddress (host : Str) : Option IPAddress :=
  match ipAddress U host with
  | .ok address => some address
  | .error _ => none

theorem literalAddress_eq (U : Unicode) (host : Str) :
    literalAddress U host = parseAddress host := by
  unfold literalAddress ipAddress
  cases parseAddress host <;> rfl

/-- The shape test in front of the parser turns no literal away. -/
theorem numericShaped_of_isDigitsAndDots {host : Str} (hne : host ≠ [])
    (h : isDigitsAndDots host = true) : numericShaped host = true := by
  have hdrop : dropFinalNewline host = host := by
    rw [dropFinalNewline, if_neg]
    intro hlast
    have hmem : 0x0A ∈ host := List.mem_of_getLast? hlast
    have hchar := List.all_eq_true.mp h 0x0A hmem
    exact absurd hchar (by decide)
  rw [numericShaped, hdrop, h, Bool.and_true]
  simpa using hne

/-! ## `allowed_hosts` -/

variable (U) in
/-- One entry of `allowed_hosts`, normalised the way a host is. -/
def asHostPattern (pattern : Str) : Except Exc Str :=
  let entry := rstripDots (strip pattern)
  let contains := text "allowed_hosts contains " ++ repr U pattern
  if entry = [] then .error (.valueError (contains ++ text ", which names no host"))
  else
    let (head, rest) := (Scan.partition [ord '.'] entry).getD (entry, [])
    if ord '*' ∈ rest ∨ ord '*' ∈ head ∧ head ≠ text "*" then
      .error (.valueError (contains ++ text "; '*' is only meaningful as the whole of " ++
        text "the leftmost label, as in '*.example.com'"))
    else if head = text "*" ∧ rest = [] then
      .error (.valueError (contains ++ text ", which would permit every host; leave " ++
        text "allowed_hosts empty instead, which is what 'no name restriction' means"))
    else
      -- a constructor raises `ValueError`, so the refusal of the codec is reworded
      let reworded (e : Exc) : Exc :=
        .valueError (contains ++ text ", which is not a usable name: " ++ e.reason U)
      if head = text "*" then
        ((normalise U pattern rest).map (text "*." ++ ·)).mapError reworded
      else (normalise U pattern entry).mapError reworded

variable (U) in
/-- `_as_host_patterns`. -/
def asHostPatterns : List Str → Except Exc (List Str)
  | [] => .ok []
  | pattern :: patterns =>
    match asHostPattern U pattern with
    | .error e => .error e
    | .ok entry => (asHostPatterns patterns).map fun out => frozenset (entry :: out)

/-- Whether a pattern permits a host: a wildcard matches names below it, everything else exactly. -/
def patternPermits (name : Str) (literal : Bool) (pattern : Str) : Bool :=
  if literal then name == pattern
  else if (text "*.").isPrefixOf pattern then
    -- the leading dot stays, so the label boundary is part of the comparison
    let suffix := pattern.drop 1
    suffix.isSuffixOf name && decide (suffix.length < name.length)
  else name == pattern

/-- `_host_is_allowed`. -/
def hostIsAllowed (host : Str) (patterns : List Str) (literal : Bool) : Bool :=
  patterns.any (patternPermits (rstripDots host) literal)

/-- A wildcard never matches a literal: it has to be listed as it is written. -/
theorem mem_of_hostIsAllowed_literal {host : Str} {patterns : List Str}
    (h : hostIsAllowed host patterns true = true) : rstripDots host ∈ patterns := by
  obtain ⟨pattern, hp, heq⟩ := List.any_eq_true.mp h
  rw [patternPermits, if_pos rfl, beq_iff_eq] at heq
  rw [heq]
  exact hp

/-- A wildcard stands for at least one further label: what it matches is not its own base. -/
theorem base_lt_of_patternPermits {name base : Str}
    (h : patternPermits name false (text "*." ++ base) = true) :
    ∃ label, label ≠ [] ∧ name = label ++ text "." ++ base := by
  have hlead : (text "*.").isPrefixOf (text "*." ++ base) = true :=
    List.isPrefixOf_iff_prefix.mpr (List.prefix_append _ _)
  rw [patternPermits, if_neg (by decide), if_pos hlead, Bool.and_eq_true] at h
  obtain ⟨hsuffix, hlen⟩ := h
  obtain ⟨label, hlabel⟩ := List.isSuffixOf_iff_suffix.mp hsuffix
  refine ⟨label, ?_, ?_⟩
  · rintro rfl
    have hlt := of_decide_eq_true hlen
    rw [← hlabel] at hlt
    simp at hlt
  · rw [← hlabel]
    simp [text]

/-- `_nearest_pattern`: the listed entry a refused host most nearly matched. -/
def nearestPattern (host : Str) (patterns : List Str) : Option Str :=
  let name := rstripDots host
  (sortedText patterns).find? fun pattern =>
    let bare := if (text "*.").isPrefixOf pattern then pattern.drop 2 else pattern
    name == bare || (text "." ++ bare).isSuffixOf name || (text "." ++ name).isSuffixOf bare

end SsrfGuard
