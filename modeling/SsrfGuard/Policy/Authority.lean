import SsrfGuard.Requests.Origin

/-! # The authority decides

HTTP libraries keep connections by origin: one that was opened for a URL also serves the next URL with the same
scheme and authority. That is sound because `check_url` does not look further. A URL it accepts is a scheme, an
authority and a tail, the path, the query and the fragment; and the same scheme and authority are accepted alone, or
with any other tail that is short enough and printable, for the same target. -/

namespace SsrfGuard

variable {U : Unicode} {p : Policy}

/-! ## The parts -/

/-- A URL cut behind its scheme and behind its authority. -/
structure UrlParts where
  /-- What stands before the first colon. -/
  scheme : Str
  /-- What stands between `//` and the tail. -/
  authority : Str
  /-- The path, the query and the fragment. -/
  tail : Str
  /-- The first colon is the one behind the scheme. -/
  colon_not_mem : ord ':' ∉ scheme
  /-- The authority is not ended before its end. -/
  authority_open : ∀ c ∈ authority, endsNetloc c = false
  /-- It is ended there. -/
  tail_ends : ∀ c, tail.head? = some c → endsNetloc c = true

namespace UrlParts

/-- The URL. -/
def url (parts : UrlParts) : Str := parts.scheme ++ ord ':' :: (text "//" ++ (parts.authority ++ parts.tail))

/-- The same scheme and authority with nothing after them. -/
def bare (parts : UrlParts) : UrlParts :=
  { parts with tail := [], tail_ends := fun _ h => nomatch h }

variable (parts : UrlParts)

theorem url_eq_append : parts.url = parts.bare.url ++ parts.tail := by
  rw [url, url, bare, List.append_nil, List.append_assoc, List.cons_append, List.append_assoc]

/-- The scheme is valid: it starts with a letter and is made of scheme characters. -/
def Valid : Prop := (parts.scheme.head?.any isLetter && parts.scheme.all isSchemeChar) = true

theorem splitScheme_url (h : parts.Valid) :
    splitScheme parts.url = (parts.scheme.map lowerChar, text "//" ++ (parts.authority ++ parts.tail)) := by
  rw [splitScheme, url, Scan.partition_singleton_append parts.colon_not_mem]
  exact if_pos h

theorem valid_of_splitScheme (h : (splitScheme parts.url).1 ≠ []) : parts.Valid := by
  rw [splitScheme, url, Scan.partition_singleton_append parts.colon_not_mem] at h
  dsimp only at h
  by_contra hinvalid
  exact h (congrArg Prod.fst (if_neg hinvalid))

/-- The authority ends where the tail starts. -/
theorem netlocOf_url : netlocOf (text "//" ++ (parts.authority ++ parts.tail)) = parts.authority := by
  rw [netlocOf, if_pos (List.isPrefixOf_iff_prefix.mpr (List.prefix_append _ _)), splitNetloc]
  have hdrop : (text "//" ++ (parts.authority ++ parts.tail)).drop 2 = parts.authority ++ parts.tail := rfl
  have hopen : ∀ c ∈ parts.authority, (!endsNetloc c) = true := fun c hc => by rw [parts.authority_open c hc]; rfl
  rw [hdrop, List.takeWhile_append_of_pos hopen]
  cases htail : parts.tail with
  | nil => exact List.append_nil _
  | cons c tail =>
      have hends : endsNetloc c = true := parts.tail_ends c (by rw [htail]; rfl)
      rw [List.takeWhile_cons_of_neg (by rw [hends]; exact Bool.false_ne_true), List.append_nil]

/-- What is split does not depend on the tail. -/
theorem urlsplit_url (h : parts.Valid) (hclean : ∀ c ∈ parts.url, isControlCharacter c = false) :
    urlsplit U parts.url = urlsplit U parts.bare.url := by
  have hbare : ∀ c ∈ parts.bare.url, isControlCharacter c = false := by
    intro c hc
    rw [url_eq_append] at hclean
    exact hclean c (List.mem_append_left _ hc)
  rw [urlsplit, urlsplit, cleaned_eq_self hclean, cleaned_eq_self hbare, parts.splitScheme_url h,
    parts.bare.splitScheme_url h]
  dsimp only
  rw [netlocOf_url, netlocOf_url]
  rfl

end UrlParts

/-! ## What is asked of a URL -/

variable {url other : Str}

theorem splitUrl_eq_ok {split : SplitResult} : splitUrl U url = .ok split ↔ urlsplit U url = .ok split := by
  refine ⟨urlsplit_of_splitUrl, fun h => ?_⟩
  rw [splitUrl, h]
  rfl

/-- The steps after the split do not read the URL: they quote it. -/
theorem Policy.decide_of_urlsplit_eq {t : Target} (h : p.decide U url = .ok t)
    (hsplit : urlsplit U other = urlsplit U url) (hlength : (other.length : ℤ) ≤ p.maxUrlLength)
    (hclean : ∀ c ∈ other, isControlCharacter c = false) : p.decide U other = .ok t := by
  obtain ⟨split, hurl, hscheme, huserinfo, hhost, hport, hlisted, hliteral⟩ := Policy.decide_eq_ok h
  refine Policy.decide_eq_ok_iff.mpr ⟨hlength, hclean, split, ?_, ?_, ?_, ?_, ?_, ?_, ?_⟩
  · rw [splitUrl_eq_ok, hsplit]
    exact urlsplit_of_splitUrl hurl
  · exact Policy.checkScheme_eq_ok.mpr (Policy.checkScheme_eq_ok.mp hscheme)
  · unfold Policy.checkUserinfo at huserinfo ⊢
    split_ifs at huserinfo ⊢
    · rfl
    · rfl
  · obtain ⟨hraw, hne, hpercent, hshort, hnormalise, hclassify⟩ := checkHost_eq_ok.mp hhost
    exact checkHost_eq_ok.mpr ⟨hraw, hne, hpercent, hshort, normalise_eq_ok.mpr (normalise_eq_ok.mp hnormalise),
      classifyHost_eq_ok_of hclassify⟩
  · exact Policy.checkPort_eq_ok.mpr (Policy.checkPort_eq_ok.mp hport)
  · exact Policy.checkListed_eq_ok.mpr (Policy.checkListed_eq_ok.mp hlisted)
  · exact Policy.checkLiteral_eq_ok.mpr (Policy.checkLiteral_eq_ok.mp hliteral)

/-- A text with a scheme and an authority has the three parts. -/
theorem exists_parts (hscheme : (splitScheme url).1 ≠ []) (hnetloc : netlocOf (splitScheme url).2 ≠ []) :
    ∃ parts : UrlParts, parts.url = url := by
  cases hcut : Scan.partition [ord ':'] url with
  | none =>
      rw [splitScheme, hcut] at hscheme
      exact absurd rfl hscheme
  | some cut =>
      obtain ⟨scheme, rest⟩ := cut
      have hrest : (splitScheme url).2 = rest := by
        rw [splitScheme, hcut] at hscheme ⊢
        dsimp only at hscheme ⊢
        by_cases hvalid : (scheme.head?.any isLetter && scheme.all isSchemeChar) = true
        · rw [if_pos hvalid]
        · rw [if_neg hvalid] at hscheme
          exact absurd rfl hscheme
      rw [hrest, netlocOf] at hnetloc
      obtain ⟨hurl, hcolon⟩ := Scan.partition_singleton_eq_some.mp hcut
      split_ifs at hnetloc with hslashes
      · obtain ⟨after, hafter⟩ := List.isPrefixOf_iff_prefix.mp hslashes
        let parts : UrlParts :=
          { scheme := scheme
            authority := after.takeWhile (!endsNetloc ·)
            tail := after.dropWhile (!endsNetloc ·)
            colon_not_mem := hcolon
            authority_open := fun c hc => by simpa using List.mem_takeWhile_imp hc
            tail_ends := fun c hc => by
              have hstop := List.head?_dropWhile_not (!endsNetloc ·) after
              rw [hc] at hstop
              simpa using hstop }
        refine ⟨parts, ?_⟩
        rw [UrlParts.url, List.takeWhile_append_dropWhile, hafter, hurl]
      · exact absurd rfl hnetloc

/-- A URL that is accepted has a scheme and an authority. -/
theorem Policy.splitScheme_of_decide {t : Target} (h : p.decide U url = .ok t) :
    (splitScheme url).1 ≠ [] ∧ netlocOf (splitScheme url).2 ≠ [] := by
  obtain ⟨-, hclean, split, hsplit, hscheme, -, hhost, -⟩ := Policy.decide_eq_ok_iff.mp h
  have hparts := urlsplit_eq_ok (urlsplit_of_splitUrl hsplit)
  rw [cleaned_eq_self hclean] at hparts
  constructor
  · obtain ⟨hlower, hne, -⟩ := Policy.checkScheme_eq_ok.mp hscheme
    intro hnil
    rw [hparts, hnil] at hlower
    exact hne hlower.symm
  · obtain ⟨hraw, -⟩ := checkHost_eq_ok.mp hhost
    intro hnil
    rw [hparts, hnil] at hraw
    cases hraw

/-! ## The verdict -/

/-- `Target.__str__`, and `__repr__` is the same. -/
def Target.str (t : Target) : Str :=
  text "<Target " ++ t.scheme ++ text " host=" ++ t.host ++ text " port=" ++ intText t.port ++
    (if t.isLiteralAddress then text " (literal address)" else []) ++ text ">"

/-- What a target prints as holds a blank. -/
theorem Target.blank_mem_str (t : Target) : ord ' ' ∈ t.str := by
  have hblank : ord ' ' ∈ text "<Target " := by decide
  simp only [Target.str, List.mem_append]
  tauto

/-- **The authority decides.** `check_url` accepts a URL exactly when it is short enough, has no control character,
and is a scheme and an authority that are accepted on their own, with a tail behind them; the target is that of the
scheme and the authority. So no path, query or fragment changes a verdict, and no text a target prints as is taken
for a URL. -/
theorem Policy.decide_eq_ok_iff_bare (U : Unicode) (p : Policy) (url : Str) (t : Target) :
    (p.decide U url = .ok t ↔ (url.length : ℤ) ≤ p.maxUrlLength ∧ (∀ c ∈ url, isControlCharacter c = false) ∧
      ∃ parts : UrlParts, parts.url = url ∧ p.decide U parts.bare.url = .ok t) ∧
    ∀ printed : Target, p.decide U printed.str ≠ .ok t := by
  refine ⟨⟨fun h => ?_, ?_⟩, fun printed h => ?_⟩
  · obtain ⟨hlength, hclean, -⟩ := Policy.decide_eq_ok_iff.mp h
    obtain ⟨hscheme, hnetloc⟩ := Policy.splitScheme_of_decide h
    obtain ⟨parts, rfl⟩ := exists_parts hscheme hnetloc
    have hvalid := parts.valid_of_splitScheme hscheme
    refine ⟨hlength, hclean, parts, rfl, Policy.decide_of_urlsplit_eq h (parts.urlsplit_url hvalid hclean).symm ?_ ?_⟩
    · rw [UrlParts.url_eq_append, List.length_append] at hlength
      omega
    · rw [UrlParts.url_eq_append] at hclean
      exact fun c hc => hclean c (List.mem_append_left _ hc)
  · rintro ⟨hlength, hclean, parts, rfl, h⟩
    have hvalid : parts.bare.Valid := parts.bare.valid_of_splitScheme (Policy.splitScheme_of_decide h).1
    exact Policy.decide_of_urlsplit_eq h (parts.urlsplit_url hvalid hclean) hlength hclean
  · obtain ⟨-, hclean, -⟩ := Policy.decide_eq_ok_iff.mp h
    exact absurd (hclean _ printed.blank_mem_str) (by decide)

end SsrfGuard
