import SsrfGuard.Policy.Config

/-! # Headers

A field name is ASCII: `http.client` encodes it so and `h11` refuses any other, so no request with
another name was ever answered by a redirect. Names are compared without case. httpx keeps a list of
fields in which a name may come more than once, requests a dictionary in which it may not. The loop
that drops the policy's sensitive headers deletes while it walks a copy of the names, and `del` raises
`KeyError` where nothing is left under a name. -/

namespace SsrfGuard

/-- One field of a request. -/
structure Header where
  /-- The name, as it was spelled. -/
  name : Str
  /-- The value. -/
  value : Str
  /-- A field name is ASCII. -/
  ascii : isAscii name = true
  deriving DecidableEq

/-- What a name is compared by. -/
def Header.key (h : Header) : Str := h.name.map lowerChar

/-- `name.lower()` of a field name. -/
theorem Header.lower_name (U : Unicode) (h : Header) : lower U h.name = h.key :=
  lower_of_isAscii U h.ascii

/-- `del headers[name]`: every field of that name goes, and `KeyError` where there is none. -/
def delItem (U : Unicode) (headers : List Header) (name : Str) : Except Exc (List Header) :=
  if lower U name ∈ headers.map Header.key then
    .ok (headers.filter fun h => h.key ≠ lower U name)
  else .error (.otherException (repr U name))

/-- `requests.structures.CaseInsensitiveDict`: fields with no two names alike. -/
structure CaseInsensitiveDict where
  /-- The fields, in insertion order. -/
  items : List Header
  /-- No two names are alike. -/
  nodup : (items.map Header.key).Nodup

namespace CaseInsensitiveDict

/-- `headers.pop(name, None)`. -/
def pop (d : CaseInsensitiveDict) (key : Str) : CaseInsensitiveDict where
  items := d.items.filter fun h => h.key ≠ key
  nodup := d.nodup.sublist (List.filter_sublist.map _)

/-- `headers[name] = value`. -/
def setItem (d : CaseInsensitiveDict) (header : Header) : CaseInsensitiveDict where
  items := (d.pop header.key).items ++ [header]
  nodup := by
    rw [List.map_append, List.nodup_append]
    refine ⟨(d.pop header.key).nodup, by simp, ?_⟩
    intro a ha b hb
    obtain ⟨h, hmem, rfl⟩ := List.mem_map.mp ha
    obtain rfl : b = header.key := by simpa using hb
    simpa using (List.mem_filter.mp hmem).2

/-- `CaseInsensitiveDict(headers)`. -/
def ofList (headers : List Header) : CaseInsensitiveDict :=
  headers.foldl setItem ⟨[], List.nodup_nil⟩

end CaseInsensitiveDict

/-! ## `list(headers)` -/

/-- `list(headers)` of `httpx.Headers`: every name once, in lower case. -/
def httpxNames (headers : List Header) : List Str := (headers.map Header.key).eraseDups

/-- `list(headers)` of a `CaseInsensitiveDict`: the names as they were spelled. -/
def CaseInsensitiveDict.names (d : CaseInsensitiveDict) : List Str := d.items.map Header.name

/-- Erasing duplicates leaves none. -/
theorem nodup_eraseDups {α : Type} [BEq α] [LawfulBEq α] (l : List α) : l.eraseDups.Nodup := by
  induction h : l.length using Nat.strong_induction_on generalizing l with
  | _ n ih =>
      cases l with
      | nil => simp
      | cons a l =>
          rw [List.eraseDups_cons, List.nodup_cons]
          have hlt : (l.filter fun b => !b == a).length < n :=
            h ▸ Nat.lt_succ_of_le (List.length_filter_le _ _)
          refine ⟨?_, ih _ hlt _ rfl⟩
          intro hmem
          simpa using (List.mem_filter.mp (List.mem_eraseDups.mp hmem)).2

/-- The names a loop walks stand for the fields: they name each key, and each once. -/
structure Names (U : Unicode) (headers : List Header) (names : List Str) : Prop where
  /-- No two of the names are alike. -/
  nodup : (names.map (lower U)).Nodup
  /-- They are the names of the fields. -/
  mem_iff : ∀ key, key ∈ names.map (lower U) ↔ key ∈ headers.map Header.key

theorem names_httpxNames (U : Unicode) (headers : List Header) :
    Names U headers (httpxNames headers) := by
  have hsame : (httpxNames headers).map (lower U) = httpxNames headers := by
    refine (List.map_congr_left fun key hkey => ?_).trans (List.map_id _)
    obtain ⟨h, -, rfl⟩ := List.mem_map.mp (List.mem_eraseDups.mp hkey)
    exact lower_map_lowerChar U h.ascii
  refine ⟨?_, fun key => ?_⟩
  · rw [hsame]; exact nodup_eraseDups _
  · rw [hsame]; exact List.mem_eraseDups

theorem CaseInsensitiveDict.names_items (U : Unicode) (d : CaseInsensitiveDict) :
    Names U d.items d.names := by
  have hkeys : d.names.map (lower U) = d.items.map Header.key := by
    rw [names, List.map_map]
    exact List.map_congr_left fun h _ => h.lower_name U
  exact ⟨hkeys ▸ d.nodup, fun key => by rw [hkeys]⟩

/-! ## Dropping the sensitive ones -/

variable (U : Unicode) (p : Policy)

/-- No field's lower-cased name is one the policy calls sensitive. -/
def CarriesNoSensitive (headers : List Header) : Prop :=
  ∀ h ∈ headers, lower U h.name ∉ p.sensitiveHeaders

instance (headers : List Header) : Decidable (CarriesNoSensitive U p headers) :=
  inferInstanceAs (Decidable (∀ h ∈ headers, lower U h.name ∉ p.sensitiveHeaders))

/-- The headers without the sensitive ones. -/
def withoutSensitive (headers : List Header) : List Header :=
  headers.filter fun h => lower U h.name ∉ p.sensitiveHeaders

/-- Nothing sensitive is left. -/
theorem carriesNoSensitive_withoutSensitive (headers : List Header) :
    CarriesNoSensitive U p (withoutSensitive U p headers) := by
  intro h hh
  simpa using (List.mem_filter.mp hh).2

/-- `for name in names: if name.lower() in policy.sensitive_headers: del headers[name]`. -/
def dropSensitive : List Str → List Header → Except Exc (List Header)
  | [], headers => .ok headers
  | name :: names, headers =>
    if lower U name ∈ p.sensitiveHeaders then
      match delItem U headers name with
      | .error e => .error e
      | .ok headers => dropSensitive names headers
    else dropSensitive names headers

/-- The loop deletes the sensitive names it walks and no others. It does not raise, because the names
are all there and each deletion takes away only its own. -/
theorem dropSensitive_eq {names : List Str} {headers : List Header}
    (hnodup : (names.map (lower U)).Nodup)
    (hin : ∀ name ∈ names, lower U name ∈ headers.map Header.key) :
    dropSensitive U p names headers = .ok (headers.filter fun h =>
      ¬ (h.key ∈ names.map (lower U) ∧ h.key ∈ p.sensitiveHeaders)) := by
  induction names generalizing headers with
  | nil => simp [dropSensitive]
  | cons name names ih =>
      rw [List.map_cons, List.nodup_cons] at hnodup
      obtain ⟨hnew, hnodup⟩ := hnodup
      have hhere : lower U name ∈ headers.map Header.key := hin name List.mem_cons_self
      rw [dropSensitive]
      by_cases hs : lower U name ∈ p.sensitiveHeaders
      · have hrest : ∀ other ∈ names, lower U other ∈
            (headers.filter fun h => h.key ≠ lower U name).map Header.key := by
          intro other hother
          obtain ⟨h, hh, hkey⟩ := List.mem_map.mp (hin other (List.mem_cons_of_mem _ hother))
          -- A name still to come is not the one just deleted.
          have hne : h.key ≠ lower U name := by
            intro heq
            exact hnew (List.mem_map.mpr ⟨other, hother, hkey.symm.trans heq⟩)
          exact List.mem_map.mpr ⟨h, List.mem_filter.mpr ⟨hh, by simpa using hne⟩, hkey⟩
        rw [if_pos hs, delItem, if_pos hhere]
        show dropSensitive U p names _ = _
        rw [ih hnodup hrest, List.filter_filter]
        congr 1
        refine List.filter_congr fun h _ => ?_
        by_cases heq : h.key = lower U name
        · simp [heq, hs]
        · simp [heq]
      · rw [if_neg hs, ih hnodup fun other hother => hin other (List.mem_cons_of_mem _ hother)]
        congr 1
        refine List.filter_congr fun h _ => ?_
        by_cases heq : h.key = lower U name
        · simp [heq, hs]
        · simp [heq]

/-- **The loop drops every sensitive header and nothing else**, whichever way the names are spelled. -/
theorem dropSensitive_of_names {headers : List Header} {names : List Str}
    (h : Names U headers names) :
    dropSensitive U p names headers = .ok (withoutSensitive U p headers) := by
  rw [dropSensitive_eq U p h.nodup fun name hname =>
    (h.mem_iff _).mp (List.mem_map_of_mem hname)]
  congr 1
  refine List.filter_congr fun header hheader => ?_
  have hkey : header.key ∈ names.map (lower U) := (h.mem_iff _).mpr (List.mem_map_of_mem hheader)
  simp [hkey, header.lower_name U]

end SsrfGuard
