import Mathlib.Data.List.MinMax
import Mathlib.Data.List.Sort

/-! # Longest match in a list of rows

A row covers some queries and has a length. The longest match of a query is the row with the greatest
length among those that cover it, and the one listed first where several have that length. The
implementation keeps the rows sorted, longest first, and takes the first that covers; the two agree
because the sort is stable. -/

namespace LongestMatch

variable {ρ α : Type*} (len : ρ → ℕ) (covers : ρ → α → Bool)

/-- The rows, longest first; rows of one length keep their order. -/
def index (rows : List ρ) : List ρ := rows.insertionSort fun b c => len c ≤ len b

/-- The first row of the index that covers the query. -/
def lookup (rows : List ρ) (a : α) : Option ρ := (index len rows).find? (covers · a)

/-- **The longest match**: `b` covers the query, no row that covers it is longer, and every row
listed before `b` that covers it is strictly shorter. -/
def Longest (rows : List ρ) (a : α) (b : ρ) : Prop :=
  covers b a = true ∧
    ∃ before after, rows = before ++ b :: after ∧
      (∀ c ∈ before, covers c a = true → len c < len b) ∧
      ∀ c ∈ after, covers c a = true → len c ≤ len b

variable {len covers}

namespace Longest

theorem mem {rows : List ρ} {a : α} {b : ρ} (h : Longest len covers rows a b) : b ∈ rows := by
  obtain ⟨-, before, after, rfl, -⟩ := h
  simp

theorem covers_self {rows : List ρ} {a : α} {b : ρ} (h : Longest len covers rows a b) :
    covers b a = true := h.1

theorem le {rows : List ρ} {a : α} {b c : ρ} (h : Longest len covers rows a b) (hc : c ∈ rows)
    (hca : covers c a = true) : len c ≤ len b := by
  obtain ⟨-, before, after, rfl, hbefore, hafter⟩ := h
  rcases List.mem_append.mp hc with hc | hc
  · exact (hbefore c hc hca).le
  · rcases List.mem_cons.mp hc with rfl | hc
    · exact le_rfl
    · exact hafter c hc hca

/-- There is one longest match. -/
theorem unique {rows : List ρ} {a : α} {b c : ρ} (hb : Longest len covers rows a b)
    (hc : Longest len covers rows a c) : b = c := by
  have hle := hb.le hc.mem hc.covers_self
  have hge := hc.le hb.mem hb.covers_self
  obtain ⟨hba, before, after, hrows, hbefore, -⟩ := hb
  obtain ⟨hca, before', after', hrows', hbefore', -⟩ := hc
  rw [hrows] at hrows'
  -- whichever is listed first, the other one would have to be strictly longer
  rcases List.append_eq_append_iff.mp hrows' with ⟨l, hl, hl'⟩ | ⟨l, hl, hl'⟩
  · cases l with
    | nil => exact (List.cons.inj hl').1
    | cons x l =>
        have hx : x = b := (List.cons.inj hl').1.symm
        subst hx
        have hlt := hbefore' x (by rw [hl]; simp) hba
        omega
  · cases l with
    | nil => exact ((List.cons.inj hl').1).symm
    | cons x l =>
        have hx : x = c := (List.cons.inj hl').1.symm
        subst hx
        have hlt := hbefore x (by rw [hl]; simp) hca
        omega

end Longest

/-! ## The index and the definition agree -/

/-- The first match in a list that has just received a row at its place. -/
theorem find?_orderedInsert {p : ρ → Bool} {rows : List ρ} (b : ρ)
    (hs : rows.Pairwise fun c d => len d ≤ len c) :
    (rows.orderedInsert (fun b c => len c ≤ len b) b).find? p =
      match rows.find? p with
      | none => if p b then some b else none
      | some c => if p b ∧ len c ≤ len b then some b else some c := by
  induction rows with
  | nil => by_cases hb : p b <;> simp [List.orderedInsert, hb]
  | cons c rows ih =>
      rw [List.pairwise_cons] at hs
      rw [List.orderedInsert]
      by_cases hle : len c ≤ len b
      · rw [if_pos hle]
        by_cases hb : p b
        · rw [List.find?_cons_of_pos hb]
          cases hf : (c :: rows).find? p with
          | none => simp [hb]
          | some d =>
              -- whatever the old list finds is no longer than its head
              have hd : len d ≤ len b := by
                rcases List.mem_cons.mp (List.mem_of_find?_eq_some hf) with rfl | hd
                · exact hle
                · exact (hs.1 d hd).trans hle
              simp [hb, hd]
        · rw [List.find?_cons_of_neg hb]
          cases hf : (c :: rows).find? p <;> simp [hb]
      · rw [if_neg hle]
        by_cases hc : p c
        -- the head is longer than the new row and matches
        · rw [List.find?_cons_of_pos hc, List.find?_cons_of_pos hc]
          simp [hle]
        · rw [List.find?_cons_of_neg hc, List.find?_cons_of_neg hc, ih hs.2]

theorem index_pairwise (rows : List ρ) :
    (index len rows).Pairwise fun c d => len d ≤ len c := by
  have htotal : Std.Total fun b c : ρ => len c ≤ len b := ⟨fun b c => le_total (len c) (len b)⟩
  have htrans : IsTrans ρ fun b c => len c ≤ len b := ⟨fun _ _ _ h h' => h'.trans h⟩
  exact List.pairwise_insertionSort _ rows

/-- What one more row at the front of the list does to the lookup. -/
theorem lookup_cons (b : ρ) (rows : List ρ) (a : α) :
    lookup len covers (b :: rows) a =
      match lookup len covers rows a with
      | none => if covers b a then some b else none
      | some c => if covers b a ∧ len c ≤ len b then some b else some c := by
  rw [lookup, index, List.insertionSort_cons]
  exact find?_orderedInsert b (index_pairwise rows)

/-- The lookup fails iff no row covers the query. -/
theorem lookup_eq_none {rows : List ρ} {a : α} :
    lookup len covers rows a = none ↔ ∀ c ∈ rows, covers c a = false := by
  rw [lookup, List.find?_eq_none]
  simp [index, List.mem_insertionSort]

/-- What the lookup finds is the longest match. -/
theorem longest_of_lookup {rows : List ρ} {a : α} {b : ρ}
    (h : lookup len covers rows a = some b) : Longest len covers rows a b := by
  induction rows generalizing b with
  | nil => cases h
  | cons d rows ih =>
      rw [lookup_cons] at h
      cases hl : lookup len covers rows a with
      | none =>
          rw [hl] at h
          have hrows := lookup_eq_none.mp hl
          by_cases hd : covers d a = true
          · simp only [hd, if_true] at h
            cases h
            refine ⟨hd, [], rows, rfl, by simp, fun c hc hca => ?_⟩
            rw [hrows c hc] at hca; cases hca
          · simp [hd] at h
      | some c =>
          rw [hl] at h
          have hc := ih hl
          -- the new row wins a tie, because it is listed first
          by_cases hd : covers d a = true ∧ len c ≤ len d
          · simp only [hd, and_self, if_true] at h
            cases h
            exact ⟨hd.1, [], rows, rfl, by simp, fun e he hea => (hc.le he hea).trans hd.2⟩
          · simp only [hd, if_false] at h
            cases h
            obtain ⟨hba, before, after, rfl, hbefore, hafter⟩ := hc
            refine ⟨hba, d :: before, after, rfl, ?_, hafter⟩
            intro e he hea
            rcases List.mem_cons.mp he with rfl | he
            · by_contra hlt
              exact hd ⟨hea, Nat.le_of_not_lt hlt⟩
            · exact hbefore e he hea

/-- **The index implements the longest match.** -/
theorem lookup_eq_some {rows : List ρ} {a : α} {b : ρ} :
    lookup len covers rows a = some b ↔ Longest len covers rows a b := by
  constructor
  · exact longest_of_lookup
  · intro h
    cases hl : lookup len covers rows a with
    | none =>
        have := lookup_eq_none.mp hl b h.mem
        rw [h.covers_self] at this; cases this
    | some c => rw [h.unique (longest_of_lookup hl)]

/-- Rows that cannot cover the query may be dropped before the lookup. -/
theorem lookup_filter {rows : List ρ} {a : α} {p : ρ → Bool}
    (h : ∀ c, covers c a = true → p c = true) :
    lookup len covers (rows.filter p) a = lookup len covers rows a := by
  induction rows with
  | nil => rfl
  | cons b rows ih =>
      rw [lookup_cons b rows, ← ih]
      by_cases hp : p b = true
      · rw [List.filter_cons_of_pos hp, lookup_cons]
      · have hb : covers b a = false := by
          by_contra hb
          exact hp (h b (by simpa using hb))
        rw [List.filter_cons_of_neg hp, hb]
        cases lookup len covers (rows.filter p) a <;> simp

/-- **Scanning for a maximum implements it too**: the first of the longest rows that cover the
query, with no index at hand. -/
theorem argmax_filter_eq_lookup (rows : List ρ) (a : α) :
    (rows.filter (covers · a)).argmax len = lookup len covers rows a := by
  induction rows with
  | nil => rfl
  | cons b rows ih =>
      rw [lookup_cons, ← ih]
      by_cases hb : covers b a = true
      · rw [List.filter_cons, if_pos hb, List.argmax_cons]
        cases (rows.filter (covers · a)).argmax len with
        | none => simp [hb]
        | some c =>
            by_cases hlt : len b < len c
            · simp [hb, hlt]
            · simp [hb, hlt, Nat.le_of_not_lt hlt]
      · rw [List.filter_cons, if_neg hb]
        cases (rows.filter (covers · a)).argmax len <;> simp [hb]

theorem argmax_filter_eq_some {rows : List ρ} {a : α} {b : ρ} :
    (rows.filter (covers · a)).argmax len = some b ↔ Longest len covers rows a b := by
  rw [argmax_filter_eq_lookup, lookup_eq_some]

/-- A longest match survives in a coarser relation that still covers it and adds nothing. -/
theorem Longest.of_imp {β : Type*} {covers' : ρ → β → Bool} {rows : List ρ} {a : α} {a' : β}
    {b : ρ} (h : Longest len covers rows a b) (hb : covers' b a' = true)
    (himp : ∀ c ∈ rows, covers' c a' = true → covers c a = true) :
    Longest len covers' rows a' b := by
  obtain ⟨-, before, after, rfl, hbefore, hafter⟩ := h
  refine ⟨hb, before, after, rfl, ?_, ?_⟩
  · intro c hc hca
    exact hbefore c hc (himp c (by simp [hc]) hca)
  · intro c hc hca
    exact hafter c hc (himp c (by simp [hc]) hca)

/-! ## Other lists of rows -/

variable (len covers) in
/-- The row covers the query, and every other row that does is strictly shorter. -/
def Strict (rows : List ρ) (a : α) (b : ρ) : Prop :=
  b ∈ rows ∧ covers b a = true ∧ ∀ c ∈ rows, c ≠ b → covers c a = true → len c < len b

/-- A row that is longer than the others is found. -/
theorem lookup_of_strict {rows : List ρ} {a : α} {b : ρ} (h : Strict len covers rows a b) :
    lookup len covers rows a = some b := by
  obtain ⟨hmem, hcovers, hshorter⟩ := h
  cases hl : lookup len covers rows a with
  | none =>
      rw [lookup_eq_none.mp hl b hmem] at hcovers
      cases hcovers
  | some c =>
      have hlongest := lookup_eq_some.mp hl
      by_contra hne
      have hlt := hshorter c hlongest.mem (fun heq => hne (congrArg some heq)) hlongest.covers_self
      exact absurd (hlongest.le hmem hcovers) (not_le.mpr hlt)

theorem Strict.perm {rows rows' : List ρ} {a : α} {b : ρ} (h : Strict len covers rows a b)
    (hperm : rows'.Perm rows) : Strict len covers rows' a b :=
  ⟨hperm.mem_iff.mpr h.1, h.2.1, fun c hc => h.2.2 c (hperm.mem_iff.mp hc)⟩

/-- **The order of the rows** does not matter to a query whose longest row is longer than the others. -/
theorem lookup_perm {rows rows' : List ρ} {a : α} (hperm : rows'.Perm rows)
    (h : ∀ b, lookup len covers rows a = some b → Strict len covers rows a b) :
    lookup len covers rows' a = lookup len covers rows a := by
  cases hl : lookup len covers rows a with
  | none => exact lookup_eq_none.mpr fun c hc => lookup_eq_none.mp hl c (hperm.mem_iff.mp hc)
  | some b => exact lookup_of_strict ((h b hl).perm hperm)

/-- **One more row** is found itself, or changes nothing. -/
theorem lookup_insert (before after : List ρ) (d : ρ) (a : α) :
    lookup len covers (before ++ d :: after) a = some d ∨
      lookup len covers (before ++ d :: after) a = lookup len covers (before ++ after) a := by
  induction before with
  | nil =>
      rw [List.nil_append, List.nil_append, lookup_cons]
      cases lookup len covers after a with
      | none => by_cases hd : covers d a = true <;> simp [hd]
      | some c => by_cases hd : covers d a = true ∧ len c ≤ len d <;> simp [hd]
  | cons b before ih =>
      rw [List.cons_append, List.cons_append, lookup_cons, lookup_cons]
      rcases ih with hfound | hsame
      · rw [hfound]
        by_cases hb : covers b a = true ∧ len d ≤ len b
        -- the front row is at least as long as the new one, which is as long as any other
        · right
          have hlongest := lookup_eq_some.mp hfound
          cases hl : lookup len covers (before ++ after) a with
          | none => simp [hb]
          | some c =>
              have hc := lookup_eq_some.mp hl
              have hmem : c ∈ before ++ d :: after := by
                rcases List.mem_append.mp hc.mem with hc | hc
                · exact List.mem_append_left _ hc
                · exact List.mem_append_right _ (List.mem_cons_of_mem _ hc)
              have hle : len c ≤ len b := (hlongest.le hmem hc.covers_self).trans hb.2
              simp [hb, hle]
        · left
          simp [hb]
      · rw [hsame]
        exact .inr rfl

end LongestMatch
