import Mathlib.Data.List.Basic
import Mathlib.Logic.Relation
import Mathlib.Tactic.Common

/-! # Reachability in one pass

A pass over a list of edges keeps a set of vertices, and adds the head of an edge when its tail is
already in the set. The set it ends with is described by `InOrder`: the vertices reached by a path
whose edges stand in the list in the order the path takes them. That is at most reachability through
the edges, and falls short of it exactly where a path needs a later edge first.

A selection made in the same pass, `prefixFilter`, keeps an element when what stands before it admits
it. It is a filter by a condition on the whole list exactly when nothing is admitted too late. -/

namespace Reach

variable {α : Type}

/-- `b` is reached from `a` through some of the edges, taken in the order they stand. -/
inductive InOrder : List (α × α) → α → α → Prop
  /-- The path of no edge. -/
  | refl (a : α) : InOrder [] a a
  /-- The first edge is not taken. -/
  | skip {a b : α} {edges : List (α × α)} (edge : α × α) (h : InOrder edges a b) :
      InOrder (edge :: edges) a b
  /-- The first edge is taken. -/
  | take {a b c : α} {edges : List (α × α)} (h : InOrder edges b c) : InOrder ((a, b) :: edges) a c

/-- `b` is reached from `a` through the edges, in any order and any number of times. -/
def Reachable (edges : List (α × α)) : α → α → Prop := Relation.ReflTransGen fun a b => (a, b) ∈ edges

/-- More edges reach no less. -/
theorem Reachable.mono {edges edges' : List (α × α)} {a b : α} (h : Reachable edges a b)
    (hsub : ∀ e, e ∈ edges → e ∈ edges') : Reachable edges' a b :=
  Relation.ReflTransGen.mono (fun _ _ hmem => hsub _ hmem) _ _ h

namespace InOrder

variable {a b c : α} {edges : List (α × α)}

theorem nil_iff : InOrder [] a b ↔ a = b := by
  constructor
  · intro h
    cases h
    rfl
  · rintro rfl
    exact refl a

theorem cons_iff {edge : α × α} :
    InOrder (edge :: edges) a b ↔ InOrder edges a b ∨ (edge.1 = a ∧ InOrder edges edge.2 b) := by
  constructor
  · intro h
    cases h with
    | skip _ h => exact .inl h
    | take h => exact .inr ⟨rfl, h⟩
  · rintro (h | ⟨rfl, h⟩)
    · exact skip edge h
    · exact take h

/-- An edge after all the others extends every path. -/
theorem snoc_iff {edge : α × α} :
    InOrder (edges ++ [edge]) a b ↔ InOrder edges a b ∨ (InOrder edges a edge.1 ∧ edge.2 = b) := by
  -- along the list, with the start free: taking the first edge moves it
  induction edges generalizing a with
  | nil => simp only [List.nil_append, cons_iff, nil_iff, eq_comm]
  | cons first edges ih =>
      simp only [List.cons_append, cons_iff, ih]
      constructor
      · rintro ((h | ⟨h, hb⟩) | ⟨hfirst, h | ⟨h, hb⟩⟩)
        · exact .inl (.inl h)
        · exact .inr ⟨.inl h, hb⟩
        · exact .inl (.inr ⟨hfirst, h⟩)
        · exact .inr ⟨.inr ⟨hfirst, h⟩, hb⟩
      · rintro ((h | ⟨hfirst, h⟩) | ⟨h | ⟨hfirst, h⟩, hb⟩)
        · exact .inl (.inl h)
        · exact .inr ⟨hfirst, .inl h⟩
        · exact .inl (.inr ⟨h, hb⟩)
        · exact .inr ⟨hfirst, .inr ⟨h, hb⟩⟩

/-- What is reached in order is reached. -/
theorem reachable (h : InOrder edges a b) : Reachable edges a b := by
  induction h with
  | refl a => exact .refl
  | skip edge h ih => exact ih.mono fun _ hmem => List.mem_cons_of_mem _ hmem
  | take h ih =>
      refine Relation.ReflTransGen.head ?_ (ih.mono fun _ hmem => List.mem_cons_of_mem _ hmem)
      exact List.mem_cons_self

end InOrder

/-- Reachability does not look at the order of the edges. -/
theorem reachable_congr {edges edges' : List (α × α)} (h : ∀ e, e ∈ edges ↔ e ∈ edges') {a b : α} :
    Reachable edges a b ↔ Reachable edges' a b := by
  constructor
  · exact fun hab => hab.mono fun _ hmem => (h _).mp hmem
  · exact fun hab => hab.mono fun _ hmem => (h _).mpr hmem

/-! ## Selecting in one pass -/

open Classical in
/-- The elements of a list that what stands before them admits. -/
noncomputable def prefixFilter (p : List α → α → Prop) : List α → List α → List α
  | _, [] => []
  | front, a :: l =>
    if p front a then a :: prefixFilter p (front ++ [a]) l else prefixFilter p (front ++ [a]) l

section PrefixFilter

variable {p : List α → α → Prop} {front l : List α} {a : α}

theorem prefixFilter_cons_of_pos (h : p front a) :
    prefixFilter p front (a :: l) = a :: prefixFilter p (front ++ [a]) l := by
  rw [prefixFilter, if_pos h]

theorem prefixFilter_cons_of_neg (h : ¬ p front a) :
    prefixFilter p front (a :: l) = prefixFilter p (front ++ [a]) l := by
  rw [prefixFilter, if_neg h]

theorem of_mem_prefixFilter (h : a ∈ prefixFilter p front l) : ∃ front', p front' a := by
  induction l generalizing front with
  | nil => cases h
  | cons b l ih =>
      by_cases hb : p front b
      · rw [prefixFilter_cons_of_pos hb, List.mem_cons] at h
        rcases h with rfl | h
        · exact ⟨front, hb⟩
        · exact ih h
      · rw [prefixFilter_cons_of_neg hb] at h
        exact ih h

/-- What the rest of a list admits after `front ++ [a]` is what the list admits after `front`. -/
theorem forall_split_cons (P : List α → α → Prop)
    (h : ∀ before b after, a :: l = before ++ b :: after → P (front ++ before) b) :
    P front a ∧ ∀ before b after, l = before ++ b :: after → P (front ++ [a] ++ before) b := by
  constructor
  · simpa using h [] a l rfl
  · intro before b after hl
    rw [← List.append_cons]
    exact h (a :: before) b after (by rw [hl, List.cons_append])

variable {q : α → Prop} [DecidablePred q]

/-- Where what is admitted early is admitted, the pass selects no more than the filter. -/
theorem prefixFilter_sublist_filter
    (hpq : ∀ before a after, l = before ++ a :: after → p (front ++ before) a → q a) :
    (prefixFilter p front l).Sublist (l.filter q) := by
  induction l generalizing front with
  | nil => exact .slnil
  | cons a l ih =>
      obtain ⟨ha, hl⟩ := forall_split_cons (fun front a => p front a → q a) hpq
      have hrest := ih hl
      by_cases hp : p front a
      · rw [prefixFilter_cons_of_pos hp, List.filter_cons_of_pos (by simpa using ha hp)]
        exact hrest.cons_cons a
      · rw [prefixFilter_cons_of_neg hp]
        by_cases hq : q a
        · rw [List.filter_cons_of_pos (by simpa using hq)]
          exact hrest.cons a
        · rw [List.filter_cons_of_neg (by simpa using hq)]
          exact hrest

/-- The pass selects all it should exactly when nothing is admitted too late. -/
theorem prefixFilter_eq_filter_iff
    (hpq : ∀ before a after, l = before ++ a :: after → p (front ++ before) a → q a) :
    prefixFilter p front l = l.filter q ↔
      ∀ before a after, l = before ++ a :: after → q a → p (front ++ before) a := by
  induction l generalizing front with
  | nil => simp [prefixFilter]
  | cons a l ih =>
      obtain ⟨ha, hl⟩ := forall_split_cons (fun front a => p front a → q a) hpq
      constructor
      · intro h
        have hstep : (q a → p front a) ∧ prefixFilter p (front ++ [a]) l = l.filter q := by
          by_cases hp : p front a
          · rw [prefixFilter_cons_of_pos hp, List.filter_cons_of_pos (by simpa using ha hp)] at h
            exact ⟨fun _ => hp, List.tail_eq_of_cons_eq h⟩
          · rw [prefixFilter_cons_of_neg hp] at h
            -- an element admitted too late would make the filter longer than the pass
            have hq : ¬ q a := by
              intro hq
              have hle := (prefixFilter_sublist_filter hl).length_le
              rw [h, List.filter_cons_of_pos (by simpa using hq), List.length_cons] at hle
              omega
            rw [List.filter_cons_of_neg (by simpa using hq)] at h
            exact ⟨fun hqa => absurd hqa hq, h⟩
        obtain ⟨hfirst, hrest⟩ := hstep
        -- the split is at the head, or inside the rest
        intro before b after hsplit hb
        cases before with
        | nil =>
            cases hsplit
            rw [List.append_nil]
            exact hfirst hb
        | cons c before =>
            cases hsplit
            rw [List.append_cons]
            exact (ih hl).mp hrest before b after rfl hb
      · intro h
        obtain ⟨hfirst, hrest⟩ := forall_split_cons (fun front a => q a → p front a) h
        have heq := (ih hl).mpr hrest
        by_cases hq : q a
        · rw [prefixFilter_cons_of_pos (hfirst hq), List.filter_cons_of_pos (by simpa using hq), heq]
        · rw [prefixFilter_cons_of_neg fun hp => hq (ha hp),
            List.filter_cons_of_neg (by simpa using hq), heq]

end PrefixFilter

end Reach
