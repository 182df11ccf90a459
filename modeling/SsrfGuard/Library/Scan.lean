import Mathlib.Algebra.GroupWithZero.Nat
import Mathlib.Data.List.Basic
import Mathlib.Data.List.Infix

/-! # Scanning a list for a separator

The `partition` family over lists of any type with decidable equality. `partition sep l` cuts `l` at
the first occurrence of `sep`, `rpartition c l` at the last occurrence of the single element `c`;
both answer `none` when there is nothing to cut at. The lemmas say where the cut falls when the list
is already written as a concatenation, which is how two texts that share their delimiters are
compared. -/

namespace Scan

variable {α : Type*} [DecidableEq α]

/-- Cut a list at the first occurrence of `sep`: what stands before it and what stands after. -/
def partition (sep : List α) : List α → Option (List α × List α)
  | [] => if sep = [] then some ([], []) else none
  | x :: l =>
    if sep.isPrefixOf (x :: l) then some ([], (x :: l).drop sep.length)
    else (partition sep l).map fun cut => (x :: cut.1, cut.2)

/-- Cut a list at the last occurrence of `c`. -/
def rpartition (c : α) : List α → Option (List α × List α)
  | [] => none
  | x :: l =>
    match rpartition c l with
    | some (before, after) => some (x :: before, after)
    | none => if x = c then some ([], l) else none

@[simp] theorem partition_singleton_self (c : α) (l : List α) :
    partition [c] (c :: l) = some ([], l) := by
  simp [partition]

theorem partition_singleton_ne {c x : α} (h : x ≠ c) (l : List α) :
    partition [c] (x :: l) = (partition [c] l).map fun cut => (x :: cut.1, cut.2) := by
  simp [partition, h.symm]

/-- The first cut at `c` of a text that stops short of `c` and then carries one. -/
theorem partition_singleton_append {c : α} {before : List α} (h : c ∉ before) (after : List α) :
    partition [c] (before ++ c :: after) = some (before, after) := by
  induction before with
  | nil => simp
  | cons x l ih =>
      rw [List.mem_cons, not_or] at h
      rw [List.cons_append, partition_singleton_ne (fun e => h.1 e.symm), ih h.2]
      rfl

/-- What a cut says about the list it was made in. -/
theorem partition_eq_append {sep l before after : List α}
    (h : partition sep l = some (before, after)) : l = before ++ sep ++ after := by
  induction l generalizing before after with
  | nil =>
      rw [partition] at h
      split at h
      · next hs => cases h; simp [hs]
      · cases h
  | cons x l ih =>
      rw [partition] at h
      split at h
      · next hp =>
          cases h
          obtain ⟨t, ht⟩ := List.isPrefixOf_iff_prefix.mp hp
          rw [List.nil_append, ← ht, List.drop_left]
      · cases hc : partition sep l with
        | none => rw [hc] at h; cases h
        | some cut =>
            rw [hc] at h
            cases h
            rw [List.cons_append, List.cons_append, ← ih hc]

/-- A list that shares no element with the separator is passed over. -/
theorem partition_append_of_disjoint {sep w : List α} (hsep : sep ≠ []) (h : ∀ c ∈ w, c ∉ sep)
    (l : List α) :
    partition sep (w ++ l) = (partition sep l).map fun cut => (w ++ cut.1, cut.2) := by
  induction w with
  | nil => simp
  | cons x w ih =>
      have hx : ¬ sep.isPrefixOf (x :: (w ++ l)) = true := by
        intro hp
        obtain ⟨t, ht⟩ := List.isPrefixOf_iff_prefix.mp hp
        cases sep with
        | nil => exact hsep rfl
        | cons y sep =>
            have hxy : y = x := (List.cons.inj ht).1
            exact h x List.mem_cons_self (by simp [hxy])
      rw [List.cons_append, partition, if_neg hx, ih fun c hc => h c (List.mem_cons_of_mem _ hc),
        Option.map_map]
      rfl

/-- The first cut falls behind a front that neither holds the separator nor touches it. -/
theorem partition_append_of_not_infix {sep front w : List α} (hw : w ≠ [])
    (hslashes : ¬ sep <:+: front) (h : ∀ c ∈ w, c ∉ sep) (l : List α) :
    partition sep (front ++ w ++ l) =
      (partition sep l).map fun cut => (front ++ w ++ cut.1, cut.2) := by
  have hsep : sep ≠ [] := by
    rintro rfl
    exact hslashes List.nil_infix
  induction front with
  | nil => exact partition_append_of_disjoint hsep h l
  | cons x front ih =>
      have hx : ¬ sep.isPrefixOf (x :: (front ++ w ++ l)) = true := by
        intro hp
        have hp := List.isPrefixOf_iff_prefix.mp hp
        have hshape : x :: (front ++ w ++ l) = (x :: front) ++ (w ++ l) := by simp
        rw [hshape] at hp
        rcases Nat.le_total sep.length (x :: front).length with hlen | hlen
        · -- a separator that ends inside the front is an infix of it
          exact hslashes (List.prefix_of_prefix_length_le hp (List.prefix_append _ _) hlen).isInfix
        · -- a longer one reaches into `w`, or is the whole front
          obtain ⟨t, ht⟩ := List.prefix_of_prefix_length_le (List.prefix_append _ _) hp hlen
          cases t with
          | nil =>
              rw [List.append_nil] at ht
              rw [← ht] at hslashes
              exact hslashes List.infix_rfl
          | cons y t =>
              obtain ⟨c, w, rfl⟩ := List.exists_cons_of_ne_nil hw
              obtain ⟨u, hu⟩ := hp
              rw [← ht, List.append_assoc] at hu
              have hyc : y = c := (List.cons.inj (List.append_cancel_left hu)).1
              refine h c List.mem_cons_self ?_
              rw [← ht, ← hyc]
              simp
      have hfront : ¬ sep <:+: front := fun hi => hslashes (hi.trans (List.suffix_cons x front).isInfix)
      rw [List.cons_append, List.cons_append, partition, if_neg hx, ih hfront, Option.map_map]
      rfl

/-- The first cut where a list first meets the head of the separator and then all of it. -/
theorem partition_cons_append {c : α} {sep before : List α} (h : c ∉ before) (after : List α) :
    partition (c :: sep) (before ++ (c :: sep ++ after)) = some (before, after) := by
  induction before with
  | nil =>
      have hp : (c :: sep).isPrefixOf (c :: (sep ++ after)) = true :=
        List.isPrefixOf_iff_prefix.mpr ⟨after, by simp⟩
      rw [List.nil_append, List.cons_append, partition, if_pos hp]
      simp
  | cons x before ih =>
      rw [List.mem_cons, not_or] at h
      have hx : ¬ (c :: sep).isPrefixOf (x :: (before ++ (c :: sep ++ after))) = true := by
        intro hp
        obtain ⟨t, ht⟩ := List.isPrefixOf_iff_prefix.mp hp
        exact h.1 (List.cons.inj ht).1
      rw [List.cons_append, partition, if_neg hx, ih h.2]
      rfl

/-- Reading `partition [c]` back: the part before the cut holds no `c`. -/
theorem partition_singleton_eq_some {c : α} {l before after : List α} :
    partition [c] l = some (before, after) ↔ l = before ++ c :: after ∧ c ∉ before := by
  constructor
  · intro h
    have hl := partition_eq_append h
    simp only [List.append_assoc, List.singleton_append] at hl
    refine ⟨hl, fun hc => ?_⟩
    obtain ⟨s, t, hst, hs⟩ := List.eq_append_cons_of_mem hc
    rw [hl, hst, List.append_assoc, List.cons_append, partition_singleton_append hs] at h
    have hlen := congrArg (fun cut => cut.1.length) (Option.some.inj h)
    simp at hlen
  · rintro ⟨rfl, h⟩
    exact partition_singleton_append h after

/-- `partition [c]` finds nothing iff there is nothing to find. -/
theorem partition_singleton_eq_none {c : α} {l : List α} : partition [c] l = none ↔ c ∉ l := by
  constructor
  · intro h hc
    obtain ⟨before, after, rfl, hbefore⟩ := List.eq_append_cons_of_mem hc
    rw [partition_singleton_append hbefore] at h
    cases h
  · intro h
    cases hcut : partition [c] l with
    | none => rfl
    | some cut =>
        refine absurd ?_ h
        rw [partition_eq_append hcut]
        exact List.mem_append_left _ (List.mem_append_right _ (List.mem_singleton_self c))

/-- `rpartition c` finds nothing iff there is nothing to find. -/
theorem rpartition_eq_none {c : α} {l : List α} : rpartition c l = none ↔ c ∉ l := by
  induction l with
  | nil => simp [rpartition]
  | cons x l ih =>
      rw [rpartition]
      cases hr : rpartition c l with
      | some cut =>
          have : c ∈ l := by
            by_contra hc
            rw [ih.mpr hc] at hr; cases hr
          simp [this]
      | none =>
          have hc := ih.mp hr
          by_cases hx : x = c
          · simp [hx]
          · simp [hx, hc, Ne.symm hx]

/-- What the last cut says about the list it was made in. -/
theorem rpartition_eq_append {c : α} {l before after : List α} (h : rpartition c l = some (before, after)) :
    l = before ++ c :: after := by
  induction l generalizing before after with
  | nil => cases h
  | cons x l ih =>
      rw [rpartition] at h
      cases hr : rpartition c l with
      | some cut =>
          rw [hr] at h
          cases h
          rw [List.cons_append, ← ih hr]
      | none =>
          rw [hr] at h
          dsimp only at h
          split at h
          · next hx =>
            cases h
            rw [hx, List.nil_append]
          · cases h

/-- The last cut at `c` of a text whose tail carries no further `c`. -/
theorem rpartition_append {c : α} (before : List α) {after : List α} (h : c ∉ after) :
    rpartition c (before ++ c :: after) = some (before, after) := by
  induction before with
  | nil => simp [rpartition, rpartition_eq_none.mpr h]
  | cons x l ih => rw [List.cons_append, rpartition, ih]

/-- The last cut of a concatenation whose right part carries a `c` falls in that part. -/
theorem rpartition_append_right {c : α} (front l : List α) {before after : List α}
    (h : rpartition c l = some (before, after)) :
    rpartition c (front ++ l) = some (front ++ before, after) := by
  induction front with
  | nil => exact h
  | cons x f ih => rw [List.cons_append, rpartition, ih]; rfl

/-- What follows the last `c` does not depend on what precedes some other `c`. -/
theorem exists_rpartition_after (c : α) (l : List α) :
    ∃ after, ∀ front, ∃ before, rpartition c (front ++ c :: l) = some (before, after) := by
  cases hl : rpartition c l with
  | none => exact ⟨l, fun front => ⟨front, rpartition_append front (rpartition_eq_none.mp hl)⟩⟩
  | some cut =>
      refine ⟨cut.2, fun front => ⟨front ++ [c] ++ cut.1, ?_⟩⟩
      have hshape : front ++ c :: l = (front ++ [c]) ++ l := by simp
      rw [hshape]
      exact rpartition_append_right (front ++ [c]) l hl

/-- The parts of a split do not hold what was split at. -/
theorem not_mem_of_mem_splitOn {c : α} {l part : List α} (h : part ∈ l.splitOn c) : c ∉ part := by
  induction l generalizing part with
  | nil =>
      rw [List.splitOn_nil, List.mem_singleton] at h
      exact h ▸ List.not_mem_nil
  | cons x l ih =>
      rw [List.splitOn_cons_eq_if_modifyHead] at h
      split at h
      · rcases List.mem_cons.mp h with rfl | h
        · exact List.not_mem_nil
        · exact ih h
      · next hx =>
        obtain ⟨first, rest, hsplit⟩ := List.exists_cons_of_ne_nil (List.splitOn_ne_nil c l)
        rw [hsplit, List.modifyHead_cons] at h
        rw [hsplit] at ih
        rcases List.mem_cons.mp h with rfl | h
        · rw [List.mem_cons, not_or]
          exact ⟨fun hc => hx (beq_iff_eq.mpr hc.symm), ih List.mem_cons_self⟩
        · exact ih (List.mem_cons_of_mem _ h)

/-- A list is known by its parts. -/
theorem splitOn_inj {c : α} {l l' : List α} : l.splitOn c = l'.splitOn c ↔ l = l' := by
  constructor
  · intro h
    rw [← @List.intercalate_splitOn _ l _ _ c, h, List.intercalate_splitOn]
  · rintro rfl
    rfl

omit [DecidableEq α] in
/-- Joining two runs of parts joins what they make. -/
theorem intercalate_append {c : α} {front back : List (List α)} (hfront : front ≠ []) (hback : back ≠ []) :
    [c].intercalate (front ++ back) = [c].intercalate front ++ c :: [c].intercalate back := by
  induction front with
  | nil => exact absurd rfl hfront
  | cons part front ih =>
      cases front with
      | nil =>
          rw [List.singleton_append, List.intercalate_cons_of_ne_nil hback, List.intercalate_singleton,
            List.append_assoc, List.singleton_append]
      | cons next front =>
          have hjoined : [c].intercalate (part :: next :: (front ++ back)) =
              part ++ [c] ++ [c].intercalate (next :: (front ++ back)) := List.intercalate_cons_cons
          rw [List.cons_append, List.cons_append, hjoined, List.intercalate_cons_cons,
            ← List.cons_append, ih (List.cons_ne_nil _ _)]
          simp only [List.append_assoc]

omit [DecidableEq α] in
/-- Each joined part adds its length and a separator, the last one its length alone. -/
theorem length_intercalate_singleton {c : α} {parts : List (List α)} (hne : parts ≠ []) :
    ([c].intercalate parts).length + 1 = (parts.map fun part => part.length + 1).sum := by
  induction parts with
  | nil => exact absurd rfl hne
  | cons part parts ih =>
      cases parts with
      | nil => rw [List.intercalate_singleton, List.map_singleton, List.sum_singleton]
      | cons next parts =>
          rw [List.intercalate_cons_cons, List.length_append, List.length_append, List.map_cons, List.sum_cons,
            ← ih (List.cons_ne_nil _ _), List.length_singleton]
          omega

/-- The parts of a list end in the parts of another one exactly when the list ends in the other one,
behind a separator. -/
theorem splitOn_eq_append_iff {c : α} {l base : List α} :
    (∃ front, front ≠ [] ∧ [c].intercalate front ≠ [] ∧ l.splitOn c = front ++ base.splitOn c) ↔
      ∃ label, label ≠ [] ∧ l = label ++ c :: base := by
  constructor
  · rintro ⟨front, hfront, hjoined, hsplit⟩
    refine ⟨[c].intercalate front, hjoined, ?_⟩
    have hl : [c].intercalate (l.splitOn c) = l := List.intercalate_splitOn c
    rw [hsplit, intercalate_append hfront (List.splitOn_ne_nil c base), List.intercalate_splitOn] at hl
    exact hl.symm
  · rintro ⟨label, hlabel, rfl⟩
    refine ⟨label.splitOn c, List.splitOn_ne_nil c label, ?_, List.splitOn_append_cons_self label base⟩
    rw [List.intercalate_splitOn]
    exact hlabel

omit [DecidableEq α] in
/-- What joined parts are made of: each element is in a part or in the separator. -/
theorem mem_of_mem_intercalate {sep : List α} {parts : List (List α)} {x : α}
    (h : x ∈ sep.intercalate parts) : (∃ part ∈ parts, x ∈ part) ∨ x ∈ sep := by
  induction parts with
  | nil => simp [List.intercalate] at h
  | cons part rest ih =>
      cases rest with
      | nil =>
          rw [List.intercalate_singleton] at h
          exact Or.inl ⟨part, List.mem_cons_self, h⟩
      | cons next rest =>
          rw [List.intercalate_cons_cons, List.mem_append, List.mem_append] at h
          rcases h with (h | h) | h
          · exact Or.inl ⟨part, List.mem_cons_self, h⟩
          · exact Or.inr h
          · rcases ih h with ⟨p, hp, hx⟩ | hx
            · exact Or.inl ⟨p, List.mem_cons_of_mem _ hp, hx⟩
            · exact Or.inr hx

omit [DecidableEq α] in
/-- A part of joined parts is in what they make. -/
theorem subset_intercalate_of_mem {sep part : List α} {parts : List (List α)} (h : part ∈ parts) :
    part ⊆ sep.intercalate parts := by
  induction parts with
  | nil => cases h
  | cons first parts ih =>
      cases parts with
      | nil =>
          rw [List.mem_singleton.mp h, List.intercalate_singleton]
          exact fun _ hx => hx
      | cons next parts =>
          rw [List.intercalate_cons_cons]
          rcases List.mem_cons.mp h with rfl | h
          · exact fun x hx => List.mem_append_left _ (List.mem_append_left _ hx)
          · exact fun x hx => List.mem_append_right _ (ih h hx)

omit [DecidableEq α] in
/-- Joined parts, element by element. -/
theorem map_intercalate {β : Type*} (f : α → β) (sep : List α) (parts : List (List α)) :
    (sep.intercalate parts).map f = (sep.map f).intercalate (parts.map (·.map f)) := by
  induction parts with
  | nil => rfl
  | cons part parts ih =>
      cases parts with
      | nil => simp only [List.intercalate_singleton, List.map_cons, List.map_nil]
      | cons next parts =>
          rw [List.intercalate_cons_cons, List.map_append, List.map_append, ih]
          exact List.intercalate_cons_cons.symm

end Scan
