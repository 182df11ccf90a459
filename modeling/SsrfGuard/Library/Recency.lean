import Mathlib.Data.List.Dedup
import Mathlib.Data.List.Perm.Basic

/-! # Uses that follow one another without a pause

A bounded memory forgets a key when it has not been used for too long, or when too many other keys have
been used since. What it then still knows of the key comes from an unbroken row of uses: each one fresh
at the next, with few enough other keys in between. Uses are listed from the newest to the oldest. -/

/-- A key was used, with a value, at a time. -/
structure Use (κ α τ : Type) where
  /-- When. -/
  time : τ
  /-- The key. -/
  key : κ
  /-- The value it was used with. -/
  value : α
  deriving DecidableEq

namespace Recency

variable {κ α τ : Type} [DecidableEq κ] (fresh : τ → τ → Prop) (capacity : ℕ)

/-- Between a use of the key and a later time there is no pause: it is fresh by then, the uses after it
are of other keys, and not of too many. -/
structure NoPause (k : κ) (time now : τ) (later : List (Use κ α τ)) : Prop where
  /-- The key has not been used again. -/
  others : ∀ use ∈ later, use.key ≠ k
  /-- The use is still fresh. -/
  fresh : fresh time now
  /-- Few enough other keys have been used since. -/
  few : (later.map Use.key).dedup.length < capacity

/-- The key was last used at this time, and these are the uses since. -/
def LastUse (uses : List (Use κ α τ)) (k : κ) (time : τ) (later : List (Use κ α τ)) : Prop :=
  ∃ a earlier, uses = later ++ ⟨time, k, a⟩ :: earlier ∧ ∀ use ∈ later, use.key ≠ k

/-- The key was used with the value, and from there its uses follow one another without a pause up to
the present. -/
inductive Unbroken (k : κ) (a : α) : τ → List (Use κ α τ) → Prop
  /-- In its last use. -/
  | last {time now : τ} {later earlier : List (Use κ α τ)} :
    NoPause fresh capacity k time now later → Unbroken k a now (later ++ ⟨time, k, a⟩ :: earlier)
  /-- Before its last use. -/
  | before {time now : τ} {b : α} {later earlier : List (Use κ α τ)} :
    NoPause fresh capacity k time now later → Unbroken k a time earlier →
      Unbroken k a now (later ++ ⟨time, k, b⟩ :: earlier)

omit [DecidableEq κ] in
/-- What passes a test in a list is its end, when everything after what passes does. -/
theorem exists_append_filter {p : κ → Bool} {l : List κ} (h : l.Pairwise fun x y => p x = true → p y = true) :
    ∃ dropped, l = dropped ++ l.filter p ∧ ∀ x ∈ dropped, p x = false := by
  induction l with
  | nil => exact ⟨[], rfl, List.forall_mem_nil _⟩
  | cons x l ih =>
      obtain ⟨hx, hl⟩ := List.pairwise_cons.mp h
      by_cases hpx : p x = true
      · refine ⟨[], ?_, List.forall_mem_nil _⟩
        rw [List.nil_append, List.filter_eq_self.mpr]
        exact List.forall_mem_cons.mpr ⟨hpx, fun y hy => hx y hy hpx⟩
      · obtain ⟨dropped, hsplit, hdropped⟩ := ih hl
        refine ⟨x :: dropped, ?_, List.forall_mem_cons.mpr ⟨by simpa using hpx, hdropped⟩⟩
        rw [List.filter_cons_of_neg hpx, List.cons_append, ← hsplit]

variable {fresh : τ → τ → Prop} {capacity : ℕ} {k : κ} {a b : α} {time now : τ}
  {later earlier uses : List (Use κ α τ)}

omit [DecidableEq κ] in
/-- A list has one last use of a key. -/
theorem append_cons_inj {later' earlier' : List (Use κ α τ)} {use use' : Use κ α τ}
    (hlater : ∀ u ∈ later, u.key ≠ k) (hlater' : ∀ u ∈ later', u.key ≠ k) (huse : use.key = k)
    (huse' : use'.key = k) (h : later ++ use :: earlier = later' ++ use' :: earlier') :
    later = later' ∧ use = use' ∧ earlier = earlier' := by
  induction later generalizing later' with
  | nil =>
      cases later' with
      | nil => exact ⟨rfl, List.cons.inj h⟩
      | cons u later' =>
          obtain ⟨rfl, -⟩ := List.cons.inj h
          exact absurd huse (hlater' _ List.mem_cons_self)
  | cons u later ih =>
      cases later' with
      | nil =>
          obtain ⟨rfl, -⟩ := List.cons.inj h
          exact absurd huse' (hlater _ List.mem_cons_self)
      | cons u' later' =>
          obtain ⟨rfl, htail⟩ := List.cons.inj h
          obtain ⟨rfl, hrest⟩ := ih (fun v hv => hlater v (List.mem_cons_of_mem _ hv))
            (fun v hv => hlater' v (List.mem_cons_of_mem _ hv)) htail
          exact ⟨rfl, hrest⟩

/-- The last use of the key decides: there is no pause after it, and the value is the one of that use or
was known then. -/
theorem unbroken_iff (hlater : ∀ use ∈ later, use.key ≠ k) :
    Unbroken fresh capacity k a now (later ++ ⟨time, k, b⟩ :: earlier) ↔
      NoPause fresh capacity k time now later ∧ (a = b ∨ Unbroken fresh capacity k a time earlier) := by
  constructor
  · generalize hall : later ++ ⟨time, k, b⟩ :: earlier = all
    rintro (hpause | ⟨hpause, hrest⟩)
    · obtain ⟨rfl, huse, rfl⟩ := append_cons_inj hlater hpause.others rfl rfl hall
      cases huse
      exact ⟨hpause, .inl rfl⟩
    · obtain ⟨rfl, huse, rfl⟩ := append_cons_inj hlater hpause.others rfl rfl hall
      cases huse
      exact ⟨hpause, .inr hrest⟩
  · rintro ⟨hpause, rfl | hrest⟩
    · exact .last hpause
    · exact .before hpause hrest

/-- A value is known of a key only if the key was used with it. -/
theorem Unbroken.exists_use (h : Unbroken fresh capacity k a now uses) :
    ∃ time, ⟨time, k, a⟩ ∈ uses := by
  induction h with
  | @last time _ _ _ _ => exact ⟨time, List.mem_append_right _ List.mem_cons_self⟩
  | before _ _ ih =>
      obtain ⟨time, hmem⟩ := ih
      exact ⟨time, List.mem_append_right _ (List.mem_cons_of_mem _ hmem)⟩

/-- A value known of a key is one of an unforgotten last use. -/
theorem Unbroken.exists_lastUse (h : Unbroken fresh capacity k a now uses) :
    ∃ time later, LastUse uses k time later ∧ NoPause fresh capacity k time now later := by
  cases h with
  | @last time _ later earlier hpause => exact ⟨time, later, ⟨a, earlier, rfl, hpause.others⟩, hpause⟩
  | @before time _ b later earlier hpause _ =>
      exact ⟨time, later, ⟨b, earlier, rfl, hpause.others⟩, hpause⟩

/-- Of a last use that is not forgotten some value is known. -/
theorem LastUse.exists_unbroken (h : LastUse uses k time later) (hfresh : fresh time now)
    (hfew : (later.map Use.key).dedup.length < capacity) :
    ∃ a, Unbroken fresh capacity k a now uses := by
  obtain ⟨a, earlier, rfl, hothers⟩ := h
  exact ⟨a, .last ⟨hothers, hfresh, hfew⟩⟩

/-- The use of another key does not bring a key back. -/
theorem Unbroken.of_cons {use : Use κ α τ} (huse : use.key ≠ k)
    (h : Unbroken fresh capacity k a now (use :: uses)) : Unbroken fresh capacity k a now uses := by
  have hpause {later : List (Use κ α τ)} {time : τ}
      (hpause : NoPause fresh capacity k time now (use :: later)) :
      NoPause fresh capacity k time now later := by
    refine ⟨fun u hu => hpause.others u (List.mem_cons_of_mem _ hu), hpause.fresh, ?_⟩
    have hsub : (later.map Use.key).dedup ⊆ ((use :: later).map Use.key).dedup := by
      intro key hkey
      exact List.mem_dedup.mpr (List.mem_cons_of_mem _ (List.mem_dedup.mp hkey))
    exact Nat.lt_of_le_of_lt (List.subperm_of_subset (List.nodup_dedup _) hsub).length_le hpause.few
  generalize hall : use :: uses = all at h
  rcases h with @⟨time, _, later, earlier, h⟩ | @⟨time, _, b, later, earlier, h, hrest⟩
  · cases later with
    | nil =>
        cases hall
        exact absurd rfl huse
    | cons u later =>
        cases hall
        exact .last (hpause h)
  · cases later with
    | nil =>
        cases hall
        exact absurd rfl huse
    | cons u later =>
        cases hall
        exact .before (hpause h) hrest

end Recency
