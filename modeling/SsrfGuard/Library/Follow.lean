import SsrfGuard.Library.Effect

/-! # One run inside another

A program often does to a part of its world what a smaller program does to that part alone, and what it
adds is bookkeeping. `Prog.Follows get rest x y` says that `x` does so with `y` on the part `get`, and
leaves the part `rest` alone. The rules follow the constructs. -/

namespace Prog

variable {ω ω' ρ ε α β γ : Type} {get : ω → ω'} {rest : ω → ρ}

/-- The program ends as the smaller one does, leaves the same in its part of the world, and leaves the
rest as it was. -/
def Follows (get : ω → ω') (rest : ω → ρ) (x : Prog ω ε α) (y : Prog ω' ε α) : Prop :=
  ∀ w, ∃ w', x.exec w = ((y.exec (get w)).1, w') ∧ get w' = (y.exec (get w)).2 ∧ rest w' = rest w

namespace Follows

variable {x : Prog ω ε α} {y : Prog ω' ε α}

theorem pure (a : α) : Follows get rest (Pure.pure a : Prog ω ε α) (Pure.pure a) :=
  fun w => ⟨w, rfl, rfl, rfl⟩

/-- Sequence: the second programs are asked about only where the first ones return. -/
theorem bind {f : α → Prog ω ε β} {g : α → Prog ω' ε β} (hxy : Follows get rest x y)
    (hfg : ∀ a, Follows get rest (f a) (g a)) : Follows get rest (x >>= f) (y >>= g) := by
  intro w
  obtain ⟨w₁, hx, hget, hrest⟩ := hxy w
  rw [exec_bind, exec_bind, hx]
  cases hy : y.exec (get w) with
  | mk result v =>
      rw [hy] at hget
      cases result with
      | error e => exact ⟨w₁, rfl, hget, hrest⟩
      | ok a =>
          obtain ⟨w₂, hf, hget₂, hrest₂⟩ := hfg a w₁
          rw [hget] at hf hget₂
          exact ⟨w₂, hf, hget₂, hrest₂.trans hrest⟩

theorem throw (e : ε) : Follows get rest (MonadExcept.throw e : Prog ω ε α) (MonadExcept.throw e) :=
  fun w => ⟨w, rfl, rfl, rfl⟩

theorem ofExcept (r : Except ε α) : Follows get rest (Prog.ofExcept r : Prog ω ε α) (Prog.ofExcept r) :=
  fun w => ⟨w, rfl, rfl, rfl⟩

theorem ite {c : Prop} [Decidable c] {x' : Prog ω ε α} {y' : Prog ω' ε α} (h : Follows get rest x y)
    (h' : Follows get rest x' y') : Follows get rest (if c then x else x') (if c then y else y') := by
  split
  · exact h
  · exact h'

/-- Sequence after a program that never returns: what would come next makes no difference. -/
theorem bind_of_raises {f : α → Prog ω ε β} {g : α → Prog ω' ε β} (hxy : Follows get rest x y)
    (hraises : ∀ v a, (y.exec v).1 ≠ .ok a) : Follows get rest (x >>= f) (y >>= g) := by
  intro w
  obtain ⟨w₁, hx, hget, hrest⟩ := hxy w
  rw [exec_bind, exec_bind, hx]
  cases hy : y.exec (get w) with
  | mk result v =>
      rw [hy] at hget
      cases result with
      | error e => exact ⟨w₁, rfl, hget, hrest⟩
      | ok a => exact absurd (congrArg Prod.fst hy) (hraises _ a)

/-- Sequence, with what the first program returns known to be one of its results. -/
theorem bind_of_returns {f : α → Prog ω ε β} {g : α → Prog ω' ε β} (hxy : Follows get rest x y)
    (hfg : ∀ v a, (y.exec v).1 = .ok a → Follows get rest (f a) (g a)) :
    Follows get rest (x >>= f) (y >>= g) := by
  intro w
  obtain ⟨w₁, hx, hget, hrest⟩ := hxy w
  rw [exec_bind, exec_bind, hx]
  cases hy : y.exec (get w) with
  | mk result v =>
      rw [hy] at hget
      cases result with
      | error e => exact ⟨w₁, rfl, hget, hrest⟩
      | ok a =>
          obtain ⟨w₂, hf, hget₂, hrest₂⟩ := hfg (get w) a (congrArg Prod.fst hy) w₁
          rw [hget] at hf hget₂
          exact ⟨w₂, hf, hget₂, hrest₂.trans hrest⟩

theorem attempt {ε' : Type} (hxy : Follows get rest x y) :
    Follows get rest (Prog.attempt x : Prog ω ε' (Except ε α)) (Prog.attempt y) := by
  intro w
  obtain ⟨w₁, hx, hget, hrest⟩ := hxy w
  refine ⟨w₁, ?_, hget, hrest⟩
  rw [exec_attempt, exec_attempt, hx]

theorem mapError {ε' : Type} {f : ε → ε'} (hxy : Follows get rest x y) :
    Follows get rest (Prog.mapError f x) (Prog.mapError f y) := by
  intro w
  obtain ⟨w₁, hx, hget, hrest⟩ := hxy w
  refine ⟨w₁, ?_, hget, hrest⟩
  rw [exec_mapError, exec_mapError, hx]

/-- Handler: the handlers are asked about only where the first programs raise. -/
theorem tryCatch {f : ε → Prog ω ε α} {g : ε → Prog ω' ε α} (hxy : Follows get rest x y)
    (hfg : ∀ e, Follows get rest (f e) (g e)) :
    Follows get rest (MonadExcept.tryCatch x f) (MonadExcept.tryCatch y g) := by
  intro w
  obtain ⟨w₁, hx, hget, hrest⟩ := hxy w
  rw [exec_tryCatch, exec_tryCatch, hx]
  cases hy : y.exec (get w) with
  | mk result v =>
      rw [hy] at hget
      cases result with
      | ok a => exact ⟨w₁, rfl, hget, hrest⟩
      | error e =>
          obtain ⟨w₂, hf, hget₂, hrest₂⟩ := hfg e w₁
          rw [hget] at hf hget₂
          exact ⟨w₂, hf, hget₂, hrest₂.trans hrest⟩

theorem forM {f : γ → Prog ω ε PUnit} {g : γ → Prog ω' ε PUnit} (h : ∀ c, Follows get rest (f c) (g c))
    (l : List γ) : Follows get rest (l.forM f) (l.forM g) := by
  induction l with
  | nil => exact pure _
  | cons c l ih => exact (h c).bind fun _ => ih

theorem optionForM {f : γ → Prog ω ε PUnit} {g : γ → Prog ω' ε PUnit}
    (h : ∀ c, Follows get rest (f c) (g c)) (o : Option γ) : Follows get rest (o.forM f) (o.forM g) := by
  cases o with
  | none => exact pure _
  | some c => exact h c

end Follows

end Prog
