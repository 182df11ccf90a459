import SsrfGuard.Library.Effect

/-! # What a run costs

A world often carries a number that a program may raise: the sockets it has opened, the messages it has
sent. `Prog.Costs cost n x` says that a run of `x` raises it by no more than `n`, however it ends. The rules
follow the constructs; what a sequence costs is what its parts cost together. -/

namespace Prog

variable {ω ω' ε ε' α β γ : Type} {cost : ω → ℕ} {n m : ℕ}

/-- A run of the program raises the number by no more than `n`. -/
def Costs (cost : ω → ℕ) (n : ℕ) (x : Prog ω ε α) : Prop := ∀ w, cost (x.exec w).2 ≤ cost w + n

namespace Costs

variable {x : Prog ω ε α}

theorem mono (hx : Costs cost n x) (h : n ≤ m) : Costs cost m x :=
  fun w => Nat.le_trans (hx w) (Nat.add_le_add_left h _)

/-- A program that leaves the number alone. -/
theorem free (h : ∀ w, cost (x.exec w).2 = cost w) : Costs cost n x :=
  fun w => Nat.le_trans (Nat.le_of_eq (h w)) (Nat.le_add_right _ _)

theorem pure (a : α) : Costs cost n (Pure.pure a : Prog ω ε α) := free fun _ => rfl

theorem throw (e : ε) : Costs cost n (MonadExcept.throw e : Prog ω ε α) := free fun _ => rfl

theorem ofExcept (r : Except ε α) : Costs cost n (Prog.ofExcept r : Prog ω ε α) := free fun _ => rfl

theorem ite {c : Prop} [Decidable c] {y : Prog ω ε α} (hx : Costs cost n x) (hy : Costs cost n y) :
    Costs cost n (if c then x else y) := by
  split
  · exact hx
  · exact hy

/-- Sequence: the second program is run only when the first returns. -/
theorem bind {f : α → Prog ω ε β} (hx : Costs cost n x) (hf : ∀ a, Costs cost m (f a)) :
    Costs cost (n + m) (x >>= f) := by
  intro w
  have hfirst := hx w
  rw [exec_bind]
  cases hexec : x.exec w with
  | mk result v =>
      rw [hexec] at hfirst
      cases result with
      | error e =>
          dsimp only at hfirst ⊢
          omega
      | ok a =>
          have hsecond := hf a v
          dsimp only at hfirst ⊢
          omega

/-- Sequence after a program that costs nothing. -/
theorem free_bind {f : α → Prog ω ε β} (hx : Costs cost 0 x) (hf : ∀ a, Costs cost n (f a)) :
    Costs cost n (x >>= f) := (hx.bind hf).mono (Nat.le_of_eq (Nat.zero_add n))

/-- Sequence before programs that cost nothing. -/
theorem bind_free {f : α → Prog ω ε β} (hx : Costs cost n x) (hf : ∀ a, Costs cost 0 (f a)) :
    Costs cost n (x >>= f) := hx.bind hf

/-- Handler: it is run only when the program raises. -/
theorem tryCatch {handler : ε → Prog ω ε α} (hx : Costs cost n x) (hh : ∀ e, Costs cost m (handler e)) :
    Costs cost (n + m) (MonadExcept.tryCatch x handler) := by
  intro w
  have hfirst := hx w
  rw [exec_tryCatch]
  cases hexec : x.exec w with
  | mk result v =>
      rw [hexec] at hfirst
      cases result with
      | ok a =>
          dsimp only at hfirst ⊢
          omega
      | error e =>
          have hsecond := hh e v
          dsimp only at hfirst ⊢
          omega

/-- Handler that costs nothing. -/
theorem tryCatch_free {handler : ε → Prog ω ε α} (hx : Costs cost n x)
    (hh : ∀ e, Costs cost 0 (handler e)) : Costs cost n (MonadExcept.tryCatch x handler) := hx.tryCatch hh

theorem mapError {f : ε → ε'} (hx : Costs cost n x) : Costs cost n (Prog.mapError f x) := hx

theorem attempt (hx : Costs cost n x) : Costs cost n (Prog.attempt x : Prog ω ε' (Except ε α)) := hx

theorem forM {f : γ → Prog ω ε PUnit} (h : ∀ c, Costs cost 0 (f c)) (l : List γ) :
    Costs cost 0 (l.forM f) := by
  induction l with
  | nil => exact pure _
  | cons c l ih => exact (h c).bind_free fun _ => ih

theorem optionForM {f : γ → Prog ω ε PUnit} (h : ∀ c, Costs cost 0 (f c)) (o : Option γ) :
    Costs cost 0 (o.forM f) := by
  cases o with
  | none => exact pure _
  | some c => exact h c

/-- A program on a part of the world costs what it costs there, when the number counts that part with the
rest. -/
theorem zoom {get : ω → ω'} {set : ω → ω' → ω} {cost' : ω' → ℕ} {y : Prog ω' ε α} (hy : Costs cost' n y)
    (h : ∀ w v, cost (set w v) + cost' (get w) = cost w + cost' v) :
    Costs cost n (Prog.zoom get set y) := by
  intro w
  have hpart := hy (get w)
  have hset := h w (y.exec (get w)).2
  rw [exec_zoom]
  dsimp only
  omega

end Costs

end Prog
