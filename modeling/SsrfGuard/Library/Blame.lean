import SsrfGuard.Library.Effect

/-! # Where a run goes wrong

An invariant `I well` of a world says whether things are still well. Most steps keep it, whatever `well`
is; a few, each begun in a world that can be pointed at, decide it. `Prog.Blames I P marks x` says that
after `x` things are well exactly when they were before and every marked world satisfies `P`. The marks
of a program are put together from those of its parts by the constructs it is made of. -/

namespace Prog

variable {ω ε α β : Type}

/-- What a normal return of the program is followed by. -/
def after (x : Prog ω ε α) (next : α → ω → List ω) (w : ω) : List ω :=
  match x.exec w with
  | (.ok a, w') => next a w'
  | (.error _, _) => []

/-- What a raise of the program is followed by. -/
def afterRaise (x : Prog ω ε α) (next : ε → ω → List ω) (w : ω) : List ω :=
  match x.exec w with
  | (.ok _, _) => []
  | (.error e, w') => next e w'

/-- Computing with what a program returns raises nothing. -/
theorem afterRaise_bind_pure (x : Prog ω ε α) (f : α → β) (next : ε → ω → List ω) (w : ω) :
    (x >>= fun a => pure (f a)).afterRaise next w = x.afterRaise next w := by
  rw [afterRaise, afterRaise, exec_bind]
  cases x.exec w with
  | mk result v => cases result <;> rfl

/-- After the program things are well exactly when they were before and every world it marks is fine. -/
def Blames (I : Prop → ω → Prop) (P : ω → Prop) (marks : ω → List ω) (x : Prog ω ε α) : Prop :=
  ∀ well w, I well w → I (well ∧ ∀ v ∈ marks w, P v) (x.exec w).2

/-- Whether things are well is left as it was. -/
def Spares (I : Prop → ω → Prop) (x : Prog ω ε α) : Prop := ∀ well, Keeps (I well) (fun _ => True) x

namespace Spares

variable {I : Prop → ω → Prop} {x : Prog ω ε α}

theorem pure (a : α) : Spares I (Pure.pure a : Prog ω ε α) := fun _ => Keeps.pure a

theorem throw (e : ε) : Spares I (MonadExcept.throw e : Prog ω ε α) := fun _ => Keeps.throw True.intro

theorem ofExcept (r : Except ε α) : Spares I (Prog.ofExcept r : Prog ω ε α) :=
  fun _ => Keeps.ofExcept fun _ _ => True.intro

theorem bind {f : α → Prog ω ε β} (hx : Spares I x) (hf : ∀ a, Spares I (f a)) : Spares I (x >>= f) :=
  fun well => (hx well).bind fun a => hf a well

theorem ite {c : Prop} [Decidable c] {y : Prog ω ε α} (hx : c → Spares I x) (hy : ¬ c → Spares I y) :
    Spares I (if c then x else y) := by
  split
  · next hc => exact hx hc
  · next hc => exact hy hc

theorem exec (hx : Spares I x) {well : Prop} {w : ω} (hw : I well w) : I well (x.exec w).2 := by
  have := hx well w hw
  cases hexec : x.exec w with
  | mk result w' =>
      rw [hexec] at this
      cases result with
      | ok a => exact this
      | error e => exact this.2

end Spares

namespace Blames

variable {I : Prop → ω → Prop} {P : ω → Prop} {x : Prog ω ε α} {marks : ω → List ω}

/-- A program that keeps the invariant marks nothing. -/
theorem of_spares (hx : Spares I x) : Blames I P (fun _ => []) x := by
  intro well w hw
  have hall : (well ∧ ∀ v ∈ ([] : List ω), P v) = well :=
    propext ⟨And.left, fun h => ⟨h, List.forall_mem_nil _⟩⟩
  rw [hall]
  exact hx.exec hw

theorem ite {c : Prop} [Decidable c] {y : Prog ω ε α} {marks' : ω → List ω} (hx : c → Blames I P marks x)
    (hy : ¬ c → Blames I P marks' y) :
    Blames I P (if c then marks else marks') (if c then x else y) := by
  split
  · next hc => exact hx hc
  · next hc => exact hy hc

/-- Sequence: the marks of the first program, and then, when it returns, those of the second. -/
theorem bind {f : α → Prog ω ε β} {next : α → ω → List ω} (hx : Blames I P marks x)
    (hf : ∀ a, Blames I P (next a) (f a)) :
    Blames I P (fun w => marks w ++ x.after next w) (x >>= f) := by
  intro well w hw
  have hmid := hx well w hw
  rw [exec_bind]
  dsimp only
  rw [after]
  simp only [List.forall_mem_append, ← and_assoc]
  cases hexec : x.exec w with
  | mk result v =>
      rw [hexec] at hmid
      cases result with
      | ok a => exact hf a _ v hmid
      | error e =>
          have hall := of_spares (P := P) (Spares.throw (α := α) (I := I) e) _ v hmid
          exact hall

/-- Sequence after a program that keeps the invariant. -/
theorem spares_bind {f : α → Prog ω ε β} {next : α → ω → List ω} (hx : Spares I x)
    (hf : ∀ a, Blames I P (next a) (f a)) : Blames I P (x.after next) (x >>= f) :=
  bind (of_spares hx) hf

/-- A sequence whose second program keeps the invariant. -/
theorem bind_spares {f : α → Prog ω ε β} (hx : Blames I P marks x) (hf : ∀ a, Spares I (f a)) :
    Blames I P marks (x >>= f) := by
  intro well w hw
  have hmid := hx well w hw
  rw [exec_bind]
  cases hexec : x.exec w with
  | mk result v =>
      rw [hexec] at hmid
      cases result with
      | ok a => exact (hf a).exec hmid
      | error e => exact hmid

/-- Handler: the marks of the program, and then, when it raises, those of the handler. -/
theorem tryCatch {handler : ε → Prog ω ε α} {next : ε → ω → List ω} (hx : Blames I P marks x)
    (hh : ∀ e, Blames I P (next e) (handler e)) :
    Blames I P (fun w => marks w ++ x.afterRaise next w) (MonadExcept.tryCatch x handler) := by
  intro well w hw
  have hmid := hx well w hw
  rw [exec_tryCatch]
  dsimp only
  rw [afterRaise]
  simp only [List.forall_mem_append, ← and_assoc]
  cases hexec : x.exec w with
  | mk result v =>
      rw [hexec] at hmid
      cases result with
      | ok a => exact of_spares (P := P) (Spares.pure (ε := ε) (I := I) a) _ v hmid
      | error e => exact hh e _ v hmid

end Blames

end Prog
