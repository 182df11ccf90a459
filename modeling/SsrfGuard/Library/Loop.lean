import SsrfGuard.Library.Raises

/-! # Loops that end

A `Loop` is one turn of a `while True`, which goes on, returns or raises, with a measure that every
turn that goes on makes smaller. Running it needs no fuel. What every turn preserves holds at the end,
and the loop raises only what a turn raises. `Goes` is the course of a run, turn by turn: a counter that
turns of one kind raise bounds how many of them there are. -/

/-- A loop body on a state, and why it cannot go on for ever. -/
structure Loop (σ ε α : Type) where
  /-- One turn: go on from a state, or leave with a result. -/
  turn : σ → Except ε (σ ⊕ α)
  /-- What every turn that goes on makes smaller. -/
  measure : σ → ℕ
  /-- It does. -/
  turn_lowers : ∀ {s s'}, turn s = .ok (.inl s') → measure s' < measure s

namespace Loop

variable {σ ε α : Type} (L : Loop σ ε α)

/-- Run the loop from a state. -/
def run (s : σ) : Except ε α :=
  match _h : L.turn s with
  | .error e => .error e
  | .ok (.inl s') => run s'
  | .ok (.inr a) => .ok a
termination_by L.measure s
decreasing_by exact L.turn_lowers _h

variable {L} {s s' : σ} {a : α} {e : ε}

theorem run_of_next (h : L.turn s = .ok (.inl s')) : L.run s = L.run s' := by
  rw [run]
  split
  · next h' => rw [h] at h'; cases h'
  · next h' => rw [h] at h'; cases h'; rfl
  · next h' => rw [h] at h'; cases h'

theorem run_of_done (h : L.turn s = .ok (.inr a)) : L.run s = .ok a := by
  rw [run]
  split
  · next h' => rw [h] at h'; cases h'
  · next h' => rw [h] at h'; cases h'
  · next h' => rw [h] at h'; cases h'; rfl

theorem run_of_raise (h : L.turn s = .error e) : L.run s = .error e := by
  rw [run]
  split
  · next h' => rw [h] at h'; cases h'; rfl
  · next h' => rw [h] at h'; cases h'
  · next h' => rw [h] at h'; cases h'

/-- What holds where the loop leaves, and holds before every turn after which it holds, holds where the
loop starts. -/
@[elab_as_elim]
theorem of_run_eq_ok {P : σ → Prop} (hdone : ∀ s, L.turn s = .ok (.inr a) → P s)
    (hnext : ∀ s s', L.turn s = .ok (.inl s') → P s' → P s) (h : L.run s = .ok a) : P s := by
  induction s using run.induct L with
  | case1 s e ht =>
      rw [run_of_raise ht] at h
      cases h
  | case2 s s' ht ih =>
      rw [run_of_next ht] at h
      exact hnext s s' ht (ih h)
  | case3 s b ht =>
      rw [run_of_done ht] at h
      cases h
      exact hdone s ht

/-- A loop whose turns do what another's turns do returns what the other returns. -/
theorem below_run {L' : Loop σ ε α} (h : ∀ s, Except.Below (L.turn s) (L'.turn s)) (s : σ) :
    Except.Below (L.run s) (L'.run s) := by
  intro a ha
  refine of_run_eq_ok ?_ ?_ ha
  · intro s ht
    exact run_of_done (h s _ ht)
  · intro s s' ht ih
    rw [run_of_next (h s _ ht), ih]

/-- A loop raises only what one of its turns raises. -/
theorem raisesOnly_run {E : ε → Prop} (h : ∀ s, Except.RaisesOnly E (L.turn s)) (s : σ) :
    Except.RaisesOnly E (L.run s) := by
  intro e he
  induction s using run.induct L with
  | case1 s e' ht =>
      rw [run_of_raise ht] at he
      cases he
      exact h s _ ht
  | case2 s s' ht ih =>
      rw [run_of_next ht] at he
      exact ih he
  | case3 s a ht =>
      rw [run_of_done ht] at he
      cases he

/-! ## The course of a run -/

variable (L) in
/-- The loop goes from a state, by turns that go on, to a state: those the turns start in, in order. -/
inductive Goes : σ → List σ → σ → Prop
  /-- By no turn. -/
  | stay {s : σ} : Goes s [] s
  /-- By a turn that goes on, and by the turns after it. -/
  | go {s s' last : σ} {turns : List σ} (hturn : L.turn s = .ok (.inl s')) (rest : Goes s' turns last) :
      Goes s (s :: turns) last

/-- Every run is such a course, and then one turn that leaves the loop or raises. -/
theorem exists_goes (s : σ) :
    ∃ turns last, L.Goes s turns last ∧
      ((∃ e, L.turn last = .error e ∧ L.run s = .error e) ∨
        ∃ a, L.turn last = .ok (.inr a) ∧ L.run s = .ok a) := by
  induction s using run.induct L with
  | case1 s e ht => exact ⟨[], s, .stay, .inl ⟨e, ht, run_of_raise ht⟩⟩
  | case2 s s' ht ih =>
      obtain ⟨turns, last, hgoes, hlast⟩ := ih
      rw [← run_of_next ht] at hlast
      exact ⟨s :: turns, last, .go ht hgoes, hlast⟩
  | case3 s a ht => exact ⟨[], s, .stay, .inr ⟨a, ht, run_of_done ht⟩⟩

namespace Goes

variable {turns : List σ} {last : σ}

/-- What every turn that goes on preserves holds at the end of the course. -/
theorem preserves {I : σ → Prop} (hI : ∀ s s', L.turn s = .ok (.inl s') → I s → I s')
    (h : L.Goes s turns last) (hs : I s) : I last := by
  induction h with
  | stay => exact hs
  | go hturn _ ih => exact ih (hI _ _ hturn hs)

/-- Turns of one kind that each raise a counter, which no turn lowers, are bounded by it. -/
theorem countP_le {kind : σ → Bool} {counter : σ → ℕ} {step : ℕ}
    (hcounter : ∀ s s', L.turn s = .ok (.inl s') → counter s + (if kind s then step else 0) ≤ counter s')
    (h : L.Goes s turns last) : counter s + step * turns.countP kind ≤ counter last := by
  induction h with
  | stay => exact Nat.le_refl _
  | @go s s' last turns hturn _ ih =>
      have hraised := hcounter _ _ hturn
      rw [List.countP_cons]
      split at hraised
      · next hkind =>
        rw [if_pos hkind, Nat.mul_add, Nat.mul_one]
        omega
      · next hkind =>
        rw [if_neg hkind, Nat.add_zero]
        omega

end Goes

end Loop
