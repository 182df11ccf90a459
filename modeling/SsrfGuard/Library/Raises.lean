import Mathlib.Tactic.Common
import Mathlib.Data.List.Forall2

/-! # What an `Except` computation may raise

Four views of `Except ε`: how a sequence of computations ends, which errors a computation is confined to,
when two computations are the same but for what their errors carry, and when one returns whatever the
other returns. -/

namespace Except

variable {ε α β : Type}

theorem bind_eq_ok {x : Except ε α} {f : α → Except ε β} {b : β} :
    x >>= f = .ok b ↔ ∃ a, x = .ok a ∧ f a = .ok b := by
  cases x with
  | ok a =>
      show f a = .ok b ↔ _
      simp
  | error e =>
      show (.error e : Except ε β) = .ok b ↔ _
      simp

theorem bind_eq_error {x : Except ε α} {f : α → Except ε β} {e : ε} :
    x >>= f = .error e ↔ x = .error e ∨ ∃ a, x = .ok a ∧ f a = .error e := by
  cases x with
  | ok a =>
      show f a = .error e ↔ _
      simp
  | error e' =>
      show (.error e' : Except ε β) = .error e ↔ _
      simp

theorem error_ne_ok {e : ε} {a : α} : (.error e : Except ε α) ≠ .ok a := by
  intro h
  cases h

theorem mapError_eq_ok {ε' : Type} {f : ε → ε'} {x : Except ε α} {a : α} :
    x.mapError f = .ok a ↔ x = .ok a := by
  cases x with
  | ok b => exact ⟨fun h => by cases h; rfl, fun h => by cases h; rfl⟩
  | error e => exact ⟨fun h => absurd h error_ne_ok, fun h => absurd h error_ne_ok⟩

theorem map_eq_ok {f : α → β} {x : Except ε α} {b : β} : x.map f = .ok b ↔ ∃ a, x = .ok a ∧ f a = b := by
  cases x with
  | ok a =>
      refine ⟨fun h => ⟨a, rfl, Except.ok.inj h⟩, ?_⟩
      rintro ⟨a', ha, rfl⟩
      cases ha
      rfl
  | error e =>
      refine ⟨fun h => absurd h error_ne_ok, ?_⟩
      rintro ⟨a', ha, -⟩
      exact absurd ha error_ne_ok

/-- A sequence of computations returns when each of them does. -/
theorem mapM_eq_ok {f : α → Except ε β} {l : List α} {l' : List β} :
    l.mapM f = .ok l' ↔ List.Forall₂ (fun a b => f a = .ok b) l l' := by
  induction l generalizing l' with
  | nil =>
      rw [List.mapM_nil, List.forall₂_nil_left_iff]
      exact ⟨fun h => (Except.ok.inj h).symm, fun h => h ▸ rfl⟩
  | cons a l ih =>
      rw [List.mapM_cons, List.forall₂_cons_left_iff, bind_eq_ok]
      constructor
      · rintro ⟨b, hb, h⟩
        obtain ⟨rest, hrest, hreturn⟩ := bind_eq_ok.mp h
        cases hreturn
        exact ⟨b, rest, hb, ih.mp hrest, rfl⟩
      · rintro ⟨b, rest, hb, hrest, rfl⟩
        exact ⟨b, hb, bind_eq_ok.mpr ⟨rest, ih.mpr hrest, rfl⟩⟩

/-- What a sequence returns was returned by one of its computations. -/
theorem exists_of_mem_mapM {f : α → Except ε β} {l : List α} {l' : List β} (h : l.mapM f = .ok l') {b : β}
    (hb : b ∈ l') : ∃ a ∈ l, f a = .ok b := by
  have hall := mapM_eq_ok.mp h
  clear h
  induction hall with
  | nil => cases hb
  | cons ha _ ih =>
      rcases List.mem_cons.mp hb with rfl | hb
      · exact ⟨_, List.mem_cons_self, ha⟩
      · obtain ⟨a, hmem, ha⟩ := ih hb
        exact ⟨a, List.mem_cons_of_mem _ hmem, ha⟩

/-- A sequence of checks passes when each of them does. -/
theorem forM_eq_ok {f : α → Except ε Unit} {l : List α} : l.forM f = .ok () ↔ ∀ a ∈ l, f a = .ok () := by
  induction l with
  | nil => exact iff_of_true rfl fun _ h => (List.not_mem_nil h).elim
  | cons a l ih =>
      rw [List.forall_mem_cons, ← ih]
      refine (bind_eq_ok (x := f a) (f := fun _ => l.forM f)).trans ?_
      constructor
      · rintro ⟨⟨⟩, hfirst, hrest⟩
        exact ⟨hfirst, hrest⟩
      · rintro ⟨hfirst, hrest⟩
        exact ⟨⟨⟩, hfirst, hrest⟩

/-! ## Confined errors -/

/-- Every error of the computation is in `E`. -/
def RaisesOnly (E : ε → Prop) (x : Except ε α) : Prop := ∀ e, x = .error e → E e

namespace RaisesOnly

variable {E : ε → Prop} {x : Except ε α}

theorem ok (a : α) : RaisesOnly E (.ok a) := by
  intro e h
  cases h

theorem error {e : ε} (h : E e) : RaisesOnly E (.error e : Except ε α) := by
  intro e' he
  cases he
  exact h

theorem bind {f : α → Except ε β} (hx : RaisesOnly E x) (hf : ∀ a, RaisesOnly E (f a)) :
    RaisesOnly E (x >>= f) := by
  intro e h
  rcases bind_eq_error.mp h with hxe | ⟨a, -, hfa⟩
  · exact hx e hxe
  · exact hf a e hfa

theorem ite {c : Prop} [Decidable c] {y : Except ε α} (hx : RaisesOnly E x)
    (hy : RaisesOnly E y) : RaisesOnly E (if c then x else y) := by
  split
  · exact hx
  · exact hy

/-- A branch may use that it was taken. -/
theorem dite {c : Prop} [Decidable c] {y : Except ε α} (hx : c → RaisesOnly E x)
    (hy : ¬ c → RaisesOnly E y) : RaisesOnly E (if c then x else y) := by
  split
  · next hc => exact hx hc
  · next hc => exact hy hc

theorem mapM {f : α → Except ε β} {l : List α} (hf : ∀ a, RaisesOnly E (f a)) :
    RaisesOnly E (l.mapM f) := by
  induction l with
  | nil => exact ok []
  | cons a l ih =>
      rw [List.mapM_cons]
      exact (hf a).bind fun b => ih.bind fun l' => ok _

/-- A wider set of errors confines no less. -/
theorem mono {E' : ε → Prop} (hx : RaisesOnly E x) (h : ∀ e, E e → E' e) : RaisesOnly E' x :=
  fun e he => h e (hx e he)

end RaisesOnly

/-! ## Two runs -/

/-- Two computations end alike: in values that `V` relates, or in errors that `R` relates. -/
def Agree (V : α → β → Prop) (R : ε → ε → Prop) : Except ε α → Except ε β → Prop
  | .ok a, .ok b => V a b
  | .error e, .error e' => R e e'
  | _, _ => False

namespace Agree

variable {γ δ : Type} {V : α → β → Prop} {R : ε → ε → Prop} {x : Except ε α} {y : Except ε β}

theorem ok {a : α} {b : β} (h : V a b) : Agree V R (.ok a) (.ok b) := h

theorem error {e e' : ε} (h : R e e') : Agree V R (.error e) (.error e') := h

theorem refl (hR : ∀ e, R e e) (x : Except ε α) : Agree Eq R x x := by
  cases x with
  | ok a => exact rfl
  | error e => exact hR e

/-- Sequences agree where their parts do; the second parts may use that the first ones returned. -/
theorem bind {V' : γ → δ → Prop} {f : α → Except ε γ} {g : β → Except ε δ} (hxy : Agree V R x y)
    (hfg : ∀ a b, x = .ok a → y = .ok b → V a b → Agree V' R (f a) (g b)) :
    Agree V' R (x >>= f) (y >>= g) := by
  cases x with
  | ok a =>
      cases y with
      | ok b => exact hfg a b rfl rfl hxy
      | error e => exact absurd hxy id
  | error e =>
      cases y with
      | ok b => exact absurd hxy id
      | error e' => exact hxy

theorem ite {c : Prop} [Decidable c] {x' : Except ε α} {y' : Except ε β} (hx : Agree V R x y)
    (hy : Agree V R x' y') : Agree V R (if c then x else x') (if c then y else y') := by
  split
  · exact hx
  · exact hy

end Agree

/-! ## One run below another -/

/-- The second computation returns what the first one returns; where the first raises, it may do
anything. -/
def Below (x y : Except ε α) : Prop := ∀ a, x = .ok a → y = .ok a

namespace Below

variable {x y : Except ε α}

theorem refl (x : Except ε α) : Below x x := fun _ => id

theorem error (e : ε) (y : Except ε α) : Below (.error e) y := fun _ h => (error_ne_ok h).elim

theorem bind {f g : α → Except ε β} (hxy : Below x y) (hfg : ∀ a, x = .ok a → Below (f a) (g a)) :
    Below (x >>= f) (y >>= g) := by
  intro b h
  obtain ⟨a, ha, hb⟩ := bind_eq_ok.mp h
  exact bind_eq_ok.mpr ⟨a, hxy a ha, hfg a ha b hb⟩

theorem ite {c : Prop} [Decidable c] {x' y' : Except ε α} (hx : c → Below x y) (hy : ¬ c → Below x' y') :
    Below (if c then x else x') (if c then y else y') := by
  split
  · next hc => exact hx hc
  · next hc => exact hy hc

/-- A check that the first computation passes is one the second passes too. -/
theorem guard {c c' : Prop} [Decidable c] [Decidable c'] {e e' : ε} (hc : ¬ c → ¬ c')
    (h : ¬ c → Below x y) : Below (if c then .error e else x) (if c' then .error e' else y) := by
  split
  · exact error e _
  · next hn =>
    rw [if_neg (hc hn)]
    exact h hn

end Below

end Except
