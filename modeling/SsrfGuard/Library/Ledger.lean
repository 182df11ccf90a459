import SsrfGuard.Library.Trace

/-! # What is opened and what is closed

Some entries of a log open a thing, others close one. `Ledger.held` is what is open after a stretch of the
log; a stretch balances to these things when it opens them and closes whatever else it opens. The pattern
behind it, a body under a handler that closes and raises again, balances to what it returns. -/

/-- The thing each entry of a log opens or closes. -/
structure Ledger (τ κ : Type) where
  /-- What the entry opens. -/
  opens : τ → Option κ
  /-- What the entry closes. -/
  closes : τ → Option κ

namespace Ledger

variable {τ κ : Type} [DecidableEq κ] {ledger : Ledger τ κ} {kept : List κ} {a : κ} {entry : τ}
  {entries first second : List τ}

/-- What is open after an entry. -/
def step (ledger : Ledger τ κ) (held : List κ) (entry : τ) : List κ :=
  match ledger.opens entry, ledger.closes entry with
  | some a, _ => a :: held
  | none, some a => held.erase a
  | none, none => held

/-- What is open after a stretch of the log. -/
def held (ledger : Ledger τ κ) (before : List κ) (entries : List τ) : List κ :=
  entries.foldl ledger.step before

/-- The entry neither opens nor closes anything. -/
def Passes (ledger : Ledger τ κ) (entry : τ) : Prop := ledger.opens entry = none ∧ ledger.closes entry = none

/-- Whatever was open before, these things are open besides it after the entries. -/
def Balances (ledger : Ledger τ κ) (kept : List κ) (entries : List τ) : Prop :=
  ∀ before, ledger.held before entries = kept ++ before

@[simp] theorem held_nil (before : List κ) : ledger.held before [] = before := rfl

@[simp] theorem held_cons (before : List κ) (entry : τ) (entries : List τ) :
    ledger.held before (entry :: entries) = ledger.held (ledger.step before entry) entries := rfl

theorem held_append (before : List κ) (first second : List τ) :
    ledger.held before (first ++ second) = ledger.held (ledger.held before first) second :=
  List.foldl_append

theorem step_of_opens (h : ledger.opens entry = some a) (before : List κ) :
    ledger.step before entry = a :: before := by
  rw [step, h]

theorem step_of_closes (hopens : ledger.opens entry = none) (hcloses : ledger.closes entry = some a)
    (before : List κ) : ledger.step before entry = before.erase a := by
  rw [step, hopens, hcloses]

theorem Passes.step (h : ledger.Passes entry) (before : List κ) : ledger.step before entry = before := by
  rw [Ledger.step, h.1, h.2]

theorem balances_nil : ledger.Balances [] [] := fun _ => rfl

theorem balances_of_passes (h : ∀ entry ∈ entries, ledger.Passes entry) : ledger.Balances [] entries := by
  induction entries with
  | nil => exact balances_nil
  | cons entry entries ih =>
      obtain ⟨hentry, hentries⟩ := List.forall_mem_cons.mp h
      intro before
      rw [held_cons, hentry.step]
      exact ih hentries before

/-- A stretch that closes whatever it opens, before another. -/
theorem Balances.append (h₁ : ledger.Balances [] first) (h₂ : ledger.Balances kept second) :
    ledger.Balances kept (first ++ second) := by
  intro before
  rw [held_append, h₁ before]
  exact h₂ before

/-- Something is opened, and what comes after opens and closes nothing. -/
theorem balances_open (h : ledger.opens entry = some a) (hafter : ∀ entry ∈ entries, ledger.Passes entry) :
    ledger.Balances [a] (entry :: entries) := by
  intro before
  rw [held_cons, step_of_opens h]
  exact balances_of_passes hafter (a :: before)

/-- What was opened is closed again. -/
theorem Balances.close {last : τ} (h : ledger.Balances [a] entries) (hopens : ledger.opens last = none)
    (hcloses : ledger.closes last = some a) : ledger.Balances [] (entries ++ [last]) := by
  intro before
  rw [held_append, h before, held_cons, step_of_closes hopens hcloses]
  exact List.erase_cons_head a before

/-- A thing that is open stays open as long as nothing closes it. -/
theorem mem_held (h : ∀ entry ∈ entries, ledger.closes entry ≠ some a) {before : List κ} (ha : a ∈ before) :
    a ∈ ledger.held before entries := by
  induction entries generalizing before with
  | nil => exact ha
  | cons entry entries ih =>
      obtain ⟨hentry, hentries⟩ := List.forall_mem_cons.mp h
      refine ih hentries ?_
      rw [step]
      split
      · exact List.mem_cons_of_mem _ ha
      · next b _ hb =>
        have hne : a ≠ b := by
          rintro rfl
          exact hentry hb
        exact (List.mem_erase_of_ne hne).mpr ha
      · exact ha

/-- **What a balanced stretch opens** it keeps, or closes after that. -/
theorem Balances.mem_or_closes (h : ledger.Balances kept (first ++ entry :: second))
    (hopens : ledger.opens entry = some a) : a ∈ kept ∨ ∃ later ∈ second, ledger.closes later = some a := by
  by_cases hclosed : ∃ later ∈ second, ledger.closes later = some a
  · exact .inr hclosed
  · left
    have hnever : ∀ later ∈ second, ledger.closes later ≠ some a :=
      fun later hmem heq => hclosed ⟨later, hmem, heq⟩
    have hheld : a ∈ ledger.held [] (first ++ entry :: second) := by
      rw [held_append, held_cons, step_of_opens hopens]
      exact mem_held hnever List.mem_cons_self
    rw [h []] at hheld
    simpa using hheld

end Ledger

/-- What a program returned is all that is kept of it. -/
theorem Except.eq_ok_of_mem_toList {ε α : Type} {x : Except ε α} {a : α} (h : a ∈ x.toOption.toList) :
    x = .ok a := by
  cases x with
  | ok b =>
      rw [List.mem_singleton.mp h]
  | error e => exact absurd h List.not_mem_nil

namespace Prog.Adds

variable {ω ε τ κ : Type} [DecidableEq κ] {log : ω → List τ} {ledger : Ledger τ κ}

/-- **Open, use, close on a raise**: the thing is used under a handler that closes it whatever is raised,
and it is still open exactly when it is returned. -/
theorem guarded {body close : Prog ω ε Unit} {opened : τ} {a : κ} (hopened : ledger.opens opened = some a)
    (hbody : AddsOnly log ledger.Passes body)
    (hclose : Adds log close fun _ added =>
      ∃ entry, added = [entry] ∧ ledger.opens entry = none ∧ ledger.closes entry = some a) :
    Adds log (do
      MonadExcept.tryCatch body fun e => do
        close
        MonadExcept.throw e
      Pure.pure a) fun result added => ledger.Balances result.toOption.toList (opened :: added) := by
  have htry : Adds log (MonadExcept.tryCatch body fun e => do
      close
      MonadExcept.throw e) fun result added =>
        (result = .ok () → ledger.Balances [a] (opened :: added)) ∧
          ∀ e, result = .error e → ledger.Balances [] (opened :: added) := by
    refine Adds.tryCatch hbody (fun _ added hpasses => ?_) fun e first hpasses => ?_
    · exact ⟨fun _ => Ledger.balances_open hopened hpasses, fun e h => nomatch h⟩
    -- the thing is closed whether or not closing it raises
    · have hclosed (entry : τ) (hopens : ledger.opens entry = none) (hcloses : ledger.closes entry = some a) :
          ledger.Balances [] (opened :: (first ++ [entry])) :=
        (Ledger.balances_open hopened hpasses).close hopens hcloses
      refine hclose.bind ?_ ?_
      · rintro _ _ ⟨entry, rfl, hopens, hcloses⟩
        refine Adds.throw ?_
        rw [List.append_nil]
        exact ⟨fun h => (nomatch h), fun _ _ => hclosed entry hopens hcloses⟩
      · rintro _ _ ⟨entry, rfl, hopens, hcloses⟩
        exact ⟨fun h => (nomatch h), fun _ _ => hclosed entry hopens hcloses⟩
  refine htry.bind (fun _ first hfirst => Adds.pure ?_) fun e first hfirst => hfirst.2 e rfl
  rw [List.append_nil]
  exact hfirst.1 rfl

end Prog.Adds
