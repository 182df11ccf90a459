import Mathlib.Data.List.Perm.Basic
import Mathlib.Logic.Relation

/-! # Threads over a shared state

Threads take turns. A turn changes what they share, and either the thread goes on or it ends with a result. Any thread
may have the next turn, a new one may start at any time, and what is shared may change by itself. What holds of every
pool that is reached, under every such schedule, follows from what one turn does: to the shared state, to the thread
itself, and to what the other threads rely on. -/

variable {σ τ β ο : Type}

/-- What a turn of a thread comes to. -/
inductive Turn (τ β : Type)
  /-- The thread goes on from here. -/
  | goesOn (thread : τ)
  /-- The thread has ended. -/
  | ends (result : β)

/-- The thread goes on with the one, or has ended with the other. -/
def Turn.Is (T : τ → Prop) (B : β → Prop) : Turn τ β → Prop
  | goesOn thread => T thread
  | ends result => B result

/-- What is left of a thread in the pool. -/
def Turn.running : Turn τ β → List τ
  | goesOn thread => [thread]
  | ends _ => []

/-- What a thread has brought. -/
def Turn.ended : Turn τ β → List β
  | goesOn _ => []
  | ends result => [result]

/-- Threads, and what they share. -/
structure Pool (σ τ β : Type) where
  /-- What they share. -/
  shared : σ
  /-- The threads that are running. -/
  running : List τ
  /-- What the others have ended with, in order. -/
  ended : List β

/-- What threads may do. -/
structure ThreadRules (σ τ β : Type) where
  /-- A thread starts. -/
  starts : σ → τ → σ → Prop
  /-- A thread takes a turn. -/
  turns : σ → τ → σ → Turn τ β → Prop
  /-- What is shared changes by itself. -/
  drifts : σ → σ → Prop

namespace Pool

variable {rules : ThreadRules σ τ β} {start pool pool' : Pool σ τ β}

/-- One step of a pool. -/
inductive Step (rules : ThreadRules σ τ β) : Pool σ τ β → Pool σ τ β → Prop
  /-- A thread starts. -/
  | start {shared shared' : σ} {running : List τ} {ended : List β} {thread : τ} :
    rules.starts shared thread shared' → Step rules ⟨shared, running, ended⟩ ⟨shared', running ++ [thread], ended⟩
  /-- A thread takes a turn. -/
  | turn {shared shared' : σ} {before after : List τ} {ended : List β} {thread : τ} {turn : Turn τ β} :
    rules.turns shared thread shared' turn →
    Step rules ⟨shared, before ++ thread :: after, ended⟩
      ⟨shared', before ++ turn.running ++ after, ended ++ turn.ended⟩
  /-- What is shared changes by itself. -/
  | drift {shared shared' : σ} {running : List τ} {ended : List β} :
    rules.drifts shared shared' → Step rules ⟨shared, running, ended⟩ ⟨shared', running, ended⟩

/-- Pools that are reached, by any schedule. -/
def Reachable (rules : ThreadRules σ τ β) : Pool σ τ β → Pool σ τ β → Prop := Relation.ReflTransGen (Step rules)

/-! ## What the threads rely on -/

/-- The shared state stays in `I`, a running thread in `T` and a result in `B`, where these two rely on the shared
state changing by `R` alone. -/
structure Keeps (rules : ThreadRules σ τ β) (R : σ → σ → Prop) (I : σ → Prop) (T : σ → τ → Prop) (B : σ → β → Prop) :
    Prop where
  /-- When a thread starts. -/
  starts : ∀ {shared thread shared'}, I shared → rules.starts shared thread shared' →
    R shared shared' ∧ I shared' ∧ T shared' thread
  /-- When it takes a turn. -/
  turns : ∀ {shared thread shared' turn}, I shared → T shared thread → rules.turns shared thread shared' turn →
    R shared shared' ∧ I shared' ∧ turn.Is (T shared') (B shared')
  /-- When the shared state changes by itself. -/
  drifts : ∀ {shared shared'}, I shared → rules.drifts shared shared' → R shared shared' ∧ I shared'
  /-- What a thread relies on. -/
  threads : ∀ {shared shared' thread}, R shared shared' → T shared thread → T shared' thread
  /-- What a result relies on. -/
  results : ∀ {shared shared' result}, R shared shared' → B shared result → B shared' result

/-- The shared state, the threads and the results of a pool. -/
structure Kept (I : σ → Prop) (T : σ → τ → Prop) (B : σ → β → Prop) (pool : Pool σ τ β) : Prop where
  /-- The shared state. -/
  shared : I pool.shared
  /-- The threads. -/
  running : ∀ thread ∈ pool.running, T pool.shared thread
  /-- The results. -/
  ended : ∀ result ∈ pool.ended, B pool.shared result

section Keeps

variable {R : σ → σ → Prop} {I : σ → Prop} {T : σ → τ → Prop} {B : σ → β → Prop}

theorem Keeps.step (h : Keeps rules R I T B) (hstep : Step rules pool pool') (hpool : pool.Kept I T B) :
    pool'.Kept I T B := by
  obtain ⟨hshared, hrunning, hended⟩ := hpool
  cases hstep with
  | start hstarts =>
      obtain ⟨hR, hI, hT⟩ := h.starts hshared hstarts
      refine ⟨hI, fun other hother => ?_, fun result hresult => h.results hR (hended result hresult)⟩
      rcases List.mem_append.mp hother with hother | hother
      · exact h.threads hR (hrunning other hother)
      · obtain rfl := List.mem_singleton.mp hother
        exact hT
  | @turn _ _ before after ended thread turn hturns =>
      have hthread := hrunning thread (List.mem_append_right _ List.mem_cons_self)
      obtain ⟨hR, hI, hturn⟩ := h.turns hshared hthread hturns
      refine ⟨hI, fun other hother => ?_, fun result hresult => ?_⟩
      · rw [List.append_assoc, List.mem_append, List.mem_append] at hother
        rcases hother with hother | hother | hother
        · exact h.threads hR (hrunning other (List.mem_append_left _ hother))
        · cases turn with
          | goesOn next => exact List.mem_singleton.mp hother ▸ hturn
          | ends result => cases hother
        · exact h.threads hR (hrunning other (List.mem_append_right _ (List.mem_cons_of_mem _ hother)))
      · rcases List.mem_append.mp hresult with hresult | hresult
        · exact h.results hR (hended result hresult)
        · cases turn with
          | goesOn next => cases hresult
          | ends other => exact List.mem_singleton.mp hresult ▸ hturn
  | drift hdrifts =>
      obtain ⟨hR, hI⟩ := h.drifts hshared hdrifts
      exact ⟨hI, fun other hother => h.threads hR (hrunning other hother),
        fun result hresult => h.results hR (hended result hresult)⟩

/-- **Rely and guarantee**: what is kept by every step is kept by every schedule. -/
theorem Keeps.reachable (h : Keeps rules R I T B) (hreach : Reachable rules start pool) (hstart : start.Kept I T B) :
    pool.Kept I T B := by
  induction hreach with
  | refl => exact hstart
  | tail _ hstep ih => exact h.step hstep ih

end Keeps

/-! ## A bound that running threads may exceed -/

section Bound

variable {size : σ → ℕ} {exceeds : τ → Bool} {bound : ℕ}

/-- **A bound with an allowance**: where every turn stays within the bound and one for each thread that may exceed it,
so does every schedule. -/
theorem Reachable.size_le (hreach : Reachable rules start pool)
    (hstarts : ∀ {shared thread shared'}, rules.starts shared thread shared' → size shared' ≤ size shared)
    (hturns : ∀ {shared thread shared' turn}, rules.turns shared thread shared' turn → ∀ others,
      size shared ≤ bound + (others + [thread].countP exceeds) →
      size shared' ≤ bound + (others + turn.running.countP exceeds))
    (hdrifts : ∀ {shared shared'}, rules.drifts shared shared' → size shared' ≤ size shared)
    (hstart : size start.shared ≤ bound + start.running.countP exceeds) :
    size pool.shared ≤ bound + pool.running.countP exceeds := by
  induction hreach with
  | refl => exact hstart
  | tail _ hstep ih =>
      cases hstep with
      | start h =>
          have hle := hstarts h
          dsimp only at ih ⊢
          rw [List.countP_append]
          omega
      | @turn _ _ before after _ thread turn h =>
          have hothers : ∀ middle : List τ, (before ++ middle ++ after).countP exceeds =
              before.countP exceeds + after.countP exceeds + middle.countP exceeds := by
            intro middle
            rw [List.countP_append, List.countP_append]
            omega
          dsimp only at ih ⊢
          rw [List.append_cons, hothers] at ih
          rw [hothers]
          exact hturns h _ ih
      | drift h => exact Nat.le_trans (hdrifts h) ih

end Bound

/-! ## What becomes of the threads -/

/-- **Nothing is lost or duplicated**: what the threads were started for is what the running ones are for, and what
the results are of. -/
theorem Reachable.perm {begun : σ → List ο} {origin : τ → ο} {source : β → ο} (hreach : Reachable rules start pool)
    (hstarts : ∀ {shared thread shared'}, rules.starts shared thread shared' →
      begun shared' = begun shared ++ [origin thread])
    (hturns : ∀ {shared thread shared' turn}, rules.turns shared thread shared' turn →
      begun shared' = begun shared ∧ turn.Is (fun next => origin next = origin thread) fun result =>
        source result = origin thread)
    (hdrifts : ∀ {shared shared'}, rules.drifts shared shared' → begun shared' = begun shared)
    (hstart : (begun start.shared).Perm (start.running.map origin ++ start.ended.map source)) :
    (begun pool.shared).Perm (pool.running.map origin ++ pool.ended.map source) := by
  induction hreach with
  | refl => exact hstart
  | tail _ hstep ih =>
      cases hstep with
      | @start _ _ running ended thread h =>
          dsimp only at ih ⊢
          rw [hstarts h, List.map_append, List.map_singleton, List.append_assoc]
          refine (ih.append_right [origin thread]).trans ?_
          rw [List.append_assoc]
          exact List.perm_append_comm.append_left _
      | @turn _ _ before after ended thread turn h =>
          obtain ⟨hbegun, hturn⟩ := hturns h
          dsimp only at ih ⊢
          rw [hbegun]
          refine ih.trans ?_
          cases turn with
          | goesOn next =>
              have hnext : origin next = origin thread := hturn
              simp only [Turn.running, Turn.ended, List.map_append, List.map_cons, List.append_assoc,
                List.singleton_append, List.append_nil, hnext]
              exact List.Perm.refl _
          | ends result =>
              have hresult : source result = origin thread := hturn
              simp only [Turn.running, Turn.ended, List.map_append, List.map_cons, List.append_assoc,
                List.nil_append, List.map_nil, hresult, List.cons_append]
              refine List.Perm.append_left _ ?_
              rw [← List.append_assoc]
              exact (List.perm_append_singleton _ _).symm
      | drift h =>
          dsimp only at ih ⊢
          rw [hdrifts h]
          exact ih

/-! ## One at a time -/

/-- A step of a pool where no thread starts before the one that is running has ended. -/
inductive SerialStep (rules : ThreadRules σ τ β) : Pool σ τ β → Pool σ τ β → Prop
  /-- A thread starts. -/
  | start {shared shared' : σ} {ended : List β} {thread : τ} :
    rules.starts shared thread shared' → SerialStep rules ⟨shared, [], ended⟩ ⟨shared', [thread], ended⟩
  /-- It takes a turn. -/
  | turn {shared shared' : σ} {ended : List β} {thread : τ} {turn : Turn τ β} :
    rules.turns shared thread shared' turn →
    SerialStep rules ⟨shared, [thread], ended⟩ ⟨shared', turn.running, ended ++ turn.ended⟩
  /-- What is shared changes by itself. -/
  | drift {shared shared' : σ} {running : List τ} {ended : List β} :
    rules.drifts shared shared' → SerialStep rules ⟨shared, running, ended⟩ ⟨shared', running, ended⟩

/-- Pools that are reached with one thread at a time. -/
def SeriallyReachable (rules : ThreadRules σ τ β) : Pool σ τ β → Pool σ τ β → Prop :=
  Relation.ReflTransGen (SerialStep rules)

theorem SerialStep.step (h : SerialStep rules pool pool') : Step rules pool pool' := by
  cases h with
  | @start shared shared' ended thread h =>
      have hstep : Step rules ⟨shared, [], ended⟩ ⟨shared', [] ++ [thread], ended⟩ := .start h
      exact hstep
  | @turn shared shared' ended thread turn h =>
      have hstep : Step rules ⟨shared, [] ++ thread :: [], ended⟩
          ⟨shared', [] ++ turn.running ++ [], ended ++ turn.ended⟩ := .turn h
      rwa [List.append_nil] at hstep
  | drift h => exact .drift h

/-- One thread at a time is a schedule. -/
theorem SeriallyReachable.reachable (h : SeriallyReachable rules start pool) : Reachable rules start pool := by
  induction h with
  | refl => exact Relation.ReflTransGen.refl
  | tail _ hstep ih => exact Relation.ReflTransGen.tail ih hstep.step

/-- Between two threads the pool is in `Rests`, and while one is running in `Runs`. -/
def Serially (Rests : σ → List β → Prop) (Runs : σ → τ → List β → Prop) (pool : Pool σ τ β) : Prop :=
  match pool.running with
  | [] => Rests pool.shared pool.ended
  | [thread] => Runs pool.shared thread pool.ended
  | _ => False

/-- **One thread at a time** can be followed as a sequential program. -/
theorem SeriallyReachable.serially {Rests : σ → List β → Prop} {Runs : σ → τ → List β → Prop}
    (hreach : SeriallyReachable rules start pool)
    (hstarts : ∀ {shared thread shared' ended}, Rests shared ended → rules.starts shared thread shared' →
      Runs shared' thread ended)
    (hturns : ∀ {shared thread shared' turn ended}, Runs shared thread ended →
      rules.turns shared thread shared' turn →
      turn.Is (fun next => Runs shared' next ended) fun result => Rests shared' (ended ++ [result]))
    (hdrifts : ∀ {shared shared'}, rules.drifts shared shared' → ∀ ended,
      (Rests shared ended → Rests shared' ended) ∧ ∀ thread, Runs shared thread ended → Runs shared' thread ended)
    (hstart : start.Serially Rests Runs) : pool.Serially Rests Runs := by
  induction hreach with
  | refl => exact hstart
  | tail _ hstep ih =>
      cases hstep with
      | start h => exact hstarts ih h
      | @turn _ _ _ thread turn h =>
          have hturn := hturns ih h
          cases turn with
          | goesOn next =>
              change Runs _ next (_ ++ [])
              rw [List.append_nil]
              exact hturn
          | ends result => exact hturn
      | @drift _ _ running ended h =>
          obtain ⟨hrests, hruns⟩ := hdrifts h ended
          match running, ih with
          | [], ih => exact hrests ih
          | [thread], ih => exact hruns thread ih

end Pool
