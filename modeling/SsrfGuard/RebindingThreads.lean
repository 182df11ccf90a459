import SsrfGuard.Library.Pool
import SsrfGuard.RebindingMemory
import SsrfGuard.RebindingSpelling

/-! # A watch that several threads report to

The asynchronous client resolves in worker threads, and each of them reports to the one observer. `RebindingWatch` has
no lock: what it does to its sightings is a sequence of single operations on a dictionary, and between any two of them
other threads may do theirs. A call may then come to delete a host that has gone, or find the dictionary changed
under its iteration, and raise; `report` suppresses that, and the decision is not handed on. Whatever the schedule,
the memory stays bounded, nothing is handed on twice, and nothing is reported of a host that it was not permitted
at. -/

namespace SsrfGuard

namespace RebindingWatch

/-! ## One call, operation by operation -/

/-- What a call of the watch does next. -/
inductive Point
  /-- `now = time.monotonic()`. -/
  | reading
  /-- `self._seen.items()`. -/
  | listing (now : ℚ)
  /-- The comprehension of `_forget`: the hosts to come, the stale ones so far, and how many changes there had been. -/
  | looking (now : ℚ) (rest stale : List Str) (began : ℕ)
  /-- The loop of `_forget`: the hosts to be deleted. -/
  | deleting (now : ℚ) (stale : List Str)
  /-- `self._seen.pop(host, None)`, or `self._seen.get(host)`. -/
  | consulting (now : ℚ)
  /-- `self._seen[host] = _Sighting(addresses=addresses, at=now)`. -/
  | storing (now : ℚ) (addresses : List Str)
  /-- `len(self._seen) > self.capacity`. -/
  | measuring
  /-- `self._seen.popitem(last=False)`. -/
  | evicting
  /-- `self.observer(decision)`. -/
  | handing (given : Decision)

/-- A call of the watch in some thread. -/
structure ThreadCall where
  /-- What it was called with. -/
  decision : Decision
  /-- `str(decision.host)`. -/
  host : Str
  /-- What it does next. -/
  point : Point

/-- How a call has ended. -/
structure Handled where
  /-- What the watch was called with. -/
  decision : Decision
  /-- What the wrapped observer was called with, unless the watch raised. -/
  given : Option Decision

/-- What the threads share. -/
structure Memory where
  /-- The watch. -/
  watch : RebindingWatch
  /-- How often a host has been added to the sightings, or taken from them. -/
  changes : ℕ
  /-- The monotonic clock. -/
  clock : ℚ
  /-- What the watch has been called with so far, in order. -/
  begun : List Decision

/-- The hosts with a sighting. -/
def hosts (watch : RebindingWatch) : List Str := watch.seen.map Prod.fst

/-- The sighting of a host is older than the window. -/
def staleAt (watch : RebindingWatch) (now : ℚ) (host : Str) : Bool :=
  match watch.seen.find? fun entry => entry.1 = host with
  | none => false
  | some (_, sighting) => watch.window < now - sighting.at_

/-- Some hosts are deleted. -/
def without (watch : RebindingWatch) (gone : List Str) : RebindingWatch :=
  { watch with seen := watch.seen.filter fun entry => entry.1 ∉ gone }

/-- A host is given a sighting: in the place of the one it has, or else at the end. -/
def put (watch : RebindingWatch) (host : Str) (sighting : Sighting) : RebindingWatch :=
  if host ∈ watch.hosts then
    { watch with seen := watch.seen.map fun entry => if entry.1 = host then (host, sighting) else entry }
  else { watch with seen := watch.seen ++ [(host, sighting)] }

/-- The oldest host is deleted. -/
def popOldest (watch : RebindingWatch) : RebindingWatch := { watch with seen := watch.seen.tail }

namespace Memory

/-- `del self._seen[host]` and `self._seen.pop(host, None)`, of what they leave. -/
def delete (memory : Memory) (host : Str) : Memory :=
  { memory with
    watch := memory.watch.without [host]
    changes := if host ∈ memory.watch.hosts then memory.changes + 1 else memory.changes }

/-- `self._seen[host] = sighting`. -/
def store (memory : Memory) (host : Str) (sighting : Sighting) : Memory :=
  { memory with
    watch := memory.watch.put host sighting
    changes := if host ∈ memory.watch.hosts then memory.changes else memory.changes + 1 }

end Memory

/-- The call goes on with this. -/
def ThreadCall.goTo (call : ThreadCall) (point : Point) : Turn ThreadCall Handled :=
  .goesOn { call with point := point }

/-- One operation of a call. When hosts have been added or deleted since it began, an iteration may notice, or miss
some. -/
def ThreadCall.advance (call : ThreadCall) (memory : Memory) (notices : Bool) : Memory × Turn ThreadCall Handled :=
  match call.point with
  | .reading => (memory, call.goTo (.listing memory.clock))
  | .listing now => (memory, call.goTo (.looking now memory.watch.hosts [] memory.changes))
  | .looking now [] stale _ => (memory, call.goTo (.deleting now stale))
  | .looking now (host :: rest) stale began =>
    -- `RuntimeError`
    if memory.changes ≠ began ∧ notices = true then (memory, .ends ⟨call.decision, none⟩)
    else
      let stale := if memory.watch.staleAt now host then stale ++ [host] else stale
      (memory, call.goTo (.looking now rest stale began))
  | .deleting now [] => (memory, call.goTo (.consulting now))
  | .deleting now (host :: stale) =>
    if host ∈ memory.watch.hosts then (memory.delete host, call.goTo (.deleting now stale))
    -- `KeyError`
    else (memory, .ends ⟨call.decision, none⟩)
  | .consulting now =>
    match call.decision.outcome with
    | .permitted =>
      let addresses := memory.watch.addressesOf call.host
      let addresses := if call.decision.addressText ∈ addresses then addresses
        else addresses ++ [call.decision.addressText]
      (memory.delete call.host, call.goTo (.storing now addresses))
    | .refused =>
      let others := memory.watch.others call.host call.decision.addressText
      (memory, call.goTo (.handing (if others = [] then call.decision else { call.decision with alsoSeen := others })))
  | .storing now addresses =>
    (memory.store call.host { addresses := addresses, at_ := now }, call.goTo .measuring)
  | .measuring =>
    if memory.watch.capacity < memory.watch.seen.length then (memory, call.goTo .evicting)
    else (memory, call.goTo (.handing call.decision))
  | .evicting =>
    -- `KeyError`
    if memory.watch.seen = [] then (memory, .ends ⟨call.decision, none⟩)
    else ({ memory with watch := memory.watch.popOldest, changes := memory.changes + 1 }, call.goTo .measuring)
  | .handing given => (memory, .ends ⟨call.decision, some given⟩)

/-- `RebindingWatch.__call__` begins. -/
def ThreadCall.begin (decision : Decision) : ThreadCall :=
  match decision.stage, decision.host with
  | .address, some host => { decision := decision, host := host, point := .reading }
  | _, _ => { decision := decision, host := [], point := .handing decision }

/-- Threads call the watch, and time passes. -/
def threads : ThreadRules Memory ThreadCall Handled where
  starts memory call memory' :=
    ∃ decision, call = .begin decision ∧ memory' = { memory with begun := memory.begun ++ [decision] }
  turns memory call memory' turn := ∃ notices, call.advance memory notices = (memory', turn)
  drifts memory memory' := ∃ later, memory.clock ≤ later ∧ memory' = { memory with clock := later }

/-- A watch that no thread has called yet. -/
def uncalled (watch : RebindingWatch) (clock : ℚ) : Pool Memory ThreadCall Handled :=
  { shared := { watch := watch, changes := 0, clock := clock, begun := [] }, running := [], ended := [] }

/-- What a schedule says to do next. -/
inductive Move
  /-- A thread calls the watch. -/
  | call (decision : Decision)
  /-- The call at this index does its next operation. -/
  | turn (index : ℕ) (notices : Bool)
  /-- Time passes, as much of it. -/
  | wait (seconds : ℕ)

/-- Play one move of a schedule. -/
def Move.play (pool : Pool Memory ThreadCall Handled) : Move → Pool Memory ThreadCall Handled
  | call decision =>
    { pool with
      shared := { pool.shared with begun := pool.shared.begun ++ [decision] }
      running := pool.running ++ [ThreadCall.begin decision] }
  | turn index notices =>
    match pool.running[index]? with
    | none => pool
    | some next =>
      let advanced := next.advance pool.shared notices
      { shared := advanced.1
        running := pool.running.take index ++ advanced.2.running ++ pool.running.drop (index + 1)
        ended := pool.ended ++ advanced.2.ended }
  | wait seconds => { pool with shared := { pool.shared with clock := pool.shared.clock + seconds } }

/-- What is played is reached. -/
theorem reachable_play (pool : Pool Memory ThreadCall Handled) (moves : List Move) :
    Pool.Reachable threads pool (moves.foldl Move.play pool) := by
  induction moves generalizing pool with
  | nil => exact Relation.ReflTransGen.refl
  | cons move moves ih =>
      have hmove : Pool.Reachable threads pool (move.play pool) := by
        cases move with
        | call decision => exact Relation.ReflTransGen.single (.start ⟨decision, rfl, rfl⟩)
        | turn index notices =>
            unfold Move.play
            dsimp only
            cases hcall : pool.running[index]? with
            | none => exact Relation.ReflTransGen.refl
            | some next =>
                obtain ⟨hindex, rfl⟩ := List.getElem?_eq_some_iff.mp hcall
                have hsplit : pool.running.take index ++ pool.running[index] :: pool.running.drop (index + 1) =
                    pool.running := by
                  rw [← List.drop_eq_getElem_cons hindex, List.take_append_drop]
                have hadvanced : threads.turns pool.shared pool.running[index]
                    (pool.running[index].advance pool.shared notices).1
                    (pool.running[index].advance pool.shared notices).2 := ⟨notices, rfl⟩
                have hturn := @Pool.Step.turn _ _ _ threads _ _ (pool.running.take index)
                  (pool.running.drop (index + 1)) pool.ended _ _ hadvanced
                rw [hsplit] at hturn
                exact Relation.ReflTransGen.single hturn
        | wait seconds =>
            exact Relation.ReflTransGen.single
              (.drift ⟨pool.shared.clock + seconds, le_add_of_nonneg_right (Nat.cast_nonneg seconds), rfl⟩)
      exact hmove.trans (ih _)

/-- A thread calls the watch. -/
def Move.begins : Move → Bool
  | call _ => true
  | _ => false

/-- No call begins while another one is running. -/
def oneAtATime (pool : Pool Memory ThreadCall Handled) : List Move → Bool
  | [] => true
  | move :: moves => (!move.begins || pool.running.isEmpty) && oneAtATime (move.play pool) moves

/-- A move of such a schedule, of a pool where no more than one call is running. -/
theorem seriallyReachable_move {pool : Pool Memory ThreadCall Handled} {move : Move}
    (hfew : pool.running.length ≤ 1) (halone : move.begins = true → pool.running = []) :
    Pool.SeriallyReachable threads pool (move.play pool) ∧ (move.play pool).running.length ≤ 1 := by
  obtain ⟨memory, running, ended⟩ := pool
  cases move with
  | call decision =>
      obtain rfl : running = [] := halone rfl
      exact ⟨Relation.ReflTransGen.single (.start ⟨decision, rfl, rfl⟩), le_rfl⟩
  | turn index notices =>
      cases running with
      | nil => exact ⟨Relation.ReflTransGen.refl, Nat.zero_le 1⟩
      | cons call others =>
          obtain rfl : others = [] := List.length_eq_zero_iff.mp (Nat.le_zero.mp (Nat.le_of_succ_le_succ hfew))
          cases index with
          | succ index => exact ⟨Relation.ReflTransGen.refl, le_rfl⟩
          | zero =>
              have hadvanced : threads.turns memory call (call.advance memory notices).1
                  (call.advance memory notices).2 := ⟨notices, rfl⟩
              have hplayed : (Move.turn 0 notices).play ⟨memory, [call], ended⟩ =
                  ⟨(call.advance memory notices).1, (call.advance memory notices).2.running,
                    ended ++ (call.advance memory notices).2.ended⟩ :=
                congrArg (Pool.mk _ · _) (List.append_nil _)
              rw [hplayed]
              generalize call.advance memory notices = advanced at hadvanced
              refine ⟨Relation.ReflTransGen.single (.turn hadvanced), ?_⟩
              cases advanced.2 with
              | goesOn next => exact le_rfl
              | ends result => exact Nat.zero_le 1
  | wait seconds =>
      exact ⟨Relation.ReflTransGen.single
        (.drift ⟨memory.clock + seconds, le_add_of_nonneg_right (Nat.cast_nonneg seconds), rfl⟩), hfew⟩

/-- What such a schedule comes to is reached with one call at a time. -/
theorem seriallyReachable_play {pool : Pool Memory ThreadCall Handled} {moves : List Move}
    (hfew : pool.running.length ≤ 1) (halone : oneAtATime pool moves = true) :
    Pool.SeriallyReachable threads pool (moves.foldl Move.play pool) := by
  induction moves generalizing pool with
  | nil => exact Relation.ReflTransGen.refl
  | cons move moves ih =>
      rw [oneAtATime, Bool.and_eq_true, Bool.or_eq_true, Bool.not_eq_true', List.isEmpty_iff] at halone
      obtain ⟨hbegins, hrest⟩ := halone
      have hmove := @seriallyReachable_move pool move hfew fun hbegin =>
        hbegins.resolve_left fun hnot => absurd (hbegin.symm.trans hnot) (by decide)
      exact hmove.1.trans (ih hmove.2 hrest)

/-! ## What any schedule keeps -/

/-- A decision was reported that permitted this address for this host. -/
def Permitted (begun : List Decision) (host address : Str) : Prop :=
  ∃ decision ∈ begun, decision.stage = .address ∧ decision.outcome = .permitted ∧ decision.host = some host ∧
    decision.addressText = address

/-- A decision is handed on as it came; or it is a refusal, and what is added to it are other addresses its host was
permitted at. -/
def Genuine (begun : List Decision) (decision given : Decision) : Prop :=
  given = decision ∨ ∃ host others, decision.stage = .address ∧ decision.outcome = .refused ∧
    decision.host = some host ∧ others ≠ [] ∧ given = { decision with alsoSeen := others } ∧
    ∀ address ∈ others, address ≠ decision.addressText ∧ Permitted begun host address

/-- What the memory holds. -/
structure Memory.Sound (window : ℚ) (capacity : ℕ) (memory : Memory) : Prop where
  /-- The window is that of the watch. -/
  window : memory.watch.window = window
  /-- So is the capacity. -/
  capacity : memory.watch.capacity = capacity
  /-- There is one sighting for a host. -/
  nodup : memory.watch.hosts.Nodup
  /-- It is of addresses the host was permitted at. -/
  permitted : ∀ entry ∈ memory.watch.seen, ∀ address ∈ entry.2.addresses,
    Permitted memory.begun entry.1 address

/-- What a call holds. -/
structure ThreadCall.Sound (memory : Memory) (call : ThreadCall) : Prop where
  /-- It has begun. -/
  begun : call.decision ∈ memory.begun
  /-- What it does next. -/
  next : match call.point with
    | .handing given => Genuine memory.begun call.decision given
    | .storing _ addresses => call.decision.stage = .address ∧ call.decision.host = some call.host ∧
        ∀ address ∈ addresses, Permitted memory.begun call.host address
    | _ => call.decision.stage = .address ∧ call.decision.host = some call.host

/-- What a call has ended with. -/
def Handled.Sound (memory : Memory) (handled : Handled) : Prop :=
  ∀ given, handled.given = some given → Genuine memory.begun handled.decision given

variable {watch : RebindingWatch} {begun begun' : List Decision} {decision given : Decision} {host address : Str}
  {memory memory' : Memory} {call : ThreadCall} {sighting : Sighting} {window : ℚ} {capacity : ℕ}

theorem Permitted.mono (h : begun ⊆ begun') (hpermitted : Permitted begun host address) :
    Permitted begun' host address := by
  obtain ⟨decision, hmem, hrest⟩ := hpermitted
  exact ⟨decision, h hmem, hrest⟩

theorem Genuine.mono (h : begun ⊆ begun') (hgenuine : Genuine begun decision given) :
    Genuine begun' decision given := by
  rcases hgenuine with rfl | ⟨host, others, hstage, houtcome, hhost, hne, hgiven, hothers⟩
  · exact .inl rfl
  · refine .inr ⟨host, others, hstage, houtcome, hhost, hne, hgiven, fun address hmem => ?_⟩
    exact ⟨(hothers address hmem).1, (hothers address hmem).2.mono h⟩

theorem mem_addressesOf (h : address ∈ watch.addressesOf host) :
    ∃ entry ∈ watch.seen, entry.1 = host ∧ address ∈ entry.2.addresses := by
  unfold addressesOf at h
  split at h
  · cases h
  · next found sighting hfind =>
    exact ⟨(found, sighting), List.mem_of_find?_eq_some hfind, by simpa using List.find?_some hfind, h⟩

theorem hosts_without (watch : RebindingWatch) (gone : List Str) :
    (watch.without gone).hosts = watch.hosts.filter (· ∉ gone) := by
  rw [hosts, hosts, without, List.filter_map]
  rfl

theorem hosts_put_of_mem (h : host ∈ watch.hosts) : (watch.put host sighting).hosts = watch.hosts := by
  rw [put, if_pos h]
  unfold hosts
  rw [List.map_map]
  refine List.map_congr_left fun entry _ => ?_
  by_cases hentry : entry.1 = host
  · simp [hentry]
  · simp [hentry]

theorem hosts_put_of_notMem (h : host ∉ watch.hosts) : (watch.put host sighting).hosts = watch.hosts ++ [host] := by
  rw [put, if_neg h, hosts, List.map_append]
  rfl

theorem mem_put {entry : Str × Sighting} (h : entry ∈ (watch.put host sighting).seen) :
    entry ∈ watch.seen ∨ entry = (host, sighting) := by
  unfold put at h
  split at h
  · obtain ⟨old, hold, rfl⟩ := List.mem_map.mp h
    split
    · exact .inr rfl
    · exact .inl hold
  · rcases List.mem_append.mp h with h | h
    · exact .inl h
    · exact .inr (List.mem_singleton.mp h)

theorem length_put_le : (watch.put host sighting).seen.length ≤ watch.seen.length + 1 := by
  unfold put
  split
  · rw [List.length_map]
    exact Nat.le_succ _
  · rw [List.length_append]
    exact Nat.le_refl _

/-! ### One operation -/

/-- Fewer sightings are no less sound. -/
theorem Memory.Sound.of_sublist {seen : List (Str × Sighting)} {changes : ℕ} (h : memory.Sound window capacity)
    (hseen : seen.Sublist memory.watch.seen) :
    Memory.Sound window capacity
      { memory with watch := { memory.watch with seen := seen }, changes := changes } where
  window := h.window
  capacity := h.capacity
  nodup := h.nodup.sublist (hseen.map _)
  permitted entry hentry := h.permitted entry (hseen.subset hentry)

theorem Memory.Sound.delete (h : memory.Sound window capacity) (host : Str) :
    (memory.delete host).Sound window capacity := h.of_sublist List.filter_sublist

theorem Memory.Sound.store (h : memory.Sound window capacity)
    (hsighting : ∀ address ∈ sighting.addresses, Permitted memory.begun host address) :
    (memory.store host sighting).Sound window capacity := by
  have hwatch : (memory.watch.put host sighting).window = memory.watch.window ∧
      (memory.watch.put host sighting).capacity = memory.watch.capacity := by
    unfold put
    split
    · exact ⟨rfl, rfl⟩
    · exact ⟨rfl, rfl⟩
  refine ⟨hwatch.1.trans h.window, hwatch.2.trans h.capacity, ?_, fun entry hentry => ?_⟩
  · change (memory.watch.put host sighting).hosts.Nodup
    by_cases hhost : host ∈ memory.watch.hosts
    · rw [hosts_put_of_mem hhost]
      exact h.nodup
    · rw [hosts_put_of_notMem hhost]
      refine List.nodup_append.mpr ⟨h.nodup, List.nodup_singleton _, fun other hother last hlast => ?_⟩
      obtain rfl := List.mem_singleton.mp hlast
      exact fun heq => hhost (heq ▸ hother)
  · rcases mem_put hentry with hold | rfl
    · exact h.permitted entry hold
    · exact hsighting

/-- **One operation** of a call keeps what the memory and the calls hold. -/
theorem ThreadCall.advance_sound {notices : Bool} {turn : Turn ThreadCall Handled}
    (hmemory : memory.Sound window capacity) (hcall : call.Sound memory)
    (h : call.advance memory notices = (memory', turn)) :
    memory'.begun = memory.begun ∧ memory'.Sound window capacity ∧
      turn.Is (ThreadCall.Sound memory') (Handled.Sound memory') := by
  obtain ⟨decision, host, point⟩ := call
  obtain ⟨hbegun, hnext⟩ := hcall
  have hraised : ∀ {memory : Memory}, Handled.Sound memory ⟨decision, none⟩ := fun _ hgiven => by cases hgiven
  unfold advance goTo at h
  cases point with
  | reading =>
      cases h
      exact ⟨rfl, hmemory, hbegun, hnext⟩
  | listing now =>
      cases h
      exact ⟨rfl, hmemory, hbegun, hnext⟩
  | looking now rest stale began =>
      cases rest with
      | nil =>
          cases h
          exact ⟨rfl, hmemory, hbegun, hnext⟩
      | cons first rest =>
          dsimp only at h
          split at h
          · cases h
            exact ⟨rfl, hmemory, hraised⟩
          · cases h
            exact ⟨rfl, hmemory, hbegun, hnext⟩
  | deleting now stale =>
      cases stale with
      | nil =>
          cases h
          exact ⟨rfl, hmemory, hbegun, hnext⟩
      | cons first stale =>
          dsimp only at h
          split at h
          · cases h
            exact ⟨rfl, hmemory.delete first, hbegun, hnext⟩
          · cases h
            exact ⟨rfl, hmemory, hraised⟩
  | consulting now =>
      have hfile : ∀ address ∈ memory.watch.addressesOf host, Permitted memory.begun host address := by
        intro address haddress
        obtain ⟨entry, hentry, rfl, hmem⟩ := mem_addressesOf haddress
        exact hmemory.permitted entry hentry address hmem
      obtain ⟨hstage, hhost⟩ := hnext
      dsimp only at h hstage hhost hbegun
      split at h
      · next houtcome =>
        cases h
        refine ⟨rfl, hmemory.delete host, hbegun, hstage, hhost, fun address haddress => ?_⟩
        have hmem : address ∈ memory.watch.addressesOf host ∨ address = decision.addressText := by
          split at haddress
          · exact .inl haddress
          · exact (List.mem_append.mp haddress).imp_right List.mem_singleton.mp
        rcases hmem with hmem | rfl
        · exact hfile address hmem
        · exact ⟨decision, hbegun, hstage, houtcome, hhost, rfl⟩
      · next houtcome =>
        cases h
        refine ⟨rfl, hmemory, hbegun, ?_⟩
        dsimp only
        split
        · exact .inl rfl
        · next hne =>
          refine .inr ⟨host, _, hstage, houtcome, hhost, hne, rfl, fun address haddress => ?_⟩
          obtain ⟨hmem, hother⟩ := List.mem_filter.mp haddress
          exact ⟨of_decide_eq_true hother, hfile address hmem⟩
  | storing now addresses =>
      obtain ⟨hstage, hhost, haddresses⟩ := hnext
      cases h
      exact ⟨rfl, hmemory.store haddresses, hbegun, hstage, hhost⟩
  | measuring =>
      dsimp only at h
      split at h
      · cases h
        exact ⟨rfl, hmemory, hbegun, hnext⟩
      · cases h
        exact ⟨rfl, hmemory, hbegun, .inl rfl⟩
  | evicting =>
      dsimp only at h
      split at h
      · cases h
        exact ⟨rfl, hmemory, hraised⟩
      · cases h
        exact ⟨rfl, hmemory.of_sublist (List.tail_sublist _), hbegun, hnext⟩
  | handing last =>
      cases h
      refine ⟨rfl, hmemory, fun given hgiven => ?_⟩
      cases hgiven
      exact hnext

/-! ### Any schedule -/

theorem ThreadCall.Sound.mono (h : memory.begun ⊆ memory'.begun) (hcall : call.Sound memory) : call.Sound memory' := by
  obtain ⟨hbegun, hnext⟩ := hcall
  refine ⟨h hbegun, ?_⟩
  revert hnext
  cases call.point with
  | handing given => exact fun hgenuine => hgenuine.mono h
  | storing now addresses =>
      exact fun hnext => ⟨hnext.1, hnext.2.1, fun address hmem => (hnext.2.2 address hmem).mono h⟩
  | _ => exact id

@[simp] theorem ThreadCall.decision_begin (decision : Decision) :
    (ThreadCall.begin decision).decision = decision := by
  unfold ThreadCall.begin
  split
  · rfl
  · rfl

theorem ThreadCall.sound_begin (h : decision ∈ memory.begun) : (ThreadCall.begin decision).Sound memory := by
  unfold ThreadCall.begin
  split
  · next host hstage hhost => exact ⟨h, hstage, hhost⟩
  · exact ⟨h, .inl rfl⟩

theorem keeps_threads : Pool.Keeps threads (fun memory memory' => memory.begun ⊆ memory'.begun)
    (Memory.Sound window capacity) ThreadCall.Sound Handled.Sound where
  starts := by
    rintro memory _ _ hmemory ⟨decision, rfl, rfl⟩
    have hgrown : memory.begun ⊆ memory.begun ++ [decision] := List.subset_append_left _ _
    refine ⟨hgrown, ⟨hmemory.window, hmemory.capacity, hmemory.nodup, fun entry hentry address hmem => ?_⟩, ?_⟩
    · exact (hmemory.permitted entry hentry address hmem).mono hgrown
    · exact ThreadCall.sound_begin (List.mem_append_right _ List.mem_cons_self)
  turns := by
    rintro memory call memory' turn hmemory hcall ⟨notices, hadvance⟩
    obtain ⟨hbegun, hsound, hturn⟩ := ThreadCall.advance_sound hmemory hcall hadvance
    exact ⟨fun _ hmem => hbegun ▸ hmem, hsound, hturn⟩
  drifts := by
    rintro memory _ hmemory ⟨later, -, rfl⟩
    exact ⟨List.Subset.refl _, hmemory.window, hmemory.capacity, hmemory.nodup, hmemory.permitted⟩
  threads h := ThreadCall.Sound.mono h
  results h hresult given hgiven := (hresult given hgiven).mono h

/-- A call that has stored a sighting, and has yet to find that there are not too many. -/
def ThreadCall.hasStored (call : ThreadCall) : Bool :=
  match call.point with
  | .measuring | .evicting => true
  | _ => false

theorem length_without_le (watch : RebindingWatch) (gone : List Str) :
    (watch.without gone).seen.length ≤ watch.seen.length := List.length_filter_le _ _

/-- One operation is of the decision its call was made with. -/
theorem ThreadCall.decision_advance {notices : Bool} {turn : Turn ThreadCall Handled}
    (h : call.advance memory notices = (memory', turn)) :
    memory'.begun = memory.begun ∧ memory'.clock = memory.clock ∧
      turn.Is (fun next => next.decision = call.decision) fun handled => handled.decision = call.decision := by
  obtain ⟨decision, host, point⟩ := call
  unfold advance goTo at h
  dsimp only at h
  split at h
  all_goals first
    | cases h; exact ⟨rfl, rfl, rfl⟩
    | split at h <;> cases h <;> exact ⟨rfl, rfl, rfl⟩

/-- By how much the sightings exceed the capacity. -/
def Memory.excess (memory : Memory) : ℕ := memory.watch.seen.length - memory.watch.capacity

theorem Memory.excess_delete_le (memory : Memory) (host : Str) : (memory.delete host).excess ≤ memory.excess :=
  Nat.sub_le_sub_right (length_without_le memory.watch [host]) _

theorem Memory.excess_store_le (memory : Memory) (host : Str) (sighting : Sighting) :
    (memory.store host sighting).excess ≤ memory.excess + 1 := by
  have hcapacity : (memory.watch.put host sighting).capacity = memory.watch.capacity := by
    unfold put
    split
    · rfl
    · rfl
  have hlength : (memory.watch.put host sighting).seen.length ≤ memory.watch.seen.length + 1 := length_put_le
  unfold excess store
  dsimp only
  rw [hcapacity]
  omega

/-- One operation leaves one sighting too many for each call that has stored one. -/
theorem ThreadCall.excess_advance {notices : Bool} {turn : Turn ThreadCall Handled} {others : ℕ}
    (h : call.advance memory notices = (memory', turn))
    (hexcess : memory.excess ≤ 0 + (others + [call].countP ThreadCall.hasStored)) :
    memory'.excess ≤ 0 + (others + turn.running.countP ThreadCall.hasStored) := by
  obtain ⟨decision, host, point⟩ := call
  unfold advance goTo at h
  cases point with
  | reading =>
      cases h
      exact hexcess
  | listing now =>
      cases h
      exact hexcess
  | looking now rest stale began =>
      cases rest with
      | nil =>
          cases h
          exact hexcess
      | cons first rest =>
          dsimp only at h
          split at h
          · cases h
            exact hexcess
          · cases h
            exact hexcess
  | deleting now stale =>
      cases stale with
      | nil =>
          cases h
          exact hexcess
      | cons first stale =>
          dsimp only at h
          split at h
          · cases h
            exact (memory.excess_delete_le first).trans hexcess
          · cases h
            exact hexcess
  | consulting now =>
      dsimp only at h
      split at h
      · cases h
        exact (memory.excess_delete_le host).trans hexcess
      · cases h
        exact hexcess
  | storing now addresses =>
      cases h
      have hstored := memory.excess_store_le host { addresses := addresses, at_ := now }
      simp only [Turn.running, List.countP_singleton, hasStored] at hexcess ⊢
      simp only [Bool.false_eq_true, if_false, if_true] at hexcess ⊢
      omega
  | measuring =>
      dsimp only at h
      split at h
      · cases h
        exact hexcess
      · next hfew =>
        cases h
        have hnone : memory.excess = 0 := Nat.sub_eq_zero_of_le (not_lt.mp hfew)
        rw [hnone]
        exact Nat.zero_le _
  | evicting =>
      dsimp only at h
      split at h
      · next hempty =>
        cases h
        have hnone : memory.excess = 0 := by
          unfold Memory.excess
          rw [hempty]
          exact Nat.zero_sub _
        rw [hnone]
        exact Nat.zero_le _
      · cases h
        refine Nat.le_trans (Nat.sub_le_sub_right ?_ _) hexcess
        exact (List.tail_sublist _).length_le
  | handing last =>
      cases h
      exact hexcess

/-- **Threads that share a watch.** Under every schedule of the calls of any number of threads, with a watch that has
just been constructed: there are no more sightings than the capacity and one for each call that has stored one and not
yet finished evicting, so never more than the capacity when no call is running; each host has one sighting, of
addresses it was permitted at; every decision the watch was called with is still running, or has ended once; and what
is handed on is that decision, to which only other addresses are added that its host was permitted at. -/
theorem threads_safe {window : ℚ} {shown : Str} {capacity : ℤ} {watch : RebindingWatch}
    (hinit : init window shown capacity = .ok watch) {clock : ℚ} {pool : Pool Memory ThreadCall Handled}
    (hreach : Pool.Reachable threads (uncalled watch clock) pool) :
    (pool.shared.watch.seen.length : ℤ) ≤ capacity + pool.running.countP ThreadCall.hasStored ∧
    pool.shared.watch.hosts.Nodup ∧
    (∀ entry ∈ pool.shared.watch.seen, ∀ address ∈ entry.2.addresses,
      Permitted pool.shared.begun entry.1 address) ∧
    (∀ handled ∈ pool.ended, ∀ given, handled.given = some given →
      Genuine pool.shared.begun handled.decision given) ∧
    pool.shared.begun.Perm (pool.running.map ThreadCall.decision ++ pool.ended.map Handled.decision) := by
  obtain ⟨rfl, -, hcapacity⟩ := init_eq_ok hinit
  have hkept : pool.Kept (Memory.Sound window capacity.toNat) ThreadCall.Sound Handled.Sound := by
    refine keeps_threads.reachable hreach ⟨⟨rfl, rfl, List.nodup_nil, ?_⟩, ?_, ?_⟩
    · exact List.forall_mem_nil _
    · exact List.forall_mem_nil _
    · exact List.forall_mem_nil _
  have hexcess : pool.shared.excess ≤ 0 + pool.running.countP ThreadCall.hasStored := by
    refine hreach.size_le ?_ ?_ ?_ (Nat.zero_sub capacity.toNat).le
    · rintro memory _ _ ⟨decision, -, rfl⟩
      exact Nat.le_refl _
    · rintro memory call memory' turn ⟨notices, hadvance⟩ others hothers
      exact call.excess_advance hadvance hothers
    · rintro memory _ ⟨later, -, rfl⟩
      exact Nat.le_refl _
  refine ⟨?_, hkept.shared.nodup, hkept.shared.permitted, hkept.ended, ?_⟩
  · have hbound := hkept.shared.capacity
    unfold Memory.excess at hexcess
    omega
  · refine hreach.perm ?_ ?_ ?_ (List.Perm.refl _)
    · rintro memory _ _ ⟨decision, rfl, rfl⟩
      rw [ThreadCall.decision_begin]
    · rintro memory call memory' turn ⟨notices, hadvance⟩
      obtain ⟨hbegun, -, hturn⟩ := call.decision_advance hadvance
      exact ⟨hbegun, hturn⟩
    · rintro memory _ ⟨later, -, rfl⟩
      rfl

/-- Two threads permit two hosts, operation by operation in turn, until both have stored a sighting. -/
def bothStored : List Move :=
  [.call (about .permitted 0x5DB8D822), .call permitB] ++
    (List.replicate 6 [Move.turn 0 true, .turn 1 true]).flatten

/-- A watch for one host that two threads have stored two sightings in. -/
theorem threads_safe_bothStored :
    let pool := bothStored.foldl Move.play (uncalled { window := 60, capacity := 1, seen := [] } 0)
    (pool.shared.watch.seen.length : ℤ) ≤ 1 + pool.running.countP ThreadCall.hasStored ∧
      pool.shared.watch.hosts = [text "rebind.test", text "b.test"] := by
  intro pool
  have hinit : init 60 (text "60.0") 1 = .ok { window := 60, capacity := 1, seen := [] } := by decide +kernel
  obtain ⟨hlength, -⟩ := threads_safe hinit (reachable_play (uncalled _ 0) bothStored)
  exact ⟨hlength, by decide +kernel⟩

/-! ## One thread at a time -/

theorem without_without (watch : RebindingWatch) (host : Str) (gone : List Str) :
    (watch.without [host]).without gone = watch.without (host :: gone) := by
  unfold without
  dsimp only
  rw [List.filter_filter]
  congr 1
  refine List.filter_congr fun entry _ => ?_
  simp [Bool.and_comm]

theorem staleAt_eq (hnodup : watch.hosts.Nodup) {entry : Str × Sighting} (hentry : entry ∈ watch.seen) (now : ℚ) :
    watch.staleAt now entry.1 = decide (watch.window < now - entry.2.at_) := by
  have hfind : watch.seen.find? (fun other => other.1 = entry.1) = some entry := by
    obtain ⟨older, newer, hseen⟩ := List.append_of_mem hentry
    refine List.find?_eq_some_iff_append.mpr ⟨decide_eq_true rfl, older, newer, hseen, fun other hother => ?_⟩
    rw [hosts, hseen, List.map_append, List.map_cons] at hnodup
    have hdisjoint := (List.nodup_append.mp hnodup).2.2 other.1 (List.mem_map_of_mem hother) entry.1 List.mem_cons_self
    simpa using hdisjoint
  rw [staleAt, hfind]

/-- What `_forget` deletes are the hosts it has found stale. -/
theorem without_stale (hnodup : watch.hosts.Nodup) (now : ℚ) :
    watch.without (watch.hosts.filter (watch.staleAt now)) = watch.forget now := by
  unfold without forget
  congr 1
  refine List.filter_congr fun entry hentry => ?_
  have hstale := staleAt_eq hnodup hentry now
  have hhost : entry.1 ∈ watch.hosts := List.mem_map_of_mem hentry
  simp [List.mem_filter, hhost, hstale]

/-- Where a lone call has come to, when it read this time and the watch was this before it. -/
structure ThreadCall.Midway (before : RebindingWatch) (now : ℚ) (memory : Memory) (call : ThreadCall) : Prop where
  /-- What it has done to the watch. -/
  watch : match call.point with
    | .reading => memory.watch = before
    | .listing at_ => at_ = now ∧ memory.watch = before
    | .looking at_ rest stale began => at_ = now ∧ memory.watch = before ∧ began = memory.changes ∧
        ∃ looked, before.hosts = looked ++ rest ∧ stale = looked.filter (before.staleAt now)
    | .deleting at_ stale => at_ = now ∧ stale.Nodup ∧ stale ⊆ memory.watch.hosts ∧
        memory.watch.without stale = before.forget now
    | .consulting at_ => at_ = now ∧ memory.watch = before.forget now
    | .storing at_ addresses => at_ = now ∧ call.decision.outcome = .permitted ∧
        memory.watch = (before.forget now).without [call.host] ∧
        addresses = if call.decision.addressText ∈ (before.forget now).addressesOf call.host then
            (before.forget now).addressesOf call.host
          else (before.forget now).addressesOf call.host ++ [call.decision.addressText]
    | .measuring => (before.call now call.decision).2 = call.decision ∧
        { memory.watch with seen := evict memory.watch.capacity memory.watch.seen } = (before.call now call.decision).1
    | .evicting => (before.call now call.decision).2 = call.decision ∧
        memory.watch.capacity < memory.watch.seen.length ∧
        { memory.watch with seen := evict memory.watch.capacity memory.watch.seen } = (before.call now call.decision).1
    | .handing given => memory.watch = (before.call now call.decision).1 ∧ given = (before.call now call.decision).2
  /-- What it is about. -/
  about : match call.point with
    | .handing _ => True
    | _ => call.decision.stage = .address ∧ call.decision.host = some call.host

theorem call_of_about (hstage : decision.stage = .address) (hhost : decision.host = some host)
    (watch : RebindingWatch) (now : ℚ) : watch.call now decision = watch.compare now host decision := by
  simp only [call, hstage, hhost]

theorem evict_of_length_le {seen : List (Str × Sighting)} (h : seen.length ≤ capacity) :
    evict capacity seen = seen := by
  rw [evict_eq_drop, Nat.sub_eq_zero_of_le h, List.drop_zero]

/-- **One operation of a lone call** takes it further through `RebindingWatch.__call__`, and the last one to its
end. -/
theorem ThreadCall.Midway.advance {before : RebindingWatch} {now : ℚ} {notices : Bool}
    {turn : Turn ThreadCall Handled} (hmidway : call.Midway before now memory) (hnodup : before.hosts.Nodup)
    (h : call.advance memory notices = (memory', turn)) :
    turn.Is (fun next => ∃ later, (later = now ∨ later = memory.clock) ∧ next.Midway before later memory')
      fun handled => memory'.watch = (before.call now call.decision).1 ∧
        handled = ⟨call.decision, some (before.call now call.decision).2⟩ := by
  obtain ⟨decision, host, point⟩ := call
  obtain ⟨hwatch, habout⟩ := hmidway
  unfold ThreadCall.advance goTo at h
  cases point with
  | reading =>
      cases h
      exact ⟨memory.clock, .inr rfl, ⟨rfl, hwatch⟩, habout⟩
  | listing at_ =>
      obtain ⟨rfl, hwatch⟩ := hwatch
      cases h
      refine ⟨at_, .inl rfl, ⟨rfl, hwatch, rfl, [], ?_, rfl⟩, habout⟩
      rw [hwatch]
      rfl
  | looking at_ rest stale began =>
      obtain ⟨rfl, hwatch, rfl, looked, hlooked, rfl⟩ := hwatch
      cases rest with
      | nil =>
          cases h
          rw [List.append_nil] at hlooked
          subst hlooked
          refine ⟨at_, .inl rfl, ⟨rfl, hnodup.filter _, ?_, ?_⟩, habout⟩
          · rw [hwatch]
            exact fun other hother => (List.mem_filter.mp hother).1
          · rw [hwatch]
            exact without_stale hnodup at_
      | cons first rest =>
          dsimp only at h
          rw [if_neg fun hchanged => hchanged.1 rfl] at h
          cases h
          refine ⟨at_, .inl rfl, ⟨rfl, hwatch, rfl, looked ++ [first], ?_, ?_⟩, habout⟩
          · rw [hlooked, List.append_assoc]
            rfl
          · rw [hwatch, List.filter_append]
            by_cases hstale : before.staleAt at_ first = true
            · rw [if_pos hstale, List.filter_cons_of_pos hstale]
              rfl
            · rw [if_neg hstale, List.filter_cons_of_neg hstale, List.filter_nil, List.append_nil]
  | deleting at_ stale =>
      obtain ⟨rfl, hstale, hsubset, hforgotten⟩ := hwatch
      cases stale with
      | nil =>
          cases h
          refine ⟨at_, .inl rfl, ⟨rfl, ?_⟩, habout⟩
          rw [← hforgotten]
          simp [without]
      | cons first stale =>
          obtain ⟨hfirst, hsubset⟩ := List.cons_subset.mp hsubset
          obtain ⟨hnew, hstale⟩ := List.nodup_cons.mp hstale
          dsimp only at h
          rw [if_pos hfirst] at h
          cases h
          refine ⟨at_, .inl rfl, ⟨rfl, hstale, fun other hother => ?_, ?_⟩, habout⟩
          · change other ∈ (memory.watch.without [first]).hosts
            rw [hosts_without]
            refine List.mem_filter.mpr ⟨hsubset hother, decide_eq_true fun heq => hnew ?_⟩
            exact List.mem_singleton.mp heq ▸ hother
          · exact (without_without _ _ _).trans hforgotten
  | consulting at_ =>
      obtain ⟨rfl, hwatch⟩ := hwatch
      obtain ⟨hstage, hhost⟩ := habout
      dsimp only at h hstage hhost
      split at h
      · next houtcome =>
        cases h
        refine ⟨at_, .inl rfl, ⟨rfl, houtcome, ?_, ?_⟩, hstage, hhost⟩
        · change memory.watch.without [host] = _
          rw [hwatch]
        · rw [hwatch]
      · next houtcome =>
        cases h
        refine ⟨at_, .inl rfl, ⟨?_, ?_⟩, True.intro⟩
        · rw [call_of_about hstage hhost, compare, houtcome]
          exact hwatch
        · rw [call_of_about hstage hhost, compare, houtcome, hwatch]
  | storing at_ addresses =>
      obtain ⟨rfl, houtcome, hwatch, haddresses⟩ := hwatch
      obtain ⟨hstage, hhost⟩ := habout
      cases h
      have hgone : host ∉ memory.watch.hosts := by
        rw [hwatch, hosts_without]
        simp
      have hstored : (memory.store host { addresses := addresses, at_ := at_ }).watch =
          { before.forget at_ with seen := ((before.forget at_).seen.filter fun entry => entry.1 ≠ host) ++
            [(host, { addresses := addresses, at_ := at_ })] } := by
        change memory.watch.put host _ = _
        rw [put, if_neg hgone, hwatch]
        simp [without]
      have hcompared : before.call at_ decision =
          ((before.forget at_).remember host decision.addressText at_, decision) := by
        rw [call_of_about hstage hhost, compare, houtcome]
      refine ⟨at_, .inl rfl, ⟨congrArg Prod.snd hcompared, ?_⟩, hstage, hhost⟩
      refine Eq.trans ?_ (congrArg Prod.fst hcompared).symm
      dsimp only
      rw [hstored, haddresses]
      rfl
  | measuring =>
      obtain ⟨hgiven, hevicted⟩ := hwatch
      dsimp only at h
      split at h
      · next hmany =>
        cases h
        exact ⟨now, .inl rfl, ⟨hgiven, hmany, hevicted⟩, habout⟩
      · next hfew =>
        cases h
        rw [evict_of_length_le (not_lt.mp hfew)] at hevicted
        exact ⟨now, .inl rfl, ⟨hevicted, hgiven.symm⟩, True.intro⟩
  | evicting =>
      obtain ⟨hgiven, hmany, hevicted⟩ := hwatch
      dsimp only at h
      cases hseen : memory.watch.seen with
      | nil =>
          rw [hseen] at hmany
          cases hmany
      | cons oldest newer =>
          rw [hseen] at hmany
          rw [hseen, if_neg (List.cons_ne_nil _ _)] at h
          cases h
          refine ⟨now, .inl rfl, ⟨hgiven, Eq.trans ?_ hevicted⟩, habout⟩
          change ({ memory.watch.popOldest with seen := evict _ memory.watch.seen.tail } : RebindingWatch) = _
          rw [hseen, evict, if_pos hmany]
          rfl
  | handing given =>
      obtain ⟨hdone, hgiven⟩ := hwatch
      cases h
      exact ⟨hdone, congrArg (Handled.mk decision ∘ some) hgiven⟩

/-- These steps, the newest first, have ended as the watch takes them one after another. -/
structure TakenInTurn (watch : RebindingWatch) (steps : List Step) (ended : List Handled) : Prop where
  /-- The clock did not go back. -/
  clock : steps.Pairwise fun later earlier => earlier.1 ≤ later.1
  /-- They are what the watch was called with. -/
  decisions : ended.map Handled.decision = (steps.map Prod.snd).reverse
  /-- They were handed on as the watch hands them on. -/
  given : ended.map Handled.given = ((watch.handed steps).map some).reverse

variable {ended : List Handled}

/-- One more step. -/
theorem TakenInTurn.cons {steps : List Step} {now : ℚ} (h : watch.TakenInTurn steps ended)
    (hpast : ∀ step ∈ steps, step.1 ≤ now) (decision : Decision) :
    watch.TakenInTurn ((now, decision) :: steps)
      (ended ++ [⟨decision, some ((watch.after steps).call now decision).2⟩]) := by
  refine ⟨List.pairwise_cons.mpr ⟨hpast, h.clock⟩, ?_, ?_⟩
  · rw [List.map_append, h.decisions]
    exact List.reverse_cons.symm
  · rw [List.map_append, h.given, handed]
    exact List.reverse_cons.symm

/-- No call is running. -/
def Rests (watch : RebindingWatch) (memory : Memory) (ended : List Handled) : Prop :=
  ∃ steps, watch.TakenInTurn steps ended ∧ (∀ step ∈ steps, step.1 ≤ memory.clock) ∧
    memory.watch = watch.after steps ∧ memory.begun = ended.map Handled.decision

/-- One call is running. -/
def Runs (watch : RebindingWatch) (memory : Memory) (call : ThreadCall) (ended : List Handled) : Prop :=
  ∃ steps now, watch.TakenInTurn steps ended ∧ (∀ step ∈ steps, step.1 ≤ now) ∧ now ≤ memory.clock ∧
    call.Midway (watch.after steps) now memory ∧ memory.begun = ended.map Handled.decision ++ [call.decision]

theorem ThreadCall.midway_begin (memory : Memory) (decision : Decision) :
    (ThreadCall.begin decision).Midway memory.watch memory.clock memory := by
  unfold ThreadCall.begin
  split
  · next host hstage hhost => exact ⟨rfl, hstage, hhost⟩
  · next hother =>
    have hcall : memory.watch.call memory.clock decision = (memory.watch, decision) := by
      unfold RebindingWatch.call
      split
      · next host hstage hhost => exact absurd hhost (hother host hstage)
      · rfl
    refine ⟨⟨?_, ?_⟩, True.intro⟩
    · rw [hcall]
    · rw [hcall]

/-- **One thread at a time** is a schedule, and gives the watch as it is when it is called step by step: with the same
sightings, and with the same decisions handed on, in the same order, none of them lost. -/
theorem serial_eq_after (hempty : watch.seen = []) {clock : ℚ} {pool : Pool Memory ThreadCall Handled}
    (hreach : Pool.SeriallyReachable threads (watch.uncalled clock) pool) (hidle : pool.running = []) :
    Pool.Reachable threads (watch.uncalled clock) pool ∧
    ∃ steps, watch.TakenInTurn steps pool.ended ∧ pool.shared.begun = (steps.map Prod.snd).reverse ∧
      pool.shared.watch = watch.after steps := by
  have hserial : pool.Serially watch.Rests watch.Runs := by
    refine hreach.serially ?_ ?_ ?_ ⟨[], ⟨List.Pairwise.nil, rfl, rfl⟩, List.forall_mem_nil _, rfl, rfl⟩
    · rintro memory _ _ ended ⟨steps, htaken, hpast, hwatch, hbegun⟩ ⟨decision, rfl, rfl⟩
      refine ⟨steps, memory.clock, htaken, hpast, le_rfl, ?_, ?_⟩
      · rw [← hwatch]
        exact ThreadCall.midway_begin { memory with begun := memory.begun ++ [decision] } decision
      · rw [hbegun, ThreadCall.decision_begin]
    · rintro memory call memory' turn ended ⟨steps, now, htaken, hpast, hnow, hmidway, hbegun⟩ ⟨notices, hadvance⟩
      have htracks := tracks_after hempty htaken.clock hpast
      have hturn := hmidway.advance htracks.nodup hadvance
      obtain ⟨hsame, hclock, horigin⟩ := call.decision_advance hadvance
      cases turn with
      | goesOn next =>
          obtain ⟨later, hlater, hnext⟩ := hturn
          have hdecision : next.decision = call.decision := horigin
          refine ⟨steps, later, htaken, ?_, ?_, hnext, ?_⟩
          · rcases hlater with rfl | rfl
            · exact hpast
            · exact fun step hstep => (hpast step hstep).trans hnow
          · rw [hclock]
            rcases hlater with rfl | rfl
            · exact hnow
            · exact le_rfl
          · rw [hsame, hbegun, hdecision]
      | ends result =>
          obtain ⟨hwatch, rfl⟩ := hturn
          refine ⟨(now, call.decision) :: steps, htaken.cons hpast _, ?_, hwatch, ?_⟩
          · rw [hclock]
            exact List.forall_mem_cons.mpr ⟨hnow, fun step hstep => (hpast step hstep).trans hnow⟩
          · rw [hsame, hbegun, List.map_append]
            rfl
    · rintro memory _ ⟨later, hlater, rfl⟩ ended
      refine ⟨?_, ?_⟩
      · rintro ⟨steps, htaken, hpast, hwatch, hbegun⟩
        exact ⟨steps, htaken, fun step hstep => (hpast step hstep).trans hlater, hwatch, hbegun⟩
      · rintro call ⟨steps, now, htaken, hpast, hnow, ⟨hwatch, habout⟩, hbegun⟩
        exact ⟨steps, now, htaken, hpast, hnow.trans hlater, ⟨hwatch, habout⟩, hbegun⟩
  rw [Pool.Serially, hidle] at hserial
  obtain ⟨steps, htaken, -, hwatch, hbegun⟩ := hserial
  exact ⟨hreach.reachable, steps, htaken, hbegun.trans htaken.decisions, hwatch⟩

/-- A host is permitted, and 50 seconds later refused at another address, operation by operation. -/
def permittedThenRefused : List Move :=
  .call (about .permitted 0x5DB8D822) :: List.replicate 8 (.turn 0 true) ++
    .wait 50 :: .call (about .refused 0xA9FEA9FE) :: List.replicate 7 (.turn 0 true)

/-- The refusal is handed on with the address that was permitted, as it is when the watch is called step by step. -/
theorem serial_eq_after_refused :
    let pool := permittedThenRefused.foldl Move.play (minute.uncalled 0)
    pool.ended.map Handled.given = [some (about .permitted 0x5DB8D822),
        some { about .refused 0xA9FEA9FE with alsoSeen := [text "93.184.216.34"] }] ∧
      pool.shared.watch.hosts = [text "rebind.test"] ∧ Pool.Reachable threads (minute.uncalled 0) pool ∧
      ∃ steps, minute.TakenInTurn steps pool.ended ∧ pool.shared.begun = (steps.map Prod.snd).reverse ∧
        pool.shared.watch = minute.after steps := by
  intro pool
  have hreach : Pool.SeriallyReachable threads (minute.uncalled 0) pool :=
    seriallyReachable_play (Nat.zero_le 1) (by decide +kernel)
  have hidle : pool.running = [] := by
    rw [← List.isEmpty_iff]
    decide +kernel
  exact ⟨by decide +kernel, by decide +kernel, serial_eq_after rfl hreach hidle⟩

end RebindingWatch

end SsrfGuard
