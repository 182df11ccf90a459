import SsrfGuard.RebindingWatch
import Mathlib.Algebra.GroupWithZero.Nat

/-! # What a watch holds

After a decision about an address the watch holds exactly the hosts whose last permit is within the
window and was followed by permits of fewer other hosts than the capacity, the one permitted longest ago
first. The capacity bounds how many hosts that are, and nothing bounds how many addresses one of them
has: a host that is permitted again in time keeps them all. -/

namespace SsrfGuard

namespace RebindingWatch

/-! ## Which hosts -/

section Tracks

variable {watch : RebindingWatch} {window : ℚ} {capacity : ℕ} {permits : List (Use Str Str ℚ)} {now : ℚ}
  {host : Str} {seen : List (Str × Sighting)}

/-- When nothing on file is stale, the hosts on file are those of the last permits not forgotten yet. -/
theorem Tracks.mem_hosts_iff (h : Tracks watch now permits)
    (hfresh : ∀ entry ∈ watch.seen, now - entry.2.at_ ≤ watch.window) :
    host ∈ watch.seen.map Prod.fst ↔ ∃ time later, Recency.LastUse permits host time later ∧
      now - time ≤ watch.window ∧ (later.map Use.key).dedup.length < watch.capacity := by
  constructor
  · intro hmem
    obtain ⟨⟨_, sighting⟩, hentry, rfl⟩ := List.mem_map.mp hmem
    obtain ⟨newer, hheld, hnewer, hlength⟩ := h.entries.exists_entry h.nodup hentry
    obtain ⟨_, address, _, _, _, _, haddresses⟩ := hheld.split
    -- the address of the last permit is known, by a row that ends with that permit
    have hknown : Recency.Unbroken (Fresh watch.window) watch.capacity _ address now permits :=
      (hheld.unbroken_iff hnewer).mpr
        ⟨hfresh _ hentry, hlength.trans_le h.bounded, (haddresses address).mpr (.inl rfl)⟩
    obtain ⟨time, later, hlast, hpause⟩ := hknown.exists_lastUse
    exact ⟨time, later, hlast, hpause.fresh, hpause.few⟩
  · rintro ⟨time, later, hlast, hwindow, hfew⟩
    have hfresh : Fresh watch.window time now := hwindow
    obtain ⟨address, hknown⟩ := hlast.exists_unbroken hfresh hfew
    by_contra habsent
    exact h.absent host habsent now le_rfl address hknown

/-- A host stands before the hosts that were permitted after its last permit. -/
theorem Entries.pairwise (h : Entries window capacity permits seen) :
    seen.Pairwise fun older newer => ∃ later, Recency.LastUse permits older.1 older.2.at_ later ∧
      newer.1 ∈ later.map Use.key := by
  induction seen with
  | nil => exact List.Pairwise.nil
  | cons entry seen ih =>
      obtain ⟨host, sighting⟩ := entry
      obtain ⟨hentry, hrest⟩ := h
      obtain ⟨later, address, earlier, hsplit, hothers, hkeys, -⟩ := hentry.split
      refine List.pairwise_cons.mpr ⟨fun newer hnewer => ?_, ih hrest⟩
      exact ⟨later, ⟨address, earlier, hsplit, hothers⟩, (hkeys _).mpr (List.mem_map_of_mem hnewer)⟩

end Tracks

/-- A decision about an address of a known host: one the watch looks at. -/
def Concerns (decision : Decision) : Prop := decision.stage = .address ∧ decision.host ≠ none

instance (decision : Decision) : Decidable (Concerns decision) := inferInstanceAs (Decidable (_ ∧ _))

/-- What is left after evicting was there before. -/
theorem evict_sublist (capacity : ℕ) (seen : List (Str × Sighting)) :
    (evict capacity seen).Sublist seen := by
  rw [evict_eq_drop]
  exact List.drop_sublist _ _

/-- After an address decision nothing on file is stale. -/
theorem fresh_call (watch : RebindingWatch) (hwindow : 0 ≤ watch.window) (now : ℚ) {decision : Decision}
    (h : Concerns decision) :
    ∀ entry ∈ (watch.call now decision).1.seen, now - entry.2.at_ ≤ watch.window := by
  have hforget : ∀ entry ∈ (watch.forget now).seen, now - entry.2.at_ ≤ watch.window := by
    intro entry hentry
    simpa using (List.mem_filter.mp hentry).2
  obtain ⟨hstage, hhost⟩ := h
  obtain ⟨host, hhost⟩ := Option.ne_none_iff_exists'.mp hhost
  simp only [call, hstage, hhost, compare]
  cases decision.outcome with
  | refused => exact hforget
  | permitted =>
      intro entry hentry
      rcases List.mem_append.mp ((evict_sublist _ _).subset hentry) with hold | hnew
      · exact hforget entry (List.mem_filter.mp hold).1
      · rw [List.mem_singleton.mp hnew, sub_self]
        exact hwindow

/-- A decision that is no permit of a host changes nothing, or drops what is stale. -/
theorem call_of_permitOf_eq_none (watch : RebindingWatch) {now : ℚ} {decision : Decision}
    (h : permitOf (now, decision) = none) :
    (watch.call now decision).1 = if Concerns decision then watch.forget now else watch := by
  by_cases hconcerns : Concerns decision
  · rw [if_pos hconcerns]
    obtain ⟨hstage, hhost⟩ := hconcerns
    obtain ⟨host, hhost⟩ := Option.ne_none_iff_exists'.mp hhost
    cases houtcome : decision.outcome with
    | permitted => simp [permitOf, hstage, houtcome, hhost] at h
    | refused => simp [call, compare, hstage, houtcome, hhost]
  · rw [if_neg hconcerns]
    unfold call
    split
    · next host hstage hhost => exact absurd ⟨hstage, by rw [hhost]; exact Option.some_ne_none _⟩ hconcerns
    · rfl

/-- A new watch holds nothing, and its bounds mean something. -/
theorem init_eq_ok {window : ℚ} {shown : Str} {capacity : ℤ} {watch : RebindingWatch}
    (h : init window shown capacity = .ok watch) :
    watch = { window := window, capacity := capacity.toNat, seen := [] } ∧ 0 < window ∧
      0 < capacity.toNat := by
  unfold init at h
  split at h
  · cases h
  · next hwindow =>
    split at h
    · cases h
    · next hcapacity => exact ⟨(Except.ok.inj h).symm, not_le.mp hwindow, by omega⟩

/-- **What the watch remembers.** In a run whose clock does not go back, after a decision about an address
of a host the watch holds exactly the hosts whose last permit is within the window of that decision and
was followed by permits of fewer other hosts than the capacity; they are at most as many as the capacity,
each is there once, and one stands before the hosts permitted after its last permit. A decision that is
no permit only drops what is stale, and one that is not about an address of a host changes nothing. What
the watch adds to a decision is never the address decided on, and was permitted for the same host. Steps
are listed from the newest to the oldest. -/
theorem seen_after {watch : RebindingWatch} {window : ℚ} {shown : Str} {capacity : ℤ}
    (hinit : init window shown capacity = .ok watch) (run : List Step)
    (hclock : run.Pairwise fun later earlier => earlier.1 ≤ later.1) (newer : List Step) (now : ℚ)
    (decision : Decision) (earlier : List Step) (hrun : run = newer ++ (now, decision) :: earlier) :
    let before := watch.after earlier
    let held := (before.call now decision).1.seen
    (Concerns decision →
      (∀ host, host ∈ held.map Prod.fst ↔ ∃ time later,
        Recency.LastUse (permits ((now, decision) :: earlier)) host time later ∧
          now - time ≤ window ∧ (later.map Use.key).dedup.length < capacity.toNat) ∧
      held.length ≤ capacity.toNat ∧ (held.map Prod.fst).Nodup ∧
      held.Pairwise fun older newer => ∃ later,
        Recency.LastUse (permits ((now, decision) :: earlier)) older.1 older.2.at_ later ∧
          newer.1 ∈ later.map Use.key) ∧
    (permitOf (now, decision) = none →
      (before.call now decision).1 = if Concerns decision then before.forget now else before) ∧
    ∀ address ∈ (before.call now decision).2.alsoSeen, address ∈ decision.alsoSeen ∨
      address ≠ decision.addressText ∧ ∃ host time, decision.host = some host ∧
        ⟨time, host, address⟩ ∈ permits earlier := by
  obtain ⟨hwatch, hwindow, -⟩ := init_eq_ok hinit
  rw [hrun] at hclock
  obtain ⟨hpast, hearlier⟩ := List.pairwise_cons.mp (List.pairwise_append.mp hclock).2.1
  have hbefore : Tracks (watch.after earlier) now (permits earlier) :=
    tracks_after (by rw [hwatch]) hearlier hpast
  have hbounds : (watch.after earlier).window = window ∧ (watch.after earlier).capacity = capacity.toNat := by
    rw [(after_window watch earlier).1, (after_window watch earlier).2, hwatch]
    exact ⟨rfl, rfl⟩
  have hbounds' := call_window (watch.after earlier) now decision
  have hheld := hbefore.call le_rfl decision
  intro before held
  refine ⟨fun hconcerns => ?_, call_of_permitOf_eq_none before, fun address haddress => ?_⟩
  · have hfresh := fresh_call before (by rw [hbounds.1]; exact hwindow.le) now hconcerns
    rw [← hbounds'.1] at hfresh
    refine ⟨fun host => ?_, ?_, hheld.nodup, hheld.entries.pairwise⟩
    · rw [hheld.mem_hosts_iff hfresh, hbounds'.1, hbounds'.2, hbounds.1, hbounds.2]
    · rw [← hbounds.2, ← hbounds'.2]
      exact hheld.bounded
  · rw [call_snd] at haddress
    split at haddress
    · exact .inl haddress
    · obtain ⟨host, hrefuses, hother, hknown⟩ := (hbefore.mem_reports le_rfl decision _).mp haddress
      obtain ⟨time, hpermit⟩ := hknown.exists_use
      exact .inr ⟨hother, host, time, hrefuses.2.2, hpermit⟩

/-- `b.test` permitted at `8.8.8.8`. -/
def permitB : Decision :=
  { stage := .address, outcome := .permitted, host := some (text "b.test"), address := some (.v4 0x08080808) }

/-- Of two hosts permitted one after the other a watch for one holds the second when the first is refused: the first
was permitted within the window as well, but another host was permitted after it. -/
theorem seen_after_evicted :
    let watch : RebindingWatch := { window := 60, capacity := 1, seen := [] }
    let earlier : List Step := [(10, permitB), (0, about .permitted 0x5DB8D822)]
    let uses := permits ((20, about .refused 0xA9FEA9FE) :: earlier)
    ((watch.after earlier).call 20 (about .refused 0xA9FEA9FE)).1.seen.map Prod.fst = [text "b.test"] ∧
      (∃ time later, Recency.LastUse uses (text "b.test") time later ∧ 20 - time ≤ 60 ∧
        (later.map Use.key).dedup.length < 1) ∧
      ¬ ∃ time later, Recency.LastUse uses (text "rebind.test") time later ∧ 20 - time ≤ 60 ∧
        (later.map Use.key).dedup.length < 1 := by
  intro watch earlier uses
  have hclock : ((20, about .refused 0xA9FEA9FE) :: earlier : List Step).Pairwise
      fun later earlier => earlier.1 ≤ later.1 := by
    decide +kernel
  have hheld : ((watch.after earlier).call 20 (about .refused 0xA9FEA9FE)).1.seen.map Prod.fst = [text "b.test"] := by
    decide +kernel
  obtain ⟨hhosts, -⟩ := (seen_after (show init 60 (text "60.0") 1 = .ok watch by decide +kernel) _ hclock
    [] 20 (about .refused 0xA9FEA9FE) earlier rfl).1 ⟨rfl, by decide⟩
  -- who is held decides both, through the exact set of those remembered
  rw [hheld] at hhosts
  exact ⟨hheld, (hhosts (text "b.test")).mp (by decide), mt (hhosts (text "rebind.test")).mpr (by decide)⟩

/-! ## How much -/

/-- What the watch holds: the hosts, and the addresses of each. -/
def size (watch : RebindingWatch) : ℕ :=
  watch.seen.length + (watch.seen.map fun entry => entry.2.addresses.length).sum

/-- No host has more addresses on file. -/
def AddressesWithin (bound : ℕ) (watch : RebindingWatch) : Prop :=
  ∀ entry ∈ watch.seen, entry.2.addresses.length ≤ bound

/-- The decision is no permit of a new address for a host that has as many on file. -/
def LeavesWithin (bound : ℕ) (watch : RebindingWatch) (now : ℚ) (decision : Decision) : Prop :=
  ∀ permit, permitOf (now, decision) = some permit →
    permit.value ∈ (watch.forget now).addressesOf permit.key ∨
      ((watch.forget now).addressesOf permit.key).length < bound

variable {watch : RebindingWatch} {bound : ℕ} {now : ℚ} {decision : Decision} {host address : Str}

/-- The hosts and the addresses, when no host has too many. -/
theorem AddressesWithin.size_le (h : AddressesWithin bound watch) :
    watch.size ≤ watch.seen.length * (1 + bound) := by
  rw [AddressesWithin] at h
  rw [size]
  generalize watch.seen = seen at h
  induction seen with
  | nil => exact Nat.zero_le _
  | cons entry seen ih =>
      obtain ⟨hentry, hseen⟩ := List.forall_mem_cons.mp h
      have hrest := ih hseen
      rw [List.length_cons, List.map_cons, List.sum_cons, Nat.succ_mul]
      omega

/-- A permit, taken apart. -/
theorem call_of_permitOf_eq_some {permit : Use Str Str ℚ} (h : permitOf (now, decision) = some permit) :
    (watch.call now decision).1 = (watch.forget now).remember permit.key permit.value now := by
  dsimp only [permitOf] at h
  split at h
  · next host hstage houtcome hhost =>
    cases h
    simp [call, compare, hstage, houtcome, hhost]
  · cases h

theorem length_seen_call (h : watch.seen.length ≤ watch.capacity) :
    (watch.call now decision).1.seen.length ≤ watch.capacity := by
  have hforget : (watch.forget now).seen.length ≤ watch.capacity := (List.length_filter_le _ _).trans h
  cases hpermit : permitOf (now, decision) with
  | some permit =>
      rw [call_of_permitOf_eq_some hpermit, remember]
      dsimp only
      rw [evict_eq_drop, List.length_drop]
      show _ - (_ - watch.capacity) ≤ watch.capacity
      omega
  | none =>
      rw [call_of_permitOf_eq_none watch hpermit]
      split
      · exact hforget
      · exact h

theorem AddressesWithin.forget (h : AddressesWithin bound watch) : AddressesWithin bound (watch.forget now) :=
  fun entry hentry => h entry (List.mem_filter.mp hentry).1

theorem AddressesWithin.length_addressesOf (h : AddressesWithin bound watch) :
    (watch.addressesOf host).length ≤ bound := by
  unfold addressesOf
  split
  · exact Nat.zero_le _
  · next hfind => exact h _ (List.mem_of_find?_eq_some hfind)

/-- The sighting a permit leaves behind is on file afterwards. -/
theorem mem_seen_remember (watch : RebindingWatch) (hcapacity : 0 < watch.capacity) :
    (host, { addresses := if address ∈ watch.addressesOf host then watch.addressesOf host
        else watch.addressesOf host ++ [address], at_ := now }) ∈ (watch.remember host address now).seen := by
  rw [remember]
  dsimp only
  rw [evict_eq_drop, List.drop_append_of_le_length]
  · exact List.mem_append_right _ (List.mem_singleton.mpr rfl)
  · rw [List.length_append, List.length_singleton]
    omega

/-- A permit keeps to the bound exactly when its address is on file, or there is room for one more. -/
theorem addressesWithin_remember_iff (hcapacity : 0 < watch.capacity) (h : AddressesWithin bound watch) :
    AddressesWithin bound (watch.remember host address now) ↔
      address ∈ watch.addressesOf host ∨ (watch.addressesOf host).length < bound := by
  constructor
  · intro hwithin
    have hnew := hwithin _ (mem_seen_remember watch hcapacity)
    dsimp only at hnew
    by_cases hmem : address ∈ watch.addressesOf host
    · exact .inl hmem
    · rw [if_neg hmem, List.length_append, List.length_singleton] at hnew
      exact .inr hnew
  · intro hroom entry hentry
    rcases List.mem_append.mp ((evict_sublist _ _).subset hentry) with hold | hnew
    · exact h entry (List.mem_filter.mp hold).1
    · rw [List.mem_singleton.mp hnew]
      dsimp only
      split
      · exact h.length_addressesOf
      · next hmem =>
        rw [List.length_append, List.length_singleton]
        exact hroom.resolve_left hmem

/-- **One step.** No host gets more addresses on file than the bound exactly when the step is no permit
of a new address for a host that has as many. -/
theorem addressesWithin_call_iff (hcapacity : 0 < watch.capacity) (h : AddressesWithin bound watch) :
    AddressesWithin bound (watch.call now decision).1 ↔ LeavesWithin bound watch now decision := by
  cases hpermit : permitOf (now, decision) with
  | none =>
      refine iff_of_true ?_ fun permit hsome => ?_
      · rw [call_of_permitOf_eq_none watch hpermit]
        split
        · exact h.forget
        · exact h
      · rw [hpermit] at hsome
        cases hsome
  | some permit =>
      have hforget : AddressesWithin bound (watch.forget now) := h.forget
      rw [call_of_permitOf_eq_some hpermit, addressesWithin_remember_iff (show 0 < (watch.forget now).capacity
        from hcapacity) hforget]
      refine ⟨fun hroom permit' hpermit' => ?_, fun hleaves => hleaves permit hpermit⟩
      obtain rfl : permit = permit' := Option.some.inj (hpermit.symm.trans hpermit')
      exact hroom

/-- Along a run there are never more hosts on file than the capacity. -/
theorem length_seen_after (hempty : watch.seen = []) (steps : List Step) :
    (watch.after steps).seen.length ≤ watch.capacity := by
  induction steps with
  | nil =>
      rw [after, hempty]
      exact Nat.zero_le _
  | cons step steps ih =>
      obtain ⟨now, decision⟩ := step
      rw [← (after_window watch steps).2] at ih ⊢
      exact length_seen_call ih

/-- Along a run no host has more addresses on file than the bound exactly when every step leaves it so. -/
theorem addressesWithin_after_iff (bound : ℕ) (hempty : watch.seen = []) (hcapacity : 0 < watch.capacity)
    (run : List Step) :
    (∀ earlier, earlier <:+ run → AddressesWithin bound (watch.after earlier)) ↔
      ∀ now decision earlier, (now, decision) :: earlier <:+ run →
        LeavesWithin bound (watch.after earlier) now decision := by
  have hcapacity' : ∀ steps, 0 < (watch.after steps).capacity := fun steps => by
    rw [(after_window watch steps).2]
    exact hcapacity
  constructor
  · intro h now decision earlier hsuffix
    have hbefore := h earlier ((List.suffix_cons _ _).trans hsuffix)
    exact (addressesWithin_call_iff (hcapacity' earlier) hbefore).mp (h _ hsuffix)
  · intro h earlier hsuffix
    -- from the oldest step on, each state being within the bound before the next step
    induction earlier with
    | nil =>
        intro entry hentry
        rw [after, hempty] at hentry
        cases hentry
    | cons step earlier ih =>
        obtain ⟨now, decision⟩ := step
        have hbefore := ih ((List.suffix_cons _ _).trans hsuffix)
        exact (addressesWithin_call_iff (hcapacity' earlier) hbefore).mpr (h now decision earlier hsuffix)

/-- **When what the watch holds is bounded.** No host ever has more addresses on file than a bound that
depends on the capacity alone, exactly when every step of the run leaves it so; and in every run whose
steps do, every state holds at most as many hosts as the capacity, and at most the capacity times the
bound and one hosts and addresses. Steps are listed from the newest to the oldest. -/
theorem size_after_le {window : ℚ} {shown : Str} {capacity : ℤ}
    (hinit : init window shown capacity = .ok watch) (bound : ℕ → ℕ) (run : List Step) :
    ((∀ earlier, earlier <:+ run → AddressesWithin (bound watch.capacity) (watch.after earlier)) ↔
      ∀ now decision earlier, (now, decision) :: earlier <:+ run →
        LeavesWithin (bound watch.capacity) (watch.after earlier) now decision) ∧
    ((∀ now decision earlier, (now, decision) :: earlier <:+ run →
        LeavesWithin (bound watch.capacity) (watch.after earlier) now decision) →
      ∀ earlier, earlier <:+ run → (watch.after earlier).seen.length ≤ watch.capacity ∧
        (watch.after earlier).size ≤ watch.capacity * (1 + bound watch.capacity)) := by
  obtain ⟨hwatch, -, hcapacity⟩ := init_eq_ok hinit
  have hempty : watch.seen = [] := by rw [hwatch]
  have hiff := addressesWithin_after_iff (bound watch.capacity) hempty
    (by rw [hwatch]; exact hcapacity) run
  refine ⟨hiff, fun hsteps earlier hsuffix => ?_⟩
  have hlength := length_seen_after hempty earlier
  refine ⟨hlength, (hiff.mpr hsteps earlier hsuffix).size_le.trans ?_⟩
  exact Nat.mul_le_mul_right _ hlength

/-- The host that is permitted again and again. -/
def manyHost : Str := text "many.test"

/-- A permit of one host at an address that differs from the others in its zone. -/
def permitAt (zone : ℕ) : Decision where
  stage := .address
  outcome := .permitted
  host := some manyHost
  address := some (.v6 0x20014860486000000000000000008888 (some (List.replicate zone (ord 'z'))))

/-- Permits of one host at as many addresses, all at one time. -/
def permitsAt : ℕ → List Step
  | 0 => []
  | n + 1 => (0, permitAt n) :: permitsAt n

/-- A watch that remembers one host for a minute. -/
def single : RebindingWatch where
  window := 60
  capacity := 1
  seen := []

/-- That watch with addresses on file for the host. -/
def holding (addresses : List Str) : RebindingWatch :=
  { single with seen := [(manyHost, { addresses := addresses, at_ := 0 })] }

theorem addressText_permitAt (zone : ℕ) :
    (permitAt zone).addressText = text "2001:4860:4860::8888%" ++ List.replicate zone (ord 'z') := by
  have hbody : ipv6Text 0x20014860486000000000000000008888 none = text "2001:4860:4860::8888" := by
    decide +kernel
  show ipv6Text 0x20014860486000000000000000008888 none ++ text "%" ++ List.replicate zone (ord 'z') = _
  rw [hbody]
  rfl

/-- The addresses differ. -/
theorem addressText_permitAt_inj {i j : ℕ} (h : (permitAt i).addressText = (permitAt j).addressText) :
    i = j := by
  rw [addressText_permitAt, addressText_permitAt] at h
  simpa using congrArg List.length h

/-- A sighting of the present is not stale. -/
theorem forget_holding (addresses : List Str) : (holding addresses).forget 0 = holding addresses := by
  have hfresh : ¬ single.window < 0 - 0 := by decide +kernel
  rw [forget]
  congr 1
  exact List.filter_cons_of_pos (by simpa [holding] using hfresh)

/-- A new address is added to those on file. -/
theorem remember_holding {addresses : List Str} {address : Str} (h : address ∉ addresses) :
    (holding addresses).remember manyHost address 0 = holding (addresses ++ [address]) := by
  have hknown : (holding addresses).addressesOf manyHost = addresses := by
    simp [addressesOf, holding]
  rw [remember, hknown, if_neg h]
  simp [holding, single, evict]

/-- Every one of the addresses is kept. -/
theorem after_permitsAt (n : ℕ) :
    single.after (permitsAt (n + 1)) =
      holding ((List.range (n + 1)).map fun i => (permitAt i).addressText) := by
  induction n with
  | zero => rfl
  | succ n ih =>
      have hnew : (permitAt (n + 1)).addressText ∉
          (List.range (n + 1)).map fun i => (permitAt i).addressText := by
        rw [List.mem_map]
        rintro ⟨i, hi, heq⟩
        have := addressText_permitAt_inj heq
        exact absurd (List.mem_range.mp hi) (by omega)
      have hpermit : permitOf (0, permitAt (n + 1)) =
          some ⟨0, manyHost, (permitAt (n + 1)).addressText⟩ := rfl
      rw [permitsAt, after, ih, call_of_permitOf_eq_some hpermit, forget_holding, remember_holding hnew,
        List.range_succ (n := n + 1), List.map_append, List.map_singleton]

/-- No bound on what a watch holds depends on its capacity alone: a watch that remembers one host holds
as many addresses of it as the host is permitted at, all at one time. -/
theorem size_unbounded :
    ¬ ∃ bound : ℕ → ℕ, ∀ (window : ℚ) (shown : Str) (capacity : ℤ) (watch : RebindingWatch),
      init window shown capacity = .ok watch → ∀ run : List Step,
        (run.Pairwise fun later earlier => earlier.1 ≤ later.1) →
        (watch.after run).size ≤ bound watch.capacity := by
  rintro ⟨bound, h⟩
  have hclock : (permitsAt (bound 1 + 1)).Pairwise fun later earlier => earlier.1 ≤ later.1 := by
    have htime : ∀ (n : ℕ), ∀ step ∈ permitsAt n, step.1 = 0 := by
      intro n
      induction n with
      | zero => exact List.forall_mem_nil _
      | succ n ih => exact List.forall_mem_cons.mpr ⟨rfl, ih⟩
    refine List.Pairwise.imp_of_mem (R := fun _ _ => True) (fun hlater hearlier _ => ?_)
      (List.pairwise_of_forall fun _ _ => True.intro)
    rw [htime _ _ hlater, htime _ _ hearlier]
  have hsize := h 60 (text "60.0") 1 single (by decide +kernel) _ hclock
  rw [after_permitsAt, size] at hsize
  simp only [holding, List.length_singleton, List.map_singleton, List.length_map, List.length_range,
    List.sum_singleton] at hsize
  exact absurd hsize (by show ¬ _ ≤ bound 1; omega)

/-- Permitted at two addresses, the host has two on file, and the watch holds three things. -/
theorem size_after_le_two :
    (single.after (permitsAt 2)).size ≤ 1 * (1 + 2) := by
  refine ((size_after_le (show init 60 (text "60.0") 1 = .ok single by decide +kernel) (fun _ => 2)
    (permitsAt 2)).2 ?_ _ List.suffix_rfl).2
  intro now decision earlier hsuffix permit hpermit
  rcases List.suffix_cons_iff.mp hsuffix with hlast | hsuffix
  · cases hlast
    cases hpermit
    exact .inr (by decide +kernel)
  · rcases List.suffix_cons_iff.mp hsuffix with hfirst | hnone
    · cases hfirst
      cases hpermit
      exact .inr (by decide +kernel)
    · exact absurd (List.suffix_nil.mp hnone) (List.cons_ne_nil _ _)

end RebindingWatch

end SsrfGuard
