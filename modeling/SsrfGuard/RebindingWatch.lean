import SsrfGuard.Library.Recency
import SsrfGuard.Observer
import Mathlib.Data.Rat.Defs
import Mathlib.Algebra.Order.Ring.Rat
import Mathlib.Tactic.Linarith

/-! # A name seen at other addresses

`RebindingWatch` remembers, for each host, the addresses it was permitted at, and adds them to a refusal
of the same host. A host is forgotten when its last permit is older than the window, or when too many
other hosts have been permitted since. The time is kept for the host and not for the address, so what
counts is the row of permits of the host that leads up to a refusal: an address permitted longer ago than
the window is reported exactly when that row has no pause in it. -/

namespace SsrfGuard

/-- `str(decision.address)`. -/
def Decision.addressText (decision : Decision) : Str :=
  match decision.address with
  | some address => address.str
  | none => text "None"

/-- `_Sighting`: what one host was last seen to resolve to, and when. -/
structure Sighting where
  /-- The permitted addresses observed for it, in the order first seen. -/
  addresses : List Str
  /-- The time of the most recent one. -/
  at_ : ℚ
  deriving DecidableEq

/-- A `RebindingWatch`: its bounds, and the hosts it remembers, the one permitted longest ago first. -/
structure RebindingWatch where
  /-- How long a sighting stays comparable, in seconds. -/
  window : ℚ
  /-- How many hosts to remember. -/
  capacity : ℕ
  /-- The sightings, by host. -/
  seen : List (Str × Sighting)
  deriving DecidableEq

namespace RebindingWatch

/-- `RebindingWatch.__init__`, given the window with its `str`. An exact rational stands for every float, here and
for the clock: nothing is rounded, and a window is neither NaN nor infinite. -/
def init (window : ℚ) (shown : Str) (capacity : ℤ) : Except Exc RebindingWatch :=
  if window ≤ 0 then .error (.valueError (text "window=" ++ shown ++ text " must be positive"))
  else if capacity < 1 then
    .error (.valueError (text "capacity=" ++ intText capacity ++ text " must be at least 1"))
  else .ok { window := window, capacity := capacity.toNat, seen := [] }

/-- `_forget`: drop sightings older than the window. -/
def forget (watch : RebindingWatch) (now : ℚ) : RebindingWatch :=
  { watch with seen := watch.seen.filter fun entry => ¬ watch.window < now - entry.2.at_ }

/-- The addresses on file for a host. -/
def addressesOf (watch : RebindingWatch) (host : Str) : List Str :=
  match watch.seen.find? fun entry => entry.1 = host with
  | none => []
  | some (_, sighting) => sighting.addresses

/-- The loop of `_remember`: the oldest sightings go until there are no more than the capacity. -/
def evict (capacity : ℕ) : List (Str × Sighting) → List (Str × Sighting)
  | [] => []
  | oldest :: newer => if capacity < (oldest :: newer).length then evict capacity newer else oldest :: newer

/-- `_remember`: add one permitted address to a host's sighting. -/
def remember (watch : RebindingWatch) (host address : Str) (now : ℚ) : RebindingWatch :=
  let addresses := watch.addressesOf host
  let addresses := if address ∈ addresses then addresses else addresses ++ [address]
  -- the sighting moves to the end, and its time to now, whichever address was seen
  let seen := watch.seen.filter (fun entry => entry.1 ≠ host) ++ [(host, { addresses := addresses, at_ := now })]
  { watch with seen := evict watch.capacity seen }

/-- What a refusal of the host is enriched with: the addresses on file other than the refused one. -/
def others (watch : RebindingWatch) (host address : Str) : List Str :=
  (watch.addressesOf host).filter fun other => other ≠ address

/-- `_compare`: record a permitted address, or enrich a refusal. -/
def compare (watch : RebindingWatch) (now : ℚ) (host : Str) (decision : Decision) :
    RebindingWatch × Decision :=
  let watch := watch.forget now
  match decision.outcome with
  | .permitted => (watch.remember host decision.addressText now, decision)
  | .refused =>
    let others := watch.others host decision.addressText
    (watch, if others = [] then decision else { decision with alsoSeen := others })

/-- `RebindingWatch.__call__`, up to the call of the wrapped observer: the watch from then on, and the
decision the observer is given. -/
def call (watch : RebindingWatch) (now : ℚ) (decision : Decision) : RebindingWatch × Decision :=
  match decision.stage, decision.host with
  | .address, some host => watch.compare now host decision
  | _, _ => (watch, decision)

/-- The addresses the watch adds to a decision. -/
def reports (watch : RebindingWatch) (now : ℚ) (decision : Decision) : List Str :=
  match decision.stage, decision.host, decision.outcome with
  | .address, some host, .refused => (watch.forget now).others host decision.addressText
  | _, _, _ => []

/-- A decision is handed on as it came, or with what the watch reports. -/
theorem call_snd (watch : RebindingWatch) (now : ℚ) (decision : Decision) :
    (watch.call now decision).2 =
      if watch.reports now decision = [] then decision
      else { decision with alsoSeen := watch.reports now decision } := by
  unfold call reports
  split
  · next host hstage hhost =>
    unfold compare
    cases houtcome : decision.outcome with
    | permitted => simp [hstage, hhost]
    | refused => simp [hstage, hhost]
  · next hother =>
    split
    · next hstage hhost _ => exact absurd hhost (hother _ hstage)
    · simp

/-! ## The row of permits behind a report -/

/-- A decision that was made, and when. -/
abbrev Step : Type := ℚ × Decision

/-- The permit of an address for a host, if that is what was decided. -/
def permitOf : Step → Option (Use Str Str ℚ)
  | (now, decision) =>
    match decision.stage, decision.outcome, decision.host with
    | .address, .permitted, some host => some { time := now, key := host, value := decision.addressText }
    | _, _, _ => none

/-- The permits among some steps, in the same order. -/
abbrev permits (steps : List Step) : List (Use Str Str ℚ) := steps.filterMap permitOf

/-- The watch after some steps, the newest first. -/
def after (watch : RebindingWatch) : List Step → RebindingWatch
  | [] => watch
  | (now, decision) :: earlier => ((watch.after earlier).call now decision).1

/-- A permit that is not older than the window. -/
def Fresh (window time now : ℚ) : Prop := now - time ≤ window

variable {watch : RebindingWatch} {now time : ℚ} {host address : Str}

theorem evict_eq_drop (capacity : ℕ) (seen : List (Str × Sighting)) :
    evict capacity seen = seen.drop (seen.length - capacity) := by
  induction seen with
  | nil => rw [List.drop_nil, evict]
  | cons oldest newer ih =>
      rw [evict]
      split
      · next h =>
        rw [ih, List.length_cons] at *
        rw [show newer.length + 1 - capacity = newer.length - capacity + 1 by omega, List.drop_succ_cons]
      · next h =>
        rw [Nat.sub_eq_zero_of_le (not_lt.mp h), List.drop_zero]

/-- What is held of a host: the time and the row of its last permit, and the hosts permitted since, which
are the ones with newer sightings. -/
structure Entry (window : ℚ) (capacity : ℕ) (permits : List (Use Str Str ℚ)) (host : Str)
    (sighting : Sighting) (newer : List (Str × Sighting)) : Prop where
  /-- The permits split at the last one of the host. -/
  split : ∃ later address earlier, permits = later ++ ⟨sighting.at_, host, address⟩ :: earlier ∧
    (∀ use ∈ later, use.key ≠ host) ∧
    (∀ other, other ∈ later.map Use.key ↔ other ∈ newer.map Prod.fst) ∧
    ∀ other, other ∈ sighting.addresses ↔
      other = address ∨ Recency.Unbroken (Fresh window) capacity host other sighting.at_ earlier

/-- Every sighting is such an entry. -/
def Entries (window : ℚ) (capacity : ℕ) (permits : List (Use Str Str ℚ)) : List (Str × Sighting) → Prop
  | [] => True
  | (host, sighting) :: newer =>
    Entry window capacity permits host sighting newer ∧ Entries window capacity permits newer

/-- What the watch knows at a time, of the permits so far. -/
structure Tracks (watch : RebindingWatch) (now : ℚ) (permits : List (Use Str Str ℚ)) : Prop where
  /-- There are no more sightings than it may remember. -/
  bounded : watch.seen.length ≤ watch.capacity
  /-- There is one for a host. -/
  nodup : (watch.seen.map Prod.fst).Nodup
  /-- They are in the order of their times. -/
  sorted : watch.seen.Pairwise fun older newer => older.2.at_ ≤ newer.2.at_
  /-- None is in the future. -/
  past : ∀ entry ∈ watch.seen, entry.2.at_ ≤ now
  /-- Each holds what the permits say of its host. -/
  entries : Entries watch.window watch.capacity permits watch.seen
  /-- Of any other host nothing can be reported from here on. -/
  absent : ∀ host, host ∉ watch.seen.map Prod.fst → ∀ later, now ≤ later → ∀ address,
    ¬ Recency.Unbroken (Fresh watch.window) watch.capacity host address later permits

section Tracks

variable {watch : RebindingWatch} {window : ℚ} {capacity : ℕ} {permits : List (Use Str Str ℚ)}
  {now later : ℚ} {host address : Str} {sighting : Sighting} {seen older newer : List (Str × Sighting)}

theorem Entries.split (h : Entries window capacity permits (older ++ newer)) :
    Entries window capacity permits newer := by
  induction older with
  | nil => exact h
  | cons entry older ih => exact ih h.2

/-- The last permit of a host with a sighting is the one the sighting was made of. -/
theorem Entry.unbroken_iff (h : Entry window capacity permits host sighting newer)
    (hnodup : (newer.map Prod.fst).Nodup) :
    Recency.Unbroken (Fresh window) capacity host address now permits ↔
      now - sighting.at_ ≤ window ∧ newer.length < capacity ∧ address ∈ sighting.addresses := by
  obtain ⟨later, last, earlier, rfl, hothers, hkeys, haddresses⟩ := h.split
  have hlength : (later.map Use.key).dedup.length = newer.length := by
    have hperm : (later.map Use.key).dedup.Perm (newer.map Prod.fst) :=
      (List.perm_ext_iff_of_nodup (List.nodup_dedup _) hnodup).mpr fun key =>
        List.mem_dedup.trans (hkeys key)
    rw [hperm.length_eq, List.length_map]
  rw [Recency.unbroken_iff hothers, haddresses]
  constructor
  · rintro ⟨hpause, hknown⟩
    exact ⟨hpause.fresh, hlength ▸ hpause.few, hknown⟩
  · rintro ⟨hfresh, hfew, hknown⟩
    exact ⟨⟨hothers, hfresh, hlength.symm ▸ hfew⟩, hknown⟩

/-- A sighting on file, with the newer ones. -/
theorem Entries.exists_entry (h : Entries window capacity permits seen)
    (hnodup : (seen.map Prod.fst).Nodup) (hmem : (host, sighting) ∈ seen) :
    ∃ newer, Entry window capacity permits host sighting newer ∧ (newer.map Prod.fst).Nodup ∧
      newer.length < seen.length := by
  obtain ⟨older, newer, rfl⟩ := List.append_of_mem hmem
  rw [List.map_append, List.map_cons] at hnodup
  refine ⟨newer, h.split.1, (List.nodup_append.mp hnodup).2.1.of_cons, ?_⟩
  rw [List.length_append, List.length_cons]
  omega

/-- The addresses on file for a host, when nothing on file is stale. -/
theorem Tracks.mem_addressesOf (h : Tracks watch now permits)
    (hfresh : ∀ entry ∈ watch.seen, now - entry.2.at_ ≤ watch.window) :
    address ∈ watch.addressesOf host ↔
      Recency.Unbroken (Fresh watch.window) watch.capacity host address now permits := by
  unfold addressesOf
  cases hfind : watch.seen.find? fun entry => entry.1 = host with
  | none =>
      have habsent : host ∉ watch.seen.map Prod.fst := by
        intro hmem
        obtain ⟨entry, hentry, rfl⟩ := List.mem_map.mp hmem
        have := List.find?_eq_none.mp hfind entry hentry
        simp at this
      exact iff_of_false List.not_mem_nil (h.absent host habsent now le_rfl address)
  | some found =>
      obtain ⟨found, sighting⟩ := found
      obtain rfl : found = host := by simpa using List.find?_some hfind
      have hmem := List.mem_of_find?_eq_some hfind
      obtain ⟨newer, hentry, hnewer, hlength⟩ := h.entries.exists_entry h.nodup hmem
      rw [hentry.unbroken_iff hnewer]
      exact ⟨fun ha => ⟨hfresh _ hmem, hlength.trans_le h.bounded, ha⟩, fun ha => ha.2.2⟩

/-- Forgetting drops the oldest sightings, and none that could still be reported. -/
theorem Tracks.forget (h : Tracks watch now permits) (hle : now ≤ later) :
    Tracks (watch.forget later) later permits ∧
      ∀ entry ∈ (watch.forget later).seen, later - entry.2.at_ ≤ watch.window := by
  have hfresh : ∀ entry ∈ (watch.forget later).seen, later - entry.2.at_ ≤ watch.window := by
    intro entry hentry
    simpa using (List.mem_filter.mp hentry).2
  obtain ⟨stale, hsplit, hstale⟩ := Recency.exists_append_filter
    (p := fun entry : Str × Sighting => decide (¬ watch.window < later - entry.2.at_))
    (h.sorted.imp fun {older newer} hat hkept => by
      simp only [not_lt, decide_eq_true_eq] at hkept ⊢
      linarith)
  have hsublist : (watch.forget later).seen.Sublist watch.seen := List.filter_sublist
  refine ⟨⟨hsublist.length_le.trans h.bounded, h.nodup.sublist (hsublist.map _),
    h.sorted.sublist hsublist, fun entry hentry => (h.past entry (hsublist.subset hentry)).trans hle,
    ?_, ?_⟩, hfresh⟩
  · have hentries := h.entries
    rw [hsplit] at hentries
    exact hentries.split
  · intro host habsent later' hlater' address
    by_cases hmem : host ∈ watch.seen.map Prod.fst
    · obtain ⟨⟨_, sighting⟩, hentry, rfl⟩ := List.mem_map.mp hmem
      obtain ⟨newer, hheld, hnewer, -⟩ := h.entries.exists_entry h.nodup hentry
      have hgone : watch.window < later - sighting.at_ := by
        rw [hsplit] at hentry
        rcases List.mem_append.mp hentry with hold | hkept
        · exact not_not.mp (of_decide_eq_false (hstale _ hold))
        · exact absurd (List.mem_map_of_mem hkept) habsent
      rw [show (watch.forget later).capacity = watch.capacity from rfl,
        show (watch.forget later).window = watch.window from rfl, hheld.unbroken_iff hnewer]
      rintro ⟨hwindow, -⟩
      linarith
    · exact h.absent host hmem later' (hle.trans hlater') address

/-- A permit moves its host to the end and leaves the other sightings as they were. -/
theorem Entries.push (h : Entries window capacity permits seen)
    (hnew : Entry window capacity (⟨now, host, address⟩ :: permits) host sighting []) :
    Entries window capacity (⟨now, host, address⟩ :: permits)
      (seen.filter (fun entry => entry.1 ≠ host) ++ [(host, sighting)]) := by
  induction seen with
  | nil => exact ⟨hnew, True.intro⟩
  | cons entry seen ih =>
      obtain ⟨other, kept⟩ := entry
      obtain ⟨hentry, hrest⟩ := h
      by_cases hother : other = host
      · rw [List.filter_cons_of_neg (by simpa using hother)]
        exact ih hrest
      · rw [List.filter_cons_of_pos (by simpa using hother), List.cons_append]
        refine ⟨?_, ih hrest⟩
        obtain ⟨later, last, earlier, rfl, hothers, hkeys, haddresses⟩ := hentry.split
        refine ⟨⟨now, host, address⟩ :: later, last, earlier, rfl, ?_, ?_, haddresses⟩
        · exact List.forall_mem_cons.mpr ⟨fun heq => hother heq.symm, hothers⟩
        -- the hosts permitted since are the ones before, and this one
        · intro key
          have hkept : key ∈ (seen.filter fun entry => entry.1 ≠ host).map Prod.fst ↔
              key ∈ seen.map Prod.fst ∧ key ≠ host := by
            simp only [List.mem_map, List.mem_filter, decide_eq_true_eq]
            constructor
            · rintro ⟨entry, ⟨hentry, hne⟩, rfl⟩
              exact ⟨⟨entry, hentry, rfl⟩, hne⟩
            · rintro ⟨⟨entry, hentry, rfl⟩, hne⟩
              exact ⟨entry, ⟨hentry, hne⟩, rfl⟩
          rw [List.map_cons, List.mem_cons, hkeys, List.map_append, List.mem_append, hkept,
            List.map_singleton, List.mem_singleton]
          by_cases hkey : key = host
          · exact iff_of_true (.inl hkey) (.inr hkey)
          · simp [hkey]

/-- A permit of the host, when nothing on file is stale: the addresses it had, and this one. -/
theorem Tracks.entry_remember (h : Tracks watch now permits)
    (hfresh : ∀ entry ∈ watch.seen, now - entry.2.at_ ≤ watch.window) :
    Entry watch.window watch.capacity (⟨now, host, address⟩ :: permits) host
      { addresses :=
          if address ∈ watch.addressesOf host then watch.addressesOf host
          else watch.addressesOf host ++ [address]
        at_ := now } [] := by
  refine ⟨[], address, permits, rfl, List.forall_mem_nil _, fun _ => Iff.rfl, fun other => ?_⟩
  rw [← h.mem_addressesOf hfresh]
  dsimp only
  split
  · next hold =>
    constructor
    · exact .inr
    · rintro (rfl | hother)
      · exact hold
      · exact hother
  · rw [List.mem_append, List.mem_singleton, or_comm]

/-- The sighting that goes, when there is one too many, could not be reported any more. -/
theorem tracks_evict (watch : RebindingWatch) (hlength : seen.length ≤ watch.capacity + 1)
    (hnodup : (seen.map Prod.fst).Nodup)
    (hsorted : seen.Pairwise fun older newer => older.2.at_ ≤ newer.2.at_)
    (hpast : ∀ entry ∈ seen, entry.2.at_ ≤ now)
    (hentries : Entries watch.window watch.capacity permits seen)
    (habsent : ∀ host, host ∉ seen.map Prod.fst → ∀ later, now ≤ later → ∀ address,
      ¬ Recency.Unbroken (Fresh watch.window) watch.capacity host address later permits) :
    Tracks { watch with seen := evict watch.capacity seen } now permits := by
  rw [evict_eq_drop]
  by_cases hfits : seen.length ≤ watch.capacity
  · rw [Nat.sub_eq_zero_of_le hfits, List.drop_zero]
    exact ⟨hfits, hnodup, hsorted, hpast, hentries, habsent⟩
  · cases seen with
    | nil => exact absurd (Nat.zero_le _) hfits
    | cons oldest newer =>
        rw [List.length_cons] at hlength hfits
        have hfull : newer.length = watch.capacity := by omega
        rw [List.length_cons, hfull, Nat.add_sub_cancel_left, List.drop_succ_cons, List.drop_zero]
        rw [List.map_cons] at hnodup habsent
        refine ⟨hfull.le, hnodup.of_cons, hsorted.of_cons, ?_, hentries.2, ?_⟩
        · exact fun entry hentry => hpast entry (List.mem_cons_of_mem _ hentry)
        · intro host hhost later hlater address
          by_cases heq : host = oldest.1
          · subst heq
            rw [hentries.1.unbroken_iff hnodup.of_cons]
            rintro ⟨-, hfew, -⟩
            exact absurd hfull hfew.ne
          · refine habsent host ?_ later hlater address
            rw [List.mem_cons, not_or]
            exact ⟨heq, hhost⟩

/-- After a permit the watch holds what the permits say, this one included. -/
theorem Tracks.remember (h : Tracks watch now permits)
    (hfresh : ∀ entry ∈ watch.seen, now - entry.2.at_ ≤ watch.window) :
    Tracks (watch.remember host address now) now (⟨now, host, address⟩ :: permits) := by
  have hsub : (watch.seen.filter fun entry => entry.1 ≠ host).Sublist watch.seen := List.filter_sublist
  have hkept : host ∉ (watch.seen.filter fun entry => entry.1 ≠ host).map Prod.fst := by
    intro hmem
    obtain ⟨entry, hentry, heq⟩ := List.mem_map.mp hmem
    exact of_decide_eq_true (List.mem_filter.mp hentry).2 heq
  refine tracks_evict watch ?_ ?_ ?_ ?_ (h.entries.push (h.entry_remember hfresh)) ?_
  · rw [List.length_append, List.length_singleton]
    exact Nat.add_le_add_right (hsub.length_le.trans h.bounded) 1
  · rw [List.map_append, List.map_singleton]
    refine List.nodup_append.mpr ⟨h.nodup.sublist (hsub.map _), List.nodup_singleton _, ?_⟩
    intro key hkey new hnew heq
    rw [List.mem_singleton] at hnew
    rw [heq, hnew] at hkey
    exact hkept hkey
  · refine List.pairwise_append.mpr ⟨h.sorted.sublist hsub, List.pairwise_singleton _ _, ?_⟩
    intro entry hentry _ hnew
    rw [List.mem_singleton.mp hnew]
    exact h.past entry (hsub.subset hentry)
  · intro entry hentry
    rcases List.mem_append.mp hentry with hold | hnew
    · exact h.past entry (hsub.subset hold)
    · rw [List.mem_singleton.mp hnew]
  · intro other hother later hlater address' hknown
    rw [List.map_append, List.mem_append, List.map_singleton, List.mem_singleton, not_or] at hother
    refine h.absent other ?_ later hlater address' (hknown.of_cons fun heq => hother.2 heq.symm)
    intro hmem
    obtain ⟨entry, hentry, rfl⟩ := List.mem_map.mp hmem
    exact hother.1 (List.mem_map_of_mem (List.mem_filter.mpr ⟨hentry, by simpa using hother.2⟩))

end Tracks

/-! ## Runs -/

theorem call_window (watch : RebindingWatch) (now : ℚ) (decision : Decision) :
    (watch.call now decision).1.window = watch.window ∧
      (watch.call now decision).1.capacity = watch.capacity := by
  unfold call
  split
  · unfold compare
    split <;> exact ⟨rfl, rfl⟩
  · exact ⟨rfl, rfl⟩

theorem Tracks.later {watch : RebindingWatch} {now later : ℚ} {permits : List (Use Str Str ℚ)}
    (h : Tracks watch now permits) (hle : now ≤ later) : Tracks watch later permits :=
  ⟨h.bounded, h.nodup, h.sorted, fun entry hentry => (h.past entry hentry).trans hle, h.entries,
    fun host hhost later' hlater' => h.absent host hhost later' (hle.trans hlater')⟩

/-- One step keeps what the watch knows. -/
theorem Tracks.call {watch : RebindingWatch} {now later : ℚ} {steps : List Step}
    (h : Tracks watch now (permits steps)) (hle : now ≤ later) (decision : Decision) :
    Tracks (watch.call later decision).1 later (permits ((later, decision) :: steps)) := by
  obtain ⟨hforget, hfresh⟩ := h.forget hle
  unfold RebindingWatch.call
  split
  · next host hstage hhost =>
    unfold compare
    cases houtcome : decision.outcome with
    | permitted =>
        have hpermit : permits ((later, decision) :: steps) =
            ⟨later, host, decision.addressText⟩ :: permits steps := by
          simp [permits, permitOf, hstage, houtcome, hhost]
        rw [hpermit]
        exact hforget.remember hfresh
    | refused =>
        have hnone : permits ((later, decision) :: steps) = permits steps := by
          simp [permits, permitOf, hstage, houtcome]
        rw [hnone]
        exact hforget
  · next hother =>
    have hnone : permits ((later, decision) :: steps) = permits steps := by
      refine List.filterMap_cons_none ?_
      dsimp only [permitOf]
      split
      · next host hstage _ hhost => exact (hother host hstage hhost).elim
      · rfl
    rw [hnone]
    exact h.later hle

/-- A run keeps what the watch knows. -/
theorem tracks_after {watch : RebindingWatch} (hempty : watch.seen = []) {steps : List Step}
    (hclock : steps.Pairwise fun later earlier => earlier.1 ≤ later.1) {now : ℚ}
    (hpast : ∀ step ∈ steps, step.1 ≤ now) : Tracks (watch.after steps) now (permits steps) := by
  induction steps generalizing now with
  | nil =>
      rw [after]
      refine ⟨?_, ?_, ?_, ?_, ?_, ?_⟩
      · rw [hempty]
        exact Nat.zero_le _
      · rw [hempty]
        exact List.nodup_nil
      · rw [hempty]
        exact List.Pairwise.nil
      · rw [hempty]
        exact List.forall_mem_nil _
      · rw [hempty]
        exact True.intro
      · intro host _ later _ address hknown
        obtain ⟨time, hmem⟩ := hknown.exists_use
        exact List.not_mem_nil hmem
  | cons step steps ih =>
      obtain ⟨time, decision⟩ := step
      obtain ⟨hlast, hrest⟩ := List.pairwise_cons.mp hclock
      exact ((ih hrest hlast).call le_rfl decision).later (hpast _ List.mem_cons_self)

theorem after_window (watch : RebindingWatch) (steps : List Step) :
    (watch.after steps).window = watch.window ∧ (watch.after steps).capacity = watch.capacity := by
  induction steps with
  | nil => exact ⟨rfl, rfl⟩
  | cons step steps ih =>
      rw [after, (call_window _ _ _).1, (call_window _ _ _).2]
      exact ih

/-- An address is refused for the host. -/
def Refuses (decision : Decision) (host : Str) : Prop :=
  decision.stage = .address ∧ decision.outcome = .refused ∧ decision.host = some host

/-- What a refusal is enriched with: the other addresses of the host with an unbroken row of permits. -/
theorem Tracks.mem_reports {watch : RebindingWatch} {now later : ℚ} {permits : List (Use Str Str ℚ)}
    (h : Tracks watch now permits) (hle : now ≤ later) (decision : Decision) (address : Str) :
    address ∈ watch.reports later decision ↔
      ∃ host, Refuses decision host ∧ address ≠ decision.addressText ∧
        Recency.Unbroken (Fresh watch.window) watch.capacity host address later permits := by
  obtain ⟨hforget, hfresh⟩ := h.forget hle
  unfold reports
  split
  · next host hstage hhost houtcome =>
    rw [others, List.mem_filter, hforget.mem_addressesOf hfresh, decide_eq_true_eq]
    constructor
    · rintro ⟨hknown, hother⟩
      exact ⟨host, ⟨hstage, houtcome, hhost⟩, hother, hknown⟩
    · rintro ⟨host', ⟨-, -, hhost'⟩, hother, hknown⟩
      obtain rfl := Option.some.inj (hhost.symm.trans hhost')
      exact ⟨hknown, hother⟩
  · next hnone =>
    refine iff_of_false List.not_mem_nil ?_
    rintro ⟨host, ⟨hstage, houtcome, hhost⟩, -⟩
    exact hnone host hstage hhost houtcome

/-- **The watch reports only recent permits exactly when no row of permits without a pause reaches back
further than the window.** Steps are listed from the newest to the oldest. The first part says what the
wrapped observer is handed. -/
theorem reports_recent_iff {watch : RebindingWatch} {window : ℚ} {shown : Str} {capacity : ℤ}
    (hinit : init window shown capacity = .ok watch) (run : List Step)
    (hclock : run.Pairwise fun later earlier => earlier.1 ≤ later.1) :
    (∀ (later : List Step) (now : ℚ) (decision : Decision) (earlier : List Step),
      run = later ++ (now, decision) :: earlier →
      ((watch.after earlier).call now decision).2 =
        if (watch.after earlier).reports now decision = [] then decision
        else { decision with alsoSeen := (watch.after earlier).reports now decision }) ∧
    ((∀ (later : List Step) (now : ℚ) (decision : Decision) (earlier : List Step),
      run = later ++ (now, decision) :: earlier →
      ∀ address ∈ (watch.after earlier).reports now decision, ∃ host time, decision.host = some host ∧
        ⟨time, host, address⟩ ∈ permits earlier ∧ now - time ≤ window) ↔
    ∀ (later : List Step) (now : ℚ) (decision : Decision) (earlier : List Step) (host address : Str),
      run = later ++ (now, decision) :: earlier →
      Refuses decision host → address ≠ decision.addressText →
      Recency.Unbroken (Fresh window) capacity.toNat host address now (permits earlier) →
      ∃ time, ⟨time, host, address⟩ ∈ permits earlier ∧ now - time ≤ window) := by
  have hwatch : watch = { window := window, capacity := capacity.toNat, seen := [] } := by
    unfold init at hinit
    split at hinit
    · cases hinit
    · split at hinit
      · cases hinit
      · exact (Except.ok.inj hinit).symm
  -- what is reported at a step of the run, from the permits before it
  have hreports : ∀ (later : List Step) (now : ℚ) (decision : Decision) (earlier : List Step),
      run = later ++ (now, decision) :: earlier → ∀ address,
      address ∈ (watch.after earlier).reports now decision ↔
        ∃ host, Refuses decision host ∧ address ≠ decision.addressText ∧
          Recency.Unbroken (Fresh window) capacity.toNat host address now (permits earlier) := by
    intro later now decision earlier hrun address
    rw [hrun] at hclock
    obtain ⟨hpast, hearlier⟩ := List.pairwise_cons.mp (List.pairwise_append.mp hclock).2.1
    have htracks : Tracks (watch.after earlier) now (permits earlier) :=
      tracks_after (by rw [hwatch]) hearlier hpast
    rw [htracks.mem_reports le_rfl, (after_window watch earlier).1, (after_window watch earlier).2, hwatch]
  refine ⟨fun later now decision earlier _ => call_snd _ _ _, ?_, ?_⟩
  · intro h later now decision earlier host address hrun hrefuses hother hknown
    obtain ⟨host', time, hhost, hpermit⟩ := h later now decision earlier hrun address
      ((hreports later now decision earlier hrun address).mpr ⟨host, hrefuses, hother, hknown⟩)
    obtain rfl := Option.some.inj (hrefuses.2.2.symm.trans hhost)
    exact ⟨time, hpermit⟩
  · intro h later now decision earlier hrun address haddress
    obtain ⟨host, hrefuses, hother, hknown⟩ :=
      (hreports later now decision earlier hrun address).mp haddress
    obtain ⟨time, hpermit⟩ := h later now decision earlier host address hrun hrefuses hother hknown
    exact ⟨host, time, hrefuses.2.2, hpermit⟩

/-- A decision about an address of one host. -/
def about (outcome : Outcome) (address : BitVec 32) : Decision where
  stage := .address
  outcome := outcome
  host := some (text "rebind.test")
  address := some (.v4 address)

/-- A watch that remembers for a minute. -/
def minute : RebindingWatch where
  window := 60
  capacity := 512
  seen := []

/-- A refusal 50 seconds after the only permit reports it. -/
theorem reports_recent_once :
    ((minute.after [(0, about .permitted 0x5DB8D822)]).reports 50 (about .refused 0xA9FEA9FE)) =
      [text "93.184.216.34"] ∧
    ∀ address ∈ (minute.after [(0, about .permitted 0x5DB8D822)]).reports 50 (about .refused 0xA9FEA9FE),
      ∃ host time, (about .refused 0xA9FEA9FE).host = some host ∧
        ⟨time, host, address⟩ ∈ permits [(0, about .permitted 0x5DB8D822)] ∧ 50 - time ≤ 60 := by
  refine ⟨by decide +kernel, ?_⟩
  have hclock : [((50 : ℚ), about .refused 0xA9FEA9FE), (0, about .permitted 0x5DB8D822)].Pairwise
      fun later earlier => earlier.1 ≤ later.1 := by
    decide +kernel
  refine (reports_recent_iff (show init 60 (text "60.0") 512 = .ok minute by decide +kernel) _
    hclock).2.mpr ?_ [] 50 (about .refused 0xA9FEA9FE) [(0, about .permitted 0x5DB8D822)] rfl
  intro later now decision earlier host address hrun hrefuses _ hknown
  obtain ⟨time, hmem⟩ := hknown.exists_use
  refine ⟨time, hmem, ?_⟩
  -- the refusal is the newest step, and before it there is the one permit
  rcases later with _ | ⟨step, _ | ⟨step', later⟩⟩
  · cases hrun
    cases List.mem_singleton.mp hmem
    decide +kernel
  · cases hrun
    cases hrefuses.2.1
  · simp at hrun

/-- Permitted at one address and then at another, and refused 100 seconds after the first permit: the
first address is reported, though the window is 60 seconds. -/
theorem reports_refreshed :
    let earlier : List Step := [(50, about .permitted 0x08080808), (0, about .permitted 0x5DB8D822)]
    ((minute.after earlier).call 100 (about .refused 0xA9FEA9FE)).2.alsoSeen =
      [text "93.184.216.34", text "8.8.8.8"] ∧
    (minute.after earlier).reports 100 (about .refused 0xA9FEA9FE) =
      [text "93.184.216.34", text "8.8.8.8"] ∧
    ¬ ∀ address ∈ (minute.after earlier).reports 100 (about .refused 0xA9FEA9FE),
      ∃ host time, (about .refused 0xA9FEA9FE).host = some host ∧
        ⟨time, host, address⟩ ∈ permits earlier ∧ 100 - time ≤ minute.window := by
  intro earlier
  have hreports : (minute.after earlier).reports 100 (about .refused 0xA9FEA9FE) =
      [text "93.184.216.34", text "8.8.8.8"] := by
    decide +kernel
  refine ⟨by decide +kernel, hreports, ?_⟩
  rw [hreports]
  intro h
  obtain ⟨host, time, -, hmem, hwindow⟩ := h (text "93.184.216.34") List.mem_cons_self
  have hpermits : permits earlier =
      [⟨50, text "rebind.test", text "8.8.8.8"⟩, ⟨0, text "rebind.test", text "93.184.216.34"⟩] := by
    decide +kernel
  rw [hpermits, List.mem_cons, List.mem_singleton] at hmem
  rcases hmem with hsecond | hfirst
  · exact absurd (Use.mk.inj hsecond).2.2 (by decide)
  · rw [(Use.mk.inj hfirst).1] at hwindow
    exact absurd hwindow (by decide +kernel)

end RebindingWatch

end SsrfGuard
