import SsrfGuard.RebindingWatch
import Mathlib.Data.List.Forall2

/-! # Two spellings of a host

A host may be written with a final dot, and names the same host then. The watch keeps its sightings by
the host as it was written, so a run in which some decisions name a host with the dot is to it a run about
two hosts. Such a run is enriched as the run with one spelling exactly as long as every decision still
finds, among the sightings on file, the one it would have found. -/

namespace SsrfGuard

/-- The absolute spelling of a host name. -/
def absoluteName (host : Str) : Str := host ++ [ord '.']

namespace RebindingWatch

/-- What the watch adds to the decisions of a run, the newest first. -/
def reported (watch : RebindingWatch) : List Step → List (List Str)
  | [] => []
  | (now, decision) :: earlier => (watch.after earlier).reports now decision :: watch.reported earlier

/-- What the wrapped observer is handed over a run, the newest first. -/
def handed (watch : RebindingWatch) : List Step → List Decision
  | [] => []
  | (now, decision) :: earlier => ((watch.after earlier).call now decision).2 :: watch.handed earlier

/-- In some decisions about the host it is spelled absolutely, and nothing else differs. -/
def Respells (host : Str) : List Step → List Step → Prop :=
  List.Forall₂ fun step step' => step' = step ∨
    step.2.host = some host ∧ step' = (step.1, { step.2 with host := some (absoluteName host) })

/-- Of the sightings on file in one watch and in the other, entry by entry, the one is of the first host
exactly when the other is of the second. -/
def FindsAlike (watch watch' : RebindingWatch) (host host' : Str) : Prop :=
  List.Forall₂ (fun entry entry' => entry.1 = host ↔ entry'.1 = host') watch.seen watch'.seen

/-- Every decision about an address finds the same sighting in both runs, or none in both. -/
def FindAlike (watch : RebindingWatch) : List Step → List Step → Prop
  | (now, decision) :: earlier, (_, decision') :: earlier' =>
    (decision.stage = .address → ∀ host host', decision.host = some host → decision'.host = some host' →
      FindsAlike ((watch.after earlier).forget now) ((watch.after earlier').forget now) host host') ∧
    watch.FindAlike earlier earlier'
  | _, _ => True

/-! ## One step -/

/-- The same sightings in the same order, kept by hosts that are related. -/
structure SameSightings (related : Str → Str → Prop) (watch watch' : RebindingWatch) : Prop where
  /-- The window is the same. -/
  window : watch'.window = watch.window
  /-- So is the capacity. -/
  capacity : watch'.capacity = watch.capacity
  /-- Entry by entry, the hosts are related and the sightings the same. -/
  seen : List.Forall₂ (fun entry entry' => related entry.1 entry'.1 ∧ entry.2 = entry'.2)
    watch.seen watch'.seen

variable {related : Str → Str → Prop} {watch watch' : RebindingWatch} {host host' : Str}

/-- What is stale in one is stale in the other. -/
theorem SameSightings.forget (h : SameSightings related watch watch') (now : ℚ) :
    SameSightings related (watch.forget now) (watch'.forget now) := by
  refine ⟨h.window, h.capacity, List.rel_filter ?_ h.seen⟩
  intro entry entry' hentry
  dsimp only
  rw [h.window, hentry.2]

/-- Hosts that find the same sighting have the same addresses on file. -/
theorem SameSightings.addressesOf (h : SameSightings related watch watch')
    (hfind : FindsAlike watch watch' host host') : watch'.addressesOf host' = watch.addressesOf host := by
  have hseen := h.seen
  unfold FindsAlike at hfind
  unfold RebindingWatch.addressesOf
  generalize watch.seen = seen at hseen hfind ⊢
  generalize watch'.seen = seen' at hseen hfind ⊢
  induction hseen with
  | nil => rfl
  | @cons entry entry' seen seen' hsame _ ih =>
      obtain ⟨hentry, hrest⟩ := List.forall₂_cons.mp hfind
      by_cases hhost : entry.1 = host
      · rw [List.find?_cons_of_pos (by simpa using hentry.mp hhost),
          List.find?_cons_of_pos (by simpa using hhost)]
        show entry'.2.addresses = entry.2.addresses
        rw [hsame.2]
      · rw [List.find?_cons_of_neg (by simpa using hentry.not.mp hhost),
          List.find?_cons_of_neg (by simpa using hhost)]
        exact ih hrest

/-- The sightings of the other hosts are the same. -/
theorem SameSightings.others (h : SameSightings related watch watch')
    (hfind : FindsAlike watch watch' host host') :
    List.Forall₂ (fun entry entry' => related entry.1 entry'.1 ∧ entry.2 = entry'.2)
      (watch.seen.filter fun entry => entry.1 ≠ host)
      (watch'.seen.filter fun entry => entry.1 ≠ host') := by
  have hseen := h.seen
  unfold FindsAlike at hfind
  generalize watch.seen = seen at hseen hfind ⊢
  generalize watch'.seen = seen' at hseen hfind ⊢
  induction hseen with
  | nil => exact .nil
  | @cons entry entry' seen seen' hsame _ ih =>
      obtain ⟨hentry, hrest⟩ := List.forall₂_cons.mp hfind
      by_cases hhost : entry.1 = host
      · rw [List.filter_cons_of_neg (by simpa using hhost),
          List.filter_cons_of_neg (by simpa using hentry.mp hhost)]
        exact ih hrest
      · rw [List.filter_cons_of_pos (by simpa using hhost),
          List.filter_cons_of_pos (by simpa using hentry.not.mp hhost)]
        exact .cons hsame (ih hrest)

/-- A permit of hosts that find the same sighting leaves the same sightings. -/
theorem SameSightings.remember (h : SameSightings related watch watch')
    (hfind : FindsAlike watch watch' host host') (hrelated : related host host') (address : Str) (now : ℚ) :
    SameSightings related (watch.remember host address now) (watch'.remember host' address now) := by
  have hpush (sighting : Sighting) := List.rel_append (h.others hfind)
    (.cons (a := (host, sighting)) (b := (host', sighting)) ⟨hrelated, rfl⟩ .nil)
  refine ⟨h.window, h.capacity, ?_⟩
  unfold RebindingWatch.remember
  dsimp only
  rw [h.addressesOf hfind, h.capacity, evict_eq_drop, evict_eq_drop, (hpush _).length_eq]
  exact List.forall₂_drop _ (hpush _)

/-- A decision that finds the same sighting is enriched alike, and leaves the same sightings. -/
theorem SameSightings.call (h : SameSightings related watch watch') (now : ℚ) {decision : Decision}
    (hhost : decision.host = some host) (hrelated : related host host')
    (hfind : decision.stage = .address → FindsAlike (watch.forget now) (watch'.forget now) host host') :
    watch'.reports now { decision with host := some host' } = watch.reports now decision ∧
      SameSightings related (watch.call now decision).1
        (watch'.call now { decision with host := some host' }).1 := by
  have hforget := h.forget now
  cases hstage : decision.stage with
  | address =>
      have hfind := hfind hstage
      cases houtcome : decision.outcome with
      | permitted =>
          refine ⟨by simp [reports, houtcome], ?_⟩
          simp only [RebindingWatch.call, hstage, hhost, compare, houtcome]
          exact hforget.remember hfind hrelated _ now
      | refused =>
          refine ⟨?_, ?_⟩
          · simp only [reports, hstage, hhost, houtcome, RebindingWatch.others]
            rw [hforget.addressesOf hfind]
            rfl
          · simp only [RebindingWatch.call, hstage, hhost, compare, houtcome]
            exact hforget
  | url => exact ⟨by simp [reports, hstage], by simpa [RebindingWatch.call, hstage] using h⟩
  | peer => exact ⟨by simp [reports, hstage], by simpa [RebindingWatch.call, hstage] using h⟩
  | redirect => exact ⟨by simp [reports, hstage], by simpa [RebindingWatch.call, hstage] using h⟩

/-- A decision without a host is handed on as it is. -/
theorem call_of_host_eq_none (watch : RebindingWatch) (now : ℚ) {decision : Decision}
    (h : decision.host = none) :
    watch.reports now decision = [] ∧ (watch.call now decision).1 = watch := by
  simp [reports, RebindingWatch.call, h]

/-! ## Every run -/

/-- The same decision, of a host or of one it is related to. -/
def Renamed (related : Str → Str → Prop) (step step' : Step) : Prop :=
  step.2.host = none ∧ step' = step ∨ ∃ host host', step.2.host = some host ∧ related host host' ∧
    step' = (step.1, { step.2 with host := some host' })

/-- Runs whose decisions find the same sightings are enriched alike, and leave the same sightings. -/
theorem reported_eq_of_findAlike (watch : RebindingWatch) {run run' : List Step}
    (hrun : List.Forall₂ (Renamed related) run run') (hsame : SameSightings related watch watch)
    (hfind : watch.FindAlike run run') :
    watch.reported run' = watch.reported run ∧ SameSightings related (watch.after run) (watch.after run') := by
  induction hrun with
  | nil => exact ⟨rfl, hsame⟩
  | @cons step step' earlier earlier' hstep _ ih =>
      obtain ⟨now, decision⟩ := step
      obtain ⟨hhosts, hrest⟩ := hfind
      obtain ⟨hreported, hafter⟩ := ih hrest
      rw [reported, reported, after, after, hreported]
      rcases hstep with ⟨hnone, rfl⟩ | ⟨host, host', hhost, hrelated, rfl⟩
      · have h := call_of_host_eq_none (watch.after earlier) now hnone
        have h' := call_of_host_eq_none (watch.after earlier') now hnone
        rw [h.1, h'.1, h.2, h'.2]
        exact ⟨rfl, hafter⟩
      · obtain ⟨hreports, hcall⟩ :=
          hafter.call now hhost hrelated fun hstage => hhosts hstage host host' hhost rfl
        exact ⟨by rw [hreports], hcall⟩

/-- Where hosts are renamed one to one, every decision finds the sighting it would have found. -/
theorem findAlike_of_biUnique (watch : RebindingWatch) (hempty : watch.seen = []) {run run' : List Step}
    (hunique : Relator.BiUnique related) (hrun : List.Forall₂ (Renamed related) run run') :
    watch.FindAlike run run' := by
  have hsame : SameSightings related watch watch := ⟨rfl, rfl, by rw [hempty]; exact .nil⟩
  induction hrun with
  | nil => exact True.intro
  | @cons step step' earlier earlier' hstep hrest ih =>
      obtain ⟨now, decision⟩ := step
      obtain ⟨now', decision'⟩ := step'
      refine ⟨fun _ host host' hhost hhost' => ?_, ih⟩
      have hafter := (reported_eq_of_findAlike watch hrest hsame ih).2
      have hrelated : related host host' := by
        rcases hstep with ⟨hnone, heq⟩ | ⟨k, k', hk, hrelated, heq⟩
        · cases hnone.symm.trans hhost
        · cases heq
          cases hk.symm.trans hhost
          cases hhost'
          exact hrelated
      refine (hafter.forget now).seen.imp fun entry entry' hentry => ?_
      exact Relator.rel_eq hunique hentry.1 hrelated

/-- What a decision is handed on with is what is reported, or what it came with. -/
theorem alsoSeen_handed (watch : RebindingWatch) {run run' : List Step}
    (hrun : List.Forall₂ (fun step step' => step.2.alsoSeen = step'.2.alsoSeen) run run')
    (hreported : watch.reported run' = watch.reported run) :
    (watch.handed run').map Decision.alsoSeen = (watch.handed run).map Decision.alsoSeen := by
  induction hrun with
  | nil => rfl
  | @cons step step' earlier earlier' hsame _ ih =>
      obtain ⟨hreports, hrest⟩ := List.cons.inj hreported
      rw [handed, handed, List.map_cons, List.map_cons, ih hrest, call_snd, call_snd, hreports]
      congr 1
      split
      · exact hsame.symm
      · rfl

/-- **When the spelling of a host makes no difference.** Where some decisions of a run spell the host with
a final dot, the same refusals are enriched, with the same addresses, in every run in which each decision
finds on file the sighting it would have found; and it does, from a watch with nothing on file, where the
hosts of the two runs correspond one to one. Steps are listed from the newest to the oldest. -/
theorem reported_respelled (watch : RebindingWatch) (host : Str) (run run' : List Step)
    (hrespells : Respells host run run') :
    (watch.FindAlike run run' → watch.reported run' = watch.reported run ∧
      (watch.handed run').map Decision.alsoSeen = (watch.handed run).map Decision.alsoSeen) ∧
    (watch.seen = [] → ∀ related, Relator.BiUnique related →
      List.Forall₂ (Renamed related) run run' → watch.FindAlike run run') := by
  refine ⟨fun hfind => ?_, fun hempty related hunique hrun =>
    findAlike_of_biUnique watch hempty hunique hrun⟩
  have hrenamed : List.Forall₂ (Renamed fun _ _ => True) run run' := by
    refine hrespells.imp fun step step' hstep => ?_
    rcases hstep with rfl | ⟨hhost, rfl⟩
    · cases hhost : step'.2.host with
      | none => exact .inl ⟨hhost, rfl⟩
      | some k => exact .inr ⟨k, k, hhost, True.intro, by rw [← hhost]⟩
    · exact .inr ⟨host, _, hhost, True.intro, rfl⟩
  have hsame : SameSightings (fun _ _ => True) watch watch :=
    ⟨rfl, rfl, List.forall₂_same.mpr fun _ _ => ⟨True.intro, rfl⟩⟩
  have hreported := (reported_eq_of_findAlike watch hrenamed hsame hfind).1
  refine ⟨hreported, alsoSeen_handed watch (hrespells.imp fun step step' hstep => ?_) hreported⟩
  rcases hstep with rfl | ⟨-, rfl⟩ <;> rfl

/-- The host that is decided on. -/
def rebindingHost : Str := text "rebind.test"

/-- The first host is permitted at a public address, and then the second is refused the loopback one. -/
def permitThenRefuse (host host' : Str) : List Step :=
  [(1, { about .refused 0x7F000001 with host := some host' }),
    (0, { about .permitted 0x08080808 with host := some host })]

/-- A refusal of the host spelled with its dot is handed on as it came, with nothing of the permit. -/
theorem reported_dotted :
    Respells rebindingHost (permitThenRefuse rebindingHost rebindingHost)
      (permitThenRefuse rebindingHost (absoluteName rebindingHost)) ∧
    minute.reported (permitThenRefuse rebindingHost rebindingHost) = [[text "8.8.8.8"], []] ∧
    minute.reported (permitThenRefuse rebindingHost (absoluteName rebindingHost)) = [[], []] :=
  ⟨.cons (.inr ⟨rfl, rfl⟩) (.cons (.inl rfl) .nil), by decide +kernel, by decide +kernel⟩

/-- Spelled with the dot in both decisions, the host is recognised. -/
theorem reported_respelled_both :
    minute.reported (permitThenRefuse (absoluteName rebindingHost) (absoluteName rebindingHost)) =
      minute.reported (permitThenRefuse rebindingHost rebindingHost) := by
  obtain ⟨hreported, halike⟩ := reported_respelled minute rebindingHost
    (permitThenRefuse rebindingHost rebindingHost)
    (permitThenRefuse (absoluteName rebindingHost) (absoluteName rebindingHost))
    (.cons (.inr ⟨rfl, rfl⟩) (.cons (.inr ⟨rfl, rfl⟩) .nil))
  refine (hreported (halike rfl (fun host host' => host' = absoluteName host) ?_ ?_)).1
  · refine ⟨fun host other dotted h h' => ?_, fun host dotted dotted' h h' => h.trans h'.symm⟩
    exact List.append_cancel_right (h.symm.trans h')
  · exact .cons (.inr ⟨_, _, rfl, rfl, rfl⟩) (.cons (.inr ⟨_, _, rfl, rfl, rfl⟩) .nil)

end RebindingWatch

end SsrfGuard
