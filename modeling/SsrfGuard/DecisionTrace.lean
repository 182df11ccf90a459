import SsrfGuard.Unobserved

/-! # What an observer is told

Every answer of a resolver is reported, and so is every URL, whether the call then returns or raises. An
observer is told the verdict there was and the reason of each refusal, once and in order. The one thing
that keeps a decision from it is what it raises itself, outside `Exception`, at a decision before. -/

namespace SsrfGuard

variable {σ : Type} {U : Unicode}

/-- The observer raises this at the decision, and it is no `Exception`. -/
def Observer.Stops (callback : Observer σ) (decision : Decision) (e : Exc) : Prop :=
  e.isException = false ∧ ∃ env env', (callback decision).exec env = (.error e, env')

/-- An observer, with the decisions it is handed written down beside the outside. -/
def Observer.recorded (callback : Observer σ) : Observer (σ × List Decision) := fun decision =>
  Prog.ofFun fun env =>
    let run := (callback decision).exec env.1
    (run.1, (run.2, env.2 ++ [decision]))

/-- The decisions handed over so far. -/
def World.received (w : World (σ × List Decision)) : List Decision := w.env.2

/-! ## Telling a verdict -/

/-- The decision tells what `check_address` makes of an answer. -/
structure Decision.TellsAnswer (p : Policy) (target : Target) (answer : Address) (decision : Decision) :
    Prop where
  /-- It is about an address. -/
  stage : decision.stage = .address
  /-- It names the origin, and the address of the answer. -/
  names : decision.host = some target.host ∧ decision.port = some target.port ∧
    decision.address = some answer.ip
  /-- A permitted address is told as permitted. -/
  permitted : p.checkAddress answer.ip = .ok () → decision.outcome = .permitted ∧ decision.reason = none
  /-- A refused one is told as refused, with the reason of the exception. -/
  refused : ∀ e, p.checkAddress answer.ip = .error e →
    ∃ shown reason, e = .blockedAddressError shown reason ∧ decision.outcome = .refused ∧
      decision.reason = some reason

/-- The decision tells what was decided of a URL. -/
structure Decision.TellsUrl (verdict : Except Exc Target) (decision : Decision) : Prop where
  /-- It is about a URL. -/
  stage : decision.stage = .url
  /-- A permitted URL is told with the origin. -/
  permitted : ∀ target, verdict = .ok target → decision.outcome = .permitted ∧
    decision.host = some target.host ∧ decision.port = some target.port ∧
    decision.address = target.address
  /-- A refused one is told with the reason of the exception. -/
  refused : ∀ e, verdict = .error e → ∃ url reason, e = .blockedURLError url reason ∧
    decision.outcome = .refused ∧ decision.reason = some reason

/-- The decision `resolve` reports on an answer. -/
def Policy.answerDecision (p : Policy) (target : Target) (answer : Address) : Decision :=
  addressDecision target answer (if p.Permits answer.ip then none else some (p.denialReason answer))

theorem tellsAnswer_answerDecision (p : Policy) (target : Target) (answer : Address) :
    (p.answerDecision target answer).TellsAnswer p target answer := by
  refine ⟨rfl, ⟨rfl, rfl, rfl⟩, fun (hpermits : p.Permits answer.ip) => ?_, fun e hrefused => ?_⟩
  · rw [Policy.answerDecision, if_pos hpermits]
    exact ⟨rfl, rfl⟩
  · have hnot : ¬ p.Permits answer.ip := fun hpermits => Except.error_ne_ok (hrefused.symm.trans hpermits)
    rw [Policy.answerDecision, if_neg hnot]
    exact ⟨_, _, Policy.checkAddress_eq_error hrefused, rfl, rfl⟩

theorem tellsUrl_urlDecision (p : Policy) (url : Str) :
    (urlDecision U url (p.decide U url)).TellsUrl (p.decide U url) := by
  refine ⟨?_, fun target hok => ?_, fun e herror => ?_⟩
  · cases p.decide U url <;> rfl
  · rw [hok]
    exact ⟨rfl, rfl, rfl, rfl⟩
  · obtain ⟨shown, reason, rfl⟩ := p.raisesOnly_decide url e herror
    rw [herror]
    exact ⟨shown, reason, rfl, rfl, rfl⟩

/-! ## Each report -/

/-- A report hands its decision over, and what the observer raises at it ends the run or is swallowed. -/
theorem addsInOrder_report (callback : Observer σ) (decision : Decision) :
    Prog.AddsInOrder World.received callback.Stops (report (outside (some callback.recorded)) decision)
      [decision] (.ok ()) := by
  have hcallback : Prog.Adds World.received (Prog.zoom World.env (fun w env => { w with env := env })
      (callback.recorded decision)) fun result added => added = [decision] ∧
        ∀ e, result = .error e → ∃ env env', (callback decision).exec env = (.error e, env') :=
    fun w => ⟨[decision], rfl, rfl, fun e he => ⟨w.env.1, _, Prod.ext he rfl⟩⟩
  refine Prog.Adds.tryCatch hcallback ?_ ?_
  · rintro ⟨⟩ first ⟨rfl, -⟩
    exact .inl ⟨rfl, rfl⟩
  · rintro e first ⟨rfl, hraise⟩
    split
    · exact Prog.Adds.pure (.inl ⟨rfl, rfl⟩)
    · next hbase =>
      exact Prog.Adds.throw (.inr ⟨[], decision, [], e, rfl, ⟨by simpa using hbase, hraise e rfl⟩, rfl, rfl⟩)

/-- The run that writes the decisions down is the run of the observer itself. -/
theorem sameReports_recorded (callback : Observer σ) :
    SameReports (outside (some callback.recorded)) (outside (some callback)) := by
  intro decision
  have hcallback : SameVerdict
      (Prog.zoom World.env (fun w env => { w with env := env }) (callback.recorded decision))
      (Prog.zoom World.env (fun w env => { w with env := env }) (callback decision)) :=
    fun w => ⟨_, rfl, rfl, rfl⟩
  exact hcallback.tryCatch fun e => .ite (.pure _) (.throw _)

/-! ## Each call -/

/-- `check_url` reports what was decided, and nothing else. -/
theorem addsInOrder_checkUrl (p : Policy) (callback : Observer σ) (url : Str) :
    Prog.AddsInOrder World.received callback.Stops
      (p.checkUrl U url (outside (some callback.recorded))) [urlDecision U url (p.decide U url)]
      (p.decide U url) := by
  unfold Policy.checkUrl
  cases hdecide : p.decide U url with
  | ok target => exact (addsInOrder_report callback _).bind (.pure target)
  | error refused =>
      -- every refusal is one of the library's own, and is reported
      obtain ⟨shown, reason, rfl⟩ := p.raisesOnly_decide url refused hdecide
      exact (addsInOrder_report callback _).bind (.throw _)

/-- The loop of `resolve` reports every answer, in order. -/
theorem addsInOrder_checkAnswers (p : Policy) (target : Target) (callback : Observer σ)
    (answers : List Address) :
    Prog.AddsInOrder World.received callback.Stops
      (checkAnswers p target (outside (some callback.recorded)) answers)
      (answers.map (p.answerDecision target)) (.ok (p.permitted answers, p.denied answers)) := by
  induction answers with
  | nil => exact .pure _
  | cons answer answers ih =>
      rw [checkAnswers, List.map_cons, ← List.singleton_append, ← List.append_nil (_ ++ _),
        List.append_assoc]
      cases hcheck : p.checkAddress answer.ip with
      | ok u =>
          have hpermits : p.Permits answer.ip := hcheck
          rw [Policy.answerDecision, if_pos hpermits, Policy.permitted_cons_of_permits hpermits,
            Policy.denied_cons_of_permits hpermits]
          exact (addsInOrder_report callback _).bind (ih.bind (.pure _))
      | error e =>
          have hnot : ¬ p.Permits answer.ip := Policy.not_permits_of_checkAddress hcheck
          obtain rfl := Policy.checkAddress_eq_error hcheck
          rw [Policy.answerDecision, if_neg hnot, Policy.permitted_cons_of_not_permits hnot,
            Policy.denied_cons_of_not_permits hnot]
          exact (addsInOrder_report callback _).bind (ih.bind (.pure _))

/-- What `resolve` does once the resolver has answered with rows that can be read. -/
theorem exists_received_resolve (p : Policy) (target : Target) (resolver : Resolver σ)
    (callback : Observer σ) {w : World (σ × List Decision)} {infos : List ResolverAnswer} {env : σ}
    (hlookup : (lookupOf target resolver).exec w.env.1 = (.ok infos, env))
    (hread : ∀ info ∈ infos, info.Readable U) :
    let run := (resolve U p target resolver.beside (some callback.recorded)).exec w
    ∃ answers : List Address, answers.map Address.key = distinctAnswers infos ∧
      (∀ answer ∈ answers, sockaddrIp U answer.sockaddr = .ok answer.ip) ∧
      ∃ told, run.2.received = w.received ++ told ∧ Prog.StoppedBy callback.Stops
        (answers.map (p.answerDecision target)) (resolved U p target infos) run.1 told := by
  intro run
  obtain ⟨answers, hanswers, hkeys, hips⟩ := @addressesFrom_eq_ok U target.host [] infos hread
  have hdistinct : answers.map Address.key = distinctAnswers infos := by
    simpa [distinctAnswers] using hkeys
  have hbeside : (lookupOf target resolver.beside).exec w.env = (.ok infos, (env, w.env.2)) := by
    show (beside (lookupOf target resolver)).exec w.env = _
    rw [beside, Prog.exec_zoom, hlookup]
  obtain ⟨trace, hexec⟩ :=
    exec_resolve_of_lookup (U := U) (p := p) (some callback.recorded) hbeside
  refine ⟨answers, hdistinct, hips, ?_⟩
  rw [show run = _ from hexec, resolved, hanswers]
  refine (Prog.AddsInOrder.ofExcept (.ok answers)).bind ?_ _
  dsimp only [bind, Except.bind]
  by_cases hnil : answers = []
  · rw [if_pos hnil, if_pos hnil, hnil]
    exact .throw _
  · rw [if_neg hnil, if_neg hnil]
    have hchecked := addsInOrder_checkAnswers p target callback answers
    rw [← List.append_nil (answers.map _)]
    exact hchecked.bind (.ofExcept _)

/-! ## Every call -/

/-- **What an observer is told.** Of every URL `check_url` is asked about, an observer is told one
decision, which tells what was decided of it; and of every answer of a resolver whose rows can be read it
is told one decision, in the order in which the distinct answers first occur, which tells what
`check_address` makes of it, also when `resolve` then raises. What the observer raises outside `Exception`
ends the call at the decision it was raised at; the observer has been told that one and those before. -/
theorem received_correct (U : Unicode) (p : Policy) (callback : Observer σ) :
    (∀ (url : Str) (w : World (σ × List Decision)),
      let run := (p.checkUrl U url (outside (some callback.recorded))).exec w
      ∃ decision : Decision, decision.TellsUrl (p.decide U url) ∧
        run.2.received = w.received ++ [decision] ∧
        (run.1 = p.decide U url ∨ ∃ e, callback.Stops decision e ∧ run.1 = .error e)) ∧
    (∀ (target : Target) (resolver : Resolver σ) (w : World (σ × List Decision))
      (infos : List ResolverAnswer) (env : σ),
      (lookupOf target resolver).exec w.env.1 = (.ok infos, env) → (∀ info ∈ infos, info.Readable U) →
      let run := (resolve U p target resolver.beside (some callback.recorded)).exec w
      ∃ (answers : List Address) (decisions told : List Decision),
        answers.map Address.key = distinctAnswers infos ∧
        (∀ answer ∈ answers, sockaddrIp U answer.sockaddr = .ok answer.ip) ∧
        List.Forall₂ (Decision.TellsAnswer p target) answers decisions ∧
        run.2.received = w.received ++ told ∧
        Prog.StoppedBy callback.Stops decisions (resolved U p target infos) run.1 told) ∧
    (∀ url, SameVerdict (p.checkUrl U url (outside (some callback.recorded)))
      (p.checkUrl U url (outside (some callback)))) ∧
    ∀ target resolver, SameVerdict (resolve U p target resolver.beside (some callback.recorded))
      (resolve U p target resolver (some callback)) := by
  refine ⟨fun url w => ?_, fun target resolver w infos env hlookup hread => ?_,
    sameVerdict_checkUrl p (sameReports_recorded callback),
    fun target resolver => sameVerdict_resolve p target resolver (sameReports_recorded callback)⟩
  · obtain ⟨told, hreceived, htold⟩ := addsInOrder_checkUrl (U := U) p callback url w
    obtain ⟨rfl, hresult⟩ := Prog.stoppedBy_singleton.mp htold
    exact ⟨_, tellsUrl_urlDecision p url, hreceived, hresult⟩
  · obtain ⟨answers, hkeys, hips, told, hreceived, htold⟩ :=
      exists_received_resolve p target resolver callback hlookup hread
    refine ⟨answers, _, told, hkeys, hips, ?_, hreceived, htold⟩
    rw [List.forall₂_map_right_iff, List.forall₂_same]
    exact fun answer _ => tellsAnswer_answerDecision p target answer

/-- A name at a public address and at the loopback address, the first listed again. -/
def rebound : List ResolverAnswer :=
  let info (host : Str) : ResolverAnswer :=
    { family := afInet, socktype := sockStream, proto := ipprotoTcp, canonname := [],
      sockaddr := [.str host, .int 443] }
  [info (text "8.8.8.8"), info (text "127.0.0.1"), info (text "8.8.8.8")]

/-- A world in which an observer has been told nothing. -/
def World.untold : World (Unit × List Decision) := { env := ((), []), sockets := 0, trace := [] }

theorem readable_rebound : ∀ info ∈ rebound, info.Readable Unicode.ascii := by
  have hpublic : sockaddrIp Unicode.ascii [.str (text "8.8.8.8"), .int 443] = .ok (.v4 0x08080808#32) := by
    decide +kernel
  have hloopback : sockaddrIp Unicode.ascii [.str (text "127.0.0.1"), .int 443] =
      .ok (.v4 0x7F000001#32) := by
    decide +kernel
  intro info hinfo
  rcases List.mem_cons.mp hinfo with rfl | hinfo
  · exact ⟨by decide, _, hpublic⟩
  · rcases List.mem_cons.mp hinfo with rfl | hinfo
    · exact ⟨by decide, _, hloopback⟩
    · cases List.mem_singleton.mp hinfo
      exact ⟨by decide, _, hpublic⟩

/-- An observer that is interrupted at its first decision is not told of the second of two answers. -/
theorem received_interrupted :
    (∀ info ∈ rebound, info.Readable Unicode.ascii) ∧
    (distinctAnswers rebound).length = 2 ∧
    ((resolve Unicode.ascii Policy.default targetA (Resolver.beside fun _ _ _ _ _ _ => pure rebound)
      (some (Observer.recorded fun _ => throw (.baseException (text "KeyboardInterrupt"))))).exec
      World.untold).2.received.length = 1 :=
  ⟨readable_rebound, by decide +kernel, by decide +kernel⟩

/-- An observer that keeps quiet is told of both answers, although the call raises. -/
theorem received_correct_rebound :
    let run := (resolve Unicode.ascii Policy.default targetA
      (Resolver.beside fun _ _ _ _ _ _ => pure rebound) (some (Observer.recorded fun _ => pure ()))).exec
      World.untold
    run.2.received.length = 2 ∧ IsBlockedAddress run.1 := by
  intro run
  obtain ⟨-, hresolve, -⟩ :=
    received_correct Unicode.ascii Policy.default (fun _ => pure () : Observer Unit)
  obtain ⟨answers, decisions, told, hkeys, -, htells, hreceived, htold⟩ :=
    hresolve targetA (fun _ _ _ _ _ _ => pure rebound) World.untold rebound () rfl readable_rebound
  have hlength : answers.length = 2 := by
    rw [← List.length_map Address.key, hkeys]
    decide +kernel
  rcases htold with ⟨hresult, rfl⟩ | ⟨_, _, _, _, -, ⟨_, _, _, hraise⟩, -⟩
  · refine ⟨?_, ?_⟩
    · rw [show run.2.received = [] ++ told from hreceived, List.nil_append, ← htells.length_eq, hlength]
    · rw [show run.1 = _ from hresult, (resolved_spec _ _ (by decide) readable_rebound).1]
      unfold Policy.Refuses
      decide +kernel
  · cases hraise

end SsrfGuard
