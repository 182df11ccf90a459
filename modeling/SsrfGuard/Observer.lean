import SsrfGuard.Library.Effect
import SsrfGuard.Library.Scan
import SsrfGuard.Python.IpAddress

/-! # Reporting decisions

A decision is a record handed to a callback. Whatever `Exception` the callback raises is swallowed, so
reporting cannot change what was decided, and credentials are cut out of a URL before the record is
built. -/

namespace SsrfGuard

/-- `Stage`: which question was being answered. -/
inductive Stage
  /-- The URL as written. -/
  | url
  /-- An address a name resolved to. -/
  | address
  /-- The peer of a connected socket. -/
  | peer
  /-- Whether a redirect chain may take another hop. -/
  | redirect
  deriving DecidableEq

/-- `Outcome`: what was decided. -/
inductive Outcome
  /-- It may go ahead. -/
  | permitted
  /-- It may not. -/
  | refused
  deriving DecidableEq

/-- One thing that was decided. -/
structure Decision where
  /-- Which question was being answered. -/
  stage : Stage
  /-- What the answer was. -/
  outcome : Outcome
  /-- Why, on a refusal. -/
  reason : Option Str := none
  /-- The URL, with any credentials replaced. -/
  url : Option Str := none
  /-- The host, as the policy normalised it. -/
  host : Option Str := none
  /-- The port. -/
  port : Option ℤ := none
  /-- The address the decision was about. -/
  address : Option IPAddress := none
  /-- The redirect chain walked so far. -/
  chain : List Str := []
  /-- Other addresses the host has been seen at. -/
  alsoSeen : List Str := []
  deriving DecidableEq

/-- `_REDACTION`. -/
def redaction : Str := text "[redacted]"

/-- `redacted`: replace what stands before the last `@` between the first `//` and the next `/`. -/
def redacted (url : Str) : Str :=
  match Scan.partition (text "//") url with
  | none => url
  | some (scheme, rest) =>
    let cut := (Scan.partition [ord '/'] rest).map fun cut => (cut.1, ord '/' :: cut.2)
    let (authority, tail) := cut.getD (rest, [])
    match Scan.rpartition (ord '@') authority with
    | none => url
    | some (_, host) => scheme ++ text "//" ++ redaction ++ text "@" ++ host ++ tail

/-- An observer: a callback that may keep a state and may raise. -/
abbrev Observer (ω : Type) : Type := Decision → Prog ω Exc Unit

variable {ω : Type}

/-- `report`: hand a decision to an observer and suppress every `Exception` it raises. -/
def report (observer : Option (Observer ω)) (decision : Decision) : Prog ω Exc Unit :=
  match observer with
  | none => pure ()
  | some observer =>
    tryCatch (observer decision) fun e => if e.isException then pure () else throw e

/-- What gets out of a report is what its observer raised outside `Exception`. -/
theorem exec_report_error {observer : Option (Observer ω)} {decision : Decision} {w w' : ω} {e : Exc}
    (h : (report observer decision).exec w = (.error e, w')) :
    ∃ callback, observer = some callback ∧ (callback decision).exec w = (.error e, w') ∧
      e.isException = false := by
  cases observer with
  | none => cases h
  | some callback =>
      rw [report, Prog.exec_tryCatch] at h
      cases hc : (callback decision).exec w with
      | mk result v =>
          rw [hc] at h
          cases result with
          | ok u => cases h
          | error e' =>
              by_cases he : e'.isException = true
              · simp [he] at h
              · simp only [he, Bool.false_eq_true, if_false, Prog.exec_throw] at h
                cases h
                exact ⟨callback, rfl, hc, by simpa using he⟩

/-- The observer has raised what is no `Exception`. -/
def ObserverRaises (observer : Option (Observer ω)) (e : Exc) : Prop :=
  ∃ callback decision w w', observer = some callback ∧ (callback decision).exec w = (.error e, w') ∧
    e.isException = false

end SsrfGuard
