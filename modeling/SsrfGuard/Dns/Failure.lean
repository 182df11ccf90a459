import SsrfGuard.Dns.Attempts

/-! # Why a lookup fails

`socket.gaierror` carries a code, and a caller acts on it: `EAI_NONAME` ends the matter, and after `EAI_AGAIN` it is
worth asking again. A server that cannot answer must not make a name look absent, and a name must not be given up
while there is time and a server left to ask. The log of a lookup says which of the two has happened. -/

namespace SsrfGuard.Dns

variable {U : Unicode}

/-- Why a call raises `socket.gaierror` with this code and this message, after what it has written down. -/
inductive Failure (r : UdpResolver U) (host : Str) (family flags : ℤ) (deadline clock : ℚ) (added : List Event) :
    Option ℤ → Str → Prop
  /-- Only an address was asked for, and the host is none. Nobody was asked. -/
  | notNumeric {message : Str} (hliteral : UdpResolver.literal U host (UdpResolver.numericHost flags) =
        .error (.gaierror (some eaiNoname) message)) (hadded : added = []) :
      Failure r host family flags deadline clock added (some eaiNoname) message
  /-- The host cannot be written as a name on the wire. Nobody was asked. -/
  | notEncodable {bad : Exc} (hquestion : encodeName U host = .error bad) (hadded : added = []) :
      Failure r host family flags deadline clock added (some eaiNoname) (host ++ text ": " ++ bad.str U)
  /-- For each family a reply was accepted, and none of them carries an address. -/
  | absent {question : Bytes} {replies : List Reply} (hquestion : encodeName U host = .ok question)
      (hreplies : List.Forall₂ (fun wanted => Accepted r (rstripDots host) question (UdpResolver.qtypeOf wanted))
        (scope r family) replies)
      (hadded : added = replies.flatMap Reply.part) (hrecords : replies.flatMap Reply.records = []) :
      Failure r host family flags deadline clock added (some eaiNoname) (host ++ text ": no address records")
  /-- A family was given up, after a reply was accepted for each family before it. -/
  | givenUp {question : Bytes} {before after : List ℤ} {wanted : ℤ} {replies : List Reply} {part : List Event}
      {message : Str} (hquestion : encodeName U host = .ok question)
      (hscope : scope r family = before ++ wanted :: after)
      (hreplies : List.Forall₂ (fun wanted => Accepted r (rstripDots host) question (UdpResolver.qtypeOf wanted))
        before replies)
      (hadded : added = replies.flatMap Reply.part ++ part)
      (hgiven : GivenUpAfter r host (UdpResolver.qtypeOf wanted) deadline clock r.attempts [] part message) :
      Failure r host family flags deadline clock added (some eaiAgain) message

/-- **A failed lookup says why.** Whatever the network does, a call that raises `socket.gaierror` raises it with
`EAI_NONAME` only when there is nothing to ask for, or when every family in scope had an accepted reply and there was
no address in any; and with `EAI_AGAIN` only when a family was given up: each server was asked as often as it may be
and none of them sent an answer, or else the deadline has passed, and the message names every attempt. -/
theorem call_fails (r : UdpResolver U) (host : Str) (port family socktype proto flags : ℤ) (w : World)
    {errno : Option ℤ} {message : Str} {w' : World}
    (h : (r.call host port family socktype proto flags).exec w = (.error (.gaierror errno message), w')) :
    ∃ added, w'.log = w.log ++ added ∧ Failure r host family flags
      (w.clock + w.schedule.tick w.readings + r.fields.timeout.value) w'.clock added errno message := by
  cases hliteral : UdpResolver.literal U host (UdpResolver.numericHost flags) with
  | error e =>
      rw [exec_call_of_refused hliteral] at h
      cases h
      have hnoname := hliteral
      rw [UdpResolver.literal] at hnoname
      split at hnoname
      · cases hnoname
      · split at hnoname
        · cases hnoname
          exact ⟨[], (List.append_nil _).symm, .notNumeric hliteral rfl⟩
        · cases hnoname
  | ok parsed =>
      cases parsed with
      | some address =>
          rw [exec_call_of_literal hliteral] at h
          cases h
      | none =>
          cases hquestion : encodeName U host with
          | error bad =>
              rw [exec_call_of_lookup hliteral, UdpResolver.lookup, hquestion] at h
              cases h
              exact ⟨[], (List.append_nil _).symm, .notEncodable hquestion rfl⟩
          | ok question =>
              rw [exec_call_of_encoded hliteral hquestion] at h
              have hname := nameOf_of_encodeName hquestion
              split at h
              · next records w₁ hlookup =>
                obtain ⟨added, hlog, replies, hreplies, rfl, rfl⟩ := (logs_lookupFrom hname _ _).ok hlookup
                split at h
                · next hrecords =>
                  cases h
                  exact ⟨_, hlog, .absent hquestion hreplies rfl hrecords⟩
                · cases h
              · next e w₁ hlookup =>
                cases h
                obtain ⟨rfl, before, wanted, after, replies, part, hscope, hreplies, -, hlog, hgiven⟩ :=
                  givenUpAfter_lookupFrom hname _ hlookup
                exact ⟨_, hlog, .givenUp hquestion hscope hreplies rfl hgiven⟩

/-- Nobody answers. -/
def nobodyAnswers : Schedule where
  tick _ := 0
  tick_nonneg := still_nonneg
  txid _ := plainTxid
  udp _ := { failure := none, arrivals := [] }
  tcp _ := { connecting := .ready (), sending := .ready (), arrivals := [] }

/-- What is raised then. -/
def triedTwice : Str := text "a: no AAAA answer; tried 127.0.0.1: timed out; 127.0.0.1: timed out"

/-- The one server is asked twice, and then the name is given up, not taken for absent. -/
theorem call_fails_nobodyAnswers :
    let run := (dualStack.call (text "a") 80 0 sockStream 0 0).exec (World.start nobodyAnswers)
    run.1 = .error (.gaierror (some eaiAgain) triedTwice) ∧
      Failure dualStack (text "a") 0 0 (0 + 0 + 5) run.2.clock run.2.log (some eaiAgain) triedTwice := by
  intro run
  have hrun : run.1 = .error (.gaierror (some eaiAgain) triedTwice) := by decide +kernel
  refine ⟨hrun, ?_⟩
  obtain ⟨added, hlog, hfailure⟩ := call_fails dualStack (text "a") 80 0 sockStream 0 0 (World.start nobodyAnswers)
    (show (dualStack.call (text "a") 80 0 sockStream 0 0).exec (World.start nobodyAnswers) =
      (.error (.gaierror (some eaiAgain) triedTwice), run.2) from Prod.ext hrun rfl)
  obtain rfl : run.2.log = added := hlog
  exact hfailure

end SsrfGuard.Dns
