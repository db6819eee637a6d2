import ToolchainChoice.Diagnostics.Session
import ToolchainChoice.Proofs.Decision.Failures
import ToolchainChoice.Proofs.Trace.Silence

/-!
# What a session tells the sink

A session with an advisor that keeps its diagnostics in memory. After any of the requests it has
kept one diagnostic for every advice that was given so far, in order, and nothing else; and no answer
depends on what was asked before. Nothing is assumed of the requests: those that fail and those for a
code may stand anywhere among the others. The time and the disk have no part in this.
-/
namespace ToolchainChoice

open Files (Disk)
open Calendar (Moment)
open Diagnostics (Sink Emission)

/-! ## One request -/

namespace Advisor

variable (a : Advisor) (now : Moment) (disk : Disk) {survey : Survey}

/-- No sink hears of a decision that fails. -/
theorem advise_of_error {e : Failure}
    (h : ToolchainChoice.advise a.range a.toolchain survey = .error e) :
    (a.advise now survey disk).sink = a.sink ∧ (a.advise now survey disk).disk = disk := by
  have hc : (a.consider survey).result = .error e := (consider_result a survey).trans h
  unfold advise
  simp only [hc, and_self]

/-- The sink hears of a decision when all of it has been made. -/
theorem advise_of_ok {advice : Advice}
    (h : ToolchainChoice.advise a.range a.toolchain survey = .ok advice) :
    (a.advise now survey disk).sink = (a.sink.emit now advice.diagnostic disk).sink ∧
      (a.advise now survey disk).disk = (a.sink.emit now advice.diagnostic disk).disk := by
  have hc : (a.consider survey).result = .ok advice := (consider_result a survey).trans h
  unfold advise
  simp only [hc, and_self]

end Advisor

variable {range : SupportedRange} {toolchain : Toolchain} {request : Request} {survey : Survey}

namespace Request

variable (range toolchain) in
/-- The answer to a request, as far as the request alone determines it. -/
def meaning : Request → Except Failure Answer
  | .advice survey => (advise range toolchain survey).map .advice
  | .code survey => (Decision.resolve range survey).map .code

theorem meaning_advice_of_error {e : Failure} (h : advise range toolchain survey = .error e) :
    (advice survey).meaning range toolchain = .error e :=
  congrArg (Except.map Answer.advice) h

theorem meaning_advice_of_ok {given : Advice} (h : advise range toolchain survey = .ok given) :
    (advice survey).meaning range toolchain = .ok (.advice given) :=
  congrArg (Except.map Answer.advice) h

variable (range toolchain) in
/-- What is kept of a request: the message and the code of the advice, if one is asked for and there is
one. -/
def kept? (request : Request) : Option Diagnostic :=
  match request.meaning range toolchain with
  | .ok (.advice given) => some ⟨given.message, given.code⟩
  | _ => none

theorem kept?_of_error {e : Failure} (h : request.meaning range toolchain = .error e) :
    request.kept? range toolchain = none := by
  unfold kept?
  rw [h]

theorem kept?_of_ok {given : Advice}
    (h : request.meaning range toolchain = .ok (.advice given)) :
    request.kept? range toolchain = some ⟨given.message, given.code⟩ := by
  unfold kept?
  rw [h]

theorem kept?_code : (code survey).kept? range toolchain = none := by
  have hm : (code survey).meaning range toolchain = (Decision.resolve range survey).map .code := rfl
  unfold kept?
  rw [hm]
  cases Decision.resolve range survey <;> rfl

/-- Only of an advice that is given something is kept. -/
theorem exists_advice_of_kept? {diagnostic : Diagnostic}
    (h : request.kept? range toolchain = some diagnostic) :
    ∃ survey given, request = .advice survey ∧
      request.meaning range toolchain = .ok (.advice given) ∧
      ⟨given.message, given.code⟩ = diagnostic := by
  cases request with
  | code survey =>
    rw [kept?_code] at h
    contradiction
  | advice survey =>
    cases ha : ToolchainChoice.advise range toolchain survey with
    | error e =>
      rw [kept?_of_error (meaning_advice_of_error ha)] at h
      contradiction
    | ok given =>
      have hm := meaning_advice_of_ok ha
      rw [kept?_of_ok hm] at h
      exact ⟨survey, given, rfl, hm, Option.some.inj h⟩

end Request

namespace Advisor

variable (range toolchain) in
/-- An advisor that keeps its diagnostics in memory, after those that are there already. -/
def recording (past : List Diagnostic) : Advisor := ⟨range, toolchain, .recording past⟩

variable (past : List Diagnostic) (now : Moment) (disk : Disk)

variable (range toolchain request) in
theorem answer_recording_sink :
    ((recording range toolchain past).answer now disk request).sink =
        .recording (past ++ (request.kept? range toolchain).toList) ∧
      ((recording range toolchain past).answer now disk request).disk = disk := by
  cases request with
  | code survey =>
    rw [Request.kept?_code]
    exact ⟨congrArg Sink.recording (List.append_nil past).symm, rfl⟩
  | advice survey =>
    cases h : ToolchainChoice.advise range toolchain survey with
    | error e =>
      obtain ⟨hsink, hdisk⟩ :=
        advise_of_error (recording range toolchain past) now disk h
      rw [Request.kept?_of_error (Request.meaning_advice_of_error h)]
      exact ⟨hsink.trans (congrArg Sink.recording (List.append_nil past).symm), hdisk⟩
    | ok advice =>
      obtain ⟨hsink, hdisk⟩ :=
        advise_of_ok (recording range toolchain past) now disk h
      rw [Request.kept?_of_ok (Request.meaning_advice_of_ok h)]
      exact ⟨hsink, hdisk⟩

variable (range toolchain request) in
/-- The answer does not depend on what is kept, on the time or on the disk. -/
theorem answer_recording_result :
    ((recording range toolchain past).answer now disk request).trace.result =
      request.meaning range toolchain := by
  cases request with
  | advice survey =>
    have hadvise := advise_result (recording range toolchain past) now survey disk fun d => rfl
    calc ((recording range toolchain past).answer now disk (.advice survey)).trace.result
        = ((recording range toolchain past).advise now survey disk).trace.result.map .advice :=
          Traced.result_bind_pure ..
      _ = (ToolchainChoice.advise range toolchain survey).map .advice := by rw [hadvise]; rfl
  | code survey =>
    have hresolve := Decision.resolveNoting_result range survey
    calc ((recording range toolchain past).answer now disk (.code survey)).trace.result
        = (Decision.resolveNoting range survey).result.map .code := Traced.result_bind_pure ..
      _ = (Decision.resolve range survey).map .code := by rw [hresolve]

/-! ## A run of requests -/

/-- Every entry of a session, by induction on the requests: what is kept before a request is what
the session started with and the diagnostics of the requests before it. -/
theorem session_getElem? (requests : List Request) (past : List Diagnostic) (i : Nat) :
    ((recording range toolchain past).session now disk requests)[i]? =
      requests[i]?.map fun request =>
        (request.meaning range toolchain,
          past ++ (requests.take (i + 1)).filterMap (Request.kept? range toolchain)) := by
  induction requests generalizing past i with
  | nil => rfl
  | cons request requests ih =>
    obtain ⟨hsink, hdisk⟩ := answer_recording_sink range toolchain request past now disk
    have hresult := answer_recording_result range toolchain request past now disk
    have hsession : (recording range toolchain past).session now disk (request :: requests) =
        (request.meaning range toolchain,
            past ++ (request.kept? range toolchain).toList) ::
          (recording range toolchain (past ++ (request.kept? range toolchain).toList)).session
            now disk requests := by
      rw [session, hresult, hsink, hdisk]
      rfl
    have htake : ∀ n, ((request :: requests).take (n + 1)).filterMap
          (Request.kept? range toolchain) =
        (request.kept? range toolchain).toList ++
          (requests.take n).filterMap (Request.kept? range toolchain) := by
      intro n
      rw [List.take_succ_cons, List.filterMap_cons]
      cases request.kept? range toolchain <;> rfl
    rw [hsession, htake]
    cases i with
    | zero => simp
    | succ i => simp only [List.getElem?_cons_succ, ih, List.append_assoc]

/-- **Sessions.** What is kept after a request is what was there at the start and the message with its
code of every advice that was given up to it. The answer to a request is that of an advisor that is asked nothing else, at
any time and with any disk. What is kept changes by an advice that is given and by nothing else, so a
request for a code, or one that fails, leaves it as it is; and the code is that of the advice. -/
theorem session_keeps_one_diagnostic_per_advice (range : SupportedRange) (toolchain : Toolchain)
    (past : List Diagnostic) (now : Moment) (disk : Disk) (requests : List Request) :
    (∀ i, ((recording range toolchain past).session now disk requests)[i]? =
      requests[i]?.map fun request =>
        (request.meaning range toolchain,
          past ++ (requests.take (i + 1)).filterMap (Request.kept? range toolchain))) ∧
    (∀ request now' disk', ((recording range toolchain []).answer now' disk' request).trace.result =
      request.meaning range toolchain) ∧
    (∀ request,
      ((recording range toolchain past).answer now disk request).sink = .recording past ∨
        ∃ survey advice, request = .advice survey ∧
          request.meaning range toolchain = .ok (.advice advice) ∧
          ((recording range toolchain past).answer now disk request).sink =
            .recording (past ++ [⟨advice.message, advice.code⟩])) ∧
    ∀ survey, ((recording range toolchain past).resolve survey).result =
      ((recording range toolchain past).advise now survey disk).trace.result.map Advice.code := by
  refine ⟨fun i => session_getElem? now disk requests past i, ?_, ?_, ?_⟩
  · intro request now' disk'
    exact answer_recording_result range toolchain request [] now' disk'
  · intro request
    rw [(answer_recording_sink range toolchain request past now disk).1]
    cases hd : request.kept? range toolchain with
    | none => exact .inl (congrArg Sink.recording (List.append_nil past))
    | some diagnostic =>
      obtain ⟨survey, advice, rfl, hm, rfl⟩ := Request.exists_advice_of_kept? hd
      exact .inr ⟨survey, advice, rfl, hm, rfl⟩
  · intro survey
    have hadvise := advise_result (recording range toolchain past) now survey disk fun d => rfl
    have hresolve : ((recording range toolchain past).resolve survey).result =
        Decision.resolve range survey := Decision.resolveNoting_result range survey
    rw [hadvise, hresolve]
    change Decision.resolve range survey =
      ((Decision.resolve range survey).map (Decision.adviceOf range toolchain survey)).map Advice.code
    cases Decision.resolve range survey <;> rfl

/-- An advice, a request for a code, and one that fails. -/
def mixedRequests : List Request :=
  [.advice ⟨.missing, .missing⟩, .code ⟨.seen "1.20", .missing⟩, .advice ⟨.missing, .seen Decision.longMinor⟩]

def nothingFound : Advice where
  message := "No version of Go installed and no `go.mod` file found. " ++
    "Requesting the maximum supported version of Go (1.21)."
  version := "1.21"
  code := .noManifestNoEnv

/-- The advice is kept, and neither of the requests after it changes that. -/
theorem mixedSession_keeps_one_diagnostic :
    (recording .standard {} []).session default ⟨.empty, []⟩ mixedRequests =
      [(.ok (.advice nothingFound), [⟨nothingFound.message, nothingFound.code⟩]),
        (.ok (.code .manifestSupportedNoEnv), [⟨nothingFound.message, nothingFound.code⟩]),
        (.error .numberTooLong, [⟨nothingFound.message, nothingFound.code⟩])] := by
  have hadvice : Request.meaning .standard {} (.advice ⟨.missing, .missing⟩) =
      .ok (.advice nothingFound) := by
    have hanswer : ToolchainChoice.advise .standard {} ⟨.missing, .missing⟩ =
        .ok (Decision.adviceOf .standard {} ⟨.missing, .missing⟩ .noManifestNoEnv) := rfl
    have hgiven : Decision.adviceOf .standard {} ⟨.missing, .missing⟩ .noManifestNoEnv =
        nothingFound := by decide +kernel
    rw [hgiven] at hanswer
    exact Request.meaning_advice_of_ok hanswer
  have hcode : Request.meaning .standard {} (.code ⟨.seen "1.20", .missing⟩) =
      .ok (.code .manifestSupportedNoEnv) := rfl
  have hlong : Request.meaning .standard {} (.advice ⟨.missing, .seen Decision.longMinor⟩) =
      .error .numberTooLong :=
    Request.meaning_advice_of_error
      (Decision.advise_eq_error_iff.mpr ⟨rfl, .inr Decision.overlong_longMinor⟩)
  obtain ⟨hentries, -⟩ :=
    session_keeps_one_diagnostic_per_advice .standard {} [] default ⟨.empty, []⟩ mixedRequests
  refine List.ext_getElem? fun i => (hentries i).trans ?_
  have hkept := Request.kept?_of_ok hadvice
  have hnone := Request.kept?_of_error hlong
  rcases i with _ | _ | _ | i <;>
    simp [mixedRequests, hkept, hnone, Request.kept?_code, hadvice, hcode, hlong]

end Advisor

end ToolchainChoice
