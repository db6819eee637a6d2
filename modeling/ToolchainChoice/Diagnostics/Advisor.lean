import ToolchainChoice.Diagnostics.Sink

/-!
# The advisor

An advisor decides and tells its sink: one diagnostic for every decision that is reached, none for
one that fails and none for a question after the code alone. What it answers depends on the
question and not on what was asked before (`Advisor.advise_result`).
-/
namespace ToolchainChoice

open Files (Disk)
open Calendar (Moment)
open Diagnostics (Sink Emission)

/-- The diagnostic that goes with an advice. -/
def Advice.diagnostic (a : Advice) : Diagnostic := ⟨a.message, a.code⟩

namespace Decision

/-- Whether a version was found and is none. -/
def isUnparsable (o : Observation) : Bool :=
  o.found && match Version.read o.text with
    | .error .malformed => true
    | _ => false

/-- Classifies an observation; a text that is no version is worth a remark. -/
def classifyNoting (range : SupportedRange) (o : Observation) : Traced State := do
  let state ← State.classify range o
  if isUnparsable o then
    .debug .decision
      ("Unparsable version " ++ Text.quoted o.text ++ " treated as below range")
  return state

/-- Resolves a survey with the remarks on what it observes. -/
def resolveNoting (range : SupportedRange) (survey : Survey) : Traced Code := do
  let declared ← classifyNoting range survey.declared
  let installed ← classifyNoting range survey.installed
  (cell declared installed).resolve range survey

theorem classifyNoting_result (range : SupportedRange) (o : Observation) :
    (classifyNoting range o).result = State.classify range o := by
  cases h : State.classify range o with
  | error e => simp [classifyNoting, h, bind, Traced.andThen, liftM, monadLift,
      MonadLift.monadLift, Traced.ofExcept]
  | ok s =>
    by_cases hu : isUnparsable o = true <;>
      simp [classifyNoting, h, hu, bind, Traced.andThen, liftM, monadLift, MonadLift.monadLift,
        Traced.ofExcept, Traced.debug, Traced.log, pure]

theorem resolveNoting_result (range : SupportedRange) (survey : Survey) :
    (resolveNoting range survey).result = resolve range survey := by
  have hd := classifyNoting_result range survey.declared
  have hi := classifyNoting_result range survey.installed
  unfold resolveNoting resolve
  simp only [bind, Traced.andThen, Except.bind, hd]
  cases State.classify range survey.declared with
  | error e => rfl
  | ok d =>
    simp only [hi]
    cases State.classify range survey.installed with
    | error e => rfl
    | ok i => rfl

end Decision

structure Advisor where
  range : SupportedRange
  toolchain : Toolchain
  sink : Sink

namespace Advisor

/-- The decision itself, before the sink hears of it. -/
def consider (a : Advisor) (survey : Survey) : Traced Advice := do
  let code ← Decision.resolveNoting a.range survey
  .debug .decision ("Decision " ++ code.slug ++ " for " ++ survey.text)
  return Decision.adviceOf a.range a.toolchain survey code

theorem consider_result (a : Advisor) (survey : Survey) :
    (a.consider survey).result = ToolchainChoice.advise a.range a.toolchain survey := by
  unfold consider ToolchainChoice.advise
  simp only [bind, Traced.andThen, Decision.resolveNoting_result]
  cases Decision.resolve a.range survey with
  | error e => rfl
  | ok code => rfl

/-- Asks for the code alone. -/
def resolve (a : Advisor) (survey : Survey) : Traced Decision.Code :=
  Decision.resolveNoting a.range survey

/-- Decides and emits the diagnostic of the decision. -/
def advise (a : Advisor) (now : Moment) (survey : Survey) (disk : Disk) : Emission Sink Advice :=
  let considered := a.consider survey
  match considered.result with
  | .error _ => ⟨a.sink, disk, considered⟩
  | .ok advice =>
    let emission := a.sink.emit now advice.diagnostic disk
    ⟨emission.sink, emission.disk, do
      let advice ← considered
      emission.trace
      return advice⟩

/-- With a sink that takes the diagnostic, the answer is the decision for the survey. -/
theorem advise_result (a : Advisor) (now : Moment) (survey : Survey) (disk : Disk)
    (h : ∀ d, (a.sink.emit now d disk).trace.result = .ok ()) :
    (a.advise now survey disk).trace.result = ToolchainChoice.advise a.range a.toolchain survey := by
  have hc := a.consider_result survey
  unfold advise
  cases hr : (a.consider survey).result with
  | error e => simp [hr, ← hc]
  | ok advice =>
    simp [bind, Traced.andThen, hr, h, ← hc, pure, Traced.ofExcept]

end Advisor

end ToolchainChoice
