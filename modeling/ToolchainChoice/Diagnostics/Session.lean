import ToolchainChoice.Diagnostics.Advisor

/-!
# Sessions with an advisor

One advisor is asked several things in turn. All that goes from one question to the next is the
sink; after every answer the session shows what the sink has received so far.
-/
namespace ToolchainChoice

open Files (Disk)
open Calendar (Moment)
open Diagnostics (Sink Emission)

inductive Request where
  /-- To decide. -/
  | advice (survey : Survey)
  /-- To name the code of the decision. -/
  | code (survey : Survey)
  deriving Repr

inductive Answer where
  | advice (a : Advice)
  | code (c : Decision.Code)
  deriving DecidableEq, Repr

namespace Advisor

def answer (a : Advisor) (now : Moment) (disk : Disk) : Request → Emission Sink Answer
  | .advice survey =>
    let e := a.advise now survey disk
    ⟨e.sink, e.disk, do return .advice (← e.trace)⟩
  | .code survey => ⟨a.sink, disk, do return .code (← a.resolve survey)⟩

/-- The answers to requests in turn, each with what the sink has received by then. -/
def session (a : Advisor) (now : Moment) (disk : Disk) :
    List Request → List (Except Failure Answer × List Diagnostic)
  | [] => []
  | request :: requests =>
    let e := a.answer now disk request
    (e.trace.result, e.sink.received) ::
      session { a with sink := e.sink } now e.disk requests

end Advisor

end ToolchainChoice
