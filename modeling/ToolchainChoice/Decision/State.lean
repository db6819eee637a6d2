import ToolchainChoice.Decision.Survey
import ToolchainChoice.Range

/-!
# The state of an observed version

Where an observed version lies with respect to the supported range. A version that was found and
cannot be read lies below the range. A number in it that is too long is not a matter of the
range: it is reported as the failure it is.
-/
namespace ToolchainChoice.Decision

inductive State where
  | absent
  | below
  | within
  | above
  deriving DecidableEq, Repr, Inhabited

namespace State

def all : List State := [.absent, .below, .within, .above]

def slug : State → String
  | .absent => "absent"
  | .below => "below-range"
  | .within => "in-range"
  | .above => "above-range"

/-- The place of a pair of numbers. -/
def ofMajorMinor (range : SupportedRange) (m : Version.MajorMinor) : State :=
  if range.upper < m then .above else if m < range.lower then .below else .within

/-- The place of an observation. -/
def classify (range : SupportedRange) (o : Observation) : Except Failure State :=
  if o.found then
    match Version.read o.text with
    | .ok v => .ok (ofMajorMinor range v.majorMinor)
    | .error .malformed => .ok .below
    | .error .numberTooLong => .error .numberTooLong
  else .ok .absent

end State

end ToolchainChoice.Decision
