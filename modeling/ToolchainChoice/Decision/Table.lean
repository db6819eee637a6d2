import ToolchainChoice.Decision.Code
import ToolchainChoice.Decision.State

/-!
# The decision table

The diagnostic code for every pair of states. Most cells hold a code. Where the installed version
is within the range and the declared one is within or above it, the states do not settle the
matter and the cell compares versions, here with all their parts and not only the first two
numbers.
-/
namespace ToolchainChoice.Decision

/-- Which version the installed one is compared with. -/
inductive Reference where
  | declared
  | greatest
  deriving DecidableEq, Repr

inductive Cell where
  | fixed (code : Code)
  /-- `lower` if the installed version is lower than the reference, `reached` otherwise. -/
  | compared (reference : Reference) (lower reached : Code)
  deriving DecidableEq, Repr

/-- The cell for the state of the declared version and the state of the installed one. -/
def cell : State → State → Cell
  | .absent, .absent => .fixed .noManifestNoEnv
  | .absent, .below => .fixed .noManifestEnvBelow
  | .absent, .within => .fixed .noManifestEnvSupported
  | .absent, .above => .fixed .noManifestEnvAbove
  | .below, .absent => .fixed .manifestBelowNoEnv
  | .below, .below => .fixed .manifestBelowEnvUnsupported
  | .below, .within => .fixed .manifestBelowEnvSupported
  | .below, .above => .fixed .manifestBelowEnvUnsupported
  | .within, .absent => .fixed .manifestSupportedNoEnv
  | .within, .below => .fixed .manifestSupportedEnvUnsupported
  | .within, .within => .compared .declared .manifestSupportedEnvLower .manifestSupportedEnvHighEnough
  | .within, .above => .fixed .manifestSupportedEnvUnsupported
  | .above, .absent => .fixed .manifestAboveNoEnv
  | .above, .below => .fixed .manifestAboveEnvBelow
  | .above, .within => .compared .greatest .manifestAboveEnvBelowMax .manifestAboveEnvAtMax
  | .above, .above => .fixed .manifestAboveEnvAbove

/-- The code of a cell, if the cell alone determines it. -/
def Cell.code? : Cell → Option Code
  | .fixed code => some code
  | .compared .. => none

end ToolchainChoice.Decision
