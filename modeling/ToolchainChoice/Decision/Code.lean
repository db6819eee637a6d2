/-!
# Diagnostic codes

The closed set of outcomes of a decision, one for every distinguishable combination of the
declared and the installed version. A code is known outside by its slug.
-/
namespace ToolchainChoice.Decision

inductive Code where
  | noManifestNoEnv
  | noManifestEnvBelow
  | noManifestEnvAbove
  | noManifestEnvSupported
  | manifestAboveNoEnv
  | manifestAboveEnvAbove
  | manifestAboveEnvBelow
  | manifestAboveEnvBelowMax
  | manifestAboveEnvAtMax
  | manifestBelowNoEnv
  | manifestBelowEnvUnsupported
  | manifestBelowEnvSupported
  | manifestSupportedNoEnv
  | manifestSupportedEnvUnsupported
  | manifestSupportedEnvLower
  | manifestSupportedEnvHighEnough
  deriving DecidableEq, Repr, Inhabited

namespace Code

/-- Every code, in the order of the declarations. -/
def all : List Code :=
  [.noManifestNoEnv, .noManifestEnvBelow, .noManifestEnvAbove, .noManifestEnvSupported,
   .manifestAboveNoEnv, .manifestAboveEnvAbove, .manifestAboveEnvBelow, .manifestAboveEnvBelowMax,
   .manifestAboveEnvAtMax, .manifestBelowNoEnv, .manifestBelowEnvUnsupported,
   .manifestBelowEnvSupported, .manifestSupportedNoEnv, .manifestSupportedEnvUnsupported,
   .manifestSupportedEnvLower, .manifestSupportedEnvHighEnough]

theorem mem_all (c : Code) : c ∈ all := by cases c <;> decide

def slug : Code → String
  | .noManifestNoEnv => "no-manifest-and-no-env"
  | .noManifestEnvBelow => "no-manifest-and-env-below-range"
  | .noManifestEnvAbove => "no-manifest-and-env-above-range"
  | .noManifestEnvSupported => "no-manifest-and-env-supported"
  | .manifestAboveNoEnv => "manifest-too-high-and-no-env"
  | .manifestAboveEnvAbove => "manifest-too-high-and-env-too-high"
  | .manifestAboveEnvBelow => "manifest-too-high-and-env-too-low"
  | .manifestAboveEnvBelowMax => "manifest-too-high-and-env-below-max"
  | .manifestAboveEnvAtMax => "manifest-too-high-and-env-at-max"
  | .manifestBelowNoEnv => "manifest-too-low-and-no-env"
  | .manifestBelowEnvUnsupported => "manifest-too-low-and-env-unsupported"
  | .manifestBelowEnvSupported => "manifest-too-low-and-env-supported"
  | .manifestSupportedNoEnv => "manifest-supported-and-no-env"
  | .manifestSupportedEnvUnsupported => "manifest-supported-and-env-unsupported"
  | .manifestSupportedEnvLower => "manifest-supported-and-env-lower"
  | .manifestSupportedEnvHighEnough => "manifest-supported-and-env-higher-or-equal"

def ofSlug? (s : String) : Option Code := all.find? fun c => c.slug == s

/-- Different codes have different slugs. -/
theorem slug_injective {a b : Code} (h : a.slug = b.slug) : a = b := by
  have key : ∀ x ∈ all, ∀ y ∈ all, x.slug = y.slug → x = y := by decide
  exact key a (mem_all a) b (mem_all b) h

theorem ofSlug?_slug (c : Code) : ofSlug? c.slug = some c := by
  have key : ∀ x ∈ all, ofSlug? x.slug = some x := by decide
  exact key c (mem_all c)

/-- The slug as words, the first with a capital. -/
def title (c : Code) : String :=
  match c.slug.toList.map fun ch => if ch = '-' then ' ' else ch with
  | [] => ""
  | ch :: rest => String.ofList (ch.toUpper :: rest)

end Code

end ToolchainChoice.Decision
