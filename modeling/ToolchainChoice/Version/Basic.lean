import ToolchainChoice.Number.Digits

/-!
# Versions

A version has an epoch, a release of one or more numbers, and optionally a pre-release, a
post-release, a development release and a local part. `Parts ν` leaves open what its numbers are:
a version as it was written keeps runs of digits (`Written`), a version proper their values
(`Version`). A number that is not written is the empty run, and so denotes zero.
-/
namespace ToolchainChoice

namespace Version

/-- The kinds of pre-release, lowest first. -/
inductive PreTag where
  | alpha
  | beta
  | candidate
  deriving DecidableEq, Repr

/-- One segment of a local part: a number, or a word holding at least one letter. -/
inductive Segment (ν : Type) where
  | number (n : ν)
  | word (letters : List Char)
  deriving DecidableEq, Repr

structure Parts (ν : Type) where
  epoch : ν
  /-- The first number of the release. -/
  major : ν
  /-- The numbers of the release after the first. -/
  more : List ν := []
  pre : Option (PreTag × ν) := none
  post : Option ν := none
  dev : Option ν := none
  /-- The segments after the plus sign. -/
  locals : Option (List (Segment ν)) := none
  deriving DecidableEq, Repr

variable {ν μ : Type}

/-- The numbers of the release, first to last. -/
def Parts.release (p : Parts ν) : List ν := p.major :: p.more

def Segment.map (f : ν → μ) : Segment ν → Segment μ
  | .number n => .number (f n)
  | .word letters => .word letters

def Parts.map (f : ν → μ) (p : Parts ν) : Parts μ where
  epoch := f p.epoch
  major := f p.major
  more := p.more.map f
  pre := p.pre.map fun (tag, n) => (tag, f n)
  post := p.post.map f
  dev := p.dev.map f
  locals := p.locals.map fun segments => segments.map (Segment.map f)

def Segment.numbers : Segment ν → List ν
  | .number n => [n]
  | .word _ => []

/-- Every number of a version, in the order of its text. -/
def Parts.numbers (p : Parts ν) : List ν :=
  p.epoch :: p.release ++ (p.pre.map Prod.snd).toList ++ p.post.toList ++ p.dev.toList ++
    (p.locals.getD []).flatMap Segment.numbers

/-- A version as written: each number is its run of digits. -/
abbrev Written := Parts (List Char)

end Version

abbrev Version := Version.Parts Nat

namespace Version

/-- The first two numbers of a release. -/
structure MajorMinor where
  major : Nat
  minor : Nat
  deriving DecidableEq, Repr

/-- The release cut to two numbers; a missing second number is zero. -/
def majorMinor (v : Version) : MajorMinor := ⟨v.major, v.more.headD 0⟩

namespace MajorMinor

/-- Lexicographic order. -/
protected def Le (a b : MajorMinor) : Prop :=
  a.major < b.major ∨ a.major = b.major ∧ a.minor ≤ b.minor

protected def Lt (a b : MajorMinor) : Prop :=
  a.major < b.major ∨ a.major = b.major ∧ a.minor < b.minor

instance : LE MajorMinor := ⟨MajorMinor.Le⟩
instance : LT MajorMinor := ⟨MajorMinor.Lt⟩

theorem le_def {a b : MajorMinor} :
    a ≤ b ↔ a.major < b.major ∨ a.major = b.major ∧ a.minor ≤ b.minor := Iff.rfl

theorem lt_def {a b : MajorMinor} :
    a < b ↔ a.major < b.major ∨ a.major = b.major ∧ a.minor < b.minor := Iff.rfl

instance (a b : MajorMinor) : Decidable (a ≤ b) := decidable_of_iff _ le_def.symm
instance (a b : MajorMinor) : Decidable (a < b) := decidable_of_iff _ lt_def.symm

theorem not_lt {a b : MajorMinor} : ¬ a < b ↔ b ≤ a := by
  rw [lt_def, le_def]; omega

theorem not_le {a b : MajorMinor} : ¬ a ≤ b ↔ b < a := by
  rw [lt_def, le_def]; omega

theorem le_refl (a : MajorMinor) : a ≤ a := by rw [le_def]; omega

theorem le_trans {a b c : MajorMinor} (hab : a ≤ b) (hbc : b ≤ c) : a ≤ c := by
  rw [le_def] at *; omega

theorem lt_of_lt_of_le {a b c : MajorMinor} (hab : a < b) (hbc : b ≤ c) : a < c := by
  rw [lt_def] at *; rw [le_def] at *; omega

end MajorMinor

end Version

end ToolchainChoice
