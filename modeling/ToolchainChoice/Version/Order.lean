import ToolchainChoice.Version.Basic

/-!
# The order of versions

Versions are ordered by epoch, release, pre-release, post-release, development release and local
part, in that order of weight. Zeros at the end of a release have no weight. A version without
pre-release stands above its pre-releases, except that a bare development release stands below
them; without post-release it stands below its post-releases; without development release above
its development releases; and without local part below its local versions. In a local part words
stand below numbers.

Each of these parts is mapped to natural numbers that compare in the order wanted, so that the
order of versions is a lexicographic one on their keys. Different versions may have one key.
-/
namespace ToolchainChoice.Version

/-- Without the zeros at its end. -/
def trimZeros : List Nat → List Nat
  | [] => []
  | n :: ns =>
    match trimZeros ns with
    | [] => if n = 0 then [] else [n]
    | m :: ms => n :: m :: ms

/-- What the order of versions looks at, heaviest part first. -/
structure Key where
  epoch : Nat
  release : List Nat
  pre : List Nat
  post : Option Nat
  dev : List Nat
  locals : Option (List (List Nat))
  deriving DecidableEq, Repr

def PreTag.rank : PreTag → Nat
  | .alpha => 1
  | .beta => 2
  | .candidate => 3

/-- A pre-release lies between a bare development release and a version without pre-release. -/
def preKey (v : Version) : List Nat :=
  match v.pre with
  | some (tag, n) => [tag.rank, n]
  | none => if v.post.isNone && v.dev.isSome then [0] else [4]

def devKey : Option Nat → List Nat
  | some n => [0, n]
  | none => [1]

def Segment.key : Segment Nat → List Nat
  | .word letters => 0 :: letters.map Char.toNat
  | .number n => [1, n]

def key (v : Version) : Key where
  epoch := v.epoch
  release := trimZeros v.release
  pre := preKey v
  post := v.post
  dev := devKey v.dev
  locals := v.locals.map fun segments => segments.map Segment.key

def Key.compare : Key → Key → Ordering :=
  compareLex (compareOn Key.epoch) <|
  compareLex (compareOn Key.release) <|
  compareLex (compareOn Key.pre) <|
  compareLex (compareOn Key.post) <|
  compareLex (compareOn Key.dev) (compareOn Key.locals)

instance : Std.TransCmp Key.compare := by
  unfold Key.compare; infer_instance

instance : Ord Key := ⟨Key.compare⟩

instance : Std.TransOrd Key := inferInstanceAs (Std.TransCmp Key.compare)

instance : Ord Version := ⟨compareOn key⟩

/-- The order of versions is a total preorder. -/
instance : Std.TransOrd Version := inferInstanceAs (Std.TransCmp (compareOn key))

theorem compare_def (a b : Version) : compare a b = Key.compare a.key b.key := rfl

end ToolchainChoice.Version
