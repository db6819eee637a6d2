/-!
# Runs of decimal digits

Numbers are written with ASCII digits. A run of digits is only ever turned into a number if it is
no longer than `digitLimit`; leading zeros count. The readers keep the runs as written and leave
the decision to `digitsFit`.
-/
namespace ToolchainChoice.Number

/-- The greatest length of a run of digits that is turned into a number. -/
def digitLimit : Nat := 4300

def digitsFit (ds : List Char) : Bool := ds.length ≤ digitLimit

/-- The number that a run of digits denotes; the empty run denotes zero. -/
def digitsValue (ds : List Char) : Nat :=
  ds.foldl (fun n c => 10 * n + (c.toNat - 48)) 0

theorem digitsValue_nil : digitsValue [] = 0 := rfl

theorem digitsValue_concat (ds : List Char) (d : Char) :
    digitsValue (ds ++ [d]) = 10 * digitsValue ds + (d.toNat - 48) := by
  simp [digitsValue]

theorem digitsValue_zero_cons (ds : List Char) : digitsValue ('0' :: ds) = digitsValue ds := rfl

end ToolchainChoice.Number
