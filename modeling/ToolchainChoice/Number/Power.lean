/-!
# Powers of two and of ten

The scales of the two number systems: binary numbers are counted in powers of two, and decimals in
powers of ten.
-/
namespace ToolchainChoice.Number

def twoTo (exponent : Nat) : Nat := Nat.pow 2 exponent

def tenTo (exponent : Nat) : Nat := Nat.pow 10 exponent

theorem twoTo_zero : twoTo 0 = 1 := rfl

theorem twoTo_succ (e : Nat) : twoTo (e + 1) = twoTo e * 2 := rfl

theorem tenTo_zero : tenTo 0 = 1 := rfl

theorem tenTo_succ (e : Nat) : tenTo (e + 1) = tenTo e * 10 := rfl

end ToolchainChoice.Number
