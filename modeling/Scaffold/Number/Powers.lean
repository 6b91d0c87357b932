/-!
# Powers of two and of ten
-/

namespace Scaffold.Number

/-- Two to the power of `n`. -/
abbrev pow2 (n : Nat) : Nat := Nat.pow 2 n

/-- Ten to the power of `n`. -/
abbrev pow10 (n : Nat) : Nat := Nat.pow 10 n

end Scaffold.Number
