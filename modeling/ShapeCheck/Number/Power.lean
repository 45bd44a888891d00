/-
  Natural powers of the bases in which numbers are written, and of the factors of ten.
-/

namespace ShapeCheck

/-- Ten to the `n`. -/
def pow10 (n : Nat) : Nat := Nat.pow 10 n

/-- Two to the `n`. -/
def pow2 (n : Nat) : Nat := Nat.pow 2 n

/-- Five to the `n`. -/
def pow5 (n : Nat) : Nat := Nat.pow 5 n

end ShapeCheck
