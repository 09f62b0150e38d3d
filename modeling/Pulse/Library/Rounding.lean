import Mathlib.Algebra.Order.Floor.Ring
import Mathlib.Data.Rat.Floor

/-! Arithmetic whose operations round their exact results, which are rational numbers. -/
namespace Library.Rounding

/-- How an operation rounds its exact result. -/
class Arithmetic where
  fl : ℚ → ℚ

/-- Nothing is rounded. -/
@[reducible] def exact : Arithmetic := ⟨id⟩

@[simp] theorem exact_fl (x : ℚ) : exact.fl x = x := rfl

/-- The nearest integer, and of two the even one. -/
def roundEven (x : ℚ) : Int :=
  let below := ⌊x⌋
  if x - below < 1 / 2 ∨ x - below = 1 / 2 ∧ below % 2 = 0 then below else below + 1

/-- The exponent of the leading binary digit. -/
def exponent (x : ℚ) : Int :=
  let exponent := (Nat.log2 x.num.natAbs : Int) - Nat.log2 x.den
  if (2 : ℚ) ^ exponent ≤ |x| then exponent else exponent - 1

/-- Half to even, with 53 digits or the least unit of all. Overflow is left out. -/
@[reducible] def binary64 : Arithmetic where
  fl x :=
    let unit : ℚ := 2 ^ max (exponent x - 52) (-1074)
    roundEven (x / unit) * unit

example : binary64.fl (1 / 5) = 3602879701896397 / 18014398509481984 := by decide +kernel

end Library.Rounding
