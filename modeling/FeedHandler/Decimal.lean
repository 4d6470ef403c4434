import Mathlib.Order.Basic
import Mathlib.Algebra.Order.Ring.Int
import Mathlib.Tactic.Positivity
/-!
# Decimals

Prices and quantities are decimals that both ports hold exactly: a sign, a
96-bit coefficient and a scale of at most 28 digits. `1.0` and `1.00` are
different decimals of the same value; every comparison of the code looks at the
value only, which `units` gives as a whole number of steps of `10⁻²⁸`.
-/

namespace FeedHandler

structure Decimal where
  negative : Bool
  coefficient : Nat
  scale : Nat
  coefficient_lt : coefficient < 2 ^ 96
  scale_le : scale ≤ 28
deriving DecidableEq

namespace Decimal

/-- The value in steps of `10⁻²⁸`. -/
def units (d : Decimal) : Int :=
  (if d.negative then -1 else 1) * ((d.coefficient * 10 ^ (28 - d.scale) : Nat) : Int)

/-- The order of the values. -/
instance : Preorder Decimal where
  le a b := a.units ≤ b.units
  lt a b := a.units < b.units
  le_refl a := Int.le_refl a.units
  le_trans _ _ _ := Int.le_trans
  lt_iff_le_not_ge _ _ := Int.lt_iff_le_and_not_ge

instance (a b : Decimal) : Decidable (a ≤ b) :=
  inferInstanceAs (Decidable (a.units ≤ b.units))

instance (a b : Decimal) : Decidable (a < b) :=
  inferInstanceAs (Decidable (a.units < b.units))

theorem le_iff_units {a b : Decimal} : a ≤ b ↔ a.units ≤ b.units := Iff.rfl

theorem lt_iff_units {a b : Decimal} : a < b ↔ a.units < b.units := Iff.rfl

def whole (n : Nat) (h : n < 2 ^ 96 := by decide) : Decimal := ⟨false, n, 0, h, by decide⟩

def zero : Decimal := whole 0

theorem one_lt_coefficient : 1 < 2 ^ 96 := by omega

def one : Decimal := whole 1 one_lt_coefficient

def isZero (d : Decimal) : Bool := d.coefficient == 0

@[simp] theorem units_zero : zero.units = 0 := by decide

@[simp] theorem isZero_zero : zero.isZero = true := rfl

theorem isZero_iff (d : Decimal) : d.isZero = true ↔ d.units = 0 := by
  cases hneg : d.negative <;> simp [isZero, units, hneg]

theorem isZero_eq_false (d : Decimal) : d.isZero = false ↔ d.units ≠ 0 := by
  rw [← Bool.not_eq_true, ne_eq, isZero_iff]

end Decimal

end FeedHandler
