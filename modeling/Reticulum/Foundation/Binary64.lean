import Mathlib

/-!
# Floating point

The operations on `f64` that the modelled code uses, as a class without laws: results that hold
for every implementation hold for the hardware's. Where a result needs that comparisons are an
order, it says so. The rational numbers implement the class exactly, which is enough to evaluate
definitions on values where the hardware does not round.
-/

namespace Reticulum

/-- The operations on `f64` that the code uses. -/
class Binary64 (F : Type) where
  /-- The number nearest to a rational one. -/
  ofRat : ℚ → F
  isFinite : F → Bool
  lt : F → F → Bool
  le : F → F → Bool
  eq : F → F → Bool
  add : F → F → F
  sub : F → F → F
  mul : F → F → F
  div : F → F → F
  min : F → F → F
  max : F → F → F
  /-- The conversion `as usize`. -/
  toUsize : F → ℕ

namespace Binary64

/-- What `<` on `f64` obeys, also where one side is not a number. -/
structure StrictOrder (F : Type) [Binary64 F] : Prop where
  irrefl : ∀ a : F, lt a a = false
  trans : ∀ a b c : F, lt a b → lt b c → lt a c

theorem StrictOrder.asymm {F : Type} [Binary64 F] (h : StrictOrder F) {a b : F} (hab : lt a b) :
    lt b a = false :=
  Bool.eq_false_of_not_eq_true fun hba =>
    Bool.false_ne_true ((h.irrefl a).symm.trans (h.trans a b a hab hba))

end Binary64

/-- Exact arithmetic. -/
instance : Binary64 ℚ where
  ofRat q := q
  isFinite _ := true
  lt a b := decide (a < b)
  le a b := decide (a ≤ b)
  eq a b := decide (a = b)
  add a b := a + b
  sub a b := a - b
  mul a b := a * b
  div a b := a / b
  min a b := if a ≤ b then a else b
  max a b := if a ≤ b then b else a
  toUsize a := a.floor.toNat

theorem Binary64.strictOrder_rat : StrictOrder ℚ where
  irrefl a := decide_eq_false (lt_irrefl a)
  trans a b c hab hbc := by
    simp only [lt, decide_eq_true_eq] at hab hbc ⊢
    exact hab.trans hbc

end Reticulum
