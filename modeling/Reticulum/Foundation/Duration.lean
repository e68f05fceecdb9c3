import Reticulum.Foundation.Binary64

/-!
# Durations

`std::time::Duration` counts nanoseconds below `2 ^ 64` seconds; instants are durations from some
origin. Differences of instants do not go below zero.
-/

namespace Reticulum.Duration

/-- `Duration::from_secs`. -/
def fromSecs (s : ℕ) : ℕ := s * 10 ^ 9

/-- `Duration::MAX`. -/
def max : ℕ := fromSecs (2 ^ 64) - 1

/-- `Duration::saturating_mul`. -/
def saturatingMul (d k : ℕ) : ℕ := min (d * k) max

/-- `Duration::saturating_add`. -/
def saturatingAdd (d e : ℕ) : ℕ := min (d + e) max

/-- `Duration::as_secs_f64`: the whole seconds plus the fraction. -/
def asSecsF64 (F : Type) [Binary64 F] (d : ℕ) : F :=
  Binary64.add (Binary64.ofRat (d / 10 ^ 9 : ℕ))
    (Binary64.div (Binary64.ofRat (d % 10 ^ 9 : ℕ)) (Binary64.ofRat (10 ^ 9)))

end Reticulum.Duration
