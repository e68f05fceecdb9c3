import Reticulum.Foundation.Duration
import Reticulum.Foundation.MessagePack

/-!
# Seconds in floating point

Numbers of seconds arrive and leave as `f64`, by their bits; durations and instants count
nanoseconds. The operations that connect the two extend `Binary64`, still without laws.
-/

namespace Reticulum

/-- The operations on `f64` that need its bits or its unit. -/
class Binary64Bits (F : Type) extends Binary64 F where
  isNan : F → Bool
  /-- `f64::from_bits`. -/
  ofBits : ℕ → F
  /-- The `f64` of the bits of an `f32`. -/
  ofBits32 : ℕ → F
  /-- `f64::to_bits`. -/
  toBits : F → ℕ
  /-- `Duration::try_from_secs_f64`. -/
  tryFromSecs : F → Option ℕ

section

variable {F : Type} [Binary64Bits F]

/-- `f64::clamp`. -/
def Binary64.clamp (x low high : F) : F :=
  let x := if lt x low then low else x
  if lt high x then high else x

/-- `f64::abs`. -/
def Binary64.abs (x : F) : F :=
  if lt x (ofRat 0) then sub (ofRat 0) x else x

/-- `Duration::from_secs_f64`, which is used on numbers that are durations. -/
def Duration.fromSecsF64 (secs : F) : ℕ := (Binary64Bits.tryFromSecs secs).getD 0

/-- `Value::as_f64`. -/
def MessagePack.Value.asF64 : MessagePack.Value → Option F
  | integer n => some (Binary64.ofRat n)
  | f32 bits => some (Binary64Bits.ofBits32 bits)
  | f64 bits => some (Binary64Bits.ofBits bits)
  | _ => none

end

/-- `Duration::checked_add`. -/
def Duration.checkedAdd (d e : ℕ) : Option ℕ := if d + e ≤ Duration.max then some (d + e) else none

/-- `Instant::checked_add`: the seconds of an instant have 63 bits. -/
def Instant.checkedAdd (t d : ℕ) : Option ℕ :=
  if t + d < Duration.fromSecs (2 ^ 63) then some (t + d) else none

end Reticulum
