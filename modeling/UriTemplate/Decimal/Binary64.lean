/-! Floating-point numbers of 64 bits, taken apart into whole numbers. -/

set_option autoImplicit false

namespace UriTemplate.Decimal

/-- The size of a finite number, `significand * 2 ^ exponent`. -/
structure Binary where
  significand : Nat
  exponent : Int
  deriving DecidableEq, Repr

inductive Binary64 where
  | finite (negative : Bool) (size : Binary)
  | infinite (negative : Bool)
  | undefined
  deriving DecidableEq, Repr

/-- One sign bit, eleven of the exponent and 52 of the significand, whose first bit is implied
unless the exponent is the least. -/
def Binary64.ofBits (bits : UInt64) : Binary64 :=
  let negative := Nat.pow 2 63 ≤ bits.toNat
  let exponent : Nat := bits.toNat / Nat.pow 2 52 % Nat.pow 2 11
  let fraction : Nat := bits.toNat % Nat.pow 2 52
  if exponent = 2047 then
    if fraction = 0 then .infinite negative else .undefined
  else if exponent = 0 then .finite negative ⟨fraction, -1074⟩
  else .finite negative ⟨Nat.pow 2 52 + fraction, exponent - 1075⟩

def Binary64.ofFloat (x : Float) : Binary64 :=
  ofBits x.toBits

def Binary64.fraction? : Binary64 → Option (Int × Nat)
  | .finite negative ⟨significand, exponent⟩ =>
    let size : Int := significand * Int.pow 2 exponent.toNat
    some (if negative then -size else size, Nat.pow 2 (-exponent).toNat)
  | _ => none

end UriTemplate.Decimal
