import UriTemplate.Decimal.Binary64

/-! The fewest decimal digits that read back as a given binary number, and of those the nearest.
The search is exact: every comparison is one of natural numbers. -/

set_option autoImplicit false

namespace UriTemplate.Decimal

structure Scaled where
  digits : Nat
  exponent : Int
  deriving DecidableEq, Repr

/-- The numbers that round to a binary number, as numerators over one denominator. The ends
belong to it when the significand is even. -/
structure Interval where
  low : Nat
  middle : Nat
  high : Nat
  denominator : Nat
  closed : Bool
  deriving DecidableEq, Repr

/-- Below a power of two the neighbour is half as far, unless the exponent is the least. -/
def Binary.interval (b : Binary) : Interval :=
  let scale := Nat.pow 2 (b.exponent - 2).toNat
  let below := if b.significand = Nat.pow 2 52 ∧ -1074 < b.exponent then 1 else 2
  { low := (4 * b.significand - below) * scale
    middle := 4 * b.significand * scale
    high := (4 * b.significand + 2) * scale
    denominator := Nat.pow 2 (2 - b.exponent).toNat
    closed := b.significand % 2 = 0 }

def digitCount (n : Nat) : Nat :=
  (Nat.toDigits 10 n).length

/-- The place of the first digit: the number is below ten to this power and not below a tenth
of that. -/
def Interval.magnitude (i : Interval) : Int :=
  if i.denominator ≤ i.middle then digitCount (i.middle / i.denominator)
  else
    let zeros := digitCount (i.denominator / i.middle) - 1
    if i.denominator ≤ i.middle * Nat.pow 10 zeros then 1 - (zeros : Int) else -(zeros : Int)

/-- The multiple of `10 ^ exponent` in the interval that is nearest to the middle. Only the two
multiples around the middle can be; of two that are as near, the even one is taken. -/
def Interval.round? (i : Interval) (exponent : Int) : Option Scaled :=
  let scale := Nat.pow 10 (-exponent).toNat
  let unit := i.denominator * Nat.pow 10 exponent.toNat
  let down := i.middle * scale / unit
  let up := down + 1
  let inside := fun d =>
    if i.closed then i.low * scale ≤ d * unit ∧ d * unit ≤ i.high * scale
    else i.low * scale < d * unit ∧ d * unit < i.high * scale
  let twice := 2 * i.middle * scale
  let half := (down + up) * unit
  let nearest := if twice < half ∨ (twice = half ∧ down % 2 = 0) then down else up
  let other := if nearest = down then up else down
  if inside nearest then some ⟨nearest, exponent⟩
  else if inside other then some ⟨other, exponent⟩
  else none

def Interval.search (i : Interval) (exponent : Int) : Nat → Scaled
  | 0 =>
    ⟨i.middle * Nat.pow 10 (-exponent).toNat / (i.denominator * Nat.pow 10 exponent.toNat), exponent⟩
  | tries + 1 =>
    match i.round? exponent with
    | some found => found
    | none => i.search (exponent - 1) tries

def Binary.shortest (b : Binary) : Scaled :=
  -- Seventeen digits always suffice.
  b.interval.search (b.interval.magnitude - 1) 17

end UriTemplate.Decimal
