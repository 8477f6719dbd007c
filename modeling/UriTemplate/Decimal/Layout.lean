import UriTemplate.Decimal.Shortest

/-! Decimal numbers as text: in full with a point, or with an exponent. -/

set_option autoImplicit false

namespace UriTemplate.Decimal

/-- Which exponents of the first digit are written in full, and how many digits an exponent that
is written has at least. -/
structure Layout where
  fullFrom : Int
  fullBelow : Int
  exponentWidth : Nat
  deriving DecidableEq, Repr

def digitsOf (n : Nat) : List Char :=
  Nat.toDigits 10 n

def dropTrailingZeros (digits : List Char) : List Char :=
  (digits.reverse.dropWhile (· = '0')).reverse

def writeFull (digits : List Char) (point : Int) : List Char :=
  let whole := digits.take point.toNat ++ List.replicate (point.toNat - digits.length) '0'
  let rest := List.replicate (-point).toNat '0' ++ digits.drop point.toNat
  (if whole = [] then ['0'] else whole) ++ '.' :: (if rest = [] then ['0'] else rest)

/-- With an exponent: a point only where a digit follows it. -/
def writeExponent (width : Nat) (digits : List Char) (exponent : Int) : List Char :=
  let mantissa :=
    match digits with
    | first :: second :: more => first :: '.' :: second :: more
    | few => few
  let power := digitsOf exponent.natAbs
  mantissa ++ 'e' :: (if exponent < 0 then '-' else '+') ::
    (List.replicate (width - power.length) '0' ++ power)

def Layout.write (layout : Layout) (d : Scaled) : List Char :=
  let written := digitsOf d.digits
  let digits := dropTrailingZeros written
  let point := d.exponent + written.length
  if layout.fullFrom ≤ point - 1 ∧ point - 1 < layout.fullBelow then writeFull digits point
  else writeExponent layout.exponentWidth digits (point - 1)

def Layout.writeBinary (layout : Layout) : Binary64 → List Char
  | .undefined => ['n', 'a', 'n']
  | .infinite negative => signed negative ['i', 'n', 'f']
  | .finite negative size =>
    signed negative (if size.significand = 0 then ['0', '.', '0'] else layout.write size.shortest)
where
  signed (negative : Bool) (text : List Char) : List Char :=
    if negative then '-' :: text else text

end UriTemplate.Decimal
