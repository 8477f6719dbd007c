/-! UTF-8, written from characters and read back from octets that need not be well formed.
The reader goes octet by octet: what cannot continue the open sequence ends it with one
replacement character, so each maximal ill-formed part gives exactly one. -/

set_option autoImplicit false

namespace UriTemplate.Text

abbrev Octet := Fin 256

namespace Utf8

theorem toNat_lt (c : Char) : c.toNat < 0x110000 := by
  have valid := c.valid
  simp only [UInt32.isValidChar, Nat.isValidChar] at valid
  simp only [Char.toNat]
  omega

def sequence (n : Nat) (bound : n < 0x110000) : List Octet :=
  if one : n < 0x80 then
    [⟨n, by omega⟩]
  else if two : n < 0x800 then
    [⟨0xC0 + n / 64, by omega⟩, ⟨0x80 + n % 64, by omega⟩]
  else if three : n < 0x10000 then
    [⟨0xE0 + n / 4096, by omega⟩, ⟨0x80 + n / 64 % 64, by omega⟩, ⟨0x80 + n % 64, by omega⟩]
  else
    [⟨0xF0 + n / 262144, by omega⟩, ⟨0x80 + n / 4096 % 64, by omega⟩,
      ⟨0x80 + n / 64 % 64, by omega⟩, ⟨0x80 + n % 64, by omega⟩]

def encode (c : Char) : List Octet :=
  sequence c.toNat (toNat_lt c)

/-- The character that stands for octets that are no character. -/
def replacement : Char := '\uFFFD'

/-- A sequence that has begun: the bits read so far, how many octets follow the next one, and
the range of the next one, which keeps out overlong forms, surrogates and values too large. -/
structure Pending where
  bits : Nat
  more : Nat
  low : Nat
  high : Nat
  deriving DecidableEq, Repr

def start (b : Octet) : List Char × Option Pending :=
  let n := b.val
  if n < 0x80 then ([Char.ofNat n], none)
  else if n < 0xC2 then ([replacement], none)
  else if n < 0xE0 then ([], some ⟨n - 0xC0, 0, 0x80, 0xBF⟩)
  else if n = 0xE0 then ([], some ⟨0, 1, 0xA0, 0xBF⟩)
  else if n = 0xED then ([], some ⟨13, 1, 0x80, 0x9F⟩)
  else if n < 0xF0 then ([], some ⟨n - 0xE0, 1, 0x80, 0xBF⟩)
  else if n = 0xF0 then ([], some ⟨0, 2, 0x90, 0xBF⟩)
  else if n < 0xF4 then ([], some ⟨n - 0xF0, 2, 0x80, 0xBF⟩)
  else if n = 0xF4 then ([], some ⟨4, 2, 0x80, 0x8F⟩)
  else ([replacement], none)

/-- The characters that end with this octet, and the sequence that is open after it. -/
def step : Option Pending → Octet → List Char × Option Pending
  | none, b => start b
  | some p, b =>
    if p.low ≤ b.val ∧ b.val ≤ p.high then
      let bits := 64 * p.bits + b.val % 64
      match p.more with
      | 0 => ([Char.ofNat bits], none)
      | more + 1 => ([], some ⟨bits, more, 0x80, 0xBF⟩)
    else
      (replacement :: (start b).1, (start b).2)

/-- An open sequence that nothing continues is ill formed. -/
def close : Option Pending → List Char
  | none => []
  | some _ => [replacement]

end Utf8

end UriTemplate.Text
