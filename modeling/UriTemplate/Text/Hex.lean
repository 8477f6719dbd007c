/-! Hexadecimal digits, read in either case and written in a chosen one. -/

set_option autoImplicit false

namespace UriTemplate.Text.Hex

def value? : Char → Option (Fin 16)
  | '0' => some 0
  | '1' => some 1
  | '2' => some 2
  | '3' => some 3
  | '4' => some 4
  | '5' => some 5
  | '6' => some 6
  | '7' => some 7
  | '8' => some 8
  | '9' => some 9
  | 'a' | 'A' => some 10
  | 'b' | 'B' => some 11
  | 'c' | 'C' => some 12
  | 'd' | 'D' => some 13
  | 'e' | 'E' => some 14
  | 'f' | 'F' => some 15
  | _ => none

def upper (d : Fin 16) : Char :=
  if d.val < 10 then Char.ofNat (48 + d.val) else Char.ofNat (55 + d.val)

def lower (d : Fin 16) : Char :=
  if d.val < 10 then Char.ofNat (48 + d.val) else Char.ofNat (87 + d.val)

theorem value?_upper (d : Fin 16) : value? (upper d) = some d := by
  revert d; decide

structure Digit where
  char : Char
  isHex : (value? char).isSome

instance : DecidableEq Digit := fun a b =>
  decidable_of_iff (a.char = b.char) (by cases a; cases b; simp)

def Digit.value (d : Digit) : Fin 16 :=
  (value? d.char).get d.isHex

def Digit.ofChar? (c : Char) : Option Digit :=
  if h : (value? c).isSome then some ⟨c, h⟩ else none

def Digit.ofValue (d : Fin 16) : Digit :=
  ⟨upper d, by simp [value?_upper]⟩

theorem Digit.value_ofValue (d : Fin 16) : (ofValue d).value = d := by
  simp [ofValue, value, value?_upper]

theorem Digit.ofChar?_char (d : Digit) : ofChar? d.char = some d := by
  simp [ofChar?, d.isHex]

theorem Digit.char_of_ofChar? {c : Char} {d : Digit} (h : ofChar? c = some d) : d.char = c := by
  unfold ofChar? at h
  split at h
  · cases h; rfl
  · cases h

def padded : Nat → Nat → List Char
  | 0, _ => []
  | width + 1, n => padded width (n / 16) ++ [lower ⟨n % 16, Nat.mod_lt _ (by decide)⟩]

end UriTemplate.Text.Hex
