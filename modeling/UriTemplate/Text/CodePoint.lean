import UriTemplate.Text.Quoted

/-! Texts by code points. A character is a Unicode scalar value, so a row of characters has an
encoding in octets. The text that a caller binds to a variable may also hold surrogates that stand
alone. They have no encoding, and the first row of them is what encoding fails with. -/

set_option autoImplicit false

namespace UriTemplate

/-- Surrogates are counted from the first of them, U+D800. -/
inductive CodePoint where
  | char (c : Char)
  | surrogate (n : Fin 0x800)
  deriving DecidableEq, Repr

/-- Surrogates in a row: the first of them, its place, and how many come after it. -/
structure EncodingError where
  first : Fin 0x800
  position : Nat
  more : Nat
  deriving DecidableEq, Repr

namespace CodePoint

def char? : CodePoint → Option Char
  | .char c => some c
  | .surrogate _ => none

def isSurrogate : CodePoint → Bool
  | .char _ => false
  | .surrogate _ => true

def escapeSurrogate (n : Fin 0x800) : List Char :=
  '\\' :: 'u' :: Text.Hex.padded 4 (0xD800 + n.val)

def escape (mark : Char) : CodePoint → List Char
  | .char c => Text.escape Text.isVisible mark c
  | .surrogate n => escapeSurrogate n

/-- Quoted text is made of characters only: a surrogate is written by its number. -/
def quote (text : List CodePoint) : List Char :=
  let mark := Text.mark (text.filterMap char?)
  mark :: text.flatMap (escape mark) ++ [mark]

def split : List CodePoint → List Char × Option (Fin 0x800 × List CodePoint)
  | [] => ([], none)
  | .char c :: rest => (c :: (split rest).1, (split rest).2)
  | .surrogate n :: rest => ([], some (n, rest))

/-- The characters of a text that has no surrogates. Where one has, `place` tells the place of the
first from the characters before it. -/
def characters (place : List Char → Nat) (text : List CodePoint) :
    Except EncodingError (List Char) :=
  match split text with
  | (chars, none) => .ok chars
  | (before, some (first, rest)) =>
    .error ⟨first, place before, (rest.takeWhile isSurrogate).length⟩

end CodePoint

def EncodingError.message (e : EncodingError) : String :=
  let place :=
    if e.more = 0 then
      " '" ++ String.ofList (CodePoint.escapeSurrogate e.first) ++ "' in position " ++
        toString e.position
    else "s in position " ++ toString e.position ++ "-" ++ toString (e.position + e.more)
  "'utf-8' codec can't encode character" ++ place ++ ": surrogates not allowed"

/-- What the text of data is made of: characters alone, or any code points. -/
class Text.Element (γ : Type) where
  ofChar : Char → γ
  quote : List γ → List Char

instance : Text.Element Char := ⟨id, Text.quote⟩

instance : Text.Element CodePoint := ⟨.char, CodePoint.quote⟩

end UriTemplate
