import UriTemplate.Text.Hex
import UriTemplate.Text.Utf8

/-! Percent-encoding of text into URI characters, and decoding. Text is read as tokens, a
triplet or a single character, and both directions work token by token. The characters of a text are
Unicode scalar values, so encoding never fails here. For text in which surrogates stand alone it
would, and such text is encoded elsewhere, by code points. -/

set_option autoImplicit false

namespace UriTemplate.Percent

open Text

inductive Token where
  | triplet (high low : Hex.Digit)
  | char (c : Char)
  deriving DecidableEq

def Token.render : Token → List Char
  | .triplet high low => ['%', high.char, low.char]
  | .char c => [c]

def Token.isChar : Token → Bool
  | .triplet _ _ => false
  | .char _ => true

/-- The triplets of a text, found from the left, and the characters between them. -/
def tokens : List Char → List Token
  | [] => []
  | '%' :: h :: l :: rest =>
    match Hex.Digit.ofChar? h, Hex.Digit.ofChar? l with
    | some high, some low => .triplet high low :: tokens rest
    | _, _ => .char '%' :: tokens (h :: l :: rest)
  | c :: rest => .char c :: tokens rest

theorem render_tokens (text : List Char) : (tokens text).flatMap Token.render = text := by
  fun_induction tokens text with
  | case1 => rfl
  | case2 h l rest high low hh hl ih =>
    simp [Token.render, ih, Hex.Digit.char_of_ofChar? hh, Hex.Digit.char_of_ofChar? hl]
  | case3 h l rest _ ih => simp [Token.render, ih]
  | case4 c rest _ ih => simp [Token.render, ih]

def isUnreserved (c : Char) : Bool :=
  c.isAlphanum || c == '-' || c == '.' || c == '_' || c == '~'

def isReserved (c : Char) : Bool :=
  [':', '/', '?', '#', '[', ']', '@', '!', '$', '&', '\'', '(', ')', '*', '+', ',', ';',
    '='].contains c

def octet (high low : Hex.Digit) : Octet :=
  ⟨16 * high.value.val + low.value.val, by omega⟩

def triplet (b : Octet) : Token :=
  .triplet (.ofValue ⟨b.val / 16, by omega⟩) (.ofValue ⟨b.val % 16, by omega⟩)

theorem octet_ofValue (b : Octet) :
    octet (.ofValue ⟨b.val / 16, by omega⟩) (.ofValue ⟨b.val % 16, by omega⟩) = b := by
  apply Fin.ext
  simp only [octet, Hex.Digit.value_ofValue]
  omega

def encodeChar (c : Char) : List Char :=
  (Utf8.encode c).flatMap fun b => (triplet b).render

def encode (text : List Char) : List Char :=
  text.flatMap fun c => if isUnreserved c then [c] else encodeChar c

/-- Reserved characters and whole triplets stay as well, so that URI text is left alone. -/
def encodeReserved (text : List Char) : List Char :=
  (tokens text).flatMap fun
    | .triplet high low => Token.render (.triplet high low)
    | .char c => if isUnreserved c || isReserved c then [c] else encodeChar c

/-- Reads tokens after an open sequence of octets. Triplets stand for octets, a character for
itself, and a character ends the sequence before it. -/
def decodeTokens : Option Utf8.Pending → List Token → List Char
  | pending, [] => Utf8.close pending
  | pending, .triplet high low :: rest =>
    (Utf8.step pending (octet high low)).1 ++ decodeTokens (Utf8.step pending (octet high low)).2 rest
  | pending, .char c :: rest => Utf8.close pending ++ c :: decodeTokens none rest

def decode (text : List Char) : List Char :=
  decodeTokens none (tokens text)

end UriTemplate.Percent
