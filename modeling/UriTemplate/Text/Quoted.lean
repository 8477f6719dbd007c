import UriTemplate.Text.Hex
import UriTemplate.Text.Utf8
import UriTemplate.Text.Visible

/-! Text in quotation marks, on one line and in visible characters only. -/

set_option autoImplicit false

namespace UriTemplate.Text

def mark (text : List Char) : Char :=
  if text.contains '\'' && !text.contains '"' then '"' else '\''

/-- A character inside the marks; the code point of one that is not `shown` takes the shortest
of the three numeric forms. -/
def escape (shown : Char → Bool) (mark c : Char) : List Char :=
  if c = mark ∨ c = '\\' then ['\\', c]
  else if c = '\n' then ['\\', 'n']
  else if c = '\r' then ['\\', 'r']
  else if c = '\t' then ['\\', 't']
  else if shown c then [c]
  else if c.toNat < 0x100 then '\\' :: 'x' :: Hex.padded 2 c.toNat
  else if c.toNat < 0x10000 then '\\' :: 'u' :: Hex.padded 4 c.toNat
  else '\\' :: 'U' :: Hex.padded 8 c.toNat

def enclose (shown : Char → Bool) (text : List Char) : List Char :=
  mark text :: text.flatMap (escape shown (mark text)) ++ [mark text]

def quote (text : List Char) : List Char :=
  enclose isVisible text

def quoteOctets (octets : List Octet) : List Char :=
  'b' :: enclose (fun c => 0x20 ≤ c.toNat && c.toNat < 0x7F) (octets.map fun b => Char.ofNat b.val)

end UriTemplate.Text
