import UriTemplate.Decimal.Layout
import UriTemplate.Text.CodePoint
import UriTemplate.Value

/-! The data that a caller binds to variables, how it is written as text, and the value that it
becomes. Its texts are made of characters, which are Unicode scalar values, or of code points, where
a surrogate may stand alone. Text inside other data is quoted, and then it has characters only. -/

set_option autoImplicit false

namespace UriTemplate

inductive Datum (γ : Type := Char) where
  | nothing
  | truth (b : Bool)
  | integer (n : Int)
  | real (x : Float)
  | text (s : List γ)
  | octets (bs : List Text.Octet)
  | list (items : List (Datum γ))
  | tuple (items : List (Datum γ))
  | map (entries : List (Datum γ × Datum γ))
  | value (v : Value γ)

namespace Datum

open Text (Element)

variable {γ : Type} [Element γ]

/-- Numbers are written in full while their first digit stands between ten thousandths and the
sixteenth place before the point. -/
def number : Decimal.Layout := ⟨-4, 16, 2⟩

def commas (items : List (List Char)) : List Char :=
  [',', ' '].intercalate items

/-- A tuple of one item ends with a comma, which tells it from that item in brackets. -/
def tupleText : List (List Char) → List Char
  | [item] => '(' :: item ++ [',', ')']
  | items => '(' :: commas items ++ [')']

def valueText : Value γ → List Char
  | .absent => "Absent()".toList
  | .scalar s => "Scalar(value=".toList ++ Element.quote s ++ [')']
  | .list items => "ListValue(items=".toList ++ tupleText (items.map Element.quote) ++ [')']
  | .map pairs =>
    "MapValue(pairs=".toList ++
      tupleText (pairs.map fun (key, item) => tupleText [Element.quote key, Element.quote item]) ++
        [')']

mutual

/-- The text of a datum inside another one, where text is quoted. -/
def nested : Datum γ → List Char
  | .nothing => "None".toList
  | .truth true => "True".toList
  | .truth false => "False".toList
  | .integer n => (toString n).toList
  | .real x => number.writeBinary (.ofFloat x)
  | .text s => Element.quote s
  | .octets bs => Text.quoteOctets bs
  | .list items => '[' :: commas (nestedItems items) ++ [']']
  | .tuple items => tupleText (nestedItems items)
  | .map entries => '{' :: commas (nestedEntries entries) ++ ['}']
  | .value v => valueText v

def nestedItems : List (Datum γ) → List (List Char)
  | [] => []
  | item :: rest => nested item :: nestedItems rest

def nestedEntries : List (Datum γ × Datum γ) → List (List Char)
  | [] => []
  | (key, item) :: rest => (nested key ++ ':' :: ' ' :: nested item) :: nestedEntries rest

end

def toText : Datum γ → List γ
  | .text s => s
  | other => (nested other).map Element.ofChar

/-- Items and entries become text; any other datum that is not text, absent or a value already
becomes a scalar. -/
def toValue : Datum γ → Value γ
  | .nothing => .absent
  | .value v => v
  | .map entries => .map (entries.map fun (key, item) => (key.toText, item.toText))
  | .list items => .list (items.map toText)
  | .tuple items => .list (items.map toText)
  | other => .scalar other.toText

end Datum

end UriTemplate
