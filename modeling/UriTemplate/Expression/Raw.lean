import UriTemplate.Expression.Expansion
import UriTemplate.Text.CodePoint

/-! Expansion of values whose texts are made of code points. It fails at the first text with a
surrogate that comes to be encoded. What a limit cuts off is not encoded, nor is anything of a
variable that no specification names. -/

set_option autoImplicit false

namespace UriTemplate

namespace Percent

def encodeRaw (text : List CodePoint) : Except EncodingError (List Char) :=
  (CodePoint.characters List.length text).map encode

def sinceTriplet (before : List Char) : Nat :=
  ((tokens before).reverse.takeWhile Token.isChar).length

/-- What stands between triplets is encoded by itself, so places are counted from the last one. -/
def encodeReservedRaw (text : List CodePoint) : Except EncodingError (List Char) :=
  (CodePoint.characters sinceTriplet text).map encodeReserved

end Percent

namespace Operator

def encodeRaw (op : Operator) (text : List CodePoint) : Except EncodingError (List Char) :=
  if op.keepsReserved then Percent.encodeReservedRaw text else Percent.encodeRaw text

def encodePairRaw (op : Operator) (pair : List CodePoint × List CodePoint) :
    Except EncodingError (List Char × List Char) := do
  return (← op.encodeRaw pair.1, ← op.encodeRaw pair.2)

def expandRaw (op : Operator) (spec : VarSpec) :
    Value CodePoint → Except EncodingError (Option (List Char))
  | .absent => .ok none
  | .scalar text =>
    (op.encodeRaw (spec.cut text)).map fun encoded => some (op.writeString spec encoded)
  | .list items =>
    if items = [] ∧ op.skipsEmptyList then .ok none
    else
      (items.mapM op.encodeRaw).map fun encoded =>
        some (op.expandMembers spec (encoded.map (op.withName spec)) encoded)
  | .map pairs =>
    if pairs = [] ∧ op.skipsEmptyMap then .ok none
    else
      (pairs.mapM op.encodePairRaw).map fun encoded =>
        some (op.expandMembers spec (encoded.map fun pair => pair.1 ++ '=' :: pair.2)
          (encoded.map fun pair => pair.1 ++ ',' :: pair.2))

end Operator

namespace Expression

def expandRaw (σ : List Char → Value CodePoint) (e : Expression) :
    Except EncodingError (List Char) :=
  (e.specs.mapM fun spec => e.operator.expandRaw spec (σ spec.name)).map fun contributed =>
    e.operator.assemble (contributed.filterMap id)

end Expression

end UriTemplate
