import UriTemplate.Expression.Basic
import UriTemplate.Value

/-! Expansion of one expression under an assignment of values to names. -/

set_option autoImplicit false

namespace UriTemplate

namespace Operator

/-- A text with the name of the variable before it, where the operator wants one. -/
def withName (op : Operator) (spec : VarSpec) (text : List Char) : List Char :=
  if op.isNamed then spec.name ++ '=' :: text else text

def writeString (op : Operator) (spec : VarSpec) (encoded : List Char) : List Char :=
  if op.isNamed ∧ encoded = [] then spec.name ++ op.ifEmpty else op.withName spec encoded

def expandString (op : Operator) (spec : VarSpec) (text : List Char) : List Char :=
  op.writeString spec (op.encode (spec.cut text))

/-- The members of a list or map: exploded they stand as they are between separators, otherwise
with commas between them behind one name. -/
def expandMembers (op : Operator) (spec : VarSpec) (exploded together : List (List Char)) :
    List Char :=
  if spec.exploded then [op.separator].intercalate exploded
  else op.withName spec ([','].intercalate together)

/-- What one variable contributes, which may be empty text, or `none` when it is left out. An
exploded item takes the name of the variable, an exploded pair its own key. -/
def expand (op : Operator) (spec : VarSpec) : Value → Option (List Char)
  | .absent => none
  | .scalar text => some (op.expandString spec text)
  | .list items =>
    if items = [] ∧ op.skipsEmptyList then none
    else
      some (op.expandMembers spec (items.map fun item => op.withName spec (op.encode item))
        (items.map op.encode))
  | .map pairs =>
    if pairs = [] ∧ op.skipsEmptyMap then none
    else
      some (op.expandMembers spec
        (pairs.map fun pair => op.encode pair.1 ++ '=' :: op.encode pair.2)
        (pairs.map fun pair => op.encode pair.1 ++ ',' :: op.encode pair.2))

/-- Nothing at all unless some variable contributes. -/
def assemble (op : Operator) : List (List Char) → List Char
  | [] => []
  | pieces => op.first ++ [op.separator].intercalate pieces

end Operator

namespace Expression

def contributions (σ : List Char → Value) (e : Expression) : List (List Char) :=
  e.specs.filterMap fun spec => e.operator.expand spec (σ spec.name)

def expand (σ : List Char → Value) (e : Expression) : List Char :=
  e.operator.assemble (e.contributions σ)

end Expression

end UriTemplate
