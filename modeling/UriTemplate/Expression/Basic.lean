import UriTemplate.Operator
import UriTemplate.VarSpec

/-! Expressions, an operator and the variables that it is applied to. -/

set_option autoImplicit false

namespace UriTemplate

structure Expression where
  operator : Operator
  specs : List VarSpec
  deriving DecidableEq, Repr

namespace Expression

def parse (body : List Char) : Except TemplateError Expression :=
  let (operator, specs) := Operator.split body
  if specs = [] then .error (.noVariables body)
  else ((specs.splitOn ',').mapM VarSpec.parse).map (⟨operator, ·⟩)

def render (e : Expression) : List Char :=
  e.operator.render ++ [','].intercalate (e.specs.map VarSpec.render)

def labels (e : Expression) : List (List Char) :=
  e.specs.map VarSpec.label

end Expression

end UriTemplate
