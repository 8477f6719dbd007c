import UriTemplate.Datum.Basic

/-! Variable names bound to data. -/

set_option autoImplicit false

namespace UriTemplate

abbrev Bindings (γ : Type := Char) := List (List Char × Datum γ)

/-- The last binding of a name counts, and a name without one is absent. -/
def Bindings.value {γ : Type} [Text.Element γ] (bindings : Bindings γ) (name : List Char) :
    Value γ :=
  match bindings.reverse.lookup name with
  | some datum => datum.toValue
  | none => .absent

end UriTemplate
