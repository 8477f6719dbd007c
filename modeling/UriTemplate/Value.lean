/-! The values of template variables, in the four shapes that expansion tells apart. -/

set_option autoImplicit false

namespace UriTemplate

/-- An absent value contributes nothing to an expansion. The pairs of a map keep their order, and
a key may occur more than once. The texts are made of characters unless something else is said. -/
inductive Value (γ : Type := Char) where
  | absent
  | scalar (text : List γ)
  | list (items : List (List γ))
  | map (pairs : List (List γ × List γ))
  deriving DecidableEq, Repr

end UriTemplate
