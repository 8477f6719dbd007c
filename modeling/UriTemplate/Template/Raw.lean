import UriTemplate.Expression.Raw
import UriTemplate.Template.Basic

/-! Expansion of templates under bindings whose texts are made of code points. Pieces are expanded
in the order of the text, so a fault of the template counts only if everything before it could be
encoded. -/

set_option autoImplicit false

namespace UriTemplate

inductive ExpansionError where
  | template (error : TemplateError)
  | encoding (error : EncodingError)
  deriving DecidableEq, Repr

def Piece.expandRaw (σ : List Char → Value CodePoint) : Piece → Except ExpansionError (List Char)
  | .plain text => .ok text
  | .braced body _ =>
    match Expression.parse body with
    | .error e => .error (.template e)
    | .ok e => (e.expandRaw σ).mapError .encoding

namespace Template

def expandRaw (template : Template) (bindings : Bindings CodePoint) :
    Except ExpansionError (List Char) :=
  let scanned := scan template.text
  let fault := (scanned.error? template.text).map .template
  (Scan.collect (Piece.expandRaw bindings.value) fault scanned.pieces).map List.flatten

end Template

end UriTemplate
