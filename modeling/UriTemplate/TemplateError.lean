import UriTemplate.Text.Quoted

/-! What can be wrong with a template. -/

set_option autoImplicit false

namespace UriTemplate

/-- A closing brace outside an expression, an opening one that is never closed, an opening one
inside an expression, or an expression with nothing in it. -/
inductive BraceFault where
  | unmatched
  | unclosed
  | nested
  | empty
  deriving DecidableEq, Repr

/-- A variable specification with both modifiers, with a prefix length that is no length, or with
a name that is no name. -/
inductive SpecFault where
  | bothModifiers
  | badLimit (position : Nat)
  | badName (name : List Char)
  deriving DecidableEq, Repr

inductive TemplateError where
  | brace (fault : BraceFault) (template : List Char) (position : Nat)
  | noVariables (body : List Char)
  | spec (fault : SpecFault) (text : List Char)
  deriving DecidableEq, Repr

def BraceFault.describe : BraceFault → String
  | .unmatched => "Unmatched '\x7d' at position "
  | .unclosed => "Unclosed expression starting at position "
  | .nested => "Nested '\x7b' at position "
  | .empty => "Empty expression at position "

def SpecFault.describe (text : List Char) : SpecFault → String
  | .bothModifiers =>
    "Variable " ++ String.ofList (Text.quote text) ++ " combines prefix and explode modifiers"
  | .badLimit _ =>
    "Invalid prefix length in " ++ String.ofList (Text.quote text) ++ ": expected 1-9999"
  | .badName name => "Invalid variable name " ++ String.ofList (Text.quote name)

def TemplateError.message : TemplateError → String
  | .brace fault _ position => fault.describe ++ toString position
  | .noVariables body => "Expression \x7b" ++ String.ofList body ++ "\x7d has no variables"
  | .spec fault text => fault.describe text

def TemplateError.subject : TemplateError → List Char
  | .brace _ template _ => template
  | .noVariables body => body
  | .spec _ text => text

def TemplateError.position? : TemplateError → Option Nat
  | .brace _ _ position => some position
  | .noVariables _ => none
  | .spec .bothModifiers _ => none
  | .spec (.badLimit position) _ => some position
  | .spec (.badName _) _ => some 0

end UriTemplate
