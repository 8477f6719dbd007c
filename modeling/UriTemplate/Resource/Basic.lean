import UriTemplate.Document
import UriTemplate.Template.Raw

/-! Resources: a template for their URIs, and what is said about them. -/

set_option autoImplicit false

namespace UriTemplate

structure Resource where
  template : Template
  name : String
  title : Option String
  description : Option String
  mimeType : Option String
  metadata : Option (List (String × Document))

namespace Resource

def expand (r : Resource) (bindings : Bindings CodePoint) : Except ExpansionError (List Char) :=
  r.template.expandRaw bindings

def agrees (r s : Resource) : Bool :=
  r.template = s.template && r.name = s.name && r.title = s.title &&
    r.description = s.description && r.mimeType = s.mimeType &&
    (match r.metadata, s.metadata with
      | none, none => true
      | some fields, some others => (Document.object fields).agrees (.object others)
      | _, _ => false)

end Resource

inductive FaultKind where
  | missing
  | notText
  | notObject
  | notResource
  | notTemplate (kind : String)
  | badTemplate (error : TemplateError)
  | frozen

/-- A fault and the key under which it was found, if under one. -/
structure Fault where
  location : List String
  kind : FaultKind

namespace Fault

def code (fault : Fault) : String :=
  match fault.kind with
  | .missing => "missing"
  | .notText => "string_type"
  | .notObject => "dict_type"
  | .notResource => "model_type"
  | .notTemplate _ | .badTemplate _ => "value_error"
  | .frozen => "frozen_instance"

def message (fault : Fault) : String :=
  match fault.kind with
  | .missing => "Field required"
  | .notText => "Input should be a valid string"
  | .notObject => "Input should be a valid dictionary"
  | .notResource => "Input should be a valid dictionary or instance of ResourceTemplate"
  | .notTemplate kind => "Value error, Expected a URI template string, got " ++ kind
  | .badTemplate error => "Value error, " ++ error.message
  | .frozen => "Instance is frozen"

end Fault

/-- A result, or all that stands against it. -/
abbrev Checked (α : Type) := Except (List Fault) α

namespace Checked

variable {α β : Type}

def fault (key : String) (kind : FaultKind) : Checked α :=
  .error [⟨[key], kind⟩]

def both : Checked α → Checked β → Checked (α × β)
  | .ok a, .ok b => .ok (a, b)
  | .ok _, .error faults => .error faults
  | .error faults, .ok _ => .error faults
  | .error faults, .error more => .error (faults ++ more)

end Checked

def Resource.assign (_ : Resource) (field : String) (_ : Document) : Checked Resource :=
  Checked.fault field .frozen

end UriTemplate
