import UriTemplate.Template.Basic

/-! Templates that keep their pattern once it is made, and what they report. -/

set_option autoImplicit false

namespace UriTemplate

/-- A template with the pattern that an earlier extraction left. -/
structure Matcher where
  template : Template
  pattern : Option Pattern
  deriving DecidableEq, Repr

namespace Matcher

inductive Event where
  | compiled (template source : List Char)
  | mismatch (uri source : List Char)
  deriving DecidableEq, Repr

def Event.message : Event → String
  | .compiled template source =>
    "Compiled extraction pattern " ++ String.ofList (Text.quote source) ++ " for " ++
      String.ofList (Text.quote template)
  | .mismatch uri source =>
    "URI " ++ String.ofList (Text.quote uri) ++ " does not match " ++
      String.ofList (Text.quote source)

structure Reply (α : Type) where
  answer : Except TemplateError α
  events : List Event
  matcher : Matcher

def ofTemplate (template : Template) : Matcher :=
  ⟨template, none⟩

/-- The pattern, kept from the first time that it can be made. -/
def compile (m : Matcher) : Reply Pattern :=
  match m.pattern with
  | some pattern => ⟨.ok pattern, [], m⟩
  | none =>
    match m.template.pattern with
    | .ok pattern =>
      ⟨.ok pattern, [.compiled m.template.text pattern.render], ⟨m.template, some pattern⟩⟩
    | .error e => ⟨.error e, [], m⟩

def extract (m : Matcher) (uri : List Char) : Reply (Option Extraction) :=
  let compiled := m.compile
  match compiled.answer with
  | .error e => ⟨.error e, compiled.events, compiled.matcher⟩
  | .ok pattern =>
    match pattern.extract uri with
    | some values => ⟨.ok (some values), compiled.events, compiled.matcher⟩
    | none =>
      ⟨.ok none, compiled.events ++ [.mismatch uri pattern.render], compiled.matcher⟩

def isMatch (m : Matcher) (uri : List Char) : Reply Bool :=
  let extracted := m.extract uri
  ⟨extracted.answer.map Option.isSome, extracted.events, extracted.matcher⟩

end Matcher

end UriTemplate
