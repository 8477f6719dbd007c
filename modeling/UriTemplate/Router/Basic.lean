import UriTemplate.Resource.Wire

/-! Routers: resources registered with handlers, and the dispatch of URIs to the first resource
whose template they match. Keys and URIs are made of characters; what is bound for an expansion is
made of any code points. -/

set_option autoImplicit false

namespace UriTemplate

/-- What a request can be refused for: a key that is not there, or what a handler reports under a
name of its own. -/
inductive Failure where
  | missing (key : Option (List Char))
  | reported (kind : String) (detail : Option (List Char))
  deriving DecidableEq, Repr

/-- A missing key is quoted, a report is given as it is. -/
def Failure.message : Failure → List Char
  | .missing key => (key.map Text.quote).getD []
  | .reported _ detail => detail.getD []

abbrev Handler (ρ : Type) := List Char → Extraction → Except Failure ρ

/-- The resources and their handlers, each by the text of its template, in the order in which they
are tried. -/
structure Router (ρ : Type) where
  templates : Entries (List Char) Resource
  handlers : Entries (List Char) (Handler ρ)

structure Resolution where
  resource : Resource
  uri : List Char
  values : Extraction

inductive RequestError where
  | failure (failure : Failure)
  | template (error : TemplateError)
  | encoding (error : EncodingError)
  deriving DecidableEq, Repr

def RequestError.ofExpansion : ExpansionError → RequestError
  | .template error => .template error
  | .encoding error => .encoding error

inductive Level where
  | debug
  | warning
  deriving DecidableEq, Repr

namespace Router

inductive Event where
  | added (key : List Char)
  | removed (key : List Char)
  | resolved (uri key : List Char)
  | handlerFailed (uri reason : List Char)
  deriving DecidableEq, Repr

def Event.level : Event → Level
  | .handlerFailed _ _ => .warning
  | _ => .debug

def Event.message : Event → String
  | .added key => "Added template " ++ String.ofList key
  | .removed key => "Removed template " ++ String.ofList key
  | .resolved uri key => "Resolved " ++ String.ofList uri ++ " to template " ++ String.ofList key
  | .handlerFailed uri reason =>
    "Handler for " ++ String.ofList uri ++ " raised: " ++ String.ofList reason

variable {ρ : Type}

def empty : Router ρ := ⟨[], []⟩

def add (router : Router ρ) (resource : Resource) (handler : Handler ρ) : Router ρ × List Event :=
  let key := resource.template.text
  (⟨router.templates.put key resource, router.handlers.put key handler⟩, [.added key])

def remove (router : Router ρ) (key : List Char) : Router ρ × List Event :=
  (⟨router.templates.erase key, router.handlers.erase key⟩,
    if (router.templates.lookup key).isSome then [.removed key] else [])

def clear (_ : Router ρ) : Router ρ := empty

/-- The first of some resources whose template matches, with the key it stands under. -/
def firstMatch (uri : List Char) :
    Entries (List Char) Resource → Except TemplateError (Option (List Char × Resolution))
  | [] => .ok none
  | (key, resource) :: rest =>
    match resource.template.extract uri with
    | .error e => .error e
    | .ok (some values) => .ok (some (key, ⟨resource, uri, values⟩))
    | .ok none => firstMatch uri rest

def resolve (router : Router ρ) (uri : List Char) :
    Except TemplateError (Option Resolution) × List Event :=
  match firstMatch uri router.templates with
  | .error e => (.error e, [])
  | .ok none => (.ok none, [])
  | .ok (some (key, found)) => (.ok (some found), [.resolved uri key])

/-- Runs the handler of the first match once. It is looked up by the text of the template. What it
means to run a handler is left to `run`, which may do more than give its outcome. -/
def handleWith {m : Type → Type} [Monad m]
    (run : Handler ρ → List Char → Extraction → m (Except Failure ρ)) (router : Router ρ)
    (uri : List Char) : m (Except RequestError ρ × List Event) :=
  let (resolved, events) := router.resolve uri
  match resolved with
  | .error e => pure (.error (.template e), events)
  | .ok none =>
    pure (.error (.failure (.missing (some ("Unknown resource: ".toList ++ uri)))), events)
  | .ok (some found) =>
    let key := found.resource.template.text
    match router.handlers.lookup key with
    | none => pure (.error (.failure (.missing (some key))), events)
    | some handler => do
      match ← run handler uri found.values with
      | .ok answer => pure (.ok answer, events)
      | .error failure =>
        pure (.error (.failure failure), events ++ [.handlerFailed uri failure.message])

def handle (router : Router ρ) (uri : List Char) : Except RequestError ρ × List Event :=
  Id.run (router.handleWith (fun handler uri values => pure (handler uri values)) uri)

def expand (router : Router ρ) (key : List Char) (bindings : Bindings CodePoint) :
    Except RequestError (List Char) :=
  match router.templates.lookup key with
  | none => .error (.failure (.missing (some ("Unknown template: ".toList ++ key))))
  | some resource => (resource.expand bindings).mapError .ofExpansion

end Router

end UriTemplate
