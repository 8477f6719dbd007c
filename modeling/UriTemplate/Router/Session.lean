import UriTemplate.Router.Basic

/-! Runs of requests to a router. -/

set_option autoImplicit false

namespace UriTemplate.Router

inductive Request (ρ : Type) where
  | add (resource : Resource) (handler : Handler ρ)
  | remove (key : List Char)
  | clear
  | templates
  | resolve (uri : List Char)
  | handle (uri : List Char)
  | expand (key : List Char) (bindings : Bindings CodePoint)

inductive Answer (ρ : Type) where
  | done
  | templates (resources : Entries (List Char) Resource)
  | resolved (found : Option Resolution)
  | handled (answer : ρ)
  | expanded (uri : List Char)

structure Reply (ρ : Type) where
  answer : Except RequestError (Answer ρ)
  events : List Event
  router : Router ρ

variable {ρ : Type}

def step (router : Router ρ) : Request ρ → Reply ρ
  | .add resource handler =>
    let (router, events) := router.add resource handler
    ⟨.ok .done, events, router⟩
  | .remove key =>
    let (router, events) := router.remove key
    ⟨.ok .done, events, router⟩
  | .clear => ⟨.ok .done, [], router.clear⟩
  | .templates => ⟨.ok (.templates router.templates), [], router⟩
  | .resolve uri =>
    let (resolved, events) := router.resolve uri
    ⟨(resolved.map .resolved).mapError .template, events, router⟩
  | .handle uri =>
    let (handled, events) := router.handle uri
    ⟨handled.map .handled, events, router⟩
  | .expand key bindings => ⟨(router.expand key bindings).map .expanded, [], router⟩

def run (router : Router ρ) (requests : List (Request ρ)) : Router ρ :=
  requests.foldl (fun current request => (current.step request).router) router

theorem run_append (router : Router ρ) (first second : List (Request ρ)) :
    router.run (first ++ second) = (router.run first).run second := by
  simp [run, List.foldl_append]

end UriTemplate.Router
