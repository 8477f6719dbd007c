import UriTemplate.Template.Matcher

/-! Runs of requests to one template. Each reply comes with the events of its own step. The texts
that are bound in a run are made of characters. -/

set_option autoImplicit false

namespace UriTemplate.Matcher

inductive Request where
  | text
  | show
  | labels
  | expand (bindings : Bindings)
  | extract (uri : List Char)
  | isMatch (uri : List Char)
  | equals (other : Template)
  | equalsText (other : List Char)
  | countDistinct (others : List Template)
  | assign

inductive Answer where
  | text (text : List Char)
  | texts (texts : List (List Char))
  | extraction (values : Option Extraction)
  | truth (b : Bool)
  | count (n : Nat)
  | refused
  deriving DecidableEq, Repr

def plain (m : Matcher) (answer : Except TemplateError Answer) : Reply Answer :=
  ⟨answer, [], m⟩

def Reply.map {α β : Type} (f : α → β) (reply : Reply α) : Reply β :=
  ⟨reply.answer.map f, reply.events, reply.matcher⟩

/-- A template is no text, whatever its own text is, and its text cannot be changed. -/
def step (m : Matcher) : Request → Reply Answer
  | .text => m.plain (.ok (.text m.template.text))
  | .show => m.plain (.ok (.text m.template.render))
  | .labels => m.plain (m.template.labels.map .texts)
  | .expand bindings => m.plain ((m.template.expand bindings).map .text)
  | .extract uri => (m.extract uri).map .extraction
  | .isMatch uri => (m.isMatch uri).map .truth
  | .equals other => m.plain (.ok (.truth (m.template = other)))
  | .equalsText _ => m.plain (.ok (.truth false))
  | .countDistinct others => m.plain (.ok (.count (Template.countDistinct (m.template :: others))))
  | .assign => m.plain (.ok .refused)

def after (m : Matcher) (requests : List Request) : Matcher :=
  requests.foldl (fun current request => (current.step request).matcher) m

def run (m : Matcher) : List Request → List (Reply Answer)
  | [] => []
  | request :: rest =>
    let reply := m.step request
    reply :: run reply.matcher rest

end UriTemplate.Matcher
