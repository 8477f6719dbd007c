import UriTemplate.Braces
import UriTemplate.Datum.Bindings
import UriTemplate.Expression.Expansion
import UriTemplate.Pattern.Matching

/-! URI templates: their parts, and the expansion and extraction that go by the parts. -/

set_option autoImplicit false

namespace UriTemplate

inductive Part where
  | literal (text : List Char)
  | expression (e : Expression)
  deriving DecidableEq, Repr

namespace Part

def ofPiece : Piece → Except TemplateError Part
  | .plain text => .ok (.literal text)
  | .braced body _ => (Expression.parse body).map .expression

def labels : Part → List (List Char)
  | .literal _ => []
  | .expression e => e.labels

def expand (σ : List Char → Value) : Part → List Char
  | .literal text => text
  | .expression e => e.expand σ

/-- Text matches itself. An expression matches one capture for each variable, with the separator
between them; the captures of simple expressions take encoded text only. -/
def atoms : Part → List Atom
  | .literal text => text.map .char
  | .expression e =>
    [.char e.operator.separator].intercalate
      (e.specs.map fun _ => [.capture (if e.operator = .simple then .encoded else .line)])

end Part

namespace Piece

/-! What a piece is to the labels, the expansion and the pattern of a template. The body of an
expression is read anew for each of them. -/

def labels : Piece → Except TemplateError (List (List Char))
  | .plain _ => .ok []
  | .braced body _ => (Expression.parse body).map Expression.labels

def expand (σ : List Char → Value) : Piece → Except TemplateError (List Char)
  | .plain text => .ok text
  | .braced body _ => (Expression.parse body).map (Expression.expand σ)

def pattern : Piece → Except TemplateError Pattern
  | .plain text => .ok ⟨text.map .char, []⟩
  | .braced body _ => (Expression.parse body).map fun e => ⟨(Part.expression e).atoms, e.labels⟩

theorem labels_eq (piece : Piece) : piece.labels = (Part.ofPiece piece).map Part.labels := by
  cases piece with
  | plain text => rfl
  | braced body position => rw [labels, Part.ofPiece]; cases Expression.parse body <;> rfl

theorem expand_eq (σ : List Char → Value) (piece : Piece) :
    piece.expand σ = (Part.ofPiece piece).map (Part.expand σ) := by
  cases piece with
  | plain text => rfl
  | braced body position => rw [expand, Part.ofPiece]; cases Expression.parse body <;> rfl

theorem pattern_eq (piece : Piece) :
    piece.pattern = (Part.ofPiece piece).map fun part => ⟨part.atoms, part.labels⟩ := by
  cases piece with
  | plain text => rfl
  | braced body position => rw [pattern, Part.ofPiece]; cases Expression.parse body <;> rfl

end Piece

namespace Scan

variable {α β ε : Type}

/-- Reads pieces in order, and comes to the fault that ended the scan when it has read them all.
What goes wrong first is the error. -/
def collect (read : Piece → Except ε α) (fault : Option ε) : List Piece → Except ε (List α)
  | [] =>
    match fault with
    | none => .ok []
    | some e => .error e
  | piece :: rest =>
    match read piece with
    | .error e => .error e
    | .ok first => (collect read fault rest).map (first :: ·)

theorem collect_map {read : Piece → Except ε α} {other : Piece → Except ε β} {f : α → β}
    (same : ∀ piece, other piece = (read piece).map f) (fault : Option ε) (pieces : List Piece) :
    collect other fault pieces = (collect read fault pieces).map (List.map f) := by
  induction pieces with
  | nil => cases fault <;> rfl
  | cons piece rest ih =>
    simp only [collect, same, ih]
    cases read piece with
    | error e => rfl
    | ok first => cases collect read fault rest <;> rfl

end Scan

/-- Any text is a template; whether it is well formed shows when its pieces are read. -/
structure Template where
  text : List Char
  deriving DecidableEq, Repr

namespace Template

/-- Reads a template piece by piece. Of several faults the first in the text is the error: those of
expressions lie before the one that ends the scan. -/
def collect {α : Type} (template : Template) (read : Piece → Except TemplateError α) :
    Except TemplateError (List α) :=
  let scanned := scan template.text
  Scan.collect read (scanned.error? template.text) scanned.pieces

def parts (template : Template) : Except TemplateError (List Part) :=
  template.collect Part.ofPiece

def bodies (template : Template) : Except TemplateError (List (List Char × Nat)) :=
  let scanned := scan template.text
  match scanned.error? template.text with
  | some e => .error e
  | none => .ok (scanned.pieces.filterMap Piece.body?)

def labels (template : Template) : Except TemplateError (List (List Char)) :=
  (template.collect Piece.labels).map List.flatten

def expandWith (template : Template) (σ : List Char → Value) : Except TemplateError (List Char) :=
  (template.collect (Piece.expand σ)).map List.flatten

def expand (template : Template) (bindings : Bindings) : Except TemplateError (List Char) :=
  template.expandWith bindings.value

def pattern (template : Template) : Except TemplateError Pattern :=
  (template.collect Piece.pattern).map Pattern.join

def extract (template : Template) (uri : List Char) : Except TemplateError (Option Extraction) :=
  template.pattern.map (·.extract uri)

def isMatch (template : Template) (uri : List Char) : Except TemplateError Bool :=
  (template.extract uri).map Option.isSome

section
variable (template : Template)

theorem collect_eq {α : Type} {read : Piece → Except TemplateError α} {f : Part → α}
    (same : ∀ piece, read piece = (Part.ofPiece piece).map f) :
    template.collect read = template.parts.map (List.map f) :=
  Scan.collect_map same _ _

/-! Labels, expansion and pattern by the parts. -/

theorem labels_eq : template.labels = template.parts.map (·.flatMap Part.labels) := by
  rw [labels, template.collect_eq Piece.labels_eq]
  cases template.parts <;> rfl

theorem expandWith_eq (σ : List Char → Value) :
    template.expandWith σ = template.parts.map (·.flatMap (Part.expand σ)) := by
  rw [expandWith, template.collect_eq (Piece.expand_eq σ)]
  cases template.parts <;> rfl

theorem pattern_eq :
    template.pattern =
      template.parts.map fun parts => ⟨parts.flatMap Part.atoms, parts.flatMap Part.labels⟩ := by
  rw [pattern, template.collect_eq Piece.pattern_eq]
  cases template.parts with
  | error e => rfl
  | ok parts => simp only [Except.map, Pattern.join, List.flatMap_map]

theorem expand_of_parts {parts : List Part} (wellFormed : template.parts = .ok parts)
    (bindings : Bindings) :
    template.expand bindings = .ok (parts.flatMap (Part.expand bindings.value)) := by
  rw [expand, expandWith_eq, wellFormed]
  rfl

end

-- The scan recurses on a rest that is proved shorter; closed templates are evaluated by this.
theorem ok_of_toOption {α : Type} {read : Except TemplateError α} {a : α}
    (found : read.toOption = some a) : read = .ok a := by
  cases read with
  | error e => cases found
  | ok b =>
    cases found
    rfl

def render (template : Template) : List Char :=
  "URITemplate(".toList ++ Text.quote template.text ++ [')']

def countDistinct (templates : List Template) : Nat :=
  templates.eraseDups.length

end Template

end UriTemplate
