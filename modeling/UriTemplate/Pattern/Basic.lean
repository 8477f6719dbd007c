import UriTemplate.Percent

/-! Patterns of a URI: fixed characters and captures in a row, and how they are written. -/

set_option autoImplicit false

namespace UriTemplate

/-- A capture of encoded text takes one or more unreserved characters and percent signs; a
capture of a line takes any characters but line feeds. -/
inductive Capture where
  | encoded
  | line
  deriving DecidableEq, Repr

namespace Capture

def accepts : Capture → Char → Bool
  | encoded, c => Percent.isUnreserved c || c == '%'
  | line, c => c != '\n'

def acceptsEmpty : Capture → Bool
  | encoded => false
  | line => true

def render : Capture → List Char
  | encoded =>
    ['(', '[', 'A', '-', 'Z', 'a', '-', 'z', '0', '-', '9', '%', '_', '.', '~', '-', ']', '+', ')']
  | line => ['(', '.', '*', ')']

end Capture

inductive Atom where
  | char (c : Char)
  | capture (kind : Capture)
  deriving DecidableEq, Repr

namespace Atom

def isSpecial (c : Char) : Bool :=
  ['(', ')', '[', ']', '{', '}', '?', '*', '+', '-', '|', '^', '$', '\\', '.', '&', '~', '#',
    ' ', '\t', '\n', '\r', '\x0b', '\x0c'].contains c

def render : Atom → List Char
  | char c => if isSpecial c then ['\\', c] else [c]
  | capture kind => kind.render

end Atom

structure Pattern where
  atoms : List Atom
  labels : List (List Char)
  deriving DecidableEq, Repr

def Pattern.join (patterns : List Pattern) : Pattern :=
  ⟨patterns.flatMap Pattern.atoms, patterns.flatMap Pattern.labels⟩

def Pattern.render (pattern : Pattern) : List Char :=
  pattern.atoms.flatMap Atom.render

end UriTemplate
