import UriTemplate.Percent

/-! The eight forms of expressions and the rules in which they differ. -/

set_option autoImplicit false

namespace UriTemplate

inductive Operator where
  | simple
  | reserved
  | fragment
  | label
  | path
  | pathParameter
  | query
  | continuation
  deriving DecidableEq, Repr

namespace Operator

def all : List Operator :=
  [simple, reserved, fragment, label, path, pathParameter, query, continuation]

def name : Operator → String
  | simple => "simple"
  | reserved => "reserved"
  | fragment => "fragment"
  | label => "label"
  | path => "path"
  | pathParameter => "path-param"
  | query => "query"
  | continuation => "query-continuation"

def char? : Operator → Option Char
  | simple => none
  | reserved => some '+'
  | fragment => some '#'
  | label => some '.'
  | path => some '/'
  | pathParameter => some ';'
  | query => some '?'
  | continuation => some '&'

def ofChar? : Char → Option Operator
  | '+' => some reserved
  | '#' => some fragment
  | '.' => some label
  | '/' => some path
  | ';' => some pathParameter
  | '?' => some query
  | '&' => some continuation
  | _ => none

theorem ofChar?_eq_some {c : Char} {op : Operator} : ofChar? c = some op ↔ op.char? = some c := by
  constructor
  · intro h
    unfold ofChar? at h
    split at h <;> simp_all <;> subst h <;> rfl
  · intro h
    cases op <;> simp only [char?, Option.some.injEq, reduceCtorEq] at h <;> subst h <;> rfl

def lookup : List Char → Option Operator
  | [c] => ofChar? c
  | _ => none

/-- What an expansion that is not empty begins with. -/
def first : Operator → List Char
  | simple | reserved => []
  | fragment => ['#']
  | label => ['.']
  | path => ['/']
  | pathParameter => [';']
  | query => ['?']
  | continuation => ['&']

def separator : Operator → Char
  | simple | reserved | fragment => ','
  | label => '.'
  | path => '/'
  | pathParameter => ';'
  | query | continuation => '&'

def keepsReserved : Operator → Bool
  | reserved | fragment => true
  | _ => false

def isNamed : Operator → Bool
  | pathParameter | query | continuation => true
  | _ => false

/-- What follows the name where the value is empty. -/
def ifEmpty : Operator → List Char
  | pathParameter => []
  | _ => ['=']

def skipsEmptyList : Operator → Bool
  | label | path | query => true
  | _ => false

def skipsEmptyMap : Operator → Bool
  | query => true
  | _ => false

def encode (op : Operator) (text : List Char) : List Char :=
  if op.keepsReserved then Percent.encodeReserved text else Percent.encode text

def split : List Char → Operator × List Char
  | [] => (simple, [])
  | c :: rest =>
    match ofChar? c with
    | some op => (op, rest)
    | none => (simple, c :: rest)

def render (op : Operator) : List Char :=
  op.char?.toList

theorem render_split (body : List Char) : (split body).1.render ++ (split body).2 = body := by
  cases body with
  | nil => rfl
  | cons c rest =>
    cases h : ofChar? c with
    | none => simp [split, h, render, char?]
    | some op => simp [split, h, render, ofChar?_eq_some.mp h]

end Operator

end UriTemplate
