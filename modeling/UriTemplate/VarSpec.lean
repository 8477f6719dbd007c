import UriTemplate.TemplateError
import UriTemplate.Percent

/-! Variable specifications, `name`, `name:N` and `name*`: how they are read and written. -/

set_option autoImplicit false

namespace UriTemplate

/-- A variable with its modifiers: `limit` cuts a string value to its first characters, or, when it
is negative, leaves that many off its end; `exploded` spreads the members of a list or map. A
specification that is read from text has a positive limit or none. -/
structure VarSpec where
  name : List Char
  limit : Option Int
  exploded : Bool
  deriving DecidableEq, Repr

namespace VarSpec

def isNameToken : Percent.Token → Bool
  | .triplet _ _ => true
  | .char c => c.isAlphanum || c == '_'

/-- A name is made of runs of name characters, none of them empty, with dots between. -/
def isName (text : List Char) : Bool :=
  ((Percent.tokens text).splitOn (.char '.')).all fun run => !run.isEmpty && run.all isNameToken

def readLimit? : List Char → Option Nat
  | [] => none
  | c :: rest =>
    if c.isDigit && c != '0' && rest.length ≤ 3 && rest.all Char.isDigit then
      some (Nat.ofDigitChars 10 (c :: rest) 0)
    else none

def named (text name : List Char) (limit : Option Int) (exploded : Bool) :
    Except TemplateError VarSpec :=
  if isName name then .ok ⟨name, limit, exploded⟩ else .error (.spec (.badName name) text)

/-- A star at the end is the explode modifier; without it the first colon begins the prefix
length. -/
def parse (text : List Char) : Except TemplateError VarSpec :=
  if text.getLast? = some '*' then
    if ':' ∈ text then .error (.spec .bothModifiers text)
    else named text text.dropLast none true
  else
    let name := text.takeWhile (· ≠ ':')
    match text.dropWhile (· ≠ ':') with
    | [] => named text text none false
    | _ :: digits =>
      match readLimit? digits with
      | none => .error (.spec (.badLimit (name.length + 1)) text)
      | some limit => named text name (some limit) false

def cut {γ : Type} (spec : VarSpec) (text : List γ) : List γ :=
  match spec.limit with
  | none => text
  | some (.ofNat n) => text.take n
  | some (.negSucc n) => text.take (text.length - (n + 1))

/-- The name under which the variable is reported: a prefix length is part of it. -/
def label (spec : VarSpec) : List Char :=
  match spec.limit with
  | none => spec.name
  | some limit => spec.name ++ ':' :: (toString limit).toList

def render (spec : VarSpec) : List Char :=
  if spec.exploded then spec.label ++ ['*'] else spec.label

end VarSpec

end UriTemplate
