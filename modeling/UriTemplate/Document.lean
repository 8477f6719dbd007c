/-! Documents of the wire format: plain data under string keys. -/

set_option autoImplicit false

namespace UriTemplate

/-- A decimal is `digits / 10 ^ places`. -/
inductive Document where
  | null
  | truth (b : Bool)
  | integer (n : Int)
  | decimal (digits : Int) (places : Nat)
  | text (s : String)
  | list (items : List Document)
  | object (fields : List (String × Document))
  deriving Inhabited

namespace Document

def kindName : Document → String
  | null => "NoneType"
  | truth _ => "bool"
  | integer _ => "int"
  | decimal _ _ => "float"
  | text _ => "str"
  | list _ => "list"
  | object _ => "dict"

def amount? : Document → Option (Int × Nat)
  | truth b => some (if b then 1 else 0, 0)
  | integer n => some (n, 0)
  | decimal digits places => some (digits, places)
  | _ => none

def sameAmount (a b : Document) : Bool :=
  match a.amount?, b.amount? with
  | some (m, p), some (n, q) => m * Int.pow 10 q = n * Int.pow 10 p
  | _, _ => false

mutual

/-- Whether two documents hold the same: numbers the same amount, objects the same under each
key in whatever order. -/
def agrees : Document → Document → Bool
  | null, null => true
  | text s, text t => s = t
  | list items, list others => agreesItems items others
  | object fields, object others => fields.length = others.length && agreesFields fields others
  | a, b => sameAmount a b

def agreesItems : List Document → List Document → Bool
  | [], [] => true
  | a :: items, b :: others => agrees a b && agreesItems items others
  | _, _ => false

def agreesFields : List (String × Document) → List (String × Document) → Bool
  | [], _ => true
  | (key, a) :: fields, others =>
    (match others.lookup key with
      | some b => agrees a b
      | none => false) && agreesFields fields others

end

end Document

end UriTemplate
