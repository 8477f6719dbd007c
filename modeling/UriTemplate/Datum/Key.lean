import UriTemplate.Entries
import UriTemplate.Datum.Basic

/-! When two data are the same key of a map, and maps built from entries with repeated keys. -/

set_option autoImplicit false

namespace UriTemplate.Datum

variable {γ : Type}

def fraction? : Datum γ → Option (Int × Nat)
  | .truth b => some (if b then 1 else 0, 1)
  | .integer n => some (n, 1)
  | .real x => (Decimal.Binary64.ofFloat x).fraction?
  | _ => none

def infinite? : Datum γ → Option Bool
  | .real x =>
    match Decimal.Binary64.ofFloat x with
    | .infinite negative => some negative
    | _ => none
  | _ => none

def sameNumber (a b : Datum γ) : Bool :=
  match a.fraction?, b.fraction? with
  | some (p, q), some (r, s) => p * s = r * q
  | none, none => a.infinite?.isSome && a.infinite? = b.infinite?
  | _, _ => false

variable [DecidableEq γ]

mutual

/-- Numbers are compared by size, and one that is undefined equals nothing. Lists and maps are
no keys. -/
def same : Datum γ → Datum γ → Bool
  | .nothing, .nothing => true
  | .text s, .text t => s = t
  | .octets s, .octets t => s = t
  | .value v, .value w => v = w
  | .tuple items, .tuple others => sameItems items others
  | a, b => sameNumber a b

def sameItems : List (Datum γ) → List (Datum γ) → Bool
  | [], [] => true
  | a :: items, b :: others => same a b && sameItems items others
  | _, _ => false

end

instance : BEq (Datum γ) := ⟨same⟩

def ofEntries (entries : List (Datum γ × Datum γ)) : Datum γ :=
  .map (Entries.ofList entries)

end UriTemplate.Datum
