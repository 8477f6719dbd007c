import UriTemplate.Proofs.Rendering
import UriTemplate.Proofs.RoundTrip

/-! What an expansion depends on. Only the values of the names that a template has can show, and a
variable without a value need not be named at all: its specification may be left out, and with the
last one the expression. -/

set_option autoImplicit false

namespace UriTemplate

namespace Bindings

/-- The name is not bound, or bound to nothing. -/
def Undefined (bindings : Bindings) (name : List Char) : Prop :=
  ∀ datum, bindings.reverse.lookup name = some datum → datum = .nothing ∨ datum = .value .absent

inductive Alike (bindings others : Bindings) (name : List Char) : Prop
  | undefined (neither : bindings.Undefined name) (nor : others.Undefined name)
  | defined {datum other : Datum} (found : bindings.reverse.lookup name = some datum)
    (foundOther : others.reverse.lookup name = some other) (same : datum.toValue = other.toValue)

end Bindings

/-- The specifications that are kept when some are left out, whose names are gone. -/
inductive Omits (gone : List Char → Prop) : List VarSpec → List VarSpec → Prop
  | nil : Omits gone [] []
  | keep {specs kept : List VarSpec} (spec : VarSpec) (rest : Omits gone specs kept) :
    Omits gone (spec :: specs) (spec :: kept)
  | leave {specs kept : List VarSpec} {spec : VarSpec} (without : gone spec.name)
    (rest : Omits gone specs kept) : Omits gone (spec :: specs) kept

/-- Parts with specifications left out. An expression that keeps none is left out itself. -/
inductive Part.Thins (gone : List Char → Prop) : List Part → List Part → Prop
  | nil : Thins gone [] []
  | keep {parts thinned : List Part} (part : Part) (rest : Thins gone parts thinned) :
    Thins gone (part :: parts) (part :: thinned)
  | thin {parts thinned : List Part} (op : Operator) {specs kept : List VarSpec}
    (omits : Omits gone specs kept) (filled : kept ≠ []) (rest : Thins gone parts thinned) :
    Thins gone (.expression ⟨op, specs⟩ :: parts) (.expression ⟨op, kept⟩ :: thinned)
  | drop {parts thinned : List Part} (op : Operator) {specs : List VarSpec}
    (omits : Omits gone specs []) (rest : Thins gone parts thinned) :
    Thins gone (.expression ⟨op, specs⟩ :: parts) thinned

/-! ## Values of names -/

theorem Datum.toValue_eq_absent {datum : Datum} :
    datum.toValue = .absent ↔ datum = .nothing ∨ datum = .value .absent := by
  cases datum with
  | value v => simp [toValue]
  | _ => simp [toValue]

namespace Bindings

variable {bindings others : Bindings} {name : List Char}

theorem value_of_found {datum : Datum} (found : bindings.reverse.lookup name = some datum) :
    bindings.value name = datum.toValue := by
  rw [value, found]

theorem value_eq_absent : bindings.value name = .absent ↔ bindings.Undefined name := by
  cases found : bindings.reverse.lookup name with
  | none => simp [value, Undefined, found]
  | some datum => simp [value, Undefined, found, Datum.toValue_eq_absent]

theorem alike_iff : bindings.Alike others name ↔ bindings.value name = others.value name := by
  constructor
  · intro alike
    cases alike with
    | undefined neither nor => rw [value_eq_absent.mpr neither, value_eq_absent.mpr nor]
    | defined found foundOther same => rw [value_of_found found, value_of_found foundOther, same]
  · intro same
    by_cases neither : bindings.Undefined name
    · exact .undefined neither (value_eq_absent.mp (same ▸ value_eq_absent.mpr neither))
    · have nor : ¬ others.Undefined name := by
        rwa [← value_eq_absent, ← same, value_eq_absent]
      unfold Undefined at neither nor
      push Not at neither nor
      obtain ⟨datum, found, -⟩ := neither
      obtain ⟨other, foundOther, -⟩ := nor
      rw [value_of_found found, value_of_found foundOther] at same
      exact .defined found foundOther same

end Bindings

/-! ## Expressions -/

theorem Omits.sublist {gone : List Char → Prop} {specs kept : List VarSpec}
    (omits : Omits gone specs kept) : kept.Sublist specs := by
  induction omits with
  | nil => exact .slnil
  | keep spec rest ih => exact ih.cons_cons spec
  | leave without rest ih => exact ih.cons _

namespace Expression

variable {σ τ : List Char → Value} {op : Operator} {specs : List VarSpec}

theorem contributions_congr (same : ∀ spec ∈ specs, σ spec.name = τ spec.name) :
    contributions σ ⟨op, specs⟩ = contributions τ ⟨op, specs⟩ := by
  apply List.filterMap_congr
  intro spec member
  rw [same spec member]

theorem contributions_omits {gone : List Char → Prop} {kept : List VarSpec}
    (omits : Omits gone specs kept) (absent : ∀ name, gone name → σ name = .absent) :
    contributions σ ⟨op, kept⟩ = contributions σ ⟨op, specs⟩ := by
  induction omits with
  | nil => rfl
  | keep spec rest ih => rw [contributions_cons, contributions_cons, ih]
  | leave without rest ih =>
    rw [contributions_cons, absent _ without, ih]
    rfl

theorem expand_eq_of_contributions {others : List VarSpec}
    (same : contributions σ ⟨op, specs⟩ = contributions τ ⟨op, others⟩) :
    expand σ ⟨op, specs⟩ = expand τ ⟨op, others⟩ := by
  rw [expand, expand, same]

end Expression

/-! ## Templates -/

namespace Part

variable {σ τ : List Char → Value} {parts : List Part}

theorem expand_congr {part : Part} (same : ∀ slot ∈ part.slots, σ slot.2.name = τ slot.2.name) :
    part.expand σ = part.expand τ := by
  cases part with
  | literal text => rfl
  | expression e =>
    apply Expression.expand_eq_of_contributions
    apply Expression.contributions_congr
    intro spec member
    exact same _ (List.mem_map_of_mem member)

namespace Thins

variable {gone : List Char → Prop} {thinned : List Part} (thins : Thins gone parts thinned)
include thins

theorem expand (absent : ∀ name, gone name → σ name = .absent) :
    thinned.flatMap (Part.expand σ) = parts.flatMap (Part.expand σ) := by
  induction thins with
  | nil => rfl
  | keep part rest ih => rw [List.flatMap_cons, List.flatMap_cons, ih]
  | thin op omits filled rest ih =>
    rw [List.flatMap_cons, List.flatMap_cons, ih]
    exact congrArg (· ++ _)
      (Expression.expand_eq_of_contributions (Expression.contributions_omits omits absent))
  | drop op omits rest ih =>
    have silent : Expression.contributions σ ⟨op, _⟩ = [] :=
      (Expression.contributions_omits omits absent).symm
    rw [List.flatMap_cons, ih, Part.expand, Expression.expand, silent]
    rfl

theorem wellFormed (formed : ∀ part ∈ parts, part.WellFormed) :
    ∀ part ∈ thinned, part.WellFormed := by
  induction thins with
  | nil => exact formed
  | keep part rest ih =>
    obtain ⟨first, later⟩ := List.forall_mem_cons.mp formed
    exact List.forall_mem_cons.mpr ⟨first, ih later⟩
  | thin op omits filled rest ih =>
    obtain ⟨⟨-, specs⟩, later⟩ := List.forall_mem_cons.mp formed
    refine List.forall_mem_cons.mpr ⟨⟨filled, ?_⟩, ih later⟩
    intro spec member
    exact specs spec (omits.sublist.subset member)
  | drop op omits rest ih => exact ih (List.forall_mem_cons.mp formed).2

end Thins

end Part

namespace Template

/-- Bindings that give the names of a template the same values give the same expansion, and so does
the template without specifications whose variables are undefined. -/
theorem expand_of_named_values {template : Template} {parts : List Part}
    (wellFormed : template.parts = .ok parts) (bindings : Bindings) :
    template.text = parts.flatMap Part.render ∧
      ∃ uri, template.expand bindings = .ok uri ∧
        (∀ others : Bindings,
          (∀ slot ∈ parts.flatMap Part.slots, bindings.Alike others slot.2.name) →
          template.expand others = .ok uri) ∧
        ∀ thinned, Part.Thins bindings.Undefined parts thinned →
          (Template.mk (thinned.flatMap Part.render)).expand bindings = .ok uri := by
  refine ⟨text_of_parts wellFormed, _, expand_of_parts _ wellFormed bindings, ?_, ?_⟩
  · intro others alike
    rw [expand_of_parts _ wellFormed]
    congr 1
    apply List.flatMap_congr
    intro part member
    symm
    apply Part.expand_congr
    intro slot inside
    exact Bindings.alike_iff.mp (alike slot (List.mem_flatMap_of_mem member inside))
  · intro thinned thins
    have formed := thins.wellFormed (wellFormed_of_mem_parts wellFormed)
    have absent : ∀ name, bindings.Undefined name → bindings.value name = .absent :=
      fun _ => Bindings.value_eq_absent.mpr
    rw [expand_flatMap_render formed, thins.expand absent]

theorem undefined_left_out :
    ∃ bindings others : Bindings,
      bindings = [("x.y".toList, .integer 7), (['l'], .list [.text ['a'], .nothing]),
        (['n'], .nothing)] ∧
      others = [(['l'], .nothing), ("x.y".toList, .text ['7']), (['z'], .truth true),
        (['l'], .tuple [.text ['a'], .text "None".toList])] ∧
      ∃ uri, (Template.mk "{n,x.y,%41:2,x.y*}/a{?l*,n*}{&n}b".toList).expand bindings = .ok uri ∧
        (Template.mk "{n,x.y,%41:2,x.y*}/a{?l*,n*}{&n}b".toList).expand others = .ok uri ∧
        (Template.mk "{x.y,x.y*}/a{?l*}b".toList).expand bindings = .ok uri := by
  have wellFormed : (Template.mk "{n,x.y,%41:2,x.y*}/a{?l*,n*}{&n}b".toList).parts =
      .ok [.expression ⟨.simple, [⟨['n'], none, false⟩, ⟨"x.y".toList, none, false⟩,
          ⟨"%41".toList, some 2, false⟩, ⟨"x.y".toList, none, true⟩]⟩,
        .literal "/a".toList,
        .expression ⟨.query, [⟨['l'], none, true⟩, ⟨['n'], none, true⟩]⟩,
        .expression ⟨.continuation, [⟨['n'], none, false⟩]⟩, .literal ['b']] :=
    ok_of_toOption (by decide +kernel)
  obtain ⟨-, uri, expanded, named, thinned⟩ := expand_of_named_values wellFormed
    [("x.y".toList, .integer 7), (['l'], .list [.text ['a'], .nothing]), (['n'], .nothing)]
  have bound : Bindings.Undefined [("x.y".toList, .integer 7),
      (['l'], .list [.text ['a'], .nothing]), (['n'], .nothing)] ['n'] :=
    Bindings.value_eq_absent.mp (by rfl)
  have missing : Bindings.Undefined [("x.y".toList, .integer 7),
      (['l'], .list [.text ['a'], .nothing]), (['n'], .nothing)] "%41".toList :=
    Bindings.value_eq_absent.mp (by rfl)
  refine ⟨_, _, rfl, rfl, uri, expanded, named _ ?_, ?_⟩
  · intro slot member
    rw [Bindings.alike_iff]
    revert slot
    decide +kernel
  · apply thinned [.expression ⟨.simple, [⟨"x.y".toList, none, false⟩, ⟨"x.y".toList, none, true⟩]⟩,
      .literal "/a".toList, .expression ⟨.query, [⟨['l'], none, true⟩]⟩, .literal ['b']]
    apply Part.Thins.thin _ (.leave bound (.keep _ (.leave missing (.keep _ .nil)))) (by decide)
    apply Part.Thins.keep
    apply Part.Thins.thin _ (.keep _ (.leave bound .nil)) (by decide)
    exact .drop _ (.leave bound .nil) (.keep _ .nil)

end Template

end UriTemplate
