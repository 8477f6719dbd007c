import UriTemplate.Proofs.RoundTrip
import UriTemplate.Proofs.UriText

/-! Templates match the URIs that they expand to, as long as no variable is left out. The captures
are what the variables contribute, and what an expression begins with goes to the first of them. -/

set_option autoImplicit false

namespace UriTemplate

def Value.Filled : Value → Prop
  | .scalar text => text ≠ []
  | _ => False

instance : DecidablePred Value.Filled
  | .scalar text => inferInstanceAs (Decidable (text ≠ []))
  | .absent | .list _ | .map _ => isFalse id

/-- The variable of a simple expression is a scalar that is not empty, and one of any other
expression is not left out. -/
def Operator.Given (op : Operator) (spec : VarSpec) (value : Value) : Prop :=
  if op = .simple then value.Filled else op.expand spec value ≠ none

instance (op : Operator) (spec : VarSpec) (value : Value) : Decidable (op.Given spec value) :=
  inferInstanceAs (Decidable (if op = .simple then value.Filled else op.expand spec value ≠ none))

def Expression.captures (σ : List Char → Value) (e : Expression) : Captures :=
  match e.contributions σ with
  | [] => []
  | piece :: rest => (e.operator.first ++ piece) :: rest

def Part.captures (σ : List Char → Value) : Part → Captures
  | .literal _ => []
  | .expression e => e.captures σ

namespace Operator

variable {op : Operator} {spec : VarSpec} {value : Value}

theorem exists_of_filled (filled : value.Filled) : ∃ text, text ≠ [] ∧ value = .scalar text := by
  cases value with
  | scalar text => exact ⟨text, filled, rfl⟩
  | absent | list _ | map _ => exact filled.elim

theorem isSome_expand (given : op.Given spec value) : (op.expand spec value).isSome = true := by
  rw [Given] at given
  split at given
  · obtain ⟨text, -, rfl⟩ := exists_of_filled given
    rfl
  · exact Option.isSome_iff_ne_none.mpr given

theorem admits_expand (formed : spec.WellFormed) (given : op.Given spec value) {piece : List Char}
    (contributes : op.expand spec value = some piece) :
    op.capture.Admits piece ∧ op.capture.Admits (op.first ++ piece) := by
  rw [Given] at given
  split at given
  · next form =>
    subst form
    obtain ⟨text, filled, rfl⟩ := exists_of_filled given
    cases contributes
    have kept : spec.cut text ≠ [] := by
      rw [VarSpec.cut_eq_head formed]
      exact fun empty => filled ((VarSpec.head_eq_nil formed text).mp empty)
    have admitted : (capture .simple).Admits (encode .simple (spec.cut text)) :=
      admits_encode (Or.inl rfl) fun _ => kept
    exact ⟨admitted, admitted⟩
  · next form =>
    have line : op.capture = .line := if_neg form
    have clean := op.uriText_expand formed contributes
    rw [line]
    exact ⟨clean.not_mem (by decide) (by decide),
      (op.uriText_first.append clean).not_mem (by decide) (by decide)⟩

end Operator

namespace Expression

variable {σ : List Char → Value} {e : Expression}

theorem expand_eq_captures : e.expand σ = [e.operator.separator].intercalate (e.captures σ) := by
  unfold expand captures Operator.assemble
  cases e.contributions σ with
  | nil => rfl
  | cons piece rest =>
    dsimp only
    rw [intercalate_cons, intercalate_cons, List.append_assoc]

section
variable (given : ∀ spec ∈ e.specs, e.operator.Given spec (σ spec.name))
include given

theorem length_captures : (e.captures σ).length = e.specs.length := by
  have all : (e.contributions σ).length = e.specs.length :=
    List.filterMap_length_eq_length.mpr fun spec member =>
      Operator.isSome_expand (given spec member)
  rw [← all, captures]
  split
  · next none => rw [none]
  · next some => rw [some, List.length_cons, List.length_cons]

theorem admits_captures (formed : ∀ spec ∈ e.specs, spec.WellFormed) :
    ∀ taken ∈ e.captures σ, e.operator.capture.Admits taken := by
  have pieces : ∀ piece ∈ e.contributions σ, e.operator.capture.Admits piece ∧
      e.operator.capture.Admits (e.operator.first ++ piece) := by
    intro piece member
    obtain ⟨spec, inside, contributes⟩ := List.mem_filterMap.mp member
    exact Operator.admits_expand (formed spec inside) (given spec inside) contributes
  rw [captures]
  split
  · next none => exact List.forall_mem_nil _
  · next piece rest some =>
    rw [some, List.forall_mem_cons] at pieces
    exact List.forall_mem_cons.mpr ⟨pieces.1.2, fun taken member => (pieces.2 taken member).1⟩

end

end Expression

theorem Part.cut_captures {part : Part} {σ : List Char → Value}
    (formed : ∀ slot ∈ part.slots, slot.2.WellFormed)
    (given : ∀ slot ∈ part.slots, slot.1.Given slot.2 (σ slot.2.name)) :
    Cut part.fields (part.expand σ) (part.captures σ) := by
  cases part with
  | literal text => exact .fixed text
  | expression e =>
    rw [slots, List.forall_mem_map] at formed given
    have row : e.specs.map (fun _ => Field.capture e.operator.capture) =
        (e.captures σ).map fun _ => Field.capture e.operator.capture := by
      rw [List.map_const', List.map_const', Expression.length_captures given]
    rw [expand, Expression.expand_eq_captures, fields, row]
    exact Cut.row (Expression.admits_captures given formed)

namespace Template

variable {template : Template} {parts : List Part}

theorem isMatch_of_cut (wellFormed : template.parts = .ok parts) {uri : List Char}
    {captures : Captures} (cut : Cut (parts.flatMap Part.fields) uri captures) :
    template.isMatch uri = .ok true := by
  -- The search may find another cut than this one.
  obtain ⟨found, searched, -⟩ := (search_finds _).greatest cut
  rw [isMatch_of_pattern (pattern_of_parts wellFormed), Pattern.captures_eq_search, searched]
  rfl

theorem wellFormed_of_slot (wellFormed : template.parts = .ok parts) {part : Part}
    (member : part ∈ parts) : ∀ slot ∈ part.slots, slot.2.WellFormed := by
  intro slot written
  cases part with
  | literal text => cases written
  | expression e =>
    obtain ⟨spec, inside, rfl⟩ := List.mem_map.mp written
    exact wellFormed_of_expression wellFormed member spec inside

/-- An expansion in which every variable takes part is matched, however ambiguous the template. -/
theorem isMatch_expand (wellFormed : template.parts = .ok parts) (bindings : Bindings)
    (given : ∀ slot ∈ parts.flatMap Part.slots,
      slot.1.Given slot.2 (bindings.value slot.2.name)) :
    ∃ uri, template.expand bindings = .ok uri ∧ template.isMatch uri = .ok true := by
  refine ⟨_, template.expand_of_parts wellFormed bindings, ?_⟩
  apply isMatch_of_cut wellFormed
  apply Cut.flatMap
  intro part member
  apply Part.cut_captures (wellFormed_of_slot wellFormed member)
  intro slot written
  exact given slot (List.mem_flatMap.mpr ⟨part, member, written⟩)

theorem adjacent_captures_matched :
    ∃ uri, (Template.mk "{a:1}{b}{/list*,none}".toList).expand
        [(['a'], .text "ä\n".toList), (['b'], .text ['b']),
          ("list".toList, .list [.text ['\n'], .text []]), ("none".toList, .text [])] = .ok uri ∧
      (Template.mk "{a:1}{b}{/list*,none}".toList).isMatch uri = .ok true := by
  have wellFormed : (Template.mk "{a:1}{b}{/list*,none}".toList).parts =
      .ok [.expression ⟨.simple, [⟨['a'], some 1, false⟩]⟩,
        .expression ⟨.simple, [⟨['b'], none, false⟩]⟩,
        .expression ⟨.path, [⟨"list".toList, none, true⟩, ⟨"none".toList, none, false⟩]⟩] :=
    ok_of_toOption (by decide +kernel)
  exact isMatch_expand wellFormed
    [(['a'], .text "ä\n".toList), (['b'], .text ['b']),
      ("list".toList, .list [.text ['\n'], .text []]), ("none".toList, .text [])]
    (by decide +kernel)

end Template

end UriTemplate
