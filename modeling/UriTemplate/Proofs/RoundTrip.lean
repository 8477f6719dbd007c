import Mathlib.Data.List.Basic
import UriTemplate.Proofs.Expression
import UriTemplate.Proofs.Separation

/-! Templates that give back the values they were expanded with. Their expansions can be cut in one
way only, which therefore is the way that matching finds. -/

set_option autoImplicit false

namespace UriTemplate

namespace Part

def slots : Part → List (Operator × VarSpec)
  | .literal _ => []
  | .expression e => e.specs.map (e.operator, ·)

def Plain : Part → Prop
  | .literal _ => True
  | .expression e =>
    (e.operator = .simple ∨ e.operator = .reserved) ∧ ∀ spec ∈ e.specs, spec.limit = none

/-- Before each expression but the first there is literal text that separates it from the one
before; `apart` says whether it may come at once. -/
def Separated : Bool → List Part → Prop
  | _, [] => True
  | apart, .literal text :: rest => Separated (apart || decide (Separates text)) rest
  | apart, .expression _ :: rest => apart = true ∧ Separated false rest

end Part

section
variable (parts : List Part)

def variableNames (op : Operator) : List (List Char) :=
  ((parts.flatMap Part.slots).filter (·.1 = op)).map (·.2.name)

/-- Simple expressions, and at most one reserved expression with a single variable whose name does
not occur elsewhere, with separating text between expressions. -/
structure Unambiguous : Prop where
  plain : ∀ part ∈ parts, part.Plain
  single : (variableNames parts .reserved).length ≤ 1
  own : ∀ name ∈ variableNames parts .reserved, name ∉ variableNames parts .simple
  separated : Part.Separated true parts

end

/-! ## Rows of captures -/

section
variable {kind : Capture} {sep : Char}

theorem Cut.fixed (text : List Char) : Cut [.text text] text [] := by
  have cut := Cut.text text .nil
  rwa [List.append_nil] at cut

theorem Cut.append {fields others : List Field} {uri rest : List Char} {captures more : Captures}
    (cut : Cut fields uri captures) (after : Cut others rest more) :
    Cut (fields ++ others) (uri ++ rest) (captures ++ more) := by
  induction cut with
  | nil => exact after
  | text fixed cut ih =>
    rw [List.append_assoc]
    exact .text fixed ih
  | capture admits cut ih =>
    rw [List.append_assoc]
    exact .capture admits ih

theorem Cut.flatMap {α : Type} {fields : α → List Field} {text : α → List Char}
    {captures : α → Captures} {xs : List α}
    (each : ∀ x ∈ xs, Cut (fields x) (text x) (captures x)) :
    Cut (xs.flatMap fields) (xs.flatMap text) (xs.flatMap captures) := by
  induction xs with
  | nil => exact .nil
  | cons x xs ih =>
    obtain ⟨first, rest⟩ := List.forall_mem_cons.mp each
    rw [List.flatMap_cons, List.flatMap_cons, List.flatMap_cons]
    exact first.append (ih rest)

theorem Cut.row {pieces : List (List Char)} (admits : ∀ piece ∈ pieces, kind.Admits piece) :
    Cut ((pieces.map fun _ => .capture kind).intersperse (.text [sep])) ([sep].intercalate pieces)
      pieces := by
  induction pieces with
  | nil => exact .nil
  | cons piece rest ih =>
    have first := admits piece List.mem_cons_self
    have later := ih fun other member => admits other (List.mem_cons_of_mem _ member)
    cases rest with
    | nil =>
      have alone := Cut.capture first .nil
      rw [List.append_nil] at alone
      rw [List.intercalate_singleton]
      exact alone
    | cons next rest =>
      rw [List.intercalate_cons_cons, List.append_assoc]
      exact .capture first (.text [sep] later)

theorem Field.count_row (specs : List VarSpec) :
    ((specs.map fun _ => Field.capture kind).intersperse (.text [sep])).count (.capture .line) =
      if kind = .line then specs.length else 0 := by
  induction specs with
  | nil => cases kind <;> rfl
  | cons spec rest ih =>
    cases rest with
    | nil => cases kind <;> rfl
    | cons next rest =>
      simp only [List.map_cons] at ih
      simp only [List.map_cons, List.intersperse_cons_cons, List.count_cons, ih]
      cases kind with
      | encoded => rfl
      | line => simp

theorem Field.separated_row (outside : Separates [sep]) (specs : List VarSpec) {rest : List Field}
    (separated : Field.Separated false rest) :
    Field.Separated true
      ((specs.map fun _ => Field.capture kind).intersperse (.text [sep]) ++ rest) := by
  induction specs with
  | nil => exact separated.ready
  | cons spec specs ih =>
    cases specs with
    | nil => exact ⟨rfl, separated⟩
    | cons next specs =>
      have ready : (false || decide (Separates [sep])) = true := by
        rw [decide_eq_true outside, Bool.or_true]
      refine ⟨rfl, ?_⟩
      change Field.Separated (false || decide (Separates [sep])) _
      rw [ready]
      exact ih

end

/-! ## Parts -/

-- All that expansion and matching ask of an operator is the same for both forms, but for the
-- characters that they keep.
theorem Operator.of_plain {op : Operator} (plain : op = .simple ∨ op = .reserved) :
    op.isNamed = false ∧ op.first = [] ∧ op.separator = ',' := by
  rcases plain with rfl | rfl
  · exact ⟨rfl, rfl, rfl⟩
  · exact ⟨rfl, rfl, rfl⟩

theorem Part.count_fields {parts : List Part} (plain : ∀ part ∈ parts, part.Plain) :
    (parts.flatMap Part.fields).count (.capture .line) =
      (variableNames parts .reserved).length := by
  induction parts with
  | nil => rfl
  | cons part parts ih =>
    have rest := ih fun other member => plain other (List.mem_cons_of_mem _ member)
    simp only [variableNames, List.length_map] at rest
    simp only [variableNames, List.flatMap_cons, List.count_append, List.filter_append,
      List.map_append, List.length_append, List.length_map, rest, Nat.add_right_cancel_iff]
    cases part with
    | literal text => rfl
    | expression e =>
      rw [Part.fields, Field.count_row]
      rcases (plain _ List.mem_cons_self).1 with simple | reserved
      · simp [Part.slots, simple, Operator.capture, List.filter_map, Function.comp_def]
      · simp [Part.slots, reserved, Operator.capture, List.filter_map, Function.comp_def]

theorem Part.Separated.fields {parts : List Part} (plain : ∀ part ∈ parts, part.Plain)
    {apart : Bool} (separated : Part.Separated apart parts) :
    Field.Separated apart (parts.flatMap Part.fields) := by
  induction parts generalizing apart with
  | nil => trivial
  | cons part parts ih =>
    have rest : ∀ other ∈ parts, other.Plain :=
      fun other member => plain other (List.mem_cons_of_mem _ member)
    cases part with
    | literal text => exact ih rest separated
    | expression e =>
      have comma : Separates [e.operator.separator] := by
        rw [(Operator.of_plain (plain _ List.mem_cons_self).1).2.2]
        decide
      obtain ⟨rfl, separated⟩ := separated
      exact Field.separated_row comma e.specs (ih rest separated)

/-! ## Expansion -/

section
variable {σ : List Char → Value} {text : List Char → List Char}

theorem Expression.expand_row {e : Expression} (plain : (Part.expression e).Plain)
    (given : ∀ spec ∈ e.specs, σ spec.name = .scalar (text spec.name)) :
    e.expand σ =
      [e.operator.separator].intercalate
        (e.specs.map fun spec => e.operator.encode (text spec.name)) := by
  obtain ⟨unnamed, nothing, -⟩ := Operator.of_plain plain.1
  have pieces : e.contributions σ = e.specs.map fun spec => e.operator.encode (text spec.name) := by
    rw [contributions, ← List.filterMap_eq_map]
    apply List.filterMap_congr
    intro spec member
    simp [given spec member, Operator.expand, Operator.expandString, Operator.writeString,
      Operator.withName, unnamed, VarSpec.cut, plain.2 spec member]
  rw [expand, pieces]
  unfold Operator.assemble
  rw [nothing]
  -- Neither form has a prefix, so it makes no difference whether any variable contributes.
  cases e.specs with
  | nil => rfl
  | cons spec rest => rfl

theorem Operator.admits_encode {op : Operator} (plain : op = .simple ∨ op = .reserved)
    {text : List Char} (filled : op = .simple → text ≠ []) :
    op.capture.Admits (op.encode text) := by
  rcases plain with rfl | rfl
  · refine ⟨fun empty => filled rfl (Percent.encode_eq_nil.mp empty), ?_⟩
    intro c member
    have taken := Percent.mem_encode member
    rw [encodedChar_iff, Capture.accepts, Bool.or_eq_true, beq_iff_eq]
    exact taken
  · intro member
    rcases Percent.mem_encodeReserved member with other | other | other
    all_goals revert other; decide

theorem Part.cut_expand {part : Part} (plain : part.Plain)
    (given : ∀ slot ∈ part.slots, σ slot.2.name = .scalar (text slot.2.name))
    (filled : ∀ slot ∈ part.slots, slot.1 = .simple → text slot.2.name ≠ []) :
    Cut part.fields (part.expand σ)
      (part.slots.map fun slot => slot.1.encode (text slot.2.name)) := by
  cases part with
  | literal text => exact .fixed text
  | expression e =>
    have inside : ∀ spec ∈ e.specs, (e.operator, spec) ∈ (Part.expression e).slots :=
      fun spec member => List.mem_map.mpr ⟨spec, member, rfl⟩
    have expanded := Expression.expand_row plain fun spec member => given _ (inside spec member)
    rw [expand, expanded, fields, slots, List.map_map]
    have captures : e.specs.map (fun _ => Field.capture e.operator.capture) =
        (e.specs.map fun spec => e.operator.encode (text spec.name)).map
          fun _ => Field.capture e.operator.capture := by
      rw [List.map_map]
      rfl
    rw [captures]
    apply Cut.row
    intro piece member
    obtain ⟨spec, named, rfl⟩ := List.mem_map.mp member
    exact Operator.admits_encode plain.1 (filled _ (inside spec named))

/-- The encoded values are the captures of a cut of the expansion. -/
theorem Cut.expand {parts : List Part} (plain : ∀ part ∈ parts, part.Plain)
    (given : ∀ slot ∈ parts.flatMap Part.slots, σ slot.2.name = .scalar (text slot.2.name))
    (filled : ∀ slot ∈ parts.flatMap Part.slots, slot.1 = .simple → text slot.2.name ≠ []) :
    Cut (parts.flatMap Part.fields) (parts.flatMap (Part.expand σ))
      ((parts.flatMap Part.slots).map fun slot => slot.1.encode (text slot.2.name)) := by
  rw [List.map_flatMap]
  apply Cut.flatMap
  intro part member
  have inside : ∀ slot ∈ part.slots, slot ∈ parts.flatMap Part.slots :=
    fun slot written => List.mem_flatMap.mpr ⟨part, member, written⟩
  exact Part.cut_expand (plain part member) (fun slot written => given slot (inside slot written))
    fun slot written => filled slot (inside slot written)

end

/-! ## Extraction -/

section
variable {parts : List Part}

theorem mem_variableNames {op : Operator} {name : List Char} :
    name ∈ variableNames parts op ↔
      ∃ slot ∈ parts.flatMap Part.slots, slot.1 = op ∧ slot.2.name = name := by
  simp only [variableNames, List.mem_map, List.mem_filter, decide_eq_true_eq, and_assoc]

theorem Part.Plain.of_slot (plain : ∀ part ∈ parts, part.Plain) {slot : Operator × VarSpec}
    (member : slot ∈ parts.flatMap Part.slots) :
    (slot.1 = .simple ∨ slot.1 = .reserved) ∧ slot.2.limit = none := by
  obtain ⟨part, inside, member⟩ := List.mem_flatMap.mp member
  have formed := plain part inside
  cases part with
  | literal text => cases member
  | expression e =>
    obtain ⟨spec, named, rfl⟩ := List.mem_map.mp member
    exact ⟨formed.1, formed.2 spec named⟩

theorem Part.mem_names (plain : ∀ part ∈ parts, part.Plain) {name : List Char} :
    name ∈ (parts.flatMap Part.slots).map (·.2.name) ↔
      name ∈ variableNames parts .simple ∨ name ∈ variableNames parts .reserved := by
  simp only [mem_variableNames, List.mem_map]
  constructor
  · rintro ⟨slot, member, same⟩
    have form := (Part.Plain.of_slot plain member).1
    exact form.imp (⟨slot, member, ·, same⟩) (⟨slot, member, ·, same⟩)
  · rintro (⟨slot, member, -, same⟩ | ⟨slot, member, -, same⟩)
    all_goals exact ⟨slot, member, same⟩

theorem Part.labels_eq_slots (parts : List Part) :
    parts.flatMap Part.labels = (parts.flatMap Part.slots).map (·.2.label) := by
  rw [List.map_flatMap]
  congr 1
  funext part
  cases part with
  | literal text => rfl
  | expression e =>
    rw [Part.labels, Expression.labels, Part.slots, List.map_map]
    rfl

theorem Part.labels_eq_names (plain : ∀ part ∈ parts, part.Plain) :
    parts.flatMap Part.labels = (parts.flatMap Part.slots).map (·.2.name) := by
  rw [Part.labels_eq_slots]
  apply List.map_congr_left
  intro slot member
  rw [VarSpec.label, (Part.Plain.of_slot plain member).2]

theorem Entries.lookup_ofList_graph (f : List Char → List Char) (names : List (List Char))
    (name : List Char) :
    (Entries.ofList (names.map fun name => (name, f name))).lookup name =
      if name ∈ names then some (f name) else none := by
  rw [Entries.lookup_ofList, ← List.map_reverse]
  split
  · next member => exact List.lookup_graph f (List.mem_reverse.mpr member)
  · next absent =>
    rw [List.lookup_eq_none_iff]
    intro entry member
    obtain ⟨other, inside, rfl⟩ := List.mem_map.mp member
    rw [bne_iff_ne]
    rintro rfl
    exact absent (List.mem_reverse.mp inside)

def recovered (parts : List Part) (text : List Char → List Char) (name : List Char) : List Char :=
  if name ∈ variableNames parts .simple then text name else Percent.decode (text name)

theorem decode_slot (unambiguous : Unambiguous parts) (text : List Char → List Char)
    {slot : Operator × VarSpec} (member : slot ∈ parts.flatMap Part.slots) :
    Percent.decode (slot.1.encode (text slot.2.name)) = recovered parts text slot.2.name := by
  rcases (Part.Plain.of_slot unambiguous.plain member).1 with form | form
  · have simple := mem_variableNames.mpr ⟨slot, member, form, rfl⟩
    rw [form, recovered, if_pos simple]
    exact Percent.decode_encode _
  · have reserved := mem_variableNames.mpr ⟨slot, member, form, rfl⟩
    rw [form, recovered, if_neg (unambiguous.own _ reserved)]
    exact Percent.decode_encodeReserved _

theorem Template.extract_expansion {template : Template} (wellFormed : template.parts = .ok parts)
    (unambiguous : Unambiguous parts) {σ : List Char → Value} {text : List Char → List Char}
    (given : ∀ slot ∈ parts.flatMap Part.slots, σ slot.2.name = .scalar (text slot.2.name))
    (filled : ∀ slot ∈ parts.flatMap Part.slots, slot.1 = .simple → text slot.2.name ≠ []) :
    template.extract (parts.flatMap (Part.expand σ)) =
      .ok (some (Entries.ofList (((parts.flatMap Part.slots).map (·.2.name)).map fun name =>
        (name, recovered parts text name)))) := by
  have single : (parts.flatMap Part.fields).count (.capture .line) ≤ 1 := by
    rw [Part.count_fields unambiguous.plain]
    exact unambiguous.single
  have found := Cut.search_eq (unambiguous.separated.fields unambiguous.plain) single
    (Cut.expand unambiguous.plain given filled)
  have values :
      ((parts.flatMap Part.slots).map fun slot => slot.1.encode (text slot.2.name)).map
          Percent.decode =
        (parts.flatMap Part.slots).map fun slot => recovered parts text slot.2.name := by
    rw [List.map_map]
    apply List.map_congr_left
    intro slot member
    exact decode_slot unambiguous text member
  simp only [extract, pattern_of_parts wellFormed, Except.map, Pattern.extract,
    Pattern.captures_eq_search, found, Option.map_some, values,
    Part.labels_eq_names unambiguous.plain]
  rw [List.zip_map', List.map_map]
  rfl

/-- Extraction undoes expansion. The value of the reserved variable comes back decoded. -/
theorem Template.extract_expand {template : Template} (wellFormed : template.parts = .ok parts)
    (unambiguous : Unambiguous parts) (bindings : Bindings) (text : List Char → List Char)
    (simple : ∀ name ∈ variableNames parts .simple,
      bindings.value name = .scalar (text name) ∧ text name ≠ [])
    (reserved : ∀ name ∈ variableNames parts .reserved, bindings.value name = .scalar (text name)) :
    ∃ uri values, template.expand bindings = .ok uri ∧ template.extract uri = .ok (some values) ∧
      values.keys.Nodup ∧
      (∀ name, values.lookup name =
        if name ∈ variableNames parts .simple then some (text name)
        else if name ∈ variableNames parts .reserved then some (Percent.decode (text name))
        else none) ∧
      ∀ name ∈ variableNames parts .reserved, ¬ Percent.HasTriplet (text name) →
        values.lookup name = some (text name) := by
  have known : ∀ name, name ∈ (parts.flatMap Part.slots).map (·.2.name) ↔
      name ∈ variableNames parts .simple ∨ name ∈ variableNames parts .reserved :=
    fun _ => Part.mem_names unambiguous.plain
  have given : ∀ slot ∈ parts.flatMap Part.slots,
      bindings.value slot.2.name = .scalar (text slot.2.name) := by
    intro slot member
    rcases (known _).mp (List.mem_map_of_mem member) with inside | inside
    · exact (simple _ inside).1
    · exact reserved _ inside
  have filled : ∀ slot ∈ parts.flatMap Part.slots, slot.1 = .simple → text slot.2.name ≠ [] := by
    intro slot member form
    exact (simple _ (mem_variableNames.mpr ⟨slot, member, form, rfl⟩)).2
  have expanded := template.expand_of_parts wellFormed bindings
  have extracted := extract_expansion wellFormed unambiguous given filled
  refine ⟨_, _, expanded, extracted, Entries.nodup_keys_ofList _, ?_, ?_⟩
  · intro name
    rw [Entries.lookup_ofList_graph, recovered]
    simp only [known]
    by_cases inSimple : name ∈ variableNames parts .simple
    · simp only [inSimple, true_or, if_true]
    · simp only [inSimple, false_or, if_false]
  · intro name member free
    rw [Entries.lookup_ofList_graph, if_pos ((known name).mpr (Or.inr member)), recovered,
      if_neg (unambiguous.own name member), Percent.decode_of_no_triplet free]

theorem Template.nested_path_recovered :
    ∃ uri values,
      (Template.mk "/{user}/{+path}/{user,file}".toList).expand
        [("user".toList, .text "ä%".toList), ("path".toList, .text "a/b%20 c".toList),
          ("file".toList, .text "x.y".toList)] = .ok uri ∧
      (Template.mk "/{user}/{+path}/{user,file}".toList).extract uri = .ok (some values) ∧
      values.lookup "user".toList = some "ä%".toList ∧
      values.lookup "path".toList = some "a/b  c".toList ∧
      values.lookup "file".toList = some "x.y".toList := by
  have wellFormed : (Template.mk "/{user}/{+path}/{user,file}".toList).parts =
      .ok [.literal ['/'], .expression ⟨.simple, [⟨"user".toList, none, false⟩]⟩, .literal ['/'],
        .expression ⟨.reserved, [⟨"path".toList, none, false⟩]⟩, .literal ['/'],
        .expression ⟨.simple, [⟨"user".toList, none, false⟩, ⟨"file".toList, none, false⟩]⟩] :=
    ok_of_toOption (by decide +kernel)
  obtain ⟨uri, values, expanded, extracted, -, lookups, -⟩ :=
    extract_expand wellFormed
      ⟨by simp [Part.Plain], by decide, by decide, ⟨by decide, by decide, by decide, trivial⟩⟩
      [("user".toList, .text "ä%".toList), ("path".toList, .text "a/b%20 c".toList),
        ("file".toList, .text "x.y".toList)]
      (fun name =>
        if name = "user".toList then "ä%".toList
        else if name = "path".toList then "a/b%20 c".toList else "x.y".toList)
      (by decide) (by decide)
  exact ⟨uri, values, expanded, extracted, lookups "user".toList, lookups "path".toList,
    lookups "file".toList⟩

end

end UriTemplate
