import Mathlib.Data.List.Induction
import UriTemplate.Proofs.Grammar
import UriTemplate.Proofs.SelfMatch

/-! Which values extraction gives to which labels. The pattern of a template has one capture for each of
its variables, of the kind of its expression and under the label of the variable, so the captures of a
URI are as many as the labels and stand in their order. A label that occurs more than once keeps the
place of its first occurrence among the keys and takes the value of its last. -/

set_option autoImplicit false

namespace UriTemplate

def Atom.kind? : Atom → Option Capture
  | .char _ => none
  | .capture kind => some kind

/-- How many groups the text of a pattern opens. A parenthesis behind a backslash opens none. -/
def groupsIn : List Char → Nat
  | [] => 0
  | '\\' :: _ :: rest => groupsIn rest
  | '(' :: rest => groupsIn rest + 1
  | _ :: rest => groupsIn rest

/-- The label stands at the place and not behind it. -/
def LastPlace (labels : List (List Char)) (label : List Char) (place : Nat) : Prop :=
  labels[place]? = some label ∧ label ∉ labels.drop (place + 1)

/-- Each label with the capture at its last place, decoded. -/
structure Aligned (labels : List (List Char)) (captures : Captures) (values : Extraction) :
    Prop where
  count : captures.length = labels.length
  keys : values.keys = labels.eraseDups
  lookup : ∀ label value, values.lookup label = some value ↔
    ∃ place taken, LastPlace labels label place ∧ captures[place]? = some taken ∧
      value = Percent.decode taken

/-- How the labels and captures of a pattern belong to the variables of the template that it is made
of, and how they make up the values that are extracted. -/
structure Template.Labelled (template : Template) (parts : List Part) (pattern : Pattern) : Prop where
  compiled : template.pattern = .ok pattern
  labels : template.labels = .ok pattern.labels
  slots : pattern.labels = (parts.flatMap Part.slots).map (·.2.label)
  kinds : pattern.atoms.filterMap Atom.kind? = (parts.flatMap Part.slots).map (·.1.capture)
  groups : groupsIn pattern.render = pattern.labels.length
  apart : ∀ slot ∈ parts.flatMap Part.slots, ∀ other ∈ parts.flatMap Part.slots,
    slot.2.label = other.2.label ↔ slot.2.name = other.2.name ∧ slot.2.limit = other.2.limit
  extracted : ∀ uri, ∃ found, template.extract uri = .ok found ∧
    Option.Rel (Aligned pattern.labels) (pattern.captures uri) found

/-! ## Entries with repeated keys -/

namespace Entries

variable {κ ν : Type} [BEq κ] [LawfulBEq κ]

theorem keys_ofList (entries : List (κ × ν)) : (ofList entries).keys = (keys entries).eraseDups := by
  induction entries using List.reverseRecOn with
  | nil => rfl
  | append_singleton entries entry ih =>
    have last : ofList (entries ++ [entry]) = (ofList entries).put entry.1 entry.2 :=
      List.foldl_append
    have snoc : keys (entries ++ [entry]) = keys entries ++ [entry.1] := List.map_append
    rw [last, keys_put, ih, snoc, List.eraseDups_append]
    simp only [List.mem_eraseDups]
    split
    · next found => simp [List.removeAll, found]
    · next new => simp [List.removeAll, new, List.eraseDups_cons]

end Entries

theorem lookup_ofList_eq_some {labels items : List (List Char)} (same : labels.length = items.length)
    {label item : List Char} :
    (Entries.ofList (labels.zip items)).lookup label = some item ↔
      ∃ place, LastPlace labels label place ∧ items[place]? = some item := by
  have keys : (labels.zip items).map Prod.fst = labels := List.map_fst_zip same.le
  have behind : ∀ before after, labels.zip items = before ++ (label, item) :: after →
      labels.drop (before.length + 1) = after.map Prod.fst := by
    intro before after split
    rw [← keys, split, List.map_append, List.map_cons, List.append_cons]
    exact List.drop_left' (by simp)
  rw [Entries.lookup_ofList, List.lookup_eq_some_iff]
  constructor
  · rintro ⟨later, before, split, apart⟩
    have forward : labels.zip items = before.reverse ++ (label, item) :: later.reverse := by
      simpa using congrArg List.reverse split
    have entry : (labels.zip items)[before.reverse.length]? = some (label, item) := by
      rw [forward, List.getElem?_append_right (Nat.le_refl _), Nat.sub_self,
        List.getElem?_cons_zero]
    obtain ⟨labelled, found⟩ := List.getElem?_zip_eq_some.mp entry
    refine ⟨_, ⟨labelled, ?_⟩, found⟩
    rw [behind _ _ forward, List.mem_map]
    rintro ⟨other, member, rfl⟩
    simpa using apart other (List.mem_reverse.mp member)
  · rintro ⟨place, ⟨labelled, last⟩, found⟩
    have entry : (labels.zip items)[place]? = some (label, item) :=
      List.getElem?_zip_eq_some.mpr ⟨labelled, found⟩
    obtain ⟨before, after, split, rfl⟩ := exists_append_of_getElem? entry
    refine ⟨after.reverse, before.reverse, by simp [split], ?_⟩
    intro other member
    rw [bne_iff_ne]
    rintro rfl
    rw [behind before after split] at last
    exact last (List.mem_map_of_mem (List.mem_reverse.mp member))

/-! ## Captures -/

theorem kinds_fixed (fixed : List Char) : (fixed.map Atom.char).filterMap Atom.kind? = [] := by
  simp [List.filterMap_map, Function.comp_def, Atom.kind?]

theorem Cut.length {fields : List Field} {uri : List Char} {captures : Captures}
    (cut : Cut fields uri captures) :
    captures.length = ((fields.flatMap Field.atoms).filterMap Atom.kind?).length := by
  induction cut with
  | nil => rfl
  | text fixed _ ih =>
    rw [List.flatMap_cons, List.filterMap_append, Field.atoms, kinds_fixed, List.nil_append]
    exact ih
  | capture _ _ ih =>
    rw [List.flatMap_cons, List.filterMap_append, List.length_append, ← ih, List.length_cons]
    exact Nat.add_comm _ _

theorem Part.kinds (part : Part) :
    (part.fields.flatMap Field.atoms).filterMap Atom.kind? = part.slots.map (·.1.capture) := by
  cases part with
  | literal text =>
    rw [fields, List.flatMap_singleton]
    exact kinds_fixed text
  | expression e =>
    rw [fields, slots, List.map_map]
    induction e.specs with
    | nil => rfl
    | cons spec rest ih =>
      cases rest with
      | nil => rfl
      | cons next rest =>
        simp only [List.map_cons] at ih
        simp only [List.map_cons, List.intersperse_cons_cons, List.flatMap_cons,
          List.filterMap_append, ih]
        rfl

theorem groupsIn_char {c : Char} (escape : c ≠ '\\') (group : c ≠ '(') (rest : List Char) :
    groupsIn (c :: rest) = groupsIn rest := by
  rw [groupsIn]
  · intro d after same
    exact absurd same escape
  · exact group

theorem groupsIn_atom (atom : Atom) (rest : List Char) :
    groupsIn (atom.render ++ rest) = atom.kind?.toList.length + groupsIn rest := by
  cases atom with
  | char c =>
    rw [Atom.render, Atom.kind?, Option.toList_none, List.length_nil, Nat.zero_add]
    split
    · rfl
    · next plain =>
      refine groupsIn_char ?_ ?_ rest
      all_goals
        rintro rfl
        exact plain rfl
  | capture kind =>
    rw [Nat.add_comm]
    cases kind
    all_goals rfl

theorem groupsIn_render (atoms : List Atom) :
    groupsIn (atoms.flatMap Atom.render) = (atoms.filterMap Atom.kind?).length := by
  induction atoms with
  | nil => rfl
  | cons atom atoms ih =>
    rw [List.flatMap_cons, groupsIn_atom, ih, List.filterMap_cons]
    cases atom.kind? with
    | none => exact Nat.zero_add _
    | some kind => exact Nat.add_comm _ _

/-! ## Labels -/

/-- What is read back from a label is the name with the limit. -/
theorem VarSpec.label_eq_iff {spec other : VarSpec} (formed : spec.WellFormed)
    (formedOther : other.WellFormed) :
    spec.label = other.label ↔ spec.name = other.name ∧ spec.limit = other.limit := by
  have read : ∀ {spec : VarSpec}, spec.WellFormed →
      VarSpec.parse spec.label = .ok ⟨spec.name, spec.limit, false⟩ := by
    intro spec formed
    refine Grammar.parse_spec.mpr (Grammar.spec_iff.mpr ⟨⟨formed.name, formed.limit, ?_⟩, rfl⟩)
    intro exploded
    cases exploded
  constructor
  · intro same
    have both := read formed
    rw [same, read formedOther, Except.ok.injEq, VarSpec.mk.injEq] at both
    exact ⟨both.1.symm, both.2.1.symm⟩
  · rintro ⟨name, limit⟩
    rw [label, label, name, limit]

/-! ## Extraction -/

theorem aligned_of_length {labels : List (List Char)} {captures : Captures}
    (count : captures.length = labels.length) :
    Aligned labels captures (Entries.ofList (labels.zip (captures.map Percent.decode))) := by
  have same : labels.length = (captures.map Percent.decode).length := by
    rw [List.length_map, count]
  refine ⟨count, ?_, fun label value => ?_⟩
  · rw [Entries.keys_ofList]
    exact congrArg List.eraseDups (List.map_fst_zip same.le)
  · simp only [lookup_ofList_eq_some same, List.getElem?_map, Option.map_eq_some_iff]
    constructor
    · rintro ⟨place, last, taken, found, rfl⟩
      exact ⟨place, taken, last, found, rfl⟩
    · rintro ⟨place, taken, last, found, rfl⟩
      exact ⟨place, last, taken, found, rfl⟩

/-- The labels of the pattern are those of the template, and every URI that matches gives each of them
the capture at its last place. -/
theorem Template.extract_labelled {template : Template} {parts : List Part}
    (wellFormed : template.parts = .ok parts) : ∃ pattern, template.Labelled parts pattern := by
  obtain ⟨pattern, compiled, atoms, labels⟩ : ∃ pattern, template.pattern = .ok pattern ∧
      pattern.atoms = (parts.flatMap Part.fields).flatMap Field.atoms ∧
      pattern.labels = parts.flatMap Part.labels := ⟨_, pattern_of_parts wellFormed, rfl, rfl⟩
  have slots := labels.trans (Part.labels_eq_slots parts)
  have kinds : pattern.atoms.filterMap Atom.kind? =
      (parts.flatMap Part.slots).map (·.1.capture) := by
    rw [atoms, List.flatMap_assoc, List.filterMap_flatMap, List.map_flatMap]
    congr 1
    funext part
    exact part.kinds
  have formed : ∀ slot ∈ parts.flatMap Part.slots, slot.2.WellFormed := by
    intro slot member
    obtain ⟨part, inside, written⟩ := List.mem_flatMap.mp member
    exact wellFormed_of_slot wellFormed inside slot written
  refine ⟨pattern, compiled, ?_, slots, kinds, ?_, ?_, ?_⟩
  · rw [labels_eq, wellFormed, labels]
    rfl
  · rw [Pattern.render, groupsIn_render, kinds, slots, List.length_map, List.length_map]
  · intro slot member other inside
    exact VarSpec.label_eq_iff (formed slot member) (formed other inside)
  · intro uri
    have extracted : template.extract uri = .ok (pattern.extract uri) := by
      rw [extract, compiled]
      rfl
    refine ⟨_, extracted, ?_⟩
    rw [Pattern.extract]
    cases searched : pattern.captures uri with
    | none => exact .none
    | some captures =>
      rw [Pattern.captures_eq_search, atoms, search_eq_some] at searched
      have count := searched.1.length
      rw [← atoms, kinds, List.length_map] at count
      exact .some (aligned_of_length (by rw [count, slots, List.length_map]))

theorem Template.repeated_label_last :
    ∃ values, (Template.mk "(*){a}{+c*}[{a:2},{a}]".toList).extract "(*)x/y[p,q%20]".toList =
        .ok (some values) ∧
      values.keys = ["a".toList, "c".toList, "a:2".toList] ∧
      values.lookup "a".toList = some "q ".toList := by
  have wellFormed : (Template.mk "(*){a}{+c*}[{a:2},{a}]".toList).parts =
      .ok [.literal "(*)".toList, .expression ⟨.simple, [⟨['a'], none, false⟩]⟩,
        .expression ⟨.reserved, [⟨['c'], none, true⟩]⟩, .literal ['['],
        .expression ⟨.simple, [⟨['a'], some 2, false⟩]⟩, .literal [','],
        .expression ⟨.simple, [⟨['a'], none, false⟩]⟩, .literal [']']] :=
    ok_of_toOption (by decide +kernel)
  obtain ⟨pattern, labelled⟩ := extract_labelled wellFormed
  have same := pattern_of_parts wellFormed
  rw [labelled.compiled, Except.ok.injEq] at same
  obtain ⟨found, extracted, aligned⟩ := labelled.extracted "(*)x/y[p,q%20]".toList
  have captured : pattern.captures "(*)x/y[p,q%20]".toList =
      some [['x'], "/y".toList, ['p'], "q%20".toList] := by
    rw [same]
    decide +kernel
  rw [captured] at aligned
  cases aligned with
  | some aligned =>
    have last : LastPlace pattern.labels "a".toList 3 := by
      rw [same]
      exact ⟨rfl, by decide +kernel⟩
    refine ⟨_, extracted, ?_, (aligned.lookup _ _).mpr ⟨3, "q%20".toList, last, rfl, ?_⟩⟩
    · rw [aligned.keys, same]
      decide +kernel
    · decide +kernel

end UriTemplate
