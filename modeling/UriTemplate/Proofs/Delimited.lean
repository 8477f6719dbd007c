import Mathlib.Data.List.TakeWhile
import UriTemplate.Datum.Bindings
import UriTemplate.Expression.Expansion
import UriTemplate.Proofs.Expression

/-! Expansions with a separator that no encoded text holds can be taken apart: cut at each
separator they give one piece for each string, item and pair, and a piece gives back its name or
key and its text. -/

set_option autoImplicit false

namespace UriTemplate

/-- What one piece of an expansion stands for: text under the name of its variable, or an entry of
a map under its key. -/
inductive Member where
  | single (name text : List Char)
  | pair (key text : List Char)

namespace VarSpec

/-- Lists and maps have members, and these stand apart. -/
def Spreads (spec : VarSpec) : Value → Prop
  | .list items => spec.exploded = true ∧ items ≠ []
  | .map pairs => spec.exploded = true ∧ pairs ≠ []
  | _ => True

instance (spec : VarSpec) : DecidablePred spec.Spreads
  | .absent => isTrue trivial
  | .scalar _ => isTrue trivial
  | .list items => inferInstanceAs (Decidable (spec.exploded = true ∧ items ≠ []))
  | .map pairs => inferInstanceAs (Decidable (spec.exploded = true ∧ pairs ≠ []))

def members (spec : VarSpec) : Value → List Member
  | .absent => []
  | .scalar text => [.single spec.name (spec.head text)]
  | .list items => items.map (.single spec.name)
  | .map pairs => pairs.map fun entry => .pair entry.1 entry.2

end VarSpec

namespace Delimited

def halves (piece : List Char) : List Char × List Char :=
  (piece.takeWhile (· ≠ '='), (piece.dropWhile (· ≠ '=')).drop 1)

def Reads (op : Operator) (piece : List Char) : Member → Prop
  | .single name text =>
    if op.isNamed then (halves piece).1 = name ∧ Percent.decode (halves piece).2 = text
    else '=' ∉ piece ∧ Percent.decode piece = text
  | .pair key text =>
    piece.count '=' = 1 ∧ Percent.decode (halves piece).1 = key ∧
      Percent.decode (halves piece).2 = text

def operators : List Operator :=
  [.simple, .path, .pathParameter, .query, .continuation]

/-! ## Delimiters -/

def Delimiter (c : Char) : Prop :=
  Percent.isUnreserved c = false ∧ c ≠ '%'

theorem equals_delimiter : Delimiter '=' :=
  ⟨by decide, by decide⟩

theorem separator_delimiter {op : Operator} (member : op ∈ operators) :
    Delimiter op.separator ∧ op.separator ≠ '=' := by
  unfold Delimiter
  revert member
  cases op <;> decide

theorem encode_of_mem {op : Operator} (member : op ∈ operators) : op.encode = Percent.encode := by
  cases op
  case reserved | fragment | label => exact absurd member (by decide)
  all_goals rfl

theorem not_mem_of_plain {c : Char} (delimiter : Delimiter c) {text : List Char}
    (plain : ∀ d ∈ text, Percent.isUnreserved d = true ∨ d = '%') : c ∉ text := by
  intro member
  rcases plain c member with unreserved | percent
  · rw [delimiter.1] at unreserved
    cases unreserved
  · exact delimiter.2 percent

theorem not_mem_encode {c : Char} (delimiter : Delimiter c) (text : List Char) :
    c ∉ Percent.encode text :=
  not_mem_of_plain delimiter fun _ => Percent.mem_encode

theorem not_mem_name {c : Char} (delimiter : Delimiter c) {spec : VarSpec}
    (formed : spec.WellFormed) : c ∉ spec.name :=
  not_mem_of_plain delimiter fun _ => VarSpec.mem_of_isName formed.name

/-! ## Pieces -/

theorem before_sign {label : List Char} (free : '=' ∉ label) :
    ∀ c ∈ label, decide (c ≠ '=') = true := by
  intro c member
  exact decide_eq_true fun same => free (same ▸ member)

theorem halves_sign {label : List Char} (free : '=' ∉ label) (text : List Char) :
    halves (label ++ '=' :: text) = (label, text) := by
  unfold halves
  rw [List.takeWhile_append_of_pos (before_sign free),
    List.dropWhile_append_of_pos (before_sign free)]
  simp

theorem halves_bare {label : List Char} (free : '=' ∉ label) : halves label = (label, []) := by
  unfold halves
  rw [List.takeWhile_eq_self_iff.mpr (before_sign free),
    List.dropWhile_eq_nil_iff.mpr (before_sign free), List.drop_nil]

/-- What holds of the piece that an operator writes for a member. -/
structure Stands (op : Operator) (piece : List Char) (member : Member) : Prop where
  whole : op.separator ∉ piece
  reads : Reads op piece member

variable {op : Operator} (delimiting : op ∈ operators)

include delimiting

theorem stands_named {spec : VarSpec} (formed : spec.WellFormed) (text : List Char) :
    Stands op (op.withName spec (op.encode text)) (.single spec.name text) := by
  have separator := separator_delimiter delimiting
  rw [encode_of_mem delimiting]
  unfold Operator.withName
  split
  · next named =>
    have halved := halves_sign (not_mem_name equals_delimiter formed) (Percent.encode text)
    constructor
    · rw [List.mem_append, List.mem_cons]
      rintro (inName | sign | inText)
      · exact not_mem_name separator.1 formed inName
      · exact separator.2 sign
      · exact not_mem_encode separator.1 text inText
    · simp only [Reads, named, if_true, halved, Percent.decode_encode, and_self]
  · next unnamed =>
    constructor
    · exact not_mem_encode separator.1 text
    · simp only [Reads, unnamed]
      exact ⟨not_mem_encode equals_delimiter text, Percent.decode_encode text⟩

theorem stands_bare (named : op.isNamed = true) {spec : VarSpec} (formed : spec.WellFormed) :
    Stands op (spec.name ++ op.ifEmpty) (.single spec.name []) := by
  cases shape : op.ifEmpty with
  -- The name alone has no sign, so all of it is the first half.
  | nil =>
    have halved := halves_bare (not_mem_name equals_delimiter formed)
    rw [List.append_nil]
    constructor
    · exact not_mem_name (separator_delimiter delimiting).1 formed
    · simp only [Reads, named, if_true, halved, true_and]
      rfl
  -- The sign alone is how the other operators write an empty text anyway.
  | cons sign rest =>
    have equals : sign :: rest = '=' :: Percent.encode [] := by
      rw [← shape]
      cases op
      case pathParameter => cases shape
      all_goals rfl
    have empty := stands_named delimiting formed []
    rw [encode_of_mem delimiting] at empty
    simp only [Operator.withName, named, if_true] at empty
    rwa [equals]

theorem stands_string {spec : VarSpec} (formed : spec.WellFormed) (text : List Char) :
    Stands op (op.expandString spec text) (.single spec.name (spec.head text)) := by
  unfold Operator.expandString Operator.writeString
  rw [VarSpec.cut_eq_head formed]
  split
  · next bare =>
    have empty : spec.head text = [] := by
      rw [encode_of_mem delimiting] at bare
      exact Percent.encode_eq_nil.mp bare.2
    rw [empty]
    exact stands_bare delimiting bare.1 formed
  · exact stands_named delimiting formed (spec.head text)

theorem stands_pair (entry : List Char × List Char) :
    Stands op (op.encode entry.1 ++ '=' :: op.encode entry.2) (.pair entry.1 entry.2) := by
  have separator := separator_delimiter delimiting
  have free := not_mem_encode equals_delimiter
  rw [encode_of_mem delimiting]
  constructor
  · rw [List.mem_append, List.mem_cons]
    rintro (inKey | sign | inText)
    · exact not_mem_encode separator.1 entry.1 inKey
    · exact separator.2 sign
    · exact not_mem_encode separator.1 entry.2 inText
  · simp only [Reads, halves_sign (free entry.1), Percent.decode_encode, and_self, and_true]
    rw [List.count_append, List.count_cons_self, List.count_eq_zero.mpr (free entry.1),
      List.count_eq_zero.mpr (free entry.2)]

/-! ## Whole expansions -/

theorem expand_pieces {spec : VarSpec} (formed : spec.WellFormed) {value : Value}
    (spreads : spec.Spreads value) (present : value ≠ .absent) :
    ∃ pieces, op.expand spec value = some ([op.separator].intercalate pieces) ∧ pieces ≠ [] ∧
      List.Forall₂ (Stands op) pieces (spec.members value) := by
  cases value with
  | absent => exact absurd rfl present
  | scalar text =>
    refine ⟨[op.expandString spec text], ?_, List.cons_ne_nil _ _, ?_⟩
    · rw [List.intercalate_singleton]
      rfl
    · exact .cons (stands_string delimiting formed text) .nil
  | list items =>
    obtain ⟨exploded, filled⟩ := spreads
    refine ⟨items.map fun item => op.withName spec (op.encode item), ?_, ?_, ?_⟩
    · simp only [Operator.expand, Operator.expandMembers, filled, exploded, false_and, if_false,
        if_true]
    · exact mt List.map_eq_nil_iff.mp filled
    · rw [VarSpec.members, List.forall₂_map_left_iff, List.forall₂_map_right_iff,
        List.forall₂_same]
      intro item member
      exact stands_named delimiting formed item
  | map pairs =>
    obtain ⟨exploded, filled⟩ := spreads
    refine ⟨pairs.map fun entry => op.encode entry.1 ++ '=' :: op.encode entry.2, ?_, ?_, ?_⟩
    · simp only [Operator.expand, Operator.expandMembers, filled, exploded, false_and, if_false,
        if_true]
    · exact mt List.map_eq_nil_iff.mp filled
    · rw [VarSpec.members, List.forall₂_map_left_iff, List.forall₂_map_right_iff,
        List.forall₂_same]
      intro entry member
      exact stands_pair delimiting entry

/-- The pieces of each defined variable form a group of their own. -/
theorem contributions_groups {σ : List Char → Value} {specs : List VarSpec}
    (formed : ∀ spec ∈ specs, spec.WellFormed)
    (spreads : ∀ spec ∈ specs, spec.Spreads (σ spec.name)) :
    ∃ groups : List (List (List Char)),
      Expression.contributions σ ⟨op, specs⟩ = groups.map [op.separator].intercalate ∧
      [] ∉ groups ∧
      List.Forall₂ (Stands op) groups.flatten
        (specs.flatMap fun spec => spec.members (σ spec.name)) := by
  induction specs with
  | nil => exact ⟨[], rfl, List.not_mem_nil, .nil⟩
  | cons spec rest ih =>
    obtain ⟨groups, joined, filled, stand⟩ :=
      ih (fun other member => formed other (List.mem_cons_of_mem _ member))
        (fun other member => spreads other (List.mem_cons_of_mem _ member))
    have here := spreads spec List.mem_cons_self
    -- An absent variable adds no group; a group of no pieces would add a separator.
    by_cases absent : σ spec.name = .absent
    · have none : op.expand spec (σ spec.name) = none := by rw [absent]; rfl
      have empty : spec.members (σ spec.name) = [] := by rw [absent]; rfl
      refine ⟨groups, ?_, filled, ?_⟩
      · rw [Expression.contributions_cons, none, joined]
        rfl
      · rw [List.flatMap_cons, empty]
        exact stand
    · obtain ⟨pieces, expanded, nonempty, standing⟩ :=
        expand_pieces delimiting (formed spec List.mem_cons_self) here absent
      refine ⟨pieces :: groups, ?_, ?_, ?_⟩
      · rw [Expression.contributions_cons, expanded, joined]
        rfl
      · rw [List.mem_cons]
        exact not_or.mpr ⟨fun same => nonempty same.symm, filled⟩
      · rw [List.flatten_cons, List.flatMap_cons]
        exact List.rel_append standing stand

omit delimiting in
theorem members_ne_nil {spec : VarSpec} {value : Value} (spreads : spec.Spreads value)
    (present : value ≠ .absent) : spec.members value ≠ [] := by
  cases value with
  | absent => exact absurd rfl present
  | scalar text => exact List.cons_ne_nil _ _
  | list items => exact mt List.map_eq_nil_iff.mp spreads.2
  | map pairs => exact mt List.map_eq_nil_iff.mp spreads.2

end Delimited

/-- An accepted body with such an operator, every list and map exploded and not empty, expands to
the prefix and pieces between separators, one for each member in order. -/
theorem Expression.splitOn_expand {body : List Char} {e : Expression}
    (parsed : Expression.parse body = .ok e) (delimiting : e.operator ∈ Delimited.operators)
    (bindings : Bindings) (spreads : ∀ spec ∈ e.specs, spec.Spreads (bindings.value spec.name))
    (defined : ∃ spec ∈ e.specs, bindings.value spec.name ≠ .absent) :
    ∃ rest, (Expression.parse body).map (Expression.expand bindings.value) =
        .ok (e.operator.first ++ rest) ∧
      List.Forall₂ (Delimited.Reads e.operator) (rest.splitOn e.operator.separator)
        (e.specs.flatMap fun spec => spec.members (bindings.value spec.name)) := by
  obtain ⟨groups, joined, filled, stand⟩ :=
    Delimited.contributions_groups delimiting (wellFormed_of_parse parsed) spreads
  -- Empty text would be cut into one empty piece, so there has to be a piece.
  have pieces : groups.flatten ≠ [] := by
    intro none
    rw [none, List.forall₂_nil_left_iff, List.flatMap_eq_nil_iff] at stand
    obtain ⟨spec, member, present⟩ := defined
    exact Delimited.members_ne_nil (spreads spec member) present (stand spec member)
  have both := stand.imp fun piece member standing =>
    show e.operator.separator ∉ piece ∧ Delimited.Reads e.operator piece member from
      ⟨standing.whole, standing.reads⟩
  obtain ⟨whole, reads⟩ := (List.forall₂_and_left _ _).mp both
  refine ⟨[e.operator.separator].intercalate groups.flatten, ?_, ?_⟩
  · have expanded : e.expand bindings.value = e.operator.first ++
        [e.operator.separator].intercalate (e.contributions bindings.value) := by
      unfold Expression.expand Operator.assemble
      split
      · next empty =>
        rw [joined, List.map_eq_nil_iff] at empty
        rw [empty] at pieces
        exact absurd rfl pieces
      · rfl
    rw [parsed, Except.map, expanded, joined, intercalate_groups _ filled]
  · rw [List.splitOn_intercalate _ whole pieces]
    exact reads

theorem Expression.query_splitOn_expand :
    ∃ (e : Expression) (bindings : Bindings),
      Expression.parse "?q,l*,m*,gone".toList = .ok e ∧ e.operator ∈ Delimited.operators ∧
      bindings = [("q".toList, .text "a&b=c".toList),
        ("l".toList, .list [.text "é".toList, .text []]),
        ("m".toList, .map [(.text "k=&".toList, .integer 1)])] ∧
      (∀ spec ∈ e.specs, spec.Spreads (bindings.value spec.name)) ∧
      (∃ spec ∈ e.specs, bindings.value spec.name ≠ .absent) ∧
      e.expand bindings.value = "?q=a%26b%3Dc&l=%C3%A9&l=&k%3D%26=1".toList ∧
      ∃ rest, (Expression.parse "?q,l*,m*,gone".toList).map (Expression.expand bindings.value) =
          .ok (e.operator.first ++ rest) ∧
        List.Forall₂ (Delimited.Reads e.operator) (rest.splitOn e.operator.separator)
          (e.specs.flatMap fun spec => spec.members (bindings.value spec.name)) := by
  refine ⟨⟨.query, [⟨"q".toList, none, false⟩, ⟨"l".toList, none, true⟩, ⟨"m".toList, none, true⟩,
    ⟨"gone".toList, none, false⟩]⟩, _, by rfl, by decide, rfl, ?_, ?_, by rfl, ?_⟩
  · decide
  · decide
  · exact Expression.splitOn_expand (by rfl) (by decide) _ (by decide) (by decide)

end UriTemplate
