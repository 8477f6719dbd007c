import UriTemplate.Proofs.Appending
import UriTemplate.Proofs.Rendering

/-! Queries and their continuations. Both write their variables in one way and differ only in the
character that comes first, as long as no list and no map is empty; and what a continuation begins
with is the separator of a query. So a query can be cut at any comma behind a variable that is
defined, and the rest be written as a continuation. -/

set_option autoImplicit false

namespace UriTemplate

def Grammar.Listed (text : List Char) (specs : List VarSpec) : Prop :=
  ∃ pieces, Body text none pieces specs

def Template.marked (mark : Char) (list : List Char) : Template :=
  ⟨'{' :: mark :: list ++ ['}']⟩

namespace Grammar

theorem listed_iff {text : List Char} {specs : List VarSpec} :
    Listed text specs ↔ specs ≠ [] ∧ (∀ spec ∈ specs, spec.WellFormed) ∧
      [','].intercalate (specs.map VarSpec.render) = text := by
  constructor
  · rintro ⟨pieces, derived⟩
    have parsed : Expression.parse text = .ok ⟨.simple, specs⟩ := parse_body.mpr ⟨pieces, derived⟩
    have rendered : Expression.render ⟨.simple, specs⟩ = text := Body.render derived
    exact ⟨Expression.specs_ne_nil_of_parse parsed, Expression.wellFormed_of_parse parsed, rendered⟩
  · rintro ⟨filled, formed, rfl⟩
    exact ⟨_, body_render .simple filled formed⟩

theorem listed_of_parse {text : List Char} {specs : List VarSpec}
    (parsed : Expression.parse text = .ok ⟨.simple, specs⟩) : Listed text specs :=
  parse_body.mp parsed

theorem Listed.append {list more : List Char} {specs others : List VarSpec}
    (listed : Listed list specs) (also : Listed more others) :
    Listed (list ++ ',' :: more) (specs ++ others) := by
  obtain ⟨filled, formed, rfl⟩ := listed_iff.mp listed
  obtain ⟨filledMore, formedMore, rfl⟩ := listed_iff.mp also
  refine listed_iff.mpr ⟨List.append_ne_nil_of_left_ne_nil filled _,
    List.forall_mem_append.mpr ⟨formed, formedMore⟩, ?_⟩
  have rendered : specs.map VarSpec.render ≠ [] := mt List.map_eq_nil_iff.mp filled
  have renderedMore : others.map VarSpec.render ≠ [] := mt List.map_eq_nil_iff.mp filledMore
  rw [List.map_append, intercalate_append _ rendered, flatMap_append_sep _ renderedMore]
  rfl

end Grammar

/-! ## Contributions -/

namespace Operator

variable {spec : VarSpec} {value : Value} (members : value.HasMembers)
include members

theorem expand_continuation : continuation.expand spec value = query.expand spec value := by
  cases value with
  | absent => rfl
  | scalar text => rfl
  | list items =>
    have filled : items ≠ [] := members
    simp only [expand, filled, false_and, if_false]
    rfl
  | map pairs =>
    have filled : pairs ≠ [] := members
    simp only [expand, filled, false_and, if_false]
    rfl

theorem expand_eq_none (op : Operator) : op.expand spec value = none ↔ value = .absent := by
  cases value with
  | absent => simp [expand]
  | scalar text => simp [expand]
  | list items =>
    have filled : items ≠ [] := members
    simp [expand, filled]
  | map pairs =>
    have filled : pairs ≠ [] := members
    simp [expand, filled]

end Operator

namespace Expression

variable {σ : List Char → Value} {op : Operator} {specs : List VarSpec}

theorem contributions_continuation (members : ∀ spec ∈ specs, (σ spec.name).HasMembers) :
    contributions σ ⟨.continuation, specs⟩ = contributions σ ⟨.query, specs⟩ :=
  List.filterMap_congr fun spec member => Operator.expand_continuation (members spec member)

theorem contributions_eq_nil (members : ∀ spec ∈ specs, (σ spec.name).HasMembers) :
    contributions σ ⟨op, specs⟩ = [] ↔ ∀ spec ∈ specs, σ spec.name = .absent := by
  rw [contributions, List.filterMap_eq_nil_iff]
  apply forall₂_congr
  intro spec member
  exact Operator.expand_eq_none (members spec member) op

theorem expand_of_filled (filled : contributions σ ⟨op, specs⟩ ≠ []) :
    expand σ ⟨op, specs⟩ =
      op.first ++ [op.separator].intercalate (contributions σ ⟨op, specs⟩) := by
  unfold expand Operator.assemble
  split
  · next empty => exact absurd empty filled
  · rfl

theorem expand_append (filled : contributions σ ⟨op, specs⟩ ≠ []) (others : List VarSpec) :
    expand σ ⟨op, specs ++ others⟩ =
      expand σ ⟨op, specs⟩ ++ (contributions σ ⟨op, others⟩).flatMap ([op.separator] ++ ·) := by
  have both : contributions σ ⟨op, specs ++ others⟩ =
      contributions σ ⟨op, specs⟩ ++ contributions σ ⟨op, others⟩ := List.filterMap_append
  rw [expand_of_filled filled, expand_of_filled, both, intercalate_append _ filled,
    List.append_assoc]
  rw [both]
  exact List.append_ne_nil_of_left_ne_nil filled _

theorem expand_of_first_eq (same : op.first = [op.separator]) :
    expand σ ⟨op, specs⟩ = (contributions σ ⟨op, specs⟩).flatMap ([op.separator] ++ ·) := by
  unfold expand Operator.assemble
  split
  · next empty => rw [empty, List.flatMap_nil]
  · next filled => rw [same, flatMap_append_sep _ filled]

end Expression

/-! ## Templates -/

namespace Template

variable {list : List Char} {specs : List VarSpec}

theorem text_marked {op : Operator} {mark : Char} (known : op.char? = some mark)
    (listed : Grammar.Listed list specs) :
    (Part.expression ⟨op, specs⟩).render = (marked mark list).text := by
  obtain ⟨-, -, rfl⟩ := Grammar.listed_iff.mp listed
  rw [Part.render, Expression.render, Operator.render, known]
  rfl

theorem wellFormed_marked (op : Operator) (listed : Grammar.Listed list specs) :
    (Part.expression ⟨op, specs⟩).WellFormed := by
  obtain ⟨filled, formed, -⟩ := Grammar.listed_iff.mp listed
  exact ⟨filled, formed⟩

theorem expand_marked (op : Operator) {mark : Char} (known : op.char? = some mark)
    (listed : Grammar.Listed list specs) (bindings : Bindings) :
    (marked mark list).expand bindings = .ok (Expression.expand bindings.value ⟨op, specs⟩) := by
  have formed := List.forall_mem_singleton.mpr (wellFormed_marked op listed)
  have expanded := expand_flatMap_render formed bindings
  rw [List.flatMap_singleton, List.flatMap_singleton, text_marked known listed] at expanded
  exact expanded

theorem expand_marked_append (op next : Operator) {mark other : Char}
    (known : op.char? = some mark) (knownNext : next.char? = some other) {more : List Char}
    {others : List VarSpec} (listed : Grammar.Listed list specs) (also : Grammar.Listed more others)
    (bindings : Bindings) :
    (marked mark list ++ marked other more).expand bindings =
      .ok (Expression.expand bindings.value ⟨op, specs⟩ ++
        Expression.expand bindings.value ⟨next, others⟩) := by
  have formed : ∀ part ∈ [Part.expression ⟨op, specs⟩, .expression ⟨next, others⟩],
      part.WellFormed :=
    List.forall_mem_cons.mpr ⟨wellFormed_marked op listed,
      List.forall_mem_singleton.mpr (wellFormed_marked next also)⟩
  have expanded := expand_flatMap_render formed bindings
  simp only [List.flatMap_cons, List.flatMap_nil, List.append_nil, text_marked known listed,
    text_marked knownNext also] at expanded
  exact expanded

/-- A query and its continuation expand alike behind their first characters, and a query is
continued by what stands behind a variable that is defined. -/
theorem query_continued (listed : Grammar.Listed list specs) (bindings : Bindings)
    (members : ∀ spec ∈ specs, (bindings.value spec.name).HasMembers) :
    (∃ query continuation, (marked '?' list).expand bindings = .ok query ∧
      (marked '&' list).expand bindings = .ok continuation ∧
      ((∀ spec ∈ specs, bindings.value spec.name = .absent) ∧ query = [] ∧ continuation = [] ∨
        (∃ spec ∈ specs, bindings.value spec.name ≠ .absent) ∧
          ∃ rest, query = '?' :: rest ∧ continuation = '&' :: rest)) ∧
    ∀ (more : List Char) (others : List VarSpec), Grammar.Listed more others →
      (∀ spec ∈ others, (bindings.value spec.name).HasMembers) →
      (∃ spec ∈ specs, bindings.value spec.name ≠ .absent) →
      ∃ uri, (marked '?' (list ++ ',' :: more)).expand bindings = .ok uri ∧
        (marked '?' list ++ marked '&' more).expand bindings = .ok uri := by
  have empty : Expression.contributions bindings.value ⟨.query, specs⟩ = [] ↔
      ∀ spec ∈ specs, bindings.value spec.name = .absent :=
    Expression.contributions_eq_nil members
  have same := Expression.contributions_continuation members
  constructor
  · refine ⟨_, _, expand_marked .query rfl listed bindings,
      expand_marked .continuation rfl listed bindings, ?_⟩
    by_cases none : Expression.contributions bindings.value ⟨.query, specs⟩ = []
    · refine Or.inl ⟨empty.mp none, ?_, ?_⟩
      · rw [Expression.expand, none, Operator.assemble]
      · rw [Expression.expand, same, none, Operator.assemble]
    · refine Or.inr ⟨?_, _, Expression.expand_of_filled none, ?_⟩
      · simpa using mt empty.mpr none
      · rw [Expression.expand_of_filled (same ▸ none), same]
        rfl
  · intro more others also membersMore given
    obtain ⟨spec, member, defined⟩ := given
    have filled : Expression.contributions bindings.value ⟨.query, specs⟩ ≠ [] :=
      fun none => defined (empty.mp none spec member)
    have separates : Operator.continuation.first = [Operator.continuation.separator] := rfl
    refine ⟨_, expand_marked .query rfl (listed.append also) bindings, ?_⟩
    rw [expand_marked_append .query .continuation rfl rfl listed also,
      Expression.expand_append filled, Expression.expand_of_first_eq separates,
      Expression.contributions_continuation membersMore]
    rfl

/-- The first variable of each list is undefined, and an item and a value are empty. -/
theorem query_cut_at_comma :
    ∃ bindings : Bindings,
      bindings = [(['l'], .list [.text "a&".toList, .text []]), (['x'], .text [])] ∧
      Grammar.Listed "gone,l*".toList [⟨"gone".toList, none, false⟩, ⟨['l'], none, true⟩] ∧
      Grammar.Listed "y,x:3".toList [⟨['y'], none, false⟩, ⟨['x'], some 3, false⟩] ∧
      (∃ query continuation, (marked '?' "gone,l*".toList).expand bindings = .ok query ∧
        (marked '&' "gone,l*".toList).expand bindings = .ok continuation ∧
        ∃ rest, query = '?' :: rest ∧ continuation = '&' :: rest) ∧
      ∃ uri, (marked '?' "gone,l*,y,x:3".toList).expand bindings = .ok uri ∧
        (marked '?' "gone,l*".toList ++ marked '&' "y,x:3".toList).expand bindings = .ok uri := by
  have listed : Grammar.Listed "gone,l*".toList
      [⟨"gone".toList, none, false⟩, ⟨['l'], none, true⟩] := Grammar.listed_of_parse (by rfl)
  have also : Grammar.Listed "y,x:3".toList [⟨['y'], none, false⟩, ⟨['x'], some 3, false⟩] :=
    Grammar.listed_of_parse (by rfl)
  have defined : ∃ spec ∈ ([⟨"gone".toList, none, false⟩, ⟨['l'], none, true⟩] : List VarSpec),
      Bindings.value [(['l'], .list [.text "a&".toList, .text []]), (['x'], .text [])] spec.name ≠
        .absent := by decide
  obtain ⟨⟨query, continuation, queried, continued, shape⟩, cut⟩ :=
    query_continued listed [(['l'], .list [.text "a&".toList, .text []]), (['x'], .text [])]
      (by decide)
  refine ⟨_, rfl, listed, also, ⟨query, continuation, queried, continued, ?_⟩,
    cut _ _ also (by decide) defined⟩
  rcases shape with ⟨absent, -⟩ | ⟨-, alike⟩
  · obtain ⟨spec, member, present⟩ := defined
    exact absurd (absent spec member) present
  · exact alike

end Template

end UriTemplate
