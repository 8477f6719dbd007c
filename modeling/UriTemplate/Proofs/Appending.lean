import UriTemplate.Datum.Bindings
import UriTemplate.Expression.Expansion
import UriTemplate.Proofs.Expression

/-! Expansion from left to right, as Appendix A of RFC 6570 describes it: each defined variable is
appended to the result at once, behind the first string of the operator or its separator. The
expansion that collects contributions and joins them gives the same text. -/

set_option autoImplicit false

namespace UriTemplate

namespace Appending

/-- A column of the table of operators. Reserved characters and triplets are either allowed in
values or encoded. -/
structure Column where
  first : List Char
  sep : Char
  named : Bool
  ifemp : List Char
  allowReserved : Bool

def column : Operator → Column
  | .simple => ⟨[], ',', false, [], false⟩
  | .reserved => ⟨[], ',', false, [], true⟩
  | .fragment => ⟨['#'], ',', false, [], true⟩
  | .label => ⟨['.'], '.', false, [], false⟩
  | .path => ⟨['/'], '/', false, [], false⟩
  | .pathParameter => ⟨[';'], ';', true, [], false⟩
  | .query => ⟨['?'], '&', true, ['='], false⟩
  | .continuation => ⟨['&'], '&', true, ['='], false⟩

def appendEach (sep : Char) (result : List Char) : List (List Char) → List Char
  | [] => result
  | text :: rest => rest.foldl (fun result next => result ++ sep :: next) (result ++ text)

namespace Column

def encode (col : Column) (text : List Char) : List Char :=
  if col.allowReserved then Percent.encodeReserved text else Percent.encode text

def assign (col : Column) (name value : List Char) : List Char :=
  if value = [] then name ++ col.ifemp else name ++ '=' :: col.encode value

def appendString (col : Column) (spec : VarSpec) (result text : List Char) : List Char :=
  let result :=
    if col.named then result ++ spec.name ++ (if text = [] then col.ifemp else ['=']) else result
  result ++ col.encode (spec.head text)

def appendTogether (col : Column) (spec : VarSpec) (result : List Char)
    (members : List (List Char)) : List Char :=
  let result := if col.named then result ++ spec.name ++ ['='] else result
  appendEach ',' result (members.map col.encode)

def item (col : Column) (spec : VarSpec) (text : List Char) : List Char :=
  if col.named then col.assign spec.name text else col.encode text

def pair (col : Column) (entry : List Char × List Char) : List Char :=
  if col.named then col.assign (col.encode entry.1) entry.2
  else col.encode entry.1 ++ '=' :: col.encode entry.2

def appendValue (col : Column) (spec : VarSpec) (result : List Char) : Value → List Char
  | .absent => result
  | .scalar text => col.appendString spec result text
  | .list items =>
    if spec.exploded then appendEach col.sep result (items.map (col.item spec))
    else col.appendTogether spec result items
  | .map pairs =>
    if spec.exploded then appendEach col.sep result (pairs.map col.pair)
    else col.appendTogether spec result (pairs.flatMap fun entry => [entry.1, entry.2])

/-- One variable. The state is the result so far and whether a defined variable came before. -/
def step (col : Column) (σ : List Char → Value) (state : List Char × Bool) (spec : VarSpec) :
    List Char × Bool :=
  match σ spec.name with
  | .absent => state
  | value =>
    (col.appendValue spec (state.1 ++ if state.2 then [col.sep] else col.first) value, true)

def run (col : Column) (σ : List Char → Value) (specs : List VarSpec) : List Char :=
  (specs.foldl (col.step σ) ([], false)).1

end Column

/-! ## The table -/

variable (op : Operator)

theorem encode_column : (column op).encode = op.encode := by
  funext text
  cases op <;> rfl

theorem named_column : (column op).named = op.isNamed := by
  cases op <;> rfl

theorem sep_column : (column op).sep = op.separator := by
  cases op <;> rfl

theorem first_column : (column op).first = op.first := by
  cases op <;> rfl

theorem ifemp_column (named : op.isNamed = true) : (column op).ifemp = op.ifEmpty := by
  cases op
  all_goals first | rfl | cases named

/-! ## Appended texts -/

theorem appendEach_eq (sep : Char) (result : List Char) (texts : List (List Char)) :
    appendEach sep result texts = result ++ [sep].intercalate texts := by
  cases texts with
  | nil => simp [appendEach]
  | cons text rest =>
    have later : ∀ start : List Char,
        rest.foldl (fun result next => result ++ sep :: next) start =
          start ++ rest.flatMap ([sep] ++ ·) := by
      induction rest with
      | nil => intro start; simp
      | cons next rest ih =>
        intro start
        rw [List.foldl_cons, ih, List.flatMap_cons, List.append_assoc, List.append_assoc]
        rfl
    rw [appendEach, later, intercalate_cons, List.append_assoc]

theorem appendString_eq {spec : VarSpec} (formed : spec.WellFormed) (result text : List Char) :
    (column op).appendString spec result text = result ++ op.expandString spec text := by
  simp only [Column.appendString, Operator.expandString, Operator.writeString, Operator.withName,
    encode_column, named_column, VarSpec.cut_eq_head formed]
  by_cases named : op.isNamed = true
  -- One side asks whether the text is empty, the other whether anything is left of it once it is
  -- cut and encoded.
  · have empty : Percent.encode (spec.head text) = [] ↔ text = [] :=
      Percent.encode_eq_nil.trans (VarSpec.head_eq_nil formed text)
    rw [ifemp_column op named, Operator.encode_of_isNamed named]
    by_cases none : text = []
    · have encoded := empty.mpr none
      simp only [named, none ▸ encoded, if_true, none, true_and, List.append_nil, List.append_assoc]
    · have encoded := mt empty.mp none
      simp only [named, encoded, none, if_true, if_false, and_false, List.append_assoc,
        List.singleton_append]
  · simp only [named, false_and, Bool.false_eq_true, if_false]

theorem appendTogether_eq (spec : VarSpec) (result : List Char) (members : List (List Char)) :
    (column op).appendTogether spec result members =
      result ++ op.withName spec ([','].intercalate (members.map op.encode)) := by
  simp only [Column.appendTogether, Operator.withName, encode_column, named_column,
    appendEach_eq]
  split
  · simp only [List.append_assoc, List.singleton_append]
  · rfl

/-- A name before its value. Only the path parameter omits the sign before an empty one. -/
theorem assign_eq (named : op.isNamed = true) (name : List Char) {value : List Char}
    (filled : op = .pathParameter → value ≠ []) :
    (column op).assign name value = name ++ '=' :: op.encode value := by
  unfold Column.assign
  split
  · next empty =>
    cases op
    case pathParameter => exact absurd empty (filled rfl)
    case query | continuation => subst empty; rfl
    all_goals cases named
  · rw [encode_column]

theorem item_eq (spec : VarSpec) {text : List Char} (filled : op = .pathParameter → text ≠ []) :
    (column op).item spec text = op.withName spec (op.encode text) := by
  unfold Column.item Operator.withName
  rw [named_column]
  split
  · next named => exact assign_eq op named spec.name filled
  · rw [encode_column]

theorem pair_eq {entry : List Char × List Char} (filled : op = .pathParameter → entry.2 ≠ []) :
    (column op).pair entry = op.encode entry.1 ++ '=' :: op.encode entry.2 := by
  unfold Column.pair
  rw [named_column, encode_column]
  split
  · next named => exact assign_eq op named (op.encode entry.1) filled
  · rfl

theorem intercalate_pairs (encode : List Char → List Char) (pairs : List (List Char × List Char)) :
    [','].intercalate ((pairs.flatMap fun entry => [entry.1, entry.2]).map encode) =
      [','].intercalate (pairs.map fun entry => encode entry.1 ++ ',' :: encode entry.2) := by
  have filled : [] ∉ pairs.map fun entry => [encode entry.1, encode entry.2] := by simp
  -- Each pair is a group of two that is joined by itself first.
  have joined := intercalate_groups [','] filled
  rw [List.map_flatMap, List.flatMap_def]
  rw [List.map_map] at joined
  refine joined.symm.trans (congrArg _ (List.map_congr_left fun entry _ => ?_))
  simp

end Appending

/-! ## Values -/

def Value.HasMembers : Value → Prop
  | .list items => items ≠ []
  | .map pairs => pairs ≠ []
  | _ => True

def Value.MembersFilled : Value → Prop
  | .list items => ∀ item ∈ items, item ≠ []
  | .map pairs => ∀ entry ∈ pairs, entry.2 ≠ []
  | _ => True

instance : DecidablePred Value.HasMembers
  | .absent => isTrue trivial
  | .scalar _ => isTrue trivial
  | .list items => inferInstanceAs (Decidable (items ≠ []))
  | .map pairs => inferInstanceAs (Decidable (pairs ≠ []))

instance : DecidablePred Value.MembersFilled
  | .absent => isTrue trivial
  | .scalar _ => isTrue trivial
  | .list items => inferInstanceAs (Decidable (∀ item ∈ items, item ≠ []))
  | .map pairs => inferInstanceAs (Decidable (∀ entry ∈ pairs, entry.2 ≠ []))

namespace Appending

/-- Where both expansions agree on a variable. An operator that omits the sign before an empty
value omits it before a string, not before a member. -/
structure Agrees (op : Operator) (spec : VarSpec) (value : Value) : Prop where
  formed : spec.WellFormed
  members : value.HasMembers
  filled : op = .pathParameter → spec.exploded = true → value.MembersFilled

theorem appendValue_eq {op : Operator} {spec : VarSpec} {value : Value}
    (agrees : Agrees op spec value) (present : value ≠ .absent) :
    ∃ text, op.expand spec value = some text ∧
      ∀ result, (column op).appendValue spec result value = result ++ text := by
  cases value with
  | absent => exact absurd rfl present
  | scalar text => exact ⟨_, rfl, fun result => appendString_eq op agrees.formed result text⟩
  | list items =>
    have kept : ¬ (items = [] ∧ op.skipsEmptyList = true) := fun skipped =>
      agrees.members skipped.1
    refine ⟨_, if_neg kept, fun result => ?_⟩
    simp only [Column.appendValue, Operator.expandMembers]
    split
    · next exploded =>
      rw [appendEach_eq, sep_column]
      congr 2
      apply List.map_congr_left
      intro item member
      exact item_eq op spec fun path => agrees.filled path exploded item member
    · exact appendTogether_eq op spec result items
  | map pairs =>
    have kept : ¬ (pairs = [] ∧ op.skipsEmptyMap = true) := fun skipped =>
      agrees.members skipped.1
    refine ⟨_, if_neg kept, fun result => ?_⟩
    simp only [Column.appendValue, Operator.expandMembers]
    split
    · next exploded =>
      rw [appendEach_eq, sep_column]
      congr 2
      apply List.map_congr_left
      intro entry member
      exact pair_eq op fun path => agrees.filled path exploded entry member
    · rw [appendTogether_eq, intercalate_pairs]

/-! ## Runs -/

variable {op : Operator} {σ : List Char → Value}

theorem step_eq {spec : VarSpec} (agrees : Agrees op spec (σ spec.name)) (result : List Char)
    (begun : Bool) :
    (column op).step σ (result, begun) spec =
      match op.expand spec (σ spec.name) with
      | none => (result, begun)
      | some text => (result ++ (if begun then [op.separator] else op.first) ++ text, true) := by
  cases value : σ spec.name with
  | absent => simp only [Column.step, value, Operator.expand]
  | _ =>
    rw [value] at agrees
    obtain ⟨text, expanded, appended⟩ := appendValue_eq agrees (by simp)
    simp only [Column.step, value, expanded, appended, sep_column, first_column]

theorem foldl_begun {specs : List VarSpec}
    (agrees : ∀ spec ∈ specs, Agrees op spec (σ spec.name)) (result : List Char) :
    specs.foldl ((column op).step σ) (result, true) =
      (result ++ (specs.filterMap fun spec => op.expand spec (σ spec.name)).flatMap
        ([op.separator] ++ ·), true) := by
  induction specs generalizing result with
  | nil => simp
  | cons spec rest ih =>
    have later := ih fun other member => agrees other (List.mem_cons_of_mem _ member)
    rw [List.foldl_cons, step_eq (agrees spec List.mem_cons_self)]
    cases expanded : op.expand spec (σ spec.name) with
    | none => simp only [List.filterMap_cons, expanded, later]
    | some text =>
      simp only [List.filterMap_cons, expanded, later, if_true, List.flatMap_cons,
        List.append_assoc]

-- The induction runs over the variables that are left out before the first defined one; from there
-- on the state does not change and `foldl_begun` gives the rest.
theorem run_eq {specs : List VarSpec} (agrees : ∀ spec ∈ specs, Agrees op spec (σ spec.name)) :
    (column op).run σ specs = Expression.expand σ ⟨op, specs⟩ := by
  unfold Column.run
  induction specs with
  | nil => rfl
  | cons spec rest ih =>
    have others := fun other member => agrees other (List.mem_cons_of_mem _ member)
    rw [List.foldl_cons, step_eq (agrees spec List.mem_cons_self)]
    cases expanded : op.expand spec (σ spec.name) with
    | none =>
      have skipped : Expression.expand σ ⟨op, spec :: rest⟩ = Expression.expand σ ⟨op, rest⟩ := by
        simp only [Expression.expand, Expression.contributions, List.filterMap_cons, expanded]
      rw [skipped]
      exact ih others
    | some text =>
      simp only [Expression.expand, Operator.assemble, Expression.contributions,
        List.filterMap_cons, expanded, foldl_begun others, intercalate_cons, List.nil_append,
        Bool.false_eq_true, if_false, List.append_assoc]

end Appending

/-- Where no value is an empty list or map and, for path parameters, no exploded member is empty,
an accepted body expands as the appending algorithm says. -/
theorem Expression.expand_eq_appended {body : List Char} {e : Expression}
    (parsed : Expression.parse body = .ok e) (bindings : Bindings)
    (members : ∀ spec ∈ e.specs, (bindings.value spec.name).HasMembers)
    (filled : e.operator = .pathParameter → ∀ spec ∈ e.specs, spec.exploded = true →
      (bindings.value spec.name).MembersFilled) :
    (Expression.parse body).map (Expression.expand bindings.value) =
      .ok ((Appending.column e.operator).run bindings.value e.specs) := by
  have agrees : ∀ spec ∈ e.specs, Appending.Agrees e.operator spec (bindings.value spec.name) :=
    fun spec member => {
      formed := wellFormed_of_parse parsed spec member
      members := members spec member
      filled := fun path exploded => filled path spec member exploded }
  rw [parsed, Appending.run_eq agrees]
  rfl

theorem Expression.path_parameters_appended :
    ∃ (e : Expression) (bindings : Bindings),
      Expression.parse ";x,y:2,l*,gone".toList = .ok e ∧
      bindings = [("x".toList, .text []), ("y".toList, .text "a;b".toList),
        ("l".toList, .list [.text "r".toList, .truth true])] ∧
      (∀ spec ∈ e.specs, (bindings.value spec.name).HasMembers) ∧
      (e.operator = .pathParameter → ∀ spec ∈ e.specs, spec.exploded = true →
        (bindings.value spec.name).MembersFilled) ∧
      (Expression.parse ";x,y:2,l*,gone".toList).map (Expression.expand bindings.value) =
        .ok ((Appending.column e.operator).run bindings.value e.specs) ∧
      (Appending.column e.operator).run bindings.value e.specs = ";x;y=a%3B;l=r;l=True".toList := by
  refine ⟨⟨.pathParameter, [⟨"x".toList, none, false⟩, ⟨"y".toList, some 2, false⟩,
    ⟨"l".toList, none, true⟩, ⟨"gone".toList, none, false⟩]⟩, _, by rfl, rfl, ?_, ?_, ?_, by rfl⟩
  · decide
  · decide
  · exact Expression.expand_eq_appended (by rfl) _ (by decide) (by decide)

end UriTemplate
