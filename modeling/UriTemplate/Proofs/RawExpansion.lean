import UriTemplate.Proofs.WellFormed
import UriTemplate.Template.Raw

/-! Expansion under texts of code points, next to that under texts of characters. Characters expand
as before, whatever the template. A well-formed template fails exactly where a text that it encodes
has a surrogate, and then with an error of encoding only. -/

set_option autoImplicit false

namespace UriTemplate

def CodePoint.Encodable (text : List CodePoint) : Prop :=
  ∀ n, .surrogate n ∉ text

/-- No text of the value has surrogates in what the specification leaves of it. -/
def VarSpec.Encodable (spec : VarSpec) : Value CodePoint → Prop
  | .absent => True
  | .scalar text => CodePoint.Encodable (spec.cut text)
  | .list items => ∀ item ∈ items, CodePoint.Encodable item
  | .map pairs => ∀ pair ∈ pairs, CodePoint.Encodable pair.1 ∧ CodePoint.Encodable pair.2

def Part.Encodable (σ : List Char → Value CodePoint) : Part → Prop
  | .literal _ => True
  | .expression e => ∀ spec ∈ e.specs, spec.Encodable (σ spec.name)

/-- Whatever a template encodes under these bindings is free of surrogates. -/
def Template.Encodable (template : Template) (bindings : Bindings CodePoint) : Prop :=
  ∀ parts, template.parts = .ok parts → ∀ part ∈ parts, part.Encodable bindings.value

def Value.raw : Value → Value CodePoint
  | .absent => .absent
  | .scalar text => .scalar (text.map .char)
  | .list items => .list (items.map (List.map .char))
  | .map pairs => .map (pairs.map fun pair => (pair.1.map .char, pair.2.map .char))

namespace Datum

mutual

def raw : Datum → Datum CodePoint
  | .nothing => .nothing
  | .truth b => .truth b
  | .integer n => .integer n
  | .real x => .real x
  | .text s => .text (s.map .char)
  | .octets bs => .octets bs
  | .list items => .list (rawItems items)
  | .tuple items => .tuple (rawItems items)
  | .map entries => .map (rawEntries entries)
  | .value v => .value v.raw

def rawItems : List Datum → List (Datum CodePoint)
  | [] => []
  | item :: rest => raw item :: rawItems rest

def rawEntries : List (Datum × Datum) → List (Datum CodePoint × Datum CodePoint)
  | [] => []
  | (key, item) :: rest => (raw key, raw item) :: rawEntries rest

end

end Datum

def Bindings.raw (bindings : Bindings) : Bindings CodePoint :=
  bindings.map fun (name, datum) => (name, datum.raw)

/-! ## Texts -/

namespace CodePoint

theorem split_map_char (text : List Char) : split (text.map .char) = (text, none) := by
  induction text with
  | nil => rfl
  | cons c rest ih => rw [List.map_cons, split, ih]

theorem split_eq_none (text : List CodePoint) : (split text).2 = none ↔ Encodable text := by
  induction text with
  | nil => simp [split, Encodable]
  | cons p rest ih =>
    cases p with
    | char c => simpa [split, Encodable] using ih
    | surrogate n =>
      simp only [split, reduceCtorEq, false_iff]
      exact fun free => free n List.mem_cons_self

theorem characters_map_char (place : List Char → Nat) (text : List Char) :
    characters place (text.map .char) = .ok text := by
  rw [characters, split_map_char]

theorem exists_characters (place : List Char → Nat) (text : List CodePoint) :
    (∃ chars, characters place text = .ok chars) ↔ Encodable text := by
  rw [← split_eq_none, characters]
  obtain ⟨before, found⟩ := split text
  cases found <;> simp

theorem quote_map_char (text : List Char) : quote (text.map .char) = Text.quote text := by
  have chars : (text.map .char).filterMap char? = text := by
    rw [List.filterMap_map]
    exact List.filterMap_some
  rw [quote, chars, List.flatMap_map]
  rfl

end CodePoint

/-! ## Variables and expressions -/

theorem VarSpec.cut_map {α β : Type} (f : α → β) (spec : VarSpec) (text : List α) :
    spec.cut (text.map f) = (spec.cut text).map f := by
  unfold cut
  split <;> simp

namespace Operator

variable (op : Operator) (spec : VarSpec)

theorem encodeRaw_map_char (text : List Char) :
    op.encodeRaw (text.map .char) = .ok (op.encode text) := by
  unfold encodeRaw Percent.encodeReservedRaw Percent.encodeRaw encode
  simp only [CodePoint.characters_map_char, Except.map]
  split <;> rfl

theorem exists_encodeRaw (text : List CodePoint) :
    (∃ encoded, op.encodeRaw text = .ok encoded) ↔ CodePoint.Encodable text := by
  unfold encodeRaw Percent.encodeReservedRaw Percent.encodeRaw
  split <;> rw [exists_map_eq_ok, CodePoint.exists_characters]

theorem encodePairRaw_eq_ok {pair : List CodePoint × List CodePoint}
    {encoded : List Char × List Char} :
    op.encodePairRaw pair = .ok encoded ↔
      op.encodeRaw pair.1 = .ok encoded.1 ∧ op.encodeRaw pair.2 = .ok encoded.2 := by
  unfold encodePairRaw
  cases op.encodeRaw pair.1 with
  | error e => simp [bind, Except.bind]
  | ok key =>
    cases op.encodeRaw pair.2 <;> simp [bind, Except.bind, pure, Except.pure, Prod.ext_iff]

theorem exists_encodePairRaw (pair : List CodePoint × List CodePoint) :
    (∃ encoded, op.encodePairRaw pair = .ok encoded) ↔
      CodePoint.Encodable pair.1 ∧ CodePoint.Encodable pair.2 := by
  simp only [encodePairRaw_eq_ok, Prod.exists, exists_and_left, exists_and_right, exists_encodeRaw]

theorem expandRaw_raw (value : Value) :
    op.expandRaw spec value.raw = .ok (op.expand spec value) := by
  cases value with
  | absent => rfl
  | scalar text =>
    rw [Value.raw, expandRaw, VarSpec.cut_map, encodeRaw_map_char]
    rfl
  | list items =>
    simp only [Value.raw, expandRaw, expand, List.map_eq_nil_iff]
    split
    · rfl
    · rw [mapM_map_eq_ok op.encodeRaw_map_char, Except.map, List.map_map]
      rfl
  | map pairs =>
    simp only [Value.raw, expandRaw, expand, List.map_eq_nil_iff]
    split
    · rfl
    · rw [mapM_map_eq_ok (h := fun pair => (op.encode pair.1, op.encode pair.2)), Except.map,
        List.map_map, List.map_map]
      · rfl
      · intro pair
        rw [encodePairRaw_eq_ok]
        exact ⟨op.encodeRaw_map_char _, op.encodeRaw_map_char _⟩

theorem exists_expandRaw (value : Value CodePoint) :
    (∃ contributed, op.expandRaw spec value = .ok contributed) ↔ spec.Encodable value := by
  cases value with
  | absent => simp [expandRaw, VarSpec.Encodable]
  | scalar text => rw [expandRaw, exists_map_eq_ok, exists_encodeRaw, VarSpec.Encodable]
  | list items =>
    rw [expandRaw, VarSpec.Encodable]
    split
    · next skipped => simp [skipped.1]
    · rw [exists_map_eq_ok, exists_mapM_eq_ok]
      simp only [exists_encodeRaw]
  | map pairs =>
    rw [expandRaw, VarSpec.Encodable]
    split
    · next skipped => simp [skipped.1]
    · rw [exists_map_eq_ok, exists_mapM_eq_ok]
      simp only [exists_encodePairRaw]

end Operator

namespace Expression

theorem expandRaw_raw (σ : List Char → Value) (e : Expression) :
    e.expandRaw (fun name => (σ name).raw) = .ok (e.expand σ) := by
  have each : e.specs.mapM (fun spec => e.operator.expandRaw spec (σ spec.name).raw) =
      .ok (e.specs.map fun spec => e.operator.expand spec (σ spec.name)) := by
    simpa using mapM_map_eq_ok (g := id)
      (fun spec => e.operator.expandRaw_raw spec (σ spec.name)) e.specs
  rw [expandRaw, each, Except.map, List.filterMap_map]
  rfl

theorem exists_expandRaw (σ : List Char → Value CodePoint) (e : Expression) :
    (∃ text, e.expandRaw σ = .ok text) ↔ (Part.expression e).Encodable σ := by
  rw [expandRaw, exists_map_eq_ok, exists_mapM_eq_ok, Part.Encodable]
  simp only [Operator.exists_expandRaw]

end Expression

/-! ## Data -/

namespace Datum

theorem quote_raw (text : List Char) :
    Text.Element.quote (text.map CodePoint.char) = Text.Element.quote text :=
  CodePoint.quote_map_char text

theorem valueText_raw (value : Value) : valueText value.raw = valueText value := by
  -- Unfolded, because the equations of `valueText` would spell out its strings.
  unfold valueText Value.raw
  cases value <;> simp only [List.map_map, Function.comp_def, quote_raw]

mutual

theorem nested_raw : ∀ datum : Datum, datum.raw.nested = datum.nested
  | .nothing | .truth true | .truth false | .integer _ | .real _ | .octets _ => rfl
  | .text s => CodePoint.quote_map_char s
  | .list items => by rw [raw, nested, nested, nestedItems_raw]
  | .tuple items => by rw [raw, nested, nested, nestedItems_raw]
  | .map entries => by rw [raw, nested, nested, nestedEntries_raw]
  | .value v => valueText_raw v

theorem nestedItems_raw : ∀ items : List Datum, nestedItems (rawItems items) = nestedItems items
  | [] => rfl
  | item :: rest => by rw [rawItems, nestedItems, nestedItems, nested_raw, nestedItems_raw]

theorem nestedEntries_raw : ∀ entries : List (Datum × Datum),
    nestedEntries (rawEntries entries) = nestedEntries entries
  | [] => rfl
  | (key, item) :: rest => by
    rw [rawEntries, nestedEntries, nestedEntries, nested_raw, nested_raw, nestedEntries_raw]

end

theorem toText_raw (datum : Datum) : datum.raw.toText = datum.toText.map .char := by
  have written := nested_raw datum
  cases datum with
  | text s => rfl
  -- What is written from other data has characters only.
  | _ =>
    simp only [raw] at written ⊢
    simp only [toText, written, Text.Element.ofChar, List.map_id]

theorem rawItems_eq (items : List Datum) : rawItems items = items.map raw := by
  induction items with
  | nil => rfl
  | cons item rest ih => rw [rawItems, ih, List.map_cons]

theorem rawEntries_eq (entries : List (Datum × Datum)) :
    rawEntries entries = entries.map fun entry => (entry.1.raw, entry.2.raw) := by
  induction entries with
  | nil => rfl
  | cons entry rest ih => rw [rawEntries, ih, List.map_cons]

theorem toValue_raw (datum : Datum) : datum.raw.toValue = datum.toValue.raw := by
  have written := toText_raw datum
  cases datum with
  | nothing | value => rfl
  | list items | tuple items =>
    simp only [raw, toValue, Value.raw, rawItems_eq, List.map_map, Function.comp_def, toText_raw]
  | map entries =>
    simp only [raw, toValue, Value.raw, rawEntries_eq, List.map_map, Function.comp_def, toText_raw]
  | _ =>
    simp only [raw] at written ⊢
    simp only [toValue, written, Value.raw]

end Datum

theorem Bindings.value_raw (bindings : Bindings) (name : List Char) :
    bindings.raw.value name = (bindings.value name).raw := by
  have found : bindings.raw.reverse.lookup name =
      (bindings.reverse.lookup name).map Datum.raw := by
    rw [raw, ← List.map_reverse]
    induction bindings.reverse with
    | nil => rfl
    | cons binding rest ih =>
      rw [List.map_cons, List.lookup_cons, List.lookup_cons, ih]
      cases name == binding.1 <;> rfl
  rw [value, value, found]
  cases bindings.reverse.lookup name with
  | none => rfl
  | some datum => exact datum.toValue_raw

/-! ## Templates -/

def Part.expandRaw (σ : List Char → Value CodePoint) : Part → Except EncodingError (List Char)
  | .literal text => .ok text
  | .expression e => e.expandRaw σ

theorem Part.exists_expandRaw (σ : List Char → Value CodePoint) (part : Part) :
    (∃ text, part.expandRaw σ = .ok text) ↔ part.Encodable σ := by
  cases part with
  | literal text => simp [expandRaw, Encodable]
  | expression e => exact e.exists_expandRaw σ

theorem Piece.expandRaw_raw (σ : List Char → Value) (piece : Piece) :
    piece.expandRaw (fun name => (σ name).raw) = (piece.expand σ).mapError .template := by
  cases piece with
  | plain text => rfl
  | braced body position =>
    rw [expandRaw, expand]
    cases Expression.parse body with
    | error e => rfl
    | ok e =>
      simp only [Expression.expandRaw_raw]
      rfl

theorem Piece.expandRaw_of_part (σ : List Char → Value CodePoint) {piece : Piece} {part : Part}
    (read : Part.ofPiece piece = .ok part) :
    piece.expandRaw σ = (part.expandRaw σ).mapError .encoding := by
  cases piece with
  | plain text =>
    cases read
    rfl
  | braced body position =>
    obtain ⟨e, parsed, rfl⟩ := map_eq_ok.mp read
    rw [expandRaw, parsed]
    rfl

theorem Scan.collect_mapError {α δ ε : Type} {read : Piece → Except ε α}
    {other : Piece → Except δ α} {f : ε → δ} (same : ∀ piece, other piece = (read piece).mapError f)
    (fault : Option ε) (pieces : List Piece) :
    collect other (fault.map f) pieces = (collect read fault pieces).mapError f := by
  induction pieces with
  | nil => cases fault <;> rfl
  | cons piece rest ih =>
    simp only [collect, same, ih]
    cases read piece with
    | error e => rfl
    | ok first => cases collect read fault rest <;> rfl

theorem Scan.collect_of_parts {α δ ε : Type} {read : Piece → Except δ α}
    {readPart : Part → Except ε α} {f : ε → δ} {pieces : List Piece} {parts : List Part}
    (same : List.Forall₂ (fun piece part => read piece = (readPart part).mapError f) pieces parts) :
    collect read none pieces = (parts.mapM readPart).mapError f := by
  induction same with
  | nil => rfl
  | cons first _ ih =>
    rw [collect, first, ih, List.mapM_cons]
    cases readPart _ with
    | error e => rfl
    | ok a => cases List.mapM readPart _ <;> rfl

namespace Template

variable (template : Template)

theorem expandRaw_raw (bindings : Bindings) :
    template.expandRaw bindings.raw = (template.expand bindings).mapError .template := by
  have values : bindings.raw.value = fun name => (bindings.value name).raw :=
    funext bindings.value_raw
  unfold expandRaw expand expandWith collect
  simp only [values, Scan.collect_mapError (Piece.expandRaw_raw bindings.value)]
  cases Scan.collect (Piece.expand bindings.value) _ _ <;> rfl

variable {template} {parts : List Part} (wellFormed : template.parts = .ok parts)
include wellFormed

theorem expandRaw_of_parts (bindings : Bindings CodePoint) :
    template.expandRaw bindings =
      ((parts.mapM (Part.expandRaw bindings.value)).map List.flatten).mapError .encoding := by
  obtain ⟨ended, read⟩ := scan_of_parts wellFormed
  have each : Scan.collect (Piece.expandRaw bindings.value) none (scan template.text).pieces =
      (parts.mapM (Part.expandRaw bindings.value)).mapError .encoding :=
    Scan.collect_of_parts (read.imp fun _ _ => Piece.expandRaw_of_part bindings.value)
  have complete : (scan template.text).error? template.text = none := by
    rw [Scan.error?, ended]
    rfl
  simp only [expandRaw, complete, Option.map_none, each]
  cases parts.mapM (Part.expandRaw bindings.value) <;> rfl

theorem encodable_iff (bindings : Bindings CodePoint) :
    template.Encodable bindings ↔ ∀ part ∈ parts, part.Encodable bindings.value := by
  constructor
  · exact fun encodable => encodable parts wellFormed
  · intro encodable others read
    rw [wellFormed] at read
    cases read
    exact encodable

theorem exists_expandRaw (bindings : Bindings CodePoint) :
    (∃ text, template.expandRaw bindings = .ok text) ↔ template.Encodable bindings := by
  rw [encodable_iff wellFormed, expandRaw_of_parts wellFormed]
  simp only [← Part.exists_expandRaw, ← exists_mapM_eq_ok]
  cases parts.mapM (Part.expandRaw bindings.value) <;> simp [Except.map, Except.mapError]

theorem expandRaw_refused {bindings : Bindings CodePoint}
    (refused : ¬ template.Encodable bindings) :
    ∃ e, template.expandRaw bindings = .error (.encoding e) := by
  rw [← exists_expandRaw wellFormed] at refused
  rw [expandRaw_of_parts wellFormed] at refused ⊢
  cases read : parts.mapM (Part.expandRaw bindings.value) with
  | error e => exact ⟨e, rfl⟩
  | ok texts =>
    rw [read] at refused
    exact absurd ⟨texts.flatten, rfl⟩ refused

end Template

end UriTemplate
