import UriTemplate.Template.Basic

/-! The ways to cut a URI along a template, and which of them matching finds. A template is read as
a row of fields, fixed texts and captures; a cut gives each field its stretch of the URI. The search
finds a cut if there is one, and of all cuts the one whose captures are longest from the left. -/

set_option autoImplicit false

namespace UriTemplate

inductive Field where
  | text (text : List Char)
  | capture (kind : Capture)
  deriving DecidableEq, Repr

def Operator.capture (op : Operator) : Capture :=
  if op = .simple then .encoded else .line

def Part.fields : Part → List Field
  | .literal text => [.text text]
  | .expression e =>
    (e.specs.map fun _ => Field.capture e.operator.capture).intersperse
      (.text [e.operator.separator])

def EncodedChar (c : Char) : Prop :=
  c.isAlphanum = true ∨ c ∈ ['%', '_', '.', '~', '-']

instance : DecidablePred EncodedChar :=
  fun _ => instDecidableOr

def Capture.Admits : Capture → List Char → Prop
  | .encoded, text => text ≠ [] ∧ ∀ c ∈ text, EncodedChar c
  | .line, text => '\n' ∉ text

inductive Cut : List Field → List Char → Captures → Prop where
  | nil : Cut [] [] []
  | text {fields : List Field} {rest : List Char} {captures : Captures} (fixed : List Char) :
      Cut fields rest captures → Cut (.text fixed :: fields) (fixed ++ rest) captures
  | capture {fields : List Field} {rest taken : List Char} {captures : Captures} {kind : Capture} :
      kind.Admits taken → Cut fields rest captures →
        Cut (.capture kind :: fields) (taken ++ rest) (taken :: captures)

/-- The same captures, or captures whose lengths come earlier in lexicographic order. -/
def Captures.Below (others found : Captures) : Prop :=
  others = found ∨ others.map List.length < found.map List.length

/-- A cut with the greatest lengths of captures, the leftmost compared first. -/
def Cut.Greatest (fields : List Field) (uri : List Char) (captures : Captures) : Prop :=
  Cut fields uri captures ∧ ∀ others, Cut fields uri others → others.Below captures

/-! ## Searchers -/

/-- What a searcher finds are matches, and where there are matches it finds the greatest. -/
structure Finds (next : List Char → Option Captures) (matching : List Char → Captures → Prop) :
    Prop where
  sound : ∀ {text : List Char} {captures : Captures},
    next text = some captures → matching text captures
  greatest : ∀ {text : List Char} {others : Captures},
    matching text others → ∃ found, next text = some found ∧ others.Below found

namespace Captures

theorem Below.cons {others found : Captures} (below : others.Below found) (taken : List Char) :
    Below (taken :: others) (taken :: found) := by
  rcases below with rfl | earlier
  · exact Or.inl rfl
  · exact Or.inr (.cons earlier)

theorem Below.extend {taken first : List Char} {others found : Captures}
    (below : Below (taken :: others) (first :: found)) (c : Char) :
    Below ((c :: taken) :: others) ((c :: first) :: found) := by
  rcases below with same | earlier
  · rw [List.cons.injEq] at same
    rw [same.1, same.2]
    exact Or.inl rfl
  · refine Or.inr ?_
    simp only [List.map_cons, List.length_cons] at earlier ⊢
    rw [List.cons_lt_cons_iff] at earlier ⊢
    exact earlier.imp Nat.succ_lt_succ (And.imp_left (congrArg Nat.succ))

theorem Below.antisymm {others found : Captures} (below : others.Below found)
    (above : found.Below others) : others = found := by
  rcases below with same | earlier
  · exact same
  · rcases above with same | later
    · exact same.symm
    · exact absurd later (List.lt_asymm earlier)

theorem below_of_empty (others found : Captures) (c : Char) (first : List Char) :
    Below ([] :: others) ((c :: first) :: found) :=
  Or.inr (.rel (Nat.succ_pos _))

end Captures

namespace Atom

def Run (accepts : Char → Bool) (matching : List Char → Captures → Prop) (text : List Char)
    (captures : Captures) : Prop :=
  ∃ taken rest others, text = taken ++ rest ∧ (∀ c ∈ taken, accepts c = true) ∧
    matching rest others ∧ captures = taken :: others

section
variable {accepts : Char → Bool} {next : List Char → Option Captures}
  {matching : List Char → Captures → Prop}

theorem Run.empty {text : List Char} {others : Captures} (matched : matching text others) :
    Run accepts matching text ([] :: others) :=
  ⟨[], text, others, rfl, fun _ member => (nomatch member), matched, rfl⟩

theorem Run.extend {c : Char} (accepted : accepts c = true) {rest : List Char} {captures : Captures}
    (run : Run accepts matching rest captures) :
    Run accepts matching (c :: rest) (captures.extend c) := by
  obtain ⟨taken, after, others, rfl, all, matched, rfl⟩ := run
  refine ⟨c :: taken, after, others, rfl, ?_, matched, rfl⟩
  intro d member
  rcases List.mem_cons.mp member with rfl | member
  · exact accepted
  · exact all d member

theorem searchRun_sound (finds : Finds next matching) {text : List Char} {captures : Captures}
    (found : searchRun accepts next text = some captures) : Run accepts matching text captures := by
  induction text generalizing captures with
  | nil =>
    obtain ⟨others, here, rfl⟩ := Option.map_eq_some_iff.mp found
    exact .empty (finds.sound here)
  | cons c rest ih =>
    simp only [searchRun] at found
    split at found
    · next accepted =>
      rcases Option.or_eq_some_iff.mp found with longer | ⟨-, found⟩
      · obtain ⟨longer, later, rfl⟩ := Option.map_eq_some_iff.mp longer
        exact (ih later).extend accepted
      · obtain ⟨others, here, rfl⟩ := Option.map_eq_some_iff.mp found
        exact .empty (finds.sound here)
    · obtain ⟨others, here, rfl⟩ := Option.map_eq_some_iff.mp found
      exact .empty (finds.sound here)

-- Induction on the text. A capture that stops at once is below any that goes on; one that goes on
-- is compared with what the search finds after the same character.
theorem searchRun_greatest (finds : Finds next matching) {text : List Char} {others : Captures}
    (run : Run accepts matching text others) :
    ∃ found, searchRun accepts next text = some found ∧ others.Below found := by
  induction text generalizing others with
  | nil =>
    obtain ⟨taken, rest, others, split, -, matched, rfl⟩ := run
    obtain ⟨rfl, rfl⟩ := List.nil_eq_append_iff.mp split
    obtain ⟨found, here, below⟩ := finds.greatest matched
    refine ⟨[] :: found, ?_, below.cons []⟩
    rw [searchRun, here]
    rfl
  | cons c text ih =>
    obtain ⟨taken, rest, others, split, all, matched, rfl⟩ := run
    cases taken with
    | nil =>
      rw [List.nil_append] at split
      subst split
      obtain ⟨found, here, below⟩ := finds.greatest matched
      -- The search tries to go on first, and stops here only if that fails.
      cases longer : (searchRun accepts next text).map (Captures.extend c) with
      | none =>
        refine ⟨[] :: found, ?_, below.cons []⟩
        simp only [searchRun, longer, here, Option.map_some, Option.none_or, ite_self]
      | some captures =>
        by_cases accepted : accepts c = true
        · obtain ⟨shorter, later, rfl⟩ := Option.map_eq_some_iff.mp longer
          obtain ⟨first, after, more, -, -, -, rfl⟩ := searchRun_sound finds later
          refine ⟨(c :: first) :: more, ?_, Captures.below_of_empty others more c first⟩
          simp only [searchRun, accepted, if_true, longer, Option.some_or]
          rfl
        · refine ⟨[] :: found, ?_, below.cons []⟩
          simp only [searchRun, accepted, here, Option.map_some]
          rfl
    | cons d taken =>
      rw [List.cons_append, List.cons.injEq] at split
      obtain ⟨rfl, split⟩ := split
      have accepted := all c List.mem_cons_self
      obtain ⟨found, later, below⟩ :=
        ih ⟨taken, rest, others, split, fun d member => all d (List.mem_cons_of_mem _ member),
          matched, rfl⟩
      obtain ⟨first, after, more, -, -, -, rfl⟩ := searchRun_sound finds later
      refine ⟨(c :: first) :: more, ?_, below.extend c⟩
      simp only [searchRun, accepted, if_true, later, Option.map_some, Option.some_or]
      rfl

theorem searchSome_sound (finds : Finds next matching) {text : List Char} {captures : Captures}
    (found : searchSome accepts next text = some captures) :
    ∃ c taken rest others, text = c :: taken ++ rest ∧ (∀ d ∈ c :: taken, accepts d = true) ∧
      matching rest others ∧ captures = (c :: taken) :: others := by
  cases text with
  | nil => cases found
  | cons c text =>
    simp only [searchSome] at found
    split at found
    · next accepted =>
      obtain ⟨shorter, later, rfl⟩ := Option.map_eq_some_iff.mp found
      obtain ⟨taken, rest, others, rfl, all, matched, rfl⟩ := searchRun_sound finds later
      exact ⟨c, taken, rest, others, rfl, List.forall_mem_cons.mpr ⟨accepted, all⟩, matched, rfl⟩
    · cases found

theorem searchSome_greatest (finds : Finds next matching) {c : Char} {taken rest : List Char}
    {others : Captures} (all : ∀ d ∈ c :: taken, accepts d = true)
    (matched : matching rest others) :
    ∃ found, searchSome accepts next (c :: taken ++ rest) = some found ∧
      Captures.Below ((c :: taken) :: others) found := by
  obtain ⟨accepted, all⟩ := List.forall_mem_cons.mp all
  obtain ⟨found, later, below⟩ :=
    searchRun_greatest finds ⟨taken, rest, others, rfl, all, matched, rfl⟩
  obtain ⟨first, after, more, -, -, -, rfl⟩ := searchRun_sound finds later
  refine ⟨(c :: first) :: more, ?_, below.extend c⟩
  simp only [List.cons_append, searchSome, accepted, if_true, later, Option.map_some]
  rfl

end

end Atom

/-! ## Rows of fields -/

theorem encodedChar_iff {c : Char} : EncodedChar c ↔ Capture.encoded.accepts c = true := by
  simp only [EncodedChar, Capture.accepts, Percent.isUnreserved, Bool.or_eq_true, beq_iff_eq,
    List.mem_cons, List.not_mem_nil, or_false]
  constructor
  · rintro (letter | percent | under | dot | tilde | dash)
    all_goals simp only [*, true_or, or_true]
  · rintro (((((letter | dash) | dot) | under) | tilde) | percent)
    all_goals simp only [*, true_or, or_true]

theorem Capture.admits_encoded {text : List Char} :
    Capture.encoded.Admits text ↔
      text ≠ [] ∧ ∀ c ∈ text, Capture.encoded.accepts c = true :=
  and_congr_right fun _ => forall_congr' fun _ => imp_congr_right fun _ => encodedChar_iff

theorem Capture.admits_line {text : List Char} :
    Capture.line.Admits text ↔ ∀ c ∈ text, Capture.line.accepts c = true := by
  simp only [Capture.Admits, Capture.accepts, bne_iff_ne]
  constructor
  · rintro free c member rfl
    exact free member
  · intro free member
    exact free '\n' member rfl

def Field.atoms : Field → List Atom
  | .text fixed => fixed.map .char
  | .capture kind => [.capture kind]

section
variable {fields : List Field} {atoms : List Atom}

theorem search_fixed (fixed rest : List Char) :
    search (fixed.map .char ++ atoms) (fixed ++ rest) = search atoms rest := by
  induction fixed with
  | nil => rfl
  | cons c fixed ih =>
    simp only [List.map_cons, List.cons_append, search, Atom.search, Atom.searchChar, if_true]
    exact ih

theorem exists_rest_of_search_fixed {fixed text : List Char} {captures : Captures}
    (found : search (fixed.map .char ++ atoms) text = some captures) :
    ∃ rest, text = fixed ++ rest ∧ search atoms rest = some captures := by
  induction fixed generalizing text with
  | nil => exact ⟨text, rfl, found⟩
  | cons c fixed ih =>
    cases text with
    | nil => cases found
    | cons d text =>
      simp only [List.map_cons, List.cons_append, search, Atom.search, Atom.searchChar] at found
      split at found
      · next same =>
        obtain ⟨rest, rfl, later⟩ := ih found
        exact ⟨rest, by rw [same, List.cons_append], later⟩
      · cases found

theorem finds_text (finds : Finds (search atoms) (Cut fields)) (fixed : List Char) :
    Finds (search (fixed.map .char ++ atoms)) (Cut (.text fixed :: fields)) := by
  constructor
  · intro text captures found
    obtain ⟨rest, rfl, later⟩ := exists_rest_of_search_fixed found
    exact .text fixed (finds.sound later)
  · intro text others cut
    cases cut with
    | text _ cut =>
      obtain ⟨found, later, below⟩ := finds.greatest cut
      exact ⟨found, (search_fixed fixed _).trans later, below⟩

theorem finds_capture (finds : Finds (search atoms) (Cut fields))
    (kind : Capture) :
    Finds (search (.capture kind :: atoms)) (Cut (.capture kind :: fields)) := by
  cases kind with
  | encoded =>
    constructor
    · intro text captures found
      obtain ⟨c, taken, rest, others, rfl, all, matched, rfl⟩ := Atom.searchSome_sound finds found
      exact .capture (Capture.admits_encoded.mpr ⟨List.cons_ne_nil _ _, all⟩) matched
    · intro text others cut
      cases cut with
      | @capture _ rest taken _ _ admits cut =>
        obtain ⟨filled, all⟩ := Capture.admits_encoded.mp admits
        cases taken with
        | nil => exact absurd rfl filled
        | cons c taken => exact Atom.searchSome_greatest finds all cut
  | line =>
    constructor
    · intro text captures found
      obtain ⟨taken, rest, others, rfl, all, matched, rfl⟩ := Atom.searchRun_sound finds found
      exact .capture (Capture.admits_line.mpr all) matched
    · intro text others cut
      cases cut with
      | capture admits cut =>
        exact Atom.searchRun_greatest finds
          ⟨_, _, _, rfl, Capture.admits_line.mp admits, cut, rfl⟩

theorem search_finds (fields : List Field) :
    Finds (search (fields.flatMap Field.atoms)) (Cut fields) := by
  induction fields with
  | nil =>
    constructor
    · intro text captures found
      simp only [List.flatMap_nil, search] at found
      split at found
      · next empty =>
        cases found
        exact empty ▸ .nil
      · cases found
    · rintro text others ⟨⟩
      exact ⟨[], rfl, Or.inl rfl⟩
  | cons field fields ih =>
    cases field with
    | text fixed => exact finds_text ih fixed
    | capture kind => exact finds_capture ih kind

theorem search_eq_some {uri : List Char} {captures : Captures} :
    search (fields.flatMap Field.atoms) uri = some captures ↔ Cut.Greatest fields uri captures := by
  have finds := search_finds fields
  constructor
  · intro found
    refine ⟨finds.sound found, ?_⟩
    intro others cut
    obtain ⟨greatest, same, below⟩ := finds.greatest cut
    rw [found, Option.some.injEq] at same
    exact same ▸ below
  · rintro ⟨cut, greatest⟩
    obtain ⟨other, found, below⟩ := finds.greatest cut
    rw [found, Captures.Below.antisymm below (greatest other (finds.sound found))]

end

/-! ## Templates -/

theorem Part.atoms_eq_fields (part : Part) : part.atoms = part.fields.flatMap Field.atoms := by
  cases part with
  | literal text =>
    rw [atoms, fields, List.flatMap_singleton]
    rfl
  | expression e =>
    rw [atoms, fields, ← Operator.capture]
    generalize e.operator.capture = kind
    induction e.specs with
    | nil => rfl
    | cons spec rest ih =>
      cases rest with
      | nil => rfl
      | cons next rest =>
        simp only [List.map_cons] at ih ⊢
        rw [List.intercalate_cons_cons, List.intersperse_cons_cons, ih]
        rfl

namespace Template

variable {template : Template} {parts : List Part}

theorem pattern_of_parts (wellFormed : template.parts = .ok parts) :
    template.pattern = .ok
      ⟨(parts.flatMap Part.fields).flatMap Field.atoms, parts.flatMap Part.labels⟩ := by
  have atoms : parts.flatMap Part.atoms = (parts.flatMap Part.fields).flatMap Field.atoms := by
    rw [List.flatMap_assoc]
    congr 1
    funext part
    exact part.atoms_eq_fields
  rw [pattern_eq, wellFormed, Except.map, atoms]

theorem isMatch_of_pattern {pattern : Pattern} (compiled : template.pattern = .ok pattern)
    (uri : List Char) : template.isMatch uri = .ok (pattern.captures uri).isSome := by
  rw [isMatch, extract, compiled]
  simp only [Except.map, Pattern.extract, Option.isSome_map]

/-- Extraction gives values if the URI can be cut at all, those of its greatest cut. -/
theorem extract_greatest_cut (wellFormed : template.parts = .ok parts) (uri : List Char) :
    ∃ pattern, template.pattern = .ok pattern ∧
      (∀ captures, pattern.captures uri = some captures ↔
        Cut.Greatest (parts.flatMap Part.fields) uri captures) ∧
      template.extract uri = .ok ((pattern.captures uri).map fun captures =>
        Entries.ofList ((parts.flatMap Part.labels).zip (captures.map Percent.decode))) ∧
      ((∃ values, template.extract uri = .ok (some values)) ↔
        ∃ captures, Cut (parts.flatMap Part.fields) uri captures) := by
  have compiled := pattern_of_parts wellFormed
  refine ⟨_, compiled, ?_, ?_, ?_⟩
  · intro captures
    rw [Pattern.captures_eq_search, search_eq_some]
  · rw [extract, compiled]
    rfl
  · simp only [extract, compiled, Except.map, Pattern.extract, Pattern.captures_eq_search]
    constructor
    · rintro ⟨values, found⟩
      obtain ⟨captures, found, -⟩ := Option.map_eq_some_iff.mp (Except.ok.inj found)
      exact ⟨captures, (search_eq_some.mp found).1⟩
    · rintro ⟨captures, cut⟩
      obtain ⟨greatest, found, -⟩ := (search_finds _).greatest cut
      exact ⟨_, by rw [found, Option.map_some]⟩

/-- Of two simple captures side by side the first leaves one character to the second. -/
theorem adjacent_greatest_cut :
    (∃ values, (Template.mk "{a}{b}".toList).extract "x.yz".toList = .ok (some values)) ∧
      Cut.Greatest [.capture .encoded, .capture .encoded] "x.yz".toList ["x.y".toList, ['z']] := by
  have wellFormed : (Template.mk "{a}{b}".toList).parts =
      .ok [.expression ⟨.simple, [⟨['a'], none, false⟩]⟩,
        .expression ⟨.simple, [⟨['b'], none, false⟩]⟩] := ok_of_toOption (by decide +kernel)
  obtain ⟨pattern, compiled, found, -, matched⟩ := extract_greatest_cut wellFormed "x.yz".toList
  rw [pattern_of_parts wellFormed, Except.ok.injEq] at compiled
  have greatest := (found ["x.y".toList, ['z']]).mp (compiled ▸ by decide)
  exact ⟨matched.mpr ⟨_, greatest.1⟩, greatest⟩

end Template

end UriTemplate
