import UriTemplate.Proofs.Grammar

/-! Which bodies of expressions are rejected, and what for. The pieces between commas are read from
the left, and the first that is no specification is at fault. Its modifier is looked at before its
name, so of several things that may be wrong with a piece one alone is reported. -/

set_option autoImplicit false

namespace UriTemplate

namespace Grammar

def Starred (text : List Char) : Prop :=
  text.getLast? = some '*'

def Limit (digits : List Char) : Prop :=
  ∃ n, 1 ≤ n ∧ n ≤ 9999 ∧ digits = Nat.toDigits 10 n

/-- Nothing is wrong with the modifier of the text, if it has one, and this stands before it. -/
inductive Stem : List Char → List Char → Prop where
  | plain {name : List Char} : ¬ Starred name → ':' ∉ name → Stem name name
  | limited {name digits : List Char} :
      ¬ Starred (name ++ ':' :: digits) → ':' ∉ name → Limit digits →
      Stem (name ++ ':' :: digits) name
  | exploded {name : List Char} : ':' ∉ name → Stem (name ++ ['*']) name

/-- What is wrong with a text that should be a specification, and where. -/
inductive Misread (text : List Char) : SpecFault → Option Nat → Prop where
  | bothModifiers : Starred text → ':' ∈ text → Misread text .bothModifiers none
  | badLimit {name digits : List Char} :
      ¬ Starred text → text = name ++ ':' :: digits → ':' ∉ name → ¬ Limit digits →
      Misread text (.badLimit (name.length + 1)) (some (name.length + 1))
  | badName {name : List Char} :
      Stem text name → ¬ Name name → Misread text (.badName name) (some 0)

inductive Marked : List Char → List Char → Prop where
  | mark {c : Char} {rest : List Char} : c ∈ marks → Marked (c :: rest) rest
  | none {body : List Char} : (∀ c ∈ body.head?, c ∉ marks) → Marked body body

/-- The error of a body with the text that it carries and its position in this text: there is
nothing to read, or a first piece that is no specification. -/
inductive Rejects (body : List Char) : TemplateError → List Char → Option Nat → Prop where
  | noVariables : Marked body [] → Rejects body (.noVariables body) body none
  | spec {rest piece : List Char} {before after : List (List Char)} {fault : SpecFault}
      {position : Option Nat} :
      Marked body rest → rest ≠ [] → rest.splitOn ',' = before ++ piece :: after →
      (∀ other ∈ before, ∃ spec, Spec other spec) → (∀ spec, ¬ Spec piece spec) →
      Misread piece fault position → Rejects body (.spec fault piece) piece position

/-! ## Specifications -/

theorem limit_iff {digits : List Char} :
    Limit digits ↔ ∃ n, VarSpec.readLimit? digits = some n := by
  constructor
  · rintro ⟨n, least, most, rfl⟩
    exact ⟨n, readLimit?_toDigits least most⟩
  · rintro ⟨n, read⟩
    obtain ⟨least, most⟩ := VarSpec.readLimit?_bounds read
    exact ⟨n, least, most, (toDigits_of_readLimit? read).symm⟩

theorem named_eq_error {text name : List Char} {limit : Option Int} {exploded : Bool}
    {e : TemplateError} :
    VarSpec.named text name limit exploded = .error e ↔
      ¬ Name name ∧ e = .spec (.badName name) text := by
  rw [← isName_iff]
  unfold VarSpec.named
  split
  · next valid => simp [valid]
  · next invalid => simp [invalid, eq_comm]

theorem misread_of_parse {text : List Char} {e : TemplateError}
    (failed : VarSpec.parse text = .error e) :
    ∃ fault position, e = .spec fault text ∧ Misread text fault position := by
  cases VarSpec.form text with
  | both colon =>
    rw [VarSpec.parse_both colon] at failed
    cases failed
    exact ⟨_, _, rfl, .bothModifiers List.getLast?_concat (List.mem_append_left _ colon)⟩
  | exploded free =>
    rw [VarSpec.parse_exploded free] at failed
    obtain ⟨invalid, rfl⟩ := named_eq_error.mp failed
    exact ⟨_, _, rfl, .badName (.exploded free) invalid⟩
  | @limited name digits noStar free =>
    rw [VarSpec.parse_limited free noStar] at failed
    cases read : VarSpec.readLimit? digits with
    | none =>
      rw [read] at failed
      cases failed
      have noLimit : ¬ Limit digits := by simp [limit_iff, read]
      exact ⟨_, _, rfl, .badLimit noStar rfl free noLimit⟩
    | some n =>
      rw [read] at failed
      obtain ⟨invalid, rfl⟩ := named_eq_error.mp failed
      exact ⟨_, _, rfl, .badName (.limited noStar free (limit_iff.mpr ⟨n, read⟩)) invalid⟩
  | plain noStar free =>
    rw [VarSpec.parse_plain free noStar] at failed
    obtain ⟨invalid, rfl⟩ := named_eq_error.mp failed
    exact ⟨_, _, rfl, .badName (.plain noStar free) invalid⟩

theorem parse_misread {text : List Char} {fault : SpecFault} {position : Option Nat}
    (misread : Misread text fault position) : VarSpec.parse text = .error (.spec fault text) := by
  cases misread with
  | bothModifiers star colon =>
    obtain ⟨name, rfl⟩ := List.getLast?_eq_some_iff.mp star
    have inName : ':' ∈ name := by simpa using colon
    exact VarSpec.parse_both inName
  | @badLimit name digits noStar split free noLimit =>
    subst split
    rw [VarSpec.parse_limited free noStar]
    cases read : VarSpec.readLimit? digits with
    | none => rfl
    | some n => exact absurd (limit_iff.mpr ⟨n, read⟩) noLimit
  | badName stem invalid =>
    cases stem with
    | plain noStar free =>
      rw [VarSpec.parse_plain free noStar]
      exact named_eq_error.mpr ⟨invalid, rfl⟩
    | limited noStar free limit =>
      obtain ⟨n, read⟩ := limit_iff.mp limit
      rw [VarSpec.parse_limited free noStar, read]
      exact named_eq_error.mpr ⟨invalid, rfl⟩
    | exploded free =>
      rw [VarSpec.parse_exploded free]
      exact named_eq_error.mpr ⟨invalid, rfl⟩

theorem not_spec_of_misread {text : List Char} {fault : SpecFault} {position : Option Nat}
    (misread : Misread text fault position) (spec : VarSpec) : ¬ Spec text spec := by
  intro written
  have read := parse_spec.mpr written
  rw [parse_misread misread] at read
  cases read

/-- A text is a specification, or there is one thing wrong with it. -/
theorem not_spec_iff {text : List Char} :
    (∀ spec, ¬ Spec text spec) ↔ ∃! fault, ∃ position, Misread text fault position := by
  constructor
  · intro wrong
    cases read : VarSpec.parse text with
    | ok spec => exact absurd (parse_spec.mp read) (wrong spec)
    | error e =>
      obtain ⟨fault, position, rfl, misread⟩ := misread_of_parse read
      refine ⟨fault, ⟨position, misread⟩, ?_⟩
      rintro other ⟨elsewhere, again⟩
      rw [parse_misread again] at read
      cases read
      rfl
  · rintro ⟨fault, ⟨position, misread⟩, -⟩
    exact not_spec_of_misread misread

/-! ## Bodies -/

theorem split_of_mark {c : Char} (known : c ∈ marks) (rest : List Char) :
    (Operator.split (c :: rest)).2 = rest := by
  obtain ⟨op, found⟩ := Option.isSome_iff_exists.mp (ofChar?_isSome.mpr known)
  simp only [Operator.split, found]

theorem split_of_no_mark {body : List Char} (unknown : ∀ c ∈ body.head?, c ∉ marks) :
    (Operator.split body).2 = body := by
  cases body with
  | nil => rfl
  | cons c rest =>
    have none : Operator.ofChar? c = none :=
      Option.not_isSome_iff_eq_none.mp fun known => unknown c rfl (ofChar?_isSome.mp known)
    simp only [Operator.split, none]

theorem marked_iff {body rest : List Char} :
    Marked body rest ↔ (Operator.split body).2 = rest := by
  constructor
  · intro marked
    cases marked with
    | mark known => exact split_of_mark known rest
    | none unknown => exact split_of_no_mark unknown
  · rintro rfl
    cases body with
    | nil => exact .none (by simp)
    | cons c rest =>
      by_cases known : c ∈ marks
      · rw [split_of_mark known]
        exact .mark known
      · have unknown : ∀ d ∈ (c :: rest).head?, d ∉ marks := by simpa using known
        rw [split_of_no_mark unknown]
        exact .none unknown

theorem parse_eq_error {body : List Char} {e : TemplateError} :
    Expression.parse body = .error e ↔
      (Operator.split body).2 = [] ∧ e = .noVariables body ∨
        (Operator.split body).2 ≠ [] ∧
          ((Operator.split body).2.splitOn ',').mapM VarSpec.parse = .error e := by
  simp only [Expression.parse]
  split
  · next empty => simp [empty, eq_comm]
  · next filled =>
    cases ((Operator.split body).2.splitOn ',').mapM VarSpec.parse with
    | ok specs => simp [Except.map, filled]
    | error d => simp [Except.map, filled]

theorem rejects_of_parse {body : List Char} {e : TemplateError}
    (failed : Expression.parse body = .error e) :
    ∃ text position, Rejects body e text position := by
  rcases parse_eq_error.mp failed with ⟨empty, rfl⟩ | ⟨filled, failed⟩
  · exact ⟨_, _, .noVariables (marked_iff.mpr empty)⟩
  · obtain ⟨before, piece, after, pieces, readable, wrong⟩ := mapM_eq_error.mp failed
    obtain ⟨fault, position, rfl, misread⟩ := misread_of_parse wrong
    refine ⟨piece, position, .spec (marked_iff.mpr rfl) filled pieces ?_ ?_ misread⟩
    · intro other member
      obtain ⟨spec, read⟩ := readable other member
      exact ⟨spec, parse_spec.mp read⟩
    · exact not_spec_of_misread misread

theorem parse_rejects {body text : List Char} {e : TemplateError} {position : Option Nat}
    (rejects : Rejects body e text position) : Expression.parse body = .error e := by
  rw [parse_eq_error]
  cases rejects with
  | noVariables marked => exact Or.inl ⟨marked_iff.mp marked, rfl⟩
  | spec marked filled pieces readable wrong misread =>
    rw [marked_iff.mp marked]
    refine Or.inr ⟨filled, mapM_eq_error.mpr ⟨_, _, _, pieces, ?_, parse_misread misread⟩⟩
    intro other member
    obtain ⟨spec, written⟩ := readable other member
    exact ⟨spec, parse_spec.mpr written⟩

theorem Misread.position {text : List Char} {fault : SpecFault} {position : Option Nat}
    (misread : Misread text fault position) :
    (TemplateError.spec fault text).position? = position ∧
      ∀ place ∈ position, place ≤ text.length := by
  cases misread with
  | bothModifiers => exact ⟨rfl, fun place none => nomatch none⟩
  | badLimit noStar split =>
    refine ⟨rfl, ?_⟩
    rintro place ⟨⟩
    rw [split, List.length_append, List.length_cons]
    omega
  | badName => exact ⟨rfl, fun place zero => by cases zero; exact Nat.zero_le _⟩

end Grammar

/-- Parsing fails with the error of the first piece that is no specification, or because there are
no pieces, and the error carries the piece and the position of what is wrong with it. -/
theorem Expression.first_piece_rejected :
    (∀ (body : List Char) (e : TemplateError), Expression.parse body = .error e ↔
      ∃ text position, Grammar.Rejects body e text position) ∧
    (∀ (body text : List Char) (e : TemplateError) (position : Option Nat),
      Grammar.Rejects body e text position →
        e.subject = text ∧ e.position? = position ∧ ∀ place ∈ position, place ≤ text.length) ∧
    ∀ text : List Char, (∀ spec, ¬ Grammar.Spec text spec) ↔
      ∃! fault, ∃ position, Grammar.Misread text fault position := by
  refine ⟨fun body e => ⟨Grammar.rejects_of_parse, ?_⟩, ?_, fun text => Grammar.not_spec_iff⟩
  · rintro ⟨text, position, rejects⟩
    exact Grammar.parse_rejects rejects
  · intro body text e position rejects
    cases rejects with
    | noVariables => exact ⟨rfl, rfl, fun place none => nomatch none⟩
    | spec _ _ _ _ _ misread => exact ⟨rfl, misread.position⟩

theorem Expression.limit_fault_before_name_fault :
    ∃ e text position,
      Expression.parse ";ok,a-b:01:2,c:*".toList = .error e ∧
      Grammar.Rejects ";ok,a-b:01:2,c:*".toList e text position ∧
      e = .spec (.badLimit 4) "a-b:01:2".toList ∧ e.subject = text ∧ e.position? = position ∧
      ∀ place ∈ position, place ≤ text.length := by
  have failed : Expression.parse ";ok,a-b:01:2,c:*".toList =
      .error (.spec (.badLimit 4) "a-b:01:2".toList) := by rfl
  obtain ⟨text, position, rejects⟩ := (first_piece_rejected.1 _ _).mp failed
  exact ⟨_, text, position, failed, rejects, rfl, first_piece_rejected.2.1 _ _ _ _ rejects⟩

end UriTemplate
