import Mathlib.Data.List.TakeWhile
import Mathlib.Data.Nat.Digits.Defs
import UriTemplate.Proofs.Expression

/-! The grammar of expressions, one judgement for each of its levels. The readers accept what the
grammar derives, and what they make of it can be written back. -/

set_option autoImplicit false

namespace UriTemplate

namespace Grammar

def hexDigits : List Char :=
  "0123456789abcdefABCDEF".toList

def marks : List Char :=
  "+#./;?&".toList

inductive NameChar : List Char → Prop where
  | plain {c : Char} : c.isAlphanum = true ∨ c = '_' → NameChar [c]
  | triplet {high low : Char} :
      high ∈ hexDigits → low ∈ hexDigits → NameChar ['%', high, low]

inductive Run : List Char → Prop where
  | last {unit : List Char} : NameChar unit → Run unit
  | more {unit rest : List Char} : NameChar unit → Run rest → Run (unit ++ rest)

inductive Name : List Char → Prop where
  | run {run : List Char} : Run run → Name run
  | dotted {run rest : List Char} : Run run → Name rest → Name (run ++ '.' :: rest)

/-- What is written for a variable, and its meaning. -/
inductive Spec : List Char → VarSpec → Prop where
  | plain {name : List Char} : Name name → Spec name ⟨name, none, false⟩
  | limited {name : List Char} {n : Nat} :
      Name name → 1 ≤ n → n ≤ 9999 →
      Spec (name ++ ':' :: Nat.toDigits 10 n) ⟨name, some n, false⟩
  | exploded {name : List Char} : Name name → Spec (name ++ ['*']) ⟨name, none, true⟩

/-- A body in its parts: the mark of an operator or none, and specifications with commas between. -/
structure Body (body : List Char) (mark : Option Char) (pieces : List (List Char))
    (specs : List VarSpec) : Prop where
  text : body = mark.toList ++ [','].intercalate pieces
  known : ∀ c ∈ mark, c ∈ marks
  filled : pieces ≠ []
  read : List.Forall₂ Spec pieces specs

/-! ## Names -/

open Percent (Token)

theorem mem_hexDigits {c : Char} : c ∈ hexDigits ↔ (Text.Hex.value? c).isSome = true := by
  constructor
  · have all : (hexDigits.all fun c => (Text.Hex.value? c).isSome) = true := by decide
    exact List.all_eq_true.mp all c
  · intro hex
    unfold Text.Hex.value? at hex
    split at hex
    all_goals first | decide | cases hex

theorem nameChar_iff {text : List Char} :
    NameChar text ↔ ∃ token : Token, VarSpec.isNameToken token = true ∧ token.render = text := by
  constructor
  · rintro (allowed | ⟨high, low⟩)
    · exact ⟨.char _, by simpa [VarSpec.isNameToken] using allowed, rfl⟩
    · exact ⟨.triplet ⟨_, mem_hexDigits.mp high⟩ ⟨_, mem_hexDigits.mp low⟩, rfl, rfl⟩
  · rintro ⟨token, allowed, rfl⟩
    cases token with
    | triplet high low =>
      exact .triplet (mem_hexDigits.mpr high.isHex) (mem_hexDigits.mpr low.isHex)
    | char c => exact .plain (by simpa [VarSpec.isNameToken] using allowed)

def IsRun (read : List Token) : Prop :=
  read ≠ [] ∧ ∀ token ∈ read, VarSpec.isNameToken token = true

theorem run_iff {text : List Char} :
    Run text ↔ ∃ read, IsRun read ∧ read.flatMap Token.render = text := by
  constructor
  · intro run
    induction run with
    | last unit =>
      obtain ⟨token, allowed, rfl⟩ := nameChar_iff.mp unit
      exact ⟨[token], ⟨List.cons_ne_nil _ _, by simpa using allowed⟩, by simp⟩
    | more unit _ ih =>
      obtain ⟨token, allowed, rfl⟩ := nameChar_iff.mp unit
      obtain ⟨read, ⟨-, all⟩, rfl⟩ := ih
      exact ⟨token :: read, ⟨List.cons_ne_nil _ _, List.forall_mem_cons.mpr ⟨allowed, all⟩⟩, rfl⟩
  · rintro ⟨read, ⟨filled, all⟩, rfl⟩
    induction read with
    | nil => exact absurd rfl filled
    | cons token read ih =>
      obtain ⟨allowed, later⟩ := List.forall_mem_cons.mp all
      have unit := nameChar_iff.mpr ⟨token, allowed, rfl⟩
      rw [List.flatMap_cons]
      cases read with
      | nil => simpa using Run.last unit
      | cons next read => exact .more unit (ih (List.cons_ne_nil _ _) later)

theorem name_iff {text : List Char} :
    Name text ↔ ∃ runs, runs ≠ [] ∧ (∀ run ∈ runs, IsRun run) ∧
      ([.char '.'].intercalate runs).flatMap Token.render = text := by
  constructor
  · intro name
    induction name with
    | run run =>
      obtain ⟨read, isRun, rfl⟩ := run_iff.mp run
      exact ⟨[read], List.cons_ne_nil _ _, by simpa using isRun, by simp⟩
    | dotted run _ ih =>
      obtain ⟨read, isRun, rfl⟩ := run_iff.mp run
      obtain ⟨runs, filled, all, rfl⟩ := ih
      refine ⟨read :: runs, List.cons_ne_nil _ _, List.forall_mem_cons.mpr ⟨isRun, all⟩, ?_⟩
      obtain ⟨next, runs, rfl⟩ := List.exists_cons_of_ne_nil filled
      simp [List.intercalate_cons_cons, Token.render]
  · rintro ⟨runs, filled, all, rfl⟩
    induction runs with
    | nil => exact absurd rfl filled
    | cons read runs ih =>
      obtain ⟨isRun, later⟩ := List.forall_mem_cons.mp all
      have run := run_iff.mpr ⟨read, isRun, rfl⟩
      cases runs with
      | nil => simpa using Name.run run
      | cons next runs =>
        have rest := ih (List.cons_ne_nil _ _) later
        simpa [List.intercalate_cons_cons, Token.render] using Name.dotted run rest

theorem isName_iff {text : List Char} : VarSpec.isName text = true ↔ Name text := by
  have checks : VarSpec.isName text = true ↔
      ∀ run ∈ (Percent.tokens text).splitOn (.char '.'), IsRun run := by
    simp [VarSpec.isName, IsRun]
  rw [checks, name_iff]
  constructor
  · intro all
    refine ⟨_, List.splitOn_ne_nil _ _, all, ?_⟩
    rw [List.intercalate_splitOn, Percent.render_tokens]
  · rintro ⟨runs, filled, all, rfl⟩
    -- A percent sign alone and a dot are no characters of a run, so tokens and runs are found again.
    have whole : Token.char '%' ∉ [Token.char '.'].intercalate runs := by
      intro member
      rcases mem_intercalate _ member with dot | ⟨run, inside, member⟩
      · exact absurd dot (by decide)
      · exact absurd ((all run inside).2 _ member) (by decide)
    have plain : ∀ run ∈ runs, Token.char '.' ∉ run :=
      fun run inside member => absurd ((all run inside).2 _ member) (by decide)
    rw [Percent.tokens_render whole, List.splitOn_intercalate _ plain filled]
    exact all

theorem Name.not_mem {name : List Char} (valid : Name name) {c : Char}
    (sign : c = ',' ∨ c = ':' ∨ c = '*') : c ∉ name := by
  intro member
  rcases VarSpec.mem_of_isName (isName_iff.mpr valid) member with unreserved | rfl
  · rcases sign with rfl | rfl | rfl
    all_goals exact absurd unreserved (by decide)
  · exact absurd sign (by decide)

theorem Name.not_mem_limited {name : List Char} (valid : Name name) {c : Char}
    (sign : c = ',' ∨ c = '*') (n : Nat) : c ∉ name ++ ':' :: Nat.toDigits 10 n := by
  have apart : c.isDigit = false ∧ c ≠ ':' := by
    rcases sign with rfl | rfl
    all_goals decide
  rw [List.mem_append, List.mem_cons]
  rintro (inName | colon | inLimit)
  · exact valid.not_mem (sign.imp_right Or.inr) inName
  · exact apart.2 colon
  · have digit := Nat.isDigit_of_mem_toDigits (by decide) (by decide) inLimit
    rw [apart.1] at digit
    cases digit

/-! ## Numerals -/

theorem digitChar_of_isDigit {c : Char} (digit : c.isDigit = true) :
    Nat.digitChar (c.toNat - 48) = c := by
  have values : ∀ n < 10, (Nat.digitChar n).toNat = n + 48 := by decide
  have bounds := VarSpec.digit_bounds digit
  apply Char.toNat_inj.mp
  rw [values _ (by omega)]
  omega

theorem toDigits_ofDigitChars {digits : List Char} (all : ∀ c ∈ digits, c.isDigit = true) {n : Nat}
    (positive : 0 < n) :
    Nat.toDigits 10 (Nat.ofDigitChars 10 digits n) = Nat.toDigits 10 n ++ digits := by
  induction digits generalizing n with
  | nil => simp
  | cons c digits ih =>
    obtain ⟨digit, later⟩ := List.forall_mem_cons.mp all
    have small : c.toNat - 48 < 10 := by
      have bounds := VarSpec.digit_bounds digit
      omega
    calc Nat.toDigits 10 (Nat.ofDigitChars 10 (c :: digits) n)
      _ = Nat.toDigits 10 (10 * n + (c.toNat - 48)) ++ digits := by
        rw [Nat.ofDigitChars_cons]
        exact ih later (by omega)
      _ = Nat.toDigits 10 n ++ Nat.toDigits 10 (c.toNat - 48) ++ digits := by
        rw [Nat.toDigits_append_toDigits (by decide) positive small]
      _ = Nat.toDigits 10 n ++ c :: digits := by
        rw [Nat.toDigits_of_lt_base small, digitChar_of_isDigit digit, List.append_assoc]
        rfl

theorem head_toDigits {n : Nat} (positive : 0 < n) :
    (Nat.toDigits 10 n).head? ≠ some '0' := by
  induction n using Nat.strongRecOn with
  | ind n ih =>
    rcases Nat.lt_or_ge n 10 with small | large
    · have nonzero : ∀ n < 10, 0 < n → [Nat.digitChar n].head? ≠ some '0' := by decide
      rw [Nat.toDigits_of_lt_base small]
      exact nonzero n small positive
    · have before := ih (n / 10) (by omega) (by omega)
      rw [Nat.toDigits_of_base_le (by decide) large,
        List.head?_append_of_ne_nil _ Nat.toDigits_ne_nil]
      exact before

theorem toDigits_of_readLimit? {digits : List Char} {n : Nat}
    (read : VarSpec.readLimit? digits = some n) : Nat.toDigits 10 n = digits := by
  cases digits with
  | nil => cases read
  | cons c rest =>
    simp only [VarSpec.readLimit?] at read
    split at read
    · next shape =>
      simp only [Bool.and_eq_true, bne_iff_ne, decide_eq_true_eq, List.all_eq_true] at shape
      obtain ⟨⟨⟨digit, nonzero⟩, -⟩, later⟩ := shape
      obtain rfl := Option.some.inj read
      have bounds := VarSpec.digit_bounds digit
      have notZero : c.toNat ≠ 48 := fun same => nonzero (Char.toNat_inj.mp same)
      have small : c.toNat - 48 < 10 := by omega
      have value : Nat.ofDigitChars 10 (c :: rest) 0 =
          Nat.ofDigitChars 10 rest (c.toNat - 48) := by
        rw [Nat.ofDigitChars_cons, Nat.mul_zero, Nat.zero_add]
        rfl
      rw [value, toDigits_ofDigitChars later (by omega), Nat.toDigits_of_lt_base small,
        digitChar_of_isDigit digit]
      rfl
    · cases read

theorem readLimit?_toDigits {n : Nat} (least : 1 ≤ n) (most : n ≤ 9999) :
    VarSpec.readLimit? (Nat.toDigits 10 n) = some n := by
  have all : ∀ c ∈ Nat.toDigits 10 n, c.isDigit = true :=
    fun c => Nat.isDigit_of_mem_toDigits (by decide) (by decide)
  have short := Nat.toDigits_length 10 n 4 (by decide) (by omega)
  have value : Nat.ofDigitChars 10 (Nat.toDigits 10 n) 0 = n := Nat.ofDigitChars_ten_toDigits
  have head := head_toDigits least
  cases written : Nat.toDigits 10 n with
  | nil => exact absurd written Nat.toDigits_ne_nil
  | cons c rest =>
    rw [written] at all short value head
    obtain ⟨digit, later⟩ := List.forall_mem_cons.mp all
    have nonzero : c ≠ '0' := by simpa using head
    have few : rest.length ≤ 3 := Nat.le_of_succ_le_succ short
    simp only [VarSpec.readLimit?, digit, bne_iff_ne.mpr nonzero, few, decide_true,
      List.all_eq_true.mpr later, Bool.and_self, if_true, value]

/-! ## Specifications -/

theorem spec_of_parse {text : List Char} {spec : VarSpec} (parsed : VarSpec.parse text = .ok spec) :
    Spec text spec := by
  obtain ⟨name, valid, forms⟩ := VarSpec.forms_of_parse parsed
  rw [isName_iff] at valid
  rcases forms with ⟨rfl, rfl⟩ | ⟨rfl, rfl⟩ | ⟨digits, n, read, rfl, rfl⟩
  · exact .plain valid
  · exact .exploded valid
  · obtain ⟨least, most⟩ := VarSpec.readLimit?_bounds read
    obtain rfl := toDigits_of_readLimit? read
    exact .limited valid least most

section
variable {name : List Char} (valid : Name name)
include valid

theorem parse_plain : VarSpec.parse name = .ok ⟨name, none, false⟩ := by
  have noStar : name.getLast? ≠ some '*' :=
    fun last => valid.not_mem (Or.inr (Or.inr rfl)) (List.mem_of_getLast? last)
  rw [VarSpec.parse_plain (valid.not_mem (Or.inr (Or.inl rfl))) noStar]
  exact VarSpec.named_eq_ok.mpr ⟨isName_iff.mpr valid, rfl⟩

theorem parse_limited {n : Nat} (least : 1 ≤ n) (most : n ≤ 9999) :
    VarSpec.parse (name ++ ':' :: Nat.toDigits 10 n) = .ok ⟨name, some n, false⟩ := by
  have noStar : (name ++ ':' :: Nat.toDigits 10 n).getLast? ≠ some '*' :=
    fun last => valid.not_mem_limited (Or.inr rfl) n (List.mem_of_getLast? last)
  rw [VarSpec.parse_limited (valid.not_mem (Or.inr (Or.inl rfl))) noStar,
    readLimit?_toDigits least most]
  exact VarSpec.named_eq_ok.mpr ⟨isName_iff.mpr valid, rfl⟩

theorem parse_exploded : VarSpec.parse (name ++ ['*']) = .ok ⟨name, none, true⟩ := by
  rw [VarSpec.parse_exploded (valid.not_mem (Or.inr (Or.inl rfl)))]
  exact VarSpec.named_eq_ok.mpr ⟨isName_iff.mpr valid, rfl⟩

end

theorem parse_spec {text : List Char} {spec : VarSpec} :
    VarSpec.parse text = .ok spec ↔ Spec text spec := by
  constructor
  · exact spec_of_parse
  · rintro (valid | ⟨valid, least, most⟩ | valid)
    · exact parse_plain valid
    · exact parse_limited valid least most
    · exact parse_exploded valid

theorem label_limited (name : List Char) (n : Nat) (exploded : Bool) :
    VarSpec.label ⟨name, some n, exploded⟩ = name ++ ':' :: Nat.toDigits 10 n := by
  simp [VarSpec.label, toString, Int.repr, Nat.toList_repr]

theorem spec_iff {text : List Char} {spec : VarSpec} :
    Spec text spec ↔ spec.WellFormed ∧ spec.render = text := by
  constructor
  · intro written
    refine ⟨VarSpec.wellFormed_of_parse (parse_spec.mpr written), ?_⟩
    cases written with
    | plain => rfl
    | limited => exact label_limited _ _ _
    | exploded => rfl
  · rintro ⟨⟨valid, bounds, single⟩, rfl⟩
    obtain ⟨name, limit, exploded⟩ := spec
    cases exploded with
    | true =>
      obtain rfl : limit = none := single rfl
      exact .exploded (isName_iff.mp valid)
    | false =>
      cases limit with
      | none => exact .plain (isName_iff.mp valid)
      | some limit =>
        obtain ⟨least, most⟩ := bounds limit rfl
        obtain ⟨n, rfl⟩ := Int.eq_ofNat_of_zero_le (by omega : 0 ≤ limit)
        have written := Spec.limited (isName_iff.mp valid) (n := n) (by omega) (by omega)
        rwa [← label_limited name n false] at written

/-! ## Bodies -/

theorem ofChar?_isSome {c : Char} : (Operator.ofChar? c).isSome = true ↔ c ∈ marks := by
  constructor
  · intro known
    unfold Operator.ofChar? at known
    split at known
    all_goals first | decide | cases known
  · have all : (marks.all fun c => (Operator.ofChar? c).isSome) = true := by decide
    exact List.all_eq_true.mp all c

theorem mark_of_char? {op : Operator} {c : Char} (mark : op.char? = some c) : c ∈ marks :=
  ofChar?_isSome.mp (Option.isSome_of_eq_some (Operator.ofChar?_eq_some.mpr mark))

theorem exists_char?_eq {mark : Option Char} (known : ∀ c ∈ mark, c ∈ marks) :
    ∃ op : Operator, op.char? = mark := by
  cases mark with
  | none => exact ⟨.simple, rfl⟩
  | some c =>
    obtain ⟨op, found⟩ := Option.isSome_iff_exists.mp (ofChar?_isSome.mpr (known c rfl))
    exact ⟨op, Operator.ofChar?_eq_some.mp found⟩

def Unmarked (text : List Char) : Prop :=
  ∃ c rest, text = c :: rest ∧ Operator.ofChar? c = none

theorem Unmarked.append {text : List Char} (unmarked : Unmarked text) (rest : List Char) :
    Unmarked (text ++ rest) := by
  obtain ⟨c, later, rfl, none⟩ := unmarked
  exact ⟨c, later ++ rest, rfl, none⟩

theorem NameChar.unmarked {unit : List Char} (valid : NameChar unit) : Unmarked unit := by
  cases valid with
  | @plain c allowed =>
    refine ⟨c, [], rfl, Option.not_isSome_iff_eq_none.mp fun known => ?_⟩
    have apart : (marks.all fun c => !(c.isAlphanum || c == '_')) = true := by decide
    have other : ¬ (c.isAlphanum = true ∨ c = '_') := by
      simpa using List.all_eq_true.mp apart c (ofChar?_isSome.mp known)
    exact other allowed
  | triplet => exact ⟨'%', _, rfl, rfl⟩

theorem Run.unmarked {run : List Char} (valid : Run run) : Unmarked run := by
  cases valid with
  | last unit => exact unit.unmarked
  | more unit _ => exact unit.unmarked.append _

/-- Dots stand inside names only, so a dot at the front of a body is the mark of an operator. -/
theorem Name.unmarked {name : List Char} (valid : Name name) : Unmarked name := by
  cases valid with
  | run run => exact run.unmarked
  | dotted run _ => exact run.unmarked.append _

theorem Spec.unmarked {text : List Char} {spec : VarSpec} (written : Spec text spec) :
    Unmarked text := by
  cases written with
  | plain valid => exact valid.unmarked
  | limited valid => exact valid.unmarked.append _
  | exploded valid => exact valid.unmarked.append _

theorem Spec.comma_not_mem {text : List Char} {spec : VarSpec} (written : Spec text spec) :
    ',' ∉ text := by
  cases written with
  | plain valid => exact valid.not_mem (Or.inl rfl)
  | limited valid => exact valid.not_mem_limited (Or.inl rfl) _
  | exploded valid => simpa using valid.not_mem (Or.inl rfl)

theorem split_unmarked {text : List Char} (unmarked : Unmarked text) (op : Operator) :
    Operator.split (op.render ++ text) = (op, text) := by
  obtain ⟨first, rest, rfl, none⟩ := unmarked
  cases mark : op.char? with
  | none =>
    obtain rfl : op = .simple := by
      cases op
      all_goals first | rfl | cases mark
    simp only [Operator.render, mark, Option.toList_none, List.nil_append, Operator.split, none]
  | some c =>
    have known := Operator.ofChar?_eq_some.mpr mark
    simp only [Operator.render, mark, Option.toList_some, List.cons_append, List.nil_append,
      Operator.split, known]

theorem parse_body {body : List Char} {e : Expression} :
    Expression.parse body = .ok e ↔ ∃ pieces, Body body e.operator.char? pieces e.specs := by
  rw [Expression.parse_eq_ok]
  constructor
  · rintro ⟨-, operator, read⟩
    refine ⟨(Operator.split body).2.splitOn ',', ?_, ?_, List.splitOn_ne_nil _ _, ?_⟩
    · rw [List.intercalate_splitOn, ← operator]
      exact (Operator.render_split body).symm
    · exact fun _ => mark_of_char?
    · exact read.imp fun _ _ parsed => spec_of_parse parsed
  · rintro ⟨pieces, rfl, -, filled, read⟩
    -- Pieces hold no comma and do not begin with a mark, so the mark and the pieces are found again.
    have written : ∀ piece ∈ pieces, ∃ spec, Spec piece spec := by
      intro piece member
      obtain ⟨spec, -, spells⟩ := exists_of_forall₂ read.flip member
      exact ⟨spec, spells⟩
    have plain : ∀ piece ∈ pieces, ',' ∉ piece := by
      intro piece member
      obtain ⟨spec, spells⟩ := written piece member
      exact spells.comma_not_mem
    have unmarked : Unmarked ([','].intercalate pieces) := by
      obtain ⟨first, rest, rfl⟩ := List.exists_cons_of_ne_nil filled
      obtain ⟨spec, spells⟩ := written first List.mem_cons_self
      rw [intercalate_cons]
      exact spells.unmarked.append _
    have split := split_unmarked unmarked e.operator
    rw [Operator.render] at split
    rw [split]
    refine ⟨?_, rfl, ?_⟩
    · obtain ⟨c, rest, same, -⟩ := unmarked
      rw [same]
      exact List.cons_ne_nil _ _
    · rw [List.splitOn_intercalate _ plain filled]
      exact read.imp fun _ _ spells => parse_spec.mpr spells

theorem Body.parse {body : List Char} {mark : Option Char} {pieces : List (List Char)}
    {specs : List VarSpec} (derived : Body body mark pieces specs) :
    ∃ op : Operator, op.char? = mark ∧ Expression.parse body = .ok ⟨op, specs⟩ := by
  obtain ⟨op, rfl⟩ := exists_char?_eq derived.known
  exact ⟨op, rfl, parse_body.mpr ⟨pieces, derived⟩⟩

theorem Body.render {body : List Char} {op : Operator} {pieces : List (List Char)}
    {specs : List VarSpec} (derived : Body body op.char? pieces specs) :
    Expression.render ⟨op, specs⟩ = body := by
  have rendered : List.Forall₂ (· = ·) (specs.map VarSpec.render) pieces :=
    List.forall₂_map_left_iff.mpr (derived.read.flip.imp fun _ _ spells => (spec_iff.mp spells).2)
  rw [List.forall₂_eq_eq_eq] at rendered
  rw [Expression.render, rendered]
  exact derived.text.symm

theorem body_render (op : Operator) {specs : List VarSpec} (filled : specs ≠ [])
    (formed : ∀ spec ∈ specs, spec.WellFormed) :
    Body (Expression.render ⟨op, specs⟩) op.char? (specs.map VarSpec.render) specs where
  text := rfl
  known := fun _ => mark_of_char?
  filled := fun none => filled (List.map_eq_nil_iff.mp none)
  read := List.forall₂_map_left_iff.mpr
    (List.forall₂_same.mpr fun spec member => spec_iff.mpr ⟨formed spec member, rfl⟩)

end Grammar

/-- Parsing accepts the bodies that the grammar derives, finds in them the parts that they are
derived from, and undoes the rendering of every expression that has variables and can be written. -/
theorem Expression.parse_inverts_render :
    (∀ body : List Char, (∃ e, Expression.parse body = .ok e) ↔
      ∃ mark pieces specs, Grammar.Body body mark pieces specs) ∧
    (∀ (body : List Char) (e : Expression), Expression.parse body = .ok e →
      (∀ mark pieces specs, Grammar.Body body mark pieces specs →
        e.operator.char? = mark ∧ e.specs = specs) ∧
      (∀ spec ∈ e.specs, ¬ (spec.limit ≠ none ∧ spec.exploded = true)) ∧
      e.render = body) ∧
    ∀ (op : Operator) (specs : List VarSpec), specs ≠ [] →
      (∀ spec ∈ specs, Grammar.Name spec.name ∧
        (∀ n, spec.limit = some n → 1 ≤ n ∧ n ≤ 9999) ∧
        ¬ (spec.limit ≠ none ∧ spec.exploded = true)) →
      Expression.parse (Expression.render ⟨op, specs⟩) = .ok ⟨op, specs⟩ := by
  refine ⟨fun body => ⟨?_, ?_⟩, fun body e parsed => ⟨?_, ?_, ?_⟩, fun op specs filled valid => ?_⟩
  · rintro ⟨e, parsed⟩
    obtain ⟨pieces, derived⟩ := Grammar.parse_body.mp parsed
    exact ⟨e.operator.char?, pieces, e.specs, derived⟩
  · rintro ⟨mark, pieces, specs, derived⟩
    obtain ⟨op, -, parsed⟩ := derived.parse
    exact ⟨_, parsed⟩
  · intro mark pieces specs derived
    obtain ⟨op, rfl, again⟩ := derived.parse
    obtain rfl := Except.ok.inj (parsed.symm.trans again)
    exact ⟨rfl, rfl⟩
  · rintro spec member ⟨limited, exploded⟩
    exact limited ((Expression.wellFormed_of_parse parsed spec member).oneModifier exploded)
  · obtain ⟨pieces, derived⟩ := Grammar.parse_body.mp parsed
    exact derived.render
  · have formed : ∀ spec ∈ specs, spec.WellFormed := by
      intro spec member
      obtain ⟨name, bounds, single⟩ := valid spec member
      refine ⟨Grammar.isName_iff.mpr name, bounds, fun exploded => ?_⟩
      by_contra limited
      exact single ⟨limited, exploded⟩
    exact Grammar.parse_body.mpr ⟨_, Grammar.body_render op filled formed⟩

theorem Expression.path_parameters_read_back :
    Expression.parse ";a.b:12,%2Ec*".toList =
      .ok ⟨.pathParameter, [⟨"a.b".toList, some 12, false⟩, ⟨"%2Ec".toList, none, true⟩]⟩ := by
  have dotted : Grammar.Name "a.b".toList := Grammar.isName_iff.mp (by decide)
  have encoded : Grammar.Name "%2Ec".toList := Grammar.isName_iff.mp (by decide)
  apply Expression.parse_inverts_render.2.2 .pathParameter
    [⟨"a.b".toList, some 12, false⟩, ⟨"%2Ec".toList, none, true⟩] (List.cons_ne_nil _ _)
  rw [List.forall_mem_cons, List.forall_mem_singleton]
  exact ⟨⟨dotted, by simp, by simp⟩, encoded, by simp, by simp⟩

end UriTemplate
