import Mathlib.Algebra.Group.Nat.Defs
import Mathlib.Data.List.Forall2
import Mathlib.Data.List.TakeWhile
import UriTemplate.Expression.Expansion
import UriTemplate.Proofs.Joining
import UriTemplate.Proofs.Percent

/-! What the specifications of an accepted expression have in common. -/

set_option autoImplicit false

namespace UriTemplate

theorem map_eq_ok {α β ε : Type} {f : α → β} {result : Except ε α} {b : β} :
    result.map f = .ok b ↔ ∃ a, result = .ok a ∧ f a = b := by
  cases result <;> simp [Except.map]

theorem exists_map_eq_ok {α β ε : Type} {f : α → β} {result : Except ε α} :
    (∃ b, result.map f = .ok b) ↔ ∃ a, result = .ok a := by
  cases result <;> simp [Except.map]

theorem mapM_eq_ok {α β ε : Type} (f : α → Except ε β) (xs : List α) (ys : List β) :
    xs.mapM f = .ok ys ↔ List.Forall₂ (fun x y => f x = .ok y) xs ys := by
  induction xs generalizing ys with
  | nil =>
    rw [List.mapM_nil, List.forall₂_nil_left_iff]
    exact ⟨fun same => (Except.ok.inj same).symm, fun same => same ▸ rfl⟩
  | cons x xs ih =>
    rw [List.mapM_cons, List.forall₂_cons_left_iff]
    constructor
    · intro read
      cases first : f x with
      | error e => simp [first, bind, Except.bind] at read
      | ok y =>
        cases rest : xs.mapM f with
        | error e => simp [first, rest, bind, Except.bind] at read
        | ok others =>
          simp only [first, rest, bind, Except.bind, pure, Except.pure, Except.ok.injEq] at read
          exact ⟨y, others, rfl, (ih others).mp rest, read.symm⟩
    · rintro ⟨y, others, first, rest, rfl⟩
      simp only [first, (ih others).mpr rest, bind, Except.bind, pure, Except.pure]

section
variable {α β ε : Type} {f : α → Except ε β} {xs : List α} {e : ε}

theorem mapM_cons_eq_error {x : α} :
    (x :: xs).mapM f = .error e ↔
      f x = .error e ∨ (∃ y, f x = .ok y) ∧ xs.mapM f = .error e := by
  rw [List.mapM_cons]
  cases f x with
  | error d => simp [bind, Except.bind]
  | ok y => cases xs.mapM f <;> simp [bind, Except.bind, pure, Except.pure]

theorem mapM_eq_error :
    xs.mapM f = .error e ↔
      ∃ before x after, xs = before ++ x :: after ∧ (∀ other ∈ before, ∃ y, f other = .ok y) ∧
        f x = .error e := by
  constructor
  · intro failed
    induction xs with
    | nil => cases failed
    | cons x xs ih =>
      rcases mapM_cons_eq_error.mp failed with here | ⟨readable, later⟩
      · exact ⟨[], x, xs, rfl, fun _ member => (nomatch member), here⟩
      · obtain ⟨before, wrong, after, rfl, all, failed⟩ := ih later
        exact ⟨x :: before, wrong, after, rfl, List.forall_mem_cons.mpr ⟨readable, all⟩, failed⟩
  · rintro ⟨before, x, after, rfl, readable, failed⟩
    induction before with
    | nil => exact mapM_cons_eq_error.mpr (Or.inl failed)
    | cons other before ih =>
      obtain ⟨first, rest⟩ := List.forall_mem_cons.mp readable
      exact mapM_cons_eq_error.mpr (Or.inr ⟨first, ih rest⟩)

end

theorem exists_of_forall₂ {α β : Type} {related : α → β → Prop} {xs : List α} {ys : List β}
    (paired : List.Forall₂ related xs ys) {y : β} (member : y ∈ ys) : ∃ x ∈ xs, related x y := by
  induction paired with
  | nil => cases member
  | cons first rest ih =>
    rcases List.mem_cons.mp member with rfl | member
    · exact ⟨_, List.mem_cons_self, first⟩
    · obtain ⟨x, inside, holds⟩ := ih member
      exact ⟨x, List.mem_cons_of_mem _ inside, holds⟩

section
variable {α β γ ε : Type}

theorem exists_mapM_eq_ok {f : α → Except ε β} {xs : List α} :
    (∃ ys, xs.mapM f = .ok ys) ↔ ∀ x ∈ xs, ∃ y, f x = .ok y := by
  constructor
  · rintro ⟨ys, read⟩ x member
    obtain ⟨y, -, found⟩ := exists_of_forall₂ ((mapM_eq_ok f xs ys).mp read).flip member
    exact ⟨y, found⟩
  · intro readable
    cases read : xs.mapM f with
    | ok ys => exact ⟨ys, rfl⟩
    | error e =>
      obtain ⟨before, x, after, rfl, -, failed⟩ := mapM_eq_error.mp read
      obtain ⟨y, found⟩ := readable x (by simp)
      rw [found] at failed
      cases failed

theorem mapM_map_eq_ok {f : β → Except ε γ} {g : α → β} {h : α → γ}
    (same : ∀ x, f (g x) = .ok (h x)) (xs : List α) : (xs.map g).mapM f = .ok (xs.map h) := by
  rw [mapM_eq_ok, List.forall₂_map_left_iff, List.forall₂_map_right_iff, List.forall₂_same]
  exact fun x _ => same x

end

namespace VarSpec

/-- What holds of every specification that is read from text. -/
structure WellFormed (spec : VarSpec) : Prop where
  name : isName spec.name = true
  limit : ∀ n, spec.limit = some n → 1 ≤ n ∧ n ≤ 9999
  oneModifier : spec.exploded = true → spec.limit = none

theorem digit_bounds {c : Char} (digit : c.isDigit = true) : 48 ≤ c.toNat ∧ c.toNat ≤ 57 := by
  simpa [Char.isDigit, UInt32.le_iff_toNat_le] using digit

theorem ofDigitChars_cons (c : Char) (digits : List Char) :
    Nat.ofDigitChars 10 (c :: digits) 0 =
      10 ^ digits.length * (c.toNat - 48) + Nat.ofDigitChars 10 digits 0 := by
  rw [Nat.ofDigitChars_cons, Nat.ofDigitChars_eq_ofDigitChars_zero, Nat.mul_zero, Nat.zero_add]
  rfl

theorem ofDigitChars_lt {digits : List Char} (all : ∀ c ∈ digits, c.isDigit = true) :
    Nat.ofDigitChars 10 digits 0 < 10 ^ digits.length := by
  induction digits with
  | nil => simp
  | cons c digits ih =>
    have rest := ih fun d member => all d (List.mem_cons_of_mem _ member)
    have lead := digit_bounds (all c List.mem_cons_self)
    have digit : c.toNat - 48 ≤ 9 := by omega
    have scaled := Nat.mul_le_mul_left (10 ^ digits.length) digit
    rw [ofDigitChars_cons, List.length_cons, Nat.pow_succ]
    omega

theorem readLimit?_bounds {digits : List Char} {n : Nat} (read : readLimit? digits = some n) :
    1 ≤ n ∧ n ≤ 9999 := by
  cases digits with
  | nil => cases read
  | cons c rest =>
    simp only [readLimit?] at read
    split at read
    · next shape =>
      simp only [Bool.and_eq_true, bne_iff_ne, decide_eq_true_eq, List.all_eq_true] at shape
      obtain ⟨⟨⟨digit, nonzero⟩, short⟩, digits⟩ := shape
      have value := Option.some.inj read
      -- Four digits bound the number from above, the first of them from below.
      have most : Nat.ofDigitChars 10 (c :: rest) 0 < 10 ^ (c :: rest).length := by
        apply ofDigitChars_lt
        intro d member
        rcases List.mem_cons.mp member with rfl | member
        · exact digit
        · exact digits d member
      have scale : 10 ^ (c :: rest).length ≤ 10 ^ 4 :=
        Nat.pow_le_pow_right (by decide) (Nat.succ_le_succ short)
      have least : 10 ^ rest.length * 1 ≤ 10 ^ rest.length * (c.toNat - 48) := by
        have lead := digit_bounds digit
        have notZero : c.toNat ≠ 48 := fun same => nonzero (Char.toNat_inj.mp same)
        exact Nat.mul_le_mul_left _ (by omega)
      have positive : 0 < 10 ^ rest.length := Nat.pow_pos (by decide)
      have split := ofDigitChars_cons c rest
      omega
    · cases read

theorem named_eq_ok {text name : List Char} {limit : Option Int} {exploded : Bool}
    {spec : VarSpec} :
    named text name limit exploded = .ok spec ↔
      isName name = true ∧ spec = ⟨name, limit, exploded⟩ := by
  unfold named
  split
  · next valid => simp only [Except.ok.injEq, valid, true_and, eq_comm]
  · next invalid => simp [invalid]

/-- How the modifier of a text is found: by a star at its end or else by its first colon. -/
inductive Form : List Char → Prop where
  | both {name : List Char} : ':' ∈ name → Form (name ++ ['*'])
  | exploded {name : List Char} : ':' ∉ name → Form (name ++ ['*'])
  | limited {name digits : List Char} :
      (name ++ ':' :: digits).getLast? ≠ some '*' → ':' ∉ name → Form (name ++ ':' :: digits)
  | plain {name : List Char} : name.getLast? ≠ some '*' → ':' ∉ name → Form name

theorem form (text : List Char) : Form text := by
  by_cases star : text.getLast? = some '*'
  · rw [← List.dropLast_append_getLast? _ star]
    by_cases colon : ':' ∈ text.dropLast
    · exact .both colon
    · exact .exploded colon
  · by_cases colon : ':' ∈ text
    · obtain ⟨name, digits, rfl, free⟩ := List.eq_append_cons_of_mem colon
      exact .limited star free
    · exact .plain star colon

theorem parse_both {name : List Char} (colon : ':' ∈ name) :
    parse (name ++ ['*']) = .error (.spec .bothModifiers (name ++ ['*'])) := by
  rw [parse, if_pos List.getLast?_concat, if_pos (List.mem_append_left _ colon)]

section
variable {name : List Char} (free : ':' ∉ name)
include free

theorem before_colon : ∀ c ∈ name, decide (c ≠ ':') = true := by
  intro c member
  apply decide_eq_true
  rintro rfl
  exact free member

theorem parse_exploded : parse (name ++ ['*']) = named (name ++ ['*']) name none true := by
  have noColon : ':' ∉ name ++ ['*'] := by simpa using free
  rw [parse, if_pos List.getLast?_concat, if_neg noColon, List.dropLast_concat]

theorem parse_limited {digits : List Char}
    (noStar : (name ++ ':' :: digits).getLast? ≠ some '*') :
    parse (name ++ ':' :: digits) =
      match readLimit? digits with
      | none => .error (.spec (.badLimit (name.length + 1)) (name ++ ':' :: digits))
      | some limit => named (name ++ ':' :: digits) name (some limit) false := by
  have before : (name ++ ':' :: digits).takeWhile (· ≠ ':') = name := by
    rw [List.takeWhile_append_of_pos (before_colon free)]
    exact List.append_nil name
  have behind : (name ++ ':' :: digits).dropWhile (· ≠ ':') = ':' :: digits := by
    rw [List.dropWhile_append_of_pos (before_colon free)]
    rfl
  cases read : readLimit? digits with
  | none => simp only [parse, noStar, if_false, before, behind, read]
  | some limit => simp only [parse, noStar, if_false, before, behind, read]

theorem parse_plain (noStar : name.getLast? ≠ some '*') :
    parse name = named name name none false := by
  rw [parse, if_neg noStar]
  simp only [List.dropWhile_eq_nil_iff.mpr (before_colon free)]

end

theorem forms_of_parse {text : List Char} {spec : VarSpec} (parsed : parse text = .ok spec) :
    ∃ name, isName name = true ∧
      (text = name ∧ spec = ⟨name, none, false⟩ ∨
        text = name ++ ['*'] ∧ spec = ⟨name, none, true⟩ ∨
        ∃ digits n, readLimit? digits = some n ∧
          text = name ++ ':' :: digits ∧ spec = ⟨name, some n, false⟩) := by
  cases form text with
  | both colon =>
    rw [parse_both colon] at parsed
    cases parsed
  | exploded free =>
    rw [parse_exploded free] at parsed
    obtain ⟨valid, rfl⟩ := named_eq_ok.mp parsed
    exact ⟨_, valid, Or.inr (Or.inl ⟨rfl, rfl⟩)⟩
  | @limited name digits noStar free =>
    rw [parse_limited free noStar] at parsed
    cases read : readLimit? digits with
    | none =>
      rw [read] at parsed
      cases parsed
    | some n =>
      rw [read] at parsed
      obtain ⟨valid, rfl⟩ := named_eq_ok.mp parsed
      exact ⟨_, valid, Or.inr (Or.inr ⟨digits, n, read, rfl, rfl⟩)⟩
  | plain noStar free =>
    rw [parse_plain free noStar] at parsed
    obtain ⟨valid, rfl⟩ := named_eq_ok.mp parsed
    exact ⟨_, valid, Or.inl ⟨rfl, rfl⟩⟩

theorem wellFormed_of_parse {text : List Char} {spec : VarSpec} (parsed : parse text = .ok spec) :
    spec.WellFormed := by
  obtain ⟨name, valid, ⟨-, rfl⟩ | ⟨-, rfl⟩ | ⟨digits, n, read, -, rfl⟩⟩ := forms_of_parse parsed
  · exact ⟨valid, fun _ limited => (nomatch limited), fun _ => rfl⟩
  · exact ⟨valid, fun _ limited => (nomatch limited), fun _ => rfl⟩
  · refine ⟨valid, fun m limited => ?_, fun exploded => nomatch exploded⟩
    cases limited
    have bounds := readLimit?_bounds read
    omega

theorem mem_of_isName {name : List Char} (valid : isName name = true) {c : Char}
    (member : c ∈ name) : Percent.isUnreserved c = true ∨ c = '%' := by
  rw [← Percent.render_tokens name, List.mem_flatMap] at member
  obtain ⟨token, inName, inToken⟩ := member
  have runs : [.char '.'].intercalate ((Percent.tokens name).splitOn (.char '.')) =
      Percent.tokens name := List.intercalate_splitOn _
  -- A token of the name is the dot between two runs or belongs to one of them.
  rw [← runs] at inName
  simp only [isName, List.all_eq_true, Bool.and_eq_true] at valid
  cases token with
  | triplet high low => exact (Percent.mem_triplet inToken).symm
  | char d =>
    obtain rfl : c = d := by simpa [Percent.Token.render] using inToken
    rcases mem_intercalate _ inName with dot | ⟨run, inRuns, inRun⟩
    · obtain rfl : c = '.' := by simpa using dot
      exact Or.inl (by decide)
    · have allowed := (valid run inRuns).2 _ inRun
      simp only [isNameToken, Bool.or_eq_true, beq_iff_eq] at allowed
      refine Or.inl ?_
      rcases allowed with letter | rfl
      · simp [Percent.isUnreserved, letter]
      · decide

def head (spec : VarSpec) (text : List Char) : List Char :=
  match spec.limit with
  | none => text
  | some n => text.take n.toNat

theorem cut_eq_head {spec : VarSpec} (formed : spec.WellFormed) (text : List Char) :
    spec.cut text = spec.head text := by
  cases limit : spec.limit with
  | none => simp only [cut, head, limit]
  | some n =>
    have positive := (formed.limit n limit).1
    cases n with
    | ofNat n => simp only [cut, head, limit, Int.ofNat_eq_natCast, Int.toNat_natCast]
    | negSucc n => omega

theorem head_eq_nil {spec : VarSpec} (formed : spec.WellFormed) (text : List Char) :
    spec.head text = [] ↔ text = [] := by
  cases limit : spec.limit with
  | none => simp only [head, limit]
  | some n =>
    have positive := (formed.limit n limit).1
    have notZero : n.toNat ≠ 0 := by omega
    simp only [head, limit, List.take_eq_nil_iff, notZero, false_or]

end VarSpec

theorem Operator.encode_of_isNamed {op : Operator} (named : op.isNamed = true) :
    op.encode = Percent.encode := by
  cases op
  all_goals first | rfl | cases named

namespace Expression

theorem contributions_cons (σ : List Char → Value) (op : Operator) (spec : VarSpec)
    (rest : List VarSpec) :
    contributions σ ⟨op, spec :: rest⟩ =
      (op.expand spec (σ spec.name)).toList ++ contributions σ ⟨op, rest⟩ := by
  unfold contributions
  simp only [List.filterMap_cons]
  cases op.expand spec (σ spec.name) with
  | none => rfl
  | some text => rfl

theorem parse_eq_ok {body : List Char} {e : Expression} :
    Expression.parse body = .ok e ↔
      (Operator.split body).2 ≠ [] ∧ (Operator.split body).1 = e.operator ∧
        List.Forall₂ (fun text spec => VarSpec.parse text = .ok spec)
          ((Operator.split body).2.splitOn ',') e.specs := by
  rw [← mapM_eq_ok]
  simp only [Expression.parse]
  split
  · next empty => simp [empty]
  · next filled =>
    cases read : ((Operator.split body).2.splitOn ',').mapM VarSpec.parse with
    | error fault => simp [Except.map]
    | ok specs =>
      obtain ⟨operator, found⟩ := e
      simp [Except.map, filled]

theorem specs_ne_nil_of_parse {body : List Char} {e : Expression}
    (parsed : Expression.parse body = .ok e) : e.specs ≠ [] := by
  obtain ⟨-, -, read⟩ := parse_eq_ok.mp parsed
  intro empty
  rw [empty, List.forall₂_nil_right_iff] at read
  exact List.splitOn_ne_nil _ _ read

theorem wellFormed_of_parse {body : List Char} {e : Expression}
    (parsed : Expression.parse body = .ok e) : ∀ spec ∈ e.specs, spec.WellFormed := by
  intro spec member
  obtain ⟨-, -, read⟩ := parse_eq_ok.mp parsed
  obtain ⟨text, -, parsed⟩ := exists_of_forall₂ read member
  exact VarSpec.wellFormed_of_parse parsed

end Expression

end UriTemplate
