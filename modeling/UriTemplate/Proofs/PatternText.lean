import UriTemplate.Proofs.Cut

/-! The texts of patterns as regular expressions. A text is read sign by sign, and the signs of the
text of a pattern stand for its characters and captures, whichever characters these are. So two
templates whose patterns have one text match the same URIs with the same captures. -/

set_option autoImplicit false

namespace UriTemplate

inductive Sign where
  | plain (c : Char)
  | escaped (c : Char)
  | group (kind : Capture)
  deriving DecidableEq, Repr

namespace Sign

def atom : Sign → Atom
  | plain c | escaped c => .char c
  | group kind => .capture kind

/-- The signs of a text. A backslash takes the next character with it, and a parenthesis has to open
one of the two groups. -/
def read? : List Char → Option (List Sign)
  | [] => some []
  | ['\\'] => none
  | '\\' :: c :: rest => (read? rest).map (escaped c :: ·)
  | '(' :: '.' :: '*' :: ')' :: rest => (read? rest).map (group .line :: ·)
  | '(' :: '[' :: 'A' :: '-' :: 'Z' :: 'a' :: '-' :: 'z' :: '0' :: '-' :: '9' :: '%' :: '_' ::
      '.' :: '~' :: '-' :: ']' :: '+' :: ')' :: rest => (read? rest).map (group .encoded :: ·)
  | '(' :: _ => none
  | c :: rest => (read? rest).map (plain c :: ·)

def metacharacters : List Char :=
  ['.', '^', '$', '*', '+', '?', '{', '}', '[', ']', '\\', '|', '(', ')']

/-- Regular expressions in general read the sign in the same way; for them letters and digits behind
a backslash are not themselves. -/
def Regular : Sign → Prop
  | plain c => c ∉ metacharacters
  | escaped c => c.isAlphanum = false
  | group _ => True

end Sign

def Atom.sign : Atom → Sign
  | char c => if isSpecial c then .escaped c else .plain c
  | capture kind => .group kind

namespace Sign

/-! ## Signs of atoms -/

theorem atom_sign (a : Atom) : a.sign.atom = a := by
  cases a with
  | char c =>
    rw [Atom.sign]
    split
    · rfl
    · rfl
  | capture kind => rfl

theorem isSpecial_of_mem : ∀ c ∈ metacharacters, Atom.isSpecial c = true := by
  rw [← List.all_eq_true]
  decide

theorem not_isAlphanum_of_isSpecial {c : Char} :
    Atom.isSpecial c = true → c.isAlphanum = false := by
  unfold Atom.isSpecial
  rw [List.contains_iff_mem]
  revert c
  simp only [List.forall_mem_cons, List.not_mem_nil, false_implies, implies_true]
  decide

theorem regular_sign (a : Atom) : a.sign.Regular := by
  cases a with
  | char c =>
    rw [Atom.sign]
    split
    · next special => exact not_isAlphanum_of_isSpecial special
    · next kept => exact fun member => kept (isSpecial_of_mem c member)
  | capture kind => trivial

/-! ## Reading -/

theorem read?_plain {c : Char} (escape : c ≠ '\\') (group : c ≠ '(') (rest : List Char) :
    read? (c :: rest) = (read? rest).map (plain c :: ·) := by
  rw [read?]
  all_goals simp [escape, group]

theorem read?_atom (a : Atom) (rest : List Char) :
    read? (a.render ++ rest) = (read? rest).map (a.sign :: ·) := by
  cases a with
  | char c =>
    rw [Atom.render, Atom.sign]
    split
    · rfl
    · next kept =>
      apply read?_plain
      all_goals
        rintro rfl
        exact kept rfl
  | capture kind =>
    cases kind with
    | encoded => rfl
    | line => rfl

theorem read?_render (atoms : List Atom) :
    read? (atoms.flatMap Atom.render) = some (atoms.map Atom.sign) := by
  induction atoms with
  | nil => rfl
  | cons a atoms ih =>
    rw [List.flatMap_cons, read?_atom, ih]
    rfl

theorem map_atom_sign (atoms : List Atom) : (atoms.map Atom.sign).map atom = atoms := by
  induction atoms with
  | nil => rfl
  | cons a atoms ih => rw [List.map_cons, List.map_cons, atom_sign, ih]

theorem atoms_of_render {atoms others : List Atom}
    (same : others.flatMap Atom.render = atoms.flatMap Atom.render) : others = atoms := by
  have signs := read?_render others
  rw [same, read?_render, Option.some.injEq] at signs
  rw [← map_atom_sign others, ← signs, map_atom_sign]

end Sign

/-! ## Templates -/

namespace Template

/-- The text of the pattern of a template reads as the literals, separators and captures of the
template, and templates whose patterns have this text match the same URIs with the same captures. -/
theorem patternText_read_back {template : Template} {parts : List Part}
    (wellFormed : template.parts = .ok parts) :
    ∃ pattern signs, template.pattern = .ok pattern ∧ Sign.read? pattern.render = some signs ∧
      signs.map Sign.atom = (parts.flatMap Part.fields).flatMap Field.atoms ∧
      (∀ sign ∈ signs, sign.Regular) ∧
      ∀ (other : Template) (compiled : Pattern), other.pattern = .ok compiled →
        compiled.render = pattern.render →
        ∀ uri, compiled.captures uri = pattern.captures uri ∧
          other.isMatch uri = template.isMatch uri := by
  obtain ⟨pattern, made, atoms⟩ : ∃ pattern, template.pattern = .ok pattern ∧
      pattern.atoms = (parts.flatMap Part.fields).flatMap Field.atoms :=
    ⟨_, pattern_of_parts wellFormed, rfl⟩
  refine ⟨pattern, _, made, Sign.read?_render _, ?_, ?_, ?_⟩
  · rw [Sign.map_atom_sign, atoms]
  · intro sign member
    obtain ⟨a, -, rfl⟩ := List.mem_map.mp member
    exact Sign.regular_sign a
  · intro other compiled madeOther same uri
    have captures : compiled.captures uri = pattern.captures uri := by
      rw [Pattern.captures_eq_search, Pattern.captures_eq_search, Sign.atoms_of_render same]
    refine ⟨captures, ?_⟩
    rw [isMatch_of_pattern madeOther, isMatch_of_pattern made, captures]

/-- A comma is spelled in the same way as a separator and as a literal, and the text of a group in a
literal is no group. -/
theorem comma_spelled_alike :
    ∃ pattern other, (Template.mk "(.*)\\{a,b}".toList).pattern = .ok pattern ∧
      (Template.mk "(.*)\\{a},{b}".toList).pattern = .ok other ∧ other.render = pattern.render ∧
      pattern.render =
        "\\(\\.\\*\\)\\\\([A-Za-z0-9%_.~-]+),([A-Za-z0-9%_.~-]+)".toList ∧
      ∀ uri, other.captures uri = pattern.captures uri ∧
        (Template.mk "(.*)\\{a},{b}".toList).isMatch uri =
          (Template.mk "(.*)\\{a,b}".toList).isMatch uri := by
  have wellFormed : (Template.mk "(.*)\\{a,b}".toList).parts =
      .ok [.literal "(.*)\\".toList,
        .expression ⟨.simple, [⟨['a'], none, false⟩, ⟨['b'], none, false⟩]⟩] :=
    ok_of_toOption (by decide +kernel)
  have other : (Template.mk "(.*)\\{a},{b}".toList).parts =
      .ok [.literal "(.*)\\".toList, .expression ⟨.simple, [⟨['a'], none, false⟩]⟩,
        .literal [','], .expression ⟨.simple, [⟨['b'], none, false⟩]⟩] :=
    ok_of_toOption (by decide +kernel)
  obtain ⟨pattern, signs, made, -, -, -, alike⟩ := patternText_read_back wellFormed
  have compiled := pattern_of_parts wellFormed
  rw [made, Except.ok.injEq] at compiled
  subst compiled
  exact ⟨_, _, made, pattern_of_parts other, by decide +kernel, by decide +kernel,
    alike _ _ (pattern_of_parts other) (by decide +kernel)⟩

end Template

end UriTemplate
