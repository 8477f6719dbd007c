import UriTemplate.Datum.Bindings
import UriTemplate.Proofs.Grammar
import UriTemplate.Proofs.WellFormed

/-! Text that may stand in a URI as it is: unreserved and reserved characters and whole triplets.
Whatever the values are, an expression expands to such text, so a whole expansion holds no braces and
expands to itself. -/

set_option autoImplicit false

namespace UriTemplate

def UriChar (c : Char) : Prop :=
  c.isAlphanum = true ∨ c ∈ "-._~".toList ∨ c ∈ ":/?#[]@".toList ∨
    c ∈ ['!', '$', '&', '\'', '(', ')', '*', '+', ',', ';', '=']

instance : DecidablePred UriChar :=
  fun _ => instDecidableOr

inductive UriText : List Char → Prop where
  | nil : UriText []
  | char {c : Char} {rest : List Char} : UriChar c → UriText rest → UriText (c :: rest)
  | triplet {high low : Char} {rest : List Char} :
      high ∈ Grammar.hexDigits → low ∈ Grammar.hexDigits → UriText rest →
      UriText ('%' :: high :: low :: rest)

/-- Two hexadecimal digits follow each percent sign. -/
def PercentsComplete (text : List Char) : Prop :=
  ∀ before after, text = before ++ '%' :: after → ∃ high low rest, after = high :: low :: rest ∧
    high ∈ Grammar.hexDigits ∧ low ∈ Grammar.hexDigits

/-! ## URI text -/

theorem uriChar_of_unreserved {c : Char} (unreserved : Percent.isUnreserved c = true) :
    UriChar c := by
  simp only [Percent.isUnreserved, Bool.or_eq_true, beq_iff_eq] at unreserved
  rcases unreserved with (((letter | rfl) | rfl) | rfl) | rfl
  · exact Or.inl letter
  all_goals decide

theorem uriChar_of_reserved {c : Char} (reserved : Percent.isReserved c = true) : UriChar c := by
  have delimiters : [':', '/', '?', '#', '[', ']', '@', '!', '$', '&', '\'', '(', ')', '*', '+', ',',
      ';', '='].all (fun c => decide (UriChar c)) = true := by decide
  exact of_decide_eq_true (List.all_eq_true.mp delimiters c (List.contains_iff_mem.mp reserved))

theorem uriChar_of_hexDigit {c : Char} (digit : c ∈ Grammar.hexDigits) : UriChar c := by
  have digits : Grammar.hexDigits.all (fun c => decide (UriChar c)) = true := by decide
  exact of_decide_eq_true (List.all_eq_true.mp digits c digit)

theorem UriChar.ne_percent {c : Char} (allowed : UriChar c) : c ≠ '%' := by
  intro same
  subst same
  exact absurd allowed (by decide)

namespace UriText

theorem single {c : Char} (allowed : UriChar c) : UriText [c] :=
  .char allowed .nil

theorem append {first second : List Char} (left : UriText first) (right : UriText second) :
    UriText (first ++ second) := by
  induction left with
  | nil => exact right
  | char allowed _ ih => exact .char allowed ih
  | triplet high low _ ih => exact .triplet high low ih

theorem flatMap {α : Type} {f : α → List Char} {xs : List α} (each : ∀ x ∈ xs, UriText (f x)) :
    UriText (xs.flatMap f) := by
  induction xs with
  | nil => exact .nil
  | cons x xs ih =>
    obtain ⟨first, rest⟩ := List.forall_mem_cons.mp each
    rw [List.flatMap_cons]
    exact first.append (ih rest)

theorem intercalate {sep : List Char} (between : UriText sep) {texts : List (List Char)}
    (each : ∀ text ∈ texts, UriText text) : UriText (sep.intercalate texts) := by
  cases texts with
  | nil => exact .nil
  | cons first rest =>
    obtain ⟨head, tail⟩ := List.forall_mem_cons.mp each
    rw [intercalate_cons]
    exact head.append (flatMap fun text member => between.append (tail text member))

theorem mem {text : List Char} (clean : UriText text) {c : Char} (member : c ∈ text) :
    UriChar c ∨ c = '%' := by
  induction clean with
  | nil => cases member
  | char allowed _ ih =>
    rcases List.mem_cons.mp member with rfl | member
    · exact Or.inl allowed
    · exact ih member
  | triplet high low _ ih =>
    simp only [List.mem_cons] at member
    rcases member with rfl | rfl | rfl | member
    · exact Or.inr rfl
    · exact Or.inl (uriChar_of_hexDigit high)
    · exact Or.inl (uriChar_of_hexDigit low)
    · exact ih member

theorem not_mem {text : List Char} (clean : UriText text) {c : Char} (outside : ¬ UriChar c)
    (percent : c ≠ '%') : c ∉ text :=
  fun member => (clean.mem member).elim outside percent

theorem braceFree {text : List Char} (clean : UriText text) : BraceFree text := by
  intro c member
  constructor
  · rintro rfl
    exact clean.not_mem (by decide) (by decide) member
  · rintro rfl
    exact clean.not_mem (by decide) (by decide) member

theorem percentsComplete {text : List Char} (clean : UriText text) : PercentsComplete text := by
  induction clean with
  | nil =>
    intro before after split
    cases before <;> cases split
  | @char c rest allowed _ ih =>
    intro before after split
    cases before with
    | nil =>
      rw [List.nil_append, List.cons.injEq] at split
      exact absurd split.1 allowed.ne_percent
    | cons d before => exact ih before after (List.cons.inj split).2
  | @triplet high low rest first second _ ih =>
    intro before after split
    -- The percent sign is the first character of the triplet or stands behind it.
    rcases before with _ | ⟨_, _ | ⟨_, _ | ⟨_, before⟩⟩⟩
    · rw [List.nil_append, List.cons.injEq] at split
      exact ⟨high, low, rest, split.2.symm, first, second⟩
    · simp only [List.cons_append, List.nil_append, List.cons.injEq] at split
      exact absurd split.2.1 (uriChar_of_hexDigit first).ne_percent
    · simp only [List.cons_append, List.nil_append, List.cons.injEq] at split
      exact absurd split.2.2.1 (uriChar_of_hexDigit second).ne_percent
    · simp only [List.cons_append, List.cons.injEq] at split
      exact ih before after split.2.2.2

end UriText

/-! ## Encoded text -/

theorem uriText_triplet (high low : Text.Hex.Digit) :
    UriText (Percent.Token.render (.triplet high low)) :=
  .triplet (Grammar.mem_hexDigits.mpr high.isHex) (Grammar.mem_hexDigits.mpr low.isHex) .nil

theorem uriText_encodeChar (c : Char) : UriText (Percent.encodeChar c) :=
  .flatMap fun _ _ => uriText_triplet _ _

theorem uriText_encode (text : List Char) : UriText (Percent.encode text) := by
  apply UriText.flatMap
  intro c _
  split
  · next unreserved => exact .single (uriChar_of_unreserved unreserved)
  · exact uriText_encodeChar c

theorem uriText_encodeReserved (text : List Char) : UriText (Percent.encodeReserved text) := by
  apply UriText.flatMap
  intro token _
  cases token with
  | triplet high low => exact uriText_triplet high low
  | char c =>
    dsimp only
    split
    · next kept =>
      rw [Bool.or_eq_true] at kept
      exact .single (kept.elim uriChar_of_unreserved uriChar_of_reserved)
    · exact uriText_encodeChar c

theorem Grammar.NameChar.uriText {unit : List Char} (valid : NameChar unit) : UriText unit := by
  cases valid with
  | plain allowed =>
    rcases allowed with letter | rfl
    · exact .single (Or.inl letter)
    · exact .single (by decide)
  | triplet high low => exact .triplet high low .nil

theorem Grammar.Run.uriText {run : List Char} (valid : Run run) : UriText run := by
  induction valid with
  | last unit => exact unit.uriText
  | more unit _ ih => exact unit.uriText.append ih

theorem Grammar.Name.uriText {name : List Char} (valid : Name name) : UriText name := by
  induction valid with
  | run run => exact run.uriText
  | dotted run _ ih => exact run.uriText.append (.char (by decide) ih)

theorem VarSpec.WellFormed.uriText_name {spec : VarSpec} (formed : spec.WellFormed) :
    UriText spec.name :=
  (Grammar.isName_iff.mp formed.name).uriText

/-! ## Expansion -/

namespace Operator

variable (op : Operator)

theorem uriText_encode (text : List Char) : UriText (op.encode text) := by
  rw [encode]
  split
  · exact uriText_encodeReserved text
  · exact UriTemplate.uriText_encode text

theorem uriText_first : UriText op.first := by
  cases op with
  | simple | reserved => exact .nil
  | _ => exact .single (by decide)

theorem uriText_separator : UriText [op.separator] := by
  apply UriText.single
  cases op
  all_goals decide

theorem uriText_ifEmpty : UriText op.ifEmpty := by
  cases op with
  | pathParameter => exact .nil
  | _ => exact .single (by decide)

variable {spec : VarSpec} (formed : spec.WellFormed)
include formed

theorem uriText_withName {text : List Char} (clean : UriText text) :
    UriText (op.withName spec text) := by
  rw [withName]
  split
  · exact formed.uriText_name.append (.char (by decide) clean)
  · exact clean

theorem uriText_expandString (text : List Char) : UriText (op.expandString spec text) := by
  rw [expandString, writeString]
  split
  · exact formed.uriText_name.append op.uriText_ifEmpty
  · exact op.uriText_withName formed (op.uriText_encode _)

theorem uriText_expandMembers {exploded together : List (List Char)}
    (apart : ∀ text ∈ exploded, UriText text) (joined : ∀ text ∈ together, UriText text) :
    UriText (op.expandMembers spec exploded together) := by
  rw [expandMembers]
  split
  · exact .intercalate op.uriText_separator apart
  · exact op.uriText_withName formed (.intercalate (.single (by decide)) joined)

theorem uriText_expand {value : Value} {text : List Char}
    (contributes : op.expand spec value = some text) : UriText text := by
  have pair : ∀ {mark : Char}, UriChar mark → ∀ pair : List Char × List Char,
      UriText (op.encode pair.1 ++ mark :: op.encode pair.2) :=
    fun allowed pair => (op.uriText_encode pair.1).append (.char allowed (op.uriText_encode pair.2))
  cases value with
  | absent => cases contributes
  | scalar string =>
    cases contributes
    exact op.uriText_expandString formed string
  | list items =>
    simp only [expand] at contributes
    split at contributes
    · cases contributes
    · cases contributes
      apply op.uriText_expandMembers formed
      · exact List.forall_mem_map.mpr fun item _ =>
          op.uriText_withName formed (op.uriText_encode item)
      · exact List.forall_mem_map.mpr fun item _ => op.uriText_encode item
  | map pairs =>
    simp only [expand] at contributes
    split at contributes
    · cases contributes
    · cases contributes
      apply op.uriText_expandMembers formed
      · exact List.forall_mem_map.mpr fun entry _ => pair (by decide) entry
      · exact List.forall_mem_map.mpr fun entry _ => pair (by decide) entry

end Operator

theorem Expression.uriText_expand {e : Expression} (formed : ∀ spec ∈ e.specs, spec.WellFormed)
    (σ : List Char → Value) : UriText (e.expand σ) := by
  have pieces : ∀ text ∈ e.contributions σ, UriText text := by
    intro text member
    obtain ⟨spec, inside, contributes⟩ := List.mem_filterMap.mp member
    exact e.operator.uriText_expand (formed spec inside) contributes
  unfold expand Operator.assemble
  split
  · exact .nil
  · exact e.operator.uriText_first.append (.intercalate e.operator.uriText_separator pieces)

namespace Template

variable {template : Template} {parts : List Part}

theorem braceFree_expand (wellFormed : template.parts = .ok parts) (σ : List Char → Value) :
    BraceFree (parts.flatMap (Part.expand σ)) := by
  intro c member
  obtain ⟨part, inside, member⟩ := List.mem_flatMap.mp member
  cases part with
  | literal text => exact braceFree_of_literal wellFormed inside c member
  | expression e =>
    have clean := Expression.uriText_expand (wellFormed_of_expression wellFormed inside) σ
    exact clean.braceFree c member

/-- Values reach a URI as clean text only, so what they are expanded to is a template without
variables that stands for itself. -/
theorem expand_clean (wellFormed : template.parts = .ok parts) (bindings : Bindings) :
    (∀ e, .expression e ∈ parts →
      UriText (e.expand bindings.value) ∧ PercentsComplete (e.expand bindings.value)) ∧
    ∃ uri, template.expand bindings = .ok uri ∧
      uri = parts.flatMap (Part.expand bindings.value) ∧ BraceFree uri ∧
      (∃ others, (Template.mk uri).parts = .ok others) ∧ (Template.mk uri).labels = .ok [] ∧
      ∀ others, (Template.mk uri).expand others = .ok uri := by
  have free := braceFree_expand wellFormed bindings.value
  refine ⟨?_, _, template.expand_of_parts wellFormed bindings, rfl, free, ?_, ?_, ?_⟩
  · intro e member
    have clean := Expression.uriText_expand (wellFormed_of_expression wellFormed member) bindings.value
    exact ⟨clean, clean.percentsComplete⟩
  · exact ⟨_, parts_of_braceFree free⟩
  · exact labels_of_braceFree free
  · exact expand_of_braceFree free

theorem cut_triplet_clean :
    ∃ uri, (Template.mk "/{+rest:4}{?q*}".toList).expand
        [("rest".toList, .text "ab%41".toList),
          ("q".toList, .map [(.text "{x}\n".toList, .text ['%'])])] = .ok uri ∧
      uri = "/ab%254?%7Bx%7D%0A=%25".toList ∧ (Template.mk uri).labels = .ok [] ∧
      ∀ others, (Template.mk uri).expand others = .ok uri := by
  have wellFormed : (Template.mk "/{+rest:4}{?q*}".toList).parts =
      .ok [.literal ['/'], .expression ⟨.reserved, [⟨"rest".toList, some 4, false⟩]⟩,
        .expression ⟨.query, [⟨['q'], none, true⟩]⟩] := ok_of_toOption (by decide +kernel)
  obtain ⟨-, uri, expanded, same, -, -, unlabelled, fixed⟩ := expand_clean wellFormed
    [("rest".toList, .text "ab%41".toList),
      ("q".toList, .map [(.text "{x}\n".toList, .text ['%'])])]
  exact ⟨uri, expanded, same.trans (by decide +kernel), unlabelled, fixed⟩

end Template

end UriTemplate
