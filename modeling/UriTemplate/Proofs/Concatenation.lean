import UriTemplate.Proofs.SpecFaults
import UriTemplate.Proofs.Verdict
import UriTemplate.Proofs.WellFormed

/-! One template behind another. If the first is well formed, the scan of both texts goes on in the
second as it would have begun there; only a literal at the end of the first and one at the start of
the second are found as one. Neither labels, expansion nor pattern can tell where a literal was cut,
so they are those of the two templates in a row, and what is wrong with the second is wrong with
both. -/

set_option autoImplicit false

namespace UriTemplate

def TemplateError.OfExpression : TemplateError → Prop
  | .brace _ _ _ => False
  | .noVariables _ | .spec _ _ => True

/-- An error of a template as it shows when a text stands before the template. -/
def TemplateError.behind (text : List Char) : TemplateError → TemplateError
  | .brace fault template position => .brace fault (text ++ template) (text.length + position)
  | .noVariables body => .noVariables body
  | .spec fault within => .spec fault within

namespace Template

instance : Append Template :=
  ⟨fun first second => ⟨first.text ++ second.text⟩⟩

theorem text_append (first second : Template) :
    (first ++ second).text = first.text ++ second.text :=
  rfl

/-- What two templates in a row have from each of them. -/
structure Composes (first second : Template) : Prop where
  wellFormed : (first ++ second).HasVerdict none ↔ second.HasVerdict none
  expand : second.HasVerdict none → ∀ bindings, ∃ before after,
    first.expand bindings = .ok before ∧ second.expand bindings = .ok after ∧
      (first ++ second).expand bindings = .ok (before ++ after)
  labels : second.HasVerdict none → ∃ before after,
    first.labels = .ok before ∧ second.labels = .ok after ∧
      (first ++ second).labels = .ok (before ++ after)
  pattern : second.HasVerdict none → ∃ before after both,
    first.pattern = .ok before ∧ second.pattern = .ok after ∧
      (first ++ second).pattern = .ok both ∧ both.render = before.render ++ after.render ∧
      both.labels = before.labels ++ after.labels
  braceFault : ∀ fault template position,
    second.HasVerdict (some (.brace fault template position)) →
    (first ++ second).HasVerdict
      (some (.brace fault (first ++ second).text (first.text.length + position)))
  expressionFault : ∀ e : TemplateError, e.OfExpression → second.HasVerdict (some e) →
    (first ++ second).HasVerdict (some e)

end Template

/-! ## Errors of expressions -/

theorem TemplateError.OfExpression.behind {e : TemplateError} (own : e.OfExpression)
    (text : List Char) : e.behind text = e := by
  cases e with
  | brace fault template position => cases own
  | noVariables body => rfl
  | spec fault within => rfl

theorem Expression.ofExpression_of_parse {body : List Char} {e : TemplateError}
    (failed : Expression.parse body = .error e) : e.OfExpression := by
  obtain ⟨text, position, rejects⟩ := Grammar.rejects_of_parse failed
  cases rejects with
  | noVariables => trivial
  | spec => trivial

/-! ## Parts around a cut in a literal -/

namespace Part

def ofText (text : List Char) : List Part :=
  if text = [] then [] else [.literal text]

def behind (text : List Char) : List Part → List Part
  | .literal next :: rest => .literal (text ++ next) :: rest
  | parts => ofText text ++ parts

/-- Parts behind other parts. Literals that meet become one. -/
def join : List Part → List Part → List Part
  | [], later => later
  | [.literal text], later => behind text later
  | part :: rest, later => part :: join rest later

theorem behind_nil (parts : List Part) : behind [] parts = parts := by
  unfold behind
  split <;> rfl

theorem behind_ofText (text next : List Char) :
    behind text (ofText next) = ofText (text ++ next) := by
  cases next with
  | nil => simp [ofText, behind]
  | cons c rest => simp [ofText, behind]

theorem behind_expression (text next : List Char) (e : Expression) (rest : List Part) :
    behind text (ofText next ++ .expression e :: rest) =
      ofText (text ++ next) ++ .expression e :: rest := by
  cases next with
  | nil => simp [ofText, behind]
  | cons c more => simp [ofText, behind]

theorem join_ofText (text : List Char) (later : List Part) :
    join (ofText text) later = behind text later := by
  cases text with
  | nil => rw [behind_nil]; rfl
  | cons c rest => rfl

theorem join_expression (text : List Char) (e : Expression) (rest later : List Part) :
    join (ofText text ++ .expression e :: rest) later =
      ofText text ++ .expression e :: join rest later := by
  cases text with
  | nil => simp [ofText, join]
  | cons c more => simp [ofText, join]

section
variable {β : Type} {f : Part → List β}
  (additive : ∀ text next, f (.literal (text ++ next)) = f (.literal text) ++ f (.literal next))
include additive

theorem flatMap_ofText (text : List Char) : (ofText text).flatMap f = f (.literal text) := by
  cases text with
  | nil => exact (List.self_eq_append_right.mp (additive [] [])).symm
  | cons c rest => exact List.flatMap_singleton _ _

theorem flatMap_behind (text : List Char) (parts : List Part) :
    (behind text parts).flatMap f = f (.literal text) ++ parts.flatMap f := by
  unfold behind
  split
  · rw [List.flatMap_cons, List.flatMap_cons, additive, List.append_assoc]
  · rw [List.flatMap_append, flatMap_ofText additive]

/-- What is made of the parts one by one does not show that literals have met, if it does not show
where a literal is cut. -/
theorem flatMap_join (parts later : List Part) :
    (join parts later).flatMap f = parts.flatMap f ++ later.flatMap f := by
  fun_induction join parts later with
  | case1 later => rfl
  | case2 later text => rw [flatMap_behind additive, List.flatMap_singleton]
  | case3 later part rest _ ih => rw [List.flatMap_cons, ih, List.flatMap_cons, List.append_assoc]

end

end Part

/-! ## Reading a scan that goes on -/

namespace Scan

def read (template : List Char) (scan : Scan) : Except TemplateError (List Part) :=
  collect Part.ofPiece (scan.error? template) scan.pieces

theorem read_of_ended {scan : Scan} (ended : scan.fault = none) (template other : List Char) :
    scan.read template = scan.read other := by
  rw [read, read, error?, error?, ended]
  rfl

theorem read_ofPlain (template text : List Char) :
    read template ⟨Piece.ofPlain text, none⟩ = .ok (Part.ofText text) := by
  cases text <;> rfl

theorem read_stopped (template text : List Char) (fault : BraceFault) (position : Nat) :
    read template ⟨Piece.ofPlain text, some (fault, position)⟩ =
      .error (.brace fault template position) := by
  cases text <;> rfl

theorem read_plain (template text : List Char) (scan : Scan) :
    read template (scan.prepend [.plain text]) =
      (scan.read template).map fun rest => .literal text :: rest :=
  rfl

theorem read_braced (template body : List Char) (position : Nat) (scan : Scan) :
    read template (scan.prepend [.braced body position]) =
      (Expression.parse body).bind fun e =>
        (scan.read template).map fun rest => .expression e :: rest := by
  simp only [read, prepend, error?, List.cons_append, List.nil_append, collect, Part.ofPiece]
  cases Expression.parse body <;> rfl

theorem read_prepend (template text body : List Char) (position : Nat) (scan : Scan) :
    read template (scan.prepend (Piece.ofPlain text ++ [.braced body position])) =
      (Expression.parse body).bind fun e =>
        (scan.read template).map fun rest => Part.ofText text ++ .expression e :: rest := by
  cases text with
  | nil => exact read_braced template body position scan
  | cons c more =>
    refine (read_plain template (c :: more) (scan.prepend [.braced body position])).trans ?_
    rw [read_braced]
    cases Expression.parse body with
    | error e => rfl
    | ok e => cases scan.read template <;> rfl

end Scan

theorem BraceFree.append {text next : List Char} (free : BraceFree text)
    (freeNext : BraceFree next) : BraceFree (text ++ next) :=
  List.forall_mem_append.mpr ⟨free, freeNext⟩

/-- What is read of a template with `lead` before it, from what is read of the template alone;
`extend` says how `lead` shows in the parts. -/
def readBehind (lead : List Char) (extend : List Part → List Part)
    (found : Except TemplateError (List Part)) : Except TemplateError (List Part) :=
  (found.map extend).mapError (TemplateError.behind lead)

theorem read_stopped_behind (text next template : List Char) {lead : List Char}
    {extend : List Part → List Part} {fault : BraceFault} {position start : Nat}
    (place : lead.length + start = position) :
    Scan.read (lead ++ template) ⟨Piece.ofPlain text, some (fault, position)⟩ =
      readBehind lead extend (Scan.read template ⟨Piece.ofPlain next, some (fault, start)⟩) := by
  rw [Scan.read_stopped, Scan.read_stopped, ← place]
  rfl

/-- A scan does the same behind a text without braces, which only is found with what comes first.
Positions are counted from the beginning of `lead`, which ends with this text. -/
theorem Scans.behind {start position : Nat} {text second lead : List Char} {after : Scan}
    (scans : Scans start second after) (free : BraceFree text)
    (place : lead.length + start = position + text.length) :
    ∃ both, Scans position (text ++ second) both ∧
      ∀ template, both.read (lead ++ template) =
        readBehind lead (Part.behind text) (after.read template) := by
  induction scans generalizing text position with
  | plain freeNext =>
    refine ⟨_, .plain (free.append freeNext), fun template => ?_⟩
    rw [Scan.read_ofPlain, Scan.read_ofPlain, ← Part.behind_ofText]
    rfl
  | @unmatched start next rest freeNext =>
    have moved := @Scans.unmatched position (text ++ next) rest (free.append freeNext)
    rw [List.append_assoc] at moved
    refine ⟨_, moved, fun template => read_stopped_behind [] [] template ?_⟩
    rw [List.length_append]
    omega
  | @unclosed start next rest freeNext never =>
    have moved := @Scans.unclosed position (text ++ next) rest (free.append freeNext) never
    rw [List.append_assoc] at moved
    refine ⟨_, moved, fun template => read_stopped_behind _ next template ?_⟩
    rw [List.length_append]
    omega
  | @nested start next body rest freeNext freeBody closed =>
    have moved :=
      @Scans.nested position (text ++ next) body rest (free.append freeNext) freeBody closed
    rw [List.append_assoc] at moved
    refine ⟨_, moved, fun template => read_stopped_behind _ next template ?_⟩
    rw [List.length_append]
    omega
  | @empty start next rest freeNext =>
    have moved := @Scans.empty position (text ++ next) rest (free.append freeNext)
    rw [List.append_assoc] at moved
    refine ⟨_, moved, fun template => read_stopped_behind _ next template ?_⟩
    rw [List.length_append]
    omega
  | @braced start next body rest scan freeNext freeBody filled scans ih =>
    have counted : lead.length + (start + next.length + 1 + body.length + 1) =
        position + (text ++ next).length + 1 + body.length + 1 + ([] : List Char).length := by
      rw [List.length_append, List.length_nil]
      omega
    obtain ⟨both, later, same⟩ := ih braceFree_nil counted
    have moved := Scans.braced (free.append freeNext) freeBody filled later
    rw [List.append_assoc] at moved
    refine ⟨_, moved, fun template => ?_⟩
    rw [Scan.read_prepend, Scan.read_prepend, same]
    cases parsed : Expression.parse body with
    | error e =>
      have own := Expression.ofExpression_of_parse parsed
      exact congrArg Except.error (own.behind lead).symm
    | ok e =>
      cases scan.read template with
      | error e => rfl
      | ok parts =>
        simp only [readBehind, Except.bind, Except.map, Except.mapError, Part.behind_expression,
          Part.behind_nil]

theorem Scans.append {position : Nat} {first second lead : List Char} {before after : Scan}
    (scans : Scans position first before) (ended : before.fault = none)
    (later : Scans 0 second after) (place : lead.length = position + first.length) :
    ∃ both, Scans position (first ++ second) both ∧
      ∀ template parts, before.read (lead ++ template) = .ok parts →
        both.read (lead ++ template) = readBehind lead (Part.join parts) (after.read template) := by
  -- The first scan comes to its end in text without braces, and the second goes on behind that.
  induction scans with
  | @plain position text free =>
    obtain ⟨both, scans, same⟩ := later.behind free place
    refine ⟨both, scans, fun template parts read => ?_⟩
    rw [Scan.read_ofPlain] at read
    cases read
    rw [same, funext (Part.join_ofText text)]
  | unmatched | unclosed | nested | empty => cases ended
  | @braced position text body rest scan free freeBody filled scans ih =>
    have counted : lead.length =
        position + text.length + 1 + body.length + 1 + rest.length := by
      simp only [place, List.length_append, List.length_cons]
      omega
    obtain ⟨both, scansBoth, same⟩ := ih ended counted
    have moved := Scans.braced free freeBody filled scansBoth
    refine ⟨_, by simpa using moved, fun template parts read => ?_⟩
    rw [Scan.read_prepend] at read ⊢
    cases parsed : Expression.parse body with
    | error e => simp [parsed, Except.bind] at read
    | ok e =>
      cases found : scan.read (lead ++ template) with
      | error d => simp [parsed, found, Except.bind, Except.map] at read
      | ok others =>
        simp only [parsed, found, Except.bind, Except.map, Except.ok.injEq] at read
        subst read
        rw [Except.bind, same template others found]
        cases after.read template with
        | error d => rfl
        | ok parts =>
          simp only [readBehind, Except.map, Except.mapError, Part.join_expression]

/-! ## Templates in a row -/

namespace Template

theorem text_of_braceFault {template : Template} {fault : BraceFault} {text : List Char}
    {position : Nat} (failed : errorOf template.parts = some (.brace fault text position)) :
    text = template.text := by
  cases template.firstFault_iff.mpr failed with
  | expression split readable wrong => exact (Expression.ofExpression_of_parse wrong).elim
  | brace readable ended => rfl

theorem parts_eq_read (template : Template) :
    template.parts = (scan template.text).read template.text :=
  rfl

section
variable {first : Template} {parts : List Part} (wellFormed : first.parts = .ok parts)
  (second : Template)
include wellFormed

theorem parts_append :
    (first ++ second).parts = readBehind first.text (Part.join parts) second.parts := by
  have ended := (scan_of_parts wellFormed).1
  obtain ⟨both, scans, same⟩ := (scans_scanFrom 0 first.text).append ended
    (scans_scanFrom 0 second.text) (Nat.zero_add _).symm
  have found : scan (first.text ++ second.text) = both := scanFrom_of_scans scans
  have readFirst : (scan first.text).read (first.text ++ second.text) = .ok parts :=
    (Scan.read_of_ended ended _ _).trans wellFormed
  rw [parts_eq_read, text_append, found, same _ _ readFirst]
  rfl

theorem errorOf_parts_append :
    errorOf (first ++ second).parts =
      (errorOf second.parts).map (TemplateError.behind first.text) := by
  rw [parts_append wellFormed]
  cases second.parts <;> rfl

end

/-- Behind a well-formed template another one is what it is by itself. -/
theorem append_composes {first : Template} (wellFormed : first.HasVerdict none)
    (second : Template) : first.Composes second := by
  obtain ⟨parts, readFirst⟩ := errorOf_eq_none.mp ((hasVerdict_iff _).mp wellFormed)
  have verdict := errorOf_parts_append readFirst second
  have readable : second.HasVerdict none → ∃ later, second.parts = .ok later ∧
      (first ++ second).parts = .ok (Part.join parts later) := by
    intro agreed
    obtain ⟨later, readSecond⟩ := errorOf_eq_none.mp ((hasVerdict_iff _).mp agreed)
    refine ⟨later, readSecond, ?_⟩
    rw [parts_append readFirst, readSecond]
    rfl
  refine ⟨?_, ?_, ?_, ?_, ?_, ?_⟩
  · rw [hasVerdict_iff, hasVerdict_iff, verdict, Option.map_eq_none_iff]
  · intro agreed bindings
    obtain ⟨later, readSecond, readBoth⟩ := readable agreed
    refine ⟨_, _, first.expand_of_parts readFirst bindings,
      second.expand_of_parts readSecond bindings, ?_⟩
    rw [expand_of_parts _ readBoth, Part.flatMap_join fun _ _ => rfl]
  · intro agreed
    obtain ⟨later, readSecond, readBoth⟩ := readable agreed
    simp only [labels_eq, readFirst, readSecond, readBoth, Except.map]
    refine ⟨_, _, rfl, rfl, ?_⟩
    rw [Part.flatMap_join fun _ _ => rfl]
  · intro agreed
    obtain ⟨later, readSecond, readBoth⟩ := readable agreed
    simp only [pattern_eq, readFirst, readSecond, readBoth, Except.map]
    refine ⟨_, _, _, rfl, rfl, rfl, ?_, Part.flatMap_join (fun _ _ => rfl) parts later⟩
    rw [Pattern.render, Part.flatMap_join fun _ _ => List.map_append, List.flatMap_append]
    rfl
  · intro fault text position agreed
    rw [hasVerdict_iff] at agreed ⊢
    rw [verdict, agreed, text_of_braceFault agreed]
    rfl
  · intro e within agreed
    rw [hasVerdict_iff] at agreed ⊢
    rw [verdict, agreed, Option.map_some, within.behind]

/-- The literals of both templates meet, and the second one has a brace inside an expression. -/
theorem nested_brace_behind :
    (Template.mk "{x}/a".toList).HasVerdict none ∧
      (Template.mk "{x}/a".toList).Composes ⟨"b{y{z}}".toList⟩ ∧
      (Template.mk "b{y{z}}".toList).HasVerdict
        (some (.brace .nested "b{y{z}}".toList 3)) ∧
      (Template.mk "{x}/ab{y{z}}".toList).HasVerdict
        (some (.brace .nested "{x}/ab{y{z}}".toList 8)) := by
  have wellFormed : (Template.mk "{x}/a".toList).HasVerdict none :=
    (hasVerdict_iff _).mpr (by decide +kernel)
  have failed : (Template.mk "b{y{z}}".toList).HasVerdict
      (some (.brace .nested "b{y{z}}".toList 3)) :=
    (hasVerdict_iff _).mpr (by decide +kernel)
  have composes := append_composes wellFormed ⟨"b{y{z}}".toList⟩
  exact ⟨wellFormed, composes, failed, composes.braceFault _ _ _ failed⟩

end Template

end UriTemplate
