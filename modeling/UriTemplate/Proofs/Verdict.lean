import UriTemplate.Proofs.KeptPattern
import UriTemplate.Resource.Wire

/-! Which templates are well formed is the same for every use of a template. Labels, pattern,
expansion, extraction and the check of a resource read the pieces each in its own way, but they stop
at the same piece: the first thing that is wrong in the text is the error of all of them, whatever
the values, the URI and the requests before. -/

set_option autoImplicit false

namespace UriTemplate

/-- The first thing that is wrong with a template in the order of its text: an expression after
pieces that can be read, or what ended the scan after pieces that all can be read. -/
inductive Template.FirstFault (template : Template) : TemplateError → Prop where
  | expression {before after : List Piece} {body : List Char} {position : Nat} {e : TemplateError} :
      (scan template.text).pieces = before ++ .braced body position :: after →
      (∀ piece ∈ before, ∃ part, Part.ofPiece piece = .ok part) →
      Expression.parse body = .error e → FirstFault template e
  | brace {fault : BraceFault} {position : Nat} :
      (∀ piece ∈ (scan template.text).pieces, ∃ part, Part.ofPiece piece = .ok part) →
      (scan template.text).fault = some (fault, position) →
      FirstFault template (.brace fault template.text position)

/-- What a use of a template failed with, or `none` if it did not fail. -/
def errorOf {α : Type} : Except TemplateError α → Option TemplateError
  | .ok _ => none
  | .error e => some e

def Matcher.Request.Reads : Matcher.Request → Prop
  | .labels | .expand _ | .extract _ | .isMatch _ => True
  | _ => False

def Checked.Reports {α : Type} (checked : Checked α) (fault : Fault) : Prop :=
  ∃ faults, checked = .error faults ∧ fault ∈ faults

namespace Template

def StandsIn (template : Template) (fields : List (String × Document)) (key : String) : Prop :=
  FieldKey.template.find? fields = some (key, .text (String.ofList template.text))

def judged (template : Template) (key : String) : Option TemplateError → Checked Template
  | none => .ok template
  | some e => .error [⟨[key], .badTemplate e⟩]

/-- What all uses of a template come to: all succeed if the verdict is `none`, otherwise all fail
with the error that it holds, and checks of resources report the message of this error. -/
structure HasVerdict (template : Template) (verdict : Option TemplateError) : Prop where
  labels : errorOf template.labels = verdict
  pattern : errorOf template.pattern = verdict
  expand : ∀ bindings, errorOf (template.expand bindings) = verdict
  extract : ∀ uri, errorOf (template.extract uri) = verdict
  isMatch : ∀ uri, errorOf (template.isMatch uri) = verdict
  session : ∀ (requests : List Matcher.Request) (request : Matcher.Request), request.Reads →
    errorOf (((Matcher.ofTemplate template).after requests).step request).answer = verdict
  field : ∀ fields key, template.StandsIn fields key →
    Resource.readTemplate fields = template.judged key verdict
  wire : ∀ fields key, template.StandsIn fields key → ∀ location e,
    Checked.Reports (Resource.ofWire (.object fields)) ⟨location, .badTemplate e⟩ ↔
      location = [key] ∧ verdict = some e
  atHand : ∀ fields location e,
    Checked.Reports (Resource.ofTemplate template fields) ⟨location, .badTemplate e⟩ ↔
      location = [FieldKey.template.plain] ∧ verdict = some e
  message : ∀ location, ∀ e ∈ verdict,
    (Fault.mk location (.badTemplate e)).code = "value_error" ∧
      (Fault.mk location (.badTemplate e)).message = "Value error, " ++ e.message

end Template

/-! ## Reading pieces -/

theorem errorOf_eq_some {α : Type} {result : Except TemplateError α} {e : TemplateError} :
    errorOf result = some e ↔ result = .error e := by
  cases result <;> simp [errorOf]

theorem errorOf_eq_none {α : Type} {result : Except TemplateError α} :
    errorOf result = none ↔ ∃ a, result = .ok a := by
  cases result <;> simp [errorOf]

theorem errorOf_map {α β : Type} (f : α → β) (result : Except TemplateError α) :
    errorOf (result.map f) = errorOf result := by
  cases result <;> rfl

namespace Scan

variable {α : Type} (read : Piece → Except TemplateError α)

def Stops (pieces : List Piece) (e : TemplateError) : Prop :=
  ∃ before piece after, pieces = before ++ piece :: after ∧
    (∀ other ∈ before, ∃ a, read other = .ok a) ∧ read piece = .error e

theorem stops_cons {piece : Piece} {rest : List Piece} {e : TemplateError} :
    Stops read (piece :: rest) e ↔
      read piece = .error e ∨ (∃ a, read piece = .ok a) ∧ Stops read rest e := by
  constructor
  · rintro ⟨before, failing, after, split, readable, failed⟩
    cases before with
    | nil =>
      cases split
      exact Or.inl failed
    | cons first before =>
      cases split
      obtain ⟨first, readable⟩ := List.forall_mem_cons.mp readable
      exact Or.inr ⟨first, before, failing, after, rfl, readable, failed⟩
  · rintro (failed | ⟨first, before, failing, after, rfl, readable, failed⟩)
    · exact ⟨[], piece, rest, rfl, fun _ member => (nomatch member), failed⟩
    · exact ⟨piece :: before, failing, after, rfl, List.forall_mem_cons.mpr ⟨first, readable⟩,
        failed⟩

/-- The fault that ended the scan is the error only if all pieces can be read. -/
theorem collect_eq_error {fault : Option TemplateError} {pieces : List Piece} {e : TemplateError} :
    collect read fault pieces = .error e ↔
      Stops read pieces e ∨ (∀ piece ∈ pieces, ∃ a, read piece = .ok a) ∧ fault = some e := by
  induction pieces with
  | nil => cases fault <;> simp [collect, Stops]
  | cons piece rest ih =>
    rw [stops_cons, List.forall_mem_cons]
    cases first : read piece with
    | error d => simp [collect, first]
    | ok a =>
      have later : collect read fault (piece :: rest) = .error e ↔
          collect read fault rest = .error e := by
        simp only [collect, first]
        cases collect read fault rest <;> simp [Except.map]
      simp [later, ih]

end Scan

/-! ## Checks of resources -/

namespace Checked

variable {α β : Type} {fault : Fault}

theorem not_reports_ok (a : α) : ¬ Reports (.ok a : Checked α) fault := by
  rintro ⟨faults, failed, -⟩
  cases failed

theorem reports_fault (key : String) (kind : FaultKind) :
    Reports (Checked.fault key kind : Checked α) fault ↔ fault = ⟨[key], kind⟩ := by
  constructor
  · rintro ⟨faults, failed, member⟩
    cases failed
    exact List.mem_singleton.mp member
  · rintro rfl
    exact ⟨_, rfl, List.mem_singleton_self _⟩

theorem reports_map (f : α → β) (checked : Checked α) :
    Reports (checked.map f) fault ↔ Reports checked fault := by
  cases checked <;> simp [Reports, Except.map]

theorem reports_both (first : Checked α) (second : Checked β) :
    Reports (both first second) fault ↔ Reports first fault ∨ Reports second fault := by
  cases first <;> cases second <;> simp [Reports, both]

end Checked

namespace Resource

open Checked

variable {location : List String} {e : TemplateError} (fields : List (String × Document))

theorem not_reports_readName : ¬ Reports (readName fields) ⟨location, .badTemplate e⟩ := by
  unfold readName
  split <;> simp [reports_fault, not_reports_ok]

theorem not_reports_readText (key : FieldKey) :
    ¬ Reports (readText key fields) ⟨location, .badTemplate e⟩ := by
  unfold readText
  split <;> simp [reports_fault, not_reports_ok]

theorem not_reports_readMetadata : ¬ Reports (readMetadata fields) ⟨location, .badTemplate e⟩ := by
  unfold readMetadata
  split <;> simp [reports_fault, not_reports_ok]

theorem reports_assemble (template : Checked Template) :
    Reports (assemble template fields) ⟨location, .badTemplate e⟩ ↔
      Reports template ⟨location, .badTemplate e⟩ := by
  simp only [assemble, reports_map, reports_both, not_reports_readName, not_reports_readText,
    not_reports_readMetadata, or_false]

end Resource

/-! ## Uses of one template -/

namespace Template

variable (template : Template)

theorem errorOf_labels : errorOf template.labels = errorOf template.parts := by
  rw [labels_eq, errorOf_map]

theorem errorOf_pattern : errorOf template.pattern = errorOf template.parts := by
  rw [pattern_eq, errorOf_map]

theorem errorOf_expand (bindings : Bindings) :
    errorOf (template.expand bindings) = errorOf template.parts := by
  rw [expand, expandWith_eq, errorOf_map]

theorem errorOf_extract (uri : List Char) :
    errorOf (template.extract uri) = errorOf template.parts := by
  rw [extract, errorOf_map, errorOf_pattern]

theorem errorOf_isMatch (uri : List Char) :
    errorOf (template.isMatch uri) = errorOf template.parts := by
  rw [isMatch, errorOf_map, errorOf_extract]

theorem errorOf_answer {m : Matcher} (keeps : m.Keeps template) {request : Matcher.Request}
    (reads : request.Reads) : errorOf (m.step request).answer = errorOf template.parts := by
  cases request with
  | labels =>
    rw [← errorOf_labels, ← keeps.sameTemplate]
    exact errorOf_map _ _
  | expand bindings =>
    rw [← template.errorOf_expand bindings, ← keeps.sameTemplate]
    exact errorOf_map _ _
  | extract uri =>
    rw [← template.errorOf_extract uri, ← (keeps.extract uri).1]
    exact errorOf_map _ _
  | isMatch uri =>
    rw [← template.errorOf_isMatch uri, ← keeps.isMatch uri]
    exact errorOf_map _ _
  | _ => cases reads

/-- Checks of resources ask for the labels and report what the labels fail with. -/
theorem checkTemplate_eq (key : String) :
    Resource.checkTemplate key template = template.judged key (errorOf template.parts) := by
  rw [Resource.checkTemplate, ← errorOf_labels]
  cases template.labels <;> rfl

theorem reports_checkTemplate (key : String) (location : List String) (e : TemplateError) :
    Checked.Reports (Resource.checkTemplate key template) ⟨location, .badTemplate e⟩ ↔
      location = [key] ∧ errorOf template.parts = some e := by
  rw [checkTemplate_eq]
  cases errorOf template.parts with
  | none => simp [judged, Checked.not_reports_ok]
  | some d =>
    refine (Checked.reports_fault key (.badTemplate d)).trans ?_
    simp [eq_comm]

theorem readTemplate_of_standsIn {template : Template} {fields : List (String × Document)}
    {key : String} (stands : template.StandsIn fields key) :
    Resource.readTemplate fields = Resource.checkTemplate key template := by
  rw [StandsIn] at stands
  rw [Resource.readTemplate, stands]
  simp only [String.toList_ofList]

theorem hasVerdict_errorOf_parts : template.HasVerdict (errorOf template.parts) where
  labels := template.errorOf_labels
  pattern := template.errorOf_pattern
  expand := template.errorOf_expand
  extract := template.errorOf_extract
  isMatch := template.errorOf_isMatch
  session requests _ reads :=
    template.errorOf_answer ((Matcher.keeps_ofTemplate template).after requests) reads
  field fields key stands := by
    rw [readTemplate_of_standsIn stands, checkTemplate_eq]
  wire fields key stands location e := by
    rw [Resource.ofWire, Resource.reports_assemble, readTemplate_of_standsIn stands]
    exact template.reports_checkTemplate key location e
  atHand fields location e := by
    rw [Resource.ofTemplate, Resource.reports_assemble]
    exact template.reports_checkTemplate _ location e
  message _ _ _ := ⟨rfl, rfl⟩

theorem hasVerdict_iff {verdict : Option TemplateError} :
    template.HasVerdict verdict ↔ errorOf template.parts = verdict := by
  constructor
  · intro agreed
    rw [← errorOf_labels, agreed.labels]
  · rintro rfl
    exact template.hasVerdict_errorOf_parts

theorem firstFault_iff {e : TemplateError} :
    template.FirstFault e ↔ errorOf template.parts = some e := by
  rw [errorOf_eq_some, parts, collect, Scan.collect_eq_error]
  constructor
  · rintro (⟨split, readable, failed⟩ | ⟨readable, ended⟩)
    · exact Or.inl ⟨_, _, _, split, readable, by rw [Part.ofPiece, failed]; rfl⟩
    · exact Or.inr ⟨readable, by rw [Scan.error?, ended]; rfl⟩
  · rintro (⟨before, piece, after, split, readable, failed⟩ | ⟨readable, ended⟩)
    · cases piece with
      | plain text => cases failed
      | braced body position =>
        rw [Part.ofPiece] at failed
        cases parsed : Expression.parse body with
        | ok e => simp [parsed, Except.map] at failed
        | error d =>
          rw [parsed] at failed
          cases failed
          exact .expression split readable parsed
    · obtain ⟨⟨fault, position⟩, found, rfl⟩ := Option.map_eq_some_iff.mp ended
      exact .brace readable found

end Template

end UriTemplate
