import UriTemplate.Template.Session

/-! A matcher that keeps a pattern answers as its template does. The pattern it keeps is the pattern
of the template, after any requests. -/

set_option autoImplicit false

namespace UriTemplate.Matcher

/-- A matcher for the template, with no pattern yet or with that of the template. -/
structure Keeps (m : Matcher) (template : Template) : Prop where
  sameTemplate : m.template = template
  ownPattern : ∀ pattern ∈ m.pattern, template.pattern = .ok pattern

section
variable {m : Matcher} {template : Template}

theorem keeps_ofTemplate (template : Template) : (ofTemplate template).Keeps template :=
  ⟨rfl, fun _ kept => nomatch kept⟩

theorem Keeps.compile (keeps : m.Keeps template) :
    m.compile.answer = template.pattern ∧ m.compile.matcher.Keeps template := by
  obtain ⟨rfl, kept⟩ := keeps
  unfold Matcher.compile
  cases found : m.pattern with
  | some pattern => exact ⟨(kept pattern found).symm, rfl, kept⟩
  | none =>
    cases made : m.template.pattern with
    | error e => exact ⟨rfl, rfl, fun _ none => by simp [found] at none⟩
    | ok pattern => exact ⟨rfl, rfl, fun _ same => by cases same; exact made⟩

theorem Keeps.extract (keeps : m.Keeps template) (uri : List Char) :
    (m.extract uri).answer = template.extract uri ∧ (m.extract uri).matcher.Keeps template := by
  obtain ⟨answer, kept⟩ := keeps.compile
  simp only [Matcher.extract, Template.extract, ← answer]
  cases made : m.compile.answer with
  | error e => exact ⟨rfl, kept⟩
  | ok pattern =>
    simp only [Except.map]
    cases pattern.extract uri with
    | none => exact ⟨rfl, kept⟩
    | some values => exact ⟨rfl, kept⟩

theorem Keeps.isMatch (keeps : m.Keeps template) (uri : List Char) :
    (m.isMatch uri).answer = template.isMatch uri := by
  rw [Matcher.isMatch, Template.isMatch, (keeps.extract uri).1]

theorem Keeps.step (keeps : m.Keeps template) (request : Request) :
    (m.step request).matcher.Keeps template := by
  cases request with
  | extract uri => exact (keeps.extract uri).2
  | isMatch uri => exact (keeps.extract uri).2
  | _ => exact keeps

theorem Keeps.after (keeps : m.Keeps template) (requests : List Request) :
    (m.after requests).Keeps template := by
  induction requests generalizing m with
  | nil => exact keeps
  | cons request rest ih => exact ih (keeps.step request)

end

end UriTemplate.Matcher
