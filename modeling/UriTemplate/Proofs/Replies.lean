import UriTemplate.Template.Session

/-! Runs of requests to a template that keeps its pattern. No answer shows whether the pattern was
kept: each is that of a template that has not been asked before. Only the events show it. The
pattern is reported when the first request that searches a URI makes it, and never again, and each
search that finds no match reports that. -/

set_option autoImplicit false

namespace UriTemplate.Matcher

def Request.searches : Request → Bool
  | .extract _ | .isMatch _ => true
  | _ => false

def Event.isCompiled : Event → Bool
  | .compiled _ _ => true
  | .mismatch _ _ => false

def Event.isMismatch : Event → Bool
  | .compiled _ _ => false
  | .mismatch _ _ => true

inductive Misses (uri : List Char) : Request → Except TemplateError Answer → Prop where
  | extract : Misses uri (.extract uri) (.ok (.extraction none))
  | isMatch : Misses uri (.isMatch uri) (.ok (.truth false))

/-- The reply to a request in a run, told from the template and the requests before. -/
structure Replies (template : Template) (before : List Request) (request : Request)
    (reply : Reply Answer) : Prop where
  answer : reply.answer = ((ofTemplate template).step request).answer
  compiled : ∀ pattern, template.pattern = .ok pattern →
    reply.events.filter Event.isCompiled =
      if request.searches ∧ ∀ earlier ∈ before, ¬ earlier.searches then
        [.compiled template.text pattern.render]
      else []
  malformed : ∀ e, template.pattern = .error e →
    reply.events = [] ∧ (request.searches → reply.answer = .error e)
  mismatch : ∀ uri, Misses uri request reply.answer → ∃ pattern, template.pattern = .ok pattern ∧
    reply.events.filter Event.isMismatch = [.mismatch uri pattern.render]
  noMismatch : (∀ uri, ¬ Misses uri request reply.answer) →
    reply.events.filter Event.isMismatch = []
  ordered : reply.events =
    reply.events.filter Event.isCompiled ++ reply.events.filter Event.isMismatch

section
variable (template : Template) (before : List Request)

/-! ## The matcher that a run leaves -/

def keeping : Matcher :=
  ⟨template, if before.any Request.searches then template.pattern.toOption else none⟩

def compiledEvents : List Event :=
  match template.pattern with
  | .error _ => []
  | .ok pattern =>
    if before.any Request.searches then [] else [.compiled template.text pattern.render]

def mismatchEvents (uri : List Char) : List Event :=
  match template.pattern with
  | .error _ => []
  | .ok pattern =>
    match pattern.extract uri with
    | some _ => []
    | none => [.mismatch uri pattern.render]

def searchEvents (uri : List Char) : List Event :=
  compiledEvents template before ++ mismatchEvents template uri

theorem compile_keeping :
    (keeping template before).compile =
      ⟨template.pattern, compiledEvents template before,
        ⟨template, template.pattern.toOption⟩⟩ := by
  unfold keeping compiledEvents compile
  cases template.pattern with
  | error e => cases before.any Request.searches <;> rfl
  | ok pattern => cases before.any Request.searches <;> rfl

theorem extract_keeping (uri : List Char) :
    (keeping template before).extract uri =
      ⟨template.extract uri, searchEvents template before uri,
        ⟨template, template.pattern.toOption⟩⟩ := by
  unfold extract searchEvents mismatchEvents Template.extract
  rw [compile_keeping]
  cases template.pattern with
  | error e => simp [Except.map]
  | ok pattern => cases found : pattern.extract uri <;> simp [Except.map, found]

theorem step_extract (uri : List Char) :
    (keeping template before).step (.extract uri) =
      ⟨(template.extract uri).map .extraction, searchEvents template before uri,
        ⟨template, template.pattern.toOption⟩⟩ := by
  rw [step, extract_keeping, Reply.map]

theorem step_isMatch (uri : List Char) :
    (keeping template before).step (.isMatch uri) =
      ⟨(template.isMatch uri).map .truth, searchEvents template before uri,
        ⟨template, template.pattern.toOption⟩⟩ := by
  rw [step, isMatch, extract_keeping, Reply.map, Template.isMatch]

theorem step_of_idle {request : Request} (idle : request.searches = false) (m : Matcher) :
    m.step request = m.plain ((ofTemplate m.template).step request).answer := by
  cases request with
  | extract uri | isMatch uri => cases idle
  | _ => rfl

theorem matcher_step (request : Request) :
    ((keeping template before).step request).matcher = keeping template (before ++ [request]) := by
  have more : (before ++ [request]).any Request.searches =
      (before.any Request.searches || request.searches) := by
    rw [List.any_append, List.any_cons, List.any_nil, Bool.or_false]
  cases searches : request.searches with
  | false =>
    rw [step_of_idle searches, plain, keeping, keeping, more, searches, Bool.or_false]
  | true =>
    rw [keeping.eq_def _ (before ++ [request]), more, searches, Bool.or_true, if_pos rfl]
    cases request with
    | extract uri => rw [step_extract]
    | isMatch uri => rw [step_isMatch]
    | _ => cases searches

/-- Of the requests of a run it only stays whether one of them searched. -/
theorem after_keeping (requests : List Request) :
    (keeping template before).after requests = keeping template (before ++ requests) := by
  induction requests generalizing before with
  | nil =>
    rw [List.append_nil]
    rfl
  | cons request rest ih =>
    have later := ih (before ++ [request])
    rw [List.append_assoc, List.singleton_append] at later
    rwa [after, List.foldl_cons, matcher_step]

/-! ## Events -/

theorem filter_compiledEvents :
    (compiledEvents template before).filter Event.isCompiled = compiledEvents template before ∧
      (compiledEvents template before).filter Event.isMismatch = [] := by
  unfold compiledEvents
  split
  · exact ⟨rfl, rfl⟩
  · split <;> exact ⟨rfl, rfl⟩

theorem filter_mismatchEvents (uri : List Char) :
    (mismatchEvents template uri).filter Event.isCompiled = [] ∧
      (mismatchEvents template uri).filter Event.isMismatch = mismatchEvents template uri := by
  unfold mismatchEvents
  split
  · exact ⟨rfl, rfl⟩
  · split <;> exact ⟨rfl, rfl⟩

theorem filter_searchEvents (uri : List Char) :
    (searchEvents template before uri).filter Event.isCompiled = compiledEvents template before ∧
      (searchEvents template before uri).filter Event.isMismatch = mismatchEvents template uri := by
  have first := filter_compiledEvents template before
  have second := filter_mismatchEvents template uri
  rw [searchEvents, List.filter_append, List.filter_append, first.1, first.2, second.1, second.2]
  exact ⟨List.append_nil _, rfl⟩

theorem compiledEvents_of_pattern {pattern : Pattern} (made : template.pattern = .ok pattern) :
    compiledEvents template before =
      if ∀ earlier ∈ before, ¬ earlier.searches then [.compiled template.text pattern.render]
      else [] := by
  rw [compiledEvents, made]
  cases needed : before.any Request.searches with
  | false => exact (if_pos (List.any_eq_false.mp needed)).symm
  | true =>
    obtain ⟨earlier, member, searches⟩ := List.any_eq_true.mp needed
    exact (if_neg fun idle => idle earlier member searches).symm

theorem compiledEvents_of_error {e : TemplateError} (failed : template.pattern = .error e) :
    compiledEvents template before = [] := by
  rw [compiledEvents, failed]

theorem mismatchEvents_of_extract_none {uri : List Char}
    (missed : template.extract uri = .ok none) :
    ∃ pattern, template.pattern = .ok pattern ∧
      mismatchEvents template uri = [.mismatch uri pattern.render] := by
  cases made : template.pattern with
  | error e => simp [Template.extract, made, Except.map] at missed
  | ok pattern =>
    simp only [Template.extract, made, Except.map, Except.ok.injEq] at missed
    refine ⟨pattern, rfl, ?_⟩
    simp only [mismatchEvents, made, missed]

theorem mismatchEvents_eq_nil {uri : List Char} (found : template.extract uri ≠ .ok none) :
    mismatchEvents template uri = [] := by
  cases made : template.pattern with
  | error e => simp only [mismatchEvents, made]
  | ok pattern =>
    cases values : pattern.extract uri with
    | none => simp [Template.extract, made, Except.map, values] at found
    | some values => simp only [mismatchEvents, made, values]

theorem Misses.searches {uri : List Char} {request : Request} {answer : Except TemplateError Answer}
    (misses : Misses uri request answer) : request.searches = true := by
  cases misses <;> rfl

theorem misses_extract (uri other : List Char) :
    Misses other (.extract uri) ((template.extract uri).map .extraction) ↔
      other = uri ∧ template.extract uri = .ok none := by
  constructor
  · intro misses
    cases found : template.extract uri with
    | error e =>
      rw [found] at misses
      cases misses
    | ok values =>
      rw [found] at misses
      cases misses
      exact ⟨rfl, rfl⟩
  · rintro ⟨rfl, missed⟩
    rw [missed]
    exact .extract

theorem misses_isMatch (uri other : List Char) :
    Misses other (.isMatch uri) ((template.isMatch uri).map .truth) ↔
      other = uri ∧ template.extract uri = .ok none := by
  rw [Template.isMatch]
  constructor
  · intro misses
    cases found : template.extract uri with
    | error e =>
      rw [found] at misses
      cases misses
    | ok values =>
      rw [found] at misses
      cases values with
      | none =>
        cases misses
        exact ⟨rfl, rfl⟩
      | some values => cases misses
  · rintro ⟨rfl, missed⟩
    rw [missed]
    exact .isMatch

theorem replies_of_search {request : Request} {uri : List Char}
    {answer : Except TemplateError Answer}
    (searches : request.searches = true)
    (misses : ∀ other, Misses other request answer ↔ other = uri ∧ template.extract uri = .ok none)
    (failed : ∀ e, template.pattern = .error e → answer = .error e)
    (same : answer = ((ofTemplate template).step request).answer) (m : Matcher) :
    Replies template before request
      ⟨answer, searchEvents template before uri, m⟩ := by
  obtain ⟨compiled, mismatch⟩ := filter_searchEvents template before uri
  refine ⟨same, ?_, ?_, ?_, ?_, ?_⟩
  · intro pattern made
    rw [compiled, compiledEvents_of_pattern template before made]
    simp only [searches, true_and]
  · intro e wrong
    have unreadable : template.extract uri ≠ .ok none := by
      simp [Template.extract, wrong, Except.map]
    refine ⟨?_, fun _ => failed e wrong⟩
    rw [searchEvents, compiledEvents_of_error template before wrong,
      mismatchEvents_eq_nil template unreadable, List.nil_append]
  · intro other missed
    obtain ⟨rfl, missed⟩ := (misses other).mp missed
    rw [mismatch]
    exact mismatchEvents_of_extract_none template missed
  · intro found
    rw [mismatch]
    exact mismatchEvents_eq_nil template fun missed => found uri ((misses uri).mpr ⟨rfl, missed⟩)
  · rw [compiled, mismatch]
    rfl

theorem replies_of_idle {request : Request} (idle : request.searches = false) (m : Matcher) :
    Replies template before request (m.plain ((ofTemplate template).step request).answer) where
  answer := rfl
  compiled pattern _ := by
    rw [if_neg fun needed => Bool.false_ne_true (idle.symm.trans needed.1)]
    rfl
  malformed e _ := ⟨rfl, fun searches => absurd (idle.symm.trans searches) Bool.false_ne_true⟩
  mismatch uri misses := absurd (idle.symm.trans misses.searches) Bool.false_ne_true
  noMismatch _ := rfl
  ordered := rfl

theorem replies_step (request : Request) :
    Replies template before request ((keeping template before).step request) := by
  cases searches : request.searches with
  | false =>
    rw [step_of_idle searches]
    exact replies_of_idle template before searches _
  | true =>
    cases request with
    | extract uri =>
      rw [step_extract]
      refine replies_of_search template before searches (misses_extract template uri) ?_ ?_ _
      · intro e failed
        rw [Template.extract, failed]
        rfl
      · exact (congrArg Reply.answer (step_extract template [] uri)).symm
    | isMatch uri =>
      rw [step_isMatch]
      refine replies_of_search template before searches (misses_isMatch template uri) ?_ ?_ _
      · intro e failed
        rw [Template.isMatch, Template.extract, failed]
        rfl
      · exact (congrArg Reply.answer (step_isMatch template [] uri)).symm
    | _ => cases searches

end

/-! ## Runs -/

theorem run_append (m : Matcher) (first second : List Request) :
    m.run (first ++ second) = m.run first ++ (m.after first).run second := by
  induction first generalizing m with
  | nil => rfl
  | cons request rest ih =>
    rw [List.cons_append, run, ih, run]
    rfl

theorem length_run (m : Matcher) (requests : List Request) :
    (m.run requests).length = requests.length := by
  induction requests generalizing m with
  | nil => rfl
  | cons request rest ih => rw [run, List.length_cons, ih, List.length_cons]

/-- The requests before a request show in its events only. -/
theorem replies_of_run (template : Template) (before : List Request) (request : Request)
    (after : List Request) :
    ∃ earlier reply later, (ofTemplate template).run (before ++ request :: after) =
        earlier ++ reply :: later ∧
      earlier.length = before.length ∧ later.length = after.length ∧
      Replies template before request reply := by
  have kept : (ofTemplate template).after before = keeping template before :=
    after_keeping template [] before
  refine ⟨(ofTemplate template).run before, (keeping template before).step request,
    ((keeping template before).step request).matcher.run after, ?_, length_run _ _, length_run _ _,
    replies_step template before request⟩
  rw [run_append, kept, run]

-- Both of two searches that miss are reported, but only the first of them needs a new pattern.
example : ((ofTemplate ⟨"/{x}".toList⟩).run
    [.labels, .isMatch "a".toList, .extract "/a".toList, .extract "a".toList]).map
      (fun reply => reply.events.map Event.isMismatch) = [[], [false, true], [], [true]] := by
  decide +kernel

end UriTemplate.Matcher
