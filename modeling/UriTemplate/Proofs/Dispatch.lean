import UriTemplate.Proofs.RawExpansion
import UriTemplate.Proofs.Registry
import UriTemplate.Proofs.WireForm

/-! What a router does with a URI, if only checked resources were added to it. It finds the first
resource in the order of the keys whose template extracts values from the URI, and runs the handler
of the last add of its key once. Nothing else can go wrong: no template fails, no handler is
missing, and the registry stays as it is. An expansion fails only where it has to encode a
surrogate. -/

set_option autoImplicit false

namespace UriTemplate

def Resource.Extracts (resource : Resource) (uri : List Char) : Prop :=
  ∃ values, resource.template.extract uri = .ok (some values)

namespace Router

variable {ρ : Type}

/-- A history in which all resources that are added are valid. -/
def AddsValid (history : List (Request ρ)) : Prop :=
  ∀ resource handler, .add resource handler ∈ history → resource.Valid

/-- Of some entries the first whose template extracts values from the URI, with these values. -/
inductive Picks (uri : List Char) (entries : Entries (List Char) Resource) :
    Option (List Char × Resolution) → Prop where
  | none : (∀ entry ∈ entries, ¬ entry.2.Extracts uri) → Picks uri entries none
  | first {before after : Entries (List Char) Resource} {key : List Char} {resource : Resource}
      {values : Extraction} :
      entries = before ++ (key, resource) :: after →
      (∀ entry ∈ before, ¬ entry.2.Extracts uri) →
      resource.template.extract uri = .ok (some values) →
      Picks uri entries (some (key, ⟨resource, uri, values⟩))

def unknown (uri : List Char) : Except RequestError ρ × List Event :=
  (.error (.failure (.missing (some ("Unknown resource: ".toList ++ uri)))), [])

def warnings (uri : List Char) : Except Failure ρ → List Event
  | .ok _ => []
  | .error failure => [.handlerFailed uri failure.message]

/-- What is answered when a handler has been run: its own outcome, behind a warning if it failed. -/
def concluded (uri key : List Char) (outcome : Except Failure ρ) :
    Except RequestError ρ × List Event :=
  (outcome.mapError .failure, .resolved uri key :: warnings uri outcome)

/-- An expansion under the key of this resource fails exactly where it has to encode a surrogate.
Characters expand as they do under the template itself. -/
structure Expands (router : Router ρ) (key : List Char) (resource : Resource) : Prop where
  encodable : ∀ bindings, resource.template.Encodable bindings →
    ∃ text, router.expand key bindings = .ok text
  surrogate : ∀ bindings, ¬ resource.template.Encodable bindings →
    ∃ e, router.expand key bindings = .error (.encoding e)
  characters : ∀ bindings, ∃ text, resource.template.expand bindings = .ok text ∧
    router.expand key bindings.raw = .ok text

/-- The answers of a router with this history to a URI. Handlers may be run in any monad: what is
done in it is the one call of the handler, or nothing. -/
structure Dispatches (history : List (Request ρ)) (router : Router ρ) (uri : List Char) : Prop where
  picks : ∃ pick, Picks uri router.templates pick
  unmatched : Picks uri router.templates none →
    router.resolve uri = (.ok none, []) ∧ router.handle uri = unknown uri ∧
      ∀ {m : Type → Type} [Monad m] (run : Handler ρ → List Char → Extraction → m (Except Failure ρ)),
        router.handleWith run uri = pure (unknown uri)
  matched : ∀ key found, Picks uri router.templates (some (key, found)) →
    ∃ handler, LastAdd history key found.resource handler ∧
      router.resolve uri = (.ok (some found), [.resolved uri key]) ∧
      router.handle uri = concluded uri key (handler uri found.values) ∧
      (router.handle uri).2.countP (·.level = .warning) =
        (if (handler uri found.values).isOk then 0 else 1) ∧
      ∀ {m : Type → Type} [Monad m] (run : Handler ρ → List Char → Extraction → m (Except Failure ρ)),
        router.handleWith run uri =
          run handler uri found.values >>= fun outcome => pure (concluded uri key outcome)
  templatesRead : ∀ e,
    (router.resolve uri).1 ≠ .error e ∧ (router.handle uri).1 ≠ .error (.template e)
  handlerFound : ∀ found, (router.resolve uri).1 = .ok (some found) →
    (router.handlers.lookup found.resource.template.text).isSome
  expands : ∀ key ∈ router.templates.keys, ∃ resource,
    router.templates.lookup key = some resource ∧ Expands router key resource
  unchanged : (router.step (.resolve uri)).router = router ∧
    (router.step (.handle uri)).router = router ∧
    ∀ key bindings, (router.step (.expand key bindings)).router = router

end Router

/-! ## The first match -/

namespace Router

variable {ρ : Type}

theorem addsValid_nil : AddsValid ([] : List (Request ρ)) :=
  fun _ _ member => nomatch member

theorem addsValid_cons {resource : Resource} {handler : Handler ρ} {history : List (Request ρ)} :
    AddsValid (.add resource handler :: history) ↔ resource.Valid ∧ AddsValid history := by
  constructor
  · intro valid
    exact ⟨valid resource handler List.mem_cons_self,
      fun other given member => valid other given (List.mem_cons_of_mem _ member)⟩
  · rintro ⟨first, rest⟩ other given member
    rcases List.mem_cons.mp member with same | member
    · cases same
      exact first
    · exact rest other given member

section
variable {uri : List Char} {entries : Entries (List Char) Resource}

def Readable (entries : Entries (List Char) Resource) : Prop :=
  ∀ entry ∈ entries, ∃ parts, entry.2.template.parts = .ok parts

theorem extract_of_not_extracts {resource : Resource}
    (wellFormed : ∃ parts, resource.template.parts = .ok parts)
    (passed : ¬ resource.Extracts uri) : resource.template.extract uri = .ok none := by
  obtain ⟨parts, read⟩ := wellFormed
  have succeeds : errorOf (resource.template.extract uri) = none := by
    rw [Template.errorOf_extract, read]
    rfl
  cases extracted : resource.template.extract uri with
  | error e => simp [extracted, errorOf] at succeeds
  | ok found =>
    cases found with
    | none => rfl
    | some values => exact absurd ⟨values, extracted⟩ passed

theorem Picks.here {resource : Resource} {values : Extraction}
    (extracted : resource.template.extract uri = .ok (some values)) (key : List Char)
    (after : Entries (List Char) Resource) :
    Picks uri ((key, resource) :: after) (some (key, ⟨resource, uri, values⟩)) :=
  .first (List.nil_append _).symm (fun _ member => nomatch member) extracted

theorem Picks.later {before after : Entries (List Char) Resource}
    {pick : Option (List Char × Resolution)} (passed : ∀ entry ∈ before, ¬ entry.2.Extracts uri)
    (picks : Picks uri after pick) : Picks uri (before ++ after) pick := by
  cases picks with
  | none rest => exact .none (List.forall_mem_append.mpr ⟨passed, rest⟩)
  | first split between extracted =>
    rw [split, ← List.append_assoc]
    exact .first rfl (List.forall_mem_append.mpr ⟨passed, between⟩) extracted

theorem exists_picks (uri : List Char) (entries : Entries (List Char) Resource) :
    ∃ pick, Picks uri entries pick := by
  induction entries with
  | nil => exact ⟨none, .none fun _ member => nomatch member⟩
  | cons entry rest ih =>
    by_cases extracts : entry.2.Extracts uri
    · obtain ⟨values, extracted⟩ := extracts
      exact ⟨_, .here extracted entry.1 rest⟩
    · obtain ⟨pick, picks⟩ := ih
      exact ⟨pick, picks.later (List.forall_mem_singleton.mpr extracts)⟩

theorem firstMatch_append {before : Entries (List Char) Resource} (readable : Readable before)
    (passed : ∀ entry ∈ before, ¬ entry.2.Extracts uri) (after : Entries (List Char) Resource) :
    firstMatch uri (before ++ after) = firstMatch uri after := by
  induction before with
  | nil => rfl
  | cons entry before ih =>
    obtain ⟨wellFormed, readable⟩ := List.forall_mem_cons.mp readable
    obtain ⟨first, passed⟩ := List.forall_mem_cons.mp passed
    rw [List.cons_append, firstMatch, extract_of_not_extracts wellFormed first]
    exact ih readable passed

theorem Picks.firstMatch {pick : Option (List Char × Resolution)} (picks : Picks uri entries pick)
    (readable : Readable entries) : firstMatch uri entries = .ok pick := by
  cases picks with
  | none passed =>
    have all := firstMatch_append readable passed []
    rwa [List.append_nil] at all
  | first split passed extracted =>
    subst split
    rw [firstMatch_append (fun entry member => readable entry (List.mem_append_left _ member))
      passed, Router.firstMatch, extracted]

def resolved (uri : List Char) :
    Option (List Char × Resolution) → Except TemplateError (Option Resolution) × List Event
  | none => (.ok none, [])
  | some (key, found) => (.ok (some found), [.resolved uri key])

theorem Picks.resolve {router : Router ρ} {pick : Option (List Char × Resolution)}
    (picks : Picks uri router.templates pick) (readable : Readable router.templates) :
    router.resolve uri = resolved uri pick := by
  rw [Router.resolve, picks.firstMatch readable]
  cases pick <;> rfl

end

/-! ## Handlers and expansions -/

theorem expands_of_lookup {router : Router ρ} {key : List Char} {resource : Resource}
    {parts : List Part} (found : router.templates.lookup key = some resource)
    (wellFormed : resource.template.parts = .ok parts) : Expands router key resource := by
  have answer : ∀ bindings, router.expand key bindings =
      (resource.template.expandRaw bindings).mapError .ofExpansion := by
    intro bindings
    rw [expand, found]
    rfl
  constructor
  · intro bindings encodable
    obtain ⟨text, expanded⟩ := (Template.exists_expandRaw wellFormed bindings).mpr encodable
    exact ⟨text, by rw [answer, expanded]; rfl⟩
  · intro bindings refused
    obtain ⟨e, expanded⟩ := Template.expandRaw_refused wellFormed refused
    exact ⟨e, by rw [answer, expanded]; rfl⟩
  · intro bindings
    have expanded := Template.expand_of_parts _ wellFormed bindings
    exact ⟨_, expanded, by rw [answer, Template.expandRaw_raw, expanded]; rfl⟩

section
variable {router : Router ρ} {uri : List Char}

theorem countP_warning_concluded (uri key : List Char) (outcome : Except Failure ρ) :
    (concluded uri key outcome).2.countP (·.level = .warning) = if outcome.isOk then 0 else 1 := by
  cases outcome <;> rfl

theorem handleWith_unmatched {m : Type → Type} [Monad m]
    (run : Handler ρ → List Char → Extraction → m (Except Failure ρ))
    (none : router.resolve uri = (.ok none, [])) :
    router.handleWith run uri = pure (unknown uri) := by
  rw [handleWith, none]
  rfl

theorem handle_unmatched (none : router.resolve uri = (.ok none, [])) :
    router.handle uri = unknown uri := by
  rw [handle, handleWith_unmatched _ none]
  rfl

variable {key : List Char} {found : Resolution} {handler : Handler ρ}
  (first : router.resolve uri = (.ok (some found), [.resolved uri key]))
  (registered : router.handlers.lookup found.resource.template.text = some handler)
include first registered

theorem handleWith_matched {m : Type → Type} [Monad m]
    (run : Handler ρ → List Char → Extraction → m (Except Failure ρ)) :
    router.handleWith run uri =
      run handler uri found.values >>= fun outcome => pure (concluded uri key outcome) := by
  simp only [handleWith, first, registered]
  congr 1
  funext outcome
  cases outcome <;> rfl

theorem handle_matched : router.handle uri = concluded uri key (handler uri found.values) := by
  rw [handle, handleWith_matched first registered]
  rfl

end

section
variable {history : List (Request ρ)} {router : Router ρ} (records : Records history router)
include records

theorem Records.lastAdd_of_mem {key : List Char} {resource : Resource}
    (member : (key, resource) ∈ router.templates) :
    resource.template.text = key ∧ ∃ handler,
      LastAdd history key resource handler ∧ router.handlers.lookup key = some handler := by
  refine ⟨records.ownText _ member, ?_⟩
  obtain ⟨before, after, split⟩ := List.append_of_mem member
  have distinct := records.distinct
  rw [split] at distinct
  obtain ⟨stored, handler, last, found, handled⟩ :=
    records.stored key (List.mem_map_of_mem member)
  rw [split, Entries.lookup_of_distinct distinct, Option.some.injEq] at found
  exact ⟨handler, found ▸ last, handled⟩

theorem Records.readable (valid : AddsValid history) : Readable router.templates := by
  intro entry member
  obtain ⟨-, handler, ⟨before, after, rfl, -⟩, -⟩ := records.lastAdd_of_mem member
  exact (valid entry.2 handler (by simp)).wellFormed

theorem Records.expand_registered (valid : AddsValid history) {key : List Char}
    (registered : key ∈ router.templates.keys) :
    ∃ resource, router.templates.lookup key = some resource ∧ Expands router key resource := by
  obtain ⟨resource, handler, -, found, -⟩ := records.stored key registered
  obtain ⟨before, after, split, -⟩ := List.lookup_eq_some_iff.mp found
  obtain ⟨parts, read⟩ := records.readable valid (key, resource) (by simp [split])
  exact ⟨resource, found, expands_of_lookup found read⟩

theorem Records.handler_of_picks {uri key : List Char} {found : Resolution}
    (picks : Picks uri router.templates (some (key, found))) :
    ∃ handler, LastAdd history key found.resource handler ∧
      router.handlers.lookup found.resource.template.text = some handler := by
  cases picks with
  | @first before after key resource values split passed extracted =>
    have member : (key, resource) ∈ router.templates := by simp [split]
    obtain ⟨own, handler, last, handled⟩ := records.lastAdd_of_mem member
    exact ⟨handler, last, own ▸ handled⟩

end

/-- A router that only valid resources were added to answers a URI by its first match. -/
theorem dispatches_of_history {history : List (Request ρ)} (valid : AddsValid history)
    (uri : List Char) : Dispatches history (empty.run history) uri := by
  have records := records_run history
  have readable := records.readable valid
  obtain ⟨pick, picks⟩ := exists_picks uri (empty.run history).templates
  have answer := picks.resolve readable
  refine ⟨⟨pick, picks⟩, ?_, ?_, ?_, ?_, ?_, rfl, rfl, fun _ _ => rfl⟩
  · intro picksNone
    have resolved := picksNone.resolve readable
    exact ⟨resolved, handle_unmatched resolved, fun run => handleWith_unmatched run resolved⟩
  · intro key found picksFirst
    have resolved := picksFirst.resolve readable
    obtain ⟨handler, last, handled⟩ := records.handler_of_picks picksFirst
    have outcome := handle_matched resolved handled
    refine ⟨handler, last, resolved, outcome, ?_, fun run => handleWith_matched resolved handled run⟩
    rw [outcome]
    exact countP_warning_concluded uri key _
  · intro e
    rw [answer]
    cases pick with
    | none =>
      rw [handle_unmatched answer]
      exact ⟨nofun, nofun⟩
    | some first =>
      obtain ⟨handler, -, handled⟩ := records.handler_of_picks picks
      rw [handle_matched answer handled]
      refine ⟨nofun, ?_⟩
      cases handler uri first.2.values <;> exact nofun
  · intro found resolved
    rw [answer] at resolved
    cases pick with
    | none => cases resolved
    | some first =>
      cases resolved
      obtain ⟨handler, -, handled⟩ := records.handler_of_picks picks
      rw [handled, Option.isSome_some]
  · exact fun key registered => records.expand_registered valid registered

/-- The URI matches both templates. It goes to the one that was added first, although it was added
again last. -/
theorem overlapping_dispatched :
    ∃ (files users : Resource) (handler again : Handler Unit) (found : Resolution),
      AddsValid [.add files handler, .add users handler, .add files again] ∧
        Picks "/users/7".toList
          (empty.run [.add files handler, .add users handler, .add files again]).templates
          (some ("/{+path}".toList, found)) ∧
        found.values = [("path".toList, "users/7".toList)] ∧
        Dispatches [.add files handler, .add users handler, .add files again]
          (empty.run [.add files handler, .add users handler, .add files again])
          "/users/7".toList := by
  let files : Resource := ⟨⟨"/{+path}".toList⟩, "files", none, none, none, none⟩
  let users : Resource := ⟨⟨"/users/{id}".toList⟩, "users", none, none, none, none⟩
  let handler : Handler Unit := fun _ _ => .ok ()
  let again : Handler Unit := fun _ _ => .error (.missing none)
  have filesRead : files.template.parts =
      .ok [.literal ['/'], .expression ⟨.reserved, [⟨"path".toList, none, false⟩]⟩] :=
    Template.ok_of_toOption (by decide +kernel)
  have usersRead : users.template.parts =
      .ok [.literal "/users/".toList, .expression ⟨.simple, [⟨"id".toList, none, false⟩]⟩] :=
    Template.ok_of_toOption (by decide +kernel)
  have filesValid := Resource.valid_of_wellFormed filesRead "files"
  have usersValid := Resource.valid_of_wellFormed usersRead "users"
  have valid : AddsValid [.add files handler, .add users handler, .add files again] :=
    addsValid_cons.mpr ⟨filesValid, addsValid_cons.mpr ⟨usersValid,
      addsValid_cons.mpr ⟨filesValid, addsValid_nil⟩⟩⟩
  have extracted : files.template.extract "/users/7".toList =
      .ok (some [("path".toList, "users/7".toList)]) :=
    Template.ok_of_toOption (by decide +kernel)
  exact ⟨files, users, handler, again, _, valid,
    .here extracted _ _, rfl, dispatches_of_history valid _⟩

/-- The value of the variable is a surrogate by itself, which has no encoding. -/
theorem surrogate_refused :
    ∃ (users : Resource) (handler : Handler Unit),
      AddsValid [.add users handler] ∧
        "/{id}".toList ∈ (empty.run [.add users handler]).templates.keys ∧
        (empty.run [.add users handler]).expand "/{id}".toList
          [("id".toList, .text [.surrogate 0])] = .error (.encoding ⟨0, 0, 0⟩) := by
  let users : Resource := ⟨⟨"/{id}".toList⟩, "users", none, none, none, none⟩
  have read : users.template.parts =
      .ok [.literal ['/'], .expression ⟨.simple, [⟨"id".toList, none, false⟩]⟩] :=
    Template.ok_of_toOption (by decide +kernel)
  refine ⟨users, fun _ _ => .ok (), ?_, List.mem_singleton_self _, ?_⟩
  · exact addsValid_cons.mpr ⟨Resource.valid_of_wellFormed read "users", addsValid_nil⟩
  · have stored : (empty.run [.add users fun _ _ => .ok ()] : Router Unit).templates.lookup
        "/{id}".toList = some users := rfl
    rw [expand, stored]
    simp only [Resource.expand, Template.expandRaw_of_parts read]
    rfl

end Router

end UriTemplate
