import UriTemplate.Proofs.Dispatch

/-! What a change of the registry does to a URI. An add in place of a registered key leaves it where
it was, an add of a new key takes it only if it went nowhere before, and a remove lets it go on to
what stood behind the removed key only if it went to that key. -/

set_option autoImplicit false

namespace UriTemplate.Router

variable {ρ : Type}

def target (found : Resolution) : List Char × Extraction :=
  (found.resource.template.text, found.values)

def ResolvesTo (router : Router ρ) (uri key : List Char) : Prop :=
  ∃ found, (router.resolve uri).1 = .ok (some found) ∧ found.resource.template.text = key

/-- How the answer to a URI may change with one add or remove. -/
structure Reroutes (router : Router ρ) (uri : List Char) : Prop where
  addedAgain : ∀ resource handler, resource.template.text ∈ router.templates.keys →
    ((router.add resource handler).1.resolve uri).1.map (Option.map target) =
        (router.resolve uri).1.map (Option.map target) ∧
      ((router.add resource handler).1.resolve uri).2 = (router.resolve uri).2
  taken : ∀ resource handler values, resource.Valid →
    resource.template.text ∉ router.templates.keys →
    (router.resolve uri).1 = .ok none → resource.template.extract uri = .ok (some values) →
    (router.add resource handler).1.resolve uri =
      (.ok (some ⟨resource, uri, values⟩), [.resolved uri resource.template.text])
  notTaken : ∀ resource handler, resource.Valid →
    resource.template.text ∉ router.templates.keys →
    ¬ ((router.resolve uri).1 = .ok none ∧ resource.Extracts uri) →
    (router.add resource handler).1.resolve uri = router.resolve uri
  passedOn : ∀ key, router.ResolvesTo uri key →
    ∃ before resource after pick, router.templates = before ++ (key, resource) :: after ∧
      Picks uri after pick ∧ (router.remove key).1.resolve uri = resolved uri pick
  kept : ∀ key, ¬ router.ResolvesTo uri key →
    (router.remove key).1.resolve uri = router.resolve uri

/-! ## Entries around a place -/

inductive Meets (uri : List Char) (before : Entries (List Char) Resource) (resource : Resource)
    (after : Entries (List Char) Resource) : Prop where
  | earlier {found : List Char × Resolution} :
      Picks uri before (some found) → Meets uri before resource after
  | here {values : Extraction} :
      (∀ entry ∈ before, ¬ entry.2.Extracts uri) →
      resource.template.extract uri = .ok (some values) → Meets uri before resource after
  | later {pick : Option (List Char × Resolution)} :
      (∀ entry ∈ before, ¬ entry.2.Extracts uri) → ¬ resource.Extracts uri →
      Picks uri after pick → Meets uri before resource after

theorem meets (uri : List Char) (before : Entries (List Char) Resource) (resource : Resource)
    (after : Entries (List Char) Resource) : Meets uri before resource after := by
  obtain ⟨pick, picks⟩ := exists_picks uri before
  cases picks with
  | first split passed extracted => exact .earlier (.first split passed extracted)
  | none passed =>
    by_cases extracts : resource.Extracts uri
    · obtain ⟨values, extracted⟩ := extracts
      exact .here passed extracted
    · obtain ⟨pick, picks⟩ := exists_picks uri after
      exact .later passed extracts picks

theorem Picks.early {uri : List Char} {entries : Entries (List Char) Resource}
    {found : List Char × Resolution} (picks : Picks uri entries (some found))
    (after : Entries (List Char) Resource) : Picks uri (entries ++ after) (some found) := by
  cases picks with
  | first split passed extracted =>
    rw [split, List.append_assoc, List.cons_append]
    exact .first rfl passed extracted

theorem Picks.mem {uri key : List Char} {found : Resolution}
    {entries : Entries (List Char) Resource} (picks : Picks uri entries (some (key, found))) :
    (key, found.resource) ∈ entries := by
  cases picks with
  | first split passed extracted => simp [split]

theorem Picks.pass {uri key : List Char} {before after : Entries (List Char) Resource}
    {resource : Resource} {pick : Option (List Char × Resolution)}
    (passed : ∀ entry ∈ before, ¬ entry.2.Extracts uri) (past : ¬ resource.Extracts uri)
    (picks : Picks uri after pick) : Picks uri (before ++ (key, resource) :: after) pick :=
  (picks.later (List.forall_mem_singleton.mpr past)).later passed

theorem Picks.resolve_eq {router : Router ρ} {entries : Entries (List Char) Resource}
    (templates : router.templates = entries) (readable : Readable entries) {uri : List Char}
    {pick : Option (List Char × Resolution)} (picks : Picks uri entries pick) :
    router.resolve uri = resolved uri pick := by
  subst templates
  exact picks.resolve readable

/-! ## A new key -/

section
variable {router : Router ρ} (readable : Readable router.templates) {uri : List Char}
include readable

theorem passed_of_unresolved (unresolved : (router.resolve uri).1 = .ok none) :
    ∀ entry ∈ router.templates, ¬ entry.2.Extracts uri := by
  obtain ⟨pick, picks⟩ := exists_picks uri router.templates
  rw [picks.resolve readable] at unresolved
  cases picks with
  | none passed => exact passed
  | first => cases unresolved

variable {resource : Resource} (handler : Handler ρ) (valid : resource.Valid)
  (absent : resource.template.text ∉ router.templates.keys)
include valid absent

theorem templates_add_new :
    (router.add resource handler).1.templates =
        router.templates ++ [(resource.template.text, resource)] ∧
      Readable (router.templates ++ [(resource.template.text, resource)]) :=
  ⟨Entries.put_of_absent resource absent,
    List.forall_mem_append.mpr ⟨readable, List.forall_mem_singleton.mpr valid.wellFormed⟩⟩

theorem resolve_add_taken (unresolved : (router.resolve uri).1 = .ok none) {values : Extraction}
    (extracted : resource.template.extract uri = .ok (some values)) :
    (router.add resource handler).1.resolve uri =
      (.ok (some ⟨resource, uri, values⟩), [.resolved uri resource.template.text]) := by
  obtain ⟨extended, still⟩ := templates_add_new readable handler valid absent
  have passed := passed_of_unresolved readable unresolved
  exact ((Picks.here extracted _ []).later passed).resolve_eq extended still

theorem resolve_add_not_taken
    (elsewhere : ¬ ((router.resolve uri).1 = .ok none ∧ resource.Extracts uri)) :
    (router.add resource handler).1.resolve uri = router.resolve uri := by
  obtain ⟨extended, still⟩ := templates_add_new readable handler valid absent
  obtain ⟨pick, picks⟩ := exists_picks uri router.templates
  have answer := picks.resolve readable
  rw [answer]
  cases picks with
  | first split passed extracted =>
    exact ((Picks.first split passed extracted).early _).resolve_eq extended still
  | none passed =>
    have past : ∀ entry ∈ [(resource.template.text, resource)], ¬ entry.2.Extracts uri := by
      rw [List.forall_mem_singleton]
      exact fun extracts => elsewhere ⟨by rw [answer]; rfl, extracts⟩
    exact (Picks.none (List.forall_mem_append.mpr ⟨passed, past⟩)).resolve_eq extended still

end

/-! ## A registered key -/

section
variable {history : List (Request ρ)} {router : Router ρ} (records : Records history router)
  (readable : Readable router.templates) {uri key : List Char}
include records readable

theorem Records.resolvesTo_iff {pick : Option (List Char × Resolution)}
    (picks : Picks uri router.templates pick) :
    router.ResolvesTo uri key ↔ ∃ found, pick = some (key, found) := by
  rw [ResolvesTo, picks.resolve readable]
  cases pick with
  | none => simp [resolved]
  | some first =>
    have own : first.2.resource.template.text = first.1 := records.ownText _ picks.mem
    simp [resolved, Prod.ext_iff, own]

-- The new resource has the template of the one in whose place it comes, so it matches when that did.
theorem Records.resolve_add_again (resource : Resource) (handler : Handler ρ)
    (registered : resource.template.text ∈ router.templates.keys) :
    ((router.add resource handler).1.resolve uri).1.map (Option.map target) =
        (router.resolve uri).1.map (Option.map target) ∧
      ((router.add resource handler).1.resolve uri).2 = (router.resolve uri).2 := by
  obtain ⟨⟨key, old⟩, member, rfl⟩ := List.mem_map.mp registered
  have same : old.template = resource.template :=
    congrArg Template.mk (records.ownText _ member)
  obtain ⟨before, after, split⟩ := List.append_of_mem member
  have distinct := records.distinct
  rw [split] at distinct readable
  have replaced : (router.add resource handler).1.templates =
      before ++ (resource.template.text, resource) :: after := by
    rw [add, split]
    exact Entries.put_of_distinct distinct resource
  have still : Readable (before ++ (resource.template.text, resource) :: after) := by
    simp only [Readable, List.forall_mem_append, List.forall_mem_cons, same] at readable ⊢
    exact readable
  cases meets uri before resource after with
  | earlier picks =>
    rw [(picks.early _).resolve_eq split readable, (picks.early _).resolve_eq replaced still]
    exact ⟨rfl, rfl⟩
  | here passed extracted =>
    have oldExtracted := extracted
    rw [← same] at oldExtracted
    rw [((Picks.here oldExtracted _ after).later passed).resolve_eq split readable,
      ((Picks.here extracted _ after).later passed).resolve_eq replaced still]
    simp [resolved, target, Except.map, same]
  | later passed past picks =>
    have oldPast : ¬ old.Extracts uri := by
      rwa [Resource.Extracts, same]
    rw [(picks.pass passed oldPast).resolve_eq split readable,
      (picks.pass passed past).resolve_eq replaced still]
    exact ⟨rfl, rfl⟩

theorem Records.templates_remove {before after : Entries (List Char) Resource} {resource : Resource}
    (split : router.templates = before ++ (key, resource) :: after) :
    (router.remove key).1.templates = before ++ after ∧ Readable (before ++ after) := by
  have distinct := records.distinct
  rw [split] at distinct readable
  constructor
  · rw [remove, split]
    exact Entries.erase_of_distinct distinct
  · simp only [Readable, List.forall_mem_append, List.forall_mem_cons] at readable ⊢
    exact ⟨readable.1, readable.2.2⟩

theorem Records.resolve_remove_resolved (resolves : router.ResolvesTo uri key) :
    ∃ before resource after pick, router.templates = before ++ (key, resource) :: after ∧
      Picks uri after pick ∧ (router.remove key).1.resolve uri = resolved uri pick := by
  obtain ⟨first, picks⟩ := exists_picks uri router.templates
  obtain ⟨found, rfl⟩ := (records.resolvesTo_iff readable picks).mp resolves
  cases picks with
  | @first before after key resource values split passed extracted =>
    obtain ⟨removed, still⟩ := records.templates_remove readable split
    obtain ⟨pick, picks⟩ := exists_picks uri after
    exact ⟨before, resource, after, pick, split, picks,
      (picks.later passed).resolve_eq removed still⟩

theorem Records.resolve_remove_other (elsewhere : ¬ router.ResolvesTo uri key) :
    (router.remove key).1.resolve uri = router.resolve uri := by
  by_cases registered : key ∈ router.templates.keys
  · obtain ⟨⟨key, resource⟩, member, rfl⟩ := List.mem_map.mp registered
    obtain ⟨before, after, split⟩ := List.append_of_mem member
    obtain ⟨removed, still⟩ := records.templates_remove readable split
    have all := readable
    rw [split] at all
    cases meets uri before resource after with
    | earlier picks =>
      rw [(picks.early _).resolve_eq split all, (picks.early _).resolve_eq removed still]
    | here passed extracted =>
      have first := (Picks.here extracted key after).later passed
      rw [← split] at first
      exact absurd ((records.resolvesTo_iff readable first).mpr ⟨_, rfl⟩) elsewhere
    | later passed past picks =>
      rw [(picks.pass passed past).resolve_eq split all,
        (picks.later passed).resolve_eq removed still]
  · have same : (router.remove key).1.templates = router.templates :=
      Entries.erase_of_absent registered
    obtain ⟨pick, picks⟩ := exists_picks uri router.templates
    rw [picks.resolve readable, picks.resolve_eq same readable]

end

/-- A change of the registry reaches only the URIs that it has to. -/
theorem reroutes_of_history {history : List (Request ρ)} (valid : AddsValid history)
    (uri : List Char) : Reroutes (empty.run history) uri := by
  have records := records_run history
  have readable := records.readable valid
  constructor
  · exact fun resource handler registered =>
      records.resolve_add_again readable resource handler registered
  · exact fun _ handler _ checked absent unresolved extracted =>
      resolve_add_taken readable handler checked absent unresolved extracted
  · exact fun _ handler checked absent elsewhere =>
      resolve_add_not_taken readable handler checked absent elsewhere
  · exact fun _ resolves => records.resolve_remove_resolved readable resolves
  · exact fun _ elsewhere => records.resolve_remove_other readable elsewhere

/-- Both templates match a text file. It goes to the first, and would be passed on by its remove. -/
theorem text_file_passed_on :
    ∃ (any texts : Resource) (handler : Handler Unit),
      AddsValid [.add any handler, .add texts handler] ∧
        (empty.run [.add any handler, .add texts handler]).ResolvesTo "/a.txt".toList
          "/{+path}".toList ∧
        Picks "/a.txt".toList [(texts.template.text, texts)]
          (some (texts.template.text, ⟨texts, "/a.txt".toList, [(['n'], ['a'])]⟩)) ∧
        Reroutes (empty.run [.add any handler, .add texts handler]) "/a.txt".toList := by
  let any : Resource := ⟨⟨"/{+path}".toList⟩, "any", none, none, none, none⟩
  let texts : Resource := ⟨⟨"/{n}.txt".toList⟩, "texts", none, none, none, none⟩
  let handler : Handler Unit := fun _ _ => .ok ()
  have anyRead : any.template.parts =
      .ok [.literal ['/'], .expression ⟨.reserved, [⟨"path".toList, none, false⟩]⟩] :=
    Template.ok_of_toOption (by decide +kernel)
  have textsRead : texts.template.parts =
      .ok [.literal ['/'], .expression ⟨.simple, [⟨['n'], none, false⟩]⟩,
        .literal ".txt".toList] :=
    Template.ok_of_toOption (by decide +kernel)
  have valid : AddsValid [.add any handler, .add texts handler] :=
    addsValid_cons.mpr ⟨Resource.valid_of_wellFormed anyRead "any",
      addsValid_cons.mpr ⟨Resource.valid_of_wellFormed textsRead "texts", addsValid_nil⟩⟩
  have anyExtracts : any.template.extract "/a.txt".toList =
      .ok (some [("path".toList, "a.txt".toList)]) :=
    Template.ok_of_toOption (by decide +kernel)
  have textsExtracts : texts.template.extract "/a.txt".toList = .ok (some [(['n'], ['a'])]) :=
    Template.ok_of_toOption (by decide +kernel)
  have picks : Picks "/a.txt".toList
      (empty.run [.add any handler, .add texts handler]).templates (some (any.template.text, _)) :=
    .here anyExtracts _ _
  have found := picks.resolve ((records_run _).readable valid)
  exact ⟨any, texts, handler, valid, ⟨_, congrArg Prod.fst found, rfl⟩, .here textsExtracts _ [],
    reroutes_of_history valid _⟩

end UriTemplate.Router
