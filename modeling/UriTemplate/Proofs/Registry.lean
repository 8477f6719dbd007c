import Mathlib.Data.List.Induction
import UriTemplate.Router.Session

/-! What a run of requests leaves registered, told from the requests alone. A key is registered if
an add of it stands, that is, if nothing dropped it later; its resource and handler are those of its
last add, and its place is that of its first add since it was last dropped. -/

set_option autoImplicit false

namespace UriTemplate.Router

variable {ρ : Type}

def Request.Adds (key : List Char) : Request ρ → Prop
  | .add resource _ => resource.template.text = key
  | _ => False

def Request.Drops (key : List Char) : Request ρ → Prop
  | .remove other => other = key
  | .clear => True
  | _ => False

section
variable (history : List (Request ρ)) (key : List Char)

/-- Some add of the key is followed by no request that drops it. -/
def Standing : Prop :=
  ∃ before request after, history = before ++ request :: after ∧
    request.Adds key ∧ ∀ later ∈ after, ¬ later.Drops key

/-- The last add of the key registers this resource and this handler. -/
def LastAdd (resource : Resource) (handler : Handler ρ) : Prop :=
  ∃ before after, history = before ++ .add resource handler :: after ∧
    resource.template.text = key ∧ ∀ later ∈ after, ¬ later.Adds key

/-- The request at this position is the first add of the key since it was last dropped: no later
request drops the key, and of the adds before it none stands. -/
def Enters (position : Nat) : Prop :=
  ∃ before request after, history = before ++ request :: after ∧ before.length = position ∧
    request.Adds key ∧ (∀ later ∈ after, ¬ later.Drops key) ∧ ¬ Standing before key

end

/-- The registry that a history leads to. -/
structure Records (history : List (Request ρ)) (router : Router ρ) : Prop where
  registered : ∀ key, key ∈ router.templates.keys ↔ Standing history key
  stored : ∀ key ∈ router.templates.keys, ∃ resource handler,
    LastAdd history key resource handler ∧ router.templates.lookup key = some resource ∧
      router.handlers.lookup key = some handler
  ordered : router.templates.keys.Pairwise fun earlier later =>
    ∃ i j, Enters history earlier i ∧ Enters history later j ∧ i < j
  sameKeys : router.handlers.keys = router.templates.keys
  distinct : router.templates.keys.Nodup
  ownText : ∀ entry ∈ router.templates, entry.2.template.text = entry.1

/-! ## Histories that go on by one request -/

section
variable {history : List (Request ρ)} {request : Request ρ} {key : List Char}

theorem Request.not_drops_of_adds (adds : request.Adds key) : ¬ request.Drops key := by
  cases request with
  | add resource handler => exact id
  | _ => cases adds

theorem forall_mem_snoc {after : List (Request ρ)} {holds : Request ρ → Prop} :
    (∀ later ∈ after ++ [request], holds later) ↔ (∀ later ∈ after, holds later) ∧ holds request := by
  rw [List.forall_mem_append, List.forall_mem_singleton]

theorem exists_split_snoc (holds : List (Request ρ) → Request ρ → List (Request ρ) → Prop) :
    (∃ before current after, history ++ [request] = before ++ current :: after ∧
      holds before current after) ↔
      holds history request [] ∨ ∃ before current after, history = before ++ current :: after ∧
        holds before current (after ++ [request]) := by
  constructor
  · rintro ⟨before, current, after, split, held⟩
    cases after using List.reverseRecOn with
    | nil =>
      obtain ⟨rfl, same⟩ := List.append_inj' split rfl
      cases same
      exact Or.inl held
    | append_singleton after last =>
      rw [← List.cons_append, ← List.append_assoc] at split
      obtain ⟨rfl, same⟩ := List.append_inj' split rfl
      cases same
      exact Or.inr ⟨before, current, after, rfl, held⟩
  · rintro (held | ⟨before, current, after, rfl, held⟩)
    · exact ⟨history, request, [], rfl, held⟩
    · exact ⟨before, current, after ++ [request], by simp, held⟩

theorem standing_snoc :
    Standing (history ++ [request]) key ↔
      request.Adds key ∨ Standing history key ∧ ¬ request.Drops key := by
  rw [Standing, exists_split_snoc fun _ current after =>
    current.Adds key ∧ ∀ later ∈ after, ¬ later.Drops key]
  simp only [forall_mem_snoc, Standing]
  constructor
  · rintro (⟨adds, -⟩ | ⟨before, current, after, split, adds, kept, last⟩)
    · exact Or.inl adds
    · exact Or.inr ⟨⟨before, current, after, split, adds, kept⟩, last⟩
  · rintro (adds | ⟨⟨before, current, after, split, adds, kept⟩, last⟩)
    · exact Or.inl ⟨adds, fun _ member => (nomatch member)⟩
    · exact Or.inr ⟨before, current, after, split, adds, kept, last⟩

theorem enters_snoc {position : Nat} :
    Enters (history ++ [request]) key position ↔
      (history.length = position ∧ request.Adds key ∧ ¬ Standing history key) ∨
        Enters history key position ∧ ¬ request.Drops key := by
  rw [Enters, exists_split_snoc fun before current after =>
    before.length = position ∧ current.Adds key ∧ (∀ later ∈ after, ¬ later.Drops key) ∧
      ¬ Standing before key]
  simp only [forall_mem_snoc, Enters]
  constructor
  · rintro (⟨place, adds, -, first⟩ | ⟨before, current, after, split, place, adds, kept, first⟩)
    · exact Or.inl ⟨place, adds, first⟩
    · exact Or.inr ⟨⟨before, current, after, split, place, adds, kept.1, first⟩, kept.2⟩
  · rintro (⟨place, adds, first⟩ |
      ⟨⟨before, current, after, split, place, adds, kept, first⟩, last⟩)
    · exact Or.inl ⟨place, adds, fun _ member => (nomatch member), first⟩
    · exact Or.inr ⟨before, current, after, split, place, adds, ⟨kept, last⟩, first⟩

theorem LastAdd.snoc {resource : Resource} {handler : Handler ρ}
    (last : LastAdd history key resource handler) (other : ¬ request.Adds key) :
    LastAdd (history ++ [request]) key resource handler := by
  obtain ⟨before, after, rfl, text, latest⟩ := last
  exact ⟨before, after ++ [request], by simp, text, forall_mem_snoc.mpr ⟨latest, other⟩⟩

theorem lastAdd_self (resource : Resource) (handler : Handler ρ) :
    LastAdd (history ++ [.add resource handler]) resource.template.text resource handler :=
  ⟨history, [], rfl, rfl, fun _ member => (nomatch member)⟩

theorem Enters.lt_length {position : Nat} (enters : Enters history key position) :
    position < history.length := by
  obtain ⟨before, current, after, rfl, rfl, -⟩ := enters
  simp

theorem Standing.enters (standing : Standing history key) : ∃ i, Enters history key i := by
  induction history using List.reverseRecOn with
  | nil =>
    obtain ⟨before, current, after, split, -⟩ := standing
    exact absurd split.symm (by simp)
  | append_singleton history request ih =>
    by_cases before : Standing history key
    · obtain ⟨i, enters⟩ := ih before
      have kept : ¬ request.Drops key := by
        rcases standing_snoc.mp standing with adds | ⟨-, kept⟩
        · exact Request.not_drops_of_adds adds
        · exact kept
      exact ⟨i, enters_snoc.mpr (Or.inr ⟨enters, kept⟩)⟩
    · rcases standing_snoc.mp standing with adds | ⟨stood, -⟩
      · exact ⟨history.length, enters_snoc.mpr (Or.inl ⟨rfl, adds, before⟩)⟩
      · exact absurd stood before

end

/-! ## Steps -/

section
variable {history : List (Request ρ)} {router : Router ρ}

theorem records_empty : Records ([] : List (Request ρ)) empty := by
  refine ⟨?_, fun _ member => (nomatch member), .nil, rfl, .nil, fun _ member => (nomatch member)⟩
  intro key
  constructor
  · exact fun member => (nomatch member)
  · rintro ⟨before, current, after, split, -⟩
    exact absurd split.symm (by simp)

theorem enters_still {request : Request ρ} {earlier later : List Char}
    (ordered : ∃ i j, Enters history earlier i ∧ Enters history later j ∧ i < j)
    (first : ¬ request.Drops earlier) (second : ¬ request.Drops later) :
    ∃ i j, Enters (history ++ [request]) earlier i ∧ Enters (history ++ [request]) later j ∧
      i < j := by
  obtain ⟨i, j, enters, follows, before⟩ := ordered
  exact ⟨i, j, enters_snoc.mpr (Or.inr ⟨enters, first⟩), enters_snoc.mpr (Or.inr ⟨follows, second⟩),
    before⟩

theorem Records.shrink (records : Records history router) {request : Request ρ} {rest : Router ρ}
    (idle : ∀ key, ¬ request.Adds key)
    (templates : rest.templates.Sublist router.templates)
    (sameKeys : rest.handlers.keys = rest.templates.keys)
    (kept : ∀ key, key ∈ rest.templates.keys ↔ key ∈ router.templates.keys ∧ ¬ request.Drops key)
    (stored : ∀ key, ¬ request.Drops key →
      rest.templates.lookup key = router.templates.lookup key ∧
        rest.handlers.lookup key = router.handlers.lookup key) :
    Records (history ++ [request]) rest := by
  have keys : rest.templates.keys.Sublist router.templates.keys := templates.map Prod.fst
  refine ⟨?_, ?_, ?_, sameKeys, records.distinct.sublist keys, ?_⟩
  · intro key
    rw [kept, records.registered, standing_snoc]
    simp only [idle key, false_or]
  · intro key member
    obtain ⟨member, left⟩ := (kept key).mp member
    obtain ⟨resource, handler, last, found, handled⟩ := records.stored key member
    obtain ⟨sameResource, sameHandler⟩ := stored key left
    exact ⟨resource, handler, last.snoc (idle key), sameResource.trans found,
      sameHandler.trans handled⟩
  · refine (records.ordered.sublist keys).imp_of_mem ?_
    intro earlier later first second ordered
    exact enters_still ordered ((kept earlier).mp first).2 ((kept later).mp second).2
  · exact fun entry member => records.ownText entry (templates.subset member)

theorem records_add (records : Records history router) (resource : Resource)
    (handler : Handler ρ) :
    Records (history ++ [.add resource handler]) (router.add resource handler).1 := by
  have keeps : ∀ key, ¬ (Request.add resource handler).Drops key := fun _ => id
  refine ⟨?_, ?_, ?_, ?_, Entries.nodup_keys_put _ _ records.distinct, ?_⟩
  · intro key
    rw [standing_snoc, ← records.registered]
    simp only [add, Entries.keys_put, Request.Adds, keeps, not_false_eq_true, and_true]
    split
    · next member => exact ⟨Or.inr, fun either => either.elim (· ▸ member) id⟩
    · rw [List.mem_append, List.mem_singleton, or_comm, eq_comm]
  · intro key member
    by_cases same : key = resource.template.text
    · subst same
      exact ⟨resource, handler, lastAdd_self resource handler,
        by simp [add, Entries.lookup_put], by simp [add, Entries.lookup_put]⟩
    · have old : key ∈ router.templates.keys := by
        simp only [add, Entries.keys_put] at member
        split at member
        · exact member
        · simpa [same] using member
      obtain ⟨other, otherHandler, last, found, handled⟩ := records.stored key old
      exact ⟨other, otherHandler, last.snoc (Ne.symm same),
        by simpa [add, Entries.lookup_put, same] using found,
        by simpa [add, Entries.lookup_put, same] using handled⟩
  · have old := records.ordered.imp fun {earlier later} ordered =>
      enters_still ordered (keeps earlier) (keeps later)
    simp only [add, Entries.keys_put]
    split
    · exact old
    · next absent =>
      rw [List.pairwise_append]
      refine ⟨old, List.pairwise_singleton _ _, ?_⟩
      intro earlier member later single
      obtain rfl := List.mem_singleton.mp single
      obtain ⟨i, enters⟩ := ((records.registered earlier).mp member).enters
      rw [records.registered] at absent
      exact ⟨i, history.length, enters_snoc.mpr (Or.inr ⟨enters, keeps earlier⟩),
        enters_snoc.mpr (Or.inl ⟨rfl, rfl, absent⟩), enters.lt_length⟩
  · simp only [add, Entries.keys_put, records.sameKeys]
  · intro entry member
    rcases Entries.mem_put member with rfl | member
    · rfl
    · exact records.ownText entry member

theorem keys_add_registered {resource : Resource} (handler : Handler ρ)
    (member : resource.template.text ∈ router.templates.keys) :
    (router.add resource handler).1.templates.keys = router.templates.keys := by
  rw [add, Entries.keys_put, if_pos member]

theorem keys_add_removed (router : Router ρ) (resource : Resource) (handler : Handler ρ) :
    ((router.remove resource.template.text).1.add resource handler).1.templates.keys =
      router.templates.keys.filter (· ≠ resource.template.text) ++ [resource.template.text] := by
  have gone : resource.template.text ∉ (router.templates.erase resource.template.text).keys := by
    simp [Entries.keys_erase]
  rw [add, Entries.keys_put, remove, if_neg gone, Entries.keys_erase]
  congr 2
  funext key
  rw [decide_not, beq_eq_decide]

theorem records_remove (records : Records history router) (key : List Char) :
    Records (history ++ [.remove key]) (router.remove key).1 := by
  apply records.shrink (fun _ => id) List.filter_sublist
  · simp only [remove, Entries.keys_erase, records.sameKeys]
  · intro other
    simp [remove, Entries.keys_erase, Request.Drops, ne_comm]
  · intro other left
    have apart : (other == key) = false := beq_false_of_ne (Ne.symm left)
    simp [remove, Entries.lookup_erase, apart]

theorem records_clear (records : Records history router) :
    Records (history ++ [.clear]) router.clear := by
  apply records.shrink (fun _ => id) (List.nil_sublist _) rfl
  · exact fun key => ⟨fun member => (nomatch member), fun both => absurd trivial both.2⟩
  · exact fun key left => absurd trivial left

theorem step_of_idle (router : Router ρ) {request : Request ρ}
    (idle : ∀ key, ¬ request.Adds key ∧ ¬ request.Drops key) :
    (router.step request).router = router := by
  cases request with
  | add resource handler => exact absurd rfl (idle resource.template.text).1
  | remove key => exact absurd rfl (idle key).2
  | clear => exact absurd trivial (idle []).2
  | _ => rfl

theorem Records.idle (records : Records history router) {request : Request ρ}
    (idle : ∀ key, ¬ request.Adds key ∧ ¬ request.Drops key) :
    Records (history ++ [request]) router :=
  records.shrink (fun key => (idle key).1) (List.Sublist.refl _) records.sameKeys
    (fun key => ⟨fun member => ⟨member, (idle key).2⟩, And.left⟩) fun _ _ => ⟨rfl, rfl⟩

theorem records_step (records : Records history router) (request : Request ρ) :
    Records (history ++ [request]) (router.step request).router := by
  cases request with
  | add resource handler => exact records_add records resource handler
  | remove key => exact records_remove records key
  | clear => exact records_clear records
  | _ => exact records.idle fun _ => ⟨id, id⟩

theorem records_run (history : List (Request ρ)) : Records history (empty.run history) := by
  induction history using List.reverseRecOn with
  | nil => exact records_empty
  | append_singleton history request ih =>
    rw [run_append]
    exact records_step ih request

end

/-- The registry is determined by the history. A request that neither adds nor drops anything leaves
it alone, an add of a registered key keeps its place, and an add after a remove goes to the end. -/
theorem registry_of_history (history : List (Request ρ)) :
    Records history (empty.run history) ∧
      (∀ request : Request ρ, (∀ key, ¬ request.Adds key ∧ ¬ request.Drops key) →
        empty.run (history ++ [request]) = empty.run history) ∧
      (∀ (resource : Resource) (handler : Handler ρ),
        resource.template.text ∈ (empty.run history).templates.keys →
          (empty.run (history ++ [.add resource handler])).templates.keys =
            (empty.run history).templates.keys) ∧
      ∀ (resource : Resource) (handler : Handler ρ),
        (empty.run (history ++ [.remove resource.template.text, .add resource handler])).templates.keys
          = (empty.run history).templates.keys.filter (· ≠ resource.template.text) ++
            [resource.template.text] := by
  refine ⟨records_run history, ?_, ?_, ?_⟩
  · intro request idle
    rw [run_append]
    exact step_of_idle (empty.run history) idle
  · intro resource handler member
    rw [run_append]
    exact keys_add_registered handler member
  · intro resource handler
    rw [run_append]
    exact keys_add_removed (empty.run history) resource handler

theorem added_again_in_place_or_last :
    ∃ (a b : Resource) (handler : Handler Unit),
      (empty.run [.add a handler, .add b handler, .add a handler]).templates.keys =
          [['a'], ['b']] ∧
        (empty.run [.add a handler, .add b handler, .remove ['a'], .add a handler]).templates.keys =
          [['b'], ['a']] := by
  let a : Resource := ⟨⟨['a']⟩, "a", none, none, none, none⟩
  let b : Resource := ⟨⟨['b']⟩, "b", none, none, none, none⟩
  let handler : Handler Unit := fun _ _ => .ok ()
  have registry := registry_of_history [.add a handler, .add b handler]
  have member : ['a'] ∈ (empty.run [.add a handler, .add b handler]).templates.keys :=
    List.mem_cons_self
  exact ⟨a, b, handler, registry.2.2.1 a handler member, registry.2.2.2 a handler⟩

end UriTemplate.Router
