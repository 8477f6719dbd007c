import Mathlib.Logic.Relation
import UriTemplate.Proofs.Agreement
import UriTemplate.Proofs.Expression
import UriTemplate.Proofs.Verdict

/-! Resources on the wire. A document is read as a resource if its template is well formed and each
field holds what the resource has there. What is written holds just that, so it is read back as the
same resource; and how a document spells its fields, what else it holds and in which order does not
show. -/

set_option autoImplicit false

namespace UriTemplate

namespace FieldKey

def all : List FieldKey :=
  [template, name, title, description, mimeType, metadata]

def names (field : FieldKey) : List String :=
  [field.wire, field.plain]

/-- What stands in the field, under its wire name or else under its plain one. -/
def stands? (field : FieldKey) (fields : Entries String Document) : Option Document :=
  (fields.lookup field.wire).or (fields.lookup field.plain)

/-- What the field holds: a null is as good as nothing. -/
def held? (field : FieldKey) (fields : Entries String Document) : Option Document :=
  match field.stands? fields with
  | none | some .null => none
  | some document => some document

end FieldKey

/-- One change to the entries of a document that leaves what its fields hold: an entry under a key
that is no name of a field, the other name for a field that stands under one of them only, or
another order. -/
inductive Rewords : Entries String Document → Entries String Document → Prop
  | extra (before : Entries String Document) {after : Entries String Document} {key : String}
    (document : Document) (unknown : ∀ field ∈ FieldKey.all, key ∉ field.names) :
    Rewords (before ++ after) (before ++ (key, document) :: after)
  | respelled (before : Entries String Document) {after : Entries String Document}
    {field : FieldKey} {name other : String} (document : Document) (known : field ∈ FieldKey.all)
    (spelled : name ∈ field.names) (likewise : other ∈ field.names)
    (alone : ∀ own ∈ field.names, own ∉ Entries.keys (before ++ after)) :
    Rewords (before ++ (name, document) :: after) (before ++ (other, document) :: after)
  | reordered {fields others : Entries String Document} (distinct : fields.keys.Nodup)
    (perm : fields.Perm others) : Rewords fields others

namespace Resource

/-- A resource that was read from a document or made from a template at hand; both check it. -/
def Valid (resource : Resource) : Prop :=
  (∃ document, ofWire document = .ok resource) ∨
    ∃ template fields, ofTemplate template fields = .ok resource

def beside (r : Resource) : Entries FieldKey (Option Document) :=
  [(.name, some (.text r.name)), (.title, r.title.map .text),
    (.description, r.description.map .text), (.mimeType, r.mimeType.map .text),
    (.metadata, r.metadata.map .object)]

def documents (r : Resource) : Entries FieldKey (Option Document) :=
  (.template, some (.text (String.ofList r.template.text))) :: r.beside

/-- The metadata hold no key twice, at any depth. -/
def Keyed (r : Resource) : Prop :=
  ∀ entries ∈ r.metadata, (Document.object entries).Keyed

def rewritten (document : Document) : Checked Document :=
  (ofWire document).map toWire

end Resource

/-! ## What fields hold -/

deriving instance DecidableEq for FieldKey

namespace FieldKey

variable {field : FieldKey} {fields others before after : Entries String Document}

theorem eq_of_shared_name :
    ∀ field ∈ all, ∀ other ∈ all, ∀ name ∈ field.names, name ∈ other.names → field = other := by
  decide

theorem map_find? : (field.find? fields).map Prod.snd = field.stands? fields := by
  unfold find? stands?
  cases fields.lookup field.wire <;> cases fields.lookup field.plain <;> rfl

theorem stands?_congr (same : ∀ name ∈ field.names, others.lookup name = fields.lookup name) :
    field.stands? others = field.stands? fields := by
  simp only [names, List.forall_mem_cons] at same
  rw [stands?, stands?, same.1, same.2.1]

theorem stands?_of_absent (absent : ∀ own ∈ field.names, own ∉ fields.keys) :
    field.stands? fields = none := by
  simp only [names, List.forall_mem_cons] at absent
  rw [stands?, Entries.lookup_of_absent absent.1, Entries.lookup_of_absent absent.2.1,
    Option.or_none]

theorem stands?_of_alone {name : String} (document : Document) (spelled : name ∈ field.names)
    (alone : ∀ own ∈ field.names, own ∉ Entries.keys (before ++ after)) :
    field.stands? (before ++ (name, document) :: after) = some document := by
  have here : List.lookup name (before ++ (name, document) :: after) = some document := by
    apply Entries.lookup_append_cons_self
    intro member
    apply alone name spelled
    rw [Entries.keys_append]
    exact List.mem_append_left _ member
  by_cases wire : field.wire = name
  · rw [stands?, wire, here, Option.some_or]
  · have plain : field.plain = name := by simpa [names, Ne.symm wire, eq_comm] using spelled
    have unwired : List.lookup field.wire (before ++ (name, document) :: after) = none := by
      rw [Entries.lookup_append_cons_of_ne document wire]
      exact Entries.lookup_of_absent (alone field.wire List.mem_cons_self)
    rw [stands?, unwired, plain, here, Option.none_or]

theorem held?_congr (same : field.stands? others = field.stands? fields) :
    field.held? others = field.held? fields := by
  rw [held?, held?, same]

end FieldKey

/-! ## Reading -/

theorem Checked.both_eq_ok {α β : Type} {first : Checked α} {second : Checked β} {pair : α × β} :
    both first second = .ok pair ↔ first = .ok pair.1 ∧ second = .ok pair.2 := by
  cases first <;> cases second <;> simp [both, Prod.ext_iff]

namespace Resource

open FieldKey

variable {r : Resource} {fields : Entries String Document}

theorem readText_eq_ok {field : FieldKey} {text : Option String} :
    readText field fields = .ok text ↔ field.held? fields = text.map .text := by
  rw [readText, held?, ← map_find?]
  rcases field.find? fields with _ | ⟨key, document⟩
  · cases text <;> simp
  · cases document <;> cases text <;> simp [Checked.fault]

theorem readMetadata_eq_ok {entries : Option (Entries String Document)} :
    readMetadata fields = .ok entries ↔
      FieldKey.metadata.held? fields = entries.map .object := by
  rw [readMetadata, held?, ← map_find?]
  rcases FieldKey.metadata.find? fields with _ | ⟨key, document⟩
  · cases entries <;> simp
  · cases document <;> cases entries <;> simp [Checked.fault]

theorem readName_eq_ok {name : String} :
    readName fields = .ok name ↔ FieldKey.name.held? fields = some (.text name) := by
  rw [readName, held?, ← map_find?]
  rcases FieldKey.name.find? fields with _ | ⟨key, document⟩
  · simp [Checked.fault]
  · cases document <;> simp [Checked.fault]

theorem checkTemplate_eq_ok {key : String} {template checked : Template} :
    checkTemplate key template = .ok checked ↔
      template = checked ∧ ∃ parts, checked.parts = .ok parts := by
  rw [Template.checkTemplate_eq]
  cases read : template.parts with
  | error e =>
    simp only [errorOf, Template.judged, reduceCtorEq, false_iff, not_and]
    rintro rfl
    simp [read]
  | ok parts =>
    simp only [errorOf, Template.judged, Except.ok.injEq, iff_self_and]
    rintro rfl
    exact ⟨parts, read⟩

theorem readTemplate_eq_ok {template : Template} :
    readTemplate fields = .ok template ↔
      FieldKey.template.held? fields = some (.text (String.ofList template.text)) ∧
        ∃ parts, template.parts = .ok parts := by
  rw [readTemplate, held?, ← map_find?]
  rcases FieldKey.template.find? fields with _ | ⟨key, document⟩
  · simp [Checked.fault]
  · cases document with
    | text s =>
      have same : Template.mk s.toList = template ↔ s = String.ofList template.text := by
        rw [← String.toList_inj, String.toList_ofList]
        exact ⟨congrArg Template.text, fun text => by cases template; exact congrArg _ text⟩
      simp [checkTemplate_eq_ok, same]
    | _ => simp [Checked.fault]

theorem assemble_eq_ok {template : Checked Template} :
    assemble template fields = .ok r ↔
      template = .ok r.template ∧ ∀ entry ∈ r.beside, entry.1.held? fields = entry.2 := by
  simp only [beside, List.forall_mem_cons, ← readText_eq_ok, ← readName_eq_ok,
    ← readMetadata_eq_ok]
  rw [assemble, map_eq_ok]
  constructor
  · rintro ⟨fields, read, rfl⟩
    simpa [Checked.both_eq_ok] using read
  · intro read
    refine ⟨(r.template, r.name, r.title, r.description, r.mimeType, r.metadata), ?_, rfl⟩
    simpa [Checked.both_eq_ok] using read

theorem ofWire_eq_ok :
    ofWire (.object fields) = .ok r ↔
      (∃ parts, r.template.parts = .ok parts) ∧
        ∀ entry ∈ r.documents, entry.1.held? fields = entry.2 := by
  rw [ofWire, assemble_eq_ok, readTemplate_eq_ok, documents, List.forall_mem_cons,
    and_right_comm, and_comm]

end Resource

/-! ## Writing -/

namespace FieldKey

/-- Entries for those fields that hold something, under their wire names. -/
def written (entries : Entries FieldKey (Option Document)) : Entries String Document :=
  entries.flatMap fun (field, document) => Resource.optional field.wire document

theorem written_append (before after : Entries FieldKey (Option Document)) :
    written (before ++ after) = written before ++ written after :=
  List.flatMap_append

theorem written_cons (field : FieldKey) (document : Option Document)
    (entries : Entries FieldKey (Option Document)) :
    written ((field, document) :: entries) =
      Resource.optional field.wire document ++ written entries :=
  List.flatMap_cons

variable {entries : Entries FieldKey (Option Document)}

theorem exists_of_mem_keys_written {name : String} (member : name ∈ (written entries).keys) :
    ∃ field ∈ entries.keys, name = field.wire := by
  obtain ⟨entry, inside, rfl⟩ := List.mem_map.mp member
  obtain ⟨⟨field, document⟩, listed, here⟩ := List.mem_flatMap.mp inside
  cases document with
  | none => cases here
  | some document =>
    cases List.mem_singleton.mp here
    exact ⟨field, List.mem_map_of_mem listed, rfl⟩

theorem held?_written (known : ∀ field ∈ entries.keys, field ∈ all) (distinct : entries.keys.Nodup)
    (filled : ∀ entry ∈ entries, entry.2 ≠ some .null) :
    ∀ entry ∈ entries, entry.1.held? (written entries) = entry.2 := by
  rintro ⟨field, document⟩ member
  have notNull := filled _ member
  have fieldKnown := known field (List.mem_map_of_mem member)
  obtain ⟨before, after, rfl⟩ := List.append_of_mem member
  -- no other field is written under a name of this one
  have absent : ∀ own ∈ field.names, own ∉ Entries.keys (written before ++ written after) := by
    intro own spelled inside
    rw [← written_append] at inside
    obtain ⟨other, listed, rfl⟩ := exists_of_mem_keys_written inside
    have otherKnown : other ∈ all := by
      apply known
      rw [Entries.keys_append, List.mem_append] at listed ⊢
      exact listed.imp_right (List.mem_cons_of_mem field)
    obtain rfl := eq_of_shared_name other otherKnown field fieldKnown _ List.mem_cons_self spelled
    exact Entries.not_mem_keys_of_distinct distinct listed
  rw [written_append, written_cons]
  cases document with
  | none =>
    rw [held?, Resource.optional, List.nil_append, stands?_of_absent absent]
  | some document =>
    rw [held?, Resource.optional, List.singleton_append,
      stands?_of_alone document List.mem_cons_self absent]
    cases document with
    | null => exact absurd rfl notNull
    | _ => rfl

end FieldKey

namespace Resource

variable (r : Resource)

theorem toWire_eq : r.toWire = .object (FieldKey.written r.documents) := by
  simp [toWire, FieldKey.written, documents, beside, optional]

theorem keys_documents : r.documents.keys = FieldKey.all := rfl

theorem documents_filled : ∀ entry ∈ r.documents, entry.2 ≠ some .null := by
  simp [documents, beside]

variable {r} {parts : List Part}

theorem ofWire_toWire (wellFormed : r.template.parts = .ok parts) : ofWire r.toWire = .ok r := by
  rw [toWire_eq, ofWire_eq_ok]
  refine ⟨⟨parts, wellFormed⟩, FieldKey.held?_written ?_ ?_ r.documents_filled⟩
  · rw [keys_documents]
    exact fun _ known => known
  · rw [keys_documents]
    decide

theorem Valid.wellFormed (valid : r.Valid) : ∃ parts, r.template.parts = .ok parts := by
  rcases valid with ⟨document, read⟩ | ⟨template, fields, made⟩
  · cases document with
    | object fields => exact (ofWire_eq_ok.mp read).1
    | _ => cases read
  · rw [ofTemplate, assemble_eq_ok, checkTemplate_eq_ok] at made
    exact made.1.2

/-- Any resource with a well-formed template can be read from a document, that of itself. -/
theorem valid_iff : r.Valid ↔ ∃ parts, r.template.parts = .ok parts :=
  ⟨Valid.wellFormed, fun ⟨_, wellFormed⟩ => Or.inl ⟨r.toWire, ofWire_toWire wellFormed⟩⟩

theorem valid_of_wellFormed {template : Template} (wellFormed : template.parts = .ok parts)
    (name : String) : Valid ⟨template, name, none, none, none, none⟩ :=
  valid_iff.mpr ⟨parts, wellFormed⟩

theorem agrees_self (keyed : r.Keyed) : r.agrees r = true := by
  simp only [agrees, decide_true, Bool.true_and]
  cases held : r.metadata with
  | none => rfl
  | some entries => exact Document.agrees_self (keyed entries held)

end Resource

/-! ## Other spellings -/

theorem Rewords.held? {fields others : Entries String Document} (rewords : Rewords fields others)
    {field : FieldKey} (known : field ∈ FieldKey.all) : field.held? others = field.held? fields := by
  apply FieldKey.held?_congr
  cases rewords with
  | extra before document unknown =>
    apply FieldKey.stands?_congr
    intro own spelled
    apply Entries.lookup_append_cons_of_ne
    rintro rfl
    exact unknown field known spelled
  | @respelled before after respelled name other document respelledKnown spelled likewise alone =>
    by_cases same : field = respelled
    · subst same
      rw [FieldKey.stands?_of_alone document spelled alone,
        FieldKey.stands?_of_alone document likewise alone]
    · apply FieldKey.stands?_congr
      intro own ofField
      have apart : ∀ shared ∈ respelled.names, own ≠ shared := by
        rintro _ shared rfl
        exact same (FieldKey.eq_of_shared_name field known respelled respelledKnown own ofField shared)
      rw [Entries.lookup_append_cons_of_ne document (apart name spelled),
        Entries.lookup_append_cons_of_ne document (apart other likewise)]
  | reordered distinct perm =>
    apply FieldKey.stands?_congr
    intro own _
    exact Entries.lookup_perm distinct perm

theorem held?_of_reworded {fields others : Entries String Document}
    (reworded : Relation.ReflTransGen Rewords fields others) {field : FieldKey}
    (known : field ∈ FieldKey.all) : field.held? others = field.held? fields := by
  induction reworded with
  | refl => rfl
  | tail _ last ih => rw [last.held? known, ih]

namespace Resource

/-- What is written is read back as the same resource. The documents that are read as this resource
are those whose fields hold what it has, so other spellings are accepted alike, and all of them are
rewritten to the one document that rewriting leaves as it is. -/
theorem wire_lossless {r : Resource} (valid : r.Valid) :
    ofWire r.toWire = .ok r ∧
      (r.Keyed → r.survivesWire = .ok true) ∧
      (∀ fields, ofWire (.object fields) = .ok r ↔
        ∀ entry ∈ r.documents, entry.1.held? fields = entry.2) ∧
      rewritten r.toWire = .ok r.toWire ∧
      ∀ fields others, ofWire (.object fields) = .ok r →
        Relation.ReflTransGen Rewords fields others →
          ofWire (.object others) = .ok r ∧ rewritten (.object others) = .ok r.toWire := by
  obtain ⟨parts, wellFormed⟩ := valid.wellFormed
  have readBack := ofWire_toWire wellFormed
  have accepted : ∀ fields, ofWire (.object fields) = .ok r ↔
      ∀ entry ∈ r.documents, entry.1.held? fields = entry.2 := by
    intro fields
    rw [ofWire_eq_ok]
    exact and_iff_right ⟨parts, wellFormed⟩
  refine ⟨readBack, ?_, accepted, ?_, ?_⟩
  · intro keyed
    rw [survivesWire, readBack]
    exact congrArg Except.ok (agrees_self keyed)
  · rw [rewritten, readBack]
    rfl
  · intro fields others read reworded
    have again : ofWire (.object others) = .ok r := by
      rw [accepted] at read ⊢
      intro entry member
      have known : entry.1 ∈ FieldKey.all := r.keys_documents ▸ List.mem_map_of_mem member
      rw [held?_of_reworded reworded known, read entry member]
    refine ⟨again, ?_⟩
    rw [rewritten, again]
    rfl

theorem nested_null_kept :
    ∃ (entries fields others : Entries String Document) (r : Resource),
      entries = [("n", .null), ("o", .object [])] ∧
        fields = [("uri_template", .text "/{a}"), ("name", .text ""), ("title", .null),
          ("mime_type", .text ""), ("_meta", .object entries)] ∧
        others = [("x", .null), ("uri_template", .text "/{a}"), ("name", .text ""),
          ("title", .null), ("mimeType", .text ""), ("_meta", .object entries)] ∧
        r.title = none ∧ r.mimeType = some "" ∧ r.metadata = some entries ∧ r.Valid ∧ r.Keyed ∧
        Relation.ReflTransGen Rewords fields others ∧
        ofWire r.toWire = .ok r ∧ r.survivesWire = .ok true ∧
        ofWire (.object fields) = .ok r ∧ ofWire (.object others) = .ok r := by
  let entries : Entries String Document := [("n", .null), ("o", .object [])]
  let start : Entries String Document :=
    [("uri_template", .text "/{a}"), ("name", .text ""), ("title", .null)]
  let fields := start ++ [("mime_type", .text ""), ("_meta", .object entries)]
  let others := ("x", .null) :: start ++ [("mimeType", .text ""), ("_meta", .object entries)]
  let r : Resource := ⟨⟨"/{a}".toList⟩, "", none, none, some "", some entries⟩
  have wellFormed : r.template.parts =
      .ok [.literal ['/'], .expression ⟨.simple, [⟨['a'], none, false⟩]⟩] :=
    Template.ok_of_toOption (by decide +kernel)
  have valid : r.Valid := valid_iff.mpr ⟨_, wellFormed⟩
  have keyed : r.Keyed := by
    rintro _ ⟨⟩
    have empty : Document.Keyed (.object []) := .object .nil nofun
    exact .object (by decide) (List.forall_mem_cons.mpr ⟨.null, List.forall_mem_singleton.mpr empty⟩)
  have longer : Rewords fields (("x", .null) :: fields) := .extra [] .null (by decide)
  have respelled : Rewords (("x", .null) :: fields) others :=
    .respelled (("x", .null) :: start) (.text "") (show FieldKey.mimeType ∈ FieldKey.all by decide)
      (by decide) (by decide) (by decide)
  have reworded : Relation.ReflTransGen Rewords fields others := .tail (.single longer) respelled
  obtain ⟨readBack, survives, accepted, -, spellings⟩ := wire_lossless valid
  have read : ofWire (.object fields) = .ok r := by
    rw [accepted]
    simp only [documents, beside, List.forall_mem_cons]
    exact ⟨rfl, rfl, rfl, rfl, rfl, rfl, nofun⟩
  exact ⟨entries, fields, others, r, rfl, rfl, rfl, rfl, rfl, rfl, valid, keyed, reworded, readBack,
    survives keyed, read, (spellings fields others read reworded).1⟩

end Resource

end UriTemplate
