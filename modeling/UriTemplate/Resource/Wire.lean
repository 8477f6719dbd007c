import UriTemplate.Resource.Basic

/-! Resources read from documents and written to them. -/

set_option autoImplicit false

namespace UriTemplate

/-- The two names of a field. A document may use either; of both it is the wire name that counts,
whatever stands under it. -/
structure FieldKey where
  wire : String
  plain : String

namespace FieldKey

def template : FieldKey := ⟨"uriTemplate", "uri_template"⟩
def name : FieldKey := ⟨"name", "name"⟩
def title : FieldKey := ⟨"title", "title"⟩
def description : FieldKey := ⟨"description", "description"⟩
def mimeType : FieldKey := ⟨"mimeType", "mime_type"⟩
def metadata : FieldKey := ⟨"_meta", "metadata"⟩

def find? (key : FieldKey) (fields : List (String × Document)) : Option (String × Document) :=
  match fields.lookup key.wire with
  | some document => some (key.wire, document)
  | none => (fields.lookup key.plain).map (key.plain, ·)

end FieldKey

namespace Resource

/-- Only a well-formed template is taken, so that later uses of it cannot fail. -/
def checkTemplate (key : String) (template : Template) : Checked Template :=
  match template.labels with
  | .ok _ => .ok template
  | .error e => Checked.fault key (.badTemplate e)

def readTemplate (fields : List (String × Document)) : Checked Template :=
  match FieldKey.template.find? fields with
  | none => Checked.fault FieldKey.template.wire .missing
  | some (key, .text s) => checkTemplate key ⟨s.toList⟩
  | some (key, other) => Checked.fault key (.notTemplate other.kindName)

def readName (fields : List (String × Document)) : Checked String :=
  match FieldKey.name.find? fields with
  | none => Checked.fault FieldKey.name.wire .missing
  | some (_, .text s) => .ok s
  | some (key, _) => Checked.fault key .notText

def readText (key : FieldKey) (fields : List (String × Document)) : Checked (Option String) :=
  match key.find? fields with
  | none | some (_, .null) => .ok none
  | some (_, .text s) => .ok (some s)
  | some (key, _) => Checked.fault key .notText

def readMetadata (fields : List (String × Document)) :
    Checked (Option (List (String × Document))) :=
  match FieldKey.metadata.find? fields with
  | none | some (_, .null) => .ok none
  | some (_, .object entries) => .ok (some entries)
  | some (key, _) => Checked.fault key .notObject

def assemble (template : Checked Template) (fields : List (String × Document)) : Checked Resource :=
  (Checked.both template
    (Checked.both (readName fields)
      (Checked.both (readText .title fields)
        (Checked.both (readText .description fields)
          (Checked.both (readText .mimeType fields) (readMetadata fields)))))).map
    fun (template, name, title, description, mimeType, metadata) =>
      { template, name, title, description, mimeType, metadata }

def ofWire : Document → Checked Resource
  | .object fields => assemble (readTemplate fields) fields
  | _ => .error [⟨[], .notResource⟩]

def ofTemplate (template : Template) (fields : List (String × Document)) : Checked Resource :=
  assemble (checkTemplate FieldKey.template.plain template) fields

def optional (key : String) : Option Document → List (String × Document)
  | none => []
  | some document => [(key, document)]

/-- Only fields that hold something are written. -/
def toWire (r : Resource) : Document :=
  .object <|
    (FieldKey.template.wire, .text (String.ofList r.template.text)) ::
    (FieldKey.name.wire, .text r.name) ::
    (optional FieldKey.title.wire (r.title.map .text) ++
      optional FieldKey.description.wire (r.description.map .text) ++
      optional FieldKey.mimeType.wire (r.mimeType.map .text) ++
      optional FieldKey.metadata.wire (r.metadata.map .object))

def toRecord (r : Resource) : Document :=
  .object
    [(FieldKey.template.plain, .text (String.ofList r.template.text)),
      (FieldKey.name.plain, .text r.name),
      (FieldKey.title.plain, (r.title.map .text).getD .null),
      (FieldKey.description.plain, (r.description.map .text).getD .null),
      (FieldKey.mimeType.plain, (r.mimeType.map .text).getD .null),
      (FieldKey.metadata.plain, (r.metadata.map .object).getD .null)]

def survivesWire (r : Resource) : Checked Bool :=
  return (← ofWire r.toWire).agrees r

end Resource

end UriTemplate
