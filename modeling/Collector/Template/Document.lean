import Collector.Group.Connection
import Collector.Json.Reader

/-!
# Template documents

A template is a JSON object that a collector is configured by. Its author writes most of it; the
compiled groups are written into a few of its fields, and all others stay as they are.
-/

namespace Collector

/-- The fields of a template. -/
abbrev Document := Entries Json

/-- A change of a document. A change that fails keeps what it has changed before. -/
abbrev Edit := ExceptT Error (StateM Document) Unit

namespace Document

/-- Reads a value as a document. -/
def ofJson : Option Json → Outcome Document
  | some (.object fields) => .ok fields
  | _ => .error .documentNotObject

/-- The text of a document: indented, with a line end at last. -/
def text (document : Document) : String := Json.pretty (.object document) ++ "\n"

/-- Reads the text of a document. The path names its file in the message. -/
def ofText (path text : String) : Outcome Document :=
  match Json.parse? text with
  | none => .error .json
  | some (.object fields) => .ok fields
  | some _ => .error (.fileNotObject path)

/-! ## Sections -/

/-- The object under a name, which is empty if there is nothing. -/
def sectionFields? (document : Document) (name : String) : Option (Entries Json) :=
  match Entries.get? document name with
  | none => some []
  | some value => value.fields?

/-- Changes the object under a name. -/
def editSection (name : String) (change : Entries Json → Entries Json) : Edit := do
  let document ← get
  match sectionFields? document name with
  | some fields => set (Entries.put document name (.object (change fields)))
  | none => throw (.sectionNotObject name)

/-- The name of the section for requests. -/
def connectionName : String := "connection"

/-- The name of the section for context variables. -/
def contextDefinitionName : String := "contextDefinition"

/-- Makes sure that both sections exist. -/
def materialize : Edit := do
  editSection connectionName id
  editSection contextDefinitionName id

/-! ## Changes -/

/-- The value of the field for compiled transform functions. -/
def transformValue (default : Option String) (handlers : Entries String) : Json :=
  .object <|
    (default.toList.map fun body => ("default", Json.string body)) ++
      [("errorHandlers", .object (Entries.mapValues Json.string handlers))]

/-- Replaces the compiled transform functions. -/
def setTransform (default : Option String) (handlers : Entries String) : Edit :=
  modify fun document => Entries.put document "transform" (transformValue default handlers)

/-- Tells whether functions take all subjects at once, or says nothing about it. -/
def setBulk (bulk : Option Bool) : Edit :=
  editSection connectionName fun fields =>
    match bulk with
    | some value => Entries.put fields "bulk" (.bool value)
    | none => Entries.remove fields "bulk"

/-- The field that an endpoint is written to. -/
def endpointField : Endpoint → String × Json
  | .url text => ("url", .string text)
  | .toUrl body => ("toUrl", .string body)

/-- Writes an endpoint in the place of the old one, and headers if there are any. -/
def patchConnection (endpoint : Endpoint) (headers : Option Json) : Edit :=
  editSection connectionName fun fields =>
    let others := Entries.remove (Entries.remove fields "url") "toUrl"
    let (name, value) := endpointField endpoint
    let patched := Entries.put others name value
    match headers with
    | some headers => Entries.put patched "headers" headers
    | none => patched

/-- Writes the definitions of context variables, each in the place of the old one. -/
def mergeSchema (schema : Schema) : Edit :=
  editSection contextDefinitionName fun fields =>
    Entries.putAll fields (Entries.mapValues Variable.toJson schema)

end Document

/-- Writes a transform group into a document. -/
def TransformArtifacts.apply (artifacts : TransformArtifacts) : Edit := do
  Document.materialize
  Document.setTransform artifacts.default artifacts.errorHandlers
  Document.setBulk (artifacts.convention.map Convention.isBulk)
  Document.mergeSchema artifacts.schema

/-- Writes a connection group into a document. -/
def ConnectionArtifacts.apply (artifacts : ConnectionArtifacts) : Edit := do
  Document.materialize
  Document.patchConnection artifacts.endpoint artifacts.headers
  Document.mergeSchema artifacts.schema

/-- Runs a change: whether it succeeds, and the document as it leaves it. -/
def Edit.apply (edit : Edit) (document : Document) : Outcome Unit × Document :=
  (ExceptT.run edit).run document

end Collector
