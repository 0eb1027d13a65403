import EntityGraph.Entity.Document
import EntityGraph.Files
import EntityGraph.Schema.Compact.Reader

/-!
# Schema sources

A schema is written as a compact document or as a JSON entity document that declares classes and
constraints itself. Of a file, the ending of its name says which of the two it is.
-/

namespace EntityGraph

/-- Why a source gives no schema. -/
inductive SourceError where
  | compact (error : Compact.ReadError)
  | entity (error : EntityError)
  | schema (error : SchemaError)
  /-- A file whose ending is none of the known ones. -/
  | unsupportedFormat (path : String)
  /-- A file that is not there, or holds no text. -/
  | unreadableFile (path : String)
  deriving DecidableEq, Repr

/-- The text of an error. -/
def SourceError.message : SourceError → String
  | .compact error => error.message
  | .entity error => error.message
  | .schema error => error.message
  | .unsupportedFormat path => "Unsupported schema source: " ++ path
  | .unreadableFile path => "I/O error: cannot read " ++ path

namespace Schema

/-- The schema of a compact document. -/
def ofCompact (text : String) : Except SourceError Schema :=
  match Compact.Document.parse text with
  | .error e => .error (.compact e)
  | .ok doc =>
    match doc.schema with
    | .error e => .error (.schema e)
    | .ok schema => .ok schema

/-- The schema of an entity document. -/
def ofEntityDocument (text : String) : Except SourceError Schema :=
  match Document.parse text with
  | .error e => .error (.entity e)
  | .ok c => .ok (.ofCollection c)

/-- The schema in a file. The file is read before the ending of its name is looked at. -/
def ofFile (files : Files) (path : String) : Except SourceError Schema :=
  match files.read? path with
  | none => .error (.unreadableFile path)
  | some text =>
    match Path.ending? path with
    | some "yaml" => ofCompact text
    | some "yml" => ofCompact text
    | some "json" => ofEntityDocument text
    | _ => .error (.unsupportedFormat path)

end Schema

end EntityGraph
