import TypedMessage.Fault
import TypedMessage.FieldType

/- Schemas: struct names, each with its fields in order. A schema is read from an
   object whose members are lists of fields; a field is an object with the
   members `name` and `type`, or a list of those two texts. -/
namespace TypedMessage

/-- A field of a struct, with its declared type. -/
structure Field where
  name : String
  type : String
  deriving DecidableEq, Repr

/-- The structs that are defined, in byte order of their names. -/
abbrev Schema := Dict (List Field)

namespace Json

/-- A value as it appears in a message; its numbers are not told apart. -/
def found : Json → Found
  | null => .null
  | bool b => .bool b
  | number _ => .number
  | string s => .string s
  | array _ => .list
  | object _ => .object

/-- The text that a value is. -/
def toText : Json → Except Fault String
  | string s => .ok s
  | v => .error (.unexpected v.found "a string")

end Json

namespace Field

/-- How messages name the shape of a field. -/
def title : String := "struct TypedDataField"

/-- The fault of a list with too few items. -/
def tooShort (length : Nat) : Json.Fault := .wrongLength length (title ++ " with 2 elements")

/-- Reads a field. -/
def ofJson : Json → Except Json.Fault Field
  | .object ms => do
    let name ← (findEntry "name" ms).mapM Json.toText
    let type ← (findEntry "type" ms).mapM Json.toText
    match name, type with
    | none, _ => .error (.missingMember "name")
    | _, none => .error (.missingMember "type")
    | some name, some type => .ok ⟨name, type⟩
  | .array [] => .error (tooShort 0)
  | .array (v :: vs) => do
    let name ← v.toText
    match vs with
    | [] => .error (tooShort 1)
    | w :: more => do
      let type ← w.toText
      if more.isEmpty then return ⟨name, type⟩
      else .error (.wrongLength (more.length + 2) "fewer elements in array")
  | v => .error (.unexpected v.found title)

/-- Reads the fields of a struct. -/
def listOfJson : Json → Except Json.Fault (List Field)
  | .array vs => vs.mapM ofJson
  | v => .error (.unexpected v.found "a sequence")

/-- A field as an object. -/
def toJson (f : Field) : Json := .object [("name", .string f.name), ("type", .string f.type)]

end Field

namespace Schema

/-- Takes the entries of a schema in the order in which they stand. -/
def addEntries : Schema → List (String × Json) → Except SchemaFault Schema
  | s, [] => .ok s
  | s, (name, v) :: ms =>
    match Field.listOfJson v with
    | .ok fields => addEntries (s.insert name fields) ms
    | .error fault => .error (.entry name fault)

/-- Reads a schema. -/
def ofJson : Json → Except SchemaFault Schema
  | .object ms => addEntries Dict.empty ms
  | v => .error (.notObject v.kind)

/-- A schema as an object. -/
def toJson (s : Schema) : Json :=
  .object (s.entries.map fun e => (e.1, .array (e.2.map Field.toJson)))

end Schema
end TypedMessage
