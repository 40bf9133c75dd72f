import TypedMessage.Schema.Dependencies

/- Canonical type strings: a struct's own definition, then those of the structs
   it leads to in ascending order of their names. -/
namespace TypedMessage

/-- A field in a type string: its type, a blank, its name. -/
def Field.typeString (f : Field) : String := f.type ++ " " ++ f.name

/-- The definition of one struct: `Name(type name,type name)`. -/
def definition (name : String) (fields : List Field) : String :=
  name ++ "(" ++ ",".intercalate (fields.map Field.typeString) ++ ")"

namespace Schema

/-- The type string of a struct; empty if it is not defined. -/
def typeString (s : Schema) (primary : String) : String :=
  let ds := s.dependencies primary
  match ds.get? primary with
  | none => ""
  | some fields =>
    definition primary fields ++
      String.join ((ds.entries.filter (·.1 ≠ primary)).map fun e => definition e.1 e.2)

end Schema
end TypedMessage
