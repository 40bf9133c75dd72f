import TypedMessage.Fault
import TypedMessage.Log.Redaction

/- Log lines: a level, the part of the program that speaks, a message, and fields
   with redacted values. -/
namespace TypedMessage.Log

inductive Level
  | debug
  | warn
  deriving DecidableEq, Repr

def Level.name : Level → String
  | debug => "DEBUG"
  | warn => "WARN"

structure Entry where
  level : Level
  source : String
  message : String
  fields : List (String × String) := []
  deriving DecidableEq, Repr

namespace Entry

/-- A field as it is written. -/
def renderField? (f : String × String) : Option String :=
  (redact? f.1 f.2).map fun v => f.1 ++ "=" ++ v

/-- The line of an entry, unless one of its values cannot be redacted. -/
def render? (e : Entry) : Option String := do
  let fields := " ".intercalate (← e.fields.mapM renderField?)
  let line := e.level.name ++ " [" ++ e.source ++ "] " ++ e.message
  return if fields.isEmpty then line else line ++ " | " ++ fields

end Entry

/-- What the encoder notes for debugging when it fails. -/
def ofFault? : Fault → Option Entry
  | .undefinedType name =>
    some ⟨.debug, "eip712", "struct type not in schema", [("type_name", name)]⟩
  | .unsupported type version =>
    some ⟨.debug, "eip712", "array field rejected", [("type_name", type), ("version", version.tag)]⟩
  | _ => none

end TypedMessage.Log
