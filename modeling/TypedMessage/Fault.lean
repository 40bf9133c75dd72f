import TypedMessage.Integer
import TypedMessage.Json.Basic
import TypedMessage.Json.Fault
import TypedMessage.Version

/- What can be wrong with a schema, a value or a request. Each fault keeps its
   cause; the wording is in `message` alone. -/
namespace TypedMessage

/-- Why a value is not a schema. -/
inductive SchemaFault
  | notObject (kind : Json.Kind)
  | entry (name : String) (fault : Json.Fault)
  deriving DecidableEq, Repr

def SchemaFault.message : SchemaFault → String
  | notObject kind => "expected an object of types, got " ++ kind.name
  | entry name fault => name ++ ": " ++ fault.message

/-- Why a value is not one of its declared type. -/
inductive Malformation
  | wrongKind (expected : String) (got : Json.Kind)
  | badHex (fault : HexFault)
  | badInteger (fault : IntegerFault)
  | addressLength (length : Nat)
  | tooLong (length size : Nat)
  | negative
  | exceeds (bits : Nat)
  | elementCount (expected got : Nat)
  deriving DecidableEq, Repr

def Malformation.message : Malformation → String
  | wrongKind expected got => "expected " ++ expected ++ ", got " ++ got.name
  | badHex fault => fault.message
  | badInteger fault => fault.message
  | addressLength length => "expected 20 bytes, got " ++ toString length
  | tooLong length size => "bytes too long: " ++ toString length ++ " > " ++ toString size
  | negative => "negative value for unsigned type"
  | exceeds bits => "value exceeds " ++ toString bits ++ " bits"
  | elementCount expected got =>
    "expected " ++ toString expected ++ " elements, got " ++ toString got

/-- Why a text is not a request. -/
inductive RequestFault
  | unknownVersion (tag : String)
  | json (fault : Json.Fault)
  deriving DecidableEq, Repr

def RequestFault.message : RequestFault → String
  | unknownVersion tag => "unknown version: " ++ tag
  | json fault => fault.message

inductive Fault
  | schema (fault : SchemaFault)
  | undefinedType (name : String)
  | unsupported (type : String) (version : Version)
  | invalidType (type : String)
  | malformed (type : String) (reason : Malformation)
  | request (fault : RequestFault)
  deriving DecidableEq, Repr

def Fault.message : Fault → String
  | schema fault => "Invalid schema: " ++ fault.message
  | undefinedType name => "Undefined type: " ++ name
  | unsupported type version => "Type " ++ type ++ " is not supported by " ++ version.tag
  | invalidType type => "Invalid type: " ++ type
  | malformed type reason => "Invalid value for type " ++ type ++ ": " ++ reason.message
  | request fault => "Invalid request: " ++ fault.message

/-- Reads a version tag, or says which tag is unknown. -/
def Version.read (tag : String) : Except Fault Version :=
  match Version.ofTag? tag with
  | some v => .ok v
  | none => .error (.request (.unknownVersion tag))

end TypedMessage
