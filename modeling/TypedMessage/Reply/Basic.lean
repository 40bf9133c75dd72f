import TypedMessage.Json.Record
import TypedMessage.Json.Printer
import TypedMessage.Session

/- Replies to callers: either data, or a failure with a code, a message and
   possibly details. -/
namespace TypedMessage

/-- What sort of failure a caller is told. -/
inductive FailureCode
  | invalidInput
  | invalidSchema
  | undefinedType
  | invalidType
  | malformedValue
  | unsupportedVersion
  | parseError
  | internal
  deriving DecidableEq, Repr

namespace FailureCode

/-- All codes, in the order in which messages list them. -/
def all : List FailureCode :=
  [invalidInput, invalidSchema, undefinedType, invalidType, malformedValue, unsupportedVersion,
    parseError, internal]

theorem mem_all (c : FailureCode) : c ∈ all := by cases c <;> decide

/-- The code in a reply. -/
def tag : FailureCode → String
  | invalidInput => "invalid_input"
  | invalidSchema => "invalid_schema"
  | undefinedType => "undefined_type"
  | invalidType => "invalid_type"
  | malformedValue => "malformed_value"
  | unsupportedVersion => "unsupported_version"
  | parseError => "parse_error"
  | internal => "internal"

/-- The code as it is shown to a reader. -/
def name : FailureCode → String
  | invalidInput => "InvalidInput"
  | invalidSchema => "InvalidSchema"
  | undefinedType => "UndefinedType"
  | invalidType => "InvalidType"
  | malformedValue => "MalformedValue"
  | unsupportedVersion => "UnsupportedVersion"
  | parseError => "ParseError"
  | internal => "Internal"

/-- The code with this tag. -/
def ofTag (t : String) : Except Json.Fault FailureCode :=
  match all.find? (·.tag = t) with
  | some c => .ok c
  | none => .error (.unknownWord t (all.map tag))

theorem ofTag_tag (c : FailureCode) : ofTag c.tag = .ok c := by cases c <;> rfl

end FailureCode

structure Failure where
  code : FailureCode
  message : String
  details : Option String := none
  deriving DecidableEq, Repr

namespace Failure

/-- The failure as it is shown to a reader. -/
def display (f : Failure) : String :=
  "[" ++ f.code.name ++ "] " ++ f.message ++
    (f.details.map fun d => " (" ++ d ++ ")").getD ""

/-- The failure of a fault. -/
def ofFault (fault : Fault) : Failure where
  code := match fault with
    | .schema _ => .invalidSchema
    | .undefinedType _ => .undefinedType
    | .unsupported _ _ => .unsupportedVersion
    | .invalidType _ => .invalidType
    | .malformed _ _ => .malformedValue
    | .request _ => .invalidInput
  message := fault.message

def toJson (f : Failure) : Json :=
  .object [("code", .string f.code.tag), ("message", .string f.message),
    ("details", .ofText? f.details)]

end Failure

/-- What is told about a struct type. -/
structure TypeAnswer where
  typeName : String
  encodedType : String
  typeHash : String
  deriving DecidableEq, Repr

def TypeAnswer.toJson (a : TypeAnswer) : Json :=
  .object [("typeName", .string a.typeName), ("encodedType", .string a.encodedType),
    ("typeHash", .string a.typeHash)]

/-- The answer as it is written. -/
def TypeAnswer.write? (a : TypeAnswer) : Option Json := some a.toJson

/-- The three words of a digest, in hexadecimal, as members of an object. -/
def SigningHash.members (d : SigningHash) : List (String × Json) :=
  [("digest", .string (Hex.encode d.digest.bytes)),
    ("domainSeparator", .string (Hex.encode d.domainSeparator.bytes)),
    ("structHash", .string (Hex.encode d.structHash.bytes))]

/-- What is told about a digest. -/
structure DigestAnswer where
  primaryType : String
  version : Version
  hash : SigningHash
  deriving DecidableEq

def DigestAnswer.toJson (a : DigestAnswer) : Json :=
  .object ([("primaryType", .string a.primaryType), ("version", .string a.version.tag)] ++
    a.hash.members)

/-- Members in front of those of a part that is merged with them; only the members of an
    object can be. -/
def Json.flatten? (members : List (String × Json)) : Json → Option Json
  | .object part => some (.object (members ++ part))
  | _ => none

/-- The answer as it is written, the words of the digest merged into it. -/
def DigestAnswer.write? (a : DigestAnswer) : Option Json :=
  Json.flatten? [("primaryType", .string a.primaryType), ("version", .string a.version.tag)]
    (.object a.hash.members)

/-- A reply, with all three members always present. -/
structure Reply (α : Type) where
  success : Bool
  data : Option α
  error : Option Failure
  deriving DecidableEq, Repr

namespace Reply
variable {α : Type}

/-- The reply that carries data. -/
def ok (a : α) : Reply α := ⟨true, some a, none⟩

/-- The reply that carries a failure. -/
def fail (f : Failure) : Reply α := ⟨false, none, some f⟩

/-- The reply to a computation. -/
def ofExcept : Except Failure α → Reply α
  | .ok a => ok a
  | .error f => fail f

def toJson (data : α → Json) (r : Reply α) : Json :=
  .object [("success", .bool r.success), ("data", (r.data.map data).getD .null),
    ("error", (r.error.map Failure.toJson).getD .null)]

/-- The text of a reply. -/
def render (data : α → Json) (r : Reply α) : String := (r.toJson data).compact

/-- A reply as it is written, if its data can be. -/
def write? (data : α → Option Json) (r : Reply α) : Option Json := do
  let data ← match r.data with
    | none => some .null
    | some a => data a
  return .object [("success", .bool r.success), ("data", data),
    ("error", (r.error.map Failure.toJson).getD .null)]

/-- The text in place of a reply that cannot be written. -/
def unwritten : String :=
  "\x7b\"success\":false,\"error\":\x7b\"code\":\"internal\",\"message\":" ++
    "\"Serialization failed\"\x7d\x7d"

/-- The text that callers are given. -/
def text (data : α → Option Json) (r : Reply α) : String :=
  ((r.write? data).map Json.compact).getD unwritten

end Reply
end TypedMessage
