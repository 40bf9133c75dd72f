import TypedMessage.Json.Record
import TypedMessage.Json.Printer
import TypedMessage.Session
import TypedMessage.Settings

/- Signing requests: type definitions, the type of the message, a domain, a
   message, and possibly a version. The type definitions are kept as a value and
   read only when a session is opened. -/
namespace TypedMessage

structure Request where
  types : Json
  primaryType : String
  domain : Json
  message : Json
  version : Option Version

namespace Request

/-- A request of which not every member is known. -/
structure Draft where
  types : Option Json := none
  primaryType : Option String := none
  domain : Option Json := none
  message : Option Json := none
  version : Option (Option Version) := none

/-- The request of a draft, or the first member that is missing from it. -/
def Draft.complete (d : Draft) : Except Json.Fault Request :=
  match d.types, d.primaryType, d.domain, d.message with
  | none, _, _, _ => .error (.missingMember "types")
  | _, none, _, _ => .error (.missingMember "primaryType")
  | _, _, none, _ => .error (.missingMember "domain")
  | _, _, _, none => .error (.missingMember "message")
  | some types, some primaryType, some domain, some message =>
    .ok ⟨types, primaryType, domain, message, d.version.getD none⟩

/-- The version with this tag, as a member of a JSON text. -/
def versionOfTag (tag : String) : Except Json.Fault Version :=
  (Version.read tag).mapError fun fault => .refused fault.message

/-- Reads a version. -/
def readVersion : Json.Read Version := fun s => do
  let (tag, s) ← Json.readText s
  return (← versionOfTag tag, s)

/-- The values in a request; the request is itself a container around them. -/
def readInner : Json.Read Json := Json.readValue (Json.maxDepth - 1)

/-- How a request is read. -/
def record : Json.Record Draft Request where
  title := "struct TypedDataRequest"
  members := [
    .of "types" Draft.types (fun d v => { d with types := some v }) readInner false,
    .of "primaryType" Draft.primaryType (fun d s => { d with primaryType := some s })
      Json.readText false,
    .of "domain" Draft.domain (fun d v => { d with domain := some v }) readInner false,
    .of "message" Draft.message (fun d v => { d with message := some v }) readInner false,
    .of "version" Draft.version (fun d v => { d with version := some v })
      (Json.readOption readVersion) true]
  draft := {}
  complete := Draft.complete

/-- Reads a request. -/
def parse (s : String) : Except Fault Request :=
  (Json.document record.read s).mapError fun fault => .request (.json fault)

/-- The request as an object. A version that is not set is left out. -/
def toJson (r : Request) : Json :=
  .object (
    [("types", r.types), ("primaryType", .string r.primaryType), ("domain", r.domain),
      ("message", r.message)] ++
    (r.version.map fun v => ("version", Json.string v.tag)).toList)

/-- The version a request is encoded under: its own, or else that of the settings. -/
def effectiveVersion (r : Request) (settings : Settings) : Version :=
  r.version.getD settings.version

/-- The session a request opens. -/
def session (r : Request) (settings : Settings) : Except Fault Session := do
  let schema ← (Schema.ofJson r.types).mapError .schema
  return ⟨schema, r.effectiveVersion settings, settings.enforceWidth⟩

/-- The digest a request asks to sign. -/
def signingHash (h : Hash) (r : Request) (settings : Settings) : Except Fault SigningHash := do
  let s ← r.session settings
  s.signingHash h r.primaryType r.message r.domain

end Request
end TypedMessage
