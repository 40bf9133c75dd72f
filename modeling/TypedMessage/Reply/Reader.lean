import TypedMessage.Reply.Basic

/- Reading replies back. Data, failure and details may be missing from an object or
   be null; a failure code is a string, or an object with the code as its one key
   and null as its value. -/
namespace TypedMessage

namespace FailureCode

/-- A code is written as the key of an object with one member, whose value is null. -/
def readKeyed : Json.Read FailureCode := fun s => do
  let (t, s) ← match Json.skipSpace s with
    | [] => .error .endInObject
    | '"' :: s => Json.readString s
    | '\x7d' :: _ => .error .expectedValue
    | _ => .error .keyNotString
  let c ← ofTag t
  let s ← Json.readColon s
  let s ← match Json.skipSpace s with
    | 'n' :: s => Json.readWord "ull".toList s
    | s => .error (Json.unexpectedAt "unit" s)
  match Json.skipSpace s with
  | [] => .error .endInObject
  | b :: s => if b = '\x7d' then return (c, s) else .error .expectedValue

/-- Reads a code. -/
def read : Json.Read FailureCode := fun s =>
  match Json.skipSpace s with
  | [] => .error .endInValue
  | '"' :: s => do
    let (t, s) ← Json.readString s
    return (← ofTag t, s)
  | '\x7b' :: s => readKeyed s
  | _ => .error .expectedValue

end FailureCode

namespace Failure

structure Draft where
  code : Option FailureCode := none
  message : Option String := none
  details : Option (Option String) := none

def Draft.complete (d : Draft) : Except Json.Fault Failure :=
  match d.code, d.message with
  | none, _ => .error (.missingMember "code")
  | _, none => .error (.missingMember "message")
  | some code, some message => .ok ⟨code, message, d.details.getD none⟩

/-- How a failure is read. -/
def record : Json.Record Draft Failure where
  title := "struct CoreError"
  members := [
    .of "code" Draft.code (fun d c => { d with code := some c }) FailureCode.read false,
    .of "message" Draft.message (fun d m => { d with message := some m }) Json.readText false,
    .of "details" Draft.details (fun d m => { d with details := some m })
      (Json.readOption Json.readText) false]
  draft := {}
  complete := Draft.complete

end Failure

namespace TypeAnswer

structure Draft where
  typeName : Option String := none
  encodedType : Option String := none
  typeHash : Option String := none

def Draft.complete (d : Draft) : Except Json.Fault TypeAnswer :=
  match d.typeName, d.encodedType, d.typeHash with
  | none, _, _ => .error (.missingMember "typeName")
  | _, none, _ => .error (.missingMember "encodedType")
  | _, _, none => .error (.missingMember "typeHash")
  | some typeName, some encodedType, some typeHash => .ok ⟨typeName, encodedType, typeHash⟩

/-- How the data about a struct type are read. -/
def record : Json.Record Draft TypeAnswer where
  title := "struct EncodeTypeResponse"
  members := [
    .of "typeName" Draft.typeName (fun d t => { d with typeName := some t }) Json.readText false,
    .of "encodedType" Draft.encodedType (fun d t => { d with encodedType := some t })
      Json.readText false,
    .of "typeHash" Draft.typeHash (fun d t => { d with typeHash := some t }) Json.readText false]
  draft := {}
  complete := Draft.complete

end TypeAnswer

namespace Reply

structure Draft (α : Type) where
  success : Option Bool := none
  data : Option (Option α) := none
  error : Option (Option Failure) := none

def Draft.complete {α : Type} (d : Draft α) : Except Json.Fault (Reply α) :=
  match d.success with
  | none => .error (.missingMember "success")
  | some success => .ok ⟨success, d.data.getD none, d.error.getD none⟩

/-- How a reply is read whose data are read by `data`. -/
def record {α : Type} (data : Json.Read α) : Json.Record (Draft α) (Reply α) where
  title := "struct ApiResponse"
  members := [
    .of "success" Draft.success (fun d b => { d with success := some b }) Json.readBool false,
    .of "data" Draft.data (fun d a => { d with data := some a }) (Json.readOption data) false,
    .of "error" Draft.error (fun d f => { d with error := some f })
      (Json.readOption Failure.record.read) false]
  draft := {}
  complete := Draft.complete

/-- Reads a reply about a struct type. -/
def parse (s : String) : Except Json.Fault (Reply TypeAnswer) :=
  Json.document (record TypeAnswer.record.read).read s

end Reply
end TypedMessage
