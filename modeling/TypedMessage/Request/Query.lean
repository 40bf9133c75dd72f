import TypedMessage.Request.Basic

/- Queries: a request together with the name of the type that is asked about. The
   whole text is read before its members are looked at, apart from `typeName`,
   and only objects are queries. -/
namespace TypedMessage

structure Query where
  request : Request
  typeName : Option String

namespace Json

/-- A value as it appears in a message about a member that was read ahead. Numbers
    outside 64 bits were kept as objects. -/
def foundAhead : Json → Found
  | number t => .ofNumber .object t
  | v => v.found

/-- The text of a member that was read ahead. -/
def textAhead : Json → Except Fault String
  | string s => .ok s
  | v => .error (.unexpected v.foundAhead "a string")

end Json

namespace Request.Draft

/-- The draft with the member of this key, if a request has such a member. -/
def put (d : Draft) (key : String) (v : Json) : Except Json.Fault Draft :=
  let once {α : Type} (old : Option α) (new : Except Json.Fault Draft) :=
    if old.isSome then .error (.repeatedMember key) else new
  match key with
  | "types" => once d.types (.ok { d with types := some v })
  | "primaryType" => once d.primaryType do return { d with primaryType := some (← v.textAhead) }
  | "domain" => once d.domain (.ok { d with domain := some v })
  | "message" => once d.message (.ok { d with message := some v })
  | "version" => once d.version (match v with
    | .null => .ok { d with version := some none }
    | v => do return { d with version := some (← versionOfTag (← v.textAhead)) })
  | _ => .ok d

end Request.Draft

namespace Query

/-- What was read of a query: the type name, and the other members in order. -/
structure Draft where
  typeName : Option (Option String) := none
  members : List (String × Json) := []

/-- Takes the member with this key, whose colon comes next. -/
def takeMember (d : Draft) (key : String) : Json.Read Draft := fun s =>
  if key = "typeName" then
    if d.typeName.isSome then .error (.repeatedMember key)
    else do
      let (t, s) ← Json.readOption Json.readText (← Json.readColon s)
      return ({ d with typeName := some t }, s)
  else do
    let (v, s) ← Request.readInner (← Json.readColon s)
    return ({ d with members := d.members ++ [(key, v)] }, s)

/-- The query of a draft. -/
def Draft.complete (d : Draft) : Except Json.Fault Query := do
  let r ← d.members.foldlM (fun r m => r.put m.1 m.2) ({} : Request.Draft)
  return ⟨← r.complete, d.typeName.getD none⟩

/-- How messages name the shape of a query. -/
def title : String := "struct TypeQuery"

/-- Reads a query off the front of a text. -/
def read : Json.Read Query := fun s =>
  match Json.skipSpace s with
  | '\x7b' :: s => do
    let (d, s) ← Json.foldMembers takeMember s.length true {} s
    return (← d.complete, s)
  | s => .error (Json.unexpectedAt title s)

/-- Reads a query. -/
def parse (s : String) : Except Json.Fault Query := Json.document read s

/-- The type that is asked about: the request's own where none is named. -/
def target (q : Query) : String := q.typeName.getD q.request.primaryType

end Query
end TypedMessage
