import TypedMessage.Json.Skip
import TypedMessage.Text.Decimal

/- Reading a value of a known shape straight from the text: texts, truth values,
   optional values, and records. A record is written as an object, whose members
   may stand in any order among members that are not looked at, or as a list with
   the members in their order. -/
namespace TypedMessage.Json

/-- A number as it appears in a message: integers of 64 bits, signed or not, are
    named, and every other number is `other`. -/
def Found.ofNumber (other : Found) (text : String) : Found :=
  match text.toList with
  | '-' :: ds => match Text.readDecimal? ds with
    | some n => if 0 < n ∧ n ≤ 2 ^ 63 then integer text else other
    | none => other
  | ds => match Text.readDecimal? ds with
    | some n => if n < 2 ^ 64 then integer text else other
    | none => other

/-- What stands at the front of a text that was meant to hold `expected`. A
    container is recognised by its bracket, everything else is read. -/
def unexpectedAt (expected : String) (s : List Char) : Fault :=
  let found : Except Fault Found := match s with
    | [] => .error .endInValue
    | '[' :: _ => .ok .list
    | '\x7b' :: _ => .ok .object
    | s => do match (← readValueWith none s).1 with
      | bool b => return .bool b
      | number t => return .ofNumber .number t
      | string t => return .string t
      | _ => return .null
  match found with
  | .ok f => .unexpected f expected
  | .error e => e

/-- Reads a text. -/
def readText : Read String := fun s =>
  match skipSpace s with
  | '"' :: s => readString s
  | s => .error (unexpectedAt "a string" s)

/-- Reads a truth value. -/
def readBool : Read Bool := fun s =>
  match skipSpace s with
  | 't' :: s => do return (true, ← readWord "rue".toList s)
  | 'f' :: s => do return (false, ← readWord "alse".toList s)
  | s => .error (unexpectedAt "a boolean" s)

/-- Reads an `α`, or null for none. -/
def readOption {α : Type} (read : Read α) : Read (Option α) := fun s =>
  match skipSpace s with
  | 'n' :: s => do return (none, ← readWord "ull".toList s)
  | s => do
    let (a, s) ← read s
    return (some a, s)

/-- A member of a record with drafts `σ`: how its value is read into a draft, and
    whether a draft has it already. A member with `mayEnd` may be missing from
    the end of a list. -/
structure Member (σ : Type) where
  name : String
  has : σ → Bool
  read : σ → Read σ
  mayEnd : Bool

/-- The member `name`, kept by `put`. -/
def Member.of {σ α : Type} (name : String) (get : σ → Option α) (put : σ → α → σ)
    (read : Read α) (mayEnd : Bool) : Member σ where
  name
  has d := (get d).isSome
  read d s := do
    let (a, s) ← read s
    return (put d a, s)
  mayEnd

/-- The shape of a record: drafts start at `draft` and `complete` turns a full
    draft into a value, or names the member that is missing. -/
structure Record (σ α : Type) where
  title : String
  members : List (Member σ)
  draft : σ
  complete : σ → Except Fault α

namespace Record
variable {σ α : Type}

/-- Takes the member with this key, whose colon comes next. -/
def takeMember (R : Record σ α) (d : σ) (key : String) : Read σ := fun s =>
  match R.members.find? (·.name = key) with
  | none => do
    let s ← skipValue (← readColon s)
    return (d, s)
  | some m =>
    if m.has d then .error (.repeatedMember key)
    else do m.read d (← readColon s)

/-- The text after the closing bracket of a list whose items are all read. -/
def closeList (s : List Char) : Except Fault (List Char) :=
  match skipSpace s with
  | [] => .error .endInList
  | c :: s =>
    if c = ']' then .ok s
    else if c = ',' ∧ (skipSpace s).head? = some ']' then .error .trailingComma
    else .error .trailingText

/-- Takes these members in order, `taken` items having been read. -/
def takeItems (R : Record σ α) : (taken : Nat) → List (Member σ) → σ → Read σ
  | _, [], d, s => do return (d, ← closeList s)
  | taken, m :: ms, d, s => do
    match ← listTurn (taken = 0) s with
    | .close s =>
      if (m :: ms).all (·.mayEnd) then return (d, s)
      else .error (.wrongLength taken
        (R.title ++ " with " ++ toString R.members.length ++ " elements"))
    | .item s =>
      let (d, s) ← m.read d s
      takeItems R (taken + 1) ms d s

/-- Reads a record. What is missing is told as soon as no member is left. -/
def read (R : Record σ α) : Read α := fun s =>
  match skipSpace s with
  | '\x7b' :: s => do
    let (d, s) ← foldMembers R.takeMember s.length true R.draft s
    return (← R.complete d, s)
  | '[' :: s => do
    let (d, s) ← R.takeItems 0 R.members R.draft s
    return (← R.complete d, s)
  | s => .error (unexpectedAt R.title s)

end Record
end TypedMessage.Json
