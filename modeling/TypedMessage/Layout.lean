import TypedMessage.Schema.TypeString
import TypedMessage.Slot

/- The slots of typed values. `Session.layoutField` follows the declared type and
   the value together; every step into an array or a struct goes to a smaller
   value, so it ends on every schema, cyclic ones included. -/
namespace TypedMessage

/-- What an encoding depends on: the schema, the version, and whether integers
    have to fit their declared width. -/
structure Session where
  schema : Schema
  version : Version := .default
  enforceWidth : Bool := false

/-! ## Leaves -/

namespace Json

/-- The text of a string value. -/
def asText : Json → Except Malformation String
  | string s => .ok s
  | v => .error (.wrongKind "string" v.kind)

/-- The bytes of a hexadecimal string value. -/
def asBytes (v : Json) : Except Malformation Bytes := do
  (Hex.decode (← v.asText)).mapError .badHex

/-- The integer of a number or of a string value; blanks around a string do not
    count. -/
def asInteger : Json → Except Malformation Int
  | number t => (Integer.read t).mapError .badInteger
  | string s => (Integer.read (Text.trim s)).mapError .badInteger
  | v => .error (.wrongKind "integer" v.kind)

end Json

namespace Leaf

/-- The word of an unsigned integer. -/
def uintWord (enforce : Bool) (bits : Nat) (n : Int) : Except Malformation Word :=
  if n < 0 then .error .negative
  else if enforce ∧ (2 ^ bits : Int) ≤ n then .error (.exceeds bits)
  else .ok (.ofInt n)

/-- The word of a signed integer. -/
def intWord (enforce : Bool) (bits : Nat) (n : Int) : Except Malformation Word :=
  let width := if enforce then bits else 256
  if -(2 ^ (width - 1) : Int) ≤ n ∧ n < (2 ^ (width - 1) : Int) then .ok (.ofInt n)
  else .error (.exceeds width)

/-- The slot of a value of a leaf type. -/
def slot (enforce : Bool) : Leaf → Json → Except Malformation Slot
  | text, v => do return .content (utf8 (← v.asText))
  | bytes, v => do return .content (← v.asBytes)
  | bool, v => match v with
    | .bool b => .ok (.word (.ofBool b))
    | v => .error (.wrongKind "bool" v.kind)
  | address, v => do
    let bs ← v.asBytes
    if h : bs.length = 20 then .ok (.word (.padLeft bs (by omega)))
    else .error (.addressLength bs.length)
  | fixedBytes size size_le, v => do
    let bs ← v.asBytes
    if h : bs.length ≤ size then .ok (.word (.padRight bs (Nat.le_trans h size_le)))
    else .error (.tooLong bs.length size)
  | uint bits, v => do return .word (← uintWord enforce bits (← v.asInteger))
  | int bits, v => do return .word (← intWord enforce bits (← v.asInteger))

end Leaf

/-! ## Arrays and structs -/

namespace Session

/-- The slots of a field that is absent from its struct. -/
def absentSlots (s : Session) : List Slot :=
  match s.version with
  | .v3 => []
  | .v4 => [.word .zero]

/-- The slots of a struct whose value is of kind `kind`: the hash of its type
    string, then its fields in order, each laid out by `member`. -/
def structSlots (s : Session) (name : String) (kind : Json.Kind)
    (member : Field → Except Fault (Option Slot)) : Except Fault (List Slot) :=
  match s.schema.get? name with
  | none => .error (.undefinedType name)
  | some fields =>
    if kind = .object then do
      let slots ← fields.mapM member
      return .content (utf8 (s.schema.typeString name)) ::
        slots.flatMap fun p => p.elim s.absentSlots ([·])
    else .error (.malformed name (.wrongKind "object" kind))

mutual

/-- The slot of a value of a declared type. -/
def layoutField (s : Session) (type : String) (v : Json) : Except Fault Slot :=
  match FieldType.parse? type with
  | none => .error (.invalidType type)
  | some (.leaf l) => (l.slot s.enforceWidth v).mapError (.malformed type)
  | some (.array element length) =>
    if s.version.hasArrays then
      match v with
      | .array items =>
        match length.filter (· ≠ items.length) with
        | some expected => .error (.malformed type (.elementCount expected items.length))
        | none => do return .group (← layoutItems s element items)
      | v => .error (.malformed type (.wrongKind "array" v.kind))
    else .error (.unsupported type s.version)
  | some (.struct name) =>
    match v with
    | .object members => do
      return .group (← s.structSlots name .object fun f => layoutMember s f members)
    | v => do return .group (← s.structSlots name v.kind fun _ => .ok none)

/-- The slots of the elements of an array. -/
def layoutItems (s : Session) (element : String) : List Json → Except Fault (List Slot)
  | [] => .ok []
  | v :: vs => do
    let p ← layoutField s element v
    let ps ← layoutItems s element vs
    return p :: ps

/-- The slot of a field of a struct, if the struct has such a member. -/
def layoutMember (s : Session) (f : Field) : List (String × Json) → Except Fault (Option Slot)
  | [] => .ok none
  | (k, v) :: ms =>
    if k = f.name then do return some (← layoutField s f.type v) else layoutMember s f ms

end

/-- The slots of a struct, its type hash in front. -/
def layoutData (s : Session) (name : String) (v : Json) : Except Fault (List Slot) :=
  match v with
  | .object members => s.structSlots name .object fun f => s.layoutMember f members
  | v => s.structSlots name v.kind fun _ => .ok none

end Session
end TypedMessage
