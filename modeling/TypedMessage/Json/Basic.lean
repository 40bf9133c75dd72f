import TypedMessage.Dict

/- JSON values. A number is kept as its text, so no digit of it is lost. The
   members of an object stand in a list; in a value that was read they are in
   ascending order of their keys (`Json.Ordered`), and an object that is only
   written may have them in any order. -/
namespace TypedMessage

inductive Json
  | null
  | bool (b : Bool)
  | number (text : String)
  | string (s : String)
  | array (items : List Json)
  | object (members : List (String × Json))
  deriving Inhabited

namespace Json

/-- The kinds of values. -/
inductive Kind
  | null
  | bool
  | number
  | string
  | array
  | object
  deriving DecidableEq, Repr

def Kind.name : Kind → String
  | .null => "null"
  | .bool => "bool"
  | .number => "number"
  | .string => "string"
  | .array => "array"
  | .object => "object"

def kind : Json → Kind
  | null => .null
  | bool _ => .bool
  | number _ => .number
  | string _ => .string
  | array _ => .array
  | object _ => .object

/-- The object with the entries of a map as its members. -/
def ofDict (d : Dict Json) : Json := object d.entries

/-- A text, or null where there is none. -/
def ofText? : Option String → Json
  | none => null
  | some s => string s

mutual

/-- Every object in the value has its members in ascending order. -/
def Ordered : Json → Prop
  | array items => OrderedItems items
  | object members => Ascending members ∧ OrderedMembers members
  | _ => True

def OrderedItems : List Json → Prop
  | [] => True
  | v :: vs => Ordered v ∧ OrderedItems vs

def OrderedMembers : List (String × Json) → Prop
  | [] => True
  | (_, v) :: ms => Ordered v ∧ OrderedMembers ms

end

mutual

/-- How many containers are nested in one another. -/
def depth : Json → Nat
  | array items => depthItems items + 1
  | object members => depthMembers members + 1
  | _ => 0

def depthItems : List Json → Nat
  | [] => 0
  | v :: vs => max (depth v) (depthItems vs)

def depthMembers : List (String × Json) → Nat
  | [] => 0
  | (_, v) :: ms => max (depth v) (depthMembers ms)

end

end Json
end TypedMessage
