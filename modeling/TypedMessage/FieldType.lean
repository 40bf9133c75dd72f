import TypedMessage.Bytes
import TypedMessage.Text.Decimal

/- Declared types of fields. A type that ends in a closing bracket is an array
   `T[]` or `T[k]` or nothing; every other text is a type: one of the atomic
   words and sizes, or else the name of a struct. -/
namespace TypedMessage

/-- Types whose values contain no other typed value. A byte string of fixed size
    fits into one word. -/
inductive Leaf
  | text
  | bytes
  | bool
  | address
  | fixedBytes (size : Nat) (size_le : size ≤ 32)
  | uint (bits : Nat)
  | int (bits : Nat)
  deriving DecidableEq, Repr

/-- A declared type: an array of `length` elements, or of any number of them; a
    leaf; or a struct. -/
inductive FieldType
  | array (element : String) (length : Option Nat)
  | leaf (l : Leaf)
  | struct (name : String)
  deriving DecidableEq, Repr

namespace Leaf

/-- Leaves that are encoded in place: all but `string` and `bytes`. -/
def isAtomic : Leaf → Bool
  | text | bytes => false
  | _ => true

/-- The decimal numeral after `word`, written without a leading zero. -/
def sizeAfter? (word : String) (t : List Char) : Option Nat :=
  if word.toList.isPrefixOf t then
    let ds := t.drop word.toList.length
    if ds.head? = some '0' then none else Text.readDecimal? ds
  else none

/-- A width an integer type may have. -/
def isWidth (n : Nat) : Bool := 8 ≤ n && n ≤ 256 && n % 8 == 0

/-- The type of byte strings of this size, which is between 1 and 32. -/
def ofSize? (n : Nat) : Option Leaf :=
  if h : 1 ≤ n ∧ n ≤ 32 then some (fixedBytes n h.2) else none

/-- The leaf type with this name. -/
def ofName? (t : List Char) : Option Leaf :=
  if t = "string".toList then some text
  else if t = "bytes".toList then some bytes
  else if t = "bool".toList then some bool
  else if t = "address".toList then some address
  else
    ((sizeAfter? "bytes" t).bind ofSize?) <|>
    ((sizeAfter? "uint" t).filter isWidth).map uint <|>
    ((sizeAfter? "int" t).filter isWidth).map int

end Leaf

namespace FieldType

/-- The text in front of the first opening bracket. -/
def baseList (t : List Char) : List Char := t.takeWhile (· ≠ '[')

/-- The type without its array suffix. -/
def base (t : String) : String := String.ofList (baseList t.toList)

/-- The length between the brackets: nothing, or a numeral below 2^64 that may
    carry a plus sign. The outer `none` is a text that is neither. -/
def readLength? : List Char → Option (Option Nat)
  | [] => some none
  | ds =>
    let numeral := if ds.head? = some '+' then ds.drop 1 else ds
    ((Text.readDecimal? numeral).filter (· < 2 ^ 64)).map some

/-- Reads a text that ends in a closing bracket: an element type that is not
    empty, one opening bracket, and a length. -/
def readArray? (t : List Char) : Option FieldType :=
  match baseList t, t.dropWhile (· ≠ '[') with
  | [], _ => none
  | _, [] => none
  | element, _ :: inside =>
    if '[' ∈ inside then none
    else (readLength? inside.dropLast).map (array (String.ofList element))

/-- Reads a declared type; only a text that ends in a closing bracket can fail. -/
def parse? (t : String) : Option FieldType :=
  if t.toList.getLast? = some ']' then readArray? t.toList
  else match Leaf.ofName? t.toList with
    | some l => some (leaf l)
    | none => some (struct t)

/-- The type is encoded in place. -/
def isAtomic : FieldType → Bool
  | leaf l => l.isAtomic
  | _ => false

end FieldType
end TypedMessage
