import TypedMessage.Hex
import TypedMessage.Text.Decimal

/- Integers in texts: an optional minus sign, then `0x` or `0X` and hexadecimal
   digits, or decimal digits with any number of leading zeros. The magnitude has
   to fit 256 bits. After the hexadecimal mark one further `0x` in small letters
   is passed over. -/
namespace TypedMessage

/-- Why a text is no integer. -/
inductive IntegerFault
  | badHex (text : String)
  | badDecimal (text : String)
  | tooLarge (text : String)
  deriving DecidableEq, Repr

def IntegerFault.message : IntegerFault → String
  | badHex text => "invalid hex integer: " ++ text
  | badDecimal text => "invalid decimal integer: " ++ text
  | tooLarge text => "integer exceeds 256 bits: " ++ text

namespace Integer

/-- The text after a minus sign, and whether there was one. -/
def splitSign : List Char → Bool × List Char
  | '-' :: cs => (true, cs)
  | cs => (false, cs)

/-- The text after a hexadecimal mark, if it starts with one. -/
def afterMark? : List Char → Option (List Char)
  | '0' :: 'x' :: cs => some cs
  | '0' :: 'X' :: cs => some cs
  | _ => none

/-- The text after one further mark in small letters. -/
def dropMark : List Char → List Char
  | '0' :: 'x' :: cs => cs
  | cs => cs

/-- The number after a hexadecimal mark: one to 64 bytes, of which a further mark
    counts as two. -/
def readHex? (cs : List Char) : Option Nat :=
  if cs.isEmpty || 64 < (utf8 (String.ofList cs)).length then none
  else ((dropMark cs).mapM Hex.digitValue?).map Hex.value

/-- The magnitude written after the sign; `text` is what a fault shows. -/
def readMagnitude (text : String) (cs : List Char) : Except IntegerFault Nat :=
  match afterMark? cs with
  | some ds => match readHex? ds with
    | some n => .ok n
    | none => .error (.badHex text)
  | none => match Text.readDecimal? cs with
    | some n => if n < 2 ^ 256 then .ok n else .error (.tooLarge text)
    | none => .error (.badDecimal text)

/-- Reads an integer. Minus zero is zero. -/
def read (text : String) : Except IntegerFault Int := do
  let (negative, cs) := splitSign text.toList
  let n ← readMagnitude text cs
  return if negative then -(n : Int) else n

end Integer
end TypedMessage
