import TypedMessage.Json.Basic
import TypedMessage.Hex

/- Writing JSON values. Only quotation marks, backslashes and control characters
   are escaped. One printer serves both layouts: on one line without blanks, or
   one item a line, two blanks deeper for every container. -/
namespace TypedMessage.Json

inductive Layout
  | compact
  | indented
  deriving DecidableEq, Repr

/-- What separates the parts of a container at this level. -/
def Layout.lineBreak : Layout → (level : Nat) → List Char
  | compact, _ => []
  | indented, level => '\n' :: List.replicate (2 * level) ' '

/-- What stands between a key and its value. -/
def Layout.keySeparator : Layout → List Char
  | compact => [':']
  | indented => [':', ' ']

/-- The two digits of a control character. -/
def controlDigits (c : Char) : List Char := [Hex.digit (c.toNat / 16), Hex.digit (c.toNat % 16)]

/-- A character of a string. -/
def printChar (c : Char) : List Char :=
  if c = '"' then ['\\', '"']
  else if c = '\\' then ['\\', '\\']
  else if c = '\x08' then ['\\', 'b']
  else if c = '\t' then ['\\', 't']
  else if c = '\n' then ['\\', 'n']
  else if c = '\x0c' then ['\\', 'f']
  else if c = '\r' then ['\\', 'r']
  else if c.toNat < 0x20 then ['\\', 'u', '0', '0'] ++ controlDigits c
  else [c]

/-- A string with its quotation marks. -/
def printString (s : String) : List Char := '"' :: s.toList.flatMap printChar ++ ['"']

mutual

/-- A value inside `level` containers. -/
def printAt (l : Layout) (level : Nat) : Json → List Char
  | null => "null".toList
  | bool true => "true".toList
  | bool false => "false".toList
  | number t => t.toList
  | string s => printString s
  | array [] => ['[', ']']
  | array (v :: vs) =>
    '[' :: l.lineBreak (level + 1) ++ printAt l (level + 1) v ++ printItems l level vs
  | object [] => ['\x7b', '\x7d']
  | object ((k, v) :: ms) =>
    '\x7b' :: l.lineBreak (level + 1) ++ printString k ++ l.keySeparator ++
      printAt l (level + 1) v ++ printMembers l level ms

/-- The items of a list after the first, and its closing bracket. -/
def printItems (l : Layout) (level : Nat) : List Json → List Char
  | [] => l.lineBreak level ++ [']']
  | v :: vs =>
    ',' :: l.lineBreak (level + 1) ++ printAt l (level + 1) v ++ printItems l level vs

/-- The members of an object after the first, and its closing bracket. -/
def printMembers (l : Layout) (level : Nat) : List (String × Json) → List Char
  | [] => l.lineBreak level ++ ['\x7d']
  | (k, v) :: ms =>
    ',' :: l.lineBreak (level + 1) ++ printString k ++ l.keySeparator ++
      printAt l (level + 1) v ++ printMembers l level ms

end

/-- The text of a value. -/
def print (l : Layout) (v : Json) : String := String.ofList (printAt l 0 v)

/-- The text of a value on one line. -/
def compact (v : Json) : String := print .compact v

/-- The text of a value on many lines. -/
def pretty (v : Json) : String := print .indented v

end TypedMessage.Json
