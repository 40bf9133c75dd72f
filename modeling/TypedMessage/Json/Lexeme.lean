import TypedMessage.Json.Fault
import TypedMessage.Hex

/- The smallest parts of a JSON text: blanks, words, numbers and strings. A
   reader takes the characters that are left and returns what it read with the
   characters after it. -/
namespace TypedMessage.Json

/-- Reads an `α` off the front of a text. -/
abbrev Read (α : Type) := List Char → Except Fault (α × List Char)

/-- The four blanks that may stand between the parts of a text. -/
def isSpace (c : Char) : Bool := c = ' ' || c = '\n' || c = '\t' || c = '\r'

def skipSpace (s : List Char) : List Char := s.dropWhile isSpace

/-- The text after these letters. -/
def readWord : List Char → List Char → Except Fault (List Char)
  | [], s => .ok s
  | _ :: _, [] => .error .endInValue
  | l :: ls, c :: s => if c = l then readWord ls s else .error .expectedWord

/-! ## Numbers -/

/-- The digits after an exponent's sign, at least one. -/
def readExponentDigits (atEnd : Fault) : Read (List Char)
  | [] => .error atEnd
  | c :: s =>
    if c.isDigit then .ok (c :: s.takeWhile Char.isDigit, s.dropWhile Char.isDigit)
    else .error .badNumber

/-- An exponent, if there is one. It is kept with a small letter and a sign. -/
def readExponent (atEnd : Fault) : Read (List Char)
  | c :: s =>
    if c = 'e' ∨ c = 'E' then
      let (sign, s) := match s with
        | '-' :: s => ('-', s)
        | '+' :: s => ('+', s)
        | s => ('+', s)
      do let (ds, s) ← readExponentDigits atEnd s
         return ('e' :: sign :: ds, s)
    else .ok ([], c :: s)
  | [] => .ok ([], [])

/-- A fraction, if there is one, and an exponent, if there is one. -/
def readFraction (atEnd : Fault) : Read (List Char)
  | '.' :: s =>
    match s.takeWhile Char.isDigit, s.dropWhile Char.isDigit with
    | [], [] => .error atEnd
    | [], _ => .error .badNumber
    | ds, s => do
      let (e, s) ← readExponent atEnd s
      return ('.' :: ds ++ e, s)
  | s => readExponent atEnd s

/-- A number without a sign; no second digit follows a leading zero. -/
def readMagnitude (atEnd : Fault) : Read (List Char)
  | [] => .error atEnd
  | c :: s =>
    if c.isDigit then
      if c = '0' then
        if (s.head?.any Char.isDigit) then .error .badNumber
        else do
          let (f, s) ← readFraction atEnd s
          return ('0' :: f, s)
      else do
        let (f, s') ← readFraction atEnd (s.dropWhile Char.isDigit)
        return (c :: s.takeWhile Char.isDigit ++ f, s')
    else .error .badNumber

/-- A number. A text that ends inside it is at fault as `atEnd` says. -/
def readNumber (atEnd : Fault) : Read String
  | '-' :: s => do
    let (m, s) ← readMagnitude atEnd s
    return (String.ofList ('-' :: m), s)
  | s => do
    let (m, s) ← readMagnitude atEnd s
    return (String.ofList m, s)

/-- A number starts here. -/
def startsNumber (c : Char) : Bool := c = '-' || c.isDigit

/-! ## Strings -/

/-- The value of four hexadecimal digits. -/
def readFourDigits : Read Nat
  | a :: b :: c :: d :: s =>
    match [a, b, c, d].mapM Hex.digitValue? with
    | some vs => .ok (Hex.value vs, s)
    | none => .error .badEscape
  | s => if (utf8 (String.ofList s)).length < 4 then .error .endInString else .error .badEscape

/-- A character that has an escape of its own. -/
def shortEscape? : Char → Option Char
  | '"' => some '"'
  | '\\' => some '\\'
  | '/' => some '/'
  | 'b' => some '\x08'
  | 'f' => some '\x0c'
  | 'n' => some '\n'
  | 'r' => some '\r'
  | 't' => some '\t'
  | _ => none

/-- The unit is the first of a surrogate pair. -/
def isLeading (n : Nat) : Bool := 0xd800 ≤ n && n ≤ 0xdbff

/-- The unit is the second of a surrogate pair. -/
def isTrailing (n : Nat) : Bool := 0xdc00 ≤ n && n ≤ 0xdfff

/-- The character after `\u`: one unit of four digits, or a surrogate pair. -/
def readUnicode : Read Char := fun s => do
  let (n, s) ← readFourDigits s
  if isTrailing n then .error .loneSurrogate
  else if isLeading n then
    match s with
    | [] => .error .endInString
    | ['\\'] => .error .endInString
    | '\\' :: 'u' :: s => do
      let (m, s) ← readFourDigits s
      if isTrailing m then
        return (Char.ofNat (0x10000 + (n - 0xd800) * 0x400 + (m - 0xdc00)), s)
      else .error .loneSurrogate
    | _ => .error .unpairedSurrogate
  else return (Char.ofNat n, s)

/-- The character after `\u` in a string that is not kept: any four digits. -/
def skipUnicode : Read Char := fun s => do
  let (_, s) ← readFourDigits s
  return ('\ufffd', s)

/-- The character after a backslash. -/
def readEscape (unicode : Read Char) : Read Char
  | [] => .error .endInString
  | 'u' :: s => unicode s
  | c :: s => match shortEscape? c with
    | some d => .ok (d, s)
    | none => .error .badEscape

/-- The characters up to the closing quotation mark. Each step takes at least
    one character, so a bound of the text's length is never short. -/
def readStringBody (unicode : Read Char) : (bound : Nat) → Read (List Char)
  | 0, _ => .error .endInString
  | _ + 1, [] => .error .endInString
  | n + 1, c :: s =>
    if c = '"' then .ok ([], s)
    else if c = '\\' then do
      let (d, s) ← readEscape unicode s
      let (ds, s) ← readStringBody unicode n s
      return (d :: ds, s)
    else if c.toNat < 0x20 then .error .controlCharacter
    else do
      let (ds, s) ← readStringBody unicode n s
      return (c :: ds, s)

/-- The string whose opening quotation mark was just read. -/
def readString : Read String := fun s => do
  let (cs, s) ← readStringBody readUnicode s.length s
  return (String.ofList cs, s)

end TypedMessage.Json
