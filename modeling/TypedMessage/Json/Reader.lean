import TypedMessage.Json.Basic
import TypedMessage.Json.Lexeme

/- Reading JSON values. Lists and objects are read by two loops that know only
   brackets, commas and colons; a value may nest at most `maxDepth` containers. -/
namespace TypedMessage.Json

/-- What follows inside a container: one more item, or nothing after the
    closing bracket. Both carry the text that is left. -/
inductive Turn
  | item (rest : List Char)
  | close (rest : List Char)

/-- The next item of a list. -/
def listTurn (first : Bool) (s : List Char) : Except Fault Turn :=
  match skipSpace s with
  | [] => .error .endInList
  | c :: s =>
    if c = ']' then .ok (.close s)
    else if first then .ok (.item (c :: s))
    else if c = ',' then
      match skipSpace s with
      | [] => .error .endInValue
      | c :: s => if c = ']' then .error .trailingComma else .ok (.item (c :: s))
    else .error .expectedListSeparator

/-- The next member of an object; the rest starts inside the key. -/
def objectTurn (first : Bool) (s : List Char) : Except Fault Turn :=
  match skipSpace s with
  | [] => .error .endInObject
  | c :: s =>
    if c = '\x7d' then .ok (.close s)
    else if first then if c = '"' then .ok (.item s) else .error .keyNotString
    else if c = ',' then
      match skipSpace s with
      | [] => .error .endInValue
      | c :: s =>
        if c = '"' then .ok (.item s)
        else if c = '\x7d' then .error .trailingComma
        else .error .keyNotString
    else .error .expectedObjectSeparator

/-- The text after the colon between a key and its value. -/
def readColon (s : List Char) : Except Fault (List Char) :=
  match skipSpace s with
  | [] => .error .endInObject
  | c :: s => if c = ':' then .ok s else .error .expectedColon

/-- The items of a list up to its closing bracket. -/
def readItems {α : Type} (item : Read α) : (bound : Nat) → (first : Bool) → Read (List α)
  | 0, _, _ => .error .endInList
  | n + 1, first, s => do
    match ← listTurn first s with
    | .close s => return ([], s)
    | .item s =>
      let (a, s) ← item s
      let (as, s) ← readItems item n false s
      return (a :: as, s)

/-- The members of an object up to its closing bracket, taken into `acc` one
    after the other. `step` gets the key and the text in front of the colon. -/
def foldMembers {σ : Type} (step : σ → String → Read σ) :
    (bound : Nat) → (first : Bool) → (acc : σ) → Read σ
  | 0, _, _, _ => .error .endInObject
  | n + 1, first, acc, s => do
    match ← objectTurn first s with
    | .close s => return (acc, s)
    | .item s =>
      let (k, s) ← readString s
      let (acc, s) ← step acc k s
      foldMembers step n false acc s

/-- The list whose opening bracket was just read. -/
def readList {α : Type} (item : Read α) : Read (List α) := fun s => readItems item s.length true s

/-- The object whose opening bracket was just read. Of two members with one key
    the later counts. -/
def readObject {α : Type} (item : Read α) : Read (Dict α) := fun s =>
  foldMembers (fun d k s => do
    let s ← readColon s
    let (a, s) ← item s
    return (d.insert k a, s)) s.length true Dict.empty s

/-- A value; `inner` reads the values inside a container, and is absent where no
    container may be opened. -/
def readValueWith (inner : Option (Read Json)) : Read Json := fun s =>
  match skipSpace s with
  | [] => .error .endInValue
  | 'n' :: s => do return (null, ← readWord "ull".toList s)
  | 't' :: s => do return (bool true, ← readWord "rue".toList s)
  | 'f' :: s => do return (bool false, ← readWord "alse".toList s)
  | '"' :: s => do
    let (t, s) ← readString s
    return (string t, s)
  | '[' :: s => match inner with
    | none => .error .tooDeep
    | some item => do
      let (vs, s) ← readList item s
      return (array vs, s)
  | '\x7b' :: s => match inner with
    | none => .error .tooDeep
    | some item => do
      let (d, s) ← readObject item s
      return (ofDict d, s)
  | c :: s =>
    if startsNumber c then do
      let (t, s) ← readNumber .endInValue (c :: s)
      return (number t, s)
    else .error .expectedValue

/-- A value that nests at most `depth` containers. -/
def readValue : (depth : Nat) → Read Json
  | 0 => readValueWith none
  | d + 1 => readValueWith (some (readValue d))

/-- The number of containers that may be nested in one text. -/
def maxDepth : Nat := 127

/-- The one thing a text holds, with nothing but blanks around it. -/
def document {α : Type} (read : Read α) (s : String) : Except Fault α := do
  let (a, rest) ← read s.toList
  if (skipSpace rest).isEmpty then return a else .error .trailingText

/-- Reads a text that holds one value. -/
def parse (s : String) : Except Fault Json := document (readValue maxDepth) s

end TypedMessage.Json
