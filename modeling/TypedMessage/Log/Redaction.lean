import TypedMessage.Bytes
import TypedMessage.Text.Blank

/- What of a logged value may be seen. The key decides: a value that may be
   payload is hidden, an address or a hash keeps its two ends, all else is shown.
   Lengths are counted in bytes; a cut that falls inside a character is refused. -/
namespace TypedMessage.Log

/-- What happens to the value of a key. -/
inductive Rule
  | hide
  | shortenAddress
  | shortenHash
  | keep
  deriving DecidableEq, Repr

def payloadWords : List String := ["message", "payload", "value", "contents", "salt"]
def addressWords : List String := ["address", "wallet", "contract", "from", "to"]
def hashWords : List String := ["hash", "digest", "separator"]

/-- The rule for a key: the first list of which a word occurs in it decides. Case
    is folded in ASCII. Outside ASCII only the Kelvin sign and the dotted capital I
    have small forms with ASCII letters; no word has a k, and the dot that stays
    behind the i keeps `digest` from occurring. -/
def Rule.ofKey (key : String) : Rule :=
  let small := Text.lower key
  if payloadWords.any (Text.contains small) then .hide
  else if addressWords.any (Text.contains small) then .shortenAddress
  else if hashWords.any (Text.contains small) then .shortenHash
  else .keep

/-- The length of a text in bytes. -/
def byteLength (s : String) : Nat := (utf8 s).length

/-- The characters that make up the first `n` bytes. -/
def takeBytes? : (n : Nat) → List Char → Option (List Char)
  | 0, _ => some []
  | _ + 1, [] => none
  | n + 1, c :: cs =>
    if c.utf8Size ≤ n + 1 then (takeBytes? (n + 1 - c.utf8Size) cs).map (c :: ·) else none

/-- The characters after the first `n` bytes. -/
def dropBytes? : (n : Nat) → List Char → Option (List Char)
  | 0, cs => some cs
  | _ + 1, [] => none
  | n + 1, c :: cs => if c.utf8Size ≤ n + 1 then dropBytes? (n + 1 - c.utf8Size) cs else none

/-- The first `front` and the last `back` bytes of a text. -/
def ends? (front back : Nat) (s : String) : Option String := do
  let a ← takeBytes? front s.toList
  let b ← dropBytes? (byteLength s - back) s.toList
  return String.ofList a ++ "..." ++ String.ofList b

/-- Nothing of a value but its length, and not even that of a short one. -/
def hidden (s : String) : String :=
  if s.isEmpty then "[EMPTY]"
  else if byteLength s ≤ 4 then "[REDACTED]"
  else "[REDACTED:" ++ toString (byteLength s) ++ "chars]"

/-- The text starts with a hexadecimal mark. -/
def isMarked (s : String) : Bool := "0x".toList.isPrefixOf s.toList

/-- Both ends of an address; one that would keep less than four bytes hidden is
    hidden as a whole. -/
def shortAddress? (s : String) : Option String :=
  let t := Text.trim s
  let front := if isMarked t then 8 else 6
  if t.isEmpty then some "[EMPTY]"
  else if byteLength t ≤ front + 4 + 3 then some (hidden t)
  else ends? front 4 t

/-- Both ends of a hash; one of at most twenty bytes is kept. -/
def shortHash? (s : String) : Option String :=
  let t := Text.trim s
  if byteLength t ≤ 20 then some t
  else ends? (if isMarked t then 12 else 10) 6 t

/-- The value as it may be seen, unless a cut falls inside a character. -/
def redact? (key value : String) : Option String :=
  match Rule.ofKey key with
  | .hide => some (hidden value)
  | .shortenAddress => shortAddress? value
  | .shortenHash => shortHash? value
  | .keep => some value

end TypedMessage.Log
