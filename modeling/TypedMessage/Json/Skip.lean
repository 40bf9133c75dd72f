import TypedMessage.Json.Reader

/- Passing over a value that nobody asked for. Its brackets, commas and words are
   checked, but its containers may nest without limit, a `\u` escape may spell
   half a surrogate pair, and a text that ends inside a number is a bad number. -/
namespace TypedMessage.Json

/-- The text after a string that is not kept. -/
def skipString (s : List Char) : Except Fault (List Char) := do
  let (_, s) ← readStringBody skipUnicode s.length s
  return s

mutual

/-- The text after a value. -/
def skipValueWithin : (bound : Nat) → List Char → Except Fault (List Char)
  | 0, _ => .error .endInValue
  | n + 1, s => match skipSpace s with
    | [] => .error .endInValue
    | 'n' :: s => readWord "ull".toList s
    | 't' :: s => readWord "rue".toList s
    | 'f' :: s => readWord "alse".toList s
    | '"' :: s => skipString s
    | '[' :: s => skipItems n true s
    | '\x7b' :: s => skipMembers n true s
    | c :: s =>
      if startsNumber c then do
        let (_, s) ← readNumber .badNumber (c :: s)
        return s
      else .error .expectedValue

/-- The text after the items of a list and its closing bracket. -/
def skipItems : (bound : Nat) → (first : Bool) → List Char → Except Fault (List Char)
  | 0, _, _ => .error .endInList
  | n + 1, first, s => match skipSpace s with
    | [] => .error .endInList
    | c :: s =>
      if c = ']' then .ok s
      else if first then do
        let s ← skipValueWithin n (c :: s)
        skipItems n false s
      else if c = ',' then do
        let s ← skipValueWithin n s
        skipItems n false s
      else .error .expectedListSeparator

/-- The text after the members of an object and its closing bracket. -/
def skipMembers : (bound : Nat) → (first : Bool) → List Char → Except Fault (List Char)
  | 0, _, _ => .error .endInObject
  | n + 1, first, s => match skipSpace s with
    | [] => .error .endInObject
    | c :: s =>
      if c = '\x7d' then .ok s
      else do
        let s ← if first then pure (c :: s)
          else if c = ',' then pure s
          else .error .expectedObjectSeparator
        match skipSpace s with
        | [] => .error .endInObject
        | c :: s =>
          if c = '"' then do
            let s ← readColon (← skipString s)
            let s ← skipValueWithin n s
            skipMembers n false s
          else .error .keyNotString

end

/-- The text after a value. A call that takes no character is followed by one
    that does, so twice the text's length bounds the calls. -/
def skipValue (s : List Char) : Except Fault (List Char) :=
  skipValueWithin (2 * s.length + 2) s

end TypedMessage.Json
