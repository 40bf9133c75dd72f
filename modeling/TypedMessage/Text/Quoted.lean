import TypedMessage.Text.Unmarked

/- Texts and characters quoted for a message. Inside the quotation marks the
   mark itself and the backslash are escaped, four controls have a letter, and a
   code point with no mark of its own is written in hexadecimal. -/
namespace TypedMessage.Text

/-- The hexadecimal numeral of `n`, in lower case. -/
def hexNumeral (n : Nat) : String := String.ofList (Nat.toDigits 16 n)

/-- A character as it stands inside quotation marks `mark`. -/
def quotedChar (mark c : Char) : String :=
  if c = '\x00' then "\\0"
  else if c = '\t' then "\\t"
  else if c = '\r' then "\\r"
  else if c = '\n' then "\\n"
  else if c = mark ∨ c = '\\' then String.ofList ['\\', c]
  else if isUnmarked c.toNat then "\\u\x7b" ++ hexNumeral c.toNat ++ "\x7d"
  else String.singleton c

/-- A text between double quotation marks. -/
def quoted (s : String) : String :=
  "\"" ++ String.join (s.toList.map (quotedChar '"')) ++ "\""

/-- A character between single quotation marks. -/
def quotedSingle (c : Char) : String := "'" ++ quotedChar '\'' c ++ "'"

end TypedMessage.Text
