import TypedMessage.Text.Quoted

/- What is wrong with a JSON text, or with a value that should have had another
   shape. -/
namespace TypedMessage.Json

/-- What stands where something else was expected. -/
inductive Found
  | null
  | bool (b : Bool)
  | integer (text : String)
  | number
  | string (s : String)
  | list
  | object
  deriving DecidableEq, Repr

def Found.description : Found → String
  | null => "null"
  | bool b => "boolean `" ++ toString b ++ "`"
  | integer text => "integer `" ++ text ++ "`"
  | number => "number"
  | string s => "string " ++ Text.quoted s
  | list => "sequence"
  | object => "map"

inductive Fault
  | endInValue
  | endInList
  | endInObject
  | endInString
  | expectedColon
  | expectedListSeparator
  | expectedObjectSeparator
  | expectedWord
  | expectedValue
  | badEscape
  | badNumber
  | controlCharacter
  | keyNotString
  | loneSurrogate
  | unpairedSurrogate
  | trailingComma
  | trailingText
  | tooDeep
  | unexpected (found : Found) (expected : String)
  | wrongLength (length : Nat) (expected : String)
  | missingMember (name : String)
  | repeatedMember (name : String)
  | unknownWord (word : String) (known : List String)
  | refused (reason : String)
  deriving DecidableEq, Repr

namespace Fault

def message : Fault → String
  | endInValue => "EOF while parsing a value"
  | endInList => "EOF while parsing a list"
  | endInObject => "EOF while parsing an object"
  | endInString => "EOF while parsing a string"
  | expectedColon => "expected `:`"
  | expectedListSeparator => "expected `,` or `]`"
  | expectedObjectSeparator => "expected `,` or `\x7d`"
  | expectedWord => "expected ident"
  | expectedValue => "expected value"
  | badEscape => "invalid escape"
  | badNumber => "invalid number"
  | controlCharacter => "control character (\\u0000-\\u001F) found while parsing a string"
  | keyNotString => "key must be a string"
  | loneSurrogate => "lone leading surrogate in hex escape"
  | unpairedSurrogate => "unexpected end of hex escape"
  | trailingComma => "trailing comma"
  | trailingText => "trailing characters"
  | tooDeep => "recursion limit exceeded"
  | unexpected found expected =>
    "invalid type: " ++ found.description ++ ", expected " ++ expected
  | wrongLength length expected =>
    "invalid length " ++ toString length ++ ", expected " ++ expected
  | missingMember name => "missing field `" ++ name ++ "`"
  | repeatedMember name => "duplicate field `" ++ name ++ "`"
  | unknownWord word known =>
    "unknown variant `" ++ word ++ "`, expected one of " ++
      ", ".intercalate (known.map fun w => "`" ++ w ++ "`")
  | refused reason => reason

end Fault
end TypedMessage.Json
