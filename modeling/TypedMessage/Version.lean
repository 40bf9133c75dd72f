import TypedMessage.Text.Blank

/- The two versions of the encoding. They agree on type strings; `v4` has arrays
   and gives an absent field the zero word, `v3` has no arrays and skips it. -/
namespace TypedMessage

inductive Version
  | v3
  | v4
  deriving DecidableEq, Repr

namespace Version

/-- The version that applies where none is named. -/
def default : Version := v4

instance : Inhabited Version := ⟨default⟩

def tag : Version → String
  | v3 => "v3"
  | v4 => "v4"

/-- Array types can be encoded. -/
def hasArrays : Version → Bool
  | v3 => false
  | v4 => true

/-- The name of the signing method in front of a tag, in small letters. -/
def methodName : String := "eth_signtypeddata_"

/-- The text without one leading `word`, if it has it. -/
def dropWord (word s : String) : String :=
  if word.toList.isPrefixOf s.toList then String.ofList (s.toList.drop word.length) else s

/-- Reads a tag of either letter case, alone or as the end of the name of the
    signing method; blanks around it do not count. -/
def ofTag? (s : String) : Option Version :=
  let word := dropWord methodName (Text.lower (Text.trim s))
  if word = "v3" then some v3
  else if word = "v4" then some v4
  else none

theorem ofTag?_tag (v : Version) : ofTag? v.tag = some v := by
  cases v <;> decide

end Version
end TypedMessage
