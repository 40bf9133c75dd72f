import TypedMessage.Word

/- What an encoded value is before anything is hashed. A slot stands for one word:
   a word of its own, or the hash of some bytes, or the hash of other slots one
   after the other. The hash is a parameter, so the shape of an encoding can be
   told apart from the hash that is applied to it. -/
namespace TypedMessage

/-- A hash of byte strings. -/
abbrev Hash := Bytes → Word

inductive Slot
  | word (w : Word)
  | content (bs : Bytes)
  | group (parts : List Slot)

namespace Slot

mutual

/-- The word of a slot. -/
def value (h : Hash) : Slot → Word
  | word w => w
  | content bs => h bs
  | group parts => h (concat h parts)

/-- The words of slots one after the other. -/
def concat (h : Hash) : List Slot → Bytes
  | [] => []
  | p :: ps => (value h p).bytes ++ concat h ps

end

end Slot
end TypedMessage
