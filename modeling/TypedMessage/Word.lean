import TypedMessage.Bytes

/- The 32-byte words of an encoding. Short byte strings fill a word from the
   left or from the right; integers fill it modulo 2^256, most significant byte
   first, so a negative number appears in two's complement. -/
namespace TypedMessage

/-- A word of exactly 32 bytes. -/
structure Word where
  bytes : Bytes
  length_bytes : bytes.length = 32
  deriving DecidableEq

namespace Word

theorem ext' {a b : Word} (h : a.bytes = b.bytes) : a = b := by
  cases a; cases b; cases h; rfl

/-- The word of 32 zero bytes. -/
def zero : Word := ⟨List.replicate 32 0, by simp⟩

/-- The bytes at the left end of a word, zeros after them. -/
def padRight (bs : Bytes) (h : bs.length ≤ 32) : Word :=
  ⟨bs ++ List.replicate (32 - bs.length) 0, by simp; omega⟩

/-- The bytes at the right end of a word, zeros before them. -/
def padLeft (bs : Bytes) (h : bs.length ≤ 32) : Word :=
  ⟨List.replicate (32 - bs.length) 0 ++ bs, by simp; omega⟩

/-- The word of `n` modulo 2^256. -/
def ofNat (n : Nat) : Word := ⟨bigEndian 32 n, by simp⟩

/-- The word of `n` modulo 2^256; a negative number is in two's complement. -/
def ofInt (n : Int) : Word := ofNat (n % (2 ^ 256 : Int)).toNat

/-- One for `true`, zero for `false`. -/
def ofBool (b : Bool) : Word := ofNat b.toNat

/-- The number a word spells. -/
def toNat (w : Word) : Nat := Bytes.toNat w.bytes

theorem toNat_ofNat (n : Nat) : (ofNat n).toNat = n % 2 ^ 256 := toNat_bigEndian 32 n

end Word
end TypedMessage
