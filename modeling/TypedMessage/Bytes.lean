/- Byte strings, and texts as byte strings. Texts are ordered by their UTF-8
   bytes; `text_eq_of_utf8_eq` is why that order separates any two texts. -/
namespace TypedMessage

-- Powers of numbers mean the core ones in every module, also where a library that is
-- imported for proofs brings its own.
@[default_instance 20000]
instance (priority := high) natPow : Pow Nat Nat := instPowNat
@[default_instance 20000]
instance (priority := high) intPow : Pow Int Nat := instPowNat

/-- A string of bytes. -/
abbrev Bytes := List UInt8

/-- The UTF-8 bytes of a text. -/
def utf8 (s : String) : Bytes := s.toByteArray.data.toList

theorem text_eq_of_utf8_eq {a b : String} (h : utf8 a = utf8 b) : a = b :=
  String.toByteArray_inj.1 (ByteArray.ext (Array.toList_inj.1 h))

/-- The text with these UTF-8 bytes, if they are well formed. -/
def ofUtf8? (bs : Bytes) : Option String := String.fromUTF8? ⟨bs.toArray⟩

/-- Byte order of texts: `a` comes strictly before `b`. -/
def Before (a b : String) : Prop := utf8 a < utf8 b

instance (a b : String) : Decidable (Before a b) :=
  inferInstanceAs (Decidable (utf8 a < utf8 b))

theorem Before.irrefl (a : String) : ¬ Before a a := List.lt_irrefl _

theorem Before.trans {a b c : String} (h : Before a b) (k : Before b c) : Before a c :=
  List.lt_trans h k

theorem Before.asymm {a b : String} (h : Before a b) : ¬ Before b a := List.lt_asymm h

/-- Of two texts neither of which comes first, both are the same. -/
theorem Before.eq_of_not {a b : String} (h : ¬ Before a b) (k : ¬ Before b a) : a = b :=
  text_eq_of_utf8_eq (Std.Trichotomous.trichotomous _ _ h k)

/-- The last `n` base-256 digits of `x`, most significant first. -/
def bigEndian : (n : Nat) → (x : Nat) → Bytes
  | 0, _ => []
  | n + 1, x => bigEndian n (x / 256) ++ [UInt8.ofNat (x % 256)]

@[simp] theorem length_bigEndian (n x : Nat) : (bigEndian n x).length = n := by
  induction n generalizing x with
  | zero => rfl
  | succ n ih => simp [bigEndian, ih]

/-- The number a string of bytes spells in base 256. -/
def Bytes.toNat (bs : Bytes) : Nat := bs.foldl (fun x b => x * 256 + b.toNat) 0

theorem toNat_bigEndian (n x : Nat) : (bigEndian n x).toNat = x % 256 ^ n := by
  induction n generalizing x with
  | zero => simp [bigEndian, Bytes.toNat, Nat.mod_one]
  | succ n ih =>
    have h := ih (x / 256)
    simp only [Bytes.toNat] at h
    simp only [bigEndian, Bytes.toNat, List.foldl_append, List.foldl_cons, List.foldl_nil, h]
    have hb : (UInt8.ofNat (x % 256)).toNat = x % 256 := by simp
    rw [hb, Nat.pow_succ, Nat.mul_comm (256 ^ n) 256, Nat.mod_mul, Nat.mul_comm, Nat.add_comm]

end TypedMessage
