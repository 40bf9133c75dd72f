import TypedMessage.Log.Redaction
import TypedMessage.Proofs.IntegerTexts
import TypedMessage.Proofs.TypeGrammar
import Mathlib.Data.Nat.Size

/- Leaves encoded by steps that have a result within bounds only: a difference of lengths,
   a copy into a part of a word, a shift of a word, a sum of words. Numbers are held as a
   sign and a word here, as a machine holds them. Each step is followed by what it gives
   where the encoder takes it, and `Leaf.wordChecked_eq` is that for a whole leaf: on the
   leaf types that a text can name no step is out of bounds. -/
namespace TypedMessage

/-! ## Runs that may halt -/

/-- Why a run has no answer. -/
inductive Halt
  | fault (fault : Fault)
  | outOfBounds
  deriving DecidableEq

/-- What a step gives; out of bounds it ends the run. -/
def inBounds {α : Type} : Option α → Except Halt α
  | some a => .ok a
  | none => .error .outOfBounds

@[simp] theorem inBounds_some {α : Type} (a : α) : inBounds (some a) = .ok a := rfl

/-- The run ends with this answer or with this fault, and not out of bounds. -/
structure Answers {α : Type} (run : Except Halt α) (answer : Except Fault α) : Prop where
  same : run = answer.mapError .fault
  bounded : run ≠ .error .outOfBounds

theorem Answers.of_eq {α : Type} {run : Except Halt α} {answer : Except Fault α}
    (same : run = answer.mapError .fault) : Answers run answer := by
  refine ⟨same, ?_⟩
  rw [same]
  cases answer <;> simp [Except.mapError]

/-- A difference of lengths. -/
def sub? (a b : Nat) : Option Nat := if b ≤ a then some (a - b) else none

theorem sub?_of_le {a b : Nat} (h : b ≤ a) : sub? a b = some (a - b) := if_pos h

/-! ## Copies into a word -/

namespace Word

/-- A word with its bytes from `start` up to `stop` replaced by as many others. -/
def overwrite? (w : Word) (start stop : Nat) (bs : Bytes) : Option Word :=
  if h : start ≤ stop ∧ stop ≤ 32 ∧ bs.length = stop - start then
    some ⟨w.bytes.take start ++ bs ++ w.bytes.drop stop, by
      have := w.length_bytes
      simp only [List.length_append, List.length_take, List.length_drop]
      omega⟩
  else none

theorem isSome_overwrite? {w : Word} {start stop : Nat} {bs : Bytes} :
    (w.overwrite? start stop bs).isSome ↔
      start ≤ stop ∧ stop ≤ 32 ∧ bs.length = stop - start := by
  unfold overwrite?
  split <;> simp [*]

/-- The bytes at the right end, over zeros. -/
theorem overwrite?_right {bs : Bytes} {start : Nat} (le : start ≤ 32)
    (length : bs.length = 32 - start) (h : bs.length ≤ 32) :
    zero.overwrite? start 32 bs = some (padLeft bs h) := by
  rw [overwrite?, dif_pos ⟨le, Nat.le_refl _, length⟩]
  have front : 32 - bs.length = start := by omega
  refine congrArg some (ext' ?_)
  simp only [zero, padLeft, front, List.take_replicate, List.drop_replicate,
    Nat.min_eq_left le, Nat.sub_self, List.replicate_zero, List.append_nil]

/-- The bytes at the left end, over zeros. -/
theorem overwrite?_left {bs : Bytes} (h : bs.length ≤ 32) :
    zero.overwrite? 0 bs.length bs = some (padRight bs h) := by
  rw [overwrite?, dif_pos ⟨Nat.zero_le _, h, rfl⟩]
  refine congrArg some (ext' ?_)
  simp only [zero, padRight, List.take_zero, List.nil_append, List.drop_replicate]

/-- The last byte, over zeros. -/
theorem overwrite?_bool (b : Bool) :
    zero.overwrite? 31 32 [UInt8.ofNat b.toNat] = some (ofBool b) := by
  cases b <;> decide

/-- The word of a machine number. -/
def ofBits (x : BitVec 256) : Word := ofNat x.toNat

theorem ofBits_ofInt (n : Int) : ofBits (BitVec.ofInt 256 n) = ofInt n := by
  rw [ofBits, ofInt, BitVec.toNat_ofInt]
  rfl

end Word

/-! ## Integers as a sign and a magnitude -/

namespace Integer

/-- A sign and a magnitude. -/
structure Parts where
  negative : Bool
  magnitude : BitVec 256

/-- A one moved to the left by less than the width of a word. -/
def shiftOne? (amount : Nat) : Option (BitVec 256) :=
  if amount < 256 then some (1#256 <<< amount) else none

theorem shiftOne?_of_lt {amount : Nat} (h : amount < 256) :
    ∃ x, shiftOne? amount = some x ∧ x.toNat = 2 ^ amount := by
  refine ⟨_, if_pos h, ?_⟩
  have small : (2 : Nat) ^ amount < 2 ^ 256 := Nat.pow_lt_pow_right (by decide) h
  rw [BitVec.toNat_shiftLeft, BitVec.toNat_ofNat, Nat.shiftLeft_eq]
  simpa using Nat.mod_eq_of_lt small

/-- The next machine number. -/
def next? (x : BitVec 256) : Option (BitVec 256) :=
  if x.uaddOverflow 1 then none else some (x + 1)

/-- Only the complement of zero has no next number. -/
theorem uaddOverflow_not_eq_false_iff {x : BitVec 256} :
    (~~~x).uaddOverflow 1 = false ↔ x ≠ 0 := by
  have lt := x.isLt
  have one : (1 : BitVec 256).toNat = 1 := rfl
  have zero : x = 0 ↔ x.toNat = 0 := BitVec.toNat_eq
  rw [ne_eq, zero]
  simp only [BitVec.uaddOverflow, BitVec.toNat_not, ge_iff_le, decide_eq_false_iff_not]
  omega

theorem next?_not {x : BitVec 256} (h : x ≠ 0) : next? (~~~x) = some (-x) := by
  rw [next?, uaddOverflow_not_eq_false_iff.2 h, BitVec.neg_eq_not_add]
  rfl

namespace Parts

/-- The integer of sign and magnitude. -/
def value (n : Parts) : Int := ofSign n.negative n.magnitude.toNat

/-- Below zero; minus zero is not. -/
def isNegative (n : Parts) : Bool := n.negative && n.magnitude != 0

/-- The integer is one of `width` bits with a sign. -/
def fitsSigned? (n : Parts) (width : Nat) : Option Bool := do
  let limit ← shiftOne? (← sub? width 1)
  return if n.negative then n.magnitude ≤ limit else n.magnitude < limit

/-- The integer in two's complement. -/
def complement? (n : Parts) : Option (BitVec 256) :=
  if n.isNegative then next? (~~~n.magnitude) else some n.magnitude

theorem isNegative_iff (n : Parts) : n.isNegative = true ↔ n.value < 0 := by
  obtain ⟨negative, m⟩ := n
  have zero : m = 0#256 ↔ m.toNat = 0 := BitVec.toNat_eq
  cases negative <;> simp [isNegative, value, ofSign, zero, Nat.pos_iff_ne_zero]

theorem value_of_not_isNegative {n : Parts} (h : n.isNegative = false) :
    n.value = n.magnitude.toNat := by
  obtain ⟨negative, m⟩ := n
  cases negative with
  | false => rfl
  | true =>
    have zero : m = 0#256 := by simpa [isNegative] using h
    rw [zero]
    rfl

theorem fitsSigned?_eq (n : Parts) {width : Nat} (h : 1 ≤ width ∧ width ≤ 256) :
    n.fitsSigned? width =
      some (decide (-(2 : Int) ^ (width - 1) ≤ n.value ∧ n.value < 2 ^ (width - 1))) := by
  obtain ⟨negative, m⟩ := n
  have narrow : width - 1 < 256 := by omega
  obtain ⟨limit, shifted, spells⟩ := shiftOne?_of_lt narrow
  have spells' : (2 : Int) ^ (width - 1) = limit.toNat := by rw [spells]; norm_cast
  have pos : 0 < limit.toNat := spells ▸ Nat.two_pow_pos _
  simp only [fitsSigned?, sub?_of_le h.1, shifted, Option.bind_eq_bind, Option.bind_some,
    Option.pure_def, value, ofSign, spells', Option.some.injEq, BitVec.le_def, BitVec.lt_def]
  cases negative with
  | true => simp only [if_true, decide_eq_decide]; omega
  | false => simp only [Bool.false_eq_true, if_false, decide_eq_decide]; omega

theorem complement?_eq (n : Parts) : n.complement? = some (BitVec.ofInt 256 n.value) := by
  obtain ⟨negative, m⟩ := n
  have plain : BitVec.ofInt 256 m.toNat = m := by simp
  cases negative with
  | false => simp [complement?, isNegative, value, ofSign, plain]
  | true =>
    by_cases zero : m = 0#256
    · subst zero
      decide
    · simp [complement?, isNegative, value, ofSign, zero, next?_not zero, BitVec.ofInt_neg, plain]

end Parts

/-- Reads sign and magnitude of an integer. -/
def readParts (text : String) : Except IntegerFault Parts :=
  let (negative, cs) := splitSign text.toList
  (readMagnitude text cs).map fun m => ⟨negative, BitVec.ofNat 256 m⟩

/-- No digit of a magnitude is lost in a machine number. -/
theorem readParts_value (text : String) : (readParts text).map Parts.value = read text := by
  simp only [readParts, read]
  cases magnitude : readMagnitude text (splitSign text.toList).2 with
  | error fault => rfl
  | ok m =>
    have whole : (BitVec.ofNat 256 m).toNat = m :=
      Nat.mod_eq_of_lt (lt_of_readMagnitude magnitude)
    simp only [Except.map, bind, Except.bind, pure, Except.pure, Parts.value, ofSign, whole]

end Integer

namespace Json

/-- Sign and magnitude of the integer of a value. -/
def asParts : Json → Except Malformation Integer.Parts
  | number t => (Integer.readParts t).mapError .badInteger
  | string s => (Integer.readParts (Text.trim s)).mapError .badInteger
  | v => .error (.wrongKind "integer" v.kind)

theorem asParts_value (v : Json) : v.asParts.map Integer.Parts.value = v.asInteger := by
  have parts (text : String) :
      ((Integer.readParts text).mapError Malformation.badInteger).map Integer.Parts.value =
        (Integer.read text).mapError .badInteger := by
    rw [← Integer.readParts_value]
    cases Integer.readParts text <;> rfl
  cases v with
  | number t => exact parts t
  | string s => exact parts _
  | _ => rfl

end Json

/-! ## Leaves -/

/-- The outcome of a step that can find the value malformed. -/
def report {α : Type} (type : String) (x : Except Malformation α) : Except Halt α :=
  x.mapError fun reason => .fault (.malformed type reason)

section Leaves
variable {h : Hash} {enforce : Bool} {type : String} {v : Json}

namespace Integer.Parts
variable (n : Parts) {bits : Nat}

/-- The word of an unsigned integer. -/
def uintWord (enforce : Bool) (bits : Nat) : Except Malformation Word :=
  if n.isNegative then .error .negative
  else if enforce ∧ bits < n.magnitude.toNat.size then .error (.exceeds bits)
  else .ok (.ofBits n.magnitude)

/-- The word of a signed integer. -/
def intWordChecked (type : String) (enforce : Bool) (bits : Nat) : Except Halt Word := do
  let width := if enforce then bits else 256
  if ← inBounds (n.fitsSigned? width) then return .ofBits (← inBounds n.complement?)
  else report type (.error (.exceeds width))

theorem uintWord_eq : n.uintWord enforce bits = Leaf.uintWord enforce bits n.value := by
  cases negative : n.isNegative with
  | true => rw [uintWord, Leaf.uintWord, if_pos negative, if_pos (n.isNegative_iff.1 negative)]
  | false =>
    have nonneg : ¬ n.value < 0 := fun lt => by simp [n.isNegative_iff.2 lt] at negative
    have magnitude : n.magnitude = BitVec.ofInt 256 n.value := by
      have := n.complement?_eq
      simpa [complement?, negative] using this
    have exceeds : bits < n.magnitude.toNat.size ↔ (2 ^ bits : Int) ≤ n.value := by
      rw [Nat.lt_size, value_of_not_isNegative negative]
      norm_cast
    simp only [uintWord, Leaf.uintWord, negative, nonneg, exceeds, if_false, Bool.false_eq_true]
    rw [magnitude, Word.ofBits_ofInt]

theorem intWordChecked_eq (width : 1 ≤ bits ∧ bits ≤ 256) :
    n.intWordChecked type enforce bits = report type (Leaf.intWord enforce bits n.value) := by
  have bounds : 1 ≤ (if enforce then bits else 256) ∧ (if enforce then bits else 256) ≤ 256 := by
    split <;> omega
  simp only [intWordChecked, Leaf.intWord, n.fitsSigned?_eq bounds, n.complement?_eq,
    inBounds_some]
  generalize (if enforce then bits else 256) = width
  by_cases fits : -(2 : Int) ^ (width - 1) ≤ n.value ∧ n.value < 2 ^ (width - 1)
  · rw [if_pos fits, decide_eq_true fits, ← Word.ofBits_ofInt]
    rfl
  · rw [if_neg fits, decide_eq_false fits]
    rfl

end Integer.Parts

namespace Leaf

/-- The word of a value of a leaf type. -/
def wordChecked (h : Hash) (enforce : Bool) (type : String) (v : Json) : Leaf → Except Halt Word
  | text => do return h (utf8 (← report type v.asText))
  | bytes => do return h (← report type v.asBytes)
  | bool => match v with
    | .bool b => inBounds (Word.zero.overwrite? 31 32 [UInt8.ofNat b.toNat])
    | v => report type (.error (.wrongKind "bool" v.kind))
  | address => do
    let bs ← report type v.asBytes
    if bs.length ≠ 20 then report type (.error (.addressLength bs.length))
    else inBounds (Word.zero.overwrite? 12 32 bs)
  | fixedBytes size _ => do
    let bs ← report type v.asBytes
    if size < bs.length then report type (.error (.tooLong bs.length size))
    else inBounds (Word.zero.overwrite? 0 bs.length bs)
  | uint bits => do report type ((← report type v.asParts).uintWord enforce bits)
  | int bits => do (← report type v.asParts).intWordChecked type enforce bits

/-- No step of a leaf type that a text can name is out of bounds. -/
theorem wordChecked_eq {l : Leaf} (sized : l.WellSized) :
    l.wordChecked h enforce type v = report type ((l.slot enforce v).map (Slot.value h)) := by
  cases l with
  | text =>
    simp only [wordChecked, slot]
    cases v.asText <;> rfl
  | bytes =>
    simp only [wordChecked, slot]
    cases v.asBytes <;> rfl
  | bool =>
    cases v with
    | bool b => simp only [wordChecked, Word.overwrite?_bool]; rfl
    | _ => rfl
  | address =>
    simp only [wordChecked, slot]
    cases v.asBytes with
    | error reason => rfl
    | ok bs =>
      by_cases length : bs.length = 20
      · have copied : Word.zero.overwrite? 12 32 bs = some (.padLeft bs (by omega)) :=
          Word.overwrite?_right (by decide) length _
        simp [report, length, copied, bind, Except.bind, Except.mapError, Except.map, Slot.value]
      · simp [report, length, bind, Except.bind, Except.mapError, Except.map]
  | fixedBytes size size_le =>
    simp only [wordChecked, slot]
    cases v.asBytes with
    | error reason => rfl
    | ok bs =>
      by_cases short : bs.length ≤ size
      · have copied := Word.overwrite?_left (Nat.le_trans short size_le)
        simp [report, short, copied, bind, Except.bind, Except.mapError, Except.map, Slot.value]
      · simp [report, short, bind, Except.bind, Except.mapError, Except.map]
  | uint bits =>
    simp only [wordChecked, slot, ← Json.asParts_value, Integer.Parts.uintWord_eq]
    cases v.asParts with
    | error reason => rfl
    | ok n =>
      simp only [report, Except.map, Except.mapError, bind, Except.bind]
      cases uintWord enforce bits n.value <;> rfl
  | int bits =>
    have width : 1 ≤ bits ∧ bits ≤ 256 := ⟨Nat.le_trans (by decide) sized.1, sized.2.1⟩
    simp only [wordChecked, slot, ← Json.asParts_value, Integer.Parts.intWordChecked_eq _ width]
    cases v.asParts with
    | error reason => rfl
    | ok n =>
      simp only [report, Except.map, Except.mapError, bind, Except.bind]
      cases intWord enforce bits n.value <;> rfl

end Leaf
end Leaves
end TypedMessage
