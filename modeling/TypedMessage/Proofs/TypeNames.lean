import TypedMessage.FieldType
import TypedMessage.Proofs.Numerals

/- Field types and the names in them. `FieldType.base` cuts a text at its first
   opening bracket, `FieldType.parse?` looks at its end; on texts that have their
   brackets in place the two speak of the same name (`parse?_base`). A word and the
   decimal numeral of a width are the name of an integer type (`parse?_uint`,
   `parse?_int`). -/
namespace TypedMessage.FieldType

theorem toList_base (t : String) : (base t).toList = baseList t.toList := by
  rw [base, String.toList_ofList]

theorem not_mem_base (t : String) : '[' ∉ (base t).toList := by
  rw [toList_base]
  intro h
  simpa using List.mem_takeWhile_imp h

theorem base_of_not_mem {t : String} (h : '[' ∉ t.toList) : base t = t := by
  have all : baseList t.toList = t.toList :=
    List.takeWhile_eq_self_iff.2 fun c hc => by
      have : c ≠ '[' := fun he => h (he ▸ hc)
      simpa using this
  rw [base, all, String.ofList_toList]

/-- A text that is read as an array has its base as the element. -/
theorem readArray?_eq_some {cs : List Char} {type : FieldType} (h : readArray? cs = some type) :
    ∃ length, type = array (String.ofList (baseList cs)) length := by
  unfold readArray? at h
  split at h
  case h_1 => cases h
  case h_2 => cases h
  case h_3 =>
    split at h
    case isTrue => cases h
    case isFalse =>
      obtain ⟨length, -, rfl⟩ := Option.map_eq_some_iff.1 h
      exact ⟨length, rfl⟩

theorem parse?_array {t element : String} {length : Option Nat}
    (h : parse? t = some (array element length)) : element = base t := by
  unfold parse? at h
  split at h
  case isTrue =>
    obtain ⟨length', heq⟩ := readArray?_eq_some h
    exact (array.inj heq).1
  case isFalse => split at h <;> cases h

theorem parse?_struct {t name : String} (h : parse? t = some (struct name)) : name = t := by
  unfold parse? at h
  split at h
  case isTrue =>
    obtain ⟨length, heq⟩ := readArray?_eq_some h
    cases heq
  case isFalse =>
    split at h
    case h_1 => cases h
    case h_2 => cases h; rfl

theorem parse?_leaf {t : String} {l : Leaf} (h : parse? t = some (leaf l)) :
    Leaf.ofName? t.toList = some l := by
  unfold parse? at h
  split at h
  case isTrue =>
    obtain ⟨length, heq⟩ := readArray?_eq_some h
    cases heq
  case isFalse =>
    split at h
    case h_1 l' hl => cases h; exact hl
    case h_2 => cases h

theorem isWidth_of_ofName? {cs : List Char} {bits : Nat} (h : Leaf.ofName? cs = some (.int bits)) :
    Leaf.isWidth bits = true := by
  unfold Leaf.ofName? at h
  -- The four words first; what is left is a word and a size.
  repeat (split at h; · cases h)
  simp only [Option.orElse_eq_orElse, Option.orElse_eq_or, Option.or_eq_some_iff] at h
  rcases h with hsize | ⟨-, huint | ⟨-, hint⟩⟩
  · obtain ⟨n, -, hn⟩ := Option.bind_eq_some_iff.1 hsize
    unfold Leaf.ofSize? at hn
    split at hn <;> cases hn
  · obtain ⟨n, -, hn⟩ := Option.map_eq_some_iff.1 huint
    cases hn
  · obtain ⟨n, hn, hbits⟩ := Option.map_eq_some_iff.1 hint
    cases hbits
    exact (Option.filter_eq_some_iff.1 hn).2

/-- No integer type is wider than a word. -/
theorem bits_le_of_parse?_int {t : String} {bits : Nat} (h : parse? t = some (leaf (.int bits))) :
    bits ≤ 256 := by
  have hwidth := isWidth_of_ofName? (parse?_leaf h)
  simp only [Leaf.isWidth, Bool.and_eq_true, decide_eq_true_eq] at hwidth
  exact hwidth.1.2

/-- A text that has no closing bracket is a leaf type or the name of a struct. -/
theorem parse?_of_not_mem {t : String} (h : ']' ∉ t.toList) :
    (∃ l, parse? t = some (leaf l)) ∨ parse? t = some (struct t) := by
  have last : t.toList.getLast? ≠ some ']' := fun he => h (List.mem_of_getLast? he)
  rw [parse?, if_neg last]
  cases Leaf.ofName? t.toList with
  | some l => exact .inl ⟨l, rfl⟩
  | none => exact .inr rfl

/-- Brackets occur in the text only where an array type has them. -/
def BracketsInPlace (t : String) : Prop :=
  ']' ∉ (base t).toList ∧
    ('[' ∈ t.toList → ∃ element length, parse? t = some (array element length))

/-- A type that has its brackets in place is a struct or an array of structs with
    its base as their name, unless the base is the name of a leaf type. -/
theorem parse?_base {t : String} (h : BracketsInPlace t) :
    (∃ l, parse? (base t) = some (leaf l)) ∨ parse? t = some (struct (base t)) ∨
      ∃ length, parse? t = some (array (base t) length) ∧
        parse? (base t) = some (struct (base t)) := by
  rcases parse?_of_not_mem h.1 with hl | hs
  · exact .inl hl
  · by_cases hb : '[' ∈ t.toList
    · obtain ⟨element, length, ht⟩ := h.2 hb
      cases parse?_array ht
      exact .inr (.inr ⟨length, ht, hs⟩)
    · rw [base_of_not_mem hb] at hs ⊢
      exact .inr (.inl hs)

/-! ## Names with a size -/

theorem sizeAfter?_numeral (word : String) {n : Nat} (hn : 0 < n) :
    Leaf.sizeAfter? word (word.toList ++ Nat.toDigits 10 n) = some n := by
  simp [Leaf.sizeAfter?, Text.head?_toDigits_ne hn, Text.readDecimal?_toDigits]

theorem toList_numeral (word : String) (n : Nat) :
    (word ++ toString n).toList = word.toList ++ Nat.toDigits 10 n := by
  rw [String.toList_append, Nat.toString_eq_ofList_toDigits, String.toList_ofList]

/-- A name with a size ends in a digit. -/
theorem getLast?_numeral (word : String) (n : Nat) :
    (word ++ toString n).toList.getLast? ≠ some ']' := by
  obtain ⟨d, hd⟩ := Option.isSome_iff_exists.1
    (List.getLast?_isSome.2 (Nat.toDigits_ne_nil (b := 10) (n := n)))
  rw [toList_numeral, List.getLast?_append, hd, Option.some_or]
  rintro ⟨⟩
  exact Bool.false_ne_true (Text.isDigit_of_mem_toDigits (List.mem_of_getLast? hd))

theorem parse?_numeral {word : String} {n : Nat} {l : Leaf}
    (h : Leaf.ofName? (word.toList ++ Nat.toDigits 10 n) = some l) :
    parse? (word ++ toString n) = some (leaf l) := by
  rw [parse?, if_neg (getLast?_numeral word n), toList_numeral, h]

section Widths
variable {bits : Nat} (width : 8 ≤ bits ∧ bits ≤ 256 ∧ bits % 8 = 0)
include width

theorem parse?_uint : parse? ("uint" ++ toString bits) = some (leaf (.uint bits)) := by
  refine parse?_numeral ?_
  rw [Leaf.ofName?, sizeAfter?_numeral "uint" (by omega)]
  simp [Leaf.sizeAfter?, Leaf.isWidth, width, Option.filter]

theorem parse?_int : parse? ("int" ++ toString bits) = some (leaf (.int bits)) := by
  refine parse?_numeral ?_
  rw [Leaf.ofName?, sizeAfter?_numeral "int" (by omega)]
  simp [Leaf.sizeAfter?, Leaf.isWidth, width, Option.filter]

end Widths

end TypedMessage.FieldType
