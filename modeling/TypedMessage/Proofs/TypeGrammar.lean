import TypedMessage.Proofs.Layout
import TypedMessage.Proofs.TypeNames

/- The grammar of declared types. A text that ends in a closing bracket is an array type
   or no type at all (`parse?_array_iff`); every other text is one leaf type, by its own
   name (`parse?_leaf_iff`), or else the name of a struct. `parse?_grammar` puts the two
   together: the reader is exact on all texts, and texts that do not end in a bracket are
   told apart. -/
namespace TypedMessage

/-! ## Numerals without a leading zero -/

namespace Text

theorem toNat_of_isDigit {c : Char} (h : c.isDigit = true) : 48 ≤ c.toNat ∧ c.toNat ≤ 57 := by
  simp only [Char.isDigit, Bool.and_eq_true, decide_eq_true_eq] at h
  exact ⟨UInt32.le_iff_toNat_le.1 h.1, UInt32.le_iff_toNat_le.1 h.2⟩

theorem toDigits_of_isDigit {c : Char} (h : c.isDigit = true) :
    Nat.toDigits 10 (c.toNat - 48) = [c] := by
  have := toNat_of_isDigit h
  have char : Nat.digitChar (c.toNat - 48) = c := by
    apply Char.toNat_inj.1
    rw [Nat.toNat_digitChar_of_lt_ten (by omega)]
    omega
  rw [Nat.toDigits_of_lt_base (by omega), char]

/-- Digits that are read on after a number stand behind its own. -/
theorem toDigits_ofDigitChars_of_pos {ds : List Char} (digits : ∀ c ∈ ds, c.isDigit = true)
    {n : Nat} (hn : 0 < n) :
    Nat.toDigits 10 (Nat.ofDigitChars 10 ds n) = Nat.toDigits 10 n ++ ds := by
  induction ds generalizing n with
  | nil => rw [Nat.ofDigitChars_nil, List.append_nil]
  | cons d ds ih =>
    obtain ⟨hd, hds⟩ := List.forall_mem_cons.1 digits
    have bounds := toNat_of_isDigit hd
    calc Nat.toDigits 10 (Nat.ofDigitChars 10 (d :: ds) n)
        = Nat.toDigits 10 (Nat.ofDigitChars 10 ds (10 * n + (d.toNat - 48))) := by
          rw [Nat.ofDigitChars_cons]; rfl
      _ = Nat.toDigits 10 (10 * n + (d.toNat - 48)) ++ ds := ih hds (by omega)
      _ = Nat.toDigits 10 n ++ Nat.toDigits 10 (d.toNat - 48) ++ ds := by
          rw [Nat.toDigits_append_toDigits (by decide) hn (by omega)]
      _ = Nat.toDigits 10 n ++ (d :: ds) := by
          rw [toDigits_of_isDigit hd, List.append_assoc, List.singleton_append]

/-- Digits of which the first is no zero are the digits of the number that they spell. -/
theorem toDigits_decimalValue {ds : List Char} (digits : ds ≠ [] ∧ ∀ c ∈ ds, c.isDigit = true)
    (first : ds.head? ≠ some '0') :
    0 < decimalValue ds ∧ Nat.toDigits 10 (decimalValue ds) = ds := by
  rw [decimalValue_eq_ofDigitChars]
  cases ds with
  | nil => exact absurd rfl digits.1
  | cons d ds =>
    obtain ⟨hd, hds⟩ := List.forall_mem_cons.1 digits.2
    have bounds := toNat_of_isDigit hd
    have nonzero : d.toNat ≠ 48 := fun h => first (congrArg some (Char.toNat_inj.1 h))
    have value : Nat.ofDigitChars 10 (d :: ds) 0 = Nat.ofDigitChars 10 ds (d.toNat - 48) := by
      rw [Nat.ofDigitChars_cons, Nat.mul_zero, Nat.zero_add]
      rfl
    have same := toDigits_ofDigitChars_of_pos hds (n := d.toNat - 48) (by omega)
    rw [toDigits_of_isDigit hd, List.singleton_append] at same
    rw [value, same]
    refine ⟨Nat.pos_of_ne_zero fun zero => ?_, rfl⟩
    -- A number that is zero has a zero as its one digit.
    rw [zero] at same
    exact first (congrArg List.head? same).symm

end Text

/-! ## Leaf types by name -/

namespace Leaf

/-- The name of a leaf type. -/
def name : Leaf → String
  | text => "string"
  | bytes => "bytes"
  | bool => "bool"
  | address => "address"
  | fixedBytes size _ => "bytes" ++ toString size
  | uint bits => "uint" ++ toString bits
  | int bits => "int" ++ toString bits

/-- The size of the type is one that such types have: 1 to 32 bytes, or a multiple of
    eight bits up to 256. -/
def WellSized : Leaf → Prop
  | fixedBytes size _ => 1 ≤ size ∧ size ≤ 32
  | uint bits | int bits => 8 ≤ bits ∧ bits ≤ 256 ∧ bits % 8 = 0
  | _ => True

theorem sizeAfter?_eq_some_iff {word : String} {cs : List Char} {n : Nat} :
    sizeAfter? word cs = some n ↔ 0 < n ∧ cs = (word ++ toString n).toList := by
  rw [FieldType.toList_numeral]
  constructor
  · intro h
    unfold sizeAfter? at h
    split at h
    case isFalse => cases h
    case isTrue front =>
      obtain ⟨ds, rfl⟩ := List.isPrefixOf_iff_prefix.1 front
      rw [List.drop_left] at h
      simp only at h
      split at h
      case isTrue => cases h
      case isFalse first =>
        obtain ⟨digits, rfl⟩ := Text.readDecimal?_eq_some_iff.1 h
        obtain ⟨pos, same⟩ := Text.toDigits_decimalValue digits first
        rw [same]
        exact ⟨pos, rfl⟩
  · intro h
    obtain ⟨pos, rfl⟩ := h
    exact FieldType.sizeAfter?_numeral word pos

theorem isWidth_iff {n : Nat} : isWidth n = true ↔ 8 ≤ n ∧ n ≤ 256 ∧ n % 8 = 0 := by
  simp [isWidth, and_assoc]

theorem ofSize?_eq_some_iff {n : Nat} {l : Leaf} :
    ofSize? n = some l ↔ 1 ≤ n ∧ ∃ size_le, l = fixedBytes n size_le := by
  unfold ofSize?
  split
  case isTrue h => simp [h, eq_comm]
  case isFalse h =>
    constructor
    · intro none
      cases none
    · intro given
      obtain ⟨pos, size_le, -⟩ := given
      exact absurd ⟨pos, size_le⟩ h

/-- A leaf type has its own name and no other. -/
theorem ofName?_eq_some_iff {cs : List Char} {l : Leaf} :
    ofName? cs = some l ↔ l.WellSized ∧ cs = l.name.toList := by
  constructor
  · intro h
    unfold ofName? at h
    split at h
    case isTrue word => cases h; exact ⟨trivial, word⟩
    split at h
    case isTrue word => cases h; exact ⟨trivial, word⟩
    split at h
    case isTrue word => cases h; exact ⟨trivial, word⟩
    split at h
    case isTrue word => cases h; exact ⟨trivial, word⟩
    simp only [Option.orElse_eq_orElse, Option.orElse_eq_or, Option.or_eq_some_iff] at h
    rcases h with hsize | ⟨-, huint | ⟨-, hint⟩⟩
    · obtain ⟨n, hn, hl⟩ := Option.bind_eq_some_iff.1 hsize
      obtain ⟨pos, size_le, rfl⟩ := ofSize?_eq_some_iff.1 hl
      exact ⟨⟨pos, size_le⟩, (sizeAfter?_eq_some_iff.1 hn).2⟩
    · obtain ⟨n, hn, rfl⟩ := Option.map_eq_some_iff.1 huint
      obtain ⟨hn, width⟩ := Option.filter_eq_some_iff.1 hn
      exact ⟨isWidth_iff.1 width, (sizeAfter?_eq_some_iff.1 hn).2⟩
    · obtain ⟨n, hn, rfl⟩ := Option.map_eq_some_iff.1 hint
      obtain ⟨hn, width⟩ := Option.filter_eq_some_iff.1 hn
      exact ⟨isWidth_iff.1 width, (sizeAfter?_eq_some_iff.1 hn).2⟩
  · intro h
    obtain ⟨sized, rfl⟩ := h
    cases l with
    | fixedBytes size size_le =>
      rw [name, FieldType.toList_numeral, ofName?, FieldType.sizeAfter?_numeral "bytes" sized.1]
      simp [ofSize?, sized.1, size_le]
    | uint bits => exact FieldType.parse?_leaf (FieldType.parse?_uint sized)
    | int bits => exact FieldType.parse?_leaf (FieldType.parse?_int sized)
    | _ => decide

end Leaf

namespace FieldType

theorem getLast?_name (l : Leaf) : l.name.toList.getLast? ≠ some ']' := by
  cases l with
  | fixedBytes size size_le => exact getLast?_numeral "bytes" size
  | uint bits => exact getLast?_numeral "uint" bits
  | int bits => exact getLast?_numeral "int" bits
  | _ => decide

theorem parse?_leaf_iff {t : String} {l : Leaf} :
    parse? t = some (leaf l) ↔ l.WellSized ∧ t = l.name := by
  rw [← String.toList_inj, ← Leaf.ofName?_eq_some_iff]
  refine ⟨parse?_leaf, fun h => ?_⟩
  have last : t.toList.getLast? ≠ some ']' :=
    (Leaf.ofName?_eq_some_iff.1 h).2 ▸ getLast?_name l
  rw [parse?, if_neg last, h]

theorem parse?_struct_iff {t name : String} :
    parse? t = some (struct name) ↔
      name = t ∧ t.toList.getLast? ≠ some ']' ∧ ¬ ∃ l : Leaf, l.WellSized ∧ t = l.name := by
  constructor
  · intro h
    have last : t.toList.getLast? ≠ some ']' := by
      intro last
      rw [parse?, if_pos last] at h
      obtain ⟨length, heq⟩ := readArray?_eq_some h
      cases heq
    refine ⟨parse?_struct h, last, fun named => ?_⟩
    obtain ⟨l, hl⟩ := named
    cases (parse?_leaf_iff.2 hl).symm.trans h
  · intro h
    obtain ⟨rfl, last, unnamed⟩ := h
    rw [parse?, if_neg last]
    cases hl : Leaf.ofName? name.toList with
    | none => rfl
    | some l =>
      obtain ⟨sized, text⟩ := Leaf.ofName?_eq_some_iff.1 hl
      exact absurd ⟨l, sized, String.toList_inj.1 text⟩ unnamed

/-! ## Array types -/

/-- What may stand between the brackets, and the number of elements it asks for: nothing,
    or decimal digits of a number below 2^64, perhaps after a plus sign. -/
inductive LengthText : List Char → Option Nat → Prop
  | absent : LengthText [] none
  | digits {ds : List Char} (numeral : ds ≠ [] ∧ ∀ c ∈ ds, c.isDigit = true)
      (small : Nat.ofDigitChars 10 ds 0 < 2 ^ 64) :
      LengthText ds (some (Nat.ofDigitChars 10 ds 0))
  | plus {ds : List Char} (numeral : ds ≠ [] ∧ ∀ c ∈ ds, c.isDigit = true)
      (small : Nat.ofDigitChars 10 ds 0 < 2 ^ 64) :
      LengthText ('+' :: ds) (some (Nat.ofDigitChars 10 ds 0))

/-- The text is an element type, which is not empty, and a length in brackets; neither
    holds an opening bracket. -/
def IsArrayText (t element : String) (length : Option Nat) : Prop :=
  ∃ d : String, t = element ++ "[" ++ d ++ "]" ∧ element ≠ "" ∧ '[' ∉ element.toList ∧
    '[' ∉ d.toList ∧ LengthText d.toList length

theorem readNumeral_eq_some_iff {ds : List Char} {k : Nat} :
    (Text.readDecimal? ds).filter (· < 2 ^ 64) = some k ↔
      (ds ≠ [] ∧ ∀ c ∈ ds, c.isDigit = true) ∧ Nat.ofDigitChars 10 ds 0 < 2 ^ 64 ∧
        k = Nat.ofDigitChars 10 ds 0 := by
  rw [Option.filter_eq_some_iff, Text.readDecimal?_eq_some_iff, Text.decimalValue_eq_ofDigitChars,
    decide_eq_true_eq]
  constructor
  · intro h
    obtain ⟨⟨numeral, rfl⟩, small⟩ := h
    exact ⟨numeral, small, rfl⟩
  · intro h
    obtain ⟨numeral, small, rfl⟩ := h
    exact ⟨⟨numeral, rfl⟩, small⟩

theorem readLength?_eq_some_iff {ds : List Char} {length : Option Nat} :
    readLength? ds = some length ↔ LengthText ds length := by
  constructor
  · intro h
    cases ds with
    | nil => cases h; exact .absent
    | cons d ds =>
      obtain ⟨k, hk, rfl⟩ := Option.map_eq_some_iff.1 h
      obtain ⟨numeral, small, rfl⟩ := readNumeral_eq_some_iff.1 hk
      by_cases hd : d = '+'
      · subst hd
        exact .plus numeral small
      · have unsigned : ¬ (d :: ds).head? = some '+' := fun head => hd (Option.some.inj head)
        simp only [if_neg unsigned] at numeral small ⊢
        exact .digits numeral small
  · intro h
    cases h with
    | absent => rfl
    | @digits ds numeral small =>
      cases ds with
      | nil => exact absurd rfl numeral.1
      | cons d ds =>
        have unsigned : ¬ (d :: ds).head? = some '+' := by
          intro head
          cases Option.some.inj head
          exact Bool.false_ne_true (numeral.2 '+' List.mem_cons_self)
        refine Option.map_eq_some_iff.2 ⟨_, ?_, rfl⟩
        rw [if_neg unsigned]
        exact readNumeral_eq_some_iff.2 ⟨numeral, small, rfl⟩
    | plus numeral small =>
      exact Option.map_eq_some_iff.2 ⟨_, readNumeral_eq_some_iff.2 ⟨numeral, small, rfl⟩, rfl⟩

theorem baseList_append {element : List Char} (h : '[' ∉ element) (rest : List Char) :
    baseList (element ++ '[' :: rest) = element ∧
      (element ++ '[' :: rest).dropWhile (· ≠ '[') = '[' :: rest := by
  have all : ∀ c ∈ element, decide (c ≠ '[') = true := by
    intro c hc
    exact decide_eq_true fun he => h (he ▸ hc)
  constructor
  · rw [baseList, List.takeWhile_append_of_pos all, List.takeWhile_cons_of_neg (by decide),
      List.append_nil]
  · rw [List.dropWhile_append_of_pos all, List.dropWhile_cons_of_neg (by decide)]

theorem readArray?_of_not_mem {cs : List Char} (h : '[' ∉ cs) : readArray? cs = none := by
  have all : cs.dropWhile (· ≠ '[') = [] :=
    List.dropWhile_eq_nil_iff.2 fun c hc => decide_eq_true fun he => h (he ▸ hc)
  rw [readArray?, all]
  cases baseList cs <;> rfl

theorem readArray?_append {element rest : List Char} (h : '[' ∉ element) :
    readArray? (element ++ '[' :: rest) =
      if element = [] ∨ '[' ∈ rest then none
      else (readLength? rest.dropLast).map (array (String.ofList element)) := by
  obtain ⟨front, back⟩ := baseList_append h rest
  rw [readArray?, front, back]
  cases element with
  | nil => rfl
  | cons c cs => simp

/-- In a text that ends in a closing bracket, what follows the opening one ends in it too. -/
theorem exists_eq_concat_of_getLast? {front rest : List Char}
    (last : (front ++ '[' :: rest).getLast? = some ']') : ∃ ds, rest = ds ++ [']'] := by
  rw [List.getLast?_append_cons] at last
  obtain ⟨ds, hds⟩ := List.getLast?_eq_some_iff.1 last
  cases ds with
  | nil => cases hds
  | cons d ds => exact ⟨ds, (List.cons.inj hds).2⟩

/-- A text is read as an array type if it is one. -/
theorem parse?_array_iff {t element : String} {length : Option Nat} :
    parse? t = some (array element length) ↔ IsArrayText t element length := by
  constructor
  · intro h
    unfold parse? at h
    split at h
    case isFalse => split at h <;> cases h
    case isTrue last =>
      have bracket : '[' ∈ t.toList := by
        by_contra free
        cases (readArray?_of_not_mem free).symm.trans h
      obtain ⟨front, rest, text, free⟩ := List.eq_append_cons_of_mem bracket
      rw [text, readArray?_append free] at h
      split at h
      case isTrue => cases h
      case isFalse shape =>
        obtain ⟨nonempty, flat⟩ := not_or.1 shape
        obtain ⟨length', hlength, heq⟩ := Option.map_eq_some_iff.1 h
        cases heq
        obtain ⟨ds, rfl⟩ := exists_eq_concat_of_getLast? (text ▸ last)
        rw [List.dropLast_concat] at hlength
        refine ⟨String.ofList ds, ?_, ?_, ?_, ?_, ?_⟩
        · rw [← String.toList_inj, text]
          simp
        · simpa [← String.toList_inj] using nonempty
        · rwa [String.toList_ofList]
        · rw [String.toList_ofList]
          exact fun hd => flat (List.mem_append_left _ hd)
        · rw [String.toList_ofList]
          exact readLength?_eq_some_iff.1 hlength
  · intro h
    obtain ⟨d, rfl, nonempty, free, flat, hlength⟩ := h
    have text : (element ++ "[" ++ d ++ "]").toList =
        element.toList ++ '[' :: (d.toList ++ [']']) := by simp
    have shape : ¬ (element.toList = [] ∨ '[' ∈ d.toList ++ [']']) := by
      simpa [flat] using nonempty
    have last : (element.toList ++ '[' :: (d.toList ++ [']'])).getLast? = some ']' :=
      List.getLast?_eq_some_iff.2 ⟨element.toList ++ '[' :: d.toList, by simp⟩
    rw [parse?, text, if_pos last, readArray?_append free, if_neg shape, List.dropLast_concat,
      readLength?_eq_some_iff.2 hlength, Option.map_some, String.ofList_toList]

theorem IsArrayText.getLast? {t element : String} {length : Option Nat}
    (h : IsArrayText t element length) : t.toList.getLast? = some ']' := by
  obtain ⟨d, rfl, -⟩ := h
  exact List.getLast?_eq_some_iff.2 ⟨(element ++ "[" ++ d).toList, String.toList_append⟩

/-- The element of an array is no array. -/
theorem parse?_element_ne {t element : String} {length : Option Nat}
    (h : IsArrayText t element length) (e : String) (l : Option Nat) :
    parse? element ≠ some (array e l) := by
  intro he
  obtain ⟨-, -, -, free, -⟩ := h
  obtain ⟨d, rfl, -⟩ := parse?_array_iff.1 he
  exact free (by simp)

/-- Only a text that ends in a closing bracket can be no type. -/
theorem parse?_eq_none_iff {t : String} :
    parse? t = none ↔
      t.toList.getLast? = some ']' ∧ ¬ ∃ element length, IsArrayText t element length := by
  constructor
  · intro h
    have last : t.toList.getLast? = some ']' := by
      by_contra last
      rw [parse?, if_neg last] at h
      split at h <;> cases h
    refine ⟨last, fun array => ?_⟩
    obtain ⟨element, length, text⟩ := array
    cases (parse?_array_iff.2 text).symm.trans h
  · intro h
    obtain ⟨last, none⟩ := h
    cases ht : parse? t with
    | none => rfl
    | some type =>
      cases type with
      | array element length => exact absurd ⟨element, length, parse?_array_iff.1 ht⟩ none
      | leaf l => exact absurd last ((parse?_leaf_iff.1 ht).2 ▸ getLast?_name l)
      | struct name => exact absurd last (parse?_struct_iff.1 ht).2.1

/-- The type that a text is which does not end in a closing bracket is no other text's. -/
theorem parse?_inj {t t' : String} (last : t.toList.getLast? ≠ some ']')
    (same : parse? t' = parse? t) : t' = t := by
  cases ht : parse? t with
  | none => exact absurd (parse?_eq_none_iff.1 ht).1 last
  | some type =>
    rw [ht] at same
    cases type with
    | array element length => exact absurd (parse?_array_iff.1 ht).getLast? last
    | leaf l => exact (parse?_leaf_iff.1 same).2.trans (parse?_leaf_iff.1 ht).2.symm
    | struct name => exact (parse?_struct_iff.1 same).1.symm.trans (parse?_struct_iff.1 ht).1

/-- The grammar of declared types, for every text. One that ends in a closing bracket is
    read as an array exactly where it is an element type and a length in brackets, and is
    otherwise no type, which every encoding reports; its base is the element, and the
    element is no array. Any other text is a type: a leaf type by that type's name, or
    else the struct of that name; and it shares its type with no other text. -/
theorem parse?_grammar (t : String) :
    (t.toList.getLast? = some ']' →
      (∀ type, parse? t = some type ↔
          ∃ element length, type = array element length ∧ IsArrayText t element length) ∧
        (parse? t = none ↔ ¬ ∃ element length, IsArrayText t element length) ∧
        (parse? t = none →
          ∀ h s v, Session.encodeField h s t v = .error (.invalidType t)) ∧
        ∀ element length, parse? t = some (array element length) →
          base t = element ∧ ∀ e l, parse? element ≠ some (array e l)) ∧
      (t.toList.getLast? ≠ some ']' →
        (∃ type, parse? t = some type) ∧
          (∀ element length, parse? t ≠ some (array element length)) ∧
          (∀ l : Leaf, parse? t = some (leaf l) ↔ l.WellSized ∧ t = l.name) ∧
          (∀ name, parse? t = some (struct name) ↔
            name = t ∧ ¬ ∃ l : Leaf, l.WellSized ∧ t = l.name) ∧
          ∀ t', parse? t' = parse? t → t' = t) := by
  refine ⟨fun last => ⟨fun type => ⟨fun ht => ?_, ?_⟩, ?_, fun invalid h s v => ?_, ?_⟩,
    fun last => ⟨?_, ?_, fun l => parse?_leaf_iff, fun name => ?_,
      fun t' same => parse?_inj last same⟩⟩
  · rw [parse?, if_pos last] at ht
    obtain ⟨length, rfl⟩ := readArray?_eq_some ht
    refine ⟨_, length, rfl, parse?_array_iff.1 ?_⟩
    rw [parse?, if_pos last, ht]
  · rintro ⟨element, length, rfl, text⟩
    exact parse?_array_iff.2 text
  · rw [parse?_eq_none_iff, and_iff_right last]
  · rw [Session.encodeField, Session.layoutField_invalid invalid]
    rfl
  · intro element length ht
    exact ⟨(parse?_array ht).symm, parse?_element_ne (parse?_array_iff.1 ht)⟩
  · exact Option.ne_none_iff_exists'.1 fun none => last (parse?_eq_none_iff.1 none).1
  · exact fun element length ht => last (parse?_array_iff.1 ht).getLast?
  · rw [parse?_struct_iff, and_iff_right last]

/-- An array of three, its length with a plus sign and a leading zero. -/
theorem parse?_signed_length :
    "Person[+03]".toList.getLast? = some ']' ∧
      parse? "Person[+03]" = some (array "Person" (some 3)) ∧ base "Person[+03]" = "Person" := by
  have last : "Person[+03]".toList.getLast? = some ']' := by decide
  have numeral : ['0', '3'] ≠ [] ∧ ∀ c ∈ ['0', '3'], c.isDigit = true := by simp
  have length : LengthText "+03".toList (some 3) := .plus numeral (by decide)
  have text : IsArrayText "Person[+03]" "Person" (some 3) :=
    ⟨"+03", rfl, by decide, by decide, by decide, length⟩
  obtain ⟨arrays, -, -, element⟩ := (parse?_grammar "Person[+03]").1 last
  have read := (arrays _).2 ⟨"Person", some 3, rfl, text⟩
  exact ⟨last, read, (element _ _ read).1⟩

end FieldType
end TypedMessage
