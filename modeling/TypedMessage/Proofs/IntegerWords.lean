import TypedMessage.Proofs.Conformance
import TypedMessage.Proofs.IntegerTexts
import TypedMessage.Proofs.TypeNames
import TypedMessage.Proofs.Values

/- The words of integers. `Json.Spelling` lists the ways to write an integer: a number, or a
   string with zeros in front of the digits, blanks around them, decimal or hexadecimal.
   Each of them is read as the integer it was written for (`Json.asInteger_of_spelling`),
   so the word depends on the integer alone (`integer_words_exact`). -/
namespace TypedMessage

/-! ## Digits of either case -/

namespace Hex

theorem digitValue?_digitChar : ∀ n < 16, digitValue? n.digitChar = some n := by decide

/-- The case of a digit does not count. -/
theorem digitValue?_toLower (c : Char) : digitValue? c.toLower = digitValue? c := by
  by_cases upper : 'A' ≤ c ∧ c ≤ 'Z'
  · have capitals : ∀ k < 26, digitValue? (Char.ofNat (65 + k)).toLower =
        digitValue? (Char.ofNat (65 + k)) := by decide
    have first : 65 ≤ c.toNat := UInt32.le_iff_toNat_le.1 upper.1
    have last : c.toNat ≤ 90 := UInt32.le_iff_toNat_le.1 upper.2
    have hc := capitals (c.toNat - 65) (by omega)
    rwa [Nat.add_sub_cancel' first, Char.ofNat_toNat] at hc
  · have same : c.toLower = c := dif_neg upper
    rw [same]

theorem value_concat (vs : List Nat) (v : Nat) : value (vs ++ [v]) = value vs * 16 + v := by
  simp [value]

theorem value_zeros (zeros : Nat) (vs : List Nat) :
    value (List.replicate zeros 0 ++ vs) = value vs := by
  induction zeros with
  | zero => rfl
  | succ zeros ih => exact ih

end Hex

namespace Integer
variable {cs ds : List Char} {vs : List Nat} {negative : Bool} {m : Nat} {n : Int}

/-- The hexadecimal digits of a number spell it. -/
theorem exists_hexDigits_toDigits (m : Nat) :
    ∃ vs, HexDigits (Nat.toDigits 16 m) vs ∧ Hex.value vs = m := by
  induction m using Nat.strongRecOn with
  | ind m ih =>
    rw [Nat.toDigits_eq_if (by decide)]
    split
    case isTrue small =>
      exact ⟨[m], .cons (Hex.digitValue?_digitChar m small) .nil, by simp [Hex.value]⟩
    case isFalse large =>
      obtain ⟨vs, digits, hvs⟩ := ih (m / 16) (by omega)
      have last := Hex.digitValue?_digitChar (m % 16) (Nat.mod_lt m (by decide))
      refine ⟨vs ++ [m % 16], List.rel_append digits (.cons last .nil), ?_⟩
      rw [Hex.value_concat, hvs, Nat.div_add_mod']

theorem HexDigits.zeros (digits : HexDigits ds vs) (zeros : Nat) :
    HexDigits (List.replicate zeros '0' ++ ds) (List.replicate zeros 0 ++ vs) := by
  induction zeros with
  | zero => exact digits
  | succ zeros ih => exact .cons rfl ih

theorem hexDigits_toLower (digits : HexDigits (ds.map Char.toLower) vs) : HexDigits ds vs := by
  simpa only [List.forall₂_map_left_iff, Hex.digitValue?_toLower] using digits

/-! ## The texts of an integer -/

/-- A minus stands in front of a negative integer and none in front of a positive one; in
    front of zero it may stand or not. -/
inductive SignText : Int → List Char → Prop
  | absent {n : Int} (nonneg : 0 ≤ n) : SignText n []
  | minus {n : Int} (nonpos : n ≤ 0) : SignText n ['-']

/-- The digits of a number with zeros in front: decimal ones, or behind a mark up to 64
    hexadecimal ones of either case. -/
inductive DigitText : Nat → List Char → Prop
  | decimal {m : Nat} (zeros : Nat) :
      DigitText m (List.replicate zeros '0' ++ Nat.toDigits 10 m)
  | hexadecimal {m zeros : Nat} {mark : Char} {ds : List Char} (mark_eq : mark = 'x' ∨ mark = 'X')
      (short : ds.length ≤ 64)
      (digits : ds.map Char.toLower = List.replicate zeros '0' ++ Nat.toDigits 16 m) :
      DigitText m ('0' :: mark :: ds)

/-- The digits of a number denote it. -/
theorem DigitText.denotes (h : DigitText m ds) : Denotes ds m := by
  cases h with
  | decimal zeros =>
    have digits : ∀ d ∈ List.replicate zeros '0' ++ Nat.toDigits 10 m, d.isDigit = true := by
      intro d hd
      rcases List.mem_append.1 hd with hd | hd
      · rw [List.eq_of_mem_replicate hd]
        rfl
      · exact Text.isDigit_of_mem_toDigits hd
    have denotes := Denotes.decimal (List.append_ne_nil_of_right_ne_nil _ Nat.toDigits_ne_nil) digits
    rwa [Text.decimalValue_toDigits] at denotes
  | @hexadecimal zeros mark ds mark_eq short digits =>
    obtain ⟨vs, small, rfl⟩ := exists_hexDigits_toDigits m
    have nonempty : ds ≠ [] := by
      rintro rfl
      exact Nat.toDigits_ne_nil (List.append_eq_nil_iff.1 digits.symm).2
    have denotes := Denotes.hexadecimal mark_eq nonempty short
      (hexDigits_toLower (digits ▸ small.zeros zeros))
    rwa [Hex.value_zeros] at denotes

theorem SignText.signed (h : SignText n cs) (denotes : Denotes ds n.natAbs) :
    ∃ negative, Signed Denotes (cs ++ ds) negative n.natAbs ∧ n = ofSign negative n.natAbs := by
  cases h with
  | absent nonneg =>
    have hn : n = (n.natAbs : Int) := by omega
    exact ⟨false, .plain denotes, hn⟩
  | minus nonpos =>
    have hn : n = -(n.natAbs : Int) := by omega
    exact ⟨true, .minus denotes, hn⟩

/-! ### Blanks around them -/

theorem isBlank_of_isDigit {c : Char} (h : Hex.IsDigit c) : Text.isBlank c = false := by
  have between {a b : Char} (ha : 48 ≤ a.toNat) (hb : b.toNat ≤ 102) (h : a ≤ c ∧ c ≤ b) :
      48 ≤ c.toNat ∧ c.toNat ≤ 102 :=
    ⟨ha.trans (UInt32.le_iff_toNat_le.1 h.1), (UInt32.le_iff_toNat_le.1 h.2).trans hb⟩
  have bounds : 48 ≤ c.toNat ∧ c.toNat ≤ 102 := by
    rcases h with h | h | h <;> exact between (by decide) (by decide) h
  simp [Text.isBlank]
  omega

theorem Denotes.unblank (h : Denotes cs m) : cs ≠ [] ∧ ∀ c ∈ cs, Text.isBlank c = false := by
  cases h with
  | decimal nonempty digits =>
    refine ⟨nonempty, fun c hc => isBlank_of_isDigit (.inl ?_)⟩
    simpa [Char.isDigit, Char.le_def] using digits c hc
  | @hexadecimal mark ds vs mark_eq _ _ digits =>
    have hmark : Text.isBlank mark = false := by rcases mark_eq with rfl | rfl <;> decide
    refine ⟨by simp, List.forall_mem_cons.2 ⟨by decide, List.forall_mem_cons.2 ⟨hmark, ?_⟩⟩⟩
    exact fun c hc => isBlank_of_isDigit (digits.isDigit c hc)

theorem Signed.unblank (h : Signed Denotes cs negative m) :
    cs ≠ [] ∧ ∀ c ∈ cs, Text.isBlank c = false := by
  cases h with
  | plain denotes => exact denotes.unblank
  | minus denotes =>
    exact ⟨by simp, List.forall_mem_cons.2 ⟨by decide, denotes.unblank.2⟩⟩

/-- What is left of a text without the blanks around it. -/
theorem trimList_append {front back : List Char} (hfront : ∀ c ∈ front, Text.isBlank c = true)
    (hback : ∀ c ∈ back, Text.isBlank c = true)
    (hcs : cs ≠ [] ∧ ∀ c ∈ cs, Text.isBlank c = false) :
    Text.trimList (front ++ (cs ++ back)) = cs := by
  have skip {xs ys : List Char} (hxs : ∀ c ∈ xs, Text.isBlank c = true)
      (hys : ∀ c ∈ ys.head?, Text.isBlank c = false) : (xs ++ ys).dropWhile Text.isBlank = ys := by
    rw [List.dropWhile_append_of_pos hxs]
    cases ys with
    | nil => rfl
    | cons c ys => simp [hys c rfl]
  have first : ∀ c ∈ (cs ++ back).head?, Text.isBlank c = false := by
    rw [List.head?_append_of_ne_nil _ hcs.1]
    exact fun c hc => hcs.2 c (List.mem_of_head? hc)
  have last : ∀ c ∈ cs.reverse.head?, Text.isBlank c = false :=
    fun c hc => hcs.2 c (List.mem_reverse.1 (List.mem_of_head? hc))
  rw [Text.trimList, skip hfront first, List.reverse_append, skip (by simpa using hback) last,
    List.reverse_reverse]

end Integer

/-! ## The values that spell an integer -/

namespace Json
variable {v : Json} {n n' : Int}

/-- The integer is written in this value: in decimal digits as a number, or in digits of
    either kind as a string, with blanks around them. -/
inductive Spelling (n : Int) : Json → Prop
  | number {t : String} {sign : List Char} (sign_text : Integer.SignText n sign)
      (text : t.toList = sign ++ Nat.toDigits 10 n.natAbs) : Spelling n (.number t)
  | string {s : String} {front sign digits back : List Char}
      (sign_text : Integer.SignText n sign) (digit_text : Integer.DigitText n.natAbs digits)
      (front_blank : ∀ c ∈ front, Text.isBlank c = true)
      (back_blank : ∀ c ∈ back, Text.isBlank c = true)
      (text : s.toList = front ++ (sign ++ digits ++ back)) : Spelling n (.string s)

/-- What is left without the blanks is the integer's sign and a numeral of its magnitude. -/
theorem Spelling.signed (h : Spelling n v) :
    ∃ cs ∈ v.integerText?, ∃ negative, Integer.Signed Integer.Denotes cs negative n.natAbs ∧
      n = Integer.ofSign negative n.natAbs := by
  cases h with
  | number sign_text text =>
    have digits := (Integer.DigitText.decimal (m := n.natAbs) 0).denotes
    exact ⟨_, by rw [integerText?, text]; rfl, sign_text.signed digits⟩
  | string sign_text digit_text front_blank back_blank text =>
    obtain ⟨negative, signed, hn⟩ := sign_text.signed digit_text.denotes
    have trimmed := Integer.trimList_append front_blank back_blank signed.unblank
    exact ⟨_, by rw [integerText?, text, trimmed]; rfl, negative, signed, hn⟩

/-- An integer whose magnitude fits 256 bits is read from what it is written in. -/
theorem asInteger_of_spelling (h : Spelling n v) (fits : n.natAbs < 2 ^ 256) :
    v.asInteger = .ok n := by
  obtain ⟨cs, hcs, negative, signed, hn⟩ := h.signed
  exact asInteger_eq_ok_iff.2 ⟨negative, n.natAbs, .inl ⟨cs, hcs, signed, fits⟩, hn⟩

/-- No other integer is read from it. -/
theorem eq_of_spelling (h : Spelling n v) (read : v.asInteger = .ok n') : n' = n := by
  obtain ⟨cs, hcs, negative, signed, hn⟩ := h.signed
  obtain ⟨negative', m', ⟨cs', hcs', spelled⟩ | ⟨cs', hcs', marked⟩, rfl⟩ :=
    asInteger_eq_ok_iff.1 read
  · cases Option.mem_unique hcs hcs'
    obtain ⟨rfl, rfl⟩ := Integer.signed_unique signed spelled.1
    exact hn.symm
  · cases Option.mem_unique hcs hcs'
    exact absurd signed (Integer.not_signed_of_marked marked)

/-- The decimal digits of an integer are a number as the reader gives it. -/
theorem numeral_of_spelling {t : String} (h : Spelling n (.number t)) : Numeral t.toList := by
  have magnitude : Magnitude (Nat.toDigits 10 n.natAbs) := by
    obtain ⟨d, ds, hds⟩ := List.exists_cons_of_ne_nil (Nat.toDigits_ne_nil (b := 10) (n := n.natAbs))
    have digits : AllDigits (d :: ds) := hds ▸ fun _ => Text.isDigit_of_mem_toDigits
    by_cases hn : n.natAbs = 0
    · rw [hn]
      exact .zero (.absent .absent)
    · have nonzero := Text.head?_toDigits_ne (Nat.pos_of_ne_zero hn)
      rw [hds] at nonzero ⊢
      rw [← List.append_nil (d :: ds)]
      exact .whole (fun hd => nonzero (congrArg some hd)) digits (.absent .absent)
  cases h with
  | number sign_text text =>
    rw [text]
    cases sign_text with
    | absent => exact .plain magnitude
    | minus => exact .negative magnitude

end Json

/-! ## Words -/

namespace Word
variable {n : Int}

/-- The number that a word spells in two's complement. -/
def toInt (w : Word) : Int := if w.toNat < 2 ^ 255 then w.toNat else w.toNat - 2 ^ 256

theorem toNat_ofInt (n : Int) : ((ofInt n).toNat : Int) = n % 2 ^ 256 := by
  rw [ofInt, toNat_ofNat]
  omega

theorem toInt_ofInt (h : -2 ^ 255 ≤ n ∧ n < 2 ^ 255) : (ofInt n).toInt = n := by
  have := toNat_ofInt n
  unfold toInt
  split <;> omega

end Word

namespace Session
variable {h : Hash} {s : Session} {type : String} {v : Json} {n : Int} {bits : Nat}

/-- The integer that `v` spells is encoded exactly: as its word where it is in the range of
    the type, and elsewhere the value is malformed. -/
structure EncodesExactly (h : Hash) (s : Session) (type : String) (v : Json) (n : Int)
    (inRange : Prop) : Prop where
  word : inRange → s.encodeField h type v = .ok (.ofInt n)
  malformed : ¬ inRange → ∃ reason, s.encodeField h type v = .error (.malformed type reason)

theorem encodesExactly_of {l : Leaf} {inRange : Prop} (ht : FieldType.parse? type = some (.leaf l))
    (takes : l.Takes s.enforceWidth v ↔ inRange)
    (word : ∀ p, l.slot s.enforceWidth v = .ok p → p = .word (.ofInt n)) :
    EncodesExactly h s type v n inRange where
  word inside := by
    obtain ⟨p, hp⟩ := Leaf.slot_isOk_iff.2 (takes.2 inside)
    rw [encodeField, layoutField_leaf ht, hp, word p hp]
    rfl
  malformed outside := by
    cases hslot : l.slot s.enforceWidth v with
    | ok p => exact absurd (takes.1 (Leaf.slot_isOk_iff.1 ⟨p, hslot⟩)) outside
    | error reason =>
      rw [encodeField, layoutField_leaf ht, hslot]
      exact ⟨reason, rfl⟩

theorem checkedWidth_le (hbits : bits ≤ 256) (enforce : Bool) :
    Leaf.checkedWidth enforce bits ≤ 256 := by
  cases enforce
  · exact Nat.le_refl _
  · exact hbits

theorem two_pow_le {j k : Nat} (h : j ≤ k) : (2 : Int) ^ j ≤ 2 ^ k := by
  have := Nat.pow_le_pow_right (n := 2) (by decide) h
  exact_mod_cast this

theorem encodesExactly_uint (spelled : v.Spelling n)
    (ht : FieldType.parse? type = some (.leaf (.uint bits))) (hbits : bits ≤ 256) :
    EncodesExactly h s type v n (0 ≤ n ∧ n < 2 ^ Leaf.checkedWidth s.enforceWidth bits) := by
  refine encodesExactly_of ht ⟨fun takes => ?_, fun inside => ?_⟩ fun p hp => ?_
  · obtain ⟨n', read, inside⟩ := takes
    rwa [Json.eq_of_spelling spelled read] at inside
  · have := two_pow_le (checkedWidth_le hbits s.enforceWidth)
    exact ⟨n, Json.asInteger_of_spelling spelled (by omega), inside⟩
  · obtain ⟨n', w, read, hw, rfl⟩ := Leaf.slot_uint_eq_ok.1 hp
    rw [(Leaf.uintWord_eq_ok.1 hw).2.2, Json.eq_of_spelling spelled read]

theorem encodesExactly_int (spelled : v.Spelling n)
    (ht : FieldType.parse? type = some (.leaf (.int bits))) (hbits : bits ≤ 256) :
    EncodesExactly h s type v n (-2 ^ (Leaf.checkedWidth s.enforceWidth bits - 1) ≤ n ∧
      n < 2 ^ (Leaf.checkedWidth s.enforceWidth bits - 1)) := by
  refine encodesExactly_of ht ⟨fun takes => ?_, fun inside => ?_⟩ fun p hp => ?_
  · obtain ⟨n', read, inside⟩ := takes
    rwa [Json.eq_of_spelling spelled read] at inside
  · have := checkedWidth_le hbits s.enforceWidth
    have := two_pow_le (j := Leaf.checkedWidth s.enforceWidth bits - 1) (k := 255) (by omega)
    exact ⟨n, Json.asInteger_of_spelling spelled (by omega), inside⟩
  · obtain ⟨n', w, read, hw, rfl⟩ := Leaf.slot_int_eq_ok.1 hp
    rw [(Leaf.intWord_eq_ok.1 hw).2, Json.eq_of_spelling spelled read]

/-- Whatever way an integer is written in, it is encoded as its own word if it is in the range
    of its type, where without enforcement every type has the range of a word; a number
    is read from a text with all its digits. -/
theorem integer_words_exact (h : Hash) (s : Session)
    (width : 8 ≤ bits ∧ bits ≤ 256 ∧ bits % 8 = 0) (spelled : v.Spelling n) :
    EncodesExactly h s ("uint" ++ toString bits) v n
        (0 ≤ n ∧ n < 2 ^ Leaf.checkedWidth s.enforceWidth bits) ∧
      EncodesExactly h s ("int" ++ toString bits) v n
        (-2 ^ (Leaf.checkedWidth s.enforceWidth bits - 1) ≤ n ∧
          n < 2 ^ (Leaf.checkedWidth s.enforceWidth bits - 1)) ∧
      ((Word.ofInt n).toNat : Int) = n % 2 ^ 256 ∧
      (0 ≤ n ∧ n < 2 ^ 256 → ((Word.ofInt n).toNat : Int) = n) ∧
      (-2 ^ 255 ≤ n ∧ n < 2 ^ 255 → (Word.ofInt n).toInt = n) ∧
      ∀ t, v = .number t → Json.parse t = .ok v ∧
        ∀ depth, Json.ReadsBack (Json.readValue depth) t.toList v := by
  refine ⟨encodesExactly_uint spelled (FieldType.parse?_uint width) width.2.1,
    encodesExactly_int spelled (FieldType.parse?_int width) width.2.1, Word.toNat_ofInt n,
    fun inside => ?_, Word.toInt_ofInt, fun t ht => ?_⟩
  · rw [Word.toNat_ofInt, Int.emod_eq_of_lt inside.1 inside.2]
  · subst ht
    have numeral := Json.numeral_of_spelling spelled
    have reads (depth : Nat) : Json.ReadsBack (Json.readValue depth)
        (Json.printAt .compact 0 (.number t)) (.number t) :=
      Json.readsBack_readValue (fun inner => Json.readsBack_number inner numeral) depth
    simp only [Json.printAt] at reads
    have parsed := Json.document_ofList (reads Json.maxDepth).read_all
    rw [String.ofList_toList] at parsed
    exact ⟨parsed, reads⟩

/-- The least integer of eight bits, as a hexadecimal string with a capital mark and blanks. -/
theorem integer_words_exact_least :
    (8 ≤ 8 ∧ 8 ≤ 256 ∧ 8 % 8 = 0) ∧ Json.Spelling (-128) (.string "\u2003-0X0080\n") ∧
      Session.encodeField keccak256 { schema := Dict.empty, enforceWidth := true } "int8"
        (.string "\u2003-0X0080\n") = .ok (.ofInt (-128)) ∧
      (Word.ofInt (-128)).toInt = -128 := by
  have width : 8 ≤ 8 ∧ 8 ≤ 256 ∧ 8 % 8 = 0 := by decide
  have sign : Integer.SignText (-128) ['-'] := .minus (by decide)
  have hex : ['0', '0', '8', '0'].map Char.toLower = List.replicate 2 '0' ++ Nat.toDigits 16 128 := by
    decide
  have digits : Integer.DigitText 128 ['0', 'X', '0', '0', '8', '0'] :=
    .hexadecimal (.inr rfl) (by decide) hex
  have front : ∀ c ∈ ['\u2003'], Text.isBlank c = true := List.forall_mem_singleton.2 (by decide)
  have back : ∀ c ∈ ['\n'], Text.isBlank c = true := List.forall_mem_singleton.2 (by decide)
  have spelled : Json.Spelling (-128) (.string "\u2003-0X0080\n") :=
    .string sign digits front back (by decide)
  obtain ⟨-, signed, -, -, read, -⟩ := integer_words_exact keccak256
    { schema := Dict.empty, enforceWidth := true } width spelled
  exact ⟨width, spelled, signed.word (by decide), read (by decide)⟩

end Session
end TypedMessage
