import TypedMessage.Text.Blank

/- Lower case beyond ASCII. `LowerForm` has the lower case forms of a text under Unicode,
   where letters from outside ASCII may become letters of ASCII. For the words that this can
   neither make nor hide, `Plain` ones, it is enough to fold the ASCII letters
   (`contains_lowerForm`). -/
namespace TypedMessage.Text
variable {word key small : List Char} {c : Char}

/-- There are ASCII characters only. -/
def IsAscii (cs : List Char) : Prop := ∀ c ∈ cs, c.toNat < 128

-- The members are gone through one by one: `Char` is finite, but far too large to try all.
instance (cs : List Char) : Decidable (IsAscii cs) :=
  List.decidableBAll (fun c : Char => c.toNat < 128) cs

/-- A lower case form of a text. An ASCII capital becomes its small letter and every other
    ASCII character stays. Of the rest the Kelvin sign becomes a `k` and the capital I with a
    dot an `i` and a dot; whatever else is not ASCII becomes characters that are not. -/
inductive LowerForm : List Char → List Char → Prop
  | nil : LowerForm [] []
  | ascii {c : Char} {key small : List Char} (ascii : c.toNat < 128)
      (rest : LowerForm key small) : LowerForm (c :: key) (c.toLower :: small)
  | kelvin {key small : List Char} (rest : LowerForm key small) :
      LowerForm ('\u212a' :: key) ('k' :: small)
  | dotted {key small : List Char} (rest : LowerForm key small) :
      LowerForm ('\u0130' :: key) ('i' :: '\u0307' :: small)
  | foreign {c : Char} {form key small : List Char} (outside : 128 ≤ c.toNat)
      (letter : c ≠ '\u212a' ∧ c ≠ '\u0130') (nonempty : form ≠ [])
      (foreign : ∀ d ∈ form, 128 ≤ d.toNat) (rest : LowerForm key small) :
      LowerForm (c :: key) (form ++ small)

/-- A word of ASCII characters that no letter from outside ASCII helps to spell: there is no
    `k` in it, and no `i` at its end, where the dot would not be in the way. -/
def Plain (word : List Char) : Prop :=
  (∀ c ∈ word, c.toNat < 128 ∧ c ≠ 'k') ∧ word.getLast? ≠ some 'i'

instance (word : List Char) : Decidable (Plain word) :=
  have := List.decidableBAll (fun c : Char => c.toNat < 128 ∧ c ≠ 'k') word
  inferInstanceAs (Decidable (_ ∧ _))

theorem Plain.tail (plain : Plain (c :: word)) : Plain word := by
  refine ⟨(List.forall_mem_cons.1 plain.1).2, fun last => plain.2 ?_⟩
  rw [List.getLast?_cons, last]
  rfl

theorem toLower_of_foreign (outside : 128 ≤ c.toNat) : c.toLower = c := by
  refine dif_neg fun capital => ?_
  have : c.toNat ≤ 90 := UInt32.le_iff_toNat_le.1 capital.2
  omega

/-- A text of ASCII characters has the form in which these are folded. -/
theorem lowerForm_of_ascii (ascii : IsAscii key) : LowerForm key (key.map Char.toLower) := by
  induction key with
  | nil => exact .nil
  | cons c key ih =>
    obtain ⟨hc, hkey⟩ := List.forall_mem_cons.1 ascii
    exact .ascii hc (ih hkey)

/-! ## Words -/

theorem occursIn_iff_infix : occursIn word key = true ↔ word <:+: key := by
  induction key with
  | nil => simp [occursIn]
  | cons c key ih => simp [occursIn, ih, List.infix_cons_iff]

/-- A word does not start where a character is that it does not hold. -/
theorem prefix_cons_iff_eq_nil (hc : c ∉ word) (rest : List Char) :
    word <+: c :: rest ↔ word = [] := by
  cases word with
  | nil => simp
  | cons d word =>
    refine iff_of_false (fun front => hc ?_) (List.cons_ne_nil d word)
    rw [(List.cons_prefix_cons.1 front).1]
    exact List.mem_cons_self

theorem Plain.foreign_not_mem (plain : Plain word) (outside : 128 ≤ c.toNat) : c ∉ word :=
  fun hc => absurd (plain.1 c hc).1 (Nat.not_lt.2 outside)

/-- The word starts a form exactly if it starts the text with its ASCII letters folded. -/
theorem prefix_lowerForm_iff (form : LowerForm key small) (plain : Plain word) :
    word <+: small ↔ word <+: key.map Char.toLower := by
  induction form generalizing word with
  | nil => rfl
  | ascii _ _ ih =>
    cases word with
    | nil => simp
    | cons d word => simp only [List.map_cons, List.cons_prefix_cons, ih plain.tail]
  | kelvin _ _ =>
    have absent : 'k' ∉ word := fun hk => (plain.1 'k' hk).2 rfl
    rw [List.map_cons, prefix_cons_iff_eq_nil absent,
      prefix_cons_iff_eq_nil (plain.foreign_not_mem (by decide))]
  | dotted _ _ =>
    -- An `i` at the end of the word is excluded, and a dot behind it is not ASCII.
    cases word with
    | nil => simp
    | cons d word =>
      rw [List.map_cons, toLower_of_foreign (by decide), List.cons_prefix_cons,
        List.cons_prefix_cons, prefix_cons_iff_eq_nil (plain.tail.foreign_not_mem (by decide))]
      refine iff_of_false (fun front => plain.2 ?_) fun front => ?_
      · rw [front.1, front.2]
        rfl
      · exact plain.foreign_not_mem (c := '\u0130') (by decide) (front.1 ▸ List.mem_cons_self)
  | @foreign c form _ _ outside _ nonempty foreign _ _ =>
    obtain ⟨d, form, rfl⟩ := List.exists_cons_of_ne_nil nonempty
    rw [List.map_cons, toLower_of_foreign outside, List.cons_append,
      prefix_cons_iff_eq_nil (plain.foreign_not_mem outside),
      prefix_cons_iff_eq_nil (plain.foreign_not_mem (foreign d List.mem_cons_self))]

/-- No word starts among characters from outside ASCII. -/
theorem infix_foreign_append_iff {form : List Char} (plain : Plain word) (nonempty : word ≠ [])
    (foreign : ∀ d ∈ form, 128 ≤ d.toNat) : word <:+: form ++ small ↔ word <:+: small := by
  induction form with
  | nil => rfl
  | cons d form ih =>
    obtain ⟨hd, foreign⟩ := List.forall_mem_cons.1 foreign
    rw [List.cons_append, List.infix_cons_iff, ih foreign,
      prefix_cons_iff_eq_nil (plain.foreign_not_mem hd), or_iff_right nonempty]

theorem infix_lowerForm_iff (form : LowerForm key small) (plain : Plain word)
    (nonempty : word ≠ []) : word <:+: small ↔ word <:+: key.map Char.toLower := by
  have step {c d : Char} {key small : List Char}
      (start : word <+: d :: small ↔ word <+: (c :: key).map Char.toLower)
      (rest : word <:+: small ↔ word <:+: key.map Char.toLower) :
      word <:+: d :: small ↔ word <:+: (c :: key).map Char.toLower := by
    rw [List.infix_cons_iff, start, rest]
    exact List.infix_cons_iff.symm
  induction form with
  | nil => rfl
  | ascii hc rest ih => exact step (prefix_lowerForm_iff (.ascii hc rest) plain) ih
  | kelvin rest ih => exact step (prefix_lowerForm_iff (.kelvin rest) plain) ih
  | dotted rest ih =>
    have dot : ∀ d ∈ ['\u0307'], 128 ≤ d.toNat := List.forall_mem_singleton.2 (by decide)
    exact step (prefix_lowerForm_iff (.dotted rest) plain)
      ((infix_foreign_append_iff plain nonempty dot).trans ih)
  | @foreign c _ _ _ outside _ _ foreign _ ih =>
    refine (infix_foreign_append_iff plain nonempty foreign).trans (ih.trans ?_)
    rw [List.map_cons, toLower_of_foreign outside, List.infix_cons_iff,
      prefix_cons_iff_eq_nil (plain.foreign_not_mem outside), or_iff_right nonempty]

/-- To find a plain word it is enough to fold the ASCII letters. -/
theorem contains_lowerForm {key small word : String} (form : LowerForm key.toList small.toList)
    (plain : Plain word.toList) : contains small word = contains (lower key) word := by
  rw [Bool.eq_iff_iff, contains, contains, lower, String.toList_ofList, occursIn_iff_infix,
    occursIn_iff_infix]
  by_cases empty : word.toList = []
  · simp [empty]
  · exact infix_lowerForm_iff form plain empty

end TypedMessage.Text
