import TypedMessage.Log.Redaction
import TypedMessage.Proofs.Numerals

/- Cuts of texts at a number of bytes. A cut gives whole characters or nothing
   (`takeBytes?_eq_some_iff`, `dropBytes?_eq_some_iff`), and which of the two, and what it
   gives, is told by the bytes on its own side alone (`takeBytes?_congr`,
   `dropBytes?_congr`): UTF-8 shows where a character starts and where it ends. -/
namespace TypedMessage

/-! ## Characters among bytes -/

section Characters
variable {c d : Char} {xs ys : Bytes} {cs ds front back : List Char}

/-- The bytes of characters, one after the other. -/
theorem utf8_ofList_cons (c : Char) (cs : List Char) :
    utf8 (String.ofList (c :: cs)) = String.utf8EncodeChar c ++ utf8 (String.ofList cs) := by
  rw [utf8_ofList, utf8_ofList, List.flatMap_cons]

theorem utf8_ofList_append (cs ds : List Char) :
    utf8 (String.ofList (cs ++ ds)) = utf8 (String.ofList cs) ++ utf8 (String.ofList ds) := by
  rw [utf8_ofList, utf8_ofList, utf8_ofList, List.flatMap_append]

theorem utf8_ofList_inj (h : utf8 (String.ofList cs) = utf8 (String.ofList ds)) : cs = ds :=
  String.ofList_injective (text_eq_of_utf8_eq h)

/-- Where the bytes of a character stand in front there is no other one. -/
theorem utf8EncodeChar_append_inj
    (h : String.utf8EncodeChar c ++ xs = String.utf8EncodeChar d ++ ys) : c = d ∧ xs = ys := by
  have same : c = d := by
    have hc := ByteArray.utf8DecodeChar?_utf8EncodeChar_append (b := xs.toByteArray) (c := c)
    have hd := ByteArray.utf8DecodeChar?_utf8EncodeChar_append (b := ys.toByteArray) (c := d)
    rw [← List.toByteArray_append, h, List.toByteArray_append, hd] at hc
    exact (Option.some.inj hc).symm
  subst same
  exact ⟨rfl, List.append_cancel_left h⟩

/-- Characters whose bytes are in front are in front. -/
theorem prefix_of_utf8_prefix
    (h : utf8 (String.ofList front) <+: utf8 (String.ofList cs)) : front <+: cs := by
  induction front generalizing cs with
  | nil => exact List.nil_prefix
  | cons c front ih =>
    obtain ⟨rest, h⟩ := h
    cases cs with
    | nil =>
      rw [utf8_ofList_cons, List.append_assoc] at h
      exact absurd (List.append_eq_nil_iff.1 h).1 String.utf8EncodeChar_ne_nil
    | cons d cs =>
      rw [utf8_ofList_cons, utf8_ofList_cons, List.append_assoc] at h
      obtain ⟨same, h⟩ := utf8EncodeChar_append_inj h
      exact List.cons_prefix_cons.2 ⟨same, ih ⟨rest, h⟩⟩

theorem isUTF8FirstByte_of_utf8EncodeChar {x : UInt8} (h : String.utf8EncodeChar c = x :: xs) :
    x.IsUTF8FirstByte := by
  have first := UInt8.isUTF8FirstByte_getElem_zero_utf8EncodeChar (c := c)
  simpa only [h, List.getElem_cons_zero] using first

/-- No character starts inside another. -/
theorem eq_nil_of_utf8EncodeChar_eq_append {x : UInt8}
    (h : String.utf8EncodeChar c = xs ++ x :: ys) (first : x.IsUTF8FirstByte) : xs = [] := by
  have inside : xs.length < (String.utf8EncodeChar c).length := by
    rw [h, List.length_append, List.length_cons]
    omega
  have at_x : (String.utf8EncodeChar c)[xs.length] = x := by
    simp only [h, List.getElem_append_right (Nat.le_refl _), Nat.sub_self, List.getElem_cons_zero]
  rw [← at_x, UInt8.isUTF8FirstByte_getElem_utf8EncodeChar] at first
  exact List.eq_nil_of_length_eq_zero first

/-- Characters whose bytes are at the end are at the end. -/
theorem suffix_of_utf8_suffix
    (h : utf8 (String.ofList back) <:+ utf8 (String.ofList cs)) : back <:+ cs := by
  induction cs with
  | nil =>
    have empty : utf8 (String.ofList back) = utf8 (String.ofList []) := List.suffix_nil.1 h
    exact ⟨[], utf8_ofList_inj empty⟩
  | cons d cs ih =>
    obtain ⟨xs, h⟩ := h
    rw [utf8_ofList_cons, List.append_eq_append_iff] at h
    rcases h with ⟨ys, hd, h⟩ | ⟨ys, -, h⟩
    case inr => exact (ih ⟨ys, h.symm⟩).trans (List.suffix_cons d cs)
    case inl =>
      -- The bytes at the end take some of those of `d`: none, or all of them.
      cases ys with
      | nil =>
        rw [utf8_ofList_inj (h.trans (List.nil_append _))]
        exact List.suffix_cons d cs
      | cons y ys =>
        cases back with
        | nil => exact List.nil_suffix
        | cons c back =>
          obtain ⟨z, zs, hz⟩ := List.exists_cons_of_ne_nil (String.utf8EncodeChar_ne_nil (c := c))
          have start := h
          rw [utf8_ofList_cons, hz] at start
          obtain ⟨rfl, -⟩ := List.cons.inj start
          have front := eq_nil_of_utf8EncodeChar_eq_append hd (isUTF8FirstByte_of_utf8EncodeChar hz)
          rw [front, List.nil_append] at hd
          rw [← hd, ← utf8_ofList_cons] at h
          exact ⟨[], utf8_ofList_inj h⟩

end Characters

/-! ## Cuts -/

namespace Log
variable {cs ds front back : List Char} {m n : Nat}

theorem byteLength_ofList_append (cs ds : List Char) :
    byteLength (String.ofList (cs ++ ds)) =
      byteLength (String.ofList cs) + byteLength (String.ofList ds) := by
  rw [byteLength, utf8_ofList_append, List.length_append]
  rfl

theorem byteLength_ofList_cons (c : Char) (cs : List Char) :
    byteLength (String.ofList (c :: cs)) = c.utf8Size + byteLength (String.ofList cs) := by
  simp only [byteLength, utf8_ofList, List.flatMap_cons, List.length_append,
    String.length_utf8EncodeChar]

/-- A cut behind whole characters gives them. -/
theorem takeBytes?_append (front rest : List Char) :
    takeBytes? (byteLength (String.ofList front)) (front ++ rest) = some front := by
  induction front with
  | nil =>
    have empty : byteLength (String.ofList []) = 0 := rfl
    rw [empty, takeBytes?]
  | cons c cs ih =>
    have pos := Char.utf8Size_pos c
    obtain ⟨n, hn⟩ := Nat.exists_eq_succ_of_ne_zero (Nat.ne_of_gt pos)
    rw [byteLength_ofList_cons, List.cons_append, hn, Nat.succ_add, takeBytes?]
    have left : n + byteLength (String.ofList cs) + 1 - c.utf8Size =
        byteLength (String.ofList cs) := by omega
    rw [if_pos (by omega), left, ih]
    rfl

/-- A cut in front of whole characters gives them. -/
theorem dropBytes?_append (front rest : List Char) :
    dropBytes? (byteLength (String.ofList front)) (front ++ rest) = some rest := by
  induction front with
  | nil =>
    have empty : byteLength (String.ofList []) = 0 := rfl
    rw [empty, dropBytes?]
    rfl
  | cons c cs ih =>
    have pos := Char.utf8Size_pos c
    obtain ⟨n, hn⟩ := Nat.exists_eq_succ_of_ne_zero (Nat.ne_of_gt pos)
    rw [byteLength_ofList_cons, List.cons_append, hn, Nat.succ_add, dropBytes?]
    have left : n + byteLength (String.ofList cs) + 1 - c.utf8Size =
        byteLength (String.ofList cs) := by omega
    rw [if_pos (by omega), left, ih]

/-- What is cut off in front is whole characters, of as many bytes. -/
theorem takeBytes?_eq_some_iff :
    takeBytes? n cs = some front ↔
      ∃ back, cs = front ++ back ∧ byteLength (String.ofList front) = n := by
  constructor
  · intro cut
    fun_induction takeBytes? n cs generalizing front with
    | case1 => cases cut; exact ⟨_, rfl, rfl⟩
    | case2 => cases cut
    | case3 n c cs fits ih =>
      obtain ⟨front, hfront, rfl⟩ := Option.map_eq_some_iff.1 cut
      obtain ⟨back, rfl, length⟩ := ih hfront
      refine ⟨back, rfl, ?_⟩
      rw [byteLength_ofList_cons]
      omega
    | case4 => cases cut
  · intro whole
    obtain ⟨back, rfl, rfl⟩ := whole
    exact takeBytes?_append front back

/-- What is left behind a cut is whole characters, and so is what is cut off. -/
theorem dropBytes?_eq_some_iff :
    dropBytes? n cs = some back ↔
      ∃ front, cs = front ++ back ∧ byteLength (String.ofList front) = n := by
  constructor
  · intro cut
    fun_induction dropBytes? n cs with
    | case1 => cases cut; exact ⟨[], rfl, rfl⟩
    | case2 => cases cut
    | case3 n c cs fits ih =>
      obtain ⟨front, rfl, length⟩ := ih cut
      refine ⟨c :: front, rfl, ?_⟩
      rw [byteLength_ofList_cons]
      omega
    | case4 => cases cut
  · intro whole
    obtain ⟨front, rfl, rfl⟩ := whole
    exact dropBytes?_append front back

/-- A cut in front depends on the bytes in front of it only. -/
theorem takeBytes?_congr
    (same : (utf8 (String.ofList cs)).take n = (utf8 (String.ofList ds)).take n) :
    takeBytes? n cs = takeBytes? n ds := by
  have carry {cs ds front : List Char}
      (same : (utf8 (String.ofList cs)).take n = (utf8 (String.ofList ds)).take n)
      (cut : takeBytes? n cs = some front) : takeBytes? n ds = some front := by
    obtain ⟨back, rfl, rfl⟩ := takeBytes?_eq_some_iff.1 cut
    rw [utf8_ofList_append, byteLength, List.take_left] at same
    have start : utf8 (String.ofList front) <+: utf8 (String.ofList ds) :=
      same ▸ List.take_prefix _ _
    obtain ⟨rest, rfl⟩ := prefix_of_utf8_prefix start
    exact takeBytes?_append front rest
  exact Option.ext fun front => ⟨carry same, carry same.symm⟩

/-- A cut at the end depends on the bytes behind it only. -/
theorem dropBytes?_congr
    (hn : n ≤ byteLength (String.ofList cs)) (hm : m ≤ byteLength (String.ofList ds))
    (same : (utf8 (String.ofList cs)).drop n = (utf8 (String.ofList ds)).drop m) :
    dropBytes? n cs = dropBytes? m ds := by
  have carry {cs ds back : List Char} {n m : Nat} (hm : m ≤ byteLength (String.ofList ds))
      (same : (utf8 (String.ofList cs)).drop n = (utf8 (String.ofList ds)).drop m)
      (cut : dropBytes? n cs = some back) : dropBytes? m ds = some back := by
    obtain ⟨front, rfl, rfl⟩ := dropBytes?_eq_some_iff.1 cut
    rw [utf8_ofList_append, byteLength, List.drop_left] at same
    have finish : utf8 (String.ofList back) <:+ utf8 (String.ofList ds) :=
      same ▸ List.drop_suffix _ _
    have length := congrArg List.length same
    rw [List.length_drop] at length
    obtain ⟨start, rfl⟩ := suffix_of_utf8_suffix finish
    refine dropBytes?_eq_some_iff.2 ⟨start, rfl, ?_⟩
    rw [byteLength_ofList_append] at hm
    simp only [utf8_ofList_append, List.length_append] at length
    simp only [byteLength] at hm ⊢
    omega
  exact Option.ext fun back => ⟨carry hm same, carry hn same.symm⟩

end Log
end TypedMessage
