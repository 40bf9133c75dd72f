import TypedMessage.Proofs.Lexemes
import TypedMessage.Json.Skip
import Mathlib.Data.List.DropRight

/- What is left of a text when a part of it was read. Of every part it is told how many
   characters it takes at least, that it holds no zero character, and that the readers which
   keep nothing come to the same place: numbers are read whatever is said of texts that end
   inside them (`readNumber_passes`), and strings with their escapes taken one by one
   (`skipString_of_readString`). -/
namespace TypedMessage.Json

/-! ## What is left of a text -/

/-- `rest` is left of `s` after at least `k` characters, none of them a zero character. -/
structure Past (k : Nat) (s rest : List Char) : Prop where
  length : rest.length + k ≤ s.length
  zero : '\x00' ∈ s → '\x00' ∈ rest

namespace Past
variable {j k : Nat} {c : Char} {s t rest : List Char}

theorem refl (s : List Char) : Past 0 s s := ⟨Nat.le_refl _, id⟩

theorem trans (h : Past j s t) (h' : Past k t rest) : Past (j + k) s rest :=
  ⟨by have := h.length; have := h'.length; omega, h'.zero ∘ h.zero⟩

theorem mono (h : Past k s rest) (hjk : j ≤ k) : Past j s rest :=
  ⟨by have := h.length; omega, h.zero⟩

theorem cons (hc : c ≠ '\x00') (h : Past k s rest) : Past (k + 1) (c :: s) rest where
  length := by have := h.length; simp only [List.length_cons]; omega
  zero hz := h.zero ((List.mem_cons.1 hz).resolve_left hc.symm)

theorem dropWhile {p : Char → Bool} (hp : p '\x00' = false) (s : List Char) :
    Past 0 s (s.dropWhile p) where
  length := (List.dropWhile_suffix p).length_le
  zero hz := by
    rw [← List.takeWhile_append_dropWhile (p := p) (l := s)] at hz
    refine (List.mem_append.1 hz).resolve_left fun front => ?_
    rw [List.mem_takeWhile_imp front] at hp
    cases hp

end Past

theorem ne_zero_of {p : Char → Bool} {c : Char} (hp : p '\x00' = false) (hc : p c = true) :
    c ≠ '\x00' := fun h => Bool.false_ne_true (hp.symm.trans (h ▸ hc))

section Lexemes
variable {a b : Fault} {n m : Nat} {c : Char} {e f w cs s s' rest : List Char}

theorem past_skipSpace (s : List Char) : Past 0 s (skipSpace s) := .dropWhile rfl s

/-- A text of which only blanks are left holds no zero character. -/
theorem Past.zero_not_mem (h : Past n s rest) (blank : skipSpace rest = []) : '\x00' ∉ s := by
  intro hz
  have hblank := (past_skipSpace rest).zero (h.zero hz)
  rw [blank] at hblank
  cases hblank

theorem past_of_skipSpace (h : skipSpace s = c :: s') (hc : c ≠ '\x00') : Past 1 s s' := by
  have first := past_skipSpace s
  rw [h] at first
  exact (first.trans (.cons hc (.refl s'))).mono (by omega)

theorem skipSpace_skipSpace (s : List Char) : skipSpace (skipSpace s) = skipSpace s :=
  List.dropWhile_idempotent _ s

theorem past_readWord (hw : '\x00' ∉ w) (h : readWord w s = .ok rest) : Past 0 s rest := by
  induction w generalizing s with
  | nil => cases h; exact .refl _
  | cons l w ih =>
    obtain ⟨hl, hw⟩ := not_or.1 (mt List.mem_cons.2 hw)
    cases s with
    | nil => cases h
    | cons c s =>
      rw [readWord] at h
      split at h
      case isTrue hc =>
        exact (Past.cons (hc ▸ Ne.symm hl) (ih hw h)).mono (Nat.zero_le _)
      case isFalse => cases h

theorem past_readColon (h : readColon s = .ok rest) : Past 1 s rest := by
  rw [readColon] at h
  split at h
  case h_1 => cases h
  case h_2 c s' hs =>
    split at h
    case isTrue hc =>
      cases h
      exact past_of_skipSpace hs (by rw [hc]; decide)
    case isFalse => cases h

/-! ## Numbers -/

theorem readExponentDigits_passes (h : readExponentDigits a s = .ok (e, rest)) (b : Fault) :
    readExponentDigits b s = .ok (e, rest) ∧ Past 1 s rest := by
  cases s with
  | nil => cases h
  | cons c s =>
    rw [readExponentDigits] at h ⊢
    split at h
    case isTrue hc =>
      obtain ⟨rfl, rfl⟩ := Prod.mk.inj (Except.ok.inj h)
      exact ⟨if_pos hc, .cons (ne_zero_of rfl hc) (.dropWhile rfl s)⟩
    case isFalse => cases h

theorem past_exponentSign (s : List Char) : Past 0 s (exponentSign s).2 := by
  unfold exponentSign
  split
  · exact (Past.cons (by decide) (.refl _)).mono (Nat.zero_le _)
  · exact (Past.cons (by decide) (.refl _)).mono (Nat.zero_le _)
  · exact .refl s

theorem readExponent_passes (h : readExponent a s = .ok (e, rest)) (b : Fault) :
    readExponent b s = .ok (e, rest) ∧ Past 0 s rest := by
  cases s with
  | nil =>
    obtain ⟨rfl, rfl⟩ := Prod.mk.inj (Except.ok.inj h)
    exact ⟨rfl, .refl _⟩
  | cons c s =>
    rw [readExponent_cons] at h ⊢
    split at h
    case isTrue hc =>
      have hzero : c ≠ '\x00' := by rcases hc with rfl | rfl <;> decide
      obtain ⟨⟨ds, s'⟩, hds, he⟩ := map_eq_ok.1 h
      obtain ⟨rfl, rfl⟩ := Prod.mk.inj he
      obtain ⟨hds', past⟩ := readExponentDigits_passes hds b
      rw [if_pos hc, hds']
      exact ⟨rfl, (Past.cons hzero ((past_exponentSign s).trans past)).mono (Nat.zero_le _)⟩
    case isFalse hc =>
      obtain ⟨rfl, rfl⟩ := Prod.mk.inj (Except.ok.inj h)
      exact ⟨if_neg hc, .refl _⟩

theorem readFraction_passes (h : readFraction a s = .ok (f, rest)) (b : Fault) :
    readFraction b s = .ok (f, rest) ∧ Past 0 s rest := by
  rcases readFraction_clause h with hs | ⟨s', d, ds, rfl, hds⟩
  · rw [readFraction_of_head hs] at h ⊢
    exact readExponent_passes h b
  · rw [readFraction_point hds] at h ⊢
    obtain ⟨⟨e, t⟩, he, hf⟩ := map_eq_ok.1 h
    obtain ⟨rfl, rfl⟩ := Prod.mk.inj hf
    obtain ⟨he', past⟩ := readExponent_passes he b
    rw [he']
    exact ⟨rfl, (Past.cons (by decide) ((Past.dropWhile rfl s').trans past)).mono (Nat.zero_le _)⟩

theorem readMagnitude_passes (h : readMagnitude a s = .ok (f, rest)) (b : Fault) :
    readMagnitude b s = .ok (f, rest) ∧ Past 1 s rest := by
  rcases readMagnitude_clause h with ⟨s', rfl, hs⟩ | ⟨c, s', rfl, hc, h0⟩
  · rw [readMagnitude_zero hs] at h ⊢
    obtain ⟨⟨f, t⟩, hf, hm⟩ := map_eq_ok.1 h
    obtain ⟨rfl, rfl⟩ := Prod.mk.inj hm
    obtain ⟨hf', past⟩ := readFraction_passes hf b
    rw [hf']
    exact ⟨rfl, .cons (by decide) past⟩
  · rw [readMagnitude_whole hc h0] at h ⊢
    obtain ⟨⟨f, t⟩, hf, hm⟩ := map_eq_ok.1 h
    obtain ⟨rfl, rfl⟩ := Prod.mk.inj hm
    obtain ⟨hf', past⟩ := readFraction_passes hf b
    rw [hf']
    exact ⟨rfl, .cons (ne_zero_of rfl hc) ((Past.dropWhile rfl s').trans past)⟩

/-- A number that is read is read whatever is said of texts that end inside numbers. -/
theorem readNumber_passes {t : String} (h : readNumber a s = .ok (t, rest)) (b : Fault) :
    readNumber b s = .ok (t, rest) ∧ Past 1 s rest := by
  rw [readNumber.eq_def] at h ⊢
  split at h
  · obtain ⟨⟨m, s'⟩, hm, ht⟩ := bind_eq_ok.1 h
    obtain ⟨hm', past⟩ := readMagnitude_passes hm b
    obtain ⟨rfl, rfl⟩ := Prod.mk.inj (Except.ok.inj ht)
    exact ⟨bind_eq_ok.2 ⟨_, hm', rfl⟩, (Past.cons (by decide) past).mono (by omega)⟩
  · obtain ⟨⟨m, s'⟩, hm, ht⟩ := bind_eq_ok.1 h
    obtain ⟨hm', past⟩ := readMagnitude_passes hm b
    obtain ⟨rfl, rfl⟩ := Prod.mk.inj (Except.ok.inj ht)
    exact ⟨bind_eq_ok.2 ⟨_, hm', rfl⟩, past⟩

/-! ## Strings -/

theorem past_readFourDigits {v : Nat} (h : readFourDigits s = .ok (v, rest)) : Past 4 s rest := by
  have digit {c : Char} {v : Nat} (hc : Hex.digitValue? c = some v) : c ≠ '\x00' := by
    rintro rfl
    cases hc
  rw [readFourDigits.eq_def] at h
  split at h
  case h_1 c₁ c₂ c₃ c₄ s' =>
    split at h
    case h_1 vs hvs =>
      cases h
      simp only [List.mapM_cons, List.mapM_nil, Option.bind_eq_bind, Option.bind_eq_some_iff] at hvs
      obtain ⟨v₁, h₁, _, ⟨v₂, h₂, _, ⟨v₃, h₃, _, ⟨v₄, h₄, -⟩, -⟩, -⟩, -⟩ := hvs
      exact .cons (digit h₁) (.cons (digit h₂) (.cons (digit h₃) (.cons (digit h₄) (.refl _))))
    case h_2 => cases h
  case h_2 => split at h <;> cases h

/-- A character that is read from an escape takes four digits, or twice four digits with
    another `\u` between them. -/
theorem readUnicode_cases (h : readUnicode s = .ok (c, rest)) :
    (∃ v, readFourDigits s = .ok (v, rest)) ∨
      ∃ v v' s', readFourDigits s = .ok (v, '\\' :: 'u' :: s') ∧
        readFourDigits s' = .ok (v', rest) := by
  obtain ⟨⟨v, t⟩, hv, h⟩ := bind_eq_ok.1 h
  simp only at h
  split at h
  case isTrue => cases h
  case isFalse =>
    split at h
    case isTrue =>
      split at h
      case h_3 s' =>
        obtain ⟨⟨v', t'⟩, hv', h⟩ := bind_eq_ok.1 h
        simp only at h
        split at h
        case isTrue =>
          obtain ⟨-, rfl⟩ := Prod.mk.inj (Except.ok.inj h)
          exact .inr ⟨v, v', s', hv, hv'⟩
        case isFalse => cases h
      all_goals cases h
    case isFalse =>
      obtain ⟨-, rfl⟩ := Prod.mk.inj (Except.ok.inj h)
      exact .inl ⟨v, hv⟩

/-- From `s` the body of a string that is not kept ends in front of `rest`. -/
def BodyEnds (s rest : List Char) : Prop :=
  Past 1 s rest ∧ ∀ m, s.length ≤ m + rest.length →
    ∃ ds, readStringBody skipUnicode m s = .ok (ds, rest)

namespace BodyEnds

theorem of_succ (past : Past 1 s rest)
    (h : ∀ m, s.length ≤ m + 1 + rest.length →
      ∃ ds, readStringBody skipUnicode (m + 1) s = .ok (ds, rest)) : BodyEnds s rest := by
  refine ⟨past, fun m hm => ?_⟩
  have := past.length
  obtain ⟨m, rfl⟩ : ∃ k, m = k + 1 := ⟨m - 1, by omega⟩
  exact h m hm

theorem close (rest : List Char) : BodyEnds ('"' :: rest) rest :=
  .of_succ (.cons (by decide) (.refl rest)) fun _ _ => ⟨[], rfl⟩

theorem plain (h : BodyEnds s rest) (hquote : c ≠ '"') (hslash : c ≠ '\\')
    (hcontrol : ¬c.toNat < 0x20) : BodyEnds (c :: s) rest := by
  have hzero : c ≠ '\x00' := by
    rintro rfl
    exact hcontrol (by decide)
  refine .of_succ ((Past.cons hzero h.1).mono (by omega)) fun m hm => ?_
  simp only [List.length_cons] at hm
  obtain ⟨ds, hds⟩ := h.2 m (by omega)
  exact ⟨c :: ds, by rw [readStringBody_plain hquote hslash hcontrol, hds]; rfl⟩

theorem escape {d : Char} (h : BodyEnds s' rest) (past : Past 1 s s')
    (hd : readEscape skipUnicode s = .ok (d, s')) : BodyEnds ('\\' :: s) rest := by
  refine .of_succ ((Past.cons (by decide) (past.trans h.1)).mono (by omega)) fun m hm => ?_
  have := past.length
  simp only [List.length_cons] at hm
  obtain ⟨ds, hds⟩ := h.2 m (by omega)
  exact ⟨d :: ds, by rw [readStringBody_escape hd, hds]; rfl⟩

theorem unicode {v : Nat} (h : BodyEnds s' rest) (hv : readFourDigits s = .ok (v, s')) :
    BodyEnds ('\\' :: 'u' :: s) rest := by
  have past : Past 5 ('u' :: s) s' := .cons (by decide) (past_readFourDigits hv)
  have hd : readEscape skipUnicode ('u' :: s) = .ok ('\ufffd', s') := by
    simp [readEscape, skipUnicode, hv, bind, Except.bind, pure, Except.pure]
  exact h.escape (past.mono (by omega)) hd

theorem of_readEscape {d : Char} (h : BodyEnds s' rest)
    (hd : readEscape readUnicode s = .ok (d, s')) : BodyEnds ('\\' :: s) rest := by
  rw [readEscape.eq_def] at hd
  split at hd
  case h_1 => cases hd
  case h_2 s =>
    rcases readUnicode_cases hd with ⟨v, hv⟩ | ⟨v, v', t, hv, hv'⟩
    · exact h.unicode hv
    · exact (h.unicode hv').unicode hv
  case h_3 c s _ =>
    split at hd
    case h_2 => cases hd
    case h_1 d' hshort =>
      cases hd
      have hzero : c ≠ '\x00' := by
        rintro rfl
        cases hshort
      exact h.escape (.cons hzero (.refl s')) (readEscape_short hshort)

end BodyEnds

/-- A string that is read ends at the same place if it is not kept. A surrogate pair takes
    two steps there. -/
theorem bodyEnds_of_readStringBody (h : readStringBody readUnicode n s = .ok (cs, rest)) :
    BodyEnds s rest := by
  induction n generalizing s cs with
  | zero => cases h
  | succ n ih =>
    cases s with
    | nil => cases h
    | cons c s =>
      rw [readStringBody] at h
      split at h
      case isTrue hquote =>
        obtain ⟨-, rfl⟩ := Prod.mk.inj (Except.ok.inj h)
        exact hquote ▸ .close s
      case isFalse hquote =>
        split at h
        case isTrue hslash =>
          obtain ⟨⟨d, s'⟩, hd, h⟩ := bind_eq_ok.1 h
          obtain ⟨⟨ds, t⟩, hds, h⟩ := bind_eq_ok.1 h
          obtain ⟨-, rfl⟩ := Prod.mk.inj (Except.ok.inj h)
          subst hslash
          exact (ih hds).of_readEscape hd
        case isFalse hslash =>
          split at h
          case isTrue => cases h
          case isFalse hcontrol =>
            obtain ⟨⟨ds, t⟩, hds, h⟩ := bind_eq_ok.1 h
            obtain ⟨-, rfl⟩ := Prod.mk.inj (Except.ok.inj h)
            exact (ih hds).plain hquote hslash hcontrol

theorem skipString_of_readString {t : String} (h : readString s = .ok (t, rest)) :
    skipString s = .ok rest ∧ Past 1 s rest := by
  obtain ⟨⟨cs, s'⟩, hcs, h⟩ := bind_eq_ok.1 h
  obtain ⟨-, rfl⟩ := Prod.mk.inj (Except.ok.inj h)
  obtain ⟨past, ends⟩ := bodyEnds_of_readStringBody hcs
  obtain ⟨ds, hds⟩ := ends s.length (Nat.le_add_right _ _)
  exact ⟨bind_eq_ok.2 ⟨_, hds, rfl⟩, past⟩

end Lexemes

end TypedMessage.Json
