import TypedMessage.Proofs.Remainders
import TypedMessage.Proofs.Values
import TypedMessage.Json.Record

/- What is read can be passed over. A value that is not kept is checked by readers of its own,
   which count their calls and not their depth; where a value is read they stop at the same
   place (`passed_of_readValue`, `passed_of_readText`, `passed_of_readOption`), because every
   turn of their two loops is one of the loops that keep the items and the members. -/
namespace TypedMessage.Json

/-! ## Lists and objects -/

/-- From `s` a reader came to `rest`, and `skip` does so within a bound of two calls for a
    character and `extra` calls. -/
structure PassedBy (skip : Nat → List Char → Except Fault (List Char)) (extra : Nat)
    (s rest : List Char) : Prop where
  past : Past 1 s rest
  skips : ∀ n, 2 * s.length + extra ≤ n + 2 * rest.length → skip n s = .ok rest

/-- A value was read, and can be passed over. -/
abbrev Passed (s rest : List Char) : Prop := PassedBy skipValueWithin 0 s rest

section Values
variable {α σ : Type} {n : Nat} {first : Bool} {c : Char} {s s' rest : List Char}

theorem PassedBy.of_succ {skip : Nat → List Char → Except Fault (List Char)} {extra : Nat}
    (past : Past 1 s rest)
    (h : ∀ n, 2 * s.length + extra ≤ n + 1 + 2 * rest.length → skip (n + 1) s = .ok rest) :
    PassedBy skip extra s rest := by
  refine ⟨past, fun n hn => ?_⟩
  have := past.length
  obtain ⟨n, rfl⟩ : ∃ k, n = k + 1 := ⟨n - 1, by omega⟩
  exact h n hn

theorem Passed.skipValue (h : Passed s rest) : skipValue s = .ok rest :=
  h.skips _ (by omega)

theorem skipValueWithin_skipSpace (n : Nat) (s : List Char) :
    skipValueWithin n (skipSpace s) = skipValueWithin n s := by
  cases n with
  | zero => rfl
  | succ n =>
    unfold skipValueWithin
    rw [skipSpace_skipSpace]

theorem listTurn_cases {turn : Turn} (h : listTurn first s = .ok turn) :
    (∃ s', turn = .close s' ∧ skipSpace s = ']' :: s') ∨
      (∃ c s', turn = .item (c :: s') ∧ first = true ∧ c ≠ ']' ∧ skipSpace s = c :: s') ∨
      ∃ s' s'', turn = .item s'' ∧ first = false ∧ skipSpace s = ',' :: s' ∧
        skipSpace s' = s'' := by
  rw [listTurn] at h
  split at h
  case h_1 => cases h
  case h_2 c s' hs =>
    split at h
    case isTrue hc =>
      cases h
      exact .inl ⟨s', rfl, hc ▸ hs⟩
    case isFalse hc =>
      split at h
      case isTrue hfirst =>
        cases h
        exact .inr (.inl ⟨c, s', rfl, hfirst, hc, hs⟩)
      case isFalse hfirst =>
        split at h
        case isFalse => cases h
        case isTrue hcomma =>
          split at h
          case h_1 => cases h
          case h_2 c' s'' hs' =>
            split at h
            case isTrue => cases h
            case isFalse =>
              cases h
              exact .inr (.inr ⟨s', _, rfl, by simpa using hfirst, hcomma ▸ hs, hs'⟩)

theorem past_of_listTurn_close (h : listTurn first s = .ok (.close s')) : Past 1 s s' := by
  rcases listTurn_cases h with ⟨t, ht, hs⟩ | ⟨c, t, ht, -⟩ | ⟨t, t', ht, -⟩ <;> cases ht
  exact past_of_skipSpace hs (by decide)

theorem past_of_listTurn_item (h : listTurn first s = .ok (.item s')) : Past 0 s s' := by
  rcases listTurn_cases h with ⟨t, ht, -⟩ | ⟨c, t, ht, -, -, hs⟩ | ⟨t, t', ht, -, hs, ht'⟩ <;>
    cases ht
  · exact hs ▸ past_skipSpace s
  · exact ((past_of_skipSpace hs (by decide)).trans (ht' ▸ past_skipSpace t)).mono (by omega)

theorem skipItems_close (h : listTurn first s = .ok (.close s')) (n : Nat) :
    skipItems (n + 1) first s = .ok s' := by
  rcases listTurn_cases h with ⟨t, ht, hs⟩ | ⟨c, t, ht, -⟩ | ⟨t, t', ht, -⟩ <;> cases ht
  rw [skipItems, hs]
  rfl

theorem skipItems_item (h : listTurn first s = .ok (.item s')) (n : Nat) :
    skipItems (n + 1) first s = (skipValueWithin n s' >>= skipItems n false) := by
  rcases listTurn_cases h with ⟨t, ht, -⟩ | ⟨c, t, ht, hfirst, hc, hs⟩ |
    ⟨t, t', ht, hfirst, hs, ht'⟩ <;> cases ht
  · rw [skipItems, hs]
    simp [hc, hfirst]
  · rw [skipItems, hs, ← ht', skipValueWithin_skipSpace]
    simp [hfirst]

/-- A list whose items can be passed over can be passed over. -/
theorem passedBy_of_readItems {item : Read α} {as : List α}
    (hitem : ∀ s a rest, item s = .ok (a, rest) → Passed s rest)
    (h : readItems item n first s = .ok (as, rest)) :
    PassedBy (skipItems · first) 1 s rest := by
  induction n generalizing first s as with
  | zero => cases h
  | succ n ih =>
    rw [readItems] at h
    obtain ⟨turn, hturn, h⟩ := bind_eq_ok.1 h
    cases turn with
    | close s' =>
      obtain ⟨-, rfl⟩ := Prod.mk.inj (Except.ok.inj h)
      exact .of_succ (past_of_listTurn_close hturn) fun m _ => skipItems_close hturn m
    | item s₁ =>
      obtain ⟨⟨a, s₂⟩, ha, h⟩ := bind_eq_ok.1 h
      obtain ⟨⟨as', s₃⟩, has, h⟩ := bind_eq_ok.1 h
      obtain ⟨-, rfl⟩ := Prod.mk.inj (Except.ok.inj h)
      have front := hitem s₁ a s₂ ha
      have back := ih has
      have past := past_of_listTurn_item hturn
      -- One call is for the list; the item takes a character, which pays for it and one more.
      refine .of_succ (((past.trans front.past).trans back.past).mono (by omega)) fun m hm => ?_
      have := past.length
      have := front.past.length
      have := back.past.length
      simp only [skipItems_item hturn m]
      exact bind_eq_ok.2 ⟨s₂, front.skips m (by omega), back.skips m (by omega)⟩

theorem objectTurn_cases {turn : Turn} (h : objectTurn first s = .ok turn) :
    (∃ s', turn = .close s' ∧ skipSpace s = '\x7d' :: s') ∨
      (∃ s', turn = .item s' ∧ first = true ∧ skipSpace s = '"' :: s') ∨
      ∃ s' s'', turn = .item s'' ∧ first = false ∧ skipSpace s = ',' :: s' ∧
        skipSpace s' = '"' :: s'' := by
  rw [objectTurn] at h
  split at h
  case h_1 => cases h
  case h_2 c s' hs =>
    split at h
    case isTrue hc =>
      cases h
      exact .inl ⟨s', rfl, hc ▸ hs⟩
    case isFalse hc =>
      split at h
      case isTrue hfirst =>
        split at h
        case isFalse => cases h
        case isTrue hquote =>
          cases h
          exact .inr (.inl ⟨s', rfl, hfirst, hquote ▸ hs⟩)
      case isFalse hfirst =>
        split at h
        case isFalse => cases h
        case isTrue hcomma =>
          split at h
          case h_1 => cases h
          case h_2 c' s'' hs' =>
            split at h
            case isFalse => split at h <;> cases h
            case isTrue hquote =>
              cases h
              exact .inr (.inr ⟨s', _, rfl, by simpa using hfirst, hcomma ▸ hs, hquote ▸ hs'⟩)

theorem past_of_objectTurn_close (h : objectTurn first s = .ok (.close s')) : Past 1 s s' := by
  rcases objectTurn_cases h with ⟨t, ht, hs⟩ | ⟨t, ht, -⟩ | ⟨t, t', ht, -⟩ <;> cases ht
  exact past_of_skipSpace hs (by decide)

theorem past_of_objectTurn_item (h : objectTurn first s = .ok (.item s')) : Past 1 s s' := by
  rcases objectTurn_cases h with ⟨t, ht, -⟩ | ⟨t, ht, -, hs⟩ | ⟨t, t', ht, -, hs, ht'⟩ <;> cases ht
  · exact past_of_skipSpace hs (by decide)
  · have comma := past_of_skipSpace hs (by decide)
    exact (comma.trans (past_of_skipSpace ht' (by decide))).mono (by omega)

theorem skipMembers_close (h : objectTurn first s = .ok (.close s')) (n : Nat) :
    skipMembers (n + 1) first s = .ok s' := by
  rcases objectTurn_cases h with ⟨t, ht, hs⟩ | ⟨t, ht, -⟩ | ⟨t, t', ht, -⟩ <;> cases ht
  rw [skipMembers, hs]
  rfl

theorem skipMembers_item (h : objectTurn first s = .ok (.item s')) (n : Nat) :
    skipMembers (n + 1) first s =
      (skipString s' >>= readColon >>= skipValueWithin n >>= skipMembers n false) := by
  rcases objectTurn_cases h with ⟨t, ht, -⟩ | ⟨t, ht, hfirst, hs⟩ | ⟨t, t', ht, hfirst, hs, ht'⟩ <;>
    cases ht
  · have hquote : skipSpace ('"' :: s') = '"' :: s' := skipSpace_cons rfl
    rw [skipMembers, hs]
    simp [hfirst, hquote, bind_assoc]
  · rw [skipMembers, hs]
    simp [hfirst, ht', bind_assoc]

/-- An object whose members can be passed over, each with its colon, can be passed over. -/
theorem passedBy_of_foldMembers {step : σ → String → Read σ} {acc acc' : σ}
    (hstep : ∀ acc k s acc' s', step acc k s = .ok (acc', s') →
      ∃ s₁, readColon s = .ok s₁ ∧ Passed s₁ s')
    (h : foldMembers step n first acc s = .ok (acc', rest)) :
    PassedBy (skipMembers · first) 1 s rest := by
  induction n generalizing first s acc with
  | zero => cases h
  | succ n ih =>
    rw [foldMembers] at h
    obtain ⟨turn, hturn, h⟩ := bind_eq_ok.1 h
    cases turn with
    | close s' =>
      obtain ⟨-, rfl⟩ := Prod.mk.inj (Except.ok.inj h)
      exact .of_succ (past_of_objectTurn_close hturn) fun m _ => skipMembers_close hturn m
    | item s₁ =>
      obtain ⟨⟨k, s₂⟩, hk, h⟩ := bind_eq_ok.1 h
      obtain ⟨⟨next, s₄⟩, hnext, h⟩ := bind_eq_ok.1 h
      obtain ⟨s₃, hcolon, member⟩ := hstep acc k s₂ next s₄ hnext
      obtain ⟨hstring, key⟩ := skipString_of_readString hk
      have back := ih h
      have front : Past 1 s s₃ :=
        (((past_of_objectTurn_item hturn).trans key).trans (past_readColon hcolon)).mono (by omega)
      refine .of_succ (((front.trans member.past).trans back.past).mono (by omega)) fun m hm => ?_
      have := front.length
      have := member.past.length
      have := back.past.length
      have hvalue : (skipString s₁ >>= readColon) = .ok s₃ := bind_eq_ok.2 ⟨s₂, hstring, hcolon⟩
      simp only [skipMembers_item hturn m, hvalue]
      exact bind_eq_ok.2 ⟨s₄, member.skips m (by omega), back.skips m (by omega)⟩

/-! ## Values -/

section Within
variable {inner : Option (Read Json)} {v : Json}

theorem passed_of_skipSpace (hs : skipSpace s = c :: s') (hc : c ≠ '\x00') (past : Past 0 s' rest)
    (h : ∀ n, 2 * s'.length + 1 ≤ n + 2 * rest.length → skipValueWithin (n + 1) s = .ok rest) :
    Passed s rest := by
  have first := past_of_skipSpace hs hc
  refine .of_succ ((first.trans past).mono (by omega)) fun n hn => h n ?_
  have := first.length
  omega

theorem Passed.of_skipSpace (h : Passed (skipSpace s) rest) : Passed s rest where
  past := ((past_skipSpace s).trans h.past).mono (by omega)
  skips n hn := by
    have := (past_skipSpace s).length
    rw [← skipValueWithin_skipSpace]
    exact h.skips n (by omega)

theorem passed_of_null (hs : skipSpace s = 'n' :: s') (h : readWord "ull".toList s' = .ok rest) :
    Passed s rest := by
  refine passed_of_skipSpace hs (by decide) (past_readWord (by decide) h) fun n _ => ?_
  unfold skipValueWithin
  rw [hs]
  exact h

theorem passed_of_readString {t : String} (hs : skipSpace s = '"' :: s')
    (h : readString s' = .ok (t, rest)) : Passed s rest := by
  obtain ⟨hstring, past⟩ := skipString_of_readString h
  refine passed_of_skipSpace hs (by decide) (past.mono (by omega)) fun n _ => ?_
  unfold skipValueWithin
  rw [hs]
  exact hstring

theorem passed_of_readNumber {t : String} (hs : skipSpace s = c :: s')
    (hc : startsNumber c = true) (h : readNumber .endInValue (c :: s') = .ok (t, rest)) :
    Passed s rest := by
  obtain ⟨hskip, past⟩ := readNumber_passes h .badNumber
  have first := past_skipSpace s
  rw [hs] at first
  refine .of_succ ((first.trans past).mono (by omega)) fun n _ => ?_
  have number : skipValueWithin (n + 1) s =
      (readNumber .badNumber (c :: s')).map Prod.snd := by
    obtain ⟨-, -, hn, ht, hf, hquote, hlist, hobject⟩ := not_other_of_startsNumber hc
    unfold skipValueWithin
    rw [hs, ← bind_ok_eq_map]
    simp only [hc, if_true]
    rfl
  rw [number, hskip]
  rfl

theorem passed_of_readList {item : Read α} {as : List α} (hs : skipSpace s = '[' :: s')
    (hitem : ∀ s a rest, item s = .ok (a, rest) → Passed s rest)
    (h : readList item s' = .ok (as, rest)) : Passed s rest := by
  have items := passedBy_of_readItems hitem h
  refine passed_of_skipSpace hs (by decide) (items.past.mono (by omega)) fun n hn => ?_
  unfold skipValueWithin
  rw [hs]
  exact items.skips n hn

theorem passed_of_readObject {item : Read α} {m : Dict α} (hs : skipSpace s = '\x7b' :: s')
    (hitem : ∀ s a rest, item s = .ok (a, rest) → Passed s rest)
    (h : readObject item s' = .ok (m, rest)) : Passed s rest := by
  have members : PassedBy (skipMembers · true) 1 s' rest := by
    refine passedBy_of_foldMembers (fun d k s d' s' hstep => ?_) h
    obtain ⟨s₁, hcolon, hstep⟩ := bind_eq_ok.1 hstep
    obtain ⟨⟨a, s₂⟩, ha, hstep⟩ := bind_eq_ok.1 hstep
    obtain ⟨-, rfl⟩ := Prod.mk.inj (Except.ok.inj hstep)
    exact ⟨s₁, hcolon, hitem s₁ a s₂ ha⟩
  refine passed_of_skipSpace hs (by decide) (members.past.mono (by omega)) fun n hn => ?_
  unfold skipValueWithin
  rw [hs]
  exact members.skips n hn

/-- A value can be passed over if the values in it can; how deep they nest does not count. -/
theorem passed_of_readValueWith
    (hinner : ∀ item ∈ inner, ∀ s v rest, item s = .ok (v, rest) → Passed s rest)
    (h : readValueWith inner s = .ok (v, rest)) : Passed s rest := by
  unfold readValueWith at h
  split at h
  case h_1 => cases h
  case h_2 s' hs =>
    obtain ⟨t, hword, h⟩ := bind_eq_ok.1 h
    obtain ⟨-, rfl⟩ := Prod.mk.inj (Except.ok.inj h)
    exact passed_of_null hs hword
  case h_3 s' hs | h_4 s' hs =>
    obtain ⟨t, hword, h⟩ := bind_eq_ok.1 h
    obtain ⟨-, rfl⟩ := Prod.mk.inj (Except.ok.inj h)
    refine passed_of_skipSpace hs (by decide) (past_readWord (by decide) hword) fun n _ => ?_
    unfold skipValueWithin
    rw [hs]
    exact hword
  case h_5 s' hs =>
    obtain ⟨⟨t, s''⟩, ht, h⟩ := bind_eq_ok.1 h
    obtain ⟨-, rfl⟩ := Prod.mk.inj (Except.ok.inj h)
    exact passed_of_readString hs ht
  case h_6 s' hs =>
    cases inner with
    | none => cases h
    | some item =>
      obtain ⟨⟨vs, s''⟩, hvs, h⟩ := bind_eq_ok.1 h
      obtain ⟨-, rfl⟩ := Prod.mk.inj (Except.ok.inj h)
      exact passed_of_readList hs (hinner item rfl) hvs
  case h_7 s' hs =>
    cases inner with
    | none => cases h
    | some item =>
      obtain ⟨⟨m, s''⟩, hm, h⟩ := bind_eq_ok.1 h
      obtain ⟨-, rfl⟩ := Prod.mk.inj (Except.ok.inj h)
      exact passed_of_readObject hs (hinner item rfl) hm
  case h_8 c s' _ _ _ _ _ _ hs =>
    split at h
    case isFalse => cases h
    case isTrue hc =>
      obtain ⟨⟨t, s''⟩, ht, h⟩ := bind_eq_ok.1 h
      obtain ⟨-, rfl⟩ := Prod.mk.inj (Except.ok.inj h)
      exact passed_of_readNumber hs hc ht

theorem passed_of_readValue {d : Nat} (h : readValue d s = .ok (v, rest)) : Passed s rest := by
  induction d generalizing s v rest with
  | zero => exact passed_of_readValueWith (by simp) h
  | succ d ih =>
    refine passed_of_readValueWith (fun item hitem s v rest hread => ?_) h
    cases hitem
    exact ih hread

theorem passed_of_readText {t : String} (h : readText s = .ok (t, rest)) : Passed s rest := by
  rw [readText] at h
  split at h
  case h_1 s' hs => exact passed_of_readString hs h
  case h_2 => cases h

theorem passed_of_readOption {read : Read α} {a : Option α}
    (hread : ∀ s a rest, read s = .ok (a, rest) → Passed s rest)
    (h : readOption read s = .ok (a, rest)) : Passed s rest := by
  rw [readOption] at h
  split at h
  case h_1 s' hs =>
    obtain ⟨t, hword, h⟩ := bind_eq_ok.1 h
    obtain ⟨-, rfl⟩ := Prod.mk.inj (Except.ok.inj h)
    exact passed_of_null hs hword
  case h_2 =>
    obtain ⟨⟨b, t⟩, hb, h⟩ := bind_eq_ok.1 h
    obtain ⟨-, rfl⟩ := Prod.mk.inj (Except.ok.inj h)
    exact .of_skipSpace (hread _ b t hb)

end Within
end Values

end TypedMessage.Json
