import TypedMessage.Integer
import Mathlib.Data.List.TakeWhile

/- What the readers of numerals accept. A byte string is the mark `0x` and two
   hexadecimal digits a byte (`Hex.decode_iff_spells`), and is read from what is
   written of it (`Hex.decode_encode`); whatever an integer is read from, its magnitude
   is below 2^256 (`Integer.natAbs_lt_of_read`). -/
namespace TypedMessage

/-! ## Lengths in bytes -/

theorem utf8_ofList (cs : List Char) :
    utf8 (String.ofList cs) = cs.flatMap String.utf8EncodeChar := by
  rw [utf8, String.toByteArray_ofList, List.utf8Encode, List.data_toByteArray]

theorem length_le_length_utf8 (cs : List Char) :
    cs.length ≤ (utf8 (String.ofList cs)).length := by
  rw [utf8_ofList]
  induction cs with
  | nil => exact Nat.le_refl _
  | cons c cs ih =>
    have := Char.utf8Size_pos c
    simp only [List.flatMap_cons, List.length_append, String.length_utf8EncodeChar,
      List.length_cons]
    omega

theorem length_utf8_of_ascii {cs : List Char} (h : ∀ c ∈ cs, c.toNat < 128) :
    (utf8 (String.ofList cs)).length = cs.length := by
  rw [utf8_ofList]
  induction cs with
  | nil => rfl
  | cons c cs ih =>
    obtain ⟨hc, hcs⟩ := List.forall_mem_cons.1 h
    have one : c.utf8Size = 1 :=
      Char.utf8Size_eq_one_iff.2 (UInt32.le_iff_toNat_le.2 (Nat.le_of_lt_succ hc))
    simp only [List.flatMap_cons, List.length_append, String.length_utf8EncodeChar,
      List.length_cons, one, ih hcs, Nat.add_comm]

/-! ## Decimal digits -/

namespace Text

theorem decimalValue_eq_ofDigitChars (cs : List Char) :
    decimalValue cs = Nat.ofDigitChars 10 cs 0 := by
  simp only [decimalValue, Nat.ofDigitChars, Nat.mul_comm]
  rfl

/-- The digits of a number spell it, with any number of zeros in front. -/
theorem decimalValue_toDigits (zeros n : Nat) :
    decimalValue (List.replicate zeros '0' ++ Nat.toDigits 10 n) = n := by
  rw [decimalValue_eq_ofDigitChars, Nat.ofDigitChars_append, Nat.ofDigitChars_replicate_zero,
    Nat.mul_zero, Nat.ofDigitChars_ten_toDigits]

theorem isDigit_of_mem_toDigits {n : Nat} {c : Char} (hc : c ∈ Nat.toDigits 10 n) :
    c.isDigit = true :=
  Nat.isDigit_of_mem_toDigits (by decide) (by decide) hc

theorem readDecimal?_toDigits (n : Nat) : readDecimal? (Nat.toDigits 10 n) = some n :=
  readDecimal?_eq_some_iff.2
    ⟨⟨Nat.toDigits_ne_nil, fun _ => isDigit_of_mem_toDigits⟩, decimalValue_toDigits 0 n⟩

/-- Of all numbers only zero is written with a zero in front. -/
theorem head?_toDigits_ne {n : Nat} (hn : 0 < n) : (Nat.toDigits 10 n).head? ≠ some '0' := by
  induction n using Nat.strongRecOn with
  | ind n ih =>
    rw [Nat.toDigits_eq_if (by decide)]
    split
    case isTrue => simpa using hn.ne'
    case isFalse large =>
      have first := ih (n / 10) (by omega) (by omega)
      obtain ⟨d, ds, hds⟩ := List.exists_cons_of_ne_nil (Nat.toDigits_ne_nil (b := 10) (n := n / 10))
      rwa [hds] at first ⊢

end Text

/-! ## Hexadecimal digits -/

namespace Hex

/-- A hexadecimal digit of either case. -/
def IsDigit (c : Char) : Prop :=
  ('0' ≤ c ∧ c ≤ '9') ∨ ('a' ≤ c ∧ c ≤ 'f') ∨ ('A' ≤ c ∧ c ≤ 'F')

/-- The text is the mark `0x` and `n` hexadecimal digits. -/
def Spells (t : String) (n : Nat) : Prop :=
  ∃ cs, t.toList = '0' :: 'x' :: cs ∧ cs.length = n ∧ ∀ c ∈ cs, IsDigit c

theorem isSome_digitValue? {c : Char} : (digitValue? c).isSome = true ↔ IsDigit c := by
  unfold digitValue? IsDigit
  split
  case isTrue h => simp [h]
  case isFalse h =>
    split
    case isTrue h' => simp [h']
    case isFalse h' => split <;> simp_all

theorem IsDigit.ascii {c : Char} (h : IsDigit c) : c.toNat < 128 := by
  have le {d : Char} (hd : d.toNat < 128) (hc : c ≤ d) : c.toNat < 128 :=
    Nat.lt_of_le_of_lt (UInt32.le_iff_toNat_le.1 hc) hd
  rcases h with h | h | h <;> exact le (by decide) h.2

theorem digitValue?_lt {c : Char} {n : Nat} (h : digitValue? c = some n) : n < 16 := by
  have le {d : Char} (hc : c ≤ d) : c.toNat ≤ d.toNat := UInt32.le_iff_toNat_le.1 hc
  unfold digitValue? at h
  split at h
  case isTrue hc =>
    have := le hc.2
    have : ('9' : Char).toNat = 57 := rfl
    cases h; omega
  case isFalse =>
    split at h
    case isTrue hc =>
      have := le hc.2
      have : ('f' : Char).toNat = 102 := rfl
      cases h; omega
    case isFalse =>
      split at h
      case isTrue hc =>
        have := le hc.2
        have : ('F' : Char).toNat = 70 := rfl
        cases h; omega
      case isFalse => cases h

theorem length_packPairs (vs : List Nat) : (packPairs vs).length = vs.length / 2 := by
  fun_induction packPairs vs with
  | case1 hi lo vs ih => simp only [List.length_cons, ih]; omega
  | case2 vs short =>
    match vs, short with
    | [], _ => rfl
    | [v], _ => exact (Nat.div_eq_of_lt Nat.one_lt_two).symm
    | hi :: lo :: vs, short => exact absurd rfl (short hi lo vs)

/-- The digits after the mark are read if there is an even number of them and
    nothing else. -/
theorem decodeDigits_eq_ok {cs : List Char} {bs : Bytes} :
    decodeDigits cs = .ok bs ↔
      cs.length % 2 = 0 ∧ (∀ c ∈ cs, IsDigit c) ∧ packPairs (cs.filterMap digitValue?) = bs := by
  unfold decodeDigits
  by_cases digits : ∀ c ∈ cs, IsDigit c
  · have rest : (cs.dropWhile fun c => (digitValue? c).isSome) = [] :=
      List.dropWhile_eq_nil_iff.2 fun c hc => isSome_digitValue?.2 (digits c hc)
    rw [length_utf8_of_ascii fun c hc => (digits c hc).ascii, rest]
    split
    case isTrue odd => simp [odd]
    case isFalse even =>
      simp only [Except.ok.injEq, show cs.length % 2 = 0 by omega, true_and, and_iff_right digits]
  · have rest : (cs.dropWhile fun c => (digitValue? c).isSome) ≠ [] := fun h =>
      digits fun c hc => isSome_digitValue?.1 (List.dropWhile_eq_nil_iff.1 h c hc)
    split
    case isTrue => simp [digits]
    case isFalse =>
      split
      case h_1 h => exact absurd h rest
      case h_2 => simp [digits]

theorem length_of_decodeDigits {cs : List Char} {bs : Bytes} (h : decodeDigits cs = .ok bs) :
    cs.length = 2 * bs.length := by
  obtain ⟨even, digits, rfl⟩ := decodeDigits_eq_ok.1 h
  have all : (cs.filterMap digitValue?).length = cs.length :=
    List.filterMap_length_eq_length.2 fun c hc => isSome_digitValue?.2 (digits c hc)
  rw [length_packPairs, all]
  omega

theorem decode_eq_ok {t : String} {bs : Bytes} :
    decode t = .ok bs ↔ ∃ cs, t.toList = '0' :: 'x' :: cs ∧ decodeDigits cs = .ok bs := by
  unfold decode
  split
  case h_1 cs h => simp [h]
  case h_2 unmarked =>
    constructor
    · exact nofun
    · intro read
      obtain ⟨cs, h, -⟩ := read
      exact absurd h (unmarked cs)

/-- A text is read as `n` bytes if it is the mark and two digits a byte. -/
theorem decode_iff_spells {t : String} {n : Nat} :
    (∃ bs, decode t = .ok bs ∧ bs.length = n) ↔ Spells t (2 * n) := by
  constructor
  · intro read
    obtain ⟨bs, h, rfl⟩ := read
    obtain ⟨cs, ht, hcs⟩ := decode_eq_ok.1 h
    exact ⟨cs, ht, length_of_decodeDigits hcs, (decodeDigits_eq_ok.1 hcs).2.1⟩
  · intro read
    obtain ⟨cs, ht, hlen, digits⟩ := read
    have hcs : decodeDigits cs = .ok (packPairs (cs.filterMap digitValue?)) :=
      decodeDigits_eq_ok.2 ⟨by omega, digits, rfl⟩
    have := length_of_decodeDigits hcs
    exact ⟨_, decode_eq_ok.2 ⟨cs, ht, hcs⟩, by omega⟩

theorem value_lt {vs : List Nat} (h : ∀ v ∈ vs, v < 16) : value vs < 16 ^ vs.length := by
  -- The fold is bounded from any start, so that the induction can move it.
  have bound : ∀ (vs : List Nat) (n : Nat), (∀ v ∈ vs, v < 16) →
      vs.foldl (fun n v => n * 16 + v) n < (n + 1) * 16 ^ vs.length := by
    intro vs
    induction vs with
    | nil => intro n _; simp
    | cons v vs ih =>
      intro n h
      obtain ⟨hv, hvs⟩ := List.forall_mem_cons.1 h
      calc vs.foldl (fun n v => n * 16 + v) (n * 16 + v)
          < (n * 16 + v + 1) * 16 ^ vs.length := ih _ hvs
        _ ≤ (n + 1) * 16 * 16 ^ vs.length := Nat.mul_le_mul_right _ (by omega)
        _ = (n + 1) * 16 ^ (v :: vs).length := by rw [List.length_cons, Nat.pow_succ']; ac_rfl
  simpa [value] using bound vs 0 h

theorem digits_of_mapM {cs : List Char} {vs : List Nat} (h : cs.mapM digitValue? = some vs) :
    vs.length = cs.length ∧ ∀ v ∈ vs, v < 16 := by
  induction cs generalizing vs with
  | nil => cases h; exact ⟨rfl, nofun⟩
  | cons c cs ih =>
    simp only [List.mapM_cons, Option.bind_eq_bind, Option.bind_eq_some_iff, Option.pure_def,
      Option.some.injEq] at h
    obtain ⟨v, hv, ws, hws, rfl⟩ := h
    obtain ⟨hlen, hlt⟩ := ih hws
    exact ⟨congrArg (· + 1) hlen, List.forall_mem_cons.2 ⟨digitValue?_lt hv, hlt⟩⟩

/-! ### Bytes written and read -/

theorem isDigit_digit {n : Nat} (h : n < 16) : IsDigit (digit n) :=
  isSome_digitValue?.1 (by rw [digitValue?_digit n h]; rfl)

theorem decodeDigits_byteDigits (bs : Bytes) : decodeDigits (bs.flatMap byteDigits) = .ok bs := by
  have high (b : UInt8) : b.toNat / 16 < 16 := by have := b.toNat_lt; omega
  have low (b : UInt8) : b.toNat % 16 < 16 := Nat.mod_lt _ (by decide)
  refine decodeDigits_eq_ok.2 ⟨?_, ?_, ?_⟩
  · induction bs with
    | nil => rfl
    | cons b bs ih =>
      simp only [List.flatMap_cons, List.length_append, byteDigits, List.length_cons,
        List.length_nil]
      omega
  · intro c hc
    obtain ⟨b, -, hc⟩ := List.mem_flatMap.1 hc
    simp only [byteDigits, List.mem_cons, List.not_mem_nil, or_false] at hc
    rcases hc with rfl | rfl
    · exact isDigit_digit (high b)
    · exact isDigit_digit (low b)
  · induction bs with
    | nil => rfl
    | cons b bs ih =>
      have byte : UInt8.ofNat (b.toNat / 16 * 16 + b.toNat % 16) = b := by
        rw [Nat.div_add_mod', UInt8.ofNat_toNat]
      simp [byteDigits, digitValue?_digit _ (high b), digitValue?_digit _ (low b), packPairs, byte,
        ih]

/-- Bytes are read from their text. -/
theorem decode_encode (bs : Bytes) : decode (encode bs) = .ok bs :=
  decode_eq_ok.2 ⟨_, by simp [encode, digits], decodeDigits_byteDigits bs⟩

theorem encode_inj {bs cs : Bytes} (h : encode bs = encode cs) : bs = cs :=
  Except.ok.inj ((decode_encode bs).symm.trans (h ▸ decode_encode cs))

end Hex

/-! ## Integers -/

namespace Integer

theorem length_dropMark_le (cs : List Char) : (dropMark cs).length ≤ cs.length := by
  unfold dropMark
  split
  · simp only [List.length_cons]; omega
  · exact Nat.le_refl _

/-- A number of up to 64 bytes of hexadecimal digits fits 256 bits. -/
theorem lt_of_readHex? {cs : List Char} {n : Nat} (h : readHex? cs = some n) : n < 2 ^ 256 := by
  unfold readHex? at h
  split at h
  case isTrue => cases h
  case isFalse short =>
    obtain ⟨vs, hvs, rfl⟩ := Option.map_eq_some_iff.1 h
    obtain ⟨hlen, hlt⟩ := Hex.digits_of_mapM hvs
    have := length_dropMark_le cs
    have := length_le_length_utf8 cs
    simp only [Bool.or_eq_true, decide_eq_true_eq, not_or] at short
    calc Hex.value vs < 16 ^ vs.length := Hex.value_lt hlt
      _ ≤ 16 ^ 64 := Nat.pow_le_pow_right (by omega) (by omega)
      _ = 2 ^ 256 := by decide

theorem lt_of_readMagnitude {text : String} {cs : List Char} {n : Nat}
    (h : readMagnitude text cs = .ok n) : n < 2 ^ 256 := by
  unfold readMagnitude at h
  split at h
  case h_1 ds _ =>
    split at h
    case h_1 k hk => cases h; exact lt_of_readHex? hk
    case h_2 => cases h
  case h_2 =>
    split at h
    case h_1 k _ =>
      split at h
      case isTrue fits => cases h; exact fits
      case isFalse => cases h
    case h_2 => cases h

/-- What is read as an integer has a magnitude of at most 256 bits. -/
theorem natAbs_lt_of_read {text : String} {n : Int} (h : read text = .ok n) :
    n.natAbs < 2 ^ 256 := by
  unfold read at h
  generalize splitSign text.toList = signed at h
  obtain ⟨negative, cs⟩ := signed
  cases hm : readMagnitude text cs with
  | error fault => simp [hm, bind, Except.bind] at h
  | ok m =>
    have := lt_of_readMagnitude hm
    simp only [hm, bind, Except.bind, pure, Except.pure, Except.ok.injEq] at h
    subst h
    cases negative <;> simpa using this

end Integer
end TypedMessage
