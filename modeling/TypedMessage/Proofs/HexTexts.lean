import TypedMessage.Proofs.Conformance
import TypedMessage.Proofs.TypeGrammar

/- Byte strings as hexadecimal texts, and the words made of them. A text that is read is,
   in small letters, the one that is written of its bytes (`Hex.decode_eq_ok_iff_encode`).
   An address fills its word from the right and a byte string of fixed size from the left,
   so the word of an address has its bytes, and that of a byte string has them but for
   zeros at the end (`Session.hex_texts_exact`). -/
namespace TypedMessage

/-! ## Texts -/

namespace Hex

/-- A digit is written in lower case, whichever case it is read in. -/
theorem digit_of_digitValue? {c : Char} {n : Nat} (h : digitValue? c = some n) :
    digit n = c.toLower := by
  have table : ∀ k < 128, ∀ n ∈ digitValue? (Char.ofNat k), digit n = (Char.ofNat k).toLower := by
    decide
  have ascii : c.toNat < 128 := (isSome_digitValue?.1 (by rw [h]; rfl)).ascii
  have hc := table c.toNat ascii
  rw [Char.ofNat_toNat] at hc
  exact hc n h

theorem map_digit_filterMap {cs : List Char} (digits : ∀ c ∈ cs, IsDigit c) :
    (cs.filterMap digitValue?).map digit = cs.map Char.toLower := by
  induction cs with
  | nil => rfl
  | cons c cs ih =>
    obtain ⟨hc, hcs⟩ := List.forall_mem_cons.1 digits
    obtain ⟨n, hn⟩ := Option.isSome_iff_exists.1 (isSome_digitValue?.2 hc)
    rw [List.filterMap_cons_some hn, List.map_cons, List.map_cons, digit_of_digitValue? hn, ih hcs]

theorem byteDigits_pack {hi lo : Nat} (hhi : hi < 16) (hlo : lo < 16) :
    byteDigits (UInt8.ofNat (hi * 16 + lo)) = [digit hi, digit lo] := by
  have byte : (UInt8.ofNat (hi * 16 + lo)).toNat = hi * 16 + lo :=
    UInt8.toNat_ofNat_of_lt' (by omega : hi * 16 + lo < 256)
  have high : (hi * 16 + lo) / 16 = hi := by omega
  have low : (hi * 16 + lo) % 16 = lo := by omega
  rw [byteDigits, byte, high, low]

/-- Two digits are written for a byte: those it was packed of. -/
theorem flatMap_byteDigits_packPairs {vs : List Nat} (even : vs.length % 2 = 0)
    (small : ∀ v ∈ vs, v < 16) : (packPairs vs).flatMap byteDigits = vs.map digit := by
  fun_induction packPairs vs with
  | case1 hi lo vs ih =>
    obtain ⟨hhi, small⟩ := List.forall_mem_cons.1 small
    obtain ⟨hlo, small⟩ := List.forall_mem_cons.1 small
    have rest := ih (by simp only [List.length_cons] at even; omega) small
    rw [List.flatMap_cons, byteDigits_pack hhi hlo, rest]
    rfl
  | case2 vs short =>
    cases vs with
    | nil => rfl
    | cons v vs =>
      cases vs with
      | nil => cases even
      | cons w vs => exact absurd rfl (short v w vs)

/-- What is written of the bytes of a text is the text in lower case. -/
theorem encode_of_decode {t : String} {bs : Bytes} (h : decode t = .ok bs) :
    encode bs = Text.lower t := by
  obtain ⟨cs, ht, hcs⟩ := decode_eq_ok.1 h
  obtain ⟨even, isDigit, rfl⟩ := decodeDigits_eq_ok.1 hcs
  have all : (cs.filterMap digitValue?).length = cs.length :=
    List.filterMap_length_eq_length.2 fun c hc => isSome_digitValue?.2 (isDigit c hc)
  have small : ∀ v ∈ cs.filterMap digitValue?, v < 16 := by
    intro v hv
    obtain ⟨c, -, hc⟩ := List.mem_filterMap.1 hv
    exact digitValue?_lt hc
  rw [← String.toList_inj, Text.lower, ht, encode, digits,
    flatMap_byteDigits_packPairs (by omega) small, map_digit_filterMap isDigit]
  simp only [String.toList_append, String.toList_ofList, List.map_cons]
  rfl

/-- Exactly the texts that are the mark and an even number of digits are read, each as the
    bytes of which it is written, the case of its digits apart. -/
theorem decode_eq_ok_iff_encode {t : String} {bs : Bytes} :
    decode t = .ok bs ↔ (∃ n, Spells t (2 * n)) ∧ encode bs = Text.lower t := by
  constructor
  · intro h
    exact ⟨⟨_, decode_iff_spells.1 ⟨bs, h, rfl⟩⟩, encode_of_decode h⟩
  · intro spelled
    obtain ⟨⟨n, digits⟩, written⟩ := spelled
    obtain ⟨cs, h, -⟩ := decode_iff_spells.2 digits
    rwa [encode_inj (written.trans (encode_of_decode h).symm)]

theorem decode_eq_error_iff {t : String} :
    (∃ fault, decode t = .error fault) ↔ ¬ ∃ n, Spells t (2 * n) := by
  simp only [← decode_iff_spells]
  cases decode t <;> simp

end Hex

/-! ## Words -/

/-- The byte strings differ at most in zeros at their ends. -/
def SameUpToZeros (bs cs : Bytes) : Prop :=
  ∃ k l, bs ++ List.replicate k 0 = cs ++ List.replicate l 0

namespace Word
variable {bs cs : Bytes}

theorem bytes_padLeft {n : Nat} (length : bs.length = n) (hbs : bs.length ≤ 32) :
    (padLeft bs hbs).bytes = List.replicate (32 - n) 0 ++ bs := by
  subst length
  rfl

theorem padLeft_inj (hbs : bs.length ≤ 32) (hcs : cs.length ≤ 32) (same : bs.length = cs.length) :
    padLeft bs hbs = padLeft cs hcs ↔ bs = cs := by
  constructor
  · intro h
    exact List.append_inj_right' (congrArg bytes h) same
  · rintro rfl
    rfl

/-- Of a byte string with zeros behind it a word takes the bytes and some of the zeros. -/
theorem take_zeros (hbs : bs.length ≤ 32) (k : Nat) :
    (bs ++ List.replicate (k + 32) 0).take 32 = (padRight bs hbs).bytes := by
  have room : min (32 - bs.length) (k + 32) = 32 - bs.length := by omega
  rw [List.take_append, List.take_of_length_le hbs, List.take_replicate, room]
  rfl

theorem padRight_inj (hbs : bs.length ≤ 32) (hcs : cs.length ≤ 32) :
    padRight bs hbs = padRight cs hcs ↔ SameUpToZeros bs cs := by
  constructor
  · intro h
    exact ⟨_, _, congrArg bytes h⟩
  · intro same
    obtain ⟨k, l, same⟩ := same
    refine ext' ?_
    rw [← take_zeros hbs k, ← take_zeros hcs l, List.replicate_add, List.replicate_add,
      ← List.append_assoc, ← List.append_assoc, same]

end Word

namespace Session
variable {h : Hash} {s : Session} {t : String} {w : Word} {size : Nat}

theorem asBytes_string_eq_ok {bs : Bytes} :
    (Json.string t).asBytes = .ok bs ↔ Hex.decode t = .ok bs := by
  simp [Json.asBytes, Json.asText, bind, Except.bind, mapError_eq_ok]

/-- A value that is encoded in place has the word that its leaf type gives it. -/
theorem encodeField_atomic_eq_ok {type : String} {l : Leaf} {v : Json}
    (parsed : FieldType.parse? type = some (.leaf l)) (atomic : l.isAtomic = true) :
    s.encodeField h type v = .ok w ↔ l.slot s.enforceWidth v = .ok (.word w) := by
  rw [encodeField_leaf h s parsed, mapError_eq_ok, map_eq_ok]
  constructor
  · intro run
    obtain ⟨p, hp, rfl⟩ := run
    obtain ⟨x, rfl⟩ := Leaf.exists_word_of_slot atomic hp
    exact hp
  · intro slot
    exact ⟨_, slot, rfl⟩

theorem encodeField_address_eq_ok :
    s.encodeField h "address" (.string t) = .ok w ↔
      ∃ bs, ∃ length : bs.length = 20, Hex.decode t = .ok bs ∧
        w = .padLeft bs (Nat.le_trans (Nat.le_of_eq length) (by decide)) := by
  have parsed : FieldType.parse? "address" = some (.leaf .address) := by decide
  rw [encodeField_atomic_eq_ok parsed rfl, Leaf.slot_address_eq_ok]
  simp only [asBytes_string_eq_ok, Slot.word.injEq]

theorem encodeField_fixedBytes_eq_ok (sized : 1 ≤ size ∧ size ≤ 32) :
    s.encodeField h ("bytes" ++ toString size) (.string t) = .ok w ↔
      ∃ bs, ∃ length : bs.length ≤ size, Hex.decode t = .ok bs ∧
        w = .padRight bs (Nat.le_trans length sized.2) := by
  have parsed : FieldType.parse? ("bytes" ++ toString size) =
      some (.leaf (.fixedBytes size sized.2)) := FieldType.parse?_leaf_iff.2 ⟨sized, rfl⟩
  rw [encodeField_atomic_eq_ok parsed rfl, Leaf.slot_fixedBytes_eq_ok]
  simp only [asBytes_string_eq_ok, Slot.word.injEq]

/-- Byte strings and their texts. Bytes are read from what is written of them, and a text is
    read as bytes exactly where it is the mark `0x` and an even number of digits of either
    case, with its lower case form written of them. So a text is an address exactly if its
    bytes are 20, and they stand at the end of the word; and it is of a fixed size exactly if
    its bytes are no more, and they stand at the front. Two addresses have one word if their
    bytes are equal, two texts of a fixed size if theirs are but for zeros at the end. -/
theorem hex_texts_exact (h : Hash) (s : Session) (sized : 1 ≤ size ∧ size ≤ 32) :
    (∀ bs, Hex.decode (Hex.encode bs) = .ok bs) ∧
      (∀ t bs, Hex.decode t = .ok bs ↔
        (∃ n, Hex.Spells t (2 * n)) ∧ Hex.encode bs = Text.lower t) ∧
      (∀ t, (∃ fault, Hex.decode t = .error fault) ↔ ¬ ∃ n, Hex.Spells t (2 * n)) ∧
      (∀ t w, s.encodeField h "address" (.string t) = .ok w ↔
        ∃ bs, Hex.decode t = .ok bs ∧ bs.length = 20 ∧ w.bytes = List.replicate 12 0 ++ bs) ∧
      (∀ t w, s.encodeField h ("bytes" ++ toString size) (.string t) = .ok w ↔
        ∃ bs, Hex.decode t = .ok bs ∧ bs.length ≤ size ∧
          w.bytes = bs ++ List.replicate (32 - bs.length) 0) ∧
      ∀ t t' bs bs' w w', Hex.decode t = .ok bs → Hex.decode t' = .ok bs' →
        (s.encodeField h "address" (.string t) = .ok w →
          s.encodeField h "address" (.string t') = .ok w' → (w = w' ↔ bs = bs')) ∧
        (s.encodeField h ("bytes" ++ toString size) (.string t) = .ok w →
          s.encodeField h ("bytes" ++ toString size) (.string t') = .ok w' →
            (w = w' ↔ SameUpToZeros bs bs')) := by
  refine ⟨Hex.decode_encode, fun t bs => Hex.decode_eq_ok_iff_encode,
    fun t => Hex.decode_eq_error_iff, fun t w => ?_, fun t w => ?_,
    fun t t' bs bs' w w' read read' => ⟨fun word word' => ?_, fun word word' => ?_⟩⟩
  · rw [encodeField_address_eq_ok]
    constructor
    · intro run
      obtain ⟨bs, length, read, rfl⟩ := run
      exact ⟨bs, read, length, Word.bytes_padLeft length _⟩
    · intro word
      obtain ⟨bs, read, length, bytes⟩ := word
      exact ⟨bs, length, read, Word.ext' (bytes.trans (Word.bytes_padLeft length _).symm)⟩
  · rw [encodeField_fixedBytes_eq_ok sized]
    constructor
    · intro run
      obtain ⟨bs, length, read, rfl⟩ := run
      exact ⟨bs, read, length, rfl⟩
    · intro word
      obtain ⟨bs, read, length, bytes⟩ := word
      exact ⟨bs, length, read, Word.ext' bytes⟩
  · obtain ⟨_, length, again, rfl⟩ := encodeField_address_eq_ok.1 word
    obtain ⟨_, length', again', rfl⟩ := encodeField_address_eq_ok.1 word'
    cases read.symm.trans again
    cases read'.symm.trans again'
    exact Word.padLeft_inj _ _ (length.trans length'.symm)
  · obtain ⟨_, length, again, rfl⟩ := (encodeField_fixedBytes_eq_ok sized).1 word
    obtain ⟨_, length', again', rfl⟩ := (encodeField_fixedBytes_eq_ok sized).1 word'
    cases read.symm.trans again
    cases read'.symm.trans again'
    exact Word.padRight_inj _ _

/-- Capital digits and a zero byte at the end do not show in the word of a fixed size. -/
theorem hex_texts_exact_short :
    (1 ≤ 4 ∧ 4 ≤ 32) ∧ Hex.decode "0xDeAd00" = .ok [0xde, 0xad, 0x00] ∧
      Hex.decode "0xdead" = .ok [0xde, 0xad] ∧ SameUpToZeros [0xde, 0xad, 0x00] [0xde, 0xad] ∧
      ∃ w, Session.encodeField keccak256 { schema := Dict.empty } "bytes4"
          (.string "0xDeAd00") = .ok w ∧
        Session.encodeField keccak256 { schema := Dict.empty } "bytes4" (.string "0xdead") = .ok w ∧
        w.bytes = [0xde, 0xad] ++ List.replicate 30 0 := by
  have sized : 1 ≤ 4 ∧ 4 ≤ 32 := by decide
  have read : Hex.decode "0xDeAd00" = .ok [0xde, 0xad, 0x00] := by decide
  have read' : Hex.decode "0xdead" = .ok [0xde, 0xad] := by decide
  have zeros : SameUpToZeros [0xde, 0xad, 0x00] [0xde, 0xad] := ⟨0, 1, rfl⟩
  obtain ⟨-, -, -, -, fixed, same⟩ :=
    hex_texts_exact keccak256 { schema := Dict.empty } sized
  have word := (fixed "0xDeAd00" (.padRight [0xde, 0xad, 0x00] (by decide))).2
    ⟨_, read, by decide, rfl⟩
  have word' := (fixed "0xdead" (.padRight [0xde, 0xad] (by decide))).2 ⟨_, read', by decide, rfl⟩
  have equal := ((same _ _ _ _ _ _ read read').2 word word').2 zeros
  exact ⟨sized, read, read', zeros, _, word, equal ▸ word', rfl⟩

end Session
end TypedMessage
