import TypedMessage.Log.Entry
import TypedMessage.Proofs.ByteCuts
import TypedMessage.Proofs.LetterCase

/- What a log line tells of the values in it. The key decides on the rule, by the words in
   its lower case form (`Rule.ofKey_of_lowerForm`); under the rule two values that agree in
   what it may show are shown alike, or can both not be shown. So a line is the same for both
   (`line_hides_value`), and a value that is shortened has at least three bytes that are not
   in it. -/
namespace TypedMessage.Log

/-! ## Keys -/

/-- One of the words occurs in the text. -/
def Mentions (small : String) (words : List String) : Prop :=
  ∃ word ∈ words, Text.contains small word = true

instance (small : String) (words : List String) : Decidable (Mentions small words) :=
  inferInstanceAs (Decidable (∃ word ∈ words, _))

/-- No letter from outside ASCII makes or hides a word. -/
theorem plain_words :
    ∀ word ∈ payloadWords ++ addressWords ++ hashWords, Text.Plain word.toList := by decide

section Keys
variable {key small : String}

theorem any_contains_lower (form : Text.LowerForm key.toList small.toList) {words : List String}
    (plain : ∀ word ∈ words, Text.Plain word.toList) :
    words.any (Text.contains (Text.lower key)) = decide (Mentions small words) := by
  rw [Bool.eq_iff_iff, List.any_eq_true, decide_eq_true_iff]
  refine exists_congr fun word => and_congr_right fun hword => ?_
  rw [Text.contains_lowerForm form (plain word hword)]

/-- The rule for a key goes by its lower case form, the payload words first and the hash
    words last. -/
theorem Rule.ofKey_of_lowerForm (form : Text.LowerForm key.toList small.toList) :
    Rule.ofKey key =
      if Mentions small payloadWords then .hide
      else if Mentions small addressWords then .shortenAddress
      else if Mentions small hashWords then .shortenHash
      else .keep := by
  have mentions (words : List String) (sub : words ⊆ payloadWords ++ addressWords ++ hashWords) :
      words.any (Text.contains (Text.lower key)) = decide (Mentions small words) :=
    any_contains_lower form fun word hword => plain_words word (sub hword)
  simp only [Rule.ofKey, mentions payloadWords (by decide), mentions addressWords (by decide),
    mentions hashWords (by decide), decide_eq_true_iff]

end Keys

/-! ## Values -/

section Values
variable {key value s t t' v v' shown : String} {m n : Nat}

theorem byteLength_append (s t : String) : byteLength (s ++ t) = byteLength s + byteLength t := by
  rw [← String.ofList_toList (s := s), ← String.ofList_toList (s := t), ← String.ofList_append,
    byteLength_ofList_append]

theorem isEmpty_iff_byteLength : s.isEmpty = true ↔ byteLength s = 0 := by
  rw [String.isEmpty_iff]
  constructor
  · rintro rfl
    rfl
  · intro length
    exact text_eq_of_utf8_eq (List.eq_nil_of_length_eq_zero length)

/-- What is hidden differs by its length only, and not at all if it is short. -/
theorem hidden_eq (s : String) :
    hidden s =
      if byteLength s = 0 then "[EMPTY]"
      else if byteLength s ≤ 4 then "[REDACTED]"
      else "[REDACTED:" ++ toString (byteLength s) ++ "chars]" := by
  simp only [hidden, isEmpty_iff_byteLength]

/-! ### Ends -/

/-- The texts have the same first `m` and the same last `n` bytes. -/
def SameEnds (m n : Nat) (t t' : String) : Prop :=
  (utf8 t).take m = (utf8 t').take m ∧
    (utf8 t).drop (byteLength t - n) = (utf8 t').drop (byteLength t' - n)

instance (m n : Nat) (t t' : String) : Decidable (SameEnds m n t t') :=
  inferInstanceAs (Decidable (_ ∧ _))

theorem ends?_congr (same : SameEnds m n t t') : ends? m n t = ends? m n t' := by
  obtain ⟨front, back⟩ := same
  rw [← String.ofList_toList (s := t), ← String.ofList_toList (s := t')] at front back
  have hfront := takeBytes?_congr front
  have hback := dropBytes?_congr (Nat.sub_le _ _) (Nat.sub_le _ _) back
  rw [String.ofList_toList, String.ofList_toList] at hback
  rw [ends?, ends?, hfront, hback]

/-- The first `m` and the last `n` bytes of the text are shown, which are whole characters,
    and between them at least three are not. -/
def Shortened (m n : Nat) (t shown : String) : Prop :=
  ∃ front middle back : String, t = front ++ middle ++ back ∧ shown = front ++ "..." ++ back ∧
    byteLength front = m ∧ byteLength back = n ∧ 3 ≤ byteLength middle

theorem shortened_of_ends? (room : m + n + 3 ≤ byteLength t) (h : ends? m n t = some shown) :
    Shortened m n t shown := by
  simp only [ends?, Option.bind_eq_bind, Option.bind_eq_some_iff, Option.pure_def,
    Option.some.injEq] at h
  obtain ⟨front, hfront, back, hback, rfl⟩ := h
  obtain ⟨rest, ht, hm⟩ := takeBytes?_eq_some_iff.1 hfront
  obtain ⟨start, ht', hstart⟩ := dropBytes?_eq_some_iff.1 hback
  have whole : byteLength t = byteLength (String.ofList start) + byteLength (String.ofList back) := by
    rw [← byteLength_ofList_append, ← ht', String.ofList_toList]
  -- What is in front of the second cut starts with what is in front of the first.
  rcases List.append_eq_append_iff.1 (ht.symm.trans ht') with ⟨middle, rfl, -⟩ | ⟨excess, rfl, -⟩
  · rw [byteLength_ofList_append] at hstart whole
    refine ⟨String.ofList front, String.ofList middle, String.ofList back, ?_, rfl, hm, by omega,
      by omega⟩
    rw [← String.ofList_append, ← String.ofList_append, ← ht', String.ofList_toList]
  · rw [byteLength_ofList_append] at hm
    omega

/-! ### Rules -/

/-- How many bytes remain at the front of an address that is shortened. -/
def addressFront (t : String) : Nat := if isMarked t then 8 else 6

/-- How many bytes remain at the front of a hash that is shortened. -/
def hashFront (t : String) : Nat := if isMarked t then 12 else 10

theorem hashFront_le (t : String) : hashFront t ≤ 12 := by
  unfold hashFront
  split <;> decide

/-- How many bytes remain at the front and at the end of a value that is shortened. -/
def kept? (key value : String) : Option (Nat × Nat) :=
  let t := Text.trim value
  match Rule.ofKey key with
  | .shortenAddress =>
    if addressFront t + 4 + 3 < byteLength t then some (addressFront t, 4) else none
  | .shortenHash => if 20 < byteLength t then some (hashFront t, 6) else none
  | .hide | .keep => none

theorem shortAddress?_eq (s : String) :
    shortAddress? s =
      if addressFront (Text.trim s) + 4 + 3 < byteLength (Text.trim s) then
        ends? (addressFront (Text.trim s)) 4 (Text.trim s)
      else some (hidden (Text.trim s)) := by
  rw [shortAddress?, ← addressFront]
  simp only [isEmpty_iff_byteLength]
  split
  case isTrue empty => rw [if_neg (by omega), hidden_eq, if_pos empty]
  case isFalse =>
    split
    case isTrue short => rw [if_neg (Nat.not_lt.2 short)]
    case isFalse long => rw [if_pos (Nat.lt_of_not_le long)]

theorem shortHash?_eq (s : String) :
    shortHash? s =
      if 20 < byteLength (Text.trim s) then
        ends? (hashFront (Text.trim s)) 6 (Text.trim s)
      else some (Text.trim s) := by
  rw [shortHash?, ← hashFront]
  split
  case isTrue short => rw [if_neg (Nat.not_lt.2 short)]
  case isFalse long => rw [if_pos (Nat.lt_of_not_le long)]

/-- A value that is shortened is shown by its ends, and there are three bytes and more to
    leave out; every other value is shown as a whole, or hidden as a whole. -/
theorem redact?_cases (key value : String) :
    (∃ m n, kept? key value = some (m, n) ∧ redact? key value = ends? m n (Text.trim value) ∧
        m + n + 3 ≤ byteLength (Text.trim value)) ∨
      kept? key value = none ∧
        ∃ shown ∈ [value, Text.trim value, hidden value, hidden (Text.trim value)],
          redact? key value = some shown := by
  have front := hashFront_le (Text.trim value)
  cases rule : Rule.ofKey key with
  | hide =>
    simp only [kept?, redact?, rule]
    exact .inr ⟨trivial, hidden value, by simp, rfl⟩
  | keep =>
    simp only [kept?, redact?, rule]
    exact .inr ⟨trivial, value, by simp, rfl⟩
  | shortenAddress =>
    simp only [kept?, redact?, rule, shortAddress?_eq]
    split
    case isTrue long => exact .inl ⟨_, _, rfl, rfl, by omega⟩
    case isFalse => exact .inr ⟨rfl, hidden (Text.trim value), by simp, rfl⟩
  | shortenHash =>
    simp only [kept?, redact?, rule, shortHash?_eq]
    split
    case isTrue long => exact .inl ⟨_, _, rfl, rfl, by omega⟩
    case isFalse => exact .inr ⟨rfl, Text.trim value, by simp, rfl⟩

theorem redact?_of_kept? (h : kept? key value = some (m, n)) :
    redact? key value = ends? m n (Text.trim value) ∧ m + n + 3 ≤ byteLength (Text.trim value) := by
  rcases redact?_cases key value with ⟨m', n', kept, shortened⟩ | ⟨none, -⟩
  · cases kept.symm.trans h
    exact shortened
  · cases none.symm.trans h

/-- What is seen of a value is the whole of it, hidden or not, or its ends. -/
theorem shown_or_shortened (h : redact? key value = some shown) :
    shown ∈ [value, Text.trim value, hidden value, hidden (Text.trim value)] ∨
      ∃ m n, kept? key value = some (m, n) ∧ Shortened m n (Text.trim value) shown := by
  rcases redact?_cases key value with ⟨m, n, kept, ends, room⟩ | ⟨-, whole, listed, redacted⟩
  · exact .inr ⟨m, n, kept, shortened_of_ends? room (ends.symm.trans h)⟩
  · exact .inl (Option.some.inj (redacted.symm.trans h) ▸ listed)

/-! ### Two values -/

/-- The values have one length, or are both short and not empty. -/
def AlikeHidden (v v' : String) : Prop :=
  byteLength v = byteLength v' ∨
    (0 < byteLength v ∧ byteLength v ≤ 4) ∧ 0 < byteLength v' ∧ byteLength v' ≤ 4

/-- The texts have one length and both have a mark or none; they are not long enough to be
    shortened as addresses, or they have the same ends. -/
def AlikeAddresses (t t' : String) : Prop :=
  byteLength t = byteLength t' ∧ isMarked t = isMarked t' ∧
    (byteLength t ≤ addressFront t + 4 + 3 ∨ SameEnds (addressFront t) 4 t t')

/-- The texts are shortened as hashes, whatever their lengths; both have a mark or none, and
    they have the same ends. -/
def AlikeHashes (t t' : String) : Prop :=
  20 < byteLength t ∧ 20 < byteLength t' ∧ isMarked t = isMarked t' ∧
    SameEnds (hashFront t) 6 t t'

instance (v v' : String) : Decidable (AlikeHidden v v') := inferInstanceAs (Decidable (_ ∨ _))

instance (t t' : String) : Decidable (AlikeAddresses t t') :=
  inferInstanceAs (Decidable (_ ∧ _))

instance (t t' : String) : Decidable (AlikeHashes t t') := inferInstanceAs (Decidable (_ ∧ _))

theorem hidden_congr (alike : AlikeHidden v v') : hidden v = hidden v' := by
  rw [hidden_eq, hidden_eq]
  rcases alike with same | ⟨short, short'⟩
  · rw [same]
  · rw [if_neg (by omega), if_pos short.2, if_neg (by omega), if_pos short'.2]

theorem shortAddress?_congr (alike : AlikeAddresses (Text.trim v) (Text.trim v')) :
    shortAddress? v = shortAddress? v' := by
  obtain ⟨length, mark, ends⟩ := alike
  have front : addressFront (Text.trim v') = addressFront (Text.trim v) := by
    rw [addressFront, addressFront, mark]
  rw [shortAddress?_eq, shortAddress?_eq, front, ← length]
  split
  case isFalse => rw [hidden_congr (.inl length)]
  case isTrue long => exact ends?_congr (ends.resolve_left (Nat.not_le.2 long))

theorem shortHash?_congr (alike : AlikeHashes (Text.trim v) (Text.trim v')) :
    shortHash? v = shortHash? v' := by
  obtain ⟨long, long', mark, ends⟩ := alike
  have front : hashFront (Text.trim v') = hashFront (Text.trim v) := by
    rw [hashFront, hashFront, mark]
  rw [shortHash?_eq, shortHash?_eq, if_pos long, if_pos long', front]
  exact ends?_congr ends

end Values

/-! ## Lines -/

namespace Entry

/-- The entry with a field more, and others behind it. -/
def holding (e : Entry) (rest : List (String × String)) (key value : String) : Entry :=
  { e with fields := e.fields ++ (key, value) :: rest }

theorem render?_holding_congr {e : Entry} {rest : List (String × String)} {key v v' : String}
    (same : redact? key v = redact? key v') :
    (e.holding rest key v).render? = (e.holding rest key v').render? := by
  simp only [render?, holding, List.mapM_append, List.mapM_cons, renderField?, same]

end Entry

/-- A line does not tell two values of a field apart. Under a key that mentions payload it is
    the same for values of one length, and for short ones; under a key that mentions an
    address, and no payload, for values which, the blanks around them apart, have one length
    and the same mark, and the same ends if they are shortened; under one that mentions a
    hash, and neither, for values of any length that are shortened and have the same mark and
    the same ends. If one of the two lines cannot be written then neither can the other. A
    value that is not shown or hidden as a whole is shortened, and then three bytes of it and
    more are left out. -/
theorem line_hides_value {key small : String} (form : Text.LowerForm key.toList small.toList)
    (e : Entry) (rest : List (String × String)) (v v' : String) :
    (Mentions small payloadWords → AlikeHidden v v' →
        (e.holding rest key v).render? = (e.holding rest key v').render?) ∧
      (¬ Mentions small payloadWords → Mentions small addressWords →
        AlikeAddresses (Text.trim v) (Text.trim v') →
          (e.holding rest key v).render? = (e.holding rest key v').render?) ∧
      (¬ Mentions small payloadWords → ¬ Mentions small addressWords → Mentions small hashWords →
        AlikeHashes (Text.trim v) (Text.trim v') →
          (e.holding rest key v).render? = (e.holding rest key v').render?) ∧
      ∀ shown, redact? key v = some shown →
        shown ∈ [v, Text.trim v, hidden v, hidden (Text.trim v)] ∨
          ∃ m n, kept? key v = some (m, n) ∧ Shortened m n (Text.trim v) shown := by
  have rule := Rule.ofKey_of_lowerForm form
  refine ⟨fun payload alike => ?_, fun noPayload address alike => ?_,
    fun noPayload noAddress hash alike => ?_, fun shown => shown_or_shortened⟩
  · rw [if_pos payload] at rule
    refine Entry.render?_holding_congr ?_
    simp only [redact?, rule, hidden_congr alike]
  · rw [if_neg noPayload, if_pos address] at rule
    refine Entry.render?_holding_congr ?_
    simp only [redact?, rule, shortAddress?_congr alike]
  · rw [if_neg noPayload, if_neg noAddress, if_pos hash] at rule
    refine Entry.render?_holding_congr ?_
    simp only [redact?, rule, shortHash?_congr alike]

/-- What is in the middle of an address does not show, nor how many characters it is. -/
theorem line_hides_value_wallet :
    Text.LowerForm "Wallet".toList "wallet".toList ∧ ¬ Mentions "wallet" payloadWords ∧
      Mentions "wallet" addressWords ∧
      AlikeAddresses (Text.trim "0xCD2a3d111111D826") (Text.trim " 0xCD2a3déééD826") ∧
      (Entry.holding ⟨.warn, "app", "signed", []⟩ [("version", "v4")] "Wallet"
        "0xCD2a3d111111D826").render? =
          some "WARN [app] signed | Wallet=0xCD2a3d...D826 version=v4" ∧
      (Entry.holding ⟨.warn, "app", "signed", []⟩ [("version", "v4")] "Wallet"
        " 0xCD2a3déééD826").render? =
          some "WARN [app] signed | Wallet=0xCD2a3d...D826 version=v4" := by
  have form : Text.LowerForm "Wallet".toList "wallet".toList := Text.lowerForm_of_ascii (by decide)
  have noPayload : ¬ Mentions "wallet" payloadWords := by decide
  have address : Mentions "wallet" addressWords := by decide
  have alike : AlikeAddresses (Text.trim "0xCD2a3d111111D826") (Text.trim " 0xCD2a3déééD826") := by
    decide
  have line : (Entry.holding ⟨.warn, "app", "signed", []⟩ [("version", "v4")] "Wallet"
      "0xCD2a3d111111D826").render? =
        some "WARN [app] signed | Wallet=0xCD2a3d...D826 version=v4" := by decide
  obtain ⟨-, same, -⟩ := line_hides_value form ⟨.warn, "app", "signed", []⟩ [("version", "v4")]
    "0xCD2a3d111111D826" " 0xCD2a3déééD826"
  exact ⟨form, noPayload, address, alike, line, (same noPayload address alike).symm.trans line⟩

end TypedMessage.Log
