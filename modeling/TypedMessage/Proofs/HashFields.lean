import TypedMessage.Proofs.LogLines

/- Fields named for a hash. A name may end in `hash`, `digest` or `separator`; the last of
   these holds the word `to`, which is looked for first, so a field of that name is shown as
   an address is and never as a hash (`hash_rule_iff_not_separator`). -/
namespace TypedMessage.Log
variable {key p t v w shown : String} {m n : Nat}

/-! ## Names in two parts -/

theorem contains_append_iff {word : String} (free : '_' ∉ word.toList)
    (apart : p = "" ∨ p.toList.getLast? = some '_') :
    Text.contains (p ++ w) word = true ↔
      Text.contains p word = true ∨ Text.contains w word = true := by
  rw [Text.contains, Text.contains, Text.contains, Text.occursIn_iff_infix,
    Text.occursIn_iff_infix, Text.occursIn_iff_infix, String.toList_append, List.infix_append_iff,
    or_congr_right]
  refine or_iff_left_of_imp fun across => ?_
  obtain ⟨front, back, hword, hfront, hback⟩ := across
  -- A word across the two parts would hold the underscore at the end of the first.
  have empty : front = [] := by
    rcases apart with rfl | last
    · exact List.suffix_nil.1 hfront
    · obtain ⟨start, hp⟩ := List.getLast?_eq_some_iff.1 last
      rw [hp] at hfront
      refine (List.suffix_concat_iff.1 hfront).resolve_right fun held => ?_
      obtain ⟨middle, rfl, -⟩ := held
      exact free (by simp [hword])
  rw [hword, empty]
  exact hback.isInfix

theorem mentions_append_iff {words : List String} (free : ∀ word ∈ words, '_' ∉ word.toList)
    (apart : p = "" ∨ p.toList.getLast? = some '_') :
    Mentions (p ++ w) words ↔ Mentions p words ∨ Mentions w words := by
  rw [Mentions, Mentions, Mentions, ← exists_or]
  refine exists_congr fun word => ?_
  rw [← and_or_left]
  exact and_congr_right fun hword => contains_append_iff (free word hword) apart

/-- The rule for a name whose last part is a hash word, and whose first part holds no word
    that is looked for earlier. -/
theorem Rule.ofKey_of_hashWord (form : Text.LowerForm key.toList (p ++ w).toList)
    (listed : w ∈ hashWords) (apart : p = "" ∨ p.toList.getLast? = some '_')
    (noPayload : ¬ Mentions p payloadWords) (noAddress : ¬ Mentions p addressWords) :
    Rule.ofKey key = if w = "separator" then .shortenAddress else .shortenHash := by
  have free : ∀ word ∈ payloadWords ++ addressWords ++ hashWords, '_' ∉ word.toList := by decide
  have parts (words : List String) (sub : words ⊆ payloadWords ++ addressWords ++ hashWords) :
      Mentions (p ++ w) words ↔ Mentions p words ∨ Mentions w words :=
    mentions_append_iff (fun word hword => free word (sub hword)) apart
  have last : ∀ w ∈ hashWords, ¬ Mentions w payloadWords ∧
      (Mentions w addressWords ↔ w = "separator") ∧ Mentions w hashWords := by decide
  obtain ⟨payload, address, hash⟩ := last w listed
  rw [Rule.ofKey_of_lowerForm form]
  simp only [parts payloadWords (by decide), parts addressWords (by decide),
    parts hashWords (by decide), noPayload, noAddress, payload, address, hash, or_false, false_or,
    or_true, if_true, if_false]

/-! ## Values -/

/-- A hash is shown as it is up to twenty bytes, and by its two ends if it is longer. -/
def ShowsHash (t shown : String) : Prop :=
  (byteLength t ≤ 20 ∧ shown = t) ∨ 20 < byteLength t ∧ Shortened (hashFront t) 6 t shown

theorem exists_shortened_of_ascii (ascii : Text.IsAscii t.toList)
    (room : m + n + 3 ≤ byteLength t) : ∃ shown, ends? m n t = some shown ∧ Shortened m n t shown := by
  have cuts : CutsAt t m ∧ CutsAt t (byteLength t - n) :=
    ⟨cutsAt_of_ascii ascii (by omega), cutsAt_of_ascii ascii (Nat.sub_le _ _)⟩
  obtain ⟨shown, ends⟩ := Option.isSome_iff_exists.1 (isSome_ends?_iff.2 cuts)
  exact ⟨shown, ends, shortened_of_ends? room ends⟩

theorem exists_showsHash (ascii : Text.IsAscii (Text.trim v).toList) :
    ∃ shown, shortHash? v = some shown ∧ ShowsHash (Text.trim v) shown := by
  rw [shortHash?_eq]
  split
  case isTrue long =>
    have := hashFront_le (Text.trim v)
    obtain ⟨shown, ends, shortened⟩ :=
      exists_shortened_of_ascii (m := hashFront (Text.trim v)) (n := 6) ascii (by omega)
    exact ⟨shown, ends, .inr ⟨long, shortened⟩⟩
  case isFalse short => exact ⟨_, rfl, .inl ⟨Nat.le_of_not_lt short, rfl⟩⟩

theorem Shortened.byteLength_shown (h : Shortened m n t shown) : byteLength shown = m + 3 + n := by
  obtain ⟨front, middle, back, -, rfl, hm, hn, -⟩ := h
  have dots : byteLength "..." = 3 := by decide
  rw [byteLength_append, byteLength_append, hm, hn, dots]

theorem addressFront_le (t : String) : addressFront t ≤ 8 := by
  unfold addressFront
  split <;> decide

theorem le_hashFront (t : String) : 10 ≤ hashFront t := by
  unfold hashFront
  split <;> decide

/-- What stands for a short text that is hidden has another length. -/
theorem byteLength_hidden_ne (short : byteLength t ≤ 15) : byteLength (hidden t) ≠ byteLength t := by
  rw [hidden_eq]
  split
  case isTrue empty =>
    have : byteLength "[EMPTY]" = 7 := by decide
    omega
  case isFalse =>
    split
    case isTrue =>
      have : byteLength "[REDACTED]" = 10 := by decide
      omega
    case isFalse =>
      have front : byteLength "[REDACTED:" = 10 := by decide
      have back : byteLength "chars]" = 6 := by decide
      rw [byteLength_append, byteLength_append, front, back]
      omega

/-- No value is shown alike as an address and as a hash. -/
theorem not_showsHash (h : shortAddress? v = some shown) : ¬ ShowsHash (Text.trim v) shown := by
  have front := addressFront_le (Text.trim v)
  have front' := le_hashFront (Text.trim v)
  rw [shortAddress?_eq] at h
  split at h
  case isTrue long =>
    have length := (shortened_of_ends? (by omega) h).byteLength_shown
    rintro (⟨-, rfl⟩ | ⟨-, shortened⟩)
    · omega
    · have := shortened.byteLength_shown
      omega
  case isFalse short =>
    cases h
    rintro (⟨-, same⟩ | ⟨long, -⟩)
    · exact byteLength_hidden_ne (by omega) (congrArg byteLength same)
    · omega

/-! ## Fields -/

/-- A field whose name is, in any letter case, a hash word, or one behind a part that ends in
    an underscore and holds no payload word and no address word, is shown by the rule for
    hashes if that word is `hash` or `digest`. If it is `separator` the rule is the one for
    addresses, under which no value looks as it would under the other. -/
theorem hash_rule_iff_not_separator (form : Text.LowerForm key.toList (p ++ w).toList)
    (listed : w ∈ hashWords) (apart : p = "" ∨ p.toList.getLast? = some '_')
    (noPayload : ¬ Mentions p payloadWords) (noAddress : ¬ Mentions p addressWords)
    (ascii : Text.IsAscii v.toList) :
    ∃ shown, Entry.renderField? (key, v) = some (key ++ "=" ++ shown) ∧
      (ShowsHash (Text.trim v) shown ↔ w ≠ "separator") ∧
      (w = "separator" → shortAddress? v = some shown) := by
  have rule := Rule.ofKey_of_hashWord form listed apart noPayload noAddress
  have field {shown : String} (h : redact? key v = some shown) :
      Entry.renderField? (key, v) = some (key ++ "=" ++ shown) := by
    rw [Entry.renderField?, h]
    rfl
  by_cases last : w = "separator"
  · rw [if_pos last] at rule
    have whole : redact? key v ≠ none := fun lost =>
      not_cutsCharacter_of_ascii ascii (redact?_eq_none_iff.1 lost)
    obtain ⟨shown, redacted⟩ := Option.ne_none_iff_exists'.1 whole
    have address : shortAddress? v = some shown := by simpa only [redact?, rule] using redacted
    exact ⟨shown, field redacted,
      iff_of_false (not_showsHash address) (not_not.2 last), fun _ => address⟩
  · rw [if_neg last] at rule
    obtain ⟨shown, hash, shows⟩ := exists_showsHash (ascii_trim ascii)
    have redacted : redact? key v = some shown := by simpa only [redact?, rule] using hash
    exact ⟨shown, field redacted, iff_of_true shows last, fun separator => absurd separator last⟩

/-- A digest under a name in capitals. -/
theorem hash_rule_iff_not_separator_digest :
    Text.LowerForm "LEAF_Digest".toList ("leaf_" ++ "digest").toList ∧ "digest" ∈ hashWords ∧
      "leaf_".toList.getLast? = some '_' ∧ ¬ Mentions "leaf_" payloadWords ∧
      ¬ Mentions "leaf_" addressWords ∧
      Text.IsAscii "0xbe609aee343fb3c4b28e1df9e632fca6 ".toList ∧
      Entry.renderField? ("LEAF_Digest", "0xbe609aee343fb3c4b28e1df9e632fca6 ") =
        some "LEAF_Digest=0xbe609aee34...32fca6" ∧
      ShowsHash "0xbe609aee343fb3c4b28e1df9e632fca6" "0xbe609aee34...32fca6" := by
  have form : Text.LowerForm "LEAF_Digest".toList ("leaf_" ++ "digest").toList :=
    Text.lowerForm_of_ascii (by decide)
  have listed : "digest" ∈ hashWords := by decide
  have apart : "leaf_".toList.getLast? = some '_' := by decide
  have noPayload : ¬ Mentions "leaf_" payloadWords := by decide
  have noAddress : ¬ Mentions "leaf_" addressWords := by decide
  have ascii : Text.IsAscii "0xbe609aee343fb3c4b28e1df9e632fca6 ".toList := by decide
  have trimmed : Text.trim "0xbe609aee343fb3c4b28e1df9e632fca6 " =
      "0xbe609aee343fb3c4b28e1df9e632fca6" := by decide
  have line : Entry.renderField? ("LEAF_Digest", "0xbe609aee343fb3c4b28e1df9e632fca6 ") =
      some ("LEAF_Digest" ++ "=" ++ "0xbe609aee34...32fca6") := by decide
  obtain ⟨shown, field, shows, -⟩ :=
    hash_rule_iff_not_separator form listed (.inr apart) noPayload noAddress ascii
  have same : "0xbe609aee34...32fca6" = shown :=
    (String.append_right_inj _).1 (Option.some.inj (line.symm.trans field))
  rw [trimmed, ← same] at shows
  exact ⟨form, listed, apart, noPayload, noAddress, ascii, line, shows.2 (by decide)⟩

/-- The domain separator keeps fewer bytes than a hash would, as its name holds `to`. -/
theorem separator_shown_as_address :
    Entry.renderField? ("domain_separator", "0xf2cee375fa42b42143804025fc449dea") =
        some ("domain_separator" ++ "=" ++ "0xf2cee3...9dea") ∧
      Text.trim "0xf2cee375fa42b42143804025fc449dea" = "0xf2cee375fa42b42143804025fc449dea" ∧
      ¬ ShowsHash "0xf2cee375fa42b42143804025fc449dea" "0xf2cee3...9dea" := by
  have trimmed : Text.trim "0xf2cee375fa42b42143804025fc449dea" =
      "0xf2cee375fa42b42143804025fc449dea" := by decide
  have address : shortAddress? "0xf2cee375fa42b42143804025fc449dea" = some "0xf2cee3...9dea" := by
    decide
  refine ⟨by decide, trimmed, ?_⟩
  have other := not_showsHash address
  rwa [trimmed] at other

end TypedMessage.Log
