import TypedMessage.Proofs.Redaction

/- Which log lines are lost. The cuts of a value that is shortened lie within it, at numbers
   of bytes, and one that falls inside a character takes the line with it
   (`line_lost_iff`). So a line of ASCII values is always written, while one of others need
   not be. -/
namespace TypedMessage.Log
variable {key value t : String} {m n : Nat}

/-! ## Cuts inside a character -/

/-- The first `n` bytes of the text are whole characters. -/
def CutsAt (t : String) (n : Nat) : Prop :=
  ∃ front back : String, t = front ++ back ∧ byteLength front = n

theorem cutsAt_iff :
    CutsAt t n ↔ ∃ front back, t.toList = front ++ back ∧ byteLength (String.ofList front) = n := by
  constructor
  · intro cut
    obtain ⟨front, back, rfl, length⟩ := cut
    exact ⟨front.toList, back.toList, String.toList_append, by rwa [String.ofList_toList]⟩
  · intro cut
    obtain ⟨front, back, ht, length⟩ := cut
    refine ⟨String.ofList front, String.ofList back, ?_, length⟩
    rw [← String.ofList_append, ← ht, String.ofList_toList]

theorem isSome_takeBytes?_iff : (takeBytes? n t.toList).isSome ↔ CutsAt t n := by
  rw [cutsAt_iff, Option.isSome_iff_exists]
  exact exists_congr fun front => takeBytes?_eq_some_iff

theorem isSome_dropBytes?_iff : (dropBytes? n t.toList).isSome ↔ CutsAt t n := by
  rw [cutsAt_iff, Option.isSome_iff_exists, exists_comm]
  exact exists_congr fun back => dropBytes?_eq_some_iff

theorem isSome_ends?_iff :
    (ends? m n t).isSome ↔ CutsAt t m ∧ CutsAt t (byteLength t - n) := by
  rw [← isSome_takeBytes?_iff, ← isSome_dropBytes?_iff, ends?]
  cases takeBytes? m t.toList with
  | none => simp
  | some front => cases dropBytes? (byteLength t - n) t.toList <;> simp

/-- Between any two characters of ASCII a text can be cut. -/
theorem cutsAt_of_ascii (ascii : Text.IsAscii t.toList) (within : n ≤ byteLength t) :
    CutsAt t n := by
  have bytes (cs : List Char) (h : ∀ c ∈ cs, c ∈ t.toList) :
      byteLength (String.ofList cs) = cs.length :=
    length_utf8_of_ascii fun c hc => ascii c (h c hc)
  have length := bytes t.toList fun c hc => hc
  rw [String.ofList_toList] at length
  refine cutsAt_iff.2 ⟨t.toList.take n, t.toList.drop n, (List.take_append_drop n _).symm, ?_⟩
  rw [bytes _ fun c hc => List.mem_of_mem_take hc, List.length_take, ← length, Nat.min_eq_left within]

theorem ascii_trim (ascii : Text.IsAscii value.toList) :
    Text.IsAscii (Text.trim value).toList := by
  intro c hc
  rw [Text.trim, String.toList_ofList, Text.trimList, List.mem_reverse] at hc
  have hc := (List.dropWhile_sublist _).subset hc
  rw [List.mem_reverse] at hc
  exact ascii c ((List.dropWhile_sublist _).subset hc)

/-! ## Values -/

/-- One of the two cuts of a value that is shortened falls inside a character. -/
def CutsCharacter (key value : String) : Prop :=
  ∃ m n, kept? key value = some (m, n) ∧
    ¬ (CutsAt (Text.trim value) m ∧
      CutsAt (Text.trim value) (byteLength (Text.trim value) - n))

theorem redact?_eq_none_iff : redact? key value = none ↔ CutsCharacter key value := by
  unfold CutsCharacter
  rcases redact?_cases key value with ⟨m, n, kept, ends, -⟩ | ⟨none, shown, -, redacted⟩
  · rw [ends, ← Option.not_isSome_iff_eq_none, isSome_ends?_iff]
    constructor
    · intro inside
      exact ⟨m, n, kept, inside⟩
    · intro inside
      obtain ⟨_, _, kept', inside⟩ := inside
      cases kept.symm.trans kept'
      exact inside
  · simp [none, redacted]

theorem not_cutsCharacter_of_ascii (ascii : Text.IsAscii value.toList) :
    ¬ CutsCharacter key value := by
  intro cut
  obtain ⟨m, n, kept, inside⟩ := cut
  have room := (redact?_of_kept? kept).2
  exact inside ⟨cutsAt_of_ascii (ascii_trim ascii) (by omega),
    cutsAt_of_ascii (ascii_trim ascii) (Nat.sub_le _ _)⟩

/-! ## Lines -/

theorem mapM_eq_none_iff {α β : Type} {f : α → Option β} {xs : List α} :
    xs.mapM f = none ↔ ∃ x ∈ xs, f x = none := by
  induction xs with
  | nil => simp
  | cons x xs ih =>
    simp only [List.mapM_cons, List.mem_cons, exists_eq_or_imp, ← ih]
    cases f x with
    | none => simp
    | some y => cases xs.mapM f <;> simp

theorem render?_eq_none_iff {e : Entry} :
    e.render? = none ↔ ∃ f ∈ e.fields, CutsCharacter f.1 f.2 := by
  have lost (f : String × String) : Entry.renderField? f = none ↔ CutsCharacter f.1 f.2 := by
    rw [Entry.renderField?, Option.map_eq_none_iff, redact?_eq_none_iff]
  simp only [← lost, ← mapM_eq_none_iff, Entry.render?]
  cases e.fields.mapM Entry.renderField? <;> simp

/-- A log line is lost exactly if one of its values is shortened by a cut inside a
    character. The cuts themselves are in range: what is kept at the front and at the end is
    no longer than the value, and there is something between them. So a line is written
    whenever its values are ASCII. -/
theorem line_lost_iff (e : Entry) :
    (e.render? = none ↔ ∃ f ∈ e.fields, CutsCharacter f.1 f.2) ∧
      (∀ f ∈ e.fields, ∀ m n, kept? f.1 f.2 = some (m, n) →
        m + n < byteLength (Text.trim f.2)) ∧
      ((∀ f ∈ e.fields, Text.IsAscii f.2.toList) → ∃ line, e.render? = some line) := by
  refine ⟨render?_eq_none_iff, fun f _ m n kept => ?_, fun ascii => ?_⟩
  · have := (redact?_of_kept? kept).2
    omega
  · refine Option.ne_none_iff_exists'.1 fun lost => ?_
    obtain ⟨f, hf, cut⟩ := render?_eq_none_iff.1 lost
    exact not_cutsCharacter_of_ascii (ascii f hf) cut

/-- A hash of letters that take two bytes each is cut in the middle of one. -/
theorem line_lost_of_accents :
    (Entry.mk .debug "app" "signed" [("hash", "aéééééééééééééééééééé")]).render? = none := by
  decide

end TypedMessage.Log
