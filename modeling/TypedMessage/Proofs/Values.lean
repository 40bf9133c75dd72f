import TypedMessage.Proofs.Lexemes
import TypedMessage.Proofs.Dependencies

/- Values, written and read. `Readable` says which values the reader gives, and each of
   them is read back from its text in either layout (`readable_of_readValue`,
   `reads_printAt`), so a text that was read and written again keeps its value
   (`parse_print_of_parse`). -/
namespace TypedMessage.Json

/-! ## What the reader gives -/

/-- A value as the reader gives it where `depth` more containers may be opened. -/
inductive Readable : (depth : Nat) → Json → Prop
  | null {d : Nat} : Readable d .null
  | bool {d : Nat} (b : Bool) : Readable d (.bool b)
  | number {d : Nat} {t : String} (numeral : Numeral t.toList) : Readable d (.number t)
  | string {d : Nat} (s : String) : Readable d (.string s)
  | array {d : Nat} {items : List Json} (items_readable : ∀ v ∈ items, Readable d v) :
      Readable (d + 1) (.array items)
  | object {d : Nat} {members : List (String × Json)} (ascending : Ascending members)
      (members_readable : ∀ m ∈ members, Readable d m.2) : Readable (d + 1) (.object members)

theorem orderedItems_iff {items : List Json} : OrderedItems items ↔ ∀ v ∈ items, v.Ordered := by
  induction items with
  | nil => simp [OrderedItems]
  | cons v items ih => simp [OrderedItems, ih]

theorem orderedMembers_iff {members : List (String × Json)} :
    OrderedMembers members ↔ ∀ m ∈ members, m.2.Ordered := by
  induction members with
  | nil => simp [OrderedMembers]
  | cons m members ih => rw [OrderedMembers, ih, List.forall_mem_cons]

theorem depthItems_le_iff {items : List Json} {d : Nat} :
    depthItems items ≤ d ↔ ∀ v ∈ items, v.depth ≤ d := by
  induction items with
  | nil => simp [depthItems]
  | cons v items ih => rw [depthItems, Nat.max_le, ih, List.forall_mem_cons]

theorem depthMembers_le_iff {members : List (String × Json)} {d : Nat} :
    depthMembers members ≤ d ↔ ∀ m ∈ members, m.2.depth ≤ d := by
  induction members with
  | nil => simp [depthMembers]
  | cons m members ih => rw [depthMembers, Nat.max_le, ih, List.forall_mem_cons]

theorem Readable.ordered {d : Nat} {v : Json} (h : Readable d v) : v.Ordered := by
  induction h with
  | array _ ih => exact orderedItems_iff.2 ih
  | object ascending _ ih => exact ⟨ascending, orderedMembers_iff.2 ih⟩
  | _ => trivial

theorem Readable.depth_le {d : Nat} {v : Json} (h : Readable d v) : v.depth ≤ d := by
  induction h with
  | array _ ih => exact Nat.succ_le_succ (depthItems_le_iff.2 ih)
  | object _ _ ih => exact Nat.succ_le_succ (depthMembers_le_iff.2 ih)
  | _ => exact Nat.zero_le _

section Reading
variable {α σ : Type} {n d : Nat} {first : Bool} {s rest : List Char} {v : Json}

/-- Every item of a list was read somewhere. -/
theorem exists_read_of_mem_readItems {item : Read α} {as : List α}
    (h : readItems item n first s = .ok (as, rest)) {a : α} (ha : a ∈ as) :
    ∃ s s', item s = .ok (a, s') := by
  induction n generalizing first s rest as with
  | zero => cases h
  | succ n ih =>
    rw [readItems] at h
    obtain ⟨turn, -, h⟩ := bind_eq_ok.1 h
    cases turn with
    | close s' =>
      obtain ⟨rfl, -⟩ := Prod.mk.inj (Except.ok.inj h)
      cases ha
    | item s' =>
      obtain ⟨⟨b, s''⟩, hb, h⟩ := bind_eq_ok.1 h
      obtain ⟨⟨bs, s'''⟩, hbs, h⟩ := bind_eq_ok.1 h
      obtain ⟨rfl, -⟩ := Prod.mk.inj (Except.ok.inj h)
      rcases List.mem_cons.1 ha with rfl | ha
      · exact ⟨s', s'', hb⟩
      · exact ih hbs ha

/-- What every member keeps holds after the last one. -/
theorem foldMembers_invariant {P : σ → Prop} {step : σ → String → Read σ} {acc acc' : σ}
    (keeps : ∀ acc k s acc' s', P acc → step acc k s = .ok (acc', s') → P acc')
    (h : foldMembers step n first acc s = .ok (acc', rest)) (hacc : P acc) : P acc' := by
  induction n generalizing first s acc with
  | zero => cases h
  | succ n ih =>
    rw [foldMembers] at h
    obtain ⟨turn, -, h⟩ := bind_eq_ok.1 h
    cases turn with
    | close s' =>
      obtain ⟨rfl, -⟩ := Prod.mk.inj (Except.ok.inj h)
      exact hacc
    | item s' =>
      obtain ⟨⟨k, s''⟩, -, h⟩ := bind_eq_ok.1 h
      obtain ⟨⟨next, s'''⟩, hstep, h⟩ := bind_eq_ok.1 h
      exact ih h (keeps acc k s'' next s''' hacc hstep)

theorem readable_of_readObject {item : Read Json} {m : Dict Json}
    (hitem : ∀ s v rest, item s = .ok (v, rest) → Readable d v)
    (h : readObject item s = .ok (m, rest)) : Readable (d + 1) (ofDict m) := by
  -- The order of the keys is kept by the map itself; the members are followed through the loop.
  have keeps : ∀ e ∈ m.entries, Readable d e.2 := by
    refine foldMembers_invariant (P := fun m : Dict Json => ∀ e ∈ m.entries, Readable d e.2)
      ?_ h (List.forall_mem_nil _)
    intro m k s m' s' hm hstep
    obtain ⟨s₁, -, hstep⟩ := bind_eq_ok.1 hstep
    obtain ⟨⟨v, s₂⟩, hv, hstep⟩ := bind_eq_ok.1 hstep
    obtain ⟨rfl, -⟩ := Prod.mk.inj (Except.ok.inj hstep)
    intro e he
    rcases mem_insertEntry he with rfl | he
    · exact hitem s₁ v s₂ hv
    · exact hm e he
  exact .object m.ascending keeps

theorem readable_of_readValueWith {inner : Option (Read Json)}
    (hinner : ∀ item ∈ inner, ∃ e, d = e + 1 ∧ ∀ s v rest, item s = .ok (v, rest) → Readable e v)
    (h : readValueWith inner s = .ok (v, rest)) : Readable d v := by
  unfold readValueWith at h
  split at h
  case h_1 => cases h
  case h_2 | h_3 | h_4 =>
    obtain ⟨s', -, h⟩ := bind_eq_ok.1 h
    obtain ⟨rfl, -⟩ := Prod.mk.inj (Except.ok.inj h)
    constructor
  case h_5 =>
    obtain ⟨⟨t, s'⟩, -, h⟩ := bind_eq_ok.1 h
    obtain ⟨rfl, -⟩ := Prod.mk.inj (Except.ok.inj h)
    exact .string t
  case h_6 =>
    cases inner with
    | none => cases h
    | some item =>
      obtain ⟨e, rfl, hitem⟩ := hinner item rfl
      obtain ⟨⟨vs, s'⟩, hvs, h⟩ := bind_eq_ok.1 h
      obtain ⟨rfl, -⟩ := Prod.mk.inj (Except.ok.inj h)
      refine .array fun w hw => ?_
      obtain ⟨s₁, s₂, hread⟩ := exists_read_of_mem_readItems hvs hw
      exact hitem s₁ w s₂ hread
  case h_7 =>
    cases inner with
    | none => cases h
    | some item =>
      obtain ⟨e, rfl, hitem⟩ := hinner item rfl
      obtain ⟨⟨m, s'⟩, hm, h⟩ := bind_eq_ok.1 h
      obtain ⟨rfl, -⟩ := Prod.mk.inj (Except.ok.inj h)
      exact readable_of_readObject hitem hm
  case h_8 =>
    split at h
    case isTrue =>
      obtain ⟨⟨t, s'⟩, ht, h⟩ := bind_eq_ok.1 h
      obtain ⟨rfl, -⟩ := Prod.mk.inj (Except.ok.inj h)
      exact .number (numeral_of_readNumber ht)
    case isFalse => cases h

theorem readable_of_readValue (h : readValue d s = .ok (v, rest)) : Readable d v := by
  induction d generalizing s v rest with
  | zero => exact readable_of_readValueWith (by simp) h
  | succ d ih =>
    refine readable_of_readValueWith (fun item hitem => ⟨d, rfl, fun s v rest hread => ?_⟩) h
    cases hitem
    exact ih hread

end Reading

/-! ## Blanks and separators -/

section Printing
variable {α σ : Type} {l : Layout} {level n d : Nat} {first : Bool} {c : Char}
  {s s' cs rest : List Char} {v : Json}

theorem skipSpace_cons (hc : isSpace c = false) : skipSpace (c :: s) = c :: s := by
  rw [skipSpace, List.dropWhile_cons, hc]
  rfl

theorem skipSpace_lineBreak (l : Layout) (level : Nat) (s : List Char) :
    skipSpace (l.lineBreak level ++ s) = skipSpace s := by
  cases l with
  | compact => rfl
  | indented =>
    have blank : ∀ c ∈ '\n' :: List.replicate (2 * level) ' ', isSpace c = true := by
      intro c hc
      rcases List.mem_cons.1 hc with rfl | hc
      · rfl
      · rw [List.eq_of_mem_replicate hc]
        rfl
    exact List.dropWhile_append_of_pos blank

theorem readColon_keySeparator (l : Layout) (s : List Char) :
    ∃ s', readColon (l.keySeparator ++ s) = .ok s' ∧ skipSpace s' = skipSpace s := by
  cases l with
  | compact => exact ⟨s, rfl, rfl⟩
  | indented => exact ⟨' ' :: s, rfl, rfl⟩

theorem numberEnds_lineBreak (l : Layout) (level : Nat) (hrest : NumberEnds rest) :
    NumberEnds (l.lineBreak level ++ rest) := by
  cases l with
  | compact => exact hrest
  | indented => simp [NumberEnds, Layout.lineBreak]

theorem numberEnds_printItems (l : Layout) (level : Nat) (vs : List Json) (rest : List Char) :
    NumberEnds (printItems l level vs ++ rest) := by
  cases vs with
  | nil =>
    rw [printItems, List.append_assoc]
    exact numberEnds_lineBreak l level (by simp [NumberEnds])
  | cons v vs => simp [NumberEnds, printItems]

theorem numberEnds_printMembers (l : Layout) (level : Nat) (ms : List (String × Json))
    (rest : List Char) : NumberEnds (printMembers l level ms ++ rest) := by
  cases ms with
  | nil =>
    rw [printMembers, List.append_assoc]
    exact numberEnds_lineBreak l level (by simp [NumberEnds])
  | cons m ms => simp [NumberEnds, printMembers]

theorem printString_append (t : String) (rest : List Char) :
    printString t ++ rest = '"' :: (t.toList.flatMap printChar ++ '"' :: rest) := by
  simp [printString]

theorem not_other_of_startsNumber (h : startsNumber c = true) :
    isSpace c = false ∧ c ≠ ']' ∧ c ≠ 'n' ∧ c ≠ 't' ∧ c ≠ 'f' ∧ c ≠ '"' ∧ c ≠ '[' ∧
      c ≠ '\x7b' := by
  have hne {d : Char} (hd : startsNumber d = false) : c ≠ d := fun hcd =>
    Bool.false_ne_true (hd.symm.trans (hcd ▸ h))
  refine ⟨?_, hne rfl, hne rfl, hne rfl, hne rfl, hne rfl, hne rfl, hne rfl⟩
  simp [isSpace, hne (d := ' ') rfl, hne (d := '\n') rfl, hne (d := '\t') rfl,
    hne (d := '\r') rfl]

/-! ## Texts that are read back -/

/-- From this text `a` is read, whatever blanks stand before it and whatever comes after
    it. The text starts with no blank and not like the end of a list. -/
structure ReadsBack (read : Read α) (text : List Char) (a : α) : Prop where
  start : ∃ c cs, text = c :: cs ∧ isSpace c = false ∧ c ≠ ']'
  reads : ∀ s rest, NumberEnds rest → skipSpace s = text ++ rest → read s = .ok (a, rest)

namespace ReadsBack
variable {read : Read α} {text : List Char} {a : α}

theorem skipSpace_append (h : ReadsBack read text a) (rest : List Char) :
    skipSpace (text ++ rest) = text ++ rest := by
  obtain ⟨c, cs, rfl, hc, -⟩ := h.start
  exact skipSpace_cons hc

theorem read_eq (h : ReadsBack read text a) (hrest : NumberEnds rest)
    (hs : skipSpace s = skipSpace (text ++ rest)) : read s = .ok (a, rest) :=
  h.reads s rest hrest (hs.trans (h.skipSpace_append rest))

theorem read_all (h : ReadsBack read text a) : read text = .ok (a, []) :=
  h.read_eq (by simp [NumberEnds]) (by rw [List.append_nil])

theorem listTurn_first (h : ReadsBack read text a)
    (hs : skipSpace s = skipSpace (text ++ rest)) :
    listTurn true s = .ok (.item (text ++ rest)) := by
  rw [listTurn, hs, h.skipSpace_append rest]
  obtain ⟨c, cs, rfl, -, hc⟩ := h.start
  simp [hc]

theorem listTurn_comma (h : ReadsBack read text a)
    (hs : skipSpace s = skipSpace (text ++ rest)) :
    listTurn false (',' :: s) = .ok (.item (text ++ rest)) := by
  rw [listTurn, skipSpace_cons rfl]
  simp only [hs, h.skipSpace_append rest]
  obtain ⟨c, cs, rfl, -, hc⟩ := h.start
  simp [hc]

end ReadsBack

/-! ### Values that hold no others -/

theorem readsBack_null (inner : Option (Read Json)) :
    ReadsBack (readValueWith inner) (printAt l level .null) .null where
  start := ⟨_, _, rfl, rfl, by decide⟩
  reads s rest _ hs := by
    unfold readValueWith
    rw [hs]
    rfl

theorem readsBack_bool (inner : Option (Read Json)) (b : Bool) :
    ReadsBack (readValueWith inner) (printAt l level (.bool b)) (.bool b) where
  start := by cases b <;> exact ⟨_, _, rfl, rfl, by decide⟩
  reads s rest _ hs := by
    unfold readValueWith
    rw [hs]
    cases b <;> rfl

theorem readsBack_string (inner : Option (Read Json)) (t : String) :
    ReadsBack (readValueWith inner) (printAt l level (.string t)) (.string t) where
  start := ⟨'"', _, rfl, rfl, by decide⟩
  reads s rest _ hs := by
    rw [printAt, printString_append] at hs
    unfold readValueWith
    rw [hs]
    simp only [readString_append]
    rfl

theorem readValueWith_number (inner : Option (Read Json)) (hs : skipSpace s = c :: cs)
    (hc : startsNumber c = true) :
    readValueWith inner s =
      (readNumber .endInValue (c :: cs)).map fun p => (.number p.1, p.2) := by
  obtain ⟨-, -, hn, ht, hf, hquote, hlist, hobject⟩ := not_other_of_startsNumber hc
  unfold readValueWith
  rw [hs, ← bind_ok_eq_map]
  -- The other clauses start with characters that `c` is not.
  simp only [hc, if_true]
  rfl

theorem readsBack_number (inner : Option (Read Json)) {t : String} (ht : Numeral t.toList) :
    ReadsBack (readValueWith inner) (printAt l level (.number t)) (.number t) where
  start := by
    obtain ⟨c, cs, hcs, hc⟩ := ht.exists_start
    obtain ⟨hspace, hclose, -⟩ := not_other_of_startsNumber hc
    exact ⟨c, cs, hcs, hspace, hclose⟩
  reads s rest hrest hs := by
    have hread := readNumber_append .endInValue ht hrest
    rw [printAt] at hs
    obtain ⟨c, cs, hcs, hc⟩ := ht.exists_start
    rw [hcs, List.cons_append] at hs hread
    rw [readValueWith_number inner hs hc, hread]
    rfl

/-! ### Lists -/

theorem printItems_cons (l : Layout) (level : Nat) (v : Json) (vs : List Json)
    (rest : List Char) :
    printItems l level (v :: vs) ++ rest =
      ',' :: (l.lineBreak (level + 1) ++ (printAt l (level + 1) v ++
        (printItems l level vs ++ rest))) := by
  simp [printItems]

theorem listTurn_close (first : Bool) (l : Layout) (level : Nat) (rest : List Char) :
    listTurn first (l.lineBreak level ++ ']' :: rest) = .ok (.close rest) := by
  rw [listTurn, skipSpace_lineBreak]
  rfl

theorem readItems_item {item : Read α} {a : α} {as : List α} {s'' : List Char}
    (turn : listTurn first s = .ok (.item s')) (front : item s' = .ok (a, s''))
    (back : readItems item n false s'' = .ok (as, rest)) :
    readItems item (n + 1) first s = .ok (a :: as, rest) := by
  rw [readItems, turn]
  simp [bind, Except.bind, front, back, pure, Except.pure]

section Lists
variable {item : Read Json} {vs : List Json}

theorem readItems_printItems
    (items : ∀ v ∈ vs, ReadsBack item (printAt l (level + 1) v) v) (hn : vs.length < n) :
    readItems item n false (printItems l level vs ++ rest) = .ok (vs, rest) := by
  induction vs generalizing n with
  | nil =>
    obtain ⟨n, rfl⟩ := Nat.exists_eq_succ_of_ne_zero (Nat.ne_zero_of_lt hn)
    rw [printItems, List.append_assoc, List.singleton_append, readItems, listTurn_close]
    rfl
  | cons v vs ih =>
    obtain ⟨n, rfl⟩ := Nat.exists_eq_succ_of_ne_zero (Nat.ne_zero_of_lt hn)
    obtain ⟨hv, hvs⟩ := List.forall_mem_cons.1 items
    rw [printItems_cons]
    exact readItems_item (hv.listTurn_comma (skipSpace_lineBreak l (level + 1) _))
      (hv.read_eq (numberEnds_printItems l level vs rest) rfl) (ih hvs (Nat.lt_of_succ_lt_succ hn))

theorem length_lt_printItems (l : Layout) (level : Nat) (vs : List Json) (rest : List Char) :
    vs.length < (printItems l level vs ++ rest).length := by
  induction vs with
  | nil =>
    simp only [printItems, List.length_append, List.length_cons, List.length_nil]
    omega
  | cons v vs ih =>
    rw [printItems_cons]
    simp only [List.length_append, List.length_cons] at ih ⊢
    omega

/-- A printed list is read as the list it was printed from. -/
theorem exists_readList_printAt
    (items : ∀ v ∈ vs, ReadsBack item (printAt l (level + 1) v) v) :
    ∃ body, printAt l level (.array vs) = '[' :: body ∧
      ∀ rest, readList item (body ++ rest) = .ok (vs, rest) := by
  cases vs with
  | nil => exact ⟨_, rfl, fun rest => rfl⟩
  | cons v vs =>
    obtain ⟨hv, hvs⟩ := List.forall_mem_cons.1 items
    refine ⟨l.lineBreak (level + 1) ++ (printAt l (level + 1) v ++ printItems l level vs),
      by simp [printAt], fun rest => ?_⟩
    rw [List.append_assoc, List.append_assoc, readList]
    -- The bound is the length of the text, and every item takes some of it.
    have hbound : vs.length + 1 < (l.lineBreak (level + 1) ++ (printAt l (level + 1) v ++
        (printItems l level vs ++ rest))).length := by
      obtain ⟨c, cs, hcs, -⟩ := hv.start
      have := length_lt_printItems l level vs rest
      simp only [hcs, List.length_append, List.length_cons] at this ⊢
      omega
    obtain ⟨n, hn⟩ := Nat.exists_eq_succ_of_ne_zero (Nat.ne_zero_of_lt hbound)
    rw [hn] at hbound ⊢
    exact readItems_item (hv.listTurn_first (skipSpace_lineBreak l (level + 1) _))
      (hv.read_eq (numberEnds_printItems l level vs rest) rfl)
      (readItems_printItems hvs (Nat.lt_of_succ_lt_succ hbound))

end Lists

/-! ### Objects -/

theorem printMembers_cons (l : Layout) (level : Nat) (k : String) (v : Json)
    (ms : List (String × Json)) (rest : List Char) :
    printMembers l level ((k, v) :: ms) ++ rest =
      ',' :: (l.lineBreak (level + 1) ++ '"' :: (k.toList.flatMap printChar ++ '"' ::
        (l.keySeparator ++ (printAt l (level + 1) v ++ (printMembers l level ms ++ rest))))) := by
  simp [printMembers, printString]

theorem objectTurn_close (first : Bool) (l : Layout) (level : Nat) (rest : List Char) :
    objectTurn first (l.lineBreak level ++ '\x7d' :: rest) = .ok (.close rest) := by
  rw [objectTurn, skipSpace_lineBreak]
  rfl

theorem objectTurn_first (l : Layout) (level : Nat) (s : List Char) :
    objectTurn true (l.lineBreak level ++ '"' :: s) = .ok (.item s) := by
  rw [objectTurn, skipSpace_lineBreak]
  rfl

theorem objectTurn_comma (l : Layout) (level : Nat) (s : List Char) :
    objectTurn false (',' :: (l.lineBreak level ++ '"' :: s)) = .ok (.item s) := by
  rw [objectTurn, skipSpace_cons rfl]
  simp only [skipSpace_lineBreak]
  rfl

section Objects
variable {step : σ → String → Read σ} {acc acc' : σ} {ms : List (String × Json)}

/-- `step` takes the member with this key and value, as it is printed, from `acc` to
    `acc'`. -/
def Takes (step : σ → String → Read σ) (l : Layout) (level : Nat) (m : String × Json)
    (acc acc' : σ) : Prop :=
  ∀ rest, NumberEnds rest →
    step acc m.1 (l.keySeparator ++ (printAt l level m.2 ++ rest)) = .ok (acc', rest)

/-- `step` takes these members one after the other, as they are printed. -/
inductive TakesAll (step : σ → String → Read σ) (l : Layout) (level : Nat) :
    List (String × Json) → σ → σ → Prop
  | nil {acc : σ} : TakesAll step l level [] acc acc
  | cons {m : String × Json} {ms : List (String × Json)} {acc next acc' : σ}
      (front : Takes step l level m acc next) (back : TakesAll step l level ms next acc') :
      TakesAll step l level (m :: ms) acc acc'

theorem foldMembers_item {k : String} {next : σ}
    (turn : objectTurn first s = .ok (.item (k.toList.flatMap printChar ++ '"' :: s')))
    (front : step acc k s' = .ok (next, rest)) :
    foldMembers step (n + 1) first acc s = foldMembers step n false next rest := by
  rw [foldMembers, turn]
  simp [bind, Except.bind, readString_append, front]

theorem foldMembers_printMembers (members : TakesAll step l (level + 1) ms acc acc')
    (hn : ms.length < n) :
    foldMembers step n false acc (printMembers l level ms ++ rest) = .ok (acc', rest) := by
  induction members generalizing n with
  | nil =>
    obtain ⟨n, rfl⟩ := Nat.exists_eq_succ_of_ne_zero (Nat.ne_zero_of_lt hn)
    rw [printMembers, List.append_assoc, List.singleton_append, foldMembers, objectTurn_close]
    rfl
  | @cons m ms acc next acc' front back ih =>
    obtain ⟨n, rfl⟩ := Nat.exists_eq_succ_of_ne_zero (Nat.ne_zero_of_lt hn)
    rw [printMembers_cons, foldMembers_item (objectTurn_comma l (level + 1) _)
      (front _ (numberEnds_printMembers l level ms rest))]
    exact ih (Nat.lt_of_succ_lt_succ hn)

theorem length_lt_printMembers (l : Layout) (level : Nat) (ms : List (String × Json))
    (rest : List Char) : ms.length < (printMembers l level ms ++ rest).length := by
  induction ms with
  | nil =>
    simp only [printMembers, List.length_append, List.length_cons, List.length_nil]
    omega
  | cons m ms ih =>
    rw [printMembers_cons]
    simp only [List.length_append, List.length_cons] at ih ⊢
    omega

/-- The members of a printed object are taken one after the other. -/
theorem exists_foldMembers_printAt (members : TakesAll step l (level + 1) ms acc acc') :
    ∃ body, printAt l level (.object ms) = '\x7b' :: body ∧
      ∀ rest, foldMembers step (body ++ rest).length true acc (body ++ rest) =
        .ok (acc', rest) := by
  cases members with
  | nil => exact ⟨_, rfl, fun rest => rfl⟩
  | @cons m ms _ next _ front back =>
    refine ⟨l.lineBreak (level + 1) ++ '"' :: (m.1.toList.flatMap printChar ++ '"' ::
      (l.keySeparator ++ (printAt l (level + 1) m.2 ++ printMembers l level ms))),
      by simp [printAt, printString], fun rest => ?_⟩
    simp only [List.append_assoc, List.cons_append]
    have hbound : ms.length + 1 < (l.lineBreak (level + 1) ++ '"' ::
        (m.1.toList.flatMap printChar ++ '"' :: (l.keySeparator ++ (printAt l (level + 1) m.2 ++
          (printMembers l level ms ++ rest))))).length := by
      have := length_lt_printMembers l level ms rest
      simp only [List.length_append, List.length_cons] at this ⊢
      omega
    obtain ⟨n, hn⟩ := Nat.exists_eq_succ_of_ne_zero (Nat.ne_zero_of_lt hbound)
    rw [hn] at hbound ⊢
    rw [foldMembers_item (objectTurn_first l (level + 1) _)
      (front _ (numberEnds_printMembers l level ms rest))]
    exact foldMembers_printMembers back (Nat.lt_of_succ_lt_succ hbound)

end Objects

/-- The members of a map are bound one after the other, each to what is read of it. -/
theorem takesAll_insert {item : Read Json} {ms rs : List (String × Json)}
    (members : List.Forall₂
      (fun m r => m.1 = r.1 ∧ ReadsBack item (printAt l level m.2) r.2) ms rs)
    (acc : Dict Json) :
    TakesAll (fun d k s => do
      let s ← readColon s
      let (a, s) ← item s
      return (d.insert k a, s)) l level ms acc
      (rs.foldl (fun d e => d.insert e.1 e.2) acc) := by
  induction members generalizing acc with
  | nil => exact .nil
  | @cons m r ms rs member _ ih =>
    obtain ⟨hkey, hm⟩ := member
    refine .cons (fun rest hrest => ?_) (ih _)
    obtain ⟨s, hs, hskip⟩ := readColon_keySeparator l (printAt l level m.2 ++ rest)
    simp [bind, Except.bind, hs, hm.read_eq hrest hskip, hkey, pure, Except.pure]

/-- A printed object is read as the map of its members, whatever their order. -/
theorem exists_readObject_printAt {item : Read Json} {ms rs : List (String × Json)}
    (members : List.Forall₂
      (fun m r => m.1 = r.1 ∧ ReadsBack item (printAt l (level + 1) m.2) r.2) ms rs) :
    ∃ body, printAt l level (.object ms) = '\x7b' :: body ∧
      ∀ rest, readObject item (body ++ rest) = .ok (Dict.ofList rs, rest) :=
  exists_foldMembers_printAt (takesAll_insert members Dict.empty)

/-! ### Values -/

theorem readsBack_array {item : Read Json} {vs : List Json}
    (items : ∀ v ∈ vs, ReadsBack item (printAt l (level + 1) v) v) :
    ReadsBack (readValueWith (some item)) (printAt l level (.array vs)) (.array vs) := by
  obtain ⟨body, hbody, hread⟩ := exists_readList_printAt items
  rw [hbody]
  refine ⟨⟨'[', body, rfl, rfl, by decide⟩, fun s rest _ hs => ?_⟩
  unfold readValueWith
  rw [hs]
  simp only [List.cons_append, hread]
  rfl

theorem readsBack_object {item : Read Json} {ms rs : List (String × Json)}
    (members : List.Forall₂
      (fun m r => m.1 = r.1 ∧ ReadsBack item (printAt l (level + 1) m.2) r.2) ms rs) :
    ReadsBack (readValueWith (some item)) (printAt l level (.object ms))
      (ofDict (Dict.ofList rs)) := by
  obtain ⟨body, hbody, hread⟩ := exists_readObject_printAt members
  rw [hbody]
  refine ⟨⟨'\x7b', body, rfl, rfl, by decide⟩, fun s rest _ hs => ?_⟩
  unfold readValueWith
  rw [hs]
  simp only [List.cons_append, hread]
  rfl

/-- What is read wherever a value may stand is read at every depth. -/
theorem readsBack_readValue {text : List Char}
    (h : ∀ inner, ReadsBack (readValueWith inner) text v) (d : Nat) :
    ReadsBack (readValue d) text v := by
  cases d <;> exact h _

/-- A value that the reader gives is read back from its text. -/
theorem readsBack_printAt (l : Layout) (level : Nat) (h : Readable d v) :
    ReadsBack (readValue d) (printAt l level v) v := by
  induction h generalizing level with
  | null => exact readsBack_readValue readsBack_null _
  | bool b => exact readsBack_readValue (fun inner => readsBack_bool inner b) _
  | number numeral => exact readsBack_readValue (fun inner => readsBack_number inner numeral) _
  | string t => exact readsBack_readValue (fun inner => readsBack_string inner t) _
  | array _ ih => exact readsBack_array fun v hv => ih v hv (level + 1)
  | @object d ms ascending _ ih =>
    have members : List.Forall₂
        (fun m r => m.1 = r.1 ∧ ReadsBack (readValue d) (printAt l (level + 1) m.2) r.2) ms ms :=
      List.forall₂_same.2 fun m hm => ⟨rfl, ih m hm (level + 1)⟩
    have hdict : Dict.ofList ms = ⟨ms, ascending⟩ := Dict.ofList_of_perm (.refl ms)
    have hobject := readsBack_object members
    rw [hdict] at hobject
    exact hobject

/-! ## Whole texts -/

theorem document_eq_ok {read : Read α} {text : String} {a : α} :
    document read text = .ok a ↔
      ∃ rest, read text.toList = .ok (a, rest) ∧ skipSpace rest = [] := by
  simp only [document, bind_eq_ok, Prod.exists, List.isEmpty_iff]
  constructor
  · intro run
    obtain ⟨b, rest, hread, h⟩ := run
    split at h
    case isTrue blank =>
      cases h
      exact ⟨rest, hread, blank⟩
    case isFalse => cases h
  · intro run
    obtain ⟨rest, hread, blank⟩ := run
    exact ⟨a, rest, hread, if_pos blank⟩

/-- A text that is nothing but the text of a value is read as that value. -/
theorem document_ofList {read : Read α} {text : List Char} {a : α}
    (h : read text = .ok (a, [])) : document read (String.ofList text) = .ok a :=
  document_eq_ok.2 ⟨[], by rw [String.toList_ofList, h], rfl⟩

theorem exists_read_of_document {read : Read α} {text : String} {a : α}
    (h : document read text = .ok a) : ∃ rest, read text.toList = .ok (a, rest) :=
  (document_eq_ok.1 h).imp fun _ read => read.1

/-- A value that was read has its members in order, nests no deeper than a text may, and
    is read again from what is written of it. -/
theorem parse_print_of_parse {text : String} (h : parse text = .ok v) :
    v.Ordered ∧ v.depth ≤ maxDepth ∧ ∀ l : Layout, parse (v.print l) = .ok v := by
  obtain ⟨rest, hread⟩ := exists_read_of_document h
  have readable : Readable maxDepth v := readable_of_readValue hread
  refine ⟨readable.ordered, readable.depth_le, fun l => ?_⟩
  exact document_ofList (readsBack_printAt l 0 readable).read_all

end Printing
end TypedMessage.Json
