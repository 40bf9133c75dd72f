import TypedMessage.Proofs.Dependencies
import TypedMessage.Proofs.Layout

/- Which values are schemas, and what is read from them. `Field.Written` gives the two
   forms of a field and `Json.IsFieldList` the values that are lists of them; a schema is
   an object of such lists, and its entries are read one for one in their order
   (`ofJson_object_eq_ok`). What is refused is refused for the first member that is no
   such list (`addEntries_eq_error`). -/
namespace TypedMessage

/-! ## Fields -/

theorem Json.toText_eq_ok {v : Json} {t : String} : v.toText = .ok t ↔ v = .string t := by
  cases v <;> simp [Json.toText]

namespace Field

/-- The value gives the field: as an object with the name and the type as texts, whatever
    else it holds, or as a list of those two texts and nothing else. -/
inductive Written : Json → Field → Prop
  | object {members : List (String × Json)} {f : Field}
      (name : findEntry "name" members = some (.string f.name))
      (type : findEntry "type" members = some (.string f.type)) : Written (.object members) f
  | pair (f : Field) : Written (.array [.string f.name, .string f.type]) f

/-- A member may be absent, and is a text if it is there. -/
theorem mapM_toText_eq_ok {o : Option Json} {r : Option String} :
    o.mapM Json.toText = .ok r ↔ o = r.map .string := by
  cases o with
  | none => cases r <;> simp [pure, Except.pure]
  | some v =>
    rw [Option.mapM_some]
    show v.toText.map some = .ok r ↔ _
    rw [map_eq_ok]
    cases r <;> simp [Json.toText_eq_ok]

theorem ofJson_object_eq_ok {members : List (String × Json)} {f : Field} :
    ofJson (.object members) = .ok f ↔ Written (.object members) f := by
  simp only [ofJson, bind_eq_ok, mapM_toText_eq_ok]
  constructor
  · intro read
    obtain ⟨name, hname, type, htype, h⟩ := read
    cases name with
    | none => cases h
    | some name =>
      cases type with
      | none => cases h
      | some type =>
        cases h
        exact .object hname htype
  · intro written
    cases written with
    | object name type => exact ⟨some f.name, name, some f.type, type, rfl⟩

theorem ofJson_array_eq_ok {items : List Json} {f : Field} :
    ofJson (.array items) = .ok f ↔ Written (.array items) f := by
  constructor
  · intro read
    cases items with
    | nil => cases read
    | cons v vs =>
      obtain ⟨name, hname, read⟩ := bind_eq_ok.1 read
      cases vs with
      | nil => cases read
      | cons w more =>
        obtain ⟨type, htype, read⟩ := bind_eq_ok.1 read
        cases more with
        | cons u more => cases read
        | nil =>
          cases read
          cases Json.toText_eq_ok.1 hname
          cases Json.toText_eq_ok.1 htype
          exact .pair ⟨name, type⟩
  · intro written
    cases written
    rfl

/-- A field is read from the values that give it, and from no others. -/
theorem ofJson_eq_ok {v : Json} {f : Field} : ofJson v = .ok f ↔ Written v f := by
  cases v with
  | object members => exact ofJson_object_eq_ok
  | array items => exact ofJson_array_eq_ok
  | _ => exact iff_of_false nofun nofun

theorem written_toJson (f : Field) : Written f.toJson f := .object rfl rfl

end Field

/-! ## Lists of fields -/

/-- The value is a list of fields. -/
def Json.IsFieldList (v : Json) : Prop :=
  ∃ items, v = .array items ∧ ∀ item ∈ items, ∃ f, Field.Written item f

namespace Field
variable {v : Json} {fields : List Field}

theorem listOfJson_eq_ok : listOfJson v = .ok fields ↔
    ∃ items, v = .array items ∧ List.Forall₂ Written items fields := by
  cases v with
  | array items =>
    simp only [listOfJson, mapM_eq_ok, ofJson_eq_ok, Json.array.injEq, exists_eq_left']
  | _ => exact iff_of_false nofun nofun

/-- A list of fields is what is read as one. -/
theorem listOfJson_isOk_iff : (∃ fields, listOfJson v = .ok fields) ↔ v.IsFieldList := by
  simp only [listOfJson_eq_ok, Json.IsFieldList, ← exists_forall₂_iff]
  exact exists_comm.trans (exists_congr fun items => exists_and_left)

end Field

namespace Schema
variable {d e : Schema} {ms : List (String × Json)}

/-! ## Entries -/

/-- The entry of a schema that a member gives. -/
def EntryOf (m : String × Json) (e : String × List Field) : Prop :=
  e.1 = m.1 ∧ Field.listOfJson m.2 = .ok e.2

theorem addEntries_eq_ok : addEntries d ms = .ok e ↔
    ∃ es, List.Forall₂ EntryOf ms es ∧ e = es.foldl (fun d e => d.insert e.1 e.2) d := by
  induction ms generalizing d with
  | nil => simp [addEntries, eq_comm]
  | cons m ms ih =>
    obtain ⟨k, v⟩ := m
    rw [addEntries]
    cases hv : Field.listOfJson v with
    | error fault =>
      refine iff_of_false nofun fun entries => ?_
      obtain ⟨es, hes, -⟩ := entries
      cases hes with
      | cons entry _ => cases hv.symm.trans entry.2
    | ok fields =>
      simp only [ih]
      constructor
      · intro entries
        obtain ⟨es, hes, he⟩ := entries
        exact ⟨(k, fields) :: es, .cons ⟨rfl, hv⟩ hes, he⟩
      · intro entries
        obtain ⟨es, hes, rfl⟩ := entries
        cases hes with
        | @cons _ e _ es entry hes =>
          obtain ⟨k', fields'⟩ := e
          obtain ⟨rfl, hfields⟩ := entry
          cases hv.symm.trans hfields
          exact ⟨es, hes, rfl⟩

theorem addEntries_isOk_iff :
    (∃ e, addEntries d ms = .ok e) ↔ ∀ m ∈ ms, m.2.IsFieldList := by
  have entries (m : String × Json) : (∃ e, EntryOf m e) ↔ m.2.IsFieldList := by
    rw [← Field.listOfJson_isOk_iff]
    constructor
    · intro entry
      obtain ⟨e, -, he⟩ := entry
      exact ⟨e.2, he⟩
    · intro read
      obtain ⟨fields, h⟩ := read
      exact ⟨(m.1, fields), rfl, h⟩
  simp only [← entries, ← exists_forall₂_iff, addEntries_eq_ok]
  constructor
  · intro read
    obtain ⟨e, es, hes, -⟩ := read
    exact ⟨es, hes⟩
  · intro read
    obtain ⟨es, hes⟩ := read
    exact ⟨_, es, hes, rfl⟩

/-- Entries are refused for the first of them that is no list of fields. -/
theorem addEntries_eq_error {fault : SchemaFault} (h : addEntries d ms = .error fault) :
    ∃ before k v after reason, ms = before ++ (k, v) :: after ∧
      (∀ m ∈ before, m.2.IsFieldList) ∧ Field.listOfJson v = .error reason ∧
      fault = .entry k reason := by
  induction ms generalizing d with
  | nil => cases h
  | cons m ms ih =>
    obtain ⟨k, v⟩ := m
    rw [addEntries] at h
    cases hv : Field.listOfJson v with
    | error reason =>
      rw [hv] at h
      cases h
      exact ⟨[], k, v, ms, reason, rfl, List.forall_mem_nil _, hv, rfl⟩
    | ok fields =>
      rw [hv] at h
      obtain ⟨before, k', v', after, reason, rfl, sound, refused, hfault⟩ := ih h
      have here : v.IsFieldList := Field.listOfJson_isOk_iff.1 ⟨fields, hv⟩
      exact ⟨(k, v) :: before, k', v', after, reason, rfl, List.forall_mem_cons.2 ⟨here, sound⟩,
        refused, hfault⟩

/-! ## Schemas -/

theorem keys_of_entries {es : List (String × List Field)} (h : List.Forall₂ EntryOf ms es) :
    es.map (·.1) = ms.map (·.1) := by
  induction h with
  | nil => rfl
  | cons entry _ ih => rw [List.map_cons, List.map_cons, ih, entry.1]

theorem ascending_iff {α : Type} {es : List (String × α)} :
    Ascending es ↔ (es.map (·.1)).Pairwise Before := by
  rw [List.pairwise_map]
  rfl

/-- The entries of a schema are those that the members give, one for one. -/
theorem ofJson_object_eq_ok (ascending : Ascending ms) :
    ofJson (.object ms) = .ok d ↔ List.Forall₂ EntryOf ms d.entries := by
  rw [ofJson, addEntries_eq_ok]
  constructor
  · intro entries
    obtain ⟨es, hes, rfl⟩ := entries
    have sorted : Ascending es := by
      rwa [ascending_iff, keys_of_entries hes, ← ascending_iff]
    have same : Dict.ofList es = ⟨es, sorted⟩ := Dict.ofList_of_perm (.refl es)
    rw [Dict.ofList] at same
    rwa [same]
  · intro entries
    exact ⟨d.entries, entries, (Dict.ofList_of_perm (.refl d.entries)).symm⟩

theorem findEntry_of_entries {es : List (String × List Field)}
    (entries : List.Forall₂ EntryOf ms es) {k : String} {fields : List Field} :
    findEntry k es = some fields ↔
      ∃ v, findEntry k ms = some v ∧ Field.listOfJson v = .ok fields := by
  induction entries with
  | nil => simp [findEntry]
  | @cons m e ms es entry _ ih =>
    obtain ⟨key, value⟩ := entry
    rw [findEntry, findEntry, key]
    by_cases hk : m.1 = k
    · rw [if_pos hk, if_pos hk]
      simp [value, eq_comm]
    · rw [if_neg hk, if_neg hk, ih]

theorem ofJson_toJson (d : Schema) : ofJson d.toJson = .ok d := by
  have fields (fs : List Field) : Field.listOfJson (.array (fs.map Field.toJson)) = .ok fs := by
    refine Field.listOfJson_eq_ok.2 ⟨_, rfl, List.forall₂_map_left_iff.2 ?_⟩
    exact List.forall₂_same.2 fun f _ => Field.written_toJson f
  have ascending : Ascending (d.entries.map fun e => (e.1, Json.array (e.2.map Field.toJson))) := by
    rw [ascending_iff, List.map_map]
    exact ascending_iff.1 d.ascending
  rw [toJson, ofJson_object_eq_ok ascending, List.forall₂_map_left_iff]
  exact List.forall₂_same.2 fun e _ => ⟨rfl, fields e.2⟩

/-- Of an object in which a member is no list of fields, the least such member is named. -/
theorem exists_least_of_error {fault : SchemaFault} (ascending : Ascending ms)
    (h : ofJson (.object ms) = .error fault) :
    ∃ k v reason, (k, v) ∈ ms ∧ ¬ v.IsFieldList ∧ fault = .entry k reason ∧
      ∀ m ∈ ms, ¬ m.2.IsFieldList → m.1 = k ∨ Before k m.1 := by
  obtain ⟨before, k, v, after, reason, rfl, sound, refused, rfl⟩ := addEntries_eq_error h
  have malformed : ¬ v.IsFieldList := by
    intro list
    obtain ⟨fields, read⟩ := Field.listOfJson_isOk_iff.2 list
    cases refused.symm.trans read
  refine ⟨k, v, reason, List.mem_append_right _ List.mem_cons_self, malformed, rfl, ?_⟩
  intro m hm unsound
  obtain ⟨-, later, -⟩ := List.pairwise_append.1 ascending
  rcases List.mem_append.1 hm with hm | hm
  · exact absurd (sound m hm) unsound
  · rcases List.mem_cons.1 hm with rfl | hm
    · exact .inl rfl
    · exact .inr ((List.pairwise_cons.1 later).1 m hm)

/-- Reading a schema is exact. It succeeds on the objects whose members are all lists of
    fields; the schema that is read has the keys of the object, and each struct the fields
    of its member in their order; and a schema that is written is read again. What is
    refused is an invalid schema wherever it is given, and of an object the least key
    whose member is no list of fields begins the message. -/
theorem ofJson_exact (v : Json) (ordered : v.Ordered) :
    ((∃ d, ofJson v = .ok d) ↔ ∃ members, v = .object members ∧ ∀ m ∈ members, m.2.IsFieldList) ∧
      (∀ d, ofJson v = .ok d →
        (∃ members, v = .object members ∧ d.keys = members.map (·.1) ∧
          ∀ k fields, d.get? k = some fields ↔
            ∃ items, findEntry k members = some (.array items) ∧
              List.Forall₂ Field.Written items fields) ∧
          ofJson d.toJson = .ok d) ∧
      ∀ fault, ofJson v = .error fault →
        (∀ version, Session.start v version = .error (.schema fault)) ∧
          (∀ s : Session, s.change (.schema v) = .error (.schema fault)) ∧
          ∀ members, v = .object members →
            ∃ k w, ∃ reason : Json.Fault, (k, w) ∈ members ∧ ¬ w.IsFieldList ∧
              (∀ m ∈ members, ¬ m.2.IsFieldList → m.1 = k ∨ Before k m.1) ∧
              fault.message = k ++ ": " ++ reason.message := by
  refine ⟨?_, fun d read => ⟨?_, ofJson_toJson d⟩, fun fault refused => ⟨fun version => ?_,
    fun s => ?_, fun members hv => ?_⟩⟩
  · cases v with
    | object members =>
      simp only [Json.object.injEq, exists_eq_left']
      exact addEntries_isOk_iff
    | _ => simp [ofJson]
  · cases v with
    | object members =>
      have entries := (ofJson_object_eq_ok ordered.1).1 read
      refine ⟨members, rfl, keys_of_entries entries, fun k fields => ?_⟩
      rw [Dict.get?, findEntry_of_entries entries]
      simp only [Field.listOfJson_eq_ok]
      constructor
      · intro found
        obtain ⟨-, hk, items, rfl, hitems⟩ := found
        exact ⟨items, hk, hitems⟩
      · intro found
        obtain ⟨items, hk, hitems⟩ := found
        exact ⟨_, hk, items, rfl, hitems⟩
    | _ => cases read
  · rw [Session.start, refused]
    rfl
  · rw [Session.change, refused]
    rfl
  · subst hv
    obtain ⟨k, w, reason, hk, malformed, rfl, least⟩ := exists_least_of_error ordered.1 refused
    exact ⟨k, w, reason, hk, malformed, least, rfl⟩

/-- Two structs, their fields in either form, with a member that is passed over. -/
def teamSchema : Json := .object [
  ("Person", .array [.array [.string "name", .string "string"]]),
  ("Team", .array [.object [("name", .string "people"), ("note", .null),
    ("type", .string "Person[]")]])]

theorem ofJson_teamSchema : teamSchema.Ordered ∧ ∃ d, ofJson teamSchema = .ok d ∧
    d.keys = ["Person", "Team"] ∧ d.get? "Team" = some [⟨"people", "Person[]"⟩] ∧
    ofJson d.toJson = .ok d := by
  have members : Ascending (α := Json) [("name", .string "people"), ("note", .null),
      ("type", .string "Person[]")] := by
    rw [ascending_iff]
    decide
  have ordered : teamSchema.Ordered := by
    refine ⟨ascending_iff.2 (by decide), ?_⟩
    simp only [Json.OrderedMembers, Json.Ordered, Json.OrderedItems, and_true, true_and]
    exact members
  have person : Field.Written (.array [.string "name", .string "string"]) ⟨"name", "string"⟩ :=
    .pair ⟨"name", "string"⟩
  have team : Field.Written (.object [("name", .string "people"), ("note", .null),
      ("type", .string "Person[]")]) ⟨"people", "Person[]"⟩ := .object rfl rfl
  obtain ⟨accepts, exact, -⟩ := ofJson_exact teamSchema ordered
  have lists : ∀ m ∈ [("Person", Json.array [.array [.string "name", .string "string"]]),
      ("Team", .array [.object [("name", .string "people"), ("note", .null),
        ("type", .string "Person[]")]])], m.2.IsFieldList :=
    List.forall_mem_cons.2 ⟨⟨_, rfl, List.forall_mem_singleton.2 ⟨_, person⟩⟩,
      List.forall_mem_singleton.2 ⟨_, rfl, List.forall_mem_singleton.2 ⟨_, team⟩⟩⟩
  obtain ⟨d, read⟩ := accepts.2 ⟨_, rfl, lists⟩
  obtain ⟨⟨_, ⟨⟩, keys, get⟩, back⟩ := exact d read
  exact ⟨ordered, d, read, keys, (get _ _).2 ⟨_, rfl, .cons team .nil⟩, back⟩

end Schema
end TypedMessage
