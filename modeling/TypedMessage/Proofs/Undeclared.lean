import TypedMessage.Proofs.Faults

/- Members that no struct declares. `Schema.prune` follows the declared types into a
   value and drops, from every object it comes to as a struct, the members that the
   struct does not declare. A pruned value is encoded as the value itself is, with the
   same bytes or the same fault (`layoutField_prune`, `layoutData_prune`); and a member
   that is added where no struct declares it is pruned away again (`prune_of_adds`). -/
namespace TypedMessage

/-! ## Pruning -/

namespace FieldType

/-- The structs among some types. -/
def structNames (types : List FieldType) : List String :=
  types.filterMap fun
    | struct name => some name
    | _ => none

/-- The types of the elements of a value that has all these types. -/
def elementTypes (types : List FieldType) : List FieldType :=
  types.flatMap fun
    | array element _ => (parse? element).toList
    | _ => []

theorem mem_structNames {types : List FieldType} {name : String} :
    name ∈ structNames types ↔ .struct name ∈ types := by
  rw [structNames, List.mem_filterMap]
  constructor
  · intro found
    obtain ⟨type, htype, hname⟩ := found
    cases type <;> cases hname
    exact htype
  · exact fun htype => ⟨_, htype, rfl⟩

theorem mem_elementTypes {types : List FieldType} {element : String} {length : Option Nat}
    {type : FieldType} (h : array element length ∈ types) (parsed : parse? element = some type) :
    type ∈ elementTypes types :=
  List.mem_flatMap.2 ⟨_, h, Option.mem_toList.2 parsed⟩

end FieldType

open FieldType (parse? structNames elementTypes)

namespace Schema

/-- The fields that an object has when it is reached at these types. A struct may declare
    one name twice, so an object can be reached as several structs; it then has the
    fields of all of them. -/
def fieldsAt (d : Schema) (types : List FieldType) : List Field :=
  (structNames types).flatMap d.fieldsOf

/-- The types at which the member `k` of such an object is reached. -/
def memberTypes (d : Schema) (types : List FieldType) (k : String) : List FieldType :=
  ((d.fieldsAt types).filter (·.name = k)).filterMap fun f => parse? f.type

mutual

/-- The value without the members that are not declared where it is reached at these
    types. What is reached at no struct type keeps its members. -/
def prune (d : Schema) (types : List FieldType) : Json → Json
  | .array items => .array (pruneItems d (elementTypes types) items)
  | .object members =>
    if structNames types = [] then .object members else .object (pruneMembers d types members)
  | v => v

/-- The elements of an array, each pruned. -/
def pruneItems (d : Schema) (types : List FieldType) : List Json → List Json
  | [] => []
  | v :: vs => prune d types v :: pruneItems d types vs

/-- The members that are declared, their values pruned. -/
def pruneMembers (d : Schema) (types : List FieldType) :
    List (String × Json) → List (String × Json)
  | [] => []
  | (k, v) :: ms =>
    if k ∈ (d.fieldsAt types).map (·.name) then
      (k, prune d (d.memberTypes types k) v) :: pruneMembers d types ms
    else pruneMembers d types ms

end

/-- The value pruned at a declared type. -/
def pruneField (d : Schema) (type : String) (v : Json) : Json := d.prune (parse? type).toList v

/-- The value pruned as a struct. -/
def pruneStruct (d : Schema) (name : String) (v : Json) : Json := d.prune [.struct name] v

/-- `w` is `v` with one more member, in an object that is reached as a struct and as no
    struct that declares the member. -/
inductive Adds (d : Schema) : (types : List FieldType) → (v w : Json) → Prop
  | here {types : List FieldType} {before after : List (String × Json)} {k : String} {u : Json}
      (reached : structNames types ≠ []) (undeclared : ∀ f ∈ d.fieldsAt types, f.name ≠ k) :
      Adds d types (.object (before ++ after)) (.object (before ++ (k, u) :: after))
  | item {types : List FieldType} {before after : List Json} {v w : Json}
      (inside : Adds d (elementTypes types) v w) :
      Adds d types (.array (before ++ v :: after)) (.array (before ++ w :: after))
  | member {types : List FieldType} {before after : List (String × Json)} {k : String}
      {v w : Json} (inside : Adds d (d.memberTypes types k) v w) :
      Adds d types (.object (before ++ (k, v) :: after)) (.object (before ++ (k, w) :: after))

section Pruning
variable {d : Schema} {types : List FieldType}

theorem pruneItems_eq (items : List Json) :
    d.pruneItems types items = items.map (d.prune types) := by
  induction items with
  | nil => rfl
  | cons v vs ih => rw [pruneItems, ih, List.map_cons]

theorem prune_object (h : structNames types ≠ []) (members : List (String × Json)) :
    d.prune types (.object members) = .object (d.pruneMembers types members) := by
  rw [prune, if_neg h]

/-- An object stays an object. -/
theorem exists_prune_object (d : Schema) (types : List FieldType)
    (members : List (String × Json)) :
    ∃ kept, d.prune types (.object members) = .object kept := by
  rw [prune]
  split
  case isTrue => exact ⟨members, rfl⟩
  case isFalse => exact ⟨_, rfl⟩

/-- A member that is declared is found pruned. -/
theorem findEntry_pruneMembers {k : String} (declared : k ∈ (d.fieldsAt types).map (·.name))
    (members : List (String × Json)) :
    findEntry k (d.pruneMembers types members) =
      (findEntry k members).map (d.prune (d.memberTypes types k)) := by
  induction members with
  | nil => rfl
  | cons m members ih =>
    obtain ⟨l, v⟩ := m
    rw [pruneMembers, findEntry]
    by_cases hl : l = k
    · subst hl
      rw [if_pos declared, if_pos rfl, findEntry, if_pos rfl]
      rfl
    · rw [if_neg hl, ← ih]
      split
      case isTrue => rw [findEntry, if_neg hl]
      case isFalse => rfl

theorem pruneMembers_append (members more : List (String × Json)) :
    d.pruneMembers types (members ++ more) =
      d.pruneMembers types members ++ d.pruneMembers types more := by
  induction members with
  | nil => rfl
  | cons m members ih =>
    rw [List.cons_append, pruneMembers, pruneMembers, ih]
    split <;> rfl

end Pruning

/-! ## What pruning takes away -/

section Additions
variable {d : Schema}

/-- What is reached at no type is left as it is. -/
theorem prune_nil (v : Json) : d.prune [] v = v := by
  induction v using Json.child_induction with
  | step v ih =>
  cases v with
  | array items =>
    have same : items.map (d.prune []) = items :=
      (List.map_congr_left ih).trans (List.map_id items)
    rw [prune, show elementTypes [] = [] from rfl, pruneItems_eq, same]
  | _ => rfl

theorem memberTypes_of_structNames {types : List FieldType} (h : structNames types = [])
    (k : String) : d.memberTypes types k = [] := by
  rw [memberTypes, fieldsAt, h]
  rfl

/-- Pruning takes an added member away. -/
theorem prune_of_adds {types : List FieldType} {v w : Json} (h : d.Adds types v w) :
    d.prune types w = d.prune types v := by
  induction h with
  | @here types before after k u reached undeclared =>
    have absent : k ∉ (d.fieldsAt types).map (·.name) := by
      intro hk
      obtain ⟨f, hf, rfl⟩ := List.mem_map.1 hk
      exact undeclared f hf rfl
    rw [prune_object reached, prune_object reached, pruneMembers_append, pruneMembers_append,
      pruneMembers, if_neg absent]
  | item _ ih =>
    simp only [prune, pruneItems_eq, List.map_append, List.map_cons, ih]
  | @member types before after k v w _ ih =>
    by_cases reached : structNames types = []
    · rw [memberTypes_of_structNames reached, prune_nil, prune_nil] at ih
      rw [ih]
    · simp only [prune_object reached, pruneMembers_append, pruneMembers, ih]

end Additions
end Schema

/-! ## Pruned values are encoded alike -/

/-- A leaf type sees of an array or an object only that it is one. -/
theorem Leaf.slot_prune (d : Schema) (types : List FieldType) (l : Leaf) (enforce : Bool)
    (v : Json) : l.slot enforce (d.prune types v) = l.slot enforce v := by
  cases v with
  | array items =>
    rw [Schema.prune]
    cases l <;> rfl
  | object members =>
    obtain ⟨kept, hkept⟩ := Schema.exists_prune_object d types members
    rw [hkept]
    cases l <;> rfl
  | _ => rfl

namespace Session
variable {s : Session} {types : List FieldType}

/-- A struct is laid out as before, if that holds of the values inside at each type at
    which they are reached. -/
theorem layoutData_prune_of {name : String} {v : Json} (h : .struct name ∈ types)
    (inner : ∀ w ∈ v.children, ∀ types type, (∀ t, parse? type = some t → t ∈ types) →
      s.layoutField type (s.schema.prune types w) = s.layoutField type w) :
    s.layoutData name (s.schema.prune types v) = s.layoutData name v := by
  have hname := FieldType.mem_structNames.2 h
  cases v with
  | array items =>
    rw [Schema.prune]
    rfl
  | object members =>
    rw [Schema.prune_object (List.ne_nil_of_mem hname)]
    simp only [layoutData, structSlots]
    cases hfields : s.schema.get? name with
    | none => rfl
    | some fields =>
      -- Each declared field is found pruned at its own type, among others.
      have member : ∀ f ∈ fields, s.layoutMember f (s.schema.pruneMembers types members) =
          s.layoutMember f members := by
        intro f hf
        have hat : f ∈ s.schema.fieldsAt types := by
          refine List.mem_flatMap.2 ⟨name, hname, ?_⟩
          rwa [Schema.fieldsOf, hfields]
        rw [layoutMember_eq, layoutMember_eq,
          Schema.findEntry_pruneMembers (List.mem_map_of_mem hat)]
        cases hv : findEntry f.name members with
        | none => rfl
        | some w =>
          have here : ∀ t, parse? f.type = some t → t ∈ s.schema.memberTypes types f.name :=
            fun t ht => List.mem_filterMap.2
              ⟨f, List.mem_filter.2 ⟨hat, decide_eq_true rfl⟩, ht⟩
          have same := inner w (Json.mem_children_of_findEntry hv) _ f.type here
          simp only [Option.map_some, same]
      have run : (fields.mapM fun f => s.layoutMember f (s.schema.pruneMembers types members)) =
          fields.mapM fun f => s.layoutMember f members :=
        mapM_congr fun before f after split _ => member f (split ▸ by simp)
      simp only [run]
  | _ => rfl

/-- A value is laid out at a type as before, if it was pruned at that type and
    perhaps at others. -/
theorem layoutField_prune {type : String} (h : ∀ t, parse? type = some t → t ∈ types) (v : Json) :
    s.layoutField type (s.schema.prune types v) = s.layoutField type v := by
  induction v using Json.child_induction generalizing type types with
  | step v ih =>
  cases ht : parse? type with
  | none => rw [layoutField_invalid ht, layoutField_invalid ht]
  | some t =>
    cases t with
    | leaf l => rw [layoutField_leaf ht, layoutField_leaf ht, Leaf.slot_prune]
    | array element length =>
      rw [layoutField_array ht, layoutField_array ht]
      cases v with
      | array items =>
        have here : ∀ t, parse? element = some t → t ∈ elementTypes types :=
          fun t parsed => FieldType.mem_elementTypes (h _ ht) parsed
        have run : (items.map (s.schema.prune (elementTypes types))).mapM
            (s.layoutField element) = items.mapM (s.layoutField element) := by
          rw [List.mapM_map]
          exact mapM_congr fun before w after split _ =>
            ih w (by simp [Json.children, split]) here
        simp only [Schema.prune, Schema.pruneItems_eq, List.length_map, run]
      | object members =>
        obtain ⟨kept, hkept⟩ := Schema.exists_prune_object s.schema types members
        rw [hkept]
        rfl
      | _ => rfl
    | struct name =>
      rw [layoutField_struct ht, layoutField_struct ht, layoutData_prune_of (h _ ht)]
      exact fun w hw types type h => ih w hw h

theorem layoutData_prune {name : String} (h : .struct name ∈ types) (v : Json) :
    s.layoutData name (s.schema.prune types v) = s.layoutData name v :=
  layoutData_prune_of h fun w _ _ _ h => layoutField_prune h w

/-! ## What undeclared members change -/

section Encodings
variable (h : Hash) (s : Session)

theorem encodeField_pruneField (type : String) (v : Json) :
    s.encodeField h type (s.schema.pruneField type v) = s.encodeField h type v := by
  rw [encodeField, Schema.pruneField, layoutField_prune fun t ht => Option.mem_toList.2 ht,
    encodeField]

theorem encodeData_pruneStruct (name : String) (v : Json) :
    s.encodeData h name (s.schema.pruneStruct name v) = s.encodeData h name v := by
  rw [encodeData, Schema.pruneStruct, layoutData_prune List.mem_cons_self, encodeData]

theorem hashStruct_pruneStruct (name : String) (v : Json) :
    s.hashStruct h name (s.schema.pruneStruct name v) = s.hashStruct h name v := by
  rw [hashStruct, encodeData_pruneStruct, hashStruct]

variable {h s} {name : String} {v w : Json}

/-- Values that are pruned to the same value are encoded alike. -/
theorem encodeData_of_adds (added : s.schema.Adds [.struct name] v w) :
    s.encodeData h name w = s.encodeData h name v :=
  calc s.encodeData h name w
      = s.encodeData h name (s.schema.pruneStruct name w) :=
        (encodeData_pruneStruct h s name w).symm
    _ = s.encodeData h name (s.schema.pruneStruct name v) :=
        congrArg (s.encodeData h name) (Schema.prune_of_adds added)
    _ = s.encodeData h name v := encodeData_pruneStruct h s name v

theorem encodeField_of_adds {type : String} (added : s.schema.Adds (parse? type).toList v w) :
    s.encodeField h type w = s.encodeField h type v :=
  calc s.encodeField h type w
      = s.encodeField h type (s.schema.pruneField type w) :=
        (encodeField_pruneField h s type w).symm
    _ = s.encodeField h type (s.schema.pruneField type v) :=
        congrArg (s.encodeField h type) (Schema.prune_of_adds added)
    _ = s.encodeField h type v := encodeField_pruneField h s type v

theorem hashStruct_of_adds (added : s.schema.Adds [.struct name] v w) :
    s.hashStruct h name w = s.hashStruct h name v := by
  rw [hashStruct, encodeData_of_adds added, hashStruct]

end Encodings

/-- Members that no struct declares change nothing, neither bytes nor faults: a value is
    encoded as it is without them, at any type and as any struct, and so is a digest;
    and one more such member, anywhere inside a value and whatever it holds, leaves the
    encoding and the digest as they were. -/
theorem undeclared_members_ignored (h : Hash) (s : Session) (type name primary : String)
    (v message domain : Json) :
    (s.encodeField h type (s.schema.pruneField type v) = s.encodeField h type v ∧
      s.encodeData h name (s.schema.pruneStruct name v) = s.encodeData h name v ∧
      s.signingHash h primary (s.schema.pruneStruct primary message)
          (s.schema.pruneStruct domainType domain) = s.signingHash h primary message domain) ∧
      (∀ w, s.schema.Adds (parse? type).toList v w →
        s.encodeField h type w = s.encodeField h type v) ∧
      (∀ w, s.schema.Adds [.struct name] v w → s.encodeData h name w = s.encodeData h name v) ∧
      (∀ m, s.schema.Adds [.struct primary] message m →
        s.signingHash h primary m domain = s.signingHash h primary message domain) ∧
      ∀ d, s.schema.Adds [.struct domainType] domain d →
        s.signingHash h primary message d = s.signingHash h primary message domain := by
  refine ⟨⟨encodeField_pruneField h s type v, encodeData_pruneStruct h s name v, ?_⟩,
    fun w added => encodeField_of_adds added, fun w added => encodeData_of_adds added,
    fun m added => ?_, fun d added => ?_⟩
  · rw [signingHash, hashStruct_pruneStruct, hashStruct_pruneStruct, signingHash]
  · rw [signingHash, hashStruct_of_adds added, signingHash]
  · rw [signingHash, hashStruct_of_adds added, signingHash]

/-- A session with teams of people. -/
def teams : Session where
  schema := .ofList [("Team", [⟨"people", "Person[]"⟩]), ("Person", [⟨"name", "string"⟩])]

/-- A team of one person, about whom more members may be given. -/
def teamOfAnn (more : List (String × Json)) : Json :=
  .object [("people", .array [.object (("name", .string "Ann") :: more)])]

theorem note_ignored :
    teams.schema.pruneStruct "Team" (teamOfAnn [("note", .null)]) = teamOfAnn [] ∧
      teams.schema.Adds [.struct "Team"] (teamOfAnn []) (teamOfAnn [("note", .null)]) ∧
      teams.encodeData keccak256 "Team" (teamOfAnn [("note", .null)]) =
        teams.encodeData keccak256 "Team" (teamOfAnn []) := by
  have people : teams.schema.memberTypes [.struct "Team"] "people" = [.array "Person" none] := by
    decide
  have person : elementTypes [.array "Person" none] = [.struct "Person"] := by decide
  have added : teams.schema.Adds [.struct "Person"] (.object ([("name", .string "Ann")] ++ []))
      (.object ([("name", .string "Ann")] ++ ("note", .null) :: [])) :=
    .here (by decide) (by decide)
  have inside : teams.schema.Adds [.struct "Team"]
      (.object ([] ++ ("people", .array ([] ++ .object [("name", .string "Ann")] :: [])) :: []))
      (.object ([] ++ ("people",
        .array ([] ++ .object [("name", .string "Ann"), ("note", .null)] :: [])) :: [])) := by
    refine .member ?_
    rw [people]
    refine .item ?_
    rw [person]
    exact added
  obtain ⟨-, -, struct, -⟩ := undeclared_members_ignored keccak256 teams "Team" "Team" "Team"
    (teamOfAnn []) .null .null
  exact ⟨rfl, inside, struct _ inside⟩

-- A field declared twice is reached as two structs; each keeps what the other lacks.
example : Schema.pruneStruct
    (.ofList [("Pair", [⟨"it", "Left"⟩, ⟨"it", "Right"⟩]), ("Left", [⟨"x", "bool"⟩]),
      ("Right", [⟨"y", "bool"⟩])]) "Pair"
    (.object [("it", .object [("x", .null), ("y", .null), ("z", .null)])]) =
      .object [("it", .object [("x", .null), ("y", .null)])] := rfl

end Session
end TypedMessage
