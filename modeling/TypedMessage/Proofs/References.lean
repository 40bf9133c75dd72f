import TypedMessage.Proofs.Conformance
import TypedMessage.Proofs.Dependencies
import TypedMessage.Proofs.TypeNames

/- The structs that an encoding consults, against those that its type string lists.
   `DataCalls` follows the encoder: it gives the names of the structs that are being
   encoded inside one another at some moment of a run, runs that fail included. Calls
   on names without a bracket stay within the dependencies (`reaches_of_dataCalls`),
   and an encoding that makes no other calls is settled by the dependencies
   (`layoutData_congr_dependencies`). -/
namespace TypedMessage

open FieldType (parse? base BracketsInPlace)

/-! ## Calls -/

namespace Session

mutual

/-- While the value is encoded at this type, the structs of the list are being
    encoded one inside another, the outermost first. Items and fields are encoded
    in order, and none after one that fails. -/
inductive FieldCalls (s : Session) : (type : String) → Json → List String → Prop
  | enter {type name : String} {v : Json} (parsed : parse? type = some (.struct name)) :
      FieldCalls s type v [name]
  | inside {type name : String} {v : Json} {stack : List String}
      (parsed : parse? type = some (.struct name)) (call : DataCalls s name v stack) :
      FieldCalls s type v (name :: stack)
  | item {type element : String} {length : Option Nat} {before after : List Json} {w : Json}
      {stack : List String} (parsed : parse? type = some (.array element length))
      (version : s.version.hasArrays = true)
      (fits : ∀ k ∈ length, k = (before ++ w :: after).length)
      (earlier : ∀ u ∈ before, ∃ p, s.layoutField element u = .ok p)
      (call : FieldCalls s element w stack) :
      FieldCalls s type (.array (before ++ w :: after)) stack

/-- While the value is encoded as this struct, the structs of the list are being
    encoded inside it, the outermost first. -/
inductive DataCalls (s : Session) : (name : String) → Json → List String → Prop
  | member {name : String} {before after : List Field} {f : Field}
      {members : List (String × Json)} {w : Json} {stack : List String}
      (defined : s.schema.get? name = some (before ++ f :: after))
      (earlier : ∀ g ∈ before, ∃ o, s.layoutMember g members = .ok o)
      (present : findEntry f.name members = some w)
      (call : FieldCalls s f.type w stack) :
      DataCalls s name (.object members) stack

end

end Session

/-! ## What is called is listed -/

namespace Schema
variable {s : Schema} {n m : String} {fields : List Field}

theorem Reaches.field {f : Field} (h : s.Reaches n m) (hm : s.get? m = some fields)
    (hf : f ∈ fields) : s.Reaches n (base f.type) :=
  h.tail ⟨fields, hm, List.mem_map_of_mem hf⟩

/-- The schema declares the field in one of its structs. -/
def Declares (s : Schema) (f : Field) : Prop :=
  ∃ n fields, s.get? n = some fields ∧ f ∈ fields

/-- A dependency other than the anchor is there for the sake of a field. -/
theorem exists_declares_of_dependencies (listed : (s.dependencies n).contains m = true)
    (hne : m ≠ n) : ∃ f, (s.dependencies n).Declares f ∧ base f.type = m := by
  obtain ⟨fields, hm⟩ := Option.isSome_iff_exists.1 listed
  obtain ⟨reached, -⟩ := get?_dependencies.1 hm
  rcases Relation.ReflTransGen.cases_tail reached with rfl | ⟨k, hk, fields', hk', hbase⟩
  · exact absurd rfl hne
  · obtain ⟨f, hf, rfl⟩ := List.mem_map.1 hbase
    exact ⟨f, ⟨k, fields', get?_dependencies.2 ⟨hk, hk'⟩, hf⟩, rfl⟩

theorem mem_others_iff : (m, fields) ∈ s.others n ↔
    m ≠ n ∧ (s.dependencies n).get? m = some fields := by
  rw [mem_others, get?_dependencies]

end Schema

namespace Session
variable {s s' : Session} {anchor : String}

/-- The name has no opening bracket, where the anchor and names that are not defined
    are excused. -/
def Plain (s : Session) (anchor n : String) : Prop :=
  n = anchor ∨ '[' ∉ n.toList ∨ s.schema.get? n = none

/-- The struct that a type names is reached with the type, if it is defined. -/
theorem reaches_of_parse?_struct {type name : String} (parsed : parse? type = some (.struct name))
    (reached : s.schema.Reaches anchor (base type)) (plain : Plain s' anchor name) :
    s.schema.Reaches anchor name ∨ s'.schema.get? name = none := by
  cases FieldType.parse?_struct parsed
  rcases plain with rfl | plain | undefined
  · exact .inl .refl
  · rw [FieldType.base_of_not_mem plain] at reached
    exact .inl reached
  · exact .inr undefined

theorem reaches_of_parse?_array {type element : String} {length : Option Nat}
    (parsed : parse? type = some (.array element length))
    (reached : s.schema.Reaches anchor (base type)) :
    s.schema.Reaches anchor (base element) := by
  cases FieldType.parse?_array parsed
  rwa [FieldType.base_of_not_mem (FieldType.not_mem_base type)]

theorem reaches_of_dataCalls_of {name : String} {v : Json} {stack : List String}
    (call : s.DataCalls name v stack)
    (reached : s.schema.Reaches anchor name ∨ s.schema.get? name = none)
    (inner : ∀ w ∈ v.children, ∀ type, s.FieldCalls type w stack →
      s.schema.Reaches anchor (base type) →
        ∀ n ∈ stack, s.schema.Reaches anchor n ∨ s.schema.get? n = none) :
    s.schema.Reaches anchor name ∧
      ∀ n ∈ stack, s.schema.Reaches anchor n ∨ s.schema.get? n = none := by
  obtain ⟨defined, -, present, call⟩ := call
  have reached := reached.resolve_right (by simp [defined])
  exact ⟨reached, inner _ (Json.mem_children_of_findEntry present) _ call
    (reached.field defined (List.mem_append_right _ List.mem_cons_self))⟩

theorem reaches_of_fieldCalls {type : String} {v : Json} {stack : List String}
    (call : s.FieldCalls type v stack) (reached : s.schema.Reaches anchor (base type))
    (plain : ∀ n ∈ stack, Plain s anchor n) :
    ∀ n ∈ stack, s.schema.Reaches anchor n ∨ s.schema.get? n = none := by
  induction v using Json.child_induction generalizing type stack with
  | step v ih =>
  cases call with
  | enter parsed =>
    rw [List.forall_mem_singleton] at plain ⊢
    exact reaches_of_parse?_struct parsed reached plain
  | inside parsed call =>
    rw [List.forall_mem_cons] at plain ⊢
    have name := reaches_of_parse?_struct parsed reached plain.1
    exact ⟨name, (reaches_of_dataCalls_of call name fun w hw type call reached =>
      ih w hw call reached plain.2).2⟩
  | item parsed _ _ _ call =>
    exact ih _ (List.mem_append_right _ List.mem_cons_self) call
      (reaches_of_parse?_array parsed reached) plain

/-- The structs that the encoding of a struct calls are among those that the struct
    leads to, or are not defined. -/
theorem reaches_of_dataCalls {v : Json} {stack : List String} (call : s.DataCalls anchor v stack)
    (plain : ∀ n ∈ stack, Plain s anchor n) :
    ∀ n ∈ stack, s.schema.Reaches anchor n ∨ s.schema.get? n = none :=
  (reaches_of_dataCalls_of call (.inl .refl) fun _ _ _ call reached =>
    reaches_of_fieldCalls call reached plain).2

theorem get?_dependencies_of_dataCalls {v : Json} {stack : List String}
    (call : s.DataCalls anchor v stack) (plain : ∀ n ∈ stack, Plain s anchor n) {n : String}
    (hn : n ∈ stack) {fields : List Field} (hf : s.schema.get? n = some fields) :
    (s.schema.dependencies anchor).get? n = some fields := by
  have reached := (reaches_of_dataCalls call plain n hn).resolve_right (by simp [hf])
  exact Schema.get?_dependencies.2 ⟨reached, hf⟩

/-- Everything that is called is listed, exactly if nothing is called that is defined
    under a name with a bracket. -/
theorem calls_listed_iff {v : Json} :
    (∀ stack, s.DataCalls anchor v stack → ∀ n ∈ stack, ∀ fields,
        s.schema.get? n = some fields →
          (s.schema.dependencies anchor).get? n = some fields) ↔
      ∀ stack, s.DataCalls anchor v stack → ∀ n ∈ stack, Plain s anchor n := by
  constructor
  · intro listed stack call n hn
    cases hf : s.schema.get? n with
    | none => exact .inr (.inr hf)
    | some fields =>
      by_cases hne : n = anchor
      · exact .inl hne
      · have key := listed stack call n hn fields hf
        obtain ⟨f, -, rfl⟩ := Schema.exists_declares_of_dependencies
          (Option.isSome_iff_exists.2 ⟨fields, key⟩) hne
        exact .inr (.inl (FieldType.not_mem_base f.type))
  · exact fun plain stack call n hn fields => get?_dependencies_of_dataCalls call
      (plain stack call) hn

/-! ## What is listed settles the encoding -/

theorem structSlots_congr {name : String} {kind : Json.Kind}
    {m m' : Field → Except Fault (Option Slot)} (version : s'.version = s.version)
    (defs : s'.schema.get? name = s.schema.get? name)
    (types : ∀ fields, s.schema.get? name = some fields →
      s'.schema.typeString name = s.schema.typeString name)
    (members : ∀ fields, s.schema.get? name = some fields → fields.mapM m' = fields.mapM m) :
    s'.structSlots name kind m' = s.structSlots name kind m := by
  have absent : s'.absentSlots = s.absentSlots := by rw [absentSlots, absentSlots, version]
  rw [structSlots, structSlots, defs]
  cases hf : s.schema.get? name with
  | none => rfl
  | some fields => simp only [types fields hf, members fields hf, absent]

/-- The sessions have the same settings, and the same structs wherever the anchor
    leads to. -/
structure AgreeFrom (anchor : String) (s s' : Session) : Prop where
  version : s'.version = s.version
  width : s'.enforceWidth = s.enforceWidth
  structs : ∀ n, s.schema.Reaches anchor n → s'.schema.get? n = s.schema.get? n

theorem AgreeFrom.typeString {name : String} (agree : AgreeFrom anchor s s')
    (reached : s.schema.Reaches anchor name) :
    s'.schema.typeString name = s.schema.typeString name := by
  apply Schema.typeString_congr
  apply Schema.dependencies_congr
  intro m hm
  exact agree.structs m (reached.trans hm)

/-- What is laid out as a struct is the same in two sessions that agree on what the
    anchor leads to, if the same holds of the values inside. -/
theorem layoutData_congr_of {name : String} {v : Json} (agree : AgreeFrom anchor s s')
    (known : s.schema.Reaches anchor name ∨
      (s.schema.get? name = none ∧ s'.schema.get? name = none))
    (inner : ∀ w ∈ v.children, ∀ type, s.schema.Reaches anchor (base type) →
      (∀ stack, s.FieldCalls type w stack →
        ∀ n ∈ stack, Plain s anchor n ∧ Plain s' anchor n) →
      s'.layoutField type w = s.layoutField type w)
    (plain : ∀ stack, s.DataCalls name v stack →
      ∀ n ∈ stack, Plain s anchor n ∧ Plain s' anchor n) :
    s'.layoutData name v = s.layoutData name v := by
  have defs : s'.schema.get? name = s.schema.get? name := by
    rcases known with reached | ⟨hs, hs'⟩
    · exact agree.structs name reached
    · rw [hs, hs']
  have reached {fields : List Field} (hf : s.schema.get? name = some fields) :
      s.schema.Reaches anchor name := known.resolve_right fun h => by simp [h.1] at hf
  have types (fields : List Field) (hf : s.schema.get? name = some fields) :
      s'.schema.typeString name = s.schema.typeString name := agree.typeString (reached hf)
  cases v with
  | object members =>
    refine structSlots_congr agree.version defs types fun fields hf => ?_
    -- A field is called only after those before it, which is what a call records.
    refine mapM_congr fun before f after hfields earlier => ?_
    subst hfields
    rw [layoutMember_eq, layoutMember_eq]
    cases present : findEntry f.name members with
    | none => rfl
    | some w =>
      have same : s'.layoutField f.type w = s.layoutField f.type w :=
        inner w (Json.mem_children_of_findEntry present) f.type
          ((reached hf).field hf (List.mem_append_right _ List.mem_cons_self))
          fun stack call => plain stack (.member hf earlier present call)
      simp only [same]
  | _ => exact structSlots_congr agree.version defs types fun _ _ => rfl

theorem layoutField_congr {type : String} {v : Json} (agree : AgreeFrom anchor s s')
    (reached : s.schema.Reaches anchor (base type))
    (plain : ∀ stack, s.FieldCalls type v stack →
      ∀ n ∈ stack, Plain s anchor n ∧ Plain s' anchor n) :
    s'.layoutField type v = s.layoutField type v := by
  induction v using Json.child_induction generalizing type with
  | step v ih =>
  cases ht : parse? type with
  | none => rw [layoutField_invalid ht, layoutField_invalid ht]
  | some t =>
    cases t with
    | leaf l => rw [layoutField_leaf ht, layoutField_leaf ht, agree.width]
    | array element length =>
      rw [layoutField_array ht, layoutField_array ht, agree.version]
      cases arrays : s.version.hasArrays with
      | false => rfl
      | true =>
        cases v with
        | array items =>
          have same (fits : ∀ k ∈ length, k = items.length) :
              items.mapM (s'.layoutField element) = items.mapM (s.layoutField element) := by
            refine mapM_congr fun before w after hitems earlier => ?_
            subst hitems
            refine ih w (List.mem_append_right _ List.mem_cons_self)
              (reaches_of_parse?_array ht reached) fun stack call => ?_
            exact plain stack (.item ht arrays fits earlier call)
          simp only [if_true]
          split
          case h_1 => rfl
          case h_2 fits => rw [same (fits_iff.1 fits)]
        | _ => rfl
    | struct name =>
      rw [layoutField_struct ht, layoutField_struct ht]
      obtain ⟨here, here'⟩ := plain _ (.enter ht) name List.mem_cons_self
      have known : s.schema.Reaches anchor name ∨
          (s.schema.get? name = none ∧ s'.schema.get? name = none) :=
        or_and_left.2 ⟨reaches_of_parse?_struct ht reached here,
          reaches_of_parse?_struct ht reached here'⟩
      rw [layoutData_congr_of agree known
        (fun w hw type reached plain => ih w hw reached plain)
        fun stack call n hn => plain _ (.inside ht call) n (List.mem_cons_of_mem _ hn)]

/-- Two sessions in which the anchor has the same dependencies encode it alike, as
    long as no other struct is called that has a bracket in its name and is defined. -/
theorem layoutData_congr_dependencies (version : s'.version = s.version)
    (width : s'.enforceWidth = s.enforceWidth)
    (deps : s'.schema.dependencies anchor = s.schema.dependencies anchor) {v : Json}
    (plain : ∀ stack, s.DataCalls anchor v stack →
      ∀ n ∈ stack, Plain s anchor n ∧ Plain s' anchor n) :
    s'.layoutData anchor v = s.layoutData anchor v := by
  have agree : AgreeFrom anchor s s' :=
    ⟨version, width, fun n hr => Schema.agree_of_dependencies_eq deps hr⟩
  exact layoutData_congr_of agree (.inl .refl)
    (fun _ _ _ reached plain => layoutField_congr agree reached plain) plain

/-! ## The dependencies of a struct -/

/-- Dependencies and encoding speak of the same structs. A defined struct that is
    called is a dependency; a dependency is the struct, or the element of the array,
    that some field of a dependency is declared as, or bears the name of a leaf type;
    the type string in front of an encoding defines the dependencies and nothing
    else; and the dependencies settle the encoding. Names and types with a bracket
    out of place are left aside. -/
theorem dependencies_settle_encoding (s : Session) (anchor : String) :
    (∀ v stack, s.DataCalls anchor v stack → (∀ n ∈ stack, Plain s anchor n) →
        ∀ n ∈ stack, ∀ fields, s.schema.get? n = some fields →
          (s.schema.dependencies anchor).get? n = some fields) ∧
      (∀ n, (s.schema.dependencies anchor).contains n = true → n ≠ anchor →
        (∃ f, (s.schema.dependencies anchor).Declares f ∧ base f.type = n) ∧
          ∀ f, (s.schema.dependencies anchor).Declares f → base f.type = n →
            BracketsInPlace f.type →
              (∃ l, parse? n = some (.leaf l)) ∨ parse? f.type = some (.struct n) ∨
                ∃ length, parse? f.type = some (.array n length) ∧
                  parse? n = some (.struct n)) ∧
      (∀ h v bs, s.encodeData h anchor v = .ok bs →
        ∃ (fields : List Field) (others : List (String × List Field)) (words : Bytes),
          (s.schema.dependencies anchor).get? anchor = some fields ∧
          s.schema.typeString anchor =
            definition anchor fields ++ String.join (others.map fun e => definition e.1 e.2) ∧
          (∀ n gs, (n, gs) ∈ others ↔
            n ≠ anchor ∧ (s.schema.dependencies anchor).get? n = some gs) ∧
          bs = (h (utf8 (s.schema.typeString anchor))).bytes ++ words) ∧
      ∀ s' : Session, s'.version = s.version → s'.enforceWidth = s.enforceWidth →
        s'.schema.dependencies anchor = s.schema.dependencies anchor →
        ∀ v, (∀ stack, s.DataCalls anchor v stack →
            ∀ n ∈ stack, Plain s anchor n ∧ Plain s' anchor n) →
          ∀ h, s'.encodeData h anchor v = s.encodeData h anchor v := by
  refine ⟨fun v stack call plain n hn fields hf => get?_dependencies_of_dataCalls call plain hn hf,
    fun n listed hne => ⟨?_, ?_⟩, fun h v bs hbs => ?_, fun s' version width deps v plain h => ?_⟩
  · exact Schema.exists_declares_of_dependencies listed hne
  · intro f _ hbase brackets
    subst hbase
    exact FieldType.parse?_base brackets
  · obtain ⟨fields, members, words, hf, -, -, rfl⟩ := encodeData_eq_ok.1 hbs
    exact ⟨fields, s.schema.others anchor, _, Schema.get?_dependencies.2 ⟨.refl, hf⟩,
      Schema.typeString_defined hf, fun n gs => Schema.mem_others_iff, rfl⟩
  · rw [encodeData, encodeData, layoutData_congr_dependencies version width deps plain]

/-- A session with letters from one person and copies to others. -/
def letters : Session where
  schema := .ofList [
    ("Mail", [⟨"from", "Person"⟩, ⟨"copies", "Person[]"⟩]),
    ("Person", [⟨"name", "string"⟩])]
  version := .v4

/-- A letter with one copy, and no sender. -/
def copiedLetter : Json := .object [("copies", .array [.object [("name", .string "Ann")]])]

theorem copied_person_is_dependency :
    letters.DataCalls "Mail" copiedLetter ["Person"] ∧
      (letters.schema.dependencies "Mail").get? "Person" = some [⟨"name", "string"⟩] := by
  have copies : letters.schema.get? "Mail" =
      some ([⟨"from", "Person"⟩] ++ ⟨"copies", "Person[]"⟩ :: []) := by decide
  have from_absent : ∀ g ∈ [Field.mk "from" "Person"],
      ∃ o, letters.layoutMember g [("copies", .array [.object [("name", .string "Ann")]])] =
        .ok o := by
    intro g hg
    cases List.mem_singleton.1 hg
    exact ⟨none, rfl⟩
  have array : parse? "Person[]" = some (.array "Person" none) := by decide
  have person : parse? "Person" = some (.struct "Person") := by decide
  have item : letters.FieldCalls "Person[]"
      (.array ([] ++ .object [("name", .string "Ann")] :: [])) ["Person"] :=
    .item array rfl nofun (List.forall_mem_nil _) (.enter person)
  have call : letters.DataCalls "Mail" copiedLetter ["Person"] :=
    .member copies from_absent rfl item
  have plain : ∀ n ∈ ["Person"], Plain letters "Mail" n := by
    intro n hn
    cases List.mem_singleton.1 hn
    exact .inr (.inl (by decide))
  exact ⟨call, (dependencies_settle_encoding letters "Mail").1 copiedLetter ["Person"] call plain
    "Person" List.mem_cons_self _ (by decide)⟩

/-- A schema with a struct that bears the name of a leaf type. -/
def shadowed : Schema := .ofList [("Mail", [⟨"size", "uint8"⟩]), ("uint8", [⟨"set", "bool"⟩])]

/-- The name of a leaf type can be a dependency although no field is declared as a
    struct of that name, or as an array of such structs. -/
theorem leaf_name_is_dependency :
    (shadowed.dependencies "Mail").contains "uint8" = true ∧
      ∀ f, (shadowed.dependencies "Mail").Declares f →
        parse? f.type ≠ some (.struct "uint8") ∧
          ∀ element length, parse? f.type = some (.array element length) →
            parse? element ≠ some (.struct "uint8") := by
  constructor
  · have reached : shadowed.Reaches "Mail" "uint8" :=
      .tail .refl ⟨[⟨"size", "uint8"⟩], by decide, by decide⟩
    have listed : (shadowed.dependencies "Mail").get? "uint8" = some [⟨"set", "bool"⟩] :=
      Schema.get?_dependencies.2 ⟨reached, by decide⟩
    rw [Dict.contains, listed]
    rfl
  · intro f declared
    obtain ⟨n, fields, hn, hf⟩ := declared
    have size : parse? "uint8" = some (.leaf (.uint 8)) := by decide
    have set : parse? "bool" = some (.leaf .bool) := by decide
    have entry : (n, fields) ∈
        [("Mail", [Field.mk "size" "uint8"]), ("uint8", [Field.mk "set" "bool"])] :=
      Dict.mem_entries.2 (Schema.get?_dependencies.1 hn).2
    simp only [List.mem_cons, Prod.mk.injEq, List.not_mem_nil, or_false] at entry
    rcases entry with ⟨-, rfl⟩ | ⟨-, rfl⟩
    · cases List.mem_singleton.1 hf
      simp [size]
    · cases List.mem_singleton.1 hf
      simp [set]

end Session
end TypedMessage
