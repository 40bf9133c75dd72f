import TypedMessage.Proofs.Layout
import TypedMessage.Proofs.Numerals

/- Which values a declared type takes, and what a struct is encoded as.
   `Conforms` tells from the type and the value alone whether the value belongs to
   the type, with no mention of an encoding; the encoder succeeds on these values
   and on no others (`layoutField_isOk_iff`). A struct that is encoded is its type
   hash and then the words of its fields (`encodeData_eq_ok`). -/
namespace TypedMessage

/-! ## Values of a leaf type -/

section Leaves
variable {enforce : Bool} {v : Json}

/-- What holds of the number of bytes holds of the digits, two for each byte. -/
theorem Json.asBytes_length_iff {P : Nat → Prop} :
    (∃ bs, v.asBytes = .ok bs ∧ P bs.length) ↔
      ∃ t n, v = .string t ∧ P n ∧ Hex.Spells t (2 * n) := by
  simp only [Json.asBytes, bind_eq_ok, Json.asText_eq_ok, mapError_eq_ok, ← Hex.decode_iff_spells]
  constructor
  · intro read
    obtain ⟨bs, ⟨t, hv, hbs⟩, hp⟩ := read
    exact ⟨t, _, hv, hp, bs, hbs, rfl⟩
  · intro spelled
    obtain ⟨t, n, hv, hp, bs, hbs, rfl⟩ := spelled
    exact ⟨bs, ⟨t, hv, hbs⟩, hp⟩

theorem Json.natAbs_lt_of_asInteger {n : Int} (h : v.asInteger = .ok n) : n.natAbs < 2 ^ 256 := by
  cases v with
  | number t => exact Integer.natAbs_lt_of_read (mapError_eq_ok.1 h)
  | string t => exact Integer.natAbs_lt_of_read (mapError_eq_ok.1 h)
  | _ => cases h

namespace Leaf

/-- The width that integers have to fit: the declared one if widths count, or else
    that of a word. -/
def checkedWidth (enforce : Bool) (bits : Nat) : Nat := if enforce then bits else 256

/-- The values that belong to a leaf type. -/
def Takes (enforce : Bool) : Leaf → Json → Prop
  | text, v => ∃ t, v = .string t
  | bytes, v => ∃ t n, v = .string t ∧ Hex.Spells t (2 * n)
  | bool, v => ∃ b, v = .bool b
  | address, v => ∃ t, v = .string t ∧ Hex.Spells t 40
  | fixedBytes size _, v => ∃ t n, v = .string t ∧ n ≤ size ∧ Hex.Spells t (2 * n)
  | uint bits, v => ∃ n, v.asInteger = .ok n ∧ 0 ≤ n ∧ n < 2 ^ checkedWidth enforce bits
  | int bits, v => ∃ n, v.asInteger = .ok n ∧
      -2 ^ (checkedWidth enforce bits - 1) ≤ n ∧ n < 2 ^ (checkedWidth enforce bits - 1)

theorem slot_bytes_isOk_iff :
    (∃ p, bytes.slot enforce v = .ok p) ↔ bytes.Takes enforce v := by
  have read := Json.asBytes_length_iff (v := v) (P := fun _ => True)
  simpa [slot_bytes_eq_ok, Takes] using read

theorem slot_address_isOk_iff :
    (∃ p, address.slot enforce v = .ok p) ↔ address.Takes enforce v := by
  have read := Json.asBytes_length_iff (v := v) (P := (· = 20))
  simpa [slot_address_eq_ok, Takes, and_comm] using read

theorem slot_fixedBytes_isOk_iff {size : Nat} {size_le : size ≤ 32} :
    (∃ p, (fixedBytes size size_le).slot enforce v = .ok p) ↔
      (fixedBytes size size_le).Takes enforce v := by
  have read := Json.asBytes_length_iff (v := v) (P := (· ≤ size))
  simpa [slot_fixedBytes_eq_ok, Takes, and_comm] using read

theorem slot_uint_isOk_iff {bits : Nat} :
    (∃ p, (uint bits).slot enforce v = .ok p) ↔ (uint bits).Takes enforce v := by
  simp only [slot_uint_eq_ok, uintWord_eq_ok, Takes]
  constructor
  · intro run
    obtain ⟨p, n, x, hn, ⟨nonneg, fits, -⟩, -⟩ := run
    refine ⟨n, hn, nonneg, ?_⟩
    cases enforce with
    | true => exact fits rfl
    | false =>
      -- Where widths do not count, the reader itself takes no more than 256 bits.
      have := Json.natAbs_lt_of_asInteger hn
      simp only [checkedWidth, Bool.false_eq_true, if_false]
      omega
  · intro takes
    obtain ⟨n, hn, nonneg, fits⟩ := takes
    refine ⟨_, n, _, hn, ⟨nonneg, fun he => ?_, rfl⟩, rfl⟩
    simpa only [checkedWidth, he, if_true] using fits

/-- A leaf type is encoded exactly at the values that belong to it. -/
theorem slot_isOk_iff {l : Leaf} : (∃ p, l.slot enforce v = .ok p) ↔ l.Takes enforce v := by
  cases l with
  | text => simp [slot_text_eq_ok, Takes]
  | bytes => exact slot_bytes_isOk_iff
  | bool => cases v <;> simp [slot_bool_eq_ok, Takes]
  | address => exact slot_address_isOk_iff
  | fixedBytes size size_le => exact slot_fixedBytes_isOk_iff
  | uint bits => exact slot_uint_isOk_iff
  | int bits => simp [slot_int_eq_ok, intWord_eq_ok, Takes, checkedWidth]

end Leaf
end Leaves

/-! ## Values of a declared type -/

namespace Session

mutual

/-- The value belongs to the declared type. -/
inductive Conforms (s : Session) : (type : String) → Json → Prop
  | leaf {type : String} {l : Leaf} {v : Json}
      (parsed : FieldType.parse? type = some (.leaf l))
      (takes : l.Takes s.enforceWidth v) : Conforms s type v
  | array {type element : String} {length : Option Nat} {items : List Json}
      (parsed : FieldType.parse? type = some (.array element length))
      (version : s.version = .v4)
      (fits : ∀ k ∈ length, k = items.length)
      (elements : ∀ v ∈ items, Conforms s element v) : Conforms s type (.array items)
  | struct {type name : String} {v : Json}
      (parsed : FieldType.parse? type = some (.struct name))
      (content : ConformsStruct s name v) : Conforms s type v

/-- The value is an object, and those fields of the struct that it has belong to
    their declared types. A field that it does not have may be of any type. -/
inductive ConformsStruct (s : Session) : (name : String) → Json → Prop
  | fields {name : String} {fields : List Field} {members : List (String × Json)}
      (defined : s.schema.get? name = some fields)
      (present : ∀ f ∈ fields, ∀ v, findEntry f.name members = some v → Conforms s f.type v) :
      ConformsStruct s name (.object members)

end

variable {h : Hash} {s : Session}

theorem hasArrays_iff : s.version.hasArrays = true ↔ s.version = .v4 := by
  cases s.version <;> simp [Version.hasArrays]

theorem layoutMember_isOk_iff {f : Field} {members : List (String × Json)} :
    (∃ o, s.layoutMember f members = .ok o) ↔
      ∀ v, findEntry f.name members = some v → ∃ p, s.layoutField f.type v = .ok p := by
  rw [layoutMember_eq]
  cases findEntry f.name members <;> simp [map_eq_ok]

theorem layoutData_isOk_iff {name : String} {v : Json}
    (inner : ∀ w ∈ v.children, ∀ type, (∃ p, s.layoutField type w = .ok p) ↔ s.Conforms type w) :
    (∃ ps, s.layoutData name v = .ok ps) ↔ s.ConformsStruct name v := by
  simp only [layoutData_eq_ok]
  constructor
  · intro run
    obtain ⟨ps, fields, members, os, hf, rfl, hos, -⟩ := run
    refine .fields hf fun f hmem v hv => ?_
    refine (inner v (Json.mem_children_of_findEntry hv) _).1 ?_
    exact layoutMember_isOk_iff.1 (exists_forall₂_iff.1 ⟨os, hos⟩ f hmem) v hv
  · intro content
    cases content with
    | @fields _ fields members hf present =>
    obtain ⟨os, hos⟩ := exists_forall₂_iff.2 fun f hmem =>
      layoutMember_isOk_iff.2 fun v hv =>
        (inner v (Json.mem_children_of_findEntry hv) _).2 (present f hmem v hv)
    exact ⟨_, fields, members, os, hf, rfl, hos, rfl⟩

theorem not_conforms {type : String} {v : Json} (ht : FieldType.parse? type = none) :
    ¬ s.Conforms type v := by
  intro conforms
  cases conforms with
  | leaf parsed _ => rw [ht] at parsed; cases parsed
  | array parsed _ _ _ => rw [ht] at parsed; cases parsed
  | struct parsed _ => rw [ht] at parsed; cases parsed

theorem conforms_leaf_iff {type : String} {l : Leaf} {v : Json}
    (ht : FieldType.parse? type = some (.leaf l)) :
    s.Conforms type v ↔ l.Takes s.enforceWidth v := by
  refine ⟨fun conforms => ?_, .leaf ht⟩
  cases conforms with
  | leaf parsed takes => rw [ht] at parsed; cases parsed; exact takes
  | array parsed _ _ _ => rw [ht] at parsed; cases parsed
  | struct parsed _ => rw [ht] at parsed; cases parsed

theorem conforms_array_iff {type element : String} {length : Option Nat} {v : Json}
    (ht : FieldType.parse? type = some (.array element length)) :
    s.Conforms type v ↔ s.version = .v4 ∧ ∃ items, v = .array items ∧
      (∀ k ∈ length, k = items.length) ∧ ∀ w ∈ items, s.Conforms element w := by
  constructor
  · intro conforms
    cases conforms with
    | leaf parsed _ => rw [ht] at parsed; cases parsed
    | array parsed version fits elements =>
      rw [ht] at parsed
      cases parsed
      exact ⟨version, _, rfl, fits, elements⟩
    | struct parsed _ => rw [ht] at parsed; cases parsed
  · intro conforms
    obtain ⟨version, items, rfl, fits, elements⟩ := conforms
    exact .array ht version fits elements

theorem conforms_struct_iff {type name : String} {v : Json}
    (ht : FieldType.parse? type = some (.struct name)) :
    s.Conforms type v ↔ s.ConformsStruct name v := by
  refine ⟨fun conforms => ?_, .struct ht⟩
  cases conforms with
  | leaf parsed _ => rw [ht] at parsed; cases parsed
  | array parsed _ _ _ => rw [ht] at parsed; cases parsed
  | struct parsed content => rw [ht] at parsed; cases parsed; exact content

/-- A value can be laid out at the types it belongs to and at no others. -/
theorem layoutField_isOk_iff {type : String} {v : Json} :
    (∃ p, s.layoutField type v = .ok p) ↔ s.Conforms type v := by
  induction v using Json.child_induction generalizing type with
  | step v ih =>
  -- The type decides the shape that is asked for; `ih` speaks of the values inside.
  cases ht : FieldType.parse? type with
  | none => simp [layoutField_invalid ht, not_conforms ht]
  | some t =>
    cases t with
    | leaf l =>
      rw [conforms_leaf_iff ht, ← Leaf.slot_isOk_iff]
      simp only [layoutField_leaf ht, mapError_eq_ok]
    | array element length =>
      rw [conforms_array_iff ht]
      simp only [layoutField_array_eq_ok ht, hasArrays_iff]
      constructor
      · intro run
        obtain ⟨p, version, items, ps, rfl, fits, hps, -⟩ := run
        have elements : ∀ w ∈ items, s.Conforms element w := fun w hw =>
          (ih w hw).1 (exists_forall₂_iff.1 ⟨ps, hps⟩ w hw)
        exact ⟨version, items, rfl, fits, elements⟩
      · intro conforms
        obtain ⟨version, items, rfl, fits, elements⟩ := conforms
        obtain ⟨ps, hps⟩ := exists_forall₂_iff.2 fun w hw => (ih w hw).2 (elements w hw)
        exact ⟨_, version, items, ps, rfl, fits, hps, rfl⟩
    | struct name =>
      rw [conforms_struct_iff ht, ← layoutData_isOk_iff fun w hw type => ih w hw]
      simp [layoutField_struct ht, map_eq_ok]

/-! ## Encodings of structs -/

/-- What a field of a struct contributes to its encoding: the word of its value; if
    there is no value, the zero word under version 4 and nothing under version 3. -/
inductive FieldWord (h : Hash) (s : Session) (members : List (String × Json)) :
    Field → Option Word → Prop
  | present {f : Field} {v : Json} {x : Word} (member : findEntry f.name members = some v)
      (word : s.encodeField h f.type v = .ok x) : FieldWord h s members f (some x)
  | zero {f : Field} (absent : findEntry f.name members = none) (version : s.version = .v4) :
      FieldWord h s members f (some .zero)
  | nothing {f : Field} (absent : findEntry f.name members = none) (version : s.version = .v3) :
      FieldWord h s members f none

/-- The word of a field that is absent, if it has one. -/
def absentWord? (s : Session) : Option Word :=
  match s.version with
  | .v3 => none
  | .v4 => some .zero

/-- The word of a field whose slot is `o`. -/
def slotWord? (h : Hash) (s : Session) (o : Option Slot) : Option Word :=
  (o.map (Slot.value h)).or s.absentWord?

theorem fieldWord_iff {f : Field} {members : List (String × Json)} {x : Option Word} :
    FieldWord h s members f x ↔
      ∃ o, s.layoutMember f members = .ok o ∧ x = s.slotWord? h o := by
  simp only [layoutMember_eq_ok, slotWord?, absentWord?]
  constructor
  · intro word
    rcases word with ⟨member, word⟩ | ⟨absent, version⟩ | ⟨absent, version⟩
    · obtain ⟨p, hp, rfl⟩ := map_eq_ok.1 word
      exact ⟨_, .inr ⟨_, p, member, hp, rfl⟩, rfl⟩
    · exact ⟨_, .inl ⟨absent, rfl⟩, by simp [version]⟩
    · exact ⟨_, .inl ⟨absent, rfl⟩, by simp [version]⟩
  · intro slot
    obtain ⟨o, ⟨absent, rfl⟩ | ⟨v, p, member, hp, rfl⟩, rfl⟩ := slot
    · cases version : s.version with
      | v3 => exact .nothing absent version
      | v4 => exact .zero absent version
    · exact .present member (map_eq_ok.2 ⟨p, hp, rfl⟩)

theorem fieldWords_iff {fields : List Field} {members : List (String × Json)}
    {words : List (Option Word)} :
    List.Forall₂ (FieldWord h s members) fields words ↔
      ∃ os, List.Forall₂ (fun f o => s.layoutMember f members = .ok o) fields os ∧
        words = os.map (s.slotWord? h) := by
  constructor
  · intro words
    induction words with
    | nil => exact ⟨[], .nil, rfl⟩
    | cons word _ ih =>
      obtain ⟨o, ho, rfl⟩ := fieldWord_iff.1 word
      obtain ⟨os, hos, rfl⟩ := ih
      exact ⟨o :: os, .cons ho hos, rfl⟩
  · intro run
    obtain ⟨os, hos, rfl⟩ := run
    exact List.forall₂_map_right_iff.2 (hos.imp fun f o ho => fieldWord_iff.2 ⟨o, ho, rfl⟩)

theorem concat_memberSlots (os : List (Option Slot)) :
    Slot.concat h (s.memberSlots os) =
      (os.map (s.slotWord? h)).flatMap fun x => x.elim [] Word.bytes := by
  induction os with
  | nil => rfl
  | cons o os ih =>
    cases o <;> cases version : s.version <;>
      simp_all [memberSlots, absentSlots, slotWord?, absentWord?, Slot.concat, Slot.value]

/-- A struct is encoded as its type hash and the words of its fields, in the order
    in which they are declared. -/
theorem encodeData_eq_ok {name : String} {v : Json} {bs : Bytes} :
    s.encodeData h name v = .ok bs ↔
      ∃ fields members words, s.schema.get? name = some fields ∧ v = .object members ∧
        List.Forall₂ (FieldWord h s members) fields words ∧
        bs = (s.typeHash h name).bytes ++ words.flatMap fun x => x.elim [] Word.bytes := by
  simp only [encodeData, map_eq_ok, layoutData_eq_ok, fieldWords_iff]
  constructor
  · intro run
    obtain ⟨ps, ⟨fields, members, os, hf, hv, hos, rfl⟩, rfl⟩ := run
    refine ⟨fields, members, _, hf, hv, ⟨os, hos, rfl⟩, ?_⟩
    rw [Slot.concat, Slot.value, concat_memberSlots, typeHash]
  · intro parts
    obtain ⟨fields, members, words, hf, hv, ⟨os, hos, rfl⟩, rfl⟩ := parts
    refine ⟨_, ⟨fields, members, os, hf, hv, hos, rfl⟩, ?_⟩
    rw [Slot.concat, Slot.value, concat_memberSlots, typeHash]

/-! ## The encoder, read as equations -/

section Equations
variable (h : Hash) (s : Session) {type element name : String}

theorem concat_eq_flatMap (ps : List Slot) :
    Slot.concat h ps = (ps.map (Slot.value h)).flatMap Word.bytes := by
  induction ps with
  | nil => rfl
  | cons p ps ih => rw [Slot.concat, ih, List.map_cons, List.flatMap_cons]

/-- The word of a field of a struct, looked up among the members of the value. -/
def memberWord (f : Field) (members : List (String × Json)) : Except Fault (Option Word) :=
  match findEntry f.name members with
  | none => .ok s.absentWord?
  | some w => (s.encodeField h f.type w).map some

theorem memberWord_eq (f : Field) (members : List (String × Json)) :
    s.memberWord h f members = (s.layoutMember f members).map (s.slotWord? h) := by
  rw [layoutMember_eq, memberWord]
  cases findEntry f.name members with
  | none => rfl
  | some w =>
    simp only [encodeField]
    cases s.layoutField f.type w <;> rfl

theorem encodeField_invalid (parsed : FieldType.parse? type = none) (v : Json) :
    s.encodeField h type v = .error (.invalidType type) := by
  rw [encodeField, layoutField_invalid parsed]
  rfl

theorem encodeField_leaf {l : Leaf} (parsed : FieldType.parse? type = some (.leaf l)) (v : Json) :
    s.encodeField h type v =
      ((l.slot s.enforceWidth v).map (Slot.value h)).mapError (.malformed type) := by
  rw [encodeField, layoutField_leaf parsed]
  cases l.slot s.enforceWidth v <;> rfl

theorem encodeField_struct (parsed : FieldType.parse? type = some (.struct name)) (v : Json) :
    s.encodeField h type v = (s.encodeData h name v).map h := by
  rw [encodeField, layoutField_struct parsed, encodeData]
  cases s.layoutData name v <;> rfl

/-- What an array of a declared type is encoded as. -/
def encodeArray (type element : String) (length : Option Nat) (v : Json) : Except Fault Word :=
  if s.version.hasArrays then
    match v with
    | .array items =>
      match length.filter (· ≠ items.length) with
      | some expected => .error (.malformed type (.elementCount expected items.length))
      | none => (items.mapM (s.encodeField h element)).map fun words =>
          h (words.flatMap Word.bytes)
    | v => .error (.malformed type (.wrongKind "array" v.kind))
  else .error (.unsupported type s.version)

theorem encodeField_array {length : Option Nat}
    (parsed : FieldType.parse? type = some (.array element length)) (v : Json) :
    s.encodeField h type v = s.encodeArray h type element length v := by
  rw [encodeField, layoutField_array parsed, encodeArray.eq_def]
  split
  case isFalse => rfl
  case isTrue =>
    cases v with
    | array items =>
      cases fits : length.filter (· ≠ items.length) with
      | some expected => simp only [fits]; rfl
      | none =>
        have words : items.mapM (s.encodeField h element) =
            (items.mapM (s.layoutField element)).map (List.map (Slot.value h)) := mapM_map _ _ _
        simp only [fits, words]
        cases items.mapM (s.layoutField element) with
        | error fault => rfl
        | ok ps => exact congrArg (Except.ok ∘ h) (concat_eq_flatMap h ps)
    | _ => rfl

theorem encodeData_eq (name : String) (v : Json) :
    s.encodeData h name v =
      match s.schema.get? name with
      | none => .error (.undefinedType name)
      | some fields =>
        match v with
        | .object members =>
          (fields.mapM fun f => s.memberWord h f members).map fun words =>
            (s.typeHash h name).bytes ++ words.flatMap fun x => x.elim [] Word.bytes
        | v => .error (.malformed name (.wrongKind "object" v.kind)) := by
  simp only [encodeData, layoutData]
  cases v with
  | object members =>
    simp only [structSlots, if_true]
    cases s.schema.get? name with
    | none => rfl
    | some fields =>
      simp only [memberWord_eq, mapM_map]
      cases fields.mapM fun f => s.layoutMember f members with
      | error fault => rfl
      | ok os =>
        exact congrArg (fun words => Except.ok ((s.typeHash h name).bytes ++ words))
          (concat_memberSlots os)
  | _ =>
    simp only [structSlots]
    cases s.schema.get? name <;> rfl

end Equations

/-- A field is encoded exactly if the value belongs to its type, a struct exactly if
    the value belongs to the struct; what comes out is the type hash and one word
    for a field, where version 3 leaves out the fields that are absent. -/
theorem encode_isOk_iff_conforms (h : Hash) (s : Session) (type name : String) (v : Json) :
    ((∃ x, s.encodeField h type v = .ok x) ↔ s.Conforms type v) ∧
      ((∃ bs, s.encodeData h name v = .ok bs) ↔ s.ConformsStruct name v) ∧
      ∀ bs, s.encodeData h name v = .ok bs →
        ∃ fields members words, s.schema.get? name = some fields ∧ v = .object members ∧
          List.Forall₂ (FieldWord h s members) fields words ∧
          bs = (s.typeHash h name).bytes ++ words.flatMap fun x => x.elim [] Word.bytes := by
  refine ⟨?_, ?_, fun bs => encodeData_eq_ok.1⟩
  · rw [← layoutField_isOk_iff]
    simp [encodeField, map_eq_ok]
  · rw [← layoutData_isOk_iff fun w _ type => layoutField_isOk_iff]
    simp [encodeData, map_eq_ok]

end Session
end TypedMessage
