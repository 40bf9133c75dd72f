import TypedMessage.Proofs.Layout

/- Where an encoding fails. `Schema.positions` lists what the encoding of a value
   comes to, in order: every value with the type it is declared at, and every value
   that is taken as a struct. At each position something may be at fault
   (`Session.faultAt`), and what a run answers is the fault of the first position
   that has one (`fault?_layoutField`, `fault?_layoutData`, `fault?_signingHash`). So
   two sessions are compared by comparing what is at fault at each position. -/
namespace TypedMessage

/-! ## Faults of runs -/

/-- The fault of a run that fails. -/
def fault? {ε α : Type} : Except ε α → Option ε
  | .ok _ => none
  | .error e => some e

section Runs
variable {ε α β : Type}

theorem fault?_eq_none {x : Except ε α} : fault? x = none ↔ ∃ a, x = .ok a := by
  cases x <;> simp [fault?]

theorem fault?_eq_some {x : Except ε α} {e : ε} : fault? x = some e ↔ x = .error e := by
  cases x <;> simp [fault?]

theorem fault?_map (x : Except ε α) (f : α → β) : fault? (x.map f) = fault? x := by
  cases x <;> rfl

theorem fault?_mapError {ε' : Type} (x : Except ε α) (f : ε → ε') :
    fault? (x.mapError f) = (fault? x).map f := by
  cases x <;> rfl

theorem fault?_bind (x : Except ε α) (f : α → Except ε β) :
    fault? (x >>= f) = match x with
      | .ok a => fault? (f a)
      | .error e => some e := by
  cases x <;> rfl

theorem fault?_mapM (f : α → Except ε β) (xs : List α) :
    fault? (xs.mapM f) = xs.findSome? fun x => fault? (f x) := by
  induction xs with
  | nil => rfl
  | cons x xs ih =>
    rw [List.mapM_cons, fault?_bind, List.findSome?_cons]
    cases hx : f x with
    | error e => rfl
    | ok b =>
      show fault? (xs.mapM f >>= fun bs => .ok (b :: bs)) = _
      rw [bind_ok_eq_map, fault?_map, ih]
      rfl

theorem findSome?_flatMap (f : β → Option ε) (g : α → List β) (xs : List α) :
    (xs.flatMap g).findSome? f = xs.findSome? fun x => (g x).findSome? f := by
  induction xs with
  | nil => rfl
  | cons x xs ih =>
    rw [List.flatMap_cons, List.findSome?_append, List.findSome?_cons, ih]
    cases (g x).findSome? f <;> rfl

theorem findSome?_congr {f g : α → Option β} {xs : List α} (h : ∀ x ∈ xs, f x = g x) :
    xs.findSome? f = xs.findSome? g := by
  induction xs with
  | nil => rfl
  | cons x xs ih =>
    obtain ⟨hx, hxs⟩ := List.forall_mem_cons.1 h
    rw [List.findSome?_cons, List.findSome?_cons, hx, ih hxs]

end Runs

/-! ## Positions -/

/-- A place that an encoding comes to: a value at a declared type, or a value that is
    taken as a struct. -/
inductive Position
  | field (type : String) (v : Json)
  | struct (name : String) (v : Json)

namespace Schema

/-- The fields of a struct; none if it is not defined. -/
def fieldsOf (d : Schema) (name : String) : List Field := (d.get? name).getD []

mutual

/-- The positions of a value at a declared type, in the order in which an encoding
    comes to them: its own, and those of the elements or fields inside. -/
def positions (d : Schema) (ver : Version) (type : String) (v : Json) : List Position :=
  .field type v :: match FieldType.parse? type with
    | some (.array element length) => match v with
      | .array items =>
        if ver.hasArrays ∧ length.filter (· ≠ items.length) = none then
          itemPositions d ver element items
        else []
      | _ => []
    | some (.struct name) => match v with
      | .object members =>
        .struct name (.object members) ::
          (d.fieldsOf name).flatMap fun f => memberPositions d ver f members
      | v => [.struct name v]
    | _ => []

/-- The positions of the elements of an array. -/
def itemPositions (d : Schema) (ver : Version) (element : String) : List Json → List Position
  | [] => []
  | v :: vs => positions d ver element v ++ itemPositions d ver element vs

/-- The positions of a field of a struct, if the struct has such a member. -/
def memberPositions (d : Schema) (ver : Version) (f : Field) :
    List (String × Json) → List Position
  | [] => []
  | (k, v) :: ms =>
    if k = f.name then positions d ver f.type v else memberPositions d ver f ms

end

/-- The positions of a value that is taken as a struct. -/
def structPositions (d : Schema) (ver : Version) (name : String) (v : Json) : List Position :=
  .struct name v :: match v with
    | .object members => (d.fieldsOf name).flatMap fun f => d.memberPositions ver f members
    | _ => []

/-- The positions of a domain and then of a message. -/
def signingPositions (d : Schema) (ver : Version) (primary : String) (message domain : Json) :
    List Position :=
  d.structPositions ver domainType domain ++ d.structPositions ver primary message

section Equations
variable {d : Schema} {ver : Version} {type element name : String} {length : Option Nat}

theorem itemPositions_eq (items : List Json) :
    d.itemPositions ver element items = items.flatMap (d.positions ver element) := by
  induction items with
  | nil => rfl
  | cons v vs ih => rw [itemPositions, ih, List.flatMap_cons]

theorem memberPositions_eq (f : Field) (members : List (String × Json)) :
    d.memberPositions ver f members =
      match findEntry f.name members with
      | none => []
      | some v => d.positions ver f.type v := by
  induction members with
  | nil => rfl
  | cons m members ih =>
    obtain ⟨k, v⟩ := m
    rw [memberPositions, findEntry]
    split
    case isTrue => rfl
    case isFalse => exact ih

theorem positions_array (ht : FieldType.parse? type = some (.array element length)) (v : Json) :
    d.positions ver type v = .field type v :: match v with
      | .array items =>
        if ver.hasArrays ∧ length.filter (· ≠ items.length) = none then
          items.flatMap (d.positions ver element)
        else []
      | _ => [] := by
  rw [positions.eq_def, ht]
  cases v with
  | array items => simp only [itemPositions_eq]
  | _ => rfl

theorem positions_struct (ht : FieldType.parse? type = some (.struct name)) (v : Json) :
    d.positions ver type v = .field type v :: d.structPositions ver name v := by
  rw [positions.eq_def, ht]
  cases v <;> rfl

theorem structPositions_object (members : List (String × Json)) :
    d.structPositions ver name (.object members) = .struct name (.object members) ::
      (d.fieldsOf name).flatMap fun f => d.memberPositions ver f members := rfl

theorem structPositions_other {v : Json} (hv : v.kind ≠ .object) :
    d.structPositions ver name v = [.struct name v] := by
  cases v with
  | object members => exact absurd rfl hv
  | _ => rfl

theorem positions_other (ha : ∀ element length, FieldType.parse? type ≠ some (.array element length))
    (hs : ∀ name, FieldType.parse? type ≠ some (.struct name)) (v : Json) :
    d.positions ver type v = [.field type v] := by
  rw [positions.eq_def]
  cases ht : FieldType.parse? type with
  | none => rfl
  | some t =>
    cases t with
    | leaf l => rfl
    | array element length => exact absurd ht (ha element length)
    | struct name => exact absurd ht (hs name)

end Equations
end Schema

/-! ## What is at fault -/

namespace Session
variable {s : Session}

/-- What is wrong with the value itself at this type, whatever it contains. -/
def fieldFault (s : Session) (type : String) (v : Json) : Option Fault :=
  match FieldType.parse? type with
  | none => some (.invalidType type)
  | some (.leaf l) => fault? ((l.slot s.enforceWidth v).mapError (Fault.malformed type))
  | some (.array _ length) =>
    if s.version.hasArrays then
      match v with
      | .array items =>
        (length.filter (· ≠ items.length)).map fun expected =>
          .malformed type (.elementCount expected items.length)
      | v => some (.malformed type (.wrongKind "array" v.kind))
    else some (.unsupported type s.version)
  | some (.struct _) => none

theorem fieldFault_leaf {type : String} {l : Leaf} (ht : FieldType.parse? type = some (.leaf l))
    (v : Json) :
    s.fieldFault type v = (fault? (l.slot s.enforceWidth v)).map (.malformed type) := by
  rw [fieldFault, ht]
  exact fault?_mapError _ _

/-- What is wrong with the value as a struct, whatever it contains. -/
def structFault (s : Session) (name : String) (v : Json) : Option Fault :=
  match s.schema.get? name with
  | none => some (.undefinedType name)
  | some _ => if v.kind = .object then none else some (.malformed name (.wrongKind "object" v.kind))

/-- What is at fault at a position. -/
def faultAt (s : Session) : Position → Option Fault
  | .field type v => s.fieldFault type v
  | .struct name v => s.structFault name v

/-- The positions that a run comes to: it ends at the first that is at fault. -/
def reached (s : Session) : List Position → List Position
  | [] => []
  | q :: qs => q :: if (s.faultAt q).isSome then [] else s.reached qs

theorem fault?_layoutMember (f : Field) (members : List (String × Json))
    (inner : ∀ v ∈ (Json.object members).children, ∀ type,
      fault? (s.layoutField type v) = (s.schema.positions s.version type v).findSome? s.faultAt) :
    fault? (s.layoutMember f members) =
      (s.schema.memberPositions s.version f members).findSome? s.faultAt := by
  rw [layoutMember_eq, Schema.memberPositions_eq]
  cases hv : findEntry f.name members with
  | none => rfl
  | some v =>
    show fault? ((s.layoutField f.type v).map some) = _
    rw [fault?_map]
    exact inner v (Json.mem_children_of_findEntry hv) f.type

theorem fault?_layoutData_object (name : String) (members : List (String × Json)) :
    fault? (s.layoutData name (.object members)) =
      (s.structFault name (.object members)).or
        ((s.schema.fieldsOf name).findSome? fun f => fault? (s.layoutMember f members)) := by
  simp only [layoutData, structSlots, structFault, Schema.fieldsOf]
  cases s.schema.get? name with
  | none => rfl
  | some fields =>
    show fault? (fields.mapM _ >>= fun slots => Except.ok _) = fields.findSome? _
    rw [bind_ok_eq_map, fault?_map, fault?_mapM]

theorem fault?_layoutData_other (name : String) {v : Json} (hv : v.kind ≠ .object) :
    fault? (s.layoutData name v) = s.structFault name v := by
  cases v with
  | object members => exact absurd rfl hv
  | _ =>
    simp only [layoutData, structSlots, structFault]
    cases s.schema.get? name <;> rfl

theorem fault?_layoutData_of (name : String) (v : Json)
    (inner : ∀ w ∈ v.children, ∀ type,
      fault? (s.layoutField type w) = (s.schema.positions s.version type w).findSome? s.faultAt) :
    fault? (s.layoutData name v) =
      (s.schema.structPositions s.version name v).findSome? s.faultAt := by
  by_cases hv : v.kind = .object
  · cases v with
    | object members =>
      rw [Schema.structPositions_object, List.findSome?_cons, faultAt, fault?_layoutData_object,
        findSome?_flatMap]
      simp only [fault?_layoutMember _ members inner]
      cases s.structFault name (.object members) <;> rfl
    | _ => cases hv
  · rw [Schema.structPositions_other hv, fault?_layoutData_other name hv, List.findSome?_cons,
      faultAt]
    cases s.structFault name v <;> rfl

/-- A value cannot be laid out at a type for the reason that is first met. -/
theorem fault?_layoutField (type : String) (v : Json) :
    fault? (s.layoutField type v) =
      (s.schema.positions s.version type v).findSome? s.faultAt := by
  induction v using Json.child_induction generalizing type with
  | step v ih =>
  cases ht : FieldType.parse? type with
  | none =>
    rw [layoutField_invalid ht, Schema.positions_other (by simp [ht]) (by simp [ht])]
    simp [faultAt, fieldFault, ht, fault?]
  | some t =>
    cases t with
    | leaf l =>
      rw [layoutField_leaf ht, Schema.positions_other (by simp [ht]) (by simp [ht])]
      simp only [List.findSome?_cons, List.findSome?_nil, faultAt, fieldFault, ht]
      cases fault? ((l.slot s.enforceWidth v).mapError (Fault.malformed type)) <;> rfl
    | array element length =>
      rw [layoutField_array ht, Schema.positions_array ht, List.findSome?_cons, faultAt, fieldFault,
        ht]
      -- The elements come to be looked at only if the array itself is not at fault.
      cases arrays : s.version.hasArrays with
      | false => rfl
      | true =>
        cases v with
        | array items =>
          simp only [if_true, true_and]
          cases fits : length.filter (· ≠ items.length) with
          | some expected => rfl
          | none =>
            rw [if_pos rfl, findSome?_flatMap]
            simp only [fault?_map, fault?_mapM, Option.map_none]
            refine findSome?_congr fun w hw => ?_
            exact ih w hw element
        | _ => rfl
    | struct name =>
      rw [layoutField_struct ht, fault?_map, Schema.positions_struct ht, List.findSome?_cons,
        faultAt, fieldFault, ht]
      exact fault?_layoutData_of name v fun w hw type => ih w hw type

/-- A value cannot be laid out as a struct for the reason that is first met. -/
theorem fault?_layoutData (name : String) (v : Json) :
    fault? (s.layoutData name v) =
      (s.schema.structPositions s.version name v).findSome? s.faultAt :=
  fault?_layoutData_of name v fun w _ type => fault?_layoutField type w

/-! ## Faults of encodings -/

section Encodings
variable {h : Hash}

theorem fault?_encodeField (type : String) (v : Json) :
    fault? (s.encodeField h type v) =
      (s.schema.positions s.version type v).findSome? s.faultAt := by
  rw [encodeField, fault?_map, fault?_layoutField]

theorem fault?_encodeData (name : String) (v : Json) :
    fault? (s.encodeData h name v) =
      (s.schema.structPositions s.version name v).findSome? s.faultAt := by
  rw [encodeData, fault?_map, fault?_layoutData]

theorem fault?_hashStruct (name : String) (v : Json) :
    fault? (s.hashStruct h name v) =
      (s.schema.structPositions s.version name v).findSome? s.faultAt := by
  rw [hashStruct, fault?_map, fault?_encodeData]

theorem fault?_signingHash (primary : String) (message domain : Json) :
    fault? (s.signingHash h primary message domain) =
      (s.schema.signingPositions s.version primary message domain).findSome? s.faultAt := by
  rw [signingHash, Schema.signingPositions, List.findSome?_append, ← fault?_hashStruct (h := h),
    ← fault?_hashStruct (h := h)]
  cases s.hashStruct h domainType domain with
  | error e => rfl
  | ok domainSeparator =>
    show fault? (s.hashStruct h primary message >>= fun structHash => Except.ok _) = _
    rw [bind_ok_eq_map, fault?_map]
    rfl

end Encodings

/-! ## What a run comes to -/

section Reached
variable {qs : List Position}

theorem reached_cons_of_fault {q : Position} (hq : (s.faultAt q).isSome = true) :
    s.reached (q :: qs) = [q] := by
  rw [reached, if_pos hq]

theorem reached_cons_of_sound {q : Position} (hq : s.faultAt q = none) :
    s.reached (q :: qs) = q :: s.reached qs := by
  rw [reached, hq]
  rfl

theorem mem_of_mem_reached {q : Position} (h : q ∈ s.reached qs) : q ∈ qs := by
  induction qs with
  | nil => cases h
  | cons q' qs ih =>
    rw [reached] at h
    rcases List.mem_cons.1 h with rfl | h
    · exact List.mem_cons_self
    · split at h
      case isTrue => cases h
      case isFalse => exact List.mem_cons_of_mem _ (ih h)

/-- A run that succeeds comes to every position. -/
theorem reached_eq_self (h : qs.findSome? s.faultAt = none) : s.reached qs = qs := by
  induction qs with
  | nil => rfl
  | cons q qs ih =>
    rw [List.findSome?_eq_none_iff, List.forall_mem_cons] at h
    obtain ⟨hq, hqs⟩ := h
    rw [reached_cons_of_sound hq, ih (List.findSome?_eq_none_iff.2 hqs)]

/-- What a run fails with is what is at fault where it has come to. -/
theorem findSome?_faultAt_eq_some {e : Fault} :
    qs.findSome? s.faultAt = some e ↔ ∃ q ∈ s.reached qs, s.faultAt q = some e := by
  induction qs with
  | nil => simp [reached]
  | cons q qs ih =>
    rw [List.findSome?_cons]
    cases hq : s.faultAt q with
    | none =>
      rw [reached_cons_of_sound hq]
      simp [hq, ih]
    | some e' =>
      rw [reached_cons_of_fault (by rw [hq]; rfl)]
      simp [hq]

end Reached
end Session
end TypedMessage
