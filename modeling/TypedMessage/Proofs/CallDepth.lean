import TypedMessage.Proofs.Conformance
import TypedMessage.Proofs.Values

/- How deep the calls of the encoder nest. The encoder follows the schema, and a
   schema may lead back to where it started; here its recursion is taken as such,
   with a bound on the calls that are open at once (`encodeFieldWithin`). One call
   is `encodeStep`, a function of the calls it makes. Two facts about that step
   carry the result: the encoder of a session solves it as an equation
   (`encodeStep_fieldCalls`), and a step asks only about values inside its own
   (`encodeStep_congr`), where containers are nested less deeply. On a struct type that
   leads to itself every smaller bound is too small (`outOfCalls_chain`). -/
namespace TypedMessage

namespace Json

/-- The values inside a container are nested less deeply than it is. -/
theorem depth_lt_of_mem_children {v w : Json} (h : w ∈ v.children) : w.depth < v.depth := by
  cases v with
  | array items => exact Nat.lt_succ_of_le (depthItems_le_iff.1 (Nat.le_refl _) w h)
  | object members =>
    obtain ⟨m, hm, rfl⟩ := List.mem_map.1 h
    exact Nat.lt_succ_of_le (depthMembers_le_iff.1 (Nat.le_refl _) m hm)
  | _ => cases h

end Json

namespace Session

/-! ## The encoder with a bound on open calls -/

/-- Why a bounded run of the encoder has no word. -/
inductive Stop
  | fault (fault : Fault)
  | outOfCalls
  deriving DecidableEq

section Steps
variable (h : Hash) (s : Session) (field : String → Json → Except Stop Word)

/-- What an array is hashed from, its elements encoded by `field` one after the
    other. -/
def arrayStep (type element : String) (length : Option Nat) (v : Json) : Except Stop Bytes :=
  if s.version.hasArrays then
    match v with
    | .array items =>
      match length.filter (· ≠ items.length) with
      | some expected => .error (.fault (.malformed type (.elementCount expected items.length)))
      | none => (items.mapM (field element)).map fun words => words.flatMap Word.bytes
    | v => .error (.fault (.malformed type (.wrongKind "array" v.kind)))
  else .error (.fault (.unsupported type s.version))

/-- The word of a field of a struct, looked up among the members of the value. -/
def memberStep (f : Field) (members : List (String × Json)) : Except Stop (Option Word) :=
  match findEntry f.name members with
  | none => .ok s.absentWord?
  | some w => (field f.type w).map some

/-- What a struct is hashed from, its fields encoded by `field` in the order in
    which they are declared. -/
def dataStep (name : String) (v : Json) : Except Stop Bytes :=
  match s.schema.get? name with
  | none => .error (.fault (.undefinedType name))
  | some fields =>
    match v with
    | .object members =>
      (fields.mapM fun f => s.memberStep field f members).map fun words =>
        (s.typeHash h name).bytes ++ words.flatMap fun x => x.elim [] Word.bytes
    | v => .error (.fault (.malformed name (.wrongKind "object" v.kind)))

/-- One call of the encoder, in terms of the calls that it makes. -/
def encodeStep (type : String) (v : Json) : Except Stop Word :=
  match FieldType.parse? type with
  | none => .error (.fault (.invalidType type))
  | some (.leaf l) =>
    ((l.slot s.enforceWidth v).map (Slot.value h)).mapError fun reason =>
      .fault (.malformed type reason)
  | some (.array element length) => (s.arrayStep field type element length v).map h
  | some (.struct name) => (s.dataStep h field name v).map h

end Steps

/-- The encoder where at most so many calls may be open at once. -/
def encodeFieldWithin (h : Hash) (s : Session) : (calls : Nat) → String → Json → Except Stop Word
  | 0 => fun _ _ => .error .outOfCalls
  | calls + 1 => s.encodeStep h (encodeFieldWithin h s calls)

/-- A struct encoded where at most so many calls of the field encoder may be open at
    once. -/
def encodeDataWithin (h : Hash) (s : Session) (calls : Nat) (name : String) (v : Json) :
    Except Stop Bytes :=
  s.dataStep h (encodeFieldWithin h s calls) name v

/-! ## A call asks about what is inside its value -/

section Congruence
variable {h : Hash} {s : Session} {field field' : String → Json → Except Stop Word} {v : Json}

theorem dataStep_congr (name : String)
    (agree : ∀ type, ∀ w ∈ v.children, field' type w = field type w) :
    s.dataStep h field' name v = s.dataStep h field name v := by
  cases v with
  | object members =>
    have member (f : Field) : s.memberStep field' f members = s.memberStep field f members := by
      cases found : findEntry f.name members with
      | none => simp only [memberStep, found]
      | some w =>
        simp only [memberStep, found, agree f.type w (Json.mem_children_of_findEntry found)]
    simp only [dataStep, member]
  | _ => rfl

theorem encodeStep_congr (type : String)
    (agree : ∀ type, ∀ w ∈ v.children, field' type w = field type w) :
    s.encodeStep h field' type v = s.encodeStep h field type v := by
  cases parsed : FieldType.parse? type with
  | none => simp only [encodeStep, parsed]
  | some t =>
    cases t with
    | leaf l => simp only [encodeStep, parsed]
    | array element length =>
      have array : s.arrayStep field' type element length v =
          s.arrayStep field type element length v := by
        cases v with
        | array items =>
          have items : items.mapM (field' element) = items.mapM (field element) :=
            mapM_congr fun before w after split _ => agree element w (by simp [Json.children, split])
          simp only [arrayStep, items]
        | _ => rfl
      simp only [encodeStep, parsed, array]
    | struct name => simp only [encodeStep, parsed, dataStep_congr name agree]

end Congruence

/-! ## The encoder solves the equation of a call -/

section FixedPoint
variable (h : Hash) (s : Session)

/-- The encoder of the session, as the calls of a step. -/
def fieldCalls (type : String) (v : Json) : Except Stop Word :=
  (s.encodeField h type v).mapError .fault

theorem mapM_fieldCalls (element : String) (items : List Json) :
    items.mapM (s.fieldCalls h element) =
      (items.mapM (s.encodeField h element)).mapError .fault :=
  mapM_mapError _ _ _

theorem arrayStep_fieldCalls {type element : String} {length : Option Nat}
    (parsed : FieldType.parse? type = some (.array element length)) (v : Json) :
    (s.arrayStep (s.fieldCalls h) type element length v).map h = s.fieldCalls h type v := by
  rw [fieldCalls, encodeField_array h s parsed, arrayStep.eq_def, encodeArray.eq_def]
  split
  case isFalse => rfl
  case isTrue =>
    cases v with
    | array items =>
      cases fits : length.filter (· ≠ items.length) with
      | some expected => simp only [fits]; rfl
      | none =>
        simp only [fits, mapM_fieldCalls]
        cases items.mapM (s.encodeField h element) <;> rfl
    | _ => rfl

theorem memberStep_fieldCalls (f : Field) (members : List (String × Json)) :
    s.memberStep (s.fieldCalls h) f members = (s.memberWord h f members).mapError .fault := by
  rw [memberStep, memberWord]
  cases findEntry f.name members with
  | none => rfl
  | some w =>
    simp only [fieldCalls]
    cases s.encodeField h f.type w <;> rfl

theorem dataStep_fieldCalls (name : String) (v : Json) :
    s.dataStep h (s.fieldCalls h) name v = (s.encodeData h name v).mapError .fault := by
  rw [encodeData_eq, dataStep.eq_def]
  cases s.schema.get? name with
  | none => rfl
  | some fields =>
    cases v with
    | object members =>
      simp only [memberStep_fieldCalls, mapM_mapError]
      cases fields.mapM fun f => s.memberWord h f members <;> rfl
    | _ => rfl

theorem encodeStep_fieldCalls (type : String) (v : Json) :
    s.encodeStep h (s.fieldCalls h) type v = s.fieldCalls h type v := by
  cases parsed : FieldType.parse? type with
  | none =>
    simp only [encodeStep, fieldCalls, parsed, encodeField_invalid h s parsed]
    rfl
  | some t =>
    cases t with
    | leaf l =>
      simp only [encodeStep, fieldCalls, parsed, encodeField_leaf h s parsed]
      cases l.slot s.enforceWidth v <;> rfl
    | array element length => simp only [encodeStep, parsed, arrayStep_fieldCalls h s parsed]
    | struct name =>
      simp only [encodeStep, parsed, dataStep_fieldCalls, fieldCalls,
        encodeField_struct h s parsed]
      cases s.encodeData h name v <;> rfl

end FixedPoint

/-! ## The bound -/

section Bound
variable {h : Hash} {s : Session} {v : Json} {calls : Nat}

/-- More calls than containers are nested in the value are enough for it. -/
theorem encodeFieldWithin_eq {type : String} (enough : v.depth < calls) :
    encodeFieldWithin h s calls type v = s.fieldCalls h type v := by
  induction calls generalizing type v with
  | zero => exact absurd enough (Nat.not_lt_zero _)
  | succ calls ih =>
    rw [← encodeStep_fieldCalls, encodeFieldWithin]
    refine encodeStep_congr type fun type w hw => ih ?_
    exact Nat.lt_of_lt_of_le (Json.depth_lt_of_mem_children hw) (Nat.le_of_lt_succ enough)

/-- A struct opens no call for its own value, so it needs one call less. -/
theorem encodeDataWithin_eq {name : String} (enough : v.depth ≤ calls) :
    encodeDataWithin h s calls name v = (s.encodeData h name v).mapError .fault := by
  rw [← dataStep_fieldCalls, encodeDataWithin]
  refine dataStep_congr name fun type w hw => encodeFieldWithin_eq ?_
  exact Nat.lt_of_lt_of_le (Json.depth_lt_of_mem_children hw) enough

theorem mapError_ne_outOfCalls {α : Type} (x : Except Fault α) :
    x.mapError Stop.fault ≠ .error .outOfCalls := by
  cases x <;> simp [Except.mapError]

end Bound

/-! ### The bound is met -/

/-- A struct type whose one field is of that type. -/
def linked : Session where
  schema := Dict.ofList [("Node", [⟨"next", "Node"⟩])]

/-- So many nodes, each the next one of the one before, and no node at the end. -/
def chain : (nodes : Nat) → Json
  | 0 => .null
  | nodes + 1 => .object [("next", chain nodes)]

theorem depth_chain (nodes : Nat) : (chain nodes).depth = nodes := by
  induction nodes with
  | zero => rfl
  | succ nodes ih => simp [chain, Json.depth, Json.depthMembers, ih]

theorem encodeStep_linked (h : Hash) (field : String → Json → Except Stop Word) (v : Json) :
    linked.encodeStep h field "Node" v = (linked.dataStep h field "Node" v).map h := by
  have parsed : FieldType.parse? "Node" = some (.struct "Node") := by decide
  rw [encodeStep, parsed]

/-- What is wrong at the end of the chain is only seen by a call for the end itself. -/
theorem outOfCalls_chain (h : Hash) (nodes : Nat) :
    encodeFieldWithin h linked nodes "Node" (chain nodes) = .error .outOfCalls := by
  induction nodes with
  | zero => rfl
  | succ nodes ih =>
    have fields : linked.schema.get? "Node" = some [⟨"next", "Node"⟩] := rfl
    rw [encodeFieldWithin, encodeStep_linked, chain, dataStep, fields]
    simp [memberStep, findEntry, ih, Except.map, bind, Except.bind]

/-- On every schema, cyclic ones included, the encoder ends: with one call more than
    containers are nested in the value it does not run out of calls, and what it
    answers is what the session answers, however many calls it may open beyond that.
    A struct is encoded within the depth of its value alone. No smaller bound would do
    for all schemas and values. -/
theorem encode_within_depth (h : Hash) (s : Session) (type name : String) (v : Json) (more : Nat) :
    encodeFieldWithin h s (v.depth + 1 + more) type v = (s.encodeField h type v).mapError .fault ∧
      encodeFieldWithin h s (v.depth + 1 + more) type v ≠ .error .outOfCalls ∧
      encodeDataWithin h s (v.depth + more) name v = (s.encodeData h name v).mapError .fault ∧
      encodeDataWithin h s (v.depth + more) name v ≠ .error .outOfCalls ∧
      ∀ depth, (chain depth).depth = depth ∧
        encodeFieldWithin h linked depth "Node" (chain depth) = .error .outOfCalls := by
  have field : encodeFieldWithin h s (v.depth + 1 + more) type v = s.fieldCalls h type v :=
    encodeFieldWithin_eq (by omega)
  have data : encodeDataWithin h s (v.depth + more) name v =
      (s.encodeData h name v).mapError .fault := encodeDataWithin_eq (by omega)
  refine ⟨field, ?_, data, ?_, fun depth => ⟨depth_chain depth, outOfCalls_chain h depth⟩⟩
  · rw [field]
    exact mapError_ne_outOfCalls _
  · rw [data]
    exact mapError_ne_outOfCalls _

end Session
end TypedMessage
