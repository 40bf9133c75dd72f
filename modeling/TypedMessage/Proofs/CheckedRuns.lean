import TypedMessage.Log.Entry
import TypedMessage.Proofs.ByteCuts
import TypedMessage.Proofs.CheckedSteps
import TypedMessage.Proofs.Conformance

/- The encoder, with every step that is in bounds only sometimes taken as such: the cuts of
   type names, the copies, shifts and sums of leaves, and the cuts that a log line would
   make of its fields. It follows the declared type and the value as the encoder does, calls
   inside calls, and hashes as it goes. What it answers is what the session answers
   (`encodeFieldChecked_eq`), so no step of it is out of bounds. Room for texts and byte
   strings is taken to be there. -/
namespace TypedMessage

/-! ## Cuts of texts -/

namespace FieldType

/-- A text without its last byte. -/
def cutByte? (cs : List Char) : Option (List Char) := do
  Log.takeBytes? (← sub? (Log.byteLength (String.ofList cs)) 1) cs

/-- What is cut off is a whole character where that is a single byte. -/
theorem cutByte?_concat (cs : List Char) : cutByte? (cs ++ [']']) = some cs := by
  have length : Log.byteLength (String.ofList (cs ++ [']'])) =
      Log.byteLength (String.ofList cs) + 1 := Log.byteLength_ofList_append cs [']']
  rw [cutByte?, length, sub?_of_le (Nat.le_add_left 1 _)]
  exact Log.takeBytes?_append cs [']']

-- A cut that falls inside a character gives nothing.
example : cutByte? ['2', 'é'] = none := by decide

/-- A text has two parts if the character stands in it once. -/
theorem splitOn_eq_pair_iff {c : Char} {cs front back : List Char} :
    cs.splitOn c = [front, back] ↔ cs = front ++ c :: back ∧ c ∉ front ∧ c ∉ back := by
  constructor
  · intro parts
    by_cases hc : c ∈ cs
    · obtain ⟨front', back', rfl, free⟩ := List.eq_append_cons_of_mem hc
      rw [List.splitOn_append_cons_self_of_not_mem free] at parts
      obtain ⟨rfl, rest⟩ := List.cons.inj parts
      by_cases hc' : c ∈ back'
      · obtain ⟨middle, last, rfl, free'⟩ := List.eq_append_cons_of_mem hc'
        rw [List.splitOn_append_cons_self_of_not_mem free'] at rest
        exact absurd (List.cons.inj rest).2 (List.splitOn_ne_nil c last)
      · rw [List.splitOn_eq_singleton hc'] at rest
        cases rest
        exact ⟨rfl, free, hc'⟩
    · rw [List.splitOn_eq_singleton hc] at parts
      cases parts
  · intro parts
    obtain ⟨rfl, free, free'⟩ := parts
    rw [List.splitOn_append_cons_self_of_not_mem free, List.splitOn_eq_singleton free']

/-- Reads a declared type; what stands behind the opening bracket of an array loses its last
    byte, which has to be the closing one. -/
def parseChecked (t : String) : Except Halt FieldType :=
  if t.toList.getLast? = some ']' then
    match t.toList.splitOn '[' with
    | [element, dims] =>
      if element = [] then .error (.fault (.invalidType t))
      else do
        match readLength? (← inBounds (cutByte? dims)) with
        | some length => return array (String.ofList element) length
        | none => .error (.fault (.invalidType t))
    | _ => .error (.fault (.invalidType t))
  else match Leaf.ofName? t.toList with
    | some l => .ok (leaf l)
    | none => .ok (struct t)

/-- The type that a text is, or the fault that it is none. -/
def read (t : String) : Except Fault FieldType :=
  match parse? t with
  | some type => .ok type
  | none => .error (.invalidType t)

theorem parseChecked_eq (t : String) : parseChecked t = (read t).mapError .fault := by
  unfold parseChecked read parse?
  split
  case isFalse => cases Leaf.ofName? t.toList <;> rfl
  case isTrue last =>
    split
    case h_1 element dims parts =>
      obtain ⟨text, free, flat⟩ := splitOn_eq_pair_iff.1 parts
      obtain ⟨ds, rfl⟩ := exists_eq_concat_of_getLast? (text ▸ last)
      rw [text, readArray?_append free, cutByte?_concat, List.dropLast_concat]
      by_cases empty : element = []
      · rw [if_pos empty, if_pos (.inl empty)]
        rfl
      · rw [if_neg empty, if_neg (not_or.2 ⟨empty, flat⟩)]
        cases hl : readLength? ds <;>
          simp [hl, bind, Except.bind, Except.mapError, pure, Except.pure]
    case h_2 other =>
      have none : readArray? t.toList = none := by
        by_cases bracket : '[' ∈ t.toList
        · obtain ⟨front, rest, text, free⟩ := List.eq_append_cons_of_mem bracket
          have more : '[' ∈ rest := by
            by_contra flat
            exact other front rest (splitOn_eq_pair_iff.2 ⟨text, free, flat⟩)
          rw [text, readArray?_append free, if_pos (.inr more)]
        · exact readArray?_of_not_mem bracket
      rw [none]
      rfl

/-- The place of the first opening bracket, in bytes. -/
def bracket? : List Char → Option Nat
  | [] => none
  | c :: cs => if c = '[' then some 0 else (bracket? cs).map (c.utf8Size + ·)

/-- The text in front of the first opening bracket, cut off there. -/
def baseChecked (t : String) : Except Halt String :=
  match bracket? t.toList with
  | some n => (inBounds (Log.takeBytes? n t.toList)).map String.ofList
  | none => .ok t

theorem bracket?_eq (cs : List Char) :
    bracket? cs =
      if '[' ∈ cs then some (Log.byteLength (String.ofList (baseList cs))) else none := by
  induction cs with
  | nil => rfl
  | cons c cs ih =>
    by_cases hc : c = '['
    · subst hc
      rfl
    · have base : baseList (c :: cs) = c :: baseList cs := List.takeWhile_cons_of_pos (by simpa)
      rw [bracket?, if_neg hc, ih, base, Log.byteLength_ofList_cons]
      by_cases rest : '[' ∈ cs
      · simp [rest]
      · simp [rest, Ne.symm hc]

theorem baseChecked_eq (t : String) : baseChecked t = .ok (base t) := by
  rw [baseChecked, bracket?_eq]
  by_cases bracket : '[' ∈ t.toList
  · have cut := Log.takeBytes?_append (baseList t.toList) (t.toList.dropWhile (· ≠ '['))
    rw [baseList, List.takeWhile_append_dropWhile] at cut
    rw [if_pos bracket]
    simp only [baseList, cut]
    rfl
  · rw [if_neg bracket, base_of_not_mem bracket]

end FieldType

/-! ## Type strings -/

namespace Schema

/-- The entries that none of the pending names leads to; the base of every type that is
    met on the way is cut off. -/
def unreachedChecked (left : List (String × List Field)) (pending : List String) :
    Except Halt (List (String × List Field)) :=
  match pending with
  | [] => .ok left
  | n :: more =>
    match _h : findEntry n left with
    | none => unreachedChecked left more
    | some fields => do
      let names ← fields.mapM fun f => FieldType.baseChecked f.type
      unreachedChecked (without n left) (names ++ more)
termination_by (left.length, pending.length)
decreasing_by
  · exact Prod.Lex.right _ (by simp)
  · exact Prod.Lex.left _ _ (length_without_lt ‹_›)

theorem unreachedChecked_eq (left : List (String × List Field)) (pending : List String) :
    unreachedChecked left pending = .ok (unreached left pending) := by
  have bases_eq (fields : List Field) :
      (fields.mapM fun f => FieldType.baseChecked f.type) = .ok (bases fields) := by
    simp only [FieldType.baseChecked_eq]
    exact List.mapM_pure
  fun_induction unreached left pending with
  | case1 left => rw [unreachedChecked]
  | case2 left n more none ih =>
    rw [unreachedChecked]
    split
    case h_1 => exact ih
    case h_2 fields found => cases none.symm.trans found
  | case3 left n more fields found ih =>
    rw [unreachedChecked]
    split
    case h_1 none => cases none.symm.trans found
    case h_2 fields' found' =>
      cases found.symm.trans found'
      rw [bases_eq]
      exact ih

/-- The type string of a struct. -/
def typeStringChecked (s : Schema) (primary : String) : Except Halt String := do
  let left ← unreachedChecked s.entries [primary]
  let ds := s.restrict fun n => (findEntry n left).isNone
  match ds.get? primary with
  | none => return ""
  | some fields =>
    return definition primary fields ++
      String.join ((ds.entries.filter (·.1 ≠ primary)).map fun e => definition e.1 e.2)

theorem typeStringChecked_eq (s : Schema) (primary : String) :
    s.typeStringChecked primary = .ok (s.typeString primary) := by
  rw [typeStringChecked, unreachedChecked_eq]
  simp only [typeString, dependencies, bind, Except.bind]
  cases (s.restrict fun n => (findEntry n (unreached s.entries [primary])).isNone).get? primary <;>
    rfl

end Schema

/-! ## Log lines -/

namespace Log

/-- The fields of a line about a failed encoding are kept as they are. -/
theorem isSome_render? {fault : Fault} {e : Entry} (h : ofFault? fault = some e) :
    e.render?.isSome := by
  have type : Rule.ofKey "type_name" = .keep := by decide
  have version : Rule.ofKey "version" = .keep := by decide
  cases fault with
  | undefinedType name =>
    cases h
    simp [Entry.render?, Entry.renderField?, redact?, type]
  | unsupported t v =>
    cases h
    simp [Entry.render?, Entry.renderField?, redact?, type, version]
  | _ => cases h

end Log

/-- Ends a run with a fault, with a line about it in the log if one is wanted. -/
def refuse {α : Type} (fault : Fault) : Except Halt α := do
  let _ ← (Log.ofFault? fault).mapM fun e => inBounds e.render?
  .error (.fault fault)

theorem refuse_eq {α : Type} (fault : Fault) :
    refuse fault = (.error (.fault fault) : Except Halt α) := by
  rw [refuse]
  cases entry : Log.ofFault? fault with
  | none => rfl
  | some e =>
    obtain ⟨line, rendered⟩ := Option.isSome_iff_exists.1 (Log.isSome_render? entry)
    simp [rendered, bind, Except.bind, Functor.map, Except.map]

/-! ## The encoder -/

namespace Session
variable (h : Hash) (s : Session)

mutual

/-- The word of a value of a declared type. -/
def encodeFieldChecked (type : String) (v : Json) : Except Halt Word := do
  match ← FieldType.parseChecked type with
  | .leaf l => l.wordChecked h s.enforceWidth type v
  | .array element length => encodeArrayChecked type element length v
  | .struct name => return h (← encodeDataChecked name v)
termination_by (sizeOf v, 1)

/-- The word of an array. -/
def encodeArrayChecked (type element : String) (length : Option Nat) (v : Json) :
    Except Halt Word :=
  if s.version.hasArrays then
    match v with
    | .array items =>
      match length.filter (· ≠ items.length) with
      | some expected => report type (.error (.elementCount expected items.length))
      | none => do return h (← encodeItemsChecked element items)
    | v => report type (.error (.wrongKind "array" v.kind))
  else refuse (.unsupported type s.version)
termination_by (sizeOf v, 0)

/-- The words of the elements of an array, one after the other. -/
def encodeItemsChecked (element : String) (items : List Json) : Except Halt Bytes :=
  match items with
  | [] => return []
  | v :: vs => do
    let w ← encodeFieldChecked element v
    return w.bytes ++ (← encodeItemsChecked element vs)
termination_by (sizeOf items, 0)

/-- The type hash of a struct and the words of its fields. -/
def encodeDataChecked (name : String) (v : Json) : Except Halt Bytes :=
  match s.schema.get? name with
  | none => refuse (.undefinedType name)
  | some fields =>
    match v with
    | .object members => do
      let typeHash := h (utf8 (← s.schema.typeStringChecked name))
      let words ← fields.mapM fun f =>
        match _found : findEntry f.name members with
        | some w => do return some (← encodeFieldChecked f.type w)
        | none => return s.absentWord?
      return typeHash.bytes ++ words.flatMap fun x => x.elim [] Word.bytes
    | v => report name (.error (.wrongKind "object" v.kind))
termination_by (sizeOf v, 0)
decreasing_by
  exact Prod.Lex.left _ _ (Json.sizeOf_lt_of_mem_children (Json.mem_children_of_findEntry _found))

end

/-- The hash of a struct's encoding. -/
def hashStructChecked (name : String) (v : Json) : Except Halt Word :=
  return h (← encodeDataChecked h s name v)

/-- The digest of a message under a domain. -/
def signingHashChecked (primary : String) (message domain : Json) : Except Halt SigningHash := do
  let domainSeparator ← hashStructChecked h s domainType domain
  let structHash ← hashStructChecked h s primary message
  return ⟨domainSeparator, structHash, h (signingBytes domainSeparator structHash)⟩

/-! ## Every step is in bounds -/

section Agreement
variable {h s} {type element name : String} {v : Json}

theorem encodeItemsChecked_of {items : List Json}
    (agree : ∀ w ∈ items,
      encodeFieldChecked h s element w = (s.encodeField h element w).mapError .fault) :
    encodeItemsChecked h s element items =
      ((items.mapM (s.encodeField h element)).map fun words =>
        words.flatMap Word.bytes).mapError .fault := by
  induction items with
  | nil => rw [encodeItemsChecked]; rfl
  | cons w items ih =>
    obtain ⟨first, rest⟩ := List.forall_mem_cons.1 agree
    rw [encodeItemsChecked, List.mapM_cons, first, ih rest]
    cases s.encodeField h element w with
    | error fault => rfl
    | ok word => cases items.mapM (s.encodeField h element) <;> rfl

theorem encodeArrayChecked_of {length : Option Nat}
    (agree : ∀ type, ∀ w ∈ v.children,
      encodeFieldChecked h s type w = (s.encodeField h type w).mapError .fault) :
    encodeArrayChecked h s type element length v =
      (s.encodeArray h type element length v).mapError .fault := by
  rw [encodeArrayChecked.eq_def, encodeArray.eq_def]
  split
  case isFalse => exact refuse_eq _
  case isTrue =>
    cases v with
    | array items =>
      cases fits : length.filter (· ≠ items.length) with
      | some expected => simp only [fits]; rfl
      | none =>
        have inner : ∀ w ∈ items,
            encodeFieldChecked h s element w = (s.encodeField h element w).mapError .fault :=
          agree element
        simp only [fits, encodeItemsChecked_of inner]
        cases items.mapM (s.encodeField h element) <;> rfl
    | _ => rfl

theorem encodeDataChecked_of
    (agree : ∀ type, ∀ w ∈ v.children,
      encodeFieldChecked h s type w = (s.encodeField h type w).mapError .fault) :
    encodeDataChecked h s name v = (s.encodeData h name v).mapError .fault := by
  rw [encodeDataChecked.eq_def, encodeData_eq]
  cases s.schema.get? name with
  | none => exact refuse_eq _
  | some fields =>
    cases v with
    | object members =>
      have member (f : Field) :
          (match _found : findEntry f.name members with
            | some w => do return some (← encodeFieldChecked h s f.type w)
            | none => return s.absentWord?) = (s.memberWord h f members).mapError .fault := by
        rw [memberWord]
        split
        case h_1 w found =>
          simp only [found, agree f.type w (Json.mem_children_of_findEntry found)]
          cases s.encodeField h f.type w <;> rfl
        case h_2 found =>
          simp only [found]
          rfl
      simp only [Schema.typeStringChecked_eq, member, mapM_mapError]
      cases fields.mapM fun f => s.memberWord h f members <;> rfl
    | _ => rfl

end Agreement

/-- What the checked steps answer is what the session answers. -/
theorem encodeFieldChecked_eq (type : String) (v : Json) :
    encodeFieldChecked h s type v = (s.encodeField h type v).mapError .fault := by
  induction v using Json.child_induction generalizing type with
  | step v ih =>
    have agree : ∀ type, ∀ w ∈ v.children,
        encodeFieldChecked h s type w = (s.encodeField h type w).mapError .fault :=
      fun type w hw => ih w hw type
    rw [encodeFieldChecked, FieldType.parseChecked_eq, FieldType.read]
    cases parsed : FieldType.parse? type with
    | none =>
      rw [encodeField_invalid h s parsed]
      rfl
    | some t =>
      cases t with
      | leaf l =>
        have sized := (FieldType.parse?_leaf_iff.1 parsed).1
        rw [encodeField_leaf h s parsed]
        refine (Leaf.wordChecked_eq sized).trans ?_
        cases l.slot s.enforceWidth v <;> rfl
      | array element length =>
        rw [encodeField_array h s parsed]
        exact encodeArrayChecked_of agree
      | struct name =>
        rw [encodeField_struct h s parsed]
        have data : encodeDataChecked h s name v = (s.encodeData h name v).mapError .fault :=
          encodeDataChecked_of agree
        simp only [Except.mapError, bind, Except.bind, data]
        cases s.encodeData h name v <;> rfl

theorem encodeArrayChecked_eq (type element : String) (length : Option Nat) (v : Json) :
    encodeArrayChecked h s type element length v =
      (s.encodeArray h type element length v).mapError .fault :=
  encodeArrayChecked_of fun type w _ => encodeFieldChecked_eq h s type w

theorem encodeDataChecked_eq (name : String) (v : Json) :
    encodeDataChecked h s name v = (s.encodeData h name v).mapError .fault :=
  encodeDataChecked_of fun type w _ => encodeFieldChecked_eq h s type w

theorem signingHashChecked_eq (primary : String) (message domain : Json) :
    signingHashChecked h s primary message domain =
      (s.signingHash h primary message domain).mapError .fault := by
  have hash (name : String) (v : Json) :
      hashStructChecked h s name v = (s.hashStruct h name v).mapError .fault := by
    rw [hashStructChecked, encodeDataChecked_eq, hashStruct]
    cases s.encodeData h name v <;> rfl
  rw [signingHashChecked, signingHash, hash]
  cases s.hashStruct h domainType domain with
  | error fault => rfl
  | ok domainSeparator =>
    show (hashStructChecked h s primary message >>= fun structHash => _) = _
    rw [hash]
    cases s.hashStruct h primary message <;> rfl

/-- No step of the encoder is out of bounds, on any session, type name and value. Reading a
    type, encoding a field, an array or a struct and hashing for a signature, each with its
    cuts, copies, shifts and sums as steps that may have no result, answer what the session
    answers, a result or a fault. What stands behind the opening bracket of an array type
    ends in the closing one, and that is the byte that is cut off; a base type is cut off in
    front of a bracket; a bound is shifted by less than the width of a word; the copies that
    fit are those of 20 bytes into an address and of up to 32 into a word; and of all
    complements only that of zero, which is never taken, leaves no room for one more. -/
theorem encode_in_bounds (h : Hash) (s : Session) :
    (∀ t, Answers (FieldType.parseChecked t) (FieldType.read t)) ∧
      (∀ type v, Answers (encodeFieldChecked h s type v) (s.encodeField h type v)) ∧
      (∀ type element length v,
        Answers (encodeArrayChecked h s type element length v)
          (s.encodeArray h type element length v)) ∧
      (∀ name v, Answers (encodeDataChecked h s name v) (s.encodeData h name v)) ∧
      (∀ primary message domain,
        Answers (signingHashChecked h s primary message domain)
          (s.signingHash h primary message domain)) ∧
      (∀ (t : String) element dims, t.toList.getLast? = some ']' →
        t.toList.splitOn '[' = [element, dims] →
          ∃ ds, dims = ds ++ [']'] ∧ FieldType.cutByte? dims = some ds) ∧
      (∀ t, FieldType.baseChecked t = .ok (FieldType.base t)) ∧
      (∀ t bits, FieldType.parse? t = some (.leaf (.int bits)) → ∀ enforce : Bool,
        1 ≤ (if enforce then bits else 256) ∧ (if enforce then bits else 256) - 1 < 256) ∧
      (∀ bs, ((Word.zero.overwrite? 12 32 bs).isSome ↔ bs.length = 20) ∧
        ((Word.zero.overwrite? 0 bs.length bs).isSome ↔ bs.length ≤ 32)) ∧
      ∀ m : BitVec 256, (~~~m).uaddOverflow 1 = false ↔ m ≠ 0 := by
  refine ⟨fun t => .of_eq (FieldType.parseChecked_eq t),
    fun type v => .of_eq (encodeFieldChecked_eq h s type v),
    fun type element length v => .of_eq (encodeArrayChecked_eq h s type element length v),
    fun name v => .of_eq (encodeDataChecked_eq h s name v),
    fun primary message domain => .of_eq (signingHashChecked_eq h s primary message domain),
    fun t element dims last parts => ?_, FieldType.baseChecked_eq, fun t bits parsed enforce => ?_,
    fun bs => ?_, fun m => Integer.uaddOverflow_not_eq_false_iff⟩
  · obtain ⟨text, -, -⟩ := FieldType.splitOn_eq_pair_iff.1 parts
    obtain ⟨ds, rfl⟩ := FieldType.exists_eq_concat_of_getLast? (text ▸ last)
    exact ⟨ds, rfl, FieldType.cutByte?_concat ds⟩
  · obtain ⟨least, most, -⟩ := (FieldType.parse?_leaf_iff.1 parsed).1
    split <;> omega
  · simp [Word.isSome_overwrite?]

end Session
end TypedMessage
