import TypedMessage.Proofs.Comparison

/- Version 3 against version 4. A run under version 3 goes the way of the run under
   version 4 until it comes to an array type, where it is refused; where no field is
   absent it gives the same bytes (`v3_restricts_v4`). -/
namespace TypedMessage.Session
variable {s : Session}

/-- The session under this version. -/
def under (s : Session) (ver : Version) : Session := { s with version := ver }

/-- The run was refused because version 3 has no arrays. -/
def Refused {α : Type} (x : Except Fault α) : Prop := ∃ type, x = .error (.unsupported type .v3)

/-- What a run under version 3, which comes to the positions `reached`, has to do with
    the run under version 4. -/
structure Restricts {α : Type} (d : Schema) (reached : List Position) (old new : Except Fault α) :
    Prop where
  fails : ∀ e, new = .error e → old = .error e ∨ Refused old
  succeeds : ∀ a, new = .ok a → (∃ b, old = .ok b) ∨ Refused old
  accepts : ∀ a, old = .ok a → ∃ b, new = .ok b
  refuses : ∀ type ver, old = .error (.unsupported type ver) ↔
    ver = .v3 ∧ ∃ v, .field type v ∈ reached ∧
      ∃ element length, FieldType.parse? type = some (.array element length)
  agrees : ∀ a, old = .ok a → (∀ q ∈ reached, q.Complete d) → new = .ok a

theorem within_v4 (s : Session) : Within (s.under .v3) (s.under .v4) where
  schema := rfl
  leaves := fun _ _ _ _ _ hp => hp
  arrays := fun _ => rfl

/-- A position is refused exactly if its type is that of an array. -/
theorem faultAt_v3_eq_unsupported {q : Position} {type : String} {ver : Version} :
    (s.under .v3).faultAt q = some (.unsupported type ver) ↔
      ver = .v3 ∧ ∃ v, q = .field type v ∧
        ∃ element length, FieldType.parse? type = some (.array element length) := by
  cases q with
  | struct name v =>
    rw [faultAt, structFault]
    cases (s.under .v3).schema.get? name with
    | none => simp
    | some fields => by_cases hv : v.kind = .object <;> simp [hv]
  | field type' v =>
    rw [faultAt, fieldFault]
    constructor
    · intro hfault
      cases ht : FieldType.parse? type' with
      | none => simp [ht] at hfault
      | some t =>
        cases t with
        | leaf l =>
          rw [ht] at hfault
          cases hl : l.slot (s.under .v3).enforceWidth v <;>
            simp [hl, Except.mapError, fault?] at hfault
        | array element length =>
          rw [ht] at hfault
          obtain ⟨rfl, rfl⟩ := Fault.unsupported.inj (Option.some.inj hfault)
          exact ⟨rfl, v, rfl, element, length, ht⟩
        | struct name => simp [ht] at hfault
    · intro harray
      obtain ⟨rfl, v', hq, element, length, ht⟩ := harray
      cases hq
      rw [ht]
      rfl

/-- The runs fail alike, or the first is refused. -/
def AlikeOrRefused (old new : Option Fault) : Prop :=
  old = new ∨ ∃ type, old = some (.unsupported type .v3)

theorem alikeOrRefused_findSome? {α : Type} {f g : α → Option Fault} {xs : List α}
    (h : ∀ x ∈ xs, AlikeOrRefused (f x) (g x)) :
    AlikeOrRefused (xs.findSome? f) (xs.findSome? g) := by
  induction xs with
  | nil => exact .inl rfl
  | cons x xs ih =>
    obtain ⟨hx, hxs⟩ := List.forall_mem_cons.1 h
    rw [List.findSome?_cons, List.findSome?_cons]
    rcases hx with hx | ⟨type, hx⟩
    · rw [hx]
      cases g x with
      | some e => exact .inl rfl
      | none => exact ih hxs
    · rw [hx]
      exact .inr ⟨type, rfl⟩

theorem alikeOrRefused_layoutData_of (name : String) (v : Json)
    (inner : ∀ w ∈ v.children, ∀ type, AlikeOrRefused
      (fault? ((s.under .v3).layoutField type w)) (fault? ((s.under .v4).layoutField type w))) :
    AlikeOrRefused (fault? ((s.under .v3).layoutData name v))
      (fault? ((s.under .v4).layoutData name v)) := by
  by_cases hv : v.kind = .object
  · cases v with
    | object members =>
      rw [fault?_layoutData_object, fault?_layoutData_object]
      show AlikeOrRefused ((s.structFault name _).or _) ((s.structFault name _).or _)
      cases s.structFault name (.object members) with
      | some e => exact .inl rfl
      | none =>
        refine alikeOrRefused_findSome? fun f _ => ?_
        rw [layoutMember_eq, layoutMember_eq]
        cases hw : findEntry f.name members with
        | none => exact .inl rfl
        | some w =>
          simp only [fault?_map]
          exact inner w (Json.mem_children_of_findEntry hw) f.type
    | _ => cases hv
  · rw [fault?_layoutData_other name hv, fault?_layoutData_other name hv]
    exact .inl rfl

theorem alikeOrRefused_layoutField (type : String) (v : Json) :
    AlikeOrRefused (fault? ((s.under .v3).layoutField type v))
      (fault? ((s.under .v4).layoutField type v)) := by
  induction v using Json.child_induction generalizing type with
  | step v ih =>
  cases ht : FieldType.parse? type with
  | none =>
    rw [layoutField_invalid ht, layoutField_invalid ht]
    exact .inl rfl
  | some t =>
    cases t with
    | leaf l =>
      rw [layoutField_leaf ht, layoutField_leaf ht]
      exact .inl rfl
    | array element length =>
      rw [layoutField_array ht]
      exact .inr ⟨type, rfl⟩
    | struct name =>
      rw [layoutField_struct ht, layoutField_struct ht, fault?_map, fault?_map]
      exact alikeOrRefused_layoutData_of name v fun w hw type => ih w hw type

/-- What holds of a run under version 3 at these positions, given how it may fail and
    that it is repeated under version 4. -/
theorem restricts_of {α : Type} {qs : List Position} {old new : Except Fault α}
    (hfault : fault? old = qs.findSome? (s.under .v3).faultAt)
    (alike : AlikeOrRefused (fault? old) (fault? new))
    (repeated : ∀ a, old = .ok a → (∀ q ∈ qs, q.Complete s.schema) → new = .ok a) :
    Restricts s.schema ((s.under .v3).reached qs) old new where
  fails e he := by
    rw [fault?_eq_some.2 he] at alike
    exact alike.imp fault?_eq_some.1 fun ⟨type, htype⟩ => ⟨type, fault?_eq_some.1 htype⟩
  succeeds a ha := by
    rw [fault?_eq_none.2 ⟨a, ha⟩] at alike
    exact alike.imp fault?_eq_none.1 fun ⟨type, htype⟩ => ⟨type, fault?_eq_some.1 htype⟩
  accepts a ha := by
    rw [fault?_eq_none.2 ⟨a, ha⟩] at alike
    rcases alike with heq | ⟨type, htype⟩
    · exact fault?_eq_none.1 heq.symm
    · cases htype
  refuses type ver := by
    rw [← fault?_eq_some, hfault, findSome?_faultAt_eq_some]
    simp only [faultAt_v3_eq_unsupported]
    constructor
    · intro hreached
      obtain ⟨q, hq, hver, v, rfl, harray⟩ := hreached
      exact ⟨hver, v, hq, harray⟩
    · intro hreached
      obtain ⟨hver, v, hq, harray⟩ := hreached
      exact ⟨_, hq, hver, v, rfl, harray⟩
  agrees a ha complete := by
    -- A run that succeeds has come to every position.
    refine repeated a ha ?_
    rw [reached_eq_self (hfault.symm.trans (fault?_eq_none.2 ⟨a, ha⟩))] at complete
    exact complete

/-- Version 3 restricts version 4. A run under version 3 fails as the run under version
    4 does, or is refused at an array type that it comes to; and if it succeeds where no
    field is absent, the bytes are those of version 4. -/
theorem v3_restricts_v4 (h : Hash) (s : Session) (type name : String) (v : Json) :
    Restricts s.schema ((s.under .v3).reached (s.schema.positions .v3 type v))
        ((s.under .v3).encodeField h type v) ((s.under .v4).encodeField h type v) ∧
      Restricts s.schema ((s.under .v3).reached (s.schema.structPositions .v3 name v))
        ((s.under .v3).encodeData h name v) ((s.under .v4).encodeData h name v) := by
  constructor
  · refine restricts_of (fault?_encodeField type v) ?_ fun w hw complete => ?_
    · rw [encodeField, encodeField, fault?_map, fault?_map]
      exact alikeOrRefused_layoutField type v
    · obtain ⟨p, hp, rfl⟩ := map_eq_ok.1 hw
      exact map_eq_ok.2 ⟨p, layoutField_of_within (within_v4 s) hp (.inr complete), rfl⟩
  · refine restricts_of (fault?_encodeData name v) ?_ fun bs hbs complete => ?_
    · rw [encodeData, encodeData, fault?_map, fault?_map]
      exact alikeOrRefused_layoutData_of name v fun w _ type => alikeOrRefused_layoutField type w
    · obtain ⟨ps, hps, rfl⟩ := map_eq_ok.1 hbs
      exact map_eq_ok.2 ⟨ps, layoutData_of_within (within_v4 s) hps (.inr complete), rfl⟩

end TypedMessage.Session
