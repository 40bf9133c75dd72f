import TypedMessage.Proofs.Faults

/- One value in two sessions that share their schema. If the second takes at every
   single position what the first takes there (`Session.Within`), then whatever the
   first lays out the second lays out with the same slots, unless a field is absent
   and they treat that differently (`layoutField_of_within`). -/
namespace TypedMessage

/-! ## Positions inside positions -/

/-- Every field that the struct declares is present. -/
def Position.Complete (d : Schema) : Position → Prop
  | .struct name (.object members) =>
    ∀ f ∈ d.fieldsOf name, (findEntry f.name members).isSome = true
  | _ => True

namespace Schema
variable {d : Schema} {ver : Version} {type element name : String} {length : Option Nat}
  {q : Position}

theorem mem_positions_of_item {items : List Json} {w : Json}
    (ht : FieldType.parse? type = some (.array element length)) (hver : ver.hasArrays = true)
    (fits : ∀ k ∈ length, k = items.length) (hw : w ∈ items)
    (hq : q ∈ d.positions ver element w) : q ∈ d.positions ver type (.array items) := by
  rw [positions_array ht]
  show q ∈ _ :: if _ then _ else _
  rw [if_pos ⟨hver, Session.fits_iff.2 fits⟩]
  exact List.mem_cons_of_mem _ (List.mem_flatMap.2 ⟨w, hw, hq⟩)

theorem mem_structPositions_of_member {members : List (String × Json)} {f : Field} {w : Json}
    (hf : f ∈ d.fieldsOf name) (hw : findEntry f.name members = some w)
    (hq : q ∈ d.positions ver f.type w) : q ∈ d.structPositions ver name (.object members) := by
  have hmember : q ∈ d.memberPositions ver f members := by
    rw [memberPositions_eq, hw]
    exact hq
  rw [structPositions_object]
  exact List.mem_cons_of_mem _ (List.mem_flatMap.2 ⟨f, hf, hmember⟩)

theorem mem_positions_of_struct {v : Json} (ht : FieldType.parse? type = some (.struct name))
    (hq : q ∈ d.structPositions ver name v) : q ∈ d.positions ver type v := by
  rw [positions_struct ht]
  exact List.mem_cons_of_mem _ hq

end Schema

/-! ## A session that asks for less -/

namespace Session
variable {s s' : Session}

/-- What `s` takes at a single position `s'` takes too. -/
structure Within (s s' : Session) : Prop where
  schema : s'.schema = s.schema
  leaves : ∀ type l, FieldType.parse? type = some (.leaf l) → ∀ v p,
    Leaf.slot s.enforceWidth l v = .ok p → Leaf.slot s'.enforceWidth l v = .ok p
  arrays : s.version.hasArrays = true → s'.version.hasArrays = true

/-- The sessions treat absent fields alike, or there are none at these positions. -/
def AbsentAlike (s s' : Session) (qs : List Position) : Prop :=
  s'.version = s.version ∨ ∀ q ∈ qs, q.Complete s.schema

theorem AbsentAlike.mono {qs qs' : List Position} (h : AbsentAlike s s' qs)
    (hsub : ∀ q ∈ qs', q ∈ qs) : AbsentAlike s s' qs' :=
  h.imp_right fun complete q hq => complete q (hsub q hq)

theorem memberSlots_congr {os : List (Option Slot)}
    (h : s'.version = s.version ∨ ∀ o ∈ os, o.isSome = true) :
    s'.memberSlots os = s.memberSlots os := by
  rcases h with hver | hall
  · simp only [memberSlots, absentSlots, hver]
  · induction os with
    | nil => rfl
    | cons o os ih =>
      obtain ⟨ho, hos⟩ := List.forall_mem_cons.1 hall
      obtain ⟨p, rfl⟩ := Option.isSome_iff_exists.1 ho
      have htail := ih hos
      simp only [memberSlots, List.flatMap_cons] at htail ⊢
      rw [htail]
      rfl

theorem isSome_of_layoutMember {f : Field} {members : List (String × Json)} {o : Option Slot}
    (ho : s.layoutMember f members = .ok o) (hf : (findEntry f.name members).isSome = true) :
    o.isSome = true := by
  rcases layoutMember_eq_ok.1 ho with ⟨hnone, -⟩ | ⟨v, p, -, -, rfl⟩
  · rw [hnone] at hf
    cases hf
  · rfl

theorem layoutData_of_within_of (hin : Within s s') {name : String} {v : Json} {ps : List Slot}
    (hps : s.layoutData name v = .ok ps)
    (alike : AbsentAlike s s' (s.schema.structPositions s.version name v))
    (inner : ∀ w ∈ v.children, ∀ type p, s.layoutField type w = .ok p →
      AbsentAlike s s' (s.schema.positions s.version type w) → s'.layoutField type w = .ok p) :
    s'.layoutData name v = .ok ps := by
  obtain ⟨fields, members, os, hfields, rfl, hos, rfl⟩ := layoutData_eq_ok.1 hps
  have hdeclared : s.schema.fieldsOf name = fields := by
    rw [Schema.fieldsOf, hfields]
    rfl
  -- Field by field the slots are the same, as the member lies inside the value.
  have hos' : List.Forall₂ (fun f o => s'.layoutMember f members = .ok o) fields os := by
    refine (List.forall₂_iff_zip.2 ⟨hos.length_eq, fun {f o} hfo => ?_⟩)
    rcases layoutMember_eq_ok.1 (List.forall₂_zip hos hfo) with ⟨hnone, rfl⟩ | ⟨w, p, hw, hp, rfl⟩
    · exact layoutMember_eq_ok.2 (.inl ⟨hnone, rfl⟩)
    · have hf : f ∈ s.schema.fieldsOf name := hdeclared ▸ (List.of_mem_zip hfo).1
      refine layoutMember_eq_ok.2 (.inr ⟨w, p, hw, ?_, rfl⟩)
      refine inner w (Json.mem_children_of_findEntry hw) _ _ hp (alike.mono fun q hq => ?_)
      exact Schema.mem_structPositions_of_member hf hw hq
  -- An absent field has a slot of the session's choice, which is where they may differ.
  have hslots : s'.memberSlots os = s.memberSlots os := by
    refine memberSlots_congr (alike.imp_right fun complete o ho => ?_)
    obtain ⟨f, hf, hfo⟩ := exists_mem_of_forall₂ hos ho
    have hcomplete := complete (.struct name (.object members)) List.mem_cons_self
    exact isSome_of_layoutMember hfo (hcomplete f (hdeclared ▸ hf))
  refine layoutData_eq_ok.2 ⟨fields, members, os, hin.schema ▸ hfields, rfl, hos', ?_⟩
  rw [hin.schema, hslots]

/-- What a session lays out is laid out alike by a session that asks for less. -/
theorem layoutField_of_within (hin : Within s s') {type : String} {v : Json} {p : Slot}
    (hp : s.layoutField type v = .ok p)
    (alike : AbsentAlike s s' (s.schema.positions s.version type v)) :
    s'.layoutField type v = .ok p := by
  induction v using Json.child_induction generalizing type p with
  | step v ih =>
  cases ht : FieldType.parse? type with
  | none =>
    rw [layoutField_invalid ht] at hp
    cases hp
  | some t =>
    cases t with
    | leaf l =>
      rw [layoutField_leaf ht, mapError_eq_ok] at hp ⊢
      exact hin.leaves type l ht v p hp
    | array element length =>
      obtain ⟨hver, items, ps, rfl, fits, hps, rfl⟩ := (layoutField_array_eq_ok ht).1 hp
      refine (layoutField_array_eq_ok ht).2 ⟨hin.arrays hver, items, ps, rfl, fits, ?_, rfl⟩
      refine List.forall₂_iff_zip.2 ⟨hps.length_eq, fun {w p} hwp => ?_⟩
      have hw : w ∈ items := (List.of_mem_zip hwp).1
      refine ih w hw (List.forall₂_zip hps hwp) (alike.mono fun q hq => ?_)
      exact Schema.mem_positions_of_item ht hver fits hw hq
    | struct name =>
      rw [layoutField_struct ht, map_eq_ok] at hp ⊢
      obtain ⟨ps, hps, rfl⟩ := hp
      refine ⟨ps, layoutData_of_within_of hin hps (alike.mono fun q hq => ?_) ?_, rfl⟩
      · exact Schema.mem_positions_of_struct ht hq
      · exact fun w hw type p hp alike => ih w hw hp alike

theorem layoutData_of_within (hin : Within s s') {name : String} {v : Json} {ps : List Slot}
    (hps : s.layoutData name v = .ok ps)
    (alike : AbsentAlike s s' (s.schema.structPositions s.version name v)) :
    s'.layoutData name v = .ok ps :=
  layoutData_of_within_of hin hps alike fun _ _ _ _ hp alike => layoutField_of_within hin hp alike

end Session
end TypedMessage
