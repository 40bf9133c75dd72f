import TypedMessage.Session
import Mathlib.Data.List.Forall2

/- The layout of values, read as equations. Each of the three functions that lay
   a value out gets one statement of what it answers, and `Json.child_induction`
   is the induction that follows them into a value; what is proved about
   encodings rests on these and never unfolds the recursion. -/
namespace TypedMessage

/-! ## Runs that may fail -/

theorem map_eq_ok {ε α β : Type} {x : Except ε α} {f : α → β} {b : β} :
    x.map f = .ok b ↔ ∃ a, x = .ok a ∧ f a = b := by
  cases x <;> simp [Except.map]

theorem mapError_eq_ok {ε ε' α : Type} {x : Except ε α} {f : ε → ε'} {a : α} :
    x.mapError f = .ok a ↔ x = .ok a := by
  cases x <;> simp [Except.mapError]

theorem bind_eq_ok {ε α β : Type} {x : Except ε α} {f : α → Except ε β} {b : β} :
    x >>= f = .ok b ↔ ∃ a, x = .ok a ∧ f a = .ok b := by
  cases x <;> simp [bind, Except.bind]

theorem bind_ok_eq_map {ε α β : Type} {x : Except ε α} {f : α → β} :
    (x >>= fun a => .ok (f a)) = x.map f := by
  cases x <;> rfl

/-- A list of runs succeeds if every one of them does. -/
theorem mapM_eq_ok {ε α β : Type} {f : α → Except ε β} {xs : List α} {ys : List β} :
    xs.mapM f = .ok ys ↔ List.Forall₂ (fun x y => f x = .ok y) xs ys := by
  induction xs generalizing ys with
  | nil => simp [pure, Except.pure, eq_comm]
  | cons x xs ih =>
    simp only [List.mapM_cons, bind_eq_ok, ih, List.forall₂_cons_left_iff, pure,
      Except.pure, Except.ok.injEq]
    constructor
    · intro run
      obtain ⟨y, hy, zs, hzs, rfl⟩ := run
      exact ⟨y, zs, hy, hzs, rfl⟩
    · intro run
      obtain ⟨y, zs, hy, hzs, rfl⟩ := run
      exact ⟨y, hy, zs, hzs, rfl⟩

/-- Two runs over a list are the same if each step is the same once the steps before
    it have succeeded. -/
theorem mapM_congr {ε α β : Type} {f g : α → Except ε β} {xs : List α}
    (h : ∀ before x after, xs = before ++ x :: after → (∀ y ∈ before, ∃ b, f y = .ok b) →
      g x = f x) : xs.mapM g = xs.mapM f := by
  induction xs with
  | nil => rfl
  | cons x xs ih =>
    rw [List.mapM_cons, List.mapM_cons, h [] x xs rfl (List.forall_mem_nil _)]
    cases hx : f x with
    | error e => rfl
    | ok b =>
      rw [ih fun before y after hxs earlier =>
        h (x :: before) y after (congrArg _ hxs) (List.forall_mem_cons.2 ⟨⟨b, hx⟩, earlier⟩)]

theorem mapM_map {ε α β γ : Type} (f : α → Except ε β) (g : β → γ) (xs : List α) :
    (xs.mapM fun x => (f x).map g) = (xs.mapM f).map (List.map g) := by
  induction xs with
  | nil => rfl
  | cons x xs ih =>
    rw [List.mapM_cons, List.mapM_cons, ih]
    cases f x <;> cases xs.mapM f <;> rfl

theorem mapM_mapError {ε ε' α β : Type} (f : α → Except ε β) (g : ε → ε') (xs : List α) :
    (xs.mapM fun x => (f x).mapError g) = (xs.mapM f).mapError g := by
  induction xs with
  | nil => rfl
  | cons x xs ih =>
    rw [List.mapM_cons, List.mapM_cons, ih]
    cases f x <;> cases xs.mapM f <;> rfl

theorem exists_mem_of_forall₂ {α β : Type} {R : α → β → Prop} {xs : List α} {ys : List β}
    (h : List.Forall₂ R xs ys) {y : β} (hy : y ∈ ys) : ∃ x ∈ xs, R x y := by
  induction h with
  | nil => cases hy
  | cons hxy _ ih =>
    rcases List.mem_cons.1 hy with rfl | hy
    · exact ⟨_, List.mem_cons_self, hxy⟩
    · obtain ⟨x, hx, hr⟩ := ih hy
      exact ⟨x, List.mem_cons_of_mem _ hx, hr⟩

/-- A list of runs can succeed if each of them can. -/
theorem exists_forall₂_iff {α β : Type} {R : α → β → Prop} {xs : List α} :
    (∃ ys, List.Forall₂ R xs ys) ↔ ∀ x ∈ xs, ∃ y, R x y := by
  constructor
  · intro hys
    obtain ⟨ys, h⟩ := hys
    induction h with
    | nil => exact List.forall_mem_nil _
    | cons hxy _ ih => exact List.forall_mem_cons.2 ⟨⟨_, hxy⟩, ih⟩
  · intro h
    induction xs with
    | nil => exact ⟨[], .nil⟩
    | cons x xs ih =>
      obtain ⟨⟨y, hy⟩, hxs⟩ := List.forall_mem_cons.1 h
      obtain ⟨ys, hys⟩ := ih hxs
      exact ⟨y :: ys, .cons hy hys⟩

theorem exists_common_of_forall₂ {α β : Type} {R : α → β → Prop} {xs xs' : List α} {ys : List β}
    (h : List.Forall₂ R xs ys) (h' : List.Forall₂ R xs' ys) {x x' : α}
    (hx : (x, x') ∈ xs.zip xs') : ∃ y, R x y ∧ R x' y := by
  induction h generalizing xs' with
  | nil => cases hx
  | cons hxy _ ih =>
    cases h' with
    | cons hxy' h' =>
      rcases List.mem_cons.1 hx with hx | hx
      · cases hx
        exact ⟨_, hxy, hxy'⟩
      · exact ih h' hx

/-! ## The values inside a value -/

namespace Json

/-- The items of an array, the member values of an object. -/
def children : Json → List Json
  | array items => items
  | object members => members.map (·.2)
  | _ => []

theorem sizeOf_lt_of_mem_children {v w : Json} (h : w ∈ v.children) : sizeOf w < sizeOf v := by
  cases v with
  | array items =>
    have := List.sizeOf_lt_of_mem (show w ∈ items from h)
    simp only [array.sizeOf_spec]
    omega
  | object members =>
    obtain ⟨⟨k, u⟩, hm, rfl⟩ := List.mem_map.1 h
    have := List.sizeOf_lt_of_mem hm
    simp only [object.sizeOf_spec, Prod.mk.sizeOf_spec] at this ⊢
    omega
  | _ => simp [children] at h

/-- What holds of a value once it holds of the values in it holds of all values. -/
theorem child_induction {motive : Json → Prop}
    (step : ∀ v, (∀ w ∈ v.children, motive w) → motive v) (v : Json) : motive v :=
  step v fun w _ => child_induction step w
termination_by sizeOf v
decreasing_by exact sizeOf_lt_of_mem_children ‹_›

theorem mem_children_of_findEntry {k : String} {members : List (String × Json)} {v : Json}
    (h : findEntry k members = some v) : v ∈ (object members).children :=
  List.mem_map.2 ⟨_, mem_of_findEntry h, rfl⟩

end Json

/-! ## Leaves -/

section Leaves
variable {enforce : Bool} {v : Json} {p : Slot}

theorem Json.asText_eq_ok {t : String} : v.asText = .ok t ↔ v = .string t := by
  cases v <;> simp [Json.asText]

namespace Leaf

theorem uintWord_eq_ok {bits : Nat} {n : Int} {x : Word} :
    uintWord enforce bits n = .ok x ↔
      0 ≤ n ∧ (enforce = true → n < 2 ^ bits) ∧ x = .ofInt n := by
  unfold uintWord
  split
  case isTrue hneg => simp [Int.not_le.2 hneg]
  case isFalse hneg =>
    split
    case isTrue hover => simp [hover.1, Int.not_lt.2 hover.2]
    case isFalse hover =>
      have fits : enforce = true → n < 2 ^ bits := fun he =>
        Int.not_le.1 fun hle => hover ⟨he, hle⟩
      exact ⟨fun h => ⟨Int.not_lt.1 hneg, fits, (Except.ok.inj h).symm⟩, fun h => h.2.2 ▸ rfl⟩

theorem intWord_eq_ok {bits : Nat} {n : Int} {x : Word} :
    intWord enforce bits n = .ok x ↔
      (-2 ^ ((if enforce then bits else 256) - 1) ≤ n ∧
        n < 2 ^ ((if enforce then bits else 256) - 1)) ∧ x = .ofInt n := by
  simp only [intWord]
  generalize (if enforce then bits else 256) = width
  by_cases fits : -(2 : Int) ^ (width - 1) ≤ n ∧ n < 2 ^ (width - 1)
  · rw [if_pos fits]
    exact ⟨fun h => ⟨fits, (Except.ok.inj h).symm⟩, fun h => h.2 ▸ rfl⟩
  · rw [if_neg fits]
    exact ⟨fun h => (nomatch h), fun h => absurd h.1 fits⟩

theorem slot_text_eq_ok :
    text.slot enforce v = .ok p ↔ ∃ t, v = .string t ∧ p = .content (utf8 t) := by
  simp [slot, bind_eq_ok, Json.asText_eq_ok, pure, Except.pure, eq_comm (a := p)]

theorem slot_bytes_eq_ok :
    bytes.slot enforce v = .ok p ↔ ∃ bs, v.asBytes = .ok bs ∧ p = .content bs := by
  simp [slot, bind_eq_ok, pure, Except.pure, eq_comm (a := p)]

theorem slot_bool_eq_ok :
    bool.slot enforce v = .ok p ↔ ∃ b, v = .bool b ∧ p = .word (.ofBool b) := by
  cases v <;> simp [slot, eq_comm (a := p)]

theorem slot_address_eq_ok :
    address.slot enforce v = .ok p ↔
      ∃ bs, ∃ h : bs.length = 20, v.asBytes = .ok bs ∧
        p = .word (.padLeft bs (Nat.le_trans (Nat.le_of_eq h) (by decide))) := by
  simp only [slot, bind_eq_ok]
  constructor
  · intro run
    obtain ⟨bs, hbs, h⟩ := run
    split at h
    case isTrue hl => exact ⟨bs, hl, hbs, (Except.ok.inj h).symm⟩
    case isFalse => cases h
  · intro run
    obtain ⟨bs, hl, hbs, rfl⟩ := run
    exact ⟨bs, hbs, dif_pos hl⟩

theorem slot_fixedBytes_eq_ok {size : Nat} {size_le : size ≤ 32} :
    (fixedBytes size size_le).slot enforce v = .ok p ↔
      ∃ bs, ∃ h : bs.length ≤ size, v.asBytes = .ok bs ∧
        p = .word (.padRight bs (Nat.le_trans h size_le)) := by
  simp only [slot, bind_eq_ok]
  constructor
  · intro run
    obtain ⟨bs, hbs, h⟩ := run
    split at h
    case isTrue hl => exact ⟨bs, hl, hbs, (Except.ok.inj h).symm⟩
    case isFalse => cases h
  · intro run
    obtain ⟨bs, hl, hbs, rfl⟩ := run
    exact ⟨bs, hbs, dif_pos hl⟩

theorem slot_uint_eq_ok {bits : Nat} :
    (uint bits).slot enforce v = .ok p ↔
      ∃ n x, v.asInteger = .ok n ∧ uintWord enforce bits n = .ok x ∧ p = .word x := by
  simp [slot, bind_eq_ok, pure, Except.pure, eq_comm (a := p)]

theorem slot_int_eq_ok {bits : Nat} :
    (int bits).slot enforce v = .ok p ↔
      ∃ n x, v.asInteger = .ok n ∧ intWord enforce bits n = .ok x ∧ p = .word x := by
  simp [slot, bind_eq_ok, pure, Except.pure, eq_comm (a := p)]

/-- A leaf that is encoded in place is a word of its own. -/
theorem exists_word_of_slot {l : Leaf} (ha : l.isAtomic = true) (h : l.slot enforce v = .ok p) :
    ∃ x, p = .word x := by
  cases l with
  | text => cases ha
  | bytes => cases ha
  | bool => obtain ⟨b, -, rfl⟩ := slot_bool_eq_ok.1 h; exact ⟨_, rfl⟩
  | address => obtain ⟨bs, hl, -, rfl⟩ := slot_address_eq_ok.1 h; exact ⟨_, rfl⟩
  | fixedBytes size size_le =>
    obtain ⟨bs, hl, -, rfl⟩ := slot_fixedBytes_eq_ok.1 h; exact ⟨_, rfl⟩
  | uint bits => obtain ⟨n, x, -, -, rfl⟩ := slot_uint_eq_ok.1 h; exact ⟨x, rfl⟩
  | int bits => obtain ⟨n, x, -, -, rfl⟩ := slot_int_eq_ok.1 h; exact ⟨x, rfl⟩

end Leaf
end Leaves

/-! ## Layouts -/

namespace Session
variable {s : Session} {type element name : String} {v : Json} {p : Slot}

theorem layoutItems_eq (items : List Json) :
    s.layoutItems element items = items.mapM (s.layoutField element) := by
  induction items with
  | nil => simp [layoutItems, pure, Except.pure]
  | cons v items ih => simp [layoutItems, ih]

theorem layoutMember_eq (f : Field) (members : List (String × Json)) :
    s.layoutMember f members =
      match findEntry f.name members with
      | none => .ok none
      | some v => (s.layoutField f.type v).map some := by
  induction members with
  | nil => simp [layoutMember, findEntry]
  | cons m members ih =>
    obtain ⟨k, v⟩ := m
    simp only [layoutMember, findEntry]
    split
    case isTrue => exact bind_ok_eq_map
    case isFalse => exact ih

theorem layoutMember_eq_ok {f : Field} {members : List (String × Json)} {o : Option Slot} :
    s.layoutMember f members = .ok o ↔
      (findEntry f.name members = none ∧ o = none) ∨
        ∃ v p, findEntry f.name members = some v ∧ s.layoutField f.type v = .ok p ∧ o = some p := by
  rw [layoutMember_eq]
  cases findEntry f.name members <;> simp [map_eq_ok, eq_comm (a := o)]

theorem layoutField_invalid (ht : FieldType.parse? type = none) (v : Json) :
    s.layoutField type v = .error (.invalidType type) := by
  rw [layoutField.eq_def, ht]

theorem layoutField_leaf {l : Leaf} (ht : FieldType.parse? type = some (.leaf l)) (v : Json) :
    s.layoutField type v = (l.slot s.enforceWidth v).mapError (.malformed type) := by
  rw [layoutField.eq_def, ht]

theorem layoutField_struct (ht : FieldType.parse? type = some (.struct name)) (v : Json) :
    s.layoutField type v = (s.layoutData name v).map .group := by
  rw [layoutField.eq_def, ht]
  cases v <;> rfl

theorem layoutField_array {length : Option Nat}
    (ht : FieldType.parse? type = some (.array element length)) (v : Json) :
    s.layoutField type v =
      if s.version.hasArrays then
        match v with
        | .array items =>
          match length.filter (· ≠ items.length) with
          | some expected => .error (.malformed type (.elementCount expected items.length))
          | none => (items.mapM (s.layoutField element)).map .group
        | v => .error (.malformed type (.wrongKind "array" v.kind))
      else .error (.unsupported type s.version) := by
  rw [layoutField.eq_def, ht]
  cases v with
  | array items => simp only [← layoutItems_eq]; rfl
  | _ => rfl

theorem fits_iff {length : Option Nat} {n : Nat} :
    length.filter (· ≠ n) = none ↔ ∀ k ∈ length, k = n := by
  simp [Option.filter_eq_none_iff]

theorem layoutField_array_eq_ok {length : Option Nat}
    (ht : FieldType.parse? type = some (.array element length)) :
    s.layoutField type v = .ok p ↔
      s.version.hasArrays = true ∧ ∃ items ps, v = .array items ∧ (∀ k ∈ length, k = items.length) ∧
        List.Forall₂ (fun v p => s.layoutField element v = .ok p) items ps ∧ p = .group ps := by
  rw [layoutField_array ht]
  by_cases hv : s.version.hasArrays = true
  case neg => simp [hv]
  cases v with
  | array items =>
    simp only [hv, if_true, true_and, Json.array.injEq, exists_and_left, exists_eq_left',
      ← fits_iff]
    cases length.filter (· ≠ items.length) with
    | some k => simp
    | none => simp only [map_eq_ok, mapM_eq_ok, eq_comm (a := p), true_and]
  | _ => simp [hv]

/-- The slots of a struct's fields: of those in the value their own, of the others
    what an absent field has. -/
def memberSlots (s : Session) (os : List (Option Slot)) : List Slot :=
  os.flatMap fun o => o.elim s.absentSlots ([·])

theorem layoutData_eq_ok {ps : List Slot} :
    s.layoutData name v = .ok ps ↔
      ∃ fields members os, s.schema.get? name = some fields ∧ v = .object members ∧
        List.Forall₂ (fun f o => s.layoutMember f members = .ok o) fields os ∧
        ps = .content (utf8 (s.schema.typeString name)) :: s.memberSlots os := by
  cases v with
  | object members =>
    simp only [layoutData, structSlots]
    cases s.schema.get? name with
    | none => simp
    | some fields =>
      simp [bind_eq_ok, mapM_eq_ok, pure, Except.pure, memberSlots, eq_comm (a := ps)]
  | _ =>
    simp only [layoutData, structSlots]
    cases s.schema.get? name <;> simp [Json.kind]

end Session
end TypedMessage
