import TypedMessage.Proofs.Comparison
import TypedMessage.Proofs.Digest
import TypedMessage.Proofs.TypeNames

/- What enforcing widths changes. Only integers outside the range of their type are
   treated differently (`faultAt_enforcing_of_fits`, `faultAt_enforcing_of_overflows`),
   so a run that enforces widths ends at the first of them, and without one it is the
   run that does not (`enforcement_only_rejects`). -/
namespace TypedMessage

open FieldType (parse?)

/-- An integer stands at this position that is outside the range of its type, which has
    this many bits. -/
inductive Position.Overflows : Position → Nat → Prop
  | uint {type : String} {v : Json} {bits : Nat} {n : Int}
      (parsed : parse? type = some (.leaf (.uint bits))) (integer : v.asInteger = .ok n)
      (outside : ¬ (0 ≤ n ∧ n < 2 ^ bits)) : Overflows (.field type v) bits
  | int {type : String} {v : Json} {bits : Nat} {n : Int}
      (parsed : parse? type = some (.leaf (.int bits))) (integer : v.asInteger = .ok n)
      (outside : ¬ (-2 ^ (bits - 1) ≤ n ∧ n < 2 ^ (bits - 1))) : Overflows (.field type v) bits

/-! ## Integers -/

namespace Leaf
variable {enforce : Bool} {bits : Nat} {v : Json} {n : Int}

theorem slot_uint (hn : v.asInteger = .ok n) :
    (uint bits).slot enforce v = (uintWord enforce bits n).map .word := by
  rw [slot, hn]
  exact bind_ok_eq_map

theorem slot_int (hn : v.asInteger = .ok n) :
    (int bits).slot enforce v = (intWord enforce bits n).map .word := by
  rw [slot, hn]
  exact bind_ok_eq_map

theorem slot_uint_unread {fault : Malformation} (hn : v.asInteger = .error fault) :
    (uint bits).slot enforce v = .error fault := by
  rw [slot, hn]
  rfl

theorem slot_int_unread {fault : Malformation} (hn : v.asInteger = .error fault) :
    (int bits).slot enforce v = .error fault := by
  rw [slot, hn]
  rfl

theorem uintWord_of_fits (hfits : 0 ≤ n ∧ n < 2 ^ bits) :
    uintWord enforce bits n = .ok (.ofInt n) := by
  rw [uintWord, if_neg (by omega), if_neg (fun hover => by omega)]

theorem uintWord_of_overflow (hover : (2 : Int) ^ bits ≤ n) :
    uintWord true bits n = .error (.exceeds bits) := by
  have hpos : (0 : Int) < 2 ^ bits := Int.pow_pos (by decide)
  rw [uintWord, if_neg (by omega), if_pos ⟨rfl, hover⟩]

theorem uintWord_of_neg (hneg : n < 0) : uintWord enforce bits n = .error .negative := by
  rw [uintWord, if_pos hneg]

theorem pow_pred_le (hbits : bits ≤ 256) : (2 : Int) ^ (bits - 1) ≤ 2 ^ (256 - 1) := by
  have hnat : (2 : Nat) ^ (bits - 1) ≤ 2 ^ (256 - 1) :=
    Nat.pow_le_pow_right (by decide) (by omega)
  exact_mod_cast hnat

theorem intWord_of_fits (hbits : bits ≤ 256) (hfits : -2 ^ (bits - 1) ≤ n ∧ n < 2 ^ (bits - 1)) :
    intWord enforce bits n = .ok (.ofInt n) := by
  have hword := pow_pred_le hbits
  cases enforce with
  | true => rw [intWord, if_pos rfl, if_pos hfits]
  | false =>
    -- The limit is then that of a word, which is no smaller.
    simp only [intWord, Bool.false_eq_true, if_false]
    rw [if_pos ⟨by omega, by omega⟩]

theorem intWord_of_overflow (hover : ¬ (-2 ^ (bits - 1) ≤ n ∧ n < 2 ^ (bits - 1))) :
    intWord true bits n = .error (.exceeds bits) := by
  rw [intWord, if_pos rfl, if_neg hover]

end Leaf

/-! ## Positions -/

namespace Session
variable {s : Session}

/-- The session with widths enforced, or not. -/
def enforcing (s : Session) (on : Bool) : Session := { s with enforceWidth := on }

theorem enforceWidth_enforcing (s : Session) (on : Bool) : (s.enforcing on).enforceWidth = on :=
  rfl

theorem faultAt_enforcing_of_fits {q : Position} (hfits : ∀ bits, ¬ q.Overflows bits) :
    (s.enforcing true).faultAt q = (s.enforcing false).faultAt q := by
  cases q with
  | struct name v => rfl
  | field type v =>
    show (s.enforcing true).fieldFault type v = (s.enforcing false).fieldFault type v
    cases ht : parse? type with
    | none => rw [fieldFault, fieldFault, ht]
    | some t =>
      cases t with
      | array element length => rw [fieldFault, fieldFault, ht]; rfl
      | struct name => rw [fieldFault, fieldFault, ht]
      | leaf l =>
        rw [fieldFault_leaf ht, fieldFault_leaf ht]
        cases l with
        | uint bits =>
          cases hn : v.asInteger with
          | error fault => rw [Leaf.slot_uint_unread hn, Leaf.slot_uint_unread hn]
          | ok n =>
            have hin : 0 ≤ n ∧ n < 2 ^ bits :=
              Decidable.not_not.1 fun hout => hfits bits (.uint ht hn hout)
            rw [Leaf.slot_uint hn, Leaf.slot_uint hn, Leaf.uintWord_of_fits hin,
              Leaf.uintWord_of_fits hin]
        | int bits =>
          cases hn : v.asInteger with
          | error fault => rw [Leaf.slot_int_unread hn, Leaf.slot_int_unread hn]
          | ok n =>
            have hbits : bits ≤ 256 := FieldType.bits_le_of_parse?_int ht
            have hin : -2 ^ (bits - 1) ≤ n ∧ n < 2 ^ (bits - 1) :=
              Decidable.not_not.1 fun hout => hfits bits (.int ht hn hout)
            rw [Leaf.slot_int hn, Leaf.slot_int hn, Leaf.intWord_of_fits hbits hin,
              Leaf.intWord_of_fits hbits hin]
        | _ => rfl

/-- An integer that does not fit is at fault if widths are enforced. If it is at fault
    for that reason alone, the fault names the width. -/
theorem faultAt_enforcing_of_overflows {q : Position} {bits : Nat} (hover : q.Overflows bits) :
    ((s.enforcing true).faultAt q).isSome = true ∧
      ∃ type v, q = .field type v ∧ ((s.enforcing false).faultAt q = none →
        (s.enforcing true).faultAt q = some (.malformed type (.exceeds bits))) := by
  cases hover with
  | @uint type v _ n parsed integer outside =>
    simp only [faultAt, fieldFault_leaf parsed, enforceWidth_enforcing, Leaf.slot_uint integer,
      fault?_map]
    -- A negative number is refused in either case, so only the first part speaks of it.
    by_cases hneg : n < 0
    · rw [Leaf.uintWord_of_neg hneg, Leaf.uintWord_of_neg hneg]
      exact ⟨rfl, type, v, rfl, fun hnone => by cases hnone⟩
    · have hpow : (2 : Int) ^ bits ≤ n := by omega
      rw [Leaf.uintWord_of_overflow hpow]
      exact ⟨rfl, type, v, rfl, fun _ => rfl⟩
  | @int type v _ n parsed integer outside =>
    simp only [faultAt, fieldFault_leaf parsed, enforceWidth_enforcing, Leaf.slot_int integer,
      fault?_map]
    rw [Leaf.intWord_of_overflow outside]
    exact ⟨rfl, type, v, rfl, fun _ => rfl⟩

/-! ## Runs -/

section Runs
variable {qs : List Position}

/-- Where widths are not enforced a run fails no more often. -/
theorem isSome_enforcing_of_isSome (h : (qs.findSome? (s.enforcing false).faultAt).isSome = true) :
    (qs.findSome? (s.enforcing true).faultAt).isSome = true := by
  rw [List.findSome?_isSome_iff] at h ⊢
  obtain ⟨q, hq, hfault⟩ := h
  refine ⟨q, hq, ?_⟩
  by_cases hfits : ∀ bits, ¬ q.Overflows bits
  · rwa [faultAt_enforcing_of_fits hfits]
  · obtain ⟨bits, hover⟩ := not_forall_not.1 hfits
    exact (faultAt_enforcing_of_overflows hover).1

/-- What is at fault only because widths are enforced is the first integer that does not
    fit. -/
theorem first_overflow {e : Fault} (hloose : qs.findSome? (s.enforcing false).faultAt = none)
    (hstrict : qs.findSome? (s.enforcing true).faultAt = some e) :
    ∃ before type v after bits, qs = before ++ .field type v :: after ∧
      (Position.field type v).Overflows bits ∧ (∀ q ∈ before, ∀ b, ¬ q.Overflows b) ∧
      e = .malformed type (.exceeds bits) := by
  rw [List.findSome?_eq_none_iff] at hloose
  obtain ⟨before, q, after, rfl, hq, hbefore⟩ := List.findSome?_eq_some_iff.1 hstrict
  have hsound : (s.enforcing false).faultAt q = none :=
    hloose q (List.mem_append_right _ List.mem_cons_self)
  have hover : ∃ bits, q.Overflows bits := by
    by_contra hfits
    rw [faultAt_enforcing_of_fits (not_exists.1 hfits), hsound] at hq
    cases hq
  obtain ⟨bits, hover⟩ := hover
  obtain ⟨-, type, v, rfl, hexceeds⟩ := faultAt_enforcing_of_overflows hover
  refine ⟨before, type, v, after, bits, rfl, hover, fun q' hq' b hb => ?_, ?_⟩
  · have hfault := (faultAt_enforcing_of_overflows (s := s) hb).1
    rw [hbefore q' hq'] at hfault
    cases hfault
  · exact Option.some.inj (hq.symm.trans (hexceeds hsound))

/-- As long as the integers fit, enforcing widths makes no difference. -/
theorem findSome?_enforcing_of_fits
    (h : ∀ q ∈ (s.enforcing false).reached qs, ∀ bits, ¬ q.Overflows bits) :
    qs.findSome? (s.enforcing true).faultAt = qs.findSome? (s.enforcing false).faultAt := by
  induction qs with
  | nil => rfl
  | cons q qs ih =>
    rw [List.findSome?_cons, List.findSome?_cons]
    cases hq : (s.enforcing false).faultAt q with
    | some e =>
      rw [reached_cons_of_fault (by rw [hq]; rfl), List.forall_mem_singleton] at h
      rw [faultAt_enforcing_of_fits h, hq]
    | none =>
      rw [reached_cons_of_sound hq, List.forall_mem_cons] at h
      rw [faultAt_enforcing_of_fits h.1, hq]
      exact ih h.2

end Runs

/-- What a run with widths enforced has to do with the run without, which comes to the
    positions `reached`. -/
structure OnlyRejects {α : Type} (reached : List Position) (loose strict : Except Fault α) :
    Prop where
  accepts : ∀ a, strict = .ok a → loose = .ok a
  fails : ∀ e, loose = .error e → ∃ e', strict = .error e'
  rejects : ∀ a e, loose = .ok a → strict = .error e →
    ∃ before type v after bits, reached = before ++ .field type v :: after ∧
      (Position.field type v).Overflows bits ∧ (∀ q ∈ before, ∀ b, ¬ q.Overflows b) ∧
      e = .malformed type (.exceeds bits)
  enforces : ∀ q ∈ reached, ∀ bits, q.Overflows bits → ∃ e, strict = .error e
  agrees : (∀ q ∈ reached, ∀ bits, ¬ q.Overflows bits) → strict = loose

theorem onlyRejects_of {α : Type} {qs : List Position} {loose strict : Except Fault α}
    (hloose : fault? loose = qs.findSome? (s.enforcing false).faultAt)
    (hstrict : fault? strict = qs.findSome? (s.enforcing true).faultAt)
    (repeated : ∀ a, strict = .ok a → loose = .ok a) :
    OnlyRejects ((s.enforcing false).reached qs) loose strict where
  accepts := repeated
  fails e he := by
    have hsome : (qs.findSome? (s.enforcing false).faultAt).isSome = true := by
      rw [← hloose, fault?_eq_some.2 he]
      rfl
    obtain ⟨e', he'⟩ := Option.isSome_iff_exists.1 (isSome_enforcing_of_isSome hsome)
    exact ⟨e', fault?_eq_some.1 (hstrict.trans he')⟩
  rejects a e ha he := by
    have hnone := hloose.symm.trans (fault?_eq_none.2 ⟨a, ha⟩)
    rw [reached_eq_self hnone]
    exact first_overflow hnone (hstrict.symm.trans (fault?_eq_some.2 he))
  enforces q hq bits hover := by
    have hsome : (qs.findSome? (s.enforcing true).faultAt).isSome = true :=
      List.findSome?_isSome_iff.2
        ⟨q, mem_of_mem_reached hq, (faultAt_enforcing_of_overflows hover).1⟩
    obtain ⟨e, he⟩ := Option.isSome_iff_exists.1 hsome
    exact ⟨e, fault?_eq_some.1 (hstrict.trans he)⟩
  agrees hfits := by
    have hfault : fault? strict = fault? loose := by
      rw [hstrict, hloose, findSome?_enforcing_of_fits hfits]
    cases hs : strict with
    | ok a => exact (repeated a hs).symm
    | error e =>
      rw [hs] at hfault
      exact (fault?_eq_some.1 hfault.symm).symm

/-! ## Encodings -/

theorem within_enforcing (s : Session) : Within (s.enforcing true) (s.enforcing false) where
  schema := rfl
  arrays := id
  leaves type l ht v p hp := by
    rw [enforceWidth_enforcing] at hp ⊢
    cases l with
    | uint bits =>
      obtain ⟨n, w, hn, hw, rfl⟩ := Leaf.slot_uint_eq_ok.1 hp
      obtain ⟨hnonneg, hlt, rfl⟩ := Leaf.uintWord_eq_ok.1 hw
      rw [Leaf.slot_uint hn, Leaf.uintWord_of_fits ⟨hnonneg, hlt rfl⟩]
      rfl
    | int bits =>
      obtain ⟨n, w, hn, hw, rfl⟩ := Leaf.slot_int_eq_ok.1 hp
      obtain ⟨hin, rfl⟩ := Leaf.intWord_eq_ok.1 hw
      rw [Leaf.slot_int hn, Leaf.intWord_of_fits (FieldType.bits_le_of_parse?_int ht) hin]
      rfl
    | _ => exact hp

theorem hashStruct_of_enforcing {h : Hash} {name : String} {v : Json} {w : Word}
    (hw : (s.enforcing true).hashStruct h name v = .ok w) :
    (s.enforcing false).hashStruct h name v = .ok w := by
  obtain ⟨ps, hps, rfl⟩ := hashStruct_eq_ok.1 hw
  exact hashStruct_eq_ok.2 ⟨ps, layoutData_of_within (within_enforcing s) hps (.inl rfl), rfl⟩

/-- Enforcing widths only rejects: a value that is still encoded has the same bytes, and
    one that is not has an integer that does not fit its type, the first of which is
    named. -/
theorem enforcement_only_rejects (h : Hash) (s : Session) (type name : String) (v : Json)
    (primary : String) (message domain : Json) :
    OnlyRejects ((s.enforcing false).reached (s.schema.positions s.version type v))
        ((s.enforcing false).encodeField h type v) ((s.enforcing true).encodeField h type v) ∧
      OnlyRejects ((s.enforcing false).reached (s.schema.structPositions s.version name v))
        ((s.enforcing false).encodeData h name v) ((s.enforcing true).encodeData h name v) ∧
      OnlyRejects
        ((s.enforcing false).reached (s.schema.signingPositions s.version primary message domain))
        ((s.enforcing false).signingHash h primary message domain)
        ((s.enforcing true).signingHash h primary message domain) := by
  refine ⟨?_, ?_, ?_⟩
  · refine onlyRejects_of (fault?_encodeField type v) (fault?_encodeField type v) fun w hw => ?_
    obtain ⟨p, hp, rfl⟩ := map_eq_ok.1 hw
    exact map_eq_ok.2 ⟨p, layoutField_of_within (within_enforcing s) hp (.inl rfl), rfl⟩
  · refine onlyRejects_of (fault?_encodeData name v) (fault?_encodeData name v) fun bs hbs => ?_
    obtain ⟨ps, hps, rfl⟩ := map_eq_ok.1 hbs
    exact map_eq_ok.2 ⟨ps, layoutData_of_within (within_enforcing s) hps (.inl rfl), rfl⟩
  · refine onlyRejects_of (fault?_signingHash primary message domain)
      (fault?_signingHash primary message domain) fun x hx => ?_
    obtain ⟨hdomain, hmessage, hdigest⟩ := signingHash_eq_ok.1 hx
    exact signingHash_eq_ok.2
      ⟨hashStruct_of_enforcing hdomain, hashStruct_of_enforcing hmessage, hdigest⟩

end Session
end TypedMessage
