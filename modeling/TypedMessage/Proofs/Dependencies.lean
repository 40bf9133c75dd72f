import TypedMessage.Schema.TypeString
import Mathlib.Data.List.Induction
import Mathlib.Logic.Relation

/- What the search for dependencies finds. `Reaches` is the relation that the
   search is meant to compute: from a defined struct to the base types of its
   fields, any number of times. `findEntry_unreached` is the invariant of the
   search, for any entries left and any names pending; the rest of the module
   reads dependencies and type strings off it. -/
namespace TypedMessage

/-! ## The order of entries -/

theorem ne_of_before {a b : String} (h : Before a b) : a ≠ b := by
  rintro rfl
  exact Before.irrefl _ h

namespace Dict
variable {α : Type}

theorem ofList_concat (es : List (String × α)) (e : String × α) :
    ofList (es ++ [e]) = (ofList es).insert e.1 e.2 := by
  simp [ofList, List.foldl_append]

/-- If no key is bound twice, every binding holds. -/
theorem get?_ofList {es : List (String × α)} {k : String} {a : α}
    (nodup : (es.map (·.1)).Nodup) : (ofList es).get? k = some a ↔ (k, a) ∈ es := by
  induction es using List.reverseRecOn with
  | nil => simp [ofList]
  | append_singleton es e ih =>
    rw [List.map_append, List.nodup_append] at nodup
    obtain ⟨nodup, -, apart⟩ := nodup
    rw [ofList_concat, get?_insert, List.mem_append, List.mem_singleton]
    by_cases hk : e.1 = k
    · have fresh : (k, a) ∉ es := fun hm =>
        apart _ (List.mem_map_of_mem hm) _ (List.mem_map_of_mem List.mem_cons_self) hk.symm
      subst hk
      simp [fresh, Prod.ext_iff, eq_comm]
    · have other : (k, a) ≠ e := fun he => hk (he ▸ rfl)
      simp [hk, other, ih nodup]

theorem nodup_keys (d : Dict α) : (d.entries.map (·.1)).Nodup := by
  rw [List.Nodup, List.pairwise_map]
  exact d.ascending.imp fun hab => ne_of_before hab

/-- The entries of a map may be bound in any order. -/
theorem ofList_of_perm {d : Dict α} {es : List (String × α)}
    (h : es.Perm d.entries) : ofList es = d := by
  have nodup : (es.map (·.1)).Nodup := (h.map _).nodup_iff.2 (nodup_keys d)
  refine ext_get? fun k => Option.ext fun a => ?_
  rw [get?_ofList nodup, h.mem_iff, mem_entries]

end Dict

namespace Schema

/-! ## Reaching -/

/-- Among the entries, `n` is a struct with a field of base type `m`. -/
def LeadsIn (es : List (String × List Field)) (n m : String) : Prop :=
  ∃ fields, findEntry n es = some fields ∧ m ∈ bases fields

/-- Among the entries, `n` leads to `m` in any number of steps. -/
abbrev ReachesIn (es : List (String × List Field)) : String → String → Prop :=
  Relation.ReflTransGen (LeadsIn es)

/-- The struct `n` leads to the name `m`, which need not be defined. -/
abbrev Reaches (s : Schema) : String → String → Prop := ReachesIn s.entries

theorem findEntry_without {m n : String} {es : List (String × List Field)} (h : m ≠ n) :
    findEntry m (without n es) = findEntry m es := by
  induction es with
  | nil => rfl
  | cons e es ih =>
    by_cases he : e.1 = n
    · have : e.1 ≠ m := fun hm => h (hm.symm.trans he)
      simpa [without, findEntry, he, this, h.symm] using ih
    · simp only [without, ne_eq, he, not_false_eq_true, decide_true, List.filter_cons_of_pos,
        findEntry] at ih ⊢
      rw [ih]

theorem findEntry_without_self (n : String) (es : List (String × List Field)) :
    findEntry n (without n es) = none := by
  rw [← Option.not_isSome_iff_eq_none, findEntry_isSome]
  simp [without]

theorem LeadsIn.of_without {n a b : String} {es : List (String × List Field)}
    (h : LeadsIn (without n es) a b) : LeadsIn es a b := by
  obtain ⟨fields, hf, hb⟩ := h
  by_cases ha : a = n
  · subst ha; simp [findEntry_without_self] at hf
  · exact ⟨fields, findEntry_without ha ▸ hf, hb⟩

/-- A name that `a` leads to is reached without passing `n`, or else from one of
    the names that `n` leads to in one step. -/
theorem ReachesIn.avoid {a m n : String} {es : List (String × List Field)} {fields : List Field}
    (hn : findEntry n es = some fields) (h : ReachesIn es a m) :
    ReachesIn (without n es) a m ∨ ∃ b ∈ bases fields, ReachesIn (without n es) b m := by
  -- From the end of the path backwards, so that it is cut at its last visit to `n`.
  induction h using Relation.ReflTransGen.head_induction_on with
  | refl => exact .inl .refl
  | @head a b hab _ ih =>
    rcases ih.symm with later | hbm
    · exact .inr later
    · obtain ⟨fields', ha, hb⟩ := hab
      by_cases han : a = n
      · subst han
        cases hn.symm.trans ha
        exact .inr ⟨b, hb, hbm⟩
      · exact .inl (.head ⟨fields', (findEntry_without han).trans ha, hb⟩ hbm)

/-! ## The search -/

/-- Taking a struct off the entries and pending the base types of its fields
    changes nothing about what else is reached. -/
theorem reachesIn_visit {m n : String} {es : List (String × List Field)} {fields : List Field}
    {more : List String} (hn : findEntry n es = some fields) (hm : m ≠ n) :
    (∃ a ∈ bases fields ++ more, ReachesIn (without n es) a m) ↔
      ∃ a ∈ n :: more, ReachesIn es a m := by
  have mono {a : String} (h : ReachesIn (without n es) a m) : ReachesIn es a m :=
    Relation.ReflTransGen.mono (fun _ _ => LeadsIn.of_without) _ _ h
  constructor
  · intro reach
    obtain ⟨a, ha, ham⟩ := reach
    rcases List.mem_append.1 ha with ha | ha
    · exact ⟨n, List.mem_cons_self, .head ⟨fields, hn, ha⟩ (mono ham)⟩
    · exact ⟨a, List.mem_cons_of_mem _ ha, mono ham⟩
  · intro reach
    obtain ⟨a, ha, ham⟩ := reach
    rcases ham.avoid hn with ham | ⟨b, hb, hbm⟩
    · rcases List.mem_cons.1 ha with rfl | ha
      · -- Nothing but itself is reached from a name that is no entry any more.
        rcases Relation.ReflTransGen.cases_head ham with rfl | ⟨b, ⟨fields, hf, -⟩, -⟩
        · exact absurd rfl hm
        · simp [findEntry_without_self] at hf
      · exact ⟨a, List.mem_append_right _ ha, ham⟩
    · exact ⟨b, List.mem_append_left _ hb, hbm⟩

/-- What the search leaves over: the entries that no pending name reaches. -/
theorem findEntry_unreached {left : List (String × List Field)} {pending : List String}
    {m : String} {fields : List Field} :
    findEntry m (unreached left pending) = some fields ↔
      findEntry m left = some fields ∧ ¬ ∃ a ∈ pending, ReachesIn left a m := by
  induction left, pending using unreached.induct with
  | case1 left => rw [unreached]; simp
  | case2 left n more hn ih =>
    -- `n` is visited already or not defined: it reaches nothing that is left.
    rw [unreached, hn]
    simp only [ih, List.mem_cons, exists_eq_or_imp]
    refine and_congr_right fun hm => not_congr ⟨.inr, fun h => h.resolve_left fun hnm => ?_⟩
    rcases Relation.ReflTransGen.cases_head hnm with rfl | ⟨b, ⟨fields, hf, -⟩, -⟩
    · simp [hn] at hm
    · simp [hn] at hf
  | case3 left n more fields' hn ih =>
    -- `n` is visited now: its entry leaves, the base types of its fields come in.
    rw [unreached, hn]
    simp only [ih]
    by_cases hm : m = n
    · subst hm
      have here : ∃ a ∈ m :: more, ReachesIn left a m := ⟨m, List.mem_cons_self, .refl⟩
      simp only [findEntry_without_self, here, not_true, and_false, reduceCtorEq, false_and]
    · rw [findEntry_without hm, reachesIn_visit hn hm]

/-- The search in at most so many turns, each of which takes one pending name;
    nothing if the turns do not suffice. -/
def unreachedWithin : (turns : Nat) → (left : List (String × List Field)) →
    (pending : List String) → Option (List (String × List Field))
  | _, left, [] => some left
  | 0, _, _ :: _ => none
  | turns + 1, left, n :: more =>
    match findEntry n left with
    | none => unreachedWithin turns left more
    | some fields => unreachedWithin turns (without n left) (bases fields ++ more)

/-- The number of fields of all structs together. -/
def fieldCount : List (String × List Field) → Nat
  | [] => 0
  | e :: es => e.2.length + fieldCount es

theorem fieldCount_without_le (n : String) (es : List (String × List Field)) :
    fieldCount (without n es) ≤ fieldCount es := by
  induction es with
  | nil => exact Nat.le_refl _
  | cons e es ih =>
    by_cases he : e.1 = n <;> simp [without, fieldCount, he] at ih ⊢ <;> omega

theorem fieldCount_without {n : String} {es : List (String × List Field)} {fields : List Field}
    (h : findEntry n es = some fields) :
    fieldCount (without n es) + fields.length ≤ fieldCount es := by
  induction es with
  | nil => cases h
  | cons e es ih =>
    have := fieldCount_without_le n es
    by_cases he : e.1 = n <;> simp [without, fieldCount, findEntry, he] at ih h this ⊢
    · subst h; omega
    · have := ih h; omega

/-- Every name is pending at most once for a field, so the search ends after one
    turn for each and the first. -/
theorem unreachedWithin_eq {turns : Nat} {left : List (String × List Field)}
    {pending : List String} (h : pending.length + fieldCount left ≤ turns) :
    unreachedWithin turns left pending = some (unreached left pending) := by
  induction turns generalizing left pending with
  | zero =>
    cases pending with
    | nil => simp [unreachedWithin, unreached]
    | cons n more => simp at h
  | succ turns ih =>
    cases pending with
    | nil => simp [unreachedWithin, unreached]
    | cons n more =>
      rw [List.length_cons] at h
      rw [unreachedWithin, unreached]
      cases hn : findEntry n left with
      | none => exact ih (by omega)
      | some fields =>
        have := fieldCount_without hn
        exact ih (by rw [List.length_append, bases, List.length_map]; omega)

/-- The dependencies of a struct, if so many turns of the search suffice. -/
def dependenciesWithin (s : Schema) (turns : Nat) (anchor : String) : Option Schema :=
  (unreachedWithin turns s.entries [anchor]).map fun left =>
    s.restrict fun n => (findEntry n left).isNone

theorem dependenciesWithin_eq (s : Schema) (p : String) :
    s.dependenciesWithin (1 + fieldCount s.entries) p = some (s.dependencies p) := by
  have turns : [p].length + fieldCount s.entries ≤ 1 + fieldCount s.entries := Nat.le_refl _
  rw [dependenciesWithin, unreachedWithin_eq turns]
  rfl

/-! ## Dependencies -/

section Dependencies
variable {s s' : Schema} {p n : String} {fields : List Field}

theorem get?_dependencies :
    (s.dependencies p).get? n = some fields ↔ s.Reaches p n ∧ s.get? n = some fields := by
  have found {fields : List Field} :
      findEntry n (unreached s.entries [p]) = some fields ↔
        s.get? n = some fields ∧ ¬ s.Reaches p n := by
    rw [findEntry_unreached]
    simp [Dict.get?]
  rw [dependencies, Dict.get?_restrict]
  by_cases hr : s.Reaches p n
  · have : findEntry n (unreached s.entries [p]) = none :=
      Option.eq_none_iff_forall_ne_some.2 fun fields hf => (found.1 hf).2 hr
    simp [this, hr]
  · simp only [hr, false_and, iff_false]
    intro h
    split at h
    case isTrue hnone => simp [found.2 ⟨h, hr⟩] at hnone
    case isFalse => cases h

/-- Nothing but itself is reached from a name that is not defined. -/
theorem Reaches.eq_of_undefined (hp : s.get? p = none) (h : s.Reaches p n) : p = n := by
  rcases Relation.ReflTransGen.cases_head h with rfl | ⟨m, ⟨fields, hf, -⟩, -⟩
  · rfl
  · cases hp.symm.trans hf

theorem dependencies_eq_empty_iff : s.dependencies p = Dict.empty ↔ s.get? p = none := by
  constructor
  · intro h
    refine Option.eq_none_iff_forall_ne_some.2 fun fields hf => ?_
    have := get?_dependencies.2 ⟨.refl, hf⟩
    rw [h] at this
    cases this
  · intro hp
    refine Dict.ext_get? fun n => Option.eq_none_iff_forall_ne_some.2 fun fields hf => ?_
    obtain ⟨hr, hn⟩ := get?_dependencies.1 hf
    rw [← hr.eq_of_undefined hp, hp] at hn
    cases hn

theorem Reaches.of_agree (agree : ∀ m, s.Reaches p m → s'.get? m = s.get? m)
    (h : s.Reaches p n) : s'.Reaches p n := by
  induction h with
  | refl => exact .refl
  | tail hpm hmn ih =>
    obtain ⟨fields, hf, hn⟩ := hmn
    exact ih.tail ⟨fields, (agree _ hpm).trans hf, hn⟩

/-- Schemas that agree wherever one of them leads lead to the same names. -/
theorem reaches_iff_of_agree (agree : ∀ m, s.Reaches p m → s'.get? m = s.get? m) :
    s'.Reaches p n ↔ s.Reaches p n := by
  constructor
  · intro h
    induction h with
    | refl => exact .refl
    | tail _ hmn ih =>
      obtain ⟨fields, hf, hn⟩ := hmn
      exact ih.tail ⟨fields, (agree _ ih).symm.trans hf, hn⟩
  · exact .of_agree agree

theorem dependencies_congr (agree : ∀ m, s.Reaches p m → s'.get? m = s.get? m) :
    s'.dependencies p = s.dependencies p := by
  refine Dict.ext_get? fun n => Option.ext fun fields => ?_
  simp only [get?_dependencies, reaches_iff_of_agree agree]
  exact and_congr_right fun hr => by rw [agree n hr]

/-- Schemas with the same dependencies of a name agree wherever the name leads. -/
theorem agree_of_dependencies_eq (h : s'.dependencies p = s.dependencies p)
    (hr : s.Reaches p n) : s'.get? n = s.get? n := by
  have reaches : s'.Reaches p n := by
    induction hr with
    | refl => exact .refl
    | tail hpm hmn ih =>
      obtain ⟨fields, hf, hn⟩ := hmn
      have listed := h ▸ get?_dependencies.2 ⟨hpm, hf⟩
      exact ih.tail ⟨fields, (get?_dependencies.1 listed).2, hn⟩
  refine Option.ext fun fields => ?_
  constructor
  · exact fun hn => (get?_dependencies.1 (h ▸ get?_dependencies.2 ⟨reaches, hn⟩)).2
  · exact fun hn => (get?_dependencies.1 (h ▸ get?_dependencies.2 ⟨hr, hn⟩)).2

theorem typeString_congr (h : s'.dependencies p = s.dependencies p) :
    s'.typeString p = s.typeString p := by
  rw [typeString, typeString, h]

end Dependencies

/-! ## Type strings -/

/-- The entries of the structs that `p` leads to, without `p` itself. -/
def others (s : Schema) (p : String) : List (String × List Field) :=
  (s.dependencies p).entries.filter (·.1 ≠ p)

theorem ascending_others (s : Schema) (p : String) : Ascending (s.others p) :=
  (s.dependencies p).ascending.filter _

theorem mem_others {s : Schema} {p n : String} {fields : List Field} :
    (n, fields) ∈ s.others p ↔ n ≠ p ∧ s.Reaches p n ∧ s.get? n = some fields := by
  rw [others, List.mem_filter, Dict.mem_entries, get?_dependencies, decide_eq_true_eq, and_comm]

theorem typeString_undefined {s : Schema} {p : String} (hp : s.get? p = none) :
    s.typeString p = "" := by
  rw [typeString, dependencies_eq_empty_iff.2 hp]
  rfl

theorem typeString_defined {s : Schema} {p : String} {fields : List Field}
    (hp : s.get? p = some fields) :
    s.typeString p =
      definition p fields ++ String.join ((s.others p).map fun e => definition e.1 e.2) := by
  rw [typeString]
  simp only [get?_dependencies.2 ⟨.refl, hp⟩]
  rfl

/-! ## The canonical type string -/

/-- The search ends; it finds the defined structs that a name leads to and nothing
    else; the type string is the definition of the name and then theirs in ascending
    order; and neither the order in which the schema was filled nor an entry that
    the name does not lead to makes a difference. -/
theorem typeString_canonical (s : Schema) (p : String) :
    s.dependenciesWithin (1 + fieldCount s.entries) p = some (s.dependencies p) ∧
      (∀ n fields, (s.dependencies p).get? n = some fields ↔
        s.Reaches p n ∧ s.get? n = some fields) ∧
      (s.dependencies p = Dict.empty ↔ s.get? p = none) ∧
      (s.get? p = none → s.typeString p = "") ∧
      (∀ fields, s.get? p = some fields → ∃ others,
        s.typeString p =
            definition p fields ++ String.join (others.map fun e => definition e.1 e.2) ∧
          Ascending others ∧
          ∀ n gs, (n, gs) ∈ others ↔ n ≠ p ∧ s.Reaches p n ∧ s.get? n = some gs) ∧
      (∀ es, es.Perm s.entries →
        dependencies (.ofList es) p = s.dependencies p ∧
          typeString (.ofList es) p = s.typeString p) ∧
      ∀ s' : Schema, (∀ n, s.Reaches p n → s'.get? n = s.get? n) →
        s'.dependencies p = s.dependencies p ∧ s'.typeString p = s.typeString p := by
  refine ⟨dependenciesWithin_eq s p, fun n fields => get?_dependencies,
    dependencies_eq_empty_iff, typeString_undefined, fun fields hp => ?_, fun es hes => ?_,
    fun s' agree => ?_⟩
  · exact ⟨s.others p, typeString_defined hp, ascending_others s p, fun n gs => mem_others⟩
  · rw [Dict.ofList_of_perm hes]
    exact ⟨rfl, rfl⟩
  · have deps := dependencies_congr agree
    exact ⟨deps, typeString_congr deps⟩

end Schema
end TypedMessage
