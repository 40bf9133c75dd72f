import TypedMessage.Bytes

/- Finite maps with texts as keys, kept as entries in ascending byte order of
   the keys. A later entry of the same key replaces the earlier one. A map is
   determined by what it answers (`Dict.ext_get?`), so the order in which it was
   filled leaves no trace. -/
namespace TypedMessage

/-- Entries in strictly ascending order of their keys. -/
def Ascending {α : Type} (es : List (String × α)) : Prop :=
  es.Pairwise fun a b => Before a.1 b.1

/-- The entries with `k` bound to `a`. -/
def insertEntry {α : Type} (k : String) (a : α) : List (String × α) → List (String × α)
  | [] => [(k, a)]
  | e :: es =>
    if Before k e.1 then (k, a) :: e :: es
    else if k = e.1 then (k, a) :: es
    else e :: insertEntry k a es

/-- The value of the first entry of a key. -/
def findEntry {α : Type} (k : String) : List (String × α) → Option α
  | [] => none
  | e :: es => if e.1 = k then some e.2 else findEntry k es

section Entries
variable {α : Type}

theorem mem_insertEntry {k : String} {a : α} {es : List (String × α)} {e : String × α}
    (h : e ∈ insertEntry k a es) : e = (k, a) ∨ e ∈ es := by
  induction es with
  | nil => simpa [insertEntry] using h
  | cons d es ih =>
    simp only [insertEntry] at h
    split at h
    · simpa using h
    · split at h
      · rcases List.mem_cons.1 h with h | h
        · exact .inl h
        · exact .inr (List.mem_cons_of_mem _ h)
      · rcases List.mem_cons.1 h with h | h
        · exact .inr (h ▸ List.mem_cons_self)
        · exact (ih h).imp_right (List.mem_cons_of_mem _)

theorem ascending_insertEntry {k : String} {a : α} {es : List (String × α)}
    (h : Ascending es) : Ascending (insertEntry k a es) := by
  induction es with
  | nil => exact List.pairwise_singleton _ _
  | cons e es ih =>
    obtain ⟨he, hes⟩ := List.pairwise_cons.1 h
    simp only [insertEntry]
    split
    case isTrue hk =>
      refine List.pairwise_cons.2 ⟨fun d hd => ?_, h⟩
      rcases List.mem_cons.1 hd with rfl | hd
      · exact hk
      · exact hk.trans (he d hd)
    case isFalse hk =>
      split
      case isTrue heq =>
        exact List.pairwise_cons.2 ⟨fun d hd => by simpa [heq] using he d hd, hes⟩
      case isFalse hne =>
        refine List.pairwise_cons.2 ⟨fun d hd => ?_, ih hes⟩
        rcases mem_insertEntry hd with rfl | hd
        · by_cases h' : Before e.1 k
          · exact h'
          · exact absurd (Before.eq_of_not hk h') hne
        · exact he d hd

theorem findEntry_insertEntry {k l : String} {a : α} {es : List (String × α)} :
    findEntry l (insertEntry k a es) = if k = l then some a else findEntry l es := by
  induction es with
  | nil => simp [insertEntry, findEntry]
  | cons e es ih =>
    simp only [insertEntry]
    split
    · simp [findEntry]
    · split
      case isTrue h =>
        by_cases hl : k = l
        · simp [findEntry, hl]
        · have hl' : e.1 ≠ l := h ▸ hl
          simp [findEntry, hl, hl']
      case isFalse h =>
        simp only [findEntry, ih]
        by_cases hl : k = l
        · subst hl
          simp [Ne.symm h]
        · simp [hl]

theorem findEntry_isSome {k : String} {es : List (String × α)} :
    (findEntry k es).isSome ↔ k ∈ es.map (·.1) := by
  induction es with
  | nil => simp [findEntry]
  | cons e es ih =>
    by_cases h : e.1 = k
    · simp [findEntry, h]
    · have h' : k ≠ e.1 := Ne.symm h
      rw [List.map_cons, List.mem_cons]
      simp [findEntry, h, h', ih]

theorem mem_of_findEntry {k : String} {a : α} {es : List (String × α)}
    (h : findEntry k es = some a) : (k, a) ∈ es := by
  induction es with
  | nil => simp [findEntry] at h
  | cons e es ih =>
    simp only [findEntry] at h
    split at h
    case isTrue hk => cases h; subst hk; exact List.mem_cons_self
    case isFalse => exact List.mem_cons_of_mem _ (ih h)

theorem findEntry_of_mem {k : String} {a : α} {es : List (String × α)} (h : Ascending es)
    (hm : (k, a) ∈ es) : findEntry k es = some a := by
  induction es with
  | nil => simp at hm
  | cons e es ih =>
    obtain ⟨he, hes⟩ := List.pairwise_cons.1 h
    rcases List.mem_cons.1 hm with rfl | hm
    · simp [findEntry]
    · have hne : e.1 ≠ k := fun hk => Before.irrefl k (by simpa [hk] using he _ hm)
      simp [findEntry, hne, ih hes hm]

/-- Two ascending lists that answer alike are the same list. -/
theorem eq_of_findEntry_eq {es ds : List (String × α)} (he : Ascending es) (hd : Ascending ds)
    (h : ∀ k, findEntry k es = findEntry k ds) : es = ds := by
  have mem_iff {es ds : List (String × α)} (he : Ascending es)
      (h : ∀ k, findEntry k es = findEntry k ds) {e : String × α} (hm : e ∈ es) : e ∈ ds :=
    mem_of_findEntry ((h e.1).symm.trans (findEntry_of_mem he hm))
  induction es generalizing ds with
  | nil =>
    cases ds with
    | nil => rfl
    | cons d ds => simpa using mem_iff hd (fun k => (h k).symm) (e := d) List.mem_cons_self
  | cons e es ih =>
    cases ds with
    | nil => simpa using mem_iff he h (e := e) List.mem_cons_self
    | cons d ds =>
      obtain ⟨he1, hes⟩ := List.pairwise_cons.1 he
      obtain ⟨hd1, hds⟩ := List.pairwise_cons.1 hd
      have hed : e = d := by
        have h1 := mem_iff he h (e := e) List.mem_cons_self
        have h2 := mem_iff hd (fun k => (h k).symm) (e := d) List.mem_cons_self
        rcases List.mem_cons.1 h1 with h1 | h1
        · exact h1
        · rcases List.mem_cons.1 h2 with h2 | h2
          · exact h2.symm
          · exact absurd (he1 d h2) (Before.asymm (hd1 e h1))
      subst hed
      refine congrArg (e :: ·) (ih hes hds fun k => ?_)
      have hk := h k
      simp only [findEntry] at hk
      by_cases hke : e.1 = k
      · subst hke
        have none_of {es : List (String × α)} (hb : ∀ d ∈ es, Before e.1 d.1) :
            findEntry e.1 es = none := by
          rw [← Option.not_isSome_iff_eq_none, findEntry_isSome]
          intro hm
          obtain ⟨d, hd, hde⟩ := List.mem_map.1 hm
          exact Before.irrefl e.1 (hde ▸ hb d hd)
        rw [none_of he1, none_of hd1]
      · simpa [hke] using hk

end Entries

/-- A finite map from texts. -/
structure Dict (α : Type) where
  entries : List (String × α)
  ascending : Ascending entries

namespace Dict
variable {α : Type}

/-- The map with no entry. -/
def empty : Dict α := ⟨[], List.Pairwise.nil⟩

/-- The map with `k` bound to `a`, whatever it was bound to before. -/
def insert (d : Dict α) (k : String) (a : α) : Dict α :=
  ⟨insertEntry k a d.entries, ascending_insertEntry d.ascending⟩

/-- What a key is bound to. -/
def get? (d : Dict α) (k : String) : Option α := findEntry k d.entries

/-- The key is bound. -/
def contains (d : Dict α) (k : String) : Bool := (d.get? k).isSome

/-- The keys in ascending order. -/
def keys (d : Dict α) : List String := d.entries.map (·.1)

/-- The number of entries. -/
def size (d : Dict α) : Nat := d.entries.length

/-- The map of a list of bindings; of two for one key the later counts. -/
def ofList (es : List (String × α)) : Dict α := es.foldl (fun d e => d.insert e.1 e.2) empty

/-- The entries whose key satisfies `p`. -/
def restrict (d : Dict α) (p : String → Bool) : Dict α :=
  ⟨d.entries.filter fun e => p e.1, d.ascending.filter _⟩

@[simp] theorem get?_empty (k : String) : (empty : Dict α).get? k = none := rfl

@[simp] theorem get?_insert (d : Dict α) (k l : String) (a : α) :
    (d.insert k a).get? l = if k = l then some a else d.get? l := findEntry_insertEntry

theorem mem_keys {d : Dict α} {k : String} : k ∈ d.keys ↔ d.contains k := by
  simp [keys, contains, get?, findEntry_isSome]

theorem mem_entries {d : Dict α} {k : String} {a : α} : (k, a) ∈ d.entries ↔ d.get? k = some a :=
  ⟨findEntry_of_mem d.ascending, mem_of_findEntry⟩

theorem ext_get? {d e : Dict α} (h : ∀ k, d.get? k = e.get? k) : d = e := by
  have := eq_of_findEntry_eq d.ascending e.ascending h
  cases d; cases e; cases this; rfl

theorem get?_restrict (d : Dict α) (p : String → Bool) (k : String) :
    (d.restrict p).get? k = if p k then d.get? k else none := by
  apply Option.ext
  intro a
  rw [← mem_entries]
  by_cases hp : p k <;> simp [restrict, hp, mem_entries]

instance [DecidableEq α] : DecidableEq (Dict α) := fun d e =>
  if h : d.entries = e.entries then
    .isTrue (by cases d; cases e; cases h; rfl)
  else .isFalse fun k => h (congrArg entries k)

end Dict
end TypedMessage
