import TypedMessage.Proofs.Dependencies

/- What can be read back from a type string. A name, a field and a definition each
   end at a delimiter that does not occur in them, so one after the other they can
   be cut off the front of a text (`cut_inj`); a type string is a sequence of
   definitions, and two sequences with one text are the same (`definitions_inj`).
   Names may be empty, and so may lists of fields. -/
namespace TypedMessage

/-- A text without the four characters that delimit names in a type string. -/
def Undelimited (t : String) : Prop :=
  '(' ∉ t.toList ∧ ')' ∉ t.toList ∧ ',' ∉ t.toList ∧ ' ' ∉ t.toList

instance (t : String) : Decidable (Undelimited t) :=
  inferInstanceAs (Decidable (_ ∧ _ ∧ _ ∧ _))

/-- What stands in front of the first delimiter, and what stands after it. -/
theorem cut_inj {c : Char} {as bs xs ys : List Char} (ha : c ∉ as) (hb : c ∉ bs)
    (h : as ++ c :: xs = bs ++ c :: ys) : as = bs ∧ xs = ys := by
  induction as generalizing bs with
  | nil =>
    cases bs with
    | nil => exact ⟨rfl, (List.cons.inj h).2⟩
    | cons b bs =>
      have hcb : c = b := (List.cons.inj h).1
      exact absurd (hcb ▸ List.mem_cons_self) hb
  | cons a as ih =>
    cases bs with
    | nil =>
      have hac : a = c := (List.cons.inj h).1
      exact absurd (hac ▸ List.mem_cons_self) ha
    | cons b bs =>
      obtain ⟨rfl, htail⟩ := List.cons.inj h
      obtain ⟨rfl, hrest⟩ := ih (fun hc => ha (List.mem_cons_of_mem _ hc))
        (fun hc => hb (List.mem_cons_of_mem _ hc)) htail
      exact ⟨rfl, hrest⟩

/-! ## Fields -/

namespace Field

/-- The field's type and name have no delimiter in them. -/
def Undelimited (f : Field) : Prop :=
  TypedMessage.Undelimited f.type ∧ TypedMessage.Undelimited f.name

instance (f : Field) : Decidable f.Undelimited := inferInstanceAs (Decidable (_ ∧ _))

theorem toList_typeString (f : Field) :
    f.typeString.toList = f.type.toList ++ ' ' :: f.name.toList := by
  rw [typeString, String.toList_append, String.toList_append, List.append_assoc]
  rfl

theorem blank_mem_typeString (f : Field) : ' ' ∈ f.typeString.toList := by
  rw [toList_typeString]
  exact List.mem_append_right _ List.mem_cons_self

theorem not_mem_typeString {f : Field} {c : Char} (htype : c ∉ f.type.toList)
    (hname : c ∉ f.name.toList) (hc : c ≠ ' ') : c ∉ f.typeString.toList := by
  rw [toList_typeString, List.mem_append, List.mem_cons]
  intro hmem
  rcases hmem with hmem | rfl | hmem
  · exact htype hmem
  · exact hc rfl
  · exact hname hmem

theorem typeString_inj {f g : Field} (hf : f.Undelimited) (hg : g.Undelimited)
    (h : f.typeString.toList = g.typeString.toList) : f = g := by
  rw [toList_typeString, toList_typeString] at h
  obtain ⟨htype, hname⟩ := cut_inj hf.1.2.2.2 hg.1.2.2.2 h
  cases f
  cases g
  cases String.toList_inj.1 htype
  cases String.toList_inj.1 hname
  rfl

end Field

/-! ## Definitions -/

/-- What stands between the brackets of a definition. -/
def fieldTexts (fields : List Field) : List Char :=
  [','].intercalate (fields.map fun f => f.typeString.toList)

theorem toList_definition (name : String) (fields : List Field) :
    (definition name fields).toList = name.toList ++ '(' :: (fieldTexts fields ++ [')']) := by
  simp [definition, fieldTexts, Function.comp_def]

theorem mem_fieldTexts {fields : List Field} {c : Char} (h : c ∈ fieldTexts fields) :
    c = ',' ∨ ∃ f ∈ fields, c ∈ f.typeString.toList := by
  induction fields with
  | nil => cases h
  | cons f fields ih =>
    cases fields with
    | nil =>
      have hc : c ∈ f.typeString.toList := by simpa [fieldTexts] using h
      exact .inr ⟨f, List.mem_cons_self, hc⟩
    | cons g fields =>
      rw [fieldTexts, List.map_cons, List.map_cons, List.intercalate_cons_cons,
        List.append_assoc, List.mem_append, List.mem_append, List.mem_singleton] at h
      rcases h with hc | hc | hc
      · exact .inr ⟨f, List.mem_cons_self, hc⟩
      · exact .inl hc
      · rcases ih hc with hc | ⟨g', hg', hc⟩
        · exact .inl hc
        · exact .inr ⟨g', List.mem_cons_of_mem _ hg', hc⟩

theorem closing_not_mem_fieldTexts {fields : List Field} (h : ∀ f ∈ fields, f.Undelimited) :
    ')' ∉ fieldTexts fields := by
  intro hmem
  rcases mem_fieldTexts hmem with hc | ⟨f, hf, hc⟩
  · exact absurd hc (by decide)
  · obtain ⟨htype, hname⟩ := h f hf
    exact Field.not_mem_typeString htype.2.1 hname.2.1 (by decide) hc

/-- Only the empty list of fields has the empty text, as every field has a blank in
    its own. -/
theorem fieldTexts_eq_nil {fields : List Field} (h : fieldTexts fields = []) : fields = [] := by
  cases fields with
  | nil => rfl
  | cons f fields =>
    have hblank : ' ' ∈ fieldTexts (f :: fields) := by
      cases fields with
      | nil => simpa [fieldTexts] using f.blank_mem_typeString
      | cons g fields =>
        rw [fieldTexts, List.map_cons, List.map_cons, List.intercalate_cons_cons,
          List.append_assoc]
        exact List.mem_append_left _ f.blank_mem_typeString
    rw [h] at hblank
    cases hblank

theorem splitOn_fieldTexts {fields : List Field} (h : ∀ f ∈ fields, f.Undelimited)
    (hne : fields ≠ []) :
    (fieldTexts fields).splitOn ',' = fields.map fun f => f.typeString.toList := by
  apply List.splitOn_intercalate
  · intro text htext
    obtain ⟨f, hf, rfl⟩ := List.mem_map.1 htext
    obtain ⟨htype, hname⟩ := h f hf
    exact Field.not_mem_typeString htype.2.2.1 hname.2.2.1 (by decide)
  · exact fun hnil => hne (List.map_eq_nil_iff.1 hnil)

theorem fields_inj_of_map {fs gs : List Field} (hf : ∀ f ∈ fs, f.Undelimited)
    (hg : ∀ g ∈ gs, g.Undelimited)
    (h : fs.map (fun f => f.typeString.toList) = gs.map fun g => g.typeString.toList) :
    fs = gs := by
  induction fs generalizing gs with
  | nil => exact (List.map_eq_nil_iff.1 h.symm).symm
  | cons f fs ih =>
    cases gs with
    | nil => cases h
    | cons g gs =>
      obtain ⟨hhead, htail⟩ := List.cons.inj h
      obtain ⟨hf, hfs⟩ := List.forall_mem_cons.1 hf
      obtain ⟨hg, hgs⟩ := List.forall_mem_cons.1 hg
      rw [Field.typeString_inj hf hg hhead, ih hfs hgs htail]

theorem fieldTexts_inj {fs gs : List Field} (hf : ∀ f ∈ fs, f.Undelimited)
    (hg : ∀ g ∈ gs, g.Undelimited) (h : fieldTexts fs = fieldTexts gs) : fs = gs := by
  -- No fields and one field with an empty text would be split alike, so they are set apart.
  by_cases hfs : fs = []
  · subst hfs
    exact (fieldTexts_eq_nil h.symm).symm
  · have hgs : gs ≠ [] := by
      rintro rfl
      exact hfs (fieldTexts_eq_nil h)
    apply fields_inj_of_map hf hg
    rw [← splitOn_fieldTexts hf hfs, ← splitOn_fieldTexts hg hgs, h]

/-! ## Sequences of definitions -/

/-- The definitions of these structs, one after the other. -/
def definitionTexts (es : List (String × List Field)) : List Char :=
  es.flatMap fun e => (definition e.1 e.2).toList

/-- The struct's name and all its fields have no delimiter in them. -/
def EntryUndelimited (e : String × List Field) : Prop :=
  Undelimited e.1 ∧ ∀ f ∈ e.2, f.Undelimited

instance (e : String × List Field) : Decidable (EntryUndelimited e) :=
  inferInstanceAs (Decidable (_ ∧ _))

theorem definitionTexts_cons (e : String × List Field) (es : List (String × List Field)) :
    definitionTexts (e :: es) =
      e.1.toList ++ '(' :: (fieldTexts e.2 ++ ')' :: definitionTexts es) := by
  rw [definitionTexts, List.flatMap_cons, toList_definition]
  simp [definitionTexts]

theorem definitions_inj {es ds : List (String × List Field)} (he : ∀ e ∈ es, EntryUndelimited e)
    (hd : ∀ d ∈ ds, EntryUndelimited d) (h : definitionTexts es = definitionTexts ds) :
    es = ds := by
  induction es generalizing ds with
  | nil =>
    cases ds with
    | nil => rfl
    | cons d ds =>
      rw [definitionTexts_cons] at h
      exact absurd h.symm (by simp [definitionTexts])
  | cons e es ih =>
    cases ds with
    | nil =>
      rw [definitionTexts_cons] at h
      exact absurd h (by simp [definitionTexts])
    | cons d ds =>
      obtain ⟨⟨hname, hfields⟩, hes⟩ := List.forall_mem_cons.1 he
      obtain ⟨⟨hname', hfields'⟩, hds⟩ := List.forall_mem_cons.1 hd
      rw [definitionTexts_cons, definitionTexts_cons] at h
      -- The name ends at the first opening bracket, the fields at the first closing one.
      obtain ⟨heq, hrest⟩ := cut_inj hname.1 hname'.1 h
      obtain ⟨hbody, hmore⟩ := cut_inj (closing_not_mem_fieldTexts hfields)
        (closing_not_mem_fieldTexts hfields') hrest
      have hentry : e = d :=
        Prod.ext (String.toList_inj.1 heq) (fieldTexts_inj hfields hfields' hbody)
      rw [hentry, ih hes hds hmore]

/-! ## Schemas -/

namespace Schema
variable {s : Schema} {p : String}

/-- No name of a struct, name of a field or type of a field has a delimiter in it. -/
def Undelimited (s : Schema) : Prop := ∀ e ∈ s.entries, EntryUndelimited e

instance (s : Schema) : Decidable s.Undelimited :=
  inferInstanceAs (Decidable (∀ e ∈ s.entries, EntryUndelimited e))

theorem toList_typeString {fields : List Field} (hp : s.get? p = some fields) :
    (s.typeString p).toList = definitionTexts ((p, fields) :: s.others p) := by
  rw [typeString_defined hp, definitionTexts, List.flatMap_cons, String.toList_append,
    String.toList_join, List.flatMap_map]

theorem mem_cons_others {fields : List Field} (hp : s.get? p = some fields)
    {e : String × List Field} :
    e ∈ (p, fields) :: s.others p ↔ e ∈ (s.dependencies p).entries := by
  obtain ⟨n, gs⟩ := e
  rw [List.mem_cons, mem_others, Dict.mem_entries, get?_dependencies, Prod.mk.injEq]
  constructor
  · intro hmem
    rcases hmem with ⟨rfl, rfl⟩ | ⟨-, hreach, hget⟩
    · exact ⟨.refl, hp⟩
    · exact ⟨hreach, hget⟩
  · intro hdep
    by_cases hn : n = p
    · subst hn
      exact .inl ⟨rfl, Option.some.inj (hdep.2.symm.trans hp)⟩
    · exact .inr ⟨hn, hdep⟩

/-- A type string belongs to one struct with one set of dependencies. -/
theorem typeString_determines_dependencies {s s' : Schema} {p p' : String}
    (hp : s.contains p = true) (hp' : s'.contains p' = true)
    (hs : (s.dependencies p).Undelimited) (hs' : (s'.dependencies p').Undelimited)
    (h : s.typeString p = s'.typeString p') :
    p = p' ∧ s.dependencies p = s'.dependencies p' := by
  obtain ⟨fields, hf⟩ := Option.isSome_iff_exists.1 hp
  obtain ⟨fields', hf'⟩ := Option.isSome_iff_exists.1 hp'
  have htexts := congrArg String.toList h
  rw [toList_typeString hf, toList_typeString hf'] at htexts
  have hlists : (p, fields) :: s.others p = (p', fields') :: s'.others p' :=
    definitions_inj (fun e he => hs e ((mem_cons_others hf).1 he))
      (fun e he => hs' e ((mem_cons_others hf').1 he)) htexts
  refine ⟨congrArg Prod.fst (List.cons.inj hlists).1, ?_⟩
  refine Dict.ext_get? fun n => Option.ext fun gs => ?_
  rw [← Dict.mem_entries, ← Dict.mem_entries, ← mem_cons_others hf, ← mem_cons_others hf', hlists]

/-- A schema in which a struct leads back to itself, and one has no field. -/
def chain : Schema := .ofList [("Node", [⟨"", "Leaf[]"⟩, ⟨"next", "Node"⟩]), ("Leaf", [])]

/-- The same structs behind one that is not reached from them, and that has a blank in
    its name. -/
def longChain : Schema := .ofList
  [("Old Node", [⟨"next", "Node"⟩]), ("Leaf", []), ("Node", [⟨"", "Leaf[]"⟩, ⟨"next", "Node"⟩])]

theorem dependencies_chain : chain.dependencies "Node" = chain :=
  Option.some.inj ((dependenciesWithin_eq chain "Node").symm.trans (by decide))

theorem dependencies_longChain : longChain.dependencies "Node" = chain :=
  Option.some.inj ((dependenciesWithin_eq longChain "Node").symm.trans (by decide))

theorem chain_determined :
    chain.Undelimited ∧ ¬ longChain.Undelimited ∧
      chain.typeString "Node" = "Node(Leaf[] ,Node next)Leaf()" ∧
      longChain.typeString "Node" = "Node(Leaf[] ,Node next)Leaf()" ∧
      chain.dependencies "Node" = longChain.dependencies "Node" := by
  have hplain : chain.Undelimited := by decide
  have htext : chain.typeString "Node" = "Node(Leaf[] ,Node next)Leaf()" := by
    rw [typeString, dependencies_chain]
    decide
  have htext' : longChain.typeString "Node" = "Node(Leaf[] ,Node next)Leaf()" := by
    rw [typeString, dependencies_longChain]
    decide
  have hdetermined := typeString_determines_dependencies (by decide) (by decide)
    (dependencies_chain.symm ▸ hplain) (dependencies_longChain.symm ▸ hplain)
    (htext.trans htext'.symm)
  exact ⟨hplain, by decide, htext, htext', hdetermined.2⟩

end Schema
end TypedMessage
