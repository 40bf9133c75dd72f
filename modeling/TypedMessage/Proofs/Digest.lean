import TypedMessage.Proofs.Layout
import TypedMessage.Proofs.Collision

/- What a digest says about the message that was signed. Two values have the same
   content at a declared type (`SameField`, `SameStruct`) if a reader of that type
   cannot tell them apart: other spellings of a value, and members the type does
   not declare, make no difference. Under version 4 values of one type are laid
   out in aligned slots (`aligned_of_layoutField`), and values laid out alike have
   the same content (`sameField_of_layoutField`). With `Slot.eq_or_collides` this
   gives the binding of the digest: one digest for two signed pairs means the same
   domain and the same message, or a collision among what was hashed. -/
namespace TypedMessage.Session
variable {h : Hash} {s : Session}

/-! ## The same content -/

/-- The value is encoded in place at this type, as the zero word. -/
def IsZeroWord (s : Session) (type : String) (v : Json) : Prop :=
  ∃ l, FieldType.parse? type = some (.leaf l) ∧ l.isAtomic = true ∧
    l.slot s.enforceWidth v = .ok (.word .zero)

mutual

/-- The values have the same content at a declared type: the same word, the same
    text, the same bytes, the same contents item by item, or the same contents
    field by field. -/
inductive SameField (s : Session) : (type : String) → Json → Json → Prop
  | word {type : String} {l : Leaf} {v w : Json} {x : Word}
      (parsed : FieldType.parse? type = some (.leaf l)) (atomic : l.isAtomic = true)
      (left : l.slot s.enforceWidth v = .ok (.word x))
      (right : l.slot s.enforceWidth w = .ok (.word x)) : SameField s type v w
  | text {type t : String} (parsed : FieldType.parse? type = some (.leaf .text)) :
      SameField s type (.string t) (.string t)
  | bytes {type : String} {v w : Json} {bs : Bytes}
      (parsed : FieldType.parse? type = some (.leaf .bytes))
      (left : v.asBytes = .ok bs) (right : w.asBytes = .ok bs) : SameField s type v w
  | array {type element : String} {length : Option Nat} {vs ws : List Json}
      (parsed : FieldType.parse? type = some (.array element length))
      (lengths : vs.length = ws.length)
      (items : ∀ v w, (v, w) ∈ vs.zip ws → SameField s element v w) :
      SameField s type (.array vs) (.array ws)
  | struct {type name : String} {v w : Json}
      (parsed : FieldType.parse? type = some (.struct name))
      (content : SameStruct s name v w) : SameField s type v w

/-- The values are objects with the same content at every field that the struct
    declares. -/
inductive SameStruct (s : Session) : (name : String) → Json → Json → Prop
  | fields {name : String} {fields : List Field} {ms ns : List (String × Json)}
      (defined : s.schema.get? name = some fields)
      (members : ∀ f ∈ fields,
        SameMember s f.type (findEntry f.name ms) (findEntry f.name ns)) :
      SameStruct s name (.object ms) (.object ns)

/-- The two members of a field have the same content. A member that is absent goes
    with one that is absent too, or with one whose word is zero. -/
inductive SameMember (s : Session) : (type : String) → Option Json → Option Json → Prop
  | absent {type : String} : SameMember s type none none
  | present {type : String} {v w : Json} (same : SameField s type v w) :
      SameMember s type (some v) (some w)
  | zeroLeft {type : String} {v : Json} (zero : s.IsZeroWord type v) :
      SameMember s type (some v) none
  | zeroRight {type : String} {w : Json} (zero : s.IsZeroWord type w) :
      SameMember s type none (some w)

end

/-! ## Layouts of values of one type -/

theorem memberSlots_v4 (hv : s.version = .v4) (os : List (Option Slot)) :
    s.memberSlots os = os.map (·.getD (.word .zero)) := by
  induction os with
  | nil => rfl
  | cons o os ih =>
    cases o <;> simp_all [memberSlots, absentSlots]

theorem aligned_of_slot {l : Leaf} {enforce : Bool} {v w : Json} {p q : Slot}
    (hp : l.slot enforce v = .ok p) (hq : l.slot enforce w = .ok q) : p.Aligned q := by
  by_cases ha : l.isAtomic = true
  · obtain ⟨a, rfl⟩ := Leaf.exists_word_of_slot ha hp
    obtain ⟨b, rfl⟩ := Leaf.exists_word_of_slot ha hq
    exact .word a b
  · cases l with
    | text =>
      obtain ⟨t, -, rfl⟩ := Leaf.slot_text_eq_ok.1 hp
      obtain ⟨u, -, rfl⟩ := Leaf.slot_text_eq_ok.1 hq
      exact .content _ _
    | bytes =>
      obtain ⟨a, -, rfl⟩ := Leaf.slot_bytes_eq_ok.1 hp
      obtain ⟨b, -, rfl⟩ := Leaf.slot_bytes_eq_ok.1 hq
      exact .content _ _
    | _ => exact absurd rfl ha

/-- The members of one field take aligned slots if their values do; an absent
    member has the zero word. -/
theorem aligned_members {f : Field} {ms ns : List (String × Json)} {o o' : Option Slot}
    (ho : s.layoutMember f ms = .ok o) (ho' : s.layoutMember f ns = .ok o')
    (al : ∀ v w p q, findEntry f.name ms = some v → s.layoutField f.type v = .ok p →
      s.layoutField f.type w = .ok q → p.Aligned q) :
    (o.getD (.word .zero)).Aligned (o'.getD (.word .zero)) := by
  rcases layoutMember_eq_ok.1 ho with ⟨-, rfl⟩ | ⟨v, p, hv, hp, rfl⟩
  · exact .absentLeft _
  · rcases layoutMember_eq_ok.1 ho' with ⟨-, rfl⟩ | ⟨w, q, -, hq, rfl⟩
    · exact .absentRight _
    · exact al v w p q hv hp hq

theorem aligned_of_layoutData (hv : s.version = .v4) {name : String} {v w : Json}
    {ps qs : List Slot} (hps : s.layoutData name v = .ok ps) (hqs : s.layoutData name w = .ok qs)
    (al : ∀ u ∈ v.children, ∀ type w p q, s.layoutField type u = .ok p →
      s.layoutField type w = .ok q → p.Aligned q) :
    (Slot.group ps).Aligned (.group qs) := by
  obtain ⟨fields, ms, os, hf, rfl, hos, rfl⟩ := layoutData_eq_ok.1 hps
  obtain ⟨fields', ns, os', hf', rfl, hos', rfl⟩ := layoutData_eq_ok.1 hqs
  cases hf.symm.trans hf'
  have slots : List.Forall₂ Slot.Aligned (s.memberSlots os) (s.memberSlots os') := by
    rw [memberSlots_v4 hv, memberSlots_v4 hv, List.forall₂_map_left_iff, List.forall₂_map_right_iff]
    clear hf hf' hps hqs
    induction hos generalizing os' with
    | nil => cases hos'; exact .nil
    | cons ho _ ih =>
      cases hos' with
      | cons ho' hos' =>
        refine .cons (aligned_members ho ho' fun u w p q hu => ?_) (ih _ hos')
        exact al u (Json.mem_children_of_findEntry hu) _ w p q
  refine .group fun p q hpq => ?_
  rcases List.mem_cons.1 hpq with hpq | hpq
  · cases hpq
    exact .content _ _
  · exact List.forall₂_zip slots hpq

theorem aligned_of_layoutField (hv : s.version = .v4) {type : String} {v w : Json} {p q : Slot}
    (hp : s.layoutField type v = .ok p) (hq : s.layoutField type w = .ok q) : p.Aligned q := by
  induction v using Json.child_induction generalizing type w p q with
  | step v ih =>
  cases ht : FieldType.parse? type with
  | none => rw [layoutField_invalid ht] at hp; cases hp
  | some t =>
    cases t with
    | leaf l =>
      rw [layoutField_leaf ht, mapError_eq_ok] at hp hq
      exact aligned_of_slot hp hq
    | array element length =>
      obtain ⟨-, vs, ps, rfl, -, hps, rfl⟩ := (layoutField_array_eq_ok ht).1 hp
      obtain ⟨-, ws, qs, rfl, -, hqs, rfl⟩ := (layoutField_array_eq_ok ht).1 hq
      refine .group fun p q hpq => ?_
      obtain ⟨v, hv, hp⟩ := exists_mem_of_forall₂ hps (List.of_mem_zip hpq).1
      obtain ⟨w, -, hq⟩ := exists_mem_of_forall₂ hqs (List.of_mem_zip hpq).2
      exact ih v hv hp hq
    | struct name =>
      rw [layoutField_struct ht, map_eq_ok] at hp hq
      obtain ⟨ps, hps, rfl⟩ := hp
      obtain ⟨qs, hqs, rfl⟩ := hq
      exact aligned_of_layoutData hv hps hqs fun u hu type w p q => ih u hu

/-! ## Values laid out alike -/

theorem isZeroWord_of_layoutField {type : String} {v : Json}
    (hv : s.layoutField type v = .ok (.word .zero)) : s.IsZeroWord type v := by
  cases ht : FieldType.parse? type with
  | none => rw [layoutField_invalid ht] at hv; cases hv
  | some t =>
    cases t with
    | leaf l =>
      rw [layoutField_leaf ht, mapError_eq_ok] at hv
      refine ⟨l, ht, ?_, hv⟩
      cases l with
      | text => obtain ⟨t, -, h⟩ := Leaf.slot_text_eq_ok.1 hv; cases h
      | bytes => obtain ⟨bs, -, h⟩ := Leaf.slot_bytes_eq_ok.1 hv; cases h
      | _ => rfl
    | array element length =>
      obtain ⟨-, vs, ps, -, -, -, h⟩ := (layoutField_array_eq_ok ht).1 hv
      cases h
    | struct name =>
      rw [layoutField_struct ht, map_eq_ok] at hv
      obtain ⟨ps, -, h⟩ := hv
      cases h

theorem sameField_of_slot {type : String} {l : Leaf} {v w : Json} {p : Slot}
    (ht : FieldType.parse? type = some (.leaf l)) (hv : l.slot s.enforceWidth v = .ok p)
    (hw : l.slot s.enforceWidth w = .ok p) : SameField s type v w := by
  by_cases ha : l.isAtomic = true
  · obtain ⟨x, rfl⟩ := Leaf.exists_word_of_slot ha hv
    exact .word ht ha hv hw
  · cases l with
    | text =>
      obtain ⟨t, rfl, rfl⟩ := Leaf.slot_text_eq_ok.1 hv
      obtain ⟨u, rfl, h⟩ := Leaf.slot_text_eq_ok.1 hw
      cases text_eq_of_utf8_eq (Slot.content.inj h)
      exact .text ht
    | bytes =>
      obtain ⟨bs, hbs, rfl⟩ := Leaf.slot_bytes_eq_ok.1 hv
      obtain ⟨cs, hcs, h⟩ := Leaf.slot_bytes_eq_ok.1 hw
      cases Slot.content.inj h
      exact .bytes ht hbs hcs
    | _ => exact absurd rfl ha

theorem sameMember_of_layoutMember {f : Field} {ms ns : List (String × Json)} {o o' : Option Slot}
    (ho : s.layoutMember f ms = .ok o) (ho' : s.layoutMember f ns = .ok o')
    (heq : o.getD (.word .zero) = o'.getD (.word .zero))
    (same : ∀ v w p, findEntry f.name ms = some v → s.layoutField f.type v = .ok p →
      s.layoutField f.type w = .ok p → SameField s f.type v w) :
    SameMember s f.type (findEntry f.name ms) (findEntry f.name ns) := by
  rcases layoutMember_eq_ok.1 ho with ⟨hm, rfl⟩ | ⟨v, p, hm, hp, rfl⟩ <;>
    rcases layoutMember_eq_ok.1 ho' with ⟨hn, rfl⟩ | ⟨w, q, hn, hq, rfl⟩ <;>
    simp only [Option.getD_none, Option.getD_some] at heq <;> rw [hm, hn]
  · exact .absent
  · exact .zeroRight (isZeroWord_of_layoutField (heq ▸ hq))
  · exact .zeroLeft (isZeroWord_of_layoutField (heq ▸ hp))
  · exact .present (same v w p hm hp (heq ▸ hq))

theorem sameStruct_of_layoutData (hv : s.version = .v4) {name : String} {v w : Json}
    {ps : List Slot} (hps : s.layoutData name v = .ok ps) (hqs : s.layoutData name w = .ok ps)
    (same : ∀ u ∈ v.children, ∀ type w p, s.layoutField type u = .ok p →
      s.layoutField type w = .ok p → SameField s type u w) : SameStruct s name v w := by
  obtain ⟨fields, ms, os, hf, rfl, hos, rfl⟩ := layoutData_eq_ok.1 hps
  obtain ⟨fields', ns, os', hf', rfl, hos', heq⟩ := layoutData_eq_ok.1 hqs
  cases hf.symm.trans hf'
  refine .fields hf ?_
  have slots : os.map (·.getD (.word .zero)) = os'.map (·.getD (.word .zero)) := by
    rw [← memberSlots_v4 hv, ← memberSlots_v4 hv]
    exact (List.cons.inj heq).2
  clear hf hf' hps hqs heq
  induction hos generalizing os' with
  | nil => exact List.forall_mem_nil _
  | cons ho _ ih =>
    cases hos' with
    | cons ho' hos' =>
      obtain ⟨hd, tl⟩ := List.cons.inj slots
      refine List.forall_mem_cons.2 ⟨sameMember_of_layoutMember ho ho' hd fun u w p hu => ?_,
        ih _ hos' tl⟩
      exact same u (Json.mem_children_of_findEntry hu) _ w p

theorem sameField_of_layoutField (hv : s.version = .v4) {type : String} {v w : Json} {p : Slot}
    (hp : s.layoutField type v = .ok p) (hq : s.layoutField type w = .ok p) :
    SameField s type v w := by
  induction v using Json.child_induction generalizing type w p with
  | step v ih =>
  cases ht : FieldType.parse? type with
  | none => rw [layoutField_invalid ht] at hp; cases hp
  | some t =>
    cases t with
    | leaf l =>
      rw [layoutField_leaf ht, mapError_eq_ok] at hp hq
      exact sameField_of_slot ht hp hq
    | array element length =>
      obtain ⟨-, vs, ps, rfl, -, hvs, rfl⟩ := (layoutField_array_eq_ok ht).1 hp
      obtain ⟨-, ws, qs, rfl, -, hws, h⟩ := (layoutField_array_eq_ok ht).1 hq
      cases Slot.group.inj h
      refine .array ht (hvs.length_eq.trans hws.length_eq.symm) fun v w hvw => ?_
      obtain ⟨p, hp, hq⟩ := exists_common_of_forall₂ hvs hws hvw
      exact ih v (List.of_mem_zip hvw).1 hp hq
    | struct name =>
      rw [layoutField_struct ht, map_eq_ok] at hp hq
      obtain ⟨ps, hps, rfl⟩ := hp
      obtain ⟨qs, hqs, h⟩ := hq
      cases Slot.group.inj h
      exact .struct ht (sameStruct_of_layoutData hv hps hqs fun u hu type w p => ih u hu)

/-! ## Digests -/

/-- The byte strings that are hashed on the way to the hash of a struct; none if
    the value cannot be encoded. -/
def hashedStruct (h : Hash) (s : Session) (name : String) (v : Json) : List Bytes :=
  match s.layoutData name v with
  | .ok ps => (Slot.group ps).hashed h
  | .error _ => []

/-- The byte strings that are hashed on the way to a digest; none if there is no
    digest. -/
def hashedSigning (h : Hash) (s : Session) (primary : String) (message domain : Json) :
    List Bytes :=
  match s.signingHash h primary message domain with
  | .ok x => signingBytes x.domainSeparator x.structHash ::
      (s.hashedStruct h domainType domain ++ s.hashedStruct h primary message)
  | .error _ => []

theorem hashStruct_eq_ok {name : String} {v : Json} {x : Word} :
    s.hashStruct h name v = .ok x ↔
      ∃ ps, s.layoutData name v = .ok ps ∧ (Slot.group ps).value h = x := by
  simp [hashStruct, encodeData, map_eq_ok, Slot.value]

theorem signingHash_eq_ok {primary : String} {m d : Json} {x : SigningHash} :
    s.signingHash h primary m d = .ok x ↔
      s.hashStruct h domainType d = .ok x.domainSeparator ∧
        s.hashStruct h primary m = .ok x.structHash ∧
        x.digest = h (signingBytes x.domainSeparator x.structHash) := by
  simp only [signingHash, bind_eq_ok, pure, Except.pure, Except.ok.injEq]
  constructor
  · intro run
    obtain ⟨a, ha, b, hb, rfl⟩ := run
    exact ⟨ha, hb, rfl⟩
  · intro run
    obtain ⟨ha, hb, hx⟩ := run
    exact ⟨_, ha, _, hb, by rw [← hx]⟩

theorem exists_signingHash {primary : String} {m d : Json} {a b : Word}
    (hd : s.hashStruct h domainType d = .ok a) (hm : s.hashStruct h primary m = .ok b) :
    ∃ x, s.signingHash h primary m d = .ok x :=
  ⟨⟨a, b, h (signingBytes a b)⟩, signingHash_eq_ok.2 ⟨hd, hm, rfl⟩⟩

/-- A digest depends on the hash at the listed byte strings and nowhere else. -/
theorem signingHash_congr {k : Hash} {primary : String} {m d : Json} {x : SigningHash}
    (hx : s.signingHash h primary m d = .ok x)
    (agree : ∀ bs ∈ s.hashedSigning h primary m d, h bs = k bs) :
    s.signingHash k primary m d = .ok x := by
  obtain ⟨hd, hm, hdig⟩ := signingHash_eq_ok.1 hx
  obtain ⟨ds, hds, hdv⟩ := hashStruct_eq_ok.1 hd
  obtain ⟨ms, hms, hmv⟩ := hashStruct_eq_ok.1 hm
  simp only [hashedSigning, hx, hashedStruct, hds, hms, List.forall_mem_cons,
    List.forall_mem_append] at agree
  refine signingHash_eq_ok.2 ⟨hashStruct_eq_ok.2 ⟨ds, hds, ?_⟩, hashStruct_eq_ok.2 ⟨ms, hms, ?_⟩, ?_⟩
  · rw [← Slot.value_congr _ agree.2.1, hdv]
  · rw [← Slot.value_congr _ agree.2.2, hmv]
  · rw [hdig, agree.1]

/-- One hash for two values of a struct: the same content, or a collision among
    what was hashed. -/
theorem sameStruct_or_collides (hv : s.version = .v4) {name : String} {v w : Json} {x : Word}
    (hx : s.hashStruct h name v = .ok x) (hy : s.hashStruct h name w = .ok x) :
    SameStruct s name v w ∨ Collides h (s.hashedStruct h name v ++ s.hashedStruct h name w) := by
  obtain ⟨ps, hps, rfl⟩ := hashStruct_eq_ok.1 hx
  obtain ⟨qs, hqs, heq⟩ := hashStruct_eq_ok.1 hy
  have al : (Slot.group ps).Aligned (.group qs) :=
    aligned_of_layoutData hv hps hqs fun _ _ _ _ _ _ => aligned_of_layoutField hv
  simp only [hashedStruct, hps, hqs]
  refine (Slot.eq_or_collides al heq.symm).imp_left fun h => ?_
  cases Slot.group.inj h
  exact sameStruct_of_layoutData hv hps hqs fun _ _ _ _ _ => sameField_of_layoutField hv

theorem signingBytes_inj {a b c d : Word} (h : signingBytes a b = signingBytes c d) :
    a = c ∧ b = d := by
  obtain ⟨ha, hb⟩ := List.append_inj h (by simp [Word.length_bytes])
  simp only [List.cons.injEq, true_and] at ha
  exact ⟨Word.ext' ha, Word.ext' hb⟩

/-- Under version 4 a digest binds the domain and the message: two pairs with one
    digest have the same content, or there is a collision among the byte strings
    that were hashed for the two digests. -/
theorem digest_binds_content (h : Hash) {s : Session} (hv : s.version = .v4) (primary : String)
    {d₁ m₁ d₂ m₂ : Json} {x₁ x₂ : SigningHash}
    (h₁ : s.signingHash h primary m₁ d₁ = .ok x₁) (h₂ : s.signingHash h primary m₂ d₂ = .ok x₂)
    (hd : x₁.digest = x₂.digest) :
    (SameStruct s domainType d₁ d₂ ∧ SameStruct s primary m₁ m₂) ∨
      Collides h (s.hashedSigning h primary m₁ d₁ ++ s.hashedSigning h primary m₂ d₂) := by
  obtain ⟨hd₁, hm₁, e₁⟩ := signingHash_eq_ok.1 h₁
  obtain ⟨hd₂, hm₂, e₂⟩ := signingHash_eq_ok.1 h₂
  rw [e₁, e₂] at hd
  simp only [hashedSigning, h₁, h₂]
  -- From the outside in: the signed bytes, then the two structs in them.
  rcases Collides.eq_or (List.mem_append_left _ List.mem_cons_self)
    (List.mem_append_right _ List.mem_cons_self) hd with hs | hcol
  swap
  · exact .inr hcol
  obtain ⟨hds, hms⟩ := signingBytes_inj hs
  rcases sameStruct_or_collides hv (hds ▸ hd₁) hd₂ with domain | hcol
  swap
  · refine .inr (hcol.append ?_ ?_) <;>
      exact List.Subset.trans (List.subset_append_left _ _) (List.subset_cons_self _ _)
  rcases sameStruct_or_collides hv (hms ▸ hm₁) hm₂ with message | hcol
  swap
  · refine .inr (hcol.append ?_ ?_) <;>
      exact List.Subset.trans (List.subset_append_right _ _) (List.subset_cons_self _ _)
  exact .inl ⟨domain, message⟩

/-- A session in which transfers are signed for a bank. -/
def transfers : Session where
  schema := .ofList [
    ("EIP712Domain", [⟨"name", "string"⟩, ⟨"chainId", "uint256"⟩]),
    ("Transfer", [⟨"to", "address[]"⟩, ⟨"memo", "Memo"⟩, ⟨"fee", "uint8"⟩]),
    ("Memo", [⟨"text", "string"⟩])]
  version := .v4

/-- The domain of a bank; its chain is a number or a text. -/
def bankDomain (chainId : Json) : Json :=
  .object [("chainId", chainId), ("name", .string "Bank")]

/-- A transfer to one address, with no fee. -/
def plainTransfer : Json := .object [
  ("memo", .object [("text", .string "hi")]),
  ("to", .array [.string "0x00000000000000000000000000000000000000ff"])]

/-- The same transfer in other words: a fee of zero, capitals in the address, and
    a member that no type declares. -/
def spelledTransfer : Json := .object [
  ("fee", .number "0"),
  ("memo", .object [("note", .null), ("text", .string "hi")]),
  ("to", .array [.string "0x00000000000000000000000000000000000000FF"])]

theorem digest_binds_transfer : ∃ x,
    transfers.signingHash keccak256 "Transfer" plainTransfer (bankDomain (.number "1")) = .ok x ∧
      transfers.signingHash keccak256 "Transfer" spelledTransfer
        (bankDomain (.string " 0x01")) = .ok x ∧
      ((SameStruct transfers domainType (bankDomain (.number "1")) (bankDomain (.string " 0x01")) ∧
          SameStruct transfers "Transfer" plainTransfer spelledTransfer) ∨
        Collides keccak256
          (transfers.hashedSigning keccak256 "Transfer" plainTransfer (bankDomain (.number "1")) ++
            transfers.hashedSigning keccak256 "Transfer" spelledTransfer
              (bankDomain (.string " 0x01")))) := by
  refine ⟨_, rfl, rfl, ?_⟩
  exact digest_binds_content keccak256 rfl "Transfer" rfl rfl rfl

end TypedMessage.Session
