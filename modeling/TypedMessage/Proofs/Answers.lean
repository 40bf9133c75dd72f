import TypedMessage.Proofs.Numerals
import TypedMessage.Proofs.Values
import TypedMessage.Service

/- Texts that go in and out. A text without a zero character reaches a function of the
   service as it is (`Service.inputText_utf8`), and what is printed of an answer, in either
   layout and alone or within a reply, is read as the object of exactly its members
   (`DigestAnswer.readsBack`, `TypeAnswer.readsBack`, `Reply.parse_render`). -/
namespace TypedMessage

/-! ## Input -/

theorem zero_mem_utf8EncodeChar {c : Char} (h : (0 : UInt8) ∈ String.utf8EncodeChar c) :
    c = '\x00' := by
  have zero {n : Nat} (hn : (0 : UInt8) = UInt8.ofNat n) : n % 256 = 0 := by
    simpa using (congrArg UInt8.toNat hn).symm
  have hc : c.val.toNat = 0 := by
    -- Every byte of a longer encoding has its high bit set.
    simp only [String.utf8EncodeChar] at h
    split_ifs at h <;> simp only [List.mem_cons, List.not_mem_nil, or_false] at h
    case pos => have := zero h; omega
    case pos => rcases h with h | h <;> have := zero h <;> omega
    case pos => rcases h with h | h | h <;> have := zero h <;> omega
    case neg => rcases h with h | h | h | h <;> have := zero h <;> omega
  exact Char.toNat_inj.1 hc

theorem zero_not_mem_utf8 {s : String} (h : '\x00' ∉ s.toList) : (0 : UInt8) ∉ utf8 s := by
  intro hz
  rw [← String.ofList_toList (s := s), utf8_ofList] at hz
  obtain ⟨c, hc, hz⟩ := List.mem_flatMap.1 hz
  exact h (zero_mem_utf8EncodeChar hz ▸ hc)

theorem ofUtf8?_utf8 (s : String) : ofUtf8? (utf8 s) = some s := by
  have bytes : (⟨(utf8 s).toArray⟩ : ByteArray) = s.toByteArray := by simp [utf8]
  rw [ofUtf8?, bytes, String.fromUTF8?, dif_pos s.isValidUTF8]
  rfl

theorem Service.inputText_utf8 {text : String} (h : '\x00' ∉ text.toList) :
    inputText (some (utf8 text)) = .ok text := by
  have whole : (utf8 text).takeWhile (· ≠ 0) = utf8 text :=
    List.takeWhile_eq_self_iff.2 fun b hb => by
      have : b ≠ 0 := fun hb0 => zero_not_mem_utf8 h (hb0 ▸ hb)
      simpa using this
  rw [inputText, whole, ofUtf8?_utf8]

/-! ## Answers -/

section Answers
open Json
variable {l : Layout} {level d : Nat}

/-- A part that is null where there is no value is read as it is printed. -/
theorem readsBack_nullable {β : Type} {write sorted : β → Json} {o : Option β}
    (h : ∀ b ∈ o, ReadsBack (readValue d) (printAt l level (write b)) (sorted b)) :
    ReadsBack (readValue d) (printAt l level ((o.map write).getD .null))
      ((o.map sorted).getD .null) := by
  cases o with
  | none => exact readsBack_readValue readsBack_null d
  | some b => exact h b rfl

theorem ofText?_eq (t : Option String) : Json.ofText? t = (t.map Json.string).getD .null := by
  cases t <;> rfl

theorem readsBack_ofText? (t : Option String) :
    ReadsBack (readValue d) (printAt l level (.ofText? t)) (.ofText? t) := by
  rw [ofText?_eq]
  exact readsBack_nullable fun t _ => readsBack_readValue (fun inner => readsBack_string inner t) d

/-- An object of texts, some of which may be missing, is read with its members in the
    order of their keys. -/
theorem readsBack_texts (ts : List (String × Option String)) :
    ReadsBack (readValue (d + 1))
      (printAt l level (.object (ts.map fun t => (t.1, .ofText? t.2))))
      (ofDict (Dict.ofList (ts.map fun t => (t.1, .ofText? t.2)))) := by
  have item : ∀ m ∈ ts.map fun t => (t.1, Json.ofText? t.2),
      ReadsBack (readValue d) (printAt l (level + 1) m.2) m.2 := by
    intro m hm
    obtain ⟨t, -, rfl⟩ := List.mem_map.1 hm
    exact readsBack_ofText? t.2
  exact readsBack_object (List.forall₂_same.2 fun m hm => ⟨rfl, item m hm⟩)

/-- A digest answer as it is read, in the order of the keys. -/
def DigestAnswer.sorted (a : DigestAnswer) : Json :=
  .object [("digest", .string (Hex.encode a.hash.digest.bytes)),
    ("domainSeparator", .string (Hex.encode a.hash.domainSeparator.bytes)),
    ("primaryType", .string a.primaryType),
    ("structHash", .string (Hex.encode a.hash.structHash.bytes)),
    ("version", .string a.version.tag)]

theorem DigestAnswer.readsBack (a : DigestAnswer) :
    ReadsBack (readValue (d + 1)) (printAt l level a.toJson) a.sorted :=
  readsBack_texts [("primaryType", some a.primaryType), ("version", some a.version.tag),
    ("digest", some (Hex.encode a.hash.digest.bytes)),
    ("domainSeparator", some (Hex.encode a.hash.domainSeparator.bytes)),
    ("structHash", some (Hex.encode a.hash.structHash.bytes))]

/-- An answer about a struct type as it is read, in the order of the keys. -/
def TypeAnswer.sorted (a : TypeAnswer) : Json :=
  .object [("encodedType", .string a.encodedType), ("typeHash", .string a.typeHash),
    ("typeName", .string a.typeName)]

theorem TypeAnswer.readsBack (a : TypeAnswer) :
    ReadsBack (readValue (d + 1)) (printAt l level a.toJson) a.sorted :=
  readsBack_texts [("typeName", some a.typeName), ("encodedType", some a.encodedType),
    ("typeHash", some a.typeHash)]

theorem parse_print {v w : Json} (h : ReadsBack (readValue maxDepth) (printAt l 0 v) w) :
    Json.parse (v.print l) = .ok w := document_ofList h.read_all

/-- The text may also be a line. -/
theorem parse_line {v w : Json} (h : ReadsBack (readValue maxDepth) (printAt l 0 v) w) :
    Json.parse (v.print l ++ "\n") = .ok w := by
  refine document_eq_ok.2 ⟨['\n'], ?_, rfl⟩
  rw [String.toList_append, print, String.toList_ofList]
  exact h.read_eq (by simp [NumberEnds]) rfl

section Replies
variable {α : Type} {x : Except Failure α} {a : α} {f : Failure}

@[simp] theorem Reply.ofExcept_eq_ok : Reply.ofExcept x = .ok a ↔ x = .ok a := by
  cases x <;> simp [Reply.ofExcept, Reply.ok, Reply.fail]

@[simp] theorem Reply.ofExcept_eq_fail : Reply.ofExcept x = .fail f ↔ x = .error f := by
  cases x <;> simp [Reply.ofExcept, Reply.ok, Reply.fail]

theorem Reply.eq_ok_of_data (h : (Reply.ofExcept x).data = some a) :
    Reply.ofExcept x = .ok a := by
  cases x with
  | error f => cases h
  | ok b =>
    obtain rfl : b = a := Option.some.inj h
    rfl

end Replies

/-- A failure as it is read, in the order of the keys. -/
def Failure.sorted (f : Failure) : Json :=
  .object [("code", .string f.code.tag), ("details", .ofText? f.details),
    ("message", .string f.message)]

theorem Failure.readsBack (f : Failure) :
    ReadsBack (readValue (d + 1)) (printAt l level f.toJson) f.sorted :=
  readsBack_texts [("code", some f.code.tag), ("message", some f.message), ("details", f.details)]

/-- The text of a reply holds what is read of its parts, with null for what it lacks. -/
theorem Reply.parse_render {α : Type} {data sorted : α → Json} {r : Reply α}
    (h : ∀ a ∈ r.data, ReadsBack (readValue (maxDepth - 1)) (printAt .compact 1 (data a))
      (sorted a)) :
    Json.parse (r.render data) = .ok (.object [("data", (r.data.map sorted).getD .null),
      ("error", (r.error.map Failure.sorted).getD .null), ("success", .bool r.success)]) := by
  have success : ReadsBack (readValue (maxDepth - 1)) (printAt .compact 1 (.bool r.success))
      (.bool r.success) := readsBack_readValue (fun inner => readsBack_bool inner r.success) _
  have error : ReadsBack (readValue (maxDepth - 1))
      (printAt .compact 1 ((r.error.map Failure.toJson).getD .null))
      ((r.error.map Failure.sorted).getD .null) := readsBack_nullable fun f _ => f.readsBack
  refine parse_print (w := ofDict (Dict.ofList [("success", .bool r.success),
    ("data", (r.data.map sorted).getD .null),
    ("error", (r.error.map Failure.sorted).getD .null)])) (readsBack_object ?_)
  exact .cons ⟨rfl, success⟩ (.cons ⟨rfl, readsBack_nullable h⟩ (.cons ⟨rfl, error⟩ .nil))

/-- The text of a reply with data holds what is read of the data. -/
theorem Reply.parse_render_ok {α : Type} {data : α → Json} {a : α} {v : Json}
    (h : ReadsBack (readValue (maxDepth - 1)) (printAt .compact 1 (data a)) v) :
    Json.parse ((Reply.ok a).render data) =
      .ok (.object [("data", v), ("error", .null), ("success", .bool true)]) := by
  have parts : ∀ b ∈ (Reply.ok a).data,
      ReadsBack (readValue (maxDepth - 1)) (printAt .compact 1 (data b)) v := by
    intro b hb
    rwa [← Option.mem_some.1 hb]
  exact Reply.parse_render parts

end Answers
end TypedMessage
