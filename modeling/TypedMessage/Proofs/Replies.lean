import TypedMessage.Proofs.Answers
import TypedMessage.Proofs.Requests
import TypedMessage.Proofs.Skipping
import TypedMessage.Reply.Reader

/- Replies as callers get them. Part by part, the readers of a reply take what is printed of
   it, so that every reply is read from its text (`Reply.parse_text`). That the text can be
   read at all also says that no zero character stands in it, whatever the names and
   messages in the reply are; so the buffer of a caller holds the reply itself and neither
   of the texts that would take its place (`Service.envelope_buffer`). -/
namespace TypedMessage
namespace Json
variable {α β : Type} {l : Layout} {level : Nat}

/-! ## Parts of a reply, read back -/

theorem readsBack_readBool (b : Bool) : ReadsBack readBool (printAt l level (.bool b)) b where
  start := by cases b <;> exact ⟨_, _, rfl, rfl, by decide⟩
  reads s rest _ hs := by
    rw [readBool, hs]
    cases b <;> rfl

theorem readsBack_none (read : Read α) :
    ReadsBack (readOption read) (printAt l level .null) none where
  start := ⟨_, _, rfl, rfl, by decide⟩
  reads s rest _ hs := by
    rw [readOption, hs]
    rfl

/-- A value or null is read back if the value is and does not start as null does. -/
theorem readsBack_readOption {read : Read β} {write : β → Json} {o : Option β}
    (h : ∀ b ∈ o, ReadsBack read (printAt l level (write b)) b)
    (hn : ∀ b, (printAt l level (write b)).head? ≠ some 'n') :
    ReadsBack (readOption read) (printAt l level ((o.map write).getD .null)) o := by
  cases o with
  | none => exact readsBack_none read
  | some b => exact (h b rfl).option (hn b)

theorem readsBack_details (t : Option String) :
    ReadsBack (readOption readText) (printAt l level (.ofText? t)) t := by
  rw [ofText?_eq]
  exact readsBack_readOption (fun t _ => readsBack_text t) head?_printAt_string

end Json

open Json
variable {l : Layout} {level : Nat}

theorem FailureCode.readsBack (c : FailureCode) :
    ReadsBack FailureCode.read (printAt l level (.string c.tag)) c where
  start := (readsBack_text c.tag).start
  reads s rest _ hs := by
    rw [printAt, printString_append] at hs
    rw [FailureCode.read, hs]
    simp only [readString_append, FailureCode.ofTag_tag, bind, Except.bind]
    rfl

theorem Failure.readsBack_record (f : Failure) :
    ReadsBack Failure.record.read (printAt l level f.toJson) f := by
  refine Record.readsBack_print (d := ⟨some f.code, some f.message, some f.details⟩) ?_ rfl
  exact .cons (Record.takes_of rfl rfl f.code.readsBack) <|
    .cons (Record.takes_of rfl rfl (readsBack_text f.message)) <|
    .cons (Record.takes_of rfl rfl (readsBack_details f.details)) .nil

theorem TypeAnswer.readsBack_record (a : TypeAnswer) :
    ReadsBack TypeAnswer.record.read (printAt l level a.toJson) a := by
  refine Record.readsBack_print (d := ⟨some a.typeName, some a.encodedType, some a.typeHash⟩)
    ?_ rfl
  exact .cons (Record.takes_of rfl rfl (readsBack_text a.typeName)) <|
    .cons (Record.takes_of rfl rfl (readsBack_text a.encodedType)) <|
    .cons (Record.takes_of rfl rfl (readsBack_text a.typeHash)) .nil

namespace Reply
variable {α : Type}

/-- A reply is read from what is printed of it if its data are. -/
theorem readsBack_record {read : Read α} {data : α → Json} {r : Reply α}
    (h : ∀ a ∈ r.data, ReadsBack read (printAt l (level + 1) (data a)) a)
    (hn : ∀ a, (printAt l (level + 1) (data a)).head? ≠ some 'n') :
    ReadsBack (Reply.record read).read (printAt l level (r.toJson data)) r := by
  refine Record.readsBack_print (d := ⟨some r.success, some r.data, some r.error⟩) ?_ rfl
  have error : ReadsBack (readOption Failure.record.read)
      (printAt l (level + 1) ((r.error.map Failure.toJson).getD .null)) r.error :=
    readsBack_readOption (fun f _ => f.readsBack_record) fun f => head?_printAt_object _
  exact .cons (Record.takes_of rfl rfl (readsBack_readBool r.success)) <|
    .cons (Record.takes_of rfl rfl (readsBack_readOption h hn)) <|
    .cons (Record.takes_of rfl rfl error) .nil

/-! ## Texts of replies -/

/-- Where all data can be written, the text of a reply is the reply. -/
theorem text_eq_render {write : α → Option Json} {data : α → Json} {r : Reply α}
    (h : ∀ a, write a = some (data a)) : r.text write = r.render data := by
  obtain ⟨success, a, error⟩ := r
  cases a with
  | none => rfl
  | some a =>
    have written : (⟨success, some a, error⟩ : Reply α).write? write =
        some (toJson data ⟨success, some a, error⟩) := by
      simp only [write?, h]
      rfl
    rw [text, written]
    rfl

theorem text_typeAnswer (r : Reply TypeAnswer) :
    r.text TypeAnswer.write? = r.render TypeAnswer.toJson := text_eq_render fun _ => rfl

theorem text_digestAnswer (r : Reply DigestAnswer) :
    r.text DigestAnswer.write? = r.render DigestAnswer.toJson := text_eq_render fun _ => rfl

theorem parse_text (r : Reply TypeAnswer) : Reply.parse (r.text TypeAnswer.write?) = .ok r := by
  rw [text_typeAnswer]
  exact document_ofList (readsBack_record (fun a _ => a.readsBack_record)
    fun _ => head?_printAt_object _).read_all

/-- Zero characters and quotation marks of a message are escaped. -/
example : (fail ⟨.parseError, "a\x00\"", none⟩ : Reply TypeAnswer).text TypeAnswer.write? =
    "\x7b\"success\":false,\"data\":null,\"error\":\x7b\"code\":\"parse_error\"," ++
      "\"message\":\"a\\u0000\\\"\",\"details\":null\x7d\x7d" := by
  decide +kernel

/-- A reply that is read and written again. -/
def reprint (text : String) : Except Json.Fault String :=
  (Reply.parse text).map (·.text TypeAnswer.write?)

/-- What was written again stays as it is. -/
theorem reprint_reprint (text : String) : (reprint text).bind reprint = reprint text := by
  unfold reprint
  cases Reply.parse text with
  | error fault => rfl
  | ok r =>
    show (Reply.parse (r.text TypeAnswer.write?)).map _ = _
    rw [parse_text]

end Reply

/-- No zero character stands in a text that is read as a value. -/
theorem Json.zero_not_mem_of_parse {text : String} {v : Json} (h : Json.parse text = .ok v) :
    '\x00' ∉ text.toList := by
  obtain ⟨rest, hread, blank⟩ := document_eq_ok.1 h
  exact (passed_of_readValue hread).past.zero_not_mem blank

namespace Service

/-! ## Buffers -/

/-- The text is an object of the three members of a reply, where success is told exactly if
    there are data, and exactly if there is no failure. -/
def IsReply (text : String) : Prop :=
  ∃ data error success, Json.parse text =
      .ok (.object [("data", data), ("error", error), ("success", .bool success)]) ∧
    (success = true ↔ data ≠ .null) ∧ (success = true ↔ error = .null)

/-- What a caller finds in a buffer: the text of a reply, which no zero byte cuts short, and
    neither of the texts that would take its place. -/
structure Envelope (bs : Bytes) : Prop where
  zero : 0 ∉ bs
  reply : ∃ text, ofUtf8? bs = some text ∧ IsReply text ∧ text ≠ unsendable ∧
    text ≠ Reply.unwritten

/-- An object of other than three members is no reply. -/
theorem not_isReply_of_length {text : String} {n : Nat} (hn : n ≠ 3)
    (h : (Json.parse text).toOption.map (·.children.length) = some n) : ¬ IsReply text := by
  intro reply
  obtain ⟨data, error, success, parsed, -⟩ := reply
  rw [parsed] at h
  exact hn (Option.some.inj h).symm

theorem not_isReply_unsendable : ¬ IsReply unsendable :=
  not_isReply_of_length (n := 2) (by decide) (by decide +kernel)

theorem not_isReply_unwritten : ¬ IsReply Reply.unwritten :=
  not_isReply_of_length (n := 2) (by decide) (by decide +kernel)

/-- The text of a reply gets to the caller as it is. -/
theorem envelope_buffer {text : String} (h : IsReply text) :
    buffer text = utf8 text ∧ Envelope (buffer text) := by
  have zero : 0 ∉ utf8 text := by
    obtain ⟨data, error, success, parsed, -⟩ := h
    exact zero_not_mem_utf8 (Json.zero_not_mem_of_parse parsed)
  have whole : buffer text = utf8 text := if_neg zero
  refine ⟨whole, whole ▸ ⟨zero, text, ofUtf8?_utf8 text, h, ?_, ?_⟩⟩
  · intro replaced
    exact not_isReply_unsendable (replaced ▸ h)
  · intro replaced
    exact not_isReply_unwritten (replaced ▸ h)

section Replies
variable {α : Type} {data sorted : α → Json}

/-- The reply to a computation has data or a failure, and not both. -/
theorem isReply_ofExcept (x : Except Failure α)
    (h : ∀ a, ReadsBack (readValue (maxDepth - 1)) (printAt .compact 1 (data a)) (sorted a))
    (present : ∀ a, sorted a ≠ .null) : IsReply ((Reply.ofExcept x).render data) := by
  have parsed := Reply.parse_render (r := .ofExcept x) fun a _ => h a
  refine ⟨_, _, _, parsed, ?_⟩
  cases x with
  | ok a => simp [Reply.ofExcept, Reply.ok, present]
  | error f => simp [Reply.ofExcept, Reply.fail, Failure.sorted]

end Replies

theorem isReply_hash (env : Environment) (input : Option Bytes) :
    IsReply ((hash env input).text DigestAnswer.write?) := by
  rw [Reply.text_digestAnswer]
  exact isReply_ofExcept _ (fun a => a.readsBack) fun _ => nofun

theorem isReply_encodeType (env : Environment) (input : Option Bytes) :
    IsReply ((encodeType env input).text TypeAnswer.write?) := by
  rw [Reply.text_typeAnswer]
  exact isReply_ofExcept _ (fun a => a.readsBack) fun _ => nofun

/-- Every reply about a struct type is read from its text, in which no zero byte stands;
    what was read and is written again stays as it is; and whatever the input and the
    environment, callers of either function get the text of a reply, whole. -/
theorem reply_envelope :
    (∀ r : Reply TypeAnswer, 0 ∉ utf8 (r.text TypeAnswer.write?) ∧
      Reply.parse (r.text TypeAnswer.write?) = .ok r) ∧
    (∀ text, (Reply.reprint text).bind Reply.reprint = Reply.reprint text) ∧
    ∀ env input,
      hashBuffer env input = utf8 ((hash env input).render DigestAnswer.toJson) ∧
      Envelope (hashBuffer env input) ∧
      encodeTypeBuffer env input = utf8 ((encodeType env input).render TypeAnswer.toJson) ∧
      Envelope (encodeTypeBuffer env input) := by
  refine ⟨fun r => ⟨?_, r.parse_text⟩, Reply.reprint_reprint, fun env input => ?_⟩
  · rw [Reply.text_typeAnswer]
    exact zero_not_mem_utf8 (Json.zero_not_mem_of_parse
      (Reply.parse_render fun a _ => TypeAnswer.readsBack a))
  · obtain ⟨hash, hashEnvelope⟩ := envelope_buffer (isReply_hash env input)
    obtain ⟨encodeType, typeEnvelope⟩ := envelope_buffer (isReply_encodeType env input)
    refine ⟨?_, hashEnvelope, ?_, typeEnvelope⟩
    · rw [hashBuffer, hash, Reply.text_digestAnswer]
    · rw [encodeTypeBuffer, encodeType, Reply.text_typeAnswer]

end Service
end TypedMessage
