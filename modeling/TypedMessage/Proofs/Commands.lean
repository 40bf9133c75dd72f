import TypedMessage.Proofs.Answers
import TypedMessage.Proofs.Dependencies
import TypedMessage.Proofs.Digest
import TypedMessage.Proofs.Requests
import TypedMessage.CommandLine.Run

/- What commands print of one request. The digest of a request is the hash of two words,
   and both can be had from other commands: the hash of the domain from `hash-struct` with
   the name of its type, and the hash of the message from `hash-struct` alone, unless the
   request is for the domain type itself (`digest_recombines`, `hashStruct_takes_domain`). -/
namespace TypedMessage

theorem Request.session_eq_ok {r : Request} {settings : Settings} {s : Session} :
    r.session settings = .ok s ↔ ∃ schema, Schema.ofJson r.types = .ok schema ∧
      s = ⟨schema, r.effectiveVersion settings, settings.enforceWidth⟩ := by
  simp [session, bind_eq_ok, mapError_eq_ok, pure, Except.pure, eq_comm (a := s)]

namespace CommandLine

section Commands
variable {settings : Settings} {json : Bool} {payload text : String} {r : Request} {s : Session}

/-- The command prints this text for an input. -/
def Prints (settings : Settings) (json : Bool) (c : Command) (payload text : String) : Prop :=
  ∃ notes, c.run settings json payload = .ok (text, notes)

/-- For this type, or the request's own where none is named, `hash-struct` prints the word
    and `encode-data` prints the bytes whose hash it is. -/
def PrintsStruct (settings : Settings) (typeName : Option String) (payload : String) (w : Word) :
    Prop :=
  ∃ data, Prints settings false { action := .hashStruct, typeName } payload (Hex.encode w.bytes) ∧
    Prints settings false { action := .encodeData, typeName } payload (Hex.encode data) ∧
    keccak256 data = w

theorem Prints.unique {c : Command} {text' : String} (h : Prints settings json c payload text)
    (h' : Prints settings json c payload text') : text = text' := by
  obtain ⟨notes, h⟩ := h
  obtain ⟨notes', h'⟩ := h'
  exact congrArg Prod.fst (Except.ok.inj (h.symm.trans h'))

theorem load_eq_ok : load settings payload = .ok (r, s) ↔
    Request.parse payload = .ok r ∧ r.session settings = .ok s := by
  simp [load, bind_eq_ok, mapError_eq_ok, pure, Except.pure]

/-- What `digest` prints. -/
def digestText (json : Bool) (r : Request) (s : Session) (d : SigningHash) : String :=
  if json then (DigestAnswer.toJson ⟨r.primaryType, s.version, d⟩).pretty
  else Hex.encode d.digest.bytes

theorem prints_digest_iff :
    Prints settings json { action := .digest } payload text ↔
      ∃ r s d, load settings payload = .ok (r, s) ∧
        s.signingHash keccak256 r.primaryType r.message r.domain = .ok d ∧
        text = digestText json r s d := by
  simp only [Prints, Command.run, runDigest, bind_eq_ok, mapError_eq_ok, pure, Except.pure,
    Except.ok.injEq, Prod.mk.injEq, Prod.exists]
  constructor
  · intro run
    obtain ⟨notes, r, s, hload, d, hd, htext, -⟩ := run
    exact ⟨r, s, d, hload, hd, htext.symm⟩
  · intro run
    obtain ⟨r, s, d, hload, hd, rfl⟩ := run
    exact ⟨_, r, s, hload, d, hd, rfl, rfl⟩

/-- What `encode-type` prints. -/
def typeText (json : Bool) (a : TypeAnswer) : String :=
  if json then a.toJson.pretty else a.encodedType

theorem prints_encodeType_iff {typeName : Option String} :
    Prints settings json { action := .encodeType, typeName } payload text ↔
      ∃ r s, load settings payload = .ok (r, s) ∧
        s.schema.contains (typeName.getD r.primaryType) = true ∧
        text = typeText json (Service.typeAnswer s (typeName.getD r.primaryType)) := by
  simp only [Prints, Command.run, runType, map_eq_ok, bind_eq_ok, Prod.exists, Prod.mk.injEq]
  constructor
  · intro run
    obtain ⟨notes, out, hrun, rfl, -⟩ := run
    obtain ⟨r, s, hload, h⟩ := hrun
    split at h
    case isTrue defined => exact ⟨r, s, hload, defined, (Except.ok.inj h).symm⟩
    case isFalse => cases h
  · intro run
    obtain ⟨r, s, hload, defined, rfl⟩ := run
    exact ⟨[], _, ⟨r, s, hload, if_pos defined⟩, rfl, rfl⟩

/-- The value that a command takes for a struct type. -/
def subject (r : Request) (name : String) : Json :=
  if name = domainType then r.domain else r.message

theorem printsStruct_of_load {typeName : Option String} {w : Word}
    (hload : load settings payload = .ok (r, s))
    (hw : s.hashStruct keccak256 (typeName.getD r.primaryType)
      (subject r (typeName.getD r.primaryType)) = .ok w) :
    PrintsStruct settings typeName payload w := by
  obtain ⟨data, hdata, hkeccak⟩ := map_eq_ok.1 hw
  unfold subject at hw hdata
  refine ⟨data, ⟨[], ?_⟩, ⟨[], ?_⟩, hkeccak⟩
  · simp [Command.run, runData, hload, hw, bind, Except.bind, Except.map, Except.mapError, pure,
      Except.pure]
  · simp [Command.run, runData, hload, hdata, bind, Except.bind, Except.map, Except.mapError, pure,
      Except.pure]

/-- Whenever `digest` succeeds, the words in it are printed by other commands: the hash of the
    domain for its type, and the hash of the message where no type is named, unless that type
    is the domain's own. The digest is the hash of the two words behind a version mark. -/
theorem digest_recombines (h : Prints settings json { action := .digest } payload text) :
    ∃ r d, Request.parse payload = .ok r ∧
      Prints settings false { action := .digest } payload (Hex.encode d.digest.bytes) ∧
      (∃ answer, Prints settings true { action := .digest } payload answer ∧
        Json.parse answer =
          .ok (DigestAnswer.sorted ⟨r.primaryType, r.effectiveVersion settings, d⟩)) ∧
      PrintsStruct settings (some domainType) payload d.domainSeparator ∧
      PrintsStruct settings none payload
        (if r.primaryType = domainType then d.domainSeparator else d.structHash) ∧
      d.digest = keccak256 (0x19 :: 0x01 :: (d.domainSeparator.bytes ++ d.structHash.bytes)) := by
  obtain ⟨r, s, d, hload, hd, -⟩ := prints_digest_iff.1 h
  obtain ⟨hr, hs⟩ := load_eq_ok.1 hload
  obtain ⟨hdomain, hmessage, hdigest⟩ := Session.signingHash_eq_ok.1 hd
  obtain ⟨schema, -, rfl⟩ := Request.session_eq_ok.1 hs
  refine ⟨r, d, hr, prints_digest_iff.2 ⟨r, _, d, hload, hd, rfl⟩, ?_, ?_, ?_, hdigest⟩
  · exact ⟨_, prints_digest_iff.2 ⟨r, _, d, hload, hd, rfl⟩,
      parse_print (DigestAnswer.readsBack ⟨r.primaryType, r.effectiveVersion settings, d⟩)⟩
  · exact printsStruct_of_load hload hdomain
  · refine printsStruct_of_load hload ?_
    rw [Option.getD_none, subject]
    split
    case isTrue hprimary => exact hprimary ▸ hdomain
    case isFalse => exact hmessage

/-- A request with an empty domain. -/
def mailText : String :=
  "\x7b\"types\":\x7b\"EIP712Domain\":[],\"Mail\":[\x7b\"name\":\"to\",\"type\":\"string\"\x7d]" ++
    "\x7d,\"primaryType\":\"Mail\",\"domain\":\x7b\x7d,\"message\":\x7b\"to\":\"Bob\"\x7d\x7d"

theorem digest_recombines_mail :
    ∃ text, Prints .compatible false { action := .digest } mailText text ∧
      ∃ (r : Request) (d : SigningHash), Request.parse mailText = .ok r ∧ r.primaryType = "Mail" ∧
        Prints .compatible false { action := .digest } mailText (Hex.encode d.digest.bytes) ∧
        PrintsStruct .compatible (some domainType) mailText d.domainSeparator ∧
        PrintsStruct .compatible none mailText d.structHash ∧
        d.digest = keccak256 (0x19 :: 0x01 :: (d.domainSeparator.bytes ++ d.structHash.bytes)) := by
  have runs : ((Command.run .compatible false { action := .digest } mailText).toOption).isSome := by
    decide +kernel
  have names : (Request.parse mailText).toOption.map Request.primaryType = some "Mail" := by
    decide +kernel
  cases hrun : Command.run .compatible false { action := .digest } mailText with
  | error fault => simp [hrun, Except.toOption] at runs
  | ok printed =>
    obtain ⟨text, notes⟩ := printed
    have prints : Prints .compatible false { action := .digest } mailText text := ⟨notes, hrun⟩
    obtain ⟨r, d, hr, hdigest, -, hdomain, hmessage, hkeccak⟩ := digest_recombines prints
    have hname : r.primaryType = "Mail" := by simpa [hr, Except.toOption] using names
    rw [hname] at hmessage
    exact ⟨text, prints, r, d, hr, hname, hdigest, hdomain, hmessage, hkeccak⟩

/-! ### A request for the domain type -/

def flagText : String :=
  "\x7b\"types\":\x7b\"EIP712Domain\":[\x7b\"name\":\"x\",\"type\":\"bool\"\x7d]\x7d," ++
    "\"primaryType\":\"EIP712Domain\",\"domain\":\x7b\x7d,\"message\":\x7b\"x\":true\x7d\x7d"

/-- Its message is of the domain type too, and has the member that its domain lacks. -/
def flagRequest : Request where
  types := .object [("EIP712Domain",
    .array [.object [("name", .string "x"), ("type", .string "bool")]])]
  primaryType := "EIP712Domain"
  domain := .object []
  message := .object [("x", .bool true)]
  version := none

def flagSession : Session := ⟨.ofList [(domainType, [⟨"x", "bool"⟩])], .v4, false⟩

theorem readable_single {d : Nat} {k : String} {v : Json} (h : v.Readable d) :
    (Json.object [(k, v)]).Readable (d + 1) :=
  .object (by simp [Ascending]) (by simpa using h)

theorem readable_flagRequest : flagRequest.Readable where
  types := by
    refine readable_single (.array fun v hv => ?_)
    rw [List.mem_singleton.1 hv]
    refine .object (by simp [Ascending]; decide) ?_
    simp [Json.Readable.string]
  domain := .object (by simp [Ascending]) (by simp)
  message := readable_single (.bool true)

theorem load_flagText : load .compatible flagText = .ok (flagRequest, flagSession) := by
  have text : flagText = flagRequest.toJson.compact := by decide +kernel
  refine load_eq_ok.2 ⟨?_, rfl⟩
  rw [text]
  exact Request.parse_toJson .compact readable_flagRequest

/-- The bytes of a domain with this word for its one member. -/
def flagData (w : Word) : Bytes := (keccak256 (utf8 "EIP712Domain(bool x)")).bytes ++ w.bytes

theorem typeString_flagSession : flagSession.schema.typeString domainType =
    "EIP712Domain(bool x)" := by
  have all : flagSession.schema.dependencies domainType = flagSession.schema :=
    Option.some.inj
      ((Schema.dependenciesWithin_eq flagSession.schema domainType).symm.trans (by decide))
  rw [Schema.typeString, all]
  decide

theorem hashStruct_flagSession {members : List (String × Json)} {o : Option Slot} {w : Word}
    (h : flagSession.layoutMember ⟨"x", "bool"⟩ members = .ok o)
    (hw : o.getD (.word .zero) = .word w) :
    flagSession.hashStruct keccak256 domainType (.object members) =
      .ok (keccak256 (flagData w)) := by
  have fields : flagSession.schema.get? domainType = some [⟨"x", "bool"⟩] := by decide
  have slots : o.elim flagSession.absentSlots ([·]) = [.word w] := by
    cases o <;> exact congrArg ([·]) hw
  simp [Session.hashStruct, Session.encodeData, Session.layoutData, Session.structSlots, fields,
    typeString_flagSession, h, slots, bind, Except.bind, pure, Except.pure, Except.map,
    Slot.concat, Slot.value, flagData]

theorem flagData_separates :
    keccak256 (flagData .zero) ≠ keccak256 (flagData (.ofBool true)) := by decide +kernel

/-- Where no type is named, `hash-struct` prints the hash of the domain, and not that of the
    message, of a request for the domain type. -/
theorem hashStruct_takes_domain :
    ∃ d answer, Prints .compatible true { action := .digest } flagText answer ∧
      Json.parse answer = .ok (DigestAnswer.sorted ⟨domainType, .v4, d⟩) ∧
      ¬ Prints .compatible false { action := .hashStruct } flagText
        (Hex.encode d.structHash.bytes) := by
  have hdomain : flagSession.hashStruct keccak256 domainType flagRequest.domain =
      .ok (keccak256 (flagData .zero)) := hashStruct_flagSession rfl rfl
  have hmessage : flagSession.hashStruct keccak256 domainType flagRequest.message =
      .ok (keccak256 (flagData (.ofBool true))) := hashStruct_flagSession rfl rfl
  obtain ⟨d, hd⟩ := Session.exists_signingHash hdomain hmessage
  obtain ⟨hseparator, hstruct, -⟩ := Session.signingHash_eq_ok.1 hd
  refine ⟨d, _, prints_digest_iff.2 ⟨_, _, d, load_flagText, hd, rfl⟩,
    parse_print (DigestAnswer.readsBack ⟨domainType, .v4, d⟩), fun prints => ?_⟩
  have printsSeparator : PrintsStruct .compatible none flagText d.domainSeparator :=
    printsStruct_of_load load_flagText hseparator
  obtain ⟨-, printed, -⟩ := printsSeparator
  have same : d.domainSeparator = d.structHash :=
    Word.ext' (Hex.encode_inj (printed.unique prints))
  have hzero : keccak256 (flagData .zero) = d.domainSeparator :=
    Except.ok.inj (hdomain.symm.trans hseparator)
  have hone : keccak256 (flagData (.ofBool true)) = d.structHash :=
    Except.ok.inj (hmessage.symm.trans hstruct)
  exact flagData_separates (hzero.trans (same.trans hone.symm))

end Commands
end CommandLine
end TypedMessage
