import TypedMessage.Layout
import TypedMessage.Keccak

/- Encoding sessions: words, buffers and digests of typed values, and the steps by
   which a session is changed and asked. A step that fails leaves the session as
   it was. -/
namespace TypedMessage

/-- The reserved name of the struct that describes the signing domain. -/
def domainType : String := "EIP712Domain"

/-- A digest to sign, with the two struct hashes it is made of. -/
structure SigningHash where
  domainSeparator : Word
  structHash : Word
  digest : Word
  deriving DecidableEq

/-- The bytes whose hash is the digest: a version mark and two struct hashes. -/
def signingBytes (domainSeparator structHash : Word) : Bytes :=
  0x19 :: 0x01 :: domainSeparator.bytes ++ structHash.bytes

namespace Session
variable (h : Hash) (s : Session)

/-- The word of a value of a declared type. -/
def encodeField (type : String) (v : Json) : Except Fault Word :=
  (s.layoutField type v).map (Slot.value h)

/-- The type hash of a struct and the words of its fields. -/
def encodeData (name : String) (v : Json) : Except Fault Bytes :=
  (s.layoutData name v).map (Slot.concat h)

/-- The hash of a struct's encoding. -/
def hashStruct (name : String) (v : Json) : Except Fault Word :=
  (s.encodeData h name v).map h

/-- The hash of a type string. -/
def typeHash (name : String) : Word := h (utf8 (s.schema.typeString name))

/-- The digest of a message under a domain; the domain is encoded first. -/
def signingHash (primary : String) (message domain : Json) : Except Fault SigningHash := do
  let domainSeparator ← s.hashStruct h domainType domain
  let structHash ← s.hashStruct h primary message
  return ⟨domainSeparator, structHash, h (signingBytes domainSeparator structHash)⟩

/-! ## Steps -/

/-- What a session can be asked. -/
inductive Question
  | schema
  | fields (name : String)
  | dependencies (name : String)
  | typeString (name : String)
  | typeHash (name : String)
  | field (type : String) (v : Json)
  | data (name : String) (v : Json)
  | structHash (name : String) (v : Json)
  | signing (primary : String) (message domain : Json)

/-- What a session answers. -/
inductive Answer
  | session (version : Version) (names : List String)
  | fields (fields : Option (List Field))
  | structs (schema : Schema)
  | text (s : String)
  | bytes (bs : Bytes)
  | signing (digest : SigningHash)

/-- The answer to a question. -/
def ask : Question → Except Fault Answer
  | .schema => .ok (.session s.version s.schema.keys)
  | .fields name => .ok (.fields (s.schema.get? name))
  | .dependencies name => .ok (.structs (s.schema.dependencies name))
  | .typeString name => .ok (.text (s.schema.typeString name))
  | .typeHash name => .ok (.bytes (s.typeHash h name).bytes)
  | .field type v => (s.encodeField h type v).map fun w => .bytes w.bytes
  | .data name v => (s.encodeData h name v).map .bytes
  | .structHash name v => (s.hashStruct h name v).map fun w => .bytes w.bytes
  | .signing primary message domain => (s.signingHash h primary message domain).map .signing

/-- The session that a schema opens. -/
def start (schema : Json) (version : Version) : Except Fault Session :=
  (Schema.ofJson schema).mapError .schema |>.map fun d => { schema := d, version }

/-- A change of a session. -/
inductive Change
  | schema (v : Json)
  | version (v : Version)
  | enforceWidth (on : Bool)

/-- The session after a change. -/
def change : Change → Except Fault Session
  | .schema v => (Schema.ofJson v).mapError .schema |>.map fun d => { s with schema := d }
  | .version v => .ok { s with version := v }
  | .enforceWidth on => .ok { s with enforceWidth := on }

/-- A step: a change or a question. -/
inductive Step
  | change (c : Change)
  | ask (q : Question)

/-- The session after a step, and the answer to it; a change answers with the new
    state. -/
def step : Step → Session × Except Fault Answer
  | .ask q => (s, s.ask h q)
  | .change c => match s.change c with
    | .ok s' => (s', s'.ask h .schema)
    | .error fault => (s, .error fault)

/-- The answers to steps taken one after the other. -/
def run : Session → List Step → List (Except Fault Answer)
  | _, [] => []
  | s, c :: cs => (s.step h c).2 :: run (s.step h c).1 cs

end Session
end TypedMessage
