import TypedMessage.Reply.Basic
import TypedMessage.Request.Query

/- The two functions that other programs call. Input is a buffer of bytes that ends
   at its first zero byte, or no buffer at all; the settings come from the
   environment; the answer is always a reply, and its text is given back in a buffer
   of the same kind. -/
namespace TypedMessage.Service

/-- The text in a buffer. -/
def inputText : Option Bytes → Except Failure String
  | none => .error { code := .invalidInput, message := "Null input pointer" }
  | some bs => match ofUtf8? (bs.takeWhile (· ≠ 0)) with
    | some s => .ok s
    | none => .error { code := .invalidInput, message := "Invalid UTF-8 string" }

/-- The failure of a text that could not be read. -/
def unreadable (details : String) : Failure :=
  { code := .parseError, message := "Invalid typed data", details := some details }

/-- The digest that the request in a text asks to sign. -/
def digestOf (settings : Settings) (text : String) : Except Failure DigestAnswer := do
  let r ← (Request.parse text).mapError fun fault => unreadable fault.message
  let hash ← (r.signingHash keccak256 settings).mapError Failure.ofFault
  return ⟨r.primaryType, r.effectiveVersion settings, hash⟩

/-- What a session tells about a struct type. -/
def typeAnswer (s : Session) (name : String) : TypeAnswer :=
  ⟨name, s.schema.typeString name, Hex.encode (s.typeHash keccak256 name).bytes⟩

/-- The type string that the query in a text asks for. -/
def typeOf (settings : Settings) (text : String) : Except Failure TypeAnswer := do
  let q ← (Query.parse text).mapError fun fault => unreadable fault.message
  let s ← (q.request.session settings).mapError Failure.ofFault
  if s.schema.contains q.target then return typeAnswer s q.target
  else .error (.ofFault (.undefinedType q.target))

/-- The settings of the environment. -/
def settings (env : Environment) : Settings := (Settings.ofEnvironment env).1

/-- Hashes a request. -/
def hash (env : Environment) (input : Option Bytes) : Reply DigestAnswer :=
  .ofExcept (inputText input >>= digestOf (settings env))

/-- Tells the type string and the type hash that a query asks for. -/
def encodeType (env : Environment) (input : Option Bytes) : Reply TypeAnswer :=
  .ofExcept (inputText input >>= typeOf (settings env))

/-! ## Output -/

/-- The text in place of one that would end early. -/
def unsendable : String :=
  "\x7b\"success\":false,\"error\":\x7b\"code\":\"internal\",\"message\":" ++
    "\"String conversion failed\"\x7d\x7d"

/-- The bytes for a caller, who takes the first zero byte for their end. -/
def buffer (text : String) : Bytes :=
  if 0 ∈ utf8 text then utf8 unsendable else utf8 text

/-- What a caller is given who asks for a digest. -/
def hashBuffer (env : Environment) (input : Option Bytes) : Bytes :=
  buffer ((hash env input).text DigestAnswer.write?)

/-- What a caller is given who asks for a type string. -/
def encodeTypeBuffer (env : Environment) (input : Option Bytes) : Bytes :=
  buffer ((encodeType env input).text TypeAnswer.write?)

end TypedMessage.Service
