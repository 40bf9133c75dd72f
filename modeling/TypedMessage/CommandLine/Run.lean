import TypedMessage.CommandLine.Arguments
import TypedMessage.CommandLine.FileTree
import TypedMessage.Log.Entry
import TypedMessage.Service

/- Runs of the program: what is read, what is printed, and with which code a run
   ends. The surroundings of a run are a value, so a run is a function. -/
namespace TypedMessage.CommandLine

/-- What a run finds around it. -/
structure World where
  environment : Environment
  stdin : Bytes
  file : String → Except SystemFault Bytes

/-- What a run leaves behind. -/
structure Outcome where
  exitCode : Nat
  stdout : String
  stderr : String
  deriving DecidableEq, Repr

/-- Why a run has no result. -/
inductive RunFault
  | unreadable (path : String) (fault : SystemFault)
  | notText (source : String)
  | request (fault : Fault)
  | hashing (primaryType : String) (fault : Fault)
  | undefined (name : String)
  deriving DecidableEq, Repr

namespace RunFault

/-- The fault in one line. -/
def headline : RunFault → String
  | unreadable path _ => "reading " ++ path
  | notText source => "reading " ++ source
  | request fault => fault.message
  | hashing primaryType _ => "hashing " ++ primaryType ++ " request"
  | undefined name => "type " ++ name ++ " is not defined in types"

/-- What is behind the fault, if that is another thing. -/
def cause? : RunFault → Option String
  | unreadable _ fault => some fault.message
  | notText _ => some "stream did not contain valid UTF-8"
  | hashing _ fault => some fault.message
  | _ => none

/-- What the encoder noted. -/
def note? : RunFault → Option Log.Entry
  | request fault | hashing _ fault => Log.ofFault? fault
  | _ => none

/-- Each line of a text four blanks deeper. -/
def indent (s : String) : String :=
  "    " ++ String.join (s.toList.map fun c => if c = '\n' then "\n    " else String.singleton c)

/-- The fault as it is printed. -/
def render (f : RunFault) : String :=
  "Error: " ++ f.headline ++
    (f.cause?.map fun c => "\n\nCaused by:\n" ++ indent c).getD ""

end RunFault

/-- The settings of a run: the environment first, options on top. -/
def settings (o : Options) (env : Settings) : Settings :=
  let s := o.protocol.elim env env.withVersion
  let s := if o.enforceWidth then s.withEnforceWidth true else s
  if o.debug then s.withDebug true else s

/-- The text that the input holds. -/
def World.payload (w : World) : (file : Option String) → Except RunFault String
  | none => match ofUtf8? w.stdin with
    | some s => .ok s
    | none => .error (.notText "stdin")
  | some path => match w.file path with
    | .error fault => .error (.unreadable path fault)
    | .ok bs => match ofUtf8? bs with
      | some s => .ok s
      | none => .error (.notText path)

/-- A request and the session it opens. -/
def load (settings : Settings) (payload : String) : Except RunFault (Request × Session) := do
  let r ← (Request.parse payload).mapError .request
  let s ← (r.session settings).mapError .request
  return (r, s)

/-- The note on a digest that was computed. -/
def digestNote (r : Request) (d : SigningHash) : Log.Entry :=
  ⟨.debug, "cli", "digest computed",
    [("primary_type", r.primaryType), ("digest", Hex.encode d.digest.bytes)]⟩

/-- What `digest` prints, and its note. -/
def runDigest (settings : Settings) (json : Bool) (payload : String) :
    Except RunFault (String × List Log.Entry) := do
  let (r, s) ← load settings payload
  let d ← (s.signingHash keccak256 r.primaryType r.message r.domain).mapError
    (.hashing r.primaryType)
  let text := if json then (DigestAnswer.toJson ⟨r.primaryType, s.version, d⟩).pretty
    else Hex.encode d.digest.bytes
  return (text, [digestNote r d])

/-- What `encode-type` and `type-hash` print; `bare` is for when no JSON is wanted. -/
def runType (settings : Settings) (json : Bool) (typeName : Option String)
    (bare : TypeAnswer → String) (payload : String) : Except RunFault String := do
  let (r, s) ← load settings payload
  let name := typeName.getD r.primaryType
  if s.schema.contains name then
    let a := Service.typeAnswer s name
    return if json then a.toJson.pretty else bare a
  else .error (.undefined name)

/-- What `hash-struct` and `encode-data` print: bytes under `key`, of the domain if
    its type is asked for, and else of the message. -/
def runData (settings : Settings) (json : Bool) (typeName : Option String) (key : String)
    (encode : Session → String → Json → Except Fault Bytes) (payload : String) :
    Except RunFault String := do
  let (r, s) ← load settings payload
  let name := typeName.getD r.primaryType
  let bs ← (encode s name (if name = domainType then r.domain else r.message)).mapError .request
  return if json then
      (Json.object [(key, .string (Hex.encode bs)), ("typeName", .string name),
        ("version", .string s.version.tag)]).pretty
    else Hex.encode bs

/-- What a command prints for the text of its input, and its notes. -/
def Command.run (settings : Settings) (json : Bool) (c : Command) (payload : String) :
    Except RunFault (String × List Log.Entry) :=
  match c.action with
  | .digest => runDigest settings json payload
  | .encodeType => (runType settings json c.typeName TypeAnswer.encodedType payload).map (·, [])
  | .typeHash => (runType settings json c.typeName TypeAnswer.typeHash payload).map (·, [])
  | .hashStruct =>
    (runData settings json c.typeName "structHash"
      (fun s name v => (s.hashStruct keccak256 name v).map Word.bytes) payload).map (·, [])
  | .encodeData =>
    (runData settings json c.typeName "encodedData"
      (fun s name v => s.encodeData keccak256 name v) payload).map (·, [])

/-- Lines, each with its end. -/
def lines (ls : List String) : String := String.join (ls.map (· ++ "\n"))

/-- The lines of log entries; debug entries only if they are wanted. -/
def logLines (debug : Bool) (es : List Log.Entry) : List String :=
  (es.filter fun e => debug || e.level = .warn).filterMap Log.Entry.render?

/-- The run of an invocation. -/
def Invocation.run (w : World) (i : Invocation) : Outcome :=
  let (fromEnvironment, warnings) := Settings.ofEnvironment w.environment
  let settings := settings i.options fromEnvironment
  let warned := logLines true (warnings.map fun x => ⟨.warn, "cli", x.message, []⟩)
  match w.payload i.command.file >>= i.command.run settings i.options.json with
  | .ok (text, notes) => ⟨0, lines [text], lines (warned ++ logLines settings.debug notes)⟩
  | .error fault =>
    ⟨1, "", lines (warned ++ logLines settings.debug fault.note?.toList ++ [fault.render])⟩

/-- The name and the number of the program. -/
def versionLine : String := "typed-data 0.1.0"

def usageLine : String :=
  "Usage: typed-data [--protocol VERSION] [--strict-int-width] [--debug] [--json] " ++
    "digest|encode-type|type-hash|hash-struct|encode-data [--type NAME] [FILE]"

/-- The run that arguments ask for. -/
def run (w : World) (args : List String) : Outcome :=
  match Invocation.parse args with
  | .ok i => i.run w
  | .error .version => ⟨0, lines [versionLine], ""⟩
  | .error .help => ⟨0, lines [usageLine], ""⟩
  | .error .usage => ⟨2, "", lines [usageLine]⟩

end TypedMessage.CommandLine
