import TypedMessage.CommandLine.Run

/- The program: gathers what a run needs from the outside and carries out what the
   run leaves behind. -/
namespace TypedMessage.CommandLine

/-- What the system says about a failure. -/
def SystemFault.ofError : IO.Error → SystemFault
  | .alreadyExists _ code text | .otherError code text | .resourceBusy code text
  | .resourceVanished code text | .unsupportedOperation code text | .hardwareFault code text
  | .unsatisfiedConstraints code text | .illegalOperation code text | .protocolError code text
  | .timeExpired code text | .interrupted _ code text | .noFileOrDirectory _ code text
  | .invalidArgument _ code text | .permissionDenied _ code text
  | .resourceExhausted _ code text | .inappropriateType _ code text
  | .noSuchThing _ code text => ⟨code.toNat, text⟩
  | .unexpectedEof => ⟨0, "unexpected end of file"⟩
  | .userError text => ⟨0, text⟩

/-- The file at a path, or why it cannot be read. -/
def fetch (path : String) : IO (Except SystemFault Bytes) :=
  try
    let bs ← (← IO.FS.Handle.mk path .read).readBinToEnd
    return .ok bs.data.toList
  catch e => return .error (.ofError e)

/-- The surroundings of the run that arguments ask for. -/
def gather (args : List String) : IO World := do
  let keys := [Settings.versionVariable, Settings.widthVariable, Settings.debugVariable]
  let values ← keys.mapM fun k => return (k, ← IO.getEnv k)
  let environment := fun k => (values.find? (·.1 = k)).bind (·.2)
  match Invocation.parse args with
  | .error _ => return ⟨environment, [], fun _ => .error .missing⟩
  | .ok i => match i.command.file with
    | some path =>
      let content ← fetch path
      return ⟨environment, [], fun _ => content⟩
    | none =>
      let bs ← (← IO.getStdin).readBinToEnd
      return ⟨environment, bs.data.toList, fun _ => .error .missing⟩

end TypedMessage.CommandLine

open TypedMessage.CommandLine in
def main (args : List String) : IO UInt32 := do
  let outcome := run (← gather args) args
  (← IO.getStdout).putStr outcome.stdout
  (← IO.getStderr).putStr outcome.stderr
  return UInt32.ofNat outcome.exitCode
