import TypedMessage.Version

/- The arguments of a run. Options are `--name`, `--name value` or `--name=value`;
   those that every command has may stand before or after the command, and what
   stands after it counts first. After `--` every argument is a file. -/
namespace TypedMessage.CommandLine

/-- What a run computes. -/
inductive Action
  | digest
  | encodeType
  | typeHash
  | hashStruct
  | encodeData
  deriving DecidableEq, Repr

def Action.name : Action → String
  | digest => "digest"
  | encodeType => "encode-type"
  | typeHash => "type-hash"
  | hashStruct => "hash-struct"
  | encodeData => "encode-data"

/-- The action with this name. -/
def Action.ofName? (name : String) : Option Action :=
  [digest, encodeType, typeHash, hashStruct, encodeData].find? (·.name = name)

/-- Options that every action has. -/
structure Options where
  protocol : Option Version := none
  enforceWidth : Bool := false
  debug : Bool := false
  json : Bool := false
  deriving DecidableEq, Repr

/-- The options of both places; `inner` stood after the action. -/
def Options.merge (outer inner : Options) : Options where
  protocol := inner.protocol <|> outer.protocol
  enforceWidth := outer.enforceWidth || inner.enforceWidth
  debug := outer.debug || inner.debug
  json := outer.json || inner.json

/-- An action with its struct type and its file, where they are named. -/
structure Command where
  action : Action
  typeName : Option String := none
  file : Option String := none
  deriving DecidableEq, Repr

structure Invocation where
  options : Options
  command : Command
  deriving DecidableEq, Repr

/-- Why arguments do not ask for an action. -/
inductive Stop
  | usage
  | help
  | version
  deriving DecidableEq, Repr

/-- Asking for help on what `words` name: the program as a whole, one action, or
    help itself. -/
def Stop.ofHelp (words : List String) : Stop :=
  match words with
  | [] => help
  | [w] => if w = "help" ∨ (Action.ofName? w).isSome then help else usage
  | _ => usage

/-- An argument, or an option together with the argument that is its value. A word
    knows the arguments after it. -/
inductive Token
  | long (name : String) (value : Option String)
  | short (letter : Char)
  | word (w : String) (after : List String)
  | trailing (w : String)
  deriving DecidableEq, Repr

/-- The argument is no option; a lone dash is none either. -/
def isWord (arg : String) : Bool :=
  match arg.toList with
  | '-' :: _ :: _ => false
  | _ => true

/-- The options that take a value. -/
def takesValue (name : String) : Bool := name = "protocol" || name = "type"

/-- An option without its dashes: its name, and what follows an equals sign. -/
def splitLong (cs : List Char) : String × Option String :=
  (String.ofList (cs.takeWhile (· ≠ '=')),
    match cs.dropWhile (· ≠ '=') with
    | [] => none
    | _ :: v => some (String.ofList v))

/-- The tokens of the arguments. An option that takes a value and has none
    attached takes the next argument, unless that is an option. -/
def tokens : List String → List Token
  | [] => []
  | arg :: rest => match arg.toList with
    | ['-', '-'] => rest.map .trailing
    | '-' :: '-' :: cs =>
      let (name, attached) := splitLong cs
      if attached.isSome || !takesValue name then .long name attached :: tokens rest
      else match rest with
        | [] => [.long name none]
        | v :: more =>
          if isWord v then .long name (some v) :: tokens more
          else .long name none :: tokens (v :: more)
    | '-' :: c :: _ => .short c :: tokens rest
    | _ => .word arg rest :: tokens rest

/-- What has been read of the arguments. -/
structure Draft where
  outer : Options := {}
  inner : Options := {}
  command : Option Command := none

namespace Draft

/-- The options of the place that is being read. -/
def options (d : Draft) : Options := if d.command.isSome then d.inner else d.outer

def setOptions (d : Draft) (o : Options) : Draft :=
  if d.command.isSome then { d with inner := o } else { d with outer := o }

/-- Takes an option without a value, which may stand once in each place. -/
def takeFlag (d : Draft) (value : Option String) (get : Options → Bool)
    (set : Options → Options) : Except Stop Draft :=
  if value.isSome || get d.options then .error .usage else .ok (d.setOptions (set d.options))

/-- Takes the version to assume. -/
def takeProtocol (d : Draft) (value : Option String) : Except Stop Draft :=
  match value.bind Version.ofTag?, d.options.protocol with
  | some v, none => .ok (d.setOptions { d.options with protocol := some v })
  | _, _ => .error .usage

/-- Takes the name of a struct type, which every action but the digest may have. -/
def takeType (d : Draft) (value : Option String) : Except Stop Draft :=
  match d.command, value with
  | some c, some name =>
    if c.action = .digest || c.typeName.isSome then .error .usage
    else .ok { d with command := some { c with typeName := some name } }
  | _, _ => .error .usage

/-- Takes a file, of which there is at most one. -/
def takeFile (d : Draft) (w : String) : Except Stop Draft :=
  match d.command with
  | some c =>
    if c.file.isSome || w.isEmpty then .error .usage
    else .ok { d with command := some { c with file := some w } }
  | none => .error .usage

/-- Takes an option. -/
def takeLong (d : Draft) (name : String) (value : Option String) : Except Stop Draft :=
  match name with
  | "protocol" => d.takeProtocol value
  | "strict-int-width" =>
    d.takeFlag value Options.enforceWidth fun o => { o with enforceWidth := true }
  | "debug" => d.takeFlag value Options.debug fun o => { o with debug := true }
  | "json" => d.takeFlag value Options.json fun o => { o with json := true }
  | "type" => d.takeType value
  | "help" => .error (if value.isSome then .usage else .help)
  | "version" => .error (if value.isSome || d.command.isSome then .usage else .version)
  | _ => .error .usage

/-- Takes a word: the action, and then a file. All that stands after `help` says
    what the help is for. -/
def takeWord (d : Draft) (w : String) (after : List String) : Except Stop Draft :=
  if d.command.isSome then d.takeFile w
  else if w = "help" then .error (.ofHelp after)
  else match Action.ofName? w with
    | some action => .ok { d with command := some { action } }
    | none => .error .usage

def take (d : Draft) : Token → Except Stop Draft
  | .long name value => d.takeLong name value
  | .short c =>
    .error (if c = 'h' then .help else if c = 'V' && d.command.isNone then .version else .usage)
  | .word w after => d.takeWord w after
  | .trailing w => d.takeFile w

end Draft

/-- Reads the arguments. -/
def Invocation.parse (args : List String) : Except Stop Invocation := do
  let d ← (tokens args).foldlM Draft.take {}
  match d.command with
  | some c => return ⟨d.outer.merge d.inner, c⟩
  | none => .error .usage

end TypedMessage.CommandLine
