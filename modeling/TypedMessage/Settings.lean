import TypedMessage.Version

/- Settings of an encoding: the version for requests that name none, whether
   integers have to fit their declared width, and whether debug lines are wanted.
   They start from a preset and are adjusted by the environment and by options. -/
namespace TypedMessage

/-- The preset that settings are, or `custom` once one of them was changed. -/
inductive Profile
  | compatible
  | strict
  | legacy
  | custom
  deriving DecidableEq, Repr

def Profile.name : Profile → String
  | compatible => "Compatible"
  | strict => "Strict"
  | legacy => "Legacy"
  | custom => "Custom"

structure Settings where
  profile : Profile
  version : Version
  enforceWidth : Bool
  debug : Bool
  deriving DecidableEq, Repr

/-- What is worth telling about settings, or about the environment they come from. -/
inductive Warning
  | notVersion (key raw : String) (used : Version)
  | notFlag (key raw : String)
  | widthUnderV3
  | limitsOfV3
  deriving DecidableEq, Repr

def Warning.message : Warning → String
  | notVersion key raw used =>
    key ++ "=" ++ raw ++ " is not a version, using " ++ used.tag
  | notFlag key raw => key ++ "=" ++ raw ++ " is not a boolean"
  | widthUnderV3 => "integer range checks change v3 digests relative to other wallets"
  | limitsOfV3 => "v3 rejects array fields and skips missing fields"

/-- The value of an environment variable, if it is set. -/
abbrev Environment := String → Option String

namespace Settings

/-- Version 4, widths not checked. -/
def compatible : Settings := ⟨.compatible, .v4, false, false⟩

/-- Version 4, widths checked. -/
def strict : Settings := ⟨.strict, .v4, true, false⟩

/-- Version 3, widths not checked. -/
def legacy : Settings := ⟨.legacy, .v3, false, false⟩

/-- The settings that apply where nothing else is said. -/
def default : Settings := compatible

/-- Settings that differ from a preset are no longer that preset. -/
def withVersion (s : Settings) (v : Version) : Settings :=
  if v = s.version then s else { s with version := v, profile := .custom }

def withEnforceWidth (s : Settings) (on : Bool) : Settings :=
  if on = s.enforceWidth then s else { s with enforceWidth := on, profile := .custom }

def withDebug (s : Settings) (on : Bool) : Settings := { s with debug := on }

/-- What is worth telling about the settings. -/
def warnings (s : Settings) : List Warning :=
  (if s.version = .v3 ∧ s.enforceWidth then [.widthUnderV3] else []) ++
    (if s.version = .v3 then [.limitsOfV3] else [])

/-! ## The environment -/

def versionVariable : String := "TYPED_DATA_VERSION"
def widthVariable : String := "TYPED_DATA_STRICT_INT_WIDTH"
def debugVariable : String := "TYPED_DATA_DEBUG"

/-- A truth value in words; an empty text is false. -/
def readFlag? (raw : String) : Option Bool :=
  let word := Text.lower (Text.trim raw)
  if word ∈ ["1", "true", "yes", "on"] then some true
  else if word ∈ ["0", "false", "no", "off", ""] then some false
  else none

/-- The settings adjusted by the version variable. -/
def adjustVersion (env : Environment) (s : Settings) : Settings × List Warning :=
  match env versionVariable with
  | none => (s, [])
  | some raw => match Version.ofTag? raw with
    | some v => (s.withVersion v, [])
    | none => (s, [.notVersion versionVariable raw s.version])

/-- The settings adjusted by a variable that holds a truth value. -/
def adjustFlag (env : Environment) (key : String) (set : Settings → Bool → Settings)
    (s : Settings) : Settings × List Warning :=
  match env key with
  | none => (s, [])
  | some raw => match readFlag? raw with
    | some on => (set s on, [])
    | none => (s, [.notFlag key raw])

/-- The compatible preset adjusted by the environment. A variable that cannot be
    read is passed over with a warning; warnings about the outcome come last. -/
def ofEnvironment (env : Environment) : Settings × List Warning :=
  let (s, w₁) := adjustVersion env compatible
  let (s, w₂) := adjustFlag env widthVariable withEnforceWidth s
  let (s, w₃) := adjustFlag env debugVariable withDebug s
  (s, w₁ ++ w₂ ++ w₃ ++ s.warnings)

end Settings
end TypedMessage
