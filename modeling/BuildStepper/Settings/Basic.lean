import BuildStepper.Log.Filter
import BuildStepper.Properties.Table

/-!
# Settings

What a settings file can say: how the program logs, and how it serves a debug client. Every setting
has a default, so the empty file is a settings file.

The level in the settings is either the plain name of a level, where case and blanks around it do
not count, or a whole filter. A second filter can come from the environment and then refines it.
What cannot be read gives way: both filters together, then the one of the environment alone, then
the one of the settings alone, then `info`.

The port to listen at comes from a property of the build, whose name is a setting, or else from the
settings. A property that is no port number counts for nothing; without a port no client can ever
attach.
-/

namespace BuildStepper

/-- How the program logs. -/
structure LogSettings where
  /-- A level, or a list of filter directives. -/
  level : String := "info"
  /-- Whether each line of the log is a JSON object. -/
  json : Bool := false
  /-- Whether the log also goes to standard error. -/
  stderr : Bool := true
  /-- A file to which the log is appended. -/
  file : Option String := none
deriving DecidableEq, Inhabited, Repr

/-- How the program serves a debug client. -/
structure DebugSettings where
  /-- The address to listen at. -/
  host : String := "127.0.0.1"
  /-- The port to listen at; `0` stands for any free one. -/
  port : Option UInt16 := none
  /-- The property of the build that goes before `port`. -/
  portProperty : String := "nova.build.debug.port"
  /-- How many milliseconds the build waits for a client; `0` stands for no limit. -/
  acceptTimeout : UInt64 := 30000
  /-- Whether a breakpoint can stop the build where a target starts. -/
  targetBreakpoints : Bool := true
deriving DecidableEq, Inhabited, Repr

/-- The limit on how long the build waits for a client, in milliseconds. -/
def DebugSettings.acceptLimit? (settings : DebugSettings) : Option UInt64 :=
  if settings.acceptTimeout = 0 then none else some settings.acceptTimeout

/-- All settings. -/
structure Settings where
  logging : LogSettings := {}
  debug : DebugSettings := {}
deriving DecidableEq, Inhabited, Repr

/-! ## The log filter -/

/-- The level in the settings as the text of a filter. -/
def LogSettings.levelText (settings : LogSettings) : String :=
  let text := Text.trim settings.level
  let word := text.map Char.toLower
  if text.isEmpty then "info"
  else if word = "warning" then "warn"
  else if ["trace", "debug", "info", "warn", "error"].contains word then word
  else text

/-- The filter of the settings alone. -/
def LogSettings.ownFilter (settings : LogSettings) : LogFilter :=
  match LogFilter.ofText settings.levelText with
  | .ok filter => filter
  | .error _ => LogFilter.upTo .info

/-- The filter in force, with the filter of the environment if there is one. -/
def LogSettings.filter (settings : LogSettings) (environment : Option String) : LogFilter :=
  match environment.map Text.trim with
  | none | some "" => settings.ownFilter
  | some refinement =>
    match LogFilter.ofText (settings.levelText ++ "," ++ refinement) with
    | .ok filter => filter
    | .error _ =>
      match LogFilter.ofText refinement with
      | .ok filter => filter
      | .error _ => settings.ownFilter

/-! ## The port -/

/-- The number of ports. -/
def portLimit : Nat := Nat.pow 2 16

/-- Reads a port number, which may have blanks around it and a plus sign in front. -/
def portOfText? (text : String) : Option UInt16 :=
  (Text.numeral? portLimit (Text.trimChars text.toList)).map Nat.toUInt16

namespace DebugSettings

/-- The port to listen at, given the properties at the start of the build. -/
def listenPort? (settings : DebugSettings) (baseline : PropertyTable) : Option UInt16 :=
  ((baseline.get? settings.portProperty).bind portOfText?).or settings.port

/-- The value of the property for the port where it is no port number. -/
def ignoredPort? (settings : DebugSettings) (baseline : PropertyTable) : Option String :=
  (baseline.get? settings.portProperty).filter fun value => (portOfText? value).isNone

end DebugSettings

end BuildStepper
