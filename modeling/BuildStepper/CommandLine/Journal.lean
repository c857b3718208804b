import BuildStepper.Json.Writer
import BuildStepper.Log.Filter
import BuildStepper.Session.Build
import BuildStepper.Settings.Basic
import BuildStepper.Settings.Diagnosis

/-!
# The log of a run

What the program logs about its settings, about the wait for a client, and about the build. An event
is one line, either a JSON object or text for people to read.
-/

namespace BuildStepper

/-- The line of an event as a JSON object. -/
def LogEvent.jsonLine (e : LogEvent) : String :=
  let member (name : String) (value : List Char) : List Char := Json.putString name ++ ':' :: value
  let object (members : List (List Char)) : List Char :=
    '\x7b' :: ([','].intercalate members) ++ ['\x7d']
  String.ofList (object [
    member "level" (Json.putString e.level.label),
    member "fields" (object ((("message", e.message) :: e.details).map fun detail =>
      member detail.1 (Json.putString detail.2))),
    member "target" (Json.putString e.target)])

/-- The line of an event as text. -/
def LogEvent.textLine (e : LogEvent) : String :=
  let details := e.details.map fun detail => " " ++ detail.1 ++ "=" ++ detail.2
  e.level.label ++ " " ++ e.target ++ ": " ++ e.message ++ String.join details

namespace CommandLine

/-- The part of the program that reads settings. -/
def settingsTarget : String := "nova.config"

/-- The part of the program that debugs. -/
def debugTarget : String := "nova.build_debug"

/-- The text of a warning among the details of an event. -/
def warningText (w : SettingsWarning) : String :=
  "InvalidValue \x7b toml_path: " ++ Text.quoted w.path ++ ", message: " ++ Text.quoted w.message
    ++ " \x7d"

/-- What is wrong with the settings. -/
def diagnosisEvents (d : Diagnosis) : List LogEvent :=
  d.unknownKeys.map (fun key => ⟨.warn, settingsTarget, "unknown config key", [("key", key)]⟩)
    ++ d.warnings.map (fun w =>
      ⟨.warn, settingsTarget, "config warning", [("warning", warningText w)]⟩)
    ++ d.faults.map fun f => ⟨.error, settingsTarget, "invalid config", [("error", f.name)]⟩

/-- The file of the log cannot be written. -/
def unwritableLog (path : String) : LogEvent :=
  ⟨.warn, settingsTarget, "failed to open log file; file logging disabled", [("path", path)]⟩

/-- The port is looked for, given the properties at the start of the build. -/
def portEvents (settings : DebugSettings) (baseline : PropertyTable) : List LogEvent :=
  ((settings.ignoredPort? baseline).map fun value =>
      ⟨.warn, debugTarget, "ignoring debug port property that is not a port number",
        [("property", settings.portProperty), ("value", value)]⟩).toList
    ++ if (settings.listenPort? baseline).isSome then []
      else [⟨.info, debugTarget, "no debug port configured; build runs without a debugger",
        [("property", settings.portProperty)]⟩]

/-- The program listens. -/
def listening (address : String) : LogEvent :=
  ⟨.info, debugTarget, "waiting for debug client", [("addr", address)]⟩

/-- Nobody came. -/
def unattended (reason : String) : LogEvent :=
  ⟨.warn, debugTarget, "debug client did not attach; build runs unobserved", [("error", reason)]⟩

/-- A client came. -/
def attached (peer : String) : LogEvent :=
  ⟨.info, debugTarget, "debug client attached", [("peer", peer)]⟩

/-- The session is over. -/
def ended (reason : String) : LogEvent :=
  ⟨.info, debugTarget, "debug session ended", [("reason", reason)]⟩

/-- A callback of the build. -/
def buildEvents : BuildEvent → List LogEvent
  | .targetStarted t => [⟨.debug, debugTarget, "target started", [("name", t.name)]⟩]
  | _ => []

/-- The build is over. -/
def finished (status : Status) : LogEvent :=
  ⟨.info, debugTarget, "build finished", [("status", status.name)]⟩

/-- Why no client could attach. -/
inductive Absence where
  /-- The place to listen at cannot be had. -/
  | refused (reason : String)
  /-- Nobody connected to this address in time. -/
  | missed (address reason : String)
deriving DecidableEq, Repr

namespace Absence

/-- The address at which the client was waited for. -/
def address? : Absence → Option String
  | refused _ => none
  | missed address _ => some address

/-- The reason that is given. -/
def reason : Absence → String
  | refused reason => reason
  | missed _ reason => reason

/-- It has turned out that no client attaches. -/
def events (absence : Absence) : List LogEvent :=
  [unattended absence.reason, ended "debug client did not attach"]

end Absence

/-- There is no port to wait at. -/
def withoutPort : LogEvent :=
  ended "no debug port configured"

/-- The wait for a client that does not attach, if there is a port to wait at. -/
def waitEvents (settings : DebugSettings) (baseline : PropertyTable) (absence : Absence) :
    List LogEvent :=
  if (settings.listenPort? baseline).isSome then
    (absence.address?.map listening).toList ++ absence.events
  else [withoutPort]

/-- The log of a build that no client has ever attached to. -/
def unobserved (settings : DebugSettings) (trace : Trace) (absence : Absence) : List LogEvent :=
  let baseline := trace.initialProperties.all
  portEvents settings baseline ++ waitEvents settings baseline absence
    ++ trace.events.flatMap buildEvents ++ [finished .terminated]

end CommandLine

end BuildStepper
