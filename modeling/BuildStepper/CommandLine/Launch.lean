import BuildStepper.CommandLine.Help
import BuildStepper.CommandLine.Journal
import BuildStepper.Trace.Reader

/-!
# Launching the program

From the command line to the point at which the build starts: the settings are loaded and checked,
then the trace. Settings that cannot be loaded are a complaint, and the program goes on with the
defaults; settings with a fault, and a trace that cannot be loaded, end it.

Files are read by a function that is a parameter, so that the launch itself is the same whatever it
reads from.
-/

namespace BuildStepper.CommandLine

/-- Why a file yields no text. -/
inductive FileError where
  | missing
  | denied
  /-- Something on the way to it is a file. -/
  | notDirectory
  | isDirectory
  | nameTooLong
  /-- Its bytes are not UTF-8. -/
  | notText
  | other (reason : String)
deriving DecidableEq, Repr

/-- The error that a system call reports by a number. -/
def FileError.ofCode? : Nat → Option FileError
  | 2 => some .missing
  | 13 => some .denied
  | 20 => some .notDirectory
  | 21 => some .isDirectory
  | 36 => some .nameTooLong
  | _ => none

/-- The error in words. -/
def FileError.message : FileError → String
  | .missing => "No such file or directory (os error 2)"
  | .denied => "Permission denied (os error 13)"
  | .notDirectory => "Not a directory (os error 20)"
  | .isDirectory => "Is a directory (os error 21)"
  | .nameTooLong => "File name too long (os error 36)"
  | .notText => "stream did not contain valid UTF-8"
  | .other reason => reason

/-- What follows a launch. -/
inductive Next where
  | exit (code : UInt8)
  | replay (settings : DebugSettings) (trace : Trace)

/-- What a launch comes to. -/
structure Launch where
  /-- The text for standard output. -/
  printed : String := ""
  /-- The texts for standard error. -/
  complaints : List String := []
  /-- How the program logs, once it does. -/
  logging : Option LogSettings := none
  /-- What is to be logged. -/
  events : List LogEvent := []
  next : Next

/-- Settings that could not be loaded. -/
def settingsComplaint (path reason : String) : String :=
  programName ++ ": failed to load config from " ++ path ++ ": " ++ reason
    ++ "; continuing with defaults\n"

/-- The settings of a file, or the defaults with a complaint. -/
def settingsOfFile (path : String) (content : Except FileError String) :
    Settings × Diagnosis × List String :=
  match content with
  | .error e => ({}, {}, [settingsComplaint path
      ("failed to read config file " ++ path ++ ": " ++ e.message)])
  | .ok text =>
    match Settings.load text with
    | .error e => ({}, {}, [settingsComplaint path e.message])
    | .ok (settings, diagnosis) => (settings, diagnosis, [])

/-- The message about settings with faults. -/
def faultsMessage (faults : List SettingsFault) : String :=
  "Error: invalid config: [" ++ ", ".intercalate (faults.map SettingsFault.name) ++ "]\n"

/-- The message about a trace that cannot be loaded. -/
def traceMessage (path reason : String) : String :=
  "Error: failed to load build trace " ++ path ++ "\n\nCaused by:\n    " ++ reason ++ "\n"

/-- The trace of a file, or why there is none. -/
def traceOfFile (content : Except FileError String) : Except String Trace :=
  match content with
  | .error e => .error e.message
  | .ok text => (Trace.ofJson text).mapError fun e => (e.message?).getD "invalid build trace"

/-- Launches the program. The settings file is the one on the command line, or else the one that the
environment names. -/
def launch {m : Type → Type} [Monad m] (read : String → m (Except FileError String))
    (environment : Option String) (arguments : List String) : m Launch := do
  match Request.ofArguments arguments with
  | .error mistake => return { complaints := [mistake.report], next := .exit 2 }
  | .ok .version => return { printed := versionLine, next := .exit 0 }
  | .ok .help => return { printed := help, next := .exit 0 }
  | .ok .manual => return { printed := manual, next := .exit 0 }
  | .ok (.run a) =>
    let (settings, diagnosis, complaints) ← match a.config.or environment with
      | none => pure ({}, {}, [])
      | some path => do pure (settingsOfFile path (← read path))
    let begun : Launch :=
      { complaints, logging := some settings.logging, events := diagnosisEvents diagnosis
        next := .exit 1 }
    if !diagnosis.isOk then
      return { begun with complaints := complaints ++ [faultsMessage diagnosis.faults] }
    match traceOfFile (← read a.trace) with
    | .error reason =>
      return { begun with complaints := complaints ++ [traceMessage a.trace reason] }
    | .ok trace => return { begun with next := .replay (a.override settings.debug) trace }

end BuildStepper.CommandLine
