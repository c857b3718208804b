import BuildStepper.Settings.Basic
import BuildStepper.Settings.Plain

/-!
# What is wrong with a settings file

Loading a settings file yields the settings together with what is wrong in them: keys that the
program does not know, values that it replaces, and values with which it cannot go on. Only a file
that is not TOML, or has a value that does not fit its key, yields no settings.
-/

namespace BuildStepper

/-- A value with which the program cannot go on. -/
inductive SettingsFault where
  | blankHost
  | blankPortProperty
deriving DecidableEq, Repr

/-- The name of a fault in messages. -/
def SettingsFault.name : SettingsFault → String
  | .blankHost => "BuildDebugHostEmpty"
  | .blankPortProperty => "BuildDebugPortPropertyEmpty"

/-- A value that the program replaces. -/
structure SettingsWarning where
  path : String
  message : String
deriving DecidableEq, Repr

/-- What is wrong with settings. -/
structure Diagnosis where
  /-- The ways to the keys that the program does not know, in ascending order. -/
  unknownKeys : List String := []
  warnings : List SettingsWarning := []
  faults : List SettingsFault := []
deriving DecidableEq, Repr

/-- Whether the program can go on. -/
def Diagnosis.isOk (d : Diagnosis) : Bool :=
  d.faults.isEmpty

/-- Whether nothing is wrong. -/
def Diagnosis.isEmpty (d : Diagnosis) : Bool :=
  d.unknownKeys.isEmpty && d.warnings.isEmpty && d.faults.isEmpty

namespace Settings

/-- The warning about a level that is no filter. -/
def levelWarning (e : FilterError) : SettingsWarning :=
  ⟨"logging.level", "invalid log filter (" ++ e.message ++ "); falling back to \x60info\x60"⟩

/-- The values that the program replaces. -/
def warnings (settings : Settings) : List SettingsWarning :=
  match LogFilter.ofText settings.logging.levelText with
  | .ok _ => []
  | .error e => [levelWarning e]

/-- The values with which the program cannot go on. -/
def faults (settings : Settings) : List SettingsFault :=
  (if Text.isBlankText settings.debug.host then [.blankHost] else [])
    ++ if Text.isBlankText settings.debug.portProperty then [.blankPortProperty] else []

/-- Lists the ways to unknown keys, each once and in ascending order of code points. -/
def listUnknown (paths : List (List String)) : List String :=
  ((paths.map spellPath).mergeSort fun a b => !decide (b < a)).eraseReps

/-- Loads the settings of a text. -/
def load (text : String) : Except SettingsError (Settings × Diagnosis) :=
  match Toml.read text with
  | .error fault => .error (.malformed fault)
  | .ok table =>
    match ofTable table with
    | .error m => .error (.mismatch m)
    | .ok (settings, unknown) =>
      .ok (settings, ⟨listUnknown unknown, settings.warnings, settings.faults⟩)

end Settings

end BuildStepper
