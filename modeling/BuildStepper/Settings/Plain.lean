import BuildStepper.Settings.Reader
import BuildStepper.Toml.Document

/-!
# Loading settings and nothing else

The settings of a text, without a word about keys that mean nothing. Such keys are passed over: what
they are called and what stands behind them makes no difference.
-/

namespace BuildStepper

open Schema (Mismatch)
open Toml (Record Value Table)

/-- Why a text yields no settings. -/
inductive SettingsError where
  /-- The text is not TOML. -/
  | malformed (fault : Toml.Fault)
  | mismatch (mismatch : Schema.Mismatch)
deriving DecidableEq, Repr

/-- The beginning of every message about a text that yields no settings. -/
def SettingsError.opening : String :=
  "failed to parse toml config: "

/-- The error in words. -/
def SettingsError.message : SettingsError → String
  | .malformed fault => opening ++ fault.message
  | .mismatch m => opening ++ m.message

/-- Reads the entries of a table on top of what is known of the record. -/
def Toml.Record.fill {α : Type} (record : Record α) (entries : Table) (current : α) :
    Except Mismatch α :=
  entries.foldlM (fun current entry =>
    match record.fields.lookup entry.1 with
    | some set => set entry.2 current
    | none => .ok current) current

/-- Reads a record. -/
def Toml.Record.readPlain {α : Type} (record : Record α) : Value → Except Mismatch α
  | .table entries => record.fill entries record.default
  | .moment => .ok record.default
  | .array elements => record.readElements elements
  | value => .error (.wrongType value.found (.record record.name))

namespace Settings

/-- Reads one entry of a file on top of the records already known. -/
def addPlain (known : Option LogSettings × Option DebugSettings) (entry : String × Value) :
    Except Mismatch (Option LogSettings × Option DebugSettings) :=
  if entry.1 = loggingKey then
    if known.1.isSome then .error (.duplicateField loggingKey)
    else (LogSettings.record.readPlain entry.2).map fun logging => (some logging, known.2)
  else if entry.1 = debugKey || entry.1 = debugAlias then
    if known.2.isSome then .error (.duplicateField debugKey)
    else (DebugSettings.record.readPlain entry.2).map fun debug => (known.1, some debug)
  else .ok known

/-- Reads the settings of a file. -/
def ofTablePlain (table : Table) : Except Mismatch Settings :=
  (table.foldlM addPlain (none, none)).map fun known =>
    ⟨known.1.getD {}, known.2.getD {}⟩

/-- Loads the settings of a text. -/
def loadPlain (text : String) : Except SettingsError Settings :=
  match Toml.read text with
  | .error fault => .error (.malformed fault)
  | .ok table => (ofTablePlain table).mapError .mismatch

end Settings

end BuildStepper
