import BuildStepper.Settings.Basic
import BuildStepper.Settings.Record

/-!
# Reading settings

The two records of a settings file with their keys, and the file as a whole. Of every key that the
program does not know the reader tells the way to it. Below such a key it does not look.
-/

namespace BuildStepper

open Schema (Mismatch)
open Toml (Record Value Table)

/-- The record of how the program logs. -/
def LogSettings.record : Record LogSettings where
  name := "LoggingConfig"
  default := {}
  fields := [
    ("level", fun value s => value.text?.map fun level => { s with level }),
    ("json", fun value s => value.boolean?.map fun json => { s with json }),
    ("stderr", fun value s => value.boolean?.map fun stderr => { s with stderr }),
    ("file", fun value s => value.path?.map fun file => { s with file := some file })]

/-- The record of how the program serves a debug client. -/
def DebugSettings.record : Record DebugSettings where
  name := "BuildDebugConfig"
  default := {}
  fields := [
    ("host", fun value s => value.text?.map fun host => { s with host }),
    ("port", fun value s => (value.unsigned? 16).map fun n => { s with port := some n.toUInt16 }),
    ("port_property", fun value s => value.text?.map fun portProperty => { s with portProperty }),
    ("accept_timeout_ms", fun value s =>
      (value.unsigned? 64).map fun n => { s with acceptTimeout := n.toUInt64 }),
    ("target_breakpoints", fun value s =>
      value.boolean?.map fun targetBreakpoints => { s with targetBreakpoints })]

namespace Settings

/-- The key of the record of how the program logs. -/
def loggingKey : String := "logging"

/-- The key of the record of how the program serves a debug client. -/
def debugKey : String := "build_debug"

/-- Another key of the same record, of which a file can have only one. -/
def debugAlias : String := "debug"

/-- What the entries of a file read so far say. -/
structure Draft where
  logging : Option LogSettings := none
  debug : Option DebugSettings := none
  /-- The ways to keys that the program does not know. -/
  unknown : List (List String) := []

/-- Reads one entry of a file. -/
def Draft.add (draft : Draft) (entry : String × Value) : Except Mismatch Draft :=
  let (key, value) := entry
  if key = loggingKey then
    if draft.logging.isSome then .error (.duplicateField loggingKey)
    else (LogSettings.record.read value).map fun (logging, unknown) =>
      { draft with logging := some logging, unknown := draft.unknown ++ unknown.map ([key, ·]) }
  else if key = debugKey || key = debugAlias then
    if draft.debug.isSome then .error (.duplicateField debugKey)
    else (DebugSettings.record.read value).map fun (debug, unknown) =>
      { draft with debug := some debug, unknown := draft.unknown ++ unknown.map ([key, ·]) }
  else .ok { draft with unknown := draft.unknown ++ [[key]] }

/-- Reads the settings of a file, with the ways to the keys that the program does not know. -/
def ofTable (table : Table) : Except Mismatch (Settings × List (List String)) :=
  (table.foldlM Draft.add {}).map fun draft =>
    (⟨draft.logging.getD {}, draft.debug.getD {}⟩, draft.unknown)

/-- Writes the way to a key with dots; dots at its beginning are left out. -/
def spellPath (path : List String) : String :=
  String.ofList ((".".intercalate path).toList.dropWhile (· = '.'))

end Settings

end BuildStepper
