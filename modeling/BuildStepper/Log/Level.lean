import BuildStepper.Text.Basic

/-!
# Levels of the log

How much is logged. Each level lets through what those before it let through, and more.
-/

namespace BuildStepper

/-- A level, from nothing to everything. -/
inductive LogLevel where
  | off
  | error
  | warn
  | info
  | debug
  | trace
deriving DecidableEq, Inhabited, Repr

namespace LogLevel

/-- All levels in order. -/
def all : List LogLevel :=
  [off, error, warn, info, debug, trace]

/-- How much a level lets through. -/
def rank : LogLevel → Nat
  | off => 0
  | error => 1
  | warn => 2
  | info => 3
  | debug => 4
  | trace => 5

/-- The name of a level. -/
def name : LogLevel → String
  | off => "off"
  | error => "error"
  | warn => "warn"
  | info => "info"
  | debug => "debug"
  | trace => "trace"

/-- The name of a level on a line of the log. -/
def label (level : LogLevel) : String :=
  String.ofList (level.name.toList.map Char.toUpper)

/-- Reads a level: its name in any case, or its number. The empty text stands for errors only. -/
def ofChars? (cs : List Char) : Option LogLevel :=
  match Text.numeral? 6 cs with
  | some n => all[n]?
  | none =>
    if cs.isEmpty then some error
    else all.find? fun level => cs.map Char.toLower = level.name.toList

end LogLevel

end BuildStepper
