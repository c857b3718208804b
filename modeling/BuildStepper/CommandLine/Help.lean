import BuildStepper.CommandLine.Arguments
import BuildStepper.Text.Similarity

/-!
# What the program says about itself

The version, the help in short and in full, and what follows the message about a mistake on the
command line: for an option that is not known, what could be meant.
-/

namespace BuildStepper.CommandLine

/-- The name of the program. -/
def programName : String := "nova-build-debug"

/-- The line for the version. -/
def versionLine : String :=
  programName ++ " 0.1.0\n"

/-- How the program is called. -/
def usage : String :=
  "Usage: " ++ programName ++ " [OPTIONS] " ++ Slot.trace.label

/-- One line of the help: what can be given, with room for the longest, and what it is for. -/
def helpLine (subject : String) (width : Nat) (purpose : String) : String :=
  "  " ++ subject ++ String.ofList (List.replicate (width - subject.length) ' ') ++ "  " ++ purpose

/-- What a slot is for. -/
def Slot.purpose : Slot → String
  | .trace => "JSON build trace to run"
  | .config => "Path to a TOML config file"
  | .port => "Listening port; \x600\x60 picks a free port. Overrides \x60build_debug.port\x60, but "
      ++ "an engine property named by \x60build_debug.port_property\x60 still takes precedence"
  | .host => "Listening address. Overrides \x60build_debug.host\x60"

/-- The help in short. -/
def help : String :=
  let options := [
    ("    " ++ Slot.config.label, Slot.config.purpose),
    ("    " ++ Slot.port.label, Slot.port.purpose),
    ("    " ++ Slot.host.label, Slot.host.purpose),
    ("-h, --help", "Print help (see more with '--help')"),
    ("-V, --version", "Print version")]
  "\n".intercalate ([
    "Nova remote build debugger", "", usage, "", "Arguments:",
    helpLine Slot.trace.label Slot.trace.label.length Slot.trace.purpose,
    "", "Options:"] ++ options.map (fun o => helpLine o.1 21 o.2)) ++ "\n"

/-- An entry of the help in full. -/
def manualEntry (subject : String) (purpose : List String) : String :=
  let margin := String.ofList (List.replicate 10 ' ')
  "\n".intercalate (("  " ++ subject) :: purpose.map (margin ++ ·))

/-- The help in full. -/
def manual : String :=
  let options := [
    manualEntry ("    " ++ Slot.config.label) [Slot.config.purpose ++ ".", "",
      "If unset, \x60NOVA_CONFIG\x60 is used as a fallback. When neither are provided the debugger "
        ++ "uses in-memory defaults."],
    manualEntry ("    " ++ Slot.port.label) [Slot.port.purpose],
    manualEntry ("    " ++ Slot.host.label) [Slot.host.purpose],
    manualEntry "-h, --help" ["Print help (see a summary with '-h')"],
    manualEntry "-V, --version" ["Print version"]]
  "\n".intercalate [
    "Nova remote build debugger.", "",
    "Replays a recorded build trace under the debugger. The build suspends at start until a debug "
      ++ "client connects and resumes it.",
    "", usage, "", "Arguments:", manualEntry Slot.trace.label [Slot.trace.purpose],
    "", "Options:", "\n\n".intercalate options] ++ "\n"

/-- Whether the message about a mistake recalls how the program is called. -/
def Mistake.recallsUsage : Mistake → Bool
  | .invalidPort _ _ | .missingValue _ => false
  | _ => true

/-- How much an unknown name is like another, if it is so much like it that the other can be
meant. -/
def likeness? (name other : String) : Option Rat :=
  let likeness := Text.similarity name.toList other.toList
  if 7 / 10 ≤ likeness then some likeness else none

/-- The long name that an unknown one is most like. Of several the last one counts. -/
def likeliest? (name : String) : Option String :=
  let rated := longNames.filterMap fun other => (likeness? name other).map (·, other)
  rated.foldl (fun best? (likeness, other) =>
    if best?.any (likeness < ·.1) then best? else some (likeness, other)) none |>.map (·.2)

/-- What to do instead. An option with an unknown name can be meant as one with a name like it, and
otherwise as a value. -/
def Mistake.tip? : Mistake → Option String
  | .unknownOption option =>
    match (option.dropPrefix? "--").bind fun name => likeliest? name.toString with
    | some other => some ("a similar argument exists: '--" ++ other ++ "'")
    | none => some ("to pass " ++ inQuotes option ++ " as a value, use "
        ++ inQuotes ("-- " ++ option))
  | _ => none

/-- All that is said about a mistake on the command line. -/
def Mistake.report (m : Mistake) : String :=
  "error: " ++ m.message ++ "\n\n" ++ (m.tip?.elim "" fun tip => "  tip: " ++ tip ++ "\n\n")
    ++ (if m.recallsUsage then usage ++ "\n\n" else "")
    ++ "For more information, try '--help'.\n"

end BuildStepper.CommandLine
