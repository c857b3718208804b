import BuildStepper.Proofs.CommandLine.Override
import BuildStepper.Proofs.Settings.Port

/-!
# The port of a run

A run listens at the port that counts (`EffectivePort`), by the value that its trace gives to the
property, the port on the command line, and the port in the settings file. The value that the user
gives the property hides the one of the build even where it spells no port.

If there is no such port, or if nobody connects there, the build goes on without a client
(`DebuggedReplay.Unattended`). `launch_effective_port` says so of every launch whose settings have
no faults and whose trace can be loaded. The log of such a run is known beforehand, but for the
reason why nobody came (`unobserved_eq_of_unattended`).
-/

namespace BuildStepper

/-- What a property is worth at the start of the build that a trace tells of. What the user gave
goes first. -/
def Trace.valueOf? (t : Trace) (name : String) : Option String :=
  (t.userProperties.get? name).or (t.properties.get? name)

namespace CommandLine

open DebuggedReplay (started Unattended)

/-- What holds of the port of a launch that replays the trace. -/
structure PortChosen (a : Arguments) (settings : DebugSettings) (t : Trace) (l : Launch) :
    Prop where
  /-- The trace is replayed under the settings, with what the command line overrides. -/
  replays : l.next = .replay (a.override settings) t
  /-- The run listens at the port that counts, and nowhere else. -/
  listens : ∀ host port, l.place? = some (host, port) ↔
    host = a.host.getD settings.host ∧
      EffectivePort (t.valueOf? settings.portProperty) a.port settings.port port
  /-- What the user gives the property hides what the build gives it. -/
  hidden : ∀ text, t.userProperties.get? settings.portProperty = some text →
    ∀ host port, l.place? = some (host, port) ↔
      host = a.host.getD settings.host ∧ EffectivePort (some text) a.port settings.port port
  /-- Without a port that counts the build goes on without a client. -/
  alone : (∀ port, ¬ EffectivePort (t.valueOf? settings.portProperty) a.port settings.port port) →
    Unattended t (started (a.override settings) t)
  /-- So it does where the port cannot be listened at, and where nobody connects. -/
  refused : ∀ port, EffectivePort (t.valueOf? settings.portProperty) a.port settings.port port →
    Unattended t ((started (a.override settings) t).interrupt .abandoned).1

/-- The port that the session of a run takes is the one that counts. -/
theorem listenPort?_override_iff (a : Arguments) (settings : DebugSettings) (t : Trace)
    {port : UInt16} :
    (a.override settings).listenPort? t.initialProperties.all = some port ↔
      EffectivePort (t.valueOf? settings.portProperty) a.port settings.port port := by
  rw [← effectivePort_iff, Trace.valueOf?, ← t.initialProperties_eq.2]
  rfl

variable {files : String → Except FileError String} {environment : Option String}
  {arguments : List String} {a : Arguments} {t : Trace}

/-- Which port a launch comes to, if its settings have no faults and its trace can be loaded, and
what becomes of the build without a client. -/
theorem launch_effective_port (hrequest : Request.ofArguments arguments = .ok (.run a))
    (hok : (settingsOf files environment a).2.1.isOk = true)
    (htrace : traceOfFile (files a.trace) = .ok t) :
    PortChosen a (settingsOf files environment a).1.debug t
      (launchOn files environment arguments) := by
  have hnext : (launchOn files environment arguments).next =
      .replay (a.override (settingsOf files environment a).1.debug) t := by
    rw [launchOn_run hrequest, hok, htrace]
    rfl
  -- From here on only the settings themselves count, and not where they come from.
  generalize (settingsOf files environment a).1.debug = settings at hnext
  have hport (port : UInt16) :
      (a.override settings).listenPort? t.initialProperties.all = some port ↔
        EffectivePort (t.valueOf? settings.portProperty) a.port settings.port port :=
    listenPort?_override_iff a settings t
  have hlistens (host : String) (port : UInt16) :
      (launchOn files environment arguments).place? = some (host, port) ↔
        host = a.host.getD settings.host ∧
          EffectivePort (t.valueOf? settings.portProperty) a.port settings.port port := by
    rw [place?_of_replay hnext, ← hport]
    cases (a.override settings).listenPort? t.initialProperties.all with
    | none => simp
    | some read => simp [Arguments.override, eq_comm]
  refine ⟨hnext, hlistens, ?_, ?_, ?_⟩
  · intro text huser host port
    -- What the user gives goes first, whether it spells a port or not.
    have hvalue : t.valueOf? settings.portProperty = some text := by
      rw [Trace.valueOf?, huser, Option.some_or]
    rw [hlistens, hvalue]
  · intro hnone
    refine DebuggedReplay.unattended_of_no_port ?_
    rw [Option.eq_none_iff_forall_ne_some]
    exact fun port heq => hnone port ((hport port).1 heq)
  · exact fun port heffective => DebuggedReplay.unattended_of_abandoned ((hport port).2 heffective)

/-- The log of a build without a client, as it grows with the callbacks: first what is logged of
the port and of the wait, then what is logged of each callback when the build makes it, and in the
end the state of the session. -/
theorem unobserved_eq_of_unattended {t : Trace} {r : DebuggedReplay} (h : Unattended t r)
    (settings : DebugSettings) (absence : Absence) {turns : List Turn}
    (hall : r.coming.length ≤ DebuggedReplay.callsOf turns) :
    unobserved settings t absence =
      portEvents settings t.initialProperties.all ++
        waitEvents settings t.initialProperties.all absence ++
        (r.play turns).2.1.flatMap buildEvents ++ [finished (r.play turns).1.session.status] := by
  have hcalled : (r.play turns).2.1 = r.coming := by
    rw [h.goesOn turns, List.take_of_length_le hall]
  -- Nothing is logged of the start of the build, which was called back before.
  have hevents : t.events.flatMap buildEvents = r.coming.flatMap buildEvents := by
    rw [h.begun, List.flatMap_cons]
    rfl
  rw [unobserved, hevents, hcalled, (h.ended turns).1]

/-- A trace in which the build gives the property a port, and the user something else. -/
def hiddenPort : Trace where
  properties := .ofList [("nova.build.debug.port", "4000")]
  userProperties := .ofList [("nova.build.debug.port", "http")]

/-- Two files, one with a port and one with that trace. -/
def portFiles (path : String) : Except FileError String :=
  if path = "c.toml" then .ok "debug.port = 80\n"
  else if path = "t.json" then
    .ok ("\x7b\"properties\": \x7b\"nova.build.debug.port\": \"4000\"\x7d, "
      ++ "\"user_properties\": \x7b\"nova.build.debug.port\": \"http\"\x7d\x7d")
  else .error .missing

/-- A command line with a port. -/
def withPort : List String :=
  ["--config", "c.toml", "--port", "+4711", "t.json"]

/-- What the command line says. -/
def portArguments : Arguments where
  trace := "t.json"
  config := some "c.toml"
  port := some 4711

/-- The trace of the files is that trace. -/
theorem traceOfFile_portFiles : traceOfFile (portFiles portArguments.trace) = .ok hiddenPort := by
  have hread : (traceOfFile (portFiles portArguments.trace)).toOption.map
      (fun t => (t.properties, t.userProperties, t.targets.isEmpty)) =
        some (hiddenPort.properties, hiddenPort.userProperties, true) := by
    decide +kernel
  cases htrace : traceOfFile (portFiles portArguments.trace) with
  | error reason =>
    rw [htrace] at hread
    cases hread
  | ok t =>
    rw [htrace] at hread
    obtain ⟨properties, user, targets⟩ := t
    obtain ⟨rfl, rfl, hnone⟩ : properties = hiddenPort.properties ∧
        user = hiddenPort.userProperties ∧ targets.isEmpty = true := by
      simpa [Except.toOption] using hread
    rw [List.isEmpty_iff.1 hnone]
    rfl

/-- The port on the command line counts, since what the user gives the property is none, and hides
the one of the build. If nobody connects there, the build goes on. -/
theorem launch_hiddenPort :
    Request.ofArguments withPort = .ok (.run portArguments) ∧
      (settingsOf portFiles none portArguments).2.1.isOk = true ∧
      traceOfFile (portFiles portArguments.trace) = .ok hiddenPort ∧
      (launchOn portFiles none withPort).place? = some ("127.0.0.1", 4711) ∧
      Unattended hiddenPort
        ((started { port := some 4711 } hiddenPort).interrupt .abandoned).1 := by
  have hrequest : Request.ofArguments withPort = .ok (.run portArguments) := by decide +kernel
  have hload : Settings.load "debug.port = 80\n" = .ok ({ debug := { port := some 80 } }, {}) := by
    decide +kernel
  have hsettings : settingsOf portFiles none portArguments =
      ({ debug := { port := some 80 } }, {}, []) := by
    simp [settingsOf, portArguments, portFiles, settingsOfFile, hload]
  have hok : (settingsOf portFiles none portArguments).2.1.isOk = true := by
    rw [hsettings]
    rfl
  have hlaunch := launch_effective_port hrequest hok traceOfFile_portFiles
  rw [hsettings] at hlaunch
  have hnone : SpellsNone (some "http") := bind_portOfText?_eq_none_iff.1 (by decide +kernel)
  exact ⟨hrequest, hok, traceOfFile_portFiles, (hlaunch.listens _ _).2 ⟨rfl, .given hnone rfl⟩,
    hlaunch.refused 4711 (.given hnone rfl)⟩

end CommandLine

end BuildStepper
