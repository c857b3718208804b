import BuildStepper.CommandLine.Launch
import BuildStepper.Proofs.Replay.Unattended
import BuildStepper.Proofs.Settings.Files

/-!
# What the command line overrides

The host and the port on the command line go before those in the settings file, whatever these are,
once the file has been found to have no faults. A blank host is such a fault, and it is one also
where the command line names another host.

So for a command line with both, two settings files that differ only in the host and the port
(`DifferInPlace`) come to the same launch just if both hosts are blank or neither is
(`launch_override`): to the same exit code and messages, and to the same place to listen at.
-/

namespace BuildStepper.CommandLine

/-- A launch with files that do not change. -/
def launchOn (files : String → Except FileError String) (environment : Option String)
    (arguments : List String) : Launch :=
  Id.run (launch (fun path => pure (files path)) environment arguments)

namespace Launch

/-- The code with which the program exits. -/
def exitCode (l : Launch) : UInt8 :=
  match l.next with
  | .exit code => code
  | .replay _ _ => 0

/-- The host and the port at which the program listens, if its session waits for a client. -/
def place? (l : Launch) : Option (String × UInt16) :=
  match l.next with
  | .exit _ => none
  | .replay debug trace =>
    match ((DebuggedReplay.ofTrace debug trace).advance 1).1.session.status with
    | .awaiting port => some (debug.host, port)
    | _ => none

end Launch

/-! ## Settings that differ in one place -/

/-- Two settings files, as they are loaded, that differ only in the host and the port. -/
structure DifferInPlace (loaded loaded' : Settings × Diagnosis) : Prop where
  logging : loaded'.1.logging = loaded.1.logging
  debug : loaded'.1.debug =
    { loaded.1.debug with host := loaded'.1.debug.host, port := loaded'.1.debug.port }
  unknownKeys : loaded'.2.unknownKeys = loaded.2.unknownKeys

variable {loaded loaded' : Settings × Diagnosis} {a : Arguments} {host : String} {port : UInt16}

/-- The host and the port of the command line are those of the run. -/
theorem override_eq (hhost : a.host = some host) (hport : a.port = some port)
    (settings : DebugSettings) :
    a.override settings = { settings with host := host, port := some port } := by
  rw [Arguments.override, hhost, hport]
  rfl

/-- With host and port on the command line, settings that differ only in these become equal. -/
theorem DifferInPlace.override_eq (h : DifferInPlace loaded loaded') (hhost : a.host = some host)
    (hport : a.port = some port) : a.override loaded'.1.debug = a.override loaded.1.debug := by
  rw [CommandLine.override_eq hhost hport, CommandLine.override_eq hhost hport, h.debug]

/-- Only blank hosts make a difference to what is wrong. -/
theorem DifferInPlace.diagnosis_eq (h : DifferInPlace loaded loaded') {text text' : String}
    (hload : Settings.load text = .ok loaded) (hload' : Settings.load text' = .ok loaded')
    (hblank : Text.isBlankText loaded.1.debug.host = Text.isBlankText loaded'.1.debug.host) :
    loaded'.2 = loaded.2 := by
  have hwarnings : loaded'.1.warnings = loaded.1.warnings := by
    rw [Settings.warnings, Settings.warnings, h.logging]
  have hfaults : loaded'.1.faults = loaded.1.faults := by
    have hproperty : loaded'.1.debug.portProperty = loaded.1.debug.portProperty := by rw [h.debug]
    rw [Settings.faults, Settings.faults, hblank, hproperty]
  rw [Settings.diagnosis_of_load hload', Settings.diagnosis_of_load hload, h.unknownKeys, hwarnings,
    hfaults]

/-! ## Launches -/

variable {files : String → Except FileError String} {environment : Option String}
  {arguments : List String} {path text : String}

/-- The settings of a launch, with what is wrong with them and what is said when they cannot be
loaded. -/
def settingsOf (files : String → Except FileError String) (environment : Option String)
    (a : Arguments) : Settings × Diagnosis × List String :=
  match a.config.or environment with
  | none => ({}, {}, [])
  | some path => settingsOfFile path (files path)

/-- What a launch is to replay a trace comes to. -/
theorem launchOn_run (hrequest : Request.ofArguments arguments = .ok (.run a)) :
    launchOn files environment arguments =
      { complaints :=
          (settingsOf files environment a).2.2 ++
            if (settingsOf files environment a).2.1.isOk then
              match traceOfFile (files a.trace) with
              | .error reason => [traceMessage a.trace reason]
              | .ok _ => []
            else [faultsMessage (settingsOf files environment a).2.1.faults]
        logging := some (settingsOf files environment a).1.logging
        events := diagnosisEvents (settingsOf files environment a).2.1
        next :=
          if (settingsOf files environment a).2.1.isOk then
            match traceOfFile (files a.trace) with
            | .error _ => .exit 1
            | .ok trace => .replay (a.override (settingsOf files environment a).1.debug) trace
          else .exit 1 } := by
  unfold settingsOf
  rw [launchOn, launch, hrequest]
  dsimp only
  -- Without a file the settings are the default ones, which have no faults.
  cases a.config.or environment with
  | none =>
    have hok : ({} : Diagnosis).isOk = true := rfl
    simp only [pure_bind, hok]
    cases traceOfFile (files a.trace) <;> rfl
  | some path =>
    simp only [pure_bind]
    cases (settingsOfFile path (files path)).2.1.isOk with
    | false => rfl
    | true => cases traceOfFile (files a.trace) <;> simp

/-- A launch with a settings file that can be loaded. -/
theorem launchOn_eq (hrequest : Request.ofArguments arguments = .ok (.run a))
    (hpath : a.config.or environment = some path) (htext : files path = .ok text)
    (hload : Settings.load text = .ok loaded) :
    launchOn files environment arguments =
      { complaints :=
          if loaded.2.isOk then
            match traceOfFile (files a.trace) with
            | .error reason => [traceMessage a.trace reason]
            | .ok _ => []
          else [faultsMessage loaded.2.faults]
        logging := some loaded.1.logging
        events := diagnosisEvents loaded.2
        next :=
          if loaded.2.isOk then
            match traceOfFile (files a.trace) with
            | .error _ => .exit 1
            | .ok trace => .replay (a.override loaded.1.debug) trace
          else .exit 1 } := by
  have hsettings : settingsOf files environment a = (loaded.1, loaded.2, []) := by
    simp only [settingsOf, hpath, htext, settingsOfFile, hload]
  rw [launchOn_run hrequest, hsettings, List.nil_append]

/-! ## What the launch comes to -/

/-- The place at which the program listens has the host and the port of its settings, unless a
property of the build names the port. -/
theorem place?_of_replay {l : Launch} {debug : DebugSettings} {trace : Trace}
    (h : l.next = .replay debug trace) :
    l.place? = (debug.listenPort? trace.initialProperties.all).map (debug.host, ·) := by
  have hsession := (DebuggedReplay.started_spec debug trace).1
  unfold DebuggedReplay.started at hsession
  rw [Launch.place?, h]
  dsimp only
  rw [hsession]
  cases debug.listenPort? trace.initialProperties.all with
  | none => rfl
  | some port => rfl

/-- A message about faults is none about a trace. -/
theorem faultsMessage_ne_traceMessage (faults : List SettingsFault) (path reason : String) :
    faultsMessage faults ≠ traceMessage path reason := by
  intro heq
  have htake {text rest : String} (h : 8 ≤ text.toList.length) :
      (text ++ rest).toList.take 8 = text.toList.take 8 := by
    rw [String.toList_append, List.take_append_of_le_length h]
  have hfaults : (faultsMessage faults).toList.take 8 = "Error: i".toList := by
    unfold faultsMessage
    rw [String.append_assoc, htake (by decide)]
    decide
  have htrace : (traceMessage path reason).toList.take 8 = "Error: f".toList := by
    unfold traceMessage
    simp only [String.append_assoc]
    rw [htake (by decide)]
    decide
  rw [heq, htrace] at hfaults
  exact absurd hfaults (by decide)

/-- The message tells whether the host is blank. -/
theorem faultsMessage_ne {settings settings' : Settings}
    (h : Text.isBlankText settings.debug.host = true)
    (h' : Text.isBlankText settings'.debug.host = false) :
    faultsMessage settings.faults ≠ faultsMessage settings'.faults := by
  rw [Settings.faults, Settings.faults, if_pos h, if_neg (Bool.eq_false_iff.1 h')]
  split <;> split <;> decide

section TwoFiles

variable {files' : String → Except FileError String} {text' : String}

/-- A blank host shows in the messages. -/
theorem complaints_ne (hrequest : Request.ofArguments arguments = .ok (.run a))
    (hpath : a.config.or environment = some path) (htext : files path = .ok text)
    (htext' : files' path = .ok text') (hload : Settings.load text = .ok loaded)
    (hload' : Settings.load text' = .ok loaded')
    (hblank : Text.isBlankText loaded.1.debug.host = true)
    (hblank' : Text.isBlankText loaded'.1.debug.host = false) :
    (launchOn files environment arguments).complaints ≠
      (launchOn files' environment arguments).complaints := by
  have hfaults : loaded.2.faults = loaded.1.faults :=
    congrArg Diagnosis.faults (Settings.diagnosis_of_load hload)
  have hfaults' : loaded'.2.faults = loaded'.1.faults :=
    congrArg Diagnosis.faults (Settings.diagnosis_of_load hload')
  have hbad : loaded.2.isOk = false := by
    rw [Diagnosis.isOk, hfaults, Settings.faults, if_pos hblank]
    rfl
  -- The launch with the blank host ends with a message about faults, and never with one about the
  -- trace.
  rw [launchOn_eq hrequest hpath htext hload, launchOn_eq hrequest hpath htext' hload', hbad,
    hfaults, hfaults']
  simp only [Bool.false_eq_true, if_false]
  split
  · split
    · simpa using faultsMessage_ne_traceMessage _ _ _
    · simp
  · simpa using faultsMessage_ne hblank hblank'

/-- What two launches have in common whose settings files differ only in the host and the port,
given those of the command line. -/
structure Overridden (host : String) (port : UInt16) (loaded loaded' : Settings × Diagnosis)
    (l l' : Launch) : Prop where
  /-- The program exits with the same code, says the same, and listens at the same place just if
  both hosts in the files are blank or neither is. -/
  agree_iff : (l.exitCode = l'.exitCode ∧ l.complaints = l'.complaints ∧ l.place? = l'.place?) ↔
    Text.isBlankText loaded.1.debug.host = Text.isBlankText loaded'.1.debug.host
  /-- In that case there is no difference at all. -/
  eq_of_blank :
    Text.isBlankText loaded.1.debug.host = Text.isBlankText loaded'.1.debug.host → l = l'
  /-- The place has the host of the command line, and its port unless a property of the build names
  one. -/
  place (debug : DebugSettings) (trace : Trace) : l.next = .replay debug trace →
    l.place? = some (host, ((trace.initialProperties.all.get? debug.portProperty).bind
      portOfText?).getD port)

/-- The command line overrides the host and the port of a settings file that has no faults. -/
theorem launch_override (hrequest : Request.ofArguments arguments = .ok (.run a))
    (hhost : a.host = some host) (hport : a.port = some port)
    (hpath : a.config.or environment = some path) (htext : files path = .ok text)
    (htext' : files' path = .ok text') (hload : Settings.load text = .ok loaded)
    (hload' : Settings.load text' = .ok loaded') (htrace : files a.trace = files' a.trace)
    (hdiffer : DifferInPlace loaded loaded') :
    Overridden host port loaded loaded' (launchOn files environment arguments)
      (launchOn files' environment arguments) := by
  -- With the host and the port overridden, only a blank host can make a difference.
  have hsame (hblank : Text.isBlankText loaded.1.debug.host =
      Text.isBlankText loaded'.1.debug.host) :
      launchOn files environment arguments = launchOn files' environment arguments := by
    rw [launchOn_eq hrequest hpath htext hload, launchOn_eq hrequest hpath htext' hload',
      hdiffer.diagnosis_eq hload hload' hblank, hdiffer.logging, hdiffer.override_eq hhost hport,
      htrace]
  refine ⟨⟨fun ⟨_, hcomplaints, _⟩ => ?_, fun hblank => ?_⟩, hsame, fun debug trace hnext => ?_⟩
  · -- The messages alone tell a blank host from one that is not.
    cases hblank : Text.isBlankText loaded.1.debug.host <;>
      cases hblank' : Text.isBlankText loaded'.1.debug.host
    · rfl
    · exact absurd hcomplaints.symm
        (complaints_ne hrequest hpath htext' htext hload' hload hblank' hblank)
    · exact absurd hcomplaints
        (complaints_ne hrequest hpath htext htext' hload hload' hblank hblank')
    · rfl
  · rw [hsame hblank]
    exact ⟨rfl, rfl, rfl⟩
  · -- Where the trace is replayed, the settings are the overridden ones.
    have hdebug : debug = a.override loaded.1.debug := by
      rw [launchOn_eq hrequest hpath htext hload] at hnext
      dsimp only at hnext
      split at hnext
      · split at hnext
        · cases hnext
        · exact (Next.replay.inj hnext).1.symm
      · cases hnext
    rw [place?_of_replay hnext, DebugSettings.listenPort?, hdebug, override_eq hhost hport]
    cases (trace.initialProperties.all.get? loaded.1.debug.portProperty).bind portOfText? <;> rfl

end TwoFiles

/-- Two files, one with settings and one with a trace without targets. -/
def twoFiles (settings : String) (path : String) : Except FileError String :=
  if path = "c.toml" then .ok settings else if path = "t.json" then .ok "{}" else .error .missing

/-- A command line with a host and a port. -/
def withPlace : List String :=
  ["--config", "c.toml", "--host", "127.0.0.1", "--port", "0", "t.json"]

/-- That command line names a host and a port. -/
theorem ofArguments_withPlace :
    Request.ofArguments withPlace =
      .ok (.run ⟨"t.json", some "c.toml", some 0, some "127.0.0.1"⟩) := by
  decide +kernel

/-- Another host and another port make no difference. -/
theorem launch_override_elsewhere :
    Settings.load "debug.host = 'example.org'\ndebug.port = 80\n" =
        .ok ({ debug := { host := "example.org", port := some 80 } }, {}) ∧
      Settings.load "" = .ok ({}, {}) ∧
      Overridden "127.0.0.1" 0 ({ debug := { host := "example.org", port := some 80 } }, {})
        ({}, {})
        (launchOn (twoFiles "debug.host = 'example.org'\ndebug.port = 80\n") none withPlace)
        (launchOn (twoFiles "") none withPlace) := by
  have hload : Settings.load "debug.host = 'example.org'\ndebug.port = 80\n" =
      .ok ({ debug := { host := "example.org", port := some 80 } }, {}) := by decide +kernel
  have hload' : Settings.load "" = .ok ({}, {}) := by decide +kernel
  exact ⟨hload, hload', launch_override ofArguments_withPlace rfl rfl rfl rfl rfl hload hload' rfl
    ⟨rfl, rfl, rfl⟩⟩

/-- A blank host in the file ends the program although the command line names another. -/
theorem blank_host_not_overridden :
    ∃ loaded loaded',
      Settings.load "debug.host = ' '\n" = .ok loaded ∧ Settings.load "" = .ok loaded' ∧
      DifferInPlace loaded loaded' ∧
      (launchOn (twoFiles "debug.host = ' '\n") none withPlace).exitCode = 1 ∧
      (launchOn (twoFiles "debug.host = ' '\n") none withPlace).complaints =
        ["Error: invalid config: [BuildDebugHostEmpty]\n"] ∧
      (launchOn (twoFiles "") none withPlace).exitCode = 0 ∧
      (launchOn (twoFiles "") none withPlace).complaints = [] := by
  refine ⟨({ debug := { host := " " } }, { faults := [.blankHost] }), ({}, {}), ?_, ?_,
    ⟨rfl, rfl, rfl⟩,
    ?_, ?_, ?_, ?_⟩ <;>
  decide +kernel

end BuildStepper.CommandLine
