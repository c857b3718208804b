import BuildStepper.Proofs.Session.Reported

/-!
# What a client knows of the properties of its build

A build goes on to define properties while its client asks for them. `Occurrence` is what can happen
to a session and to the tables of its build, in any order. A command reads both tables, the one of
all properties first, and more can be defined between the two reads.

`knows_properties` shows that the client loses nothing by this: with every answer it knows the table
of all properties as it was read, each property with the value and the origin of its first
definition. What makes the two reads agree is that a name which was there at the first read cannot
become the user's any more.
-/

namespace BuildStepper

open Wire (Command Notification Provenance PropertyRecord bytesOf)

/-- Where a property that is defined like this comes from, these being the names of the
baseline. -/
def Definition.provenance (d : Definition) (baseline : List String) : Provenance :=
  if d.byUser then .user else if baseline.contains d.name then .system else .runtime

/-- The record of a property that is defined like this. -/
def Definition.record (d : Definition) (baseline : List String) : PropertyRecord :=
  ⟨d.name, d.value, d.provenance baseline⟩

/-- Something that happens to a session or to the tables of its build. -/
inductive Occurrence where
  /-- A property is defined. -/
  | defined (d : Definition)
  /-- The build calls back. -/
  | called (event : BuildEvent)
  /-- A client connects. -/
  | attached
  /-- Nobody connects. -/
  | abandoned
  /-- The client sends a command. These properties are defined after the table of all properties is
  read for it, and before the user's table is. -/
  | sent (command : Command) (between : List Definition)
  /-- The connection ends. -/
  | disconnected

/-- The definitions that an occurrence makes. -/
def Occurrence.definitions : Occurrence → List Definition
  | .defined d => [d]
  | .sent _ between => between
  | _ => []

/-- What an occurrence is to the session, after these definitions. -/
def Occurrence.event? (made : List Definition) : Occurrence → Option SessionEvent
  | .defined _ => none
  | .called event => some (.build event)
  | .attached => some .attached
  | .abandoned => some .abandoned
  | .sent command between =>
    some (.command (BuildProperties.ofDefinitions made).all
      (BuildProperties.ofDefinitions (made ++ between)).user command)
  | .disconnected => some .disconnected

/-- The definitions made, in order. -/
def definitionsIn (occurrences : List Occurrence) : List Definition :=
  occurrences.flatMap Occurrence.definitions

/-- What happens to the session, after these definitions. -/
def eventsFrom (made : List Definition) : List Occurrence → List SessionEvent
  | [] => []
  | o :: occurrences =>
    (o.event? made).toList ++ eventsFrom (made ++ o.definitions) occurrences

/-- What happens to the session, from the beginning. -/
def eventsIn (occurrences : List Occurrence) : List SessionEvent :=
  eventsFrom [] occurrences

/-- The last occurrence adds the definitions that it makes. -/
theorem definitionsIn_concat (occurrences : List Occurrence) (o : Occurrence) :
    definitionsIn (occurrences ++ [o]) = definitionsIn occurrences ++ o.definitions := by
  simp [definitionsIn]

/-- The last occurrence is met with all that was defined before it. -/
theorem eventsFrom_concat (made : List Definition) (occurrences : List Occurrence)
    (o : Occurrence) :
    eventsFrom made (occurrences ++ [o]) = eventsFrom made occurrences ++
      (o.event? (made ++ definitionsIn occurrences)).toList := by
  induction occurrences generalizing made with
  | nil => simp [eventsFrom, definitionsIn]
  | cons first occurrences ih => simp [eventsFrom, definitionsIn, ih]

/-- So it is where nothing was defined at the beginning. -/
theorem eventsIn_concat (occurrences : List Occurrence) (o : Occurrence) :
    eventsIn (occurrences ++ [o]) =
      eventsIn occurrences ++ (o.event? (definitionsIn occurrences)).toList := by
  simpa [eventsIn] using eventsFrom_concat [] occurrences o

/-- Only a client that asks for the properties asks. -/
theorem eq_sent_of_event? {made : List Definition} {o : Occurrence} {all user : PropertyTable}
    (h : o.event? made = some (.command all user .properties)) :
    ∃ between, o = .sent .properties between ∧ all = (BuildProperties.ofDefinitions made).all ∧
      user = (BuildProperties.ofDefinitions (made ++ between)).user := by
  cases o with
  | sent command between =>
    obtain ⟨rfl, rfl, rfl⟩ := by simpa [Occurrence.event?] using h
    exact ⟨between, rfl, rfl, rfl⟩
  | defined d => cases h
  | _ => simp [Occurrence.event?] at h

namespace Session

/-! ## The origin of what is reported -/

/-- A name that was defined when the first table was read has the origin of its first definition,
whatever is defined before the second one is read. -/
theorem provenance_of_firstDefinition? (report : PropertyReport) {made : List Definition}
    (between : List Definition) {name : String} {d : Definition}
    (h : firstDefinition? made name = some d) :
    report.provenance (BuildProperties.ofDefinitions (made ++ between)).user name =
      d.provenance report.baseline := by
  have huser : (BuildProperties.ofDefinitions (made ++ between)).user.has name = d.byUser := by
    rw [BuildProperties.has_user_ofDefinitions, firstDefinition?_append, h]
    rfl
  unfold PropertyReport.provenance Definition.provenance
  rw [huser, name_of_firstDefinition? h]

/-- What is new in a report is what was defined when the first table was read, and was not reported
before. -/
theorem mem_delta_ofDefinitions_iff (report : PropertyReport) (made between : List Definition)
    (record : PropertyRecord) :
    record ∈ report.delta (BuildProperties.ofDefinitions made).all
        (BuildProperties.ofDefinitions (made ++ between)).user ↔
      record.name ∉ report.sent ∧ ∃ d, firstDefinition? made record.name = some d ∧
        record = d.record report.baseline := by
  rw [PropertyReport.mem_delta_iff, BuildProperties.get?_all_ofDefinitions,
    Option.map_eq_some_iff]
  constructor
  · rintro ⟨⟨d, hfirst, hvalue⟩, hnew, hprovenance⟩
    rw [provenance_of_firstDefinition? report between hfirst] at hprovenance
    refine ⟨hnew, d, hfirst, ?_⟩
    rw [Definition.record, name_of_firstDefinition? hfirst, hvalue, ← hprovenance]
  · rintro ⟨hnew, d, hfirst, hrecord⟩
    refine ⟨⟨d, hfirst, by rw [hrecord]; rfl⟩, hnew, ?_⟩
    rw [provenance_of_firstDefinition? report between hfirst, hrecord]
    rfl

/-- What has been reported stands as its first definition has it. -/
theorem exists_definition_of_mem_reported (settings : DebugSettings)
    {occurrences : List Occurrence} {record : PropertyRecord}
    (h : record ∈ reported settings (eventsIn occurrences)) :
    ∃ d, firstDefinition? (definitionsIn occurrences) record.name = some d ∧
      record = d.record (after settings (eventsIn occurrences)).report.baseline := by
  induction occurrences using List.reverseRecOn with
  | nil => cases h
  | append_singleton occurrences o ih =>
    rw [eventsIn_concat] at h ⊢
    simp only [definitionsIn_concat, firstDefinition?_append]
    cases hevent : o.event? (definitionsIn occurrences) with
    | none =>
      rw [hevent, Option.toList_none, List.append_nil] at h
      obtain ⟨d, hfirst, hrecord⟩ := ih h
      exact ⟨d, by rw [hfirst, Option.some_or], by simpa using hrecord⟩
    | some event =>
      rw [hevent, Option.toList_some] at h
      rw [Option.toList_some, after_concat]
      -- Something has been reported by now, so that the baseline of the records stays.
      obtain hnone | ⟨all, user, rfl, live⟩ :=
        reports_nothing_or_asks (after settings (eventsIn occurrences)) event
      · rw [reported_concat_of_not_mem hnone] at h
        obtain ⟨d, hfirst, hrecord⟩ := ih h
        rw [step_baseline (ne_idle_of_mem_reported h)]
        exact ⟨d, by rw [hfirst, Option.some_or], hrecord⟩
      · rw [step_baseline (Status.begun_of_isLive live).1]
        rw [reported_concat_properties live, List.mem_append] at h
        obtain ⟨between, rfl, rfl, rfl⟩ := eq_sent_of_event? hevent
        rw [mem_delta_ofDefinitions_iff] at h
        obtain ⟨d, hfirst, hrecord⟩ : ∃ d, firstDefinition? (definitionsIn occurrences)
            record.name = some d ∧ record = d.record
              (after settings (eventsIn occurrences)).report.baseline := h.elim ih And.right
        exact ⟨d, by rw [hfirst, Option.some_or], hrecord⟩

/-- Records of all definitions that count, each name once, make up the table of all properties. -/
theorem perm_entries {records : List PropertyRecord} {made : List Definition}
    {baseline : List String} (hnodup : (records.map PropertyRecord.name).Nodup)
    (hrecords : ∀ record, record ∈ records ↔
      ∃ d, firstDefinition? made record.name = some d ∧ record = d.record baseline) :
    (records.map fun r => (r.name, r.value)).Perm
      (BuildProperties.ofDefinitions made).all.entries := by
  have hleft : (records.map fun r => (r.name, r.value)).Nodup := by
    refine List.Nodup.of_map Prod.fst ?_
    rwa [List.map_map]
  have hright := List.Nodup.of_map Prod.fst (BuildProperties.ofDefinitions made).all.nodup
  -- Neither list names a property twice, so that it is enough that both have the same members.
  refine (List.perm_ext_iff_of_nodup hleft hright).2 fun ⟨name, value⟩ => ?_
  rw [← PropertyTable.get?_eq_some_iff, BuildProperties.get?_all_ofDefinitions,
    Option.map_eq_some_iff, List.mem_map]
  constructor
  · rintro ⟨record, hrecord, heq⟩
    obtain ⟨rfl, rfl⟩ := Prod.mk.inj heq
    obtain ⟨d, hfirst, hd⟩ := (hrecords record).1 hrecord
    exact ⟨d, hfirst, by rw [hd]; rfl⟩
  · rintro ⟨d, hfirst, rfl⟩
    have hname := name_of_firstDefinition? hfirst
    refine ⟨d.record baseline, (hrecords _).2 ⟨d, ?_, rfl⟩, by rw [← hname]; rfl⟩
    rwa [← hname] at hfirst

/-! ## What the client knows -/

/-- What an occurrence makes the session send, after others. -/
def response (settings : DebugSettings) (before : List Occurrence) (o : Occurrence) :
    List Notification :=
  match o.event? (definitionsIn before) with
  | some event => ((after settings (eventsIn before)).step event).2
  | none => []

/-- What holds of the properties that a session reports while its build defines them. -/
structure KnowsProperties (settings : DebugSettings) (occurrences : List Occurrence) : Prop where
  /-- No name is reported twice. -/
  once : ((reported settings (eventsIn occurrences)).map PropertyRecord.name).Nodup
  /-- The names of every report are strictly ascending in the order of their bytes. -/
  ascending : ∀ records,
    .properties records ∈ (({ settings } : Session).run (eventsIn occurrences)).2 →
      records.Pairwise fun a b => bytesOf a.name.toList < bytesOf b.name.toList
  /-- A client that asks for the properties gets one report. -/
  answered : ∀ before between later, occurrences = before ++ .sent .properties between :: later →
    (after settings (eventsIn before)).status.isLive = true →
      ∃ records, response settings before (.sent .properties between) = [.properties records]
  /-- With a report the client has been told all properties that there were when the first table was
  read, and no others, each with the value of its first definition. It is the user's if that
  definition is, else the system's if the build started with it, else the build's own. -/
  complete : ∀ before o later records, occurrences = before ++ o :: later →
    .properties records ∈ response settings before o →
      ∃ between baseline, o = .sent .properties between ∧
        firstBaseline? (eventsIn before) = some baseline ∧
        (∀ record, record ∈ reported settings (eventsIn (before ++ [o])) ↔
          ∃ d, firstDefinition? (definitionsIn before) record.name = some d ∧
            record = d.record baseline.names) ∧
        ((reported settings (eventsIn (before ++ [o]))).map fun r => (r.name, r.value)).Perm
          (BuildProperties.ofDefinitions (definitionsIn before)).all.entries

/-- With an answer the client has been told what was defined when the first table was read. -/
theorem mem_reported_iff (settings : DebugSettings) {before : List Occurrence}
    (live : (after settings (eventsIn before)).status.isLive = true) (between : List Definition)
    (record : PropertyRecord) :
    record ∈ reported settings (eventsIn (before ++ [.sent .properties between])) ↔
      ∃ d, firstDefinition? (definitionsIn before) record.name = some d ∧
        record = d.record (after settings (eventsIn before)).report.baseline := by
  rw [eventsIn_concat]
  simp only [Occurrence.event?, Option.toList_some]
  rw [reported_concat_properties live, List.mem_append, mem_delta_ofDefinitions_iff]
  constructor
  · rintro (hold | ⟨-, hnew⟩)
    · exact exists_definition_of_mem_reported settings hold
    · exact hnew
  · rintro ⟨d, hfirst, hrecord⟩
    by_cases hsent : record.name ∈ (after settings (eventsIn before)).report.sent
    · -- The name was reported before, and with it this record.
      left
      rw [sent_after] at hsent
      obtain ⟨old, hold, hname⟩ := List.mem_map.1 hsent
      obtain ⟨d', hfirst', hold'⟩ := exists_definition_of_mem_reported settings hold
      rw [hname, hfirst, Option.some.injEq] at hfirst'
      rw [hrecord, hfirst', ← hold']
      exact hold
    · exact .inr ⟨hsent, d, hfirst, hrecord⟩

/-- With every answer the client knows all properties that there were, whatever is defined
meanwhile. -/
theorem knows_properties (settings : DebugSettings) (occurrences : List Occurrence) :
    KnowsProperties settings occurrences where
  once := nodup_names_reported settings (eventsIn occurrences)
  ascending _ h := ascending_of_mem_run h
  answered before between _ _ live := ⟨_, step_properties live _ _⟩
  complete := by
    rintro before o later records - hsent
    cases hevent : o.event? (definitionsIn before) with
    | none => simp [response, hevent] at hsent
    | some event =>
      simp only [response, hevent] at hsent
      obtain ⟨all, user, rfl, live, rfl⟩ := properties_mem_step hsent
      obtain ⟨between, rfl, rfl, rfl⟩ := eq_sent_of_event? hevent
      obtain ⟨hbegun, hgoing⟩ := Status.begun_of_isLive live
      obtain ⟨baseline, hfirst, hnames⟩ := baseline_after settings hbegun hgoing
      have hknown := mem_reported_iff settings live between
      rw [hnames] at hknown
      exact ⟨between, baseline, rfl, hfirst, hknown,
        perm_entries (nodup_names_reported settings _) hknown⟩

end Session

end BuildStepper
