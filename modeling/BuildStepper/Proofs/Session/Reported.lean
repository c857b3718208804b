import BuildStepper.Proofs.Properties.Report
import BuildStepper.Proofs.Session.Execution

/-!
# What a session has reported of the properties

The client is told of properties in answer to its own commands, and the session keeps which names
it has told of. `sent_after` shows that it keeps them exactly, whatever happens and whatever the
tables are that it finds. What is not in the report is new, so that no name is reported twice
(`nodup_names_reported`).

The report begins with the build, before there is a client: `baseline_after` says that a session
which waits for its client, or has one, keeps the names that the first start of the build gave it.
-/

namespace BuildStepper

open Wire (Command Notification PropertyRecord bytesOf)

/-- The properties that a notification reports. -/
def Wire.Notification.records : Notification → List PropertyRecord
  | .properties records => records
  | _ => []

/-- The table at the first start of the build. -/
def firstBaseline? (events : List SessionEvent) : Option PropertyTable :=
  events.findSome? fun
    | .build (.buildStarted baseline) => some baseline
    | _ => none

/-- A session with a client is neither before its beginning nor after its end. -/
theorem Status.begun_of_isLive {status : Status} (live : status.isLive = true) :
    status ≠ .idle ∧ status ≠ .terminated := by
  cases status <;> simp_all [isLive]

namespace Session

/-! ## What a step reports -/

/-- What a step does to the report: the start of the build begins it, and a client that asks is
given what is new. -/
theorem step_report (s : Session) (event : SessionEvent) :
    (s.step event).1.report =
      match event with
      | .build (.buildStarted baseline) => if s.status = .idle then .start baseline else s.report
      | .command all _ .properties => if s.status.isLive then s.report.report all else s.report
      | _ => s.report := by
  cases event with
  | build event =>
    cases event with
    | buildStarted baseline =>
      simp only [step, callback, buildStarted]
      split <;> rfl
    | buildFinished => rfl
    | _ =>
      simp only [step]
      cases live : s.status.isLive with
      | true =>
        rw [callback_of_live live (by simp), suspendIf_fst]
        -- What is noted of a target or a task is no part of the report.
        exact (note_keeps s _).2.2.2.1
      | false => rw [callback_of_not_live live rfl (by simp)]
  | command all user command =>
    simp only [step, dispatch]
    split
    · cases command <;> simp only [stepOver, release_eq, terminate]
    · cases command <;> rfl
  | attached =>
    simp only [step, attach]
    split <;> rfl
  | abandoned =>
    simp only [step, abandon]
    split <;> rfl
  | disconnected =>
    simp only [step, disconnect]
    split <;> rfl

/-- Once the build has started the baseline stays. -/
theorem step_baseline {s : Session} (hbegun : s.status ≠ .idle) (event : SessionEvent) :
    (s.step event).1.report.baseline = s.report.baseline := by
  rw [step_report]
  split
  · rw [if_neg hbegun]
  · split <;> rfl
  · rfl

/-- Properties are reported to a client that asks, and to nobody else. -/
theorem properties_mem_step {s : Session} {event : SessionEvent} {records : List PropertyRecord}
    (h : .properties records ∈ (s.step event).2) :
    ∃ all user, event = .command all user .properties ∧ s.status.isLive = true ∧
      records = s.report.delta all user := by
  cases live : s.status.isLive with
  | true =>
    rw [step_sent_of_live live] at h
    split at h
    · simp at h
    · simp at h
    · simp at h
    · simp at h
    · next all user => exact ⟨all, user, rfl, rfl, by simpa using h⟩
    · simp at h
  | false =>
    rw [step_sent_of_not_live live] at h
    split at h <;> simp at h

/-- What a live session answers a client that asks for the properties. -/
theorem step_properties {s : Session} (live : s.status.isLive = true) (all user : PropertyTable) :
    (s.step (.command all user .properties)).2 = [.properties (s.report.delta all user)] :=
  step_sent_of_live live _

/-! ## What has been reported -/

/-- The properties that are reported while events happen, from the beginning. -/
def reported (settings : DebugSettings) (events : List SessionEvent) : List PropertyRecord :=
  (({ settings } : Session).run events).2.flatMap Notification.records

/-- The last event adds the records that are sent on it. -/
theorem reported_concat (settings : DebugSettings) (events : List SessionEvent)
    (event : SessionEvent) :
    reported settings (events ++ [event]) = reported settings events ++
      ((after settings events).step event).2.flatMap Notification.records := by
  unfold reported
  rw [run_append, List.flatMap_append]
  simp [after]

/-- An event at which no properties are sent adds nothing to what has been reported. -/
theorem reported_concat_of_not_mem {settings : DebugSettings} {events : List SessionEvent}
    {event : SessionEvent}
    (hnone : ∀ records, .properties records ∉ ((after settings events).step event).2) :
    reported settings (events ++ [event]) = reported settings events := by
  have hnil : ((after settings events).step event).2.flatMap Notification.records = [] := by
    refine List.flatMap_eq_nil_iff.2 fun n hn => ?_
    cases n with
    | properties records => exact absurd hn (hnone records)
    | _ => rfl
  rw [reported_concat, hnil, List.append_nil]

/-- A client that asks is reported what is new in the table. -/
theorem reported_concat_properties {settings : DebugSettings} {events : List SessionEvent}
    (live : (after settings events).status.isLive = true) (all user : PropertyTable) :
    reported settings (events ++ [.command all user .properties]) =
      reported settings events ++ (after settings events).report.delta all user := by
  rw [reported_concat, step_properties live]
  simp [Notification.records]

/-- Either an event reports nothing, or it is a live client that asks. -/
theorem reports_nothing_or_asks (s : Session) (event : SessionEvent) :
    (∀ records, .properties records ∉ (s.step event).2) ∨
      ∃ all user, event = .command all user .properties ∧ s.status.isLive = true := by
  by_cases hsome : ∃ records, .properties records ∈ (s.step event).2
  · obtain ⟨records, hrecords⟩ := hsome
    obtain ⟨all, user, hevent, live, -⟩ := properties_mem_step hrecords
    exact .inr ⟨all, user, hevent, live⟩
  · exact .inl (not_exists.1 hsome)

/-- Before there is a client nothing is reported. -/
theorem reported_of_not_live {settings : DebugSettings} {events : List SessionEvent}
    (hdead : (after settings events).status.isLive = false)
    (hgoing : (after settings events).status ≠ .terminated) : reported settings events = [] := by
  induction events using List.reverseRecOn with
  | nil => rfl
  | append_singleton events event ih =>
    rw [after_concat] at hdead hgoing
    obtain ⟨hbefore, hearlier⟩ := unattended_of_step hdead hgoing
    obtain hnone | ⟨all, user, -, live⟩ := reports_nothing_or_asks (after settings events) event
    · rw [reported_concat_of_not_mem hnone]
      exact ih hbefore hearlier
    · exact absurd (hbefore.symm.trans live) (by decide)

/-- Where something has been reported the build has started. -/
theorem ne_idle_of_mem_reported {settings : DebugSettings} {events : List SessionEvent}
    {record : PropertyRecord} (h : record ∈ reported settings events) :
    (after settings events).status ≠ .idle := by
  intro hidle
  rw [reported_of_not_live (by rw [hidle]; rfl) (by simp [hidle])] at h
  cases h

/-- The session keeps exactly the names that it has reported. -/
theorem sent_after (settings : DebugSettings) (events : List SessionEvent) :
    (after settings events).report.sent =
      (reported settings events).map PropertyRecord.name := by
  induction events using List.reverseRecOn with
  | nil => rfl
  | append_singleton events event ih =>
    rw [after_concat, step_report]
    obtain hnone | ⟨all, user, rfl, live⟩ := reports_nothing_or_asks (after settings events) event
    · rw [reported_concat_of_not_mem hnone]
      split
      · split
        · -- The report begins before anything has been reported.
          next hidle =>
          rw [reported_of_not_live (by rw [hidle]; rfl) (by simp [hidle])]
          rfl
        · exact ih
      · next all user =>
        split
        · next live =>
          -- A live session would have answered, though with nothing new.
          have hsent := step_properties live all user
          exact absurd (hsent ▸ List.mem_singleton_self _) (hnone _)
        · exact ih
      · exact ih
    · -- The answer adds the names that it tells.
      rw [reported_concat_properties live, List.map_append, ← ih]
      simp only [if_pos live]
      exact PropertyReport.sent_report _ all user

/-- No name is reported twice. -/
theorem nodup_names_reported (settings : DebugSettings) (events : List SessionEvent) :
    ((reported settings events).map PropertyRecord.name).Nodup := by
  induction events using List.reverseRecOn with
  | nil => exact List.nodup_nil
  | append_singleton events event ih =>
    obtain hnone | ⟨all, user, rfl, live⟩ := reports_nothing_or_asks (after settings events) event
    · rwa [reported_concat_of_not_mem hnone]
    · rw [reported_concat_properties live, List.map_append]
      refine List.nodup_append.2 ⟨ih, PropertyReport.nodup_delta _ all user, ?_⟩
      rintro name hold _ hnew rfl
      obtain ⟨record, hrecord, rfl⟩ := List.mem_map.1 hnew
      have hfresh := (PropertyReport.mem_delta_iff.1 hrecord).2.1
      rw [sent_after] at hfresh
      exact hfresh hold

/-- Every report is strictly ascending, in the order of the bytes of the names. -/
theorem ascending_of_mem_run {s : Session} {events : List SessionEvent}
    {records : List PropertyRecord} (h : .properties records ∈ (s.run events).2) :
    records.Pairwise fun a b => bytesOf a.name.toList < bytesOf b.name.toList := by
  rw [run_sent, List.mem_flatMap] at h
  obtain ⟨m, -, hsent⟩ := h
  obtain ⟨all, user, -, -, rfl⟩ := properties_mem_step hsent
  exact (PropertyReport.delta_ascending _ all user).imp (Wire.lt_iff_bytesOf_lt _ _).1

/-! ## The beginning of the report -/

/-- The first baseline is looked for in the last event only if there is none before. -/
theorem firstBaseline?_concat (events : List SessionEvent) (event : SessionEvent) :
    firstBaseline? (events ++ [event]) =
      (firstBaseline? events).or (firstBaseline? [event]) := by
  unfold firstBaseline?
  rw [List.findSome?_append]

/-- Only the start of the build ends idleness, short of ending the session. -/
theorem eq_buildStarted_of_idle {s : Session} (hidle : s.status = .idle) {event : SessionEvent}
    (hbegun : (s.step event).1.status ≠ .idle) (hgoing : (s.step event).1.status ≠ .terminated) :
    ∃ baseline, event = .build (.buildStarted baseline) := by
  rw [step_status_of_not_live (by rw [hidle]; rfl), hidle] at hbegun hgoing
  cases event with
  | build called =>
    cases called with
    | buildStarted baseline => exact ⟨baseline, rfl⟩
    | buildFinished => exact absurd rfl hgoing
    | _ => exact absurd rfl hbegun
  | _ => exact absurd rfl hbegun

/-- A session that waits for its client, or has one, keeps the names of the table at the first start
of the build. -/
theorem baseline_after (settings : DebugSettings) {events : List SessionEvent}
    (hbegun : (after settings events).status ≠ .idle)
    (hgoing : (after settings events).status ≠ .terminated) :
    ∃ baseline, firstBaseline? events = some baseline ∧
      (after settings events).report.baseline = baseline.names := by
  induction events using List.reverseRecOn with
  | nil => exact absurd rfl hbegun
  | append_singleton events event ih =>
    rw [after_concat] at hbegun hgoing ⊢
    have hbefore : (after settings events).status ≠ .terminated := fun hterminated =>
      hgoing (step_terminated hterminated event)
    rw [firstBaseline?_concat]
    by_cases hidle : (after settings events).status = .idle
    · -- This is the first start of the build.
      obtain ⟨baseline, rfl⟩ := eq_buildStarted_of_idle hidle hbegun hgoing
      have hnone : firstBaseline? events = none := by
        refine List.findSome?_eq_none_iff.2 fun e he => ?_
        split
        · next started => exact absurd he (not_started_of_idle settings hidle started)
        · rfl
      refine ⟨baseline, by rw [hnone]; rfl, ?_⟩
      rw [step_report]
      simp only [if_pos hidle]
      rfl
    · -- Later starts neither come first nor count.
      obtain ⟨baseline, hfirst, hnames⟩ := ih hidle hbefore
      exact ⟨baseline, by rw [hfirst, Option.some_or], by rw [step_baseline hidle, hnames]⟩

end Session

end BuildStepper
