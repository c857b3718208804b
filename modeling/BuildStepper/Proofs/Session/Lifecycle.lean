import BuildStepper.Proofs.Session.Parties

/-!
# The life of a session

`Lifecycle` collects what holds of a session whatever the parties have done so far and will do next:
how the build comes to be held, what holds it on and what lets it go, what an idle session passes
over, and that a session which is over stays so for good. `lifecycle` proves it.

The build being held is a matter of one incident at a time (`step_held`): an incident that does not
decide anything leaves both the status and the thread, and one that does (`Incident.outcome?`) sets
both. The end of a session is a matter of one step at a time (`Over.step`, `Finished.step`), from
which runs of any length follow by induction.
-/

namespace BuildStepper

open Wire (Command Notification WireError)

namespace Session

/-! ## Sessions that are over -/

/-- A session `t` that is over, with what `s` had of breakpoints and of reported properties. -/
structure Over (s t : Session) : Prop where
  status : t.status = .terminated
  breakpoints : t.breakpoints = s.breakpoints
  report : t.report = s.report

/-- Nothing that happens to a session which is over wakes it or is answered. -/
theorem Over.step {s t : Session} (h : Over s t) (event : SessionEvent) :
    Over s (t.step event).1 ∧ (t.step event).2 = [] := by
  have hdead : t.status.isLive = false := by
    rw [h.status]
    rfl
  cases event with
  | build event =>
    by_cases hover : event = .buildFinished
    · subst hover
      refine ⟨⟨rfl, h.breakpoints, h.report⟩, ?_⟩
      simp [Session.step, callback, buildFinished, hdead]
    · have hsame : t.step (.build event) = (t, []) := by
        cases htells : (SessionEvent.build event).tellsOfBuild with
        | true => exact callback_of_not_live hdead htells hover
        | false =>
          -- The start of a build is the one callback that tells nothing of it.
          cases event with
          | buildStarted baseline => simp [Session.step, callback, buildStarted, h.status]
          | _ => cases htells
      rw [hsame]
      exact ⟨h, rfl⟩
  | command all user command =>
    rw [Session.step, dispatch_of_not_live hdead]
    exact ⟨h, rfl⟩
  | disconnected =>
    have hsame : t.step .disconnected = (t, []) := by simp [Session.step, disconnect, hdead]
    rw [hsame]
    exact ⟨h, rfl⟩
  | attached =>
    have hsame : t.step .attached = (t, []) := by simp [Session.step, attach, h.status]
    rw [hsame]
    exact ⟨h, rfl⟩
  | abandoned =>
    have hsame : t.step .abandoned = (t, []) := by simp [Session.step, abandon, h.status]
    rw [hsame]
    exact ⟨h, rfl⟩

/-- A session that is over is silent for good, whoever it hears from. -/
theorem Over.run {s t : Session} (h : Over s t) (events : List SessionEvent) :
    Over s (t.run events).1 ∧ (t.run events).2 = [] := by
  induction events generalizing t with
  | nil => exact ⟨h, rfl⟩
  | cons event events ih =>
    obtain ⟨hnext, hsilent⟩ := h.step event
    obtain ⟨hlast, hlater⟩ := ih hnext
    rw [run_cons]
    exact ⟨hlast, by rw [hsilent, hlater]; rfl⟩

/-- A session whose build is over: nothing is in execution. -/
structure Finished (s : Session) : Prop where
  status : s.status = .terminated
  stack : s.stack.isEmpty = true
  targets : s.targets = []

/-- A build that is over stays so. -/
theorem Finished.step {s : Session} (h : Finished s) (event : SessionEvent) :
    Finished (s.step event).1 := by
  by_cases hover : event = .build .buildFinished
  · subst hover
    exact ⟨rfl, rfl, rfl⟩
  · have htold : s.told event = s := by
      have hdead : s.status.isLive = false := by
        rw [h.status]
        rfl
      cases event with
      | build event => simp [told, hdead]
      | _ => rfl
    have same := told_sameBuild s hover
    rw [htold] at same
    exact ⟨step_terminated h.status event, by rw [same.stack]; exact h.stack,
      by rw [same.targets]; exact h.targets⟩

end Session

/-! ## Builds that are held -/

/-- What comes of an incident for a build that is held, if it decides anything. -/
def Incident.outcome? : Incident → Option Status
  | .calls _ | .accepted | .missed => none
  | .ended => some .terminated
  | .read all user outcome =>
    match heard? all user outcome with
    | none => none
    | some (.command _ _ command) =>
      if command = .terminate then some .terminated
      else if command.releases then some .running
      else none
    | some _ => some .terminated

namespace DebuggedBuild

/-- An incident decides what becomes of a hold. -/
theorem step_held_status {b : DebuggedBuild} {event : BuildEvent} {hold : Hold}
    (hthread : b.thread = .held event) (hstatus : b.session.status = .suspended hold)
    (i : Incident) :
    (b.step i).1.session.status = i.outcome?.getD (.suspended hold) := by
  obtain ⟨s, thread⟩ := b
  subst hthread
  change s.status = .suspended hold at hstatus
  cases i with
  | calls called => exact hstatus
  | ended => rfl
  | accepted => exact hstatus
  | missed => exact hstatus
  | read all user outcome =>
    cases hheard : heard? all user outcome with
    | none =>
      have hevent : (Incident.read all user outcome).event? (.held event) = none := hheard
      rw [step_of_none hevent]
      simp only [Incident.outcome?, hheard]
      exact hstatus
    | some heard =>
      have live : s.status.isLive = true := by
        rw [hstatus]
        rfl
      have hevent : (Incident.read all user outcome).event? (.held event) = some heard := hheard
      rw [step_of_some hevent]
      change (s.step heard).1.status = _
      rw [Session.step_status_of_live live, hstatus]
      simp only [Incident.outcome?, hheard]
      -- The reader passes on a command, or the end of the connection.
      obtain ⟨command, rfl⟩ | rfl := heard?_cases hheard
      · by_cases hterminate : command = .terminate
        · simp [hterminate]
        · cases hreleases : command.releases <;> simp [hterminate, hreleases]
      · rfl

/-- An incident decides where a build that is held comes to stand, and the thread looks at that. -/
theorem step_held {b : DebuggedBuild} {event : BuildEvent} {hold : Hold}
    (hthread : b.thread = .held event) (hstatus : b.session.status = .suspended hold)
    (i : Incident) :
    (b.step i).1.session.status = i.outcome?.getD (.suspended hold) ∧
      (b.step i).1.thread = .inside event (i.outcome?.getD (.suspended hold)) := by
  have hfits : b.Fits := by
    unfold Fits
    rw [hthread, hstatus]
    rfl
  have hnext := step_held_status hthread hstatus i
  refine ⟨hnext, ?_⟩
  rw [hfits.step_thread i, hthread, hnext]
  cases i <;> rfl

/-- Until an incident decides something, a held build is held on, in the same way and at the same
place. -/
theorem run_held {b : DebuggedBuild} {event : BuildEvent} {hold : Hold}
    (hthread : b.thread = .held event) (hstatus : b.session.status = .suspended hold)
    {later : List Incident} (hopen : ∀ i ∈ later, i.outcome? = none) :
    (b.run later).1.session.status = .suspended hold ∧ (b.run later).1.thread = .held event := by
  induction later generalizing b with
  | nil => exact ⟨hstatus, hthread⟩
  | cons i later ih =>
    obtain ⟨hnext, hkept⟩ := step_held hthread hstatus i
    rw [hopen i List.mem_cons_self] at hnext hkept
    exact ih hkept hnext fun j hj => hopen j (List.mem_cons_of_mem i hj)

/-! ## Builds whose session is over -/

/-- What a party does to a build is a step of its session, or nothing. -/
theorem step_session (b : DebuggedBuild) (i : Incident) :
    b.step i = (b, []) ∨ ∃ event, (b.step i).1.session = (b.session.step event).1 ∧
      (b.step i).2 = (b.session.step event).2 := by
  cases hevent : i.event? b.thread with
  | none => exact .inl (step_of_none hevent)
  | some event =>
    rw [step_of_some hevent]
    exact .inr ⟨event, rfl, rfl⟩

/-- What a party does to a session that is over. -/
theorem step_over {s : Session} {b : DebuggedBuild} (h : s.Over b.session) (i : Incident) :
    s.Over (b.step i).1.session ∧ (b.step i).2 = [] := by
  obtain hsame | ⟨event, hsession, hsent⟩ := step_session b i
  · rw [hsame]
    exact ⟨h, rfl⟩
  · rw [hsession, hsent]
    exact h.step event

/-- Once the session is over the thread is free, or it waits for a client and the incident is not
the outcome of that wait. -/
theorem step_over_thread {s : Session} {b : DebuggedBuild} (h : s.Over b.session) (hfits : b.Fits)
    (i : Incident) :
    (b.step i).1.thread = .working ∨
      (∃ event, b.thread = .waiting event) ∧ (b.step i).1.thread = b.thread ∧
        i ≠ .accepted ∧ i ≠ .missed := by
  have hnext := hfits.step_thread i
  rw [(step_over h i).1.status] at hnext
  rw [hnext]
  obtain hworking | ⟨waited, hwaiting⟩ := hfits.thread_of_terminated h.status
  · rw [hworking]
    left
    cases i <;> rfl
  · rw [hwaiting]
    cases i with
    | accepted => exact .inl rfl
    | missed => exact .inl rfl
    | _ => exact .inr ⟨⟨waited, rfl⟩, rfl, by simp, by simp⟩

/-- Once the session is over no incident is answered, and none keeps the thread. A thread that waits
for a client is free with the outcome of the wait, whichever it is. -/
theorem run_over {s : Session} {b : DebuggedBuild} (h : s.Over b.session) (hfits : b.Fits)
    (later : List Incident) :
    s.Over (b.run later).1.session ∧ (b.run later).2 = [] ∧
      ((b.run later).1.thread = .working ∨
        (∃ event, b.thread = .waiting event) ∧ (b.run later).1.thread = b.thread ∧
          .accepted ∉ later ∧ .missed ∉ later) := by
  induction later generalizing b with
  | nil =>
    refine ⟨h, rfl, ?_⟩
    -- The thread is free, or still in the wait for a client.
    obtain hworking | hwaiting := hfits.thread_of_terminated h.status
    · exact .inl hworking
    · exact .inr ⟨hwaiting, rfl, List.not_mem_nil, List.not_mem_nil⟩
  | cons i later ih =>
    obtain ⟨hover, hsilent⟩ := step_over h i
    obtain ⟨hlast, hlater, hthread⟩ := ih hover (hfits.step i)
    refine ⟨hlast, ?_, ?_⟩
    · change (b.step i).2 ++ ((b.step i).1.run later).2 = []
      rw [hsilent, hlater]
      rfl
    · obtain hfree | ⟨⟨event, hwaiting⟩, hkept, haccepted, hmissed⟩ := hthread
      · exact .inl hfree
      · -- The thread waits on to the end, so that it did so after the first incident as well.
        obtain hfree | ⟨hwaited, hsame, hnotaccepted, hnotmissed⟩ := step_over_thread h hfits i
        · rw [hfree] at hwaiting
          cases hwaiting
        · refine .inr ⟨hwaited, hkept.trans hsame, ?_, ?_⟩
          · rw [List.mem_cons, not_or]
            exact ⟨hnotaccepted.symm, haccepted⟩
          · rw [List.mem_cons, not_or]
            exact ⟨hnotmissed.symm, hmissed⟩

/-- A build that is over stays so, whatever the parties do. -/
theorem run_finished {b : DebuggedBuild} (h : b.session.Finished) (later : List Incident) :
    (b.run later).1.session.Finished := by
  induction later generalizing b with
  | nil => exact h
  | cons i later ih =>
    refine ih ?_
    obtain hsame | ⟨event, hsession, -⟩ := step_session b i
    · rw [hsame]
      exact h
    · rw [hsession]
      exact h.step event

/-! ## The life of a session -/

/-- What holds of a session and of the thread of its build, whatever the parties will do. -/
structure Lifecycle (b : DebuggedBuild) : Prop where
  /-- While the build is held, its thread is inside a callback. -/
  inside : ∀ hold, b.session.status = .suspended hold → ∃ event, b.thread = .held event
  /-- The build comes to be held only inside a callback: one that the thread has just made, or the
  one in which it has waited for the client that has now connected. -/
  enters : ∀ i hold, b.session.status.isSuspended = false →
    (b.step i).1.session.status = .suspended hold →
      ∃ event, (b.step i).1.thread = .held event ∧
        (b.thread = .working ∧ i = .calls event ∨ b.thread = .waiting event ∧ i = .accepted)
  /-- Until an incident decides something, the build is held on in the same way, and the callback
  does not return. -/
  stays : ∀ hold, b.session.status = .suspended hold →
    ∀ later, (∀ i ∈ later, i.outcome? = none) →
      (b.run later).1.session.status = .suspended hold ∧ (b.run later).1.thread = b.thread
  /-- The first incident to decide something sets the status, and the callback returns. -/
  leaves : ∀ hold, b.session.status = .suspended hold →
    ∀ later i status, (∀ j ∈ later, j.outcome? = none) → i.outcome? = some status →
      (b.run (later ++ [i])).1.session.status = status ∧
        (b.run (later ++ [i])).1.thread = .working
  /-- An idle session passes over all callbacks but the start and the end of the build. -/
  idle : b.session.status.name = "Idle" → ∀ event,
    (∀ baseline, event ≠ .buildStarted baseline) → event ≠ .buildFinished →
      b.session.callback event = (b.session, []) ∧ b.step (.calls event) = (b, [])
  /-- A session that is over stays so, with its breakpoints and the properties reported; nothing is
  sent any more, and the thread is not kept, except that a wait for a client goes on to its
  outcome. -/
  ended : b.session.status = .terminated → ∀ later,
    b.session.Over (b.run later).1.session ∧ (b.run later).2 = [] ∧
      ((b.run later).1.thread = .working ∨
        (∃ event, b.thread = .waiting event) ∧ (b.run later).1.thread = b.thread ∧
          .accepted ∉ later ∧ .missed ∉ later)
  /-- The same whichever thread the callbacks come from. -/
  silent : b.session.status = .terminated → ∀ events,
    b.session.Over (b.session.run events).1 ∧ (b.session.run events).2 = []
  /-- After the end of the build, from whichever thread, the session is over for good and nothing is
  in execution. -/
  finished : ∀ i, i.event? b.thread = some (.build .buildFinished) → ∀ later,
    (b.run (i :: later)).1.session.Finished

/-- What an incident decides lets the thread go. -/
theorem inside_outcome {i : Incident} {status : Status} (h : i.outcome? = some status)
    (event : BuildEvent) : BuildThread.inside event status = .working := by
  have hfree : status = .terminated ∨ status = .running := by
    cases i with
    | ended => exact .inl (Option.some.inj h).symm
    | read all user outcome =>
      simp only [Incident.outcome?] at h
      split at h
      · cases h
      · split at h
        · exact .inl (Option.some.inj h).symm
        · split at h
          · exact .inr (Option.some.inj h).symm
          · cases h
      · exact .inl (Option.some.inj h).symm
    | _ => cases h
  obtain rfl | rfl := hfree <;> rfl

/-- A build that comes to be held comes to be so inside a callback. -/
theorem enters_inside {b : DebuggedBuild} (hfits : b.Fits) {i : Incident} {hold : Hold}
    (hbefore : b.session.status.isSuspended = false)
    (hafter : (b.step i).1.session.status = .suspended hold) :
    ∃ event, (b.step i).1.thread = .held event ∧
      (b.thread = .working ∧ i = .calls event ∨ b.thread = .waiting event ∧ i = .accepted) := by
  have hnext := hfits.step_thread i
  rw [hafter] at hnext
  rw [hnext]
  cases hevent : i.event? b.thread with
  | none =>
    rw [step_of_none hevent] at hafter
    rw [hafter] at hbefore
    cases hbefore
  | some event =>
    rw [step_of_some hevent] at hafter
    change (b.session.step event).1.status = .suspended hold at hafter
    -- The session is called back, or its client connects; neither comes from the reader.
    have hsource := Session.eq_build_or_attached_of_held hbefore hafter
    have hreader (all user : PropertyTable) (outcome : Except WireError (Option String)) :
        heard? all user outcome ≠ some event := by
      intro hheard
      obtain ⟨command, rfl⟩ | rfl := heard?_cases hheard <;> simp at hsource
    cases hthread : b.thread with
    | working =>
      rw [hthread] at hevent
      cases i with
      | calls called => exact ⟨called, rfl, .inl ⟨rfl, rfl⟩⟩
      | ended =>
        cases hevent
        simp at hsource
      | read all user outcome => exact absurd hevent (hreader all user outcome)
      | _ => cases hevent
    | waiting waited =>
      rw [hthread] at hevent
      cases i with
      | accepted => exact ⟨waited, rfl, .inr ⟨rfl, rfl⟩⟩
      | calls called => cases hevent
      | ended =>
        cases hevent
        simp at hsource
      | missed =>
        cases hevent
        simp at hsource
      | read all user outcome => exact absurd hevent (hreader all user outcome)
    | held kept =>
      unfold Fits at hfits
      simp [hthread, hbefore] at hfits

/-- An idle session passes over all callbacks but the start and the end of the build. -/
theorem idle_calls {b : DebuggedBuild} (hfits : b.Fits) (hidle : b.session.status.name = "Idle")
    {event : BuildEvent} (hstart : ∀ baseline, event ≠ .buildStarted baseline)
    (hend : event ≠ .buildFinished) :
    b.session.callback event = (b.session, []) ∧ b.step (.calls event) = (b, []) := by
  obtain ⟨s, thread⟩ := b
  change s.status.name = "Idle" at hidle
  have hdead : s.status.isLive = false := by
    cases hs : s.status with
    | running =>
      rw [hs] at hidle
      exact absurd hidle (by decide)
    | suspended hold =>
      rw [hs] at hidle
      cases hold <;> exact absurd hidle (by decide)
    | _ => rfl
  have htells : (SessionEvent.build event).tellsOfBuild = true := by
    cases event with
    | buildStarted baseline => exact absurd rfl (hstart baseline)
    | _ => rfl
  have hsame := Session.callback_of_not_live hdead htells hend
  refine ⟨hsame, ?_⟩
  cases thread with
  | working =>
    -- The thread is outside, so that the session blocks nothing and the callback returns.
    have hthread : BuildThread.inside event s.status = .working := by
      change s.status.blocksBuild = false at hfits
      cases hs : s.status with
      | awaiting port =>
        rw [hs] at hfits
        cases hfits
      | suspended hold =>
        rw [hs] at hfits
        cases hfits
      | _ => rfl
    have hevent : (Incident.calls event).event? .working = some (.build event) := rfl
    rw [step_of_some (b := ⟨s, .working⟩) hevent]
    simp only [Session.step, hsame, Incident.thread, hthread]
  | waiting waited => rfl
  | held kept => rfl

/-- The life of a session: whatever the parties have done, the session and the thread of its build
are as `Lifecycle` says. -/
theorem lifecycle (settings : DebugSettings) (incidents : List Incident) :
    Lifecycle (after settings incidents) := by
  have hfits := fits_after settings incidents
  generalize after settings incidents = b at *
  -- A session that is over is so beside itself.
  have hover (hstatus : b.session.status = .terminated) : b.session.Over b.session :=
    ⟨hstatus, rfl, rfl⟩
  refine ⟨fun hold => hfits.thread_of_suspended, fun i hold => enters_inside hfits,
    ?_, ?_, ?_, ?_, ?_, ?_⟩
  · intro hold hstatus later hopen
    obtain ⟨event, hthread⟩ := hfits.thread_of_suspended hstatus
    rw [hthread]
    exact run_held hthread hstatus hopen
  · -- The build is held on up to the incident that decides, and that one lets the thread go.
    intro hold hstatus later i status hopen hdecided
    obtain ⟨event, hthread⟩ := hfits.thread_of_suspended hstatus
    obtain ⟨hheld, hkept⟩ := run_held hthread hstatus hopen
    obtain ⟨hnext, hleft⟩ := step_held hkept hheld i
    rw [hdecided] at hnext hleft
    rw [run_append]
    exact ⟨hnext, hleft.trans (inside_outcome hdecided event)⟩
  · exact fun hidle event hstart hend => idle_calls hfits hidle hstart hend
  · exact fun hstatus later => run_over (hover hstatus) hfits later
  · exact fun hstatus events => (hover hstatus).run events
  · -- The end of the build makes the session a finished one, and the rest of the run keeps it so.
    intro i hevent later
    refine run_finished ?_ later
    rw [step_of_some hevent]
    exact ⟨rfl, rfl, rfl⟩

end DebuggedBuild

end BuildStepper
