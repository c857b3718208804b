import BuildStepper.Proofs.Replay.Properties
import BuildStepper.Proofs.Session.Lifecycle

/-!
# Replays without a client

Where no client comes, because there is no port to wait at or because nobody connects, the session
is over before the first target starts. From then on the build is on its own (`Unattended`): it
makes all its callbacks, none of which wakes the session or leaves anything on its stack, and in the
end its properties are those of a build that nobody listens to.

That a session which is over stays so is known of one step (`Session.Finished.step`). A turn of a
replay is such a step, and `play_of_finished` takes them together. What has been done of the trace
meanwhile is told by `HasDone`.
-/

namespace BuildStepper

/-- How many callbacks a turn makes of a build that is not blocked. -/
def Turn.calls : Turn → Nat
  | .advance => 1
  | _ => 0

namespace DebuggedReplay

/-- How many callbacks turns make of a build that is not blocked. -/
def callsOf : List Turn → Nat
  | [] => 0
  | turn :: turns => turn.calls + callsOf turns

/-- A turn of a replay whose session is over: the build makes its next callback if it is the turn of
the build, and nobody is told. -/
theorem turn_of_finished {r : DebuggedReplay} (h : r.session.Finished) (turn : Turn) :
    (r.turn turn).1.session.Finished ∧ (r.turn turn).1.coming = r.coming.drop turn.calls ∧
      (r.turn turn).2 = (r.coming.take turn.calls, []) := by
  have hsilent (event : SessionEvent) : (r.session.step event).2 = [] := by
    have hover : r.session.Over r.session := ⟨h.status, rfl, rfl⟩
    exact (hover.step event).2
  -- It is the turn of the build, or else something comes from outside and the build does nothing.
  cases houtside : r.outside? turn with
  | some event =>
    obtain ⟨hsession, hcoming, hcalled⟩ := turn_of_outside houtside
    have hcalls : turn.calls = 0 := by
      cases turn with
      | advance => cases houtside
      | _ => rfl
    rw [hsession, hcoming, hcalled, hcalls, hsilent event]
    exact ⟨h.step event, rfl, rfl⟩
  | none =>
    cases turn with
    | advance =>
      have hfree : r.session.status.blocksBuild = false := by
        rw [h.status]
        rfl
      change (r.advance 1).1.session.Finished ∧ (r.advance 1).1.coming = r.coming.drop 1 ∧
        (r.advance 1).2 = (r.coming.take 1, [])
      cases hcoming : r.coming with
      | cons event later =>
        obtain ⟨hsession, hlater, hcalled⟩ := advance_of_coming hfree hcoming
        have hstep : (r.session.callback event).2 = [] := hsilent (.build event)
        rw [hsession, hlater, hcalled, hstep]
        exact ⟨h.step (.build event), rfl, rfl⟩
      | nil =>
        obtain ⟨hsession, hnothing, hcalled⟩ := advance_of_done hfree hcoming
        rw [hsession, hnothing, hcalled]
        exact ⟨h, rfl, rfl⟩
    | _ => cases houtside

/-- Any turns of such a replay. -/
theorem play_of_finished {r : DebuggedReplay} (h : r.session.Finished) (turns : List Turn) :
    (r.play turns).1.session.Finished ∧ (r.play turns).1.coming = r.coming.drop (callsOf turns) ∧
      (r.play turns).2 = (r.coming.take (callsOf turns), []) := by
  induction turns generalizing r with
  | nil => exact ⟨h, rfl, rfl⟩
  | cons turn turns ih =>
    obtain ⟨hnext, hcoming, hcalled⟩ := turn_of_finished h turn
    obtain ⟨hfinal, hlater, hmore⟩ := ih hnext
    have hcalls : callsOf (turn :: turns) = turn.calls + callsOf turns := rfl
    rw [play_cons, hcalled, hmore, hcalls, List.take_add, ← hcoming]
    refine ⟨hfinal, ?_, rfl⟩
    rw [hlater, hcoming, List.drop_drop]

namespace HasDone

variable {t : Trace} {steps : List ReplayStep} {r : DebuggedReplay}

/-- The last step of a replay is a callback, so that with no callback to come nothing is left to
do. -/
theorem rest_eq_nil (h : HasDone t steps r) (hnone : r.coming = []) : r.rest = [] := by
  obtain hnil | ⟨front, last, hrest⟩ := List.eq_nil_or_concat r.rest
  · exact hnil
  · have hlast : last = .callback .buildFinished := by
      have hsplit := congrArg List.getLast? h.split
      rw [hrest, List.concat_eq_append, ← List.append_assoc, List.getLast?_concat, Trace.replay,
        List.getLast?_concat] at hsplit
      exact (Option.some.inj hsplit).symm
    rw [coming, hrest, hlast, List.concat_eq_append, callbacksOf_append] at hnone
    simp [callbacksOf_callback] at hnone

/-- Then the properties are those of the whole trace. -/
theorem properties_of_end (h : HasDone t steps r) (hnone : r.coming = []) :
    r.properties = t.finalProperties := by
  have hsteps : t.replay = steps := by
    rw [h.split, h.rest_eq_nil hnone, List.append_nil]
  rw [h.properties, ← hsteps]
  rfl

end HasDone

/-- A replay of the trace has begun, and goes on without a client. -/
structure Unattended (t : Trace) (r : DebuggedReplay) : Prop where
  /-- All callbacks but the start of the build are still to come. -/
  begun : t.events = .buildStarted t.initialProperties.all :: r.coming
  /-- Whatever is done next, the session is over, its stack is empty, and nothing is sent. -/
  ended : ∀ turns, (r.play turns).1.session.status = .terminated ∧
    (r.play turns).1.session.stack.isEmpty = true ∧ (r.play turns).2.2 = []
  /-- The build makes its next callback whenever it is its turn. -/
  goesOn : ∀ turns, (r.play turns).2.1 = r.coming.take (callsOf turns)
  /-- When it has made them all, nothing is left to do, and the properties are those of a build that
  nobody listens to. -/
  ends : ∀ turns, r.coming.length ≤ callsOf turns →
    (r.play turns).1.rest = [] ∧ (r.play turns).1.properties = t.finalProperties

/-- So does a replay whose session is over, if it has made no more callbacks than the first. -/
theorem unattended_of_finished {t : Trace} {r : DebuggedReplay} {steps : List ReplayStep}
    (h : r.session.Finished) (hdone : HasDone t steps r)
    (hbegun : t.events = .buildStarted t.initialProperties.all :: r.coming) : Unattended t r where
  begun := hbegun
  ended turns := by
    obtain ⟨hfinished, -, hcalled⟩ := play_of_finished h turns
    exact ⟨hfinished.status, hfinished.stack, by rw [hcalled]⟩
  goesOn turns := by
    rw [(play_of_finished h turns).2.2]
  ends turns hall := by
    have hnone : (r.play turns).1.coming = [] := by
      rw [(play_of_finished h turns).2.1, List.drop_eq_nil_iff]
      exact hall
    obtain ⟨done, hplayed⟩ := hdone.play turns
    exact ⟨hplayed.rest_eq_nil hnone, hplayed.properties_of_end hnone⟩

/-! ## The start of the build -/

/-- The replay of a trace once the start of the build has been called back. -/
def started (settings : DebugSettings) (t : Trace) : DebuggedReplay :=
  ((ofTrace settings t).advance 1).1

/-- The session then waits for a client, or is over where there is no port to wait at. The other
callbacks are to come. -/
theorem started_spec (settings : DebugSettings) (t : Trace) :
    (started settings t).session =
        { settings
          report := .start t.initialProperties.all
          status := match settings.listenPort? t.initialProperties.all with
            | some port => .awaiting port
            | none => .terminated } ∧
      t.events = .buildStarted t.initialProperties.all :: (started settings t).coming := by
  cases hevents : t.events with
  | nil =>
    rw [Trace.events_eq_targets] at hevents
    cases hevents
  | cons event later =>
    obtain rfl := eq_buildStarted_of_events hevents
    have hcoming : (ofTrace settings t).coming = .buildStarted t.initialProperties.all :: later :=
      hevents
    obtain ⟨hsession, hlater, -⟩ := advance_of_coming rfl hcoming
    rw [started, hlater]
    exact ⟨hsession, rfl⟩

/-- Without a port to listen at the build is on its own. -/
theorem unattended_of_no_port {settings : DebugSettings} {t : Trace}
    (hport : settings.listenPort? t.initialProperties.all = none) :
    Unattended t (started settings t) := by
  obtain ⟨hsession, hbegun⟩ := started_spec settings t
  obtain ⟨done, hdone⟩ := (HasDone.ofTrace settings t).advance
  refine unattended_of_finished ?_ hdone hbegun
  rw [hsession, hport]
  exact ⟨rfl, rfl, rfl⟩

/-- So it is where the session waits for a client and nobody connects. -/
theorem unattended_of_abandoned {settings : DebugSettings} {t : Trace} {port : UInt16}
    (hport : settings.listenPort? t.initialProperties.all = some port) :
    Unattended t ((started settings t).interrupt .abandoned).1 := by
  obtain ⟨hsession, hbegun⟩ := started_spec settings t
  obtain ⟨done, hdone⟩ := (HasDone.ofTrace settings t).advance
  obtain ⟨hnext, hcoming, -⟩ := turn_of_outside (r := started settings t) (t := .abandon) rfl
  obtain ⟨last, hlast⟩ := hdone.interrupt .abandoned nofun
  refine unattended_of_finished ?_ hlast ?_
  · change ((started settings t).turn .abandon).1.session.Finished
    rw [hnext, hsession, hport]
    exact ⟨rfl, rfl, rfl⟩
  · change _ = _ :: ((started settings t).turn .abandon).1.coming
    rw [hcoming]
    exact hbegun

end DebuggedReplay

end BuildStepper
