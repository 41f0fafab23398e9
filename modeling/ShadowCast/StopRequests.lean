import ShadowCast.ContextRun

/-!
# No stop request is lost

Between the test of the flag and the end of `ppoll` nothing drains the eventfd, and a request which
returns there has set the flag after the test and loaded the number of the eventfd: the eventfd
is readable.  Everywhere else in the loop the flag is tested before the next `ppoll`.
-/

namespace ShadowCast
namespace ContextRun

/-- `ppoll` leads to the entries of `poll_events`, to the next iteration or out of the loop. -/
theorem ppollReturns_eq_some {run after : ContextRun} {result : WaitResult}
    (returned : run.ppollReturns result = some after) :
    ∃ phase, { run with phase } = after ∧
      (phase = .testing ∨ phase = .left ∨ ∃ readable : List Bool,
        phase = .dispatching (.stop (0 < run.counter) :: readable.map .notification) ∧
          readable.length = run.notifications) := by
  cases result with
  | ready readable =>
      obtain ⟨complete, rfl⟩ : readable.length = run.notifications ∧ _ = after := by
        simpa [ppollReturns] using returned
      exact ⟨_, rfl, Or.inr (Or.inr ⟨readable, rfl, complete⟩)⟩
  | timeout =>
      obtain ⟨-, rfl⟩ : run.counter = 0 ∧ _ = after := by simpa [ppollReturns] using returned
      exact ⟨_, rfl, Or.inl rfl⟩
  | interrupted =>
      obtain rfl := Option.some.inj returned
      exact ⟨_, rfl, Or.inl rfl⟩
  | failed =>
      obtain rfl := Option.some.inj returned
      exact ⟨_, rfl, Or.inr (Or.inl rfl)⟩

/-- A call which is at another place than the one which has just advanced was there before. -/
theorem calls_of_advance {run : ContextRun} {call other : Nat} {next place : StopCall}
    (differs : next ≠ place) (reached : (run.advance call next).calls other = place) :
    run.calls other = place := by
  by_cases same : other = call
  · exact absurd (by simpa [advance, same] using reached) differs
  · simpa [advance, same] using reached

/-- No call begins when one which has begun advances. -/
theorem called_of_advance {run : ContextRun} {call other : Nat} {next : StopCall}
    (begun : run.calls call ≠ .idle) (called : (run.advance call next).calls other ≠ .idle) :
    run.calls other ≠ .idle := by
  by_cases same : other = call
  · exact same ▸ begun
  · simpa [advance, same] using called

@[simp]
theorem writeEvent_phase (run : ContextRun) (fd : Int) : (run.writeEvent fd).phase = run.phase := by
  unfold writeEvent
  split <;> rfl

@[simp]
theorem writeEvent_stopRequested (run : ContextRun) (fd : Int) :
    (run.writeEvent fd).stopRequested = run.stopRequested := by
  unfold writeEvent
  split <;> rfl

@[simp]
theorem writeEvent_eventFd (run : ContextRun) (fd : Int) :
    (run.writeEvent fd).eventFd = run.eventFd := by
  unfold writeEvent
  split <;> rfl

@[simp]
theorem writeEvent_notifications (run : ContextRun) (fd : Int) :
    (run.writeEvent fd).notifications = run.notifications := by
  unfold writeEvent
  split <;> rfl

@[simp]
theorem writeEvent_calls (run : ContextRun) (fd : Int) : (run.writeEvent fd).calls = run.calls := by
  unfold writeEvent
  split <;> rfl

/-- What the requests have done is still there for the loop to see. -/
structure Heard (run : ContextRun) : Prop where
  opened : run.phase.Running → run.phase ≠ .starting → 0 ≤ run.eventFd
  flagged : run.phase.Running → ∀ call, run.calls call ≠ .idle → run.stopRequested = true
  aimed : run.phase.Awaits → ∀ call fd, run.calls call = .loaded fd → fd = run.eventFd
  woken : run.phase.Awaits → ∀ call, run.calls call = .returned → 0 < run.counter

theorem Heard.initial (stopRequested : Bool) (eventFd : Int) :
    Heard (initial stopRequested eventFd) where
  opened _ started := absurd rfl started
  flagged _ _ called := absurd rfl called
  aimed awaits := awaits.elim
  woken awaits := awaits.elim

namespace Heard

variable {run after : ContextRun}

/-- The thread of `run` goes on, and neither starts to wait nor comes back into the loop. -/
theorem move (heard : Heard run) (calls : after.calls = run.calls)
    (flag : after.stopRequested = run.stopRequested) (fd : after.eventFd = run.eventFd)
    (started : run.phase ≠ .starting) (running : after.phase.Running → run.phase.Running)
    (awaits : after.phase.Awaits → run.phase.Awaits ∧ after.counter = run.counter) :
    Heard after where
  opened now _ := fd ▸ heard.opened (running now) started
  flagged now call := by
    rw [calls, flag]
    exact heard.flagged (running now) call
  aimed now call number := by
    rw [calls, fd]
    exact heard.aimed (awaits now).1 call number
  woken now call := by
    rw [calls, (awaits now).2]
    exact heard.woken (awaits now).1 call

/-- After a test which finds no stop, no call has set the flag. -/
theorem testFlag (heard : Heard run) (step : run.step .testFlag = some after) : Heard after := by
  obtain ⟨testing, rfl⟩ := step_testFlag.mp step
  cases flag : run.stopRequested with
  | true => exact heard.move rfl flag.symm rfl (by simp [testing]) False.elim False.elim
  | false =>
      have running : run.phase.Running := by simp [testing, RunPhase.Running]
      have quiet (call : Nat) : run.calls call = .idle := by
        by_contra called
        simpa [flag] using heard.flagged running call called
      exact {
        opened := fun _ _ => heard.opened running (by simp [testing])
        flagged := fun _ call called => absurd (quiet call) called
        aimed := fun _ call fd loaded => by simp [quiet call] at loaded
        woken := fun _ call returned => by simp [quiet call] at returned }

theorem setFlag (heard : Heard run) {call : Nat} (step : run.step (.setFlag call) = some after) :
    Heard after := by
  obtain ⟨idle, rfl⟩ := step_setFlag.mp step
  exact {
    opened := heard.opened
    flagged := fun _ _ _ => rfl
    aimed := fun awaits other fd loaded =>
      heard.aimed awaits other fd (calls_of_advance (by simp) loaded)
    woken := fun awaits other returned =>
      heard.woken awaits other (calls_of_advance (by simp) returned) }

theorem load (heard : Heard run) {call : Nat} (step : run.step (.load call) = some after) :
    Heard after := by
  obtain ⟨flagged, rfl⟩ := step_load.mp step
  exact {
    opened := heard.opened
    flagged := fun running other called =>
      heard.flagged running other (called_of_advance (by simp [flagged]) called)
    aimed := fun awaits other fd loaded => by
      by_cases same : other = call
      · simpa [advance, same, eq_comm] using loaded
      · exact heard.aimed awaits other fd (by simpa [advance, same] using loaded)
    woken := fun awaits other returned =>
      heard.woken awaits other (calls_of_advance (by simp) returned) }

/-- A write which the loop waits for makes the eventfd readable. -/
theorem write (heard : Heard run) {call : Nat} (step : run.step (.write call) = some after) :
    Heard after := by
  obtain ⟨fd, loaded, rfl⟩ := step_write.mp step
  have running : run.phase.Awaits → run.phase.Running ∧ run.phase ≠ .starting := by
    cases run.phase <;> simp [RunPhase.Awaits, RunPhase.Running]
  exact {
    opened := by simpa [advance] using heard.opened
    flagged := fun now other called => by
      simp only [advance, writeEvent_phase, writeEvent_stopRequested] at now ⊢
      refine heard.flagged now other ?_
      rw [← writeEvent_calls run fd]
      exact called_of_advance (by simp [loaded]) called
    aimed := fun now other number other_loaded => by
      simp only [advance, writeEvent_phase, writeEvent_eventFd] at now ⊢
      refine heard.aimed now other number ?_
      rw [← writeEvent_calls run fd]
      exact calls_of_advance (by simp) other_loaded
    woken := fun now _ _ => by
      simp only [advance, writeEvent_phase] at now ⊢
      obtain ⟨inside, started⟩ := running now
      have aimed := heard.aimed now call fd loaded
      have opened := heard.opened inside started
      rw [writeEvent, if_pos ⟨started, aimed ▸ opened, aimed⟩]
      exact Nat.lt_min.mpr ⟨Nat.succ_pos _, by decide⟩ }

/-- Every step of the threads keeps the requests heard. -/
theorem step (heard : Heard run) {label : Label} (step : run.step label = some after) :
    Heard after := by
  cases label with
  | createEventfd number =>
      obtain ⟨starting, rfl⟩ := step_createEventfd.mp step
      exact {
        opened := fun _ _ => Int.natCast_nonneg number
        flagged := fun _ => heard.flagged (by simp [starting, RunPhase.Running])
        aimed := False.elim
        woken := False.elim }
  | createEventfdFails =>
      obtain ⟨-, rfl⟩ := step_createEventfdFails.mp step
      exact ⟨False.elim, False.elim, False.elim, False.elim⟩
  | finishInit timers notifications =>
      obtain ⟨initialising, rfl⟩ := step_finishInit.mp step
      refine heard.move rfl rfl rfl (by simp [initialising])
        (fun _ => by simp [initialising, RunPhase.Running]) fun awaits => ?_
      split at awaits <;> exact awaits.elim
  | initThrows =>
      obtain ⟨initialising, rfl⟩ := step_initThrows.mp step
      exact heard.move rfl rfl rfl (by simp [initialising]) False.elim False.elim
  | testFlag => exact heard.testFlag step
  | tickTimer outcome =>
      obtain ⟨timers, ticking, rfl⟩ := step_tickTimer.mp step
      exact heard.move rfl rfl rfl (by simp [ticking])
        (fun _ => by simp [ticking, RunPhase.Running])
        fun _ => ⟨by simp [ticking, RunPhase.Awaits], rfl⟩
  | ppoll =>
      obtain ⟨ticking, rfl⟩ := step_ppoll.mp step
      exact heard.move rfl rfl rfl (by simp [ticking])
        (fun _ => by simp [ticking, RunPhase.Running])
        fun _ => ⟨by simp [ticking, RunPhase.Awaits], rfl⟩
  | ppollReturns result =>
      obtain ⟨polling, returned⟩ := step_ppollReturns.mp step
      obtain ⟨phase, rfl, -⟩ := ppollReturns_eq_some returned
      exact heard.move rfl rfl rfl (by simp [polling])
        (fun _ => by simp [polling, RunPhase.Running])
        fun _ => ⟨by simp [polling, RunPhase.Awaits], rfl⟩
  | skipEvent =>
      obtain ⟨event, events, dispatching, -, rfl⟩ := step_skipEvent.mp step
      exact heard.move rfl rfl rfl (by simp [dispatching])
        (fun _ => by simp [dispatching, RunPhase.Running]) False.elim
  | drain succeeds =>
      obtain ⟨events, dispatching, rfl⟩ := step_drain.mp step
      cases succeeds <;> exact heard.move rfl rfl rfl (by simp [dispatching])
        (fun _ => by simp [dispatching, RunPhase.Running]) False.elim
  | dispatch threw =>
      obtain ⟨events, dispatching, rfl⟩ := step_dispatch.mp step
      refine heard.move rfl rfl rfl (by simp [dispatching])
        (fun _ => by simp [dispatching, RunPhase.Running]) fun awaits => ?_
      cases threw <;> exact awaits.elim
  | endIteration =>
      obtain ⟨dispatching, rfl⟩ := step_endIteration.mp step
      exact heard.move rfl rfl rfl (by simp [dispatching])
        (fun _ => by simp [dispatching, RunPhase.Running]) False.elim
  | clearFlag =>
      obtain ⟨-, rfl⟩ := step_clearFlag.mp step
      exact ⟨False.elim, False.elim, False.elim, False.elim⟩
  | setFlag call => exact heard.setFlag step
  | load call => exact heard.load step
  | write call => exact heard.write step

end Heard

/-- A call which has returned stays returned. -/
theorem step_returned {run after : ContextRun} {label : Label} {call : Nat}
    (returned : run.calls call = .returned) (step : run.step label = some after) :
    after.calls call = .returned := by
  have stays (other : Nat) (next : StopCall) (coming : run.calls other ≠ .returned) :
      Function.update run.calls other next call = .returned := by
    rw [Function.update_of_ne (by rintro rfl; exact coming returned)]
    exact returned
  cases label with
  | setFlag other =>
      obtain ⟨idle, rfl⟩ := step_setFlag.mp step
      exact stays other _ (by simp [idle])
  | load other =>
      obtain ⟨flagged, rfl⟩ := step_load.mp step
      exact stays other _ (by simp [flagged])
  | write other =>
      obtain ⟨fd, loaded, rfl⟩ := step_write.mp step
      simpa [advance] using stays other .returned (by simp [loaded])
  | _ =>
      simp only [ContextRun.step, ppollReturns] at step
      grind

end ContextRun

/-- Number of calls of `ppoll` before the next test of the flag. -/
def RunPhase.pollsLeft : RunPhase → Nat
  | .ticking _ => 1
  | _ => 0

/-- Number of dispatches which the current iteration can still make. -/
def RunPhase.dispatchesLeft (notifications : Nat) : RunPhase → Nat
  | .ticking timers => timers + notifications
  | .polling => notifications
  | .dispatching events => events.countP PollEvent.dispatches
  | _ => 0

namespace ContextRun

/-- The step calls `ppoll`. -/
def Label.polls : Label → Nat
  | .ppoll => 1
  | _ => 0

/-- The step dispatches to a service. -/
def Label.dispatches : Label → Nat
  | .tickTimer .waits => 0
  | .tickTimer _ | .dispatch _ => 1
  | _ => 0

/-- When the test finds the flag set, what is left of polls and dispatches belongs to the current
iteration. -/
theorem step_pays {run after : ContextRun} {label : Label}
    (stops : run.phase = .testing → run.stopRequested = true)
    (step : run.step label = some after) :
    label.polls + after.phase.pollsLeft ≤ run.phase.pollsLeft ∧
      label.dispatches + after.phase.dispatchesLeft after.notifications ≤
        run.phase.dispatchesLeft run.notifications := by
  cases label with
  | createEventfd number =>
      obtain ⟨starting, rfl⟩ := step_createEventfd.mp step
      simp [Label.polls, Label.dispatches, RunPhase.pollsLeft, RunPhase.dispatchesLeft]
  | createEventfdFails =>
      obtain ⟨starting, rfl⟩ := step_createEventfdFails.mp step
      simp [Label.polls, Label.dispatches, RunPhase.pollsLeft, RunPhase.dispatchesLeft]
  | finishInit timers notifications =>
      obtain ⟨initialising, rfl⟩ := step_finishInit.mp step
      split <;> simp [Label.polls, Label.dispatches, RunPhase.pollsLeft, RunPhase.dispatchesLeft]
  | initThrows =>
      obtain ⟨initialising, rfl⟩ := step_initThrows.mp step
      simp [Label.polls, Label.dispatches, RunPhase.pollsLeft, RunPhase.dispatchesLeft]
  | testFlag =>
      obtain ⟨testing, rfl⟩ := step_testFlag.mp step
      simp [Label.polls, Label.dispatches, RunPhase.pollsLeft, RunPhase.dispatchesLeft,
        stops testing]
  | tickTimer outcome =>
      obtain ⟨timers, ticking, rfl⟩ := step_tickTimer.mp step
      cases outcome <;>
        simp [ticking, Label.polls, Label.dispatches, RunPhase.pollsLeft,
          RunPhase.dispatchesLeft] <;> omega
  | ppoll =>
      obtain ⟨ticking, rfl⟩ := step_ppoll.mp step
      simp [ticking, Label.polls, Label.dispatches, RunPhase.pollsLeft, RunPhase.dispatchesLeft]
  | ppollReturns result =>
      obtain ⟨polling, returned⟩ := step_ppollReturns.mp step
      obtain ⟨phase, rfl, rfl | rfl | ⟨readable, rfl, complete⟩⟩ := ppollReturns_eq_some returned
      · simp [Label.polls, Label.dispatches, RunPhase.pollsLeft, RunPhase.dispatchesLeft]
      · simp [Label.polls, Label.dispatches, RunPhase.pollsLeft, RunPhase.dispatchesLeft]
      · have bound := List.countP_le_length (p := PollEvent.dispatches)
          (l := readable.map .notification)
        rw [List.length_map, complete] at bound
        simpa [polling, Label.polls, Label.dispatches, RunPhase.pollsLeft,
          RunPhase.dispatchesLeft, PollEvent.dispatches] using bound
  | skipEvent =>
      obtain ⟨event, events, dispatching, -, rfl⟩ := step_skipEvent.mp step
      simp [dispatching, Label.polls, Label.dispatches, RunPhase.pollsLeft,
        RunPhase.dispatchesLeft, List.countP_cons]
  | drain succeeds =>
      obtain ⟨events, dispatching, rfl⟩ := step_drain.mp step
      cases succeeds <;>
        simp [dispatching, Label.polls, Label.dispatches, RunPhase.pollsLeft,
          RunPhase.dispatchesLeft, List.countP_cons]
  | dispatch threw =>
      obtain ⟨events, dispatching, rfl⟩ := step_dispatch.mp step
      cases threw <;>
        simp [dispatching, Label.polls, Label.dispatches, RunPhase.pollsLeft,
          RunPhase.dispatchesLeft, List.countP_cons, PollEvent.dispatches, Nat.add_comm]
  | endIteration =>
      obtain ⟨dispatching, rfl⟩ := step_endIteration.mp step
      simp [Label.polls, Label.dispatches, RunPhase.pollsLeft, RunPhase.dispatchesLeft]
  | clearFlag =>
      obtain ⟨clearing, rfl⟩ := step_clearFlag.mp step
      simp [Label.polls, Label.dispatches, RunPhase.pollsLeft, RunPhase.dispatchesLeft]
  | setFlag call =>
      obtain ⟨idle, rfl⟩ := step_setFlag.mp step
      simp [advance, Label.polls, Label.dispatches]
  | load call =>
      obtain ⟨flagged, rfl⟩ := step_load.mp step
      simp [advance, Label.polls, Label.dispatches]
  | write call =>
      obtain ⟨fd, loaded, rfl⟩ := step_write.mp step
      simp only [advance, writeEvent_phase, writeEvent_notifications, Label.polls,
        Label.dispatches]
      simp

/-- The requests are heard, and this one has returned. -/
def Stopping (call : Nat) (run : ContextRun) : Prop := Heard run ∧ run.calls call = .returned

theorem Stopping.step {run after : ContextRun} {label : Label} {call : Nat}
    (stopping : Stopping call run) (step : run.step label = some after) : Stopping call after :=
  ⟨stopping.1.step step, step_returned stopping.2 step⟩

theorem Stopping.stopRequested {run : ContextRun} {call : Nat} (stopping : Stopping call run)
    (running : run.phase.Running) : run.stopRequested = true :=
  stopping.1.flagged running call (by simp [stopping.2])

theorem Stopping.testing {run : ContextRun} {call : Nat} (stopping : Stopping call run)
    (testing : run.phase = .testing) : run.stopRequested = true :=
  stopping.stopRequested (by simp [testing, RunPhase.Running])

/-- Once a call of `request_stop` has returned, the loop does not call `ppoll` on an unready eventfd
again: a `ppoll` it is in finds the eventfd readable and does not time out; every later test of the
flag finds it set; and only what is left of the current iteration is polled and dispatched. -/
theorem stop_never_lost {stopRequested : Bool} {eventFd : Int} {labels : List Label}
    {run : ContextRun} {call : Nat}
    (execution : machine.run labels (initial stopRequested eventFd) = some run)
    (returned : run.calls call = .returned) (running : run.phase.Running) :
    run.stopRequested = true ∧
      (run.phase = .polling → 0 < run.counter ∧ run.step (.ppollReturns .timeout) = none ∧
        ∃ readable after, run.step (.ppollReturns (.ready readable)) = some after ∧
          after.phase = .dispatching (.stop true :: readable.map .notification)) ∧
      ∀ more later, machine.run more run = some later →
        machine.Guarded
          (fun now label => (label = .testFlag → now.stopRequested = true) ∧
            (label = .ppoll → 0 < now.counter)) run more ∧
          (more.map Label.polls).sum ≤ run.phase.pollsLeft ∧
          (more.map Label.dispatches).sum ≤ run.phase.dispatchesLeft run.notifications := by
  have heard : Heard run :=
    Machine.run_invariant (P := Heard) (fun held next => held.step next)
      (Heard.initial stopRequested eventFd) execution
  have stopping : Stopping call run := ⟨heard, returned⟩
  refine ⟨stopping.stopRequested running, fun polling => ?_, fun more later continuation => ?_⟩
  · have readable : 0 < run.counter :=
      heard.woken (by simp [polling, RunPhase.Awaits]) call returned
    refine ⟨readable, ?_, .replicate run.notifications false, _,
      step_ppollReturns.mpr ⟨polling, if_pos List.length_replicate⟩, ?_⟩
    · simp [ContextRun.step, ppollReturns, polling, Nat.ne_of_gt readable]
    · simp [readable]
  · refine ⟨?_, ?_, ?_⟩
    · refine Machine.guarded_of_invariant (I := Stopping call) (fun held next => held.step next)
        (fun held next => ⟨fun tests => ?_, fun polls => ?_⟩) stopping continuation
      · subst tests
        exact held.testing (step_testFlag.mp next).1
      · subst polls
        exact held.1.woken (by simp [(step_ppoll.mp next).1, RunPhase.Awaits]) call held.2
    · have bound := Machine.run_cost_le (I := Stopping call) Label.polls (·.phase.pollsLeft)
        (fun held next => held.step next) (fun held next => (step_pays held.testing next).1)
        stopping continuation
      exact Nat.le_trans (Nat.le_add_right ..) bound
    · have bound := Machine.run_cost_le (I := Stopping call) Label.dispatches
        (fun now => now.phase.dispatchesLeft now.notifications)
        (fun held next => held.step next) (fun held next => (step_pays held.testing next).2)
        stopping continuation
      exact Nat.le_trans (Nat.le_add_right ..) bound

/-- A request which comes between the test of the flag and `ppoll`. -/
def lateRequest : List Label :=
  [.createEventfd 7, .finishInit 1 2, .testFlag, .setFlag 0, .load 0, .tickTimer .dispatched,
    .write 0]

theorem stop_never_lost_before_ppoll :
    ∃ run, machine.run lateRequest (initial false (-1)) = some run ∧ run.calls 0 = .returned ∧
      run.phase = .ticking 0 ∧ run.counter = 1 ∧ run.stopRequested = true ∧
      ∀ more later, machine.run more run = some later →
        (more.map Label.polls).sum ≤ 1 ∧ (more.map Label.dispatches).sum ≤ 2 := by
  obtain ⟨run, execution, returned, ticking, counter, notifications⟩ : ∃ run,
      machine.run lateRequest (initial false (-1)) = some run ∧ run.calls 0 = .returned ∧
        run.phase = .ticking 0 ∧ run.counter = 1 ∧ run.notifications = 2 :=
    ⟨_, rfl, rfl, rfl, by decide, rfl⟩
  obtain ⟨flag, -, later⟩ :=
    stop_never_lost execution returned (by simp [ticking, RunPhase.Running])
  refine ⟨run, execution, returned, ticking, counter, flag, fun more final continuation => ?_⟩
  simpa [ticking, notifications, RunPhase.pollsLeft, RunPhase.dispatchesLeft] using
    (later more final continuation).2

end ContextRun
end ShadowCast
