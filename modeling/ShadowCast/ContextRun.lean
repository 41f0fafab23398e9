import ShadowCast.Machine
import Mathlib.Logic.Function.Basic
import Mathlib.Tactic.Common

/-!
# Stop requests and one call of `Context::run`

The thread of `Context::run` and any number of calls of `request_stop` take their steps in any
order.  A request sets the flag, loads `event_fd_` and writes to it; the loop tests the flag, ticks
the timers, waits in `ppoll` and drains the eventfd among its dispatches.  A request which comes
between the test and the end of `ppoll` leaves the eventfd readable, because nothing drains it
there; an earlier one is seen by the test.
-/

namespace ShadowCast

/-- Where a call of `request_stop` is. -/
inductive StopCall
  | idle
  /-- `stop_requested_` has been set. -/
  | flagged
  /-- This value of `event_fd_` has been loaded. -/
  | loaded (fd : Int)
  | returned
  deriving DecidableEq, Repr

/-- An entry of `poll_events` after `ppoll`; `readable` tells whether `POLLIN` is set. -/
inductive PollEvent
  /-- The entry of `event_fd_`. -/
  | stop (readable : Bool)
  /-- The entry of a service's descriptor. -/
  | notification (readable : Bool)
  deriving DecidableEq, Repr

/-- The entry leads to a dispatch. -/
def PollEvent.dispatches : PollEvent → Bool
  | .stop _ => false
  | .notification readable => readable

/-- What `ppoll` returns. -/
inductive WaitResult
  /-- A positive number; `POLLIN` is set for these of the services' descriptors. -/
  | ready (readable : List Bool)
  | timeout
  /-- `EINTR`. -/
  | interrupted
  /-- Any other error. -/
  | failed
  deriving DecidableEq, Repr

/-- What `tick_timers` does with a timer. -/
inductive TimerOutcome
  | waits
  | dispatched
  | threw
  deriving DecidableEq, Repr

/-- Where the call of `run` is. -/
inductive RunPhase
  /-- Before `eventfd`. -/
  | starting
  /-- The services are initialised and `poll_events` is filled. -/
  | initialising
  /-- Before the test of `stop_requested_`. -/
  | testing
  /-- In `tick_timers`, before this many timers. -/
  | ticking (timers : Nat)
  /-- In `ppoll`. -/
  | polling
  /-- Before these entries of `poll_events`. -/
  | dispatching (events : List PollEvent)
  /-- Before `stop_requested_ = false`. -/
  | clearing
  /-- The call has left its loop, or has thrown. -/
  | left
  deriving DecidableEq, Repr

/-- The call has not left its loop yet. -/
def RunPhase.Running : RunPhase → Prop
  | .clearing | .left => False
  | _ => True

/-- The flag has been tested, and `ppoll` has not returned. -/
def RunPhase.Awaits : RunPhase → Prop
  | .ticking _ | .polling => True
  | _ => False

instance (phase : RunPhase) : Decidable phase.Running :=
  match phase with
  | .clearing | .left => isFalse id
  | .starting | .initialising | .testing | .ticking _ | .polling | .dispatching _ => isTrue trivial

/-- One call of `Context::run`, and the calls of `request_stop` on its context. -/
structure ContextRun where
  phase : RunPhase
  stopRequested : Bool
  /-- `event_fd_`. -/
  eventFd : Int
  /-- The counter of the eventfd which `run` has created. -/
  counter : Nat
  /-- Number of registered timers. -/
  timers : Nat
  /-- Number of registered descriptors. -/
  notifications : Nat
  calls : Nat → StopCall

namespace ContextRun

/-- The call of `run` begins. -/
def initial (stopRequested : Bool) (eventFd : Int) : ContextRun where
  phase := .starting
  stopRequested
  eventFd
  counter := 0
  timers := 0
  notifications := 0
  calls := fun _ => .idle

/-- The largest value of an eventfd's counter. -/
def eventfdMax : Nat := 18446744073709551614

/-- The atomic steps of the threads. -/
inductive Label
  | createEventfd (number : Nat)
  | createEventfdFails
  /-- The services are initialised and have registered timers and descriptors. -/
  | finishInit (timers notifications : Nat)
  | initThrows
  | testFlag
  | tickTimer (outcome : TimerOutcome)
  /-- `ppoll` is called. -/
  | ppoll
  | ppollReturns (result : WaitResult)
  /-- An entry without `POLLIN`. -/
  | skipEvent
  /-- The `read` of the eventfd. -/
  | drain (succeeds : Bool)
  | dispatch (threw : Bool)
  /-- All entries of `poll_events` have been seen. -/
  | endIteration
  | clearFlag
  /-- A call of `request_stop` sets `stop_requested_`. -/
  | setFlag (call : Nat)
  /-- It loads `event_fd_`. -/
  | load (call : Nat)
  /-- It writes to the loaded descriptor and returns. -/
  | write (call : Nat)
  deriving DecidableEq, Repr

/-- `ppoll` sees whether the eventfd is readable; it times out only if nothing is. -/
def ppollReturns (run : ContextRun) : WaitResult → Option ContextRun
  | .ready readable =>
      if readable.length = run.notifications then
        some
          { run with
            phase := .dispatching (.stop (0 < run.counter) :: readable.map .notification) }
      else
        none
  | .timeout => if run.counter = 0 then some { run with phase := .testing } else none
  | .interrupted => some { run with phase := .testing }
  | .failed => some { run with phase := .left }

/-- A call of `request_stop` comes to its next step. -/
def advance (run : ContextRun) (call : Nat) (next : StopCall) : ContextRun :=
  { run with calls := Function.update run.calls call next }

/-- `write` of a one to a descriptor: the counter grows unless it is at its largest value, and a
number which is not that of the eventfd is somebody else's. -/
def writeEvent (run : ContextRun) (fd : Int) : ContextRun :=
  if run.phase ≠ .starting ∧ 0 ≤ fd ∧ fd = run.eventFd then
    { run with counter := min (run.counter + 1) eventfdMax }
  else
    run

/-- One atomic step. -/
def step (run : ContextRun) : Label → Option ContextRun
  | .createEventfd number =>
      if run.phase = .starting then
        some { run with phase := .initialising, eventFd := number }
      else
        none
  | .createEventfdFails =>
      if run.phase = .starting then some { run with phase := .left, eventFd := -1 } else none
  | .finishInit timers notifications =>
      if run.phase = .initialising then
        some
          { run with
            phase := if notifications + timers = 0 then .left else .testing
            timers := timers
            notifications := notifications }
      else
        none
  | .initThrows => if run.phase = .initialising then some { run with phase := .left } else none
  | .testFlag =>
      if run.phase = .testing then
        some { run with phase := if run.stopRequested then .clearing else .ticking run.timers }
      else
        none
  | .tickTimer outcome =>
      match run.phase with
      | .ticking (timers + 1) =>
          some { run with phase := if outcome = .threw then .left else .ticking timers }
      | _ => none
  | .ppoll => if run.phase = .ticking 0 then some { run with phase := .polling } else none
  | .ppollReturns result => if run.phase = .polling then run.ppollReturns result else none
  | .skipEvent =>
      match run.phase with
      | .dispatching (.stop false :: events) | .dispatching (.notification false :: events) =>
          some { run with phase := .dispatching events }
      | _ => none
  | .drain succeeds =>
      match run.phase with
      | .dispatching (.stop true :: events) =>
          if succeeds then
            some { run with phase := .dispatching events, counter := 0 }
          else
            some { run with phase := .left }
      | _ => none
  | .dispatch threw =>
      match run.phase with
      | .dispatching (.notification true :: events) =>
          some { run with phase := if threw then .left else .dispatching events }
      | _ => none
  | .endIteration =>
      if run.phase = .dispatching [] then some { run with phase := .testing } else none
  | .clearFlag =>
      if run.phase = .clearing then
        some { run with phase := .left, stopRequested := false }
      else
        none
  | .setFlag call =>
      if run.calls call = .idle then
        some ({ run with stopRequested := true }.advance call .flagged)
      else
        none
  | .load call =>
      if run.calls call = .flagged then
        some (run.advance call (.loaded run.eventFd))
      else
        none
  | .write call =>
      match run.calls call with
      | .loaded fd => some ((run.writeEvent fd).advance call .returned)
      | _ => none

/-- The thread of `run` and the requesters under every interleaving. -/
def machine : Machine ContextRun Label := ⟨step⟩

section Inversion

variable {run after : ContextRun}

theorem step_createEventfd {number : Nat} :
    run.step (.createEventfd number) = some after ↔ run.phase = .starting ∧
      { run with phase := .initialising, eventFd := number } = after := by
  simp [step]

theorem step_createEventfdFails :
    run.step .createEventfdFails = some after ↔ run.phase = .starting ∧
      { run with phase := .left, eventFd := -1 } = after := by
  simp [step]

theorem step_finishInit {timers notifications : Nat} :
    run.step (.finishInit timers notifications) = some after ↔ run.phase = .initialising ∧
      { run with
        phase := if notifications + timers = 0 then .left else .testing
        timers := timers
        notifications := notifications } = after := by
  simp only [step, Option.ite_none_right_eq_some, Option.some.injEq]

theorem step_initThrows :
    run.step .initThrows = some after ↔ run.phase = .initialising ∧
      { run with phase := .left } = after := by
  simp [step]

theorem step_testFlag :
    run.step .testFlag = some after ↔ run.phase = .testing ∧
      { run with phase := if run.stopRequested then .clearing else .ticking run.timers } =
        after := by
  simp [step]

theorem step_tickTimer {outcome : TimerOutcome} :
    run.step (.tickTimer outcome) = some after ↔ ∃ timers, run.phase = .ticking (timers + 1) ∧
      { run with phase := if outcome = .threw then .left else .ticking timers } = after := by
  simp only [step]
  grind

theorem step_ppoll :
    run.step .ppoll = some after ↔ run.phase = .ticking 0 ∧
      { run with phase := .polling } = after := by
  simp [step]

theorem step_ppollReturns {result : WaitResult} :
    run.step (.ppollReturns result) = some after ↔ run.phase = .polling ∧
      run.ppollReturns result = some after := by
  simp [step]

theorem step_skipEvent :
    run.step .skipEvent = some after ↔ ∃ event events, run.phase = .dispatching (event :: events) ∧
      (event = .stop false ∨ event = .notification false) ∧
      { run with phase := .dispatching events } = after := by
  simp only [step]
  grind

theorem step_drain {succeeds : Bool} :
    run.step (.drain succeeds) = some after ↔ ∃ events,
      run.phase = .dispatching (.stop true :: events) ∧
        (if succeeds then { run with phase := .dispatching events, counter := 0 }
        else { run with phase := .left }) = after := by
  simp only [step]
  grind

theorem step_dispatch {threw : Bool} :
    run.step (.dispatch threw) = some after ↔ ∃ events,
      run.phase = .dispatching (.notification true :: events) ∧
        { run with phase := if threw then .left else .dispatching events } = after := by
  simp only [step]
  grind

theorem step_endIteration :
    run.step .endIteration = some after ↔ run.phase = .dispatching [] ∧
      { run with phase := .testing } = after := by
  simp [step]

theorem step_clearFlag :
    run.step .clearFlag = some after ↔ run.phase = .clearing ∧
      { run with phase := .left, stopRequested := false } = after := by
  simp [step]

theorem step_setFlag {call : Nat} :
    run.step (.setFlag call) = some after ↔ run.calls call = .idle ∧
      { run with stopRequested := true }.advance call .flagged = after := by
  simp only [step, Option.ite_none_right_eq_some, Option.some.injEq]

theorem step_load {call : Nat} :
    run.step (.load call) = some after ↔ run.calls call = .flagged ∧
      run.advance call (.loaded run.eventFd) = after := by
  simp [step]

theorem step_write {call : Nat} :
    run.step (.write call) = some after ↔ ∃ fd, run.calls call = .loaded fd ∧
      (run.writeEvent fd).advance call .returned = after := by
  simp only [step]
  grind

end Inversion

end ContextRun
end ShadowCast
