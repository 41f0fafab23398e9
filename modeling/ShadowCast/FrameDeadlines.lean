import ShadowCast.FrameTimers

/-!
# Accuracy of the frame timers

Over any run of ticks, no frame timer runs ahead, and lateness is carried over unless a call overran
the remaining time by more than a period.  When the event loop wakes up within a bounded jitter of
its own timeouts, every deadline is served in its turn and promptly.
-/

namespace ShadowCast
namespace FrameLoop

/-- The call does not overrun the timer's remaining time by more than its period. -/
def NoOverrun (position : Nat) (loop : FrameLoop) (frameTime : UInt64) : Prop :=
  ∀ timer ∈ loop.timers[position]?,
    frameTime.toNat ≤ timer.remaining.toNat + timer.frameTime.toNat

/-- The event loop wakes up within the jitter of its last timeout. -/
def WokenWithin (jitter : Nat) (loop : FrameLoop) (frameTime : UInt64) : Prop :=
  frameTime.toNat ≤ loop.nextTimeout.toNat + jitter

instance (jitter : Nat) (loop : FrameLoop) (frameTime : UInt64) :
    Decidable (WokenWithin jitter loop frameTime) :=
  inferInstanceAs (Decidable (frameTime.toNat ≤ loop.nextTimeout.toNat + jitter))

/-- The minimum in `tick_timers` has no effect on any timer. -/
def NotClamped (loop : FrameLoop) (frameTime : UInt64) : Prop :=
  ∀ timer ∈ loop.timers, timer.remaining ≤ frameTime →
    min (frameTime - timer.remaining) timer.frameTime = frameTime - timer.remaining

/-- The timer at a position after a run, next to its periodic timer. -/
theorem run_tracks {requests : List (Nat × UInt64)} {maxFrameTime : UInt64}
    {frameTimes : List UInt64} {loop : FrameLoop}
    (execution : (machine maxFrameTime).run frameTimes (started requests) = some loop)
    {position : Nat} {timer : FrameTickReadiness}
    (found : loop.timers[position]? = some timer) :
    ∃ (period : Nat) (after : PeriodicTimer period), timer.frameTime.toNat = period ∧
      timer.remaining.toNat = after.remaining ∧
      Tracks position (started requests) (PeriodicTimer.armed period) ∧
      (PeriodicTimer.machine period).run (frameTimes.map UInt64.toNat)
        (PeriodicTimer.armed period) = some after ∧
      Tracks position loop after := by
  have same_length : loop.timers.length = (started requests).timers.length :=
    Machine.run_invariant (P := fun later => later.timers.length = (started requests).timers.length)
      (fun same step => by
        obtain rfl := Option.some.inj step
        simpa [iterate, tickTimers, tickTimersFrom_timers] using same)
      rfl execution
  have in_range : position < (started requests).timers.length := by
    rw [← same_length]
    exact (List.getElem?_eq_some_iff.mp found).1
  have start_tracks := started_tracks (List.getElem?_eq_getElem in_range)
  obtain ⟨after, run, tracks⟩ :=
    (tracks_simulates maxFrameTime position _).run start_tracks execution
  obtain ⟨registered, registered_found, period_eq, remaining_eq⟩ := tracks.found
  obtain rfl : timer = registered := Option.some.inj (found.symm.trans registered_found)
  exact ⟨_, after, period_eq, remaining_eq, start_tracks, run, tracks⟩

/-- The calls of a run which overrun no period are those of the periodic timer. -/
theorem noOverrun_iff_inTime {position period : Nat} {loop : FrameLoop}
    {timer : PeriodicTimer period} {frameTime : UInt64} (tracks : Tracks position loop timer) :
    NoOverrun position loop frameTime ↔ PeriodicTimer.InTime timer frameTime.toNat := by
  obtain ⟨registered, found, period_eq, remaining_eq⟩ := tracks.found
  simp [NoOverrun, PeriodicTimer.InTime, found, period_eq, remaining_eq]

/-- A timer of a run never runs ahead, and it does not drift exactly when no call overran it. -/
theorem run_exact_iff {requests : List (Nat × UInt64)} {maxFrameTime : UInt64}
    {frameTimes : List UInt64} {loop : FrameLoop}
    (execution : (machine maxFrameTime).run frameTimes (started requests) = some loop)
    {position : Nat} {timer : FrameTickReadiness}
    (found : loop.timers[position]? = some timer) :
    timer.remaining.toNat ≤ timer.frameTime.toNat ∧
      (loop.dispatchTimes position).length * timer.frameTime.toNat ≤
        loop.elapsed + timer.remaining.toNat ∧
      ((loop.dispatchTimes position).length * timer.frameTime.toNat =
          loop.elapsed + timer.remaining.toNat ↔
        (machine maxFrameTime).Guarded (NoOverrun position) (started requests) frameTimes) := by
  obtain ⟨period, after, rfl, remaining_eq, start_tracks, run, tracks⟩ :=
    run_tracks execution found
  have remaining_le := after.remaining_le
  have guards := (tracks_simulates maxFrameTime position _).guarded_iff
    (C := NoOverrun position) (D := PeriodicTimer.InTime) noOverrun_iff_inTime start_tracks
    execution
  have balance := PeriodicTimer.armed_balance run
  rw [← guards, ← tracks.dispatched, ← tracks.elapsed, ← remaining_eq] at balance
  rw [← remaining_eq] at remaining_le
  exact ⟨remaining_le, balance⟩

/-- A tick computed in the integers: no subtraction of the source wraps. -/
def ExactTicks (timer : FrameTickReadiness) : Prop :=
  ∀ frameTime : UInt64, ((timer.tick frameTime).1.remaining.toNat : Int) =
    if timer.remaining.toNat ≤ frameTime.toNat then
      (timer.frameTime.toNat : Int) -
        min ((frameTime.toNat : Int) - timer.remaining.toNat) timer.frameTime.toNat
    else
      (timer.remaining.toNat : Int) - frameTime.toNat

theorem exactTicks (timer : FrameTickReadiness) : ExactTicks timer := by
  intro frameTime
  rw [(timer.tick_toNat frameTime).2.2]
  split <;> omega

/-- After any iteration the timeout is the least of the maximum and the remaining times. -/
theorem iterate_timeout (maxFrameTime : UInt64) (loop : FrameLoop) (frameTime : UInt64) :
    IsLeast (timeouts maxFrameTime (loop.iterate maxFrameTime frameTime).timers)
      (loop.iterate maxFrameTime frameTime).nextTimeout :=
  tickTimersFrom_timeout frameTime 0 maxFrameTime loop.timers

/-- What a run has done for the timer at a position. -/
structure Steady (requests : List (Nat × UInt64)) (maxFrameTime : UInt64)
    (frameTimes : List UInt64) (loop : FrameLoop) (position : Nat) (timer : FrameTickReadiness) :
    Prop where
  elapsed : loop.elapsed = (frameTimes.map UInt64.toNat).sum
  remaining_le : timer.remaining ≤ timer.frameTime
  exactTicks : ExactTicks timer
  /-- The timer never runs ahead. -/
  not_ahead : (loop.dispatchTimes position).length * timer.frameTime.toNat ≤
    loop.elapsed + timer.remaining.toNat
  dispatches_le : (loop.dispatchTimes position).length ≤
    loop.elapsed / timer.frameTime.toNat + 1
  /-- The timer does not drift exactly when no call overran it. -/
  exact_iff : (loop.dispatchTimes position).length * timer.frameTime.toNat =
      loop.elapsed + timer.remaining.toNat ↔
    (machine maxFrameTime).Guarded (NoOverrun position) (started requests) frameTimes
  /-- Without overruns the time served stays within a period of the time elapsed. -/
  within_period :
    (machine maxFrameTime).Guarded (NoOverrun position) (started requests) frameTimes →
      loop.elapsed ≤ (loop.dispatchTimes position).length * timer.frameTime.toNat ∧
        (loop.dispatchTimes position).length * timer.frameTime.toNat ≤
          loop.elapsed + timer.frameTime.toNat
  /-- The timeout returned by the last call. -/
  timeout : frameTimes ≠ [] → IsLeast (timeouts maxFrameTime loop.timers) loop.nextTimeout

theorem run_elapsed {requests : List (Nat × UInt64)} {maxFrameTime : UInt64}
    {frameTimes : List UInt64} {loop : FrameLoop}
    (execution : (machine maxFrameTime).run frameTimes (started requests) = some loop) :
    loop.elapsed = (frameTimes.map UInt64.toNat).sum :=
  Machine.run_history
    (P := fun past later => later.elapsed = (past.map UInt64.toNat).sum) (Q := fun _ => True)
    (fun before _ step => by
      obtain rfl := Option.some.inj step
      simpa [iterate] using before)
    rfl (fun _ _ => trivial) execution

theorem run_timeout {requests : List (Nat × UInt64)} {maxFrameTime : UInt64}
    {frameTimes : List UInt64} {loop : FrameLoop}
    (execution : (machine maxFrameTime).run frameTimes (started requests) = some loop) :
    frameTimes ≠ [] → IsLeast (timeouts maxFrameTime loop.timers) loop.nextTimeout :=
  Machine.run_history
    (P := fun past later => past ≠ [] →
      IsLeast (timeouts maxFrameTime later.timers) later.nextTimeout) (Q := fun _ => True)
    (fun _ _ step _ => by
      obtain rfl := Option.some.inj step
      exact iterate_timeout maxFrameTime _ _)
    (by simp) (fun _ _ => trivial) execution

/-- The sleep of the event loop is no longer than any timer's remaining time. -/
structure Awake (jitter : Nat) (loop : FrameLoop) : Prop where
  timeout_le : ∀ timer ∈ loop.timers, loop.nextTimeout ≤ timer.remaining
  jitter_le : ∀ timer ∈ loop.timers, jitter ≤ timer.frameTime.toNat

theorem started_awake {jitter : Nat} {requests : List (Nat × UInt64)}
    (jitter_le : ∀ request ∈ requests, jitter ≤ request.2.toNat) :
    Awake jitter (started requests) where
  timeout_le := fun _ _ => UInt64.zero_le
  jitter_le := fun _ member => jitter_le _ (registeredTimers_remaining member).2

theorem step_awake {jitter : Nat} {maxFrameTime : UInt64} {loop after : FrameLoop}
    {frameTime : UInt64} (awake : Awake jitter loop)
    (step : (machine maxFrameTime).step loop frameTime = some after) : Awake jitter after := by
  obtain rfl := Option.some.inj step
  refine ⟨fun timer member => ?_, fun timer member => ?_⟩
  · exact (iterate_timeout maxFrameTime loop frameTime).2 (Or.inr ⟨timer, member, rfl⟩)
  · simp only [iterate, tickTimers, tickTimersFrom_timers, List.mem_map] at member
    obtain ⟨before, before_member, rfl⟩ := member
    rw [(before.tick_toNat frameTime).1]
    exact awake.jitter_le before before_member

/-- A loop which wakes up in time paces each of its timers. -/
theorem paced_of_wokenWithin {jitter : Nat} {loop : FrameLoop} (awake : Awake jitter loop)
    {frameTime : UInt64} (woken : WokenWithin jitter loop frameTime) {timer : FrameTickReadiness}
    (member : timer ∈ loop.timers) : frameTime.toNat ≤ timer.remaining.toNat + jitter := by
  have timeout_le := UInt64.le_iff_toNat_le.mp (awake.timeout_le timer member)
  unfold WokenWithin at woken
  omega

/-- A loop which wakes up in time clamps no timer. -/
theorem notClamped_of_wokenWithin {jitter : Nat} {loop : FrameLoop} (awake : Awake jitter loop)
    {frameTime : UInt64} (woken : WokenWithin jitter loop frameTime) :
    NotClamped loop frameTime := by
  intro timer member due
  have paced := paced_of_wokenWithin awake woken member
  have jitter_le := awake.jitter_le timer member
  refine if_pos (UInt64.le_iff_toNat_le.mpr ?_)
  rw [UInt64.toNat_sub_of_le _ _ due]
  omega

/-- The pacing of one timer, as a condition on the iterations of the loop. -/
def PacedAt (position jitter : Nat) (loop : FrameLoop) (frameTime : UInt64) : Prop :=
  ∀ timer ∈ loop.timers[position]?, frameTime.toNat ≤ timer.remaining.toNat + jitter

theorem pacedAt_iff_paced {position period jitter : Nat} {loop : FrameLoop}
    {timer : PeriodicTimer period} {frameTime : UInt64} (tracks : Tracks position loop timer) :
    PacedAt position jitter loop frameTime ↔
      PeriodicTimer.Paced jitter timer frameTime.toNat := by
  obtain ⟨registered, found, -, remaining_eq⟩ := tracks.found
  simp [PacedAt, PeriodicTimer.Paced, found, remaining_eq]

/-- What a run has done for the deadlines of the timer at a position. -/
structure DeadlinesMet (jitter : Nat) (loop : FrameLoop) (position period : Nat) : Prop where
  /-- The dispatch number `k` serves the deadline number `k`, and serves it promptly. -/
  prompt : ∀ (k time : Nat), (loop.dispatchTimes position)[k]? = some time →
    k * period ≤ time ∧ time ≤ k * period + jitter
  /-- Up to the next iteration no deadline is overdue. -/
  served : ∀ time ≤ loop.elapsed + loop.nextTimeout.toNat + jitter, ∀ k,
    k * period + jitter < time → k < (loop.dispatchTimes position).length
  ordered : (loop.dispatchTimes position).Pairwise (· ≤ ·)

/-- An event loop which wakes up within a bounded jitter of its timeouts meets every deadline. -/
theorem deadlines_met (requests : List (Nat × UInt64)) (maxFrameTime : UInt64) (jitter : Nat)
    (jitter_le : ∀ request ∈ requests, jitter ≤ request.2.toNat) (frameTimes : List UInt64)
    (loop : FrameLoop)
    (woken : (machine maxFrameTime).Guarded (WokenWithin jitter) (started requests) frameTimes)
    (execution : (machine maxFrameTime).run frameTimes (started requests) = some loop) :
    (machine maxFrameTime).Guarded NotClamped (started requests) frameTimes ∧
      ∀ position timer, loop.timers[position]? = some timer →
        DeadlinesMet jitter loop position timer.frameTime.toNat := by
  have awake := started_awake jitter_le
  refine ⟨woken.mono_of_invariant step_awake
    (fun _ _ awake woken => notClamped_of_wokenWithin awake woken) awake,
    fun position timer found => ?_⟩
  have last_awake := Machine.run_invariant step_awake awake execution
  have member := List.mem_of_getElem? found
  have timer_jitter_le := last_awake.jitter_le timer member
  have timeout_le := UInt64.le_iff_toNat_le.mp (last_awake.timeout_le timer member)
  obtain ⟨period, after, rfl, remaining_eq, start_tracks, run, tracks⟩ :=
    run_tracks execution found
  have paced_loop : (machine maxFrameTime).Guarded (PacedAt position jitter) (started requests)
      frameTimes :=
    woken.mono_of_invariant step_awake (fun _ _ awake woken timer found =>
      paced_of_wokenWithin awake woken (List.mem_of_getElem? found)) awake
  have paced := ((tracks_simulates maxFrameTime position _).guarded_iff
    pacedAt_iff_paced start_tracks execution).mp paced_loop
  have prompt := PeriodicTimer.run_prompt timer_jitter_le paced run
  rw [remaining_eq] at timeout_le
  refine ⟨?_, fun time before_next k overdue => ?_, ?_⟩
  · rw [tracks.dispatched]
    exact prompt.prompt
  · rw [tracks.dispatched]
    rw [tracks.elapsed] at before_next
    exact PeriodicTimer.served_of_overdue prompt (by omega) overdue
  · rw [tracks.dispatched, List.pairwise_iff_getElem]
    intro j k j_lt k_lt earlier
    exact PeriodicTimer.fired_ordered timer_jitter_le prompt earlier
      (List.getElem?_eq_getElem j_lt) (List.getElem?_eq_getElem k_lt)

/-- Two timers, the loop waking up early once and late by 2 twice. -/
theorem deadlines_met_by_two_timers :
    ∃ loop, (machine 10).run [1, 7, 4] (started [(0, 10), (1, 7)]) = some loop ∧
      loop.dispatchTimes 0 = [1, 8] ∧ DeadlinesMet 2 loop 0 7 :=
  ⟨_, rfl, rfl, (deadlines_met [(0, 10), (1, 7)] 10 2 (by decide) [1, 7, 4] _
    (by decide) rfl).2 0 ⟨1, 7, 2⟩ rfl⟩

end FrameLoop
end ShadowCast
