import ShadowCast.Machine
import Mathlib.Tactic.Ring
import Mathlib.Tactic.Linarith

/-!
# Periodic timers which carry lateness over

A `PeriodicTimer` is told how much time has elapsed since it was last told.  When its remaining time
has elapsed it fires, and the next period starts at the deadline rather than at the call, unless the
call is late by more than a whole period, in which case the excess is forgotten.

The number of firings, the elapsed time and the remaining time are tied by an exact balance up to
the forgotten excess, and calls which come soon enough after the remaining time make every firing
prompt.
-/

/-- A timer, the time it has been told of, and the times at which it fired. -/
structure PeriodicTimer (period : Nat) where
  /-- Time until the next deadline. -/
  remaining : Nat
  remaining_le : remaining ≤ period
  /-- Sum of the elapsed times. -/
  now : Nat
  /-- The times at which the timer fired, oldest first. -/
  fired : List Nat

namespace PeriodicTimer

variable {period : Nat}

/-- A timer whose first deadline is now. -/
def armed (period : Nat) : PeriodicTimer period := ⟨0, Nat.zero_le _, 0, []⟩

/-- Tell the timer that some time has elapsed. -/
def tick (timer : PeriodicTimer period) (elapsed : Nat) : PeriodicTimer period :=
  if timer.remaining ≤ elapsed then
    { remaining := period - min (elapsed - timer.remaining) period
      remaining_le := Nat.sub_le _ _
      now := timer.now + elapsed
      fired := timer.fired ++ [timer.now + elapsed] }
  else
    { remaining := timer.remaining - elapsed
      remaining_le := (Nat.sub_le _ _).trans timer.remaining_le
      now := timer.now + elapsed
      fired := timer.fired }

/-- Telling the timer is always possible. -/
def machine (period : Nat) : Machine (PeriodicTimer period) Nat :=
  ⟨fun timer elapsed => some (timer.tick elapsed)⟩

@[simp]
theorem machine_step (timer : PeriodicTimer period) (elapsed : Nat) :
    (machine period).step timer elapsed = some (timer.tick elapsed) := rfl

@[simp]
theorem tick_now (timer : PeriodicTimer period) (elapsed : Nat) :
    (timer.tick elapsed).now = timer.now + elapsed := by
  unfold tick
  split <;> rfl

/-- The call is not late by more than a period: nothing is forgotten. -/
def InTime (timer : PeriodicTimer period) (elapsed : Nat) : Prop :=
  elapsed ≤ timer.remaining + period

/-- The call comes within `jitter` of the deadline. -/
def Paced (jitter : Nat) (timer : PeriodicTimer period) (elapsed : Nat) : Prop :=
  elapsed ≤ timer.remaining + jitter

theorem Paced.inTime {jitter : Nat} (jitter_le : jitter ≤ period) {timer : PeriodicTimer period}
    {elapsed : Nat} (paced : Paced jitter timer elapsed) : InTime timer elapsed :=
  paced.trans (Nat.add_le_add_left jitter_le _)

/-- A call adds to the time told what it adds to the deadlines served, up to the excess which is
forgotten. -/
theorem tick_balance (timer : PeriodicTimer period) (elapsed : Nat) :
    (timer.tick elapsed).now + (timer.tick elapsed).remaining + timer.fired.length * period =
      (timer.tick elapsed).fired.length * period + (timer.now + timer.remaining) +
        (elapsed - (timer.remaining + period)) := by
  have bound := timer.remaining_le
  unfold tick
  split
  · simp only [List.length_append, List.length_singleton, Nat.add_mul, Nat.one_mul]
    omega
  · simp only
    omega

/-- The balance of a run, with everything it forgot. -/
theorem run_balance {elapsed : List Nat} {timer after : PeriodicTimer period}
    (execution : (machine period).run elapsed timer = some after) :
    ∃ lost, after.now + after.remaining + timer.fired.length * period =
        after.fired.length * period + (timer.now + timer.remaining) + lost ∧
      (lost = 0 ↔ (machine period).Guarded InTime timer elapsed) := by
  induction elapsed generalizing timer with
  | nil =>
      obtain rfl : timer = after := by simpa using execution
      exact ⟨0, by omega, by simp⟩
  | cons first rest ih =>
      rw [Machine.run_cons_eq_some] at execution
      obtain ⟨next, step, execution⟩ := execution
      obtain rfl : timer.tick first = next := by simpa using step
      obtain ⟨lost, balance, lost_iff⟩ := ih execution
      have tick_balance := timer.tick_balance first
      refine ⟨first - (timer.remaining + period) + lost, by omega, ?_⟩
      simp only [Machine.Guarded, machine_step, Option.mem_def, Option.some.injEq, forall_eq',
        ← lost_iff, InTime]
      omega

/-- From its first deadline on, a timer never runs ahead, and it does not drift exactly when no call
forgot anything. -/
theorem armed_balance {elapsed : List Nat} {after : PeriodicTimer period}
    (execution : (machine period).run elapsed (armed period) = some after) :
    after.fired.length * period ≤ after.now + after.remaining ∧
      (after.fired.length * period = after.now + after.remaining ↔
        (machine period).Guarded InTime (armed period) elapsed) := by
  obtain ⟨lost, balance, lost_iff⟩ := run_balance execution
  simp only [armed, List.length_nil, Nat.zero_mul, Nat.add_zero] at balance
  refine ⟨by omega, ?_⟩
  rw [← lost_iff]
  omega

/-- The balance without any loss, and every firing prompt. -/
structure Prompt (jitter : Nat) (timer : PeriodicTimer period) : Prop where
  exact_balance : timer.fired.length * period = timer.now + timer.remaining
  prompt : ∀ (k time : Nat), timer.fired[k]? = some time →
    k * period ≤ time ∧ time ≤ k * period + jitter

theorem armed_prompt (jitter : Nat) : Prompt jitter (armed period) :=
  ⟨by simp [armed], by simp [armed]⟩

/-- A paced call keeps every firing prompt. -/
theorem tick_prompt {jitter : Nat} (jitter_le : jitter ≤ period) {timer : PeriodicTimer period}
    (prompt : Prompt jitter timer) {elapsed : Nat} (paced : Paced jitter timer elapsed) :
    Prompt jitter (timer.tick elapsed) := by
  obtain ⟨exact_balance, prompt⟩ := prompt
  have in_time : elapsed ≤ timer.remaining + period := paced.inTime jitter_le
  have tick_balance := timer.tick_balance elapsed
  have within : elapsed ≤ timer.remaining + jitter := paced
  refine ⟨by omega, fun k time found => ?_⟩
  unfold tick at found
  split at found
  · rename_i due
    simp only [List.getElem?_append, List.getElem?_singleton] at found
    split at found
    · exact prompt k time found
    · split at found
      · obtain rfl := Option.some.inj found
        obtain rfl : k = timer.fired.length := by omega
        omega
      · cases found
  · exact prompt k time found

/-- Paced calls keep every firing prompt. -/
theorem run_prompt {jitter : Nat} (jitter_le : jitter ≤ period) {elapsed : List Nat}
    {after : PeriodicTimer period}
    (paced : (machine period).Guarded (Paced jitter) (armed period) elapsed)
    (execution : (machine period).run elapsed (armed period) = some after) :
    Prompt jitter after :=
  Machine.run_invariant_of_guarded
    (fun prompt call step => by
      obtain rfl := Option.some.inj step
      exact tick_prompt jitter_le prompt call)
    (armed_prompt jitter) paced execution

/-- A deadline which lies more than the jitter before any time up to the next call has been
served. -/
theorem served_of_overdue {jitter : Nat} {timer : PeriodicTimer period}
    (prompt : Prompt jitter timer) {time k : Nat}
    (before_next_call : time ≤ timer.now + timer.remaining + jitter)
    (overdue : k * period + jitter < time) : k < timer.fired.length := by
  have exact_balance := prompt.exact_balance
  by_contra unserved
  have later : timer.fired.length * period ≤ k * period :=
    Nat.mul_le_mul_right period (Nat.le_of_not_lt unserved)
  omega

/-- Prompt firings are in order. -/
theorem fired_ordered {jitter : Nat} (jitter_le : jitter ≤ period) {timer : PeriodicTimer period}
    (prompt : Prompt jitter timer) {j k first second : Nat} (earlier : j < k)
    (first_found : timer.fired[j]? = some first) (second_found : timer.fired[k]? = some second) :
    first ≤ second := by
  have first_late := (prompt.prompt j first first_found).2
  have second_early := (prompt.prompt k second second_found).1
  have next_period : (j + 1) * period ≤ k * period := Nat.mul_le_mul_right period earlier
  rw [Nat.add_mul, Nat.one_mul] at next_period
  omega

end PeriodicTimer
