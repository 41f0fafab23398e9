import ShadowCast.FrameTime
import ShadowCast.FrameDeadlines

/-!
# The timeline of the video and the capture clock

Frame number `n` is dispatched by the frame timer and stamped with `n`, which the encoder counts in
its time base.  The two clocks agree to one part per million when the truncated frame rate is the
reciprocal of the frame time, and are off by at least one part in a thousand otherwise.
-/

namespace ShadowCast

/-- The time, in nanoseconds, at which a time base puts a frame. -/
def presentationTime (timeBase : AVRational) (pts : Nat) : ℚ :=
  pts * (timeBase.num / timeBase.den * 1000000000)

/-- The presentation times follow the clock of the scheduler. -/
structure FollowsClock (frameTime : FrameTime) : Prop where
  /-- `n` frames span `n` periods of the frame timer. -/
  spans : ∀ n : Nat, |presentationTime frameTime.fpsRatio n - n * frameTime.period.toNat| ≤
    n * frameTime.period.toNat / 1000000
  /-- When the timer was never more than one period late, the last of its frames is presented
  within a period of the elapsed time. -/
  last : ∀ (requests : List (Nat × UInt64)) (maxFrameTime : UInt64) (frameTimes : List UInt64)
    (loop : FrameLoop) (position : Nat) (timer : FrameTickReadiness),
    (FrameLoop.machine maxFrameTime).run frameTimes (FrameLoop.started requests) = some loop →
    loop.timers[position]? = some timer → timer.frameTime = frameTime.period →
    (FrameLoop.machine maxFrameTime).Guarded (FrameLoop.NoOverrun position)
      (FrameLoop.started requests) frameTimes →
    ∀ n, (loop.dispatchTimes position).length = n + 1 →
      |presentationTime frameTime.fpsRatio n - loop.elapsed| ≤
        frameTime.period.toNat + (loop.elapsed : ℚ) / 1000000

/-- One frame spans one period. -/
def SpansPeriod (frameTime : FrameTime) : Prop :=
  |(1000000000 : ℚ) / frameTime.fpsRatio.den - frameTime.period.toNat| ≤
    (frameTime.period.toNat : ℚ) / 1000000

theorem presentationTime_fpsRatio (frameTime : FrameTime) (n : Nat) :
    presentationTime frameTime.fpsRatio n = n * (1000000000 / frameTime.fpsRatio.den) := by
  simp only [presentationTime, FrameTime.fpsRatio]
  push_cast
  ring

/-- Any number of frames span as many periods if one frame spans one. -/
theorem SpansPeriod.spans {frameTime : FrameTime} (one : SpansPeriod frameTime) (n : Nat) :
    |presentationTime frameTime.fpsRatio n - n * frameTime.period.toNat| ≤
      n * frameTime.period.toNat / 1000000 := by
  rw [presentationTime_fpsRatio, ← mul_sub, abs_mul, Nat.abs_cast, mul_div_assoc]
  exact mul_le_mul_of_nonneg_left one (Nat.cast_nonneg n)

/-- The last frame of a timer which was never more than a period late. -/
theorem SpansPeriod.last {frameTime : FrameTime} (one : SpansPeriod frameTime)
    {requests : List (Nat × UInt64)} {maxFrameTime : UInt64} {frameTimes : List UInt64}
    {loop : FrameLoop} {position : Nat} {timer : FrameTickReadiness}
    (execution : (FrameLoop.machine maxFrameTime).run frameTimes (FrameLoop.started requests) =
      some loop)
    (found : loop.timers[position]? = some timer) (period : timer.frameTime = frameTime.period)
    (in_time : (FrameLoop.machine maxFrameTime).Guarded (FrameLoop.NoOverrun position)
      (FrameLoop.started requests) frameTimes)
    {n : Nat} (dispatched : (loop.dispatchTimes position).length = n + 1) :
    |presentationTime frameTime.fpsRatio n - loop.elapsed| ≤
      frameTime.period.toNat + (loop.elapsed : ℚ) / 1000000 := by
  obtain ⟨remaining_le, -, exact_iff⟩ := FrameLoop.run_exact_iff execution found
  have served := exact_iff.mpr in_time
  rw [dispatched, period] at served
  rw [period] at remaining_le
  have not_before : n * frameTime.period.toNat ≤ loop.elapsed := by
    rw [Nat.add_mul, Nat.one_mul] at served
    omega
  have not_after : loop.elapsed ≤ n * frameTime.period.toNat + frameTime.period.toNat := by
    rw [Nat.add_mul, Nat.one_mul] at served
    omega
  have before_rat : (n * frameTime.period.toNat : ℚ) ≤ loop.elapsed := by exact_mod_cast not_before
  have after_rat : (loop.elapsed : ℚ) ≤ n * frameTime.period.toNat + frameTime.period.toNat := by
    exact_mod_cast not_after
  have span := abs_le.mp (one.spans n)
  rw [abs_le]
  constructor <;> linarith

theorem followsClock_iff_spansPeriod (frameTime : FrameTime) :
    FollowsClock frameTime ↔ SpansPeriod frameTime := by
  constructor
  · intro follows
    simpa [presentationTime_fpsRatio, SpansPeriod] using follows.spans 1
  · intro one
    exact ⟨one.spans, fun _ _ _ _ _ _ execution found period in_time _ dispatched =>
      one.last execution found period in_time dispatched⟩

/-- A time base within a nanosecond of the frame time agrees with the period. -/
theorem spansPeriod_of_near {frameTime : FrameTime} (low : 14000000 ≤ frameTime.value.toNat)
    (high : frameTime.value.toNat < 2 ^ 26)
    (near : |(1000000000 : ℚ) / frameTime.fpsRatio.den - frameTime.value.toNat| ≤ 1) :
    SpansPeriod frameTime := by
  have low_rat : (14000000 : ℚ) ≤ frameTime.value.toNat := by exact_mod_cast low
  have rounding := abs_lt.mp (abs_period_sub_lt (by omega) high)
  have near := abs_le.mp near
  rw [SpansPeriod, abs_le]
  constructor <;> linarith

/-- A time base which is too long by a thousandth does not. -/
theorem not_spansPeriod_of_far {frameTime : FrameTime} (low : 14000000 ≤ frameTime.value.toNat)
    (high : frameTime.value.toNat < 2 ^ 26)
    (far : (frameTime.value.toNat * 1000 : ℚ) ≤
      999 * (1000000000 / frameTime.fpsRatio.den)) :
    ¬SpansPeriod frameTime := by
  have low_rat : (14000000 : ℚ) ≤ frameTime.value.toNat := by exact_mod_cast low
  have rounding := abs_lt.mp (abs_period_sub_lt (by omega) high)
  intro one
  have one := abs_le.mp one
  linarith

/-- The truncated frame rate is the reciprocal of the frame time. -/
def RateExact (fps : UInt32) : Bool → Prop
  | true => fps.toNat ≠ 29 ∧ fps.toNat ≠ 51 ∧ fps.toNat ≠ 58
  | false => 1000 / fps.toNat ∣ 1000

/-- With strict frame times the encoder counts in frames of the given rate, or of one less. -/
theorem spansPeriod_fromFps_iff {fps : UInt32} (low : 20 ≤ fps.toNat) (high : fps.toNat ≤ 70) :
    SpansPeriod (fromFps fps) ↔ RateExact fps true := by
  have value := fromFps_toNat fps
  have rate := fpsRatio_fromFps low high
  have positive : (20 : ℚ) ≤ fps.toNat := by exact_mod_cast low
  have value_ge : 14000000 ≤ (fromFps fps).value.toNat := by
    rw [value, Nat.le_div_iff_mul_le (by omega)]
    omega
  have value_lt : (fromFps fps).value.toNat < 2 ^ 26 := by
    rw [value, Nat.div_lt_iff_lt_mul (by omega)]
    omega
  have value_le_rat : ((fromFps fps).value.toNat : ℚ) ≤ 1000000000 / fps.toNat := by
    rw [value, le_div_iff₀ (by linarith)]
    exact_mod_cast Nat.div_mul_le_self 1000000000 fps.toNat
  constructor
  · contrapose!
    intro inexact
    refine not_spansPeriod_of_far value_ge value_lt ?_
    have truncated : fps.toNat = 29 ∨ fps.toNat = 51 ∨ fps.toNat = 58 := by
      simp only [RateExact] at inexact
      omega
    rw [rate, if_pos truncated]
    have high_rat : (fps.toNat : ℚ) ≤ 70 := by exact_mod_cast high
    calc
      ((fromFps fps).value.toNat * 1000 : ℚ) ≤ 1000000000 / fps.toNat * 1000 := by linarith
      _ ≤ 999 * (1000000000 / (((fps.toNat - 1 : ℕ) : ℤ) : ℚ)) := by
        rw [Int.cast_natCast, Nat.cast_pred (by omega), div_mul_eq_mul_div, mul_div_assoc',
          div_le_div_iff₀ (by linarith) (by linarith)]
        linarith
  · intro exact_rate
    have whole : ¬(fps.toNat = 29 ∨ fps.toNat = 51 ∨ fps.toNat = 58) := by
      simp only [RateExact] at exact_rate
      omega
    refine spansPeriod_of_near value_ge value_lt ?_
    rw [rate, if_neg whole, abs_le]
    have below : (1000000000 : ℚ) / fps.toNat < (fromFps fps).value.toNat + 1 := by
      rw [value, div_lt_iff₀ (by linarith), mul_comm]
      exact_mod_cast Nat.lt_mul_div_succ 1000000000 (by omega)
    push_cast
    constructor <;> linarith

/-- Without them it counts in whole frames per second, and the period in whole milliseconds. -/
theorem spansPeriod_truncate_iff {fps : UInt32} (low : 20 ≤ fps.toNat) (high : fps.toNat ≤ 70) :
    SpansPeriod (truncateToMillisecond (fromFps fps)) ↔ RateExact fps false := by
  have value := truncate_fromFps_toNat fps
  have rate := fpsRatio_truncate_fromFps low high
  obtain ⟨milliseconds, ms_eq⟩ : ∃ milliseconds, 1000 / fps.toNat = milliseconds := ⟨_, rfl⟩
  have ms_ge : 14 ≤ milliseconds := by
    rw [← ms_eq, Nat.le_div_iff_mul_le (by omega)]
    omega
  have ms_le : milliseconds ≤ 50 := by
    rw [← ms_eq]
    exact Nat.div_le_of_le_mul (by omega)
  rw [ms_eq] at value rate
  have rate_pos : 20 ≤ 1000 / milliseconds := by
    rw [Nat.le_div_iff_mul_le (by omega)]
    omega
  have rate_rat : (20 : ℚ) ≤ (1000 / milliseconds : ℕ) := by exact_mod_cast rate_pos
  have value_rat : ((truncateToMillisecond (fromFps fps)).value.toNat : ℚ) =
      milliseconds * 1000000 := by
    rw [value]
    push_cast
    ring
  simp only [RateExact, ms_eq]
  constructor
  · contrapose!
    intro inexact
    refine not_spansPeriod_of_far (by omega) (by omega) ?_
    have short : 1000 / milliseconds * milliseconds ≤ 999 := by
      have le := Nat.div_mul_le_self 1000 milliseconds
      have ne : 1000 / milliseconds * milliseconds ≠ 1000 := fun eq =>
        inexact (Nat.dvd_of_mod_eq_zero (by
          have := Nat.div_add_mod' 1000 milliseconds
          omega))
      omega
    have short_rat : ((1000 / milliseconds : ℕ) : ℚ) * milliseconds ≤ 999 := by
      exact_mod_cast short
    rw [rate, value_rat, Int.cast_natCast, mul_div_assoc', le_div_iff₀ (by linarith)]
    linarith
  · intro divides
    refine spansPeriod_of_near (by omega) (by omega) ?_
    have whole : ((1000 / milliseconds : ℕ) : ℚ) * milliseconds = 1000 := by
      exact_mod_cast Nat.div_mul_cancel divides
    have equal : (1000000000 : ℚ) / (1000 / milliseconds : ℕ) = milliseconds * 1000000 := by
      rw [div_eq_iff (by linarith)]
      linarith
    rw [rate, value_rat, Int.cast_natCast, equal, sub_self, abs_zero]
    exact zero_le_one

/-- The timeline of the video follows the capture clock exactly at the frame rates whose truncation
has no effect. -/
theorem followsClock_iff {fps : UInt32} (accepted : AcceptsFrameRate fps)
    (strictFrameTime : Bool) :
    FollowsClock (captureFrameTime fps strictFrameTime) ↔ RateExact fps strictFrameTime := by
  obtain ⟨low, high⟩ := frameRate_bounds accepted
  rw [followsClock_iff_spansPeriod]
  cases strictFrameTime with
  | true => exact spansPeriod_fromFps_iff low high
  | false => exact spansPeriod_truncate_iff low high

theorem followsClock_at_thirty : FollowsClock (captureFrameTime 30 true) :=
  (followsClock_iff ⟨_, List.mem_cons_of_mem _ List.mem_cons_self, rfl, "30".toList,
    by decide +kernel, by decide +kernel⟩ true).mpr ⟨by decide, by decide, by decide⟩

/-- At 29 frames per second the encoder counts 28 of them, and the truncated frame time of 60 frames
per second, which are 62.5, makes it count 62. -/
theorem drifts_at_29_and_at_truncated_60 :
    (AcceptsFrameRate 29 ∧ ¬FollowsClock (captureFrameTime 29 true)) ∧
      AcceptsFrameRate 60 ∧ ¬FollowsClock (captureFrameTime 60 false) := by
  refine ⟨⟨?_, ?_⟩, ?_, ?_⟩
  · exact ⟨_, List.mem_cons_of_mem _ List.mem_cons_self, rfl, "29".toList, by decide +kernel,
      by decide +kernel⟩
  · rw [followsClock_iff_spansPeriod, captureFrameTime, if_pos rfl,
      spansPeriod_fromFps_iff (by decide) (by decide)]
    exact fun exact_rate => exact_rate.1 rfl
  · exact ⟨_, List.mem_cons_of_mem _ List.mem_cons_self, rfl, "60".toList, by decide +kernel,
      by decide +kernel⟩
  · rw [followsClock_iff_spansPeriod, captureFrameTime, if_neg Bool.false_ne_true,
      spansPeriod_truncate_iff (by decide) (by decide)]
    exact (by decide : ¬1000 / (60 : UInt32).toNat ∣ 1000)

end ShadowCast
