import ShadowCast.Binary32
import ShadowCast.CommandLine
import ShadowCast.FrameTimers

/-!
# Frame times, encoder time bases and timer periods

A `FrameTime` is a number of nanoseconds.  The encoder's time base and the period of the frame timer
are computed from it in binary32 arithmetic, one through the frame rate and the other directly; a
conversion back to an integer truncates.
-/

namespace ShadowCast

/-- FFmpeg's rational number. -/
structure AVRational where
  num : Int
  den : Int
  deriving DecidableEq, Repr

/-- The duration of a frame, in nanoseconds. -/
structure FrameTime where
  value : UInt64
  deriving DecidableEq, Repr

/-- Nanoseconds in a second. -/
def kNsPerSec : UInt64 := 1000000000

/-- Nanoseconds in a millisecond. -/
def kNsPerMs : UInt64 := 1000000

/-- `static_cast<float>` of an unsigned integer. -/
def toFloat (n : UInt64) : ℚ := Binary32.round n.toNat

namespace FrameTime

/-- `FrameTime::fps`. -/
def fps (frameTime : FrameTime) : ℚ := Binary32.round (toFloat kNsPerSec / toFloat frameTime.value)

/-- `FrameTime::fps_ratio`.  The frame rate is not negative, so truncation is the floor. -/
def fpsRatio (frameTime : FrameTime) : AVRational := ⟨1, ⌊frameTime.fps⌋⟩

end FrameTime

/-- `truncate_to_millisecond`. -/
def truncateToMillisecond (frameTime : FrameTime) : FrameTime :=
  ⟨frameTime.value / kNsPerMs * kNsPerMs⟩

/-- `from_fps`. -/
def fromFps (fps : UInt32) : FrameTime := ⟨kNsPerSec / fps.toUInt64⟩

/-- `FrameTimeRatio`. -/
structure FrameTimeRatio where
  num : UInt64
  denom : UInt64
  deriving DecidableEq, Repr

/-- The period of a timer which is registered with this ratio at a context of this frame time, in
`ReadinessRegister::operator()`. -/
def FrameTimeRatio.expiry (ratio : FrameTimeRatio) (frameTime : UInt64) : UInt64 :=
  .ofNat ⌊Binary32.round
    (toFloat frameTime * Binary32.round (toFloat ratio.num / toFloat ratio.denom))⌋₊

/-- The frame time of a capture under X11, in `main`. -/
def captureFrameTime (fps : UInt32) (strictFrameTime : Bool) : FrameTime :=
  if strictFrameTime then fromFps fps else truncateToMillisecond (fromFps fps)

/-- The command line accepts a value for the frame rate which stands for this number. -/
def AcceptsFrameRate (fps : UInt32) : Prop :=
  ∃ spec ∈ CmdLine.cmdLineSpec, spec.option = .frameRate ∧
    ∃ value, CmdLine.checkValidValue value spec = .ok value ∧
      CmdLine.fromChars value = .ok (fps.toNat : Int)

/-- Accepted frame rates are in the range of the option. -/
theorem frameRate_bounds {fps : UInt32} (accepted : AcceptsFrameRate fps) :
    20 ≤ fps.toNat ∧ fps.toNat ≤ 70 := by
  obtain ⟨spec, known, frame_rate, value, valid, number⟩ := accepted
  have range : spec.validation = .validRange 20 70 := by
    have all : ∀ spec ∈ CmdLine.cmdLineSpec, spec.option = .frameRate →
        spec.validation = .validRange 20 70 := by
      decide +kernel
    exact all spec known frame_rate
  simp only [CmdLine.checkValidValue, number, range, CmdLine.validate] at valid
  split at valid
  · cases valid
  · split at valid
    · cases valid
    · rename_i inside
      split at inside
      · cases inside
      · omega

/-- The period of a timer registered with the ratio one is the binary32 number nearest to the frame
time. -/
theorem expiry_one (frameTime : UInt64) :
    FrameTimeRatio.expiry ⟨1, 1⟩ frameTime = .ofNat ⌊toFloat frameTime⌋₊ := by
  have one : toFloat 1 = 1 := by
    rw [toFloat, UInt64.toNat_one, Nat.cast_one, Binary32.round_one]
  rw [FrameTimeRatio.expiry, one, div_one, Binary32.round_one, mul_one, toFloat,
    Binary32.round_round]

/-- The period of the frame timer, which the video services register with the ratio one. -/
def FrameTime.period (frameTime : FrameTime) : UInt64 :=
  FrameTimeRatio.expiry ⟨1, 1⟩ frameTime.value

/-- Up to a length of 2^26 nanoseconds rounding and truncation change the period by less than three
nanoseconds. -/
theorem abs_period_sub_lt {frameTime : FrameTime} (long : 2 ≤ frameTime.value.toNat)
    (short : frameTime.value.toNat < 2 ^ 26) :
    |(frameTime.period.toNat : ℚ) - frameTime.value.toNat| < 3 := by
  have long_rat : (2 : ℚ) ≤ frameTime.value.toNat := by exact_mod_cast long
  have short_rat : (frameTime.value.toNat : ℚ) < 2 ^ 26 := by exact_mod_cast short
  have rounded : |toFloat frameTime.value - frameTime.value.toNat| ≤ 2 ^ (2 : ℤ) / 2 :=
    Binary32.abs_round_sub_le_of_lt (by linarith) (by norm_num) (by
      rw [Nat.abs_cast]
      exact_mod_cast short)
  norm_num [abs_le] at rounded
  have nonneg : 0 ≤ toFloat frameTime.value := by linarith
  have floor_le := Nat.floor_le nonneg
  have lt_floor := Nat.lt_floor_add_one (toFloat frameTime.value)
  have in_range : ⌊toFloat frameTime.value⌋₊ < 2 ^ 64 := by
    rw [Nat.floor_lt nonneg]
    push_cast
    linarith
  rw [FrameTime.period, expiry_one, UInt64.toNat_ofNat_of_lt' in_range, abs_lt]
  constructor <;> linarith

/-- The frame time of an accepted frame rate, rounded down. -/
theorem fromFps_toNat (fps : UInt32) : (fromFps fps).value.toNat = 1000000000 / fps.toNat := by
  simp [fromFps, kNsPerSec, UInt64.toNat_div]

/-- The truncated frame time is a number of milliseconds, rounded down. -/
theorem truncate_fromFps_toNat (fps : UInt32) :
    (truncateToMillisecond (fromFps fps)).value.toNat = 1000 / fps.toNat * 1000000 := by
  have milliseconds : 1000000000 / fps.toNat / 1000000 = 1000 / fps.toNat := by
    rw [Nat.div_div_eq_div_mul, Nat.mul_comm, ← Nat.div_div_eq_div_mul]
  have small : 1000 / fps.toNat * 1000000 < 2 ^ 64 := by
    have := Nat.div_le_self 1000 fps.toNat
    omega
  rw [truncateToMillisecond, UInt64.toNat_mul, UInt64.toNat_div, fromFps_toNat]
  simp only [kNsPerMs]
  rw [show (1000000 : UInt64).toNat = 1000000 from rfl, milliseconds, Nat.mod_eq_of_lt small]

/-- The encoder counts in frames of the given rate, except for three rates whose quotient falls
short of an integer and is truncated to the one below. -/
theorem fpsRatio_fromFps {fps : UInt32} (low : 20 ≤ fps.toNat) (high : fps.toNat ≤ 70) :
    (fromFps fps).fpsRatio.den =
      if fps.toNat = 29 ∨ fps.toNat = 51 ∨ fps.toNat = 58 then fps.toNat - 1 else fps.toNat := by
  have all : ∀ f < 71, 20 ≤ f → (fromFps (.ofNat f)).fpsRatio.den =
      if f = 29 ∨ f = 51 ∨ f = 58 then f - 1 else f := by
    decide +kernel
  simpa using all fps.toNat (by omega) low

/-- After the truncation the encoder counts in whole frames per second, rounded down. -/
theorem fpsRatio_truncate_fromFps {fps : UInt32} (low : 20 ≤ fps.toNat) (high : fps.toNat ≤ 70) :
    (truncateToMillisecond (fromFps fps)).fpsRatio.den = (1000 / (1000 / fps.toNat) : ℕ) := by
  have all : ∀ f < 71, 20 ≤ f → (truncateToMillisecond (fromFps (.ofNat f))).fpsRatio.den =
      (1000 / (1000 / f) : ℕ) := by
    decide +kernel
  simpa using all fps.toNat (by omega) low

end ShadowCast
