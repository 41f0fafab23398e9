import ShadowCast.PeriodicTimer
import Mathlib.Data.List.Sort
import Mathlib.Order.Bounds.Defs

/-!
# Frame timers of the event loop

The timers which services register with `ReadinessRegister`, and the ticks which every iteration of
`Context::run` gives them.  All times are unsigned 64-bit nanoseconds, as in the source.  Each timer
of the loop is a `PeriodicTimer` of the natural numbers: no subtraction of a tick wraps.
-/

namespace ShadowCast

/-- A registered frame timer. -/
structure FrameTickReadiness where
  /-- The service to dispatch. -/
  svc : Nat
  /-- The period. -/
  frameTime : UInt64
  /-- Time until the next deadline. -/
  remaining : UInt64
  deriving DecidableEq, Repr

/-- The order of the timers in the register. -/
def NoLonger (first second : FrameTickReadiness) : Prop := first.frameTime ≤ second.frameTime

instance : DecidableRel NoLonger := fun first second =>
  inferInstanceAs (Decidable (first.frameTime ≤ second.frameTime))

/-- `ReadinessRegister::operator()` for a timer: insert it before the first timer whose period is
not smaller, due at once.  `expiry` is the context's frame time scaled by the requested ratio. -/
def registerTimer (timers : List FrameTickReadiness) (svc : Nat) (expiry : UInt64) :
    List FrameTickReadiness :=
  timers.orderedInsert NoLonger ⟨svc, expiry, 0⟩

/-- The timers after a sequence of registrations. -/
def registeredTimers (requests : List (Nat × UInt64)) : List FrameTickReadiness :=
  requests.foldl (fun timers request => registerTimer timers request.1 request.2) []

/-- The body of the loop of `tick_timers`: the timer afterwards, and whether it was dispatched. -/
def FrameTickReadiness.tick (timer : FrameTickReadiness) (frameTime : UInt64) :
    FrameTickReadiness × Bool :=
  if frameTime ≥ timer.remaining then
    ({ timer with
        remaining := timer.frameTime - min (frameTime - timer.remaining) timer.frameTime }, true)
  else
    ({ timer with remaining := timer.remaining - frameTime }, false)

/-- The effects of `tick_timers`. -/
structure TickResult where
  timers : List FrameTickReadiness
  nextFrameTimeout : UInt64
  /-- Positions of the dispatched timers, in order. -/
  dispatched : List Nat
  deriving DecidableEq, Repr

/-- The loop of `tick_timers`, from a position on. -/
def tickTimersFrom (frameTime : UInt64) (position : Nat) (nextFrameTimeout : UInt64) :
    List FrameTickReadiness → TickResult
  | [] => ⟨[], nextFrameTimeout, []⟩
  | timer :: timers =>
      let ticked := timer.tick frameTime
      let rest := tickTimersFrom frameTime (position + 1)
        (min nextFrameTimeout ticked.1.remaining) timers
      { timers := ticked.1 :: rest.timers
        nextFrameTimeout := rest.nextFrameTimeout
        dispatched := if ticked.2 then position :: rest.dispatched else rest.dispatched }

/-- `tick_timers`. -/
def tickTimers (timers : List FrameTickReadiness) (frameTime maxFrameTime : UInt64) : TickResult :=
  tickTimersFrom frameTime 0 maxFrameTime timers

/-- The timing of `Context::run`: its timers, and the history of its iterations. -/
structure FrameLoop where
  timers : List FrameTickReadiness
  /-- The timeout returned to the last iteration, zero before the first one. -/
  nextTimeout : UInt64
  /-- Sum of the elapsed times of the iterations. -/
  elapsed : Nat
  /-- Position and time of every dispatch of a timer, oldest first. -/
  dispatched : List (Nat × Nat)
  deriving DecidableEq, Repr

namespace FrameLoop

/-- The loop before its first iteration. -/
def started (requests : List (Nat × UInt64)) : FrameLoop := ⟨registeredTimers requests, 0, 0, []⟩

/-- One iteration, `frameTime` after the previous one. -/
def iterate (maxFrameTime : UInt64) (loop : FrameLoop) (frameTime : UInt64) : FrameLoop :=
  let result := tickTimers loop.timers frameTime maxFrameTime
  { timers := result.timers
    nextTimeout := result.nextFrameTimeout
    elapsed := loop.elapsed + frameTime.toNat
    dispatched := loop.dispatched ++
      result.dispatched.map fun position => (position, loop.elapsed + frameTime.toNat) }

/-- An iteration may follow at any time. -/
def machine (maxFrameTime : UInt64) : Machine FrameLoop UInt64 :=
  ⟨fun loop frameTime => some (loop.iterate maxFrameTime frameTime)⟩

/-- The times at which a timer was dispatched. -/
def dispatchTimes (loop : FrameLoop) (position : Nat) : List Nat :=
  loop.dispatched.filterMap fun dispatch =>
    if dispatch.1 = position then some dispatch.2 else none

end FrameLoop

/-- Registered timers are due at once. -/
theorem registeredTimers_remaining {requests : List (Nat × UInt64)} {timer : FrameTickReadiness}
    (registered : timer ∈ registeredTimers requests) :
    timer.remaining = 0 ∧ (timer.svc, timer.frameTime) ∈ requests := by
  suffices every : ∀ before : List FrameTickReadiness,
      timer ∈ requests.foldl (fun timers request => registerTimer timers request.1 request.2)
        before → timer ∈ before ∨
          timer.remaining = 0 ∧ (timer.svc, timer.frameTime) ∈ requests by
    simpa using every [] registered
  clear registered
  induction requests with
  | nil => exact fun before member => Or.inl member
  | cons request requests ih =>
      intro before member
      rcases ih _ member with inserted | later
      · simp only [registerTimer, List.mem_orderedInsert] at inserted
        rcases inserted with rfl | old
        · exact Or.inr ⟨rfl, by simp⟩
        · exact Or.inl old
      · exact Or.inr ⟨later.1, by simp [later.2]⟩

theorem min_cases (first second : UInt64) :
    min first second = first ∧ first ≤ second ∨ min first second = second ∧ second ≤ first := by
  by_cases le : first ≤ second
  · exact Or.inl ⟨if_pos le, le⟩
  · exact Or.inr ⟨if_neg le, (UInt64.le_total first second).resolve_left le⟩

theorem toNat_min (first second : UInt64) :
    (min first second).toNat = min first.toNat second.toNat := by
  rcases min_cases first second with ⟨min_eq, le⟩ | ⟨min_eq, le⟩
  · rw [min_eq, Nat.min_eq_left (UInt64.le_iff_toNat_le.mp le)]
  · rw [min_eq, Nat.min_eq_right (UInt64.le_iff_toNat_le.mp le)]

/-- A tick computed in the natural numbers. -/
theorem FrameTickReadiness.tick_toNat (timer : FrameTickReadiness) (frameTime : UInt64) :
    (timer.tick frameTime).1.frameTime = timer.frameTime ∧
      (timer.tick frameTime).2 = decide (timer.remaining.toNat ≤ frameTime.toNat) ∧
      (timer.tick frameTime).1.remaining.toNat =
        if timer.remaining.toNat ≤ frameTime.toNat then
          timer.frameTime.toNat -
            min (frameTime.toNat - timer.remaining.toNat) timer.frameTime.toNat
        else
          timer.remaining.toNat - frameTime.toNat := by
  unfold tick
  by_cases due : timer.remaining ≤ frameTime
  · have due_nat : timer.remaining.toNat ≤ frameTime.toNat := UInt64.le_iff_toNat_le.mp due
    have late : (min (frameTime - timer.remaining) timer.frameTime).toNat =
        min (frameTime.toNat - timer.remaining.toNat) timer.frameTime.toNat := by
      rw [toNat_min, UInt64.toNat_sub_of_le _ _ due]
    have late_le : min (frameTime - timer.remaining) timer.frameTime ≤ timer.frameTime := by
      rw [UInt64.le_iff_toNat_le, late]
      exact Nat.min_le_right _ _
    simp only [ge_iff_le, due, if_true, due_nat, decide_true, true_and]
    rw [UInt64.toNat_sub_of_le _ _ late_le, late]
  · have early : ¬ timer.remaining.toNat ≤ frameTime.toNat := fun due_nat =>
      due (UInt64.le_iff_toNat_le.mpr due_nat)
    have early_le : frameTime ≤ timer.remaining := by
      rw [UInt64.le_iff_toNat_le]
      omega
    simp only [ge_iff_le, due, if_false, early, decide_false, true_and]
    exact UInt64.toNat_sub_of_le _ _ early_le

/-- What `tick_timers` does to the timer at one position: the other timers have no influence. -/
theorem tickTimersFrom_timers (frameTime : UInt64) (position : Nat) (timeout : UInt64)
    (timers : List FrameTickReadiness) :
    (tickTimersFrom frameTime position timeout timers).timers =
      timers.map fun timer => (timer.tick frameTime).1 := by
  induction timers generalizing position timeout with
  | nil => rfl
  | cons timer timers ih => simp [tickTimersFrom, ih]

theorem le_of_mem_tickTimersFrom_dispatched {frameTime : UInt64} {start : Nat} {timeout : UInt64}
    {timers : List FrameTickReadiness} {position : Nat}
    (dispatched : position ∈ (tickTimersFrom frameTime start timeout timers).dispatched) :
    start ≤ position := by
  induction timers generalizing start timeout with
  | nil => simp [tickTimersFrom] at dispatched
  | cons timer timers ih =>
      simp only [tickTimersFrom] at dispatched
      split at dispatched
      · rcases List.mem_cons.mp dispatched with rfl | later
        · exact Nat.le_refl _
        · exact (Nat.le_succ start).trans (ih later)
      · exact (Nat.le_succ start).trans (ih dispatched)

/-- A timer is dispatched once when it is due, and not otherwise. -/
theorem tickTimersFrom_dispatched (frameTime : UInt64) (start offset : Nat) (timeout : UInt64)
    {timers : List FrameTickReadiness} {timer : FrameTickReadiness}
    (found : timers[offset]? = some timer) :
    (tickTimersFrom frameTime start timeout timers).dispatched.filter (· = start + offset) =
      if (timer.tick frameTime).2 then [start + offset] else [] := by
  induction timers generalizing start offset timeout with
  | nil => simp at found
  | cons head tail ih =>
      simp only [tickTimersFrom]
      cases offset with
      | zero =>
          obtain rfl : head = timer := by simpa using found
          have none_later : (tickTimersFrom frameTime (start + 1)
              (min timeout (head.tick frameTime).1.remaining) tail).dispatched.filter
                (· = start + 0) = [] := by
            rw [List.filter_eq_nil_iff]
            intro position member
            have later := le_of_mem_tickTimersFrom_dispatched member
            simp only [decide_eq_true_eq]
            omega
          split
          · simpa using none_later
          · exact none_later
      | succ offset =>
          have found_in_tail : tail[offset]? = some timer := by simpa using found
          have rest := ih (start + 1) offset (min timeout (head.tick frameTime).1.remaining)
            found_in_tail
          have reindex : start + 1 + offset = start + (offset + 1) := by omega
          rw [reindex] at rest
          have not_here : ¬ start = start + (offset + 1) := by omega
          split
          · rw [List.filter_cons, if_neg (decide_eq_true_iff.not.mpr not_here)]
            exact rest
          · exact rest

/-- The timeouts among which the event loop sleeps for the least. -/
def timeouts (maxFrameTime : UInt64) (timers : List FrameTickReadiness) : Set UInt64 :=
  {timeout | timeout = maxFrameTime ∨ ∃ timer ∈ timers, timer.remaining = timeout}

/-- The returned timeout is the least of the given one and the remaining times. -/
theorem tickTimersFrom_timeout (frameTime : UInt64) (position : Nat) (timeout : UInt64)
    (timers : List FrameTickReadiness) :
    IsLeast (timeouts timeout (tickTimersFrom frameTime position timeout timers).timers)
      (tickTimersFrom frameTime position timeout timers).nextFrameTimeout := by
  induction timers generalizing position timeout with
  | nil => exact ⟨Or.inl rfl, by simp [lowerBounds, timeouts, tickTimersFrom]⟩
  | cons timer timers ih =>
      obtain ⟨attained, lower⟩ :=
        ih (position + 1) (min timeout (timer.tick frameTime).1.remaining)
      have lower_min := lower (Or.inl rfl)
      have choice := min_cases timeout (timer.tick frameTime).1.remaining
      obtain ⟨le_timeout, le_ticked⟩ : min timeout (timer.tick frameTime).1.remaining ≤ timeout ∧
          min timeout (timer.tick frameTime).1.remaining ≤ (timer.tick frameTime).1.remaining := by
        rcases choice with ⟨min_eq, le⟩ | ⟨min_eq, le⟩
        · exact ⟨min_eq.symm ▸ UInt64.le_refl _, min_eq.symm ▸ le⟩
        · exact ⟨min_eq.symm ▸ le, min_eq.symm ▸ UInt64.le_refl _⟩
      simp only [tickTimersFrom]
      constructor
      · rcases attained with attained | ⟨other, member, attained⟩
        · rcases choice with ⟨min_eq, -⟩ | ⟨min_eq, -⟩
          · exact Or.inl (attained.trans min_eq)
          · exact Or.inr ⟨_, List.mem_cons_self, (attained.trans min_eq).symm⟩
        · exact Or.inr ⟨other, List.mem_cons_of_mem _ member, attained⟩
      · rintro other (rfl | ⟨ticked, member, rfl⟩)
        · exact UInt64.le_trans lower_min le_timeout
        · rcases List.mem_cons.mp member with rfl | later
          · exact UInt64.le_trans lower_min le_ticked
          · exact lower (Or.inr ⟨ticked, later, rfl⟩)

namespace FrameLoop

/-- The timer at a position is a periodic timer which has served the same dispatches. -/
structure Tracks (position : Nat) {period : Nat} (loop : FrameLoop)
    (timer : PeriodicTimer period) : Prop where
  found : ∃ registered, loop.timers[position]? = some registered ∧
    registered.frameTime.toNat = period ∧ registered.remaining.toNat = timer.remaining
  elapsed : loop.elapsed = timer.now
  dispatched : loop.dispatchTimes position = timer.fired

/-- The dispatches of one timer in one iteration. -/
theorem dispatchTimes_iterate {maxFrameTime frameTime : UInt64} {loop : FrameLoop} {position : Nat}
    {timer : FrameTickReadiness} (found : loop.timers[position]? = some timer) :
    (loop.iterate maxFrameTime frameTime).dispatchTimes position =
      loop.dispatchTimes position ++
        if timer.remaining.toNat ≤ frameTime.toNat then
          [loop.elapsed + frameTime.toNat]
        else
          [] := by
  have mine := tickTimersFrom_dispatched frameTime 0 position maxFrameTime found
  have due := (timer.tick_toNat frameTime).2.1
  have new_times : ∀ (time : Nat) (positions : List Nat),
      (positions.map fun dispatched => (dispatched, time)).filterMap
          (fun dispatch : Nat × Nat => if dispatch.1 = position then some dispatch.2 else none) =
        (positions.filter (· = position)).map fun _ => time := by
    intro time positions
    induction positions with
    | nil => rfl
    | cons first rest ih => by_cases here : first = position <;> simp [here, ih]
  simp only [dispatchTimes, iterate, tickTimers, List.filterMap_append, new_times]
  rw [Nat.zero_add] at mine
  rw [mine, due]
  simp only [decide_eq_true_eq]
  split <;> rfl

/-- A timer of the loop simulates a periodic timer of the natural numbers. -/
theorem tracks_simulates (maxFrameTime : UInt64) (position period : Nat) :
    (machine maxFrameTime).Simulates (PeriodicTimer.machine period) (Tracks position)
      UInt64.toNat := by
  intro loop timer frameTime after tracks step
  obtain rfl : loop.iterate maxFrameTime frameTime = after := Option.some.inj step
  obtain ⟨⟨registered, found, period_eq, remaining_eq⟩, elapsed_eq, dispatched_eq⟩ := tracks
  obtain ⟨same_period, -, ticked⟩ := registered.tick_toNat frameTime
  refine ⟨timer.tick frameTime.toNat, rfl,
    ⟨⟨(registered.tick frameTime).1, ?_, by rw [same_period, period_eq], ?_⟩, ?_, ?_⟩⟩
  · simp [iterate, tickTimers, tickTimersFrom_timers, found]
  · rw [ticked, remaining_eq, period_eq, PeriodicTimer.tick]
    split <;> rfl
  · rw [PeriodicTimer.tick_now, ← elapsed_eq]
    rfl
  · rw [dispatchTimes_iterate found, remaining_eq, elapsed_eq, dispatched_eq, PeriodicTimer.tick]
    split <;> simp

/-- Before the first iteration every timer is armed. -/
theorem started_tracks {requests : List (Nat × UInt64)} {position : Nat}
    {timer : FrameTickReadiness} (found : (started requests).timers[position]? = some timer) :
    Tracks position (started requests) (PeriodicTimer.armed timer.frameTime.toNat) := by
  have due := (registeredTimers_remaining (List.mem_of_getElem? found)).1
  exact ⟨⟨timer, found, rfl, by simp [due, PeriodicTimer.armed]⟩, rfl, rfl⟩

end FrameLoop

end ShadowCast
