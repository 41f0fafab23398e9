import ShadowCast.ShutdownOrder

/-!
# Writes to descriptors which have been closed

`Context::run` and `EncoderService::on_uninit` close their eventfd and leave the number in the
member variable; `AudioService::on_uninit` resets it, but only after the close and while PipeWire's
thread is still running.  Whether a write of the session is stale is therefore a question of its
order with the close of the same object; `DRMVideoService::on_init` moreover closes its listening
socket twice, and the second close may hit a number which has been given to an eventfd meanwhile.
-/

namespace ShadowCast

/-- The descriptor of the object has not been created yet. -/
def RunLoop.Awaits (control : RunLoop) : Object → Prop
  | .context loop => (control.phase loop).rank ≤ LoopPhase.rank .starting
  | .encoder => (control.phase .media).rank ≤ LoopPhase.rank .initialising
  | .audio => (control.phase .audio).rank ≤ LoopPhase.rank .initialising
  | .serverSocket => control.socket = .unopened

namespace Session

/-- Every write of the step goes to -1 or to the open eventfd which the same object created. -/
def Fresh (session : Session) (label : RunLoop.Label) : Prop :=
  ∀ touched ∈ label.touches, session.descriptors.Fresh touched

/-- Every write of the step goes to -1 or precedes the close of the same object. -/
def BeforeClose (session : Session) (label : RunLoop.Label) : Prop :=
  ∀ touched ∈ label.touches, session.descriptors.BeforeClose touched

/-- The step does not close a number once more while it is the descriptor of an object. -/
def RepeatsHarmlessly (session : Session) (label : RunLoop.Label) : Prop :=
  ∀ touched ∈ label.touches, session.descriptors.RepeatsHarmlessly touched

instance (session : Session) (label : RunLoop.Label) : Decidable (session.Fresh label) :=
  inferInstanceAs (Decidable (∀ _ ∈ _, _))

instance (session : Session) (label : RunLoop.Label) : Decidable (session.BeforeClose label) :=
  inferInstanceAs (Decidable (∀ _ ∈ _, _))

instance (session : Session) (label : RunLoop.Label) :
    Decidable (session.RepeatsHarmlessly label) :=
  inferInstanceAs (Decidable (∀ _ ∈ _, _))

/-- The table is sound, and what has not been created yet has no descriptor. -/
structure Tracked (session : Session) : Prop where
  sound : session.descriptors.Sound
  awaited : ∀ object, session.control.Awaits object → session.descriptors.created object = none

/-- A step performs at most one action on the table. -/
theorem step_descriptors {session after : Session} {label : RunLoop.Label}
    (step : session.step label = some after) :
    label.touches = [] ∧ after.descriptors = session.descriptors ∨
      ∃ touched, label.touches = [touched] ∧
        session.descriptors.step touched = some after.descriptors := by
  obtain ⟨-, -, descriptors, -⟩ := step_eq_some.mp step
  exact Machine.run_of_length_le_one label.length_touches_le_one descriptors

/-- The listening socket is opened once. -/
theorem step_socket_unopened {control after : RunLoop} {label : RunLoop.Label}
    (step : control.step label = some after) (unopened : after.socket = .unopened) :
    control.socket = .unopened := by
  cases label with
  | move edge =>
      obtain ⟨-, -, -, rfl⟩ := RunLoop.step_move.mp step
      cases edge <;> exact unopened
  | perform caller action =>
      obtain ⟨-, -, -, rfl⟩ := RunLoop.step_perform.mp step
      cases action <;> exact unopened
  | abandon failure id =>
      obtain ⟨-, -, -, rfl⟩ := RunLoop.step_abandon.mp step
      exact unopened
  | call | startPipewire | openSocket | closeSocket | encode | openForeign | closeForeign =>
      simp only [RunLoop.step] at step
      grind

/-- What has not been created after a step was not created before it. -/
theorem awaits_of_step {control after : RunLoop} {label : RunLoop.Label} {object : Object}
    (step : control.step label = some after) (awaits : after.Awaits object) :
    control.Awaits object := by
  have ranks := RunLoop.step_rank_le step
  cases object with
  | context loop => exact Nat.le_trans (ranks loop) awaits
  | encoder => exact Nat.le_trans (ranks .media) awaits
  | audio => exact Nat.le_trans (ranks .audio) awaits
  | serverSocket => exact step_socket_unopened step awaits

/-- The edge at which an object creates its descriptor. -/
theorem edge_of_create {edge : Edge} {object : Object} {number : Nat}
    (creates : .create object number ∈ edge.touches) :
    (∃ loop, object = .context loop ∧ edge = .createEventfd loop number) ∨
      object = .audio ∧ edge = .createNotifyFd .audio number ∨
        object = .encoder ∧ edge = .createNotifyFd .media number := by
  revert creates
  unfold Edge.touches
  split <;> simp +contextual

/-- An object creates its descriptor at the one point which it leaves for good. -/
theorem awaits_create {control after : RunLoop} {label : RunLoop.Label} {object : Object}
    {number : Nat} (step : control.step label = some after)
    (creates : .create object number ∈ label.touches) :
    control.Awaits object ∧ ¬ after.Awaits object := by
  cases label with
  | move edge =>
      obtain ⟨source, -, -, rfl⟩ := RunLoop.step_move.mp step
      rcases edge_of_create creates with ⟨loop, rfl, rfl⟩ | ⟨rfl, rfl⟩ | ⟨rfl, rfl⟩
      · cases loop <;>
          simp_all [RunLoop.Awaits, Edge.move, LoopPhase.rank]
      · simp_all [RunLoop.Awaits, Edge.move, LoopPhase.rank]
      · simp_all [RunLoop.Awaits, Edge.move, LoopPhase.rank]
  | openSocket opened =>
      obtain ⟨rfl, rfl⟩ : object = .serverSocket ∧ number = opened := by
        simpa [RunLoop.Label.touches] using creates
      simp only [RunLoop.step] at step
      simp only [RunLoop.Awaits]
      grind
  | perform caller action => cases action <;> simp [RunLoop.Label.touches] at creates
  | call | abandon | startPipewire | closeSocket | encode | openForeign | closeForeign =>
      simp [RunLoop.Label.touches] at creates

theorem step_tracked {session after : Session} {label : RunLoop.Label} (tracked : Tracked session)
    (harmless : session.RepeatsHarmlessly label) (step : session.step label = some after) :
    Tracked after := by
  obtain ⟨-, control, -⟩ := step_eq_some.mp step
  rcases step_descriptors step with ⟨none, same⟩ | ⟨touched, one, touched_step⟩
  · exact ⟨same ▸ tracked.sound,
      fun object awaits => same ▸ tracked.awaited object (awaits_of_step control awaits)⟩
  · have member : touched ∈ label.touches := by simp [one]
    constructor
    · refine DescriptorTable.step_sound tracked.sound ⟨?_, harmless touched member⟩ touched_step
      cases touched with
      | create object number => exact tracked.awaited object (awaits_create control member).1
      | _ => trivial
    · intro object awaits
      rw [DescriptorTable.step_created touched_step fun number creates =>
        (awaits_create control (creates ▸ member)).2 awaits]
      exact tracked.awaited object (awaits_of_step control awaits)

theorem initial_tracked : Tracked initial where
  sound := DescriptorTable.empty_sound
  awaited := fun _ _ => rfl

/-- The main thread starts its loop and is asked to stop by the signal handler. -/
def signalledRun : List RunLoop.Label :=
  [.move (.spawn .media), .move (.spawn .audio), .move (.spawn .main),
    .move (.createEventfd .main 3), .move (.createEventfd .audio 4), .move (.finishInit .main),
    .move (.seeNoStop .main), .call .signal] ++ stopBy .main

/-- The main thread ends, its eventfd's number is given to a file, and the guard of `run_loop` calls
`stop`. -/
def staleRun : List RunLoop.Label :=
  signalledRun ++
    [.move (.endIteration .main), .move (.seeStop .main), .move (.clearStop .main),
      .move (.uninit .main), .move (.closeEventfd .main false), .openForeign 3] ++ stopBy .main

end Session
end ShadowCast
