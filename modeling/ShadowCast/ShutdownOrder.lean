import ShadowCast.EncoderDrain
import ShadowCast.Session

/-!
# The shutdown order of `run_loop`

The phases of a thread have ranks which never decrease, so that a milestone once passed stays
behind.  The main thread passes the join of the audio thread before it flushes, and the flushes
before it stops the media context; the media context leaves its loop only after that.  No frame can
therefore be submitted once `EncoderService::on_uninit` has taken `pending_`.
-/

namespace ShadowCast

namespace LoopPhase

/-- The position of a phase in its thread; the phases of the event loop share one. -/
def rank : LoopPhase → Nat
  | .waiting => 0
  | .starting => 1
  | .initialising => 2
  | .registering => 3
  | .testing => 4
  | .dispatching => 4
  | .polling => 4
  | .clearing => 5
  | .uninitialising => 6
  | .resetting => 7
  | .draining => 7
  | .joiningPipewire => 8
  | .closing => 9
  | .catching => 10
  | .guarding => 11
  | .ended => 12
  | .joiningAudio => 12
  | .flushing .video => 13
  | .flushing .audio => 14
  | .stoppingMedia => 15
  | .joiningMedia => 16
  | .returned => 17

/-- `Context::run` will not test `stop_requested_` any more. -/
def LeftLoop (phase : LoopPhase) : Prop := rank .clearing ≤ phase.rank

/-- `Context::run` has ended. -/
def RunEnded (phase : LoopPhase) : Prop := rank .catching ≤ phase.rank

/-- `run_loop` has joined the audio thread. -/
def AudioJoined (phase : LoopPhase) : Prop := rank (.flushing .video) ≤ phase.rank

/-- `run_loop` has come to `media.request_stop()`. -/
def StopsMedia (phase : LoopPhase) : Prop := rank .stoppingMedia ≤ phase.rank

/-- The flushes begun at a phase of the main thread. -/
def begunFlushes : LoopPhase → List Medium
  | .flushing .video => [.video]
  | .flushing .audio => [.video, .audio]
  | .stoppingMedia => [.video, .audio]
  | .joiningMedia => [.video, .audio]
  | .returned => [.video, .audio]
  | _ => []

/-- The lifecycle of the encoder service at a phase of the media thread. -/
def lifecycle : LoopPhase → Lifecycle
  | .draining => .closing
  | .closing => .closed
  | .catching => .closed
  | .guarding => .closed
  | .ended => .closed
  | _ => .active

/-- The encoder service is un-initialised after the loop. -/
theorem leftLoop_of_lifecycle {phase : LoopPhase} (inactive : phase.lifecycle ≠ .active) :
    phase.LeftLoop := by
  cases phase <;> simp_all [lifecycle, LeftLoop, rank]

/-- Both flushes are over when the media context is stopped. -/
theorem flushes_of_stopsMedia {phase : LoopPhase} (stops : phase.StopsMedia) :
    phase.flushes = [] ∧ phase.begunFlushes = [.video, .audio] := by
  revert stops
  unfold StopsMedia
  fun_cases rank phase <;> simp [rank, flushes, begunFlushes]

instance (phase : LoopPhase) : Decidable phase.StopsMedia := inferInstanceAs (Decidable (_ ≤ _))

end LoopPhase

/-- A `write_frame` call begins. -/
def RunLoop.Label.Submits (label : RunLoop.Label) : Prop :=
  ∃ caller id response, label = .perform caller (.writeFrame id response)

/-- Neither `media.run()` nor a flush throws. -/
def Edge.Faultless : Edge → Prop
  | .createEventfdFails loop => loop ≠ .media
  | .createNotifyFdFails => False
  | .initThrows loop => loop ≠ .media
  | .dispatchThrows loop => loop ≠ .media
  | .endDispatch threw => threw = false
  | .flushThrows _ => False
  | _ => True

instance : (edge : Edge) → Decidable edge.Faultless
  | .createEventfdFails loop | .initThrows loop | .dispatchThrows loop =>
      inferInstanceAs (Decidable (loop ≠ .media))
  | .createNotifyFdFails | .flushThrows _ => isFalse id
  | .endDispatch threw => inferInstanceAs (Decidable (threw = false))
  | .spawn _ | .createEventfd .. | .createNotifyFd .. | .finishInit _ | .seeStop _ | .seeNoStop _
  | .clearStop _ | .endIteration _ | .beginDispatch | .uninit _ | .resetNotifyFd | .stopPipewire
  | .finishDrain | .closeEventfd .. | .catchException _ | .endGuard _ | .joinAudio | .endFlush _
  | .awaitMedia | .joinMedia => isTrue trivial

/-- Neither `media.run()` nor a flush throws, and no call of the media thread into the codecs or the
output file fails. -/
def RunLoop.Label.Faultless : RunLoop.Label → Prop
  | .move edge => edge.Faultless
  | .abandon failure _ => failure ≠ .flush
  | .encode label => label.Succeeds
  | _ => True

instance : (label : RunLoop.Label) → Decidable label.Faultless
  | .move edge => inferInstanceAs (Decidable edge.Faultless)
  | .abandon failure _ => inferInstanceAs (Decidable (failure ≠ .flush))
  | .encode label => inferInstanceAs (Decidable label.Succeeds)
  | .call _ | .perform .. | .startPipewire | .openSocket _ | .closeSocket | .openForeign _
  | .closeForeign _ => isTrue trivial

/-- The calls which the thread of a context makes at a phase. -/
def permitted : Loop → LoopPhase → List Op
  | .main, .dispatching => Op.frame .video ++ Op.stop
  | .audio, .dispatching => Op.frame .audio
  | _, .guarding => Op.stop
  | .main, .flushing medium => Op.flush medium
  | .main, .stoppingMedia => Op.requestStop .media
  | _, _ => []

/-- Only the main thread, in `media.request_stop()`, sets the flag of the media context. -/
theorem permitted_setStop {loop : Loop} {phase : LoopPhase}
    (member : .setStop .media ∈ permitted loop phase) : loop = .main ∧ phase = .stoppingMedia := by
  revert member
  unfold permitted
  split <;> simp [Op.frame, Op.flush, Op.writeFrameCall, Op.stop, Op.requestStop]

/-- Only a frame handler or a flush submits a frame. -/
theorem permitted_writeFrame {loop : Loop} {phase : LoopPhase}
    (member : .writeFrame ∈ permitted loop phase) :
    phase = .dispatching ∧ (loop = .main ∨ loop = .audio) ∨
      loop = .main ∧ ∃ medium, phase = .flushing medium := by
  revert member
  unfold permitted
  split <;> simp [Op.frame, Op.flush, Op.writeFrameCall, Op.stop, Op.requestStop]

/-- The flush which a call of the main thread is still going to submit. -/
def unflushed (calls : List Op) (phase : LoopPhase) : List Medium :=
  calls.flatMap fun op => if op = .writeFrame then phase.flushes else []

theorem unflushed_of_not_flushing {phase : LoopPhase} (calls : List Op)
    (not_flushing : phase.flushes = []) : unflushed calls phase = [] := by
  simp [unflushed, not_flushing]

namespace Edge

theorem rank_source_le_target (edge : Edge) : edge.move.source.rank ≤ edge.move.target.rank := by
  unfold move
  split <;> (try cases ‹Medium›) <;> simp [LoopPhase.rank]

theorem calls_permitted (edge : Edge) :
    ∀ op ∈ edge.move.calls, op ∈ permitted edge.move.loop edge.move.target := by
  unfold move
  split <;> simp [permitted]

/-- The one way past the join of the audio thread. -/
theorem eq_joinAudio {edge : Edge} (main : edge.move.loop = .main)
    (before : ¬ edge.move.source.AudioJoined) (reached : edge.move.target.AudioJoined) :
    edge = .joinAudio := by
  revert main before reached
  unfold move LoopPhase.AudioJoined
  split <;> (try cases ‹Medium›) <;> simp [LoopPhase.rank]

/-- The one faultless way out of the loop of the media thread. -/
theorem eq_seeStop {edge : Edge} (media : edge.move.loop = .media) (faultless : edge.Faultless)
    (before : ¬ edge.move.source.LeftLoop) (reached : edge.move.target.LeftLoop) :
    edge = .seeStop .media := by
  revert media faultless before reached
  unfold move LoopPhase.LeftLoop
  split <;> simp +contextual [LoopPhase.rank, Faultless]

/-- The one way to the end of `run_loop`. -/
theorem eq_joinMedia {edge : Edge} (reached : edge.move.target = .returned) :
    edge = .joinMedia := by
  revert reached
  unfold move
  split <;> simp

/-- An edge of the main thread begins the flush which its calls submit. -/
theorem begunFlushes_target {edge : Edge} (main : edge.move.loop = .main)
    (faultless : edge.Faultless) :
    edge.move.source.begunFlushes ++ unflushed edge.move.calls edge.move.target =
      edge.move.target.begunFlushes := by
  revert main faultless
  unfold move
  split <;> simp [LoopPhase.begunFlushes, LoopPhase.flushes, Faultless, unflushed, Op.flush,
    Op.writeFrameCall, Op.stop, Op.requestStop]

/-- A thread which has ended takes no step. -/
theorem source_ne_ended (edge : Edge) : edge.move.source ≠ .ended := by
  unfold move
  split <;> simp

end Edge

namespace RunLoop

/-- The order in which the threads of a faultless session pass their milestones. -/
structure Ordered (control : RunLoop) : Prop where
  calls : ∀ loop, ∀ op ∈ control.calls (.loop loop), op ∈ permitted loop (control.phase loop)
  pipewire : ∀ op ∈ control.calls .pipewire, op ∈ Op.notify
  stopRequested : control.stopRequested .media = true → (control.phase .main).StopsMedia
  flushed : control.flushed ++ unflushed (control.calls (.loop .main)) (control.phase .main) =
    (control.phase .main).begunFlushes
  left : (control.phase .media).LeftLoop → (control.phase .main).StopsMedia

/-- The phases of a thread move forward. -/
theorem rank_le_update {control : RunLoop} {edge : Edge}
    (source : control.phase edge.move.loop = edge.move.source) (loop : Loop) :
    (control.phase loop).rank ≤
      (Function.update control.phase edge.move.loop edge.move.target loop).rank := by
  by_cases same : loop = edge.move.loop
  · subst same
    rw [Function.update_self, source]
    exact edge.rank_source_le_target
  · exact Nat.le_of_eq (by rw [Function.update_of_ne same])

theorem step_rank_le {control after : RunLoop} {label : Label}
    (step : control.step label = some after) (loop : Loop) :
    (control.phase loop).rank ≤ (after.phase loop).rank := by
  cases label with
  | move edge =>
      obtain ⟨source, -, -, rfl⟩ := step_move.mp step
      rw [take_phase]
      exact rank_le_update source loop
  | _ => exact Nat.le_of_eq (by rw [(step_frame (fun edge => by simp) step).1])

/-- A thread which has ended stays so. -/
theorem ended_update {control : RunLoop} {loop : Loop} (edge : Edge)
    (source : control.phase edge.move.loop = edge.move.source)
    (ended : control.phase loop = .ended) :
    Function.update control.phase edge.move.loop edge.move.target loop = .ended := by
  have other : loop ≠ edge.move.loop := by
    rintro rfl
    exact edge.source_ne_ended (source.symm.trans ended)
  rw [Function.update_of_ne other, ended]

/-- Taking an edge requests no stop. -/
theorem take_stopRequested {control : RunLoop} {edge : Edge} {loop : Loop}
    (requested : (control.take edge).stopRequested loop = true) :
    control.stopRequested loop = true := by
  cases edge with
  | clearStop other =>
      by_cases same : loop = other
      · simp [take, same] at requested
      · simpa [take, Function.update_of_ne same] using requested
  | _ => exact requested

/-- A faultless edge keeps the order. -/
theorem Ordered.take {control : RunLoop} {edge : Edge} (ordered : Ordered control)
    (faultless : edge.Faultless) (source : control.phase edge.move.loop = edge.move.source)
    (returned : control.calls (.loop edge.move.loop) = []) (allowed : control.Allows edge) :
    Ordered (control.take edge) where
  calls := by
    intro loop op member
    by_cases same : loop = edge.move.loop
    · subst same
      simp only [take_calls, take_phase, Function.update_self] at member ⊢
      exact edge.calls_permitted op member
    · have other : Caller.loop loop ≠ .loop edge.move.loop := fun eq => same (Caller.loop.inj eq)
      rw [take_calls, Function.update_of_ne other] at member
      rw [take_phase, Function.update_of_ne same]
      exact ordered.calls loop op member
  pipewire := by
    simpa using ordered.pipewire
  stopRequested := by
    intro requested
    rw [take_phase]
    exact Nat.le_trans (ordered.stopRequested (take_stopRequested requested))
      (rank_le_update source .main)
  flushed := by
    have before := ordered.flushed
    by_cases main : edge.move.loop = .main
    · rw [main] at source returned
      have target := Edge.begunFlushes_target main faultless
      rw [returned, source] at before
      simp only [unflushed, List.flatMap_nil, List.append_nil] at before
      simpa only [take_flushed, take_calls, take_phase, main, Function.update_self, before]
        using target
    · have other : Loop.main ≠ edge.move.loop := Ne.symm main
      have other_caller : Caller.loop .main ≠ .loop edge.move.loop :=
        fun eq => other (Caller.loop.inj eq)
      simpa only [take_flushed, take_calls, take_phase, Function.update_of_ne other,
        Function.update_of_ne other_caller] using before
  left := by
    rw [take_phase]
    intro reached
    refine Nat.le_trans ?_ (rank_le_update source .main)
    by_cases before : (control.phase .media).LeftLoop
    · exact ordered.left before
    · have media : edge.move.loop = .media := by
        by_contra other
        rw [Function.update_of_ne (Ne.symm other)] at reached
        exact before reached
      rw [media] at source
      rw [media, Function.update_self] at reached
      obtain rfl := Edge.eq_seeStop media faultless (source ▸ before) reached
      exact ordered.stopRequested allowed

/-- A call starts in a dispatch and submits no flush. -/
theorem Ordered.call {control : RunLoop} {call : Call} (ordered : Ordered control)
    (allowed : control.AllowsCall call) :
    Ordered { control with calls := Function.update control.calls call.caller call.ops } := by
  refine ⟨fun loop op member => ?_, fun op member => ?_, ordered.stopRequested, ?_, ordered.left⟩
  · by_cases same : Caller.loop loop = call.caller
    · simp only [← same, Function.update_self] at member
      simp only [AllowsCall, ← same] at allowed
      simp only [allowed.1]
      cases call with
      | frame medium =>
          cases medium <;> obtain rfl := Caller.loop.inj same <;> simp_all [permitted, Call.ops]
      | signal =>
          obtain rfl := Caller.loop.inj same
          exact List.mem_append_right _ member
      | notify => cases same
    · exact ordered.calls loop op (by simpa only [Function.update_of_ne same] using member)
  · cases call with
    | notify => simpa [Call.caller, Call.ops] using member
    | signal => exact ordered.pipewire op member
    | frame medium => cases medium <;> exact ordered.pipewire op member
  · by_cases same : Caller.loop .main = call.caller
    · have before := ordered.flushed
      simp only [AllowsCall, ← same] at allowed
      have not_flushing : (control.phase .main).flushes = [] := by rw [allowed.1]; rfl
      rw [unflushed_of_not_flushing _ not_flushing] at before ⊢
      exact before
    · simpa only [Function.update_of_ne same] using ordered.flushed

theorem flushes_of_ne {control : RunLoop} {caller : Caller} (other : caller ≠ .loop .main) :
    control.flushes caller = [] := by
  unfold flushes
  split
  · exact absurd rfl other
  · rfl

theorem eq_setStop_of_perform {control : RunLoop} {caller : Caller} {action : Action} {loop : Loop}
    (before : ¬ control.stopRequested loop = true)
    (requested : (control.perform caller action).stopRequested loop = true) :
    action = .setStop loop := by
  cases action with
  | setStop other =>
      by_cases same : loop = other
      · rw [same]
      · exact absurd (by simpa [RunLoop.perform, Function.update_of_ne same] using requested) before
  | _ => exact absurd requested before

/-- A thread performs what it is permitted to, and a flush which is submitted was begun. -/
theorem Ordered.perform {control : RunLoop} {caller : Caller} {action : Action} {rest : List Op}
    (ordered : Ordered control) (next : control.calls caller = action.op :: rest) :
    Ordered (control.perform caller action) := by
  have calls_subset (other : Caller) (op : Op)
      (member : op ∈ (control.perform caller action).calls other) : op ∈ control.calls other := by
    by_cases same : other = caller
    · subst same
      rw [perform_calls, Function.update_self] at member
      exact List.mem_of_mem_tail member
    · rwa [perform_calls, Function.update_of_ne same] at member
  refine ⟨fun loop op member => ?_, fun op member => ordered.pipewire op (calls_subset _ op member),
    fun requested => ?_, ?_, ?_⟩
  · rw [perform_phase]
    exact ordered.calls loop op (calls_subset _ op member)
  · rw [perform_phase]
    by_cases before : control.stopRequested .media = true
    · exact ordered.stopRequested before
    · obtain rfl : action = .setStop .media := eq_setStop_of_perform before requested
      have member : .setStop .media ∈ control.calls caller := by simp [next, Action.op]
      cases caller with
      | loop loop =>
          obtain ⟨rfl, stopping⟩ := permitted_setStop (ordered.calls loop _ member)
          rw [stopping]
          exact Nat.le_refl _
      | pipewire => simpa [Op.notify] using ordered.pipewire _ member
  · rw [perform_phase, ← ordered.flushed]
    by_cases main : caller = .loop .main
    · subst main
      rw [perform_calls, Function.update_self, next, perform_flushed]
      simp [unflushed, flushes]
    · rw [perform_calls, Function.update_of_ne (Ne.symm main), perform_flushed,
        flushes_of_ne main]
      simp
  · rw [perform_phase]
    exact ordered.left

/-- Giving up a frame which is no flush. -/
theorem Ordered.abandon {control : RunLoop} {loop : Loop} (ordered : Ordered control)
    (dispatching : control.phase loop = .dispatching) : Ordered (control.abandon loop) := by
  refine ⟨fun other op member => ?_, ordered.pipewire, ordered.stopRequested, ?_, ordered.left⟩
  · by_cases same : other = loop
    · subst same
      simp [RunLoop.abandon] at member
    · have other_caller : Caller.loop other ≠ .loop loop := fun eq => same (Caller.loop.inj eq)
      exact ordered.calls other op
        (by simpa only [RunLoop.abandon, Function.update_of_ne other_caller] using member)
  · by_cases main : loop = .main
    · subst main
      have before := ordered.flushed
      have not_flushing : (control.phase .main).flushes = [] := by rw [dispatching]; rfl
      rw [unflushed_of_not_flushing _ not_flushing] at before
      rw [show (control.abandon .main).phase = control.phase from rfl,
        unflushed_of_not_flushing _ not_flushing]
      exact before
    · have other_caller : Caller.loop .main ≠ .loop loop :=
        fun eq => main (Caller.loop.inj eq).symm
      simpa only [RunLoop.abandon, Function.update_of_ne other_caller] using ordered.flushed

/-- Every faultless step keeps the order. -/
theorem step_ordered {control after : RunLoop} {label : Label} (ordered : Ordered control)
    (faultless : label.Faultless) (step : control.step label = some after) : Ordered after := by
  cases label with
  | move edge =>
      obtain ⟨source, returned, allowed, rfl⟩ := step_move.mp step
      exact ordered.take faultless source returned allowed
  | call call =>
      obtain ⟨-, allowed, rfl⟩ := step_call.mp step
      exact ordered.call allowed
  | perform caller action =>
      obtain ⟨rest, next, -, rfl⟩ := step_perform.mp step
      exact ordered.perform next
  | abandon failure id =>
      obtain ⟨submitting, -, -, rfl⟩ := step_abandon.mp step
      cases failure with
      | run loop => exact ordered.abandon submitting
      | flush => exact absurd rfl faultless
  | encode label =>
      obtain ⟨-, rfl⟩ := step_encode.mp step
      exact ordered
  | openForeign number | closeForeign number =>
      obtain rfl := Option.some.inj step
      exact ordered
  | startPipewire | openSocket number | closeSocket =>
      have same : after.phase = control.phase ∧ after.calls = control.calls ∧
          after.stopRequested = control.stopRequested ∧ after.flushed = control.flushed := by
        simp only [RunLoop.step] at step
        grind
      obtain ⟨phase, calls, stopRequested, flushed⟩ := same
      constructor
      · rw [calls, phase]
        exact ordered.calls
      · rw [calls]
        exact ordered.pipewire
      · rw [phase, stopRequested]
        exact ordered.stopRequested
      · rw [phase, calls, flushed]
        exact ordered.flushed
      · rw [phase]
        exact ordered.left

theorem initial_ordered : Ordered initial := by
  constructor <;> simp [initial, LoopPhase.StopsMedia, LoopPhase.LeftLoop, LoopPhase.rank,
    LoopPhase.begunFlushes, unflushed]

/-- What the main thread has joined has ended. -/
structure Joined (control : RunLoop) : Prop where
  audio : (control.phase .main).AudioJoined → control.phase .audio = .ended
  media : control.phase .main = .returned → control.phase .media = .ended

/-- No edge leads past a join of a thread which still runs. -/
theorem Joined.take {control : RunLoop} {edge : Edge} (joined : Joined control)
    (source : control.phase edge.move.loop = edge.move.source) (allowed : control.Allows edge) :
    Joined (control.take edge) where
  audio := by
    rw [take_phase]
    intro reached
    by_cases before : (control.phase .main).AudioJoined
    · exact ended_update edge source (joined.audio before)
    · have main : edge.move.loop = .main := by
        by_contra other
        rw [Function.update_of_ne (Ne.symm other)] at reached
        exact before reached
      rw [main] at source
      rw [main, Function.update_self] at reached
      obtain rfl := Edge.eq_joinAudio main (source ▸ before) reached
      exact ended_update .joinAudio source allowed
  media := by
    rw [take_phase]
    intro reached
    by_cases main : edge.move.loop = .main
    · rw [main, Function.update_self] at reached
      obtain rfl := Edge.eq_joinMedia reached
      exact ended_update .joinMedia source allowed
    · rw [Function.update_of_ne (Ne.symm main)] at reached
      exact ended_update edge source (joined.media reached)

theorem step_joined {control after : RunLoop} {label : Label} (joined : Joined control)
    (step : control.step label = some after) : Joined after := by
  cases label with
  | move edge =>
      obtain ⟨source, -, allowed, rfl⟩ := step_move.mp step
      exact joined.take source allowed
  | _ =>
      obtain ⟨phase, -, -⟩ := step_frame (fun edge => by simp) step
      constructor
      · rw [phase]
        exact joined.audio
      · rw [phase]
        exact joined.media

theorem initial_joined : Joined initial := by
  constructor <;> simp [initial, LoopPhase.AudioJoined, LoopPhase.rank]

/-- `run_loop` keeps the first exception which is recorded. -/
theorem step_ex {control after : RunLoop} {label : Label}
    (first : control.ex = control.recorded.head?) (step : control.step label = some after) :
    after.ex = after.recorded.head? := by
  cases label with
  | move edge =>
      obtain ⟨-, -, -, rfl⟩ := step_move.mp step
      have recorded (failure : Failure) :
          (control.record failure).ex = (control.record failure).recorded.head? := by
        cases history : control.recorded <;> simp_all [record]
      cases edge with
      | catchException loop => exact recorded (.run loop)
      | flushThrows medium => exact recorded .flush
      | _ => exact first
  | _ =>
      obtain ⟨-, recorded, ex⟩ := step_frame (fun edge => by simp) step
      rw [ex, recorded, first]

end RunLoop

namespace Edge

/-- The lifecycle of the encoder service follows the media thread. -/
theorem lifecycle_target {edge : Edge} (media : edge.move.loop = .media)
    (faultless : edge.Faultless) :
    edge.encodes.foldl (fun lifecycle label => label.lifecycle lifecycle)
      edge.move.source.lifecycle = edge.move.target.lifecycle := by
  revert media faultless
  unfold move
  split <;> simp_all [Faultless, encodes, LoopPhase.lifecycle, EncoderService.Label.lifecycle]

theorem encodes_of_ne {edge : Edge} (other : edge.move.loop ≠ .media) : edge.encodes = [] := by
  revert other
  unfold move
  split <;> simp_all [encodes]

end Edge

namespace Session

/-- A step takes at most one step in the encoder service. -/
theorem step_encoder {session after : Session} {label : RunLoop.Label}
    (step : session.step label = some after) :
    label.encodes = [] ∧ after.encoder = session.encoder ∨
      ∃ encoded, label.encodes = [encoded] ∧
        session.encoder.step encoded = some after.encoder := by
  obtain ⟨-, -, -, encoder⟩ := step_eq_some.mp step
  exact Machine.run_of_length_le_one label.length_encodes_le_one encoder

theorem encodes_succeeds {label : RunLoop.Label} (faultless : label.Faultless) :
    ∀ encoded ∈ label.encodes, encoded.Succeeds := by
  revert faultless
  unfold RunLoop.Label.encodes Edge.encodes
  repeat' split
  all_goals simp +contextual [RunLoop.Label.Faultless, EncoderService.Label.Succeeds]

/-- The lifecycle of the encoder service follows the media thread. -/
theorem step_lifecycle {session after : Session} {label : RunLoop.Label}
    (lifecycle : session.encoder.lifecycle = (session.control.phase .media).lifecycle)
    (faultless : label.Faultless) (step : session.step label = some after) :
    after.encoder.lifecycle = (after.control.phase .media).lifecycle := by
  obtain ⟨-, control, -⟩ := step_eq_some.mp step
  have encoder : after.encoder.lifecycle =
      label.encodes.foldl (fun lifecycle label => label.lifecycle lifecycle)
        session.encoder.lifecycle := by
    rcases step_encoder step with ⟨none, same⟩ | ⟨encoded, one, encoded_step⟩
    · rw [none, same]
      rfl
    · rw [one, EncoderService.step_lifecycle encoded_step]
      rfl
  rw [encoder, lifecycle]
  cases label with
  | move edge =>
      obtain ⟨source, -, -, taken⟩ := RunLoop.step_move.mp control
      rw [← taken, RunLoop.take_phase]
      by_cases media : edge.move.loop = .media
      · rw [media] at source ⊢
        rw [source, Function.update_self]
        exact Edge.lifecycle_target media faultless
      · rw [Function.update_of_ne (Ne.symm media)]
        simp [RunLoop.Label.encodes, Edge.encodes_of_ne media]
  | encode encoded =>
      obtain ⟨allowed, same⟩ := RunLoop.step_encode.mp control
      rw [← same]
      cases encoded <;> first | rfl | exact absurd allowed id
  | perform caller action =>
      obtain ⟨-, -, -, performed⟩ := RunLoop.step_perform.mp control
      rw [← performed, RunLoop.perform_phase]
      cases action <;> rfl
  | abandon failure id =>
      rw [(RunLoop.step_frame (fun edge => by simp) control).1]
      cases id <;> rfl
  | call | startPipewire | openSocket | closeSocket | openForeign | closeForeign =>
      rw [(RunLoop.step_frame (fun edge => by simp) control).1]
      rfl

/-- No frame is submitted once the media thread has begun to drain. -/
theorem not_tookLast_of_submits {session after : Session} {label : RunLoop.Label}
    (joined : session.control.Joined) (ordered : session.control.Ordered)
    (lifecycle : session.encoder.lifecycle = (session.control.phase .media).lifecycle)
    (step : session.step label = some after) (submits : label.Submits) :
    ¬ session.encoder.TookLast := by
  intro took
  obtain ⟨-, control, -⟩ := step_eq_some.mp step
  have left : (session.control.phase .media).LeftLoop := by
    refine LoopPhase.leftLoop_of_lifecycle fun active => ?_
    rw [active] at lifecycle
    simp [EncoderService.TookLast, lifecycle] at took
  have stops := ordered.left left
  have ended : session.control.phase .audio = .ended :=
    joined.audio (Nat.le_trans (by decide) stops)
  obtain ⟨caller, id, response, rfl⟩ := submits
  obtain ⟨rest, next, -⟩ := RunLoop.step_perform.mp control
  have member : .writeFrame ∈ session.control.calls caller := by simp [next, Action.op]
  cases caller with
  | pipewire => simpa [Op.notify] using ordered.pipewire _ member
  | loop loop =>
      rcases permitted_writeFrame (ordered.calls loop _ member) with
        ⟨dispatching, rfl | rfl⟩ | ⟨rfl, medium, flushing⟩
      · rw [dispatching] at stops
        exact absurd stops (by decide)
      · cases dispatching.symm.trans ended
      · rw [flushing] at stops
        cases medium <;> exact absurd stops (by decide)

theorem submits_of_encodes {control after : RunLoop} {label : RunLoop.Label}
    {encoded : EncoderService.Label} (step : control.step label = some after)
    (member : encoded ∈ label.encodes) (submits : encoded.IsWriteFrame) : label.Submits := by
  cases label with
  | perform caller action =>
      cases action with
      | writeFrame id response => exact ⟨caller, id, response, rfl⟩
      | setStop | load | write => cases member
      | prepareFrame | fillFrame | resetFrame =>
          obtain rfl := List.mem_singleton.mp member
          exact absurd submits id
  | encode label =>
      obtain rfl := List.mem_singleton.mp member
      obtain ⟨allowed, -⟩ := RunLoop.step_encode.mp step
      cases encoded <;> first | exact absurd submits id | exact absurd allowed id
  | move edge =>
      revert member submits
      simp only [RunLoop.Label.encodes, Edge.encodes]
      split <;> rintro member submits <;> simp_all [EncoderService.Label.IsWriteFrame]
  | abandon failure id =>
      cases id with
      | none => cases member
      | some id =>
          obtain rfl := List.mem_singleton.mp member
          exact absurd submits (fun impossible => impossible)
  | call | startPipewire | openSocket | closeSocket | openForeign | closeForeign => cases member

/-- What every state of a session satisfies. -/
structure Rethrows (control : RunLoop) : Prop where
  joined : control.Joined
  first : control.ex = control.recorded.head?

theorem run_rethrows {labels : List RunLoop.Label} {session : Session}
    (execution : machine.run labels initial = some session) : Rethrows session.control := by
  refine Machine.run_invariant (P := fun session => Rethrows session.control) ?_
    ⟨RunLoop.initial_joined, rfl⟩ execution
  intro session label after rethrows step
  obtain ⟨-, control, -⟩ := step_eq_some.mp step
  exact ⟨RunLoop.step_joined rethrows.joined control, RunLoop.step_ex rethrows.first control⟩

/-- What every state of a faultless session satisfies. -/
structure Drains (session : Session) : Prop where
  joined : session.control.Joined
  ordered : session.control.Ordered
  lifecycle : session.encoder.lifecycle = (session.control.phase .media).lifecycle
  accounted : session.encoder.Accounted
  idle : session.encoder.IdleOnceClosed
  taken : session.encoder.TookLast → session.encoder.pending = []

theorem initial_drains : Drains initial where
  joined := RunLoop.initial_joined
  ordered := RunLoop.initial_ordered
  lifecycle := rfl
  accounted := EncoderService.initial_accounted
  idle := EncoderService.initial_idleOnceClosed
  taken := fun _ => rfl

theorem step_drains {session after : Session} {label : RunLoop.Label} (drains : Drains session)
    (faultless : label.Faultless) (step : session.step label = some after) : Drains after := by
  obtain ⟨-, control, -⟩ := step_eq_some.mp step
  have joined := RunLoop.step_joined drains.joined control
  have ordered := RunLoop.step_ordered drains.ordered faultless control
  have lifecycle := step_lifecycle drains.lifecycle faultless step
  rcases step_encoder step with ⟨-, same⟩ | ⟨encoded, one, encoded_step⟩
  · exact ⟨joined, ordered, lifecycle, same ▸ drains.accounted, same ▸ drains.idle,
      same ▸ drains.taken⟩
  · have member : encoded ∈ label.encodes := by simp [one]
    refine ⟨joined, ordered, lifecycle,
      EncoderService.step_accounted drains.accounted (encodes_succeeds faultless _ member)
        encoded_step,
      EncoderService.step_idleOnceClosed drains.idle encoded_step,
      EncoderService.step_taken drains.taken (fun submits => ?_) encoded_step⟩
    exact not_tookLast_of_submits drains.joined drains.ordered drains.lifecycle step
      (submits_of_encodes control member submits)

/-- In a run of which every step is faultless. -/
theorem run_drains {labels : List RunLoop.Label} {session : Session}
    (faultless : ∀ label ∈ labels, label.Faultless)
    (execution : machine.run labels initial = some session) : Drains session :=
  Machine.run_history (P := fun _ => Drains) (Q := RunLoop.Label.Faultless) step_drains
    initial_drains faultless execution

/-- Once `pending_` has been taken for the last time, no faultless step submits anything. -/
theorem run_tookLast {before session : Session} {labels : List RunLoop.Label}
    (drains : Drains before) (took : before.encoder.TookLast)
    (faultless : ∀ label ∈ labels, label.Faultless)
    (execution : machine.run labels before = some session) :
    session.encoder.pending = [] ∧ ∀ label ∈ labels, ¬ label.Submits := by
  have invariant : Drains session ∧ session.encoder.TookLast ∧
      ∀ label ∈ labels, ¬ label.Submits := by
    refine Machine.run_history (Q := RunLoop.Label.Faultless)
      (P := fun past session => Drains session ∧ session.encoder.TookLast ∧
        ∀ label ∈ past, ¬ label.Submits)
      ?_ ⟨drains, took, by simp⟩ faultless execution
    rintro past session label after ⟨drains, took, none_before⟩ faultless step
    have not_submits : ¬ label.Submits := fun submits =>
      not_tookLast_of_submits drains.joined drains.ordered drains.lifecycle step submits took
    refine ⟨step_drains drains faultless step, ?_, ?_⟩
    · rcases step_encoder step with ⟨-, same⟩ | ⟨encoded, -, encoded_step⟩
      · exact same ▸ took
      · exact EncoderService.step_tookLast took encoded_step
    · intro other member
      rcases List.mem_append.mp member with old | new
      · exact none_before other old
      · rw [List.mem_singleton.mp new]
        exact not_submits
  exact ⟨invariant.1.taken invariant.2.1, invariant.2.2⟩

/-- In every faultless session the media context is asked to stop only after the two other contexts
have ended and both codecs have been flushed; nothing is submitted once `on_uninit` has taken
`pending_`; and every frame has been polled when `run_loop` returns.  Faultless or not, both threads
have been joined then, and the exception rethrown, if any, is the first one recorded. -/
theorem shutdown_ordered {labels : List RunLoop.Label} {session : Session}
    (execution : machine.run labels initial = some session) :
    ((∀ label ∈ labels, label.Faultless) →
      (session.control.stopRequested .media = true →
        (session.control.phase .main).RunEnded ∧ (session.control.phase .audio).RunEnded ∧
          session.control.flushed = [.video, .audio]) ∧
      (∀ front back before, labels = front ++ back → machine.run front initial = some before →
        before.encoder.TookLast →
          session.encoder.pending = [] ∧ ∀ label ∈ back, ¬ label.Submits) ∧
      (session.control.phase .main = .returned →
        ∀ number < session.encoder.submitted.length, number ∈ session.encoder.polled)) ∧
    (session.control.phase .main = .returned →
      session.control.phase .audio = .ended ∧ session.control.phase .media = .ended ∧
        session.control.ex = session.control.recorded.head?) := by
  have rethrows := run_rethrows execution
  refine ⟨fun faultless => ⟨fun requested => ?_, fun front back before split reaches took => ?_,
    fun returned number submitted => ?_⟩, fun returned => ⟨rethrows.joined.audio ?_,
    rethrows.joined.media returned, rethrows.first⟩⟩
  · have drains := run_drains faultless execution
    have stops := drains.ordered.stopRequested requested
    have ended := drains.joined.audio (Nat.le_trans (by decide) stops)
    refine ⟨Nat.le_trans (by decide) stops, ?_, ?_⟩
    · rw [ended]
      exact Nat.le_of_ble_eq_true rfl
    · obtain ⟨not_flushing, both⟩ := LoopPhase.flushes_of_stopsMedia stops
      have flushed := drains.ordered.flushed
      rwa [unflushed_of_not_flushing _ not_flushing, both, List.append_nil] at flushed
  · subst split
    rw [Machine.run_append_eq_some] at execution
    obtain ⟨middle, reaches', rest⟩ := execution
    obtain rfl : before = middle := Option.some.inj (reaches.symm.trans reaches')
    exact run_tookLast
      (run_drains (fun label member => faultless label (List.mem_append_left _ member)) reaches)
      took (fun label member => faultless label (List.mem_append_right _ member)) rest
  · have drains := run_drains faultless execution
    have closed : session.encoder.lifecycle = .closed := by
      rw [drains.lifecycle, drains.joined.media returned]
      rfl
    have nothing_pending := drains.taken (Or.inl closed)
    have idle := drains.idle closed
    rcases drains.accounted number submitted with polled | ⟨submission, waiting, -⟩
    · exact polled
    · simp [nothing_pending, EncoderService.toPoll, idle] at waiting
  · rw [returned]
    exact Nat.le_of_ble_eq_true rfl

/-- A thread calls `stop`. -/
def stopBy (loop : Loop) : List RunLoop.Label :=
  [.main, .audio].flatMap fun other =>
    [.perform (.loop loop) (.setStop other), .perform (.loop loop) (.load (.context other)),
      .perform (.loop loop) (.write (.context other))]

/-- The main thread submits an item for which the codec has these packets. -/
def submitByMain (id : Nat) (packets : List Nat) : List RunLoop.Label :=
  [.perform (.loop .main) (.writeFrame id (.accepted packets)),
    .perform (.loop .main) (.load .encoder), .perform (.loop .main) (.write .encoder)]

/-- The main thread flushes a codec. -/
def flushByMain (medium : Medium) (id : Nat) (packets : List Nat) : List RunLoop.Label :=
  .perform (.loop .main) (.prepareFrame medium id) :: .perform (.loop .main) (.resetFrame id) ::
    submitByMain id packets

/-- A frame is submitted before the media thread has started; then `main.run()` throws, and after it
`audio.run()`, which fails to create its eventfd. -/
def lateMediaRun : List RunLoop.Label :=
  List.flatten
    [[.move (.spawn .media), .move (.spawn .audio), .move (.spawn .main),
        .move (.createEventfd .main 3), .move (.finishInit .main), .move (.seeNoStop .main),
        .call (.frame .video), .perform (.loop .main) (.prepareFrame .video 0),
        .perform (.loop .main) (.fillFrame 0)],
      submitByMain 0 [],
      [.move (.dispatchThrows .main), .move (.uninit .main), .move (.closeEventfd .main true),
        .move (.catchException .main)],
      stopBy .main,
      [.move (.endGuard .main), .move (.createEventfdFails .audio),
        .move (.catchException .audio)],
      stopBy .audio,
      [.move (.endGuard .audio), .move .joinAudio],
      flushByMain .video 1 [7],
      [.move (.endFlush .video)],
      flushByMain .audio 2 [],
      [.move (.endFlush .audio), .perform (.loop .main) (.setStop .media),
        .perform (.loop .main) (.load (.context .media)),
        .perform (.loop .main) (.write (.context .media)), .move .awaitMedia,
        .move (.createEventfd .media 3), .move (.createNotifyFd .media 4),
        .move (.finishInit .media), .move (.seeStop .media), .move (.clearStop .media),
        .move (.uninit .media), .encode .takePending, .encode (.receivePacket (.packet 2)),
        .encode (.writePacket true), .encode (.receivePacket .drained),
        .encode (.receivePacket .drained), .encode (.receivePacket .drained),
        .encode .finishLoop, .encode .returnItem, .encode .returnItem, .encode .returnItem,
        .move .finishDrain, .move (.closeEventfd .media false)],
      stopBy .media,
      [.move (.endGuard .media), .move .joinMedia]]

theorem shutdown_ordered_after_two_exceptions :
    ∃ session, machine.run lateMediaRun initial = some session ∧
      session.encoder.submitted = [1, 1, 0] ∧
      session.control.recorded = [.run .main, .run .audio] ∧
      session.control.phase .media = .ended ∧
      (∀ number < 3, number ∈ session.encoder.polled) ∧
      session.control.ex = some (.run .main) := by
  have final : (machine.run lateMediaRun initial).map (fun session =>
      (session.control.phase .main, session.encoder.submitted, session.control.recorded)) =
        some (.returned, [1, 1, 0], [.run .main, .run .audio]) := by
    decide +kernel
  obtain ⟨session, execution, final⟩ := Option.map_eq_some_iff.mp final
  obtain ⟨returned, submitted, recorded⟩ : session.control.phase .main = .returned ∧
      session.encoder.submitted = [1, 1, 0] ∧
      session.control.recorded = [.run .main, .run .audio] := by
    simpa using final
  have faultless : ∀ label ∈ lateMediaRun, label.Faultless := by decide +kernel
  obtain ⟨drained, ended⟩ := shutdown_ordered execution
  obtain ⟨-, media, first⟩ := ended returned
  have polled := (drained faultless).2.2 returned
  refine ⟨session, execution, submitted, recorded, media, ?_, ?_⟩
  · simpa [submitted] using polled
  · rw [first, recorded]
    rfl

end Session

end ShadowCast
