import ShadowCast.EncoderService
import ShadowCast.DescriptorTable

/-!
# The control flow of `run_loop`

`run_loop` runs the media and the audio context in threads of their own and the main context itself.
An `Edge` is one step of such a thread through `Context::run` and the code of `run_loop` around it.
A call of `request_stop`, `write_frame`, `flush` or `notify` is a list of `Op`s, between which the
other threads take steps of their own.
-/

namespace ShadowCast

/-- The contexts of `run_loop`. -/
inductive Loop
  | main
  | audio
  | media
  deriving DecidableEq, Repr

/-- The threads: one for each context, and PipeWire's. -/
inductive Caller
  | loop (loop : Loop)
  | pipewire
  deriving DecidableEq, Repr

/-- What keeps a descriptor in a member variable. -/
inductive Object
  | context (loop : Loop)
  /-- `EncoderService::notify_fd_`. -/
  | encoder
  /-- `AudioService::event_fd_`. -/
  | audio
  /-- The listening socket of `DRMVideoService::on_init`. -/
  | serverSocket
  deriving DecidableEq, Repr

/-- A stream of the output file, with its codec context. -/
inductive Medium
  | video
  | audio
  deriving DecidableEq, Repr

/-- The index of the stream; the codec contexts are numbered alike. -/
def Medium.index : Medium → Nat
  | .audio => 0
  | .video => 1

/-- A step of a call into a context or a service. -/
inductive Op
  /-- `stop_requested_ = true`. -/
  | setStop (loop : Loop)
  /-- The value of the member variable is loaded as the argument of `write`. -/
  | load (object : Object)
  /-- The system call. -/
  | write (object : Object)
  | prepareFrame (medium : Medium)
  | fillFrame
  /-- `flush` resets the frame pointer. -/
  | resetFrame
  /-- The locked section of `write_frame`. -/
  | writeFrame
  deriving DecidableEq, Repr

namespace Op

/-- `Context::request_stop`. -/
def requestStop (loop : Loop) : List Op :=
  [.setStop loop, .load (.context loop), .write (.context loop)]

/-- `stop` of `run_loop`. -/
def stop : List Op := requestStop .main ++ requestStop .audio

/-- `EncoderService::write_frame`. -/
def writeFrameCall : List Op := [.writeFrame, .load .encoder, .write .encoder]

/-- A frame writer or the chunk writer. -/
def frame (medium : Medium) : List Op := .prepareFrame medium :: .fillFrame :: writeFrameCall

/-- `Encoder::flush`. -/
def flush (medium : Medium) : List Op := .prepareFrame medium :: .resetFrame :: writeFrameCall

/-- `AudioService::notify`. -/
def notify : List Op := [.load .audio, .write .audio]

end Op

/-- Where the thread of a context is. -/
inductive LoopPhase
  /-- The thread does not exist yet; the main thread is creating the others. -/
  | waiting
  /-- Before `eventfd` in `Context::run`. -/
  | starting
  /-- Before `eventfd` in `on_init` of the context's service. -/
  | initialising
  /-- In the rest of the initialisation. -/
  | registering
  /-- Before the test of `stop_requested_`. -/
  | testing
  | dispatching
  /-- In `EncoderService::dispatch`. -/
  | polling
  /-- Before `stop_requested_ = false`. -/
  | clearing
  | uninitialising
  /-- Before `event_fd_ = -1` in `AudioService::on_uninit`. -/
  | resetting
  | joiningPipewire
  /-- In the dispatch of `EncoderService::on_uninit`. -/
  | draining
  /-- Before the close of the context's eventfd. -/
  | closing
  /-- Before the handler which records the exception. -/
  | catching
  /-- In the scope guard which calls `stop`. -/
  | guarding
  /-- The thread function has returned. -/
  | ended
  | joiningAudio
  | flushing (medium : Medium)
  /-- In `media.request_stop()`. -/
  | stoppingMedia
  | joiningMedia
  | returned
  deriving DecidableEq, Repr

/-- The codec context which the main thread is flushing. -/
def LoopPhase.flushes : LoopPhase → List Medium
  | .flushing medium => [medium]
  | _ => []

/-- Where an exception recorded by `run_loop` comes from. -/
inductive Failure
  | run (loop : Loop)
  | flush
  deriving DecidableEq, Repr

/-- The context whose thread throws. -/
def Failure.loop : Failure → Loop
  | .run loop => loop
  | .flush => .main

/-- A step of the thread of a context. -/
inductive Edge
  | spawn (loop : Loop)
  | createEventfd (loop : Loop) (number : Nat)
  | createEventfdFails (loop : Loop)
  /-- The service of the context creates its eventfd. -/
  | createNotifyFd (loop : Loop) (number : Nat)
  | createNotifyFdFails
  | initThrows (loop : Loop)
  | finishInit (loop : Loop)
  /-- The test of `stop_requested_` ends the loop. -/
  | seeStop (loop : Loop)
  | seeNoStop (loop : Loop)
  | clearStop (loop : Loop)
  | endIteration (loop : Loop)
  /-- A timer, a descriptor's dispatch, `ppoll` or `read` throws. -/
  | dispatchThrows (loop : Loop)
  | beginDispatch
  | endDispatch (threw : Bool)
  /-- `on_uninit`, up to the close of the service's eventfd. -/
  | uninit (loop : Loop)
  | resetNotifyFd
  | stopPipewire
  | finishDrain
  /-- The scope guard of `Context::run` closes the eventfd. -/
  | closeEventfd (loop : Loop) (throwing : Bool)
  | catchException (loop : Loop)
  | endGuard (loop : Loop)
  | joinAudio
  | endFlush (medium : Medium)
  | flushThrows (medium : Medium)
  | awaitMedia
  | joinMedia
  deriving DecidableEq, Repr

/-- The thread which takes an edge, the ends of the edge and the call made at its target. -/
structure Move where
  loop : Loop
  source : LoopPhase
  target : LoopPhase
  calls : List Op

/-- The control-flow graph. -/
def Edge.move : Edge → Move
  | .spawn loop => ⟨loop, .waiting, .starting, []⟩
  | .createEventfd .main _ => ⟨.main, .starting, .registering, []⟩
  | .createEventfd loop _ => ⟨loop, .starting, .initialising, []⟩
  | .createEventfdFails loop => ⟨loop, .starting, .catching, []⟩
  | .createNotifyFd loop _ => ⟨loop, .initialising, .registering, []⟩
  | .createNotifyFdFails => ⟨.media, .initialising, .closing, []⟩
  | .initThrows loop => ⟨loop, .registering, .closing, []⟩
  | .finishInit loop => ⟨loop, .registering, .testing, []⟩
  | .seeStop loop => ⟨loop, .testing, .clearing, []⟩
  | .seeNoStop loop => ⟨loop, .testing, .dispatching, []⟩
  | .clearStop loop => ⟨loop, .clearing, .uninitialising, []⟩
  | .endIteration loop => ⟨loop, .dispatching, .testing, []⟩
  | .dispatchThrows loop => ⟨loop, .dispatching, .uninitialising, []⟩
  | .beginDispatch => ⟨.media, .dispatching, .polling, []⟩
  | .endDispatch true => ⟨.media, .polling, .uninitialising, []⟩
  | .endDispatch false => ⟨.media, .polling, .dispatching, []⟩
  | .uninit .main => ⟨.main, .uninitialising, .closing, []⟩
  | .uninit .audio => ⟨.audio, .uninitialising, .resetting, []⟩
  | .uninit .media => ⟨.media, .uninitialising, .draining, []⟩
  | .resetNotifyFd => ⟨.audio, .resetting, .joiningPipewire, []⟩
  | .stopPipewire => ⟨.audio, .joiningPipewire, .closing, []⟩
  | .finishDrain => ⟨.media, .draining, .closing, []⟩
  | .closeEventfd loop true => ⟨loop, .closing, .catching, []⟩
  | .closeEventfd loop false => ⟨loop, .closing, .guarding, Op.stop⟩
  | .catchException loop => ⟨loop, .catching, .guarding, Op.stop⟩
  | .endGuard .main => ⟨.main, .guarding, .joiningAudio, []⟩
  | .endGuard loop => ⟨loop, .guarding, .ended, []⟩
  | .joinAudio => ⟨.main, .joiningAudio, .flushing .video, Op.flush .video⟩
  | .endFlush .video => ⟨.main, .flushing .video, .flushing .audio, Op.flush .audio⟩
  | .endFlush .audio => ⟨.main, .flushing .audio, .stoppingMedia, Op.requestStop .media⟩
  | .flushThrows medium => ⟨.main, .flushing medium, .stoppingMedia, Op.requestStop .media⟩
  | .awaitMedia => ⟨.main, .stoppingMedia, .joiningMedia, []⟩
  | .joinMedia => ⟨.main, .joiningMedia, .returned, []⟩

/-- What the video frame handler, the chunk listener, the signal handler and `on_process` call. -/
inductive Call
  | frame (medium : Medium)
  | signal
  | notify
  deriving DecidableEq, Repr

namespace Call

/-- The thread which makes the call from a dispatch. -/
def caller : Call → Caller
  | .frame .video => .loop .main
  | .frame .audio => .loop .audio
  | .signal => .loop .main
  | .notify => .pipewire

def ops : Call → List Op
  | .frame medium => Op.frame medium
  | .signal => Op.stop
  | .notify => Op.notify

end Call

/-- An `Op` together with the pool item it concerns and the answer of the codec. -/
inductive Action
  | setStop (loop : Loop)
  | load (object : Object)
  | write (object : Object)
  /-- `prepare_frame` returns the item with this address. -/
  | prepareFrame (medium : Medium) (id : Nat)
  | fillFrame (id : Nat)
  | resetFrame (id : Nat)
  | writeFrame (id : Nat) (response : SendResponse)
  deriving DecidableEq, Repr

namespace Action

def op : Action → Op
  | .setStop loop => .setStop loop
  | .load object => .load object
  | .write object => .write object
  | .prepareFrame medium _ => .prepareFrame medium
  | .fillFrame _ => .fillFrame
  | .resetFrame _ => .resetFrame
  | .writeFrame _ _ => .writeFrame

/-- The item which the caller must hold. -/
def item : Action → Option Nat
  | .fillFrame id => some id
  | .resetFrame id => some id
  | .writeFrame id _ => some id
  | _ => none

end Action

/-- What the scheduler, the system and the libraries choose. -/
inductive RunLoop.Label
  | move (edge : Edge)
  | call (call : Call)
  | perform (caller : Caller) (action : Action)
  /-- An exception before the submission of a frame drops its item, if there is one already. -/
  | abandon (failure : Failure) (id : Option Nat)
  | startPipewire
  | openSocket (number : Nat)
  /-- The scope guard closes the listening socket, or the destructor of `UnixSocket` does. -/
  | closeSocket
  /-- A step of the media thread in the encoder service. -/
  | encode (label : EncoderService.Label)
  | openForeign (number : Nat)
  | closeForeign (number : Nat)
  deriving DecidableEq, Repr

/-- The listening socket in the course of `DRMVideoService::on_init`. -/
inductive SocketPhase
  | unopened
  | listening
  /-- Closed by the scope guard. -/
  | closedOnce
  /-- Closed again by the destructor. -/
  | gone
  deriving DecidableEq, Repr

/-- The threads of `run_loop`. -/
structure RunLoop where
  phase : Loop → LoopPhase
  /-- What is left of the call which each thread is making. -/
  calls : Caller → List Op
  /-- The pool item in the hands of each thread. -/
  held : Caller → Option Nat
  stopRequested : Loop → Bool
  /-- An exception is on its way out of the dispatch, the flush or `Context::run`. -/
  threw : Loop → Bool
  pipewireRunning : Bool
  socket : SocketPhase
  /-- The codec contexts which have been sent their null frame. -/
  flushed : List Medium
  /-- Every exception which has reached a handler of `run_loop`, oldest first. -/
  recorded : List Failure
  /-- `ex`. -/
  ex : Option Failure

namespace RunLoop

/-- The state in which `run_loop` is entered. -/
def initial : RunLoop where
  phase := fun _ => .waiting
  calls := fun _ => []
  held := fun _ => none
  stopRequested := fun _ => false
  threw := fun _ => false
  pipewireRunning := false
  socket := .unopened
  flushed := []
  recorded := []
  ex := none

/-- The condition under which a thread takes an edge. -/
def Allows (control : RunLoop) : Edge → Prop
  | .spawn .media => True
  | .spawn .audio => control.phase .media ≠ .waiting
  | .spawn .main => control.phase .audio ≠ .waiting
  | .createNotifyFd loop _ => loop ≠ .main
  | .initThrows .audio => control.pipewireRunning = false
  | .initThrows .main => control.socket = .unopened ∨ control.socket = .gone
  | .finishInit .main => control.socket = .unopened ∨ control.socket = .gone
  | .seeStop loop => control.stopRequested loop = true
  | .seeNoStop loop => control.stopRequested loop = false
  | .endIteration loop => control.threw loop = false
  | .stopPipewire => control.calls .pipewire = []
  | .closeEventfd loop throwing => control.threw loop = throwing
  | .joinAudio => control.phase .audio = .ended
  | .endFlush _ => control.threw .main = false
  | .flushThrows _ => control.threw .main = true
  | .joinMedia => control.phase .media = .ended
  | _ => True

instance (control : RunLoop) (edge : Edge) : Decidable (control.Allows edge) := by
  unfold Allows
  split <;> infer_instance

/-- The handler keeps the first exception. -/
def record (control : RunLoop) (failure : Failure) : RunLoop :=
  { control with
    recorded := control.recorded ++ [failure]
    ex := if control.ex.isNone then some failure else control.ex }

/-- Set or clear the exception of a thread. -/
def setThrew (control : RunLoop) (loop : Loop) (threw : Bool) : RunLoop :=
  { control with threw := Function.update control.threw loop threw }

/-- Go to the target of an edge. -/
def goto (control : RunLoop) (move : Move) : RunLoop :=
  { control with
    phase := Function.update control.phase move.loop move.target
    calls := Function.update control.calls (.loop move.loop) move.calls }

/-- Take an edge. -/
def take (control : RunLoop) (edge : Edge) : RunLoop :=
  let moved := control.goto edge.move
  match edge with
  | .createEventfdFails loop => moved.setThrew loop true
  | .createNotifyFdFails => moved.setThrew .media true
  | .initThrows loop => moved.setThrew loop true
  | .dispatchThrows loop => moved.setThrew loop true
  | .endDispatch threw => moved.setThrew .media threw
  | .clearStop loop =>
      { moved with stopRequested := Function.update control.stopRequested loop false }
  | .stopPipewire => { moved with pipewireRunning := false }
  | .catchException loop => (moved.record (.run loop)).setThrew loop false
  | .flushThrows _ => (moved.record .flush).setThrew .main false
  | _ => moved

/-- A thread may make this call from its dispatch. -/
def AllowsCall (control : RunLoop) (call : Call) : Prop :=
  match call.caller with
  | .loop loop => control.phase loop = .dispatching ∧ control.threw loop = false
  | .pipewire => control.pipewireRunning = true

instance (control : RunLoop) (call : Call) : Decidable (control.AllowsCall call) := by
  unfold AllowsCall
  split <;> infer_instance

/-- The codec context which a submission by this thread flushes. -/
def flushes (control : RunLoop) : Caller → List Medium
  | .loop .main => (control.phase .main).flushes
  | _ => []

/-- Perform the next step of a call. -/
def perform (control : RunLoop) (caller : Caller) (action : Action) : RunLoop :=
  let popped :=
    { control with
      calls := Function.update control.calls caller (control.calls caller).tail }
  match action with
  | .setStop loop =>
      { popped with stopRequested := Function.update control.stopRequested loop true }
  | .prepareFrame _ id => { popped with held := Function.update control.held caller (some id) }
  | .writeFrame _ _ =>
      { popped with
        held := Function.update control.held caller none
        flushed := control.flushed ++ control.flushes caller }
  | _ => popped

/-- A frame writer which would fail with a failure of `run`, or a flush, may be running. -/
def Submitting (control : RunLoop) : Failure → Prop
  | .run loop => control.phase loop = .dispatching
  | .flush => ∃ medium, control.phase .main = .flushing medium

instance (control : RunLoop) : (failure : Failure) → Decidable (control.Submitting failure)
  | .run loop => inferInstanceAs (Decidable (control.phase loop = .dispatching))
  | .flush =>
      decidable_of_iff (control.phase .main = .flushing .video ∨
        control.phase .main = .flushing .audio)
        ⟨fun either => either.elim (⟨_, ·⟩) (⟨_, ·⟩), fun ⟨medium, flushing⟩ => by
          cases medium <;> simp [flushing]⟩

/-- The unfinished call of a thread ends with an exception. -/
def abandon (control : RunLoop) (loop : Loop) : RunLoop :=
  { control with
    calls := Function.update control.calls (.loop loop) []
    held := Function.update control.held (.loop loop) none
    threw := Function.update control.threw loop true }

/-- The steps in the encoder service which the media thread may take where it is. -/
def AllowsEncode (control : RunLoop) : EncoderService.Label → Prop
  | .fill => control.phase .media = .registering
  | .takePending | .receivePacket _ | .writePacket _ | .finishLoop | .returnItem =>
      control.phase .media = .polling ∨ control.phase .media = .draining
  | _ => False

instance (control : RunLoop) :
    (label : EncoderService.Label) → Decidable (control.AllowsEncode label)
  | .fill => inferInstanceAs (Decidable (control.phase .media = .registering))
  | .takePending | .receivePacket _ | .writePacket _ | .finishLoop | .returnItem =>
      inferInstanceAs
        (Decidable (control.phase .media = .polling ∨ control.phase .media = .draining))
  | .prepareFrame .. | .fillFrame _ | .resetFrame _ | .dropFrame _ | .writeFrame ..
  | .beginDispatch | .endDispatch | .beginUninit => isFalse id

/-- One step of one thread. -/
def step (control : RunLoop) : Label → Option RunLoop
  | .move edge =>
      if control.phase edge.move.loop = edge.move.source ∧
          control.calls (.loop edge.move.loop) = [] ∧ control.Allows edge then
        some (control.take edge)
      else
        none
  | .call call =>
      if control.calls call.caller = [] ∧ control.AllowsCall call then
        some { control with calls := Function.update control.calls call.caller call.ops }
      else
        none
  | .perform caller action =>
      if (control.calls caller).head? = some action.op ∧
          ∀ id ∈ action.item, control.held caller = some id then
        some (control.perform caller action)
      else
        none
  | .abandon failure id =>
      if control.Submitting failure ∧ .writeFrame ∈ control.calls (.loop failure.loop) ∧
          control.held (.loop failure.loop) = id then
        some (control.abandon failure.loop)
      else
        none
  | .startPipewire =>
      if control.phase .audio = .registering ∧ control.pipewireRunning = false then
        some { control with pipewireRunning := true }
      else
        none
  | .openSocket _ =>
      if control.phase .main = .registering ∧ control.socket = .unopened then
        some { control with socket := .listening }
      else
        none
  | .closeSocket =>
      match control.socket with
      | .listening => some { control with socket := .closedOnce }
      | .closedOnce => some { control with socket := .gone }
      | _ => none
  | .encode label => if control.AllowsEncode label then some control else none
  | .openForeign _ => some control
  | .closeForeign _ => some control

theorem step_move {control after : RunLoop} {edge : Edge} :
    control.step (.move edge) = some after ↔
      control.phase edge.move.loop = edge.move.source ∧
        control.calls (.loop edge.move.loop) = [] ∧ control.Allows edge ∧
        control.take edge = after := by
  simp [step, and_assoc]

theorem step_call {control after : RunLoop} {call : Call} :
    control.step (.call call) = some after ↔
      control.calls call.caller = [] ∧ control.AllowsCall call ∧
        { control with calls := Function.update control.calls call.caller call.ops } = after := by
  simp [step, and_assoc]

theorem step_perform {control after : RunLoop} {caller : Caller} {action : Action} :
    control.step (.perform caller action) = some after ↔
      ∃ rest, control.calls caller = action.op :: rest ∧
        (∀ id ∈ action.item, control.held caller = some id) ∧
        control.perform caller action = after := by
  simp only [step]
  grind [List.head?_eq_some_iff]

theorem step_abandon {control after : RunLoop} {failure : Failure} {id : Option Nat} :
    control.step (.abandon failure id) = some after ↔
      control.Submitting failure ∧ .writeFrame ∈ control.calls (.loop failure.loop) ∧
        control.held (.loop failure.loop) = id ∧ control.abandon failure.loop = after := by
  simp [step, and_assoc]

theorem step_encode {control after : RunLoop} {label : EncoderService.Label} :
    control.step (.encode label) = some after ↔ control.AllowsEncode label ∧ control = after := by
  simp [step]

@[simp]
theorem take_phase (control : RunLoop) (edge : Edge) :
    (control.take edge).phase =
      Function.update control.phase edge.move.loop edge.move.target := by
  cases edge <;> rfl

@[simp]
theorem take_calls (control : RunLoop) (edge : Edge) :
    (control.take edge).calls =
      Function.update control.calls (.loop edge.move.loop) edge.move.calls := by
  cases edge <;> rfl

@[simp]
theorem take_flushed (control : RunLoop) (edge : Edge) :
    (control.take edge).flushed = control.flushed := by
  cases edge <;> rfl

@[simp]
theorem perform_phase (control : RunLoop) (caller : Caller) (action : Action) :
    (control.perform caller action).phase = control.phase := by
  cases action <;> rfl

@[simp]
theorem perform_calls (control : RunLoop) (caller : Caller) (action : Action) :
    (control.perform caller action).calls =
      Function.update control.calls caller (control.calls caller).tail := by
  cases action <;> rfl

theorem perform_flushed (control : RunLoop) (caller : Caller) (action : Action) :
    (control.perform caller action).flushed =
      control.flushed ++ if action.op = .writeFrame then control.flushes caller else [] := by
  cases action <;> simp [perform, Action.op]

/-- What the steps which are no edges leave alone. -/
theorem step_frame {control after : RunLoop} {label : Label} (no_edge : ∀ edge, label ≠ .move edge)
    (step : control.step label = some after) :
    after.phase = control.phase ∧ after.recorded = control.recorded ∧ after.ex = control.ex := by
  cases label with
  | move edge => exact absurd rfl (no_edge edge)
  | call call =>
      obtain ⟨-, -, rfl⟩ := step_call.mp step
      exact ⟨rfl, rfl, rfl⟩
  | perform caller action =>
      obtain ⟨rest, -, -, rfl⟩ := step_perform.mp step
      cases action <;> exact ⟨rfl, rfl, rfl⟩
  | abandon failure id =>
      obtain ⟨-, -, -, rfl⟩ := step_abandon.mp step
      exact ⟨rfl, rfl, rfl⟩
  | startPipewire | openSocket | closeSocket | encode | openForeign | closeForeign =>
      simp only [RunLoop.step] at step
      grind

end RunLoop

end ShadowCast
