import ShadowCast.RunLoop

/-!
# Whole runs of `run_loop`

The threads of `run_loop`, the descriptor table of the process and the encoder service take their
steps together: a label says what a thread does, and thereby which action it performs on the table
and on the encoder service.
-/

namespace ShadowCast

/-- What an edge does to the descriptor table. -/
def Edge.touches : Edge → List (DescriptorTable.Label Object Caller)
  | .createEventfd loop number => [.create (.context loop) number]
  | .createEventfdFails loop => [.createFails (.context loop)]
  | .createNotifyFd .audio number => [.create .audio number]
  | .createNotifyFd .media number => [.create .encoder number]
  | .createNotifyFdFails => [.createFails .encoder]
  | .uninit .audio => [.close .audio]
  | .uninit .media => [.close .encoder]
  | .resetNotifyFd => [.reset .audio]
  | .closeEventfd loop _ => [.close (.context loop)]
  | _ => []

/-- What an edge does to the encoder service. -/
def Edge.encodes : Edge → List EncoderService.Label
  | .beginDispatch => [.beginDispatch]
  | .endDispatch _ => [.endDispatch]
  | .uninit .media => [.beginUninit]
  | .finishDrain => [.endDispatch]
  | _ => []

namespace RunLoop.Label

/-- What a step does to the descriptor table. -/
def touches : RunLoop.Label → List (DescriptorTable.Label Object Caller)
  | .move edge => edge.touches
  | .perform caller (.load object) => [.load caller object]
  | .perform caller (.write object) => [.write caller object]
  | .openSocket number => [.create .serverSocket number]
  | .closeSocket => [.close .serverSocket]
  | .openForeign number => [.openForeign number]
  | .closeForeign number => [.closeForeign number]
  | _ => []

/-- What a step does to the encoder service. -/
def encodes : RunLoop.Label → List EncoderService.Label
  | .move edge => edge.encodes
  | .perform _ (.prepareFrame medium _) => [.prepareFrame medium.index medium.index]
  | .perform _ (.fillFrame id) => [.fillFrame id]
  | .perform _ (.resetFrame id) => [.resetFrame id]
  | .perform _ (.writeFrame id response) => [.writeFrame id response]
  | .abandon _ (some id) => [.dropFrame id]
  | .encode label => [label]
  | _ => []

theorem length_touches_le_one (label : RunLoop.Label) : label.touches.length ≤ 1 := by
  unfold touches Edge.touches
  repeat' split
  all_goals simp

theorem length_encodes_le_one (label : RunLoop.Label) : label.encodes.length ≤ 1 := by
  unfold encodes Edge.encodes
  repeat' split
  all_goals simp

end RunLoop.Label

/-- The process while it is in `run_loop`. -/
structure Session where
  control : RunLoop
  descriptors : DescriptorTable Object Caller
  encoder : EncoderService

namespace Session

/-- `run_loop` is entered with every descriptor of the session at -1. -/
def initial : Session := ⟨.initial, .empty, .initial⟩

/-- What a label says about the encoder service is the case. -/
def Agrees (session : Session) : RunLoop.Label → Prop
  | .move (.endDispatch threw) => session.encoder.phase = .returning threw
  | .perform _ (.prepareFrame _ id) => session.encoder.poolItem.id = id
  | _ => True

instance (session : Session) (label : RunLoop.Label) : Decidable (session.Agrees label) := by
  unfold Agrees
  split <;> infer_instance

/-- One step of one thread, with its action on the table and on the encoder service. -/
def step (session : Session) (label : RunLoop.Label) : Option Session :=
  if session.Agrees label then
    (session.control.step label).bind fun control =>
      (DescriptorTable.machine.run label.touches session.descriptors).bind fun descriptors =>
        (EncoderService.machine.run label.encodes session.encoder).map fun encoder =>
          ⟨control, descriptors, encoder⟩
  else
    none

/-- The threads of `run_loop` under every interleaving. -/
def machine : Machine Session RunLoop.Label := ⟨step⟩

theorem step_eq_some {session after : Session} {label : RunLoop.Label} :
    session.step label = some after ↔
      session.Agrees label ∧ session.control.step label = some after.control ∧
        DescriptorTable.machine.run label.touches session.descriptors = some after.descriptors ∧
        EncoderService.machine.run label.encodes session.encoder = some after.encoder := by
  obtain ⟨control, descriptors, encoder⟩ := after
  simp only [step, Option.ite_none_right_eq_some, Option.bind_eq_some_iff, Option.map_eq_some_iff,
    Session.mk.injEq]
  grind

end Session
end ShadowCast
