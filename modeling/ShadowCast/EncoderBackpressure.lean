import ShadowCast.EncoderService
import Mathlib.Tactic.ByContra

/-!
# Frames which the codec refuses

`write_frame` sends its frame on the producer's thread and ignores the result, while the packets
which make room are received on the media thread.  A codec which holds as many frames as it can
refuses the next one, so a frame survives exactly when it is submitted while there is room.
-/

namespace ShadowCast
namespace EncoderService

/-- The codec context which a `write_frame` call names. -/
def target (service : EncoderService) : Label → Option Nat
  | .writeFrame id _ => (service.hands.find? (·.id = id)).bind (·.codecCtx)
  | _ => none

/-- The frame of the call is accepted. -/
def Label.accepts : Label → Bool
  | .writeFrame _ (.accepted _) => true
  | _ => false

/-- `avcodec_send_frame` refuses a frame when the codec already holds `capacity` frames whose
packets have not been received, and accepts it otherwise. -/
def HonoursCapacity (capacity : Nat) (service : EncoderService) (label : Label) : Prop :=
  ∀ codecCtx ∈ service.target label,
    (label.accepts = true ↔ (service.codecs codecCtx).held < capacity)

instance (capacity : Nat) (service : EncoderService) (label : Label) :
    Decidable (HonoursCapacity capacity service label) :=
  inferInstanceAs (Decidable (∀ _ ∈ _, _))

/-- The encoder service over codecs of a fixed capacity. -/
def machineOver (capacity : Nat) : Machine EncoderService Label :=
  machine.restrict (HonoursCapacity capacity)

/-- The frame of every `write_frame` call is accepted once by the codec context it was meant for. -/
def AllAccepted (service : EncoderService) : Prop :=
  ∀ number codecCtx, service.submitted[number]? = some codecCtx →
    (service.codecs codecCtx).accepted.count number = 1

/-- Frames submitted to a codec context and not yet retired by the media thread. -/
def outstanding (service : EncoderService) (codecCtx : Nat) : Nat :=
  service.submitted.count codecCtx - (service.codecs codecCtx).retired

/-- The call is made while fewer than `capacity` frames submitted to its codec context are
outstanding. -/
def RoomLeft (capacity : Nat) (service : EncoderService) (label : Label) : Prop :=
  ∀ codecCtx ∈ service.target label, service.outstanding codecCtx < capacity

instance (capacity : Nat) (service : EncoderService) (label : Label) :
    Decidable (RoomLeft capacity service label) :=
  inferInstanceAs (Decidable (∀ _ ∈ _, _))

/-- Every call is either accepted or refused, by the codec context it was meant for. -/
structure Recorded (service : EncoderService) : Prop where
  once : ∀ codecCtx number,
    (service.codecs codecCtx).accepted.count number +
        (service.codecs codecCtx).refused.count number =
      if service.submitted[number]? = some codecCtx then 1 else 0
  all : ∀ codecCtx,
    (service.codecs codecCtx).accepted.length + (service.codecs codecCtx).refused.length =
      service.submitted.count codecCtx

/-- Nothing was lost exactly when no codec refused anything. -/
theorem allAccepted_iff_refused_nil {service : EncoderService} (recorded : Recorded service) :
    AllAccepted service ↔ ∀ codecCtx, (service.codecs codecCtx).refused = [] := by
  constructor
  · intro accepted codecCtx
    rw [List.eq_nil_iff_forall_not_mem]
    intro number refused
    have refused_count := List.count_pos_iff.mpr refused
    have once := recorded.once codecCtx number
    split at once
    · rename_i submitted
      have accepted_count := accepted number codecCtx submitted
      omega
    · omega
  · intro nothing_refused number codecCtx submitted
    have once := recorded.once codecCtx number
    rw [if_pos submitted, nothing_refused] at once
    simpa using once

/-- The codec contexts and the calls are touched by no other step. -/
theorem step_history {service after : EncoderService} {label : Label}
    (step : service.step label = some after) :
    service.target label = none ∧ after.submitted = service.submitted ∧
        (∀ codecCtx, (after.codecs codecCtx).accepted = (service.codecs codecCtx).accepted) ∧
        (∀ codecCtx, (after.codecs codecCtx).refused = (service.codecs codecCtx).refused) ∨
      ∃ id response item codecCtx stream, label = .writeFrame id response ∧
        service.target label = some codecCtx ∧
        after = service.writeFrame item codecCtx stream response := by
  cases label with
  | fill | prepareFrame | fillFrame | resetFrame =>
      obtain rfl := Option.some.inj step
      exact Or.inl ⟨rfl, rfl, fun _ => rfl, fun _ => rfl⟩
  | dropFrame id =>
      obtain ⟨item, -, rfl⟩ := step_dropFrame.mp step
      exact Or.inl ⟨rfl, rfl, fun _ => rfl, fun _ => rfl⟩
  | writeFrame id response =>
      obtain ⟨item, codecCtx, stream, found, codecCtx_eq, -, rfl⟩ := step_writeFrame.mp step
      exact Or.inr ⟨id, response, item, codecCtx, stream, rfl,
        by simp [target, found, codecCtx_eq], rfl⟩
  | beginDispatch =>
      obtain ⟨-, -, rfl⟩ := step_beginDispatch.mp step
      exact Or.inl ⟨rfl, rfl, fun _ => rfl, fun _ => rfl⟩
  | takePending =>
      obtain ⟨-, rfl⟩ := step_takePending.mp step
      exact Or.inl ⟨rfl, rfl, fun _ => rfl, fun _ => rfl⟩
  | receivePacket response =>
      obtain ⟨position, submission, -, -, received⟩ := step_receivePacket.mp step
      cases response with
      | packet retires =>
          obtain ⟨packet, rest, -, -, rfl⟩ := receivePacket_packet.mp received
          refine Or.inl ⟨rfl, rfl, fun other => ?_, fun other => ?_⟩
          · by_cases same : other = submission.codecCtx
            · subst same
              simp [CodecContext.receivePacket]
            · simp [Function.update_of_ne same]
          · by_cases same : other = submission.codecCtx
            · subst same
              simp [CodecContext.receivePacket]
            · simp [Function.update_of_ne same]
      | drained =>
          obtain ⟨-, rfl⟩ := receivePacket_drained.mp received
          exact Or.inl ⟨rfl, rfl, fun _ => rfl, fun _ => rfl⟩
      | failed =>
          obtain rfl := Option.some.inj received
          exact Or.inl ⟨rfl, rfl, fun _ => rfl, fun _ => rfl⟩
  | writePacket succeeds =>
      obtain ⟨position, packet, submission, -, -, rfl⟩ := step_writePacket.mp step
      cases succeeds <;> exact Or.inl ⟨rfl, rfl, fun _ => rfl, fun _ => rfl⟩
  | finishLoop =>
      obtain ⟨position, -, -, rfl⟩ := step_finishLoop.mp step
      exact Or.inl ⟨rfl, rfl, fun _ => rfl, fun _ => rfl⟩
  | returnItem =>
      obtain ⟨threw, submission, rest, -, -, rfl⟩ := step_returnItem.mp step
      exact Or.inl ⟨rfl, rfl, fun _ => rfl, fun _ => rfl⟩
  | endDispatch =>
      obtain ⟨threw, -, -, rfl⟩ := step_endDispatch.mp step
      exact Or.inl ⟨rfl, rfl, fun _ => rfl, fun _ => rfl⟩
  | beginUninit =>
      obtain ⟨-, -, rfl⟩ := step_beginUninit.mp step
      exact Or.inl ⟨rfl, rfl, fun _ => rfl, fun _ => rfl⟩

theorem initial_recorded : Recorded initial := by
  constructor <;> simp [initial, CodecContext.new]

/-- The call which is being made is not among the earlier ones. -/
theorem submitted_append {submitted : List Nat} {codecCtx other number : Nat} :
    (submitted ++ [codecCtx])[number]? = some other ↔
      submitted[number]? = some other ∨ number = submitted.length ∧ codecCtx = other := by
  rw [List.getElem?_append]
  split
  · rename_i earlier
    have not_last : number ≠ submitted.length := by omega
    simp [not_last]
  · rename_i not_earlier
    rw [List.getElem?_singleton, List.getElem?_eq_none (Nat.le_of_not_lt not_earlier)]
    split
    · rename_i last
      have number_eq : number = submitted.length := by omega
      simp [number_eq]
    · rename_i later
      have not_last : number ≠ submitted.length := by omega
      simp [not_last]

/-- The record of a call is added to the codec context it was meant for. -/
theorem writeFrame_recorded {service : EncoderService} (recorded : Recorded service)
    (item : StreamPoll) (codecCtx stream : Nat) (response : SendResponse) :
    Recorded (service.writeFrame item codecCtx stream response) := by
  constructor
  · intro other number
    have before := recorded.once other number
    by_cases same : other = codecCtx
    · subst same
      by_cases last : number = service.submitted.length
      · subst last
        rw [if_neg (by simp)] at before
        cases response <;> simp [writeFrame, CodecContext.sendFrame] <;> omega
      · have last' : service.submitted.length ≠ number := fun eq => last eq.symm
        cases response <;>
          simpa [writeFrame, CodecContext.sendFrame, submitted_append, last, last',
            List.count_singleton] using before
    · simpa [writeFrame, Function.update_of_ne same, submitted_append,
        show ¬ codecCtx = other from fun eq => same eq.symm] using before
  · intro other
    have before := recorded.all other
    by_cases same : other = codecCtx
    · subst same
      cases response <;> simp [writeFrame, CodecContext.sendFrame] <;> omega
    · simpa [writeFrame, Function.update_of_ne same, List.count_singleton,
        show ¬ codecCtx = other from fun eq => same eq.symm] using before

theorem step_recorded {service after : EncoderService} {label : Label}
    (recorded : Recorded service) (step : service.step label = some after) : Recorded after := by
  rcases step_history step with
    ⟨-, same_submitted, same_accepted, same_refused⟩ |
      ⟨id, response, item, codecCtx, stream, -, -, rfl⟩
  · constructor
    · intro codecCtx number
      rw [same_accepted, same_refused, same_submitted]
      exact recorded.once codecCtx number
    · intro codecCtx
      rw [same_accepted, same_refused, same_submitted]
      exact recorded.all codecCtx
  · exact writeFrame_recorded recorded item codecCtx stream response

/-- While nothing has been lost, what a codec holds is what is outstanding. -/
theorem held_eq_outstanding {service : EncoderService} (recorded : Recorded service)
    {codecCtx : Nat} (nothing_refused : (service.codecs codecCtx).refused = []) :
    (service.codecs codecCtx).held = service.outstanding codecCtx := by
  have all := recorded.all codecCtx
  rw [nothing_refused, List.length_nil, Nat.add_zero] at all
  rw [CodecContext.held, outstanding, all]

/-- A step loses no frame exactly when it leaves room. -/
theorem step_allAccepted_iff {capacity : Nat} {service after : EncoderService} {label : Label}
    (recorded : Recorded service) (accepted : AllAccepted service)
    (honours : HonoursCapacity capacity service label)
    (step : service.step label = some after) :
    AllAccepted after ↔ RoomLeft capacity service label := by
  have nothing_refused := (allAccepted_iff_refused_nil recorded).mp accepted
  rw [allAccepted_iff_refused_nil (step_recorded recorded step)]
  rcases step_history step with
    ⟨no_target, -, -, same_refused⟩ | ⟨id, response, item, codecCtx, stream, rfl, target_eq, rfl⟩
  · refine iff_of_true (fun codecCtx => (same_refused codecCtx).trans (nothing_refused codecCtx)) ?_
    intro codecCtx named
    rw [no_target] at named
    cases named
  · have room_iff : RoomLeft capacity service (.writeFrame id response) ↔
        service.outstanding codecCtx < capacity := by
      simp [RoomLeft, target_eq]
    have accepts_iff := honours codecCtx target_eq
    rw [held_eq_outstanding recorded (nothing_refused codecCtx)] at accepts_iff
    rw [room_iff, ← accepts_iff]
    cases response with
    | accepted packets =>
        refine iff_of_true (fun other => ?_) rfl
        by_cases same : other = codecCtx
        · subst same
          simpa [writeFrame, CodecContext.sendFrame] using nothing_refused other
        · simpa [writeFrame, Function.update_of_ne same] using nothing_refused other
    | refused =>
        refine iff_of_false (fun still_nothing => ?_) Bool.false_ne_true
        have refused := still_nothing codecCtx
        simp [writeFrame, CodecContext.sendFrame] at refused

/-- No frame is lost all along a run exactly when every `write_frame` call is made while its codec
context has room. -/
theorem allAccepted_iff_room_left (capacity : Nat) (labels : List Label)
    (service : EncoderService)
    (execution : (machineOver capacity).run labels initial = some service) :
    (machineOver capacity).Always AllAccepted initial labels ↔
      (machineOver capacity).Guarded (RoomLeft capacity) initial labels :=
  Machine.always_iff_guarded
    (fun recorded step => step_recorded recorded (Machine.restrict_step_eq_some.mp step).2)
    (fun recorded accepted step =>
      have enabled := Machine.restrict_step_eq_some.mp step
      step_allAccepted_iff recorded accepted enabled.1 enabled.2)
    initial_recorded (by simp [AllAccepted, initial]) execution

/-- The equivalence when the media thread receives the packet of a frame before the next frame. -/
theorem allAccepted_with_a_receive_between :
    (machineOver 1).Always AllAccepted initial
      [.prepareFrame 0 0, .writeFrame 0 (.accepted [7]), .beginDispatch, .takePending,
        .receivePacket (.packet 1), .prepareFrame 0 0, .writeFrame 1 (.accepted [8])] :=
  (allAccepted_iff_room_left 1 _ _ rfl).mpr (by decide)

/-- Two frames before the media thread wakes up: a codec with room for one frame ignores the
second. -/
theorem second_frame_is_dropped :
    ¬ ∀ (capacity : Nat) (labels : List Label) (service : EncoderService), 1 ≤ capacity →
      (machineOver capacity).run labels initial = some service → AllAccepted service := by
  intro all_accepted
  obtain ⟨service, execution, submitted, accepted⟩ : ∃ service,
      (machineOver 1).run
        [.prepareFrame 0 0, .writeFrame 0 (.accepted [7]), .prepareFrame 0 0,
          .writeFrame 1 .refused] initial = some service ∧
        service.submitted = [0, 0] ∧ (service.codecs 0).accepted = [0] := ⟨_, rfl, rfl, rfl⟩
  have once := all_accepted 1 _ service (by decide) execution 1 0 (by simp [submitted])
  rw [accepted] at once
  cases once

end EncoderService
end ShadowCast
