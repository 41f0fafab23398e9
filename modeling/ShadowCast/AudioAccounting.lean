import ShadowCast.AudioService
import Mathlib.Tactic.Ring
import Mathlib.Tactic.Linarith

/-!
# Notification accounting of the audio service

A callback announces every whole frame in the buffer, including frames announced before, while the
eventfd adds announcements up.  The balance therefore survives a callback which announces exactly
when nothing announced earlier is still outstanding.
-/

namespace ShadowCast
namespace AudioService

/-- Frames announced and not yet consumed: in the event counter or owed by the running dispatch. -/
def outstanding (state : AudioState) : Nat := state.event + state.numFrames

/-- Every outstanding frame is in the buffer. -/
def Balanced (service : AudioService) (state : AudioState) : Prop :=
  outstanding state * service.frameSize ≤ state.inputBuffer.sampleCount

/-- The accounting holds, and the check at the head of an iteration has not failed. -/
def Accounted (service : AudioService) (state : AudioState) : Prop :=
  Balanced service state ∧ state.status ≠ .aborted .starved

/-- The callback on this buffer appends it and finds at least one whole frame. -/
def Notifies (service : AudioService) (state : AudioState) (buffer : PwBuffer) : Prop :=
  buffer.datas.length = state.inputBuffer.channelBuffers.length ∧
    service.frameSize ≤
      state.inputBuffer.sampleCount + buffer.numSamples service.sampleFormat

/-- A callback which announces frames runs only when no announced frame is outstanding. -/
def NotifiesWhenDrained (service : AudioService) (state : AudioState) : Label → Prop
  | .onProcess (some buffer) => Notifies service state buffer → outstanding state = 0
  | _ => True

instance (service : AudioService) : DecidablePred (Accounted service) := fun state =>
  inferInstanceAs (Decidable
    (outstanding state * service.frameSize ≤ state.inputBuffer.sampleCount ∧
      state.status ≠ .aborted .starved))

instance (service : AudioService) (state : AudioState) (buffer : PwBuffer) :
    Decidable (Notifies service state buffer) := inferInstanceAs (Decidable (_ ∧ _))

instance (service : AudioService) (state : AudioState) :
    (label : Label) → Decidable (NotifiesWhenDrained service state label)
  | .onProcess (some buffer) =>
      inferInstanceAs (Decidable (Notifies service state buffer → outstanding state = 0))
  | .onProcess none => isTrue trivial
  | .beginDispatch => isTrue trivial
  | .iterate _ => isTrue trivial

/-- Some assignment of ledgers fits the channel buffers: none of them is malformed. -/
def BuffersHeld (state : AudioState) : Prop :=
  ∃ ledgers, Held state.inputBuffer.channelBuffers ledgers

/-- Announcing all whole frames again keeps the balance exactly when nothing was outstanding. -/
theorem announce_balanced_iff {event owed frameSize count : Nat} (frameSize_pos : 0 < frameSize) :
    (event + count / frameSize + owed) * frameSize ≤ count ↔ event + owed = 0 := by
  constructor
  · intro balanced
    by_contra some_outstanding
    have at_least : count / frameSize + 1 ≤ event + count / frameSize + owed := by omega
    have too_many : (count / frameSize + 1) * frameSize ≤ count :=
      (Nat.mul_le_mul_right frameSize at_least).trans balanced
    have too_few : count < (count / frameSize + 1) * frameSize := by
      rw [Nat.mul_comm]
      exact Nat.lt_mul_div_succ count frameSize_pos
    exact absurd too_many (Nat.not_le.mpr too_few)
  · intro none_outstanding
    obtain ⟨rfl, rfl⟩ : event = 0 ∧ owed = 0 := by omega
    simpa using Nat.div_mul_le_self count frameSize

/-- Only the contract checks and the copy of the chunk writer abort inside its call. -/
theorem call_aborted {writer : ChunkWriter} {chunk : MediaChunk} {outcome : FrameOutcome}
    {fault : Fault} (aborted : writer.call chunk outcome = .aborted fault) :
    fault = .writerStarved ∨ fault = .overread := by
  unfold ChunkWriter.call at aborted
  grind

/-- What an iteration which passes its check does to the accounting and to the buffers. -/
theorem iterate_spec (service : AudioService) {state : AudioState} (outcome : FrameOutcome)
    (running : state.status = .running)
    (enough : service.frameSize ≤ state.inputBuffer.sampleCount) (held : BuffersHeld state) :
    (service.iterate state outcome).event = state.event ∧
      (service.iterate state outcome).status ≠ .aborted .starved ∧
      BuffersHeld (service.iterate state outcome) ∧
      ((service.iterate state outcome).inputBuffer = state.inputBuffer ∧
          (service.iterate state outcome).numFrames ≤ state.numFrames ∨
        (service.iterate state outcome).inputBuffer.sampleCount =
            state.inputBuffer.sampleCount - service.frameSize ∧
          (service.iterate state outcome).numFrames = state.numFrames - 1) := by
  cases listener : state.chunkListener with
  | none => simp [iterate, Nat.not_lt.mpr enough, listener, running, held]
  | some writer =>
      cases call : writer.call state.inputBuffer outcome with
      | aborted fault =>
          have other_check : fault ≠ .starved := by
            rcases call_aborted call with rfl | rfl <;> decide
          simp only [iterate, Nat.not_lt.mpr enough, listener, call, if_false]
          simpa [abort, other_check, BuffersHeld] using held
      | threw writer =>
          simp only [iterate, Nat.not_lt.mpr enough, listener, call, if_false]
          simpa [BuffersHeld] using held
      | submitted writer frame =>
          simp only [iterate, Nat.not_lt.mpr enough, listener, call, if_false]
          cases consumed : consumeChannels (isInterleavedFormat service.sampleFormat)
              service.frameBytes state.inputBuffer.channelBuffers with
          | none => simpa [abort, BuffersHeld] using held
          | some channelBuffers =>
              obtain ⟨ledgers, ledgers_held⟩ := held
              refine ⟨rfl, by simp [running], ⟨_, consumeChannels_held ledgers_held consumed⟩, ?_⟩
              exact Or.inr ⟨rfl, rfl⟩

/-- The callback keeps the accounting exactly when it announces frames with none outstanding. -/
theorem onProcess_accounted_iff (service : AudioService) (frameSize_pos : 0 < service.frameSize)
    {state : AudioState} (held : BuffersHeld state) (accounted : Accounted service state)
    (buffer : PwBuffer) :
    Accounted service (service.onProcess state (some buffer)) ↔
      (Notifies service state buffer → outstanding state = 0) := by
  obtain ⟨balanced, not_starved⟩ := accounted
  by_cases one_each : buffer.datas.length = state.inputBuffer.channelBuffers.length
  · obtain ⟨ledgers, ledgers_held⟩ := held
    obtain ⟨appended, count_eq, -, appended_eq, result⟩ :=
      service.onProcess_spec ledgers_held one_each
    have same_event : appended.event = state.event := by rw [appended_eq]
    have same_owed : appended.numFrames = state.numFrames := by rw [appended_eq]
    have same_status : appended.status = state.status := by rw [appended_eq]
    rw [result, if_neg frameSize_pos.ne']
    split
    · rename_i too_few
      have still_balanced : Balanced service appended := by
        unfold Balanced outstanding at balanced ⊢
        rw [same_event, same_owed, count_eq]
        omega
      have silent : ¬ Notifies service state buffer := by
        unfold Notifies
        omega
      simp [Accounted, still_balanced, same_status, not_starved, silent]
    · rename_i enough
      have notifies : Notifies service state buffer := ⟨one_each, by omega⟩
      simp only [Accounted, Balanced, outstanding, notify, same_event, same_owed, same_status,
        not_starved, notifies, ne_eq, not_false_eq_true, and_true, true_implies]
      exact announce_balanced_iff frameSize_pos
  · have mismatch : service.onProcess state (some buffer) = abort .channelMismatch state := by
      simp [onProcess, one_each]
    have silent : ¬ Notifies service state buffer := fun notifies => one_each notifies.1
    rw [mismatch]
    simpa [Accounted, Balanced, outstanding, abort, silent] using balanced

/-- Appending to channel buffers which are well-formed leaves them so, however many blocks there
are. -/
theorem onProcess_buffersHeld (service : AudioService) {state : AudioState}
    (held : BuffersHeld state) (buffer : Option PwBuffer) :
    BuffersHeld (service.onProcess state buffer) := by
  cases buffer with
  | none => exact held
  | some buffer =>
      by_cases one_each : buffer.datas.length = state.inputBuffer.channelBuffers.length
      · obtain ⟨ledgers, ledgers_held⟩ := held
        obtain ⟨appended, -, appended_held, -, result⟩ :=
          service.onProcess_spec ledgers_held one_each
        have still_held : BuffersHeld appended := ⟨_, appended_held⟩
        rw [result]
        split
        · exact still_held
        · split
          · exact still_held
          · exact still_held
      · simpa [onProcess, one_each, abort, BuffersHeld] using held

theorem initial_buffersHeld (service : AudioService) (chunkListener : Option ChunkWriter) :
    BuffersHeld (service.initial chunkListener) :=
  ⟨_, prepareBufferChannels_held service.sampleFormat⟩

/-- An enabled start of a dispatch moves the announced frames to the dispatch, which owes them if
a chunk listener is installed. -/
theorem beginDispatch_accounted (service : AudioService) {state : AudioState}
    (announced : 0 < state.event) (drained : state.numFrames = 0)
    (accounted : Accounted service state) : Accounted service (beginDispatch state) := by
  obtain ⟨balanced, not_starved⟩ := accounted
  have some_event : state.event ≠ 0 := by omega
  refine ⟨?_, by simpa [beginDispatch, some_event] using not_starved⟩
  unfold Balanced outstanding at balanced ⊢
  simp only [beginDispatch, some_event, if_false]
  split
  · simpa [drained] using balanced
  · simp

/-- An iteration owed by a balanced dispatch passes its check and keeps the accounting. -/
theorem iterate_accounted (service : AudioService) {state : AudioState} (outcome : FrameOutcome)
    (running : state.status = .running) (owed : 0 < state.numFrames) (held : BuffersHeld state)
    (accounted : Accounted service state) : Accounted service (service.iterate state outcome) := by
  have balanced : (state.event + state.numFrames) * service.frameSize ≤
      state.inputBuffer.sampleCount := accounted.1
  have one_frame : service.frameSize ≤ state.inputBuffer.sampleCount := by
    calc
      service.frameSize = 1 * service.frameSize := (Nat.one_mul _).symm
      _ ≤ (state.event + state.numFrames) * service.frameSize :=
        Nat.mul_le_mul_right _ (by omega)
      _ ≤ state.inputBuffer.sampleCount := balanced
  obtain ⟨same_event, not_starved, -, progress⟩ :=
    service.iterate_spec outcome running one_frame held
  refine ⟨?_, not_starved⟩
  unfold Balanced outstanding
  rw [same_event]
  rcases progress with ⟨same_buffer, fewer⟩ | ⟨count_eq, owed_eq⟩
  · rw [same_buffer]
    exact (Nat.mul_le_mul_right _ (by omega)).trans balanced
  · rw [count_eq, owed_eq]
    have consumed_one : (state.event + (state.numFrames - 1)) * service.frameSize +
        service.frameSize = (state.event + state.numFrames) * service.frameSize := by
      obtain ⟨rest, owed_split⟩ : ∃ rest, state.numFrames = rest + 1 :=
        ⟨state.numFrames - 1, by omega⟩
      rw [owed_split, Nat.add_sub_cancel]
      ring
    omega

/-- Channel buffers stay well-formed in accounted states. -/
theorem step_buffersHeld (service : AudioService) {state after : AudioState} {label : Label}
    (held : BuffersHeld state) (step : service.step state label = some after) :
    BuffersHeld after := by
  cases label with
  | onProcess buffer =>
      simp only [AudioService.step] at step
      split at step
      · cases step
      · obtain rfl := Option.some.inj step
        exact service.onProcess_buffersHeld held buffer
  | beginDispatch =>
      simp only [AudioService.step] at step
      split at step
      · obtain rfl := Option.some.inj step
        unfold AudioService.beginDispatch
        split
        · exact held
        · exact held
      · cases step
  | iterate outcome =>
      simp only [AudioService.step] at step
      split at step
      · rename_i enabled
        obtain rfl := Option.some.inj step
        by_cases enough : service.frameSize ≤ state.inputBuffer.sampleCount
        · exact (service.iterate_spec outcome enabled.1 enough held).2.2.1
        · simpa [AudioService.iterate, Nat.lt_of_not_le enough, abort, BuffersHeld] using held
      · cases step

/-- One step keeps the accounting exactly when it meets the condition on announcements. -/
theorem step_accounted_iff (service : AudioService) (frameSize_pos : 0 < service.frameSize)
    {state after : AudioState} {label : Label} (held : BuffersHeld state)
    (accounted : Accounted service state) (step : service.step state label = some after) :
    Accounted service after ↔ NotifiesWhenDrained service state label := by
  cases label with
  | onProcess buffer =>
      simp only [AudioService.step] at step
      split at step
      · cases step
      · obtain rfl := Option.some.inj step
        cases buffer with
        | none => simpa [onProcess, NotifiesWhenDrained] using accounted
        | some buffer => exact service.onProcess_accounted_iff frameSize_pos held accounted buffer
  | beginDispatch =>
      simp only [AudioService.step] at step
      split at step
      · rename_i enabled
        obtain rfl := Option.some.inj step
        exact iff_of_true
          (beginDispatch_accounted service enabled.2.2 enabled.2.1 accounted) trivial
      · cases step
  | iterate outcome =>
      simp only [AudioService.step] at step
      split at step
      · rename_i enabled
        obtain rfl := Option.some.inj step
        exact iff_of_true
          (service.iterate_accounted outcome enabled.1 enabled.2 held accounted) trivial
      · cases step

/-- The accounting holds all along a run exactly when every callback which announces frames runs
with no announced frame outstanding. -/
theorem accounted_iff_notifies_when_drained (service : AudioService)
    (frameSize_pos : 0 < service.frameSize) (writer : ChunkWriter) (labels : List Label)
    (state : AudioState)
    (execution : service.machine.run labels (service.initial (some writer)) = some state) :
    service.machine.Always (Accounted service) (service.initial (some writer)) labels ↔
      service.machine.Guarded (NotifiesWhenDrained service) (service.initial (some writer))
        labels :=
  Machine.always_iff_guarded
    (fun held step => service.step_buffersHeld held step)
    (fun held accounted step => service.step_accounted_iff frameSize_pos held accounted step)
    (service.initial_buffersHeld (some writer))
    ⟨by simp [Balanced, outstanding, initial], by simp [initial]⟩ execution

/-- A planar format of one byte a sample, and frames of one sample. -/
def byteService : AudioService := ⟨.u8Planar, 48000, 1⟩

/-- The chunk writer installed over `byteService`. -/
def byteWriter : ChunkWriter := ⟨.u8p, 48000, 1, 0⟩

/-- One sample for each of the two channels. -/
def oneSample : PwBuffer := ⟨[[1], [2]]⟩

/-- The equivalence on a run which dispatches between two callbacks. -/
theorem accounted_with_a_dispatch_between :
    byteService.machine.Always (Accounted byteService) (byteService.initial (some byteWriter))
      [.onProcess (some oneSample), .beginDispatch, .iterate .written,
        .onProcess (some oneSample)] :=
  (accounted_iff_notifies_when_drained byteService (by decide) byteWriter _ _ rfl).mpr (by decide)

/-- Two callbacks before the loop wakes up announce three frames for two samples, and the third
iteration fails its check. -/
theorem two_callbacks_starve_the_dispatch :
    ¬ ∀ (service : AudioService), 0 < service.frameSize →
      ∀ (writer : ChunkWriter) (labels : List Label) (state : AudioState),
        service.machine.run labels (service.initial (some writer)) = some state →
          Accounted service state := by
  intro always_accounted
  obtain ⟨last, execution, starved⟩ : ∃ last,
      byteService.machine.run
        [.onProcess (some oneSample), .onProcess (some oneSample), .beginDispatch,
          .iterate .written, .iterate .written, .iterate .written]
        (byteService.initial (some byteWriter)) = some last ∧
      last.status = .aborted .starved := ⟨_, rfl, rfl⟩
  exact (always_accounted byteService (by decide) byteWriter _ last execution).2 starved

end AudioService
end ShadowCast
