import ShadowCast.AudioService
import Mathlib.Data.List.Forall2
import Mathlib.Data.List.TakeDrop
import Mathlib.Tactic.Ring
import Mathlib.Tactic.Linarith

/-!
# Conservation of captured audio

Every channel is a queue of bytes: the callback enters the bytes of one data block, an iteration of
the dispatch copies one frame of bytes into the submitted frame and takes them out.  The ledgers of
the channels tie the captured bytes, the submitted planes and the channel buffers together.
-/

namespace ShadowCast

/-- The opened audio codec of a session. -/
structure AudioCodec where
  /-- The most preferred format which the codec supports. -/
  supportedFormat : SampleFormat
  sampleRate : Nat
  /-- `AVCodecContext::frame_size`, zero for a codec which accepts frames of any size. -/
  frameSize : Nat
  /-- The field is an `int`. -/
  frameSize_lt : frameSize < 2 ^ 31

namespace AudioCodec

/-- The frame size shared by the service and the chunk writer. -/
def sessionFrameSize (codec : AudioCodec) : Nat :=
  if codec.frameSize ≠ 0 then codec.frameSize else 2048

/-- The audio service which `run` and `run_wayland` add to the audio context. -/
def audioService (codec : AudioCodec) : AudioService where
  sampleFormat := codec.supportedFormat
  sampleRate := codec.sampleRate
  frameSize := codec.sessionFrameSize

/-- The chunk writer which `run` and `run_wayland` install as the chunk listener. -/
def chunkWriter (codec : AudioCodec) : ChunkWriter where
  codecSampleFmt := convertToLibavFormat codec.supportedFormat
  codecSampleRate := codec.sampleRate
  frameSize := codec.sessionFrameSize
  totalSamplesWritten := 0

theorem sessionFrameSize_lt (codec : AudioCodec) : codec.sessionFrameSize < 2 ^ 31 := by
  have codec_lt := codec.frameSize_lt
  unfold sessionFrameSize
  split <;> omega

end AudioCodec

/-- One data block for each channel buffer, all of the size of block 0, which is a whole number of
samples. -/
def PwBuffer.Aligned (format : SampleFormat) (buffer : PwBuffer) : Prop :=
  buffer.datas.length = (prepareBufferChannels format).length ∧
    (∀ block ∈ buffer.datas, block.length = buffer.numBytes) ∧ stride format ∣ buffer.numBytes

instance (format : SampleFormat) (buffer : PwBuffer) : Decidable (buffer.Aligned format) :=
  inferInstanceAs (Decidable (_ ∧ _ ∧ _))

/-- The callback copies the blocks of an aligned buffer as they are. -/
theorem PwBuffer.sources_eq {format : SampleFormat} {buffer : PwBuffer}
    (aligned : buffer.Aligned format) : buffer.sources = buffer.datas := by
  obtain ⟨-, same_size, -⟩ := aligned
  unfold PwBuffer.sources
  conv_rhs => rw [← List.map_id buffer.datas]
  refine List.map_congr_left fun block member => ?_
  rw [← same_size block member]
  exact List.takeD_eq_take 0 (Nat.le_refl _) |>.trans (List.take_length)

/-- The callback counts the samples of an aligned buffer exactly. -/
theorem PwBuffer.numSamples_mul_stride {format : SampleFormat} {buffer : PwBuffer}
    (aligned : buffer.Aligned format) :
    buffer.numSamples format * stride format = buffer.numBytes := by
  obtain ⟨-, -, whole⟩ := aligned
  unfold PwBuffer.numSamples
  unfold stride at whole ⊢
  split
  · rename_i interleaved
    simp only [interleaved, if_true] at whole
    rw [Nat.div_div_eq_div_mul, Nat.mul_comm 2]
    exact Nat.div_mul_cancel whole
  · rename_i planar
    simp only [planar] at whole
    exact Nat.div_mul_cancel whole

namespace AudioService

/-- Every captured buffer is aligned. -/
def Label.Aligned (format : SampleFormat) : Label → Prop
  | .onProcess (some buffer) => buffer.Aligned format
  | _ => True

instance (format : SampleFormat) : (label : Label) → Decidable (label.Aligned format)
  | .onProcess (some buffer) => inferInstanceAs (Decidable (buffer.Aligned format))
  | .onProcess none => isTrue trivial
  | .beginDispatch => isTrue trivial
  | .iterate _ => isTrue trivial

/-- The bytes which a step captures for a channel. -/
def Label.captured (channel : Nat) : Label → List UInt8
  | .onProcess (some buffer) => buffer.datas.getD channel []
  | _ => []

/-- The bytes captured for a channel so far. -/
def captured (labels : List Label) (channel : Nat) : List UInt8 :=
  labels.flatMap (Label.captured channel)

/-- The bytes of a channel in the frames submitted so far. -/
def copied (frames : List AudioFrame) (channel : Nat) : List UInt8 :=
  frames.flatMap fun frame => frame.data.getD channel []

/-- What a reader of the frames and of the buffers can rely on after the labels of a run. -/
structure Conserved (service : AudioService) (labels : List Label) (state : AudioState) : Prop where
  /-- One buffer when interleaved, two otherwise. -/
  channels : state.inputBuffer.channelBuffers.length =
    (prepareBufferChannels service.sampleFormat).length
  /-- Each buffer holds the bytes of the counted samples. -/
  sizes : ∀ buffer ∈ state.inputBuffer.channelBuffers,
    buffer.size = state.inputBuffer.sampleCount * stride service.sampleFormat ∧
      buffer.data.length = buffer.size
  /-- The copied bytes and then the buffered bytes of a channel are its captured bytes. -/
  order : ∀ channel buffer, state.inputBuffer.channelBuffers[channel]? = some buffer →
    copied state.submitted channel ++ buffer.data = captured labels channel
  /-- A frame has one plane for each channel, of the length it was allocated for. -/
  planes : ∀ frame ∈ state.submitted,
    frame.data.length = state.inputBuffer.channelBuffers.length ∧
      ∀ plane ∈ frame.data, plane.length = service.frameBytes
  /-- Frames are stamped with the samples before them. -/
  pts : ∀ (k : Nat) (frame : AudioFrame), state.submitted[k]? = some frame →
    frame.pts = k * service.frameSize
  /-- No copy or consumption went past the end of a buffer. -/
  inBounds : state.status ≠ .aborted .overread ∧ state.status ≠ .aborted .bufferAssertion

/-- A frame takes its samples' bytes from each buffer. -/
theorem frameBytes_eq (service : AudioService) :
    service.frameBytes = service.frameSize * stride service.sampleFormat := by
  unfold frameBytes stride
  split <;> ring

theorem nbSamples_chunkWriter {writer : ChunkWriter} (small : writer.frameSize < 2 ^ 31) :
    writer.nbSamples = writer.frameSize := by
  unfold ChunkWriter.nbSamples
  rw [Int.bmod_eq_of_le_mul_two] <;> omega

/-- The writer copies what the dispatch consumes. -/
theorem numBytes_eq_frameBytes {service : AudioService} {writer : ChunkWriter}
    (small : writer.frameSize < 2 ^ 31) (same_size : writer.frameSize = service.frameSize) :
    writer.numBytes service.sampleFormat = service.frameBytes := by
  have size_le : sampleFormatSize service.sampleFormat ≤ 8 := by
    cases service.sampleFormat <;> decide
  have bytes_le : service.frameSize * sampleFormatSize service.sampleFormat ≤ 2 ^ 31 * 8 :=
    Nat.mul_le_mul (by omega) size_le
  unfold ChunkWriter.numBytes frameBytes
  rw [nbSamples_chunkWriter small, same_size]
  split
  · rw [← Int.natCast_mul, Nat.mul_comm (sampleFormatSize service.sampleFormat)]
    omega
  · rw [← Int.natCast_mul, Nat.mul_comm (sampleFormatSize service.sampleFormat)]
    omega

theorem popChannels_eq_map {interleaved : Bool} {n : Nat} {ledgers : List (Ledger UInt8)}
    (one_channel : interleaved = true → ledgers.length ≤ 1) :
    popChannels interleaved n ledgers = ledgers.map fun ledger => ledger.pop n := by
  induction ledgers with
  | nil => rfl
  | cons ledger ledgers ih =>
      cases interleaved with
      | true =>
          obtain rfl : ledgers = [] := by simpa using one_channel rfl
          rfl
      | false => simpa [popChannels] using ih (by simp)

/-- The history of one channel: what it captured, what was copied, and how much is pending. -/
structure Accounts (service : AudioService) (labels : List Label) (state : AudioState)
    (channel : Nat) (ledger : Ledger UInt8) : Prop where
  entered : ledger.entered = captured labels channel
  left : ledger.left = copied state.submitted channel
  inside : ledger.inside.length = state.inputBuffer.sampleCount * stride service.sampleFormat

/-- The inductive form of `Conserved`. -/
structure Carried (service : AudioService) (labels : List Label) (state : AudioState) : Prop where
  ledgers : ∃ ledgers, Held state.inputBuffer.channelBuffers ledgers ∧
    ledgers.length = (prepareBufferChannels service.sampleFormat).length ∧
    ∀ channel ledger, ledgers[channel]? = some ledger →
      Accounts service labels state channel ledger
  frames : ∀ (k : Nat) (frame : AudioFrame), state.submitted[k]? = some frame →
    frame.pts = k * service.frameSize ∧
      frame.data.length = (prepareBufferChannels service.sampleFormat).length ∧
      ∀ plane ∈ frame.data, plane.length = service.frameBytes
  listener : state.status = .running → ∃ writer, state.chunkListener = some writer ∧
    writer.codecSampleFmt = convertToLibavFormat service.sampleFormat ∧
    writer.frameSize = service.frameSize ∧
    writer.totalSamplesWritten = state.submitted.length * service.frameSize
  inBounds : state.status ≠ .aborted .overread ∧ state.status ≠ .aborted .bufferAssertion

/-- The invariant says what a reader needs. -/
theorem Carried.conserved {service : AudioService} {labels : List Label} {state : AudioState}
    (carried : Carried service labels state) : Conserved service labels state := by
  obtain ⟨ledgers, held, one_each, accounts⟩ := carried.ledgers
  have channels : state.inputBuffer.channelBuffers.length =
      (prepareBufferChannels service.sampleFormat).length := held.length_eq.trans one_each
  have at_channel : ∀ (channel : Nat) (buffer : DynamicBuffer),
      state.inputBuffer.channelBuffers[channel]? = some buffer →
      ∃ ledger, ledgers[channel]? = some ledger ∧ buffer.Represents ledger := by
    intro channel buffer found
    obtain ⟨in_range, rfl⟩ := List.getElem?_eq_some_iff.mp found
    have in_range' : channel < ledgers.length := held.length_eq ▸ in_range
    exact ⟨ledgers[channel], List.getElem?_eq_getElem in_range', held.get in_range in_range'⟩
  refine ⟨channels, ?_, ?_, ?_, fun k frame found => (carried.frames k frame found).1,
    carried.inBounds⟩
  · intro buffer member
    obtain ⟨channel, in_range, rfl⟩ := List.getElem_of_mem member
    obtain ⟨ledger, found, wellFormed, same⟩ :=
      at_channel channel _ (List.getElem?_eq_getElem in_range)
    have length_eq := DynamicBuffer.data_length wellFormed
    refine ⟨?_, length_eq⟩
    rw [← length_eq, same, (accounts channel ledger found).inside]
  · intro channel buffer found
    obtain ⟨ledger, ledger_found, -, same⟩ := at_channel channel buffer found
    have account := accounts channel ledger ledger_found
    rw [same, ← account.left, ← account.entered, ledger.balanced]
  · intro frame member
    obtain ⟨k, in_range, rfl⟩ := List.getElem_of_mem member
    obtain ⟨-, planes, plane_length⟩ := carried.frames k _ (List.getElem?_eq_getElem in_range)
    exact ⟨planes.trans channels.symm, plane_length⟩

theorem initial_carried (codec : AudioCodec) :
    Carried codec.audioService [] (codec.audioService.initial (some codec.chunkWriter)) where
  ledgers := by
    refine ⟨_, prepareBufferChannels_held _, by simp, fun channel ledger found => ?_⟩
    obtain ⟨-, -, rfl⟩ := List.mem_map.mp (List.mem_of_getElem? found)
    exact ⟨rfl, rfl, by simp [initial]⟩
  frames := by simp [initial]
  listener := fun _ => ⟨codec.chunkWriter, rfl, rfl, rfl, by simp [initial, AudioCodec.chunkWriter]⟩
  inBounds := by simp [initial]

/-- A step which captures nothing and touches neither the buffers, the frames nor the listener. -/
theorem Carried.frame {service : AudioService} {labels : List Label} {label : Label}
    {state after : AudioState} (carried : Carried service labels state)
    (silent : ∀ channel, label.captured channel = [])
    (same_buffer : after.inputBuffer = state.inputBuffer)
    (same_frames : after.submitted = state.submitted)
    (same_listener : after.status = .running →
      state.status = .running ∧ after.chunkListener = state.chunkListener)
    (inBounds : after.status ≠ .aborted .overread ∧ after.status ≠ .aborted .bufferAssertion) :
    Carried service (labels ++ [label]) after where
  ledgers := by
    obtain ⟨ledgers, held, one_each, accounts⟩ := carried.ledgers
    refine ⟨ledgers, same_buffer ▸ held, one_each, fun channel ledger found => ?_⟩
    have account := accounts channel ledger found
    refine ⟨?_, same_frames ▸ account.left, same_buffer ▸ account.inside⟩
    simpa [captured, silent] using account.entered
  frames := same_frames ▸ carried.frames
  listener := fun running => by
    obtain ⟨was_running, same_writer⟩ := same_listener running
    rw [same_writer, same_frames]
    exact carried.listener was_running
  inBounds := inBounds

/-- The callback on an aligned buffer enters each block in the queue of its channel. -/
theorem onProcess_carried {service : AudioService} {labels : List Label} {state : AudioState}
    (carried : Carried service labels state) {buffer : PwBuffer}
    (aligned : buffer.Aligned service.sampleFormat) :
    Carried service (labels ++ [.onProcess (some buffer)])
      (service.onProcess state (some buffer)) := by
  obtain ⟨ledgers, held, one_each, accounts⟩ := carried.ledgers
  have blocks : buffer.datas.length = ledgers.length := aligned.1.trans one_each.symm
  obtain ⟨appended, count_eq, appended_held, appended_eq, result⟩ :=
    service.onProcess_spec held (blocks.trans held.length_eq.symm)
  have same_frames : appended.submitted = state.submitted := by rw [appended_eq]
  have same_listener : appended.chunkListener = state.chunkListener := by rw [appended_eq]
  have same_status : appended.status = state.status := by rw [appended_eq]
  have carried_of_same : ∀ after : AudioState, after.inputBuffer = appended.inputBuffer →
      after.submitted = appended.submitted → after.chunkListener = appended.chunkListener →
      (after.status = appended.status ∨ after.status = .aborted .zeroFrameSize) →
      Carried service (labels ++ [.onProcess (some buffer)]) after := by
    intro after after_buffer after_frames after_listener after_status
    refine ⟨⟨_, after_buffer ▸ appended_held, ?_, ?_⟩, ?_, ?_, ?_⟩
    · simp [PwBuffer.sources, blocks, one_each]
    · intro channel ledger found
      rw [PwBuffer.sources_eq aligned, List.getElem?_zipWith_eq_some] at found
      obtain ⟨before, block, before_found, block_found, rfl⟩ := found
      have account := accounts channel before before_found
      have block_length := aligned.2.1 block (List.mem_of_getElem? block_found)
      refine ⟨?_, ?_, ?_⟩
      · simp [captured, Label.captured, block_found, account.entered]
      · simp [account.left, after_frames, same_frames]
      · rw [after_buffer, count_eq, Nat.add_mul, PwBuffer.numSamples_mul_stride aligned]
        simp [account.inside, block_length]
    · rw [after_frames, same_frames]
      exact carried.frames
    · intro running
      rw [after_listener, same_listener, after_frames, same_frames]
      rcases after_status with same | stopped
      · exact carried.listener (same_status ▸ same ▸ running)
      · rw [stopped] at running
        cases running
    · rcases after_status with same | stopped
      · rw [same, same_status]
        exact carried.inBounds
      · simp [stopped]
  rw [result]
  split
  · exact carried_of_same appended rfl rfl rfl (Or.inl rfl)
  · split
    · exact carried_of_same _ rfl rfl rfl (Or.inr rfl)
    · exact carried_of_same _ rfl rfl rfl (Or.inl rfl)

/-- One iteration with the session's chunk writer: nothing happens to the buffers, or one frame of
bytes leaves each queue and becomes a plane of the submitted frame. -/
theorem iterate_cases {service : AudioService} {labels : List Label} {state : AudioState}
    (small : service.frameSize < 2 ^ 31) (carried : Carried service labels state)
    (running : state.status = .running) (outcome : FrameOutcome) :
    ((service.iterate state outcome).inputBuffer = state.inputBuffer ∧
        (service.iterate state outcome).submitted = state.submitted ∧
        ((service.iterate state outcome).status = .aborted .starved ∨
          (service.iterate state outcome).status = .threw)) ∨
      ∃ writer buffers, service.frameSize ≤ state.inputBuffer.sampleCount ∧
        state.chunkListener = some writer ∧
        (∀ buffer ∈ state.inputBuffer.channelBuffers, service.frameBytes ≤ buffer.data.length) ∧
        consumeChannels (isInterleavedFormat service.sampleFormat) service.frameBytes
          state.inputBuffer.channelBuffers = some buffers ∧
        service.iterate state outcome =
          { state with
            inputBuffer :=
              { sampleCount := state.inputBuffer.sampleCount - service.frameSize
                channelBuffers := buffers }
            numFrames := state.numFrames - 1
            chunkListener := some
              { writer with
                totalSamplesWritten := writer.totalSamplesWritten + service.frameSize }
            submitted := state.submitted ++
              [{ pts := writer.totalSamplesWritten
                 nbSamples := service.frameSize
                 format := writer.codecSampleFmt
                 sampleRate := writer.codecSampleRate
                 data := state.inputBuffer.channelBuffers.map fun buffer =>
                   buffer.data.take service.frameBytes }] } := by
  obtain ⟨writer, listener, same_format, same_size, -⟩ := carried.listener running
  have writer_small : writer.frameSize < 2 ^ 31 := same_size ▸ small
  by_cases enough : service.frameSize ≤ state.inputBuffer.sampleCount
  · have covered : ∀ buffer ∈ state.inputBuffer.channelBuffers,
        service.frameBytes ≤ buffer.size ∧ service.frameBytes ≤ buffer.data.length := by
      intro buffer member
      obtain ⟨size_eq, length_eq⟩ := carried.conserved.sizes buffer member
      have bytes_le : service.frameBytes ≤ buffer.size := by
        rw [frameBytes_eq, size_eq]
        exact Nat.mul_le_mul_right _ enough
      exact ⟨bytes_le, length_eq ▸ bytes_le⟩
    obtain ⟨buffers, consumed⟩ := consumeChannels_isSome
      (isInterleavedFormat service.sampleFormat) fun buffer member => (covered buffer member).1
    have copied_eq : copyChannels (writer.numBytes service.sampleFormat)
        state.inputBuffer.channelBuffers =
          some (state.inputBuffer.channelBuffers.map fun buffer =>
            buffer.data.take service.frameBytes) := by
      rw [numBytes_eq_frameBytes writer_small same_size]
      exact if_pos fun buffer member => (covered buffer member).2
    cases outcome with
    | prepareThrows =>
        left
        simp [iterate, Nat.not_lt.mpr enough, listener, ChunkWriter.call, same_format, same_size]
    | bufferThrows =>
        left
        simp [iterate, Nat.not_lt.mpr enough, listener, ChunkWriter.call, same_format, same_size]
    | written =>
        right
        refine ⟨writer, buffers, enough, listener, fun buffer member => (covered buffer member).2,
          consumed, ?_⟩
        simp [iterate, Nat.not_lt.mpr enough, listener, ChunkWriter.call, same_format, copied_eq,
          consumed, nbSamples_chunkWriter writer_small, same_size]
  · left
    simp [iterate, Nat.lt_of_not_le enough, abort]

/-- An iteration moves one frame of bytes from the queues into the next submitted frame. -/
theorem iterate_carried {service : AudioService} {labels : List Label} {state : AudioState}
    (small : service.frameSize < 2 ^ 31) (carried : Carried service labels state)
    (running : state.status = .running) (outcome : FrameOutcome) :
    Carried service (labels ++ [.iterate outcome]) (service.iterate state outcome) := by
  have silent : ∀ channel, (Label.iterate outcome).captured channel = [] := fun _ => rfl
  rcases iterate_cases small carried running outcome with
    ⟨same_buffer, same_frames, stopped⟩ |
      ⟨writer, buffers, enough, listener, covered, consumed, result⟩
  · refine carried.frame silent same_buffer same_frames ?_ ?_
    · rcases stopped with stopped | stopped <;> simp [stopped]
    · rcases stopped with stopped | stopped <;> simp [stopped]
  · obtain ⟨ledgers, held, one_each, accounts⟩ := carried.ledgers
    obtain ⟨writer', listener', same_format, same_size, total⟩ := carried.listener running
    obtain rfl : writer = writer' := Option.some.inj (listener.symm.trans listener')
    have one_channel : isInterleavedFormat service.sampleFormat = true → ledgers.length ≤ 1 := by
      intro interleaved
      simp [one_each, prepareBufferChannels, interleaved]
    rw [result]
    refine ⟨⟨ledgers.map fun ledger => ledger.pop service.frameBytes, ?_, by simpa using one_each,
      ?_⟩, ?_, ?_, by simp [running]⟩
    · rw [← popChannels_eq_map one_channel]
      exact consumeChannels_held held consumed
    · intro channel ledger found
      rw [List.getElem?_map, Option.map_eq_some_iff] at found
      obtain ⟨before, before_found, rfl⟩ := found
      have account := accounts channel before before_found
      obtain ⟨in_range, rfl⟩ := List.getElem?_eq_some_iff.mp before_found
      have buffer_in_range : channel < state.inputBuffer.channelBuffers.length :=
        held.length_eq.symm ▸ in_range
      have same : (state.inputBuffer.channelBuffers[channel]).data = ledgers[channel].inside :=
        (held.get buffer_in_range in_range).2
      refine ⟨?_, ?_, ?_⟩
      · simpa [captured, silent] using account.entered
      · simp [copied, account.left, buffer_in_range, same]
      · simp [account.inside, frameBytes_eq, Nat.sub_mul]
    · intro k frame found
      rw [List.getElem?_append] at found
      split at found
      · exact carried.frames k frame found
      · rename_i past_end
        rw [List.getElem?_singleton] at found
        split at found
        · rename_i at_end
          obtain rfl := Option.some.inj found
          obtain rfl : k = state.submitted.length := by omega
          refine ⟨total, by simpa [one_each] using held.length_eq, ?_⟩
          intro plane member
          obtain ⟨buffer, buffer_member, rfl⟩ := List.mem_map.mp member
          exact List.length_take_of_le (covered buffer buffer_member)
        · cases found
    · intro _
      refine ⟨_, rfl, same_format, same_size, ?_⟩
      simp [total, Int.add_mul]

/-- Every step keeps the invariant. -/
theorem step_carried {service : AudioService} {labels : List Label} {state after : AudioState}
    {label : Label} (small : service.frameSize < 2 ^ 31) (carried : Carried service labels state)
    (aligned : label.Aligned service.sampleFormat)
    (step : service.step state label = some after) : Carried service (labels ++ [label]) after := by
  cases label with
  | onProcess buffer =>
      simp only [AudioService.step] at step
      split at step
      · cases step
      · obtain rfl := Option.some.inj step
        cases buffer with
        | none =>
            exact carried.frame (fun _ => rfl) rfl rfl (fun running => ⟨running, rfl⟩)
              carried.inBounds
        | some buffer => exact onProcess_carried carried aligned
  | beginDispatch =>
      simp only [AudioService.step] at step
      split at step
      · rename_i enabled
        obtain rfl := Option.some.inj step
        have some_event : state.event ≠ 0 := by omega
        simp only [AudioService.beginDispatch, some_event, if_false]
        exact carried.frame (fun _ => rfl) rfl rfl (fun running => ⟨running, rfl⟩) carried.inBounds
      · cases step
  | iterate outcome =>
      simp only [AudioService.step] at step
      split at step
      · rename_i enabled
        obtain rfl := Option.some.inj step
        exact iterate_carried small carried enabled.1 outcome
      · cases step

/-- Captured audio is conserved in every run of a session on aligned buffers. -/
theorem audio_conserved (codec : AudioCodec) (labels : List Label) (state : AudioState)
    (aligned : ∀ label ∈ labels, label.Aligned codec.supportedFormat)
    (execution : codec.audioService.machine.run labels
      (codec.audioService.initial (some codec.chunkWriter)) = some state) :
    Conserved codec.audioService labels state :=
  (Machine.run_history (P := Carried codec.audioService)
    (fun carried label_aligned step =>
      step_carried codec.sessionFrameSize_lt carried label_aligned step)
    (initial_carried codec) aligned execution).conserved

/-- A codec of planar 16-bit samples in frames of two. -/
def pairCodec : AudioCodec := ⟨.s16Planar, 48000, 2, by decide⟩

/-- Three samples for each of two channels. -/
def threeSamples : PwBuffer := ⟨[[1, 2, 3, 4, 5, 6], [7, 8, 9, 10, 11, 12]]⟩

/-- Conservation in a run which submits one frame and keeps one sample. -/
theorem audio_conserved_with_a_sample_left :
    ∃ state, pairCodec.audioService.machine.run
        [.onProcess (some threeSamples), .beginDispatch, .iterate .written]
        (pairCodec.audioService.initial (some pairCodec.chunkWriter)) = some state ∧
      state.submitted.length = 1 ∧ state.inputBuffer.sampleCount = 1 ∧
      Conserved pairCodec.audioService
        [.onProcess (some threeSamples), .beginDispatch, .iterate .written] state :=
  ⟨_, rfl, rfl, rfl, audio_conserved pairCodec _ _ (by decide) rfl⟩

end AudioService

end ShadowCast
