import Mathlib.Algebra.Group.Nat.Defs
import Mathlib.Algebra.Ring.Int.Defs
import ShadowCast.DynamicBuffer
import ShadowCast.Machine

/-!
# Audio capture: PipeWire callback, event counter and chunk dispatch

`onProcess` runs on the PipeWire thread and `dispatchChunks` on the audio loop; both hold
`data_mutex_` while they touch the input buffer, so one callback is one step and one iteration of
the dispatch loop is one step.  The eventfd is a counter which `notify` adds to and the first
statement of a dispatch reads and clears.
-/

namespace ShadowCast

/-- Sample formats, interleaved and planar. -/
inductive SampleFormat
  | u8Interleaved
  | s16Interleaved
  | s32Interleaved
  | floatInterleaved
  | doubleInterleaved
  | s64Interleaved
  | u8Planar
  | s16Planar
  | s32Planar
  | floatPlanar
  | doublePlanar
  | s64Planar
  deriving DecidableEq, Repr

def isInterleavedFormat : SampleFormat → Bool
  | .u8Interleaved | .s16Interleaved | .s32Interleaved => true
  | .floatInterleaved | .doubleInterleaved | .s64Interleaved => true
  | _ => false

/-- Bytes of one sample of one channel. -/
def sampleFormatSize : SampleFormat → Nat
  | .u8Interleaved | .u8Planar => 1
  | .s16Interleaved | .s16Planar => 2
  | .s32Interleaved | .s32Planar => 4
  | .floatInterleaved | .floatPlanar => 4
  | .doubleInterleaved | .doublePlanar | .s64Interleaved | .s64Planar => 8

/-- The sample formats of libav. -/
inductive AVSampleFormat
  | none
  | u8
  | s16
  | s32
  | flt
  | dbl
  | u8p
  | s16p
  | s32p
  | fltp
  | dblp
  | s64
  | s64p
  deriving DecidableEq, Repr

def convertToLibavFormat : SampleFormat → AVSampleFormat
  | .u8Interleaved => .u8
  | .s16Interleaved => .s16
  | .s32Interleaved => .s32
  | .floatInterleaved => .flt
  | .doubleInterleaved => .dbl
  | .s64Interleaved => .s64
  | .u8Planar => .u8p
  | .s16Planar => .s16p
  | .s32Planar => .s32p
  | .floatPlanar => .fltp
  | .doublePlanar => .dblp
  | .s64Planar => .s64p

def convertFromLibavFormat : AVSampleFormat → Except String SampleFormat
  | .u8 => .ok .u8Interleaved
  | .s16 => .ok .s16Interleaved
  | .s32 => .ok .s32Interleaved
  | .flt => .ok .floatInterleaved
  | .dbl => .ok .doubleInterleaved
  | .s64 => .ok .s64Interleaved
  | .u8p => .ok .u8Planar
  | .s16p => .ok .s16Planar
  | .s32p => .ok .s32Planar
  | .fltp => .ok .floatPlanar
  | .dblp => .ok .doublePlanar
  | .s64p => .ok .s64Planar
  | .none => .error "Unsupported libav sample format"

@[simp]
theorem convertFromLibavFormat_convertTo (format : SampleFormat) :
    convertFromLibavFormat (convertToLibavFormat format) = .ok format := by
  cases format <;> rfl

/-- Bytes of one sample in one channel buffer; an interleaved buffer holds both channels. -/
def stride (format : SampleFormat) : Nat :=
  if isInterleavedFormat format then sampleFormatSize format * 2 else sampleFormatSize format

/-- Captured samples and the channel buffers which hold their bytes. -/
structure MediaChunk where
  sampleCount : Nat
  channelBuffers : List DynamicBuffer
  deriving DecidableEq, Repr

/-- One empty buffer for an interleaved format, one for each of the two channels otherwise. -/
def prepareBufferChannels (format : SampleFormat) : List DynamicBuffer :=
  if isInterleavedFormat format then [.new] else [.new, .new]

/-- A dequeued PipeWire buffer: the valid bytes of each of its data blocks. -/
structure PwBuffer where
  datas : List (List UInt8)
  deriving DecidableEq, Repr

namespace PwBuffer

/-- `datas[0].chunk->size`, which is taken as the size of every block. -/
def numBytes (buffer : PwBuffer) : Nat := (buffer.datas.headD []).length

/-- Samples found in block 0. -/
def numSamples (format : SampleFormat) (buffer : PwBuffer) : Nat :=
  if isInterleavedFormat format then
    buffer.numBytes / 2 / sampleFormatSize format
  else
    buffer.numBytes / sampleFormatSize format

/-- The spans the callback copies from: `numBytes` bytes of every block. -/
def sources (buffer : PwBuffer) : List (List UInt8) :=
  buffer.datas.map fun block => block.takeD buffer.numBytes 0

end PwBuffer

/-- The audio frame submitted to the encoder. -/
structure AudioFrame where
  pts : Int
  nbSamples : Int
  format : AVSampleFormat
  sampleRate : Nat
  /-- The planes of the frame. -/
  data : List (List UInt8)
  deriving DecidableEq, Repr

/-- Contract checks and assertions whose failure terminates the process, and undefined reads. -/
inductive Fault
  /-- `channel_data.size() == channel_buffers().size()` fails in the callback. -/
  | channelMismatch
  /-- Division by a frame size of zero in the callback. -/
  | zeroFrameSize
  /-- A dispatch finds the event counter at zero. -/
  | noFrames
  /-- `sample_count >= frame_size_` fails at the head of an iteration. -/
  | starved
  /-- `chunk.sample_count >= frame_size_` fails in the chunk writer. -/
  | writerStarved
  /-- The copied range of a channel exceeds its committed bytes. -/
  | overread
  /-- An assertion of a channel buffer fails. -/
  | bufferAssertion
  deriving DecidableEq, Repr

/-- What the allocations on the way to the encoder do. -/
inductive FrameOutcome
  | written
  | prepareThrows
  | bufferThrows
  deriving DecidableEq, Repr

/-- The chunk listener which turns captured chunks into frames. -/
structure ChunkWriter where
  codecSampleFmt : AVSampleFormat
  codecSampleRate : Nat
  frameSize : Nat
  totalSamplesWritten : Int
  deriving DecidableEq, Repr

/-- Result of one call of the chunk listener. -/
inductive WriteResult
  | aborted (fault : Fault)
  | threw (writer : ChunkWriter)
  | submitted (writer : ChunkWriter) (frame : AudioFrame)

/-- The first `numBytes` committed bytes of each channel, unless a channel holds fewer. -/
def copyChannels (numBytes : Nat) (buffers : List DynamicBuffer) : Option (List (List UInt8)) :=
  if ∀ buffer ∈ buffers, numBytes ≤ buffer.data.length then
    some (buffers.map fun buffer => buffer.data.take numBytes)
  else
    none

namespace ChunkWriter

/-- The frame size as the `int` field `nb_samples` stores it. -/
def nbSamples (writer : ChunkWriter) : Int := Int.bmod writer.frameSize (2 ^ 32)

/-- Bytes copied from each channel buffer, computed in `size_t`. -/
def numBytes (writer : ChunkWriter) (format : SampleFormat) : Nat :=
  if isInterleavedFormat format then
    (writer.nbSamples * sampleFormatSize format * 2 % 2 ^ 64).toNat
  else
    (writer.nbSamples * sampleFormatSize format % 2 ^ 64).toNat

/-- `ChunkWriter::operator()`. -/
def call (writer : ChunkWriter) (chunk : MediaChunk) (outcome : FrameOutcome) : WriteResult :=
  if chunk.sampleCount < writer.frameSize then
    .aborted .writerStarved
  else
    match convertFromLibavFormat writer.codecSampleFmt with
    | .error _ => .threw writer
    | .ok format =>
        let counted :=
          { writer with totalSamplesWritten := writer.totalSamplesWritten + writer.nbSamples }
        match outcome with
        | .prepareThrows => .threw writer
        | .bufferThrows => .threw counted
        | .written =>
            match copyChannels (writer.numBytes format) chunk.channelBuffers with
            | none => .aborted .overread
            | some data =>
                .submitted counted
                  { pts := writer.totalSamplesWritten
                    nbSamples := writer.nbSamples
                    format := writer.codecSampleFmt
                    sampleRate := writer.codecSampleRate
                    data }

end ChunkWriter

/-- How the audio service is doing. -/
inductive AudioStatus
  | running
  /-- An exception left a dispatch; the loop never dispatches again. -/
  | threw
  /-- The process terminated. -/
  | aborted (fault : Fault)
  deriving DecidableEq, Repr

/-- The parameters of an audio service. -/
structure AudioService where
  sampleFormat : SampleFormat
  sampleRate : Nat
  frameSize : Nat
  deriving DecidableEq, Repr

/-- What the callback, the dispatch loop and the chunk listener share. -/
structure AudioState where
  inputBuffer : MediaChunk
  /-- Counter of the service's eventfd. -/
  event : Nat
  /-- Iterations the running dispatch still owes, zero when no dispatch is running. -/
  numFrames : Nat
  chunkListener : Option ChunkWriter
  /-- Frames submitted to the encoder, oldest first. -/
  submitted : List AudioFrame
  status : AudioStatus
  deriving DecidableEq, Repr

/-- Append one source to each channel buffer. -/
def appendChannels : List DynamicBuffer → List (List UInt8) → Option (List DynamicBuffer)
  | buffer :: buffers, source :: sources =>
      (buffer.append source).bind fun appended =>
        (appendChannels buffers sources).map (appended :: ·)
  | buffers, _ => some buffers

/-- Consume `n` bytes from the first buffer, and from the others unless the format is
interleaved. -/
def consumeChannels (interleaved : Bool) (n : Nat) :
    List DynamicBuffer → Option (List DynamicBuffer)
  | [] => some []
  | buffer :: buffers =>
      (buffer.consume n).bind fun consumed =>
        if interleaved then
          some (consumed :: buffers)
        else
          (consumeChannels interleaved n buffers).map (consumed :: ·)

/-- Each channel buffer and its ledger hold the same pending bytes. -/
def Held (buffers : List DynamicBuffer) (ledgers : List (Ledger UInt8)) : Prop :=
  List.Forall₂ DynamicBuffer.Represents buffers ledgers

theorem prepareBufferChannels_held (format : SampleFormat) :
    Held (prepareBufferChannels format)
      ((prepareBufferChannels format).map fun _ => Ledger.empty) := by
  unfold Held prepareBufferChannels
  split <;> simp [DynamicBuffer.new_represents]

/-- Appending to the channel buffers never fails, and refines entering their queues. -/
theorem appendChannels_held {buffers : List DynamicBuffer} {ledgers : List (Ledger UInt8)}
    (held : Held buffers ledgers) {sources : List (List UInt8)}
    (one_each : sources.length = buffers.length) :
    ∃ after, appendChannels buffers sources = some after ∧
      Held after (List.zipWith Ledger.push ledgers sources) := by
  induction held generalizing sources with
  | nil =>
      obtain rfl : sources = [] := by simpa using one_each
      exact ⟨[], rfl, List.Forall₂.nil⟩
  | @cons buffer ledger buffers ledgers represents _ ih =>
      cases sources with
      | nil => simp at one_each
      | cons source sources =>
          obtain ⟨appended, appended_eq, -⟩ := DynamicBuffer.append_spec represents.1 source
          obtain ⟨after, after_eq, after_held⟩ := ih (by simpa using one_each)
          refine ⟨appended :: after, by simp [appendChannels, appended_eq, after_eq], ?_⟩
          exact List.Forall₂.cons (DynamicBuffer.append_represents represents appended_eq)
            after_held

/-- The effect of an iteration on the ledgers of the channels. -/
def popChannels (interleaved : Bool) (n : Nat) : List (Ledger UInt8) → List (Ledger UInt8)
  | [] => []
  | ledger :: ledgers =>
      ledger.pop n :: if interleaved then ledgers else popChannels interleaved n ledgers

/-- Consuming from the channel buffers refines leaving their queues. -/
theorem consumeChannels_held {interleaved : Bool} {n : Nat} {buffers after : List DynamicBuffer}
    {ledgers : List (Ledger UInt8)} (held : Held buffers ledgers)
    (consumed : consumeChannels interleaved n buffers = some after) :
    Held after (popChannels interleaved n ledgers) := by
  induction held generalizing after with
  | nil =>
      obtain rfl : [] = after := by simpa [consumeChannels] using consumed
      exact List.Forall₂.nil
  | @cons buffer ledger buffers ledgers represents rest ih =>
      rw [consumeChannels, Option.bind_eq_some_iff] at consumed
      obtain ⟨first, first_eq, tail_eq⟩ := consumed
      have first_represents := DynamicBuffer.consume_represents represents first_eq
      cases interleaved with
      | true =>
          obtain rfl : first :: buffers = after := by simpa using tail_eq
          exact List.Forall₂.cons first_represents rest
      | false =>
          obtain ⟨others, others_eq, rfl⟩ : ∃ others,
              consumeChannels false n buffers = some others ∧ first :: others = after := by
            simpa using tail_eq
          exact List.Forall₂.cons first_represents (ih others_eq)

/-- Consuming no more than every channel buffer holds never fails. -/
theorem consumeChannels_isSome (interleaved : Bool) {n : Nat} {buffers : List DynamicBuffer}
    (enough : ∀ buffer ∈ buffers, n ≤ buffer.size) :
    ∃ after, consumeChannels interleaved n buffers = some after := by
  induction buffers with
  | nil => exact ⟨[], rfl⟩
  | cons buffer buffers ih =>
      obtain ⟨others, others_eq⟩ := ih fun other member => enough other (by simp [member])
      obtain ⟨first, first_eq⟩ : ∃ first, buffer.consume n = some first :=
        ⟨_, if_pos (enough buffer (by simp))⟩
      cases interleaved with
      | true => exact ⟨first :: buffers, by simp [consumeChannels, first_eq]⟩
      | false => exact ⟨first :: others, by simp [consumeChannels, first_eq, others_eq]⟩

namespace AudioService

/-- The state in which `on_init` leaves the service. -/
def initial (service : AudioService) (chunkListener : Option ChunkWriter) : AudioState where
  inputBuffer :=
    { sampleCount := 0
      channelBuffers := prepareBufferChannels service.sampleFormat }
  event := 0
  numFrames := 0
  chunkListener
  submitted := []
  status := .running

/-- `AudioService::notify`: add to the event counter. -/
def notify (frames : Nat) (state : AudioState) : AudioState :=
  { state with event := state.event + frames }

/-- Terminate the process and leave everything as it is. -/
def abort (fault : Fault) (state : AudioState) : AudioState :=
  { state with status := .aborted fault }

/-- The PipeWire callback; `none` is a missing buffer or one without data. -/
def onProcess (service : AudioService) (state : AudioState) : Option PwBuffer → AudioState
  | none => state
  | some buffer =>
      if buffer.datas.length ≠ state.inputBuffer.channelBuffers.length then
        abort .channelMismatch state
      else
        match appendChannels state.inputBuffer.channelBuffers buffer.sources with
        | none => abort .bufferAssertion state
        | some channelBuffers =>
            let sampleCount :=
              state.inputBuffer.sampleCount + buffer.numSamples service.sampleFormat
            let appended := { state with inputBuffer := { sampleCount, channelBuffers } }
            if sampleCount < service.frameSize then
              appended
            else if service.frameSize = 0 then
              abort .zeroFrameSize appended
            else
              notify (sampleCount / service.frameSize) appended

/-- Start of `dispatch_chunks`: read and clear the event counter. -/
def beginDispatch (state : AudioState) : AudioState :=
  if state.event = 0 then
    abort .noFrames state
  else
    { state with
      event := 0
      numFrames := if state.chunkListener.isSome then state.event else 0 }

/-- Bytes an iteration consumes from a channel buffer. -/
def frameBytes (service : AudioService) : Nat :=
  if isInterleavedFormat service.sampleFormat then
    sampleFormatSize service.sampleFormat * service.frameSize * 2
  else
    sampleFormatSize service.sampleFormat * service.frameSize

/-- One locked iteration of `dispatch_chunks`. -/
def iterate (service : AudioService) (state : AudioState) (outcome : FrameOutcome) : AudioState :=
  if state.inputBuffer.sampleCount < service.frameSize then
    abort .starved state
  else
    match state.chunkListener with
    | none => state
    | some writer =>
        match writer.call state.inputBuffer outcome with
        | .aborted fault => abort fault state
        | .threw writer =>
            { state with numFrames := 0, chunkListener := some writer, status := .threw }
        | .submitted writer frame =>
            let written :=
              { state with
                chunkListener := some writer
                submitted := state.submitted ++ [frame] }
            match consumeChannels (isInterleavedFormat service.sampleFormat) service.frameBytes
                state.inputBuffer.channelBuffers with
            | none => abort .bufferAssertion written
            | some channelBuffers =>
                { written with
                  inputBuffer :=
                    { sampleCount := state.inputBuffer.sampleCount - service.frameSize
                      channelBuffers }
                  numFrames := state.numFrames - 1 }

/-- The callback on a buffer with one block for each channel buffer: the bytes enter every channel,
the samples are counted, and whole frames are announced. -/
theorem onProcess_spec (service : AudioService) {state : AudioState}
    {ledgers : List (Ledger UInt8)} (held : Held state.inputBuffer.channelBuffers ledgers)
    {buffer : PwBuffer}
    (one_each : buffer.datas.length = state.inputBuffer.channelBuffers.length) :
    ∃ appended, appended.inputBuffer.sampleCount =
        state.inputBuffer.sampleCount + buffer.numSamples service.sampleFormat ∧
      Held appended.inputBuffer.channelBuffers
        (List.zipWith Ledger.push ledgers buffer.sources) ∧
      appended = { state with inputBuffer := appended.inputBuffer } ∧
      service.onProcess state (some buffer) =
        if appended.inputBuffer.sampleCount < service.frameSize then
          appended
        else if service.frameSize = 0 then
          abort .zeroFrameSize appended
        else
          notify (appended.inputBuffer.sampleCount / service.frameSize) appended := by
  have one_source_each : buffer.sources.length = state.inputBuffer.channelBuffers.length := by
    simp [PwBuffer.sources, one_each]
  obtain ⟨after, after_eq, after_held⟩ := appendChannels_held held one_source_each
  refine ⟨{ state with inputBuffer :=
    { sampleCount := state.inputBuffer.sampleCount + buffer.numSamples service.sampleFormat
      channelBuffers := after } }, rfl, after_held, rfl, ?_⟩
  simp [onProcess, one_each, after_eq]

/-- What the scheduler and the environment choose. -/
inductive Label
  /-- The PipeWire thread runs the callback. -/
  | onProcess (buffer : Option PwBuffer)
  /-- The audio loop finds the eventfd readable and starts a dispatch. -/
  | beginDispatch
  /-- The running dispatch performs one iteration. -/
  | iterate (outcome : FrameOutcome)
  deriving DecidableEq, Repr

/-- One atomic step; a terminated process takes none. -/
def step (service : AudioService) (state : AudioState) : Label → Option AudioState
  | .onProcess buffer =>
      match state.status with
      | .aborted _ => none
      | _ => some (service.onProcess state buffer)
  | .beginDispatch =>
      if state.status = .running ∧ state.numFrames = 0 ∧ 0 < state.event then
        some (beginDispatch state)
      else
        none
  | .iterate outcome =>
      if state.status = .running ∧ 0 < state.numFrames then
        some (service.iterate state outcome)
      else
        none

/-- Callback and dispatch loop under every interleaving. -/
def machine (service : AudioService) : Machine AudioState Label := ⟨service.step⟩

end AudioService

end ShadowCast
