import ShadowCast.Ledger
import ShadowCast.Machine
import Mathlib.Logic.Function.Basic

/-!
# The encoder service

Producers prepare `StreamPoll` items, fill their frames and hand them to `write_frame`; the media
thread dispatches them.  Every section under `data_mutex_` is one step.  A codec context is a queue
of packets: what an accepted frame adds to it, and whether a frame is accepted at all, is up to the
codec and is given by the label.
-/

namespace ShadowCast

/-- The frame pointer of a `StreamPoll`. -/
inductive FrameSlot
  /-- A null pointer, as `flush` leaves it. -/
  | null
  /-- A frame without references to data. -/
  | blank
  /-- A frame which refers to data. -/
  | filled
  deriving DecidableEq, Repr

/-- A pool item; its pointers are null until `prepare_frame` sets them. -/
structure StreamPoll where
  /-- The address of the item. -/
  id : Nat
  codecCtx : Option Nat
  stream : Option Nat
  frame : FrameSlot
  deriving DecidableEq, Repr

/-- `StreamPoll::reset`: null pointers, and a frame without references. -/
def StreamPoll.reset (item : StreamPoll) : StreamPoll :=
  { item with codecCtx := none, stream := none, frame := .blank }

/-- An item which `write_frame` has taken over, with the number of that call. -/
structure Submission where
  id : Nat
  codecCtx : Nat
  stream : Nat
  frame : FrameSlot
  number : Nat
  deriving DecidableEq, Repr

/-- The item, as it goes back to the pool. -/
def Submission.item (submission : Submission) : StreamPoll :=
  ⟨submission.id, some submission.codecCtx, some submission.stream, submission.frame⟩

/-- What `avcodec_send_frame` does with a frame. -/
inductive SendResponse
  /-- The frame is accepted, and these packets become available. -/
  | accepted (packets : List Nat)
  /-- An error code; the frame is ignored. -/
  | refused
  deriving DecidableEq, Repr

/-- What `avcodec_receive_packet` returns. -/
inductive ReceiveResponse
  /-- A packet, the last one of `retires` frames. -/
  | packet (retires : Nat)
  /-- `AVERROR(EAGAIN)` or `AVERROR_EOF`. -/
  | drained
  | failed
  deriving DecidableEq, Repr

/-- A codec context and its history. -/
structure CodecContext where
  /-- The `write_frame` calls whose frames were accepted. -/
  accepted : List Nat
  /-- The `write_frame` calls whose frames were refused. -/
  refused : List Nat
  /-- Number of accepted frames all of whose packets have been received. -/
  retired : Nat
  /-- The codec's packets, in output order. -/
  output : Ledger Nat

namespace CodecContext

/-- A freshly opened context. -/
def new : CodecContext := ⟨[], [], 0, Ledger.empty⟩

/-- Accepted frames whose packets have not been received. -/
def held (codec : CodecContext) : Nat := codec.accepted.length - codec.retired

/-- `avcodec_send_frame` for the call with this number. -/
def sendFrame (codec : CodecContext) (number : Nat) : SendResponse → CodecContext
  | .accepted packets =>
      { codec with
        accepted := codec.accepted ++ [number]
        output := codec.output.push packets }
  | .refused => { codec with refused := codec.refused ++ [number] }

/-- `avcodec_receive_packet` when it returns a packet. -/
def receivePacket (codec : CodecContext) (retires : Nat) : CodecContext :=
  { codec with retired := codec.retired + retires, output := codec.output.pop 1 }

@[simp]
theorem sendFrame_left (codec : CodecContext) (number : Nat) (response : SendResponse) :
    (codec.sendFrame number response).output.left = codec.output.left := by
  cases response <;> rfl

end CodecContext

/-- A packet passed to `av_interleaved_write_frame`. -/
structure WrittenPacket where
  /-- The context it was received from. -/
  codecCtx : Nat
  packet : Nat
  streamIndex : Nat
  deriving DecidableEq, Repr

/-- Where the running call of `dispatch` is. -/
inductive DispatchPhase
  | idle
  /-- Before the splice of `pending_`. -/
  | starting
  /-- Before `avcodec_receive_packet` for the item at this position of `tmp`. -/
  | polling (position : Nat)
  /-- A packet for the item at this position is about to be written. -/
  | writing (position packet : Nat)
  /-- The guard returns the items to the pool; `threw` if an exception passes through. -/
  | returning (threw : Bool)
  deriving DecidableEq, Repr

/-- The service between `on_init` and the end of `on_uninit`. -/
inductive Lifecycle
  | active
  /-- `on_uninit` performs its dispatch. -/
  | closing
  | closed
  deriving DecidableEq, Repr

/-- The encoder service, its codec contexts and the output file. -/
structure EncoderService where
  codecs : Nat → CodecContext
  /-- Items in the pool. -/
  pool : List StreamPoll
  /-- Items held by the producers. -/
  hands : List StreamPoll
  pending : List Submission
  /-- Items of the running dispatch. -/
  tmp : List Submission
  phase : DispatchPhase
  lifecycle : Lifecycle
  /-- Number of items allocated so far. -/
  allocated : Nat
  /-- The codec context of each `write_frame` call, oldest first. -/
  submitted : List Nat
  /-- The `write_frame` calls whose items have been polled until the codec had no more packets. -/
  polled : List Nat
  /-- The packets written, oldest first. -/
  written : List WrittenPacket

namespace EncoderService

/-- The service before any frame is prepared. -/
def initial : EncoderService where
  codecs := fun _ => .new
  pool := []
  hands := []
  pending := []
  tmp := []
  phase := .idle
  lifecycle := .active
  allocated := 0
  submitted := []
  polled := []
  written := []

/-- What the threads and the codecs choose. -/
inductive Label
  /-- `pool_.fill` allocates one more item. -/
  | fill
  | prepareFrame (codecCtx stream : Nat)
  /-- The holder of an item lets its frame refer to data. -/
  | fillFrame (id : Nat)
  /-- The holder of an item resets its frame pointer, as `flush` does. -/
  | resetFrame (id : Nat)
  /-- The holder of an item drops it. -/
  | dropFrame (id : Nat)
  /-- The locked section of `write_frame`. -/
  | writeFrame (id : Nat) (response : SendResponse)
  | beginDispatch
  /-- The locked splice of `pending_`. -/
  | takePending
  /-- The locked call of `avcodec_receive_packet`. -/
  | receivePacket (response : ReceiveResponse)
  /-- `av_interleaved_write_frame`. -/
  | writePacket (succeeds : Bool)
  /-- The loop over `tmp` has come to its end. -/
  | finishLoop
  /-- The guard puts the next item back into the pool. -/
  | returnItem
  | endDispatch
  /-- `on_uninit` starts its dispatch. -/
  | beginUninit
  deriving DecidableEq, Repr

/-- The item which `pool_.get` returns: the first of the pool, reset, or a new one. -/
def poolItem (service : EncoderService) : StreamPoll :=
  match service.pool with
  | item :: _ => item.reset
  | [] => ⟨service.allocated, none, none, .blank⟩

/-- `Encoder::prepare_frame`. -/
def prepareFrame (service : EncoderService) (codecCtx stream : Nat) : EncoderService :=
  { service with
    pool := service.pool.tail
    allocated := if service.pool.isEmpty then service.allocated + 1 else service.allocated
    hands := service.hands ++
      [{ service.poolItem with codecCtx := some codecCtx, stream := some stream }] }

/-- Change the frame of an item in a producer's hands. -/
def setFrame (service : EncoderService) (id : Nat) (frame : FrameSlot) : EncoderService :=
  { service with
    hands := service.hands.map fun item => if item.id = id then { item with frame } else item }

/-- The locked section of `write_frame`: send the frame, ignore the result, queue the item. -/
def writeFrame (service : EncoderService) (item : StreamPoll) (codecCtx stream : Nat)
    (response : SendResponse) : EncoderService :=
  { service with
    codecs := Function.update service.codecs codecCtx
      ((service.codecs codecCtx).sendFrame service.submitted.length response)
    hands := service.hands.filter (·.id ≠ item.id)
    pending := service.pending ++
      [⟨item.id, codecCtx, stream, item.frame, service.submitted.length⟩]
    submitted := service.submitted ++ [codecCtx] }

/-- `avcodec_receive_packet` for an item of `tmp`, and the branches on its response. -/
def receivePacket (service : EncoderService) (position : Nat) (submission : Submission) :
    ReceiveResponse → Option EncoderService
  | .packet retires =>
      match (service.codecs submission.codecCtx).output.inside with
      | packet :: _ =>
          if retires ≤ (service.codecs submission.codecCtx).held then
            some
              { service with
                codecs := Function.update service.codecs submission.codecCtx
                  ((service.codecs submission.codecCtx).receivePacket retires)
                phase := .writing position packet }
          else
            none
      | [] => none
  | .drained =>
      if (service.codecs submission.codecCtx).output.inside = [] then
        some
          { service with
            phase := .polling (position + 1)
            polled := service.polled ++ [submission.number] }
      else
        none
  | .failed => some { service with phase := .returning true }

/-- The end of `dispatch`, and of `on_uninit` if it made the call: an exception is swallowed there
before the pool is cleared. -/
def leaveDispatch (service : EncoderService) (threw : Bool) : EncoderService :=
  { service with
    phase := .idle
    lifecycle := if service.lifecycle = .closing then .closed else service.lifecycle
    pool := if service.lifecycle = .closing ∧ threw = false then [] else service.pool }

/-- One atomic step of a producer or of the media thread. -/
def step (service : EncoderService) : Label → Option EncoderService
  | .fill =>
      some
        { service with
          pool := service.pool ++ [⟨service.allocated, none, none, .blank⟩]
          allocated := service.allocated + 1 }
  | .prepareFrame codecCtx stream => some (service.prepareFrame codecCtx stream)
  | .fillFrame id => some (service.setFrame id .filled)
  | .resetFrame id => some (service.setFrame id .null)
  | .dropFrame id =>
      match service.hands.find? (·.id = id) with
      | some item =>
          some
            { service with
              hands := service.hands.filter (·.id ≠ id)
              pool := service.pool ++ [item] }
      | none => none
  | .writeFrame id response =>
      match service.hands.find? (·.id = id) with
      | some item =>
          match item.codecCtx, item.stream with
          | some codecCtx, some stream => some (service.writeFrame item codecCtx stream response)
          | _, _ => none
      | none => none
  | .beginDispatch =>
      if service.phase = .idle ∧ service.lifecycle = .active then
        some { service with phase := .starting }
      else
        none
  | .takePending =>
      if service.phase = .starting then
        some { service with tmp := service.pending, pending := [], phase := .polling 0 }
      else
        none
  | .receivePacket response =>
      match service.phase with
      | .polling position =>
          match service.tmp[position]? with
          | some submission => service.receivePacket position submission response
          | none => none
      | _ => none
  | .writePacket succeeds =>
      match service.phase with
      | .writing position packet =>
          match service.tmp[position]? with
          | some submission =>
              if succeeds then
                some
                  { service with
                    phase := .polling position
                    written := service.written ++
                      [⟨submission.codecCtx, packet, submission.stream⟩] }
              else
                some { service with phase := .returning true }
          | none => none
      | _ => none
  | .finishLoop =>
      match service.phase with
      | .polling position =>
          if service.tmp.length ≤ position then
            some { service with phase := .returning false }
          else
            none
      | _ => none
  | .returnItem =>
      match service.phase, service.tmp with
      | .returning _, submission :: rest =>
          some { service with tmp := rest, pool := service.pool ++ [submission.item] }
      | _, _ => none
  | .endDispatch =>
      match service.phase with
      | .returning threw =>
          if service.tmp = [] then
            some (service.leaveDispatch threw)
          else
            none
      | _ => none
  | .beginUninit =>
      if service.phase = .idle ∧ service.lifecycle = .active then
        some { service with phase := .starting, lifecycle := .closing }
      else
        none

/-- Producers and media thread under every interleaving. -/
def machine : Machine EncoderService Label := ⟨step⟩

theorem step_dropFrame {service after : EncoderService} {id : Nat} :
    service.step (.dropFrame id) = some after ↔
      ∃ item, service.hands.find? (·.id = id) = some item ∧
        { service with
          hands := service.hands.filter (·.id ≠ id)
          pool := service.pool ++ [item] } = after := by
  simp only [step]
  grind

theorem step_writeFrame {service after : EncoderService} {id : Nat} {response : SendResponse} :
    service.step (.writeFrame id response) = some after ↔
      ∃ item codecCtx stream, service.hands.find? (·.id = id) = some item ∧
        item.codecCtx = some codecCtx ∧ item.stream = some stream ∧
        service.writeFrame item codecCtx stream response = after := by
  simp only [step]
  grind

theorem step_beginDispatch {service after : EncoderService} :
    service.step .beginDispatch = some after ↔
      service.phase = .idle ∧ service.lifecycle = .active ∧
        { service with phase := .starting } = after := by
  simp [step, and_assoc]

theorem step_takePending {service after : EncoderService} :
    service.step .takePending = some after ↔
      service.phase = .starting ∧
        { service with tmp := service.pending, pending := [], phase := .polling 0 } = after := by
  simp [step]

theorem step_receivePacket {service after : EncoderService} {response : ReceiveResponse} :
    service.step (.receivePacket response) = some after ↔
      ∃ position submission, service.phase = .polling position ∧
        service.tmp[position]? = some submission ∧
        service.receivePacket position submission response = some after := by
  simp only [step]
  grind

theorem receivePacket_packet {service after : EncoderService} {position retires : Nat}
    {submission : Submission} :
    service.receivePacket position submission (.packet retires) = some after ↔
      ∃ packet rest, (service.codecs submission.codecCtx).output.inside = packet :: rest ∧
        retires ≤ (service.codecs submission.codecCtx).held ∧
        { service with
          codecs := Function.update service.codecs submission.codecCtx
            ((service.codecs submission.codecCtx).receivePacket retires)
          phase := .writing position packet } = after := by
  simp only [receivePacket]
  grind

theorem receivePacket_drained {service after : EncoderService} {position : Nat}
    {submission : Submission} :
    service.receivePacket position submission .drained = some after ↔
      (service.codecs submission.codecCtx).output.inside = [] ∧
        { service with
          phase := .polling (position + 1)
          polled := service.polled ++ [submission.number] } = after := by
  simp [receivePacket]

theorem step_writePacket {service after : EncoderService} {succeeds : Bool} :
    service.step (.writePacket succeeds) = some after ↔
      ∃ position packet submission, service.phase = .writing position packet ∧
        service.tmp[position]? = some submission ∧
        (if succeeds then
          { service with
            phase := .polling position
            written := service.written ++ [⟨submission.codecCtx, packet, submission.stream⟩] }
        else
          { service with phase := .returning true }) = after := by
  simp only [step]
  grind

theorem step_finishLoop {service after : EncoderService} :
    service.step .finishLoop = some after ↔
      ∃ position, service.phase = .polling position ∧ service.tmp.length ≤ position ∧
        { service with phase := .returning false } = after := by
  simp only [step]
  grind

theorem step_returnItem {service after : EncoderService} :
    service.step .returnItem = some after ↔
      ∃ threw submission rest, service.phase = .returning threw ∧
        service.tmp = submission :: rest ∧
        { service with tmp := rest, pool := service.pool ++ [submission.item] } = after := by
  simp only [step]
  grind

theorem step_endDispatch {service after : EncoderService} :
    service.step .endDispatch = some after ↔
      ∃ threw, service.phase = .returning threw ∧ service.tmp = [] ∧
        service.leaveDispatch threw = after := by
  simp only [step]
  grind

theorem step_beginUninit {service after : EncoderService} :
    service.step .beginUninit = some after ↔
      service.phase = .idle ∧ service.lifecycle = .active ∧
        { service with phase := .starting, lifecycle := .closing } = after := by
  simp [step, and_assoc]

end EncoderService

end ShadowCast
