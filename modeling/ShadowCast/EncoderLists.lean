import ShadowCast.EncoderService
import ShadowCast.Pool

/-!
# The encoder service on its linked lists

The items of the pool and of `pending_`, and those which `dispatch` has taken over, are linked
through their own nodes.  `write_frame` and the pool link an item in under their mutexes; `dispatch`
splices `pending_` into a list of its own, goes through that list with an iterator, and its guard
erases the items one by one and puts each of them back.  The steps are those of the encoder service,
with the links and the iterators in place of its sequences and positions.
-/

namespace ShadowCast
namespace EncoderLists

open LinkedRing

/-- The nodes: the sentinels of the lists, and the items. -/
inductive ListNode where
  | poolList
  | pending
  /-- The list of the running call of `dispatch`. -/
  | tmp
  | item (id : Nat)
  deriving DecidableEq, Repr

/-- Where the running call of `dispatch` is, with its iterator. -/
inductive Program where
  | idle
  | starting
  | polling (it : ListNode)
  | writing (it : ListNode) (packet : Nat)
  | returning (threw : Bool) (it : ListNode)
  deriving DecidableEq, Repr

/-- The encoder service, its items and their links. -/
structure State where
  codecs : Nat → CodecContext
  links : Heap ListNode
  /-- What an item carries besides its links. -/
  data : ListNode → StreamPoll
  hands : List ListNode
  program : Program
  lifecycle : Lifecycle
  allocated : Nat
  submitted : List Nat
  /-- The `write_frame` call which has queued the item last. -/
  number : ListNode → Nat
  polled : List Nat
  written : List WrittenPacket
  /-- An operation on a list has failed, or a null pointer has been followed. -/
  stopped : Option IntrusiveList.Stop

/-- The lists before any frame is prepared.  `tmp` is not there yet. -/
def initial : State where
  codecs _ := .new
  links := IntrusiveList.construct .pending
    (IntrusiveList.construct .poolList ⟨fun _ => none, fun _ => none⟩)
  data
    | .item id => ⟨id, none, none, .blank⟩
    | _ => ⟨0, none, none, .blank⟩
  hands := []
  program := .idle
  lifecycle := .active
  allocated := 0
  submitted := []
  number _ := 0
  polled := []
  written := []
  stopped := none

/-- The items of `tmp` are reached through its sentinel. -/
def Program.live : Program → Bool
  | .idle | .starting => false
  | .polling _ | .writing _ _ | .returning _ _ => true

namespace State

/-- Go on with what an operation returns, unless it fails. -/
def attempt (state : State) {β : Type} (result : Except IntrusiveList.Stop β)
    (next : β → State) : State :=
  match result with
  | .error stop => { state with stopped := some stop }
  | .ok value => next value

@[simp] theorem attempt_ok (state : State) {β : Type} (value : β) (next : β → State) :
    state.attempt (.ok value) next = next value := rfl

/-- More rounds than any loop over a list needs. -/
def fuel (state : State) : Nat := state.allocated + 1

/-- `allocate_item` and `construct`: null links, null pointers and a frame without references. -/
def newItem (state : State) : State :=
  { state with
    links := (state.links.setPrev (.item state.allocated) none).setNext
      (.item state.allocated) none
    data := Function.update state.data (.item state.allocated)
      ⟨state.allocated, none, none, .blank⟩
    allocated := state.allocated + 1 }

/-- `pool_.fill(1)`. -/
def fill (state : State) : State :=
  state.newItem.attempt
    (IntrusiveList.pushBack .poolList (.item state.allocated) state.newItem.links) fun links =>
      { state.newItem with links }

/-- The pointers which `prepare_frame` stores in an item that it has got. -/
def handOut (state : State) (node : ListNode) (codecCtx stream : Nat) : State :=
  { state with
    data := Function.update state.data node
      { state.data node with codecCtx := some codecCtx, stream := some stream }
    hands := state.hands ++ [node] }

/-- `Encoder::prepare_frame`. -/
def prepareFrame (state : State) (codecCtx stream : Nat) : State :=
  state.attempt (Pool.takeFirst .poolList state.links) fun
    | some (links, node) =>
        { state with
          links
          data := Function.update state.data node (state.data node).reset }.handOut
            node codecCtx stream
    | none => state.newItem.handOut (.item state.allocated) codecCtx stream

/-- Change the frame of an item in a producer's hands. -/
def setFrame (state : State) (node : ListNode) (frame : FrameSlot) : State :=
  if node ∈ state.hands then
    { state with data := Function.update state.data node { state.data node with frame } }
  else
    state

/-- A producer gives an item away, and it is put at the end of a list. -/
def release (state : State) (list node : ListNode) : State :=
  state.attempt (IntrusiveList.pushBack list node state.links) fun links =>
    { state with links, hands := state.hands.filter (· ≠ node) }

/-- The locked section of `write_frame`. -/
def writeFrame (state : State) (node : ListNode) (codecCtx : Nat) (response : SendResponse) :
    State :=
  { state with
    codecs := Function.update state.codecs codecCtx
      ((state.codecs codecCtx).sendFrame state.submitted.length response)
    submitted := state.submitted ++ [codecCtx]
    number := Function.update state.number node state.submitted.length }.release .pending node

end State

/-- The declaration of `tmp`, the splice of `pending_`, and the first item of the loop. -/
def spliceLists (fuel : Nat) (links : Heap ListNode) :
    Except IntrusiveList.Stop (Heap ListNode × ListNode) := do
  let links := IntrusiveList.construct .tmp links
  let before ← IntrusiveList.deref (links.next .tmp)
  let first ← IntrusiveList.deref (links.next .pending)
  let links ← IntrusiveList.splice fuel before .pending first .pending links
  let it ← IntrusiveList.deref (links.next .tmp)
  return (links, it)

/-- A round of the guard's loop: the item is erased, and its deleter puts it into the pool. -/
def returnItem (it : ListNode) (links : Heap ListNode) :
    Except IntrusiveList.Stop (Heap ListNode × ListNode) := do
  let item := it
  let (links, it) ← IntrusiveList.erase .tmp it links
  let links ← IntrusiveList.pushBack .poolList item links
  return (links, it)

/-- The loop of `pool_.clear()`. -/
def clearLoop : (fuel : Nat) → (it : ListNode) → Heap ListNode →
    Except IntrusiveList.Stop (Heap ListNode)
  | 0, _, _ => .error .outOfFuel
  | fuel + 1, it, links =>
      if it = .poolList then .ok links
      else do
        let (links, it) ← IntrusiveList.erase .poolList it links
        clearLoop fuel it links

/-- `pool_.clear()`. -/
def clear (fuel : Nat) (links : Heap ListNode) : Except IntrusiveList.Stop (Heap ListNode) := do
  let it ← IntrusiveList.deref (links.next .poolList)
  clearLoop fuel it links

namespace State

/-- The loop is left, and the guard starts with the first item that is in `tmp`. -/
def unwind (state : State) (threw : Bool) : State :=
  state.attempt (IntrusiveList.deref (state.links.next .tmp)) fun it =>
    { state with program := .returning threw it }

/-- `avcodec_receive_packet` for the item at the iterator, and the branches on its response. -/
def receivePacket (state : State) (it : ListNode) (codecCtx : Nat) :
    ReceiveResponse → Option State
  | .packet retires =>
      match (state.codecs codecCtx).output.inside with
      | packet :: _ =>
          if retires ≤ (state.codecs codecCtx).held then
            some
              { state with
                codecs := Function.update state.codecs codecCtx
                  ((state.codecs codecCtx).receivePacket retires)
                program := .writing it packet }
          else
            none
      | [] => none
  | .drained =>
      if (state.codecs codecCtx).output.inside = [] then
        some (state.attempt (IntrusiveList.deref (state.links.next it)) fun next =>
          { state with
            program := .polling next
            polled := state.polled ++ [state.number it] })
      else
        none
  | .failed => some (state.unwind true)

/-- `av_interleaved_write_frame` for a packet of the item at the iterator. -/
def writePacket (state : State) (it : ListNode) (packet codecCtx stream : Nat)
    (succeeds : Bool) : State :=
  if succeeds then
    { state with
      program := .polling it
      written := state.written ++ [⟨codecCtx, packet, stream⟩] }
  else
    state.unwind true

/-- The end of `dispatch`, and of `on_uninit` if it made the call. -/
def leaveDispatch (state : State) (threw : Bool) : State :=
  if state.lifecycle = .closing then
    if threw then { state with program := .idle, lifecycle := .closed }
    else
      state.attempt (clear state.fuel state.links) fun links =>
        { state with links, program := .idle, lifecycle := .closed }
  else
    { state with program := .idle }

/-- One atomic step of a producer or of the media thread. -/
def step (state : State) (label : EncoderService.Label) : Option State :=
  if state.stopped.isSome then none
  else
    match label with
    | .fill => some state.fill
    | .prepareFrame codecCtx stream => some (state.prepareFrame codecCtx stream)
    | .fillFrame id => some (state.setFrame (.item id) .filled)
    | .resetFrame id => some (state.setFrame (.item id) .null)
    | .dropFrame id =>
        if .item id ∈ state.hands then some (state.release .poolList (.item id)) else none
    | .writeFrame id response =>
        if .item id ∈ state.hands then
          match (state.data (.item id)).codecCtx, (state.data (.item id)).stream with
          | some codecCtx, some _ => some (state.writeFrame (.item id) codecCtx response)
          | _, _ => none
        else none
    | .beginDispatch =>
        if state.program = .idle ∧ state.lifecycle = .active then
          some { state with program := .starting }
        else none
    | .takePending =>
        if state.program = .starting then
          some (state.attempt (spliceLists state.fuel state.links) fun (links, it) =>
            { state with links, program := .polling it })
        else none
    | .receivePacket response =>
        match state.program with
        | .polling it =>
            if it = .tmp then none
            else
              match (state.data it).codecCtx with
              | some codecCtx => state.receivePacket it codecCtx response
              | none => some { state with stopped := some .nullPointer }
        | _ => none
    | .writePacket succeeds =>
        match state.program with
        | .writing it packet =>
            match (state.data it).codecCtx, (state.data it).stream with
            | some codecCtx, some stream =>
                some (state.writePacket it packet codecCtx stream succeeds)
            | _, _ => some { state with stopped := some .nullPointer }
        | _ => none
    | .finishLoop =>
        match state.program with
        | .polling it => if it = .tmp then some (state.unwind false) else none
        | _ => none
    | .returnItem =>
        match state.program with
        | .returning threw it =>
            if it = .tmp then none
            else
              some (state.attempt (returnItem it state.links) fun (links, it) =>
                { state with links, program := .returning threw it })
        | _ => none
    | .endDispatch =>
        match state.program with
        | .returning threw it => if it = .tmp then some (state.leaveDispatch threw) else none
        | _ => none
    | .beginUninit =>
        if state.program = .idle ∧ state.lifecycle = .active then
          some { state with program := .starting, lifecycle := .closing }
        else none

end State

/-- Producers and media thread on the linked lists, under every interleaving. -/
def machine : Machine State EncoderService.Label := ⟨State.step⟩

/-! ### What the lists show -/

namespace State

/-- The items of a list, if they are the same in both directions. -/
def items (state : State) (list : ListNode) : Option (List ListNode) :=
  match Heap.around state.links.next state.fuel list,
      Heap.around state.links.prev state.fuel list with
  | some forward, some backward => if backward = forward.reverse then some forward else none
  | _, _ => none

/-- The items of `tmp`, while it lives. -/
def tmpItems (state : State) : Option (List ListNode) :=
  if state.program.live then state.items .tmp else some []

/-- A queued item; its pointers are not null. -/
def submission (state : State) (node : ListNode) : Option Submission :=
  match (state.data node).codecCtx, (state.data node).stream with
  | some codecCtx, some stream =>
      some ⟨(state.data node).id, codecCtx, stream, (state.data node).frame, state.number node⟩
  | _, _ => none

end State

/-- The position of the iterator among the items of `tmp`. -/
def Program.phase (tmp : List ListNode) : Program → DispatchPhase
  | .idle => .idle
  | .starting => .starting
  | .polling it => .polling (tmp.idxOf it)
  | .writing it packet => .writing (tmp.idxOf it) packet
  | .returning threw _ => .returning threw

/-- The encoder service whose sequences are these. -/
def State.service (state : State) (pool tmp : List ListNode) (pending taken : List Submission) :
    EncoderService where
  codecs := state.codecs
  pool := pool.map state.data
  hands := state.hands.map state.data
  pending := pending
  tmp := taken
  phase := state.program.phase tmp
  lifecycle := state.lifecycle
  allocated := state.allocated
  submitted := state.submitted
  polled := state.polled
  written := state.written

/-- The encoder service which the lists show, unless an operation has failed, a list is broken or a
queued item has a null pointer. -/
def State.view (state : State) : Option EncoderService :=
  if state.stopped.isSome then none
  else do
    let pool ← state.items .poolList
    let pending ← state.items .pending
    let tmp ← state.tmpItems
    let queued ← pending.mapM state.submission
    let taken ← tmp.mapM state.submission
    return state.service pool tmp queued taken

end EncoderLists
end ShadowCast
