import Mathlib.Algebra.Group.Nat.Defs
import Mathlib.Data.List.Basic

/-!
# Timed messages over the helper's socket

`MessageHandler` waits in `ppoll` for one descriptor and then enters one system call.  Everything
outside the process (the peer, the kernel's buffers, signals) is given as the sequence of instants
at which the state of the socket changes while the handler waits.
-/

namespace ShadowCast

/-- Error codes, as far as the code tells them apart. -/
inductive Errno
  | eagain
  | eintr
  | other (code : Nat)
  deriving DecidableEq, Repr

/-- The tag types `decltype(io::read)` and `decltype(io::write)`. -/
inductive Direction
  | read
  | write
  deriving DecidableEq, Repr

/-- The system call which a handler enters once the descriptor is ready. -/
inductive SystemCall
  | recvmsg
  | sendmsg
  deriving DecidableEq, Repr

/-- The state of the socket from one instant of a wait on. -/
structure Instant where
  /-- Nanoseconds since the call of `ppoll`. -/
  time : Nat
  /-- Bytes are waiting to be received. -/
  data : Bool
  /-- The peer has closed its end. -/
  closed : Bool
  /-- The send buffer has room. -/
  writable : Bool
  /-- A signal which the mask of the wait lets through arrives. -/
  signal : Bool
  deriving DecidableEq, Repr

/-- A receive does not block: data or the end of the stream is present. -/
def Instant.readable (instant : Instant) : Bool := instant.data || instant.closed

/-- The `revents` of the one polled descriptor. -/
structure PollEvents where
  pollin : Bool
  pollout : Bool
  pollhup : Bool
  deriving DecidableEq, Repr

/-- The requested events which are present, and the hang-up which is reported to every poll. -/
def Instant.revents (direction : Direction) (instant : Instant) : PollEvents where
  pollin := direction = .read && instant.readable
  pollout := direction = .write && instant.writable
  pollhup := instant.closed

def PollEvents.any (events : PollEvents) : Bool := events.pollin || events.pollout || events.pollhup

/-- How `ppoll` ends. -/
inductive PollResult
  /-- The descriptor is ready, in the state of this instant. -/
  | ready (instant : Instant)
  | timedOut
  | interrupted
  /-- Nothing has happened yet, and there is no timeout. -/
  | waiting
  deriving DecidableEq, Repr

/-- `ppoll` on one descriptor.  Ready descriptors take precedence over signals. -/
def ppoll (direction : Direction) (timeout : Option Nat) : List Instant → PollResult
  | [] => if timeout.isSome then .timedOut else .waiting
  | instant :: window =>
      if timeout.any (· < instant.time) then
        .timedOut
      else if (instant.revents direction).any then
        .ready instant
      else if instant.signal then
        .interrupted
      else
        ppoll direction timeout window

/-- `timeout::kInfinite`. -/
def kInfinite : Nat := 2 ^ 64 - 1

/-- One `MessageHandler`: the size of its payload, its system call, the direction it polls for and
its timeout in milliseconds. -/
structure MessageHandler where
  size : Nat
  systemCall : SystemCall
  direction : Direction
  timeoutMs : Nat
  deriving DecidableEq, Repr

/-- The timespec passed to `ppoll`, in nanoseconds; `none` is the null pointer. -/
def MessageHandler.timespec (handler : MessageHandler) : Option Nat :=
  if handler.timeoutMs ≠ kInfinite then
    some (handler.timeoutMs / 1000 * 1000000000 + handler.timeoutMs % 1000 * 1000000)
  else
    none

/-- What the world does during one call of a handler. -/
structure Phase where
  /-- The instants of the wait, in order. -/
  window : List Instant
  /-- What the system call returns if it is entered; `none` is a call which never returns. -/
  transfer : Option (Except Errno Nat)
  deriving DecidableEq, Repr

/-- One call of a handler. -/
structure HandlerCall where
  handler : MessageHandler
  poll : PollResult
  /-- The handler's system call was entered. -/
  entered : Bool
  /-- Transferred bytes or an error; `none` while the call has not returned. -/
  result : Option (Except Errno Nat)
  deriving DecidableEq, Repr

/-- `MessageHandler::operator()`. -/
def MessageHandler.call (handler : MessageHandler) (phase : Phase) : HandlerCall :=
  let poll := ppoll handler.direction handler.timespec phase.window
  match poll with
  | .waiting => ⟨handler, poll, false, none⟩
  | .interrupted => ⟨handler, poll, false, some (.error .eintr)⟩
  | .timedOut => ⟨handler, poll, false, some (.ok 0)⟩
  | .ready _ => ⟨handler, poll, true, phase.transfer⟩

/-- `sizeof(DRMRequest)`. -/
def requestSize : Nat := 4

/-- `sizeof(DRMResponse)`: two words and eight plane descriptors. -/
def responseSize : Nat := 8 + 8 * 56

/-- `MessageSender<DRMRequest>`. -/
def requestSender (timeoutMs : Nat) : MessageHandler := ⟨requestSize, .sendmsg, .write, timeoutMs⟩

/-- `DRMResponseReceiver`, which is declared with `decltype(io::write)`. -/
def drmResponseReceiver (timeoutMs : Nat) : MessageHandler :=
  ⟨responseSize, .recvmsg, .write, timeoutMs⟩

/-- `MessageReceiver<IncomingMessage>`. -/
def requestReceiver (timeoutMs : Nat) : MessageHandler := ⟨requestSize, .recvmsg, .read, timeoutMs⟩

/-- `DRMResponseSender`. -/
def drmResponseSender (timeoutMs : Nat) : MessageHandler :=
  ⟨responseSize, .sendmsg, .write, timeoutMs⟩

/-- The part of a response which decides how the exchange goes on. -/
structure DRMResponse where
  numFds : Nat
  deriving DecidableEq, Repr

/-- `get_drm_data` after its send phase: an error to return, or on to the receive phase. -/
def afterSend : Except Errno Nat → Except Errno Unit
  | .error errno => .error errno
  | .ok sent => if sent < requestSize then .error .eagain else .ok ()

/-- `get_drm_data` after its receive phase. -/
def afterReceive (response : DRMResponse) : Except Errno Nat → Except Errno DRMResponse
  | .error errno => .error errno
  | .ok received => if received < responseSize then .error .eagain else .ok response

/-- What the world does during one `get_drm_data`. -/
structure Exchange where
  send : Phase
  receive : Phase
  /-- The response which a complete receive stores. -/
  response : DRMResponse
  deriving DecidableEq, Repr

/-- The handler calls of a run and its result, `none` while it has not returned. -/
structure Transcript (α : Type) where
  calls : List HandlerCall
  result : Option α

/-- `get_drm_data`. -/
def getDrmData (timeoutMs : Nat) (exchange : Exchange) : Transcript (Except Errno DRMResponse) :=
  let sent := (requestSender timeoutMs).call exchange.send
  match sent.result.map afterSend with
  | none => ⟨[sent], none⟩
  | some (.error errno) => ⟨[sent], some (.error errno)⟩
  | some (.ok ()) =>
      let received := (drmResponseReceiver timeoutMs).call exchange.receive
      ⟨[sent, received], received.result.map (afterReceive exchange.response)⟩

/-- `drm_request::kGetPlanes`. -/
def kGetPlanes : Nat := 1

/-- `drm_request::kStop`. -/
def kStop : Nat := 2

/-- What the world does during one iteration of the helper's loop. -/
structure Round where
  receive : Phase
  /-- The type of the received request. -/
  type : Nat
  send : Phase
  deriving DecidableEq, Repr

/-- How the helper's loop ends. -/
inductive HelperEnd
  | stopped
  | threw (errno : Errno)
  deriving DecidableEq, Repr

/-- The loop of the helper's `app`, which polls without a timeout. -/
def app : List Round → Transcript HelperEnd
  | [] => ⟨[], none⟩
  | round :: rounds =>
      let received := (requestReceiver kInfinite).call round.receive
      match received.result with
      | none => ⟨[received], none⟩
      | some (.error errno) =>
          ⟨[received], some (if errno = .eintr then .stopped else .threw errno)⟩
      | some (.ok size) =>
          if size < requestSize then
            ⟨[received], some .stopped⟩
          else if round.type = kStop then
            ⟨[received], some .stopped⟩
          else if round.type ≠ kGetPlanes then
            ⟨received :: (app rounds).calls, (app rounds).result⟩
          else
            let sent := (drmResponseSender kInfinite).call round.send
            match sent.result with
            | none => ⟨[received, sent], none⟩
            | some (.error errno) =>
                ⟨[received, sent], some (if errno = .eintr then .stopped else .threw errno)⟩
            | some (.ok size) =>
                if size < responseSize then
                  ⟨[received, sent], some .stopped⟩
                else
                  ⟨received :: sent :: (app rounds).calls, (app rounds).result⟩

end ShadowCast
