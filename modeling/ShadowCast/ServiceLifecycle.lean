import ShadowCast.FrameTime
import ShadowCast.MessageHandler
import ShadowCast.ScopeGuard

/-!
# Initialising, dispatching and un-initialising services

One call of `Context::run`, with the outcomes of everything it calls as the fields of a `World`.
The `catch` block un-initialises the services in front of one whose `init` throws, the `UninitGuard`
all of them once every `init` has returned, and the dispatches stand between.
-/

namespace ShadowCast
namespace Lifecycle

/-- What a service registers for. -/
inductive RegisterType where
  | descriptor (fd : Int)
  | frameTime (ratio : FrameTimeRatio)
  deriving DecidableEq, Repr

/-- The exceptions of a run. -/
inductive Exception where
  | systemError (errno : Errno)
  | badAlloc
  /-- Thrown by a service. -/
  | service (text : String)
  deriving DecidableEq, Repr

/-- An `assert` that fails. -/
inductive Fault where
  | assertionFailed
  deriving DecidableEq, Repr

/-- The events of a run. -/
inductive Event where
  | eventfdCreated (fd : Nat)
  | eventfdClosed (fd : Nat)
  | registryLocked
  | registryUnlocked
  | initCalled (svc : Nat)
  | initReturned (svc : Nat)
  | uninitialised (svc : Nat)
  /-- A dispatch function of the service is called. -/
  | dispatched (svc : Nat)
  deriving DecidableEq, Repr

/-- An execution of a part of `Context::run`. -/
abbrev Run (α : Type) := Block Event Exception Fault α

/-- `Notifications` and `Timers`. -/
structure Registers where
  /-- The service of each registered descriptor. -/
  notifications : List (Int × Nat)
  timers : List FrameTickReadiness
  deriving DecidableEq, Repr

/-- `ReadinessRegister::operator()`; a descriptor which is registered already stays as it is. -/
def Registers.register (frameTime : UInt64) (svc : Nat) (registers : Registers) :
    RegisterType → Registers
  | .descriptor fd =>
      if registers.notifications.any (·.1 = fd) then registers
      else { registers with notifications := registers.notifications ++ [(fd, svc)] }
  | .frameTime ratio =>
      { registers with timers := registerTimer registers.timers svc (ratio.expiry frameTime) }

/-- What the `init` of a service does: it registers, and returns or throws. -/
structure InitOutcome where
  registrations : List RegisterType
  exception : Option Exception
  deriving DecidableEq, Repr

/-- The outcomes of one iteration of the loop. -/
structure Iteration where
  /-- The time since the last iteration. -/
  elapsed : UInt64
  /-- What the dispatch function of the timer at a position throws. -/
  timerThrows : Nat → Option Exception
  /-- The descriptors for which `ppoll` reports `POLLIN`, in the order of `poll_events`. -/
  ppoll : Except Errno (List Int)
  /-- The `read` of the eventfd. -/
  drain : Except Errno Unit
  /-- What the dispatch function of the ready descriptor at a position throws. -/
  dispatchThrows : Nat → Option Exception

/-- `ServiceRegistry`: the services in the order of the map's iteration, and the lock. -/
structure ServiceRegistry where
  services : List Nat
  /-- The map has one service for a key. -/
  unique : services.Nodup
  locked : Bool

/-- The outcomes of the calls out of `Context::run`. -/
structure World where
  /-- The program is compiled with assertions. -/
  asserts : Bool
  /-- The frame time of the context. -/
  frameTime : UInt64
  registry : ServiceRegistry
  eventfd : Except Errno Nat
  init : Nat → InitOutcome
  /-- There is memory for `poll_events`. -/
  pollEventsAllocated : Bool
  /-- The iterations until `stop_requested_` is seen, if nothing is thrown before. -/
  iterations : List Iteration

/-! ### The run -/

/-- Call a dispatch function of a service. -/
def dispatch (svc : Nat) (thrown : Option Exception) : Run Unit := do
  Block.emit (.dispatched svc)
  match thrown with
  | none => pure ()
  | some exception => Block.throwing exception

/-- `tick_timers`: the timers and the timeout for `ppoll`. -/
def tickTimers (throws : Nat → Option Exception) (frameTime : UInt64) (position : Nat)
    (nextFrameTimeout : UInt64) :
    List FrameTickReadiness → Run (List FrameTickReadiness × UInt64)
  | [] => pure ([], nextFrameTimeout)
  | timer :: timers => do
      let ticked := timer.tick frameTime
      let () ← (if ticked.2 then dispatch timer.svc (throws position) else pure ())
      let rest ← tickTimers throws frameTime (position + 1)
        (min nextFrameTimeout ticked.1.remaining) timers
      pure (ticked.1 :: rest.1, rest.2)

/-- A system call whose error is thrown, except one. -/
def ignoring (ignored : Errno) (outcome : Except Errno Unit) : Run Unit :=
  match outcome with
  | .ok () => pure ()
  | .error errno => if errno = ignored then pure () else Block.throwing (.systemError errno)

/-- The body of the loop over `poll_events`, for a ready descriptor. -/
def handleReady (eventFd : Nat) (notifications : List (Int × Nat)) (iteration : Iteration)
    (position : Nat) (fd : Int) : Run Unit :=
  if fd = eventFd then ignoring .eagain iteration.drain
  else
    match notifications.find? (·.1 = fd) with
    | none => pure ()
    | some notify => dispatch notify.2 (iteration.dispatchThrows position)

/-- The loop over `poll_events`. -/
def dispatchReady (eventFd : Nat) (notifications : List (Int × Nat)) (iteration : Iteration) :
    Nat → List Int → Run Unit
  | _, [] => pure ()
  | position, fd :: ready => do
      handleReady eventFd notifications iteration position fd
      dispatchReady eventFd notifications iteration (position + 1) ready

/-- `ppoll` and what its result leads to. -/
def pollAndDispatch (eventFd : Nat) (notifications : List (Int × Nat))
    (iteration : Iteration) : Run Unit :=
  match iteration.ppoll with
  | .error errno => ignoring .eintr (.error errno)
  | .ok ready => dispatchReady eventFd notifications iteration 0 ready

/-- The body of the loop of `Context::run`. -/
def iterate (frameTime : UInt64) (eventFd : Nat) (registers : Registers)
    (iteration : Iteration) : Run Registers := do
  let ticked ← tickTimers iteration.timerThrows iteration.elapsed 0 frameTime registers.timers
  pollAndDispatch eventFd registers.notifications iteration
  pure { registers with timers := ticked.1 }

/-- The loop of `Context::run`. -/
def loop (frameTime : UInt64) (eventFd : Nat) : List Iteration → Registers → Run Unit
  | [], _ => pure ()
  | iteration :: iterations, registers => do
      let registers ← iterate frameTime eventFd registers iteration
      loop frameTime eventFd iterations registers

/-- The loop that initialises the services, from `initialized_pos` on, with its `catch` block:
`initialised` are the services in front of that position. -/
def initServices (world : World) (initialised : List Nat) :
    List Nat → Registers → Run Registers
  | [], registers => pure registers
  | svc :: services, registers => do
      Block.emit (.initCalled svc)
      let outcome := world.init svc
      match outcome.exception with
      | some exception => do
          Block.emitAll (initialised.map .uninitialised)
          Block.throwing exception
      | none => do
          Block.emit (.initReturned svc)
          initServices world (initialised ++ [svc]) services
            (outcome.registrations.foldl (Registers.register world.frameTime svc) registers)

/-- The part of `Context::run` behind the `UninitGuard`. -/
def serve (world : World) (eventFd : Nat) (registers : Registers) : Run Unit :=
  if registers.notifications.length + registers.timers.length = 0 then pure ()
  else if world.pollEventsAllocated then
    loop world.frameTime eventFd world.iterations registers
  else Block.throwing .badAlloc

/-- The part of `Context::run` behind the lock of the registry. -/
def runServices (world : World) (eventFd : Nat) : Run Unit := do
  let registers ← initServices world [] world.registry.services ⟨[], []⟩
  Block.scopeGuard (Block.emitAll (world.registry.services.map .uninitialised))
    (serve world eventFd registers)

/-- The part of `Context::run` behind the guard that closes the eventfd: the lock is obtained
unless it is taken already, which is an assertion's business. -/
def runLocked (world : World) (eventFd : Nat) : Run Unit :=
  if world.registry.locked then
    if world.asserts then Block.faulting .assertionFailed else runServices world eventFd
  else do
    Block.emit .registryLocked
    Block.scopeGuard (Block.emit .registryUnlocked) (runServices world eventFd)

/-- `Context::run`. -/
def run (world : World) : Run Unit :=
  match world.eventfd with
  | .error errno => Block.throwing (.systemError errno)
  | .ok fd => do
      Block.emit (.eventfdCreated fd)
      Block.scopeGuard (Block.emit (.eventfdClosed fd)) (runLocked world fd)

end Lifecycle
end ShadowCast
