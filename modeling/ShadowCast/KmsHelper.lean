import ShadowCast.Discipline
import ShadowCast.PlaneProperties

/-!
# The DRM helper process

The helper looks for the device which shows something, connects to the service and answers its
requests: `get_fb` exports the buffers behind the planes and describes them, and the response is
sent together with the exported descriptors.  Every object of the DRM library is released by a
guard.  What the kernel, the library and the service do is given beforehand, and a helper that has
been told nothing more waits.
-/

namespace ShadowCast
namespace Kms

open Drm

/-- What the helper has to give back. -/
inductive Resource where
  /-- An open descriptor. -/
  | descriptor (fd : Int)
  | version
  | resources
  | planeResources
  | plane
  | framebuffer
  /-- A reference to a buffer object. -/
  | handle (handle : UInt32)
  | objectProperties
  | property
  deriving DecidableEq, Repr

/-- What the helper does to its surroundings. -/
inductive Event where
  | acquire (resource : Resource)
  | release (resource : Resource)
  /-- A call of the DRM library through the descriptor of the device. -/
  | call (device : Int)
  /-- `drmCloseBufferHandle`. -/
  | closeHandle (device : Int) (handle : UInt32)
  /-- A request is awaited on the socket. -/
  | receive (socket : Int)
  /-- A response is passed to its sender. -/
  | send (socket : Int) (response : Drm.DRMResponse)
  deriving DecidableEq, Repr

/-- A library call needs the device, a message the socket, and a response its descriptors.  A handle
which is closed already is left alone. -/
def resources : Discipline Event Resource where
  needs
    | .acquire _ => 0
    | .release resource => {resource}
    | .call device | .closeHandle device _ => {.descriptor device}
    | .receive socket => {.descriptor socket}
    | .send socket response => .descriptor socket ::ₘ ↑(response.fds.map Resource.descriptor)
  releases
    | .release resource => {resource}
    | .closeHandle _ handle => {.handle handle}
    | _ => 0
  acquires
    | .acquire resource => {resource}
    | _ => 0

/-- The exceptions of the helper. -/
inductive Failure where
  | runtimeError (what : String)
  | logicError (what : String)
  | systemError (errno : Errno)
  deriving DecidableEq, Repr

/-- The helper waits for a request. -/
inductive Waiting where
  | waiting
  deriving DecidableEq, Repr

abbrev Helper : Type → Type := Block Event Failure Waiting

/-- A call that returns a new object, or null. -/
def obtain {α : Type} (device : Int) (resource : Resource) (outcome : Option α) :
    Helper (Option α) := do
  Block.emit (.call device)
  match outcome with
  | none => pure none
  | some value =>
      Block.emit (.acquire resource)
      pure (some value)

/-- Free an object. -/
def free (resource : Resource) : Helper Unit := Block.emit (.release resource)

/-- `close`. -/
def close (fd : Int) : Helper Unit := free (.descriptor fd)

/-! ### The device -/

/-- What a device answers while the helper looks for the one to use. -/
structure DeviceProbe where
  /-- `open`; `none` if it fails. -/
  fd : Option Int
  version : Bool
  resources : Bool
  /-- The planes with their framebuffers; `none` for a plane that is not found. -/
  planes : Option (List (Option UInt32))
  deriving DecidableEq, Repr

/-- A flag, as the result of a call which returns an object. -/
def found (flag : Bool) : Option Unit := if flag then some () else none

/-- The loop over the planes of a device, up to the first one with a framebuffer. -/
def searchPlanes (fd : Int) : List (Option UInt32) → Helper Bool
  | [] => pure false
  | plane :: planes => do
      match ← obtain fd .plane plane with
      | none => searchPlanes fd planes
      | some fbId =>
          let shown ← Block.scopeGuard (free .plane) (pure (decide (fbId ≠ 0)))
          if shown then pure true else searchPlanes fd planes

/-- The body of the loop over the devices: whether the device shows something. -/
def checkDevice (probe : DeviceProbe) : Helper Bool :=
  match probe.fd with
  | none => pure false
  | some fd => do
      Block.emit (.acquire (.descriptor fd))
      Block.scopeGuard (close fd) do
        match ← obtain fd .version (found probe.version) with
        | none => pure false
        | some () =>
            Block.scopeGuard (free .version) do
              match ← obtain fd .resources (found probe.resources) with
              | none => pure false
              | some () =>
                  Block.scopeGuard (free .resources) do
                    -- The result of `drmSetClientCap` is ignored.
                    Block.emit (.call fd)
                    match ← obtain fd .planeResources probe.planes with
                    | none => pure false
                    | some planes =>
                        Block.scopeGuard (free .planeResources) (searchPlanes fd planes)

/-- `DRM_DEV_NAME` in `DRM_DIR_NAME`. -/
def devicePath (i : Nat) : String := "/dev/dri/card" ++ toString i

/-- `max_devices`. -/
def maxDevices : Nat := 10

/-- The loop over the devices from the `i`-th on, with `count` of them left. -/
def searchDevices (devices : Nat → DeviceProbe) : (count i : Nat) → Helper String
  | 0, _ => Block.throwing (.runtimeError "Failed to find a valid DRM device path")
  | count + 1, i => do
      if ← checkDevice (devices i) then pure (devicePath i)
      else searchDevices devices count (i + 1)

/-- `get_drm_device_path`. -/
def getDrmDevicePath (devices : Nat → DeviceProbe) : Helper String :=
  searchDevices devices maxDevices 0

/-! ### The planes -/

/-- `drmModePlane`. -/
structure Plane where
  planeId : UInt32
  fbId : UInt32
  deriving DecidableEq, Repr

/-- `drmModeFB2`. -/
structure FB2 where
  width : UInt32
  height : UInt32
  pixelFormat : UInt32
  modifier : UInt64
  handles : Vector UInt32 4
  pitches : Vector UInt32 4
  offsets : Vector UInt32 4
  deriving DecidableEq, Repr

/-- What the library answers about one of the planes. -/
structure PlaneProbe where
  plane : Option Plane
  fb : Option FB2
  /-- `drmPrimeHandleToFD`: its result, and the descriptor it stores. -/
  prime : Int × Int
  props : Option (List ObjectProperty)
  deriving DecidableEq, Repr

/-- The new references to buffer objects that come with a framebuffer; planes in the same memory
have the same one. -/
def FB2.references (fb : FB2) : List UInt32 := (fb.handles.toList.filter (· ≠ 0)).dedup

/-- The references are ours from now on. -/
def acquireHandles (fb : FB2) : Helper Unit :=
  Block.forEach (fun handle => Block.emit (.acquire (.handle handle))) fb.references

/-- `drmModeGetFB2`. -/
def getFB2 (device : Int) (outcome : Option FB2) : Helper (Option FB2) := do
  let fb ← obtain device .framebuffer outcome
  match fb with
  | none => pure none
  | some fb =>
      acquireHandles fb
      pure (some fb)

/-- `drmPrimeHandleToFD`: the descriptor, unless the result or the descriptor tells of a failure. -/
def primeHandleToFD (device : Int) (outcome : Int × Int) : Helper (Option Int) := do
  Block.emit (.call device)
  if outcome.1 ≠ 0 ∨ outcome.2 = -1 then pure none
  else do
    Block.emit (.acquire (.descriptor outcome.2))
    pure (some outcome.2)

/-- The clean-up of the handles of a framebuffer. -/
def closeHandles (device : Int) (fb : FB2) : Helper Unit :=
  Block.forEach (fun handle =>
    if handle = 0 then pure () else Block.emit (.closeHandle device handle)) fb.handles.toList

/-- The clean-up of an object that may be null. -/
def freeIf {α : Type} (resource : Resource) : Option α → Helper Unit
  | none => pure ()
  | some _ => free resource

/-- The loop over the properties of a plane. -/
def visitProperties (device : Int) : List ObjectProperty → PlaneLoop → Helper PlaneLoop
  | [], loop => pure loop
  | property :: properties, loop => do
      match ← obtain device .property property.prop with
      | none => visitProperties device properties loop
      | some _ =>
          let loop ← Block.scopeGuard (free .property) (pure (loop.visit property))
          visitProperties device properties loop

/-- `get_plane_properties`, with its guards. -/
def planeProperties (device : Int) (props : Option (List ObjectProperty))
    (descriptor : PlaneDescriptor) : Helper PlaneDescriptor := do
  match ← obtain device .objectProperties props with
  | none => Block.throwing (.runtimeError "drmModeObjectGetProperties failed")
  | some props =>
      Block.scopeGuard (free .objectProperties) do
        let loop ← visitProperties device props { descriptor, x := 0, y := 0 }
        if loop.descriptor.isFlagSet isCursor then
          pure { loop.descriptor with x := loop.x, y := loop.y }
        else pure loop.descriptor

/-- What `get_fb` stores in the descriptor of a plane, which was zero before. -/
def FB2.descriptor (fb : FB2) (fd : Int) : PlaneDescriptor where
  fd := fd
  width := fb.width
  height := fb.height
  pitch := fb.pitches[0]
  offset := fb.offsets[0]
  pixelFormat := fb.pixelFormat
  modifier := fb.modifier
  connectorId := 0
  flags := 0
  x := 0
  y := 0
  srcW := 0
  srcH := 0

/-- The part of the loop's body which exports the buffer behind a framebuffer. -/
def exportPlane (device : Int) (probe : PlaneProbe) (fb : FB2) : Helper PlaneDescriptor :=
  if fb.handles[0] = 0 then Block.throwing (.runtimeError "drmModeGetFB2 failed")
  else do
    match ← primeHandleToFD device probe.prime with
    | none => Block.throwing (.runtimeError "drmPrimeHandleToFD failed")
    | some fd =>
        Block.scopeGuard (closeHandles device fb)
          (planeProperties device probe.props (fb.descriptor fd))

/-- The body of the loop over the planes: the plane's descriptor, if there is something to see. -/
def describePlane (device : Int) (probe : PlaneProbe) : Helper (Option PlaneDescriptor) := do
  let plane ← obtain device .plane probe.plane
  Block.scopeGuard (freeIf .plane plane) do
    match plane with
    | none => pure none
    | some plane =>
        if plane.fbId = 0 then pure none
        else do
          let fb ← getFB2 device probe.fb
          Block.scopeGuard (freeIf .framebuffer fb) do
            match fb with
            | none => Block.throwing (.runtimeError "drmModeGetFB2 failed")
            | some fb => do
                let descriptor ← exportPlane device probe fb
                pure (some descriptor)

/-- Store a descriptor behind the ones the response has, if there is room. -/
def addPlane (response : Drm.DRMResponse) (descriptor : PlaneDescriptor) : Drm.DRMResponse :=
  { response with
    numFds := response.numFds + 1
    descriptors := response.descriptors.setIfInBounds response.numFds.toNat descriptor }

/-- The loop over the planes. -/
def describePlanes (device : Int) : List PlaneProbe → Drm.DRMResponse → Helper Drm.DRMResponse
  | [], response => pure response
  | probe :: probes, response =>
      if response.numFds.toNat < kMaxPlaneDescriptors then do
        match ← describePlane device probe with
        | none => describePlanes device probes response
        | some descriptor => describePlanes device probes (addPlane response descriptor)
      else pure response

/-- A descriptor that has not been filled in. -/
def zeroDescriptor : PlaneDescriptor := ⟨0, 0, 0, 0, 0, 0, 0, 0, 0, 0, 0, 0, 0⟩

/-- A response that has not been filled in. -/
def zeroResponse : Drm.DRMResponse := ⟨0, 0, Vector.replicate kMaxPlaneDescriptors zeroDescriptor⟩

/-- `get_fb`. -/
def getFb (device : Int) (outcome : Option (List PlaneProbe)) : Helper Drm.DRMResponse := do
  match ← obtain device .planeResources outcome with
  | none => Block.throwing (.runtimeError "drmModeGetPlaneResources failed")
  | some probes =>
      Block.scopeGuard (free .planeResources) (describePlanes device probes zeroResponse)

/-! ### The process -/

/-- What happens during one iteration of the loop of `app`. -/
structure Round where
  /-- The result of the request's receiver. -/
  received : Except Errno Nat
  /-- The type in the request. -/
  type : Nat
  planes : Option (List PlaneProbe)
  /-- The result of the response's sender. -/
  sent : Except Errno Nat

/-- The clean-up of the exported descriptors. -/
def closeFds (response : Drm.DRMResponse) : Helper Unit := Block.forEach close response.fds

/-- Send a response; whether the loop goes on. -/
def sendResponse (socket : Int) (sent : Except Errno Nat) (response : Drm.DRMResponse) :
    Helper Bool := do
  Block.emit (.send socket response)
  match sent with
  | .error errno => if errno = .eintr then pure false else Block.throwing (.systemError errno)
  | .ok size => pure (decide (responseSize ≤ size))

/-- Answer a request; whether the loop goes on. -/
def answer (device socket : Int) (round : Round) : Helper Bool := do
  let response ← getFb device round.planes
  Block.scopeGuard (closeFds response) (sendResponse socket round.sent response)

/-- The loop of `app`. -/
def serve (device socket : Int) : List Round → Helper Unit
  | [] => Block.faulting .waiting
  | round :: rounds => do
      Block.emit (.receive socket)
      match round.received with
      | .error errno =>
          if errno = .eintr then pure () else Block.throwing (.systemError errno)
      | .ok size =>
          if size < requestSize then pure ()
          else if round.type = kStop then pure ()
          else if round.type ≠ kGetPlanes then serve device socket rounds
          else do
            if ← answer device socket round then serve device socket rounds else pure ()

/-- What the kernel, the library and the service do to the helper. -/
structure World where
  /-- The first argument. -/
  path : Option String
  blockSignals : Except Errno Unit
  devices : Nat → DeviceProbe
  /-- `open` of the device that was found. -/
  device : Option Int
  universalPlanes : Bool
  atomic : Bool
  /-- `socket`, or the text of its error. -/
  socket : Except String Int
  /-- `connect`, or the text of its error. -/
  connect : Except String Unit
  rounds : List Round

/-- `std::size(addr.sun_path)`. -/
def sunPathSize : Nat := 108

/-- `socket::connect`.  The guard is deactivated behind what may throw. -/
def connect (world : World) (path : String) : Helper Int :=
  match world.socket with
  | .error text => Block.throwing (.runtimeError ("connect(): " ++ text))
  | .ok fd => do
      Block.emit (.acquire (.descriptor fd))
      if sunPathSize < path.utf8ByteSize then
        Block.scopeGuard (close fd)
          (Block.throwing (.runtimeError "create_socket(): path too long"))
      else
        match world.connect with
        | .error text =>
            Block.scopeGuard (close fd) (Block.throwing (.logicError ("connect(): " ++ text)))
        | .ok () => pure fd

/-- `drmSetClientCap`, which must succeed. -/
def setClientCap (device : Int) (succeeds : Bool) : Helper Unit := do
  Block.emit (.call device)
  if succeeds then pure () else Block.throwing (.runtimeError "drmSetClientCap failed")

/-- `block_signals`. -/
def blockSignals (world : World) : Helper Unit :=
  match world.blockSignals with
  | .error errno => Block.throwing (.systemError errno)
  | .ok () => pure ()

/-- `app`. -/
def app (world : World) (path : String) : Helper Unit := do
  blockSignals world
  let _ ← getDrmDevicePath world.devices
  match world.device with
  | none => Block.throwing (.runtimeError "Failed to open DRM device")
  | some device => do
      Block.emit (.acquire (.descriptor device))
      Block.scopeGuard (close device) do
        setClientCap device world.universalPlanes
        setClientCap device world.atomic
        let socket ← connect world path
        Block.scopeGuard (close socket) (serve device socket world.rounds)

/-- The statements of `main` that may throw, and the exit code behind them. -/
def mainBody (world : World) : Helper Nat :=
  match world.path with
  | none => Block.throwing (.runtimeError "Missing argument: socket path")
  | some path => do
      app world path
      pure 0

/-- `main`: the exit code. -/
def main (world : World) : Helper Nat := Block.handling (mainBody world) fun _ => pure 1

end Kms
end ShadowCast
