import ShadowCast.DrmMessaging

/-!
# One frame of the DRM video service

`dispatch_frame` asks the helper for the planes, imports them as EGL images, converts them and
hands the result to the encoder through CUDA.  The outcomes of all calls out of the program are the
fields of a `World`; what the frame acquires and releases are its events.
-/

namespace ShadowCast
namespace Drm

/-- What a frame acquires and has to release. -/
inductive Resource where
  /-- A dma-buf descriptor. -/
  | descriptor (fd : Int)
  /-- An EGL image. -/
  | image (id : Nat)
  /-- A registered CUDA graphics resource. -/
  | graphics (id : Nat)
  deriving DecidableEq, Repr

/-- The attributes an EGL image is created with. -/
structure ImageAttributes where
  pixelFormat : UInt32
  width : UInt32
  height : UInt32
  fd : Int
  offset : UInt32
  pitch : UInt32
  modifier : Option (UInt64 × UInt64)
  deriving DecidableEq, Repr

/-- `MouseParameters`. -/
structure MouseParameters where
  width : UInt32
  height : UInt32
  x : Int
  y : Int
  deriving DecidableEq, Repr

/-- The events of a frame. -/
inductive Event where
  /-- `recvmsg` installs a descriptor. -/
  | received (fd : Int)
  | closed (fd : Int)
  | imageCreated (id : Nat) (attributes : ImageAttributes)
  | imageDestroyed (id : Nat)
  | converted (mouse : Option MouseParameters)
  | resourceRegistered (id : Nat)
  | resourceUnregistered (id : Nat)
  /-- The frame handler is called. -/
  | frameHandled
  deriving DecidableEq, Repr

/-- The resource an event acquires. -/
def Event.acquires : Event → Option Resource
  | received fd => some (.descriptor fd)
  | imageCreated id _ => some (.image id)
  | resourceRegistered id => some (.graphics id)
  | closed _ | imageDestroyed _ | converted _ | resourceUnregistered _ | frameHandled => none

/-- The resource an event releases. -/
def Event.releases : Event → Option Resource
  | closed fd => some (.descriptor fd)
  | imageDestroyed id => some (.image id)
  | resourceUnregistered id => some (.graphics id)
  | received _ | imageCreated .. | converted _ | resourceRegistered _ | frameHandled => none

/-- The resources of a frame. -/
def resources : Settlement Event Resource := ⟨Event.acquires, Event.releases⟩

/-- The exceptions of a frame. -/
inductive Exception where
  | systemError (errno : Errno)
  | runtimeError (what : String)
  deriving DecidableEq, Repr

/-- An execution of a part of `dispatch_frame`. -/
abbrev Frame (α : Type) := Block Event Exception Fault α

/-- The outcomes of the calls out of the program during one frame. -/
structure World where
  handlerInstalled : Bool
  /-- The transfer of the request. -/
  sent : Except Errno Nat
  /-- The wait for the response; `false` is a timeout. -/
  ready : Except Errno Bool
  /-- `errno` behind a failed `recvmsg`. -/
  receiveErrno : Errno
  delivery : Delivery
  eglError : Int
  /-- `eglCreateImage` for the screen; `none` is `EGL_NO_IMAGE`. -/
  inputImage : Option Nat
  bindInput : Except String Unit
  /-- `eglCreateImage` for the mouse plane. -/
  mouseImage : Option Nat
  bindMouse : Except String Unit
  convert : Except String Unit
  register : Except String Nat
  setMapFlags : Except String Unit
  mapResources : Except String Unit
  getMappedArray : Except String Unit
  handleFrame : Except String Unit

/-! ### The response -/

/-- The receive phase of `get_drm_data`, behind its `recvmsg`. -/
def receiveResponse (world : World) : Except Fault (Except Errno DRMResponse) :=
  match receiveHandler world.delivery with
  | .error fault => .error fault
  | .ok (received, response) =>
      let transferred : Except Errno Nat :=
        if received < 0 then .error world.receiveErrno else .ok received.toNat
      match afterReceive response.summary transferred with
      | .error errno => .ok (.error errno)
      | .ok _ => .ok (.ok response)

/-- `get_drm_data`. -/
def getDrmData (world : World) : Frame (Except Errno DRMResponse) :=
  match afterSend world.sent, world.ready with
  | .error errno, _ => pure (.error errno)
  | .ok (), .error errno => pure (.error errno)
  | .ok (), .ok false => pure (.error .eagain)
  | .ok (), .ok true => do
      Block.emitAll (world.delivery.delivered.map .received)
      Block.ofExcept (receiveResponse world)

/-- The elements of `descriptors` up to `num_fds`, which must not reach behind the array. -/
def planes (response : DRMResponse) : Except Fault (List PlaneDescriptor) :=
  if response.numFds.toNat ≤ kMaxPlaneDescriptors then .ok response.planeList
  else .error (.beyondDescriptors kMaxPlaneDescriptors)

/-- The clean-up of the descriptors. -/
def closeDescriptors (response : DRMResponse) : Frame Unit := do
  let descriptors ← Block.ofExcept (planes response)
  Block.emitAll (descriptors.map fun descriptor => .closed descriptor.fd)

/-- `IS_CURSOR`. -/
def isCursor : UInt32 := 1

/-- `is_flag_set`. -/
def PlaneDescriptor.isFlagSet (descriptor : PlaneDescriptor) (flag : UInt32) : Bool :=
  descriptor.flags &&& flag ≠ 0

/-- `std::max_element` by area, which wraps around. -/
def largestPlane : List PlaneDescriptor → Option PlaneDescriptor
  | [] => none
  | first :: rest =>
      some (rest.foldl (fun largest descriptor =>
        if largest.width * largest.height < descriptor.width * descriptor.height then descriptor
        else largest) first)

/-- The mouse plane, if there is one. -/
def mousePlane (descriptors : List PlaneDescriptor) : Option PlaneDescriptor :=
  descriptors.find? fun descriptor => descriptor.isFlagSet isCursor

/-! ### Rendering -/

/-- An OpenGL call that returns or throws. -/
def glCall (outcome : Except String Unit) : Frame Unit :=
  match outcome with
  | .ok () => pure ()
  | .error text => Block.throwing (.runtimeError text)

/-- Create an image and bind it to its texture. -/
def importImage (world : World) (created : Option Nat) (attributes : ImageAttributes)
    (bind : Except String Unit) : Frame Nat :=
  match created with
  | none =>
      Block.throwing (.runtimeError ("eglCreateImage input failed: " ++ toString world.eglError))
  | some image => do
      Block.emit (.imageCreated image attributes)
      glCall bind
      pure image

/-- The attributes of the screen's image. -/
def inputAttributes (descriptor : PlaneDescriptor) : ImageAttributes :=
  { pixelFormat := descriptor.pixelFormat
    width := descriptor.width
    height := descriptor.height
    fd := descriptor.fd
    offset := descriptor.offset
    pitch := descriptor.pitch
    modifier := some (descriptor.modifier &&& 0xffffffff, descriptor.modifier >>> 32) }

/-- The attributes of the mouse plane's image, without the modifier. -/
def mouseAttributes (descriptor : PlaneDescriptor) : ImageAttributes :=
  { inputAttributes descriptor with modifier := none }

/-- The image of the mouse plane and the parameters of its conversion. -/
def importMouse (world : World) :
    Option PlaneDescriptor → Frame (Option (Nat × MouseParameters))
  | none => pure none
  | some descriptor => do
      let image ← importImage world world.mouseImage (mouseAttributes descriptor) world.bindMouse
      pure (some (image,
        { width := descriptor.width, height := descriptor.height
          x := descriptor.x, y := descriptor.y }))

/-- A CUDA call behind the registration. -/
def cudaCall (message : String) (outcome : Except String Unit) : Frame Unit :=
  match outcome with
  | .ok () => pure ()
  | .error text => Block.throwing (.runtimeError (message ++ text))

/-- `register_gl_texture_in_cuda`. -/
def registerGlTextureInCuda (world : World) : Frame Nat :=
  match world.register with
  | .error text =>
      Block.throwing (.runtimeError ("CUDA: Failed to register image with CUDA - " ++ text))
  | .ok resource => do
      Block.emit (.resourceRegistered resource)
      cudaCall "CUDA: Failed to set map flags - " world.setMapFlags
      cudaCall "CUDA: cuGraphicsMapResources failed - " world.mapResources
      cudaCall "CUDA: cuGraphicsSubResourceGetMappedArray dailed - " world.getMappedArray
      pure resource

/-- The call of the frame handler. -/
def callFrameHandler (world : World) : Frame Unit := do
  Block.emit .frameHandled
  match world.handleFrame with
  | .ok () => pure ()
  | .error text => Block.throwing (.runtimeError text)

/-- The last part of `dispatch_frame`, behind the guard of the images. -/
def encodeFrame (world : World) : Frame Unit := do
  let resource ← registerGlTextureInCuda world
  Block.scopeGuard (Block.emit (.resourceUnregistered resource)) (callFrameHandler world)

/-- The part of `dispatch_frame` behind the images. -/
def convertFrame (world : World) (input : Nat) (mouse : Option (Nat × MouseParameters)) :
    Frame Unit := do
  Block.emit (.converted (mouse.map Prod.snd))
  glCall world.convert
  let images := input :: (mouse.map Prod.fst).toList
  Block.scopeGuard (Block.emitAll (images.map .imageDestroyed)) (encodeFrame world)

/-- The part of `dispatch_frame` behind the guard of the descriptors. -/
def renderFrame (world : World) (descriptors : List PlaneDescriptor) : Frame Unit :=
  match largestPlane descriptors with
  | none => pure ()
  | some descriptor => do
      let input ← importImage world world.inputImage (inputAttributes descriptor) world.bindInput
      let mouse ← importMouse world (mousePlane descriptors)
      convertFrame world input mouse

/-- `dispatch_frame` behind `get_drm_data`. -/
def dispatchData (world : World) : Except Errno DRMResponse → Frame Unit
  | .error errno => if errno = .eintr then pure () else Block.throwing (.systemError errno)
  | .ok response =>
      if response.numFds.toNat = 0 then Block.throwing (.runtimeError "No DRM planes received")
      else
        Block.scopeGuard (closeDescriptors response) do
          let descriptors ← Block.ofExcept (planes response)
          renderFrame world descriptors

/-- `dispatch_frame`. -/
def dispatchFrame (world : World) : Frame Unit :=
  if world.handlerInstalled then do
    let data ← getDrmData world
    dispatchData world data
  else pure ()

end Drm
end ShadowCast
