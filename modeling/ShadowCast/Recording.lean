import ShadowCast.AudioService
import ShadowCast.Base64
import ShadowCast.FrameTime
import ShadowCast.Ownership
import ShadowCast.Parameters

/-!
# A recording

`main` reads the command line and records, from a Wayland compositor if there is one and from the X
server otherwise.  Both set up a capture, the two encoders, the output file and the services, and
run the loops.  Whatever is set up is torn down by the guards of the scopes it lives in.  The
answers of the libraries are given beforehand.
-/

namespace ShadowCast
namespace Recording

/-- What is set up for a recording. -/
inductive Resource where
  | pipewire
  | display
  | registry
  | compositor
  | output
  | surface
  | window
  | eglDisplay
  | eglSurface
  | eglContext
  | xDisplay
  | nvfbcSession
  | captureSession
  | cudaContext
  | formatContext
  | audioCodec
  /-- With the buffer pool for its frames, if it has one. -/
  | videoCodec (pooled : Bool)
  | deviceContext
  | frameContext (pooled : Bool)
  | bufferPool
  /-- A dictionary of codec options. -/
  | options
  | avio
  /-- The output file has a header and no trailer yet. -/
  | header
  /-- The output file has its trailer. -/
  | finishedFile
  /-- The descriptor of a signal service. -/
  | signalFd
  | audioService
  | videoService
  | drmVideoService
  | encoderService
  deriving DecidableEq, Repr

/-- What is done with it. -/
inductive Use where
  | makeCurrent
  /-- `avcodec_open2` of the audio encoder. -/
  | openAudioCodec (format : AVSampleFormat) (sampleRate : Int)
  /-- `avcodec_open2` of the video encoder. -/
  | openVideoCodec (codec : Resource) (width height : UInt32) (timeBase : AVRational)
  | newStream
  /-- The three loops, with this service for the frames and this encoder for them. -/
  | runLoop (video codec : Resource)
  | writeTrailer
  deriving DecidableEq, Repr

/-- The buffer pool behind the frames of an encoder. -/
def framePool (pooled : Bool) : Multiset Resource := if pooled then {.bufferPool} else 0

/-- What must live as long as an object does. -/
def Resource.depends : Resource → Multiset Resource
  | registry | compositor | output | surface | eglDisplay => {display}
  | window => {display, surface}
  | eglSurface => {eglDisplay, window}
  | eglContext => {eglDisplay}
  | captureSession => {nvfbcSession}
  | deviceContext => {cudaContext}
  | videoCodec pooled => {cudaContext} + framePool pooled
  | frameContext pooled => {cudaContext, deviceContext} + framePool pooled
  | header => {formatContext, avio}
  | audioService => {pipewire}
  | videoService => {nvfbcSession, cudaContext}
  | drmVideoService => {eglContext, cudaContext}
  | encoderService => {formatContext, cudaContext}
  | pipewire | display | xDisplay | nvfbcSession | cudaContext | formatContext | audioCodec => 0
  | bufferPool | options | avio | finishedFile | signalFd => 0

/-- What must live for a use. -/
def Use.needs : Use → Multiset Resource
  | makeCurrent => {.eglDisplay, .eglSurface, .eglContext}
  | openAudioCodec .. => {.audioCodec}
  | openVideoCodec codec .. => {.cudaContext, codec}
  | newStream => {.formatContext}
  | runLoop video codec =>
      {.cudaContext, .formatContext, .audioCodec, codec, .avio, .header, .signalFd,
        .audioService, video, .encoderService}
  | writeTrailer => {.formatContext, .avio, .header}

/-- The resources of a recording. -/
abbrev resources : Discipline (Access Use Resource) Resource :=
  .ofDependencies Resource.depends Use.needs

/-- What ends the process. -/
inductive Fault where
  | contractViolated
  | nullPointer
  /-- An exception leaves a function which must not throw, or has no handler. -/
  | terminated
  deriving DecidableEq, Repr

/-- Exceptions are known by their texts. -/
abbrev Run : Type → Type := Block (Access Use Resource) String Fault

/-- A call that returns or throws. -/
def check : Except String Unit → Run Unit
  | .ok () => pure ()
  | .error what => Block.throwing what

/-- A call that returns an object for the rest of the scope, or throws. -/
def owned {α : Type} (resource : Resource) (outcome : Except String Unit) (rest : Run α) : Run α :=
  match outcome with
  | .ok () => Block.own resource rest
  | .error what => Block.throwing what

/-- An outcome, with the text of the exception it leads to. -/
def orThrow (succeeds : Bool) (what : String) : Except String Unit :=
  if succeeds then .ok () else .error what

/-- A failure is reported together with the text of the library. -/
def prefixed (what : String) : Except String Unit → Except String Unit :=
  Except.mapError (what ++ ·)

/-- The destruction of a pointer that may be null. -/
def releaseIf (set : Bool) (resource : Resource) : Run Unit :=
  if set then Block.release resource else pure ()

/-! ### Wayland -/

/-- What the compositor tells during a round trip. -/
inductive WaylandEvent where
  /-- A global, and whether `wl_registry_bind` returns a proxy for it. -/
  | global (interface : String) (bound : Bool)
  /-- A mode of the output. -/
  | mode (flags : UInt32) (width height : Int32)
  deriving DecidableEq, Repr

/-- The pointers of `Wayland` that are set by then, and the size of the output. -/
structure Platform where
  compositor : Bool
  output : Bool
  surface : Bool
  window : Bool
  outputWidth : UInt32
  outputHeight : UInt32
  deriving DecidableEq, Repr

/-- A platform of null pointers. -/
def Platform.null : Platform := ⟨false, false, false, false, 0, 0⟩

/-- `WL_OUTPUT_MODE_CURRENT`. -/
def modeCurrent : UInt32 := 1

/-- The size of a current mode. -/
def WaylandEvent.size : WaylandEvent → Option (UInt32 × UInt32)
  | .global .. => none
  | .mode flags width height =>
      if flags &&& modeCurrent = 0 then none else some (width.toUInt32, height.toUInt32)

/-- The pointer is set to the proxy that has been bound, which replaces the previous one. -/
def replace (resource : Resource) (bound previous : Bool) : Run Unit := do
  if bound then Block.acquire resource else pure ()
  releaseIf previous resource

/-- `registry_listener.global`. -/
def Platform.global (platform : Platform) (interface : String) (bound : Bool) : Run Platform :=
  if interface = "wl_compositor" then do
    replace .compositor bound platform.compositor
    pure { platform with compositor := bound }
  else if interface = "wl_output" then do
    replace .output bound platform.output
    if bound then pure { platform with output := true } else Block.faulting .nullPointer
  else pure platform

/-- `output_listener.mode`, as long as the proxy of the output lives. -/
def Platform.mode (platform : Platform) (event : WaylandEvent) : Platform :=
  match event.size with
  | none => platform
  | some (width, height) =>
      if platform.output then { platform with outputWidth := width, outputHeight := height }
      else platform

/-- The listeners. -/
def Platform.handle (platform : Platform) (event : WaylandEvent) : Run Platform :=
  match event with
  | .global interface bound => platform.global interface bound
  | .mode .. => pure (platform.mode event)

/-- The events of the round trips. -/
def Platform.handleAll (platform : Platform) : List WaylandEvent → Run Platform
  | [] => pure platform
  | event :: events => do
      let platform ← platform.handle event
      platform.handleAll events

/-- What the Wayland libraries answer. -/
structure WaylandWorld where
  registry : Bool
  events : List WaylandEvent
  surface : Bool
  window : Bool
  deriving DecidableEq, Repr

/-- The window of `initialize_wayland`: the text of the exception, if it throws. -/
def createWindow (world : WaylandWorld) (platform : Platform) : Run (Option String × Platform) :=
  if platform.compositor then
    if world.surface then do
      Block.acquire .surface
      if world.window then do
        Block.acquire .window
        pure (none, { platform with surface := true, window := true })
      else pure (some "Failed to create Wayland window", { platform with surface := true })
    else pure (some "Failed to create Wayland surface", platform)
  else pure (some "Failed to get Wayland compositor", platform)

/-- The last part of `initialize_wayland`.  Behind the window come the guards of the output and of
the registry, and behind an exception the pointers of the platform. -/
def finishWindow (world : WaylandWorld) (platform : Platform) : Run Platform := do
  let (failure, platform) ← createWindow world platform
  releaseIf platform.output .output
  Block.release .registry
  match failure with
  | none => pure platform
  | some what => do
      releaseIf platform.window .window
      releaseIf platform.surface .surface
      releaseIf platform.compositor .compositor
      Block.throwing what

/-- `initialize_wayland`.  The display is destroyed behind the other pointers, in any case, and is
left to the caller. -/
def initializeWayland (world : WaylandWorld) : Run Platform :=
  if world.registry then do
    Block.acquire .registry
    let platform ← Platform.null.handleAll world.events
    if platform.outputWidth = 0 ∨ platform.outputHeight = 0 then Block.faulting .contractViolated
    else finishWindow world platform
  else Block.throwing "Failed to get Wayland registry"

/-- What EGL answers. -/
structure EglWorld where
  bindApi : Bool
  display : Bool
  initialized : Bool
  config : Bool
  surface : Bool
  context : Bool
  makeCurrent : Bool
  deriving DecidableEq, Repr

/-- `initialize_wayland_egl`.  A display that is not initialized is not terminated. -/
def initializeWaylandEgl (world : EglWorld) : Run Unit := do
  check (orThrow world.bindApi "Failed to bind EGL API")
  check (orThrow world.display "Failed to get EGL display")
  check (orThrow world.initialized "Failed to initialize EGL display")
  Block.acquire .eglDisplay
  Block.onThrow (Block.release .eglDisplay) do
    check (orThrow world.config "Failed to select EGL config")
    check (orThrow world.surface "Failed to create EGL surface")
    Block.acquire .eglSurface
    Block.onThrow (Block.release .eglSurface) do
      check (orThrow world.context "Failed to create EGL context")
      Block.acquire .eglContext
      Block.onThrow (Block.release .eglContext) do
        Block.emit (.use .makeCurrent)
        check (orThrow world.makeCurrent "Couldn't select context")

/-! ### The encoders -/

/-- The enumerators of `SampleFormat`. -/
def sampleFormatValue : SampleFormat → Nat
  | .u8Interleaved => 1
  | .s16Interleaved => 2
  | .s32Interleaved => 3
  | .floatInterleaved => 4
  | .doubleInterleaved => 5
  | .s64Interleaved => 6
  | .u8Planar => 7
  | .s16Planar => 8
  | .s32Planar => 9
  | .floatPlanar => 10
  | .doublePlanar => 11
  | .s64Planar => 12

/-- The fields of an `AVCodec` that are read; a missing array is a null pointer. -/
structure AVCodec where
  name : String
  sampleFmts : Option (List AVSampleFormat)
  supportedSamplerates : Option (List Int32)
  deriving DecidableEq, Repr

/-- `find_supported_formats`.  The formats are sorted backwards. -/
def findSupportedFormats (codec : AVCodec) : Except String (List SampleFormat) := do
  let results ← ((codec.sampleFmts.getD []).takeWhile (· ≠ .none)).mapM convertFromLibavFormat
  return results.mergeSort fun left right => sampleFormatValue right ≤ sampleFormatValue left

/-- `find_supported_sample_rates`. -/
def findSupportedSampleRates (codec : AVCodec) : List Int32 :=
  (codec.supportedSamplerates.getD []).takeWhile (· ≠ 0)

/-- `is_sample_rate_supported`.  The comparison is unsigned. -/
def isSampleRateSupported (requested : UInt32) (codec : AVCodec) : Bool :=
  (findSupportedSampleRates codec).isEmpty ||
    (findSupportedSampleRates codec).any fun rate => rate.toUInt32 = requested

/-- What libav answers about the audio encoder. -/
structure AudioWorld where
  codec : Option AVCodec
  allocated : Bool
  opened : Except String Unit
  /-- `avcodec_open2` leaves options behind which it does not know. -/
  optionsLeft : Bool
  stream : Bool
  parameters : Except String Unit

/-- `avcodec_open2`, whose options are consumed or left behind. -/
def openCodec (use : Use) (options optionsLeft : Bool) (opened : Except String Unit) :
    Run Unit := do
  if options then Block.acquire .options else pure ()
  Block.emit (.use use)
  releaseIf (options && !optionsLeft) .options
  check opened

/-- The stream of an encoder. -/
def addStream (kind : String) (stream : Bool) (copy : String) (parameters : Except String Unit) :
    Run Unit := do
  Block.emit (.use .newStream)
  check (orThrow stream ("Failed to allocate " ++ kind ++ " stream"))
  check (prefixed copy parameters)

/-- The audio encoder, up to the end of its scope.  `apply_audio_codec_modifiers` sets options for
`libopus` only. -/
def withAudioEncoder (params : Parameters) (world : AudioWorld) (rest : Run Unit) : Run Unit :=
  match world.codec with
  | none => Block.throwing "Failed to find required audio codec"
  | some codec => do
      check (orThrow (isSampleRateSupported (.ofInt params.sampleRate) codec)
        ("Sample rate not supported by codec: " ++ toString params.sampleRate))
      match findSupportedFormats codec with
      | .error what => Block.throwing what
      | .ok [] => Block.throwing "No supported sample formats found"
      | .ok (format :: _) =>
          owned .audioCodec
              (orThrow world.allocated "Failed to allocate audio codec context") do
            openCodec (.openAudioCodec (convertToLibavFormat format) params.sampleRate)
              (codec.name = "libopus") world.optionsLeft
              (prefixed "Failed to open audio codec: " world.opened)
            addStream "audio" world.stream "Failed to copy codec parameters from context: "
              world.parameters
            rest

/-- What libav answers about the video encoder. -/
structure VideoWorld where
  codec : Bool
  allocated : Bool
  device : Bool
  deviceInit : Except String Unit
  frames : Bool
  framesInit : Except String Unit
  opened : Except String Unit
  optionsLeft : Bool
  stream : Bool
  parameters : Except String Unit

/-- `create_video_encoder`, with a buffer pool or without one.  The context that is allocated is not
checked. -/
def createVideoEncoder (world : VideoWorld) (pooled : Bool) (width height : UInt32)
    (frameTime : FrameTime) : Run Unit := do
  check (orThrow world.codec "Failed to find required video codec")
  if world.allocated then do
    Block.acquire (.videoCodec pooled)
    Block.onThrow (Block.release (.videoCodec pooled)) do
      owned .deviceContext (orThrow world.device "Failed to allocate H/W device context") do
        check (prefixed "Failed to initialize H/W device context: " world.deviceInit)
        owned (.frameContext pooled)
            (orThrow world.frames "Failed to allocate H/W frame context") do
          check (prefixed "Failed to initialize H/W frame context: " world.framesInit)
          openCodec (.openVideoCodec (.videoCodec pooled) width height frameTime.fpsRatio) true
            world.optionsLeft (prefixed "Failed to open video codec: " world.opened)
  else Block.faulting .nullPointer

/-- The video encoder, up to the end of its scope. -/
def withVideoEncoder (params : Parameters) (world : VideoWorld) (pooled : Bool)
    (width height : UInt32) (rest : Run Unit) : Run Unit := do
  createVideoEncoder world pooled width height params.frameTime
  Block.scopeGuard (Block.release (.videoCodec pooled)) do
    addStream "video" world.stream "Failed to copy video codec parameters from context: "
      world.parameters
    rest

/-! ### The output -/

/-- How the three loops end. -/
inductive LoopEnd where
  | returned
  | threw (what : String)
  /-- An exception that is a pointer, for which `main` has no handler. -/
  | threwPointer
  deriving DecidableEq, Repr

/-- What is answered about the output file and the services. -/
structure OutputWorld where
  formatContext : Except String Unit
  avioOpen : Except String Unit
  writeHeader : Except String Unit
  /-- The constructor of the signal service, and its first handler. -/
  signalService : Except String Unit
  signalHandler : Except String Unit
  /-- The same in `run_loop`. -/
  loopService : Except String Unit
  loopHandler : Except String Unit
  /-- The order in which the services of a registry are destroyed. -/
  videoFirst : Bool
  loops : LoopEnd
  /-- `av_write_trailer`. -/
  trailer : Except String Unit

/-- `run_loop`.  Its signal service is not kept, since the registry has one already. -/
def runLoop (world : OutputWorld) (video codec : Resource) : Run Unit := do
  check world.loopService
  Block.acquire .signalFd
  Block.release .signalFd
  check world.loopHandler
  Block.emit (.use (.runLoop video codec))
  match world.loops with
  | .returned => pure ()
  | .threw what => Block.throwing what
  | .threwPointer => Block.faulting .terminated

/-- The guard that writes the trailer.  A failure is only printed, and the file stays as it is. -/
def writeTrailer (world : OutputWorld) : Run Unit := do
  Block.emit (.use .writeTrailer)
  match world.trailer with
  | .ok () => do
      Block.release .header
      Block.acquire .finishedFile
  | .error _ => pure ()

/-- The contexts are destroyed, with the services in their registries. -/
def destroyContexts (world : OutputWorld) (video : Resource) : Run Unit := do
  Block.release .encoderService
  Block.release .audioService
  if world.videoFirst then do
    Block.release video
    Block.release .signalFd
  else do
    Block.release .signalFd
    Block.release video

/-- The services, from the header on. -/
def withServices (world : OutputWorld) (video : Resource) (rest : Run Unit) : Run Unit := do
  check world.signalService
  Block.acquire .signalFd
  Block.onThrow (Block.release .signalFd) (check world.signalHandler)
  Block.acquire .audioService
  Block.acquire video
  Block.acquire .encoderService
  Block.scopeGuard (destroyContexts world video) rest

/-- The last part of `run_wayland` and of `run`, from `avio_open` on. -/
def writeOutput (world : OutputWorld) (video codec : Resource) : Run Unit :=
  owned .avio (prefixed "Failed to open output file: " world.avioOpen) do
    check (prefixed "Failed to write header: " world.writeHeader)
    Block.acquire .header
    withServices world video do
      Block.scopeGuard (writeTrailer world) (runLoop world video codec)

/-! ### The two captures -/

/-- What is answered to `run_wayland`. -/
structure WaylandRun where
  /-- The libraries for OpenGL, CUDA and EGL are loaded. -/
  libraries : Except String Unit
  wayland : WaylandWorld
  egl : EglWorld
  cuInit : Except String Unit
  cudaContext : Except String Unit
  audio : AudioWorld
  video : VideoWorld
  output : OutputWorld

/-- The pointers of a `Wayland` that has been set up. -/
def withPlatform (rest : Run Unit) : Run Unit :=
  Block.scopeGuard (Block.release .compositor) do
    Block.scopeGuard (Block.release .surface) do
      Block.scopeGuard (Block.release .window) rest

/-- A `WaylandEGL`. -/
def withEgl (rest : Run Unit) : Run Unit :=
  Block.scopeGuard (Block.release .eglDisplay) do
    Block.scopeGuard (Block.release .eglSurface) do
      Block.scopeGuard (Block.release .eglContext) rest

/-- `run_wayland`. -/
def runWayland (params : Parameters) (world : WaylandRun) : Run Unit := do
  check world.libraries
  let platform ← initializeWayland world.wayland
  withPlatform do
    initializeWaylandEgl world.egl
    withEgl do
      check world.cuInit
      owned .cudaContext world.cudaContext do
        owned .formatContext
            (prefixed "Failed to allocate output context: " world.output.formatContext) do
          withAudioEncoder params world.audio do
            withVideoEncoder params world.video false platform.outputWidth
                platform.outputHeight do
              writeOutput world.output .drmVideoService (.videoCodec false)

/-- What is answered to `run`. -/
structure X11Run where
  display : Bool
  /-- The libraries for CUDA and NvFBC are loaded. -/
  libraries : Except String Unit
  cuInit : Except String Unit
  cudaContext : Except String Unit
  instance' : Bool
  byteOrder : ByteOrder
  /-- `SHADOW_CAST_NVFBC_KEY`. -/
  key : Option (List Char)
  session : Bool
  captureSession : Except String Unit
  cudaSetUp : Except String Unit
  destroyed : Bool
  bufferPool : Bool
  width : Int32
  height : Int32
  audio : AudioWorld
  video : VideoWorld
  output : OutputWorld

/-- `create_nvfbc_session`.  The result of decoding the key is not checked. -/
def withNvfbcSession (world : X11Run) (rest : Run Unit) : Run Unit :=
  match Base64.base64Decode world.byteOrder (world.key.getD []) with
  | .error _ => Block.faulting .terminated
  | .ok _ => owned .nvfbcSession (orThrow world.session "Couldn't create NvFBC instance") rest

/-- `create_nvfbc_capture_session`. -/
def createNvfbcCaptureSession (world : X11Run) : Run Unit := do
  check world.captureSession
  Block.acquire .captureSession
  check world.cudaSetUp

/-- `destroy_nvfbc_capture_session`, from a destructor. -/
def destroyNvfbcCaptureSession (world : X11Run) : Run Unit := do
  Block.release .captureSession
  if world.destroyed then pure () else Block.faulting .terminated

/-- `run`. -/
def run (params : Parameters) (world : X11Run) : Run Unit :=
  owned .xDisplay (orThrow world.display "Failed to open X display") do
    check world.libraries
    check world.cuInit
    owned .cudaContext world.cudaContext do
      check (orThrow world.instance' "Failed to get NvFBC instance")
      withNvfbcSession world do
        createNvfbcCaptureSession world
        Block.scopeGuard (destroyNvfbcCaptureSession world) do
          owned .formatContext
              (prefixed "Failed to allocate output context: " world.output.formatContext) do
            withAudioEncoder params world.audio do
              owned .bufferPool
                  (orThrow world.bufferPool "Failed to allocate video buffer pool") do
                if 0 < world.width ∧ 0 < world.height then
                  withVideoEncoder params world.video true world.width.toUInt32
                      world.height.toUInt32 do
                    writeOutput world.output .videoService (.videoCodec true)
                else Block.faulting .contractViolated

/-! ### The program -/

/-- What is answered to `main`. -/
structure World where
  blockSignals : Except String Unit
  display : Bool
  wayland : WaylandRun
  x11 : X11Run

/-- The parameters of `run`, where the frame time may be cut to milliseconds. -/
def x11Parameters (params : Parameters) : Parameters :=
  if params.strictFrameTime then params
  else { params with frameTime := truncateToMillisecond params.frameTime }

/-- A recording with these parameters. -/
def record (params : Parameters) (world : World) : Run Unit :=
  Block.own .pipewire do
    if world.display then Block.own .display (runWayland params world.wayland)
    else run (x11Parameters params) world.x11

/-- The statements of `main` that may throw, and the exit code behind them.  The help and the
version are printed. -/
def mainBody (argv : List (List Char)) (env : Option (List Char)) (world : World) : Run Nat := do
  check world.blockSignals
  match CmdLine.parseCmdLine argv with
  | .error error => Block.throwing (.ofList error.what)
  | .ok cmdline =>
      match cmdline.getParameters env with
      | .error _ => Block.faulting .terminated
      | .ok (.error error) =>
          if error.type = .error then Block.throwing (.ofList error.what) else pure 0
      | .ok (.ok params) => do
          record params world
          pure 0

/-- `main`, with the words behind the program's name: the exit code. -/
def main (argv : List (List Char)) (env : Option (List Char)) (world : World) : Run Nat :=
  Block.handling (mainBody argv env world) fun _ => pure 1

end Recording
end ShadowCast
