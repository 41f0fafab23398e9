import ShadowCast.RecordingResources

/-!
# What the encoders are opened with

From the words of the command line to `avcodec_open2`: the sample rate and the sample format are
ones the codec supports, the size is the captured one, and the time base is that of the frame rate.
-/

namespace ShadowCast
namespace Recording

open Block

variable {α : Type}

/-- The codecs are opened as the properties say. -/
def OpensAs (audio : AVSampleFormat → Int → Prop) (video : UInt32 → UInt32 → AVRational → Prop) :
    Access Use Resource → Prop
  | .use (.openAudioCodec format sampleRate) => audio format sampleRate
  | .use (.openVideoCodec _ width height timeBase) => video width height timeBase
  | _ => True

section Causes

variable {audio : AVSampleFormat → Int → Prop} {video : UInt32 → UInt32 → AVRational → Prop}

theorem check_causes {outcome : Except String Unit} {P : Access Use Resource → Prop} :
    (check outcome).Causes P := by
  cases outcome with
  | ok done => exact Causes.pure
  | error what => exact Causes.throwing

/-- A call that may throw, and the rest behind it. -/
theorem check_bind_causes {outcome : Except String Unit} {rest : Unit → Run α}
    {P : Access Use Resource → Prop} (causes : (rest ()).Causes P) :
    (check outcome >>= rest).Causes P :=
  check_causes.bind fun _ _ => causes

theorem acquire_causes {resource : Resource} :
    (acquire resource : Run Unit).Causes (OpensAs audio video) :=
  Causes.emit trivial

theorem release_causes {resource : Resource} :
    (release resource : Run Unit).Causes (OpensAs audio video) :=
  Causes.emit trivial

theorem onThrow_causes {cleanup : Run Unit} {block : Run α} {P : Access Use Resource → Prop}
    (cleans : cleanup.Causes P) (causes : block.Causes P) : (onThrow cleanup block).Causes P :=
  causes.handling fun _ => cleans.bind fun _ _ => Causes.throwing

theorem guard_causes {resource : Resource} {rest : Run α}
    (causes : rest.Causes (OpensAs audio video)) :
    (Block.scopeGuard (release resource) rest).Causes (OpensAs audio video) :=
  Causes.scopeGuard release_causes causes

theorem own_causes {resource : Resource} {rest : Run α}
    (causes : rest.Causes (OpensAs audio video)) :
    (own resource rest).Causes (OpensAs audio video) :=
  acquire_causes.bind fun _ _ => guard_causes causes

theorem owned_causes {resource : Resource} {outcome : Except String Unit} {rest : Run α}
    (causes : rest.Causes (OpensAs audio video)) :
    (owned resource outcome rest).Causes (OpensAs audio video) := by
  cases outcome with
  | ok done => exact own_causes causes
  | error what => exact Causes.throwing

theorem releaseIf_causes {set : Bool} {resource : Resource} :
    (releaseIf set resource).Causes (OpensAs audio video) := by
  cases set with
  | true => exact release_causes
  | false => exact Causes.pure

/-! ### The parts of a recording -/

theorem openCodec_causes {use : Use} {options optionsLeft : Bool} {opened : Except String Unit}
    (opens : OpensAs audio video (.use use)) :
    (openCodec use options optionsLeft opened).Causes (OpensAs audio video) := by
  cases options with
  | true =>
      refine acquire_causes.bind fun _ _ => (Causes.emit opens).bind fun _ _ => ?_
      exact releaseIf_causes.bind fun _ _ => check_causes
  | false =>
      refine (Causes.emit opens).bind fun _ _ => ?_
      exact Causes.pure.bind fun _ _ => check_causes

theorem addStream_causes {kind copy : String} {stream : Bool} {parameters : Except String Unit} :
    (addStream kind stream copy parameters).Causes (OpensAs audio video) :=
  (Causes.emit trivial).bind fun _ _ => check_bind_causes check_causes

theorem replace_causes {resource : Resource} {bound previous : Bool} :
    (replace resource bound previous).Causes (OpensAs audio video) := by
  have releases : (releaseIf previous resource).Causes (OpensAs audio video) := releaseIf_causes
  cases bound with
  | true => exact acquire_causes.bind fun _ _ => releases
  | false => exact releases

theorem handleAll_causes {platform : Platform} {events : List WaylandEvent} :
    (platform.handleAll events).Causes (OpensAs audio video) := by
  induction events generalizing platform with
  | nil => exact Causes.pure
  | cons event events ih =>
      refine Causes.bind ?_ fun _ _ => ih
      cases event with
      | mode flags width height => exact Causes.pure
      | global interface bound =>
          change (platform.global interface bound).Causes _
          unfold Platform.global
          by_cases compositor : interface = "wl_compositor"
          · rw [if_pos compositor]
            exact replace_causes.bind fun _ _ => Causes.pure
          rw [if_neg compositor]
          by_cases output : interface = "wl_output"
          · rw [if_pos output]
            refine replace_causes.bind fun _ _ => ?_
            cases bound with
            | true => exact Causes.pure
            | false => exact Causes.faulting
          · rw [if_neg output]
            exact Causes.pure

theorem initializeWayland_causes {world : WaylandWorld} :
    (initializeWayland world).Causes (OpensAs audio video) := by
  have creates (platform : Platform) :
      (createWindow world platform).Causes (OpensAs audio video) := by
    unfold createWindow
    cases platform.compositor with
    | false => exact Causes.pure
    | true =>
        cases world.surface with
        | false => exact Causes.pure
        | true =>
            refine acquire_causes.bind fun _ _ => ?_
            cases world.window with
            | true => exact acquire_causes.bind fun _ _ => Causes.pure
            | false => exact Causes.pure
  unfold initializeWayland
  cases world.registry with
  | false => exact Causes.throwing
  | true =>
      refine acquire_causes.bind fun _ _ => handleAll_causes.bind fun platform _ => ?_
      by_cases unknown : platform.outputWidth = 0 ∨ platform.outputHeight = 0
      · rw [if_pos unknown]
        exact Causes.faulting
      rw [if_neg unknown]
      refine (creates platform).bind fun created _ => releaseIf_causes.bind fun _ _ => ?_
      refine release_causes.bind fun _ _ => ?_
      cases created.1 with
      | none => exact Causes.pure
      | some what =>
          refine releaseIf_causes.bind fun _ _ => releaseIf_causes.bind fun _ _ => ?_
          exact releaseIf_causes.bind fun _ _ => Causes.throwing

theorem initializeWaylandEgl_causes {world : EglWorld} :
    (initializeWaylandEgl world).Causes (OpensAs audio video) := by
  refine check_bind_causes (check_bind_causes (check_bind_causes ?_))
  refine acquire_causes.bind fun _ _ => onThrow_causes release_causes ?_
  refine check_bind_causes (check_bind_causes ?_)
  refine acquire_causes.bind fun _ _ => onThrow_causes release_causes ?_
  refine check_bind_causes (acquire_causes.bind fun _ _ => onThrow_causes release_causes ?_)
  exact (Causes.emit trivial).bind fun _ _ => check_causes

end Causes

/-! ### What a codec supports -/

/-- The formats of a codec, up to the terminator. -/
def AVCodec.listedFormats (codec : AVCodec) : List AVSampleFormat :=
  (codec.sampleFmts.getD []).takeWhile (· ≠ .none)

/-- A listed format, whose enumerator is the greatest one of all listed formats. -/
def IsBest (codec : AVCodec) (format : AVSampleFormat) : Prop :=
  format ∈ codec.listedFormats ∧ ∃ best, convertFromLibavFormat format = .ok best ∧
    ∀ other ∈ codec.listedFormats, ∃ value, convertFromLibavFormat other = .ok value ∧
      sampleFormatValue value ≤ sampleFormatValue best

/-- The codec lists no rates, or this one. -/
def SupportsRate (codec : AVCodec) (sampleRate : Int) : Prop :=
  findSupportedSampleRates codec = [] ∨
    ∃ rate ∈ findSupportedSampleRates codec, rate.toInt = sampleRate

theorem convertTo_of_convertFrom {libav : AVSampleFormat} {format : SampleFormat}
    (converted : convertFromLibavFormat libav = .ok format) :
    convertToLibavFormat format = libav := by
  cases libav <;> cases converted <;> rfl

/-- Every value is converted, and nothing else is there. -/
theorem mem_of_mapM {β γ : Type} {f : β → Except String γ} {values : List β} {results : List γ}
    (mapped : values.mapM f = .ok results) :
    (∀ value ∈ values, ∃ result ∈ results, f value = .ok result) ∧
      ∀ result ∈ results, ∃ value ∈ values, f value = .ok result := by
  induction values generalizing results with
  | nil =>
      cases mapped
      simp
  | cons value values ih =>
      rw [List.mapM_cons] at mapped
      cases converted : f value with
      | error what => simp [converted, bind, Except.bind] at mapped
      | ok first =>
          cases rest : values.mapM f with
          | error what => simp [converted, rest, bind, Except.bind] at mapped
          | ok others =>
              simp only [converted, rest, bind, Except.bind, pure, Except.pure] at mapped
              obtain rfl := Except.ok.inj mapped
              obtain ⟨all, only⟩ := ih rest
              constructor
              · rw [List.forall_mem_cons]
                refine ⟨⟨first, List.mem_cons_self, converted⟩, fun other member => ?_⟩
                obtain ⟨result, member', same⟩ := all other member
                exact ⟨result, List.mem_cons_of_mem _ member', same⟩
              · rw [List.forall_mem_cons]
                refine ⟨⟨value, List.mem_cons_self, converted⟩, fun other member => ?_⟩
                obtain ⟨origin, member', same⟩ := only other member
                exact ⟨origin, List.mem_cons_of_mem _ member', same⟩

/-- The first one of the supported formats. -/
theorem isBest_of_findSupportedFormats {codec : AVCodec} {best : SampleFormat}
    {others : List SampleFormat} (found : findSupportedFormats codec = .ok (best :: others)) :
    IsBest codec (convertToLibavFormat best) := by
  unfold findSupportedFormats at found
  cases mapped : codec.listedFormats.mapM convertFromLibavFormat with
  | error what =>
      rw [AVCodec.listedFormats] at mapped
      simp only [mapped, bind, Except.bind] at found
      cases found
  | ok results =>
      obtain ⟨all, only⟩ := mem_of_mapM mapped
      rw [AVCodec.listedFormats] at mapped
      simp only [mapped, bind, Except.bind, pure, Except.pure] at found
      have sorted := Except.ok.inj found
      have descending : (best :: others).Pairwise fun left right =>
          decide (sampleFormatValue right ≤ sampleFormatValue left) = true := by
        rw [← sorted]
        refine List.pairwise_mergeSort (fun _ _ _ => ?_) (fun left right => ?_) results
        · simp only [decide_eq_true_eq]
          omega
        · simp only [Bool.or_eq_true, decide_eq_true_eq]
          omega
      have among (format : SampleFormat) : format ∈ best :: others ↔ format ∈ results := by
        rw [← sorted, List.mem_mergeSort]
      obtain ⟨origin, listed, converted⟩ := only best ((among best).mp List.mem_cons_self)
      rw [convertTo_of_convertFrom converted]
      refine ⟨listed, best, converted, fun other member => ?_⟩
      obtain ⟨value, member', converted'⟩ := all other member
      refine ⟨value, converted', ?_⟩
      rcases List.mem_cons.mp ((among value).mpr member') with rfl | later
      · exact le_rfl
      · simpa using List.rel_of_pairwise_cons descending later

theorem supportsRate_of_isSampleRateSupported {codec : AVCodec} {sampleRate : Int}
    (low : 0 ≤ sampleRate) (high : sampleRate < 2 ^ 31)
    (supported : isSampleRateSupported (.ofInt sampleRate) codec = true) :
    SupportsRate codec sampleRate := by
  rcases Bool.or_eq_true_iff.mp supported with none | listed
  · exact .inl (List.isEmpty_iff.mp none)
  · obtain ⟨rate, member, same⟩ := List.any_eq_true.mp listed
    refine .inr ⟨rate, member, ?_⟩
    have bits : rate.toBitVec.toNat = (sampleRate % 2 ^ 32).toNat % 2 ^ 32 :=
      congrArg UInt32.toNat (of_decide_eq_true same)
    have value : rate.toBitVec.toNat = sampleRate.toNat := by omega
    calc rate.toInt
        = rate.toBitVec.toNat := BitVec.toInt_eq_toNat_of_lt (by omega)
      _ = sampleRate := by omega

/-! ### What the codecs are opened with -/

section Causes

variable {audio : AVSampleFormat → Int → Prop} {video : UInt32 → UInt32 → AVRational → Prop}

theorem withAudioEncoder_causes {params : Parameters} {world : AudioWorld} {rest : Run Unit}
    (opens : ∀ codec, world.codec = some codec →
      isSampleRateSupported (.ofInt params.sampleRate) codec = true →
        ∀ format, IsBest codec format → audio format params.sampleRate)
    (causes : rest.Causes (OpensAs audio video)) :
    (withAudioEncoder params world rest).Causes (OpensAs audio video) := by
  unfold withAudioEncoder
  cases known : world.codec with
  | none => exact Causes.throwing
  | some codec =>
      dsimp only
      cases rate : isSampleRateSupported (.ofInt params.sampleRate) codec with
      | false => exact Causes.throwing
      | true =>
          refine check_bind_causes ?_
          cases found : findSupportedFormats codec with
          | error what => exact Causes.throwing
          | ok formats =>
              cases formats with
              | nil => exact Causes.throwing
              | cons best others =>
                  have best := isBest_of_findSupportedFormats found
                  refine owned_causes ((openCodec_causes ?_).bind fun _ _ => ?_)
                  · exact opens codec known rate _ best
                  · exact addStream_causes.bind fun _ _ => causes

theorem withVideoEncoder_causes {params : Parameters} {world : VideoWorld} {pooled : Bool}
    {width height : UInt32} {rest : Run Unit}
    (opens : video width height params.frameTime.fpsRatio)
    (causes : rest.Causes (OpensAs audio video)) :
    (withVideoEncoder params world pooled width height rest).Causes (OpensAs audio video) := by
  have creates : (createVideoEncoder world pooled width height params.frameTime).Causes
      (OpensAs audio video) := by
    refine check_bind_causes ?_
    cases world.allocated with
    | false => exact Causes.faulting
    | true =>
        refine acquire_causes.bind fun _ _ => onThrow_causes release_causes ?_
        refine owned_causes (check_bind_causes (owned_causes (check_bind_causes ?_)))
        exact openCodec_causes opens
  refine creates.bind fun _ _ => guard_causes ?_
  exact addStream_causes.bind fun _ _ => causes

theorem writeOutput_causes {world : OutputWorld} {service codec : Resource} :
    (writeOutput world service codec).Causes (OpensAs audio video) := by
  have loops : (runLoop world service codec).Causes (OpensAs audio video) := by
    refine check_bind_causes (acquire_causes.bind fun _ _ => release_causes.bind fun _ _ => ?_)
    refine check_bind_causes ((Causes.emit trivial).bind fun _ _ => ?_)
    cases world.loops with
    | returned => exact Causes.pure
    | threw what => exact Causes.throwing
    | threwPointer => exact Causes.faulting
  have destroys : (destroyContexts world service).Causes (OpensAs audio video) := by
    refine release_causes.bind fun _ _ => release_causes.bind fun _ _ => ?_
    cases world.videoFirst with
    | true => exact release_causes.bind fun _ _ => release_causes
    | false => exact release_causes.bind fun _ _ => release_causes
  refine owned_causes (check_bind_causes (acquire_causes.bind fun _ _ => ?_))
  refine check_bind_causes (acquire_causes.bind fun _ _ => ?_)
  refine (onThrow_causes release_causes check_causes).bind fun _ _ => ?_
  refine acquire_causes.bind fun _ _ => acquire_causes.bind fun _ _ => ?_
  refine acquire_causes.bind fun _ _ => Causes.scopeGuard destroys (Causes.scopeGuard ?_ loops)
  refine (Causes.emit trivial).bind fun _ _ => ?_
  cases world.trailer with
  | ok done => exact release_causes.bind fun _ _ => acquire_causes
  | error what => exact Causes.pure

end Causes

/-- The size of the last current mode that has been announced. -/
def IsLastMode (events : List WaylandEvent) (width height : UInt32) : Prop :=
  ∃ front event back, events = front ++ event :: back ∧ Announced front ∧
    event.size = some (width, height) ∧ ∀ later ∈ back, later.size = none

theorem isLastMode_of_returned {world : WaylandWorld} {platform : Platform}
    (returned : (initializeWayland world).exit = .returned platform) :
    platform.outputWidth ≠ 0 ∧ platform.outputHeight ≠ 0 ∧
      IsLastMode world.events platform.outputWidth platform.outputHeight := by
  have display : Resource.display ∈ ({.display} : Multiset Resource) :=
    Multiset.mem_singleton_self _
  obtain ⟨left, -, beyond⟩ :=
    @initializeWayland_stays {.display} 0 (Multiset.singleton_le.mpr display) world
  rw [returned] at beyond
  obtain ⟨more, -, -, sized, width, height⟩ := beyond fun fault same => (by cases same)
  rcases sized with ⟨none, -⟩ | last
  · exact absurd none width
  · exact ⟨width, height, last⟩

variable {audio : AVSampleFormat → Int → Prop} {video : UInt32 → UInt32 → AVRational → Prop}

theorem runWayland_causes {params : Parameters} {world : WaylandRun}
    (opens : ∀ codec, world.audio.codec = some codec →
      isSampleRateSupported (.ofInt params.sampleRate) codec = true →
        ∀ format, IsBest codec format → audio format params.sampleRate)
    (shows : ∀ width height, width ≠ 0 → height ≠ 0 →
      IsLastMode world.wayland.events width height →
        video width height params.frameTime.fpsRatio) :
    (runWayland params world).Causes (OpensAs audio video) := by
  refine check_bind_causes (initializeWayland_causes.bind fun platform returned => ?_)
  obtain ⟨width, height, last⟩ := isLastMode_of_returned returned
  refine guard_causes (guard_causes (guard_causes ?_))
  refine initializeWaylandEgl_causes.bind fun _ _ => ?_
  refine guard_causes (guard_causes (guard_causes (check_bind_causes ?_)))
  refine owned_causes (owned_causes (withAudioEncoder_causes opens ?_))
  exact withVideoEncoder_causes (shows _ _ width height last) writeOutput_causes

theorem run_causes {params : Parameters} {world : X11Run}
    (opens : ∀ codec, world.audio.codec = some codec →
      isSampleRateSupported (.ofInt params.sampleRate) codec = true →
        ∀ format, IsBest codec format → audio format params.sampleRate)
    (shows : 0 < world.width → 0 < world.height →
      video world.width.toUInt32 world.height.toUInt32 params.frameTime.fpsRatio) :
    (run params world).Causes (OpensAs audio video) := by
  refine owned_causes (check_bind_causes (check_bind_causes (owned_causes ?_)))
  refine check_bind_causes ?_
  unfold withNvfbcSession
  cases Base64.base64Decode world.byteOrder (world.key.getD []) with
  | error error => exact Causes.faulting
  | ok decoded =>
      refine owned_causes (Causes.bind ?_ fun _ _ => Causes.scopeGuard ?_ ?_)
      · exact check_bind_causes (acquire_causes.bind fun _ _ => check_causes)
      · refine release_causes.bind fun _ _ => ?_
        cases world.destroyed with
        | true => exact Causes.pure
        | false => exact Causes.faulting
      refine owned_causes (withAudioEncoder_causes opens (owned_causes ?_))
      by_cases size : 0 < world.width ∧ 0 < world.height
      · rw [if_pos size]
        exact withVideoEncoder_causes (shows size.1 size.2) writeOutput_causes
      · rw [if_neg size]
        exact Causes.faulting

/-! ### From the command line on -/

/-- The parameters that are given for words are safe. -/
theorem safe_of_asks {argv : List (List Char)} {env : Option (List Char)} {params : Parameters}
    (asks : Asks argv env params) : ∃ cmdline, CmdLine.SafeParameters cmdline params := by
  obtain ⟨cmdline, parsed, given⟩ := asks
  refine ⟨cmdline, ?_⟩
  obtain ⟨options, found, passes, same⟩ := CmdLine.given_of_parsed parsed
  have args : cmdline.args = CmdLine.givenArguments argv := by rw [same]
  have help : CmdLine.hasOption cmdline .help = false := by
    refine Bool.eq_false_iff.mpr fun asked => ?_
    simp [CmdLine.getParameters, asked, pure, Except.pure] at given
  have version : CmdLine.hasOption cmdline .version = false := by
    refine Bool.eq_false_iff.mpr fun asked => ?_
    simp [CmdLine.getParameters, help, asked, pure, Except.pure] at given
  have made := CmdLine.getParameters_eq (by rw [same]) (CmdLine.mem_of_givenOptions found) passes
    (by rw [args]; exact CmdLine.ne_nil_of_mem_givenArguments) env help version
  by_cases positional : cmdline.args = []
  · rw [if_pos positional, given] at made
    cases Except.ok.inj made
  · rw [if_neg positional] at made
    obtain ⟨params', made, safe⟩ := made
    cases Except.ok.inj (given.symm.trans made)
    exact safe

/-- The frames a second that the encoder counts. -/
def countedRate (fps : UInt32) (exact : Bool) : Nat :=
  if exact then
    if fps.toNat = 29 ∨ fps.toNat = 51 ∨ fps.toNat = 58 then fps.toNat - 1 else fps.toNat
  else 1000 / (1000 / fps.toNat)

/-- The size that is captured. -/
def World.Shows (world : World) (width height : UInt32) : Prop :=
  if world.display then
    width ≠ 0 ∧ height ≠ 0 ∧ IsLastMode world.wayland.wayland.events width height
  else 0 < world.x11.width ∧ 0 < world.x11.height ∧
    width = world.x11.width.toUInt32 ∧ height = world.x11.height.toUInt32

/-- The codec that libav finds. -/
def World.audioCodec (world : World) : Option AVCodec :=
  if world.display then world.wayland.audio.codec else world.x11.audio.codec

/-- What the audio encoder is opened with. -/
def AudioAsAsked (argv : List (List Char)) (env : Option (List Char)) (world : World)
    (format : AVSampleFormat) (sampleRate : Int) : Prop :=
  ∃ params codec, Asks argv env params ∧ world.audioCodec = some codec ∧
    sampleRate = params.sampleRate ∧ 8000 ≤ sampleRate ∧ sampleRate ≤ 48000 ∧
      SupportsRate codec sampleRate ∧ IsBest codec format

/-- What the video encoder is opened with. -/
def VideoAsAsked (argv : List (List Char)) (env : Option (List Char)) (world : World)
    (width height : UInt32) (timeBase : AVRational) : Prop :=
  ∃ params fps, Asks argv env params ∧ params.frameTime = fromFps fps ∧ 20 ≤ fps.toNat ∧
    fps.toNat ≤ 70 ∧ timeBase = ⟨1, countedRate fps (world.display || params.strictFrameTime)⟩ ∧
      world.Shows width height

theorem captured_causes {argv : List (List Char)} {env : Option (List Char)} {params : Parameters}
    {world : World} (asks : Asks argv env params) :
    (if world.display then own .display (runWayland params world.wayland)
      else run (x11Parameters params) world.x11 : Run Unit).Causes
      (OpensAs (AudioAsAsked argv env world) (VideoAsAsked argv env world)) := by
  obtain ⟨cmdline, safe⟩ := safe_of_asks asks
  obtain ⟨rate, -, slow, fast, frameTime⟩ := safe.frameRate
  have number : (UInt32.ofInt rate).toNat = rate.toNat := by
    change (rate % 2 ^ 32).toNat % 2 ^ 32 = rate.toNat
    omega
  have low : 20 ≤ (UInt32.ofInt rate).toNat := by omega
  have high : (UInt32.ofInt rate).toNat ≤ 70 := by omega
  have sample (codec : AVCodec) (known : world.audioCodec = some codec)
      (supported : isSampleRateSupported (.ofInt params.sampleRate) codec = true)
      (format : AVSampleFormat) (best : IsBest codec format) :
      AudioAsAsked argv env world format params.sampleRate := by
    obtain ⟨slow, fast⟩ := safe.sampleRate
    have listed := supportsRate_of_isSampleRateSupported (by omega) (by omega) supported
    exact ⟨params, codec, asks, known, rfl, slow, fast, listed, best⟩
  cases display : world.display with
  | true =>
      rw [World.audioCodec, display] at sample
      refine own_causes (runWayland_causes sample fun width height wide tall last => ?_)
      have timeBase : params.frameTime.fpsRatio = ⟨1, countedRate (.ofInt rate) true⟩ := by
        rw [frameTime]
        exact congrArg (AVRational.mk 1) (fpsRatio_fromFps low high)
      refine ⟨params, .ofInt rate, asks, frameTime, low, high, ?_, ?_⟩
      · rw [timeBase, display, Bool.true_or]
      · rw [World.Shows, display]
        exact ⟨wide, tall, last⟩
  | false =>
      rw [World.audioCodec, display] at sample
      have same : (x11Parameters params).sampleRate = params.sampleRate := by
        unfold x11Parameters
        split <;> rfl
      have timeBase : (x11Parameters params).frameTime.fpsRatio =
          ⟨1, countedRate (.ofInt rate) params.strictFrameTime⟩ := by
        unfold x11Parameters
        cases params.strictFrameTime with
        | true =>
            rw [if_pos rfl, frameTime]
            exact congrArg (AVRational.mk 1) (fpsRatio_fromFps low high)
        | false =>
            rw [if_neg (by simp), frameTime]
            exact congrArg (AVRational.mk 1) (fpsRatio_truncate_fromFps low high)
      refine run_causes (by rw [same]; exact sample) fun wide tall => ?_
      refine ⟨params, .ofInt rate, asks, frameTime, low, high, ?_, ?_⟩
      · rw [timeBase, display, Bool.false_or]
      · rw [World.Shows, display]
        exact ⟨wide, tall, rfl, rfl⟩

/-- Whatever the words and the answers are, the encoders are only opened with what was asked for,
what the codec supports and what is captured. -/
theorem main_opens (argv : List (List Char)) (env : Option (List Char)) (world : World) :
    (main argv env world).Causes
      (OpensAs (AudioAsAsked argv env world) (VideoAsAsked argv env world)) := by
  refine Causes.handling (check_bind_causes ?_) fun _ => Causes.pure
  cases parsed : CmdLine.parseCmdLine argv with
  | error error => exact Causes.throwing
  | ok cmdline =>
      dsimp only
      cases given : cmdline.getParameters env with
      | error error => exact Causes.faulting
      | ok answer =>
          cases answer with
          | error error =>
              dsimp only
              by_cases failed : error.type = .error
              · rw [if_pos failed]
                exact Causes.throwing
              · rw [if_neg failed]
                exact Causes.pure
          | ok params =>
              refine Causes.bind (own_causes ?_) fun _ _ => Causes.pure
              exact captured_causes ⟨cmdline, parsed, given⟩

end Recording
end ShadowCast
