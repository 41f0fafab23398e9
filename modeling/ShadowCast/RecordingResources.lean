import ShadowCast.Recording

/-!
# A recording tears down what it sets up

Every object is destroyed once, while what it depends on lives, and so is used.  Behind a recording
the output file has its trailer, unless that could not be written, and the dictionaries of unknown
codec options are left.
-/

namespace ShadowCast
namespace Recording

open Discipline Machine

/-- The block runs on top of the base, with more beyond it. -/
abbrev Stays {α : Type} (base more : Multiset Resource) (block : Run α)
    (leaves : Exit String Fault α → Multiset Resource → Prop) : Prop :=
  resources.Within base more block leaves

variable {α : Type} {base more : Multiset Resource}
  {leaves : Exit String Fault α → Multiset Resource → Prop}

/-- A call that may throw, and the rest behind it. -/
theorem check_bind {outcome : Except String Unit} {rest : Unit → Run α}
    (threw : ∀ what, outcome = .error what → leaves (.threw what) more)
    (returned : outcome = .ok () → Stays base more (rest ()) leaves) :
    Stays base more (check outcome >>= rest) leaves := by
  cases outcome with
  | ok done => exact returned rfl
  | error what => exact Within.throwing (threw what rfl)

/-- An object for the rest of the scope, if it can be made. -/
theorem owned_stays {resource : Resource} {outcome : Except String Unit} {rest : Run α}
    (needs : resource.depends ≤ base)
    (threw : ∀ what, outcome = .error what → leaves (.threw what) more)
    (returned : Stays (base + {resource}) more rest leaves) :
    Stays base more (owned resource outcome rest) leaves := by
  cases outcome with
  | ok done => exact Within.own needs returned
  | error what => exact Within.throwing (threw what rfl)

/-! ### What is left behind -/

/-- The services cannot be set up. -/
def ServicesFail (world : OutputWorld) : Prop :=
  world.signalService ≠ .ok () ∨ world.signalHandler ≠ .ok ()

/-- The loops do not end regularly. -/
def LoopsFail (world : OutputWorld) : Prop :=
  world.loopService ≠ .ok () ∨ world.loopHandler ≠ .ok () ∨ world.loops ≠ .returned

/-- The output file behind the loops: it is finished unless `av_write_trailer` fails. -/
def OutputWorld.file (world : OutputWorld) : Resource :=
  match world.trailer with
  | .ok () => .finishedFile
  | .error _ => .header

/-- What a recording leaves: its file, which has no trailer if the services could not be set up, and
the capture session, if its setup failed halfway. -/
def Remains (world : OutputWorld) (captureFails : Prop) :
    Exit String Fault α → Multiset Resource → Prop
  | .returned _, rest => rest = {world.file}
  | .threw _, rest =>
      rest = 0 ∨ rest = {.header} ∧ ServicesFail world ∨
        rest = {world.file} ∧ LoopsFail world ∨ rest = {.captureSession} ∧ captureFails
  | .faulted _, _ => True

/-- Another condition on the capture. -/
theorem Remains.failure {world : OutputWorld} {fails fails' : Prop}
    {exit : Exit String Fault α} {rest : Multiset Resource}
    (remains : Remains world fails exit rest)
    (weaker : fails → fails') : Remains world fails' exit rest := by
  cases exit with
  | returned value => exact remains
  | threw what => exact remains.imp id (.imp id (.imp id (.imp id weaker)))
  | faulted fault => trivial

/-- The dictionaries of options that no codec knows. -/
def dictionaries (n : Nat) : Multiset Resource := Multiset.replicate n .options

/-- Beside the dictionaries of both encoders, what the property says is left. -/
def Leftovers (remains : Exit String Fault α → Multiset Resource → Prop)
    (exit : Exit String Fault α) (more : Multiset Resource) : Prop :=
  ∃ n ≤ 2, ∃ rest, more = dictionaries n + rest ∧ remains exit rest

variable {world : OutputWorld} {captureFails : Prop} {video codec : Resource} {n : Nat}

theorem leftovers_zero {remains : Exit String Fault α → Multiset Resource → Prop}
    {exit : Exit String Fault α} (few : n ≤ 2) (holds : remains exit 0) :
    Leftovers remains exit (dictionaries n) :=
  ⟨n, few, 0, (Multiset.add_zero _).symm, holds⟩

/-! ### The output -/

theorem destroyContexts_keeps (start : video.depends ≤ base)
    (encoder : Resource.depends .encoderService ≤ base)
    (audio : Resource.depends .audioService ≤ base) (more : Multiset Resource) :
    resources.Keeps
      (base + ({.signalFd} + {.audioService} + {video} + {.encoderService}) + more)
      (destroyContexts world video) (Within.Restores (base + (more + 0))) := by
  have swap : base + ({.signalFd} + {.audioService} + {video} + {.encoderService}) + more =
      base + (more + {video} + {.signalFd} + {.audioService} + {.encoderService}) := by
    abel
  have below (t : Multiset Resource) {s : Multiset Resource} (le : s ≤ base) : s ≤ base + t :=
    le.trans (Multiset.le_add_right base t)
  rw [swap, Multiset.add_zero]
  refine (Within.release_ends (below _ encoder)).bind ?_
  refine (Within.release_ends (below _ audio)).bind ?_
  cases world.videoFirst with
  | false =>
      refine (Within.release_ends (Multiset.zero_le _)).bind ?_
      exact (Within.release_ends (below _ start)).keeps fun _ => rfl
  | true =>
      rw [Multiset.add_assoc more, Multiset.add_comm {video}, ← Multiset.add_assoc more]
      refine (Within.release_ends (below _ start)).bind ?_
      exact (Within.release_ends (Multiset.zero_le _)).keeps fun _ => rfl

/-- The trailer takes the place of the header, if it can be written. -/
theorem writeTrailer_keeps (file : Resource.depends .header ≤ base) (more : Multiset Resource) :
    resources.Keeps (base + {.header} + more) (writeTrailer world)
      (Within.Restores (base + (more + {world.file}))) := by
  have needs : Use.needs .writeTrailer ≤ base + {.header} + more :=
    (Multiset.add_le_add_right file).trans (Multiset.le_add_right _ more)
  refine Keeps.use_bind needs rfl rfl ?_
  rw [Multiset.add_assoc, Multiset.add_comm {Resource.header}]
  unfold OutputWorld.file
  cases world.trailer with
  | error what => exact Keeps.pure fun _ => rfl
  | ok done =>
      refine (Within.release_ends (file.trans (Multiset.le_add_right base more))).bind ?_
      refine Keeps.emit (Multiset.zero_le _) fun _ => ?_
      simp only [ofDependencies, Multiset.sub_zero, Multiset.add_assoc]

/-- The loops, under the guard of the trailer. -/
theorem runLoop_stays (few : n ≤ 2) (loop : Use.needs (.runLoop video codec) ≤ base) :
    Stays base (dictionaries n) (runLoop world video codec) fun exit more =>
      Leftovers (Remains world captureFails) exit (more + {world.file}) := by
  have failed (what : String) (fails : LoopsFail world) :
      Leftovers (Remains world captureFails) (.threw what : Exit String Fault Unit)
        (dictionaries n + {world.file}) :=
    ⟨n, few, _, rfl, .inr (.inr (.inl ⟨rfl, fails⟩))⟩
  refine check_bind (fun what error => failed what (.inl (by simp [error]))) fun _ => ?_
  refine Within.acquire (Multiset.zero_le _) (Within.release (Multiset.zero_le _) ?_)
  refine check_bind (fun what error => failed what (.inr (.inl (by simp [error])))) fun _ => ?_
  refine Within.use (loop.trans (Multiset.le_add_right _ _)) ?_
  cases loops : world.loops with
  | returned => exact Within.pure ⟨n, few, _, rfl, rfl⟩
  | threw what => exact Within.throwing (failed what (.inr (.inr (by simp [loops]))))
  | threwPointer => exact Within.faulting _

/-- The output file and the services, on top of the encoders. -/
theorem writeOutput_stays (few : n ≤ 2) (start : video.depends ≤ base)
    (encoder : Resource.depends .encoderService ≤ base)
    (audio : Resource.depends .audioService ≤ base)
    (loop : Use.needs (.runLoop video codec) ≤ base + {.avio} +
      ({.signalFd} + {.audioService} + {video} + {.encoderService}) + {.header}) :
    Stays base (dictionaries n) (writeOutput world video codec)
      (Leftovers (Remains world captureFails)) := by
  have below (t : Multiset Resource) {s : Multiset Resource} (le : s ≤ base + {.avio}) :
      s ≤ base + {.avio} + t :=
    le.trans (Multiset.le_add_right _ t)
  have above {s : Multiset Resource} (le : s ≤ base) : s ≤ base + {.avio} :=
    le.trans (Multiset.le_add_right base _)
  have file : Resource.depends .header ≤ base + {.avio} := by
    have context : {.formatContext} ≤ base :=
      (Multiset.singleton_le.mpr (by simp [Resource.depends])).trans encoder
    exact Multiset.add_le_add_right context
  have unfinished (what : String) (fails : ServicesFail world) :
      Leftovers (Remains world captureFails) (.threw what : Exit String Fault Unit)
        (dictionaries n + {.header}) :=
    ⟨n, few, _, rfl, .inr (.inl ⟨rfl, fails⟩)⟩
  refine owned_stays (Multiset.zero_le _) (fun _ _ => leftovers_zero few (.inl rfl)) ?_
  refine check_bind (fun _ _ => leftovers_zero few (.inl rfl)) fun _ => ?_
  refine Within.acquire (below _ file) ?_
  refine check_bind (fun what error => unfinished what (.inl (by simp [error]))) fun _ => ?_
  refine Within.acquire (Multiset.zero_le _) (Within.bind (Within.onThrow ?_))
  cases handler : world.signalHandler with
  | error what =>
      refine Within.throwing (Within.cleared (Multiset.zero_le _) ?_)
      exact unfinished what (.inr (by simp [handler]))
  | ok done =>
      refine Within.pure ?_
      refine Within.acquire (below _ (above audio)) (Within.acquire (below _ (above start)) ?_)
      refine Within.acquire (below _ (above encoder)) ?_
      have services : dictionaries n + {Resource.header} + {.signalFd} + {.audioService} +
          {video} + {.encoderService} = dictionaries n + {.header} +
            ({.signalFd} + {.audioService} + {video} + {.encoderService}) := by
        simp only [Multiset.add_assoc]
      rw [services]
      refine Within.guards
        (destroyContexts_keeps (above start) (above encoder) (above audio)) ?_
      simp only [Multiset.add_zero]
      exact Within.guards (writeTrailer_keeps (below _ file)) (runLoop_stays few loop)

/-! ### The encoders -/

/-- At most one dictionary is left of the options. -/
theorem openCodec_stays {use : Use} (needs : use.needs ≤ base + more)
    (options optionsLeft : Bool) (opened : Except String Unit) :
    Stays base more (openCodec use options optionsLeft opened) fun _ left =>
      ∃ k ≤ 1, left = more + dictionaries k := by
  have opens {more' : Multiset Resource} {k : Nat} (few : k ≤ 1)
      (left : more' = more + dictionaries k) :
      Stays base more' (check opened) fun _ left => ∃ k ≤ 1, left = more + dictionaries k := by
    cases opened with
    | ok done => exact Within.pure ⟨k, few, left⟩
    | error what => exact Within.throwing ⟨k, few, left⟩
  have none : more = more + dictionaries 0 := (Multiset.add_zero more).symm
  cases options with
  | false =>
      refine Within.use needs ?_
      exact Within.bind (Within.pure (opens (Nat.zero_le 1) none))
  | true =>
      refine Within.acquire (Multiset.zero_le _) (Within.use ?_ ?_)
      · rw [← Multiset.add_assoc]
        exact needs.trans (Multiset.le_add_right _ _)
      · cases optionsLeft with
        | false =>
            exact Within.release (Multiset.zero_le _) (opens (Nat.zero_le 1) none)
        | true => exact Within.bind (Within.pure (opens (Nat.le_refl 1) rfl))

/-- The stream of an encoder, and the rest behind it. -/
theorem addStream_bind {kind copy : String} {stream : Bool} {parameters : Except String Unit}
    {rest : Unit → Run α} (context : {.formatContext} ≤ base)
    (threw : ∀ what, leaves (.threw what) more) (returned : Stays base more (rest ()) leaves) :
    Stays base more (addStream kind stream copy parameters >>= rest) leaves := by
  refine Within.bind (Within.use (context.trans (Multiset.le_add_right _ _)) ?_)
  refine check_bind (fun what _ => threw what) fun _ => ?_
  cases parameters with
  | ok done => exact Within.pure returned
  | error what => exact Within.throwing (threw _)

/-- The scope of the audio encoder. -/
theorem withAudioEncoder_stays {remains : Exit String Fault Unit → Multiset Resource → Prop}
    {params : Parameters} {world : AudioWorld} {rest : Run Unit}
    (context : {.formatContext} ≤ base) (threw : ∀ what, remains (.threw what) 0)
    (returned : ∀ k ≤ 1, Stays (base + {.audioCodec}) (dictionaries k) rest (Leftovers remains)) :
    Stays base 0 (withAudioEncoder params world rest) (Leftovers remains) := by
  have failed (k : Nat) (few : k ≤ 1) (what : String) :
      Leftovers remains (.threw what) (dictionaries k) :=
    leftovers_zero (few.trans (by decide)) (threw what)
  have none (what : String) : Leftovers remains (.threw what) 0 := failed 0 (by decide) what
  unfold withAudioEncoder
  cases world.codec with
  | none => exact Within.throwing (none _)
  | some codec =>
      refine check_bind (fun what _ => none what) fun _ => ?_
      cases findSupportedFormats codec with
      | error what => exact Within.throwing (none what)
      | ok formats =>
          cases formats with
          | nil => exact Within.throwing (none _)
          | cons format formats =>
              refine owned_stays (Multiset.zero_le _) (fun what _ => none what) ?_
              have codec : {.audioCodec} ≤ base + {.audioCodec} + 0 := by simp
              refine Within.bind ((openCodec_stays codec _ _ _).mono ?_)
              rintro (done | what | fault) left ⟨k, few, rfl⟩
              · rw [Multiset.zero_add]
                exact addStream_bind (context.trans (Multiset.le_add_right _ _)) (failed k few)
                  (returned k few)
              · rw [Multiset.zero_add]
                exact failed k few what
              · trivial

/-- What is beyond the base when a function returns an object, or throws. -/
def Returns (object : Resource) (more : Multiset Resource) :
    Exit String Fault α → Multiset Resource → Prop
  | .returned _, left => ∃ k ≤ 1, left = more + dictionaries k + {object}
  | .threw _, left => ∃ k ≤ 1, left = more + dictionaries k
  | .faulted _, _ => True

theorem threw_returns {object : Resource} (what : String) :
    Returns object more (.threw what : Exit String Fault α) more :=
  ⟨0, Nat.zero_le 1, (Multiset.add_zero more).symm⟩

/-- `create_video_encoder`: the context that is returned, or nothing. -/
theorem createVideoEncoder_stays {world : VideoWorld} {pooled : Bool} {width height : UInt32}
    {frameTime : FrameTime} (needs : Resource.depends (.videoCodec pooled) ≤ base) :
    Stays base more (createVideoEncoder world pooled width height frameTime)
      (Returns (.videoCodec pooled) more) := by
  have cuda : {.cudaContext} ≤ base := (Multiset.le_add_right _ _).trans needs
  have swap (k : Nat) : more + {Resource.videoCodec pooled} + dictionaries k =
      more + dictionaries k + {.videoCodec pooled} := by
    rw [Multiset.add_assoc, Multiset.add_comm {Resource.videoCodec pooled}, ← Multiset.add_assoc]
  refine check_bind (fun what _ => threw_returns what) fun _ => ?_
  cases world.allocated with
  | false => exact Within.faulting _
  | true =>
      refine Within.acquire (needs.trans (Multiset.le_add_right _ _)) (Within.onThrow ?_)
      have failed (what : String) : Within.Cleared resources base
          (Block.release (.videoCodec pooled)) (Returns (.videoCodec pooled) more)
          (.threw what : Exit String Fault Unit) (more + {.videoCodec pooled}) :=
        Within.cleared (needs.trans (Multiset.le_add_right _ _)) (threw_returns what)
      refine owned_stays cuda (fun what _ => failed what) ?_
      refine check_bind (fun what _ => failed what) fun _ => ?_
      have frames : Resource.depends (.frameContext pooled) ≤ base + {.deviceContext} := by
        have same : Resource.depends (.frameContext pooled) =
            Resource.depends (.videoCodec pooled) + {.deviceContext} := by
          simp only [Resource.depends, Multiset.insert_eq_cons, ← Multiset.singleton_add]
          abel
        rw [same]
        exact Multiset.add_le_add_right needs
      refine owned_stays frames (fun what _ => failed what) ?_
      refine check_bind (fun what _ => failed what) fun _ => ?_
      have codec : {.cudaContext} + {.videoCodec pooled} ≤
          base + {.deviceContext} + {.frameContext pooled} + (more + {.videoCodec pooled}) := by
        have below : {.cudaContext} ≤ base + {.deviceContext} + {.frameContext pooled} :=
          cuda.trans ((Multiset.le_add_right _ _).trans (Multiset.le_add_right _ _))
        exact (Multiset.add_le_add_right below).trans
          (Multiset.add_le_add_left (Multiset.le_add_left _ _))
      refine (openCodec_stays codec true _ _).mono ?_
      rintro (done | what | fault) left ⟨k, few, rfl⟩
      · exact ⟨k, few, swap k⟩
      · rw [swap]
        exact Within.cleared (needs.trans (Multiset.le_add_right _ _)) ⟨k, few, rfl⟩
      · trivial

/-- The scope of the video encoder. -/
theorem withVideoEncoder_stays {remains : Exit String Fault Unit → Multiset Resource → Prop}
    {params : Parameters} {world : VideoWorld} {pooled : Bool} {width height : UInt32}
    {rest : Run Unit} (few : n ≤ 1) (needs : Resource.depends (.videoCodec pooled) ≤ base)
    (context : {.formatContext} ≤ base) (threw : ∀ what, remains (.threw what) 0)
    (returned : ∀ k ≤ 2, Stays (base + {.videoCodec pooled}) (dictionaries k) rest
      (Leftovers remains)) :
    Stays base (dictionaries n) (withVideoEncoder params world pooled width height rest)
      (Leftovers remains) := by
  have all (k : Nat) : dictionaries n + dictionaries k = dictionaries (n + k) :=
    (Multiset.replicate_add ..).symm
  refine Within.bind ((createVideoEncoder_stays needs).mono ?_)
  rintro (done | what | fault) left created
  · obtain ⟨k, few', rfl⟩ := created
    rw [all]
    refine Within.guard needs ?_
    exact addStream_bind (context.trans (Multiset.le_add_right _ _))
      (fun what => leftovers_zero (by omega) (threw what)) (returned _ (by omega))
  · obtain ⟨k, few', rfl⟩ := created
    rw [all]
    exact leftovers_zero (by omega) (threw what)
  · trivial

/-! ### Wayland -/

/-- The object behind a pointer that may be null. -/
def behind (set : Bool) (resource : Resource) : Multiset Resource := if set then {resource} else 0

/-- The objects of a platform that is being set up. -/
def Platform.objects (platform : Platform) : Multiset Resource :=
  behind platform.compositor .compositor + behind platform.output .output

/-- The pointer is destroyed, if it is set. -/
theorem releaseIf_stays {set : Bool} {resource : Resource}
    (needs : resource.depends ≤ base + more) :
    Stays base (more + behind set resource) (releaseIf set resource) fun exit left =>
      exit = .returned () ∧ left = more := by
  cases set with
  | true => exact (Within.release_ends needs).keeps fun _ => ⟨more, rfl, rfl, rfl⟩
  | false => exact Within.pure ⟨rfl, Multiset.add_zero more⟩

theorem releaseIf_bind {set : Bool} {resource : Resource} {rest : Unit → Run α}
    (needs : resource.depends ≤ base + more) (within : Stays base more (rest ()) leaves) :
    Stays base (more + behind set resource) (releaseIf set resource >>= rest) leaves :=
  Within.bind_returned (releaseIf_stays needs) within

/-- The pointer is set anew. -/
theorem replace_bind {bound previous : Bool} {resource : Resource} {rest : Unit → Run α}
    (needs : resource.depends ≤ base)
    (within : Stays base (more + behind bound resource) (rest ()) leaves) :
    Stays base (more + behind previous resource) (replace resource bound previous >>= rest)
      leaves := by
  have above (more : Multiset Resource) : resource.depends ≤ base + more :=
    needs.trans (Multiset.le_add_right base more)
  refine Within.bind_returned ?_ within
  cases bound with
  | true =>
      refine Within.acquire (above _) ?_
      rw [Multiset.add_assoc, Multiset.add_comm (behind ..), ← Multiset.add_assoc]
      exact releaseIf_stays (above _)
  | false =>
      have none : more + behind false resource = more := Multiset.add_zero more
      rw [none]
      exact releaseIf_stays (above _)

/-- The listeners have heard of the output. -/
def Announced (events : List WaylandEvent) : Prop := .global "wl_output" true ∈ events

/-- The size of the output is the one of its last current mode, or still zero. -/
def Sized (events : List WaylandEvent) (platform : Platform) : Prop :=
  platform.outputWidth = 0 ∧ platform.outputHeight = 0 ∨
    ∃ front event back, events = front ++ event :: back ∧ Announced front ∧
      event.size = some (platform.outputWidth, platform.outputHeight) ∧
      ∀ later ∈ back, later.size = none

/-- What the platform has been told. -/
structure Told (events : List WaylandEvent) (platform : Platform) : Prop where
  output : platform.output = true ↔ Announced events
  size : Sized events platform

/-- An event that says nothing of the size. -/
theorem Sized.skip {events : List WaylandEvent} {event : WaylandEvent}
    {platform platform' : Platform} (sized : Sized events platform) (silent : event.size = none)
    (width : platform'.outputWidth = platform.outputWidth)
    (height : platform'.outputHeight = platform.outputHeight) :
    Sized (events ++ [event]) platform' := by
  unfold Sized
  rw [width, height]
  refine sized.imp id ?_
  rintro ⟨front, last, back, rfl, announced, size, later⟩
  refine ⟨front, last, back ++ [event], by simp, announced, size, fun other member => ?_⟩
  rcases List.mem_append.mp member with member | member
  · exact later other member
  · rwa [List.mem_singleton.mp member]

/-- What must hold when events have been handled. -/
def Hears (more : Multiset Resource) (platform : Platform) (events : List WaylandEvent) :
    Exit String Fault Platform → Multiset Resource → Prop
  | .returned platform', left => left = more + platform'.objects ∧
      platform'.surface = platform.surface ∧ platform'.window = platform.window ∧
      ∀ before, Told before platform → Told (before ++ events) platform'
  | .threw _, _ => False
  | .faulted _, _ => True

theorem global_stays (display : {.display} ≤ base) (platform : Platform) (interface : String)
    (bound : Bool) :
    Stays base (more + platform.objects) (platform.global interface bound)
      (Hears more platform [.global interface bound]) := by
  have silent : (WaylandEvent.global interface bound).size = none := rfl
  rw [Platform.global]
  by_cases compositor : interface = "wl_compositor"
  · have other : ¬WaylandEvent.global interface bound = .global "wl_output" true := by
      simp [compositor]
    rw [if_pos compositor, Platform.objects, Multiset.add_comm (behind ..), ← Multiset.add_assoc]
    refine replace_bind display (Within.pure ⟨?_, rfl, rfl, fun events told => ⟨?_, ?_⟩⟩)
    · rw [Platform.objects, Multiset.add_comm (behind ..), Multiset.add_assoc]
    · rw [told.output, Announced, Announced, List.mem_append, List.mem_singleton]
      exact (or_iff_left fun same => other same.symm).symm
    · exact told.size.skip silent rfl rfl
  rw [if_neg compositor]
  by_cases output : interface = "wl_output"
  · rw [if_pos output, Platform.objects, ← Multiset.add_assoc]
    refine replace_bind display ?_
    cases bound with
    | false => exact Within.faulting _
    | true =>
        refine Within.pure ⟨?_, rfl, rfl, fun events told => ⟨?_, ?_⟩⟩
        · rw [Platform.objects, Multiset.add_assoc]
        · simp [Announced, output]
        · exact told.size.skip silent rfl rfl
  · have other : ¬WaylandEvent.global interface bound = .global "wl_output" true := by
      simp [output]
    rw [if_neg output]
    refine Within.pure ⟨rfl, rfl, rfl, fun events told => ⟨?_, told.size.skip silent rfl rfl⟩⟩
    rw [told.output, Announced, Announced, List.mem_append, List.mem_singleton]
    exact (or_iff_left fun same => other same.symm).symm

/-- One event. -/
theorem handle_stays (display : {.display} ≤ base) (platform : Platform) (event : WaylandEvent) :
    Stays base (more + platform.objects) (platform.handle event) (Hears more platform [event]) := by
  cases event with
  | global interface bound => exact global_stays display platform interface bound
  | mode flags width height =>
      have other : ¬WaylandEvent.mode flags width height = .global "wl_output" true := by simp
      have heard (events : List WaylandEvent) :
          Announced (events ++ [.mode flags width height]) ↔ Announced events := by
        simp [Announced]
      refine Within.pure ?_
      unfold Platform.mode
      cases size : (WaylandEvent.mode flags width height).size with
      | none =>
          exact ⟨rfl, rfl, rfl, fun events told =>
            ⟨told.output.trans (heard events).symm, told.size.skip size rfl rfl⟩⟩
      | some size' =>
          dsimp only
          by_cases output : platform.output = true
          · rw [if_pos output]
            refine ⟨rfl, rfl, rfl, fun events told =>
              ⟨told.output.trans (heard events).symm, .inr ?_⟩⟩
            exact ⟨events, _, [], rfl, told.output.mp output, size, by simp⟩
          · rw [if_neg output]
            refine ⟨rfl, rfl, rfl, fun events told =>
              ⟨told.output.trans (heard events).symm, .inl ?_⟩⟩
            rcases told.size with zero | ⟨front, event, back, rfl, announced, -⟩
            · exact zero
            · exact absurd (told.output.mpr (List.mem_append_left _ announced)) output

/-- The events of the round trips. -/
theorem handleAll_stays (display : {.display} ≤ base) (platform : Platform)
    (events : List WaylandEvent) :
    Stays base (more + platform.objects) (platform.handleAll events)
      (Hears more platform events) := by
  induction events generalizing platform with
  | nil => exact Within.pure ⟨rfl, rfl, rfl, fun before told => by rwa [List.append_nil]⟩
  | cons event events ih =>
      refine Within.bind ((handle_stays display platform event).mono ?_)
      rintro (platform' | what | fault) left hears
      · obtain ⟨rfl, surface, window, told⟩ := hears
        refine (ih platform').mono ?_
        rintro (last | what | fault) left holds
        · obtain ⟨left, surface', window', told'⟩ := holds
          refine ⟨left, surface'.trans surface, window'.trans window, fun before start => ?_⟩
          simpa using told' _ (told before start)
        · exact holds
        · trivial
      · exact hears.elim
      · trivial

/-- What must hold of the exit of `initialize_wayland`. -/
def SetsUp (world : WaylandWorld) (more : Multiset Resource) :
    Exit String Fault Platform → Multiset Resource → Prop
  | .returned platform, left => left = more + {.compositor} + {.surface} + {.window} ∧
      Sized world.events platform ∧ platform.outputWidth ≠ 0 ∧ platform.outputHeight ≠ 0
  | .threw _, left => left = more
  | .faulted _, _ => True

/-- The guards behind the creation of the window. -/
theorem guards_bind {output : Bool} {rest : Unit → Run Platform}
    {leaves : Exit String Fault Platform → Multiset Resource → Prop} (display : {.display} ≤ base)
    (within : Stays base more (rest ()) leaves) :
    Stays base (more + {.registry} + behind output .output)
      (releaseIf output .output >>= fun _ => Block.release .registry >>= rest) leaves := by
  have above (more : Multiset Resource) : {Resource.display} ≤ base + more :=
    display.trans (Multiset.le_add_right base more)
  exact releaseIf_bind (above _) (Within.release (above _) within)

theorem finishWindow_stays (display : {.display} ≤ base) {world : WaylandWorld}
    {compositor output : Bool} {width height : UInt32}
    (sized : Sized world.events ⟨compositor, output, false, false, width, height⟩)
    (size : width ≠ 0 ∧ height ≠ 0) :
    Stays base (more + {.registry} + (behind compositor .compositor + behind output .output))
      (finishWindow world ⟨compositor, output, false, false, width, height⟩)
      (SetsUp world more) := by
  have above (more : Multiset Resource) : {Resource.display} ≤ base + more :=
    display.trans (Multiset.le_add_right base more)
  have around (more : Multiset Resource) :
      more + {.registry} + (behind compositor .compositor + behind output .output) =
        more + behind compositor .compositor + {.registry} + behind output .output := by
    abel
  have compositors {what : String} : Stays base (more + {.compositor})
      (Block.release .compositor >>= fun _ => Block.throwing what) (SetsUp world more) :=
    Within.release (above _) (Within.throwing rfl)
  have surfaces {what : String} : Stays base (more + {.compositor} + {.surface})
      (Block.release .surface >>= fun _ => Block.release .compositor >>= fun _ =>
        Block.throwing what) (SetsUp world more) :=
    Within.release (above _) compositors
  have after (t : Multiset Resource) :
      more + {.compositor} + {.registry} + behind output .output + t =
        more + {.compositor} + t + {.registry} + behind output .output := by
    abel
  unfold finishWindow createWindow
  rw [around]
  cases compositor with
  | false =>
      refine Within.bind (Within.pure (guards_bind display (Within.throwing ?_)))
      exact Multiset.add_zero more
  | true =>
      cases world.surface with
      | false => exact Within.bind (Within.pure (guards_bind display compositors))
      | true =>
          refine Within.bind (Within.acquire (above _) ?_)
          cases world.window with
          | false =>
              refine Within.pure ?_
              rw [show more + behind true .compositor = more + {.compositor} from rfl, after]
              exact guards_bind display surfaces
          | true =>
              have needs : Resource.depends .window ≤
                  base + (more + {.compositor} + {.surface} + {.registry} +
                    behind output .output) :=
                add_le_add display (Multiset.singleton_le.mpr (by simp))
              have swap : more + {.compositor} + {.surface} + {Resource.registry} +
                  behind output .output + {.window} =
                    more + {.compositor} + {.surface} + {.window} + {.registry} +
                      behind output .output := by
                abel
              rw [show more + behind true .compositor = more + {.compositor} from rfl, after]
              refine Within.acquire needs (Within.pure ?_)
              rw [swap]
              exact guards_bind display (Within.pure ⟨rfl, sized, size⟩)

/-- `initialize_wayland`, on top of the display. -/
theorem initializeWayland_stays (display : {.display} ≤ base) (world : WaylandWorld) :
    Stays base more (initializeWayland world) (SetsUp world more) := by
  have above (more : Multiset Resource) : {Resource.display} ≤ base + more :=
    display.trans (Multiset.le_add_right base more)
  unfold initializeWayland
  cases world.registry with
  | false => exact Within.throwing rfl
  | true =>
      refine Within.acquire (above _) (Within.bind ?_)
      have start : Told [] .null := ⟨by simp [Platform.null, Announced], .inl ⟨rfl, rfl⟩⟩
      have none : more + {Resource.registry} + Platform.null.objects = more + {.registry} :=
        Multiset.add_zero _
      have events := @handleAll_stays _ (more + {.registry}) display .null world.events
      rw [none] at events
      refine Within.mono events ?_
      rintro (⟨compositor, output, surface, window, width, height⟩ | what | fault) left holds
      · obtain ⟨rfl, none, none', told⟩ := holds
        dsimp only [Platform.null] at none none'
        subst none none'
        have sized := (told [] start).size
        by_cases unknown : width = 0 ∨ height = 0
        · simp only [Within.Proceeds, unknown, if_true]
          exact Within.faulting _
        · simp only [Within.Proceeds, unknown, if_false]
          exact finishWindow_stays display sized (not_or.mp unknown)
      · exact holds.elim
      · trivial

/-- What must hold of the exit of `initialize_wayland_egl`. -/
def SetsUpEgl : Exit String Fault Unit → Multiset Resource → Prop
  | .returned _, left => left = {.eglDisplay} + {.eglSurface} + {.eglContext}
  | .threw _, left => left = 0
  | .faulted _, _ => True

/-- `initialize_wayland_egl`: the display, the surface and the context, or nothing. -/
theorem initializeWaylandEgl_stays (display : {.display} ≤ base) (window : {.window} ≤ base)
    (world : EglWorld) :
    Stays base 0 (initializeWaylandEgl world) SetsUpEgl := by
  have above (more : Multiset Resource) : {Resource.display} ≤ base + more :=
    display.trans (Multiset.le_add_right base more)
  refine check_bind (fun _ _ => rfl) fun _ => ?_
  refine check_bind (fun _ _ => rfl) fun _ => ?_
  refine check_bind (fun _ _ => rfl) fun _ => ?_
  refine Within.acquire (above 0) (Within.onThrow ?_)
  have shown : Resource.depends .eglSurface ≤ base + (0 + {.eglDisplay}) := by
    rw [Multiset.zero_add, Multiset.add_comm]
    exact Multiset.add_le_add_left window
  have drawn : Resource.depends .eglContext ≤ base + (0 + {.eglDisplay} + {.eglSurface}) :=
    Multiset.singleton_le.mpr (by simp)
  refine check_bind (fun _ _ => Within.cleared (above 0) rfl) fun _ => ?_
  refine check_bind (fun _ _ => Within.cleared (above 0) rfl) fun _ => ?_
  refine Within.acquire shown (Within.onThrow ?_)
  refine check_bind (fun _ _ => Within.cleared shown (Within.cleared (above 0) rfl)) fun _ => ?_
  refine Within.acquire drawn (Within.onThrow ?_)
  refine Within.use ?_ ?_
  · rw [Multiset.zero_add]
    exact Multiset.le_add_left ..
  cases world.makeCurrent with
  | true => exact Within.pure rfl
  | false =>
      refine Within.throwing (Within.cleared drawn ?_)
      exact Within.cleared shown (Within.cleared (above 0) rfl)

/-! ### The recordings -/

/-- The pointers of a platform, up to the end of their scope. -/
theorem withPlatform_stays {leaves : Exit String Fault Unit → Multiset Resource → Prop}
    {rest : Run Unit} (display : {.display} ≤ base)
    (within : Stays (base + {.compositor} + {.surface} + {.window}) more rest leaves) :
    Stays base (more + {.compositor} + {.surface} + {.window}) (withPlatform rest) leaves := by
  have swap : more + {.compositor} + {.surface} + {Resource.window} =
      more + {.window} + {.surface} + {.compositor} := by
    abel
  have above (t : Multiset Resource) : {Resource.display} ≤ base + t :=
    display.trans (Multiset.le_add_right base t)
  rw [swap]
  refine Within.guard display (Within.guard (above _) (Within.guard ?_ within))
  exact Multiset.add_le_add_right (above _)

/-- The pointers of a `WaylandEGL`, up to the end of their scope. -/
theorem withEgl_stays {leaves : Exit String Fault Unit → Multiset Resource → Prop}
    {rest : Run Unit} (display : {.display} ≤ base) (window : {.window} ≤ base)
    (within : Stays (base + {.eglDisplay} + {.eglSurface} + {.eglContext}) 0 rest leaves) :
    Stays base ({.eglDisplay} + {.eglSurface} + {.eglContext}) (withEgl rest) leaves := by
  have swap : ({.eglDisplay} + {.eglSurface} + {.eglContext} : Multiset Resource) =
      0 + {.eglContext} + {.eglSurface} + {.eglDisplay} := by
    abel
  rw [swap]
  refine Within.guard display (Within.guard ?_ (Within.guard ?_ within))
  · exact (Multiset.add_comm {Resource.eglDisplay} {.window}).le.trans
      (Multiset.add_le_add_right window)
  · exact Multiset.singleton_le.mpr (by simp)

/-- The encoders and the output, up to the end of the scope. -/
theorem runWayland_stays {params : Parameters} {world : WaylandRun} :
    Stays ({.pipewire} + {.display}) 0 (runWayland params world)
      (Leftovers (Remains world.output captureFails)) := by
  have none (what : String) : Leftovers (Remains world.output captureFails)
      (.threw what : Exit String Fault Unit) 0 :=
    leftovers_zero (Nat.zero_le 2) (.inl rfl)
  refine check_bind (fun what _ => none what) fun _ => ?_
  refine Within.bind ((initializeWayland_stays (by decide) world.wayland).mono ?_)
  rintro (platform | what | fault) left setsUp
  · obtain ⟨rfl, -⟩ := setsUp
    refine withPlatform_stays (by decide) (Within.bind ?_)
    refine (initializeWaylandEgl_stays (by decide) (by decide) world.egl).mono ?_
    rintro (done | what | fault) left setsUp
    · obtain rfl := setsUp
      refine withEgl_stays (by decide) (by decide) ?_
      refine check_bind (fun what _ => none what) fun _ => ?_
      refine owned_stays (by decide) (fun what _ => none what) ?_
      refine owned_stays (by decide) (fun what _ => none what) ?_
      refine withAudioEncoder_stays (by decide) (fun _ => .inl rfl) fun k few => ?_
      refine withVideoEncoder_stays few (by decide) (by decide) (fun _ => .inl rfl) fun k few => ?_
      exact writeOutput_stays few (by decide) (by decide) (by decide) (by decide)
    · obtain rfl : left = 0 := setsUp
      exact none what
    · trivial
  · obtain rfl : left = 0 := setsUp
    exact none what
  · trivial

/-- The capture session has been created but cannot be set up. -/
def CaptureFails (world : X11Run) : Prop :=
  world.captureSession = .ok () ∧ world.cudaSetUp ≠ .ok ()

theorem destroyNvfbcCaptureSession_keeps {world : X11Run} (session : {.nvfbcSession} ≤ base)
    (more : Multiset Resource) :
    resources.Keeps (base + {.captureSession} + more) (destroyNvfbcCaptureSession world)
      (Within.Restores (base + (more + 0))) := by
  rw [Multiset.add_assoc, Multiset.add_comm {Resource.captureSession}, Multiset.add_zero]
  have needs : Resource.depends .captureSession ≤ base + more :=
    session.trans (Multiset.le_add_right base more)
  refine (Within.release_ends needs).bind ?_
  cases world.destroyed with
  | true => exact Keeps.pure fun _ => rfl
  | false => exact Keeps.faulting fun goesOn => absurd rfl (goesOn _)

/-- `run`. -/
theorem run_stays {params : Parameters} {world : X11Run} :
    Stays {.pipewire} 0 (run params world)
      (Leftovers (Remains world.output (CaptureFails world))) := by
  have none (what : String) : Leftovers (Remains world.output (CaptureFails world))
      (.threw what : Exit String Fault Unit) 0 :=
    leftovers_zero (Nat.zero_le 2) (.inl rfl)
  refine owned_stays (by decide) (fun what _ => none what) ?_
  refine check_bind (fun what _ => none what) fun _ => ?_
  refine check_bind (fun what _ => none what) fun _ => ?_
  refine owned_stays (by decide) (fun what _ => none what) ?_
  refine check_bind (fun what _ => none what) fun _ => ?_
  unfold withNvfbcSession
  cases Base64.base64Decode world.byteOrder (world.key.getD []) with
  | error error => exact Within.faulting _
  | ok decoded =>
      refine owned_stays (by decide) (fun what _ => none what) (Within.bind ?_)
      refine check_bind (fun what _ => none what) fun created => ?_
      refine Within.acquire (by decide) ?_
      cases failure : world.cudaSetUp with
      | error what =>
          refine Within.throwing ⟨0, by decide, {.captureSession}, rfl, ?_⟩
          exact .inr (.inr (.inr ⟨rfl, created, by simp [failure]⟩))
      | ok done =>
          refine Within.pure (Within.guards (destroyNvfbcCaptureSession_keeps (by decide)) ?_)
          simp only [Multiset.add_zero]
          refine owned_stays (by decide) (fun what _ => none what) ?_
          refine withAudioEncoder_stays (by decide) (fun _ => .inl rfl) fun k few => ?_
          refine owned_stays (by decide) (fun what _ => ?_) ?_
          · exact leftovers_zero (few.trans (by decide)) (.inl rfl)
          by_cases size : 0 < world.width ∧ 0 < world.height
          · rw [if_pos size]
            refine withVideoEncoder_stays few (by decide) (by decide) (fun _ => .inl rfl)
              fun k few => ?_
            exact writeOutput_stays few (by decide) (by decide) (by decide) (by decide)
          · rw [if_neg size]
            exact Within.faulting _

/-! ### The program -/

/-- What is answered about the output of this recording. -/
def World.output (world : World) : OutputWorld :=
  if world.display then world.wayland.output else world.x11.output

/-- What a recording leaves. -/
def World.Remains (world : World) :
    Exit String Fault Unit → Multiset Resource → Prop :=
  Recording.Remains world.output (world.display = false ∧ CaptureFails world.x11)

theorem record_stays {params : Parameters} {world : World} :
    Stays 0 0 (record params world) (Leftovers world.Remains) := by
  refine Within.own (by decide) ?_
  rw [Multiset.zero_add]
  cases display : world.display with
  | true =>
      have output : world.output = world.wayland.output := by simp [World.output, display]
      refine Within.own (by decide) ?_
      rw [World.Remains, output]
      exact runWayland_stays
  | false =>
      have output : world.output = world.x11.output := by simp [World.output, display]
      refine run_stays.mono ?_
      rintro exit _ ⟨n, few, rest, rfl, remains⟩
      refine ⟨n, few, rest, rfl, ?_⟩
      rw [World.Remains, output, display]
      exact remains.failure (And.intro rfl)

/-- The words ask for a recording with these parameters. -/
def Asks (argv : List (List Char)) (env : Option (List Char)) (params : Parameters) : Prop :=
  ∃ cmdline, CmdLine.parseCmdLine argv = .ok cmdline ∧
    cmdline.getParameters env = .ok (.ok params)

/-- The words are those of a recording. -/
def Records (argv : List (List Char)) (env : Option (List Char)) : Prop :=
  ∃ params, Asks argv env params

/-- The exit code, and what is left when the process ends.  No exception leaves `main`. -/
def Ended (argv : List (List Char)) (env : Option (List Char)) (world : World) :
    Exit String Fault Nat → Multiset Resource → Prop
  | .returned code, left =>
      code = 0 ∧ Records argv env ∧ (∃ n ≤ 2, left = dictionaries n + {world.output.file}) ∨
        code = 0 ∧ ¬Records argv env ∧ left = 0 ∨
        code = 1 ∧ ∃ what, Leftovers world.Remains (.threw what) left
  | .threw _, _ => False
  | .faulted _, _ => True

/-- What must hold when the statements of `main` that may throw are left. -/
def BodyEnded (argv : List (List Char)) (env : Option (List Char)) (world : World) :
    Exit String Fault Nat → Multiset Resource → Prop
  | .threw what, left => Leftovers world.Remains (.threw what) left
  | exit, left => Ended argv env world exit left

theorem mainBody_stays (argv : List (List Char)) (env : Option (List Char)) (world : World) :
    Stays 0 0 (mainBody argv env world) (BodyEnded argv env world) := by
  have none (what : String) : BodyEnded argv env world (.threw what) 0 :=
    leftovers_zero (n := 0) (Nat.zero_le 2) (.inl rfl)
  refine check_bind (fun what _ => none what) fun _ => ?_
  cases parsed : CmdLine.parseCmdLine argv with
  | error error => exact Within.throwing (none _)
  | ok cmdline =>
      dsimp only
      cases given : cmdline.getParameters env with
      | error error => exact Within.faulting _
      | ok answer =>
          cases answer with
          | error error =>
              dsimp only
              by_cases failed : error.type = .error
              · rw [if_pos failed]
                exact Within.throwing (none _)
              · rw [if_neg failed]
                refine Within.pure (.inr (.inl ⟨rfl, ?_, rfl⟩))
                rintro ⟨params, cmdline', parsed', given'⟩
                obtain rfl := Except.ok.inj (parsed.symm.trans parsed')
                cases Except.ok.inj (given.symm.trans given')
          | ok params =>
              refine Within.bind (record_stays.mono ?_)
              rintro (done | what | fault) left leftovers
              · obtain ⟨n, few, rest, rfl, rfl⟩ := leftovers
                exact Within.pure (.inl ⟨rfl, ⟨params, cmdline, parsed, given⟩, n, few, rfl⟩)
              · exact leftovers
              · trivial

end Recording
end ShadowCast
