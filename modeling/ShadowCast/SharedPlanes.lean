import ShadowCast.FrameReleases
import ShadowCast.KmsResources

/-!
# What the helper shares with the service

The helper describes the planes it sees, the response takes the descriptions and their descriptors
to the service, and a frame of the service imports them.  Put together, every image the service
creates shows a plane that the helper saw, and every descriptor it handles was exported for one.
-/

namespace ShadowCast
namespace Kms

open Drm

/-- A plane with the number that its descriptor has in the service. -/
def inService (translate : Int → Int) (plane : PlaneDescriptor) : PlaneDescriptor :=
  { plane with fd := translate plane.fd }

/-- The area of a plane, as the service computes it. -/
def area (plane : PlaneDescriptor) : UInt32 := plane.width * plane.height

/-- What a frame may do about the planes of a response: handle their descriptors, show the largest
one and draw the first cursor over it. -/
def Concerns (planes : List PlaneDescriptor) : Drm.Event → Prop
  | .received fd | .closed fd => fd ∈ planes.map PlaneDescriptor.fd
  | .imageCreated _ attributes =>
      (∃ plane ∈ planes, attributes = inputAttributes plane ∧
        ∀ other ∈ planes, area other ≤ area plane) ∨
      ∃ plane, mousePlane planes = some plane ∧ attributes = mouseAttributes plane
  | .converted mouse => ∀ parameters ∈ mouse, ∃ plane, mousePlane planes = some plane ∧
      parameters = ⟨plane.width, plane.height, plane.x, plane.y⟩
  | .imageDestroyed _ | .resourceRegistered _ | .resourceUnregistered _ | .frameHandled => True

/-! ### What a frame shows -/

/-- The attributes of an image that is created. -/
def createdImage : Drm.Event → Option ImageAttributes
  | .imageCreated _ attributes => some attributes
  | _ => none

/-- The cursor that is drawn by a conversion. -/
def drawnCursor : Drm.Event → Option (Option MouseParameters)
  | .converted mouse => some mouse
  | _ => none

/-- The first cursor of the planes. -/
def cursorOf (planes : List PlaneDescriptor) : Option MouseParameters :=
  (mousePlane planes).map fun plane => ⟨plane.width, plane.height, plane.x, plane.y⟩

/-- The image of the first cursor, if EGL creates it. -/
def cursorImages (world : Drm.World) (planes : List PlaneDescriptor) : List ImageAttributes :=
  match mousePlane planes, world.mouseImage with
  | some mouse, some _ => [mouseAttributes mouse]
  | _, _ => []

/-- The images that a frame creates: one of the largest plane and, once that one is bound, one of
the first cursor. -/
def imagesOf (world : Drm.World) (planes : List PlaneDescriptor) : List ImageAttributes :=
  match largestPlane planes, world.inputImage, world.bindInput with
  | some largest, some _, .ok () => inputAttributes largest :: cursorImages world planes
  | some largest, some _, .error _ => [inputAttributes largest]
  | _, _, _ => []

/-- The image of the first cursor, if there is one, is created and bound. -/
def ImportsCursor (world : Drm.World) (planes : List PlaneDescriptor) : Prop :=
  mousePlane planes ≠ none → world.mouseImage ≠ none ∧ world.bindMouse = .ok ()

/-- All images are created and bound. -/
def Imports (world : Drm.World) (planes : List PlaneDescriptor) : Prop :=
  planes ≠ [] ∧ world.inputImage ≠ none ∧ world.bindInput = .ok () ∧ ImportsCursor world planes

/-- The conversion succeeds, and so do the calls of CUDA behind it. -/
def Encodes (world : Drm.World) : Prop :=
  world.convert = .ok () ∧ (∃ resource, world.register = .ok resource) ∧ CudaSucceeds world

/-- What happens between the reception of the descriptors and their clean-up. -/
structure Displays (world : Drm.World) (planes : List PlaneDescriptor) (shown : List Drm.Event) :
    Prop where
  others : ∀ fd, .received fd ∉ shown ∧ .closed fd ∉ shown
  images : shown.filterMap createdImage = imagesOf world planes
  converts : Imports world planes → shown.filterMap drawnCursor = [cursorOf planes]
  skips : ¬Imports world planes → shown.filterMap drawnCursor = []
  handled : .frameHandled ∈ shown ↔ Imports world planes ∧ Encodes world

/-- What a frame does about the planes of a response.  Their descriptors are received first and
closed last. -/
structure Shows (world : Drm.World) (planes : List PlaneDescriptor) (frame : Frame Unit) :
    Prop where
  emits : frame.Emits (Concerns planes)
  silent : ¬world.Receives → frame.events = []
  framed : world.Receives → ∃ shown, Displays world planes shown ∧
    frame.events = (planes.map PlaneDescriptor.fd).map .received ++ shown ++
      (planes.map PlaneDescriptor.fd).map .closed

/-! ### The frame -/

/-- The largest plane is one of them, and none is larger. -/
theorem largestPlane_spec {planes : List PlaneDescriptor} {plane : PlaneDescriptor}
    (largest : largestPlane planes = some plane) :
    plane ∈ planes ∧ ∀ other ∈ planes, area other ≤ area plane := by
  have search (rest : List PlaneDescriptor) : ∀ first : PlaneDescriptor,
      let found := rest.foldl (fun largest descriptor =>
        if largest.width * largest.height < descriptor.width * descriptor.height then descriptor
        else largest) first
      found ∈ first :: rest ∧ ∀ other ∈ first :: rest, area other ≤ area found := by
    induction rest with
    | nil => simp
    | cons next rest ih =>
        intro first
        by_cases less : first.width * first.height < next.width * next.height
        · have found := ih next
          simp only [List.foldl_cons, less, if_true] at found ⊢
          refine ⟨List.mem_cons_of_mem _ found.1, ?_⟩
          rintro other (_ | ⟨_, member⟩)
          · exact UInt32.le_trans (UInt32.le_of_lt less) (found.2 next List.mem_cons_self)
          · exact found.2 other member
        · have found := ih first
          simp only [List.foldl_cons, less, if_false] at found ⊢
          refine ⟨?_, ?_⟩
          · rcases List.mem_cons.mp found.1 with same | member
            · rw [same]
              exact List.mem_cons_self
            · exact List.mem_cons_of_mem _ (List.mem_cons_of_mem _ member)
          · rintro other (_ | ⟨_, _ | ⟨_, member⟩⟩)
            · exact found.2 first List.mem_cons_self
            · exact UInt32.le_trans (UInt32.not_lt.mp less) (found.2 first List.mem_cons_self)
            · exact found.2 other (List.mem_cons_of_mem _ member)
  cases planes with
  | nil => cases largest
  | cons first rest =>
      obtain rfl := Option.some.inj largest
      exact search rest first

variable {world : Drm.World} {planes : List PlaneDescriptor}

theorem cudaCall_emits {P : Drm.Event → Prop} (message : String) (outcome : Except String Unit) :
    (cudaCall message outcome).Emits P := by
  cases outcome with
  | error text => exact Block.emits_throwing _
  | ok done => exact Block.emits_pure done

/-- The events behind the conversion. -/
def Behind : Drm.Event → Prop
  | .imageDestroyed _ | .resourceRegistered _ | .resourceUnregistered _ | .frameHandled => True
  | .received _ | .closed _ | .imageCreated .. | .converted _ => False

theorem encodeFrame_emits : (encodeFrame world).Emits Behind := by
  have registers : (registerGlTextureInCuda world).Emits Behind := by
    unfold registerGlTextureInCuda
    cases world.register with
    | error text => exact Block.emits_throwing _
    | ok resource =>
        exact (Block.emits_emit trivial).bind fun _ => (cudaCall_emits _ _).bind fun _ =>
          (cudaCall_emits _ _).bind fun _ => (cudaCall_emits _ _).bind fun _ =>
            Block.emits_pure resource
  refine registers.bind fun resource => Block.Emits.scopeGuard (Block.emits_emit trivial) ?_
  refine (Block.emits_emit trivial).bind fun _ => ?_
  cases world.handleFrame with
  | error text => exact Block.emits_throwing _
  | ok done => exact Block.emits_pure done

/-- The frame handler is called once the texture is registered and mapped. -/
theorem encodeFrame_handled :
    .frameHandled ∈ (encodeFrame world).events ↔
      (∃ resource, world.register = .ok resource) ∧ CudaSucceeds world := by
  cases registered : world.register with
  | error text => simp [encodeFrame, registerGlTextureInCuda, registered, Block.throwing]
  | ok resource =>
      rcases registerGlTextureInCuda_cases registered with
        ⟨run, succeeds⟩ | ⟨exception, run, fails⟩
      · have calls : .frameHandled ∈ (callFrameHandler world).events := by
          rw [callFrameHandler, Block.emit_bind]
          exact List.mem_cons_self
        rw [encodeFrame, run, Block.returned_bind]
        refine iff_of_true (List.mem_append_right _ ?_) ⟨⟨resource, rfl⟩, succeeds⟩
        rw [Block.scopeGuard_events _ (callFrameHandler_accounts world).safe]
        exact List.mem_append_left _ calls
      · rw [encodeFrame, run, Block.threw_bind]
        exact iff_of_false (by simp) fun encodes => fails encodes.2

/-- The part of a frame from the conversion on. -/
theorem convertFrame_spec (input : Nat) (mouse : Option (Nat × MouseParameters)) :
    (convertFrame world input mouse).Safe ∧
      ∃ rest, (convertFrame world input mouse).events = .converted (mouse.map Prod.snd) :: rest ∧
        (∀ event ∈ rest, Behind event) ∧ (.frameHandled ∈ rest ↔ Encodes world) := by
  let destroys : Frame Unit :=
    Block.emitAll ((input :: (mouse.map Prod.fst).toList).map .imageDestroyed)
  have cleans : destroys.Emits Behind := by
    refine Block.emits_emitAll fun event member => ?_
    obtain ⟨image, -, rfl⟩ := List.mem_map.mp member
    trivial
  have encodes := cleans.scopeGuard (@encodeFrame_emits world)
  have events := Block.scopeGuard_events destroys (@encodeFrame_emits world).1
  unfold convertFrame
  rw [Block.emit_bind]
  cases converted : world.convert with
  | error text =>
      refine ⟨fun _ same => (by cases same), [], rfl, by simp, ?_⟩
      simp [Encodes, converted]
  | ok done =>
      refine ⟨encodes.1, _, rfl, encodes.2, ?_⟩
      change .frameHandled ∈ (Block.scopeGuard destroys (encodeFrame world)).events ↔ _
      rw [events, List.mem_append, encodeFrame_handled, Encodes, converted]
      simp [destroys, Block.emitAll]

/-- The creations of images. -/
def creations (created : List (Nat × ImageAttributes)) : List Drm.Event :=
  created.map fun image => .imageCreated image.1 image.2

/-- The image of the cursor is returned with the parameters of the conversion, or its import
throws. -/
theorem importMouse_run (world : Drm.World) (planes : List PlaneDescriptor) :
    ∃ created, created.map Prod.snd = cursorImages world planes ∧
      ((ImportsCursor world planes ∧ ∃ value, value.map Prod.snd = cursorOf planes ∧
          importMouse world (mousePlane planes) = ⟨creations created, .returned value⟩) ∨
        ¬ImportsCursor world planes ∧ ∃ exception,
          importMouse world (mousePlane planes) = ⟨creations created, .threw exception⟩) := by
  unfold cursorImages cursorOf ImportsCursor
  cases mousePlane planes with
  | none => exact ⟨[], rfl, .inl ⟨fun some => absurd rfl some, none, rfl, rfl⟩⟩
  | some mouse =>
      cases created : world.mouseImage with
      | none =>
          rw [importMouse, created]
          exact ⟨[], rfl, .inr ⟨fun imports => (imports (by simp)).1 rfl, _, rfl⟩⟩
      | some image =>
          refine ⟨[(image, mouseAttributes mouse)], rfl, ?_⟩
          rcases importImage_some world image (mouseAttributes mouse) world.bindMouse with
            ⟨bound, run⟩ | ⟨unbound, exception, run⟩
          · rw [importMouse, created, run, Block.returned_bind]
            exact .inl ⟨fun _ => ⟨by simp, bound⟩, _, rfl, rfl⟩
          · rw [importMouse, created, run, Block.threw_bind]
            exact .inr ⟨fun imports => unbound (imports (by simp)).2, exception, rfl⟩

/-- What follows the creation of the images: nothing if one of them fails, and otherwise the
conversion. -/
def Continues (world : Drm.World) (planes : List PlaneDescriptor) (later : List Drm.Event) :
    Prop :=
  ¬Imports world planes ∧ later = [] ∨
    Imports world planes ∧ ∃ rest, later = .converted (cursorOf planes) :: rest ∧
      (∀ event ∈ rest, Behind event) ∧ (.frameHandled ∈ rest ↔ Encodes world)

/-- The part of a frame behind the guard of the descriptors. -/
theorem renderFrame_run (world : Drm.World) (planes : List PlaneDescriptor) :
    (renderFrame world planes).Safe ∧ ∃ created later,
      (renderFrame world planes).events = creations created ++ later ∧
        created.map Prod.snd = imagesOf world planes ∧ Continues world planes later := by
  cases largest : largestPlane planes with
  | none =>
      have none : planes = [] := by
        cases planes with
        | nil => rfl
        | cons first rest => cases largest
      rw [renderFrame, largest]
      exact ⟨Block.safe_pure (), [], [], rfl, by simp [imagesOf, largest],
        .inl ⟨fun imports => imports.1 none, rfl⟩⟩
  | some plane =>
      have nonempty : planes ≠ [] := by
        rintro rfl
        cases largest
      simp only [renderFrame, largest]
      cases image : world.inputImage with
      | none =>
          exact ⟨fun _ same => (by cases same), [], [], rfl, by simp [imagesOf, largest, image],
            .inl ⟨fun imports => imports.2.1 image, rfl⟩⟩
      | some id =>
          rcases importImage_some world id (inputAttributes plane) world.bindInput with
            ⟨bound, run⟩ | ⟨unbound, exception, run⟩
          · obtain ⟨cursor, drawn, outcome⟩ := importMouse_run world planes
            have listed : ((id, inputAttributes plane) :: cursor).map Prod.snd =
                imagesOf world planes := by
              simp [imagesOf, largest, image, bound, drawn]
            rw [run, Block.returned_bind]
            rcases outcome with ⟨imports, value, parameters, mouse⟩ | ⟨fails, exception, mouse⟩
            · obtain ⟨safe, rest, events, behind⟩ := @convertFrame_spec world id value
              rw [parameters] at events
              rw [mouse, Block.returned_bind]
              refine ⟨safe, (id, inputAttributes plane) :: cursor, _, rfl, listed, .inr ⟨?_, ?_⟩⟩
              · exact ⟨nonempty, by simp [image], bound, imports⟩
              · exact ⟨rest, events, behind⟩
            · rw [mouse, Block.threw_bind]
              exact ⟨fun _ same => (by cases same), (id, inputAttributes plane) :: cursor, [],
                (List.append_nil _).symm, listed, .inl ⟨fun imports => fails imports.2.2.2, rfl⟩⟩
          · rw [run, Block.threw_bind]
            refine ⟨fun _ same => (by cases same), [(id, inputAttributes plane)], [], rfl, ?_,
              .inl ⟨fun imports => unbound imports.2.2.1, rfl⟩⟩
            cases bind : world.bindInput with
            | ok bound => exact absurd bind unbound
            | error text => simp [imagesOf, largest, image, bind]

/-- An image that is created shows the largest plane or the first cursor. -/
theorem concerns_of_mem_imagesOf {attributes : ImageAttributes}
    (member : attributes ∈ imagesOf world planes) (id : Nat) :
    Concerns planes (.imageCreated id attributes) := by
  have input {plane : PlaneDescriptor} (largest : largestPlane planes = some plane) :
      Concerns planes (.imageCreated id (inputAttributes plane)) := by
    obtain ⟨listed, most⟩ := largestPlane_spec largest
    exact .inl ⟨plane, listed, rfl, most⟩
  have cursor (member : attributes ∈ cursorImages world planes) :
      Concerns planes (.imageCreated id attributes) := by
    unfold cursorImages at member
    split at member
    · next mouse image found created =>
        obtain rfl := List.mem_singleton.mp member
        exact .inr ⟨mouse, found, rfl⟩
    · cases member
  unfold imagesOf at member
  split at member
  · next largest created bound =>
      rcases List.mem_cons.mp member with rfl | member
      · exact input largest
      · exact cursor member
  · next largest created bound =>
      obtain rfl := List.mem_singleton.mp member
      exact input largest
  · cases member

theorem concerns_cursorOf : Concerns planes (.converted (cursorOf planes)) := by
  intro parameters member
  obtain ⟨mouse, cursor, rfl⟩ := Option.map_eq_some_iff.mp member
  exact ⟨mouse, cursor, rfl⟩

theorem renderFrame_emits : (renderFrame world planes).Emits (Concerns planes) := by
  obtain ⟨safe, created, later, events, images, stages⟩ := renderFrame_run world planes
  refine ⟨safe, fun event member => ?_⟩
  rw [events] at member
  rcases List.mem_append.mp member with member | member
  · obtain ⟨image, listed, rfl⟩ := List.mem_map.mp member
    refine @concerns_of_mem_imagesOf world planes image.2 ?_ image.1
    rw [← images]
    exact List.mem_map_of_mem listed
  · rcases stages with ⟨-, rfl⟩ | ⟨-, rest, rfl, behind, -⟩
    · cases member
    · rcases List.mem_cons.mp member with rfl | member
      · exact concerns_cursorOf
      · have kind := behind event member
        cases event <;> first | exact kind.elim | trivial

theorem renderFrame_displays : Displays world planes (renderFrame world planes).events := by
  obtain ⟨-, created, later, events, images, stages⟩ := renderFrame_run world planes
  rw [events]
  have attributes : (creations created).filterMap createdImage = imagesOf world planes := by
    rw [← images, creations, List.filterMap_map]
    exact congrFun List.filterMap_eq_map created
  have cursors : (creations created).filterMap drawnCursor = [] := by
    simp [creations, List.filterMap_map, Function.comp_def, drawnCursor]
  rcases stages with ⟨fails, rfl⟩ | ⟨imports, rest, rfl, behind, handled⟩
  · rw [List.append_nil]
    exact {
      others := by simp [creations]
      images := attributes
      converts := fun imports => absurd imports fails
      skips := fun _ => cursors
      handled := iff_of_false (by simp [creations]) fun encodes => fails encodes.1 }
  · have noImages : rest.filterMap createdImage = [] := by
      refine List.filterMap_eq_nil_iff.mpr fun event member => ?_
      have kind := behind event member
      cases event <;> first | exact kind.elim | rfl
    have noCursors : rest.filterMap drawnCursor = [] := by
      refine List.filterMap_eq_nil_iff.mpr fun event member => ?_
      have kind := behind event member
      cases event <;> first | exact kind.elim | rfl
    exact {
      others := fun fd => ⟨by simpa [creations, Behind] using behind (.received fd),
        by simpa [creations, Behind] using behind (.closed fd)⟩
      images := by
        rw [List.filterMap_append, attributes, List.filterMap_cons_none rfl, noImages,
          List.append_nil]
      converts := fun _ => by
        rw [List.filterMap_append, cursors, List.nil_append]
        exact congrArg (List.cons (cursorOf planes)) noCursors
      skips := fun fails => absurd imports fails
      handled := by simpa [creations, imports] using handled }

/-! ### The response -/

/-- The planes of the response, with the numbers of the service. -/
theorem planeList_translated (translate : Int → Int) (response : Drm.DRMResponse) :
    (response.translated translate).planeList = response.planeList.map (inService translate) := by
  refine List.ext_getElem (by simp [Drm.DRMResponse.planeList, Drm.DRMResponse.translated]) ?_
  intro i left right
  have within : i < response.numFds.toNat := by
    simp only [Drm.DRMResponse.planeList, List.length_take] at left
    exact (Nat.lt_min.mp left).1
  simp [Drm.DRMResponse.planeList, Drm.DRMResponse.translated, within, inService]

/-- A message that is delivered whole. -/
theorem receiveResponse_delivered {response : Drm.DRMResponse} {translate : Int → Int}
    (few : response.numFds.toNat ≤ kMaxPlaneDescriptors)
    (delivered : world.delivery =
      ⟨responseSize, response, response.fds.map translate⟩) :
    receiveResponse world = .ok (.ok (response.translated translate)) ∧
      world.delivery.delivered = response.fds.map translate := by
  have positive : (0 : Int) < responseSize := by decide
  have whole : world.delivery.delivered = response.fds.map translate := by
    rw [delivered, Delivery.delivered, if_pos positive]
    refine List.take_of_length_le ?_
    rw [List.length_map, length_fds few]
    exact few
  have handled : receiveHandler world.delivery =
      .ok (responseSize, response.translated translate) := by
    have received : 0 < world.delivery.received := by rw [delivered]; exact positive
    have enough : world.delivery.response.numFds.toNat ≤ world.delivery.delivered.length := by
      rw [whole, List.length_map, length_fds few, delivered]
    rw [receiveHandler_eq received enough, whole, delivered, replaceFds_map_fds]
    rfl
  refine ⟨?_, whole⟩
  have complete : ¬(responseSize : Int) < 0 := by decide
  rw [receiveResponse, handled]
  simp only [complete, if_false, Int.toNat_natCast, afterReceive, Nat.lt_irrefl]

/-- A response within its bounds: what is shown of it, and the clean-up behind that. -/
theorem dispatchData_shows {response : Drm.DRMResponse}
    (few : response.numFds.toNat ≤ kMaxPlaneDescriptors) :
    (dispatchData world (.ok response)).Emits (Concerns response.planeList) ∧
      ∃ shown, Displays world response.planeList shown ∧
        (dispatchData world (.ok response)).events = shown ++ response.fds.map .closed := by
  have bound : Drm.planes response = .ok response.planeList := if_pos few
  rw [dispatchData]
  by_cases none : response.numFds.toNat = 0
  · have empty : response.planeList = [] := by simp [Drm.DRMResponse.planeList, none]
    rw [if_pos none, Drm.DRMResponse.fds, empty]
    exact ⟨Block.emits_throwing _, [], renderFrame_displays, rfl⟩
  · rw [if_neg none, closeDescriptors_eq few, bound]
    have emits : (renderFrame world response.planeList).Emits (Concerns response.planeList) :=
      renderFrame_emits
    have cleans : (Block.emitAll (response.fds.map .closed) : Frame Unit).Emits
        (Concerns response.planeList) := by
      refine Block.emits_emitAll fun event member => ?_
      obtain ⟨fd, listed, rfl⟩ := List.mem_map.mp member
      exact listed
    exact ⟨cleans.scopeGuard emits, _, renderFrame_displays,
      Block.scopeGuard_events (Block.emitAll (response.fds.map .closed)) emits.1⟩

/-- The frame, when the response has been delivered whole. -/
theorem dispatchFrame_shows {response : Drm.DRMResponse} {translate : Int → Int}
    (few : response.numFds.toNat ≤ kMaxPlaneDescriptors)
    (delivered : world.delivery =
      ⟨responseSize, response, response.fds.map translate⟩) :
    Shows world (response.planeList.map (inService translate)) (dispatchFrame world) := by
  by_cases receives : world.Receives
  · obtain ⟨received, whole⟩ := receiveResponse_delivered few delivered
    have listed := planeList_translated translate response
    have fds : response.fds.map translate = (response.translated translate).fds := by
      rw [Drm.DRMResponse.fds, Drm.DRMResponse.fds, listed]
      simp [inService]
    have run := dispatchFrame_of_receives receives
    rw [received, whole, fds] at run
    dsimp only at run
    obtain ⟨⟨safe, concerns⟩, shown, displays, events⟩ :=
      @dispatchData_shows world (response.translated translate) few
    rw [← listed, run]
    exact {
      emits := by
        refine ⟨safe, fun event member => ?_⟩
        rcases List.mem_append.mp member with member | member
        · obtain ⟨fd, carried, rfl⟩ := List.mem_map.mp member
          exact carried
        · exact concerns event member
      silent := fun early => absurd receives early
      framed := fun _ => ⟨shown, displays, by
        rw [events, ← List.append_assoc]
        rfl⟩ }
  · obtain ⟨safe, silent⟩ := dispatchFrame_early receives
    exact {
      emits := ⟨safe, by simp [silent]⟩
      silent := fun _ => silent
      framed := fun late => absurd late receives }

/-- What `get_fb` returns describes the planes in front of the helper. -/
theorem getFb_returned {device : Int} {outcome : Option (List PlaneProbe)}
    {response : Drm.DRMResponse} (answered : (getFb device outcome).exit = .returned response) :
    ∃ probes, outcome = some probes ∧
      (shown probes kMaxPlaneDescriptors).map PlaneProbe.exported = response.planeList.map .ok ∧
      response.numFds.toNat = response.planeList.length := by
  obtain ⟨left, -, same, -⟩ := getFb_ends (Multiset.mem_singleton_self (Resource.descriptor device))
    (by simp [NoHandles]) outcome
  rw [same] at answered
  cases outcome with
  | none => cases answered
  | some probes =>
      have all := exportAll_spec (shown probes kMaxPlaneDescriptors)
      have listed := @response_spec probes _ rfl
      revert answered all listed
      simp only [exitOfGetFb, gathered]
      obtain ⟨planes, _ | refusal⟩ := exportAll (shown probes kMaxPlaneDescriptors)
      · intro answered all listed
        obtain rfl := Exit.returned.inj answered
        rw [listed.1]
        exact ⟨probes, rfl, all, listed.2⟩
      · intro answered
        cases answered

/-- A screen behind descriptor 9. -/
def screenProbe : PlaneProbe where
  plane := some ⟨31, 77⟩
  fb := some
    { width := 1920, height := 1080, pixelFormat := 0x34325258, modifier := 0
      handles := #v[5, 0, 0, 0], pitches := #v[7680, 0, 0, 0], offsets := #v[0, 0, 0, 0] }
  prime := (0, 9)
  props := some []

/-- What the helper answers then. -/
def screenResponse : Drm.DRMResponse :=
  addPlane zeroResponse { plainPlane 9 1920 1080 0 with connectorId := 0 }

end Kms
end ShadowCast
