import ShadowCast.DispatchFrame

/-!
# What a frame leaves behind

The descriptors of a response are guarded as soon as their number is known, but the EGL images only
behind the conversion and the CUDA resource only behind its mapping.  So a frame releases all it
acquires exactly when no call between an acquisition and its guard fails, and when the response
claims the descriptors that were delivered with it.
-/

namespace ShadowCast
namespace Drm

/-- What is known of a part of the frame: it has defined behaviour, it releases nothing twice, and
it releases all it acquires exactly under the given condition. -/
structure Accounts (frame : Frame Unit) (complete : Prop) : Prop where
  safe : frame.Safe
  noExcess : resources.NoExcess frame.events
  settled_iff : resources.Settled frame.events ↔ complete

theorem Accounts.congr {frame : Frame Unit} {complete complete' : Prop}
    (accounts : Accounts frame complete) (same : complete ↔ complete') :
    Accounts frame complete' :=
  ⟨accounts.safe, accounts.noExcess, accounts.settled_iff.trans same⟩

/-- A part of the frame that releases nothing has to acquire nothing. -/
theorem Accounts.of_releasing_nothing {frame : Frame Unit} {complete : Prop} (safe : frame.Safe)
    (nothing : resources.released frame.events = [])
    (complete_iff : resources.acquired frame.events = [] ↔ complete) :
    Accounts frame complete := by
  refine ⟨safe, ?_, ?_⟩
  · rw [Settlement.NoExcess, nothing]
    exact List.nil_subperm
  · rw [Settlement.Settled, nothing, List.nil_perm]
    exact complete_iff

/-- A guarded part of the frame, with what was acquired in front of its guard. -/
theorem Accounts.bracket {scope cleanup : Frame Unit} {front : List Event} {complete : Prop}
    (accounts : Accounts scope complete) (cleanupSafe : cleanup.Safe)
    (opened : resources.released front = [])
    (closed : resources.acquired cleanup.events = [])
    (covered : (resources.released cleanup.events).Subperm (resources.acquired front)) :
    Accounts
      ⟨front ++ (Block.scopeGuard cleanup scope).events, (Block.scopeGuard cleanup scope).exit⟩
      (complete ∧ (resources.released cleanup.events).length =
        (resources.acquired front).length) := by
  rw [Block.scopeGuard_events cleanup accounts.safe, Block.scopeGuard_exit cleanupSafe,
    ← List.append_assoc]
  refine ⟨accounts.safe, accounts.noExcess.bracket opened closed covered, ?_⟩
  change resources.Settled (front ++ scope.events ++ cleanup.events) ↔ _
  rw [accounts.noExcess.settled_bracket_iff opened closed covered, accounts.settled_iff]

/-! ### The CUDA resource -/

/-- Every call behind a successful registration succeeds. -/
def CudaSucceeds (world : World) : Prop :=
  ∀ resource, world.register = .ok resource →
    world.setMapFlags = .ok () ∧ world.mapResources = .ok () ∧ world.getMappedArray = .ok ()

/-- Once the resource is registered, the function returns it or throws. -/
theorem registerGlTextureInCuda_cases {world : World} {resource : Nat}
    (registered : world.register = .ok resource) :
    (registerGlTextureInCuda world = ⟨[.resourceRegistered resource], .returned resource⟩ ∧
        CudaSucceeds world) ∨
      ∃ exception, registerGlTextureInCuda world =
        ⟨[.resourceRegistered resource], .threw exception⟩ ∧ ¬CudaSucceeds world := by
  simp only [registerGlTextureInCuda, CudaSucceeds, registered]
  cases world.setMapFlags with
  | error text => exact Or.inr ⟨_, rfl, by simp⟩
  | ok flags =>
      cases world.mapResources with
      | error text => exact Or.inr ⟨_, rfl, by simp⟩
      | ok mapped =>
          cases world.getMappedArray with
          | error text => exact Or.inr ⟨_, rfl, by simp⟩
          | ok array => exact Or.inl ⟨rfl, by simp⟩

theorem callFrameHandler_accounts (world : World) : Accounts (callFrameHandler world) True := by
  unfold callFrameHandler
  cases world.handleFrame with
  | ok done => exact .of_releasing_nothing (by rintro fault ⟨⟩) rfl (iff_of_true rfl trivial)
  | error text => exact .of_releasing_nothing (by rintro fault ⟨⟩) rfl (iff_of_true rfl trivial)

theorem encodeFrame_accounts (world : World) :
    Accounts (encodeFrame world) (CudaSucceeds world) := by
  cases registered : world.register with
  | error text =>
      have run : encodeFrame world =
          Block.throwing
            (.runtimeError ("CUDA: Failed to register image with CUDA - " ++ text)) := by
        simp only [encodeFrame, registerGlTextureInCuda, registered]
        rfl
      rw [run]
      exact .of_releasing_nothing (by simp) rfl
        (iff_of_true rfl (by simp [CudaSucceeds, registered]))
  | ok resource =>
      rcases registerGlTextureInCuda_cases registered with
        ⟨run, succeeds⟩ | ⟨exception, run, fails⟩
      · rw [encodeFrame, run, Block.returned_bind]
        refine ((callFrameHandler_accounts world).bracket (by rintro fault ⟨⟩) rfl rfl
          (List.Subperm.refl _)).congr ?_
        exact iff_of_true ⟨trivial, rfl⟩ succeeds
      · rw [encodeFrame, run, Block.threw_bind]
        refine .of_releasing_nothing (by rintro fault ⟨⟩) rfl (iff_of_false ?_ fails)
        exact List.cons_ne_nil _ _

/-! ### The images -/

/-- Every call between the creation of the first image and the guard of the images succeeds, and so
do the calls behind a registration. -/
def FrameSucceeds (world : World) (descriptors : List PlaneDescriptor) : Prop :=
  ∀ image, world.inputImage = some image →
    world.bindInput = .ok () ∧
      (mousePlane descriptors ≠ none → world.mouseImage ≠ none ∧ world.bindMouse = .ok ()) ∧
      world.convert = .ok () ∧ CudaSucceeds world

/-- Once the image is created, it is bound and returned or the binding throws. -/
theorem importImage_some (world : World) (image : Nat) (attributes : ImageAttributes)
    (bind : Except String Unit) :
    (bind = .ok () ∧ importImage world (some image) attributes bind =
        ⟨[.imageCreated image attributes], .returned image⟩) ∨
      (bind ≠ .ok () ∧ ∃ exception, importImage world (some image) attributes bind =
        ⟨[.imageCreated image attributes], .threw exception⟩) := by
  cases bind with
  | ok bound => exact Or.inl ⟨rfl, rfl⟩
  | error text => exact Or.inr ⟨by simp, _, rfl⟩

/-- The part behind the creation of the images, with what was acquired in front of it. -/
theorem convertFrame_accounts (world : World) (input : Nat)
    (mouse : Option (Nat × MouseParameters)) {front : List Event}
    (opened : resources.released front = [])
    (acquired : resources.acquired front =
      (input :: (mouse.map Prod.fst).toList).map Resource.image) :
    Accounts
      ⟨front ++ (convertFrame world input mouse).events, (convertFrame world input mouse).exit⟩
      (world.convert = .ok () ∧ CudaSucceeds world) := by
  cases converted : world.convert with
  | error text =>
      have run : convertFrame world input mouse =
          ⟨[.converted (mouse.map Prod.snd)], .threw (.runtimeError text)⟩ := by
        rw [convertFrame, converted]
        rfl
      rw [run]
      refine .of_releasing_nothing (by rintro fault ⟨⟩) ?_ (iff_of_false ?_ (by simp))
      · rw [Settlement.released_append, opened]
        rfl
      · rw [Settlement.acquired_append, acquired]
        exact List.cons_ne_nil _ _
  | ok done =>
      have images : resources.released
          ((input :: (mouse.map Prod.fst).toList).map Event.imageDestroyed) =
            resources.acquired front := by
        rw [acquired]
        cases mouse with
        | none => rfl
        | some mouse => rfl
      have run : (⟨front ++ (convertFrame world input mouse).events,
          (convertFrame world input mouse).exit⟩ : Frame Unit) =
            ⟨(front ++ [.converted (mouse.map Prod.snd)]) ++ (Block.scopeGuard (Block.emitAll
              ((input :: (mouse.map Prod.fst).toList).map .imageDestroyed))
                (encodeFrame world)).events,
              (Block.scopeGuard (Block.emitAll
                ((input :: (mouse.map Prod.fst).toList).map .imageDestroyed))
                  (encodeFrame world)).exit⟩ := by
        rw [convertFrame, converted, List.append_assoc]
        rfl
      have whole : resources.acquired (front ++ [.converted (mouse.map Prod.snd)]) =
          resources.acquired front := by
        rw [Settlement.acquired_append]
        exact List.append_nil _
      rw [run]
      refine ((encodeFrame_accounts world).bracket (by simp) ?_ ?_ ?_).congr ?_
      · rw [Settlement.released_append, opened]
        rfl
      · cases mouse with
        | none => rfl
        | some mouse => rfl
      · rw [whole]
        exact images ▸ List.Subperm.refl _
      · rw [whole]
        simp only [true_and]
        exact and_iff_left (congrArg List.length images)

/-- What is known of the part of the frame behind the guard of the descriptors. -/
theorem renderFrame_accounts (world : World) {descriptors : List PlaneDescriptor}
    (nonempty : descriptors ≠ []) :
    Accounts (renderFrame world descriptors) (FrameSucceeds world descriptors) := by
  obtain ⟨descriptor, largest⟩ : ∃ descriptor, largestPlane descriptors = some descriptor := by
    cases descriptors with
    | nil => exact absurd rfl nonempty
    | cons first rest => exact ⟨_, rfl⟩
  simp only [renderFrame, largest]
  cases created : world.inputImage with
  | none =>
      exact .of_releasing_nothing (by rintro fault ⟨⟩) rfl
        (iff_of_true rfl (by simp [FrameSucceeds, created]))
  | some image =>
      rcases importImage_some world image (inputAttributes descriptor) world.bindInput with
        ⟨bound, run⟩ | ⟨failed, exception, run⟩
      · rw [run, Block.returned_bind]
        cases plane : mousePlane descriptors with
        | none =>
            refine (convertFrame_accounts world image none rfl rfl).congr ?_
            simp [FrameSucceeds, created, bound, plane]
        | some mouse =>
            cases mouseCreated : world.mouseImage with
            | none =>
                rw [importMouse, mouseCreated]
                refine .of_releasing_nothing (by rintro fault ⟨⟩) rfl (iff_of_false ?_ ?_)
                · exact List.cons_ne_nil _ _
                · intro succeeds
                  exact ((succeeds image created).2.1 (by simp [plane])).1 mouseCreated
            | some mouseImage =>
                rcases importImage_some world mouseImage (mouseAttributes mouse)
                  world.bindMouse with
                  ⟨mouseBound, mouseRun⟩ | ⟨failed, exception, mouseRun⟩
                · rw [importMouse, mouseCreated, mouseRun, Block.returned_bind]
                  have front := @convertFrame_accounts world image (some (mouseImage,
                    { width := mouse.width, height := mouse.height, x := mouse.x, y := mouse.y }))
                    [.imageCreated image (inputAttributes descriptor),
                      .imageCreated mouseImage (mouseAttributes mouse)] rfl rfl
                  refine front.congr ?_
                  simp [FrameSucceeds, created, bound, plane, mouseCreated, mouseBound]
                · rw [importMouse, mouseCreated, mouseRun, Block.threw_bind]
                  refine .of_releasing_nothing (by rintro fault ⟨⟩) rfl (iff_of_false ?_ ?_)
                  · exact List.cons_ne_nil _ _
                  · intro succeeds
                    exact failed ((succeeds image created).2.1 (by simp [plane])).2
      · rw [run, Block.threw_bind]
        refine .of_releasing_nothing (by rintro fault ⟨⟩) rfl (iff_of_false ?_ ?_)
        · exact List.cons_ne_nil _ _
        · exact fun succeeds => failed (succeeds image created).1

/-! ### The descriptors -/

/-- The frame gets as far as `recvmsg`. -/
def World.Receives (world : World) : Prop :=
  world.handlerInstalled = true ∧ afterSend world.sent = .ok () ∧ world.ready = .ok true

/-- The response as the receive handler leaves it. -/
def Delivery.merged (delivery : Delivery) : DRMResponse :=
  { delivery.response with
    descriptors := replaceFds delivery.delivered 0 delivery.response.numFds.toNat
      delivery.response.descriptors }

/-- The planes of the merged response carry the delivered descriptors. -/
theorem fds_merged {delivery : Delivery}
    (enough : delivery.response.numFds.toNat ≤ delivery.delivered.length) :
    delivery.merged.fds = delivery.delivered.take delivery.response.numFds.toNat := by
  have room := length_delivered_le delivery
  apply List.ext_getElem
  · have few : delivery.merged.numFds.toNat ≤ kMaxPlaneDescriptors :=
      Nat.le_trans enough room
    rw [length_fds few]
    simp [Delivery.merged, enough]
  · intro j left right
    have within : j < delivery.delivered.length := by
      simp at right
      omega
    have bound : j < delivery.response.numFds.toNat := by
      simp at right
      omega
    simp [DRMResponse.fds, DRMResponse.planeList, Delivery.merged, replaceFds, bound, within]

/-- Merging leaves the flags of the planes as they are. -/
theorem flags_merged (delivery : Delivery) :
    delivery.merged.planeList.map PlaneDescriptor.flags =
      delivery.response.planeList.map PlaneDescriptor.flags := by
  apply List.ext_getElem
  · simp [DRMResponse.planeList, Delivery.merged]
  · intro j left right
    simp only [DRMResponse.planeList, Delivery.merged, replaceFds, List.getElem_map,
      List.getElem_take, Vector.getElem_toList, Vector.getElem_mapIdx]
    split
    · rfl
    · rfl

theorem mousePlane_ne_none_iff (descriptors : List PlaneDescriptor) :
    mousePlane descriptors ≠ none ↔
      ∃ flags ∈ descriptors.map PlaneDescriptor.flags, flags &&& isCursor ≠ 0 := by
  rw [mousePlane, Option.ne_none_iff_isSome, List.find?_isSome]
  simp [PlaneDescriptor.isFlagSet]

/-- A frame that does not get as far as `recvmsg` does nothing. -/
theorem dispatchFrame_early {world : World} (early : ¬world.Receives) :
    (dispatchFrame world).Safe ∧ (dispatchFrame world).events = [] := by
  have quiet (errno : Errno) : (dispatchData world (.error errno)).Safe ∧
      (dispatchData world (.error errno)).events = [] := by
    rw [dispatchData]
    split
    · exact ⟨by simp, rfl⟩
    · exact ⟨by simp, rfl⟩
  unfold dispatchFrame
  by_cases installed : world.handlerInstalled = true
  · rw [if_pos installed, getDrmData]
    cases sent : afterSend world.sent with
    | error errno => exact quiet errno
    | ok done =>
        cases ready : world.ready with
        | error errno => exact quiet errno
        | ok ready' =>
            cases ready' with
            | false => exact quiet .eagain
            | true => exact absurd ⟨installed, sent, ready⟩ early
  · rw [if_neg installed]
    exact ⟨by simp, rfl⟩

theorem dispatchFrame_of_not_receives {world : World} (early : ¬world.Receives) :
    Accounts (dispatchFrame world) True := by
  obtain ⟨safe, events⟩ := dispatchFrame_early early
  refine .of_releasing_nothing safe ?_ (iff_of_true ?_ trivial)
  · rw [events]
    rfl
  · rw [events]
    rfl

/-- A frame that gets as far as `recvmsg`, from there on. -/
theorem dispatchFrame_of_receives {world : World} (receives : world.Receives) :
    dispatchFrame world =
      match receiveResponse world with
      | .error fault => ⟨world.delivery.delivered.map .received, .faulted fault⟩
      | .ok data =>
          ⟨world.delivery.delivered.map .received ++ (dispatchData world data).events,
            (dispatchData world data).exit⟩ := by
  obtain ⟨installed, sent, ready⟩ := receives
  rw [dispatchFrame, if_pos installed, getDrmData, sent, ready]
  cases receiveResponse world with
  | error fault => simp [Block.emitAll, Block.ofExcept, Block.faulting]
  | ok data => simp [Block.emitAll, Block.ofExcept]

theorem receiveHandler_received {delivery : Delivery} {received : Int} {response : DRMResponse}
    (handled : receiveHandler delivery = .ok (received, response)) :
    received = delivery.received := by
  unfold receiveHandler at handled
  split at handled
  · cases handled
    rfl
  · split at handled
    · split at handled
      · cases handled
      · cases handled
        rfl
    · cases handled
      rfl

/-- A response that is too short is refused. -/
theorem receiveResponse_of_short {world : World}
    (defined : world.delivery.received ≤ 0 ∨
      world.delivery.response.numFds.toNat ≤ world.delivery.delivered.length)
    (short : world.delivery.received < responseSize) :
    ∃ errno, receiveResponse world = .ok (.error errno) := by
  obtain ⟨⟨received, response⟩, handled⟩ := (receiveHandler_eq_ok_iff world.delivery).mpr defined
  obtain rfl := receiveHandler_received handled
  simp only [receiveResponse, handled]
  by_cases failed : world.delivery.received < 0
  · exact ⟨world.receiveErrno, by simp only [if_pos failed, afterReceive]⟩
  · have few : world.delivery.received.toNat < responseSize := by omega
    exact ⟨.eagain, by simp only [if_neg failed, afterReceive, if_pos few]⟩

/-- A whole response is merged with the descriptors delivered with it. -/
theorem receiveResponse_of_whole {world : World}
    (enough : world.delivery.response.numFds.toNat ≤ world.delivery.delivered.length)
    (whole : responseSize ≤ world.delivery.received) :
    receiveResponse world = .ok (.ok world.delivery.merged) := by
  have size : 0 < responseSize := by decide
  have some : ¬world.delivery.received < 0 := by omega
  have all : ¬world.delivery.received.toNat < responseSize := by omega
  simp only [receiveResponse, receiveHandler_eq (by omega) enough, if_neg some, afterReceive,
    if_neg all]
  rfl

/-- Without enough descriptors for a response, receiving it is a fault. -/
theorem receiveResponse_of_excess {world : World} (some : 0 < world.delivery.received)
    (excess : world.delivery.delivered.length < world.delivery.response.numFds.toNat) :
    ∃ fault, receiveResponse world = .error fault := by
  have undefined : ¬∃ result, receiveHandler world.delivery = .ok result := by
    rw [receiveHandler_eq_ok_iff]
    omega
  rw [receiveResponse]
  cases handled : receiveHandler world.delivery with
  | error fault => exact ⟨fault, rfl⟩
  | ok result => exact absurd ⟨result, handled⟩ undefined

theorem acquired_received (fds : List Int) :
    resources.acquired (fds.map .received) = fds.map .descriptor := by
  simp [Settlement.acquired, resources, List.filterMap_map, Function.comp_def, Event.acquires]

theorem released_received (fds : List Int) : resources.released (fds.map .received) = [] := by
  simp [Settlement.released, resources, Event.releases]

theorem acquired_closed (fds : List Int) : resources.acquired (fds.map .closed) = [] := by
  simp [Settlement.acquired, resources, Event.acquires]

theorem released_closed (fds : List Int) :
    resources.released (fds.map .closed) = fds.map .descriptor := by
  simp [Settlement.released, resources, List.filterMap_map, Function.comp_def, Event.releases]

/-- The clean-up of a response within its array. -/
theorem closeDescriptors_eq {response : DRMResponse}
    (few : response.numFds.toNat ≤ kMaxPlaneDescriptors) :
    closeDescriptors response = Block.emitAll (response.fds.map .closed) := by
  rw [closeDescriptors, planes, if_pos few, DRMResponse.fds, List.map_map]
  rfl

/-- What the calls of the frame have to do depends on the planes as they were sent. -/
theorem frameSucceeds_merged (world : World) :
    FrameSucceeds world world.delivery.merged.planeList ↔
      FrameSucceeds world world.delivery.response.planeList := by
  simp only [FrameSucceeds, mousePlane_ne_none_iff, flags_merged]

/-- A merged response, with its descriptors delivered in front of it. -/
theorem dispatchData_accounts (world : World)
    (enough : world.delivery.response.numFds.toNat ≤ world.delivery.delivered.length) :
    Accounts
      ⟨world.delivery.delivered.map .received ++
          (dispatchData world (.ok world.delivery.merged)).events,
        (dispatchData world (.ok world.delivery.merged)).exit⟩
      ((world.delivery.response.numFds.toNat ≠ 0 →
          FrameSucceeds world world.delivery.response.planeList) ∧
        world.delivery.response.numFds.toNat = world.delivery.delivered.length) := by
  have room := length_delivered_le world.delivery
  have count : world.delivery.merged.numFds = world.delivery.response.numFds := rfl
  rw [dispatchData, count]
  by_cases none : world.delivery.response.numFds.toNat = 0
  · rw [if_pos none]
    refine .of_releasing_nothing (by rintro fault ⟨⟩) ?_ ?_
    · rw [Settlement.released_append, released_received]
      rfl
    · have thrown : resources.acquired ((Block.throwing (.runtimeError "No DRM planes received") :
          Frame Unit).events) = [] := rfl
      rw [Settlement.acquired_append, acquired_received, thrown, List.append_nil,
        List.map_eq_nil_iff, none, ← List.length_eq_zero_iff]
      exact ⟨fun empty => ⟨fun some => absurd rfl some, empty.symm⟩, fun both => both.2.symm⟩
  · have few : world.delivery.merged.numFds.toNat ≤ kMaxPlaneDescriptors := by
      rw [count]
      omega
    have fds := fds_merged enough
    have nonempty : world.delivery.merged.planeList ≠ [] := by
      intro empty
      have length := length_fds few
      rw [DRMResponse.fds, empty, count] at length
      exact none length.symm
    rw [if_neg none, planes, if_pos few, closeDescriptors_eq few]
    refine ((renderFrame_accounts world nonempty).bracket (by simp) (released_received _)
      (acquired_closed _) ?_).congr ?_
    · rw [Block.emitAll, released_closed, acquired_received, fds]
      exact ((List.take_sublist _ _).map _).subperm
    · rw [frameSucceeds_merged, Block.emitAll, released_closed, acquired_received, fds]
      simp only [List.length_map, List.length_take, Nat.min_eq_left enough, ne_eq, none,
        not_false_eq_true, true_imp_iff]

/-! ### The whole frame -/

/-- The response claims as many descriptors as were delivered with it, and is whole unless none
were. -/
def ClaimsDelivered (delivery : Delivery) : Prop :=
  delivery.received ≤ 0 ∨
    delivery.response.numFds.toNat = delivery.delivered.length ∧
      (responseSize ≤ delivery.received ∨ delivery.delivered = [])

/-- Every call between an acquisition and its guard succeeds. -/
def ReachesGuards (world : World) : Prop :=
  responseSize ≤ world.delivery.received → world.delivery.response.numFds.toNat ≠ 0 →
    FrameSucceeds world world.delivery.response.planeList

/-- The frame has defined behaviour and releases exactly what it acquires. -/
def ReleasesAll (world : World) : Prop :=
  (dispatchFrame world).Safe ∧ resources.Settled (dispatchFrame world).events

/-- A refused response, with its descriptors delivered in front of it. -/
theorem refused_accounts (world : World) (errno : Errno) :
    Accounts
      ⟨world.delivery.delivered.map .received ++ (dispatchData world (.error errno)).events,
        (dispatchData world (.error errno)).exit⟩
      (world.delivery.delivered = []) := by
  have quiet : (dispatchData world (.error errno)).events = [] ∧
      (dispatchData world (.error errno)).Safe := by
    rw [dispatchData]
    split
    · exact ⟨rfl, by simp⟩
    · exact ⟨rfl, by simp⟩
  rw [quiet.1, List.append_nil]
  refine .of_releasing_nothing quiet.2 (released_received _) ?_
  rw [acquired_received, List.map_eq_nil_iff]

/-- A frame whose response claims no more descriptors than were delivered with it. -/
theorem dispatchFrame_accounts {world : World} (receives : world.Receives)
    (defined : world.delivery.received ≤ 0 ∨
      world.delivery.response.numFds.toNat ≤ world.delivery.delivered.length) :
    Accounts (dispatchFrame world) (ClaimsDelivered world.delivery ∧ ReachesGuards world) := by
  rw [dispatchFrame_of_receives receives]
  by_cases whole : responseSize ≤ world.delivery.received
  · have size : 0 < responseSize := by decide
    have enough := defined.resolve_left (by omega)
    rw [receiveResponse_of_whole enough whole]
    refine (dispatchData_accounts world enough).congr ?_
    have received : ¬world.delivery.received ≤ 0 := by omega
    simp only [ClaimsDelivered, ReachesGuards, whole, received, true_or, and_true, false_or,
      true_imp_iff]
    exact and_comm
  · obtain ⟨errno, refused⟩ := receiveResponse_of_short defined (by omega)
    rw [refused]
    refine (refused_accounts world errno).congr ?_
    simp only [ClaimsDelivered, ReachesGuards, whole, false_or, false_imp_iff, and_true]
    constructor
    · intro empty
      rw [empty, List.length_nil] at defined ⊢
      exact defined.imp id fun none => ⟨Nat.le_zero.mp none, rfl⟩
    · rintro (nothing | ⟨-, empty⟩)
      · rw [Delivery.delivered, if_neg (by omega)]
      · exact empty

/-- A frame whose response claims more descriptors than were delivered with it. -/
theorem dispatchFrame_unsafe {world : World} (receives : world.Receives)
    (some : 0 < world.delivery.received)
    (excess : world.delivery.delivered.length < world.delivery.response.numFds.toNat) :
    ¬(dispatchFrame world).Safe := by
  obtain ⟨fault, undefined⟩ := receiveResponse_of_excess some excess
  rw [dispatchFrame_of_receives receives, undefined]
  exact fun safe => safe fault rfl

/-- A frame has defined behaviour exactly when its response, if it receives one, claims no more
descriptors than were delivered with it. -/
theorem dispatchFrame_safe_iff (world : World) :
    (dispatchFrame world).Safe ↔
      (world.Receives → world.delivery.received ≤ 0 ∨
        world.delivery.response.numFds.toNat ≤ world.delivery.delivered.length) := by
  constructor
  · intro safe receives
    by_contra undefined
    rw [not_or, not_le, not_le] at undefined
    exact dispatchFrame_unsafe receives undefined.1 undefined.2 safe
  · intro defined
    by_cases receives : world.Receives
    · exact (dispatchFrame_accounts receives (defined receives)).safe
    · exact (dispatchFrame_of_not_receives receives).safe

/-- A frame with a screen and a mouse plane in which every call succeeds. -/
def smoothWorld : World where
  handlerInstalled := true
  sent := .ok 4
  ready := .ok true
  receiveErrno := .eintr
  delivery := { received := responseSize, response := twoPlanes, passed := [25, 26] }
  eglError := 0x3000
  inputImage := some 1
  bindInput := .ok ()
  mouseImage := some 2
  bindMouse := .ok ()
  convert := .ok ()
  register := .ok 7
  setMapFlags := .ok ()
  mapResources := .ok ()
  getMappedArray := .ok ()
  handleFrame := .ok ()

/-- A response that claims two planes and comes without a control message. -/
theorem absent_control_message_is_read :
    ¬(dispatchFrame { smoothWorld with
      delivery := { smoothWorld.delivery with passed := [] } }).Safe := by
  have exit : (dispatchFrame { smoothWorld with
      delivery := { smoothWorld.delivery with passed := [] } }).exit =
        .faulted .absentControlMessage := by
    decide +kernel
  exact fun safe => safe _ exit

/-- A smooth frame releases in the opposite order of its acquisitions, the descriptors last. -/
example : (dispatchFrame smoothWorld).events.filterMap Event.releases =
    [.graphics 7, .image 1, .image 2, .descriptor 25, .descriptor 26] := by
  decide +kernel

end Drm
end ShadowCast
