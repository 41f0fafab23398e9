import ShadowCast.KmsHelper
import Mathlib.Data.Multiset.Dedup

/-!
# The DRM helper gives back what it takes

Every function of the helper has a specification: its exit, and what it holds then beyond what it
held before.  The objects of the library are gone whichever way it is left; what an exception leaves
behind are descriptors and references that were exported for the response.
-/

namespace ShadowCast
namespace Kms

open Drm Discipline Machine

variable {held left : Multiset Resource} {device : Int}

theorem swap_last (s t u : Multiset Resource) : s + t + u = s + u + t := by
  rw [Multiset.add_assoc, Multiset.add_comm t, ← Multiset.add_assoc]

theorem call_bind {α : Type} {second : Unit → Helper α}
    {exits : Exit Failure Waiting α → Multiset Resource → Prop}
    (opened : .descriptor device ∈ held) (rest : resources.Keeps held (second ()) exits) :
    resources.Keeps held (Block.emit (.call device) >>= second) exits :=
  Keeps.use_bind (Multiset.singleton_le.mpr opened) rfl rfl rest

theorem acquire_bind {α : Type} {resource : Resource} {second : Unit → Helper α}
    {exits : Exit Failure Waiting α → Multiset Resource → Prop}
    (rest : resources.Keeps (held + {resource}) (second ()) exits) :
    resources.Keeps held (Block.emit (.acquire resource) >>= second) exits := by
  refine Keeps.emit_bind (Multiset.zero_le _) ?_
  simpa only [resources, Multiset.sub_zero] using rest

/-- A call that may return an object. -/
theorem obtain_ends {α : Type} (opened : .descriptor device ∈ held) (resource : Resource)
    (outcome : Option α) :
    resources.Ends held (obtain device resource outcome) (.returned outcome)
      (if outcome.isSome then held + {resource} else held) := by
  refine call_bind opened ?_
  cases outcome with
  | none => exact Keeps.pure ⟨rfl, rfl⟩
  | some value => exact acquire_bind (Keeps.pure ⟨rfl, rfl⟩)

/-- Freeing what is held. -/
theorem free_ends (held : Multiset Resource) (resource : Resource) :
    resources.Ends (held + {resource}) (free resource) (.returned ()) held :=
  Keeps.emit (by simp [resources])
    ⟨rfl, (Multiset.add_zero _).trans Multiset.add_sub_cancel_right⟩

/-- A scope whose guard frees an object. -/
theorem guarded {α : Type} {resource : Resource} {rest : Helper α}
    {exit : Exit Failure Waiting α}
    (ends : resources.Ends (held + {resource}) rest exit (left + {resource}))
    (goesOn : ∀ fault, exit ≠ .faulted fault) :
    resources.Ends (held + {resource}) (Block.scopeGuard (free resource) rest) exit left :=
  ends.guarded goesOn (free_ends left resource)

/-- An object that may be null is freed. -/
theorem freeIf_ends {α : Type} (held : Multiset Resource) (resource : Resource)
    (outcome : Option α) :
    resources.Ends (if outcome.isSome then held + {resource} else held)
      (freeIf resource outcome) (.returned ()) held := by
  cases outcome with
  | none => exact Keeps.pure ⟨rfl, rfl⟩
  | some value => exact free_ends held resource

theorem mem_acquired (opened : .descriptor device ∈ held) (resource : Resource) :
    .descriptor device ∈ held + {resource} :=
  Multiset.mem_add.mpr (.inl opened)

/-! ### The device -/

/-- The search for a plane with a framebuffer. -/
theorem searchPlanes_ends (opened : .descriptor device ∈ held) (planes : List (Option UInt32)) :
    resources.Ends held (searchPlanes device planes)
      (.returned (planes.any fun plane => plane.any (· ≠ 0))) held := by
  induction planes with
  | nil => exact Keeps.pure ⟨by simp, rfl⟩
  | cons plane planes ih =>
      refine (obtain_ends opened .plane plane).bind ?_
      cases plane with
      | none => exact ih
      | some fbId =>
          have checked : resources.Ends (held + {.plane})
              (pure (decide (fbId ≠ 0)) : Helper Bool) (.returned (decide (fbId ≠ 0)))
              (held + {.plane}) := Keeps.pure ⟨rfl, rfl⟩
          refine (guarded checked (by simp)).bind ?_
          by_cases shown : fbId = 0
          · subst shown
            exact ih
          · simp only [shown, ne_eq, not_false_eq_true, decide_true, if_true]
            exact Keeps.pure ⟨by simp [shown], rfl⟩

/-- The device can be opened, and one of its planes has a framebuffer. -/
def DeviceProbe.shows (probe : DeviceProbe) : Bool :=
  probe.fd.isSome && probe.version && probe.resources &&
    probe.planes.any fun planes => planes.any fun plane => plane.any (· ≠ 0)

/-- Whether a device shows something is found out, and everything is closed again. -/
theorem checkDevice_ends (held : Multiset Resource) (probe : DeviceProbe) :
    resources.Ends held (checkDevice probe) (.returned probe.shows) held := by
  obtain ⟨fd, version, objects, planes⟩ := probe
  cases fd with
  | none => exact Keeps.pure ⟨rfl, rfl⟩
  | some fd =>
      refine acquire_bind (guarded ?_ (by simp))
      have opened : .descriptor fd ∈ held + {.descriptor fd} := by simp
      refine (obtain_ends opened .version _).bind ?_
      cases version with
      | false => exact Keeps.pure ⟨rfl, rfl⟩
      | true =>
          refine guarded ?_ (by simp)
          have opened := mem_acquired opened .version
          refine (obtain_ends opened .resources _).bind ?_
          cases objects with
          | false => exact Keeps.pure ⟨rfl, rfl⟩
          | true =>
              refine guarded ?_ (by simp)
              have opened := mem_acquired opened .resources
              refine call_bind opened ((obtain_ends opened .planeResources planes).bind ?_)
              cases planes with
              | none => exact Keeps.pure ⟨rfl, rfl⟩
              | some planes =>
                  have opened := mem_acquired opened .planeResources
                  exact guarded (searchPlanes_ends opened planes) (by simp)

/-- The index of the first device that shows something. -/
def firstDevice (devices : Nat → DeviceProbe) (count i : Nat) : Option Nat :=
  (List.range' i count).find? fun j => (devices j).shows

theorem searchDevices_ends (held : Multiset Resource) (devices : Nat → DeviceProbe)
    (count i : Nat) :
    resources.Ends held (searchDevices devices count i)
      (match firstDevice devices count i with
      | some j => .returned (devicePath j)
      | none => .threw (.runtimeError "Failed to find a valid DRM device path")) held := by
  induction count generalizing i with
  | zero => exact Keeps.throwing ⟨rfl, rfl⟩
  | succ count ih =>
      refine (checkDevice_ends held (devices i)).bind ?_
      simp only [firstDevice, List.range'_succ, List.find?_cons]
      cases (devices i).shows with
      | true => exact Keeps.pure ⟨rfl, rfl⟩
      | false => exact ih (i + 1)

/-- `get_drm_device_path` finds the first of the devices that shows something, or none of them does.
Whatever it looked at is closed and freed again. -/
theorem getDrmDevicePath_spec (held : Multiset Resource) (devices : Nat → DeviceProbe) :
    resources.Keeps held (getDrmDevicePath devices) fun exit left => left = held ∧
      match exit with
      | .returned path => ∃ i < maxDevices, path = devicePath i ∧ (devices i).shows = true ∧
          ∀ j < i, (devices j).shows = false
      | .threw failure =>
          failure = .runtimeError "Failed to find a valid DRM device path" ∧
            ∀ i < maxDevices, (devices i).shows = false
      | .faulted _ => False := by
  refine (searchDevices_ends held devices maxDevices 0).keeps ⟨rfl, ?_⟩
  cases search : firstDevice devices maxDevices 0 with
  | some i =>
      obtain ⟨shows, member, before⟩ := List.find?_range'_eq_some.mp search
      rw [List.mem_range'_1] at member
      exact ⟨i, by omega, rfl, shows, fun j less => by simpa using before j (Nat.zero_le j) less⟩
  | none =>
      have hidden := List.find?_range'_eq_none.mp search
      exact ⟨rfl, fun i less => by simpa using hidden i (Nat.zero_le i) (by omega)⟩

/-! ### The properties of a plane -/

theorem visitProperties_ends (opened : .descriptor device ∈ held) (props : List ObjectProperty)
    (loop : PlaneLoop) :
    resources.Ends held (visitProperties device props loop)
      (.returned (props.foldl PlaneLoop.visit loop)) held := by
  induction props generalizing loop with
  | nil => exact Keeps.pure ⟨rfl, rfl⟩
  | cons property props ih =>
      refine (obtain_ends opened .property property.prop).bind ?_
      cases found : property.prop with
      | none =>
          have same : loop.visit property = loop := by rw [PlaneLoop.visit, found]
          rw [List.foldl_cons, same]
          exact ih loop
      | some prop =>
          have visited : resources.Ends (held + {.property})
              (pure (loop.visit property) : Helper PlaneLoop) (.returned (loop.visit property))
              (held + {.property}) := Keeps.pure ⟨rfl, rfl⟩
          exact (guarded visited (by simp)).bind (ih (loop.visit property))

/-- A result, as the exit of a function that throws a `std::runtime_error`. -/
def exitOf {α : Type} : Except String α → Exit Failure Waiting α
  | .ok value => .returned value
  | .error what => .threw (.runtimeError what)

theorem exitOf_ne_faulted {α : Type} (result : Except String α) (fault : Waiting) :
    exitOf result ≠ .faulted fault := by
  cases result <;> simp [exitOf]

/-- With its guards, `get_plane_properties` has the same result. -/
theorem planeProperties_ends (opened : .descriptor device ∈ held)
    (props : Option (List ObjectProperty)) (descriptor : PlaneDescriptor) :
    resources.Ends held (planeProperties device props descriptor)
      (exitOf (getPlaneProperties props descriptor)) held := by
  refine (obtain_ends opened .objectProperties props).bind ?_
  cases props with
  | none => exact Keeps.throwing ⟨rfl, rfl⟩
  | some props =>
      have opened := mem_acquired opened .objectProperties
      refine guarded ((visitProperties_ends opened props _).bind ?_) (exitOf_ne_faulted _)
      simp only [getPlaneProperties]
      split <;> exact Keeps.pure ⟨rfl, rfl⟩

theorem visit_fd (loop : PlaneLoop) (property : ObjectProperty) :
    (loop.visit property).descriptor.fd = loop.descriptor.fd := by
  have search (entries : List PropertyEnum) :
      (searchCursor property.value loop.descriptor entries).fd = loop.descriptor.fd := by
    induction entries with
    | nil => rfl
    | cons entry entries ih =>
        rw [searchCursor]
        split
        · rfl
        · exact ih
  unfold PlaneLoop.visit
  cases property.prop with
  | none => rfl
  | some prop => dsimp only; split_ifs <;> first | rfl | exact search _

theorem foldl_visit_fd (props : List ObjectProperty) (loop : PlaneLoop) :
    (props.foldl PlaneLoop.visit loop).descriptor.fd = loop.descriptor.fd := by
  induction props generalizing loop with
  | nil => rfl
  | cons property props ih => exact (ih _).trans (visit_fd loop property)

/-- The descriptor number is not a property. -/
theorem getPlaneProperties_fd {props : Option (List ObjectProperty)}
    {descriptor described : PlaneDescriptor}
    (done : getPlaneProperties props descriptor = .ok described) :
    described.fd = descriptor.fd := by
  cases props with
  | none => cases done
  | some props =>
      simp only [getPlaneProperties] at done
      split at done <;> obtain rfl := Except.ok.inj done <;>
        exact foldl_visit_fd props _

/-! ### The planes -/

/-- There is something to see on the plane. -/
def PlaneProbe.visible (probe : PlaneProbe) : Bool := probe.plane.any (·.fbId ≠ 0)

/-- Why a plane is not exported, and what has been acquired for it by then. -/
structure Refusal where
  what : String
  leaves : Multiset Resource

/-- The descriptor of a plane that is exported. -/
def PlaneProbe.exported (probe : PlaneProbe) : Except Refusal PlaneDescriptor :=
  match probe.fb with
  | none => .error ⟨"drmModeGetFB2 failed", 0⟩
  | some fb =>
      let references : Multiset Resource := ↑(fb.references.map Resource.handle)
      if fb.handles.head = 0 then .error ⟨"drmModeGetFB2 failed", references⟩
      else if probe.prime.1 ≠ 0 ∨ probe.prime.2 = -1 then
        .error ⟨"drmPrimeHandleToFD failed", references⟩
      else
        match getPlaneProperties probe.props (fb.descriptor probe.prime.2) with
        | .error what => .error ⟨what, {.descriptor probe.prime.2}⟩
        | .ok descriptor => .ok descriptor

/-- The references that come with a framebuffer. -/
def FB2.handlesHeld (fb : FB2) : Multiset Resource := ↑(fb.references.map Resource.handle)

/-- No reference to a buffer object is held. -/
def NoHandles (held : Multiset Resource) : Prop := ∀ handle, .handle handle ∉ held

/-- What is acquired next is not such a reference. -/
theorem NoHandles.acquired {resource : Resource} (none : NoHandles held)
    (other : ∀ handle, .handle handle ≠ resource) : NoHandles (held + {resource}) := by
  intro handle member
  rcases Multiset.mem_add.mp member with before | now
  · exact none handle before
  · exact other handle (Multiset.mem_singleton.mp now)

theorem acquireHandles_ends (held : Multiset Resource) (fb : FB2) :
    resources.Ends held (acquireHandles fb) (.returned ()) (held + fb.handlesHeld) := by
  refine Keeps.forEach (P := fun _ => True)
    (fun handles held => held + (↑(handles.map Resource.handle) : Multiset Resource))
    (fun held => Multiset.add_zero held) ?_ trivial
  intro handle handles held _
  refine Keeps.emit (Multiset.zero_le _) ⟨rfl, trivial, ?_⟩
  simp only [resources, Multiset.sub_zero, List.map_cons, ← Multiset.cons_coe,
    ← Multiset.singleton_add, Multiset.add_assoc]

theorem getFB2_ends (opened : .descriptor device ∈ held) (outcome : Option FB2) :
    resources.Ends held (getFB2 device outcome) (.returned outcome)
      (match outcome with
      | none => held
      | some fb => held + {.framebuffer} + fb.handlesHeld) := by
  refine (obtain_ends opened .framebuffer outcome).bind ?_
  cases outcome with
  | none => exact Keeps.pure ⟨rfl, rfl⟩
  | some fb => exact (acquireHandles_ends _ fb).bind (Keeps.pure ⟨rfl, rfl⟩)

theorem primeHandleToFD_ends (opened : .descriptor device ∈ held) (outcome : Int × Int) :
    resources.Ends held (primeHandleToFD device outcome)
      (.returned (if outcome.1 ≠ 0 ∨ outcome.2 = -1 then none else some outcome.2))
      (if outcome.1 ≠ 0 ∨ outcome.2 = -1 then held else held + {.descriptor outcome.2}) := by
  refine call_bind opened ?_
  split
  · exact Keeps.pure ⟨rfl, rfl⟩
  · exact acquire_bind (Keeps.pure ⟨rfl, rfl⟩)

/-- The clean-up closes every reference, some of them twice. -/
theorem closeHandles_ends (opened : .descriptor device ∈ held) (none : NoHandles held)
    (fb : FB2) :
    resources.Ends (held + fb.handlesHeld) (closeHandles device fb) (.returned ()) held := by
  have closed : held + fb.handlesHeld -
      (↑((fb.handles.toList.filter (· ≠ 0)).map Resource.handle) : Multiset Resource) = held := by
    have injective : Function.Injective Resource.handle := fun _ _ same => Resource.handle.inj same
    ext resource
    rw [Multiset.count_sub, Multiset.count_add, FB2.handlesHeld, FB2.references, Multiset.coe_count,
      Multiset.coe_count]
    generalize fb.handles.toList.filter (· ≠ 0) = handles
    have fewer := ((handles.dedup_sublist).map Resource.handle).count_le resource
    by_cases own : resource ∈ (handles.dedup).map Resource.handle
    · obtain ⟨handle, -, rfl⟩ := List.mem_map.mp own
      rw [Multiset.count_eq_zero.mpr (none handle)]
      omega
    · have other : resource ∉ handles.map Resource.handle := by simpa using own
      rw [List.count_eq_zero.mpr own, List.count_eq_zero.mpr other]
      rfl
  have loop : resources.Ends (held + fb.handlesHeld) (closeHandles device fb) (.returned ())
      (held + fb.handlesHeld -
        (↑((fb.handles.toList.filter (· ≠ 0)).map Resource.handle) : Multiset Resource)) := by
    refine Keeps.forEach (P := fun held => .descriptor device ∈ held)
      (fun handles held => held -
        (↑((handles.filter (· ≠ 0)).map Resource.handle) : Multiset Resource))
      (fun held => Multiset.sub_zero held) ?_ (Multiset.mem_add.mpr (.inl opened))
    intro handle handles held opened
    by_cases zero : handle = 0
    · rw [if_pos zero]
      exact Keeps.pure ⟨rfl, opened, by simp [zero]⟩
    · rw [if_neg zero]
      refine Keeps.emit (Multiset.singleton_le.mpr opened) ⟨rfl, ?_, ?_⟩
      · simpa [resources] using (Multiset.mem_erase_of_ne (by simp)).mpr opened
      · simp only [resources, Multiset.add_zero, List.filter_cons, zero, ne_eq,
          not_false_eq_true, decide_true, if_true, List.map_cons, ← Multiset.cons_coe,
          ← Multiset.singleton_add, Multiset.sub_add_eq_sub_sub]
  rwa [closed] at loop

/-- The outcome for a plane, as the exit of the function. -/
def exitOfExport : Except Refusal PlaneDescriptor → Exit Failure Waiting PlaneDescriptor
  | .ok descriptor => .returned descriptor
  | .error refusal => .threw (.runtimeError refusal.what)

/-- What has been acquired for a plane then. -/
def leftByExport : Except Refusal PlaneDescriptor → Multiset Resource
  | .ok descriptor => {.descriptor descriptor.fd}
  | .error refusal => refusal.leaves

theorem exportPlane_ends (opened : .descriptor device ∈ held) (none : NoHandles held)
    (probe : PlaneProbe) {fb : FB2} (same : probe.fb = some fb) :
    resources.Ends (held + fb.handlesHeld) (exportPlane device probe fb)
      (exitOfExport probe.exported) (held + leftByExport probe.exported) := by
  have first : fb.handles.head = fb.handles[0] := rfl
  unfold exportPlane PlaneProbe.exported
  simp only [same, first]
  by_cases absent : fb.handles[0] = 0
  · simp only [absent, if_true]
    exact Keeps.throwing ⟨rfl, rfl⟩
  · simp only [absent, if_false]
    have opened' : .descriptor device ∈ held + fb.handlesHeld :=
      Multiset.mem_add.mpr (.inl opened)
    refine (primeHandleToFD_ends opened' probe.prime).bind ?_
    by_cases fails : probe.prime.1 ≠ 0 ∨ probe.prime.2 = -1
    · simp only [fails, if_true]
      exact Keeps.throwing ⟨rfl, rfl⟩
    · simp only [fails, if_false]
      have opened'' : .descriptor device ∈ held + {.descriptor probe.prime.2} :=
        mem_acquired opened _
      have none' : NoHandles (held + {.descriptor probe.prime.2}) := none.acquired (by simp)
      have opened''' : .descriptor device ∈
          held + {.descriptor probe.prime.2} + fb.handlesHeld :=
        Multiset.mem_add.mpr (.inl opened'')
      have properties := planeProperties_ends opened''' probe.props
        (fb.descriptor probe.prime.2)
      have closed := closeHandles_ends opened'' none' fb
      rw [swap_last]
      cases result : getPlaneProperties probe.props (fb.descriptor probe.prime.2) with
      | error what =>
          rw [result] at properties
          exact properties.guarded (exitOf_ne_faulted _) closed
      | ok descriptor =>
          rw [result] at properties
          have fd : descriptor.fd = probe.prime.2 := getPlaneProperties_fd result
          simp only [leftByExport, fd]
          exact properties.guarded (exitOf_ne_faulted _) closed

/-- The body of the loop over the planes. -/
theorem describePlane_ends (opened : .descriptor device ∈ held) (none : NoHandles held)
    (probe : PlaneProbe) :
    resources.Ends held (describePlane device probe)
      (if probe.visible then
        match probe.exported with
        | .ok descriptor => .returned (some descriptor)
        | .error refusal => .threw (.runtimeError refusal.what)
      else .returned Option.none)
      (if probe.visible then held + leftByExport probe.exported else held) := by
  refine (obtain_ends opened .plane probe.plane).bind ?_
  cases found : probe.plane with
  | none =>
      have hidden : probe.visible = false := by simp [PlaneProbe.visible, found]
      rw [hidden]
      exact Ends.guarded (Keeps.pure ⟨rfl, rfl⟩) (by simp) (freeIf_ends held .plane _)
  | some plane =>
      have opened := mem_acquired opened .plane
      have none' : NoHandles (held + {.plane}) := none.acquired (by simp)
      by_cases zero : plane.fbId = 0
      · have hidden : probe.visible = false := by simp [PlaneProbe.visible, found, zero]
        rw [hidden]
        simp only [zero, if_true]
        exact Ends.guarded (Keeps.pure ⟨rfl, rfl⟩) (by simp) (freeIf_ends held .plane (some plane))
      · have shown : probe.visible = true := by simp [PlaneProbe.visible, found, zero]
        simp only [zero, if_false, shown, if_true]
        refine Ends.guarded ?_ ?_
          (freeIf_ends (held + leftByExport probe.exported) .plane (some plane))
        · refine (getFB2_ends opened probe.fb).bind ?_
          cases image : probe.fb with
          | none =>
              have refused : probe.exported = .error ⟨"drmModeGetFB2 failed", 0⟩ := by
                simp [PlaneProbe.exported, image]
              rw [refused]
              refine Ends.guarded (Keeps.throwing ⟨rfl, rfl⟩) (by simp) (Keeps.pure ⟨rfl, ?_⟩)
              simp [leftByExport]
          | some fb =>
              have opened := mem_acquired opened .framebuffer
              have none'' : NoHandles (held + {.plane} + {.framebuffer}) :=
                none'.acquired (by simp)
              have exports := exportPlane_ends opened none'' probe image
              rw [swap_last held (leftByExport probe.exported)]
              refine Ends.guarded ?_ ?_ (freeIf_ends _ .framebuffer (some fb))
              · change resources.Ends (held + {.plane} + {.framebuffer} + fb.handlesHeld) _ _
                  (held + {.plane} + leftByExport probe.exported + {.framebuffer})
                rw [swap_last (held + {.plane}) (leftByExport probe.exported)]
                cases result : probe.exported with
                | ok descriptor =>
                    rw [result] at exports
                    exact exports.bind (Keeps.pure ⟨rfl, rfl⟩)
                | error refusal =>
                    rw [result] at exports
                    exact exports.bind_threw
              · intro fault
                split <;> simp
        · intro fault
          split <;> simp

/-- The planes are exported one after the other, up to the first one that is refused. -/
def exportAll : List PlaneProbe → List PlaneDescriptor × Option Refusal
  | [] => ([], none)
  | probe :: probes =>
      match probe.exported with
      | .ok descriptor => (descriptor :: (exportAll probes).1, (exportAll probes).2)
      | .error refusal => ([], some refusal)

/-- The open descriptors of planes. -/
def openFds (planes : List PlaneDescriptor) : Multiset Resource :=
  ↑(planes.map fun plane => Resource.descriptor plane.fd)

/-- The descriptors that are open, and what an exception leaves behind. -/
def leftByAll : List PlaneDescriptor × Option Refusal → Multiset Resource
  | (planes, none) => openFds planes
  | (planes, some refusal) => openFds planes + refusal.leaves

/-- The end of the loop over the planes. -/
def exitOfAll (response : Drm.DRMResponse) :
    List PlaneDescriptor × Option Refusal → Exit Failure Waiting Drm.DRMResponse
  | (planes, none) => .returned (planes.foldl addPlane response)
  | (_, some refusal) => .threw (.runtimeError refusal.what)

/-- The planes for which there is room. -/
def shown (probes : List PlaneProbe) (room : Nat) : List PlaneProbe :=
  (probes.filter PlaneProbe.visible).take room

theorem addPlane_numFds {response : Drm.DRMResponse}
    (room : response.numFds.toNat < kMaxPlaneDescriptors) (descriptor : PlaneDescriptor) :
    (addPlane response descriptor).numFds.toNat = response.numFds.toNat + 1 := by
  simp only [addPlane, UInt32.toNat_add, UInt32.toNat_one, kMaxPlaneDescriptors] at room ⊢
  omega

theorem openFds_cons (plane : PlaneDescriptor) (planes : List PlaneDescriptor) :
    openFds (plane :: planes) = {.descriptor plane.fd} + openFds planes := by
  rw [openFds, List.map_cons, ← Multiset.cons_coe, ← Multiset.singleton_add]
  rfl

theorem leftByAll_cons (plane : PlaneDescriptor)
    (result : List PlaneDescriptor × Option Refusal) :
    leftByAll (plane :: result.1, result.2) = {.descriptor plane.fd} + leftByAll result := by
  obtain ⟨planes, _ | refusal⟩ := result
  · exact openFds_cons plane planes
  · simp only [leftByAll, openFds_cons, Multiset.add_assoc]

theorem exitOfAll_cons (response : Drm.DRMResponse) (plane : PlaneDescriptor)
    (result : List PlaneDescriptor × Option Refusal) :
    exitOfAll response (plane :: result.1, result.2) =
      exitOfAll (addPlane response plane) result := by
  obtain ⟨planes, _ | refusal⟩ := result <;> rfl

theorem exitOfAll_ne_faulted (response : Drm.DRMResponse)
    (result : List PlaneDescriptor × Option Refusal) (fault : Waiting) :
    exitOfAll response result ≠ .faulted fault := by
  obtain ⟨planes, _ | refusal⟩ := result <;> simp [exitOfAll]

theorem describePlanes_ends (opened : .descriptor device ∈ held) (none : NoHandles held)
    (probes : List PlaneProbe) (response : Drm.DRMResponse) :
    resources.Ends held (describePlanes device probes response)
      (exitOfAll response
        (exportAll (shown probes (kMaxPlaneDescriptors - response.numFds.toNat))))
      (held + leftByAll
        (exportAll (shown probes (kMaxPlaneDescriptors - response.numFds.toNat)))) := by
  induction probes generalizing held response with
  | nil =>
      refine Keeps.pure ⟨?_, ?_⟩
      · simp [shown, exportAll, exitOfAll]
      · simp [shown, exportAll, leftByAll, openFds]
  | cons probe probes ih =>
      unfold describePlanes
      by_cases room : response.numFds.toNat < kMaxPlaneDescriptors
      · rw [if_pos room]
        have described := describePlane_ends opened none probe
        cases visible : probe.visible with
        | false =>
            simp only [visible, Bool.false_eq_true, if_false] at described
            simp only [shown, List.filter_cons, visible, Bool.false_eq_true, if_false]
            exact described.bind (ih opened none response)
        | true =>
            obtain ⟨more, rest⟩ : ∃ more, kMaxPlaneDescriptors - response.numFds.toNat =
                more + 1 := ⟨_, (Nat.succ_pred_eq_of_pos (Nat.sub_pos_of_lt room)).symm⟩
            simp only [visible, if_true] at described
            simp only [shown, rest, List.filter_cons, visible, if_true, List.take_succ_cons,
              exportAll]
            cases result : probe.exported with
            | error refusal =>
                simp only [result] at described
                simpa [exitOfAll, leftByAll, openFds, leftByExport] using described.bind_threw
            | ok descriptor =>
                simp only [result] at described
                have later : kMaxPlaneDescriptors - (addPlane response descriptor).numFds.toNat =
                    more := by
                  rw [addPlane_numFds room]
                  omega
                have opened' : .descriptor device ∈ held + {.descriptor descriptor.fd} :=
                  mem_acquired opened _
                have others := ih opened' (none.acquired (by simp)) (addPlane response descriptor)
                rw [later, ← exitOfAll_cons, Multiset.add_assoc, ← leftByAll_cons] at others
                exact described.bind others
      · have full : kMaxPlaneDescriptors - response.numFds.toNat = 0 := by omega
        rw [if_neg room, full]
        refine Keeps.pure ⟨?_, ?_⟩
        · simp [shown, exportAll, exitOfAll]
        · simp [shown, exportAll, leftByAll, openFds]

/-- What `get_fb` makes of the planes. -/
def gathered (probes : List PlaneProbe) : List PlaneDescriptor × Option Refusal :=
  exportAll (shown probes kMaxPlaneDescriptors)

/-- The exit of `get_fb`. -/
def exitOfGetFb : Option (List PlaneProbe) → Exit Failure Waiting Drm.DRMResponse
  | none => .threw (.runtimeError "drmModeGetPlaneResources failed")
  | some probes => exitOfAll zeroResponse (gathered probes)

/-- What is left of it. -/
def leftByGetFb : Option (List PlaneProbe) → Multiset Resource
  | none => 0
  | some probes => leftByAll (gathered probes)

theorem getFb_ends (opened : .descriptor device ∈ held) (none : NoHandles held)
    (outcome : Option (List PlaneProbe)) :
    resources.Ends held (getFb device outcome) (exitOfGetFb outcome)
      (held + leftByGetFb outcome) := by
  refine (obtain_ends opened .planeResources outcome).bind ?_
  cases outcome with
  | none => exact Keeps.throwing ⟨rfl, (Multiset.add_zero held).symm⟩
  | some probes =>
      have none' : NoHandles (held + {.planeResources}) := none.acquired (by simp)
      have planes := describePlanes_ends (mem_acquired opened .planeResources) none' probes
        zeroResponse
      rw [swap_last] at planes
      exact guarded planes (exitOfAll_ne_faulted _ _)

/-! ### What a response says -/

theorem planeList_addPlane {response : Drm.DRMResponse}
    (room : response.numFds.toNat < kMaxPlaneDescriptors) (descriptor : PlaneDescriptor) :
    (addPlane response descriptor).planeList = response.planeList ++ [descriptor] := by
  rw [Drm.DRMResponse.planeList, addPlane_numFds room, List.take_add_one]
  have list : (addPlane response descriptor).descriptors.toList =
      response.descriptors.toList.set response.numFds.toNat descriptor := by
    simp [addPlane]
  rw [list, List.take_set_of_le (Nat.le_refl _), List.getElem?_set_self (by simpa using room)]
  rfl

/-- The planes of a response, after they have been added one by one. -/
theorem foldl_addPlane {response : Drm.DRMResponse} {planes : List PlaneDescriptor}
    (room : response.numFds.toNat + planes.length ≤ kMaxPlaneDescriptors) :
    (planes.foldl addPlane response).planeList = response.planeList ++ planes ∧
      (planes.foldl addPlane response).numFds.toNat = response.numFds.toNat + planes.length := by
  induction planes generalizing response with
  | nil => exact ⟨(List.append_nil _).symm, rfl⟩
  | cons plane planes ih =>
      rw [List.length_cons] at room
      have less : response.numFds.toNat < kMaxPlaneDescriptors := by omega
      have counted := addPlane_numFds less plane
      obtain ⟨list, number⟩ := @ih (addPlane response plane) (by omega)
      refine ⟨?_, ?_⟩
      · rw [List.foldl_cons, list, planeList_addPlane less]
        simp
      · rw [List.foldl_cons, number, counted, List.length_cons]
        omega

/-- The planes in front of the first one that is refused are exported. -/
theorem exportAll_spec (probes : List PlaneProbe) :
    match exportAll probes with
    | (planes, none) => probes.map PlaneProbe.exported = planes.map .ok
    | (planes, some refusal) => ∃ before probe after, probes = before ++ probe :: after ∧
        before.map PlaneProbe.exported = planes.map .ok ∧ probe.exported = .error refusal := by
  induction probes with
  | nil => rfl
  | cons probe probes ih =>
      unfold exportAll
      cases result : probe.exported with
      | error refusal => exact ⟨[], probe, probes, rfl, rfl, result⟩
      | ok descriptor =>
          dsimp only
          revert ih
          obtain ⟨planes, _ | refusal⟩ := exportAll probes
          · intro all
            simp only [List.map_cons, result, all]
          · rintro ⟨before, refused, after, rfl, all, found⟩
            refine ⟨probe :: before, refused, after, rfl, ?_, found⟩
            simp only [List.map_cons, result, all]

theorem exportAll_length (probes : List PlaneProbe) :
    (exportAll probes).1.length ≤ probes.length := by
  induction probes with
  | nil => exact Nat.le_refl 0
  | cons probe probes ih =>
      unfold exportAll
      cases probe.exported <;> simp [ih]

/-- The response of `get_fb` lists the planes that were exported. -/
theorem response_spec {probes : List PlaneProbe} {planes : List PlaneDescriptor}
    (all : (gathered probes).1 = planes) :
    (planes.foldl addPlane zeroResponse).planeList = planes ∧
      (planes.foldl addPlane zeroResponse).numFds.toNat = planes.length := by
  have room : planes.length ≤ kMaxPlaneDescriptors := by
    rw [← all]
    exact (exportAll_length _).trans (List.length_take_le _ _)
  have empty : zeroResponse.numFds.toNat = 0 := rfl
  have none : zeroResponse.planeList = [] := rfl
  have added := @foldl_addPlane zeroResponse planes (by omega)
  rwa [empty, none, List.nil_append, Nat.zero_add] at added

/-- `get_fb` from the open device on: a response lists what the first planes with a framebuffer
show, exported in order, and exactly the descriptors it carries are open beside the device.
Otherwise the library returned no planes, or one of these planes was refused; then the descriptors
of the planes in front of it stay open, and of its own what it had acquired.  No object of the
library is left. -/
theorem getFb_spec (device : Int) (outcome : Option (List PlaneProbe)) :
    resources.Keeps {.descriptor device} (getFb device outcome) fun exit left =>
      match exit with
      | .returned response => ∃ probes, outcome = some probes ∧
          (shown probes kMaxPlaneDescriptors).map PlaneProbe.exported =
            response.planeList.map .ok ∧
          response.numFds.toNat = response.planeList.length ∧
          left = {.descriptor device} + openFds response.planeList
      | .threw failure =>
          outcome = none ∧ failure = .runtimeError "drmModeGetPlaneResources failed" ∧
              left = {.descriptor device} ∨
            ∃ probes before probe after planes refusal, outcome = some probes ∧
              shown probes kMaxPlaneDescriptors = before ++ probe :: after ∧
              before.map PlaneProbe.exported = planes.map .ok ∧
              probe.exported = .error refusal ∧ failure = .runtimeError refusal.what ∧
              left = {.descriptor device} + openFds planes + refusal.leaves
      | .faulted _ => False := by
  have ends := getFb_ends (Multiset.mem_singleton_self (Resource.descriptor device))
    (by simp [NoHandles]) outcome
  refine ends.keeps ?_
  cases outcome with
  | none => exact .inl ⟨rfl, rfl, Multiset.add_zero _⟩
  | some probes =>
      have all := exportAll_spec (shown probes kMaxPlaneDescriptors)
      have listed := @response_spec probes _ rfl
      revert all listed
      simp only [exitOfGetFb, leftByGetFb, gathered]
      obtain ⟨planes, _ | refusal⟩ := exportAll (shown probes kMaxPlaneDescriptors)
      · rintro all ⟨list, number⟩
        refine ⟨probes, rfl, ?_, ?_, ?_⟩
        · rw [list]
          exact all
        · rw [list]
          exact number
        · rw [list]
          rfl
      · rintro ⟨before, probe, after, split, all, refused⟩ -
        exact .inr ⟨probes, before, probe, after, planes, refusal, rfl, split, all, refused, rfl,
          (Multiset.add_assoc ..).symm⟩

end Kms
end ShadowCast
