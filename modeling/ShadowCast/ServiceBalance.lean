import ShadowCast.ServiceLifecycle

/-!
# A run leaves nothing initialised

However `Context::run` ends, its events are those of the services it has initialised, in order,
then dispatches, if every service was initialised, then the un-initialisation of exactly the
initialised ones.  The lock and the eventfd are held around all of it.
-/

namespace ShadowCast
namespace Lifecycle

/-- What a run holds besides its services. -/
structure Held where
  /-- The registry's lock. -/
  locked : Bool
  /-- The eventfds that are open. -/
  eventfds : List Nat
  deriving DecidableEq, Repr

/-- The effect of an event; nothing is released that is not held, or taken twice. -/
def Held.after (held : Held) : Event → Option Held
  | .eventfdCreated fd =>
      if fd ∈ held.eventfds then none else some { held with eventfds := fd :: held.eventfds }
  | .eventfdClosed fd =>
      if fd ∈ held.eventfds then some { held with eventfds := held.eventfds.erase fd } else none
  | .registryLocked => if held.locked then none else some { held with locked := true }
  | .registryUnlocked => if held.locked then some { held with locked := false } else none
  | .initCalled _ | .initReturned _ | .uninitialised _ | .dispatched _ => some held

/-- A run from the given registry lock is balanced. -/
structure Balanced (registry : ServiceRegistry) (events : List Event) : Prop where
  /-- The services whose `init` returned are un-initialised, once, and no others. -/
  uninitialised : ∀ svc, events.count (.uninitialised svc) =
    if .initReturned svc ∈ events then 1 else 0
  /-- Dispatch functions are called behind every `init` and in front of every `uninit`. -/
  between : ∀ front svc back, events = front ++ .dispatched svc :: back →
    (∀ other ∈ registry.services, .initReturned other ∈ front) ∧
      ∀ other, .uninitialised other ∉ front
  /-- The lock is released and the eventfd closed. -/
  released : events.foldlM Held.after ⟨registry.locked, []⟩ = some ⟨registry.locked, []⟩

/-! ### The loop dispatches -/

/-- Only dispatch functions are called. -/
def IsDispatch (event : Event) : Prop := ∃ svc, event = .dispatched svc

theorem dispatch_emits (svc : Nat) (thrown : Option Exception) :
    (dispatch svc thrown).Emits IsDispatch := by
  refine (Block.emits_emit ⟨svc, rfl⟩).bind fun _ => ?_
  cases thrown with
  | none => exact Block.emits_pure ()
  | some exception => exact Block.emits_throwing exception

theorem tickTimers_emits (throws : Nat → Option Exception) (frameTime : UInt64) (position : Nat)
    (nextFrameTimeout : UInt64) (timers : List FrameTickReadiness) :
    (tickTimers throws frameTime position nextFrameTimeout timers).Emits IsDispatch := by
  induction timers generalizing position nextFrameTimeout with
  | nil => exact Block.emits_pure _
  | cons timer timers ih =>
      refine Block.Emits.bind ?_ fun _ => (ih _ _).bind fun _ => Block.emits_pure _
      split
      · exact dispatch_emits _ _
      · exact Block.emits_pure ()

theorem ignoring_emits (ignored : Errno) (outcome : Except Errno Unit) :
    (ignoring ignored outcome).Emits IsDispatch := by
  cases outcome with
  | ok value => exact Block.emits_pure ()
  | error errno =>
      simp only [ignoring]
      split
      · exact Block.emits_pure ()
      · exact Block.emits_throwing _

theorem dispatchReady_emits (eventFd : Nat) (notifications : List (Int × Nat))
    (iteration : Iteration) (position : Nat) (ready : List Int) :
    (dispatchReady eventFd notifications iteration position ready).Emits IsDispatch := by
  induction ready generalizing position with
  | nil => exact Block.emits_pure ()
  | cons fd ready ih =>
      refine Block.Emits.bind ?_ fun _ => ih _
      unfold handleReady
      split
      · exact ignoring_emits _ _
      · split
        · exact Block.emits_pure ()
        · exact dispatch_emits _ _

theorem iterate_emits (frameTime : UInt64) (eventFd : Nat) (registers : Registers)
    (iteration : Iteration) :
    (iterate frameTime eventFd registers iteration).Emits IsDispatch := by
  refine (tickTimers_emits ..).bind fun _ => Block.Emits.bind ?_ fun _ => Block.emits_pure _
  unfold pollAndDispatch
  split
  · exact ignoring_emits _ _
  · exact dispatchReady_emits ..

theorem loop_emits (frameTime : UInt64) (eventFd : Nat) (iterations : List Iteration)
    (registers : Registers) : (loop frameTime eventFd iterations registers).Emits IsDispatch := by
  induction iterations generalizing registers with
  | nil => exact Block.emits_pure ()
  | cons iteration iterations ih => exact (iterate_emits ..).bind ih

theorem serve_emits (world : World) (eventFd : Nat) (registers : Registers) :
    (serve world eventFd registers).Emits IsDispatch := by
  unfold serve
  split
  · exact Block.emits_pure ()
  · split
    · exact loop_emits ..
    · exact Block.emits_throwing _

/-! ### The services -/

/-- The events of the successful initialisation of services. -/
def inits (services : List Nat) : List Event :=
  services.flatMap fun svc => [.initCalled svc, .initReturned svc]

/-- Either every service is initialised, or one of them throws and those in front of it are
un-initialised. -/
theorem initServices_cases (world : World) (initialised services : List Nat)
    (registers : Registers) :
    (∃ registers', initServices world initialised services registers =
        ⟨inits services, .returned registers'⟩) ∨
      ∃ front svc back exception, services = front ++ svc :: back ∧
        initServices world initialised services registers =
          ⟨inits front ++ .initCalled svc :: (initialised ++ front).map .uninitialised,
            .threw exception⟩ := by
  induction services generalizing initialised registers with
  | nil => exact Or.inl ⟨registers, rfl⟩
  | cons svc services ih =>
      cases thrown : (world.init svc).exception with
      | some exception =>
          refine Or.inr ⟨[], svc, services, exception, rfl, ?_⟩
          simp [initServices, thrown, inits, Block.emit, Block.emitAll, Block.throwing]
      | none =>
          have step : initServices world initialised (svc :: services) registers =
              (⟨[.initCalled svc, .initReturned svc], .returned ()⟩ : Run Unit) >>= fun _ =>
                initServices world (initialised ++ [svc]) services
                  ((world.init svc).registrations.foldl
                    (Registers.register world.frameTime svc) registers) := by
            simp only [initServices, thrown]
            rfl
          rw [step, Block.returned_bind]
          rcases ih (initialised ++ [svc]) _ with
            ⟨registers', later⟩ | ⟨front, failing, back, exception, rfl, later⟩
          · refine Or.inl ⟨registers', ?_⟩
            rw [later]
            rfl
          · refine Or.inr ⟨svc :: front, failing, back, exception, rfl, ?_⟩
            rw [later]
            simp [inits]

/-- The phases of a run behind the lock: the initialisation of some of the services, in order,
perhaps an `init` that throws, dispatches if every service was initialised, and the
un-initialisation of the initialised services. -/
structure Phases (services initialised : List Nat) (failed dispatches : List Event) : Prop where
  inOrder : initialised <+: services
  onlyCalled : ∀ event ∈ failed, ∃ svc, event = .initCalled svc
  onlyDispatched : ∀ event ∈ dispatches, IsDispatch event
  complete : dispatches ≠ [] → initialised = services

/-- The events of such a run. -/
def phaseEvents (initialised : List Nat) (failed dispatches : List Event) : List Event :=
  inits initialised ++ failed ++ dispatches ++ initialised.map .uninitialised

theorem runServices_phases (world : World) (eventFd : Nat) :
    (runServices world eventFd).Safe ∧ ∃ initialised failed dispatches,
      Phases world.registry.services initialised failed dispatches ∧
        (runServices world eventFd).events = phaseEvents initialised failed dispatches := by
  unfold runServices
  rcases initServices_cases world [] world.registry.services ⟨[], []⟩ with
    ⟨registers, all⟩ | ⟨front, svc, back, exception, services, threw⟩
  · obtain ⟨safe, dispatches⟩ := serve_emits world eventFd registers
    rw [all, Block.returned_bind]
    refine ⟨?_, world.registry.services, [], (serve world eventFd registers).events,
      ⟨List.prefix_rfl, by simp, dispatches, fun _ => rfl⟩, ?_⟩
    · rw [Block.Safe, Block.scopeGuard_exit (Block.safe_emitAll _)]
      exact safe
    · rw [Block.scopeGuard_events _ safe, phaseEvents, List.append_nil, List.append_assoc]
      rfl
  · rw [threw, Block.threw_bind]
    refine ⟨fun _ => nofun, front, [.initCalled svc], [], ⟨?_, by simp, by simp, by simp⟩, ?_⟩
    · exact services ▸ List.prefix_append ..
    · simp [phaseEvents]

section Phases

variable {services initialised : List Nat} {failed dispatches : List Event}

theorem mem_inits {event : Event} {svcs : List Nat} :
    event ∈ inits svcs ↔ ∃ svc ∈ svcs, event = .initCalled svc ∨ event = .initReturned svc := by
  simp [inits]

/-- What happens in front of the un-initialisation. -/
theorem Phases.kinds (phases : Phases services initialised failed dispatches) {event : Event}
    (member : event ∈ inits initialised ++ failed ++ dispatches) :
    (∃ svc, event = .initCalled svc) ∨ (∃ svc ∈ initialised, event = .initReturned svc) ∨
      ∃ svc, event = .dispatched svc := by
  simp only [List.mem_append, mem_inits] at member
  rcases member with (⟨svc, initialised, called | returned⟩ | called) | dispatched
  · exact Or.inl ⟨svc, called⟩
  · exact Or.inr (Or.inl ⟨svc, initialised, returned⟩)
  · exact Or.inl (phases.onlyCalled event called)
  · exact Or.inr (Or.inr (phases.onlyDispatched event dispatched))

theorem Phases.initReturned_mem (phases : Phases services initialised failed dispatches)
    (svc : Nat) :
    .initReturned svc ∈ phaseEvents initialised failed dispatches ↔ svc ∈ initialised := by
  constructor
  · intro member
    rcases List.mem_append.mp member with early | uninit
    · simpa using phases.kinds early
    · simp at uninit
  · intro member
    simp [phaseEvents, mem_inits, member]

theorem Phases.uninitialised_notMem (phases : Phases services initialised failed dispatches)
    (svc : Nat) : .uninitialised svc ∉ inits initialised ++ failed ++ dispatches := by
  intro member
  simpa using phases.kinds member

theorem Phases.count_uninitialised (phases : Phases services initialised failed dispatches)
    (unique : services.Nodup) (svc : Nat) :
    (phaseEvents initialised failed dispatches).count (.uninitialised svc) =
      if svc ∈ initialised then 1 else 0 := by
  have once : initialised.Nodup := phases.inOrder.sublist.nodup unique
  have injective : Function.Injective Event.uninitialised := fun _ _ => Event.uninitialised.inj
  rw [phaseEvents, List.count_append,
    List.count_eq_zero_of_not_mem (phases.uninitialised_notMem svc), Nat.zero_add,
    List.count_map_of_injective _ _ injective, once.count]

/-- An element that is not in the first part of a list occurs behind it. -/
theorem append_of_notMem {α : Type} {front rest left right : List α} {x : α}
    (split : front ++ rest = left ++ x :: right) (absent : x ∉ front) :
    ∃ between, left = front ++ between ∧ rest = between ++ x :: right := by
  rcases List.append_eq_append_iff.mp split with ⟨between, rfl, rfl⟩ | ⟨tail, rfl, later⟩
  · exact ⟨between, rfl, rfl⟩
  · cases tail with
    | nil => exact ⟨[], by simp, later.symm⟩
    | cons y tail =>
        obtain ⟨rfl, -⟩ := List.cons_eq_cons.mp later
        simp at absent

/-- An element that is not in the last part of a list occurs in front of it. -/
theorem append_of_notMem_back {α : Type} {front back left right : List α} {x : α}
    (split : front ++ back = left ++ x :: right) (absent : x ∉ back) :
    ∃ later, front = left ++ x :: later := by
  rcases List.append_eq_append_iff.mp split with ⟨tail, -, later⟩ | ⟨tail, rfl, later⟩
  · simp [later] at absent
  · cases tail with
    | nil => simp [← later.trans (List.nil_append _)] at absent
    | cons y tail =>
        obtain ⟨rfl, -⟩ := List.cons_eq_cons.mp later
        exact ⟨tail, rfl⟩

/-- A dispatch stands behind every `init` and in front of every `uninit`. -/
theorem Phases.between (phases : Phases services initialised failed dispatches)
    {front back : List Event} {svc : Nat}
    (split : phaseEvents initialised failed dispatches = front ++ .dispatched svc :: back) :
    (∀ other ∈ services, .initReturned other ∈ front) ∧
      ∀ other, .uninitialised other ∉ front := by
  have early : Event.dispatched svc ∉ inits initialised ++ failed := by
    intro member
    rcases List.mem_append.mp member with init | called
    · simp [mem_inits] at init
    · simpa using phases.onlyCalled _ called
  rw [phaseEvents, List.append_assoc] at split
  obtain ⟨between, rfl, rest⟩ := append_of_notMem split early
  have late : Event.dispatched svc ∉ initialised.map Event.uninitialised := by simp
  obtain ⟨later, rfl⟩ := append_of_notMem_back rest late
  obtain rfl := phases.complete (by simp)
  refine ⟨fun other member => ?_, fun other member => phases.uninitialised_notMem other ?_⟩
  · simp [mem_inits, member]
  · rw [← List.append_assoc]
    exact List.mem_append_left _ member

/-- Services take neither the lock nor the eventfd. -/
theorem Phases.foldlM_after (phases : Phases services initialised failed dispatches)
    (held : Held) :
    (phaseEvents initialised failed dispatches).foldlM Held.after held = some held := by
  have neutral : ∀ events : List Event, (∀ event ∈ events, held.after event = some held) →
      events.foldlM Held.after held = some held := by
    intro events each
    induction events with
    | nil => rfl
    | cons event events ih =>
        rw [List.foldlM_cons, each event List.mem_cons_self]
        exact ih fun later member => each later (List.mem_cons_of_mem _ member)
  apply neutral
  intro event member
  rcases List.mem_append.mp member with early | uninit
  · rcases phases.kinds early with ⟨svc, rfl⟩ | ⟨svc, -, rfl⟩ | ⟨svc, rfl⟩ <;> rfl
  · obtain ⟨svc, -, rfl⟩ := List.mem_map.mp uninit
    rfl

end Phases

/-! ### The whole run -/

/-- The events in front of the services. -/
def acquiring (locked : Bool) (fd : Nat) : List Event :=
  .eventfdCreated fd :: if locked then [] else [.registryLocked]

/-- The events behind the services. -/
def releasing (locked : Bool) (fd : Nat) : List Event :=
  (if locked then [] else [.registryUnlocked]) ++ [.eventfdClosed fd]

/-- An assertion fails exactly when the lock is taken already. -/
theorem runLocked_safe_iff (world : World) (fd : Nat) :
    (runLocked world fd).Safe ↔ ¬(world.registry.locked = true ∧ world.asserts = true) := by
  obtain ⟨safe, -⟩ := runServices_phases world fd
  unfold runLocked
  cases world.registry.locked with
  | true =>
      cases world.asserts with
      | true => exact iff_of_false (fun safe => safe .assertionFailed rfl) (by simp)
      | false => simpa using safe
  | false =>
      simp only [Bool.false_eq_true, if_false, Block.emit_bind, false_and, not_false_eq_true,
        iff_true]
      rw [Block.Safe, Block.scopeGuard_exit (Block.safe_emit _)]
      exact safe

theorem runLocked_events {world : World} {fd : Nat} (safe : (runLocked world fd).Safe) :
    .eventfdCreated fd :: (runLocked world fd).events =
      acquiring world.registry.locked fd ++ (runServices world fd).events ++
        if world.registry.locked then [] else [.registryUnlocked] := by
  obtain ⟨servicesSafe, -⟩ := runServices_phases world fd
  rw [runLocked_safe_iff] at safe
  unfold runLocked acquiring
  cases locked : world.registry.locked with
  | true =>
      have asserts : world.asserts = false := by simpa [locked] using safe
      simp [asserts]
  | false =>
      simp only [Bool.false_eq_true, if_false, Block.emit_bind]
      rw [Block.scopeGuard_events _ servicesSafe]
      simp [Block.emit]

/-- The eventfd is closed around everything else. -/
theorem run_of_created {world : World} {fd : Nat} (created : world.eventfd = .ok fd) :
    run world = Block.emit (.eventfdCreated fd) >>= fun _ =>
      Block.scopeGuard (Block.emit (.eventfdClosed fd)) (runLocked world fd) := by
  rw [run, created]

/-- A run that returns or throws has failed to create the eventfd, or has the phases. -/
theorem run_events {world : World} (ends : (run world).Safe) :
    (run world).events = [] ∨ ∃ fd initialised failed dispatches,
      Phases world.registry.services initialised failed dispatches ∧
        (run world).events = acquiring world.registry.locked fd ++
          (phaseEvents initialised failed dispatches ++ releasing world.registry.locked fd) := by
  cases created : world.eventfd with
  | error errno =>
      left
      rw [run, created]
      rfl
  | ok fd =>
      right
      obtain ⟨-, initialised, failed, dispatches, phases, events⟩ := runServices_phases world fd
      rw [run_of_created created, Block.emit_bind] at ends ⊢
      have safe : (runLocked world fd).Safe := by
        intro fault faulted
        refine ends fault ?_
        simp only [Block.scopeGuard, faulted]
      refine ⟨fd, initialised, failed, dispatches, phases, ?_⟩
      rw [Block.scopeGuard_events _ safe]
      rw [← List.cons_append, runLocked_events safe, events, releasing]
      simp only [List.append_assoc, Block.emit]

/-- Two services, of which the first registers a descriptor and the second a timer; in the second
iteration the descriptor's dispatch function throws. -/
def throwingWorld : World where
  asserts := true
  frameTime := 16666666
  registry := ⟨[7, 4], by decide, false⟩
  eventfd := .ok 3
  init svc :=
    ⟨[if svc = 7 then .descriptor 9 else .frameTime ⟨1, 1⟩], none⟩
  pollEventsAllocated := true
  iterations :=
    [⟨100, fun _ => none, .ok [], .ok (), fun _ => none⟩,
     ⟨100, fun _ => none, .ok [3, 9], .error .eagain, fun _ => some (.service "late")⟩]

/-- The events of that run: the timer is due at once. -/
example : (run throwingWorld).events =
    [.eventfdCreated 3, .registryLocked, .initCalled 7, .initReturned 7, .initCalled 4,
     .initReturned 4, .dispatched 4, .dispatched 7, .uninitialised 7, .uninitialised 4,
     .registryUnlocked, .eventfdClosed 3] := by
  decide +kernel

end Lifecycle
end ShadowCast
