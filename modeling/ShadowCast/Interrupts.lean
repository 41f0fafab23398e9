import ShadowCast.Machine
import ShadowCast.Signals

/-!
# Interrupts of a recording

`main` blocks `SIGINT` and `SIGCHLD`, and the signal service reads them from a descriptor.  While
the capture waits for the helper, `ppoll` puts a mask in place that has only `SIGCHLD` in it, and
nothing handles `SIGINT` then.  The helper waits with an empty mask and has a handler.
-/

namespace ShadowCast

/-- The number of `SIGINT`. -/
def sigInt : Nat := 2

/-- The number of `SIGCHLD`. -/
def sigChld : Nat := 17

/-- `block_signals`. -/
def blockSignals (signals : Signals Nat) (sigs : List Nat) : Signals Nat :=
  signals.setMask sigs.toFinset

/-- The default actions. -/
def defaultDisposition (signal : Nat) : Disposition :=
  if signal = sigChld then .ignored else .terminates

/-- A process that blocks nothing. -/
def unblocked : Signals Nat where
  mask := ∅
  saved := none
  others := []
  pending := ∅
  disposition := defaultDisposition
  killed := false

/-- A `SignalService` whose descriptor is open. -/
structure SignalService (η : Type*) where
  originalMask : Finset Nat
  /-- The signals that are read from the descriptor. -/
  fdMask : Finset Nat
  handlers : List (Nat × η)

namespace SignalService

variable {η : Type*}

/-- The constructor. -/
def construct (signals : Signals Nat) : SignalService η :=
  { originalMask := signals.mask, fdMask := ∅, handlers := [] }

/-- `std::unordered_map::emplace`, which leaves a handler that is there already. -/
def emplace (handlers : List (Nat × η)) (sig : Nat) (handler : η) : List (Nat × η) :=
  match handlers.lookup sig with
  | some _ => handlers
  | none => handlers ++ [(sig, handler)]

/-- The mask of `block_signal`. -/
def workingSet (signals : Signals Nat) (sig : Nat) : Finset Nat :=
  insert sig signals.mask

/-- `add_signal_handler`, as far as the service is concerned. -/
def addSignalHandler (service : SignalService η) (signals : Signals Nat) (sig : Nat)
    (handler : η) : SignalService η :=
  { service with
    fdMask := workingSet signals sig
    handlers := emplace service.handlers sig handler }

/-- The handlers that `dispatch_signal` calls for a signal. -/
def handlersOf (service : SignalService η) (signo : Nat) : List η :=
  (service.handlers.lookup signo).toList

end SignalService

/-- The process that records, with the main thread. -/
structure Interrupts (η : Type*) where
  signals : Signals Nat
  /-- The service in the registry. -/
  service : Option (SignalService η)
  /-- The handlers that have been called, in order. -/
  called : List η

namespace Interrupts

variable {η : Type*}

/-- Behind `block_signals({ SIGINT, SIGCHLD })` in `main`. -/
def start : Interrupts η where
  signals := blockSignals unblocked [sigInt, sigChld]
  service := none
  called := []

/-- `drm_proc_mask_`. -/
def drmProcMask : Finset Nat := {sigChld}

/-- The calls of the main thread that touch signals, and what the other processes and threads do. -/
inductive Label (η : Type*)
  /-- `SIGINT` is sent to the process. -/
  | interrupt
  /-- `SIGCHLD` is sent to the process. -/
  | childExited
  /-- A thread is started, by the main thread or by another one. -/
  | startThread (mask : Finset Nat)
  /-- `services().add<SignalService>`. -/
  | addService
  /-- `add_signal_handler` for `SIGINT`. -/
  | addSignalHandler (handler : η)
  /-- One signal is read in `dispatch_signal`. -/
  | readSignal (signo : Nat)
  /-- `SignalService::on_uninit`. -/
  | uninit
  /-- `ppoll` in `AcceptHandler` or in `MessageHandler`, when the helper is not ready yet. -/
  | waitForHelper
  /-- The helper is ready, or the time is over. -/
  | wake
  deriving DecidableEq

/-- A call of the main thread, outside of its waits. -/
def whenFree (state : Interrupts η) (next : Option (Interrupts η)) : Option (Interrupts η) :=
  if state.signals.saved = none then next else none

/-- One step of a process that has not been killed. -/
def live (state : Interrupts η) : Label η → Option (Interrupts η)
  | .interrupt => some { state with signals := state.signals.raise sigInt }
  | .childExited => some { state with signals := state.signals.raise sigChld }
  | .startThread mask =>
      if mask ∈ state.signals.others ∨ state.signals.saved = none ∧ mask = state.signals.mask then
        some { state with signals := state.signals.startThread mask }
      else none
  | .addService =>
      -- `emplace` drops a second service
      state.whenFree
        (some { state with
          service := some (state.service.getD (.construct state.signals)) })
  | .addSignalHandler handler =>
      state.whenFree do
        let service ← state.service
        some { state with
          signals := state.signals.setMask (SignalService.workingSet state.signals sigInt)
          service := some (service.addSignalHandler state.signals sigInt handler) }
  | .readSignal signo =>
      state.whenFree do
        let service ← state.service
        if signo ∈ state.signals.pending ∧ signo ∈ service.fdMask then
          some { state with
            signals := state.signals.take signo
            called := state.called ++ service.handlersOf signo }
        else none
  | .uninit =>
      state.whenFree do
        let service ← state.service
        some { state with signals := state.signals.setMask service.originalMask }
  | .waitForHelper =>
      state.whenFree (some { state with signals := state.signals.wait drmProcMask })
  | .wake =>
      if state.signals.saved = none then none
      else some { state with signals := state.signals.wake }

/-- One step. -/
def step (state : Interrupts η) (label : Label η) : Option (Interrupts η) :=
  if state.signals.killed then none else state.live label

/-- The process under every order of calls and signals. -/
def machine : Machine (Interrupts η) (Label η) := ⟨step⟩

/-- An interrupt meets a wait for the helper. -/
def Exposed (state : Interrupts η) : Label η → Prop
  | .waitForHelper => sigInt ∈ state.signals.pending
  | .interrupt => state.signals.saved ≠ none
  | _ => False

/-! ### The masks of a run -/

/-- What the program reads from its descriptor. -/
def shielded : Finset Nat := {sigInt, sigChld}

/-- Outside of the waits for the helper every thread blocks both signals, and the service gives the
interrupts to a handler. -/
structure Sound (state : Interrupts η) : Prop where
  guards : state.signals.Guards shielded
  waits : state.signals.saved ≠ none →
    state.signals.mask = drmProcMask ∧ sigInt ∉ state.signals.pending
  dispositions : state.signals.disposition = defaultDisposition
  kept : state.signals.pending ⊆ shielded
  restores : ∀ service, state.service = some service → shielded ⊆ service.originalMask
  reads : ∀ service, state.service = some service → ∀ signo ∈ service.fdMask,
    ∃ handler, service.handlers.lookup sigInt = some handler

theorem start_sound : Sound (start : Interrupts η) where
  guards := by
    constructor
    · change shielded ⊆ [sigInt, sigChld].toFinset
      decide
    · intro mask member
      cases member
  waits := fun saved => absurd rfl saved
  dispositions := rfl
  kept := by
    change (∅ : Finset Nat).filter _ ⊆ shielded
    decide
  restores := fun service none => nomatch none
  reads := fun service none => nomatch none

theorem step_eq_some {state after : Interrupts η} {label : Label η} :
    machine.step state label = some after ↔
      state.signals.killed = false ∧ state.live label = some after := by
  change state.step label = some after ↔ _
  cases killed : state.signals.killed <;> simp [step, killed]

theorem whenFree_eq_some {state after : Interrupts η} {next : Option (Interrupts η)} :
    state.whenFree next = some after ↔ state.signals.saved = none ∧ next = some after := by
  unfold whenFree
  split <;> simp_all

theorem sigInt_notMem : sigInt ∉ drmProcMask := by decide

section Signals

variable {state : Interrupts η}

theorem Sound.mask_of_free (sound : Sound state) (free : state.signals.saved = none) :
    shielded ⊆ state.signals.mask := by
  have own := sound.guards.own
  rwa [Signals.restMask, free] at own

theorem Sound.workingSet_of_free (sound : Sound state) (free : state.signals.saved = none) :
    shielded ⊆ SignalService.workingSet state.signals sigInt :=
  (sound.mask_of_free free).trans (Finset.subset_insert sigInt _)

/-- An interrupt is kept outside of the waits. -/
theorem Sound.raise_sigInt (sound : Sound state) (free : state.signals.saved = none) :
    state.signals.raise sigInt =
      { state.signals with pending := insert sigInt state.signals.pending } :=
  sound.guards.raise_eq (by decide) free

/-- During a wait it kills the process. -/
theorem Sound.raise_sigInt_of_waits (sound : Sound state) (waits : state.signals.saved ≠ none) :
    state.signals.raise sigInt = { state.signals with killed := true } := by
  have unblocked : sigInt ∉ state.signals.mask := by
    rw [(sound.waits waits).1]
    exact sigInt_notMem
  have terminates : state.signals.disposition sigInt = .terminates := by
    rw [sound.dispositions]
    rfl
  rw [Signals.raise_of_notMem unblocked, Signals.act_of_terminates terminates]

/-- `SIGCHLD` is always kept. -/
theorem Sound.raise_sigChld (sound : Sound state) :
    state.signals.raise sigChld =
      { state.signals with pending := insert sigChld state.signals.pending } := by
  by_cases free : state.signals.saved = none
  · exact sound.guards.raise_eq (by decide) free
  · have mask := (sound.waits free).1
    exact if_pos ⟨by rw [mask]; decide, fun other member =>
      sound.guards.others other member (by decide)⟩

/-- A mask that blocks both signals. -/
theorem Sound.setMask_eq (sound : Sound state) {mask : Finset Nat} (larger : shielded ⊆ mask) :
    state.signals.setMask mask = { state.signals with mask := mask } :=
  Signals.deliver_of_subset (sound.kept.trans larger)

/-- A wait for the helper, which an interrupt ends together with the process. -/
theorem Sound.wait_eq (sound : Sound state) :
    state.signals.wait drmProcMask =
      { state.signals with
        mask := drmProcMask
        saved := some state.signals.mask
        pending := state.signals.pending.filter (· ∈ drmProcMask)
        killed := state.signals.killed || decide (sigInt ∈ state.signals.pending) } := by
  let entered : Signals Nat :=
    { state.signals with mask := drmProcMask, saved := some state.signals.mask }
  have uncaught : ¬entered.Released .caught := by
    rintro ⟨signal, -, -, caught⟩
    rw [show entered.disposition = defaultDisposition from sound.dispositions] at caught
    unfold defaultDisposition at caught
    split at caught <;> cases caught
  have terminates : entered.Released .terminates ↔ sigInt ∈ state.signals.pending := by
    constructor
    · rintro ⟨signal, kept, released, -⟩
      rcases Finset.mem_insert.mp (sound.kept kept) with rfl | child
      · exact kept
      · exact absurd child released
    · intro kept
      refine ⟨sigInt, kept, sigInt_notMem, ?_⟩
      rw [show entered.disposition = defaultDisposition from sound.dispositions]
      rfl
  change entered.deliver = _
  unfold Signals.deliver
  dsimp only
  by_cases kept : sigInt ∈ state.signals.pending
  · rw [if_pos (terminates.mpr kept)]
    simp [entered, kept]
  · rw [if_neg (fun released => kept (terminates.mp released)), if_neg uncaught]
    simp [entered, kept]

end Signals

/-! ### One step -/

theorem lookup_emplace (handlers : List (Nat × η)) (sig : Nat) (handler : η) :
    ∃ first, (SignalService.emplace handlers sig handler).lookup sig = some first := by
  unfold SignalService.emplace
  cases found : handlers.lookup sig with
  | some first => exact ⟨first, found⟩
  | none => exact ⟨handler, by simp [List.lookup_append, found]⟩

/-- Only the signals change, and they stay sound. -/
theorem Sound.withSignals {state : Interrupts η} (sound : Sound state) {signals : Signals Nat}
    (same : Signals.Same state.signals signals)
    (waits : signals.saved ≠ none → signals.mask = drmProcMask ∧ sigInt ∉ signals.pending)
    (kept : signals.pending ⊆ shielded) : Sound { state with signals := signals } where
  guards := sound.guards.of_same same
  waits := waits
  dispositions := same.disposition.trans sound.dispositions
  kept := kept
  restores := sound.restores
  reads := sound.reads

/-- What a step does while the masks are sound. -/
inductive Effect (state : Interrupts η) : Label η → Interrupts η → Prop
  | kept (free : state.signals.saved = none) :
      Effect state .interrupt
        { state with
          signals := { state.signals with pending := insert sigInt state.signals.pending } }
  | killed (waits : state.signals.saved ≠ none) :
      Effect state .interrupt { state with signals := { state.signals with killed := true } }
  | childKept :
      Effect state .childExited
        { state with
          signals := { state.signals with pending := insert sigChld state.signals.pending } }
  | started {mask : Finset Nat} (larger : shielded ⊆ mask) :
      Effect state (.startThread mask)
        { state with signals := state.signals.startThread mask }
  | added {service : SignalService η} (free : state.signals.saved = none)
      (first : state.service = some service ∨
        state.service = none ∧ service = .construct state.signals) :
      Effect state .addService { state with service := some service }
  | handled {service : SignalService η} {handler : η} (free : state.signals.saved = none)
      (known : state.service = some service) :
      Effect state (.addSignalHandler handler)
        { state with
          signals := { state.signals with
            mask := SignalService.workingSet state.signals sigInt }
          service := some (service.addSignalHandler state.signals sigInt handler) }
  | read {service : SignalService η} {signo : Nat} (free : state.signals.saved = none)
      (known : state.service = some service) (member : signo ∈ service.fdMask) :
      Effect state (.readSignal signo)
        { state with
          signals := state.signals.take signo
          called := state.called ++ service.handlersOf signo }
  | restored {service : SignalService η} (free : state.signals.saved = none)
      (known : state.service = some service) :
      Effect state .uninit
        { state with signals := { state.signals with mask := service.originalMask } }
  | waits (free : state.signals.saved = none) :
      Effect state .waitForHelper
        { state with
          signals := { state.signals with
            mask := drmProcMask
            saved := some state.signals.mask
            pending := state.signals.pending.filter (· ∈ drmProcMask)
            killed := state.signals.killed || decide (sigInt ∈ state.signals.pending) } }
  | woken : Effect state .wake { state with signals := state.signals.wake }

theorem step_effect {state after : Interrupts η} {label : Label η} (sound : Sound state)
    (step : machine.step state label = some after) : Effect state label after := by
  obtain ⟨-, step⟩ := step_eq_some.mp step
  cases label with
  | interrupt =>
      obtain rfl := Option.some.inj step
      by_cases free : state.signals.saved = none
      · rw [sound.raise_sigInt free]
        exact .kept free
      · rw [sound.raise_sigInt_of_waits free]
        exact .killed free
  | childExited =>
      obtain rfl := Option.some.inj step
      rw [sound.raise_sigChld]
      exact .childKept
  | startThread mask =>
      simp only [live] at step
      split at step
      · next starts =>
          obtain rfl := Option.some.inj step
          rcases starts with other | ⟨free, rfl⟩
          · exact .started (sound.guards.others mask other)
          · exact .started (sound.mask_of_free free)
      · cases step
  | addService =>
      obtain ⟨free, step⟩ := whenFree_eq_some.mp step
      obtain rfl := Option.some.inj step
      cases known : state.service with
      | some first => exact .added free (.inl known)
      | none => exact .added free (.inr ⟨known, rfl⟩)
  | addSignalHandler handler =>
      obtain ⟨free, step⟩ := whenFree_eq_some.mp step
      obtain ⟨service, known, step⟩ := Option.bind_eq_some_iff.mp step
      obtain rfl := Option.some.inj step
      rw [sound.setMask_eq (sound.workingSet_of_free free)]
      exact .handled free known
  | readSignal signo =>
      obtain ⟨free, step⟩ := whenFree_eq_some.mp step
      obtain ⟨service, known, step⟩ := Option.bind_eq_some_iff.mp step
      split at step
      · next reads =>
          obtain rfl := Option.some.inj step
          exact .read free known reads.2
      · cases step
  | uninit =>
      obtain ⟨free, step⟩ := whenFree_eq_some.mp step
      obtain ⟨service, known, step⟩ := Option.bind_eq_some_iff.mp step
      obtain rfl := Option.some.inj step
      rw [sound.setMask_eq (sound.restores service known)]
      exact .restored free known
  | waitForHelper =>
      obtain ⟨free, step⟩ := whenFree_eq_some.mp step
      obtain rfl := Option.some.inj step
      rw [sound.wait_eq]
      exact .waits free
  | wake =>
      simp only [live] at step
      split at step
      · cases step
      · obtain rfl := Option.some.inj step
        exact .woken

/-- The main thread sets a mask that blocks both signals. -/
theorem Sound.withMask {state : Interrupts η} (sound : Sound state)
    (free : state.signals.saved = none) {mask : Finset Nat} (larger : shielded ⊆ mask) :
    Sound { state with signals := { state.signals with mask := mask } } where
  guards := sound.setMask_eq larger ▸ sound.guards.setMask free larger
  waits := fun waits => absurd free waits
  dispositions := sound.dispositions
  kept := sound.kept
  restores := sound.restores
  reads := sound.reads

/-- The service changes, and it stays sound. -/
theorem Sound.withService {state : Interrupts η} (sound : Sound state) {service : SignalService η}
    (restores : shielded ⊆ service.originalMask)
    (reads : ∀ signo ∈ service.fdMask,
      ∃ handler, service.handlers.lookup sigInt = some handler) :
    Sound { state with service := some service } where
  guards := sound.guards
  waits := sound.waits
  dispositions := sound.dispositions
  kept := sound.kept
  restores := by
    rintro added ⟨⟩
    exact restores
  reads := by
    rintro added ⟨⟩
    exact reads

/-- Every step keeps the masks. -/
theorem step_sound {state after : Interrupts η} {label : Label η} (sound : Sound state)
    (step : machine.step state label = some after) : Sound after := by
  cases step_effect sound step with
  | kept free =>
      refine sound.withSignals ⟨rfl, rfl, rfl⟩ (fun waits => absurd free waits) ?_
      exact Finset.insert_subset (by decide) sound.kept
  | killed waits => exact sound.withSignals ⟨rfl, rfl, rfl⟩ sound.waits sound.kept
  | childKept =>
      refine sound.withSignals ⟨rfl, rfl, rfl⟩ (fun waits => ?_) ?_
      · obtain ⟨mask, unkept⟩ := sound.waits waits
        refine ⟨mask, fun member => ?_⟩
        rcases Finset.mem_insert.mp member with same | kept
        · exact absurd same (by decide)
        · exact unkept kept
      · exact Finset.insert_subset (by decide) sound.kept
  | started larger =>
      exact {
        guards := sound.guards.startThread larger
        waits := sound.waits
        dispositions := sound.dispositions
        kept := sound.kept
        restores := sound.restores
        reads := sound.reads }
  | added free first =>
      rcases first with known | ⟨-, rfl⟩
      · exact sound.withService (sound.restores _ known) (sound.reads _ known)
      · exact sound.withService (sound.mask_of_free free) fun signo member => nomatch member
  | @handled service handler free known =>
      have restores : shielded ⊆ service.originalMask := sound.restores service known
      exact (sound.withMask free (sound.workingSet_of_free free)).withService restores
        fun _ _ => lookup_emplace service.handlers sigInt handler
  | @read service signo free known =>
      have taken := sound.withSignals (state.signals.take_same signo)
        (fun waits => absurd free waits) ((Finset.erase_subset _ _).trans sound.kept)
      exact ⟨taken.guards, taken.waits, taken.dispositions, taken.kept, sound.restores, sound.reads⟩
  | restored free known => exact sound.withMask free (sound.restores _ known)
  | waits free =>
      refine sound.withSignals ?_ (fun _ => ⟨rfl, fun member => ?_⟩) ?_
      · exact ⟨by simp [Signals.restMask, free], rfl, rfl⟩
      · exact sigInt_notMem (Finset.mem_filter.mp member).2
      · exact (Finset.filter_subset _ _).trans sound.kept
  | woken =>
      exact sound.withSignals state.signals.wake_same (fun waits => absurd rfl waits) sound.kept

/-- A step kills the process exactly when an interrupt meets a wait. -/
theorem killed_step {state after : Interrupts η} {label : Label η} (sound : Sound state)
    (step : machine.step state label = some after) :
    after.signals.killed = false ↔ ¬Exposed state label := by
  have alive := (step_eq_some.mp step).1
  cases step_effect sound step with
  | kept free => simp [Exposed, alive, free]
  | killed waits => simp [Exposed, waits]
  | waits free => simp [Exposed, alive]
  | childKept | started | added | handled | read | restored | woken =>
      simp [Exposed, Signals.startThread, Signals.take, Signals.wake, alive]

/-- An interrupt that has been kept stays until a handler is called for it. -/
theorem called_step {state after : Interrupts η} {label : Label η} (sound : Sound state)
    (step : machine.step state label = some after) :
    ∃ calls, after.called = state.called ++ calls ∧
      (sigInt ∈ state.signals.pending →
        after.signals.killed = true ∨ sigInt ∈ after.signals.pending ∨ calls ≠ []) := by
  cases step_effect sound step with
  | @read service signo free known member =>
      refine ⟨service.handlersOf signo, rfl, fun kept => ?_⟩
      by_cases same : sigInt = signo
      · obtain ⟨handler, found⟩ := sound.reads service known signo member
        subst same
        exact .inr (.inr (by simp [SignalService.handlersOf, found]))
      · exact .inr (.inl (Finset.mem_erase.mpr ⟨same, kept⟩))
  | waits free => exact ⟨[], by simp, fun kept => .inl (by simp [kept])⟩
  | kept | childKept =>
      exact ⟨[], by simp, fun kept => .inr (.inl (Finset.mem_insert_of_mem kept))⟩
  | killed | started | added | handled | restored | woken =>
      exact ⟨[], by simp, fun kept => .inr (.inl kept)⟩

/-! ### Runs -/

theorem run_sound {labels : List (Label η)} {state after : Interrupts η} (sound : Sound state)
    (execution : machine.run labels state = some after) : Sound after :=
  Machine.run_invariant step_sound sound execution

/-- Every thread blocks `SIGINT`, unless the main thread waits for the helper. -/
theorem Sound.blocks_sigInt {state : Interrupts η} (sound : Sound state)
    (free : state.signals.saved = none) : state.signals.Blocked sigInt :=
  ⟨sound.mask_of_free free (by decide), fun mask other =>
    sound.guards.others mask other (by decide)⟩

/-- A run lasts exactly as long as no interrupt meets a wait for the helper.  Outside of these waits
every thread blocks `SIGINT`. -/
theorem alive_iff_unexposed {labels : List (Label η)} {final : Interrupts η}
    (execution : machine.run labels start = some final) :
    (machine.Always (fun state => state.signals.killed = false) start labels ↔
        machine.Guarded (fun state label => ¬Exposed state label) start labels) ∧
      machine.Always (fun state => state.signals.saved = none → state.signals.Blocked sigInt)
        start labels := by
  constructor
  · exact Machine.always_iff_guarded step_sound (fun sound _ step => killed_step sound step)
      start_sound rfl execution
  · refine Machine.always_iff_forall_front.mpr fun front back state _ reached => ?_
    exact (run_sound start_sound reached).blocks_sigInt

/-- A recording whose capture waits for the helper when it is interrupted. -/
def interruptedWait : List (Label Bool) :=
  [.addService, .addSignalHandler true, .waitForHelper, .interrupt]

/-- It is killed. -/
theorem exposed_of_interruptedWait :
    ¬machine.Guarded (fun state label => ¬Exposed state label) start interruptedWait := by
  obtain ⟨final, execution⟩ :=
    Option.isSome_iff_exists.mp (show (machine.run interruptedWait start).isSome by decide +kernel)
  rw [← (alive_iff_unexposed execution).1]
  decide +kernel

/-- The handler that is added. -/
def Label.handler : Label η → Option η
  | .addSignalHandler handler => some handler
  | _ => none

/-- The handler that has been added first. -/
def firstHandler (labels : List (Label η)) : Option η :=
  labels.findSome? Label.handler

/-- The service has the handler that was added first, and no other one has been called. -/
structure Recorded (past : List (Label η)) (state : Interrupts η) : Prop where
  handlers : ∀ service, state.service = some service →
    service.handlers = ((firstHandler past).map (Prod.mk sigInt)).toList
  without : state.service = none → firstHandler past = none
  called : ∀ handler ∈ state.called, firstHandler past = some handler

theorem firstHandler_concat (past : List (Label η)) (label : Label η) :
    firstHandler (past ++ [label]) = (firstHandler past).or label.handler := by
  simp [firstHandler, List.findSome?_append]

/-- A step that adds no handler. -/
theorem Recorded.concat {past : List (Label η)} {state : Interrupts η}
    (recorded : Recorded past state) {label : Label η} (other : label.handler = none) :
    Recorded (past ++ [label]) state := by
  have same : firstHandler (past ++ [label]) = firstHandler past := by
    rw [firstHandler_concat, other, Option.or_none]
  exact ⟨same ▸ recorded.handlers, same ▸ recorded.without, same ▸ recorded.called⟩

theorem Recorded.withSignals {past : List (Label η)} {state : Interrupts η}
    (recorded : Recorded past state) (signals : Signals Nat) :
    Recorded past { state with signals := signals } :=
  ⟨recorded.handlers, recorded.without, recorded.called⟩

theorem emplace_toList (first : Option η) (handler : η) :
    SignalService.emplace (first.map (Prod.mk sigInt)).toList sigInt handler =
      ((first.or (some handler)).map (Prod.mk sigInt)).toList := by
  cases first with
  | none => rfl
  | some known => simp [SignalService.emplace]

theorem eq_of_mem_handlersOf {service : SignalService η} {first : Option η} {signo : Nat}
    {handler : η} (handlers : service.handlers = (first.map (Prod.mk sigInt)).toList)
    (member : handler ∈ service.handlersOf signo) : first = some handler := by
  cases first with
  | none => simp [SignalService.handlersOf, handlers] at member
  | some known =>
      simp only [SignalService.handlersOf, handlers, Option.map_some, Option.toList_some,
        List.lookup_cons, List.lookup_nil] at member
      split at member <;> simp_all

theorem step_recorded {past : List (Label η)} {state after : Interrupts η} {label : Label η}
    (sound : Sound state) (recorded : Recorded past state)
    (step : machine.step state label = some after) : Recorded (past ++ [label]) after := by
  cases step_effect sound step with
  | @handled service handler free known =>
      have handlers := recorded.handlers service known
      constructor
      · rintro added ⟨⟩
        rw [firstHandler_concat]
        change SignalService.emplace service.handlers sigInt handler = _
        rw [handlers, emplace_toList]
        rfl
      · intro without
        cases without
      · intro other member
        rw [firstHandler_concat, recorded.called other member, Option.some_or]
  | @added service free first =>
      have kept : Recorded (past ++ [.addService]) state := recorded.concat rfl
      refine ⟨?_, by simp, kept.called⟩
      rintro added ⟨⟩
      rcases first with known | ⟨without, rfl⟩
      · exact kept.handlers service known
      · rw [kept.without without]
        rfl
  | @read service signo free known =>
      have kept : Recorded (past ++ [.readSignal signo]) state := recorded.concat rfl
      refine ⟨kept.handlers, kept.without, fun handler member => ?_⟩
      rcases List.mem_append.mp member with before | called
      · exact kept.called handler before
      · exact eq_of_mem_handlersOf (kept.handlers service known) called
  | kept | killed | childKept | started | restored | waits | woken =>
      exact (recorded.concat rfl).withSignals _

theorem run_recorded {labels : List (Label η)} {final : Interrupts η}
    (execution : machine.run labels start = some final) : Recorded labels final := by
  refine (Machine.run_history (P := fun past state => Sound state ∧ Recorded past state)
    (Q := fun _ => True) ?_ ⟨start_sound, ?_⟩ (fun _ _ => trivial) execution).2
  · rintro past state label after ⟨sound, recorded⟩ - step
    exact ⟨step_sound sound step, step_recorded sound recorded step⟩
  · exact ⟨by simp [start], fun _ => rfl, by simp [start]⟩

/-- An interrupt is kept until the handler that was added first has been called, unless the process
is killed. -/
theorem interrupt_answered {front back : List (Label η)} {before final : Interrupts η}
    (reached : machine.run front start = some before)
    (execution : machine.run (.interrupt :: back) before = some final) :
    final.signals.killed = true ∨ sigInt ∈ final.signals.pending ∨
      ∃ calls, calls ≠ [] ∧ final.called = before.called ++ calls ∧
        ∀ handler ∈ calls, firstHandler (front ++ .interrupt :: back) = some handler := by
  have recorded := run_recorded (Machine.run_append_eq_some.mpr ⟨before, reached, execution⟩)
  obtain ⟨sent, step, rest⟩ := Machine.run_cons_eq_some.mp execution
  have sound := run_sound start_sound reached
  have answered : Sound final ∧ ∃ calls, final.called = before.called ++ calls ∧
      (final.signals.killed = true ∨ sigInt ∈ final.signals.pending ∨ calls ≠ []) := by
    refine Machine.run_invariant (P := fun state => Sound state ∧ ∃ calls,
      state.called = before.called ++ calls ∧
        (state.signals.killed = true ∨ sigInt ∈ state.signals.pending ∨ calls ≠ [])) ?_ ?_ rest
    · rintro state label after ⟨sound, calls, called, answered⟩ step
      obtain ⟨more, called', kept⟩ := called_step sound step
      refine ⟨step_sound sound step, calls ++ more, by rw [called', called, List.append_assoc], ?_⟩
      have alive := (step_eq_some.mp step).1
      rcases answered with killed | pending | some
      · simp [alive] at killed
      · rcases kept pending with killed | pending | some
        · exact .inl killed
        · exact .inr (.inl pending)
        · exact .inr (.inr (by simp [some]))
      · exact .inr (.inr (by simp [some]))
    · refine ⟨step_sound sound step, [], ?_⟩
      cases step_effect sound step with
      | kept free => exact ⟨by simp, .inr (.inl (Finset.mem_insert_self _ _))⟩
      | killed waits => exact ⟨by simp, .inl rfl⟩
  obtain ⟨-, calls, called, killed | pending | some⟩ := answered
  · exact .inl killed
  · exact .inr (.inl pending)
  · refine .inr (.inr ⟨calls, some, called, fun handler member => recorded.called handler ?_⟩)
    rw [called]
    exact List.mem_append_right _ member

/-- The services of a recording, as `run_wayland` and `run_loop` add them. -/
def setUp : List (Label Bool) :=
  [.addService, .addSignalHandler true, .addService, .addSignalHandler false,
    .startThread shielded]

/-- The handler of `run_wayland` is called. -/
theorem interrupt_answered_setUp :
    ∃ before final : Interrupts Bool, machine.run setUp start = some before ∧
      machine.run [.interrupt, .readSignal sigInt, .uninit] before = some final ∧
        (final.signals.killed = true ∨ sigInt ∈ final.signals.pending ∨
          ∃ calls, calls ≠ [] ∧ final.called = before.called ++ calls ∧
            ∀ handler ∈ calls,
              firstHandler (setUp ++ [.interrupt, .readSignal sigInt, .uninit]) =
                some handler) := by
  obtain ⟨final, execution⟩ := Option.isSome_iff_exists.mp
    (show (machine.run (setUp ++ [.interrupt, .readSignal sigInt, .uninit]) start).isSome by
      decide +kernel)
  obtain ⟨before, reached, execution⟩ := Machine.run_append_eq_some.mp execution
  exact ⟨before, final, reached, execution, interrupt_answered reached execution⟩

end Interrupts

/-! ### The helper -/

/-- The process that reads the planes. -/
structure Helper where
  signals : Signals Nat
  /-- `sigaction` has been called. -/
  handles : Bool
  /-- `ppoll` has failed with `EINTR`, which ends the loop. -/
  leaves : Bool

namespace Helper

/-- Behind `block_signals({ SIGINT })` in `app`.  The mask is inherited from the recording. -/
def start : Helper where
  signals := blockSignals { unblocked with mask := Interrupts.shielded } [sigInt]
  handles := false
  leaves := false

/-- The calls of the helper that touch signals, and what the other processes do. -/
inductive Label
  /-- `SIGINT` is sent to the helper. -/
  | interrupt
  /-- `sigaction` sets a handler that does nothing. -/
  | sigaction
  /-- `ppoll` with an empty mask, when there is nothing to read or to write yet. -/
  | wait
  | wake
  deriving DecidableEq, Repr

/-- One step. -/
def step (state : Helper) (label : Label) : Option Helper :=
  if state.signals.killed then none
  else match label with
  | .interrupt =>
      let signals := state.signals.raise sigInt
      some { state with
        signals := signals
        leaves := state.leaves || state.signals.saved.isSome && signals.saved.isNone }
  | .sigaction =>
      some { state with
        signals := { state.signals with
          disposition := Function.update state.signals.disposition sigInt .caught }
        handles := true }
  | .wait =>
      if state.handles ∧ state.signals.saved = none ∧ state.leaves = false then
        let signals := state.signals.wait ∅
        some { state with signals := signals, leaves := signals.saved.isNone }
      else none
  | .wake =>
      if state.signals.saved = none then none
      else some { state with signals := state.signals.wake }

/-- The helper under every order of calls and interrupts. -/
def machine : Machine Helper Label := ⟨step⟩

/-- Interrupts are blocked outside of the waits and handled in them. -/
structure Sound (state : Helper) : Prop where
  guards : state.signals.Guards {sigInt}
  waits : state.signals.saved ≠ none → state.signals.mask = ∅ ∧ state.signals.pending = ∅
  handles : state.handles = true → state.signals.disposition sigInt = .caught
  waitsHandling : state.signals.saved ≠ none → state.handles = true
  kept : state.signals.pending ⊆ {sigInt}
  alive : state.signals.killed = false

theorem start_sound : Sound start where
  guards := by
    constructor
    · change {sigInt} ⊆ [sigInt].toFinset
      decide
    · intro mask member
      cases member
  waits := fun waits => absurd rfl waits
  handles := by simp [start]
  waitsHandling := fun waits => absurd rfl waits
  kept := by
    change (∅ : Finset Nat).filter _ ⊆ {sigInt}
    decide
  alive := rfl

section Signals

variable {state : Helper}

/-- An interrupt ends a wait. -/
theorem Sound.raise_of_waits (sound : Sound state) (waits : state.signals.saved ≠ none) :
    state.signals.raise sigInt = state.signals.wake := by
  have unblocked : sigInt ∉ state.signals.mask := by simp [(sound.waits waits).1]
  rw [Signals.raise_of_notMem unblocked, Signals.act,
    sound.handles (sound.waitsHandling waits)]
  exact if_neg unblocked

/-- An interrupt that has been kept ends the wait at once. -/
theorem Sound.wait_of_kept (sound : Sound state) (handles : state.handles = true)
    (kept : sigInt ∈ state.signals.pending) :
    state.signals.wait ∅ = { state.signals with saved := none, pending := ∅ } := by
  let entered : Signals Nat := { state.signals with mask := ∅, saved := some state.signals.mask }
  have caught : entered.disposition sigInt = .caught := sound.handles handles
  have survives : ¬entered.Released .terminates := by
    rintro ⟨signal, member, -, terminates⟩
    rw [Finset.mem_singleton.mp (sound.kept member), caught] at terminates
    cases terminates
  have released : entered.Released .caught := ⟨sigInt, kept, by simp [entered], caught⟩
  change entered.deliver = _
  unfold Signals.deliver
  dsimp only
  rw [if_neg survives, if_pos released]
  simp [entered, Signals.wake]

end Signals

/-- An interrupt has made the helper leave its loop, or the helper does not wait and an interrupt is
kept for its next wait. -/
def Answers (state : Helper) : Prop :=
  state.leaves = true ∨ sigInt ∈ state.signals.pending ∧ state.signals.saved = none

/-- Every step keeps the masks, and an answer is not taken back. -/
theorem step_sound {state after : Helper} {label : Label} (sound : Sound state)
    (step : machine.step state label = some after) :
    Sound after ∧ (label = .interrupt ∨ state.Answers → after.Answers) := by
  change state.step label = some after at step
  unfold Helper.step at step
  rw [sound.alive, if_neg (by simp)] at step
  cases label with
  | interrupt =>
      by_cases free : state.signals.saved = none
      · dsimp only at step
        rw [sound.guards.raise_eq (Finset.mem_singleton_self _) free] at step
        obtain rfl := Option.some.inj step
        refine ⟨?_, fun _ => .inr ⟨Finset.mem_insert_self _ _, free⟩⟩
        exact {
          guards := sound.guards.of_same ⟨rfl, rfl, rfl⟩
          waits := fun waits => absurd free waits
          handles := sound.handles
          waitsHandling := fun waits => absurd free waits
          kept := Finset.insert_subset (by simp) sound.kept
          alive := sound.alive }
      · dsimp only at step
        rw [sound.raise_of_waits free] at step
        obtain rfl := Option.some.inj step
        refine ⟨?_, fun _ => .inl ?_⟩
        · exact {
            guards := sound.guards.of_same state.signals.wake_same
            waits := fun waits => absurd rfl waits
            handles := sound.handles
            waitsHandling := fun waits => absurd rfl waits
            kept := sound.kept
            alive := sound.alive }
        · simp [Signals.wake, Option.isSome_iff_ne_none.mpr free]
  | sigaction =>
      obtain rfl := Option.some.inj step
      refine ⟨?_, fun answers => answers.resolve_left (by simp)⟩
      exact {
        guards := ⟨sound.guards.own, sound.guards.others⟩
        waits := sound.waits
        handles := by simp
        waitsHandling := fun _ => rfl
        kept := sound.kept
        alive := sound.alive }
  | wait =>
      simp only at step
      split at step
      · next ready =>
          obtain ⟨handles, free, stays⟩ := ready
          by_cases kept : sigInt ∈ state.signals.pending
          · rw [sound.wait_of_kept handles kept] at step
            obtain rfl := Option.some.inj step
            refine ⟨?_, fun _ => .inl rfl⟩
            exact {
              guards := sound.guards.of_same ⟨by simp [Signals.restMask, free], rfl, rfl⟩
              waits := fun waits => absurd rfl waits
              handles := sound.handles
              waitsHandling := fun waits => absurd rfl waits
              kept := Finset.empty_subset _
              alive := sound.alive }
          · have empty : state.signals.pending = ∅ := by
              refine Finset.eq_empty_of_forall_notMem fun signal member => kept ?_
              rwa [Finset.mem_singleton.mp (sound.kept member)] at member
            rw [Signals.wait_of_empty empty] at step
            obtain rfl := Option.some.inj step
            refine ⟨?_, fun answers => ?_⟩
            · exact {
                guards := sound.guards.of_same ⟨by simp [Signals.restMask, free], rfl, rfl⟩
                waits := fun _ => ⟨rfl, empty⟩
                handles := sound.handles
                waitsHandling := fun _ => handles
                kept := sound.kept
                alive := sound.alive }
            · rcases answers.resolve_left (by simp) with left | ⟨pending, -⟩
              · simp [stays] at left
              · exact absurd pending kept
      · cases step
  | wake =>
      simp only at step
      split at step
      · cases step
      · next waits =>
          obtain rfl := Option.some.inj step
          refine ⟨?_, fun answers => ?_⟩
          · exact {
              guards := sound.guards.of_same state.signals.wake_same
              waits := fun waits => absurd rfl waits
              handles := sound.handles
              waitsHandling := fun waits => absurd rfl waits
              kept := sound.kept
              alive := sound.alive }
          · rcases answers.resolve_left (by simp) with left | ⟨-, free⟩
            · exact .inl left
            · exact absurd free waits

/-- No interrupt kills the helper, and it leaves its loop for each one, at the latest when it has to
wait the next time. -/
theorem answers_of_interrupt {front back : List Label} {before final : Helper}
    (reached : machine.run front start = some before)
    (execution : machine.run (.interrupt :: back) before = some final) :
    final.signals.killed = false ∧ final.Answers := by
  have sound : Sound before :=
    Machine.run_invariant (fun sound step => (step_sound sound step).1) start_sound reached
  obtain ⟨sent, step, rest⟩ := Machine.run_cons_eq_some.mp execution
  obtain ⟨sound, answers⟩ := step_sound sound step
  have keeps {state label after} (held : Sound state ∧ state.Answers)
      (step : machine.step state label = some after) : Sound after ∧ after.Answers := by
    obtain ⟨sound, answers⟩ := step_sound held.1 step
    exact ⟨sound, answers (.inr held.2)⟩
  obtain ⟨sound, answers⟩ := Machine.run_invariant keeps ⟨sound, answers (.inl rfl)⟩ rest
  exact ⟨sound.alive, answers⟩

/-- An interrupt while the helper waits. -/
theorem answers_of_interrupt_waiting :
    ∃ before final : Helper, machine.run [.sigaction, .wait] start = some before ∧
      machine.run [.interrupt] before = some final ∧
        final.signals.killed = false ∧ final.Answers := by
  obtain ⟨final, execution⟩ := Option.isSome_iff_exists.mp
    (show (machine.run ([.sigaction, .wait] ++ [.interrupt]) start).isSome by decide +kernel)
  obtain ⟨before, reached, execution⟩ := Machine.run_append_eq_some.mp execution
  exact ⟨before, final, reached, execution, answers_of_interrupt reached execution⟩

end Helper

end ShadowCast
