import ShadowCast.EncoderService
import Mathlib.Data.List.Nodup

/-!
# Where the `StreamPoll` items are

An item is in the pool, in the hands of one holder, in `pending_` or in the `tmp` of the running
dispatch.  The observer of this file records which items are alive and what the running dispatch
took and gave back.  Every section under a lock moves one item or one whole list, so that every
live item stays in exactly one of the four places.
-/

namespace ShadowCast
namespace EncoderService

/-- The addresses in the pool, with the producers, in `pending_` and in `tmp`. -/
def addresses (service : EncoderService) : List Nat :=
  service.pool.map (·.id) ++ service.hands.map (·.id) ++ service.pending.map (·.id) ++
    service.tmp.map (·.id)

/-- In how many places there is an item with this address. -/
def occurrences (service : EncoderService) (id : Nat) : Nat :=
  (service.pool.map (·.id)).count id + (service.hands.map (·.id)).count id +
    (service.pending.map (·.id)).count id + (service.tmp.map (·.id)).count id

theorem count_addresses (service : EncoderService) (id : Nat) :
    service.addresses.count id = service.occurrences id := by
  simp only [addresses, occurrences, List.count_append]

/-- The items which the pool destructs when this dispatch comes to its end. -/
def destructed (service : EncoderService) : List Nat :=
  if service.lifecycle = .closing ∧ service.phase = .returning false then
    service.pool.map (·.id)
  else
    []

/-- The service and what happened to its items. -/
structure Observed where
  service : EncoderService
  /-- Items which have been constructed and not destructed. -/
  live : List Nat
  /-- Items which the running dispatch took from `pending_`. -/
  taken : List Nat
  /-- Items which the guard of the running dispatch has put back into the pool. -/
  returned : List Nat
  /-- Items which `prepare_frame` has handed out since the running dispatch took `pending_`. -/
  lent : List Nat

namespace Observed

/-- Nothing has been constructed. -/
def initial : Observed := ⟨.initial, [], [], [], []⟩

/-- What a step of the service adds to the record. -/
def record (seen : Observed) (after : EncoderService) : Label → Observed
  | .fill => { seen with service := after, live := seen.live ++ [seen.service.allocated] }
  | .prepareFrame _ _ =>
      { seen with
        service := after
        live := if seen.service.pool.isEmpty then seen.live ++ [seen.service.allocated]
          else seen.live
        lent := seen.lent ++ [seen.service.poolItem.id] }
  | .takePending => ⟨after, seen.live, seen.service.pending.map (·.id), [], []⟩
  | .returnItem =>
      { seen with
        service := after
        returned := seen.returned ++ (seen.service.tmp.take 1).map (·.id) }
  | .endDispatch => ⟨after, seen.live.filter (· ∉ seen.service.destructed), [], [], []⟩
  | _ => { seen with service := after }

@[simp]
theorem record_service (seen : Observed) (after : EncoderService) (label : Label) :
    (seen.record after label).service = after := by
  cases label <;> rfl

end Observed

/-- The machine of the service, with the record. -/
def observer : Machine Observed Label :=
  ⟨fun seen label => (seen.service.step label).map (seen.record · label)⟩

theorem observer_step {seen next : Observed} {label : Label} :
    observer.step seen label = some next ↔
      ∃ after, seen.service.step label = some after ∧ seen.record after label = next := by
  simp [observer]

/-- The observer follows every step of the service. -/
theorem machine_simulates_observer :
    machine.Simulates observer (fun service seen => seen.service = service) id := by
  rintro service seen label after rfl step
  exact ⟨seen.record after label, observer_step.mpr ⟨after, step, rfl⟩, by simp⟩

/-- The items are where they should be. -/
structure Placed (seen : Observed) : Prop where
  live_nodup : seen.live.Nodup
  addresses_perm : seen.service.addresses.Perm seen.live
  allocated : ∀ id ∈ seen.live, id < seen.service.allocated
  tmp_eq_nil : seen.service.phase = .idle ∨ seen.service.phase = .starting →
    seen.service.tmp = []
  taken_nodup : seen.taken.Nodup
  taken_eq : seen.taken = seen.returned ++ seen.service.tmp.map (·.id)
  returned_or_lent : ∀ id ∈ seen.returned, id ∈ seen.service.pool.map (·.id) ∨ id ∈ seen.lent

theorem Placed.initial : Placed .initial where
  live_nodup := List.nodup_nil
  addresses_perm := .nil
  allocated := by simp [Observed.initial]
  tmp_eq_nil _ := rfl
  taken_nodup := List.nodup_nil
  taken_eq := rfl
  returned_or_lent := by simp [Observed.initial]

/-- The item found in the hands of a producer leaves them. -/
theorem hands_perm {hands : List StreamPoll} {item : StreamPoll} {id : Nat}
    (unique : (hands.map (·.id)).Nodup) (found : hands.find? (·.id = id) = some item) :
    (hands.map (·.id)).Perm (item.id :: (hands.filter (·.id ≠ id)).map (·.id)) := by
  induction hands with
  | nil => simp at found
  | cons head rest ih =>
      obtain ⟨absent, unique⟩ : head.id ∉ rest.map (·.id) ∧ (rest.map (·.id)).Nodup := by
        simpa using unique
      by_cases same : head.id = id
      · obtain rfl : head = item := by simpa [same] using found
        have others : rest.filter (·.id ≠ id) = rest :=
          List.filter_eq_self.mpr fun other member => by
            simpa [← same] using fun equal : other.id = head.id =>
              absent (equal ▸ List.mem_map_of_mem member)
        rw [List.filter_cons_of_neg (by simp [same]), others, List.map_cons]
      · have later : rest.find? (·.id = id) = some item := by simpa [same] using found
        simpa [same] using ((ih unique later).cons head.id).trans (.swap ..)

/-- Filtering the first part of a list without repetitions away. -/
theorem filter_notMem_of_nodup {front back : List Nat} (nodup : (front ++ back).Nodup) :
    (front ++ back).filter (· ∉ front) = back := by
  have apart := List.disjoint_of_nodup_append nodup
  rw [List.filter_append, List.filter_eq_nil_iff.mpr (by simp), List.nil_append,
    List.filter_eq_self.mpr fun id member => by simpa using fun other => apart other member]

namespace Placed

variable {seen : Observed} {after : EncoderService}

theorem addresses_nodup (placed : Placed seen) : seen.service.addresses.Nodup :=
  placed.addresses_perm.nodup_iff.mpr placed.live_nodup

theorem hands_nodup (placed : Placed seen) : (seen.service.hands.map (·.id)).Nodup :=
  placed.addresses_nodup.sublist <| by
    simp only [addresses, List.append_assoc]
    exact (List.sublist_append_left ..).trans (List.sublist_append_right ..)

/-- A step after which every item is where it was. -/
theorem keep (placed : Placed seen) (pool : after.pool = seen.service.pool)
    (hands : after.hands.map (·.id) = seen.service.hands.map (·.id))
    (pending : after.pending = seen.service.pending) (tmp : after.tmp = seen.service.tmp)
    (allocated : after.allocated = seen.service.allocated)
    (phase : after.phase = .idle ∨ after.phase = .starting → after.tmp = []) :
    Placed { seen with service := after } where
  live_nodup := placed.live_nodup
  addresses_perm := by simpa [addresses, pool, hands, pending, tmp] using placed.addresses_perm
  allocated := by simpa [allocated] using placed.allocated
  tmp_eq_nil := phase
  taken_nodup := placed.taken_nodup
  taken_eq := by simpa [tmp] using placed.taken_eq
  returned_or_lent := by simpa [pool] using placed.returned_or_lent

/-- A new item has an address which no live item has. -/
theorem allocate (placed : Placed seen) (after : EncoderService)
    (grown : after.addresses.Perm (seen.service.addresses ++ [seen.service.allocated]))
    (next : after.allocated = seen.service.allocated + 1) :
    after.addresses.Perm (seen.live ++ [seen.service.allocated]) ∧
      (seen.live ++ [seen.service.allocated]).Nodup ∧
        ∀ id ∈ seen.live ++ [seen.service.allocated], id < after.allocated := by
  refine ⟨grown.trans (placed.addresses_perm.append_right _), ?_, ?_⟩
  · rw [List.nodup_append_comm, List.singleton_append, List.nodup_cons]
    exact ⟨fun member => Nat.lt_irrefl _ (placed.allocated _ member), placed.live_nodup⟩
  · intro id member
    rw [next]
    rcases List.mem_append.mp member with old | new
    · exact Nat.lt_succ_of_lt (placed.allocated id old)
    · exact List.mem_singleton.mp new ▸ Nat.lt_succ_self _

theorem fill (placed : Placed seen) (step : seen.service.step .fill = some after) :
    Placed (seen.record after .fill) := by
  obtain rfl := Option.some.inj step
  have grown : (EncoderService.addresses
      { seen.service with
        pool := seen.service.pool ++ [⟨seen.service.allocated, none, none, .blank⟩]
        allocated := seen.service.allocated + 1 }).Perm
      (seen.service.addresses ++ [seen.service.allocated]) := by
    rw [List.perm_iff_count]
    intro id
    simp only [addresses, List.map_append, List.map_cons, List.map_nil, List.count_append]
    omega
  obtain ⟨addresses_perm, live_nodup, allocated⟩ := placed.allocate _ grown rfl
  exact {
    live_nodup
    addresses_perm
    allocated
    tmp_eq_nil := placed.tmp_eq_nil
    taken_nodup := placed.taken_nodup
    taken_eq := placed.taken_eq
    returned_or_lent := by
      intro id member
      exact (placed.returned_or_lent id member).imp_left (by simp +contextual) }

theorem prepareFrame (placed : Placed seen) (codecCtx stream : Nat) :
    Placed (seen.record (seen.service.prepareFrame codecCtx stream)
      (.prepareFrame codecCtx stream)) := by
  cases pool : seen.service.pool with
  | nil =>
      have grown : (seen.service.prepareFrame codecCtx stream).addresses.Perm
          (seen.service.addresses ++ [seen.service.allocated]) := by
        rw [List.perm_iff_count]
        intro id
        simp only [addresses, EncoderService.prepareFrame, poolItem, pool, List.map_append,
          List.map_cons, List.map_nil, List.count_append, List.tail_nil]
        omega
      have next : (seen.service.prepareFrame codecCtx stream).allocated =
          seen.service.allocated + 1 := by
        simp [EncoderService.prepareFrame, pool]
      obtain ⟨addresses_perm, live_nodup, allocated⟩ := placed.allocate _ grown next
      exact {
        live_nodup := by simpa [Observed.record, pool] using live_nodup
        addresses_perm := by simpa [Observed.record, pool] using addresses_perm
        allocated := by simpa [Observed.record, pool] using allocated
        tmp_eq_nil := placed.tmp_eq_nil
        taken_nodup := placed.taken_nodup
        taken_eq := placed.taken_eq
        returned_or_lent := by
          intro id member
          have lent : id ∈ seen.lent := by simpa [pool] using placed.returned_or_lent id member
          exact Or.inr (List.mem_append_left _ lent) }
  | cons item rest =>
      have moved : (seen.service.prepareFrame codecCtx stream).addresses.Perm
          seen.service.addresses := by
        rw [List.perm_iff_count]
        intro id
        simp only [addresses, EncoderService.prepareFrame, poolItem, pool, StreamPoll.reset,
          List.map_append, List.map_cons, List.map_nil, List.count_append, List.count_cons,
          List.count_nil, List.tail_cons]
        omega
      exact {
        live_nodup := by simpa [Observed.record, pool] using placed.live_nodup
        addresses_perm := by
          simpa [Observed.record, pool] using moved.trans placed.addresses_perm
        allocated := by
          simpa [Observed.record, EncoderService.prepareFrame, pool] using placed.allocated
        tmp_eq_nil := placed.tmp_eq_nil
        taken_nodup := placed.taken_nodup
        taken_eq := placed.taken_eq
        returned_or_lent := by
          intro id member
          have before := placed.returned_or_lent id member
          simp only [pool, List.map_cons, List.mem_cons] at before
          simp only [Observed.record, EncoderService.prepareFrame, poolItem, pool,
            StreamPoll.reset, List.tail_cons, List.mem_append, List.mem_singleton]
          rcases before with (rfl | kept) | lent
          · exact Or.inr (Or.inr rfl)
          · exact Or.inl kept
          · exact Or.inr (Or.inl lent) }

/-- An item leaves the hands of its holder for the pool or for `pending_`. -/
theorem leaveHands (placed : Placed seen) {item : StreamPoll} {id : Nat}
    (found : seen.service.hands.find? (·.id = id) = some item)
    (pool : seen.service.pool.map (·.id) ⊆ after.pool.map (·.id))
    (moved : (after.pool.map (·.id) ++ after.pending.map (·.id)).Perm
      (seen.service.pool.map (·.id) ++ seen.service.pending.map (·.id) ++ [item.id]))
    (hands : after.hands = seen.service.hands.filter (·.id ≠ id))
    (tmp : after.tmp = seen.service.tmp) (phase : after.phase = seen.service.phase)
    (allocated : after.allocated = seen.service.allocated) :
    Placed { seen with service := after } where
  live_nodup := placed.live_nodup
  addresses_perm := by
    refine List.Perm.trans ?_ placed.addresses_perm
    have left := hands_perm placed.hands_nodup found
    rw [List.perm_iff_count] at left moved ⊢
    intro address
    have left := left address
    have moved := moved address
    simp only [addresses, hands, tmp, List.count_append, List.count_cons, List.count_nil]
      at left moved ⊢
    omega
  allocated := by simpa [allocated] using placed.allocated
  tmp_eq_nil := by simpa [phase, tmp] using placed.tmp_eq_nil
  taken_nodup := placed.taken_nodup
  taken_eq := by simpa [tmp] using placed.taken_eq
  returned_or_lent address member :=
    (placed.returned_or_lent address member).imp_left fun back => pool back

theorem takePending (placed : Placed seen) (step : seen.service.step .takePending = some after) :
    Placed (seen.record after .takePending) := by
  obtain ⟨starting, rfl⟩ := step_takePending.mp step
  have empty := placed.tmp_eq_nil (Or.inr starting)
  exact {
    live_nodup := placed.live_nodup
    addresses_perm := by
      simpa [Observed.record, addresses, empty] using placed.addresses_perm
    allocated := placed.allocated
    tmp_eq_nil := by simp [Observed.record]
    taken_nodup := placed.addresses_nodup.sublist <| by
      simp only [addresses, empty, List.map_nil, List.append_nil]
      exact List.sublist_append_right ..
    taken_eq := by simp [Observed.record]
    returned_or_lent := by simp [Observed.record] }

theorem returnItem (placed : Placed seen) (step : seen.service.step .returnItem = some after) :
    Placed (seen.record after .returnItem) := by
  obtain ⟨threw, submission, rest, returning, tmp, rfl⟩ := step_returnItem.mp step
  exact {
    live_nodup := placed.live_nodup
    addresses_perm := by
      refine List.Perm.trans ?_ placed.addresses_perm
      rw [List.perm_iff_count]
      intro id
      simp only [Observed.record, addresses, tmp, Submission.item, List.map_append,
        List.map_cons, List.map_nil, List.count_append, List.count_cons, List.count_nil]
      omega
    allocated := placed.allocated
    tmp_eq_nil := by simp [Observed.record, returning]
    taken_nodup := placed.taken_nodup
    taken_eq := by
      simpa [Observed.record, tmp] using placed.taken_eq
    returned_or_lent := by
      intro id member
      replace member : id ∈ seen.returned ∨ id = submission.id := by
        simpa [Observed.record, tmp] using member
      rcases member with before | rfl
      · exact (placed.returned_or_lent id before).imp_left fun back => by
          simpa [Observed.record] using Or.inl back
      · exact Or.inl (by simp [Observed.record, Submission.item]) }

/-- Nothing but the pool, and that only after the dispatch of `on_uninit`, destructs items. -/
theorem endDispatch (placed : Placed seen) (step : seen.service.step .endDispatch = some after) :
    Placed (seen.record after .endDispatch) := by
  obtain ⟨threw, returning, empty, rfl⟩ := step_endDispatch.mp step
  exact {
    live_nodup := placed.live_nodup.filter _
    addresses_perm := by
      refine List.Perm.trans (.of_eq ?_) (placed.addresses_perm.filter _)
      by_cases clears : seen.service.lifecycle = .closing ∧ threw = false
      · have destructed : seen.service.destructed = seen.service.pool.map (·.id) := by
          simp [destructed, clears, returning]
        have nodup := placed.addresses_nodup
        simp only [addresses, List.append_assoc] at nodup
        simp only [Observed.record, destructed, addresses, leaveDispatch, clears,
          List.append_assoc, filter_notMem_of_nodup nodup]
        simp
      · have destructed : seen.service.destructed = [] := by
          simp only [destructed, returning, DispatchPhase.returning.injEq, if_neg clears]
        simp [Observed.record, destructed, addresses, leaveDispatch, if_neg clears]
    allocated id member := placed.allocated id (List.mem_of_mem_filter member)
    tmp_eq_nil _ := empty
    taken_nodup := List.nodup_nil
    taken_eq := by simp [Observed.record, leaveDispatch, empty]
    returned_or_lent := by simp [Observed.record] }

/-- Changing a frame leaves every item with its holder. -/
theorem setFrame (placed : Placed seen) (id : Nat) (frame : FrameSlot) :
    Placed { seen with service := seen.service.setFrame id frame } := by
  refine placed.keep rfl ?_ rfl rfl rfl placed.tmp_eq_nil
  simp only [EncoderService.setFrame, List.map_map]
  refine List.map_congr_left fun item _ => ?_
  simp only [Function.comp_apply]
  split <;> rfl

theorem receivePacket (placed : Placed seen) {position : Nat} {submission : Submission}
    {response : ReceiveResponse}
    (received : seen.service.receivePacket position submission response = some after) :
    Placed { seen with service := after } := by
  cases response with
  | packet retires =>
      obtain ⟨packet, rest, -, -, rfl⟩ := receivePacket_packet.mp received
      exact placed.keep rfl rfl rfl rfl rfl (by simp)
  | drained =>
      obtain ⟨-, rfl⟩ := receivePacket_drained.mp received
      exact placed.keep rfl rfl rfl rfl rfl (by simp)
  | failed =>
      obtain rfl := Option.some.inj received
      exact placed.keep rfl rfl rfl rfl rfl (by simp)

/-- Every step of a producer or of the media thread keeps the items in place. -/
theorem step (placed : Placed seen) {label : Label}
    (step : seen.service.step label = some after) : Placed (seen.record after label) := by
  cases label with
  | fill => exact placed.fill step
  | prepareFrame codecCtx stream =>
      obtain rfl := Option.some.inj step
      exact placed.prepareFrame codecCtx stream
  | fillFrame id =>
      obtain rfl := Option.some.inj step
      exact placed.setFrame id .filled
  | resetFrame id =>
      obtain rfl := Option.some.inj step
      exact placed.setFrame id .null
  | dropFrame id =>
      obtain ⟨item, found, rfl⟩ := step_dropFrame.mp step
      refine placed.leaveHands found (by simp) ?_ rfl rfl rfl rfl
      rw [List.perm_iff_count]
      intro address
      simp only [List.map_append, List.map_cons, List.map_nil, List.count_append]
      omega
  | writeFrame id response =>
      obtain ⟨item, codecCtx, stream, found, -, -, rfl⟩ := step_writeFrame.mp step
      obtain rfl : item.id = id := by simpa using List.find?_some found
      refine placed.leaveHands found (List.Subset.refl _) ?_ rfl rfl rfl rfl
      simp [writeFrame]
  | beginDispatch =>
      obtain ⟨idle, -, rfl⟩ := step_beginDispatch.mp step
      exact placed.keep rfl rfl rfl rfl rfl fun _ => placed.tmp_eq_nil (Or.inl idle)
  | takePending => exact placed.takePending step
  | receivePacket response =>
      obtain ⟨position, submission, -, -, received⟩ := step_receivePacket.mp step
      exact placed.receivePacket received
  | writePacket succeeds =>
      obtain ⟨position, packet, submission, -, -, rfl⟩ := step_writePacket.mp step
      cases succeeds <;> exact placed.keep rfl rfl rfl rfl rfl (by simp)
  | finishLoop =>
      obtain ⟨position, -, -, rfl⟩ := step_finishLoop.mp step
      exact placed.keep rfl rfl rfl rfl rfl (by simp)
  | returnItem => exact placed.returnItem step
  | endDispatch => exact placed.endDispatch step
  | beginUninit =>
      obtain ⟨idle, -, rfl⟩ := step_beginUninit.mp step
      exact placed.keep rfl rfl rfl rfl rfl fun _ => placed.tmp_eq_nil (Or.inl idle)

/-- The items are in place in every reachable state. -/
theorem of_run {labels : List Label} (execution : observer.run labels .initial = some seen) :
    Placed seen :=
  Machine.run_invariant
    (fun placed next => by
      obtain ⟨after, step, rfl⟩ := observer_step.mp next
      exact placed.step step)
    .initial execution

/-- A live item is in exactly one place, and no other item is in any. -/
theorem occurrences_eq (placed : Placed seen) (id : Nat) :
    seen.service.occurrences id = if id ∈ seen.live then 1 else 0 := by
  rw [← count_addresses, placed.addresses_perm.count_eq]
  split
  next live => exact List.count_eq_one_of_mem placed.live_nodup live
  next dead => exact List.count_eq_zero_of_not_mem dead

/-- When the guard is done, it has put every item of its dispatch into the pool, where it still is
unless `prepare_frame` has handed it out again. -/
theorem guard_done (placed : Placed seen) (empty : seen.service.tmp = []) :
    seen.returned = seen.taken ∧
      ∀ id ∈ seen.taken, (seen.service.pool.map (·.id)).count id = 1 ∨ id ∈ seen.lent := by
  have returned : seen.returned = seen.taken := by simp [placed.taken_eq, empty]
  refine ⟨returned, fun id taken => ?_⟩
  refine (placed.returned_or_lent id (returned ▸ taken)).imp_left fun back => ?_
  have once := placed.occurrences_eq id
  have present : 0 < (seen.service.pool.map (·.id)).count id := List.count_pos_iff.mpr back
  unfold occurrences at once
  split at once <;> omega

end Placed

/-- The item which `prepare_frame` returns refers to the given context and stream, and has a frame
without references. -/
theorem step_prepareFrame {service after : EncoderService} {codecCtx stream : Nat}
    (step : service.step (.prepareFrame codecCtx stream) = some after) :
    ∃ item, after.hands = service.hands ++ [item] ∧ item.codecCtx = some codecCtx ∧
      item.stream = some stream ∧ item.frame = .blank := by
  obtain rfl := Option.some.inj step
  refine ⟨_, rfl, rfl, rfl, ?_⟩
  unfold poolItem
  cases service.pool <;> rfl

/-- The guard puts all items back, one after the other, before `dispatch` returns or throws. -/
theorem guard_runs {service : EncoderService} {threw : Bool}
    (returning : service.phase = .returning threw) :
    ∃ after, machine.run (.replicate service.tmp.length .returnItem ++ [.endDispatch]) service =
      some after := by
  induction tmp : service.tmp generalizing service with
  | nil =>
      have step := step_endDispatch.mpr ⟨threw, returning, tmp, rfl⟩
      exact ⟨_, Machine.run_cons_eq_some.mpr ⟨_, step, rfl⟩⟩
  | cons submission rest ih =>
      have step := step_returnItem.mpr ⟨threw, submission, rest, returning, tmp, rfl⟩
      obtain ⟨after, execution⟩ :=
        @ih { service with tmp := rest, pool := service.pool ++ [submission.item] } returning rfl
      exact ⟨after, Machine.run_cons_eq_some.mpr ⟨_, step, execution⟩⟩

/-- In every reachable state each live item is in exactly one place; a dispatch which returns or
throws has put everything it took back into the pool once; and `prepare_frame` returns clean
items. -/
theorem streamPoll_places {labels : List Label} {service : EncoderService}
    (execution : machine.run labels .initial = some service) :
    ∃ seen, observer.run labels .initial = some seen ∧ seen.service = service ∧
      (∀ id, service.occurrences id = if id ∈ seen.live then 1 else 0) ∧
      (service.phase = .idle → service.tmp = []) ∧
      (∀ threw, service.phase = .returning threw → ∃ after,
        machine.run (.replicate service.tmp.length .returnItem ++ [.endDispatch]) service =
          some after) ∧
      (∀ after, service.step .endDispatch = some after →
        after.tmp = [] ∧ seen.returned = seen.taken ∧ seen.taken.Nodup ∧
          ∀ id ∈ seen.taken, (service.pool.map (·.id)).count id = 1 ∨ id ∈ seen.lent) ∧
      ∀ codecCtx stream after, service.step (.prepareFrame codecCtx stream) = some after →
        ∃ item, after.hands = service.hands ++ [item] ∧ item.codecCtx = some codecCtx ∧
          item.stream = some stream ∧ item.frame = .blank := by
  obtain ⟨seen, observed, rfl⟩ :=
    machine_simulates_observer.run (t := Observed.initial) rfl execution
  rw [List.map_id] at observed
  have placed := Placed.of_run observed
  refine ⟨seen, observed, rfl, placed.occurrences_eq, fun idle => placed.tmp_eq_nil (Or.inl idle),
    fun threw => guard_runs, fun after ended => ?_, fun codecCtx stream after => step_prepareFrame⟩
  obtain ⟨threw, -, empty, rfl⟩ := step_endDispatch.mp ended
  obtain ⟨returned, back⟩ := placed.guard_done empty
  exact ⟨empty, returned, placed.taken_nodup, back⟩

/-- A dropped frame, a frame and a flush; the dispatch of the two throws at the first packet, and
its first item is handed out again before the guard returns the second one. -/
def throwingRun : List Label :=
  [.fill, .prepareFrame 0 5, .fillFrame 0, .dropFrame 0, .prepareFrame 0 5, .fillFrame 0,
    .writeFrame 0 (.accepted [7]), .prepareFrame 0 5, .resetFrame 1, .writeFrame 1 (.accepted []),
    .beginDispatch, .takePending, .receivePacket (.packet 0), .writePacket false, .returnItem,
    .prepareFrame 2 6, .returnItem]

theorem streamPoll_places_after_a_throw :
    ∃ service, machine.run throwingRun .initial = some service ∧
      service.pool = [⟨1, some 0, some 5, .null⟩] ∧ service.hands = [⟨0, some 2, some 6, .blank⟩] ∧
      service.occurrences 0 = 1 ∧
      ∀ after, service.step (.prepareFrame 3 4) = some after →
        ∃ item, after.hands = service.hands ++ [item] ∧ item.codecCtx = some 3 ∧
          item.stream = some 4 ∧ item.frame = .blank := by
  obtain ⟨service, execution, pool, hands⟩ : ∃ service,
      machine.run throwingRun .initial = some service ∧
        service.pool = [⟨1, some 0, some 5, .null⟩] ∧
        service.hands = [⟨0, some 2, some 6, .blank⟩] := ⟨_, rfl, rfl, rfl⟩
  obtain ⟨seen, observed, same, places, -, -, -, clean⟩ := streamPoll_places execution
  have live : 0 ∈ seen.live := by
    obtain rfl : seen = _ := Option.some.inj (observed.symm.trans rfl)
    decide
  exact ⟨service, execution, pool, hands, by rw [places, if_pos live], clean 3 4⟩

end EncoderService
end ShadowCast
