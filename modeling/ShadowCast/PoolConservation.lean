import ShadowCast.PoolOwners

/-!
# A pool conserves its items

Every step of a pool hands one address over, but for `clear` and the guard, whose loops hand over
one address after the other.  So the owners agree after every run, and the log of an address that
nobody owns any more consists of whole lives.
-/

namespace ShadowCast
namespace Pool

open LinkedRing

variable {threads : Nat} {α : Type} [DecidableEq α] {poolList : α} {state after : State threads α}
  {owner : α → Owner threads} {listed : List α}

/-! ### Clearing -/

/-- One round of the loop of `clear` destroys the first item. -/
theorem Owned.destroyFirst {item : α} {rest : List α}
    (owned : Owned poolList state owner (item :: rest)) :
    ∃ links, IntrusiveList.erase poolList item state.links = .ok (links, rest.headD poolList) ∧
      Owned poolList ((({ state with links }).destruct item).deallocateItem item)
        (Function.update owner item .nobody) rest := by
  have mine : owner item = .list := owned.listed_of_mem List.mem_cons_self
  have nodup := (List.nodup_cons.mp owned.ring.nodup).2
  have split : state.links.Ring poolList ([] ++ item :: rest) := owned.ring
  refine ⟨_, IntrusiveList.erase_eq split, owned.hand mine .nobody [.destructed, .deallocated]
    (owned.ne_poolList mine nofun) split.link_over (by grind)
    (kept owned.user_iff mine nofun nofun) owned.held_nodup
    (owned.storage_kept mine nofun nofun)
    (owned.item_kept mine nofun nofun) ?_ ?_ ?_ owned.running⟩
  · exact Function.update_idem ..
  · simp [State.deallocateItem, State.destruct, State.record]
  · exact fun past lives => ⟨_, lives.life, by simp [Owner.history]⟩

/-- A round and the rounds behind it. -/
theorem cleared_destroyFirst (state : State threads α) (links links' : Heap α) (item : α)
    (rest : List α) :
    ((({ state with links }).destruct item).deallocateItem item).cleared links' rest =
      state.cleared links' (item :: rest) := by
  have phases : (fun a => if a ∈ rest then Phase.unallocated
      else Function.update (Function.update state.phase item .raw) item .unallocated a) =
        fun a => if a ∈ item :: rest then .unallocated else state.phase a := by
    funext a
    rw [Function.update_idem, Function.update_apply]
    grind
  simp only [State.cleared, State.deallocateItem, State.destruct, State.record, phases]
  simp

/-- With enough rounds the loop of `clear` destroys all listed items, and it needs that many. -/
theorem Owned.clearLoop (owned : Owned poolList state owner listed) (fuel : Nat) :
    if listed.length < fuel then
      ∃ links owner', Pool.clearLoop poolList fuel (listed.headD poolList) state =
          .ok (state.cleared links listed) ∧
        Owned poolList (state.cleared links listed) owner' []
    else Pool.clearLoop poolList fuel (listed.headD poolList) state = .error .outOfFuel := by
  induction listed generalizing state owner fuel with
  | nil =>
      cases fuel with
      | zero => rw [if_neg (by simp)]; rfl
      | succ fuel =>
          have same : state.cleared state.links [] = state := by simp [State.cleared]
          rw [if_pos (by simp)]
          exact ⟨state.links, owner, by rw [same]; exact if_pos rfl, by rwa [same]⟩
  | cons item rest ih =>
      cases fuel with
      | zero => rw [if_neg (by simp)]; rfl
      | succ fuel =>
          obtain ⟨links, erased, owned'⟩ := owned.destroyFirst
          have other : item ≠ poolList :=
            owned.ne_poolList (owned.listed_of_mem List.mem_cons_self) nofun
          have round : Pool.clearLoop poolList (fuel + 1) ((item :: rest).headD poolList) state =
              Pool.clearLoop poolList fuel (rest.headD poolList)
                ((({ state with links }).destruct item).deallocateItem item) := by
            rw [List.headD_cons, Pool.clearLoop, if_neg other]
            simp only [erased, bind, Except.bind]
          have later := ih owned' fuel
          rw [round]
          simp only [cleared_destroyFirst] at later
          by_cases enough : rest.length < fuel
          · rw [if_pos enough] at later
            rw [if_pos (by simpa using enough)]
            exact later
          · rw [if_neg enough] at later
            rw [if_neg (by simpa using enough)]
            exact later

theorem Owned.clear (owned : Owned poolList state owner listed) (fuel : Nat) :
    if listed.length < fuel then
      ∃ links owner', Pool.clear poolList fuel state = some (state.cleared links listed) ∧
        Owned poolList (state.cleared links listed) owner' []
    else Pool.clear poolList fuel state = none := by
  have first : IntrusiveList.deref (state.links.next poolList) = .ok (listed.headD poolList) := by
    rw [owned.ring.segment.ends.1]
    rfl
  have loop := owned.clearLoop fuel
  split at loop
  case isTrue enough =>
    obtain ⟨links, owner', done, owned'⟩ := loop
    rw [if_pos enough]
    exact ⟨links, owner', by simp only [Pool.clear, first, done], owned'⟩
  case isFalse short =>
    rw [if_neg short]
    simp only [Pool.clear, first, loop]

/-- A clearing that ends has destroyed all listed items. -/
theorem Owned.of_clear (owned : Owned poolList state owner listed) {fuel : Nat}
    (done : Pool.clear poolList fuel state = some after) :
    ∃ links owner', after = state.cleared links listed ∧ Owned poolList after owner' [] := by
  have clearing := owned.clear fuel
  split at clearing
  case isTrue =>
    obtain ⟨links, owner', same, owned'⟩ := clearing
    obtain rfl : state.cleared links listed = after := by simpa [same] using done
    exact ⟨links, owner', rfl, owned'⟩
  case isFalse =>
    rw [clearing] at done
    contradiction

/-! ### Returning a list of items -/

/-- One round of the destructor of the guard gives its first item back. -/
theorem Owned.returnFirst {list item : α} {rest : List α}
    (owned : Owned poolList state owner listed) (other : list ≠ poolList) (unlisted : list ∉ listed)
    (ring : state.links.Ring list (item :: rest)) (held : ∀ a ∈ item :: rest, a ∈ state.held) :
    ∃ erased links, IntrusiveList.erase list item state.links = .ok (erased, rest.headD list) ∧
      IntrusiveList.pushBack poolList item erased = .ok links ∧ links.Ring list rest ∧
      Owned poolList { state with links, held := state.held.erase item }
        (Function.update owner item .list) (listed ++ [item]) := by
  have split : state.links.Ring list ([] ++ item :: rest) := ring
  -- The nodes of the two lists are different.
  have apart : ∀ y ∈ list :: item :: rest, y ∉ poolList :: listed := by
    intro y member
    rcases List.mem_cons.mp member with rfl | member
    · grind
    · have mine := owned.user_of_mem (held y member)
      have foreign := owned.ne_poolList mine (by simp)
      have absent := owned.notMem_listed mine (by simp)
      grind
  have nodup := ring.nodup
  have target := Heap.headD_mem rest list
  have ours : (state.links.link list (rest.headD list)).Ring poolList listed :=
    owned.ring.congr fun y member => Heap.agreeAt_link (by grind) (by grind)
  have last := Heap.getLastD_mem listed poolList
  have ours' : (state.links.link list (rest.headD list)).Ring poolList (listed ++ []) := by
    simpa using ours
  refine ⟨_, _, IntrusiveList.erase_eq split, IntrusiveList.pushBack_eq ours item, ?_,
    owned.putItem (held item List.mem_cons_self) (ours'.link_in (by grind))⟩
  have theirs : (state.links.link list (rest.headD list)).Ring list rest := split.link_over
  refine theirs.congr fun y member => ?_
  have first : y ≠ listed.getLastD poolList := by grind
  have second : y ≠ item := by grind
  have third : y ≠ poolList := by grind
  exact ⟨by simp only [Heap.link_next, if_neg first, if_neg second],
    by simp only [Heap.link_prev, if_neg second, if_neg third]⟩

/-- The destructor of the guard gives all its items back, in their order. -/
theorem Owned.returnLoop {list : α} {items : List α} (owned : Owned poolList state owner listed)
    (other : list ≠ poolList) (unlisted : list ∉ listed) (ring : state.links.Ring list items)
    (held : ∀ a ∈ items, a ∈ state.held) {fuel : Nat} (enough : items.length < fuel) :
    ∃ links owner', Pool.returnLoop poolList list fuel (items.headD list) state =
        .ok { state with links, held := state.held.diff items } ∧
      links.Ring list [] ∧
      Owned poolList { state with links, held := state.held.diff items } owner'
        (listed ++ items) := by
  induction items generalizing state owner listed fuel with
  | nil =>
      obtain ⟨fuel, rfl⟩ := Nat.exists_eq_add_of_lt enough
      refine ⟨state.links, owner, if_pos rfl, ring, ?_⟩
      simpa using owned
  | cons item rest ih =>
      obtain ⟨fuel, rfl⟩ : ∃ more, fuel = more + 1 := ⟨fuel - 1, by simp at enough; omega⟩
      obtain ⟨erased, links, erases, pushes, ring', owned'⟩ :=
        owned.returnFirst other unlisted ring held
      have nodup := ring.nodup
      have differ : item ≠ list := by grind
      have later := ih owned' (by grind) ring' (fun a member => ?_) (by simpa using enough)
      · obtain ⟨final, owner', runs, empty, owned''⟩ := later
        refine ⟨final, owner', ?_, empty, ?_⟩
        · rw [List.headD_cons, Pool.returnLoop, if_neg differ, List.diff_cons]
          simp only [erases, pushes, bind, Except.bind]
          exact runs
        · rw [List.diff_cons]
          simpa using owned''
      · change a ∈ state.held.erase item
        rw [owned.held_nodup.mem_erase_iff]
        exact ⟨by grind, held a (List.mem_cons_of_mem item member)⟩

theorem Owned.returnToPool {list : α} {items : List α} (owned : Owned poolList state owner listed)
    (other : list ≠ poolList) (unlisted : list ∉ listed) (ring : state.links.Ring list items)
    (held : ∀ a ∈ items, a ∈ state.held) {fuel : Nat} (enough : items.length < fuel) :
    ∃ links owner', Pool.returnToPool poolList list fuel state =
        .ok { state with links, held := state.held.diff items } ∧
      links.Ring list [] ∧
      Owned poolList { state with links, held := state.held.diff items } owner'
        (listed ++ items) := by
  have first : IntrusiveList.deref (state.links.next list) = .ok (items.headD list) := by
    rw [ring.segment.ends.1]
    rfl
  have loop := owned.returnLoop other unlisted ring held enough
  simpa only [Pool.returnToPool, first, bind, Except.bind] using loop

/-! ### All steps -/

/-- The allocator throws. -/
theorem Owned.allocate_none (owned : Owned poolList state owner listed) {thread : Fin threads}
    {next : α → Program α} (own : (state.program thread).storage = none)
    (ownItem : (state.program thread).item = none)
    (done : allocate poolList state thread none next = some after) :
    Keeps poolList state listed (.allocate thread none) after := by
  obtain rfl : state.goOn thread .idle = after := Option.some.inj done
  exact ⟨owner, listed, owned.goOn own ownItem rfl rfl, rfl, rfl⟩

/-- The allocator returns some storage. -/
theorem Owned.allocate_some (owned : Owned poolList state owner listed) {thread : Fin threads}
    {a : α} {next : α → Program α} (own : (state.program thread).storage = none)
    (ownItem : (state.program thread).item = none) (new : (next a).storage = some a)
    (newItem : (next a).item = none)
    (done : allocate poolList state thread (some a) next = some after) :
    Owned poolList after (Function.update owner a (.constructing thread)) listed ∧
      state.phase a = .unallocated ∧ after = (state.allocateItem a).goOn thread (next a) := by
  obtain ⟨⟨free, other⟩, same⟩ := Option.ite_none_right_eq_some.mp done
  obtain rfl := Option.some.inj same
  exact ⟨owned.allocateItem free other own ownItem new newItem, free, rfl⟩

theorem Owned.step_allocate (owned : Owned poolList state owner listed) {thread : Fin threads}
    {storage : Option α}
    (done : Pool.step poolList state (.allocate thread storage) = some after) :
    Keeps poolList state listed (.allocate thread storage) after := by
  obtain ⟨-, done⟩ := Option.ite_none_left_eq_some.mp done
  dsimp only at done
  split at done
  case h_1 program =>
    have own : (state.program thread).storage = none := by rw [program]; rfl
    have ownItem : (state.program thread).item = none := by rw [program]; rfl
    cases storage with
    | none => exact owned.allocate_none own ownItem done
    | some a =>
        obtain ⟨owned', free, same⟩ := owned.allocate_some own ownItem rfl rfl done
        exact ⟨_, listed, owned', rfl, free, .inl ⟨program, same⟩⟩
  case h_2 n program =>
    have own : (state.program thread).storage = none := by rw [program]; rfl
    have ownItem : (state.program thread).item = none := by rw [program]; rfl
    cases storage with
    | none => exact owned.allocate_none own ownItem done
    | some a =>
        obtain ⟨owned', free, same⟩ := owned.allocate_some own ownItem rfl rfl done
        exact ⟨_, listed, owned', rfl, free, .inr ⟨n, program, same⟩⟩
  case h_3 => contradiction

theorem Owned.step_construct (owned : Owned poolList state owner listed) {thread : Fin threads}
    {throws : Bool} (done : Pool.step poolList state (.construct thread throws) = some after) :
    Keeps poolList state listed (.construct thread throws) after := by
  obtain ⟨-, done⟩ := Option.ite_none_left_eq_some.mp done
  dsimp only at done
  split at done
  case h_1 a program =>
    have own : (state.program thread).storage = some a := by rw [program]; rfl
    have ownItem : (state.program thread).item = none := by rw [program]; rfl
    cases throws with
    | true =>
        obtain rfl := Option.some.inj done
        exact ⟨_, listed, owned.deallocateItem own ownItem, rfl, a, own, rfl⟩
    | false =>
        obtain rfl := Option.some.inj done
        exact ⟨_, listed, owned.construct_get own ownItem, rfl, .inl ⟨a, program, rfl⟩⟩
  case h_2 n a program =>
    have own : (state.program thread).storage = some a := by rw [program]; rfl
    have ownItem : (state.program thread).item = none := by rw [program]; rfl
    cases throws with
    | true =>
        obtain rfl := Option.some.inj done
        exact ⟨_, listed, owned.deallocateItem own ownItem, rfl, a, own, rfl⟩
    | false =>
        obtain rfl := Option.some.inj done
        exact ⟨_, listed, owned.construct_fill n own ownItem, rfl, .inr ⟨n, a, program, rfl⟩⟩
  case h_3 => contradiction

/-- Every step keeps the owners in agreement. -/
theorem Owned.step (owned : Owned poolList state owner listed) {label : Label threads α}
    (done : Pool.step poolList state label = some after) :
    Keeps poolList state listed label after := by
  match label with
  | .allocate thread storage => exact owned.step_allocate done
  | .construct thread throws => exact owned.step_construct done
  | .get thread =>
      obtain ⟨-, done⟩ := Option.ite_none_left_eq_some.mp done
      obtain ⟨idle, done⟩ := Option.ite_none_right_eq_some.mp done
      exact Option.some.inj done ▸ owned.get idle
  | .fill thread n =>
      obtain ⟨-, done⟩ := Option.ite_none_left_eq_some.mp done
      obtain ⟨idle, done⟩ := Option.ite_none_right_eq_some.mp done
      obtain rfl := Option.some.inj done
      exact ⟨owner, listed, owned.goOn (by rw [idle]; rfl) (by rw [idle]; rfl)
        (by cases n <;> rfl) (by cases n <;> rfl), rfl, rfl⟩
  | .fillPut thread =>
      obtain ⟨-, done⟩ := Option.ite_none_left_eq_some.mp done
      dsimp only at done
      split at done
      case h_1 n a program => exact Option.some.inj done ▸ owned.fillPut program
      case h_2 => contradiction
  | .put item =>
      obtain ⟨-, done⟩ := Option.ite_none_left_eq_some.mp done
      obtain ⟨held, done⟩ := Option.ite_none_right_eq_some.mp done
      exact Option.some.inj done ▸ owned.put held
  | .relink node next prev =>
      obtain ⟨-, done⟩ := Option.ite_none_left_eq_some.mp done
      obtain ⟨foreign, done⟩ := Option.ite_none_right_eq_some.mp done
      exact Option.some.inj done ▸ owned.relink foreign next prev
  | .clear fuel =>
      obtain ⟨-, done⟩ := Option.ite_none_left_eq_some.mp done
      obtain ⟨links, owner', rfl, owned'⟩ := owned.of_clear done
      exact ⟨owner', [], owned', rfl, rfl⟩
  | .destroy fuel =>
      obtain ⟨-, done⟩ := Option.ite_none_left_eq_some.mp done
      obtain ⟨⟨unused, idle⟩, done⟩ := Option.ite_none_right_eq_some.mp done
      obtain ⟨middle, clearing, rfl⟩ := Option.map_eq_some_iff.mp done
      obtain ⟨links, owner', rfl, owned'⟩ := owned.of_clear clearing
      refine ⟨owner', [], ?_, unused, idle, rfl, rfl⟩
      exact ⟨owned'.ring, owned'.list_iff, owned'.user_iff, owned'.held_nodup,
        owned'.constructing_iff, owned'.filling_iff, owned'.phase, owned'.outside, owned'.events,
        owned'.running⟩

/-- A step changes the program of one thread at most, and only the destructor destroys the pool.  A
thread starts to make an item for `get` only when the list is empty. -/
structure Frame (state : State threads α) (listed : List α) (after : State threads α)
    (label : Label threads α) : Prop where
  destroyed : after.destroyed = state.destroyed ∨ ∃ fuel, label = .destroy fuel
  program : after.program = state.program ∨ ∃ thread program,
    after.program = Function.update state.program thread program ∧
      (program = .getAllocate → label = .get thread ∧ listed = [])

theorem Effect.frame {listed' : List α} {label : Label threads α}
    (effect : Effect state listed after listed' label) : Frame state listed after label := by
  have stays {before : State threads α} (same : after = before)
      (destroyed : before.destroyed = state.destroyed ∨ ∃ fuel, label = .destroy fuel)
      (programs : before.program = state.program) : Frame state listed after label := by
    rw [← same] at destroyed programs
    exact ⟨destroyed, .inl programs⟩
  have goes {before : State threads α} {thread : Fin threads} {program : Program α}
      (same : after = before.goOn thread program) (destroyed : before.destroyed = state.destroyed)
      (programs : before.program = state.program)
      (enters : program = .getAllocate → label = .get thread ∧ listed = []) :
      Frame state listed after label := by
    have updated : after.program = Function.update state.program thread program := by
      rw [same, ← programs]
      rfl
    exact ⟨.inl (by rw [same]; exact destroyed), .inr ⟨thread, program, updated, enters⟩⟩
  match label with
  | .get thread =>
      cases listed with
      | nil => exact goes effect.2 rfl rfl fun _ => ⟨rfl, rfl⟩
      | cons item rest => exact stays effect.2 (.inl rfl) rfl
  | .fill thread n => exact goes effect.2 rfl rfl (by cases n <;> nofun)
  | .allocate thread none => exact goes effect.2 rfl rfl nofun
  | .allocate thread (some a) =>
      obtain ⟨-, -, ⟨-, same⟩ | ⟨n, -, same⟩⟩ := effect <;> exact goes same rfl rfl nofun
  | .construct thread true =>
      obtain ⟨-, a, -, same⟩ := effect
      exact goes same rfl rfl nofun
  | .construct thread false =>
      obtain ⟨-, ⟨a, -, same⟩ | ⟨n, a, -, same⟩⟩ := effect <;> exact goes same rfl rfl nofun
  | .fillPut thread =>
      obtain ⟨n, a, -, -, same⟩ := effect
      exact goes same rfl rfl (by cases n <;> nofun)
  | .put item => exact stays effect.2 (.inl rfl) rfl
  | .relink node next prev => exact stays effect.2 (.inl rfl) rfl
  | .clear fuel => exact stays effect.2 (.inl rfl) rfl
  | .destroy fuel => exact stays effect.2.2.2 (.inr ⟨fuel, rfl⟩) rfl

theorem Effect.entered {listed' : List α} {label : Label threads α}
    (effect : Effect state listed after listed' label) {other : Fin threads}
    (entered : after.program other = .getAllocate) :
    state.program other = .getAllocate ∨ label = .get other ∧ listed = [] := by
  rcases effect.frame.program with same | ⟨thread, program, same, enters⟩
  · rw [same] at entered
    exact .inl entered
  · rw [same, Function.update_apply] at entered
    split at entered
    · next mine => exact .inr (mine ▸ enters entered)
    · exact .inl entered

/-! ### All runs -/

theorem start_owned :
    Owned poolList (start poolList : State threads α) (fun _ => .nobody) [] where
  ring := IntrusiveList.construct_ring ..
  list_iff := by simp
  user_iff := by simp [start]
  held_nodup := List.nodup_nil
  constructing_iff := by simp [start, Program.storage]
  filling_iff := by simp [start, Program.item]
  phase _ := rfl
  outside := rfl
  events _ := ⟨[], .none, rfl⟩
  running := rfl

/-- What every run keeps: the owners agree, and a destroyed pool has no items left. -/
def Conserved (poolList : α) (state : State threads α) : Prop :=
  ∃ owner listed, Owned poolList state owner listed ∧
    (state.destroyed = true → ∀ a, owner a = .nobody)

theorem step_conserved (conserved : Conserved poolList state) {label : Label threads α}
    (done : step poolList state label = some after) : Conserved poolList after := by
  obtain ⟨owner, listed, owned, -⟩ := conserved
  have going : state.destroyed = false := by
    have := (Option.ite_none_left_eq_some.mp done).1
    grind
  obtain ⟨owner', listed', owned', effect⟩ := owned.step done
  refine ⟨owner', listed', owned', fun ended a => ?_⟩
  obtain same | ⟨fuel, rfl⟩ := effect.frame.destroyed
  · rw [same, going] at ended
    contradiction
  obtain ⟨unused, idle, rfl, same⟩ := effect
  have programs : ∀ thread, after.program thread = .idle := by
    rw [same]
    exact idle
  cases whose : owner' a with
  | nobody => rfl
  | constructing thread =>
      have := (owned'.constructing_iff a thread).mp whose
      rw [programs] at this
      contradiction
  | filling thread =>
      have := (owned'.filling_iff a thread).mp whose
      rw [programs] at this
      contradiction
  | user =>
      have member := (owned'.user_iff a).mp whose
      rw [same] at member
      change a ∈ state.held at member
      rw [unused] at member
      contradiction
  | list => exact absurd ((owned'.list_iff a).mp whose) List.not_mem_nil

theorem run_conserved {labels : List (Label threads α)} {final : State threads α}
    (execution : (machine poolList).run labels (start poolList) = some final) :
    Conserved poolList final :=
  Machine.run_invariant (P := Conserved poolList) (fun conserved done =>
    step_conserved conserved done) ⟨_, _, start_owned, nofun⟩ execution

theorem Owned.disjoint (owned : Owned poolList state owner listed) :
    (state.held ++ listed).Nodup := by
  refine List.nodup_append.mpr ⟨owned.held_nodup, (List.nodup_cons.mp owned.ring.nodup).2, ?_⟩
  rintro a held b listed rfl
  have mine := owned.user_of_mem held
  rw [owned.listed_of_mem listed] at mine
  contradiction

/-- With enough rounds, `clear` and the destructor end. -/
theorem Owned.clear_isSome (owned : Owned poolList state owner listed) {fuel : Nat}
    (going : state.destroyed = false) (enough : listed.length < fuel) :
    (Pool.step poolList state (.clear fuel)).isSome ∧
      (state.held = [] → (∀ thread, state.program thread = .idle) →
        (Pool.step poolList state (.destroy fuel)).isSome) := by
  have clearing := owned.clear fuel
  rw [if_pos enough] at clearing
  obtain ⟨links, owner', done, -⟩ := clearing
  have runs : ¬(state.destroyed = true ∨ state.stopped.isSome = true) := by
    simp [going, owned.running]
  constructor
  · simp only [Pool.step, if_neg runs, done, Option.isSome_some]
  · intro unused idle
    simp only [Pool.step, if_neg runs, if_pos (And.intro unused idle), done, Option.map_some,
      Option.isSome_some]

/-- A pool conserves its items.  In every state that is reached, every item has one owner, and no
item is held twice or both held and listed.  Every step has its effect: in particular `get` takes a
listed item if there is one, a construction that throws only gives its storage back, and `clear`,
which ends, destroys the listed items.  At the end, all storage has been given back, and each item
in it was constructed and destructed once. -/
theorem conserves {labels : List (Label threads α)} {final : State threads α}
    (execution : (machine poolList).run labels (start poolList) = some final) :
    ∃ owner listed, Owned poolList final owner listed ∧ (final.held ++ listed).Nodup ∧
      (∀ label after, step poolList final label = some after →
        Keeps poolList final listed label after ∧
          ∀ thread, after.program thread = .getAllocate →
            final.program thread = .getAllocate ∨ label = .get thread ∧ listed = []) ∧
      (∀ fuel, final.destroyed = false → listed.length < fuel →
        (step poolList final (.clear fuel)).isSome ∧
          (final.held = [] → (∀ thread, final.program thread = .idle) →
            (step poolList final (.destroy fuel)).isSome)) ∧
      (final.destroyed = true →
        ∀ a, final.phase a = .unallocated ∧ Lives (eventsAt final.log a)) := by
  obtain ⟨owner, listed, owned, nobody⟩ := run_conserved execution
  refine ⟨owner, listed, owned, owned.disjoint, fun label after done => ?_,
    fun fuel going enough => owned.clear_isSome going enough, fun ended a => ?_⟩
  · have keeps := owned.step done
    refine ⟨keeps, fun thread entered => ?_⟩
    obtain ⟨_, _, _, effect⟩ := keeps
    exact effect.entered entered
  · obtain ⟨past, lives, events⟩ := owned.events a
    rw [nobody ended a, Owner.history, List.append_nil] at events
    exact ⟨by rw [owned.phase, nobody ended a]; rfl, by rwa [events]⟩

/-- Two threads find the list empty and make an item each; the second construction throws. -/
theorem conserves_of_two_threads :
    ∃ final : State 2 ℕ,
      (machine 0).run [.get 0, .get 1, .allocate 0 (some 1), .construct 0 false, .put 1,
        .allocate 1 (some 2), .construct 1 true, .get 1, .fill 0 2, .allocate 0 (some 2),
        .construct 0 false, .fillPut 0, .allocate 0 none, .relink 1 (some 7) none, .put 1,
        .clear 3, .destroy 1] (start 0) = some final ∧
      eventsAt final.log 2 = [.allocated, .deallocated] ++
        [.allocated, .constructed, .destructed, .deallocated] ∧
      ∀ a, final.phase a = .unallocated ∧ Lives (eventsAt final.log a) := by
  have runs : ((machine 0).run [.get 0, .get 1, .allocate 0 (some 1), .construct 0 false, .put 1,
      .allocate 1 (some 2), .construct 1 true, .get 1, .fill 0 2, .allocate 0 (some 2),
      .construct 0 false, .fillPut 0, .allocate 0 none, .relink 1 (some 7) none, .put 1,
      .clear 3, .destroy 1] (start 0 : State 2 ℕ)).map
        (fun final => (final.destroyed, eventsAt final.log 2)) =
      some (true, [.allocated, .deallocated] ++
        [.allocated, .constructed, .destructed, .deallocated]) := by
    decide +kernel
  obtain ⟨final, execution, same⟩ := Option.map_eq_some_iff.mp runs
  obtain ⟨ended, events⟩ := Prod.mk.inj same
  obtain ⟨-, -, -, -, -, -, gone⟩ := conserves execution
  exact ⟨final, execution, events, gone ended⟩

end Pool
end ShadowCast
