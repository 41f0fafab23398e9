import ShadowCast.Pool

/-!
# The owners of a pool's storage

At every moment the storage at an address has one owner: a call which is constructing an item in it,
a call of `fill` which is about to list its item, a user of the pool, or the list; otherwise it is
not allocated.  A step hands one address over, and everything else stays with its owner.
-/

namespace ShadowCast
namespace Pool

open LinkedRing

/-- Who has the storage at an address. -/
inductive Owner (threads : Nat) where
  | nobody
  | constructing (thread : Fin threads)
  | filling (thread : Fin threads)
  | user
  | list
  deriving DecidableEq, Repr

variable {threads : Nat} {α : Type}

namespace Owner

/-- What the storage holds. -/
def phase : Owner threads → Phase
  | .nobody => .unallocated
  | .constructing _ => .raw
  | .filling _ | .user | .list => .constructed

/-- What has happened to the storage since it was last allocated. -/
def history : Owner threads → List Kind
  | .nobody => []
  | .constructing _ => [.allocated]
  | .filling _ | .user | .list => [.allocated, .constructed]

end Owner

/-- The storage in which a thread constructs an item. -/
def Program.storage : Program α → Option α
  | .getConstruct a | .fillConstruct _ a => some a
  | _ => none

/-- The item which a thread is about to list. -/
def Program.item : Program α → Option α
  | .fillPut _ a => some a
  | _ => none

/-- A thread that has no part of the storage goes on to a program that has none. -/
theorem part_goOn {state : State threads α} {part : Program α → Option α} {thread : Fin threads}
    {program : Program α} (old : part (state.program thread) = none) (new : part program = none)
    (other : Fin threads) :
    part ((state.goOn thread program).program other) = part (state.program other) := by
  change part (Function.update state.program thread program other) = _
  rw [Function.update_apply]
  split
  · next same => rw [same, old, new]
  · rfl

/-- Storage that was allocated several times, one after the other: each time an item was
constructed, destructed and deallocated once, or the construction threw and it was deallocated. -/
inductive Lives : List Kind → Prop
  | none : Lives []
  | life {past : List Kind} (lives : Lives past) :
      Lives (past ++ [.allocated, .constructed, .destructed, .deallocated])
  | failed {past : List Kind} (lives : Lives past) : Lives (past ++ [.allocated, .deallocated])

variable [DecidableEq α]

/-- The events at an address. -/
def eventsAt (log : List (α × Kind)) (a : α) : List Kind :=
  (log.filter fun event => event.1 = a).map Prod.snd

theorem eventsAt_append (log more : List (α × Kind)) (a : α) :
    eventsAt (log ++ more) a = eventsAt log a ++ eventsAt more a := by
  simp [eventsAt]

/-- The owners agree with the list, the users, the calls, the storage and the log. -/
structure Owned (poolList : α) (state : State threads α) (owner : α → Owner threads)
    (listed : List α) : Prop where
  ring : state.links.Ring poolList listed
  list_iff : ∀ a, owner a = .list ↔ a ∈ listed
  user_iff : ∀ a, owner a = .user ↔ a ∈ state.held
  held_nodup : state.held.Nodup
  constructing_iff : ∀ a thread,
    owner a = .constructing thread ↔ (state.program thread).storage = some a
  filling_iff : ∀ a thread, owner a = .filling thread ↔ (state.program thread).item = some a
  phase : ∀ a, state.phase a = (owner a).phase
  outside : owner poolList = .nobody
  events : ∀ a, ∃ past, Lives past ∧ eventsAt state.log a = past ++ (owner a).history
  running : state.stopped = none

/-- The events that take storage from one owner to another. -/
def Hands (before : Owner threads) (kinds : List Kind) (after : Owner threads) : Prop :=
  ∀ past, Lives past → ∃ past', Lives past' ∧
    past ++ before.history ++ kinds = past' ++ after.history

/-- One address has another owner, and what goes with the owners changes there only. -/
theorem handed {owner : α → Owner threads} {P P' : α → Prop} {whose next : Owner threads} {a : α}
    (agrees : ∀ b, owner b = whose ↔ P b)
    (changed : ∀ b, P' b ↔ if b = a then next = whose else P b) (b : α) :
    Function.update owner a next b = whose ↔ P' b := by
  rw [changed, Function.update_apply]
  split
  · rfl
  · exact agrees b

/-- One address is handed over, and everything else stays as it is. -/
theorem Owned.hand {poolList : α} {state after : State threads α} {owner : α → Owner threads}
    {listed listed' : List α} (owned : Owned poolList state owner listed) {a : α}
    {before : Owner threads} (mine : owner a = before) (next : Owner threads) (kinds : List Kind)
    (other : a ≠ poolList)
    (ring : after.links.Ring poolList listed')
    (list_iff : ∀ b, b ∈ listed' ↔ if b = a then next = .list else b ∈ listed)
    (user_iff : ∀ b, b ∈ after.held ↔ if b = a then next = .user else b ∈ state.held)
    (held_nodup : after.held.Nodup)
    (constructing_iff : ∀ b thread, (after.program thread).storage = some b ↔
      if b = a then next = .constructing thread else (state.program thread).storage = some b)
    (filling_iff : ∀ b thread, (after.program thread).item = some b ↔
      if b = a then next = .filling thread else (state.program thread).item = some b)
    (phase : after.phase = Function.update state.phase a next.phase)
    (events : after.log = state.log ++ kinds.map (a, ·)) (hands : Hands before kinds next)
    (running : after.stopped = none) :
    Owned poolList after (Function.update owner a next) listed' := by
  constructor
  case ring => exact ring
  case held_nodup => exact held_nodup
  case running => exact running
  case outside => rw [Function.update_of_ne other.symm, owned.outside]
  case phase =>
    intro b
    rw [phase, Function.update_apply, Function.update_apply]
    split
    · rfl
    · exact owned.phase b
  case events =>
    intro b
    obtain ⟨past, lives, same⟩ := owned.events b
    rw [events, eventsAt_append, same]
    by_cases here : b = a
    · subst here
      rw [Function.update_self]
      have own : eventsAt (kinds.map (b, ·)) b = kinds := by
        simp [eventsAt, List.filter_map, Function.comp_def]
      rw [own]
      rw [mine]
      exact hands past lives
    · rw [Function.update_of_ne here]
      have none : eventsAt (kinds.map (a, ·)) b = [] := by
        simp [eventsAt, Ne.symm here]
      exact ⟨past, lives, by rw [none, List.append_nil]⟩
  case list_iff => exact handed owned.list_iff list_iff
  case user_iff => exact handed owned.user_iff user_iff
  case constructing_iff =>
    intro b thread
    exact handed (owned.constructing_iff · thread) (constructing_iff · thread) b
  case filling_iff =>
    intro b thread
    exact handed (owned.filling_iff · thread) (filling_iff · thread) b

/-! ### What a step does -/

/-- A clearing of the listed items. -/
def State.cleared (state : State threads α) (links : Heap α) (listed : List α) :
    State threads α :=
  { state with
    links
    phase := fun a => if a ∈ listed then .unallocated else state.phase a
    log := state.log ++ listed.flatMap fun a => [(a, .destructed), (a, .deallocated)] }

/-- The effect of a step on a pool which lists some items, up to the links. -/
def Effect (state : State threads α) (listed : List α) (after : State threads α)
    (listed' : List α) : Label threads α → Prop
  | .get thread =>
      match listed with
      | [] => listed' = [] ∧ after = state.goOn thread .getAllocate
      | item :: rest =>
          listed' = rest ∧ after = { state with links := after.links, held := item :: state.held }
  | .fill thread n => listed' = listed ∧ after = state.goOn thread (fillNext n)
  | .allocate thread none => listed' = listed ∧ after = state.goOn thread .idle
  | .allocate thread (some a) =>
      listed' = listed ∧ state.phase a = .unallocated ∧
        (state.program thread = .getAllocate ∧
            after = (state.allocateItem a).goOn thread (.getConstruct a) ∨
          ∃ n, state.program thread = .fillAllocate n ∧
            after = (state.allocateItem a).goOn thread (.fillConstruct n a))
  | .construct thread true =>
      listed' = listed ∧ ∃ a, (state.program thread).storage = some a ∧
        after = (state.deallocateItem a).goOn thread .idle
  | .construct thread false =>
      listed' = listed ∧
        ((∃ a, state.program thread = .getConstruct a ∧
            after = { state.construct a with held := a :: state.held }.goOn thread .idle) ∨
          ∃ n a, state.program thread = .fillConstruct n a ∧
            after = (state.construct a).goOn thread (.fillPut n a))
  | .fillPut thread =>
      ∃ n a, state.program thread = .fillPut n a ∧ listed' = listed ++ [a] ∧
        after = { state with links := after.links }.goOn thread (fillNext n)
  | .put item =>
      listed' = listed ++ [item] ∧
        after = { state with links := after.links, held := state.held.erase item }
  | .relink _ _ _ => listed' = listed ∧ after = { state with links := after.links }
  | .clear _ => listed' = [] ∧ after = state.cleared after.links listed
  | .destroy _ =>
      state.held = [] ∧ (∀ thread, state.program thread = .idle) ∧ listed' = [] ∧
        after = { state.cleared after.links listed with destroyed := true }

/-- The step keeps the owners in agreement, and has its effect. -/
def Keeps (poolList : α) (state : State threads α) (listed : List α) (label : Label threads α)
    (after : State threads α) : Prop :=
  ∃ owner' listed', Owned poolList after owner' listed' ∧ Effect state listed after listed' label

variable {poolList : α} {state after : State threads α} {owner : α → Owner threads}
  {listed : List α}

theorem Owned.listed_of_mem (owned : Owned poolList state owner listed) {a : α}
    (member : a ∈ listed) : owner a = .list := (owned.list_iff a).mpr member

theorem Owned.user_of_mem (owned : Owned poolList state owner listed) {a : α}
    (member : a ∈ state.held) : owner a = .user := (owned.user_iff a).mpr member

theorem Owned.nobody_of_unallocated (owned : Owned poolList state owner listed) {a : α}
    (free : state.phase a = .unallocated) : owner a = .nobody := by
  have phase := owned.phase a
  rw [free] at phase
  cases whose : owner a with
  | nobody => rfl
  | constructing => simp [whose, Owner.phase] at phase
  | filling => simp [whose, Owner.phase] at phase
  | user => simp [whose, Owner.phase] at phase
  | list => simp [whose, Owner.phase] at phase

/-- Storage that has an owner is not that of the list itself. -/
theorem Owned.ne_poolList (owned : Owned poolList state owner listed) {a : α}
    {whose : Owner threads} (mine : owner a = whose) (taken : whose ≠ .nobody) : a ≠ poolList := by
  rintro rfl
  exact taken (mine.symm.trans owned.outside)

theorem Owned.notMem_listed (owned : Owned poolList state owner listed) {a : α}
    {whose : Owner threads} (mine : owner a = whose) (differ : whose ≠ .list) : a ∉ listed :=
  (owned.list_iff a).not.mp (mine ▸ differ)

theorem Owned.notMem_held (owned : Owned poolList state owner listed) {a : α}
    {whose : Owner threads} (mine : owner a = whose) (differ : whose ≠ .user) : a ∉ state.held :=
  (owned.user_iff a).not.mp (mine ▸ differ)

/-- Links of nodes outside the list may change. -/
theorem ring_of_relinked {links : Heap α} (ring : links.Ring poolList listed) {a : α}
    (other : a ≠ poolList) (unlisted : a ∉ listed) (next prev : Option α) :
    ((links.setNext a next).setPrev a prev).Ring poolList listed := by
  refine ring.congr fun y member => ?_
  have differ : y ≠ a := by
    rintro rfl
    rcases List.mem_cons.mp member with same | member
    · exact other same
    · exact unlisted member
  simp [Heap.AgreeAt, differ]

theorem takeFirst_of_nil {links : Heap α} (ring : links.Ring poolList []) :
    takeFirst poolList links = .ok none := by
  rw [takeFirst, if_pos ((IntrusiveList.empty_iff ring).mpr rfl)]
  rfl

theorem takeFirst_of_cons {links : Heap α} {item : α} {rest : List α}
    (ring : links.Ring poolList (item :: rest)) :
    takeFirst poolList links = .ok (some (links.link poolList (rest.headD poolList), item)) := by
  have full : ¬IntrusiveList.empty poolList links = true := by
    rw [IntrusiveList.empty_iff ring]
    simp
  have first : links.next poolList = some item := ring.segment.ends.1
  have erased : IntrusiveList.erase poolList item links =
      .ok (links.link poolList (rest.headD poolList), rest.headD poolList) := by
    have split : links.Ring poolList ([] ++ item :: rest) := ring
    exact IntrusiveList.erase_eq split
  simp only [takeFirst, full, first, IntrusiveList.deref_some, bind, Except.bind, erased]
  rfl

/-- Handing an address over between two other owners. -/
theorem kept {P : α → Prop} {whose before next : Owner threads}
    (agrees : ∀ b, owner b = whose ↔ P b) {a : α} (mine : owner a = before)
    (differ : before ≠ whose) (behind : next ≠ whose) (b : α) :
    P b ↔ if b = a then next = whose else P b := by
  split
  · next same =>
      subst same
      rw [← agrees, mine]
      exact iff_of_false differ behind
  · rfl

theorem Owned.storage_kept (owned : Owned poolList state owner listed) {a : α}
    {before next : Owner threads} (mine : owner a = before)
    (differ : ∀ thread, before ≠ .constructing thread)
    (behind : ∀ thread, next ≠ .constructing thread) (b : α) (thread : Fin threads) :
    (state.program thread).storage = some b ↔
      if b = a then next = .constructing thread else (state.program thread).storage = some b :=
  kept (owned.constructing_iff · thread) mine (differ thread) (behind thread) b

theorem Owned.item_kept (owned : Owned poolList state owner listed) {a : α}
    {before next : Owner threads} (mine : owner a = before)
    (differ : ∀ thread, before ≠ .filling thread) (behind : ∀ thread, next ≠ .filling thread)
    (b : α) (thread : Fin threads) :
    (state.program thread).item = some b ↔
      if b = a then next = .filling thread else (state.program thread).item = some b :=
  kept (owned.filling_iff · thread) mine (differ thread) (behind thread) b

/-- A thread goes on, and either has the address as its new owner or has it no longer. -/
theorem moved {part : Program α → Option α} {own : Fin threads → Owner threads}
    (agrees : ∀ b thread, owner b = own thread ↔ part (state.program thread) = some b) {a : α}
    {before next : Owner threads} {thread : Fin threads} {program : Program α}
    (mine : owner a = before) (old : ∀ b, part (state.program thread) = some b → b = a)
    (new : ∀ b, part program = some b → b = a)
    (next_iff : part program = some a ↔ next = own thread)
    (others : ∀ other, other ≠ thread → before ≠ own other ∧ next ≠ own other) (b : α)
    (other : Fin threads) :
    part (Function.update state.program thread program other) = some b ↔
      if b = a then next = own other else part (state.program other) = some b := by
  rw [Function.update_apply]
  split
  · next same =>
      subst same
      split
      · next here => rw [here, next_iff]
      · next there => exact iff_of_false (fun has => there (new b has)) fun has => there (old b has)
  · next differ =>
      obtain ⟨first, second⟩ := others other differ
      exact kept (agrees · other) mine first second b

theorem Owned.phase_kept (owned : Owned poolList state owner listed) {a : α}
    {before next : Owner threads} (mine : owner a = before) (same : before.phase = next.phase) :
    state.phase = Function.update state.phase a next.phase := by
  rw [← same, ← mine, ← owned.phase a, Function.update_eq_self]

/-- Handing an item over without an event. -/
theorem hands_nil {before behind : Owner threads} (same : before.history = behind.history) :
    Hands before [] behind :=
  fun past lives => ⟨past, lives, by rw [same, List.append_nil]⟩

theorem Owned.goOn (owned : Owned poolList state owner listed) {thread : Fin threads}
    {program : Program α} (own : (state.program thread).storage = none)
    (ownItem : (state.program thread).item = none) (new : program.storage = none)
    (newItem : program.item = none) :
    Owned poolList (state.goOn thread program) owner listed :=
  { owned with
    constructing_iff := fun a other => by
      rw [part_goOn own new]
      exact owned.constructing_iff a other
    filling_iff := fun a other => by
      rw [part_goOn ownItem newItem]
      exact owned.filling_iff a other }

theorem Owned.get (owned : Owned poolList state owner listed) {thread : Fin threads}
    (idle : state.program thread = .idle) :
    Keeps poolList state listed (.get thread)
      (state.attempt (takeFirst poolList state.links) fun
        | some (links, item) => { state with links, held := item :: state.held }
        | none => state.goOn thread .getAllocate) := by
  cases listed with
  | nil =>
      rw [takeFirst_of_nil owned.ring]
      exact ⟨owner, [], owned.goOn (by rw [idle]; rfl) (by rw [idle]; rfl) rfl rfl, rfl, rfl⟩
  | cons item rest =>
      rw [takeFirst_of_cons owned.ring]
      have mine : owner item = .list := owned.listed_of_mem List.mem_cons_self
      have nodup := (List.nodup_cons.mp owned.ring.nodup).2
      have unheld := owned.notMem_held mine nofun
      have ring : (state.links.link poolList (rest.headD poolList)).Ring poolList rest := by
        have split : state.links.Ring poolList ([] ++ item :: rest) := owned.ring
        exact split.link_over
      refine ⟨_, rest, owned.hand mine .user [] (owned.ne_poolList mine nofun) ring
        (by grind) ?_ (List.nodup_cons.mpr ⟨unheld, owned.held_nodup⟩)
        (owned.storage_kept mine nofun nofun)
        (owned.item_kept mine nofun nofun) (owned.phase_kept mine rfl)
        (List.append_nil _).symm (hands_nil rfl) owned.running, rfl, rfl⟩
      intro b
      change b ∈ item :: state.held ↔ _
      grind

theorem Owned.allocateItem (owned : Owned poolList state owner listed) {thread : Fin threads}
    {a : α} {program : Program α} (free : state.phase a = .unallocated) (other : a ≠ poolList)
    (own : (state.program thread).storage = none) (ownItem : (state.program thread).item = none)
    (new : program.storage = some a) (newItem : program.item = none) :
    Owned poolList ((state.allocateItem a).goOn thread program)
      (Function.update owner a (.constructing thread)) listed := by
  have mine := owned.nobody_of_unallocated free
  refine owned.hand mine (.constructing thread) [.allocated] other owned.ring
    (kept owned.list_iff mine nofun nofun) (kept owned.user_iff mine nofun nofun)
    owned.held_nodup
    (moved owned.constructing_iff mine (by simp [own]) (by simp [new]) (by simp [new]) ?_)
    (moved owned.filling_iff mine (by simp [ownItem]) (by simp [newItem]) (by simp [newItem]) ?_)
    rfl rfl ?_ owned.running
  · intro thread' differ
    exact ⟨nofun, by simpa using differ.symm⟩
  · intro thread' differ
    exact ⟨nofun, nofun⟩
  · exact fun past lives => ⟨past, lives, by simp [Owner.history]⟩

/-- A construction throws. -/
theorem Owned.deallocateItem (owned : Owned poolList state owner listed) {thread : Fin threads}
    {a : α} (own : (state.program thread).storage = some a)
    (ownItem : (state.program thread).item = none) :
    Owned poolList ((state.deallocateItem a).goOn thread .idle)
      (Function.update owner a .nobody) listed := by
  have mine : owner a = .constructing thread := (owned.constructing_iff a thread).mpr own
  refine owned.hand mine .nobody [.deallocated] (owned.ne_poolList mine nofun) owned.ring
    (kept owned.list_iff mine nofun nofun) (kept owned.user_iff mine nofun nofun)
    owned.held_nodup
    (moved owned.constructing_iff mine (by simp [own]) nofun (by simp [Program.storage]) ?_)
    (moved owned.filling_iff mine (by simp [ownItem]) nofun (by simp [Program.item]) ?_) rfl rfl ?_
    owned.running
  · intro thread' differ
    exact ⟨by simpa using differ.symm, nofun⟩
  · intro thread' differ
    exact ⟨nofun, nofun⟩
  · exact fun past lives => ⟨_, lives.failed, by simp [Owner.history]⟩

/-- An item of `get` is constructed. -/
theorem Owned.construct_get (owned : Owned poolList state owner listed) {thread : Fin threads}
    {a : α} (own : (state.program thread).storage = some a)
    (ownItem : (state.program thread).item = none) :
    Owned poolList ({ state.construct a with held := a :: state.held }.goOn thread .idle)
      (Function.update owner a .user) listed := by
  have mine : owner a = .constructing thread := (owned.constructing_iff a thread).mpr own
  have other := owned.ne_poolList mine nofun
  have unlisted := owned.notMem_listed mine nofun
  have unheld := owned.notMem_held mine nofun
  refine owned.hand mine .user [.constructed] other (ring_of_relinked owned.ring other unlisted _ _)
    (kept owned.list_iff mine nofun nofun) ?_
    (List.nodup_cons.mpr ⟨unheld, owned.held_nodup⟩)
    (moved owned.constructing_iff mine (by simp [own]) nofun (by simp [Program.storage]) ?_)
    (moved owned.filling_iff mine (by simp [ownItem]) nofun (by simp [Program.item]) ?_) rfl rfl ?_
    owned.running
  · intro b
    change b ∈ a :: state.held ↔ _
    grind
  · intro thread' differ
    exact ⟨by simpa using differ.symm, nofun⟩
  · intro thread' differ
    exact ⟨nofun, nofun⟩
  · exact fun past lives => ⟨past, lives, by simp [Owner.history]⟩

/-- An item of `fill` is constructed. -/
theorem Owned.construct_fill (owned : Owned poolList state owner listed) {thread : Fin threads}
    {a : α} (n : Nat) (own : (state.program thread).storage = some a)
    (ownItem : (state.program thread).item = none) :
    Owned poolList ((state.construct a).goOn thread (.fillPut n a))
      (Function.update owner a (.filling thread)) listed := by
  have mine : owner a = .constructing thread := (owned.constructing_iff a thread).mpr own
  have other := owned.ne_poolList mine nofun
  have unlisted := owned.notMem_listed mine nofun
  refine owned.hand mine (.filling thread) [.constructed] other
    (ring_of_relinked owned.ring other unlisted _ _)
    (kept owned.list_iff mine nofun nofun) (kept owned.user_iff mine nofun nofun)
    owned.held_nodup
    (moved owned.constructing_iff mine (by simp [own]) nofun (by simp [Program.storage]) ?_)
    (moved owned.filling_iff mine (by simp [ownItem]) (by simp [Program.item])
      (by simp [Program.item]) ?_)
    rfl rfl ?_ owned.running
  · intro thread' differ
    exact ⟨by simpa using differ.symm, nofun⟩
  · intro thread' differ
    exact ⟨nofun, by simpa using differ.symm⟩
  · exact fun past lives => ⟨past, lives, by simp [Owner.history]⟩

/-- An item of another owner is linked in at the end of the list. -/
theorem Owned.pushBack (owned : Owned poolList state owner listed) {a : α}
    {whose : Owner threads} (mine : owner a = whose) (taken : whose ≠ .nobody)
    (unlisted : whose ≠ .list) :
    ∃ links, IntrusiveList.pushBack poolList a state.links = .ok links ∧
      links.Ring poolList (listed ++ [a]) := by
  have other := owned.ne_poolList mine taken
  have absent := owned.notMem_listed mine unlisted
  have ring : state.links.Ring poolList (listed ++ []) := by simpa using owned.ring
  exact ⟨_, IntrusiveList.pushBack_eq owned.ring a,
    ring.link_in (by simpa using ⟨other, absent⟩)⟩

theorem Owned.fillPut (owned : Owned poolList state owner listed) {thread : Fin threads} {n : Nat}
    {a : α} (program : state.program thread = .fillPut n a) :
    Keeps poolList state listed (.fillPut thread)
      (state.attempt (IntrusiveList.pushBack poolList a state.links) fun links =>
        { state with links }.goOn thread (fillNext n)) := by
  have own : (state.program thread).item = some a := by rw [program]; rfl
  have mine : owner a = .filling thread := (owned.filling_iff a thread).mpr own
  obtain ⟨links, done, ring⟩ := owned.pushBack mine nofun nofun
  have next : (fillNext n : Program α).storage = none ∧ (fillNext n : Program α).item = none := by
    cases n <;> exact ⟨rfl, rfl⟩
  rw [done]
  refine ⟨_, _, owned.hand mine .list [] (owned.ne_poolList mine nofun) ring
    (by grind) (kept owned.user_iff mine nofun nofun) owned.held_nodup
    (moved owned.constructing_iff mine (by simp [program, Program.storage]) (by simp [next.1])
      (by simp [next.1]) ?_)
    (moved owned.filling_iff mine (by simp [own]) (by simp [next.2]) (by simp [next.2]) ?_)
    (owned.phase_kept mine rfl) (List.append_nil _).symm
    (hands_nil rfl) owned.running, n, a, program, rfl, rfl⟩
  · intro thread' differ
    exact ⟨nofun, nofun⟩
  · intro thread' differ
    exact ⟨by simpa using differ.symm, nofun⟩

/-- A user gives an item to the list. -/
theorem Owned.putItem (owned : Owned poolList state owner listed) {item : α}
    (held : item ∈ state.held) {links : Heap α} (ring : links.Ring poolList (listed ++ [item])) :
    Owned poolList { state with links, held := state.held.erase item }
      (Function.update owner item .list) (listed ++ [item]) := by
  have mine : owner item = .user := owned.user_of_mem held
  refine owned.hand mine .list [] (owned.ne_poolList mine nofun) ring (by grind)
    ?_ (owned.held_nodup.erase item) (owned.storage_kept mine nofun nofun)
    (owned.item_kept mine nofun nofun) (owned.phase_kept mine rfl)
    (List.append_nil _).symm (hands_nil rfl) owned.running
  intro b
  change b ∈ state.held.erase item ↔ _
  rw [owned.held_nodup.mem_erase_iff]
  grind

theorem Owned.put (owned : Owned poolList state owner listed) {item : α}
    (held : item ∈ state.held) :
    Keeps poolList state listed (.put item)
      (state.attempt (IntrusiveList.pushBack poolList item state.links) fun links =>
        { state with links, held := state.held.erase item }) := by
  have mine : owner item = .user := owned.user_of_mem held
  obtain ⟨links, done, ring⟩ := owned.pushBack mine nofun nofun
  rw [done]
  exact ⟨_, _, owned.putItem held ring, rfl, rfl⟩

theorem Owned.relink (owned : Owned poolList state owner listed) {node : α}
    (foreign : node ∈ state.held ∨ state.phase node = .unallocated ∧ node ≠ poolList)
    (next prev : Option α) :
    Keeps poolList state listed (.relink node next prev)
      { state with links := (state.links.setNext node next).setPrev node prev } := by
  have apart : node ≠ poolList ∧ owner node ≠ .list := by
    rcases foreign with held | ⟨free, other⟩
    · have mine := owned.user_of_mem held
      exact ⟨owned.ne_poolList mine nofun, by rw [mine]; nofun⟩
    · exact ⟨other, by rw [owned.nobody_of_unallocated free]; nofun⟩
  have ring := ring_of_relinked owned.ring apart.1 ((owned.list_iff node).not.mp apart.2) next prev
  exact ⟨owner, listed, { owned with ring }, rfl, rfl⟩

end Pool
end ShadowCast
