import ShadowCast.IntrusiveList
import ShadowCast.Machine
import Mathlib.Data.Fintype.Basic

/-!
# The pool

A pool keeps the items that nobody uses in an intrusive list.  `get` takes the first of them, or
makes a new item if there is none; `put` gives an item back.  In a synchronized pool a mutex guards
the list, and between looking at the list and constructing an item `get` does not hold it.

Storage is allocated, an item is constructed in it, and later the item is destructed and its storage
deallocated.  The log records these events for every address.
-/

namespace ShadowCast
namespace Pool

open LinkedRing

/-- What can happen to the storage at an address. -/
inductive Kind where
  | allocated
  | constructed
  | destructed
  | deallocated
  deriving DecidableEq, Repr

/-- What the storage at an address holds. -/
inductive Phase where
  | unallocated
  | raw
  | constructed
  deriving DecidableEq, Repr

/-- What a thread does. -/
inductive Program (α : Type) where
  | idle
  /-- `get` has found the list empty. -/
  | getAllocate
  | getConstruct (storage : α)
  /-- `fill` makes an item, and `n` more afterwards. -/
  | fillAllocate (n : Nat)
  | fillConstruct (n : Nat) (storage : α)
  | fillPut (n : Nat) (item : α)
  deriving DecidableEq, Repr

/-- A pool, its items, the calls of `threads` threads and the items its users hold. -/
structure State (threads : Nat) (α : Type) where
  /-- The links of all items. -/
  links : Heap α
  phase : α → Phase
  /-- The items that users have got and not put back. -/
  held : List α
  program : Fin threads → Program α
  log : List (α × Kind)
  destroyed : Bool
  /-- An operation on the list has failed. -/
  stopped : Option IntrusiveList.Stop

variable {threads : Nat} {α : Type} [DecidableEq α]

namespace State

/-- Note an event. -/
def record (state : State threads α) (a : α) (kind : Kind) (phase : Phase) : State threads α :=
  { state with
    phase := Function.update state.phase a phase
    log := state.log ++ [(a, kind)] }

/-- `allocate_item`, which returned. -/
def allocateItem (state : State threads α) (a : α) : State threads α :=
  state.record a .allocated .raw

/-- `construct`, which returned.  The links of a new item are null. -/
def construct (state : State threads α) (a : α) : State threads α :=
  { state.record a .constructed .constructed with
    links := (state.links.setPrev a none).setNext a none }

/-- `destruct`. -/
def destruct (state : State threads α) (a : α) : State threads α :=
  state.record a .destructed .raw

/-- `deallocate_item`. -/
def deallocateItem (state : State threads α) (a : α) : State threads α :=
  state.record a .deallocated .unallocated

/-- A thread goes on with another program. -/
def goOn (state : State threads α) (thread : Fin threads) (program : Program α) :
    State threads α :=
  { state with program := Function.update state.program thread program }

/-- An operation on the list, which may fail. -/
def attempt (state : State threads α) {β : Type} (result : Except IntrusiveList.Stop β)
    (next : β → State threads α) : State threads α :=
  match result with
  | .error stop => { state with stopped := some stop }
  | .ok value => next value

end State

/-- The locked part of `get`: the first item is taken out of the list, if there is one.  A `reset`
of the item concerns its own data only. -/
def takeFirst (poolList : α) (links : Heap α) :
    Except IntrusiveList.Stop (Option (Heap α × α)) := do
  if IntrusiveList.empty poolList links then return none
  let it ← IntrusiveList.deref (links.next poolList)
  let (links, _) ← IntrusiveList.erase poolList it links
  return some (links, it)

/-- The loop of `clear`. -/
def clearLoop (poolList : α) : (fuel : Nat) → (it : α) → State threads α →
    Except IntrusiveList.Stop (State threads α)
  | 0, _, _ => .error .outOfFuel
  | fuel + 1, it, state =>
      if it = poolList then .ok state
      else do
        let item := it
        let (links, it) ← IntrusiveList.erase poolList it state.links
        clearLoop poolList fuel it ((({ state with links }).destruct item).deallocateItem item)

/-- `clear`, whose loop has at most `fuel` rounds; `none` if it has more. -/
def clear (poolList : α) (fuel : Nat) (state : State threads α) : Option (State threads α) :=
  match IntrusiveList.deref (state.links.next poolList) with
  | .error stop => some { state with stopped := some stop }
  | .ok first =>
      match clearLoop poolList fuel first state with
      | .error .outOfFuel => none
      | .error stop => some { state with stopped := some stop }
      | .ok after => some after

/-- The loop of the destructor of `ReturnToPoolGuard`, whose items are held in the list `list`. -/
def returnLoop (poolList list : α) : (fuel : Nat) → (it : α) → State threads α →
    Except IntrusiveList.Stop (State threads α)
  | 0, _, _ => .error .outOfFuel
  | fuel + 1, it, state =>
      if it = list then .ok state
      else do
        let item := it
        let (links, it) ← IntrusiveList.erase list it state.links
        -- The deleter of the `ItemPtr` puts the item at the end of the round.
        let links ← IntrusiveList.pushBack poolList item links
        returnLoop poolList list fuel it { state with links, held := state.held.erase item }

/-- The destructor of `ReturnToPoolGuard`. -/
def returnToPool (poolList list : α) (fuel : Nat) (state : State threads α) :
    Except IntrusiveList.Stop (State threads α) := do
  let first ← IntrusiveList.deref (state.links.next list)
  returnLoop poolList list fuel first state

/-- The head of the loop of `fill`. -/
def fillNext : Nat → Program α
  | 0 => .idle
  | n + 1 => .fillAllocate n

/-- The steps of the threads.  A step with the lock is one step; the others are the calls of the
allocator and of the lifetime, whose outcome is part of the label. -/
inductive Label (threads : Nat) (α : Type) where
  | get (thread : Fin threads)
  | fill (thread : Fin threads) (n : Nat)
  /-- `none` is an exception. -/
  | allocate (thread : Fin threads) (storage : Option α)
  | construct (thread : Fin threads) (throws : Bool)
  | fillPut (thread : Fin threads)
  | put (item : α)
  /-- A user writes the links of an item that they hold, or of a list of their own. -/
  | relink (node : α) (next prev : Option α)
  | clear (fuel : Nat)
  /-- The destructor, once nobody uses the pool any more. -/
  | destroy (fuel : Nat)
  deriving DecidableEq, Repr

/-- A call of the allocator which returned some storage, or threw. -/
def allocate (poolList : α) (state : State threads α) (thread : Fin threads) (storage : Option α)
    (next : α → Program α) : Option (State threads α) :=
  match storage with
  | none => some (state.goOn thread .idle)
  | some a =>
      if state.phase a = .unallocated ∧ a ≠ poolList then
        some ((state.allocateItem a).goOn thread (next a))
      else none

/-- A step. -/
def step (poolList : α) (state : State threads α) (label : Label threads α) :
    Option (State threads α) :=
  if state.destroyed ∨ state.stopped.isSome then none
  else
    match label with
    | .get thread =>
        if state.program thread = .idle then
          some (state.attempt (takeFirst poolList state.links) fun
            | some (links, item) => { state with links, held := item :: state.held }
            | none => state.goOn thread .getAllocate)
        else none
    | .fill thread n =>
        if state.program thread = .idle then some (state.goOn thread (fillNext n)) else none
    | .allocate thread storage =>
        match state.program thread with
        | .getAllocate => allocate poolList state thread storage .getConstruct
        | .fillAllocate n => allocate poolList state thread storage (.fillConstruct n)
        | _ => none
    | .construct thread throws =>
        match state.program thread with
        | .getConstruct a =>
            if throws then some ((state.deallocateItem a).goOn thread .idle)
            else
              some ({ state.construct a with held := a :: state.held }.goOn thread .idle)
        | .fillConstruct n a =>
            if throws then some ((state.deallocateItem a).goOn thread .idle)
            else some ((state.construct a).goOn thread (.fillPut n a))
        | _ => none
    | .fillPut thread =>
        match state.program thread with
        | .fillPut n a =>
            some (state.attempt (IntrusiveList.pushBack poolList a state.links) fun links =>
              { state with links }.goOn thread (fillNext n))
        | _ => none
    | .put item =>
        if item ∈ state.held then
          some (state.attempt (IntrusiveList.pushBack poolList item state.links) fun links =>
            { state with links, held := state.held.erase item })
        else none
    | .relink node next prev =>
        if node ∈ state.held ∨ state.phase node = .unallocated ∧ node ≠ poolList then
          some { state with links := (state.links.setNext node next).setPrev node prev }
        else none
    | .clear fuel => clear poolList fuel state
    | .destroy fuel =>
        if state.held = [] ∧ ∀ thread, state.program thread = .idle then
          (clear poolList fuel state).map fun after => { after with destroyed := true }
        else none

/-- The machine of a pool. -/
def machine (poolList : α) : Machine (State threads α) (Label threads α) := ⟨step poolList⟩

/-- A new pool. -/
def start (poolList : α) : State threads α where
  links := IntrusiveList.construct poolList ⟨fun _ => none, fun _ => none⟩
  phase _ := .unallocated
  held := []
  program _ := .idle
  log := []
  destroyed := false
  stopped := none

end Pool
end ShadowCast
