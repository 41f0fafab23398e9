import Mathlib.Data.List.Perm.Subperm

/-!
# Blocks with scope guards

A `Block` is what one execution of a block of statements does: the events it causes, in order, and
how it is left.  A scope guard runs its clean-up however the block behind it is left, except after
an action without defined behaviour, behind which nothing is known.

Events may acquire and release resources.  A sequence of events is settled when it releases exactly
what it acquires; the second half of the file says what a guard contributes to that.
-/

/-- How a block is left. -/
inductive Exit (ε φ α : Type) where
  | returned (value : α)
  | threw (exception : ε)
  /-- The block performed an action without defined behaviour. -/
  | faulted (fault : φ)
  deriving DecidableEq, Repr

/-- The events of an execution and its exit. -/
structure Block (η ε φ α : Type) where
  events : List η
  exit : Exit ε φ α
  deriving DecidableEq, Repr

namespace Block

variable {η ε φ α β : Type}

/-- One event. -/
def emit (event : η) : Block η ε φ Unit := ⟨[event], .returned ()⟩

/-- Several events. -/
def emitAll (events : List η) : Block η ε φ Unit := ⟨events, .returned ()⟩

/-- Throw an exception. -/
def throwing (exception : ε) : Block η ε φ α := ⟨[], .threw exception⟩

/-- Perform an action without defined behaviour. -/
def faulting (fault : φ) : Block η ε φ α := ⟨[], .faulted fault⟩

/-- The value of a computation that may be a fault. -/
def ofExcept : Except φ α → Block η ε φ α
  | .ok value => ⟨[], .returned value⟩
  | .error fault => faulting fault

/-- The first block and, if it returns, the second. -/
def andThen (first : Block η ε φ α) (second : α → Block η ε φ β) : Block η ε φ β :=
  match first.exit with
  | .returned value => ⟨first.events ++ (second value).events, (second value).exit⟩
  | .threw exception => ⟨first.events, .threw exception⟩
  | .faulted fault => ⟨first.events, .faulted fault⟩

instance : Monad (Block η ε φ) where
  pure value := ⟨[], .returned value⟩
  bind := andThen

/-- Install a guard: its clean-up runs when the rest of the scope is left. -/
def scopeGuard (cleanup : Block η ε φ Unit) (rest : Block η ε φ α) : Block η ε φ α :=
  match rest.exit with
  | .faulted _ => rest
  | exit =>
      match cleanup.exit with
      | .faulted fault => ⟨rest.events ++ cleanup.events, .faulted fault⟩
      | _ => ⟨rest.events ++ cleanup.events, exit⟩

/-- No action without defined behaviour was performed. -/
def Safe (block : Block η ε φ α) : Prop := ∀ fault, block.exit ≠ .faulted fault

@[simp]
theorem safe_pure (value : α) : (pure value : Block η ε φ α).Safe := by
  rintro fault ⟨⟩

@[simp]
theorem safe_emitAll (events : List η) : (emitAll events : Block η ε φ Unit).Safe := by
  rintro fault ⟨⟩

@[simp]
theorem safe_emit (event : η) : (emit event : Block η ε φ Unit).Safe := by
  rintro fault ⟨⟩

@[simp]
theorem safe_throwing (exception : ε) : (throwing exception : Block η ε φ α).Safe := by
  rintro fault ⟨⟩

@[simp]
theorem throwing_bind (exception : ε) (second : α → Block η ε φ β) :
    throwing exception >>= second = throwing exception := rfl

@[simp]
theorem returned_bind (events : List η) (value : α) (second : α → Block η ε φ β) :
    (⟨events, .returned value⟩ : Block η ε φ α) >>= second =
      ⟨events ++ (second value).events, (second value).exit⟩ := rfl

theorem emit_bind (event : η) (second : Unit → Block η ε φ β) :
    emit event >>= second = ⟨event :: (second ()).events, (second ()).exit⟩ := rfl

@[simp]
theorem threw_bind (events : List η) (exception : ε) (second : α → Block η ε φ β) :
    (⟨events, .threw exception⟩ : Block η ε φ α) >>= second = ⟨events, .threw exception⟩ := rfl

@[simp]
theorem faulted_bind (events : List η) (fault : φ) (second : α → Block η ε φ β) :
    (⟨events, .faulted fault⟩ : Block η ε φ α) >>= second = ⟨events, .faulted fault⟩ := rfl

/-- The block has defined behaviour, and its events have a property. -/
def Emits (P : η → Prop) (block : Block η ε φ α) : Prop :=
  block.Safe ∧ ∀ event ∈ block.events, P event

section Emits

variable {P : η → Prop}

theorem emits_pure (value : α) : (pure value : Block η ε φ α).Emits P :=
  ⟨safe_pure value, fun _ member => absurd member List.not_mem_nil⟩

theorem emits_throwing (exception : ε) : (throwing exception : Block η ε φ α).Emits P :=
  ⟨safe_throwing exception, fun _ member => absurd member List.not_mem_nil⟩

theorem emits_emit {event : η} (holds : P event) : (emit event : Block η ε φ Unit).Emits P :=
  ⟨safe_emit event, fun _ member => List.mem_singleton.mp member ▸ holds⟩

/-- What both parts of a block emit, the block emits. -/
theorem Emits.bind {first : Block η ε φ α} {second : α → Block η ε φ β} (emits : first.Emits P)
    (later : ∀ value, (second value).Emits P) : (first >>= second).Emits P := by
  obtain ⟨safe, events⟩ := emits
  obtain ⟨events', exit⟩ := first
  cases exit with
  | returned value =>
      rw [returned_bind]
      refine ⟨(later value).1, fun event member => ?_⟩
      exact (List.mem_append.mp member).elim (events event) ((later value).2 event)
  | threw exception => exact ⟨fun _ => nofun, events⟩
  | faulted fault => exact absurd rfl (safe fault)

theorem emits_emitAll {events : List η} (holds : ∀ event ∈ events, P event) :
    (emitAll events : Block η ε φ Unit).Emits P :=
  ⟨safe_emitAll events, holds⟩

theorem Emits.scopeGuard {cleanup : Block η ε φ Unit} {rest : Block η ε φ α}
    (cleans : cleanup.Emits P) (emits : rest.Emits P) :
    (Block.scopeGuard cleanup rest).Emits P := by
  obtain ⟨safe, events⟩ := emits
  obtain ⟨events', exit⟩ := rest
  obtain ⟨safe', clean⟩ := cleans
  obtain ⟨cleanup', exit'⟩ := cleanup
  have both : ∀ event ∈ events' ++ cleanup', P event := fun event member =>
    (List.mem_append.mp member).elim (events event) (clean event)
  unfold Block.scopeGuard
  cases exit with
  | faulted fault => exact absurd rfl (safe fault)
  | returned value | threw exception =>
      cases exit' with
      | faulted fault => exact absurd rfl (safe' fault)
      | returned done | threw failure => exact ⟨fun _ same => (by cases same), both⟩

end Emits

/-- A safe clean-up leaves the exit of the scope as it is. -/
theorem scopeGuard_exit {cleanup : Block η ε φ Unit} (safe : cleanup.Safe)
    (rest : Block η ε φ α) : (scopeGuard cleanup rest).exit = rest.exit := by
  unfold scopeGuard
  unfold Safe at safe
  cases restExit : rest.exit <;> cases cleanupExit : cleanup.exit <;> simp_all

/-- However a scope is left, its guard has run behind it. -/
theorem scopeGuard_events (cleanup : Block η ε φ Unit) {rest : Block η ε φ α}
    (safe : rest.Safe) : (scopeGuard cleanup rest).events = rest.events ++ cleanup.events := by
  unfold scopeGuard
  unfold Safe at safe
  cases restExit : rest.exit <;> cases cleanupExit : cleanup.exit <;> simp_all

end Block

/-! ### Settled sequences of events -/

section Settlement

variable {η ρ : Type}

/-- What events acquire and what they release. -/
structure Settlement (η ρ : Type) where
  acquires : η → Option ρ
  releases : η → Option ρ

namespace Settlement

variable (settlement : Settlement η ρ)

/-- The resources acquired by the events, in order. -/
def acquired (events : List η) : List ρ := events.filterMap settlement.acquires

/-- The resources released by the events, in order. -/
def released (events : List η) : List ρ := events.filterMap settlement.releases

/-- Every acquisition is released once. -/
def Settled (events : List η) : Prop :=
  (settlement.released events).Perm (settlement.acquired events)

/-- Nothing is released more often than it is acquired. -/
def NoExcess (events : List η) : Prop :=
  (settlement.released events).Subperm (settlement.acquired events)

@[simp]
theorem acquired_append (front back : List η) :
    settlement.acquired (front ++ back) = settlement.acquired front ++ settlement.acquired back :=
  List.filterMap_append

@[simp]
theorem released_append (front back : List η) :
    settlement.released (front ++ back) = settlement.released front ++ settlement.released back :=
  List.filterMap_append

variable {settlement}

/-- Without excess, releasing as much as was acquired is releasing all of it. -/
theorem NoExcess.settled_iff {events : List η} (noExcess : settlement.NoExcess events) :
    settlement.Settled events ↔
      (settlement.released events).length = (settlement.acquired events).length := by
  constructor
  · exact fun settled => settled.length_eq
  · exact fun equal => noExcess.perm_of_length_le (Nat.le_of_eq equal.symm)

/-- Releasing behind a scope no more than was acquired in front of it. -/
theorem NoExcess.bracket {front inner back : List η} (noExcess : settlement.NoExcess inner)
    (opened : settlement.released front = []) (closed : settlement.acquired back = [])
    (covered : (settlement.released back).Subperm (settlement.acquired front)) :
    settlement.NoExcess (front ++ inner ++ back) := by
  simp only [NoExcess, acquired_append, released_append, opened, closed, List.nil_append,
    List.append_nil]
  exact (noExcess.append covered).trans List.perm_append_comm.subperm

/-- A scope in brackets is settled when the scope is and all that was acquired in front of it is
released behind it. -/
theorem NoExcess.settled_bracket_iff {front inner back : List η}
    (noExcess : settlement.NoExcess inner) (opened : settlement.released front = [])
    (closed : settlement.acquired back = [])
    (covered : (settlement.released back).Subperm (settlement.acquired front)) :
    settlement.Settled (front ++ inner ++ back) ↔
      settlement.Settled inner ∧
        (settlement.released back).length = (settlement.acquired front).length := by
  have fewer := noExcess.length_le
  have fewerBack := covered.length_le
  rw [(noExcess.bracket opened closed covered).settled_iff, noExcess.settled_iff]
  simp only [acquired_append, released_append, opened, closed, List.nil_append, List.append_nil,
    List.length_append]
  omega

end Settlement

end Settlement
