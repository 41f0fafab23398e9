import ShadowCast.BlockRules

/-!
# Blocks with a state

A statement may read and change a state, and the state is there behind an exception, too.  So a
guard finds what the scope has made of it.  The rules say what a machine holds and what the state is
when a statement is left.
-/

/-- A statement, from the state before it. -/
def Stateful (σ η ε φ α : Type) : Type := σ → Block η (ε × σ) φ (α × σ)

namespace Stateful

variable {σ η ε φ α β : Type}

instance : Monad (Stateful σ η ε φ) where
  pure value := fun state => Pure.pure (value, state)
  bind first second := fun state => first state >>= fun result => second result.1 result.2

/-- The state. -/
def get : Stateful σ η ε φ σ := fun state => Pure.pure (state, state)

/-- Another state. -/
def modify (change : σ → σ) : Stateful σ η ε φ Unit := fun state => Pure.pure ((), change state)

/-- Throw an exception. -/
def throwing (exception : ε) : Stateful σ η ε φ α := fun state => Block.throwing (exception, state)

/-- Perform an action without defined behaviour. -/
def faulting (fault : φ) : Stateful σ η ε φ α := fun _ => Block.faulting fault

/-- What a statement returns or throws, as a value. -/
def attempt (statement : Stateful σ η ε φ α) : Stateful σ η ε φ (Except ε α) := fun state =>
  (statement state >>= fun result => Pure.pure (.ok result.1, result.2)).handling fun result =>
    Pure.pure (.error result.1, result.2)

/-- Return or throw. -/
def resume : Except ε α → Stateful σ η ε φ α
  | .ok value => Pure.pure value
  | .error exception => throwing exception

/-- Install a guard: its clean-up runs when the rest of the scope is left. -/
def scopeGuard (cleanup : Stateful σ η ε φ Unit) (rest : Stateful σ η ε φ α) :
    Stateful σ η ε φ α := do
  let outcome ← attempt rest
  cleanup
  resume outcome

/-- A guard for exceptions only. -/
def onThrow (cleanup : Stateful σ η ε φ Unit) (rest : Stateful σ η ε φ α) :
    Stateful σ η ε φ α := do
  match ← attempt rest with
  | .ok value => pure value
  | .error exception => do
      cleanup
      throwing exception

/-! ### Rules -/

variable {γ : Type}

/-- What must hold of an exit.  Nothing is said of a fault. -/
def Leaves (leaves : Except ε α → σ → γ → Prop) : Exit (ε × σ) φ (α × σ) → γ → Prop
  | .returned (value, state), held => leaves (.ok value) state held
  | .threw (exception, state), held => leaves (.error exception) state held
  | .faulted _, _ => True

/-- The machine accepts the events of the statement, and `leaves` holds behind it. -/
def Meets (machine : Machine γ η) (held : γ) (state : σ) (statement : Stateful σ η ε φ α)
    (leaves : Except ε α → σ → γ → Prop) : Prop :=
  machine.Keeps held (statement state) (Leaves leaves)

namespace Meets

variable {machine : Machine γ η} {held : γ} {state : σ} {leaves : Except ε α → σ → γ → Prop}

theorem mono {statement : Stateful σ η ε φ α} {leaves' : Except ε α → σ → γ → Prop}
    (meets : Meets machine held state statement leaves)
    (weaker : ∀ outcome state held, leaves outcome state held → leaves' outcome state held) :
    Meets machine held state statement leaves' := by
  refine Machine.Keeps.mono meets ?_
  rintro (⟨value, state⟩ | ⟨exception, state⟩ | fault) held holds
  · exact weaker _ _ _ holds
  · exact weaker _ _ _ holds
  · trivial

theorem pure {value : α} (holds : leaves (.ok value) state held) :
    Meets machine held state (Pure.pure value : Stateful σ η ε φ α) leaves :=
  Machine.Keeps.pure holds

theorem throwing {exception : ε} (holds : leaves (.error exception) state held) :
    Meets machine held state (Stateful.throwing exception : Stateful σ η ε φ α) leaves :=
  Machine.Keeps.throwing holds

theorem faulting {fault : φ} :
    Meets machine held state (Stateful.faulting fault : Stateful σ η ε φ α) leaves :=
  Machine.Keeps.faulting trivial

theorem modify {change : σ → σ} {leaves : Except ε Unit → σ → γ → Prop}
    (holds : leaves (.ok ()) (change state) held) :
    Meets machine held state (Stateful.modify change : Stateful σ η ε φ Unit) leaves :=
  Machine.Keeps.pure holds

/-- What must hold behind the first part of a sequence. -/
def Continues (machine : Machine γ η) (second : β → Stateful σ η ε φ α)
    (leaves : Except ε α → σ → γ → Prop) : Except ε β → σ → γ → Prop
  | .ok value, state, held => Meets machine held state (second value) leaves
  | .error exception, state, held => leaves (.error exception) state held

/-- A sequence of two parts. -/
theorem bind {first : Stateful σ η ε φ β} {second : β → Stateful σ η ε φ α}
    (meets : Meets machine held state first (Continues machine second leaves)) :
    Meets machine held state (first >>= second) leaves := by
  refine Machine.Keeps.bind (Machine.Keeps.mono meets ?_)
  rintro (⟨value, state⟩ | ⟨exception, state⟩ | fault) held holds
  · exact holds
  · exact holds
  · trivial

/-- The rest may read the state. -/
theorem get_bind {second : σ → Stateful σ η ε φ α}
    (meets : Meets machine held state (second state) leaves) :
    Meets machine held state (Stateful.get >>= second) leaves :=
  bind (Machine.Keeps.pure meets)

theorem attempt {statement : Stateful σ η ε φ α} {leaves : Except ε (Except ε α) → σ → γ → Prop}
    (meets : Meets machine held state statement fun outcome => leaves (.ok outcome)) :
    Meets machine held state (Stateful.attempt statement) leaves := by
  refine Machine.Keeps.handling (Machine.Keeps.bind (Machine.Keeps.mono meets ?_))
  rintro (⟨value, state⟩ | ⟨exception, state⟩ | fault) held holds
  · exact Machine.Keeps.pure holds
  · exact Machine.Keeps.pure holds
  · trivial

theorem resume {outcome : Except ε α} (holds : leaves outcome state held) :
    Meets machine held state (Stateful.resume outcome : Stateful σ η ε φ α) leaves := by
  cases outcome with
  | ok value => exact pure holds
  | error exception => exact throwing holds

/-- What must hold behind a scope with a guard. -/
def Cleans (machine : Machine γ η) (cleanup : Stateful σ η ε φ Unit)
    (leaves : Except ε α → σ → γ → Prop) (outcome : Except ε α) (state : σ) (held : γ) : Prop :=
  Meets machine held state cleanup fun cleaned state held =>
    cleaned = .ok () ∧ leaves outcome state held

/-- A guard and its scope. -/
theorem scopeGuard {cleanup : Stateful σ η ε φ Unit} {rest : Stateful σ η ε φ α}
    (meets : Meets machine held state rest (Cleans machine cleanup leaves)) :
    Meets machine held state (Stateful.scopeGuard cleanup rest) leaves := by
  refine bind (attempt (meets.mono fun outcome state held cleans => bind (cleans.mono ?_)))
  rintro _ state held ⟨rfl, holds⟩
  exact resume holds

/-- What must hold behind a scope with a guard for exceptions. -/
def Clears (machine : Machine γ η) (cleanup : Stateful σ η ε φ Unit)
    (leaves : Except ε α → σ → γ → Prop) : Except ε α → σ → γ → Prop
  | .ok value => leaves (.ok value)
  | .error exception => Cleans machine cleanup leaves (.error exception)

/-- A guard for exceptions. -/
theorem onThrow {cleanup : Stateful σ η ε φ Unit} {rest : Stateful σ η ε φ α}
    (meets : Meets machine held state rest (Clears machine cleanup leaves)) :
    Meets machine held state (Stateful.onThrow cleanup rest) leaves := by
  refine bind (attempt (meets.mono fun outcome state held clears => ?_))
  cases outcome with
  | ok value => exact pure clears
  | error exception =>
      refine bind (Meets.mono clears ?_)
      rintro _ state held ⟨rfl, holds⟩
      exact throwing holds

end Meets

end Stateful
