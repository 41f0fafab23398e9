import ShadowCast.Machine
import ShadowCast.ScopeGuard

/-!
# Blocks which a machine accepts

The events of a block are the labels of a machine, and what holds behind the block depends on its
exit.  The rules follow the statements of a block: sequence, guard, handler and loop.
-/

namespace Block

variable {η ε φ α : Type}

/-- A block whose exceptions are handled. -/
def handling (block : Block η ε φ α) (handler : ε → Block η ε φ α) : Block η ε φ α :=
  match block.exit with
  | .threw exception =>
      ⟨block.events ++ (handler exception).events, (handler exception).exit⟩
  | _ => block

/-- A statement for each of the values, in order. -/
def forEach {β : Type} (body : β → Block η ε φ Unit) : List β → Block η ε φ Unit
  | [] => pure ()
  | value :: values => do
      body value
      forEach body values

/-- The events of a block have a property.  Its exit does not matter. -/
def Causes (P : η → Prop) (block : Block η ε φ α) : Prop := ∀ event ∈ block.events, P event

namespace Causes

variable {β : Type} {P : η → Prop}

theorem pure {value : α} : (Pure.pure value : Block η ε φ α).Causes P :=
  fun _ member => absurd member List.not_mem_nil

theorem throwing {exception : ε} : (Block.throwing exception : Block η ε φ α).Causes P :=
  fun _ member => absurd member List.not_mem_nil

theorem faulting {fault : φ} : (Block.faulting fault : Block η ε φ α).Causes P :=
  fun _ member => absurd member List.not_mem_nil

theorem emit {event : η} (holds : P event) : (Block.emit event : Block η ε φ Unit).Causes P :=
  fun _ member => List.mem_singleton.mp member ▸ holds

/-- A sequence of two parts.  The second one starts from a value the first one returns. -/
theorem bind {first : Block η ε φ α} {second : α → Block η ε φ β} (causes : first.Causes P)
    (later : ∀ value, first.exit = .returned value → (second value).Causes P) :
    (first >>= second).Causes P := by
  obtain ⟨events, exit⟩ := first
  cases exit with
  | returned value =>
      rw [returned_bind]
      intro event member
      exact (List.mem_append.mp member).elim (causes event) (later value rfl event)
  | threw exception => exact causes
  | faulted fault => exact causes

theorem scopeGuard {cleanup : Block η ε φ Unit} {rest : Block η ε φ α}
    (cleans : cleanup.Causes P) (causes : rest.Causes P) :
    (Block.scopeGuard cleanup rest).Causes P := by
  have both (event : η) (member : event ∈ rest.events ++ cleanup.events) : P event :=
    (List.mem_append.mp member).elim (causes event) (cleans event)
  unfold Block.scopeGuard
  cases rest.exit with
  | faulted fault => exact causes
  | returned value | threw exception => cases cleanup.exit <;> exact both

theorem handling {block : Block η ε φ α} {handler : ε → Block η ε φ α} (causes : block.Causes P)
    (handles : ∀ exception, (handler exception).Causes P) : (block.handling handler).Causes P := by
  obtain ⟨events, exit⟩ := block
  cases exit with
  | threw exception =>
      intro event member
      exact (List.mem_append.mp member).elim (causes event) (handles exception event)
  | returned value => exact causes
  | faulted fault => exact causes

end Causes

end Block

namespace Machine

variable {σ η ε φ α β : Type}

/-- The machine accepts the events of the block, and its state behind them is as `exits` says. -/
def Keeps (machine : Machine σ η) (held : σ) (block : Block η ε φ α)
    (exits : Exit ε φ α → σ → Prop) : Prop :=
  ∃ left, machine.run block.events held = some left ∧ exits block.exit left

variable {machine : Machine σ η} {held : σ}

namespace Keeps

theorem mono {block : Block η ε φ α} {exits exits' : Exit ε φ α → σ → Prop}
    (keeps : machine.Keeps held block exits)
    (weaker : ∀ exit left, exits exit left → exits' exit left) :
    machine.Keeps held block exits' := by
  obtain ⟨left, run, exit⟩ := keeps
  exact ⟨left, run, weaker _ _ exit⟩

theorem pure {value : α} {exits : Exit ε φ α → σ → Prop}
    (exit : exits (.returned value) held) :
    machine.Keeps held (Pure.pure value : Block η ε φ α) exits :=
  ⟨held, rfl, exit⟩

theorem throwing {exception : ε} {exits : Exit ε φ α → σ → Prop}
    (exit : exits (.threw exception) held) :
    machine.Keeps held (Block.throwing exception : Block η ε φ α) exits :=
  ⟨held, rfl, exit⟩

theorem faulting {fault : φ} {exits : Exit ε φ α → σ → Prop}
    (exit : exits (.faulted fault) held) :
    machine.Keeps held (Block.faulting fault : Block η ε φ α) exits :=
  ⟨held, rfl, exit⟩

/-- What must hold of the exit of the first part of a block. -/
def Continues (machine : Machine σ η) (second : α → Block η ε φ β)
    (exits : Exit ε φ β → σ → Prop) : Exit ε φ α → σ → Prop
  | .returned value, left => machine.Keeps left (second value) exits
  | .threw exception, left => exits (.threw exception) left
  | .faulted fault, left => exits (.faulted fault) left

/-- A sequence of two parts. -/
theorem bind {first : Block η ε φ α} {second : α → Block η ε φ β}
    {exits : Exit ε φ β → σ → Prop}
    (keeps : machine.Keeps held first (Continues machine second exits)) :
    machine.Keeps held (first >>= second) exits := by
  obtain ⟨left, run, continues⟩ := keeps
  obtain ⟨events, exit⟩ := first
  cases exit with
  | returned value =>
      obtain ⟨left', run', exit⟩ := continues
      refine ⟨left', ?_, exit⟩
      rw [Block.returned_bind]
      exact run_append_eq_some.mpr ⟨left, run, run'⟩
  | threw exception => exact ⟨left, run, continues⟩
  | faulted fault => exact ⟨left, run, continues⟩

/-- The exit of a part that leaves the same however it ends, and returns exactly if this holds. -/
def Requires (holds : Prop) (middle : σ) : Exit ε φ α → σ → Prop
  | .returned _, left => left = middle ∧ holds
  | .threw _, left => left = middle ∧ ¬holds
  | .faulted _, _ => False

/-- Such a part, and what follows it. -/
theorem bind_requires {first : Block η ε φ α} {second : α → Block η ε φ β}
    {exits : Exit ε φ β → σ → Prop} {holds : Prop} {middle : σ}
    (keeps : machine.Keeps held first (Requires holds middle))
    (threw : ¬holds → ∀ exception, exits (.threw exception) middle)
    (rest : holds → ∀ value, machine.Keeps middle (second value) exits) :
    machine.Keeps held (first >>= second) exits := by
  refine bind (keeps.mono ?_)
  rintro (value | exception | fault) _ required
  · obtain ⟨rfl, holds⟩ := required
    exact rest holds value
  · obtain ⟨rfl, fails⟩ := required
    exact threw fails exception
  · exact required.elim

/-- What must hold of the exit of a guarded scope. -/
def Cleans (machine : Machine σ η) (cleanup : Block η ε φ Unit)
    (exits : Exit ε φ α → σ → Prop) : Exit ε φ α → σ → Prop
  | .faulted fault, left => exits (.faulted fault) left
  | exit, left => machine.Keeps left cleanup fun cleaned left =>
      match cleaned with
      | .faulted fault => exits (.faulted fault) left
      | _ => exits exit left

/-- A guard and its scope. -/
theorem scopeGuard {cleanup : Block η ε φ Unit} {rest : Block η ε φ α}
    {exits : Exit ε φ α → σ → Prop}
    (keeps : machine.Keeps held rest (Cleans machine cleanup exits)) :
    machine.Keeps held (Block.scopeGuard cleanup rest) exits := by
  obtain ⟨left, run, cleans⟩ := keeps
  obtain ⟨events, exit⟩ := rest
  unfold Block.scopeGuard
  cases exit with
  | faulted fault => exact ⟨left, run, cleans⟩
  | returned value =>
      obtain ⟨left', run', exit⟩ := cleans
      have both := run_append_eq_some.mpr ⟨left, run, run'⟩
      cases cleaned : cleanup.exit <;> rw [cleaned] at exit <;> exact ⟨left', both, exit⟩
  | threw exception =>
      obtain ⟨left', run', exit⟩ := cleans
      have both := run_append_eq_some.mpr ⟨left, run, run'⟩
      cases cleaned : cleanup.exit <;> rw [cleaned] at exit <;> exact ⟨left', both, exit⟩

/-- What must hold of the exit of a block whose exceptions are handled. -/
def Handles (machine : Machine σ η) (handler : ε → Block η ε φ α)
    (exits : Exit ε φ α → σ → Prop) : Exit ε φ α → σ → Prop
  | .threw exception, left => machine.Keeps left (handler exception) exits
  | exit, left => exits exit left

/-- A block and the handler of its exceptions. -/
theorem handling {block : Block η ε φ α} {handler : ε → Block η ε φ α}
    {exits : Exit ε φ α → σ → Prop}
    (keeps : machine.Keeps held block (Handles machine handler exits)) :
    machine.Keeps held (block.handling handler) exits := by
  obtain ⟨left, run, handles⟩ := keeps
  obtain ⟨events, exit⟩ := block
  cases exit with
  | threw exception =>
      obtain ⟨left', run', exit⟩ := handles
      exact ⟨left', run_append_eq_some.mpr ⟨left, run, run'⟩, exit⟩
  | returned value => exact ⟨left, run, handles⟩
  | faulted fault => exact ⟨left, run, handles⟩

/-- A loop whose body returns, keeps an invariant and changes what is held. -/
theorem forEach {body : β → Block η ε φ Unit} {P : σ → Prop} {values : List β}
    (change : List β → σ → σ) (done : ∀ held, change [] held = held)
    (step : ∀ value values held, P held → machine.Keeps held (body value) fun exit left =>
      exit = .returned () ∧ P left ∧ change values left = change (value :: values) held)
    (start : P held) :
    machine.Keeps held (Block.forEach body values) fun exit left =>
      exit = .returned () ∧ left = change values held := by
  induction values generalizing held with
  | nil => exact pure ⟨rfl, (done held).symm⟩
  | cons value values ih =>
      refine bind ((step value values held start).mono ?_)
      rintro _ left ⟨rfl, kept, same⟩
      have loop := ih kept
      rw [same] at loop
      exact loop

end Keeps

/-- The block is left in this way, and this is held then. -/
abbrev Ends (machine : Machine σ η) (held : σ) (block : Block η ε φ α)
    (exit : Exit ε φ α) (left : σ) : Prop :=
  machine.Keeps held block fun exit' left' => exit' = exit ∧ left' = left

namespace Ends

variable {middle left : σ}

/-- Go on behind a part that ends. -/
theorem keeps {block : Block η ε φ α} {exit : Exit ε φ α}
    {exits : Exit ε φ α → σ → Prop} (ends : machine.Ends held block exit left)
    (holds : exits exit left) : machine.Keeps held block exits := by
  refine Keeps.mono ends ?_
  rintro _ _ ⟨rfl, rfl⟩
  exact holds

theorem bind {first : Block η ε φ α} {second : α → Block η ε φ β} {value : α}
    {exits : Exit ε φ β → σ → Prop}
    (ends : machine.Ends held first (.returned value) middle)
    (rest : machine.Keeps middle (second value) exits) :
    machine.Keeps held (first >>= second) exits :=
  Keeps.bind (ends.keeps rest)

theorem bind_threw {first : Block η ε φ α} {second : α → Block η ε φ β} {exception : ε}
    (ends : machine.Ends held first (.threw exception) left) :
    machine.Ends held (first >>= second) (.threw exception) left :=
  Keeps.bind (ends.keeps ⟨rfl, rfl⟩)

/-- A guard whose clean-up ends in the same way however the scope is left. -/
theorem cleanup {cleanup : Block η ε φ Unit} {rest : Block η ε φ α}
    {exits : Exit ε φ α → σ → Prop}
    (cleans : machine.Ends middle cleanup (.returned ()) left)
    (keeps : machine.Keeps held rest fun exit left' =>
      left' = middle ∧ (∀ fault, exit ≠ .faulted fault) ∧ exits exit left) :
    machine.Keeps held (Block.scopeGuard cleanup rest) exits := by
  obtain ⟨_, run, cleaned, rfl⟩ := cleans
  refine Keeps.scopeGuard (Keeps.mono keeps ?_)
  rintro exit _ ⟨rfl, goesOn, holds⟩
  cases exit with
  | faulted fault => exact absurd rfl (goesOn fault)
  | returned value => exact ⟨_, run, by rw [cleaned]; exact holds⟩
  | threw exception => exact ⟨_, run, by rw [cleaned]; exact holds⟩

/-- A scope that is left, and its guard. -/
theorem guarded {cleanup : Block η ε φ Unit} {rest : Block η ε φ α} {exit : Exit ε φ α}
    (ends : machine.Ends held rest exit middle) (goesOn : ∀ fault, exit ≠ .faulted fault)
    (cleans : machine.Ends middle cleanup (.returned ()) left) :
    machine.Ends held (Block.scopeGuard cleanup rest) exit left :=
  Ends.cleanup cleans (ends.keeps ⟨rfl, goesOn, rfl, rfl⟩)

end Ends

end Machine
