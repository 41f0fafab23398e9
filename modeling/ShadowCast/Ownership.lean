import ShadowCast.Discipline

/-!
# Local objects and what they depend on

An object may only be made, used and destroyed while the objects it depends on live.  A local object
is destroyed by the guard of its scope, and a guard may also be for exceptions only, when the object
is returned.  The rules say what is held beyond a base when a block is left.
-/

/-- What happens to objects; a use is of any kind. -/
inductive Access (υ ρ : Type) where
  | acquire (object : ρ)
  | release (object : ρ)
  | use (kind : υ)
  deriving DecidableEq, Repr

namespace Block

variable {η ε φ α : Type}

/-- A guard for exceptions only. -/
def onThrow (cleanup : Block η ε φ Unit) (block : Block η ε φ α) : Block η ε φ α :=
  block.handling fun exception => do
    cleanup
    throwing exception

variable {υ ρ : Type}

/-- Make an object. -/
def acquire (object : ρ) : Block (Access υ ρ) ε φ Unit := emit (.acquire object)

/-- Destroy an object. -/
def release (object : ρ) : Block (Access υ ρ) ε φ Unit := emit (.release object)

/-- An object that is made for the rest of the scope. -/
def own (object : ρ) (rest : Block (Access υ ρ) ε φ α) : Block (Access υ ρ) ε φ α := do
  acquire object
  scopeGuard (release object) rest

end Block

namespace Discipline

open Machine

variable {η υ ρ ε φ α β : Type}

/-- Objects with their dependencies, and what the uses need. -/
def ofDependencies (depends : ρ → Multiset ρ) (uses : υ → Multiset ρ) :
    Discipline (Access υ ρ) ρ where
  needs
    | .acquire object => depends object
    | .release object => depends object + {object}
    | .use kind => uses kind
  releases
    | .release object => {object}
    | .acquire _ | .use _ => 0
  acquires
    | .acquire object => {object}
    | .release _ | .use _ => 0

/-- Beyond the base, a block that is left holds what its exit says.  Nothing is said of a fault. -/
def Beyond (base : Multiset ρ) (leaves : Exit ε φ α → Multiset ρ → Prop) (exit : Exit ε φ α)
    (left : Multiset ρ) : Prop :=
  (∀ fault, exit ≠ .faulted fault) → ∃ more, left = base + more ∧ leaves exit more

/-- The block runs on top of the base, with more beyond it. -/
def Within [DecidableEq ρ] (discipline : Discipline η ρ) (base more : Multiset ρ)
    (block : Block η ε φ α) (leaves : Exit ε φ α → Multiset ρ → Prop) : Prop :=
  discipline.Keeps (base + more) block (Beyond base leaves)

namespace Within

variable [DecidableEq ρ] {discipline : Discipline η ρ} {base more : Multiset ρ}
  {leaves : Exit ε φ α → Multiset ρ → Prop}

theorem mono {block : Block η ε φ α} {leaves' : Exit ε φ α → Multiset ρ → Prop}
    (within : discipline.Within base more block leaves)
    (weaker : ∀ exit more, leaves exit more → leaves' exit more) :
    discipline.Within base more block leaves' :=
  Keeps.mono within fun _ _ beyond goesOn =>
    (beyond goesOn).imp fun _ => And.imp_right (weaker _ _)

theorem pure {value : α} (holds : leaves (.returned value) more) :
    discipline.Within base more (Pure.pure value : Block η ε φ α) leaves :=
  Keeps.pure fun _ => ⟨more, rfl, holds⟩

theorem throwing {exception : ε} (holds : leaves (.threw exception) more) :
    discipline.Within base more (Block.throwing exception : Block η ε φ α) leaves :=
  Keeps.throwing fun _ => ⟨more, rfl, holds⟩

theorem faulting (fault : φ) :
    discipline.Within base more (Block.faulting fault : Block η ε φ α) leaves :=
  Keeps.faulting fun goesOn => absurd rfl (goesOn fault)

/-- What must hold of the exit of the first part of a block. -/
def Proceeds (discipline : Discipline η ρ) (base : Multiset ρ) (second : β → Block η ε φ α)
    (leaves : Exit ε φ α → Multiset ρ → Prop) : Exit ε φ β → Multiset ρ → Prop
  | .returned value, more => discipline.Within base more (second value) leaves
  | .threw exception, more => leaves (.threw exception) more
  | .faulted _, _ => True

/-- A sequence of two parts. -/
theorem bind {first : Block η ε φ β} {second : β → Block η ε φ α}
    (within : discipline.Within base more first (Proceeds discipline base second leaves)) :
    discipline.Within base more (first >>= second) leaves := by
  refine Keeps.bind (Keeps.mono within ?_)
  rintro (value | exception | fault) left beyond
  · obtain ⟨more, rfl, proceeds⟩ := beyond fun fault same => by cases same
    exact proceeds
  · obtain ⟨more, same, proceeds⟩ := beyond fun fault same => by cases same
    exact fun _ => ⟨more, same, proceeds⟩
  · exact fun goesOn => absurd rfl (goesOn fault)

/-- A first part that returns. -/
theorem bind_returned {first : Block η ε φ β} {second : β → Block η ε φ α} {value : β}
    {middle : Multiset ρ}
    (returns : discipline.Within base more first fun exit left =>
      exit = .returned value ∧ left = middle)
    (within : discipline.Within base middle (second value) leaves) :
    discipline.Within base more (first >>= second) leaves := by
  refine bind (returns.mono ?_)
  rintro _ _ ⟨rfl, rfl⟩
  exact within

/-- What must hold of the exit of a clean-up. -/
def Restores (held : Multiset ρ) (exit : Exit ε φ Unit) (left : Multiset ρ) : Prop :=
  (∀ fault, exit ≠ .faulted fault) → left = held

/-- From a guard on, the objects it cleans up belong to the base.  It may leave something else. -/
theorem guards {objects gained : Multiset ρ} {cleanup : Block η ε φ Unit}
    {rest : Block η ε φ α}
    (cleans : ∀ more, discipline.Keeps (base + objects + more) cleanup
      (Restores (base + (more + gained))))
    (within : discipline.Within (base + objects) more rest fun exit more =>
      leaves exit (more + gained)) :
    discipline.Within base (more + objects) (Block.scopeGuard cleanup rest) leaves := by
  have swap : base + (more + objects) = base + objects + more := by
    rw [Multiset.add_assoc, Multiset.add_comm more]
  unfold Within at within ⊢
  rw [swap]
  refine Keeps.scopeGuard (within.mono ?_)
  intro exit left beyond
  cases exit with
  | faulted fault => exact fun goesOn => absurd rfl (goesOn fault)
  | returned value | threw exception =>
      obtain ⟨more, rfl, kept⟩ := beyond fun fault equal => by cases equal
      obtain ⟨left, run, restores⟩ := cleans more
      refine ⟨left, run, ?_⟩
      cases cleaned : cleanup.exit with
      | faulted fault => exact fun goesOn => absurd rfl (goesOn fault)
      | returned done | threw failure =>
          obtain rfl := restores (by simp [cleaned])
          exact fun _ => ⟨_, rfl, kept⟩

/-- What must hold of the exit of a block with a guard for exceptions. -/
def Cleared (discipline : Discipline η ρ) (base : Multiset ρ) (cleanup : Block η ε φ Unit)
    (leaves : Exit ε φ α → Multiset ρ → Prop) : Exit ε φ α → Multiset ρ → Prop
  | .threw exception, more => discipline.Within base more cleanup fun cleaned more =>
      cleaned = .returned () ∧ leaves (.threw exception) more
  | exit, more => leaves exit more

/-- A guard for exceptions. -/
theorem onThrow {cleanup : Block η ε φ Unit} {block : Block η ε φ α}
    (within : discipline.Within base more block (Cleared discipline base cleanup leaves)) :
    discipline.Within base more (Block.onThrow cleanup block) leaves := by
  refine Keeps.handling (Keeps.mono within ?_)
  rintro (value | exception | fault) left beyond
  · exact beyond
  · obtain ⟨more, rfl, cleared⟩ := beyond fun fault same => by cases same
    refine bind (cleared.mono ?_)
    rintro _ more ⟨rfl, holds⟩
    exact throwing holds
  · exact fun goesOn => absurd rfl (goesOn fault)

/-! ### Objects with dependencies -/

variable {υ : Type} {depends : ρ → Multiset ρ} {uses : υ → Multiset ρ} {object : ρ}

/-- A use, and the rest behind it. -/
theorem use {kind : υ} {rest : Unit → Block (Access υ ρ) ε φ α} (needs : uses kind ≤ base + more)
    (within : (ofDependencies depends uses).Within base more (rest ()) leaves) :
    (ofDependencies depends uses).Within base more (Block.emit (.use kind) >>= rest) leaves :=
  Keeps.use_bind needs rfl rfl within

/-- An object that is made, and the rest behind it. -/
theorem acquire {rest : Unit → Block (Access υ ρ) ε φ α} (needs : depends object ≤ base + more)
    (within : (ofDependencies depends uses).Within base (more + {object}) (rest ()) leaves) :
    (ofDependencies depends uses).Within base more (Block.acquire object >>= rest) leaves := by
  refine Keeps.emit_bind needs ?_
  simpa only [Within, ofDependencies, Multiset.sub_zero, Multiset.add_assoc] using within

/-- Destroying an object beyond the base. -/
theorem release_ends (needs : depends object ≤ base + more) :
    (ofDependencies depends uses).Ends (base + (more + {object}))
      (Block.release object : Block (Access υ ρ) ε φ Unit) (.returned ()) (base + more) := by
  rw [← Multiset.add_assoc]
  refine Keeps.emit ?_ ⟨rfl, (Multiset.add_zero _).trans Multiset.add_sub_cancel_right⟩
  exact Multiset.add_le_add_right needs

theorem release {rest : Unit → Block (Access υ ρ) ε φ α} (needs : depends object ≤ base + more)
    (within : (ofDependencies depends uses).Within base more (rest ()) leaves) :
    (ofDependencies depends uses).Within base (more + {object})
      (Block.release object >>= rest) leaves :=
  (release_ends needs).bind within

/-- The guard of one object. -/
theorem guard {rest : Block (Access υ ρ) ε φ α} (needs : depends object ≤ base)
    (within : (ofDependencies depends uses).Within (base + {object}) more rest leaves) :
    (ofDependencies depends uses).Within base (more + {object})
      (Block.scopeGuard (Block.release object) rest) leaves := by
  have kept : (ofDependencies depends uses).Within (base + {object}) more rest fun exit more =>
      leaves exit (more + 0) := by
    simpa only [Multiset.add_zero] using within
  refine guards (fun more => ?_) kept
  rw [Multiset.add_zero, Multiset.add_assoc, Multiset.add_comm {object}]
  exact (release_ends (needs.trans (Multiset.le_add_right base more))).keeps fun _ => rfl

/-- A local object. -/
theorem own {rest : Block (Access υ ρ) ε φ α} (needs : depends object ≤ base)
    (within : (ofDependencies depends uses).Within (base + {object}) more rest leaves) :
    (ofDependencies depends uses).Within base more (Block.own object rest) leaves :=
  acquire (needs.trans (Multiset.le_add_right base more)) (guard needs within)

/-- The clean-up that destroys an object. -/
theorem cleared {exception : ε} (needs : depends object ≤ base + more)
    (holds : leaves (.threw exception) more) :
    Cleared (ofDependencies depends uses) base (Block.release object) leaves (.threw exception)
      (more + {object}) := by
  have ends : (ofDependencies depends uses).Ends (base + (more + {object}))
      (Block.release object : Block (Access υ ρ) ε φ Unit) (.returned ()) (base + more) :=
    release_ends needs
  exact ends.keeps fun _ => ⟨more, rfl, rfl, holds⟩

end Within

end Discipline
