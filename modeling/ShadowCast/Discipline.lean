import ShadowCast.BlockRules
import Mathlib.Data.Multiset.AddSub

/-!
# Blocks which keep a resource discipline

An event may need resources, give some up and acquire others.  A discipline says which, and a block
keeps it from certain resources on when each of its events finds what it needs.
-/

/-- What events need, release and acquire. -/
structure Discipline (η ρ : Type) where
  needs : η → Multiset ρ
  releases : η → Multiset ρ
  acquires : η → Multiset ρ

namespace Discipline

variable {η ρ ε φ α : Type} [DecidableEq ρ]

/-- The resources that are held, from event to event.  Releasing what is not held has no effect,
unless the event needs it. -/
def ledger (discipline : Discipline η ρ) : Machine (Multiset ρ) η :=
  ⟨fun held event =>
    if discipline.needs event ≤ held then
      some (held - discipline.releases event + discipline.acquires event)
    else none⟩

/-- From `held` on, every event of the block finds what it needs, and what is held when the block is
left is as `exits` says. -/
abbrev Keeps (discipline : Discipline η ρ) (held : Multiset ρ) (block : Block η ε φ α)
    (exits : Exit ε φ α → Multiset ρ → Prop) : Prop :=
  discipline.ledger.Keeps held block exits

/-- The block is left in this way, and this is held then. -/
abbrev Ends (discipline : Discipline η ρ) (held : Multiset ρ) (block : Block η ε φ α)
    (exit : Exit ε φ α) (left : Multiset ρ) : Prop :=
  discipline.ledger.Ends held block exit left

variable {discipline : Discipline η ρ} {held : Multiset ρ}

namespace Keeps

/-- An event that finds what it needs. -/
theorem emit {event : η} {exits : Exit ε φ Unit → Multiset ρ → Prop}
    (needs : discipline.needs event ≤ held)
    (exit : exits (.returned ())
      (held - discipline.releases event + discipline.acquires event)) :
    discipline.Keeps held (Block.emit event : Block η ε φ Unit) exits :=
  ⟨_, by simp [Block.emit, Machine.run, ledger, needs], exit⟩

/-- An event, and the rest behind it. -/
theorem emit_bind {event : η} {second : Unit → Block η ε φ α}
    {exits : Exit ε φ α → Multiset ρ → Prop} (needs : discipline.needs event ≤ held)
    (rest : discipline.Keeps (held - discipline.releases event + discipline.acquires event)
      (second ()) exits) :
    discipline.Keeps held (Block.emit event >>= second) exits :=
  Machine.Keeps.bind (emit needs rest)

/-- An event which changes nothing, and the rest behind it. -/
theorem use_bind {event : η} {second : Unit → Block η ε φ α}
    {exits : Exit ε φ α → Multiset ρ → Prop} (needs : discipline.needs event ≤ held)
    (releases : discipline.releases event = 0) (acquires : discipline.acquires event = 0)
    (rest : discipline.Keeps held (second ()) exits) :
    discipline.Keeps held (Block.emit event >>= second) exits := by
  refine emit_bind needs ?_
  rwa [releases, acquires, Multiset.sub_zero, Multiset.add_zero]

end Keeps

end Discipline
