import ShadowCast.Machine
import Mathlib.Logic.Function.Basic

/-!
# Descriptor tables and the variables which refer to them

A closed number may be handed out again by any later open.  An object keeps the number of the
descriptor it created in a variable; a caller first loads that variable and writes to what it has
loaded some time later.  A write goes to the object's own descriptor exactly when it precedes the
object's own close, as long as no repeated close hits a number which another object has been given.
-/

namespace ShadowCast

/-- What a descriptor number stands for. -/
inductive DescriptorEntry (ι : Type*)
  | closed
  /-- Open, for code which is not an object of the table. -/
  | foreign
  /-- Open, as the descriptor which this object created. -/
  | owned (object : ι)
  deriving DecidableEq, Repr

/-- Whether an object of the table has the descriptor open. -/
def DescriptorEntry.isOwned {ι : Type*} : DescriptorEntry ι → Bool
  | .owned _ => true
  | _ => false

/-- The descriptor table of a process, with the variables of the objects and of the callers. -/
structure DescriptorTable (ι κ : Type*) where
  entry : Nat → DescriptorEntry ι
  /-- The variable of each object; `none` is the number -1. -/
  member : ι → Option Nat
  /-- The descriptor which each object has created last. -/
  created : ι → Option Nat
  /-- Whether the object has closed it. -/
  closed : ι → Bool
  /-- The object whose variable a caller has loaded, and the number it found. -/
  loaded : κ → Option (ι × Option Nat)

namespace DescriptorTable

/-- Every number is closed and every variable is -1. -/
def empty {ι κ : Type*} : DescriptorTable ι κ where
  entry := fun _ => .closed
  member := fun _ => none
  created := fun _ => none
  closed := fun _ => false
  loaded := fun _ => none

inductive Label (ι κ : Type*)
  /-- An open succeeds with any closed number. -/
  | create (object : ι) (number : Nat)
  /-- An open fails and its result -1 is stored. -/
  | createFails (object : ι)
  /-- The number in the variable is closed, whatever it stands for. -/
  | close (object : ι)
  /-- The variable is set to -1. -/
  | reset (object : ι)
  | load (caller : κ) (object : ι)
  /-- A caller writes to the number which it has loaded from this object's variable. -/
  | write (caller : κ) (object : ι)
  | openForeign (number : Nat)
  | closeForeign (number : Nat)
  deriving DecidableEq, Repr

variable {ι κ : Type*}

/-- Close the number in an object's variable, if it is not -1. -/
def closeMember [DecidableEq ι] (table : DescriptorTable ι κ) (object : ι) : DescriptorTable ι κ :=
  match table.member object with
  | some number =>
      { table with
        entry := Function.update table.entry number .closed
        closed := Function.update table.closed object true }
  | none => table

/-- A write goes to -1 or to the open descriptor which the same object created. -/
def Fresh (table : DescriptorTable ι κ) : Label ι κ → Prop
  | .write caller _ =>
      ∀ target ∈ table.loaded caller, ∀ number ∈ target.2, table.entry number = .owned target.1
  | _ => True

/-- A write goes to -1 or is made before the object has closed its descriptor. -/
def BeforeClose (table : DescriptorTable ι κ) : Label ι κ → Prop
  | .write caller _ =>
      ∀ target ∈ table.loaded caller, ∀ _ ∈ target.2, table.closed target.1 = false
  | _ => True

/-- A close which an object repeats hits no number which an object has open. -/
def RepeatsHarmlessly (table : DescriptorTable ι κ) : Label ι κ → Prop
  | .close object =>
      ∀ number ∈ table.member object,
        table.closed object = true → (table.entry number).isOwned = false
  | _ => True

/-- No object creates a second descriptor. -/
def CreatesOnce (table : DescriptorTable ι κ) : Label ι κ → Prop
  | .create object _ => table.created object = none
  | _ => True

/-- The open descriptors are those which their objects have created and not closed, and every number
in a variable was created by the object of that variable. -/
structure Sound (table : DescriptorTable ι κ) : Prop where
  owned : ∀ {number object}, table.entry number = .owned object →
    table.created object = some number ∧ table.closed object = false
  live : ∀ {number object}, table.created object = some number → table.closed object = false →
    table.entry number = .owned object
  member : ∀ {number object}, table.member object = some number →
    table.created object = some number
  loaded : ∀ {caller number object}, table.loaded caller = some (object, some number) →
    table.created object = some number

theorem empty_sound : Sound (empty : DescriptorTable ι κ) := by
  constructor <;> simp [empty]

/-- A new descriptor of an object which had none. -/
theorem Sound.create [DecidableEq ι] {table : DescriptorTable ι κ} (sound : Sound table)
    {object : ι} {number : Nat}
    (free : table.entry number = .closed) (first : table.created object = none) :
    Sound
      { table with
        entry := Function.update table.entry number (.owned object)
        member := Function.update table.member object (some number)
        created := Function.update table.created object (some number)
        closed := Function.update table.closed object false } where
  owned := by
    intro other_number other
    have := @sound.owned other_number other
    grind [Function.update_apply]
  live := by
    intro other_number other
    have := @sound.live other_number other
    grind [Function.update_apply]
  member := by
    intro other_number other
    have := @sound.member other_number other
    grind [Function.update_apply]
  loaded := by
    intro caller other_number other
    have := @sound.loaded caller other_number other
    grind [Function.update_apply]

/-- A close which is the first one of its object, or harmless. -/
theorem Sound.closeMember [DecidableEq ι] {table : DescriptorTable ι κ} (sound : Sound table)
    {object : ι}
    (harmless : table.RepeatsHarmlessly (.close object)) : Sound (table.closeMember object) := by
  rw [DescriptorTable.closeMember]
  split
  next number held =>
    have created := sound.member held
    have own : ∀ other, table.entry number = .owned other → other = object := by
      intro other owned
      by_contra different
      cases closed : table.closed object with
      | false => simp_all [sound.live created closed]
      | true => simpa [owned, DescriptorEntry.isOwned] using harmless number held closed
    refine ⟨fun {other_number other} => ?_, fun {other_number other} => ?_, sound.member,
      sound.loaded⟩
    · have := @sound.owned other_number other
      grind [Function.update_apply]
    · have := @sound.live other_number other
      grind [Function.update_apply]
  next => exact sound

/-- The variable of an object becomes -1. -/
theorem Sound.clearMember [DecidableEq ι] {table : DescriptorTable ι κ} (sound : Sound table)
    (object : ι) :
    Sound { table with member := Function.update table.member object none } where
  owned := sound.owned
  live := sound.live
  member := by
    intro number other held
    have := @sound.member number other
    grind [Function.update_apply]
  loaded := sound.loaded

/-- A caller finds in a variable what was created by its object. -/
theorem Sound.load [DecidableEq κ] {table : DescriptorTable ι κ} (sound : Sound table)
    (caller : κ) (object : ι) :
    Sound
      { table with
        loaded :=
          Function.update table.loaded caller (some (object, table.member object)) } where
  owned := sound.owned
  live := sound.live
  member := sound.member
  loaded := by
    intro other number target
    have := @sound.loaded other number target
    have := @sound.member number object
    grind [Function.update_apply]

/-- A number which no object has open changes its meaning for other code only. -/
theorem Sound.updateForeign {table : DescriptorTable ι κ} (sound : Sound table) {number : Nat}
    {entry : DescriptorEntry ι} (not_owned : (table.entry number).isOwned = false)
    (still_not_owned : entry.isOwned = false) :
    Sound { table with entry := Function.update table.entry number entry } where
  owned := by
    intro other_number object
    have := @sound.owned other_number object
    grind [Function.update_apply, DescriptorEntry.isOwned]
  live := by
    intro other_number object
    have := @sound.live other_number object
    grind [Function.update_apply, DescriptorEntry.isOwned]
  member := sound.member
  loaded := sound.loaded

/-- In a sound table a number refers to its own object exactly before that object's close. -/
theorem Sound.fresh_iff {table : DescriptorTable ι κ} (sound : Sound table) (label : Label ι κ) :
    table.Fresh label ↔ table.BeforeClose label := by
  cases label with
  | write caller object =>
      constructor
      · rintro fresh ⟨owner, _⟩ target number rfl
        exact (sound.owned (fresh _ target number rfl)).2
      · rintro before_close ⟨owner, _⟩ target number rfl
        exact sound.live (sound.loaded target) (before_close _ target number rfl)
  | create | createFails | close | reset | load | openForeign | closeForeign => exact Iff.rfl

variable [DecidableEq ι] [DecidableEq κ]

/-- One action of an object, a caller or foreign code. -/
def step (table : DescriptorTable ι κ) : Label ι κ → Option (DescriptorTable ι κ)
  | .create object number =>
      if table.entry number = .closed then
        some
          { table with
            entry := Function.update table.entry number (.owned object)
            member := Function.update table.member object (some number)
            created := Function.update table.created object (some number)
            closed := Function.update table.closed object false }
      else
        none
  | .createFails object =>
      some { table with member := Function.update table.member object none }
  | .close object => some (table.closeMember object)
  | .reset object => some { table with member := Function.update table.member object none }
  | .load caller object =>
      some
        { table with
          loaded := Function.update table.loaded caller (some (object, table.member object)) }
  | .write caller object =>
      if (table.loaded caller).map Prod.fst = some object then
        some { table with loaded := Function.update table.loaded caller none }
      else
        none
  | .openForeign number =>
      if table.entry number = .closed then
        some { table with entry := Function.update table.entry number .foreign }
      else
        none
  | .closeForeign number =>
      if table.entry number = .foreign then
        some { table with entry := Function.update table.entry number .closed }
      else
        none

/-- Objects, callers and foreign code under every interleaving. -/
def machine : Machine (DescriptorTable ι κ) (Label ι κ) := ⟨step⟩

instance (table : DescriptorTable ι κ) : (label : Label ι κ) → Decidable (table.Fresh label)
  | .write caller _ =>
      inferInstanceAs (Decidable (∀ target ∈ table.loaded caller, ∀ number ∈ target.2,
        table.entry number = .owned target.1))
  | .create .. | .createFails _ | .close _ | .reset _ | .load .. | .openForeign _
  | .closeForeign _ => isTrue trivial

instance (table : DescriptorTable ι κ) : (label : Label ι κ) → Decidable (table.BeforeClose label)
  | .write caller _ =>
      inferInstanceAs (Decidable (∀ target ∈ table.loaded caller, ∀ _ ∈ target.2,
        table.closed target.1 = false))
  | .create .. | .createFails _ | .close _ | .reset _ | .load .. | .openForeign _
  | .closeForeign _ => isTrue trivial

instance (table : DescriptorTable ι κ) :
    (label : Label ι κ) → Decidable (table.RepeatsHarmlessly label)
  | .close object =>
      inferInstanceAs (Decidable (∀ number ∈ table.member object,
        table.closed object = true → (table.entry number).isOwned = false))
  | .create .. | .createFails _ | .write .. | .reset _ | .load .. | .openForeign _
  | .closeForeign _ => isTrue trivial

theorem step_create {table after : DescriptorTable ι κ} {object : ι} {number : Nat} :
    table.step (.create object number) = some after ↔
      table.entry number = .closed ∧
        { table with
          entry := Function.update table.entry number (.owned object)
          member := Function.update table.member object (some number)
          created := Function.update table.created object (some number)
          closed := Function.update table.closed object false } = after := by
  simp [step]

theorem step_write {table after : DescriptorTable ι κ} {caller : κ} {object : ι} :
    table.step (.write caller object) = some after ↔
      (table.loaded caller).map Prod.fst = some object ∧
        { table with loaded := Function.update table.loaded caller none } = after := by
  simp [step]

theorem step_openForeign {table after : DescriptorTable ι κ} {number : Nat} :
    table.step (.openForeign number) = some after ↔
      table.entry number = .closed ∧
        { table with entry := Function.update table.entry number .foreign } = after := by
  simp [step]

theorem step_closeForeign {table after : DescriptorTable ι κ} {number : Nat} :
    table.step (.closeForeign number) = some after ↔
      table.entry number = .foreign ∧
        { table with entry := Function.update table.entry number .closed } = after := by
  simp [step]

/-- Every step which creates no second descriptor and repeats closes harmlessly. -/
theorem step_sound {table after : DescriptorTable ι κ} {label : Label ι κ} (sound : Sound table)
    (orderly : table.CreatesOnce label ∧ table.RepeatsHarmlessly label)
    (step : table.step label = some after) : Sound after := by
  cases label with
  | create object number =>
      obtain ⟨free, rfl⟩ := step_create.mp step
      exact sound.create free orderly.1
  | close object =>
      obtain rfl := Option.some.inj step
      exact sound.closeMember orderly.2
  | createFails object | reset object =>
      obtain rfl := Option.some.inj step
      exact sound.clearMember object
  | load caller object =>
      obtain rfl := Option.some.inj step
      exact sound.load caller object
  | write caller object =>
      obtain ⟨-, rfl⟩ := step_write.mp step
      refine ⟨sound.owned, sound.live, sound.member, fun {other number target} => ?_⟩
      have := @sound.loaded other number target
      grind [Function.update_apply]
  | openForeign number =>
      obtain ⟨free, rfl⟩ := step_openForeign.mp step
      exact sound.updateForeign (by rw [free]; rfl) rfl
  | closeForeign number =>
      obtain ⟨foreign, rfl⟩ := step_closeForeign.mp step
      exact sound.updateForeign (by rw [foreign]; rfl) rfl

/-- Only `create` gives an object another descriptor. -/
theorem step_created {table after : DescriptorTable ι κ} {label : Label ι κ}
    (step : table.step label = some after) {object : ι}
    (other : ∀ number, label ≠ .create object number) :
    after.created object = table.created object := by
  cases label with
  | create creator number =>
      obtain ⟨-, rfl⟩ := step_create.mp step
      have different : object ≠ creator := by
        rintro rfl
        exact other number rfl
      exact Function.update_of_ne different _ _
  | close closer =>
      obtain rfl := Option.some.inj step
      simp only [closeMember]
      split <;> rfl
  | createFails | reset | load =>
      obtain rfl := Option.some.inj step
      rfl
  | write =>
      obtain ⟨-, rfl⟩ := step_write.mp step
      rfl
  | openForeign =>
      obtain ⟨-, rfl⟩ := step_openForeign.mp step
      rfl
  | closeForeign =>
      obtain ⟨-, rfl⟩ := step_closeForeign.mp step
      rfl

end DescriptorTable
end ShadowCast
