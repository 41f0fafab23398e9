import ShadowCast.IntrusiveListRuns

/-!
# Moves of intrusive lists

The sentinel of a list is part of the list, so a move has to link the first and the last item to
another sentinel.  The move constructor does not link that sentinel to them: its pointers stay null
unless the list is empty.  The move assignment exchanges the list with a temporary one through
`std::swap`, which assigns in turn, and so calls itself without end.

The moves of a pool are the moves of its list.
-/

namespace ShadowCast
namespace IntrusiveList

open LinkedRing

variable {ι α : Type} [DecidableEq α]

/-- The move constructor. -/
def moveConstruct (this other : α) (h : Heap α) : Except Stop (Heap α) := do
  let h := (h.setPrev this none).setNext this none
  if empty other h then return construct this h
  let first ← deref (h.next other)
  let h := h.setPrev first (some this)
  let last ← deref (h.prev other)
  let h := h.setNext last (some this)
  return (h.setPrev other (some other)).setNext other (some other)

/-- The move assignment.  Its temporary list and that of `std::swap` are at the next addresses of
the stack. -/
def moveAssign (stack : Nat → α) : (fuel depth : Nat) → (this other : α) → Heap α →
    Except Stop (Heap α)
  | 0, _, _, _, _ => .error .outOfFuel
  | fuel + 1, depth, this, other, h =>
      if this = other then .ok h
      else do
        let tmp := stack depth
        let h ← moveConstruct tmp other h
        let swapped := stack (depth + 1)
        let h ← moveConstruct swapped this h
        let h ← moveAssign stack fuel (depth + 2) this tmp h
        moveAssign stack fuel (depth + 2) tmp swapped h

/-- The part of a pool that has links, its list of free items. -/
structure PoolLinks (α : Type) where
  poolList : α
  deriving DecidableEq, Repr

/-- The defaulted move constructor of a pool. -/
def PoolLinks.moveConstruct (this other : PoolLinks α) (h : Heap α) : Except Stop (Heap α) :=
  IntrusiveList.moveConstruct this.poolList other.poolList h

/-- The defaulted move assignment of a pool. -/
def PoolLinks.moveAssign (stack : Nat → α) (fuel depth : Nat) (this other : PoolLinks α)
    (h : Heap α) : Except Stop (Heap α) :=
  IntrusiveList.moveAssign stack fuel depth this.poolList other.poolList h

/-- A move from a list or a pool: to a new one at an address, or to one that is there. -/
inductive Move (ι α : Type) where
  | construct (this : α)
  | assign (this : ι)
  | constructPool (this : α)
  | assignPool (this : ι)
  deriving DecidableEq, Repr

/-- The list that is moved to. -/
def Move.target (sentinel : ι → α) : Move ι α → α
  | .construct this | .constructPool this => this
  | .assign this | .assignPool this => sentinel this

/-- A move from the list or pool `other`. -/
def Move.exec (sentinel : ι → α) (stack : Nat → α) (fuel : Nat) (other : ι) (h : Heap α) :
    Move ι α → Except Stop (Heap α)
  | .construct this => moveConstruct this (sentinel other) h
  | .assign this => moveAssign stack fuel 0 (sentinel this) (sentinel other) h
  | .constructPool this => PoolLinks.moveConstruct ⟨this⟩ ⟨sentinel other⟩ h
  | .assignPool this => PoolLinks.moveAssign stack fuel 0 ⟨sentinel this⟩ ⟨sentinel other⟩ h

/-- A new list is constructed where no list is, and a list is assigned to another one. -/
def Move.Allowed (sentinel : ι → α) (contents : ι → List α) (other : ι) : Move ι α → Prop
  | .construct this | .constructPool this => Fresh sentinel contents this
  | .assign this | .assignPool this => this ≠ other

/-- The move constructs a list or a pool. -/
def Move.Constructs : Move ι α → Prop
  | .construct _ | .constructPool _ => True
  | .assign _ | .assignPool _ => False

/-- The move ends, the target has the items of the source in both directions, and the source is
empty. -/
def Transfers (exec : Nat → Except Stop (Heap α)) (target source : α) (xs : List α) : Prop :=
  ∃ after enough, (∀ fuel, enough ≤ fuel → exec fuel = .ok after) ∧ after.Ring target xs ∧
    (∀ fuel, xs.length < fuel → Heap.around after.next fuel target = some xs ∧
      Heap.around after.prev fuel target = some xs.reverse) ∧
    after.Ring source []

/-- The move transfers the items of the list or pool `other`. -/
def Move.Transfers (sentinel : ι → α) (stack : Nat → α) (h : Heap α) (contents : ι → List α)
    (other : ι) (move : Move ι α) : Prop :=
  IntrusiveList.Transfers (fun fuel => move.exec sentinel stack fuel other h)
    (move.target sentinel) (sentinel other) (contents other)

/-- An empty list is moved to a new one. -/
theorem moveConstruct_of_empty {h : Heap α} {this other : α} (ring : h.Ring other [])
    (differ : this ≠ other) :
    ∃ after, moveConstruct this other h = .ok after ∧ after.Ring this [] ∧
      after.Ring other [] := by
  have linked : h.next other = some other ∧ h.prev other = some other := ring.segment
  have isEmpty : empty other ((h.setPrev this none).setNext this none) = true := by
    simp [empty, differ.symm, linked.1]
  refine ⟨construct this ((h.setPrev this none).setNext this none), ?_, construct_ring this _, ?_⟩
  · simp only [moveConstruct, isEmpty, if_true]
    rfl
  · refine ring.congr fun y member => ?_
    obtain rfl : y = other := by simpa using member
    simp [Heap.AgreeAt, construct, differ.symm]

/-- The items of a list that is not empty are linked to the new sentinel, which keeps its null
pointers. -/
theorem moveConstruct_of_nonempty {h : Heap α} {this other : α} {xs : List α}
    (ring : h.Ring other xs) (nonempty : xs ≠ []) (fresh : this ∉ other :: xs) :
    ∃ after, moveConstruct this other h = .ok after ∧ after.next this = none := by
  have nodup := ring.nodup
  obtain ⟨x, xs, rfl⟩ := List.exists_cons_of_ne_nil nonempty
  obtain ⟨next, prev⟩ := ring.segment.ends
  have source : other ≠ this := by grind
  have first : x ≠ other := by grind
  have last : (x :: xs).getLastD other ≠ this := by
    have member := Heap.getLastD_mem (x :: xs) other
    exact fun same => fresh (same ▸ member)
  have begins : ((h.setPrev this none).setNext this none).next other = some x := by
    simpa [source] using next
  have full : empty other ((h.setPrev this none).setNext this none) = false := by
    rw [empty, begins]
    simpa using first
  have ends : (((h.setPrev this none).setNext this none).setPrev x (some this)).prev other =
      some ((x :: xs).getLastD other) := by
    simpa [source, first.symm] using prev
  simp only [moveConstruct, full, begins, ends, deref_some, bind, Except.bind, pure, Except.pure,
    Bool.false_eq_true, if_false]
  refine ⟨_, rfl, ?_⟩
  rw [Heap.setNext_next, if_neg source.symm, Heap.setPrev_next, Heap.setNext_next,
    if_neg last.symm]
  simp

theorem ok_of_bind {β γ : Type} {first : Except Stop β} {rest : β → Except Stop γ} {result : γ}
    (returned : first >>= rest = .ok result) :
    ∃ value, first = .ok value ∧ rest value = .ok result := by
  cases first with
  | error stop => cases returned
  | ok value => exact ⟨value, rfl, returned⟩

/-- The move assignment to another list does not return. -/
theorem moveAssign_ne_ok {stack : Nat → α} {this other : α} (differ : this ≠ other)
    (fuel depth : Nat) (fresh : ∀ k, depth ≤ k → stack k ≠ this) (h after : Heap α) :
    moveAssign stack fuel depth this other h ≠ .ok after := by
  induction fuel generalizing depth other h after with
  | zero => nofun
  | succ fuel ih =>
      rw [moveAssign, if_neg differ]
      intro returned
      obtain ⟨h₁, -, returned⟩ := ok_of_bind returned
      obtain ⟨h₂, -, returned⟩ := ok_of_bind returned
      obtain ⟨h₃, assigned, -⟩ := ok_of_bind returned
      exact ih (fresh depth (Nat.le_refl depth)).symm (depth + 2)
        (fun k above => fresh k (by omega)) h₂ h₃ assigned

/-- A construction transfers the items when there are none. -/
theorem construct_transfers_iff {h : Heap α} {this other : α} {xs : List α}
    (ring : h.Ring other xs) (fresh : this ∉ other :: xs) :
    Transfers (fun _ => moveConstruct this other h) this other xs ↔ xs = [] := by
  constructor
  · rintro ⟨after, enough, returned, target, -⟩
    by_contra nonempty
    obtain ⟨after', returned', null⟩ := moveConstruct_of_nonempty ring nonempty fresh
    cases (returned enough (Nat.le_refl enough)).symm.trans returned'
    cases target.segment.ends.1.symm.trans null
  · rintro rfl
    have differ : this ≠ other := by simpa using fresh
    obtain ⟨after, returned, target, source⟩ := moveConstruct_of_empty ring differ
    exact ⟨after, 0, fun _ _ => returned, target, fun _ enough => target.around enough, source⟩

/-- An assignment to another list transfers nothing. -/
theorem not_assign_transfers {stack : Nat → α} {h : Heap α} {this other : α} {xs : List α}
    (differ : this ≠ other) (unused : ∀ k, stack k ≠ this) :
    ¬Transfers (fun fuel => moveAssign stack fuel 0 this other h) this other xs := by
  rintro ⟨after, enough, returned, -⟩
  exact moveAssign_ne_ok differ enough 0 (fun k _ => unused k) h after
    (returned enough (Nat.le_refl enough))

/-- A move transfers the items exactly when it is a construction and there are none. -/
theorem transfers_iff {sentinel : ι → α} {stack : Nat → α} {h : Heap α} {contents : ι → List α}
    (rings : h.Rings sentinel contents) {other : ι} {move : Move ι α}
    (allowed : move.Allowed sentinel contents other)
    (unused : ∀ list k, stack k ≠ sentinel list) :
    move.Transfers sentinel stack h contents other ↔ move.Constructs ∧ contents other = [] := by
  have assigns {this : ι} (differ : this ≠ other) :
      ¬Transfers (fun fuel => moveAssign stack fuel 0 (sentinel this) (sentinel other) h)
        (sentinel this) (sentinel other) (contents other) := by
    refine not_assign_transfers (fun same => ?_) (unused this)
    exact rings.separate this other differ List.mem_cons_self (by simp [same])
  cases move with
  | construct this =>
      exact (construct_transfers_iff (rings.ring other) (allowed other)).trans
        (iff_of_eq (true_and _)).symm
  | constructPool this =>
      exact (construct_transfers_iff (rings.ring other) (allowed other)).trans
        (iff_of_eq (true_and _)).symm
  | assign this => exact iff_of_false (assigns allowed) (fun both => both.1)
  | assignPool this => exact iff_of_false (assigns allowed) (fun both => both.1)

/-- The addresses of two lists. -/
def twoSentinels (list : Bool) : Nat := if list then 1 else 0

/-- Two constructed lists. -/
def twoLists : Heap Nat := construct 1 (construct 0 ⟨fun _ => none, fun _ => none⟩)

theorem twoLists_rings : twoLists.Rings twoSentinels fun _ => [] :=
  Heap.rings_of_linked (by decide) (by decide)

theorem twoSentinels_unused (list : Bool) (k : Nat) : 10 + k ≠ twoSentinels list := by
  cases list <;> simp [twoSentinels]
  omega

/-- An empty list is moved to a new one. -/
theorem transfers_empty :
    Move.Transfers twoSentinels (10 + ·) twoLists (fun _ => []) false (.construct 7) := by
  have allowed : (Move.construct 7).Allowed twoSentinels (fun _ => []) false := by
    change Fresh _ _ _
    decide
  exact (transfers_iff twoLists_rings allowed twoSentinels_unused).mpr ⟨trivial, rfl⟩

/-- The item of a list can neither be moved to a new list nor to another one. -/
theorem item_is_not_transferred :
    ¬∀ (h : Heap Nat) (contents : Bool → List Nat) (move : Move Bool Nat),
      h.Rings twoSentinels contents → move.Allowed twoSentinels contents false →
        move.Transfers twoSentinels (10 + ·) h contents false := by
  intro every
  have rings : ((twoLists.link 0 2).link 2 0).Rings twoSentinels
      (Function.update (fun _ => []) false [2]) := by
    have added : Fresh twoSentinels (fun _ => []) 2 := by decide
    have split : (fun _ : Bool => ([] : List Nat)) false = [] ++ [] := rfl
    exact twoLists_rings.link_in (i := false) split added
  have fresh : Fresh twoSentinels (Function.update (fun _ => []) false [2]) 7 := by decide
  have moved := every _ _ (.construct 7) rings fresh
  exact absurd ((construct_transfers_iff (rings.ring false) (fresh false)).mp moved) (by decide)

end IntrusiveList
end ShadowCast
