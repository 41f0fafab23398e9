import ShadowCast.LinkedRing

/-!
# The intrusive list

The items of a list carry its links themselves, and the list is a ring which is closed through a
sentinel.  A list has no other data, so it is known by the address of its sentinel, and an iterator
is the address of an item or of the sentinel.
-/

namespace ShadowCast
namespace IntrusiveList

open LinkedRing

/-- What keeps an operation from returning. -/
inductive Stop where
  | nullPointer
  | assertionFailed
  /-- A loop or a recursion has not ended yet. -/
  | outOfFuel
  deriving DecidableEq, Repr

variable {α : Type}

/-- Follow a pointer. -/
def deref (pointer : Option α) : Except Stop α :=
  match pointer with
  | none => .error .nullPointer
  | some a => .ok a

@[simp] theorem deref_some (a : α) : deref (some a) = .ok a := rfl

/-- `assert`. -/
def assert (condition : Bool) : Except Stop Unit :=
  if condition then .ok () else .error .assertionFailed

variable [DecidableEq α]

/-- The default constructor. -/
def construct (this : α) (h : Heap α) : Heap α :=
  (h.setPrev this (some this)).setNext this (some this)

/-- `empty`. -/
def empty (this : α) (h : Heap α) : Bool := h.next this = some this

/-- `erase`, with the iterator it returns. -/
def erase (this pos : α) (h : Heap α) : Except Stop (Heap α × α) := do
  let () ← assert (pos ≠ this)
  let nextItem ← deref (h.next pos)
  let h := h.setPrev nextItem (h.prev pos)
  let prevItem ← deref (h.prev pos)
  let h := h.setNext prevItem (h.next pos)
  return (h, nextItem)

/-- `push_front`. -/
def pushFront (this item : α) (h : Heap α) : Except Stop (Heap α) := do
  let first ← deref (h.next this)
  let h := h.setPrev first (some item)
  let h := h.setPrev item (some this)
  let h := h.setNext item (h.next this)
  return h.setNext this (some item)

/-- `push_back`. -/
def pushBack (this item : α) (h : Heap α) : Except Stop (Heap α) := do
  let last ← deref (h.prev this)
  let h := h.setNext last (some item)
  let h := h.setNext item (some this)
  let h := h.setPrev item (h.prev this)
  return h.setPrev this (some item)

/-- `pop_back`. -/
def popBack (this : α) (h : Heap α) : Except Stop (Heap α) := do
  let () ← assert (!empty this h)
  let itemToRemove ← deref (h.prev this)
  let h := h.setPrev this (h.prev itemToRemove)
  let last ← deref (h.prev this)
  return h.setNext last (some this)

/-- `pop_front`. -/
def popFront (this : α) (h : Heap α) : Except Stop (Heap α) := do
  let () ← assert (!empty this h)
  let itemToRemove ← deref (h.next this)
  let h := h.setNext this (h.next itemToRemove)
  let first ← deref (h.next this)
  return h.setPrev first (some this)

/-- `insert`, with the iterator it returns, which is the one it was given. -/
def insert (item before : α) (h : Heap α) : Except Stop (Heap α × α) := do
  let previous ← deref (h.prev before)
  let h := h.setNext previous (some item)
  let h := h.setPrev item (h.prev before)
  let h := h.setNext item (some before)
  let h := h.setPrev before (some item)
  return (h, before)

/-- The loop of `splice`, at the item `it` of the list `other`. -/
def spliceLoop (other last : α) : Nat → α → α → Heap α → Except Stop (Heap α)
  | 0, _, _, _ => .error .outOfFuel
  | fuel + 1, it, before, h =>
      if it = last then .ok h
      else do
        let val := it
        let (h, it) ← erase other it h
        let (h, before) ← insert val before h
        spliceLoop other last fuel it before h

/-- `splice` of a range. -/
def splice (fuel : Nat) (before other first last : α) (h : Heap α) : Except Stop (Heap α) :=
  spliceLoop other last fuel first before h

/-- `splice` of a whole list. -/
def spliceAll (fuel : Nat) (before other : α) (h : Heap α) : Except Stop (Heap α) := do
  let first ← deref (h.next other)
  splice fuel before other first other h

/-! ### The operations on a ring -/

theorem construct_ring (this : α) (h : Heap α) : (construct this h).Ring this [] := by
  refine ⟨?_, by simp⟩
  simp [construct, Heap.Segment, Heap.Linked]

theorem empty_iff {h : Heap α} {this : α} {xs : List α} (ring : h.Ring this xs) :
    empty this h = true ↔ xs = [] := by
  rw [empty, decide_eq_true_eq, ring.segment.ends.1, Option.some.injEq]
  have nodup := ring.nodup
  cases xs with
  | nil => simp
  | cons x xs => grind

/-- Erasing an item links its neighbours and returns the one behind it. -/
theorem erase_eq {h : Heap α} {this pos : α} {us vs : List α}
    (ring : h.Ring this (us ++ pos :: vs)) :
    erase this pos h =
      .ok (h.link (us.getLastD this) (vs.headD this), vs.headD this) := by
  obtain ⟨prev, next⟩ := ring.neighbours
  have item : pos ≠ this := by
    have := ring.nodup
    grind
  have kept : (h.setPrev (vs.headD this) (some (us.getLastD this))).prev pos =
      some (us.getLastD this) := by
    rw [Heap.setPrev_prev, prev, ite_self]
  simp only [erase, assert, item, ne_eq, not_false_eq_true, decide_true, if_true, next, bind,
    Except.bind, deref_some, kept, Heap.setPrev_next, pure, Except.pure, prev]
  rfl

/-- Inserting an item before a position links it in. -/
theorem insert_eq {h : Heap α} {this : α} {us vs : List α} (ring : h.Ring this (us ++ vs))
    (item : α) :
    insert item (vs.headD this) h =
      .ok ((h.link (us.getLastD this) item).link item (vs.headD this), vs.headD this) := by
  have prev := ring.prev_headD
  simp only [insert, prev, deref_some, bind, Except.bind, pure, Except.pure, Heap.setNext_prev]
  rfl

/-- Pushing an item to the front links it in behind the sentinel. -/
theorem pushFront_eq {h : Heap α} {this item : α} {xs : List α} (ring : h.Ring this xs)
    (fresh : item ∉ this :: xs) :
    pushFront this item h = .ok ((h.link this item).link item (xs.headD this)) := by
  have next := ring.segment.ends.1
  have other : xs.headD this ≠ item := by
    cases xs <;> grind
  have self : this ≠ item := by grind
  simp only [pushFront, next, deref_some, bind, Except.bind, pure, Except.pure,
    Heap.setPrev_next]
  congr 1
  ext a : 2 <;> simp only [Heap.link_next, Heap.link_prev, Heap.setNext_next, Heap.setNext_prev,
    Heap.setPrev_next, Heap.setPrev_prev] <;> grind

/-- Pushing an item to the back links it in before the sentinel. -/
theorem pushBack_eq {h : Heap α} {this : α} {xs : List α} (ring : h.Ring this xs) (item : α) :
    pushBack this item h = .ok ((h.link (xs.getLastD this) item).link item this) := by
  have prev := ring.segment.ends.2
  simp only [pushBack, prev, deref_some, bind, Except.bind, pure, Except.pure,
    Heap.setNext_prev]
  rfl

/-- Popping an item links the sentinel over it. -/
theorem popFront_eq {h : Heap α} {this x : α} {xs : List α} (ring : h.Ring this (x :: xs)) :
    popFront this h = .ok (h.link this (xs.headD this)) := by
  have full : empty this h = false := by
    rw [← Bool.not_eq_true, empty_iff ring]
    simp
  have first : h.next this = some x := ring.segment.ends.1
  have second : h.next x = some (xs.headD this) := ring.segment.2.ends.1
  simp only [popFront, assert, full, first, second, bind, Except.bind, pure, Except.pure,
    Bool.not_false, if_true, deref_some, Heap.setNext_next]
  rfl

theorem popBack_eq {h : Heap α} {this x : α} {xs : List α} (ring : h.Ring this (xs ++ [x])) :
    popBack this h = .ok (h.link (xs.getLastD this) this) := by
  have full : empty this h = false := by
    rw [← Bool.not_eq_true, empty_iff ring]
    simp
  have last : h.prev this = some x := by simpa using ring.segment.ends.2
  have previous : h.prev x = some (xs.getLastD this) := ring.neighbours.1
  simp only [popBack, assert, full, last, previous, bind, Except.bind, pure, Except.pure,
    Bool.not_false, if_true, deref_some, Heap.setPrev_prev]
  rfl

/-- A whole list is the range from its first position to its end. -/
theorem spliceAll_eq {h : Heap α} {other : α} {xs : List α} (ring : h.Ring other xs)
    (fuel : Nat) (before : α) :
    spliceAll fuel before other h = splice fuel before other (xs.headD other) other h := by
  rw [spliceAll, ring.segment.ends.1]
  rfl

end IntrusiveList
end ShadowCast
