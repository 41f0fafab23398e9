import Mathlib.Data.List.Basic

/-!
# First-in first-out ledgers

A `Ledger` is a queue which remembers its history: everything that ever entered, everything that
has left, and what is still inside.  The balance is part of the structure, so a ledger in which an
element was lost, repeated or reordered cannot be built.
-/

/-- A queue together with everything that entered it and everything that left it. -/
structure Ledger (α : Type*) where
  /-- Everything that entered, oldest first. -/
  entered : List α
  /-- Everything that has left, oldest first. -/
  left : List α
  /-- What entered and has not left, oldest first. -/
  inside : List α
  /-- Elements leave in the order in which they entered. -/
  balanced : left ++ inside = entered

namespace Ledger

variable {α : Type*}

/-- The ledger of a queue which nothing has entered. -/
def empty : Ledger α := ⟨[], [], [], rfl⟩

/-- Let the elements enter at the back. -/
def push (ledger : Ledger α) (items : List α) : Ledger α where
  entered := ledger.entered ++ items
  left := ledger.left
  inside := ledger.inside ++ items
  balanced := by rw [← List.append_assoc, ledger.balanced]

/-- Let up to `count` elements leave at the front. -/
def pop (ledger : Ledger α) (count : Nat) : Ledger α where
  entered := ledger.entered
  left := ledger.left ++ ledger.inside.take count
  inside := ledger.inside.drop count
  balanced := by rw [List.append_assoc, List.take_append_drop, ledger.balanced]

@[simp] theorem empty_entered : (empty : Ledger α).entered = [] := rfl
@[simp] theorem empty_left : (empty : Ledger α).left = [] := rfl
@[simp] theorem empty_inside : (empty : Ledger α).inside = [] := rfl

@[simp] theorem push_entered (ledger : Ledger α) (items : List α) :
    (ledger.push items).entered = ledger.entered ++ items := rfl
@[simp] theorem push_left (ledger : Ledger α) (items : List α) :
    (ledger.push items).left = ledger.left := rfl
@[simp] theorem push_inside (ledger : Ledger α) (items : List α) :
    (ledger.push items).inside = ledger.inside ++ items := rfl

@[simp] theorem pop_entered (ledger : Ledger α) (count : Nat) :
    (ledger.pop count).entered = ledger.entered := rfl
@[simp] theorem pop_left (ledger : Ledger α) (count : Nat) :
    (ledger.pop count).left = ledger.left ++ ledger.inside.take count := rfl
@[simp] theorem pop_inside (ledger : Ledger α) (count : Nat) :
    (ledger.pop count).inside = ledger.inside.drop count := rfl

/-- A ledger is determined by what has left and what is inside. -/
@[ext]
theorem ext {first second : Ledger α} (left_eq : first.left = second.left)
    (inside_eq : first.inside = second.inside) : first = second := by
  have entered_eq : first.entered = second.entered := by
    rw [← first.balanced, ← second.balanced, left_eq, inside_eq]
  cases first
  cases second
  simp_all

/-- Once the queue is empty, everything that entered has left, in order. -/
theorem left_eq_entered (ledger : Ledger α) (nothing_inside : ledger.inside = []) :
    ledger.left = ledger.entered := by
  simpa [nothing_inside] using ledger.balanced

end Ledger
