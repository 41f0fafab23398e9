import Mathlib.Data.List.Nodup
import Mathlib.Data.List.Lattice
import Mathlib.Logic.Function.Basic

/-!
# Rings of doubly linked nodes

A heap gives every node a pointer to the next node and one to the previous node.  A ring is a list
of nodes which are linked in both directions, one behind the other, and closed through a sentinel.
There are two changes of a ring: two of its nodes are linked over the one between them, and a node
is linked in between two neighbours.  Both leave any other ring as it is.
-/

namespace LinkedRing

/-- The pointers of all nodes, `none` being the null pointer. -/
@[ext]
structure Heap (α : Type*) where
  next : α → Option α
  prev : α → Option α

namespace Heap

variable {α : Type*}

/-- The nodes are neighbours, and each of them knows the other. -/
def Linked (h : Heap α) (a b : α) : Prop := h.next a = some b ∧ h.prev b = some a

instance [DecidableEq α] (h : Heap α) (a b : α) : Decidable (h.Linked a b) :=
  inferInstanceAs (Decidable (_ ∧ _))

/-- The nodes are linked one behind the other, from the first one through the list to the last
one. -/
def Segment (h : Heap α) : α → List α → α → Prop
  | a, [], b => h.Linked a b
  | a, x :: xs, b => h.Linked a x ∧ h.Segment x xs b

/-- A ring of different nodes, closed through its sentinel. -/
structure Ring (h : Heap α) (sentinel : α) (xs : List α) : Prop where
  segment : h.Segment sentinel xs sentinel
  nodup : (sentinel :: xs).Nodup

/-- Two heaps that agree about a node. -/
def AgreeAt (h h' : Heap α) (a : α) : Prop := h'.next a = h.next a ∧ h'.prev a = h.prev a

/-- The heap with the two directions exchanged. -/
def flip (h : Heap α) : Heap α := ⟨h.prev, h.next⟩

theorem linked_flip {h : Heap α} {a b : α} : h.flip.Linked b a ↔ h.Linked a b := and_comm

theorem segment_append {h : Heap α} {a x b : α} {us vs : List α} :
    h.Segment a (us ++ x :: vs) b ↔ h.Segment a us x ∧ h.Segment x vs b := by
  induction us generalizing a with
  | nil => exact Iff.rfl
  | cons u us ih => simp only [List.cons_append, Segment, ih, and_assoc]

/-- A segment depends on the `next` of all its nodes but the last and the `prev` of all but the
first. -/
theorem Segment.congr {h h' : Heap α} {a b : α} {xs : List α} (segment : h.Segment a xs b)
    (next : ∀ y ∈ a :: xs, h'.next y = h.next y) (prev : ∀ y ∈ xs ++ [b], h'.prev y = h.prev y) :
    h'.Segment a xs b := by
  induction xs generalizing a with
  | nil =>
      rw [Segment, Linked, next a List.mem_cons_self, prev b List.mem_cons_self]
      exact segment
  | cons x xs ih =>
      obtain ⟨linked, segment⟩ := segment
      refine ⟨?_, ih segment (fun y member => next y (List.mem_cons_of_mem a member))
        fun y member => prev y (List.mem_cons_of_mem x member)⟩
      rw [Linked, next a List.mem_cons_self, prev x List.mem_cons_self]
      exact linked

/-- A segment may start at another node. -/
theorem Segment.reattach {h h' : Heap α} {x w b : α} {vs : List α} (segment : h.Segment x vs b)
    (linked : h'.Linked w (vs.headD b)) (next : ∀ y ∈ vs, h'.next y = h.next y)
    (prev : ∀ y ∈ (vs ++ [b]).tail, h'.prev y = h.prev y) : h'.Segment w vs b := by
  cases vs with
  | nil => exact linked
  | cons v vs => exact ⟨linked, segment.2.congr next prev⟩

/-- The neighbours at both ends of a segment. -/
theorem Segment.ends {h : Heap α} {a b : α} {xs : List α} (segment : h.Segment a xs b) :
    h.next a = some (xs.headD b) ∧ h.prev b = some (xs.getLastD a) := by
  induction xs generalizing a with
  | nil => exact segment
  | cons x xs ih =>
      obtain ⟨linked, segment⟩ := segment
      refine ⟨linked.1, (ih segment).2.trans ?_⟩
      cases xs <;> rfl

/-- A segment read backwards. -/
theorem Segment.flip {h : Heap α} {a b : α} {xs : List α} (segment : h.Segment a xs b) :
    h.flip.Segment b xs.reverse a := by
  induction xs generalizing a with
  | nil => exact linked_flip.mpr segment
  | cons x xs ih =>
      rw [List.reverse_cons, segment_append]
      exact ⟨ih segment.2, linked_flip.mpr segment.1⟩

theorem Ring.flip {h : Heap α} {sentinel : α} {xs : List α} (ring : h.Ring sentinel xs) :
    h.flip.Ring sentinel xs.reverse := by
  refine ⟨ring.segment.flip, ?_⟩
  have nodup := ring.nodup
  rw [List.nodup_cons] at nodup ⊢
  simpa using nodup

theorem Ring.congr {h h' : Heap α} {sentinel : α} {xs : List α} (ring : h.Ring sentinel xs)
    (agree : ∀ y ∈ sentinel :: xs, h.AgreeAt h' y) : h'.Ring sentinel xs := by
  refine ⟨ring.segment.congr (fun y member => (agree y member).1) fun y member => ?_, ring.nodup⟩
  exact (agree y (by grind)).2

theorem Segment.linked_next {h : Heap α} {a b : α} {xs : List α} (segment : h.Segment a xs b) :
    ∀ y ∈ a :: xs, ∃ z ∈ b :: xs, h.Linked y z := by
  induction xs generalizing a with
  | nil =>
      intro y member
      obtain rfl : y = a := by simpa using member
      exact ⟨b, List.mem_cons_self, segment⟩
  | cons x xs ih =>
      obtain ⟨linked, segment⟩ := segment
      intro y member
      rcases List.mem_cons.mp member with rfl | member
      · exact ⟨x, List.mem_cons_of_mem b List.mem_cons_self, linked⟩
      · obtain ⟨z, inside, linked⟩ := ih segment y member
        exact ⟨z, by grind, linked⟩

/-- In a ring, the two directions are inverse to each other. -/
theorem Ring.linked {h : Heap α} {sentinel : α} {xs : List α} (ring : h.Ring sentinel xs) :
    ∀ a ∈ sentinel :: xs,
      (∃ b ∈ sentinel :: xs, h.Linked a b) ∧ ∃ b ∈ sentinel :: xs, h.Linked b a := by
  intro a member
  refine ⟨ring.segment.linked_next a member, ?_⟩
  obtain ⟨b, inside, linked⟩ := ring.flip.segment.linked_next a (by simpa using member)
  exact ⟨b, by simpa using inside, linked_flip.mp linked⟩

/-- The nodes on both sides of a node of a ring. -/
theorem Ring.neighbours {h : Heap α} {sentinel x : α} {us vs : List α}
    (ring : h.Ring sentinel (us ++ x :: vs)) :
    h.prev x = some (us.getLastD sentinel) ∧ h.next x = some (vs.headD sentinel) := by
  obtain ⟨before, behind⟩ := segment_append.mp ring.segment
  exact ⟨before.ends.2, behind.ends.1⟩

/-- The node before a position of a ring. -/
theorem Ring.prev_headD {h : Heap α} {sentinel : α} {us vs : List α}
    (ring : h.Ring sentinel (us ++ vs)) :
    h.prev (vs.headD sentinel) = some (us.getLastD sentinel) := by
  cases vs with
  | nil => simpa using ring.segment.ends.2
  | cons v vs => exact ring.neighbours.1

/-! ### Walks -/

/-- The nodes from `a` on, in the direction of `step`, up to the node `stop`; `none` if the fuel
runs out or a pointer is null. -/
def walk [DecidableEq α] (step : α → Option α) (stop : α) : Nat → α → Option (List α)
  | 0, _ => none
  | fuel + 1, a =>
      if a = stop then some []
      else
        match step a with
        | none => none
        | some b => (walk step stop fuel b).map (a :: ·)

/-- The nodes behind `a`, up to the node itself. -/
def around [DecidableEq α] (step : α → Option α) (fuel : Nat) (a : α) : Option (List α) :=
  match step a with
  | none => none
  | some first => walk step a fuel first

theorem Segment.walk [DecidableEq α] {h : Heap α} {a b : α} {xs : List α}
    (segment : h.Segment a xs b) (inside : b ∉ xs) {fuel : Nat} (enough : xs.length < fuel) :
    LinkedRing.Heap.walk h.next b fuel (xs.headD b) = some xs := by
  induction xs generalizing a fuel with
  | nil =>
      obtain ⟨fuel, rfl⟩ := Nat.exists_eq_succ_of_ne_zero (Nat.ne_of_gt enough)
      simp [LinkedRing.Heap.walk]
  | cons x xs ih =>
      obtain ⟨fuel, rfl⟩ := Nat.exists_eq_succ_of_ne_zero (Nat.ne_of_gt (Nat.zero_lt_of_lt enough))
      obtain ⟨outside, inside⟩ := List.ne_and_not_mem_of_not_mem_cons inside
      rw [List.headD_cons, LinkedRing.Heap.walk, if_neg outside.symm, segment.2.ends.1]
      simp only [ih segment.2 inside (by simpa using enough), Option.map_some]

/-- A ring is walked through in order, and in reverse order in the other direction. -/
theorem Ring.around [DecidableEq α] {h : Heap α} {sentinel : α} {xs : List α}
    (ring : h.Ring sentinel xs) {fuel : Nat} (enough : xs.length < fuel) :
    LinkedRing.Heap.around h.next fuel sentinel = some xs ∧
      LinkedRing.Heap.around h.prev fuel sentinel = some xs.reverse := by
  have forward {h : Heap α} {xs : List α} (ring : h.Ring sentinel xs) (enough : xs.length < fuel) :
      LinkedRing.Heap.around h.next fuel sentinel = some xs := by
    rw [LinkedRing.Heap.around, ring.segment.ends.1]
    exact ring.segment.walk (List.nodup_cons.mp ring.nodup).1 enough
  exact ⟨forward ring enough, forward ring.flip (by simpa using enough)⟩

/-! ### Several rings -/

variable {ι : Type*}

/-- A ring for each index, no two of which have a node in common. -/
structure Rings (h : Heap α) (sentinel : ι → α) (contents : ι → List α) : Prop where
  ring : ∀ i, h.Ring (sentinel i) (contents i)
  separate : ∀ i j, i ≠ j → (sentinel i :: contents i).Disjoint (sentinel j :: contents j)

/-- Different sentinels which are linked to themselves are empty rings. -/
theorem rings_of_linked {h : Heap α} {sentinel : ι → α} (injective : Function.Injective sentinel)
    (linked : ∀ i, h.Linked (sentinel i) (sentinel i)) : h.Rings sentinel fun _ => [] where
  ring i := ⟨linked i, by simp⟩
  separate i j differ := by
    simpa using fun same => differ (injective same).symm

/-- A change of one ring which leaves the nodes of the others alone. -/
theorem Rings.update [DecidableEq ι] {h h' : Heap α} {sentinel : ι → α} {contents : ι → List α}
    (rings : h.Rings sentinel contents) {i : ι} {ys : List α} (ring : h'.Ring (sentinel i) ys)
    (apart : ∀ j, j ≠ i → (sentinel i :: ys).Disjoint (sentinel j :: contents j))
    (frame : ∀ j, j ≠ i → ∀ y ∈ sentinel j :: contents j, h.AgreeAt h' y) :
    h'.Rings sentinel (Function.update contents i ys) := by
  constructor
  · intro j
    by_cases same : j = i
    · subst same
      simpa using ring
    · rw [Function.update_of_ne same]
      exact (rings.ring j).congr (frame j same)
  · intro j k differ
    by_cases first : j = i
    · subst first
      rw [Function.update_self, Function.update_of_ne differ.symm]
      exact apart k differ.symm
    · rw [Function.update_of_ne first]
      by_cases second : k = i
      · subst second
        rw [Function.update_self]
        exact (apart j first).symm
      · rw [Function.update_of_ne second]
        exact rings.separate j k differ

theorem getLastD_mem (us : List α) (a : α) : us.getLastD a ∈ a :: us := by
  cases us <;> grind

theorem headD_mem (vs : List α) (a : α) : vs.headD a ∈ a :: vs := by
  cases vs <;> simp

/-! ### Changing a pointer -/

variable [DecidableEq α]

/-- Write the pointer to the next node. -/
def setNext (h : Heap α) (a : α) (b : Option α) : Heap α :=
  { h with next := Function.update h.next a b }

/-- Write the pointer to the previous node. -/
def setPrev (h : Heap α) (b : α) (a : Option α) : Heap α :=
  { h with prev := Function.update h.prev b a }

/-- Make two nodes neighbours. -/
def link (h : Heap α) (a b : α) : Heap α := (h.setNext a (some b)).setPrev b (some a)

@[simp] theorem setNext_prev (h : Heap α) (a : α) (b : Option α) :
    (h.setNext a b).prev = h.prev := rfl

@[simp] theorem setPrev_next (h : Heap α) (b : α) (a : Option α) :
    (h.setPrev b a).next = h.next := rfl

@[simp] theorem setNext_next (h : Heap α) (a : α) (b : Option α) (c : α) :
    (h.setNext a b).next c = if c = a then b else h.next c := Function.update_apply ..

@[simp] theorem setPrev_prev (h : Heap α) (b : α) (a : Option α) (c : α) :
    (h.setPrev b a).prev c = if c = b then a else h.prev c := Function.update_apply ..

@[simp] theorem link_next (h : Heap α) (a b c : α) :
    (h.link a b).next c = if c = a then some b else h.next c := by
  simp [link]

@[simp] theorem link_prev (h : Heap α) (a b c : α) :
    (h.link a b).prev c = if c = b then some a else h.prev c := by
  simp [link]

theorem linked_link (h : Heap α) (a b : α) : (h.link a b).Linked a b := by
  simp [Linked]

/-- A link leaves every other node as it is. -/
theorem agreeAt_link {h : Heap α} {a b c : α} (left : c ≠ a) (right : c ≠ b) :
    h.AgreeAt (h.link a b) c := by
  simp [AgreeAt, left, right]

/-- The nodes on both sides of a node are linked over it. -/
theorem Segment.link_over {h : Heap α} {a x b : α} {us vs : List α}
    (segment : h.Segment a (us ++ x :: vs) b) (nodup : (a :: (us ++ x :: vs)).Nodup)
    (outside : b ∉ us ++ x :: vs) :
    (h.link (us.getLastD a) (vs.headD b)).Segment a (us ++ vs) b := by
  induction us generalizing a with
  | nil =>
      refine segment.2.reattach (linked_link h a (vs.headD b)) (fun y member => ?_)
        fun y member => ?_
      · have other : y ≠ a := by grind
        simp [other]
      · have other : y ≠ vs.headD b := by
          cases vs <;> grind
        rw [link_prev, if_neg other]
  | cons u us ih =>
      obtain ⟨linked, segment⟩ := segment
      have rest := ih segment (List.nodup_cons.mp nodup).2 fun member => outside (by simp [member])
      have same : (u :: us).getLastD a = us.getLastD u := by cases us <;> rfl
      rw [same]
      refine ⟨?_, rest⟩
      have left : a ≠ us.getLastD u := by
        cases us <;> grind
      have right : u ≠ vs.headD b := by
        cases vs <;> grind
      rw [Linked, link_next, link_prev, if_neg left, if_neg right]
      exact linked

/-- A node is linked in between two neighbours. -/
theorem Segment.link_in {h : Heap α} {a x b : α} {us vs : List α}
    (segment : h.Segment a (us ++ vs) b) (nodup : (a :: (us ++ vs)).Nodup)
    (outside : b ∉ us ++ vs) (fresh : x ∉ a :: b :: (us ++ vs)) :
    ((h.link (us.getLastD a) x).link x (vs.headD b)).Segment a (us ++ x :: vs) b := by
  induction us generalizing a with
  | nil =>
      have start : a ≠ x := by grind
      have first : x ≠ vs.headD b := by
        cases vs <;> grind
      refine ⟨?_, segment.reattach (linked_link _ x (vs.headD b)) (fun y member => ?_)
        fun y member => ?_⟩
      · rw [Linked, link_next, link_prev, if_neg start, if_neg first]
        exact linked_link h a x
      · have other : y ≠ a := by grind
        have new : y ≠ x := by grind
        simp [other, new]
      · have other : y ≠ vs.headD b := by
          cases vs <;> grind
        have new : y ≠ x := by
          cases vs <;> grind
        rw [link_prev, if_neg other, link_prev, if_neg new]
  | cons u us ih =>
      obtain ⟨linked, segment⟩ := segment
      have rest := ih segment (List.nodup_cons.mp nodup).2
        (fun member => outside (by simp [member])) (by grind)
      have same : (u :: us).getLastD a = us.getLastD u := by cases us <;> rfl
      rw [same]
      refine ⟨?_, rest⟩
      have left : a ≠ us.getLastD u := by
        cases us <;> grind
      have right : u ≠ vs.headD b := by
        cases vs <;> grind
      have start : a ≠ x := by grind
      have second : u ≠ x := by grind
      rw [Linked, link_next, link_prev, if_neg start, if_neg right, link_next, link_prev,
        if_neg left, if_neg second]
      exact linked

theorem Ring.link_over {h : Heap α} {sentinel x : α} {us vs : List α}
    (ring : h.Ring sentinel (us ++ x :: vs)) :
    (h.link (us.getLastD sentinel) (vs.headD sentinel)).Ring sentinel (us ++ vs) := by
  have nodup := ring.nodup
  exact ⟨ring.segment.link_over nodup (List.nodup_cons.mp nodup).1, by grind⟩

theorem Ring.link_in {h : Heap α} {sentinel x : α} {us vs : List α}
    (ring : h.Ring sentinel (us ++ vs)) (fresh : x ∉ sentinel :: (us ++ vs)) :
    ((h.link (us.getLastD sentinel) x).link x (vs.headD sentinel)).Ring sentinel
      (us ++ x :: vs) := by
  have nodup := ring.nodup
  refine ⟨ring.segment.link_in nodup (List.nodup_cons.mp nodup).1 (by grind), ?_⟩
  grind

variable [DecidableEq ι]

/-- A node is taken out of one of the rings. -/
theorem Rings.link_over {h : Heap α} {sentinel : ι → α} {contents : ι → List α}
    (rings : h.Rings sentinel contents) {i : ι} {x : α} {us vs : List α}
    (split : contents i = us ++ x :: vs) :
    (h.link (us.getLastD (sentinel i)) (vs.headD (sentinel i))).Rings sentinel
      (Function.update contents i (us ++ vs)) := by
  have ring := rings.ring i
  rw [split] at ring
  have last := getLastD_mem us (sentinel i)
  have first := headD_mem vs (sentinel i)
  refine rings.update ring.link_over (fun j differ => ?_) fun j differ y member => ?_
  · have apart := rings.separate i j differ.symm
    rw [split] at apart
    exact List.disjoint_of_subset_left (by grind) apart
  · have apart := rings.separate i j differ.symm
    rw [split] at apart
    refine agreeAt_link ?_ ?_
    · rintro rfl
      exact apart (by grind) member
    · rintro rfl
      exact apart (by grind) member

/-- A node that is in no ring is put into one. -/
theorem Rings.link_in {h : Heap α} {sentinel : ι → α} {contents : ι → List α}
    (rings : h.Rings sentinel contents) {i : ι} {x : α} {us vs : List α}
    (split : contents i = us ++ vs) (fresh : ∀ j, x ∉ sentinel j :: contents j) :
    ((h.link (us.getLastD (sentinel i)) x).link x (vs.headD (sentinel i))).Rings sentinel
      (Function.update contents i (us ++ x :: vs)) := by
  have ring := rings.ring i
  rw [split] at ring
  have new := fresh i
  rw [split] at new
  have last := getLastD_mem us (sentinel i)
  have first := headD_mem vs (sentinel i)
  refine rings.update (ring.link_in new) (fun j differ => ?_) fun j differ y member => ?_
  · have apart := rings.separate i j differ.symm
    rw [split] at apart
    intro y mine other
    by_cases added : y = x
    · exact fresh j (added ▸ other)
    · exact apart (by grind) other
  · have apart := rings.separate i j differ.symm
    rw [split] at apart
    have old : y ≠ x := fun same => fresh j (same ▸ member)
    have left : y ≠ us.getLastD (sentinel i) := by
      rintro rfl
      exact apart (by grind) member
    have right : y ≠ vs.headD (sentinel i) := by
      rintro rfl
      exact apart (by grind) member
    obtain ⟨next, prev⟩ := agreeAt_link (h := h) left old
    obtain ⟨next', prev'⟩ := agreeAt_link (h := h.link (us.getLastD (sentinel i)) x) old right
    exact ⟨next'.trans next, prev'.trans prev⟩

end Heap
end LinkedRing
