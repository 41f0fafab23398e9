import ShadowCast.IntrusiveList
import Mathlib.Data.Fintype.Basic
import Mathlib.Data.List.TakeWhile

/-!
# Intrusive lists as sequences

Any number of lists share the items of one heap.  Seen from outside, the operations are functions on
sequences, and a position is an item or the end.

`splice` erases the items of its range one by one and inserts each before the target position.  When
the range ends at the target position, the items arrive where the range ends, and from two items on
the loop meets them again and again.
-/

namespace ShadowCast
namespace IntrusiveList

open LinkedRing

/-! ### Sequences -/

section Sequences

variable {α : Type} [DecidableEq α]

/-- Put the items in front of a position, or at the end. -/
def insertAll (before : α) (items xs : List α) : List α :=
  xs.takeWhile (· ≠ before) ++ items ++ xs.dropWhile (· ≠ before)

/-- The items from one position up to another. -/
def between (first last : α) (xs : List α) : List α :=
  (xs.dropWhile (· ≠ first)).takeWhile (· ≠ last)

/-- Take the items out. -/
def without (items xs : List α) : List α := xs.filter (· ∉ items)

/-- The position behind an item. -/
def successor (pos stop : α) (xs : List α) : α := (xs.dropWhile (· ≠ pos)).tail.headD stop

theorem takeWhile_of_notMem {b : α} {xs : List α} (absent : b ∉ xs) :
    xs.takeWhile (· ≠ b) = xs ∧ xs.dropWhile (· ≠ b) = [] := by
  have all : ∀ x ∈ xs, decide (x ≠ b) = true := by
    intro x member
    simp only [ne_eq, decide_eq_true_eq]
    rintro rfl
    exact absent member
  exact ⟨List.takeWhile_eq_self_iff.mpr all, List.dropWhile_eq_nil_iff.mpr all⟩

/-- A list is split at the first occurrence of an item. -/
theorem takeWhile_split {b : α} {us vs : List α} (absent : b ∉ us) :
    (us ++ b :: vs).takeWhile (· ≠ b) = us ∧ (us ++ b :: vs).dropWhile (· ≠ b) = b :: vs := by
  induction us with
  | nil => simp
  | cons u us ih =>
      obtain ⟨other, absent⟩ := List.ne_and_not_mem_of_not_mem_cons absent
      obtain ⟨take, drop⟩ := ih absent
      simp only [List.cons_append, List.takeWhile_cons, List.dropWhile_cons, other.symm, ne_eq,
        not_false_eq_true, decide_true, if_true] at take drop ⊢
      exact ⟨congrArg (u :: ·) take, drop⟩

/-- The part behind the split starts at the position. -/
theorem headD_dropWhile {b stop : α} {xs : List α} (position : b = stop ∨ b ∈ xs)
    (outside : stop ∉ xs) : (xs.dropWhile (· ≠ b)).headD stop = b := by
  by_cases member : b ∈ xs
  · obtain ⟨us, vs, rfl, absent⟩ := List.eq_append_cons_of_mem member
    rw [(takeWhile_split absent).2]
    rfl
  · rw [(takeWhile_of_notMem member).2]
    exact (position.resolve_right member).symm

theorem insertAll_nil (b : α) (xs : List α) : insertAll b [] xs = xs := by
  rw [insertAll, List.append_nil, List.takeWhile_append_dropWhile]

theorem insertAll_eq {b : α} {us vs : List α} (items : List α) (absent : b ∉ us)
    (start : ∀ v ∈ vs.head?, v = b) : insertAll b items (us ++ vs) = us ++ items ++ vs := by
  cases vs with
  | nil =>
      rw [List.append_nil, insertAll, (takeWhile_of_notMem absent).1,
        (takeWhile_of_notMem absent).2]
  | cons v vs =>
      obtain rfl := start v rfl
      rw [insertAll, (takeWhile_split absent).1, (takeWhile_split absent).2]

theorem exists_split (b : α) (xs : List α) :
    ∃ us vs, xs = us ++ vs ∧ b ∉ us ∧ ∀ v ∈ vs.head?, v = b := by
  by_cases member : b ∈ xs
  · obtain ⟨us, vs, rfl, absent⟩ := List.eq_append_cons_of_mem member
    exact ⟨us, b :: vs, rfl, absent, by simp⟩
  · exact ⟨xs, [], (List.append_nil xs).symm, member, by simp⟩

/-- Items that are put before the same position one after the other stay in order. -/
theorem insertAll_insertAll {b y : α} (other : b ≠ y) (items xs : List α) :
    insertAll b items (insertAll b [y] xs) = insertAll b (y :: items) xs := by
  obtain ⟨us, vs, rfl, absent, start⟩ := exists_split b xs
  rw [insertAll_eq [y] absent start, insertAll_eq (y :: items) absent start,
    insertAll_eq items (by simp [absent, other]) start]
  simp

theorem without_nil (xs : List α) : without [] xs = xs := by simp [without]

theorem without_without (y : α) (items xs : List α) :
    without items (without [y] xs) = without (y :: items) xs := by
  simp only [without, List.filter_filter]
  exact List.filter_congr fun x _ => by simp [Bool.and_comm]

/-- Items are taken out on both sides of the position. -/
theorem without_insertAll {b y : α} {items : List α} (kept : b ∉ items) (new : y ∉ items)
    (xs : List α) : without items (insertAll b [y] xs) = insertAll b [y] (without items xs) := by
  obtain ⟨us, vs, rfl, absent, start⟩ := exists_split b xs
  have start' : ∀ v ∈ (without items vs).head?, v = b := by
    cases vs with
    | nil => simp [without]
    | cons v vs =>
        obtain rfl := start v rfl
        simp [without, kept]
  have absent' : b ∉ without items us := fun member => absent (List.mem_of_mem_filter member)
  have split : without items (us ++ vs) = without items us ++ without items vs :=
    List.filter_append us vs
  rw [insertAll_eq [y] absent start, split, insertAll_eq [y] absent' start']
  simp [without, new]

theorem without_split {us items vs : List α} (nodup : (us ++ items ++ vs).Nodup) :
    without items (us ++ items ++ vs) = us ++ vs := by
  have all {ys : List α} (apart : ∀ y ∈ ys, y ∉ items) : without items ys = ys :=
    List.filter_eq_self.mpr fun y member => by simpa using apart y member
  have none : without items items = [] := List.filter_eq_nil_iff.mpr (by simp)
  have split : without items (us ++ items ++ vs) =
      without items us ++ without items items ++ without items vs := by
    simp [without]
  rw [split, none, List.append_nil, all (by grind), all (by grind)]

/-- An item that is put before a position does not come between the items of a range and its end,
unless the range is empty and ends at the position. -/
theorem insertAll_split {b y stop : α} {us items vs : List α} (outside : b ∉ items)
    (position : b = stop ∨ b ∈ us ++ items ++ vs) (settles : b = vs.headD stop → items = []) :
    ∃ us' vs', insertAll b [y] (us ++ items ++ vs) = us' ++ items ++ vs' ∧
      vs'.headD stop = vs.headD stop := by
  by_cases front : b ∈ us
  · obtain ⟨us, us', rfl, absent⟩ := List.eq_append_cons_of_mem front
    refine ⟨us ++ y :: b :: us', vs, ?_, rfl⟩
    have here : insertAll b [y] (us ++ (b :: us' ++ items ++ vs)) =
        us ++ [y] ++ (b :: us' ++ items ++ vs) := insertAll_eq [y] absent (by simp)
    simpa using here
  · by_cases ends : b = vs.headD stop
    · obtain rfl := settles ends
      refine ⟨us ++ [y], vs, ?_, rfl⟩
      have start : ∀ v ∈ vs.head?, v = b := by
        cases vs <;> grind
      simpa using insertAll_eq [y] front start
    · obtain ⟨vs₁, vs₂, rfl, absent, start⟩ := exists_split b vs
      refine ⟨us, vs₁ ++ y :: vs₂, ?_, ?_⟩
      · have here : insertAll b [y] (us ++ items ++ vs₁ ++ vs₂) =
            us ++ items ++ vs₁ ++ [y] ++ vs₂ := insertAll_eq [y] (by grind) start
        simpa using here
      · cases vs₁ with
        | cons v vs₁ => rfl
        | nil =>
            cases vs₂ with
            | cons v vs₂ => exact absurd (start v rfl).symm ends
            | nil => grind

end Sequences

variable {ι α : Type} {sentinel : ι → α}

/-! ### Several lists -/

/-- An item or the end of the list. -/
def Position (sentinel : ι → α) (contents : ι → List α) (list : ι) (pos : α) : Prop :=
  pos = sentinel list ∨ pos ∈ contents list

/-- An item that is in no list. -/
def Fresh (sentinel : ι → α) (contents : ι → List α) (item : α) : Prop :=
  ∀ list, item ∉ sentinel list :: contents list

theorem position_first (contents : ι → List α) (list : ι) :
    Position sentinel contents list ((contents list).headD (sentinel list)) := by
  unfold Position
  cases contents list <;> simp

variable [DecidableEq α]

/-- Every list is a ring, in which the pointers are inverse to each other, no node is in two of
them, and they are walked through in order and in reverse order. -/
structure Represents (sentinel : ι → α) (h : Heap α) (contents : ι → List α) : Prop where
  rings : h.Rings sentinel contents
  inverse : ∀ list, ∀ a ∈ sentinel list :: contents list,
    (∃ b ∈ sentinel list :: contents list, h.Linked a b) ∧
      ∃ b ∈ sentinel list :: contents list, h.Linked b a
  walks : ∀ list fuel, (contents list).length < fuel →
    Heap.around h.next fuel (sentinel list) = some (contents list) ∧
      Heap.around h.prev fuel (sentinel list) = some (contents list).reverse

theorem represents_of_rings {h : Heap α} {contents : ι → List α}
    (rings : h.Rings sentinel contents) : Represents sentinel h contents where
  rings := rings
  inverse list := (rings.ring list).linked
  walks list _ enough := (rings.ring list).around enough

variable [DecidableEq ι]

/-- Move items of one list in front of a position of another one, which may be the same. -/
def moveRange (contents : ι → List α) (list : ι) (before : α) (other : ι) (items : List α) :
    ι → List α :=
  let taken := Function.update contents other (without items (contents other))
  Function.update taken list (insertAll before items (taken list))

theorem moveRange_nil (contents : ι → List α) (list : ι) (before : α) (other : ι) :
    moveRange contents list before other [] = contents := by
  simp only [moveRange, without_nil, insertAll_nil, Function.update_eq_self]

/-- Moving items one after the other moves them all, in order. -/
theorem moveRange_cons {before y : α} {items : List α} (other_item : before ≠ y)
    (kept : before ∉ items) (new : y ∉ items) (contents : ι → List α) (list other : ι) :
    moveRange (moveRange contents list before other [y]) list before other items =
      moveRange contents list before other (y :: items) := by
  funext i
  by_cases same : list = other
  · subst same
    by_cases here : i = list
    · subst here
      simp only [moveRange, Function.update_self]
      rw [without_insertAll kept new, without_without, insertAll_insertAll other_item]
    · simp [moveRange, here]
  · by_cases target : i = list
    · subst target
      simp only [moveRange, Function.update_self, Function.update_of_ne same]
      rw [insertAll_insertAll other_item]
    · by_cases source : i = other
      · subst source
        simp only [moveRange, Function.update_self, Function.update_of_ne target]
        rw [without_without]
      · simp [moveRange, target, source]

/-! ### The loop of `splice` -/

/-- One round of the loop moves one item. -/
theorem spliceLoop_step {h : Heap α} {contents : ι → List α} (rings : h.Rings sentinel contents)
    {list other : ι} {before y : α} {us rest : List α}
    (split : contents other = us ++ y :: rest)
    (position : before = sentinel list ∨ before ∈ contents list) (outside : before ≠ y) :
    ∃ after, (∀ last fuel, y ≠ last →
        spliceLoop (sentinel other) last (fuel + 1) y before h =
          spliceLoop (sentinel other) last fuel (rest.headD (sentinel other)) before after) ∧
      after.Rings sentinel (moveRange contents list before other [y]) := by
  have ring := rings.ring other
  rw [split] at ring
  have erased := erase_eq ring
  have rings₁ := rings.link_over split
  have taken : Function.update contents other (us ++ rest) =
      Function.update contents other (without [y] (contents other)) := by
    have nodup := (List.nodup_cons.mp ring.nodup).2
    have here : without [y] (us ++ [y] ++ rest) = us ++ rest :=
      without_split (by simpa using nodup)
    rw [split, ← here, List.append_assoc]
    rfl
  rw [taken] at rings₁
  have fresh (j : ι) : y ∉ sentinel j :: Function.update contents other
      (without [y] (contents other)) j := by
    by_cases same : j = other
    · subst same
      have := ring.nodup
      rw [Function.update_self]
      simp only [without, List.mem_cons, List.mem_filter]
      grind
    · rw [Function.update_of_ne same]
      exact rings.separate other j (Ne.symm same) (by simp [split])
  have position₁ : before = sentinel list ∨
      before ∈ Function.update contents other (without [y] (contents other)) list := by
    by_cases same : list = other
    · subst same
      simpa [without, outside] using position
    · rwa [Function.update_of_ne same]
  obtain ⟨us', vs', split₁, absent, start⟩ := exists_split before
    (Function.update contents other (without [y] (contents other)) list)
  have target : vs'.headD (sentinel list) = before := by
    cases vs' with
    | nil => grind
    | cons v vs' => exact start v rfl
  have ring₁ := rings₁.ring list
  rw [split₁] at ring₁
  have inserted := insert_eq ring₁ y
  have rings₂ := rings₁.link_in split₁ fresh
  rw [target] at inserted rings₂
  have moved : moveRange contents list before other [y] =
      Function.update (Function.update contents other (without [y] (contents other))) list
        (us' ++ y :: vs') := by
    rw [moveRange, split₁, insertAll_eq [y] absent start, List.append_assoc]
    rfl
  rw [← moved] at rings₂
  refine ⟨_, fun last fuel going => ?_, rings₂⟩
  rw [spliceLoop, if_neg going]
  simp only [erased, inserted, bind, Except.bind]

/-- The range stays together while its first item is moved. -/
theorem moveRange_split {contents : ι → List α} {list other : ι} {before y : α}
    {us items vs : List α} (split : contents other = us ++ y :: items ++ vs)
    (nodup : (us ++ y :: items ++ vs).Nodup)
    (position : before = sentinel list ∨ before ∈ contents list) (outside : before ∉ y :: items)
    (settles : list = other → before = vs.headD (sentinel other) → items = []) :
    ∃ us' vs', moveRange contents list before other [y] other = us' ++ items ++ vs' ∧
      vs'.headD (sentinel other) = vs.headD (sentinel other) := by
  have taken : without [y] (contents other) = us ++ items ++ vs := by
    have here : without [y] (us ++ [y] ++ (items ++ vs)) = us ++ (items ++ vs) :=
      without_split (by simpa using nodup)
    rw [split, List.append_assoc us items vs, ← here]
    simp
  by_cases same : list = other
  · subst same
    simp only [moveRange, Function.update_self, taken]
    refine insertAll_split (fun member => outside (List.mem_cons_of_mem y member)) ?_ (settles rfl)
    rw [split] at position
    grind
  · rw [moveRange]
    simp only [Function.update_of_ne (Ne.symm same), Function.update_self, taken]
    exact ⟨us, vs, rfl, rfl⟩

/-- The positions are kept by a move of other items. -/
theorem position_moveRange {contents : ι → List α} {list other : ι} {before y : α}
    (position : before = sentinel list ∨ before ∈ contents list) (outside : before ≠ y) :
    before = sentinel list ∨ before ∈ moveRange contents list before other [y] list := by
  refine position.imp_right fun member => ?_
  have kept : before ∈ Function.update contents other (without [y] (contents other)) list := by
    by_cases same : list = other
    · subst same
      simpa [without, outside] using member
    · rwa [Function.update_of_ne same]
  obtain ⟨us, vs, split, absent, start⟩ := exists_split before
    (Function.update contents other (without [y] (contents other)) list)
  rw [moveRange, Function.update_self, split, insertAll_eq [y] absent start]
  rw [split] at kept
  grind

/-- Unless two items or more are to be moved to the end of their own range, the loop moves the
range. -/
theorem spliceLoop_spec {h : Heap α} {contents : ι → List α} (rings : h.Rings sentinel contents)
    {list other : ι} {before : α} {us items vs : List α}
    (split : contents other = us ++ items ++ vs)
    (position : before = sentinel list ∨ before ∈ contents list) (outside : before ∉ items)
    (settles : list = other → before = vs.headD (sentinel other) → items.length ≤ 1) :
    ∃ after, (∀ fuel, items.length < fuel →
        spliceLoop (sentinel other) (vs.headD (sentinel other)) fuel
          ((items ++ vs).headD (sentinel other)) before h = .ok after) ∧
      after.Rings sentinel (moveRange contents list before other items) := by
  induction items generalizing h contents us vs with
  | nil =>
      refine ⟨h, fun fuel enough => ?_, by rwa [moveRange_nil]⟩
      obtain ⟨fuel, rfl⟩ := Nat.exists_eq_succ_of_ne_zero (Nat.ne_of_gt enough)
      exact if_pos rfl
  | cons y items ih =>
      have ring := rings.ring other
      rw [split] at ring
      obtain ⟨absent, nodup⟩ := List.nodup_cons.mp ring.nodup
      have differ : before ≠ y := List.ne_of_not_mem_cons outside
      have going : y ≠ vs.headD (sentinel other) := by
        cases vs <;> grind
      obtain ⟨after₁, step, rings₁⟩ := spliceLoop_step rings
        (split.trans (List.append_assoc us (y :: items) vs)) position differ
      obtain ⟨us', vs', split₁, last⟩ := moveRange_split split nodup position outside
        fun same ends => List.length_eq_zero_iff.mp (by
          have := settles same ends
          simpa using this)
      obtain ⟨after, loop, rings₂⟩ := ih rings₁ split₁ (position_moveRange position differ)
        (fun member => outside (List.mem_cons_of_mem y member)) fun same ends => by
          have := settles same (ends.trans last)
          simp only [List.length_cons] at this
          omega
      rw [moveRange_cons differ (fun member => outside (List.mem_cons_of_mem y member))
        (by grind)] at rings₂
      refine ⟨after, fun fuel enough => ?_, rings₂⟩
      obtain ⟨fuel, rfl⟩ := Nat.exists_eq_succ_of_ne_zero (Nat.ne_of_gt (Nat.zero_lt_of_lt enough))
      have next : (items ++ vs').headD (sentinel other) = (items ++ vs).headD (sentinel other) := by
        cases items with
        | nil => exact last
        | cons z items => rfl
      have rest := loop fuel (by simpa using enough)
      rw [last, next] at rest
      exact (step _ fuel going).trans rest

/-- Two items or more that are moved to the end of their own range keep going around. -/
theorem spliceLoop_diverges {h : Heap α} {contents : ι → List α}
    (rings : h.Rings sentinel contents) {list : ι} {us items vs : List α}
    (split : contents list = us ++ items ++ vs) (several : 2 ≤ items.length) (fuel : Nat) :
    spliceLoop (sentinel list) (vs.headD (sentinel list)) fuel
        (items.headD (vs.headD (sentinel list))) (vs.headD (sentinel list)) h =
      .error .outOfFuel := by
  induction fuel generalizing h contents items with
  | zero => rfl
  | succ fuel ih =>
      obtain ⟨y, z, items, rfl⟩ : ∃ y z rest, items = y :: z :: rest := by
        match items with
        | y :: z :: rest => exact ⟨y, z, rest, rfl⟩
        | [] | [_] => simp at several
      have ring := rings.ring list
      rw [split] at ring
      obtain ⟨absent, nodup⟩ := List.nodup_cons.mp ring.nodup
      have going : y ≠ vs.headD (sentinel list) := by
        cases vs <;> grind
      have position : vs.headD (sentinel list) = sentinel list ∨
          vs.headD (sentinel list) ∈ contents list := by
        rw [split]
        cases vs <;> simp
      obtain ⟨after, step, rings₁⟩ := spliceLoop_step rings
        (split.trans (List.append_assoc us (y :: z :: items) vs)) position going.symm
      have turned : moveRange contents list (vs.headD (sentinel list)) list [y] list =
          us ++ (z :: items ++ [y]) ++ vs := by
        have taken : without [y] (us ++ [y] ++ (z :: items ++ vs)) = us ++ (z :: items ++ vs) :=
          without_split (by simpa using nodup)
        have here : insertAll (vs.headD (sentinel list)) [y] (us ++ z :: items ++ vs) =
            us ++ z :: items ++ [y] ++ vs := by
          refine insertAll_eq [y] ?_ ?_
          · cases vs <;> grind
          · cases vs <;> simp
        simp only [moveRange, Function.update_self]
        rw [split, show us ++ y :: z :: items ++ vs = us ++ [y] ++ (z :: items ++ vs) by simp,
          taken, ← List.append_assoc, here]
        simp
      exact (step _ fuel going).trans (ih rings₁ turned (by simp))

/-! ### Runs of operations -/

/-- The operations on the lists, each with its positions. -/
inductive Operation (ι α : Type) where
  | pushFront (list : ι) (item : α)
  | pushBack (list : ι) (item : α)
  | popFront (list : ι)
  | popBack (list : ι)
  | insert (list : ι) (item before : α)
  | erase (list : ι) (pos : α)
  | splice (list : ι) (before : α) (other : ι) (first last : α)
  | spliceAll (list : ι) (before : α) (other : ι)
  deriving DecidableEq, Repr

/-- An operation on the heap, with the iterator it returns. -/
def Operation.exec (sentinel : ι → α) (fuel : Nat) (h : Heap α) :
    Operation ι α → Except Stop (Heap α × Option α)
  | .pushFront list item => (IntrusiveList.pushFront (sentinel list) item h).map (·, none)
  | .pushBack list item => (IntrusiveList.pushBack (sentinel list) item h).map (·, none)
  | .popFront list => (IntrusiveList.popFront (sentinel list) h).map (·, none)
  | .popBack list => (IntrusiveList.popBack (sentinel list) h).map (·, none)
  | .insert _ item before =>
      (IntrusiveList.insert item before h).map fun result => (result.1, some result.2)
  | .erase list pos =>
      (IntrusiveList.erase (sentinel list) pos h).map fun result => (result.1, some result.2)
  | .splice _ before other first last =>
      (IntrusiveList.splice fuel before (sentinel other) first last h).map (·, none)
  | .spliceAll _ before other =>
      (IntrusiveList.spliceAll fuel before (sentinel other) h).map (·, none)

/-- An operation on sequences. -/
def Operation.apply (contents : ι → List α) : Operation ι α → ι → List α
  | .pushFront list item => Function.update contents list (item :: contents list)
  | .pushBack list item => Function.update contents list (contents list ++ [item])
  | .popFront list => Function.update contents list (contents list).tail
  | .popBack list => Function.update contents list (contents list).dropLast
  | .insert list item before =>
      Function.update contents list (insertAll before [item] (contents list))
  | .erase list pos => Function.update contents list (without [pos] (contents list))
  | .splice list before other first last =>
      moveRange contents list before other (between first last (contents other))
  | .spliceAll list before other => moveRange contents list before other (contents other)

/-- The iterator which an operation on sequences returns. -/
def Operation.result (sentinel : ι → α) (contents : ι → List α) : Operation ι α → Option α
  | .insert _ _ before => some before
  | .erase list pos => some (successor pos (sentinel list) (contents list))
  | _ => none

/-- The operation may be called. -/
def Operation.Allowed (sentinel : ι → α) (contents : ι → List α) : Operation ι α → Prop
  | .pushFront _ item | .pushBack _ item => Fresh sentinel contents item
  | .popFront list | .popBack list => contents list ≠ []
  | .insert list item before =>
      Fresh sentinel contents item ∧ Position sentinel contents list before
  | .erase list pos => pos ∈ contents list
  | .splice list before other first last =>
      Position sentinel contents list before ∧ Position sentinel contents other first ∧
        (last = sentinel other ∨ last ∈ (contents other).dropWhile (· ≠ first)) ∧
        before ∉ between first last (contents other)
  | .spliceAll list before other =>
      Position sentinel contents list before ∧ before ∉ contents other

instance [Fintype ι] (contents : ι → List α) (item : α) :
    Decidable (Fresh sentinel contents item) :=
  inferInstanceAs (Decidable (∀ _, _))

instance (contents : ι → List α) (list : ι) (pos : α) :
    Decidable (Position sentinel contents list pos) :=
  inferInstanceAs (Decidable (_ ∨ _))

instance [Fintype ι] (contents : ι → List α) :
    (operation : Operation ι α) → Decidable (operation.Allowed sentinel contents)
  | .pushFront _ item => inferInstanceAs (Decidable (Fresh sentinel contents item))
  | .pushBack _ item => inferInstanceAs (Decidable (Fresh sentinel contents item))
  | .popFront _ => inferInstanceAs (Decidable (_ ≠ _))
  | .popBack _ => inferInstanceAs (Decidable (_ ≠ _))
  | .insert _ _ _ => inferInstanceAs (Decidable (_ ∧ _))
  | .erase _ _ => inferInstanceAs (Decidable (_ ∈ _))
  | .splice _ _ _ _ _ => inferInstanceAs (Decidable (_ ∧ _ ∧ _ ∧ _))
  | .spliceAll _ _ _ => inferInstanceAs (Decidable (_ ∧ _))

/-- The operation does not move two items or more to the end of their own range. -/
def Operation.Settles (sentinel : ι → α) (contents : ι → List α) : Operation ι α → Prop
  | .splice list before other first last =>
      list = other → before = last → (between first last (contents other)).length ≤ 1
  | .spliceAll list before other =>
      list = other → before = sentinel other → (contents other).length ≤ 1
  | _ => True

instance (contents : ι → List α) :
    (operation : Operation ι α) → Decidable (operation.Settles sentinel contents)
  | .splice _ _ _ _ _ => inferInstanceAs (Decidable (_ → _ → _))
  | .spliceAll _ _ _ => inferInstanceAs (Decidable (_ → _ → _))
  | .pushFront _ _ | .pushBack _ _ | .popFront _ | .popBack _ | .insert _ _ _ | .erase _ _ =>
      isTrue trivial

/-- Every operation of the run may be called. -/
def AllAllowed (sentinel : ι → α) : List (Operation ι α) → (ι → List α) → Prop
  | [], _ => True
  | operation :: operations, contents =>
      operation.Allowed sentinel contents ∧
        AllAllowed sentinel operations (operation.apply contents)

instance decidableAllAllowed [Fintype ι] : (operations : List (Operation ι α)) →
    (contents : ι → List α) → Decidable (AllAllowed sentinel operations contents)
  | [], _ => isTrue trivial
  | operation :: operations, contents =>
      have := decidableAllAllowed operations (operation.apply contents)
      inferInstanceAs (Decidable (_ ∧ _))

/-- No operation of the run moves two items or more to the end of their own range. -/
def AllSettle (sentinel : ι → α) : List (Operation ι α) → (ι → List α) → Prop
  | [], _ => True
  | operation :: operations, contents =>
      operation.Settles sentinel contents ∧
        AllSettle sentinel operations (operation.apply contents)

instance decidableAllSettle : (operations : List (Operation ι α)) →
    (contents : ι → List α) → Decidable (AllSettle sentinel operations contents)
  | [], _ => isTrue trivial
  | operation :: operations, contents =>
      have := decidableAllSettle operations (operation.apply contents)
      inferInstanceAs (Decidable (_ ∧ _))

/-- The run ends, and after every operation the lists are the sequences that the operations on
sequences give, as are the iterators that are returned. -/
def Refines (sentinel : ι → α) : List (Operation ι α) → Heap α → (ι → List α) → Prop
  | [], h, contents => Represents sentinel h contents
  | operation :: operations, h, contents =>
      Represents sentinel h contents ∧ ∃ after enough,
        (∀ fuel, enough ≤ fuel → operation.exec sentinel fuel h =
          .ok (after, operation.result sentinel contents)) ∧
        Refines sentinel operations after (operation.apply contents)

/-- A range is a part of the list, between its first position and its last one. -/
theorem between_split {xs : List α} {first last stop : α} (start : first = stop ∨ first ∈ xs)
    (finish : last = stop ∨ last ∈ xs.dropWhile (· ≠ first)) (outside : stop ∉ xs) :
    ∃ us vs, xs = us ++ between first last xs ++ vs ∧
      first = (between first last xs ++ vs).headD stop ∧ last = vs.headD stop := by
  refine ⟨xs.takeWhile (· ≠ first), (xs.dropWhile (· ≠ first)).dropWhile (· ≠ last), ?_, ?_, ?_⟩
  · rw [between, List.append_assoc, List.takeWhile_append_dropWhile,
      List.takeWhile_append_dropWhile]
  · rw [between, List.takeWhile_append_dropWhile]
    exact (headD_dropWhile start outside).symm
  · refine (headD_dropWhile finish fun member => outside ?_).symm
    exact List.dropWhile_sublist _ |>.mem member

variable {h : Heap α} {contents : ι → List α}

theorem pushFront_spec (rings : h.Rings sentinel contents) {list : ι} {item : α}
    (fresh : Fresh sentinel contents item) :
    ∃ after, pushFront (sentinel list) item h = .ok after ∧
      after.Rings sentinel (Function.update contents list (item :: contents list)) := by
  have split : contents list = [] ++ contents list := rfl
  exact ⟨_, pushFront_eq (rings.ring list) (fresh list), rings.link_in split fresh⟩

theorem pushBack_spec (rings : h.Rings sentinel contents) {list : ι} {item : α}
    (fresh : Fresh sentinel contents item) :
    ∃ after, pushBack (sentinel list) item h = .ok after ∧
      after.Rings sentinel (Function.update contents list (contents list ++ [item])) := by
  have split : contents list = contents list ++ [] := (List.append_nil _).symm
  exact ⟨_, pushBack_eq (rings.ring list) item, rings.link_in split fresh⟩

theorem popFront_spec (rings : h.Rings sentinel contents) {list : ι}
    (nonempty : contents list ≠ []) :
    ∃ after, popFront (sentinel list) h = .ok after ∧
      after.Rings sentinel (Function.update contents list (contents list).tail) := by
  obtain ⟨x, xs, split⟩ := List.exists_cons_of_ne_nil nonempty
  have ring := rings.ring list
  rw [split] at ring
  have linked := rings.link_over (split.trans (List.nil_append _).symm)
  rw [split]
  exact ⟨_, popFront_eq ring, linked⟩

theorem popBack_spec (rings : h.Rings sentinel contents) {list : ι}
    (nonempty : contents list ≠ []) :
    ∃ after, popBack (sentinel list) h = .ok after ∧
      after.Rings sentinel (Function.update contents list (contents list).dropLast) := by
  obtain ⟨xs, x, split⟩ := (List.eq_nil_or_concat' (contents list)).resolve_left nonempty
  have ring := rings.ring list
  rw [split] at ring
  have linked := rings.link_over split
  rw [List.append_nil] at linked
  rw [split, List.dropLast_concat]
  exact ⟨_, popBack_eq ring, linked⟩

theorem insert_spec (rings : h.Rings sentinel contents) {list : ι} {item before : α}
    (fresh : Fresh sentinel contents item) (position : Position sentinel contents list before) :
    ∃ after, insert item before h = .ok (after, before) ∧
      after.Rings sentinel
        (Function.update contents list (insertAll before [item] (contents list))) := by
  obtain ⟨us, vs, split, absent, start⟩ := exists_split before (contents list)
  have target : vs.headD (sentinel list) = before := by
    cases vs with
    | nil =>
        refine (position.resolve_right fun member => absent ?_).symm
        simpa [split] using member
    | cons v vs => exact start v rfl
  have ring := rings.ring list
  rw [split] at ring
  have inserted := insert_eq ring item
  have linked := rings.link_in split fresh
  rw [target] at inserted linked
  rw [split, insertAll_eq [item] absent start, List.append_assoc]
  exact ⟨_, inserted, linked⟩

theorem erase_spec (rings : h.Rings sentinel contents) {list : ι} {pos : α}
    (member : pos ∈ contents list) :
    ∃ after, erase (sentinel list) pos h =
        .ok (after, successor pos (sentinel list) (contents list)) ∧
      after.Rings sentinel (Function.update contents list (without [pos] (contents list))) := by
  obtain ⟨us, vs, split, absent⟩ := List.eq_append_cons_of_mem member
  have ring := rings.ring list
  rw [split] at ring
  have nodup := (List.nodup_cons.mp ring.nodup).2
  have taken : without [pos] (us ++ [pos] ++ vs) = us ++ vs := without_split (by simpa using nodup)
  have behind : successor pos (sentinel list) (us ++ pos :: vs) = vs.headD (sentinel list) := by
    rw [successor, (takeWhile_split absent).2]
    rfl
  have linked := rings.link_over split
  rw [← taken] at linked
  rw [split, behind]
  exact ⟨_, erase_eq ring, by simpa using linked⟩

/-- The range of `splice` is moved. -/
theorem splice_spec (rings : h.Rings sentinel contents) {list other : ι} {before first last : α}
    (position : Position sentinel contents list before)
    (start : Position sentinel contents other first)
    (finish : last = sentinel other ∨ last ∈ (contents other).dropWhile (· ≠ first))
    (outside : before ∉ between first last (contents other))
    (settles : list = other → before = last → (between first last (contents other)).length ≤ 1) :
    ∃ after, (∀ fuel, (between first last (contents other)).length < fuel →
        splice fuel before (sentinel other) first last h = .ok after) ∧
      after.Rings sentinel
        (moveRange contents list before other (between first last (contents other))) := by
  have absent := (List.nodup_cons.mp (rings.ring other).nodup).1
  obtain ⟨us, vs, split, first_eq, last_eq⟩ := between_split start finish absent
  obtain ⟨after, loop, rings'⟩ := spliceLoop_spec rings split position outside fun same ends =>
    settles same (ends.trans last_eq.symm)
  rw [← first_eq, ← last_eq] at loop
  exact ⟨after, loop, rings'⟩

/-- Two items or more are never done moving to the end of their own range. -/
theorem splice_diverges (rings : h.Rings sentinel contents) {list : ι} {first last : α}
    (start : Position sentinel contents list first)
    (finish : last = sentinel list ∨ last ∈ (contents list).dropWhile (· ≠ first))
    (several : 2 ≤ (between first last (contents list)).length) (fuel : Nat) :
    splice fuel last (sentinel list) first last h = .error .outOfFuel := by
  have absent := (List.nodup_cons.mp (rings.ring list).nodup).1
  obtain ⟨us, vs, split, first_eq, last_eq⟩ := between_split start finish absent
  have loop := spliceLoop_diverges rings split several fuel
  have same : (between first last (contents list)).headD (vs.headD (sentinel list)) = first := by
    generalize between first last (contents list) = items at several first_eq
    rw [first_eq]
    cases items with
    | nil => simp at several
    | cons y items => rfl
  rw [same, ← last_eq] at loop
  exact loop

theorem between_all {xs : List α} {stop : α} (outside : stop ∉ xs) :
    between (xs.headD stop) stop xs = xs := by
  have all : xs.dropWhile (· ≠ xs.headD stop) = xs := by
    cases xs <;> simp
  rw [between, all]
  exact (takeWhile_of_notMem outside).1

/-- An operation that settles refines its operation on sequences. -/
theorem exec_spec (rings : h.Rings sentinel contents) {operation : Operation ι α}
    (allowed : operation.Allowed sentinel contents)
    (settles : operation.Settles sentinel contents) :
    ∃ after enough, (∀ fuel, enough ≤ fuel → operation.exec sentinel fuel h =
        .ok (after, operation.result sentinel contents)) ∧
      after.Rings sentinel (operation.apply contents) := by
  cases operation with
  | pushFront list item =>
      obtain ⟨after, done, rings'⟩ := pushFront_spec rings allowed
      exact ⟨after, 0, fun _ _ => by rw [Operation.exec, done]; rfl, rings'⟩
  | pushBack list item =>
      obtain ⟨after, done, rings'⟩ := pushBack_spec rings allowed
      exact ⟨after, 0, fun _ _ => by rw [Operation.exec, done]; rfl, rings'⟩
  | popFront list =>
      obtain ⟨after, done, rings'⟩ := popFront_spec rings allowed
      exact ⟨after, 0, fun _ _ => by rw [Operation.exec, done]; rfl, rings'⟩
  | popBack list =>
      obtain ⟨after, done, rings'⟩ := popBack_spec rings allowed
      exact ⟨after, 0, fun _ _ => by rw [Operation.exec, done]; rfl, rings'⟩
  | insert list item before =>
      obtain ⟨after, done, rings'⟩ := insert_spec rings allowed.1 allowed.2
      exact ⟨after, 0, fun _ _ => by rw [Operation.exec, done]; rfl, rings'⟩
  | erase list pos =>
      obtain ⟨after, done, rings'⟩ := erase_spec rings allowed
      exact ⟨after, 0, fun _ _ => by rw [Operation.exec, done]; rfl, rings'⟩
  | splice list before other first last =>
      obtain ⟨position, start, finish, outside⟩ := allowed
      obtain ⟨after, done, rings'⟩ := splice_spec rings position start finish outside settles
      refine ⟨after, (between first last (contents other)).length + 1, fun fuel enough => ?_,
        rings'⟩
      rw [Operation.exec, done fuel enough]
      rfl
  | spliceAll list before other =>
      obtain ⟨position, outside⟩ := allowed
      have all := between_all (List.nodup_cons.mp (rings.ring other).nodup).1
      obtain ⟨after, done, rings'⟩ := splice_spec rings position (position_first contents other)
        (Or.inl rfl) (by rwa [all]) (by rwa [all])
      rw [all] at rings' done
      refine ⟨after, (contents other).length + 1, fun fuel enough => ?_, rings'⟩
      rw [Operation.exec, spliceAll_eq (rings.ring other), done fuel enough]
      rfl

/-- An operation that does not settle never returns. -/
theorem exec_diverges (rings : h.Rings sentinel contents) {operation : Operation ι α}
    (allowed : operation.Allowed sentinel contents)
    (stuck : ¬operation.Settles sentinel contents) (fuel : Nat) :
    operation.exec sentinel fuel h = .error .outOfFuel := by
  cases operation with
  | splice list before other first last =>
      obtain ⟨position, start, finish, outside⟩ := allowed
      simp only [Operation.Settles, Classical.not_imp, Nat.not_le] at stuck
      obtain ⟨rfl, rfl, several⟩ := stuck
      rw [Operation.exec, splice_diverges rings start finish several fuel]
      rfl
  | spliceAll list before other =>
      simp only [Operation.Settles, Classical.not_imp, Nat.not_le] at stuck
      obtain ⟨rfl, rfl, several⟩ := stuck
      have all := between_all (List.nodup_cons.mp (rings.ring list).nodup).1
      rw [Operation.exec, spliceAll_eq (rings.ring list),
        splice_diverges rings (position_first contents list) (Or.inl rfl) (by rwa [all]) fuel]
      rfl
  | _ => exact absurd trivial stuck

/-- A run whose operations settle refines the run on sequences. -/
theorem refines_of_settle {operations : List (Operation ι α)}
    (rings : h.Rings sentinel contents) (allowed : AllAllowed sentinel operations contents)
    (settle : AllSettle sentinel operations contents) :
    Refines sentinel operations h contents := by
  induction operations generalizing h contents with
  | nil => exact represents_of_rings rings
  | cons operation operations ih =>
      obtain ⟨after, enough, done, rings'⟩ := exec_spec rings allowed.1 settle.1
      exact ⟨represents_of_rings rings, after, enough, done, ih rings' allowed.2 settle.2⟩

/-- A run that refines the run on sequences has only operations that settle. -/
theorem settle_of_refines {operations : List (Operation ι α)}
    (rings : h.Rings sentinel contents) (allowed : AllAllowed sentinel operations contents)
    (refines : Refines sentinel operations h contents) :
    AllSettle sentinel operations contents := by
  induction operations generalizing h contents with
  | nil => trivial
  | cons operation operations ih =>
      obtain ⟨-, after, enough, done, rest⟩ := refines
      have settles : operation.Settles sentinel contents := by
        by_contra stuck
        have returned := done enough (Nat.le_refl enough)
        rw [exec_diverges rings allowed.1 stuck] at returned
        cases returned
      refine ⟨settles, ih ?_ allowed.2 rest⟩
      cases operations with
      | nil => exact rest.rings
      | cons => exact rest.1.rings

/-- The lists are sequences all along a run exactly when no `splice` of the run moves two items or
more to the end of their own range. -/
theorem refines_iff {operations : List (Operation ι α)} (rings : h.Rings sentinel contents)
    (allowed : AllAllowed sentinel operations contents) :
    Refines sentinel operations h contents ↔ AllSettle sentinel operations contents :=
  ⟨settle_of_refines rings allowed, refines_of_settle rings allowed⟩

/-- The last item of one list is moved to the front of another one, which is then emptied from the
back, and a single item is moved to its own place. -/
theorem refines_of_two_lists :
    Refines (fun list : Bool => if list then 1 else 0)
      [.pushBack false 2, .pushBack false 3, .pushFront true 4, .splice true 4 false 3 0,
        .popBack true, .erase true 3, .splice false 0 false 2 0]
      (construct 1 (construct 0 ⟨fun _ => none, fun _ => none⟩)) fun _ => [] := by
  refine (refines_iff (Heap.rings_of_linked ?_ ?_) ?_).mpr ?_
  · decide
  · decide
  · decide +kernel
  · decide +kernel

/-- A list of two items whose items are moved to its end. -/
theorem splice_to_own_end :
    ¬∀ operations : List (Operation Unit ℕ),
      AllAllowed (fun _ => 0) operations (fun _ => []) →
        Refines (fun _ => 0) operations (construct 0 ⟨fun _ => none, fun _ => none⟩)
          fun _ => [] := by
  intro every
  have rings : (construct 0 ⟨fun _ => none, fun _ => none⟩ : Heap ℕ).Rings (fun _ : Unit => 0)
      fun _ => [] := Heap.rings_of_linked (fun _ _ _ => rfl) fun _ => by decide
  have allowed : AllAllowed (fun _ : Unit => 0)
      [.pushBack () 1, .pushBack () 2, .spliceAll () 0 ()] (fun _ => []) := by
    decide +kernel
  have settle := settle_of_refines rings allowed (every _ allowed)
  revert settle
  decide +kernel

end IntrusiveList
end ShadowCast
