import Mathlib.Data.List.Basic

/-!
# Lists cut into groups

`groups width xs` cuts a list into consecutive groups of `width`, the last of which may be
shorter.  A function that works on a list group by group is described by what it does on one
group; the lemmas here move between a list and its groups.
-/

variable {α : Type*}

/-- Consecutive groups of `width` elements (of one element when `width` is zero). -/
def groups (width : Nat) : List α → List (List α)
  | [] => []
  | x :: xs => (x :: xs.take (width - 1)) :: groups width (xs.drop (width - 1))
termination_by xs => xs.length
decreasing_by
  simp only [List.length_drop, List.length_cons]
  omega

namespace groups

variable {width : Nat}

@[simp]
theorem eq_nil : groups width ([] : List α) = [] := by
  simp [groups]

theorem of_ne_nil (positive : 0 < width) {xs : List α} (nonempty : xs ≠ []) :
    groups width xs = xs.take width :: groups width (xs.drop width) := by
  obtain ⟨k, rfl⟩ : ∃ k, width = k + 1 := ⟨width - 1, by omega⟩
  cases xs with
  | nil => exact absurd rfl nonempty
  | cons x xs => rw [groups]; rfl

/-- A full group in front is the first group. -/
theorem append (positive : 0 < width) {group : List α} (full : group.length = width)
    (rest : List α) : groups width (group ++ rest) = group :: groups width rest := by
  have nonempty : group ++ rest ≠ [] := by
    cases group with
    | nil => simp at full; omega
    | cons x group => simp
  rw [of_ne_nil positive nonempty, List.take_left' full, List.drop_left' full]

/-- A short list is its own only group. -/
theorem of_length_le {xs : List α} (nonempty : xs ≠ []) (short : xs.length ≤ width) :
    groups width xs = [xs] := by
  have positive : 0 < width := by
    have := List.length_pos_iff.mpr nonempty
    omega
  rw [of_ne_nil positive nonempty, List.take_of_length_le short, List.drop_of_length_le short,
    eq_nil]

/-- Every list is empty, one short group, or a full group followed by a nonempty rest. -/
theorem induction {P : List α → Prop} (positive : 0 < width) (nil : P [])
    (last : ∀ xs, xs ≠ [] → xs.length ≤ width → P xs)
    (full : ∀ group rest, group.length = width → rest ≠ [] → P rest → P (group ++ rest))
    (xs : List α) : P xs := by
  induction xs using groups.induct width with
  | case1 => exact nil
  | case2 x xs ih =>
      by_cases short : (x :: xs).length ≤ width
      · exact last (x :: xs) (by simp) short
      · have long : width - 1 < xs.length := by
          simp only [List.length_cons] at short
          omega
        have split : x :: xs = (x :: xs.take (width - 1)) ++ xs.drop (width - 1) := by
          rw [List.cons_append, List.take_append_drop]
        rw [split]
        refine full _ _ ?_ ?_ ih
        · simp only [List.length_cons, List.length_take]
          omega
        · simpa using long

end groups
