import Mathlib.Tactic.ByContra

/-!
# Binary search

The standard library searches a sorted range for the first element that is not below a value.  It
only sees the answers of the comparisons, so the search is stated for a test on positions.
-/

namespace BinarySearch

/-- Halve the `len` positions from `first` on until the first one is found that fails the test. -/
def partitionPoint (below : Nat → Bool) (first len : Nat) : Nat :=
  if len = 0 then first
  else
    let half := len / 2
    let middle := first + half
    if below middle then partitionPoint below (middle + 1) (len - half - 1)
    else partitionPoint below first half
termination_by len

theorem le_partitionPoint (below : Nat → Bool) (first len : Nat) :
    first ≤ partitionPoint below first len := by
  fun_induction partitionPoint below first len with
  | case1 first => exact Nat.le_refl first
  | case2 first len nonempty half middle passes ih => omega
  | case3 first len nonempty half middle fails ih => exact ih

theorem partitionPoint_le (below : Nat → Bool) (first len : Nat) :
    partitionPoint below first len ≤ first + len := by
  fun_induction partitionPoint below first len with
  | case1 => omega
  | case2 first len nonempty half middle passes ih => omega
  | case3 first len nonempty half middle fails ih => omega

/-- If no position passes the test behind one that fails, the search splits the range into those
that pass and those that fail. -/
theorem partitionPoint_spec {below : Nat → Bool} {first len : Nat}
    (sorted : ∀ i j, i ≤ j → first ≤ i → j < first + len → below j → below i) :
    (∀ i, first ≤ i → i < partitionPoint below first len → below i) ∧
      ∀ i, partitionPoint below first len ≤ i → i < first + len → below i = false := by
  fun_induction partitionPoint below first len with
  | case1 first => exact ⟨fun i _ _ => by omega, fun i _ _ => by omega⟩
  | case2 first len nonempty half middle passes ih =>
      have start := le_partitionPoint below (middle + 1) (len - half - 1)
      obtain ⟨pass, fail⟩ := ih fun i j ordered from_ before =>
        sorted i j ordered (by omega) (by omega)
      refine ⟨fun i from_ before => ?_, fun i behind inside => fail i behind (by omega)⟩
      by_cases upper : middle + 1 ≤ i
      · exact pass i upper before
      · exact sorted i middle (by omega) from_ (by omega) passes
  | case3 first len nonempty half middle fails ih =>
      have finish := partitionPoint_le below first half
      obtain ⟨pass, fail⟩ := ih fun i j ordered from_ before =>
        sorted i j ordered (by omega) (by omega)
      refine ⟨pass, fun i behind inside => ?_⟩
      by_cases lower : i < first + half
      · exact fail i behind lower
      · have later := mt (sorted middle i (by omega) (by omega) inside) fails
        simpa using later

/-- The result is the position between what passes and what fails. -/
theorem partitionPoint_eq_iff {below : Nat → Bool} {len : Nat}
    (sorted : ∀ i j, i ≤ j → j < len → below j → below i) (i : Nat) :
    partitionPoint below 0 len = i ↔
      i ≤ len ∧ (0 < i → below (i - 1)) ∧ (i < len → below i = false) := by
  have split : (∀ i, 0 ≤ i → i < partitionPoint below 0 len → below i) ∧
      ∀ i, partitionPoint below 0 len ≤ i → i < 0 + len → below i = false :=
    partitionPoint_spec fun i j ordered _ before => sorted i j ordered (by omega)
  obtain ⟨pass, fail⟩ := split
  have bounded := partitionPoint_le below 0 len
  constructor
  · rintro rfl
    exact ⟨by omega, fun pos => pass _ (by omega) (by omega), fun inside =>
      fail _ (Nat.le_refl _) (by omega)⟩
  · rintro ⟨inside, before, behind⟩
    apply Nat.le_antisymm
    · by_contra above
      have wrong := behind (by omega)
      rw [pass i (by omega) (by omega)] at wrong
      cases wrong
    · by_contra beneath
      have wrong := before (by omega)
      rw [fail (i - 1) (by omega) (by omega)] at wrong
      cases wrong

end BinarySearch
