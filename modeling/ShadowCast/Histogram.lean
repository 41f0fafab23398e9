import ShadowCast.BinarySearch
import ShadowCast.Machine
import Mathlib.Algebra.BigOperators.Fin
import Mathlib.Data.BitVec
import Mathlib.Tactic.Ring

/-!
# The histogram

A histogram counts values of an unsigned type in `N` buckets of width `I`.  The boundaries of the
buckets are computed by repeated addition, and the search for a bucket leaves out the last one, so
that it takes everything that lies above the others.

A call of `add_value` is a search and an atomic increment, and calls of other threads may come
between the two.  The boundaries never change, so every call finds the bucket of its value.
-/

namespace ShadowCast

/-- The histogram, with any type of counters: numbers, or the words of `std::atomic_size_t`. -/
structure Histogram (w N : Nat) (κ : Type) where
  buckets : Vector (BitVec w) N
  counts : Vector κ N
  deriving DecidableEq, Repr

namespace Histogram

variable {w N : Nat} {κ : Type}

/-- The loop of the constructor. -/
def boundaries (I : BitVec w) : Nat → BitVec w → List (BitVec w)
  | 0, _ => []
  | n + 1, bucketVal => bucketVal :: boundaries I n (bucketVal + I)

@[simp]
theorem length_boundaries (I : BitVec w) (n : Nat) (bucketVal : BitVec w) :
    (boundaries I n bucketVal).length = n := by
  induction n generalizing bucketVal with
  | zero => rfl
  | succ n ih => simp [boundaries, ih]

/-- `buckets_` after the constructor. -/
def table (N : Nat) (I : BitVec w) : Vector (BitVec w) N :=
  ⟨(boundaries I N I).toArray, by simp⟩

/-- The constructor. -/
def construct [Zero κ] (N : Nat) (I : BitVec w) : Histogram w N κ where
  buckets := table N I
  counts := Vector.replicate N 0

/-- The bucket which `std::lower_bound` finds among all but the last. -/
def position [NeZero N] (buckets : Vector (BitVec w) N) (val : BitVec w) : Fin N where
  val := BinarySearch.partitionPoint (fun i => buckets[i]?.any (· < val)) 0 (N - 1)
  isLt := by
    have := BinarySearch.partitionPoint_le (fun i => buckets[i]?.any (· < val)) 0 (N - 1)
    have := NeZero.ne N
    omega

/-- The atomic increment of a counter. -/
def increment [Add κ] [One κ] (histogram : Histogram w N κ) (n : Fin N) : Histogram w N κ :=
  { histogram with counts := histogram.counts.set n (histogram.counts[n] + 1) }

/-- A call of `add_value` which has found its bucket. -/
structure AddValue (w N : Nat) where
  thread : Nat
  val : BitVec w
  n : Fin N
  deriving DecidableEq, Repr

/-- The histogram and the calls that run. -/
structure Calls (w N : Nat) (κ : Type) where
  histogram : Histogram w N κ
  running : List (AddValue w N) := []
  deriving DecidableEq, Repr

/-- The steps of `add_value`. -/
inductive Label (w : Nat) where
  | search (thread : Nat) (val : BitVec w)
  | increment (thread : Nat)
  deriving DecidableEq, Repr

/-- A step of a thread, which runs one call at a time. -/
def Calls.step [NeZero N] [Add κ] [One κ] (calls : Calls w N κ) :
    Label w → Option (Calls w N κ)
  | .search thread val =>
      if thread ∈ calls.running.map AddValue.thread then none
      else
        let n := position calls.histogram.buckets val
        some { calls with running := { thread, val, n } :: calls.running }
  | .increment thread =>
      match calls.running.find? (fun call => call.thread = thread) with
      | none => none
      | some call =>
          some
            { histogram := calls.histogram.increment call.n
              running := calls.running.erase call }

/-- The machine of any number of threads. -/
def machine [NeZero N] [Add κ] [One κ] : Machine (Calls w N κ) (Label w) := ⟨Calls.step⟩

/-- The values of the calls, in the order of their searches. -/
def added (labels : List (Label w)) : List (BitVec w) :=
  labels.filterMap fun
    | .search _ val => some val
    | .increment _ => none

/-- The value belongs to the bucket: it is at most the upper boundary, which the last bucket lacks,
and above the lower one, which the first bucket lacks. -/
def InBucket (I : BitVec w) (i : Fin N) (val : BitVec w) : Prop :=
  (i.val + 1 < N → val.toNat ≤ (i.val + 1) * I.toNat) ∧ (0 < i.val → i.val * I.toNat < val.toNat)

instance (I : BitVec w) (i : Fin N) (val : BitVec w) : Decidable (InBucket I i val) :=
  inferInstanceAs (Decidable (_ ∧ _))

/-! ### The bucket of a value -/

theorem boundaries_getElem? (I : BitVec w) (n : Nat) (bucketVal : BitVec w) {i : Nat}
    (inside : i < n) : (boundaries I n bucketVal)[i]? = some (bucketVal + i * I) := by
  induction n generalizing bucketVal i with
  | zero => omega
  | succ n ih =>
      cases i with
      | zero => simp [boundaries]
      | succ i =>
          rw [boundaries, List.getElem?_cons_succ, ih _ (by omega)]
          congr 1
          push_cast
          ring

/-- The boundaries are the multiples of the width, which are representable. -/
theorem table_toNat {I : BitVec w} (representable : N * I.toNat < 2 ^ w) {i : Nat}
    (inside : i < N) : ∃ bound, (table N I)[i]? = some bound ∧ bound.toNat = (i + 1) * I.toNat := by
  refine ⟨I + i * I, ?_, ?_⟩
  · simpa [table] using boundaries_getElem? I N I inside
  · have small : (i + 1) * I.toNat < 2 ^ w :=
      lt_of_le_of_lt (Nat.mul_le_mul_right _ inside) representable
    rw [BitVec.toNat_add, BitVec.toNat_mul, BitVec.natCast_eq_ofNat, BitVec.toNat_ofNat,
      Nat.mod_mul_mod, Nat.add_mod_mod, ← Nat.mod_eq_of_lt small]
    ring_nf

/-- The search finds the bucket the value belongs to. -/
theorem position_eq_iff [NeZero N] {I : BitVec w} (representable : N * I.toNat < 2 ^ w)
    (val : BitVec w) (i : Fin N) : position (table N I) val = i ↔ InBucket I i val := by
  have below {j : Nat} (inside : j < N) :
      (table N I)[j]?.any (· < val) = decide ((j + 1) * I.toNat < val.toNat) := by
    obtain ⟨bound, found, value⟩ := table_toNat representable inside
    rw [found, ← value]
    simp [BitVec.lt_def]
  have sorted (j k : Nat) (ordered : j ≤ k) (inside : k < N - 1)
      (passes : (table N I)[k]?.any (· < val)) : (table N I)[j]?.any (· < val) := by
    rw [below (by omega), decide_eq_true_eq] at passes ⊢
    exact lt_of_le_of_lt (Nat.mul_le_mul_right _ (by omega)) passes
  rw [Fin.ext_iff, position, BinarySearch.partitionPoint_eq_iff sorted, InBucket]
  have inside := i.isLt
  constructor
  · rintro ⟨-, before, behind⟩
    refine ⟨fun notLast => ?_, fun notFirst => ?_⟩
    · have fails := behind (by omega)
      rw [below (by omega)] at fails
      simpa using fails
    · have passes := before notFirst
      rw [below (by omega), Nat.sub_add_cancel notFirst] at passes
      simpa using passes
  · rintro ⟨upper, lower⟩
    refine ⟨by omega, fun notFirst => ?_, fun notLast => ?_⟩
    · rw [below (by omega), Nat.sub_add_cancel notFirst]
      simpa using lower notFirst
    · rw [below (by omega)]
      simpa using upper (by omega)

/-! ### Runs -/

/-- Every finished call is counted in the bucket of its value, and every running one has found
it. -/
structure Counted [NeZero N] [AddCommMonoidWithOne κ] (I : BitVec w) (past : List (Label w))
    (calls : Calls w N κ) : Prop where
  buckets : calls.histogram.buckets = table N I
  found : ∀ call ∈ calls.running, call.n = position (table N I) call.val
  counted : ∃ finished : List (BitVec w),
    (added past).Perm (finished ++ calls.running.map AddValue.val) ∧
      ∀ i : Fin N, calls.histogram.counts[i] =
        (finished.countP fun val => position (table N I) val = i : ℕ)

/-- The buckets together count every value once. -/
theorem sum_countP (f : BitVec w → Fin N) (vals : List (BitVec w)) :
    ∑ i, vals.countP (fun val => f val = i) = vals.length := by
  induction vals with
  | nil => simp
  | cons val vals ih =>
      simp only [List.countP_cons, Finset.sum_add_distrib, ih, decide_eq_true_eq,
        Finset.sum_ite_eq, Finset.mem_univ, if_true, List.length_cons]

variable [NeZero N] [AddCommMonoidWithOne κ] {I : BitVec w}

theorem Counted.construct : Counted (κ := κ) I [] { histogram := construct N I } where
  buckets := rfl
  found := by simp
  counted := ⟨[], by simp [added], by simp [Histogram.construct]⟩

theorem Counted.step {past : List (Label w)} {calls after : Calls w N κ} {label : Label w}
    (counted : Counted I past calls) (step : calls.step label = some after) :
    Counted I (past ++ [label]) after := by
  obtain ⟨finished, perm, counts⟩ := counted.counted
  cases label with
  | search thread val =>
      simp only [Calls.step] at step
      split at step
      · cases step
      · cases step
        refine ⟨counted.buckets, ?_, finished, ?_, counts⟩
        · intro call running
          rcases List.mem_cons.mp running with rfl | running
          · rw [counted.buckets]
          · exact counted.found call running
        · simp only [added, List.filterMap_append, List.filterMap_cons, List.filterMap_nil,
            List.map_cons]
          have moved : (calls.running.map AddValue.val ++ [val]).Perm
              (val :: calls.running.map AddValue.val) := List.perm_append_singleton val _
          refine (perm.append_right [val]).trans ?_
          rw [List.append_assoc]
          exact moved.append_left finished
  | increment thread =>
      simp only [Calls.step] at step
      split at step
      · cases step
      · next call found =>
          cases step
          have running := List.mem_of_find?_eq_some found
          refine ⟨counted.buckets, fun other later =>
            counted.found other (List.mem_of_mem_erase later), call.val :: finished, ?_, ?_⟩
          · have split := (List.perm_cons_erase running).map AddValue.val
            simp only [added, List.filterMap_append, List.filterMap_cons, List.filterMap_nil,
              List.append_nil]
            exact perm.trans ((split.append_left finished).trans List.perm_middle)
          · intro i
            have own := counted.found call running
            simp only [increment, List.countP_cons, ← own, Fin.getElem_fin, Vector.getElem_set,
              decide_eq_true_eq, Fin.val_inj]
            by_cases here : call.n = i
            · have before := counts call.n
              rw [Fin.getElem_fin] at before
              subst here
              rw [if_pos rfl, if_pos rfl, before]
              push_cast
              rfl
            · rw [if_neg here, if_neg here]
              exact counts i

/-- The counters after a run whose calls have all returned. -/
theorem counts_of_returned (representable : N * I.toNat < 2 ^ w) {labels : List (Label w)}
    {final : Calls w N κ}
    (execution : machine.run labels { histogram := construct N I } = some final)
    (returned : final.running = []) (i : Fin N) :
    final.histogram.counts[i] = ((added labels).countP (InBucket I i) : ℕ) := by
  have counted : Counted I labels final :=
    Machine.run_history (fun counted _ step => counted.step step) Counted.construct
      (fun _ _ => trivial) execution
  obtain ⟨finished, perm, counts⟩ := counted.counted
  rw [returned, List.map_nil, List.append_nil] at perm
  rw [counts i, perm.countP_eq]
  congr 1
  exact List.countP_congr fun val _ => by simp [position_eq_iff representable]

/-- After a run whose calls have all returned, each counter holds the number of values that belong
to its bucket, together they hold the number of calls, and any other run of the same calls ends in
the same counters. -/
theorem counts_of_run (representable : N * I.toNat < 2 ^ w) {labels : List (Label w)}
    {final : Calls w N κ}
    (execution : machine.run labels { histogram := construct N I } = some final)
    (returned : final.running = []) :
    (∀ i : Fin N, final.histogram.counts[i] = ((added labels).countP (InBucket I i) : ℕ)) ∧
      ∑ i : Fin N, final.histogram.counts[i] = ((added labels).length : κ) ∧
      ∀ (reordered : List (Label w)) (other : Calls w N κ),
        machine.run reordered { histogram := construct N I } = some other →
        other.running = [] → (added reordered).Perm (added labels) →
        other.histogram.counts = final.histogram.counts := by
  have counts := counts_of_returned representable execution returned
  refine ⟨counts, ?_, fun reordered other execution' returned' perm => ?_⟩
  · simp only [counts, ← Nat.cast_sum]
    congr 1
    rw [← sum_countP (fun val => position (table N I) val) (added labels)]
    refine Finset.sum_congr rfl fun i _ => List.countP_congr fun val _ => ?_
    simp [position_eq_iff representable]
  · apply Vector.ext
    intro i inside
    have here := counts_of_returned representable execution' returned' ⟨i, inside⟩
    rw [perm.countP_eq] at here
    exact here.trans (counts ⟨i, inside⟩).symm

/-- Two threads search before either of them counts. -/
theorem counts_of_two_threads :
    ∃ final : Calls 32 5 ℕ,
      machine.run [.search 1 3, .search 2 10, .increment 2, .increment 1]
        { histogram := construct 5 1 } = some final ∧
      (∀ i, final.histogram.counts[i] = [3#32, 10].countP fun val => InBucket 1 i val) ∧
      ∑ i : Fin 5, final.histogram.counts[i] = 2 := by
  have execution : machine.run [.search 1 3, .search 2 10, .increment 2, .increment 1]
      { histogram := construct 5 1 } =
        some { histogram := { buckets := #v[1, 2, 3, 4, 5], counts := #v[0, 0, 1, 0, 1] }
               running := ([] : List (AddValue 32 5)) } := by
    decide +kernel
  obtain ⟨counts, sum, -⟩ := counts_of_run (by decide) execution rfl
  exact ⟨_, execution, counts, sum⟩

end Histogram
end ShadowCast
