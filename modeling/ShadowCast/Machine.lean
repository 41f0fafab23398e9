import Mathlib.Algebra.Ring.Nat
import Mathlib.Data.Option.Basic
import Mathlib.Data.List.Basic

/-!
# Labelled machines and their finite runs

A `Machine` is a partial step function: its label resolves every choice of the scheduler and of
the environment, and a label which is not enabled has no successor.  A run is a list of labels.
`Always` speaks about every state visited by a run, `Guarded` about every step taken by it; the
rules below move between the two by one-step lemmas.
-/

/-- A transition system whose labels resolve all nondeterminism. -/
structure Machine (σ ℓ : Type*) where
  /-- The successor under an enabled label, and `none` under a disabled one. -/
  step : σ → ℓ → Option σ

namespace Machine

variable {σ ℓ τ κ : Type*}

/-- Perform the labels in order, failing at the first one which is not enabled. -/
def run (m : Machine σ ℓ) : List ℓ → σ → Option σ
  | [], s => some s
  | l :: ls, s => (m.step s l).bind (m.run ls)

@[simp]
theorem run_nil (m : Machine σ ℓ) (s : σ) : m.run [] s = some s := rfl

theorem run_cons_eq_some {m : Machine σ ℓ} {l : ℓ} {ls : List ℓ} {s u : σ} :
    m.run (l :: ls) s = some u ↔ ∃ t, m.step s l = some t ∧ m.run ls t = some u := by
  simp [run, Option.bind_eq_some_iff]

theorem run_append (m : Machine σ ℓ) (front back : List ℓ) (s : σ) :
    m.run (front ++ back) s = (m.run front s).bind (m.run back) := by
  induction front generalizing s with
  | nil => rfl
  | cons l front ih =>
      simp only [List.cons_append, run, Option.bind_assoc]
      congr 1
      funext t
      exact ih t

theorem run_append_eq_some {m : Machine σ ℓ} {front back : List ℓ} {s u : σ} :
    m.run (front ++ back) s = some u ↔
      ∃ t, m.run front s = some t ∧ m.run back t = some u := by
  rw [run_append, Option.bind_eq_some_iff]

/-- A run of at most one label. -/
theorem run_of_length_le_one {m : Machine σ ℓ} {ls : List ℓ} {s u : σ} (short : ls.length ≤ 1)
    (execution : m.run ls s = some u) :
    ls = [] ∧ u = s ∨ ∃ l, ls = [l] ∧ m.step s l = some u := by
  match ls with
  | [] => exact Or.inl ⟨rfl, (Option.some.inj execution).symm⟩
  | [l] =>
      obtain ⟨t, step, rest⟩ := run_cons_eq_some.mp execution
      obtain rfl : t = u := by simpa using rest
      exact Or.inr ⟨l, rfl, step⟩
  | _ :: _ :: _ => simp at short

/-- A predicate kept by every step is kept by every run. -/
theorem run_invariant {m : Machine σ ℓ} {P : σ → Prop}
    (step_keeps : ∀ {s l t}, P s → m.step s l = some t → P t)
    {ls : List ℓ} {s u : σ} (start : P s) (execution : m.run ls s = some u) : P u := by
  induction ls generalizing s with
  | nil =>
      obtain rfl : s = u := by simpa using execution
      exact start
  | cons l ls ih =>
      obtain ⟨t, step, rest⟩ := run_cons_eq_some.mp execution
      exact ih (step_keeps start step) rest

private theorem run_history_from {m : Machine σ ℓ} {P : List ℓ → σ → Prop} {Q : ℓ → Prop}
    (step_keeps : ∀ {past s l t}, P past s → Q l → m.step s l = some t → P (past ++ [l]) t)
    {past ls : List ℓ} {s u : σ} (start : P past s) (admissible : ∀ l ∈ ls, Q l)
    (execution : m.run ls s = some u) : P (past ++ ls) u := by
  induction ls generalizing past s with
  | nil =>
      obtain rfl : s = u := by simpa using execution
      simpa using start
  | cons l ls ih =>
      obtain ⟨t, step, rest⟩ := run_cons_eq_some.mp execution
      have next := step_keeps start (admissible l (by simp)) step
      simpa using ih next (fun k member => admissible k (by simp [member])) rest

/-- A predicate on the labels so far and the state, kept by every step under an admissible label, is
kept by every run under admissible labels. -/
theorem run_history {m : Machine σ ℓ} {P : List ℓ → σ → Prop} {Q : ℓ → Prop}
    (step_keeps : ∀ {past s l t}, P past s → Q l → m.step s l = some t → P (past ++ [l]) t)
    {ls : List ℓ} {s u : σ} (start : P [] s) (admissible : ∀ l ∈ ls, Q l)
    (execution : m.run ls s = some u) : P ls u :=
  run_history_from step_keeps start admissible execution

/-- Every step taken by the run meets the condition. -/
def Guarded (m : Machine σ ℓ) (C : σ → ℓ → Prop) : σ → List ℓ → Prop
  | _, [] => True
  | s, l :: ls => C s l ∧ ∀ t ∈ m.step s l, m.Guarded C t ls

/-- Every state visited by the run, the first and the last included, satisfies the predicate. -/
def Always (m : Machine σ ℓ) (P : σ → Prop) : σ → List ℓ → Prop
  | s, [] => P s
  | s, l :: ls => P s ∧ ∀ t ∈ m.step s l, m.Always P t ls

/-- `Guarded` evaluates on a concrete run. -/
instance decidableGuarded (m : Machine σ ℓ) (C : σ → ℓ → Prop) [∀ s l, Decidable (C s l)] :
    (s : σ) → (ls : List ℓ) → Decidable (m.Guarded C s ls)
  | _, [] => isTrue trivial
  | s, l :: ls =>
      have := fun t => decidableGuarded m C t ls
      inferInstanceAs (Decidable (C s l ∧ ∀ t ∈ m.step s l, m.Guarded C t ls))

/-- `Always` evaluates on a concrete run. -/
instance decidableAlways (m : Machine σ ℓ) (P : σ → Prop) [DecidablePred P] :
    (s : σ) → (ls : List ℓ) → Decidable (m.Always P s ls)
  | s, [] => inferInstanceAs (Decidable (P s))
  | s, l :: ls =>
      have := fun t => decidableAlways m P t ls
      inferInstanceAs (Decidable (P s ∧ ∀ t ∈ m.step s l, m.Always P t ls))

@[simp]
theorem guarded_nil (m : Machine σ ℓ) (C : σ → ℓ → Prop) (s : σ) : m.Guarded C s [] := trivial

theorem always_start {m : Machine σ ℓ} {P : σ → Prop} {s : σ} {ls : List ℓ}
    (always : m.Always P s ls) : P s := by
  cases ls with
  | nil => exact always
  | cons l ls => exact always.1

/-- `Always` is a statement about the endpoint of every prefix of the run. -/
theorem always_iff_forall_front {m : Machine σ ℓ} {P : σ → Prop} {s : σ} {ls : List ℓ} :
    m.Always P s ls ↔
      ∀ front back t, ls = front ++ back → m.run front s = some t → P t := by
  induction ls generalizing s with
  | nil =>
      constructor
      · intro always front back t split execution
        obtain ⟨rfl, -⟩ := List.append_eq_nil_iff.mp split.symm
        obtain rfl : s = t := by simpa using execution
        exact always
      · intro every
        exact every [] [] s rfl rfl
  | cons head tail ih =>
      constructor
      · rintro ⟨first, later⟩ front back t split execution
        cases front with
        | nil =>
            obtain rfl : s = t := by simpa using execution
            exact first
        | cons _ front =>
            obtain ⟨rfl, rest_split⟩ : head = _ ∧ tail = front ++ back := by simpa using split
            obtain ⟨u, step, rest⟩ := run_cons_eq_some.mp execution
            exact ih.mp (later u step) front back t rest_split rest
      · intro every
        refine ⟨every [] (head :: tail) s rfl rfl, fun u step => ?_⟩
        rw [ih]
        intro front back t split execution
        exact every (head :: front) back t (by simp [split])
          (run_cons_eq_some.mpr ⟨u, step, execution⟩)

/-- The endpoint of a run is one of the states it visits. -/
theorem always_end {m : Machine σ ℓ} {P : σ → Prop} {s u : σ} {ls : List ℓ}
    (always : m.Always P s ls) (execution : m.run ls s = some u) : P u :=
  always_iff_forall_front.mp always ls [] u (by simp) execution

/-- A guard which an invariant provides for every enabled step. -/
theorem guarded_of_invariant {m : Machine σ ℓ} {I : σ → Prop} {C : σ → ℓ → Prop}
    (invariant : ∀ {s l t}, I s → m.step s l = some t → I t)
    (provides : ∀ {s l t}, I s → m.step s l = some t → C s l) {ls : List ℓ} {s u : σ} (start : I s)
    (execution : m.run ls s = some u) : m.Guarded C s ls := by
  induction ls generalizing s with
  | nil => trivial
  | cons l ls ih =>
      obtain ⟨t, step, rest⟩ := run_cons_eq_some.mp execution
      refine ⟨provides start step, fun t' step' => ?_⟩
      obtain rfl : t = t' := Option.some.inj (step.symm.trans step')
      exact ih (invariant start step) rest

/-- If every step pays its cost out of the budget of its state, the first budget bounds the cost of
the whole run. -/
theorem run_cost_le {m : Machine σ ℓ} {I : σ → Prop} (cost : ℓ → Nat) (budget : σ → Nat)
    (invariant : ∀ {s l t}, I s → m.step s l = some t → I t)
    (pays : ∀ {s l t}, I s → m.step s l = some t → cost l + budget t ≤ budget s)
    {ls : List ℓ} {s u : σ} (start : I s) (execution : m.run ls s = some u) :
    (ls.map cost).sum + budget u ≤ budget s := by
  induction ls generalizing s with
  | nil =>
      obtain rfl : s = u := by simpa using execution
      simp
  | cons l ls ih =>
      obtain ⟨t, step, rest⟩ := run_cons_eq_some.mp execution
      have first := pays start step
      have later := ih (invariant start step) rest
      simp only [List.map_cons, List.sum_cons]
      omega

/-- Weakening the guard may use an invariant. -/
theorem Guarded.mono_of_invariant {m : Machine σ ℓ} {I : σ → Prop} {C D : σ → ℓ → Prop}
    (invariant : ∀ {s l t}, I s → m.step s l = some t → I t)
    (weaken : ∀ s l, I s → C s l → D s l) {s : σ} {ls : List ℓ} (start : I s)
    (guarded : m.Guarded C s ls) : m.Guarded D s ls := by
  induction ls generalizing s with
  | nil => trivial
  | cons l ls ih =>
      obtain ⟨first, later⟩ := guarded
      exact ⟨weaken s l start first, fun t step => ih (invariant start step) (later t step)⟩

theorem Always.mono {m : Machine σ ℓ} {P Q : σ → Prop} (weaken : ∀ s, P s → Q s)
    {s : σ} {ls : List ℓ} (always : m.Always P s ls) : m.Always Q s ls := by
  rw [always_iff_forall_front] at always ⊢
  intro front back t split execution
  exact weaken t (always front back t split execution)

/-- If every guarded step keeps `P`, then `P` holds all along a guarded run. -/
theorem always_of_guarded {m : Machine σ ℓ} {P : σ → Prop} {C : σ → ℓ → Prop}
    (step_keeps : ∀ {s l t}, P s → C s l → m.step s l = some t → P t)
    {s : σ} {ls : List ℓ} (start : P s) (guarded : m.Guarded C s ls) : m.Always P s ls := by
  induction ls generalizing s with
  | nil => exact start
  | cons l ls ih =>
      obtain ⟨first, later⟩ := guarded
      exact ⟨start, fun t step => ih (step_keeps start first step) (later t step)⟩

/-- The guarded form of `run_invariant`. -/
theorem run_invariant_of_guarded {m : Machine σ ℓ} {P : σ → Prop} {C : σ → ℓ → Prop}
    (step_keeps : ∀ {s l t}, P s → C s l → m.step s l = some t → P t)
    {s u : σ} {ls : List ℓ} (start : P s) (guarded : m.Guarded C s ls)
    (execution : m.run ls s = some u) : P u :=
  always_end (always_of_guarded step_keeps start guarded) execution

/-- If, under an invariant and `P` before the step, `P` after it is equivalent to the guard, then
`P` holds all along a run exactly when every step of the run meets the guard. -/
theorem always_iff_guarded {m : Machine σ ℓ} {I P : σ → Prop} {C : σ → ℓ → Prop}
    (invariant : ∀ {s l t}, I s → m.step s l = some t → I t)
    (exact_step : ∀ {s l t}, I s → P s → m.step s l = some t → (P t ↔ C s l))
    {s u : σ} {ls : List ℓ} (start : I s) (start_holds : P s)
    (execution : m.run ls s = some u) :
    m.Always P s ls ↔ m.Guarded C s ls := by
  induction ls generalizing s with
  | nil => simpa [Always] using start_holds
  | cons l ls ih =>
      obtain ⟨t, step, rest⟩ := run_cons_eq_some.mp execution
      constructor
      · rintro ⟨-, later⟩
        have next_holds : P t := always_start (later t step)
        refine ⟨(exact_step start start_holds step).mp next_holds, fun t' step' => ?_⟩
        obtain rfl : t = t' := Option.some.inj (step.symm.trans step')
        exact (ih (invariant start step) next_holds rest).mp (later t step)
      · rintro ⟨first, later⟩
        have next_holds : P t := (exact_step start start_holds step).mpr first
        refine ⟨start_holds, fun t' step' => ?_⟩
        obtain rfl : t = t' := Option.some.inj (step.symm.trans step')
        exact (ih (invariant start step) next_holds rest).mpr (later t step)

/-- Every step of the first machine is a step of the second one, and related states stay related. -/
def Simulates (m : Machine σ ℓ) (n : Machine τ κ) (R : σ → τ → Prop) (label : ℓ → κ) : Prop :=
  ∀ ⦃s t l s'⦄, R s t → m.step s l = some s' → ∃ t', n.step t (label l) = some t' ∧ R s' t'

/-- A simulation carries every run to a run. -/
theorem Simulates.run {m : Machine σ ℓ} {n : Machine τ κ} {R : σ → τ → Prop} {label : ℓ → κ}
    (simulates : m.Simulates n R label) {ls : List ℓ} {s u : σ} {t : τ} (related : R s t)
    (execution : m.run ls s = some u) :
    ∃ v, n.run (ls.map label) t = some v ∧ R u v := by
  induction ls generalizing s t with
  | nil =>
      obtain rfl : s = u := by simpa using execution
      exact ⟨t, rfl, related⟩
  | cons l ls ih =>
      obtain ⟨s', step, rest⟩ := run_cons_eq_some.mp execution
      obtain ⟨t', step', related'⟩ := simulates related step
      obtain ⟨v, execution', final⟩ := ih related' rest
      exact ⟨v, run_cons_eq_some.mpr ⟨t', step', execution'⟩, final⟩

/-- A simulation carries the guards of a run which agree on related states. -/
theorem Simulates.guarded_iff {m : Machine σ ℓ} {n : Machine τ κ} {R : σ → τ → Prop}
    {label : ℓ → κ} (simulates : m.Simulates n R label) {C : σ → ℓ → Prop} {D : τ → κ → Prop}
    (agree : ∀ {s t l}, R s t → (C s l ↔ D t (label l))) {ls : List ℓ} {s u : σ} {t : τ}
    (related : R s t) (execution : m.run ls s = some u) :
    m.Guarded C s ls ↔ n.Guarded D t (ls.map label) := by
  induction ls generalizing s t with
  | nil => exact Iff.rfl
  | cons l ls ih =>
      obtain ⟨s', step, rest⟩ := run_cons_eq_some.mp execution
      obtain ⟨t', step', related'⟩ := simulates related step
      simp only [Guarded, List.map_cons, step, step', Option.mem_def, Option.some.injEq,
        forall_eq', agree related, ih related' rest]

/-- If `Q` after a step forces the guard, and the guard keeps a strengthening of `Q`, then `Q` holds
all along a run exactly when every step of the run meets the guard. -/
theorem always_iff_guarded_of_forced {m : Machine σ ℓ} {P Q : σ → Prop} {C : σ → ℓ → Prop}
    (weaker : ∀ {s}, P s → Q s)
    (keeps : ∀ {s l t}, P s → C s l → m.step s l = some t → P t)
    (forced : ∀ {s l t}, P s → m.step s l = some t → Q t → C s l)
    {s u : σ} {ls : List ℓ} (start : P s) (execution : m.run ls s = some u) :
    m.Always Q s ls ↔ m.Guarded C s ls := by
  constructor
  · intro always
    induction ls generalizing s with
    | nil => trivial
    | cons l ls ih =>
        obtain ⟨t, step, rest⟩ := run_cons_eq_some.mp execution
        have later := always.2 t step
        have guard := forced start step (always_start later)
        refine ⟨guard, fun t' step' => ?_⟩
        obtain rfl : t = t' := Option.some.inj (step.symm.trans step')
        exact ih (keeps start guard step) rest later
  · intro guarded
    exact (always_of_guarded keeps start guarded).mono fun _ held => weaker held

/-- The machine which takes only the steps that meet a condition. -/
def restrict (m : Machine σ ℓ) (C : σ → ℓ → Prop) [∀ s l, Decidable (C s l)] : Machine σ ℓ :=
  ⟨fun s l => if C s l then m.step s l else none⟩

theorem restrict_step_eq_some {m : Machine σ ℓ} {C : σ → ℓ → Prop} [∀ s l, Decidable (C s l)]
    {s t : σ} {l : ℓ} : (m.restrict C).step s l = some t ↔ C s l ∧ m.step s l = some t := by
  simp [restrict]

/-- Two guards which agree under a predicate kept by a third one. -/
theorem guarded_congr_of_guarded {m : Machine σ ℓ} {P : σ → Prop} {B C D : σ → ℓ → Prop}
    (keeps : ∀ {s l t}, P s → B s l → m.step s l = some t → P t)
    (agree : ∀ {s l}, P s → (C s l ↔ D s l)) {s : σ} {ls : List ℓ} (start : P s)
    (guarded : m.Guarded B s ls) : m.Guarded C s ls ↔ m.Guarded D s ls := by
  induction ls generalizing s with
  | nil => simp
  | cons l ls ih =>
      obtain ⟨first, later⟩ := guarded
      refine and_congr (agree start) (forall_congr' fun t => ?_)
      exact forall_congr' fun step => ih (keeps start first step) (later t step)

end Machine
