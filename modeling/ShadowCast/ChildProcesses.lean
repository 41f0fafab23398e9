import Mathlib.Data.List.Nodup
import Mathlib.Data.PNat.Defs
import Mathlib.Logic.Function.Basic
import ShadowCast.Machine

/-!
# Child processes and their owners

A `Process` is a number whose process is interrupted and waited for when the object gives it up.
`wait` calls `waitpid` with an option that is one of `waitid`, so the call fails at once and the
child stays in the table.  Hence its number is not given to another process.

The runs are those of the parent.  A child whose `execvp` fails goes on behind `spawn_process` as a
copy of the program, with an object for the process 0, and is not followed.
-/

namespace ShadowCast

/-- A process of the kernel's table. -/
structure TableEntry where
  /-- Processes are counted in the order in which they start. -/
  process : Nat
  exited : Bool
  deriving DecidableEq, Repr

/-- The kernel's processes and the objects of a program. -/
structure Processes (κ : Type*) where
  /-- The process which has a number. -/
  table : ℕ+ → Option TableEntry
  /-- The number of processes started so far, which is the name of the next one. -/
  started : Nat
  /-- The live objects, with their `pid_`; `none` is -1. -/
  objects : κ → Option (Option ℕ+)
  /-- The children of the program. -/
  children : List Nat
  /-- The processes which have been sent `SIGINT`, in order. -/
  signalled : List Nat
  /-- The processes which `waitpid` has been called for, in order. -/
  waited : List Nat

namespace Processes

variable {κ : Type*}

/-- No process has started and no object is alive. -/
def empty : Processes κ where
  table := fun _ => none
  started := 0
  objects := fun _ => none
  children := []
  signalled := []
  waited := []

/-- The operations of the objects, and what other processes do. -/
inductive Label (κ : Type*)
  /-- Another process starts under a number that is free. -/
  | start (pid : ℕ+)
  /-- A process exits.  A child stays in the table. -/
  | exit (pid : ℕ+)
  /-- An object is constructed by `spawn_process`. -/
  | spawn (object : κ) (pid : ℕ+)
  | defaultConstruct (object : κ)
  | moveConstruct (object source : κ)
  | moveAssign (object source : κ)
  | terminate (object : κ)
  | wait (object : κ)
  | terminateAndWait (object : κ)
  | destroy (object : κ)
  deriving DecidableEq, Repr

/-- A process starts. -/
def startAt (processes : Processes κ) (pid : ℕ+) : Processes κ :=
  { processes with
    table := Function.update processes.table pid (some ⟨processes.started, false⟩)
    started := processes.started + 1 }

/-- A process exits.  The number of one that is no child is free then. -/
def exitAt (processes : Processes κ) (pid : ℕ+) (entry : TableEntry) : Processes κ :=
  { processes with
    table := Function.update processes.table pid
      (if entry.process ∈ processes.children then some { entry with exited := true } else none) }

/-- `kill` with `SIGINT`. -/
def kill (processes : Processes κ) (pid : ℕ+) : Processes κ :=
  match processes.table pid with
  | none => processes
  | some entry => { processes with signalled := processes.signalled ++ [entry.process] }

/-- The options of `waitpid`: `WNOHANG`, `WUNTRACED` and `WCONTINUED`. -/
def waitpidOptions : Nat := 1 ||| 2 ||| 8

/-- `WEXITED`. -/
def wExited : Nat := 4

/-- `waitpid`, which fails with `EINVAL` for another option and with `ECHILD` for a process that is
no child.  Otherwise it goes on when the child has exited, and its number is free then. -/
def waitpid (processes : Processes κ) (pid : ℕ+) (options : Nat) : Option (Processes κ) :=
  match processes.table pid with
  | none => some processes
  | some entry =>
      let called := { processes with waited := processes.waited ++ [entry.process] }
      if options ||| waitpidOptions ≠ waitpidOptions ∨ entry.process ∉ processes.children then
        some called
      else if entry.exited then
        some { called with table := Function.update processes.table pid none }
      else none

/-- `terminate`, for the number of an object. -/
def terminate (processes : Processes κ) : Option ℕ+ → Processes κ
  | none => processes
  | some pid => processes.kill pid

/-- `wait`, for the number of an object, which is -1 behind it. -/
def wait (processes : Processes κ) : Option ℕ+ → Option (Processes κ)
  | none => some processes
  | some pid => processes.waitpid pid wExited

/-- `terminate_and_wait`. -/
def terminateAndWait (processes : Processes κ) (pid : Option ℕ+) : Option (Processes κ) :=
  (processes.terminate pid).wait pid

variable [DecidableEq κ]

/-- Replace one object. -/
def put (processes : Processes κ) (object : κ) (process : Option (Option ℕ+)) : Processes κ :=
  { processes with objects := Function.update processes.objects object process }

/-- One operation. -/
def step (processes : Processes κ) : Label κ → Option (Processes κ)
  | .start pid =>
      match processes.table pid with
      | none => some (processes.startAt pid)
      | some _ => none
  | .exit pid =>
      match processes.table pid with
      | none => none
      | some entry => if entry.exited then none else some (processes.exitAt pid entry)
  | .spawn object pid =>
      match processes.objects object, processes.table pid with
      | none, none =>
          some
            { (processes.startAt pid).put object (some (some pid)) with
              children := processes.children ++ [processes.started] }
      | _, _ => none
  | .defaultConstruct object =>
      match processes.objects object with
      | none => some (processes.put object (some none))
      | some _ => none
  | .moveConstruct object source =>
      match processes.objects object, processes.objects source with
      -- `std::exchange` with -1
      | none, some pid => some ((processes.put source (some none)).put object (some pid))
      | _, _ => none
  | .moveAssign object source =>
      match processes.objects object, processes.objects source with
      | some _, some tmp =>
          let moved := processes.put source (some none)
          match moved.objects object with
          -- `swap` with the temporary, which is destroyed with the old number
          | some old => (moved.put object (some tmp)).terminateAndWait old
          | none => none
      | _, _ => none
  | .terminate object =>
      match processes.objects object with
      | none => none
      | some pid => some (processes.terminate pid)
  | .wait object =>
      match processes.objects object with
      | none => none
      | some pid => (processes.put object (some none)).wait pid
  | .terminateAndWait object =>
      match processes.objects object with
      | none => none
      | some pid => (processes.put object (some none)).terminateAndWait pid
  | .destroy object =>
      match processes.objects object with
      | none => none
      | some pid => (processes.put object none).terminateAndWait pid

/-- The objects and other processes under every interleaving. -/
def machine : Machine (Processes κ) (Label κ) := ⟨step⟩

/-! ### The ownership invariant -/

/-- Every child is in the table, and it has been waited for, or its one owner has its number. -/
structure Sound (processes : Processes κ) : Prop where
  fresh : ∀ {pid entry}, processes.table pid = some entry → entry.process < processes.started
  distinct : ∀ {m n entry other}, processes.table m = some entry → processes.table n = some other →
    entry.process = other.process → m = n
  present : ∀ {child}, child ∈ processes.children →
    ∃ pid entry, processes.table pid = some entry ∧ entry.process = child
  held : ∀ {object pid}, processes.objects object = some (some pid) →
    ∃ entry, processes.table pid = some entry ∧ entry.process ∈ processes.children ∧
      entry.process ∉ processes.waited
  unique : ∀ {left right pid}, processes.objects left = some (some pid) →
    processes.objects right = some (some pid) → left = right
  sent : ∀ {child}, child ∈ processes.signalled → child ∈ processes.children
  known : ∀ {child}, child ∈ processes.waited → child ∈ processes.children
  once : processes.waited.Nodup
  covered : ∀ {child}, child ∈ processes.children → child ∈ processes.waited ∨
    ∃ object pid entry, processes.objects object = some (some pid) ∧
      processes.table pid = some entry ∧ entry.process = child

omit [DecidableEq κ] in
theorem empty_sound : Sound (empty : Processes κ) := by
  constructor <;> simp [empty]

omit [DecidableEq κ] in
/-- A child is known by its number before the next process starts. -/
theorem Sound.child_lt {processes : Processes κ} (sound : Sound processes) {child : Nat}
    (member : child ∈ processes.children) : child < processes.started := by
  obtain ⟨pid, entry, running, rfl⟩ := sound.present member
  exact sound.fresh running

/-! ### One operation -/

@[simp, grind =]
theorem put_objects (processes : Processes κ) (object other : κ) (process : Option (Option ℕ+)) :
    (processes.put object process).objects other =
      if other = object then process else processes.objects other :=
  Function.update_apply _ _ _ _

@[simp, grind =]
theorem put_table (processes : Processes κ) (object : κ) (process : Option (Option ℕ+)) :
    (processes.put object process).table = processes.table := rfl

@[simp, grind =]
theorem put_children (processes : Processes κ) (object : κ) (process : Option (Option ℕ+)) :
    (processes.put object process).children = processes.children := rfl

@[simp, grind =]
theorem put_waited (processes : Processes κ) (object : κ) (process : Option (Option ℕ+)) :
    (processes.put object process).waited = processes.waited := rfl

omit [DecidableEq κ] in
@[simp, grind =]
theorem startAt_table (processes : Processes κ) (pid other : ℕ+) :
    (processes.startAt pid).table other =
      if other = pid then some ⟨processes.started, false⟩ else processes.table other :=
  Function.update_apply _ _ _ _

omit [DecidableEq κ] in
@[simp, grind =]
theorem startAt_started (processes : Processes κ) (pid : ℕ+) :
    (processes.startAt pid).started = processes.started + 1 := rfl

omit [DecidableEq κ] in
/-- A process starts. -/
theorem Sound.startAt {processes : Processes κ} (sound : Sound processes) {pid : ℕ+}
    (free : processes.table pid = none) : Sound (processes.startAt pid) where
  fresh := by
    have := @sound.fresh
    grind
  distinct := by
    have := @sound.fresh
    have := @sound.distinct
    grind
  present := by
    intro child member
    obtain ⟨number, entry, running, same⟩ := sound.present member
    exact ⟨number, entry, by grind, same⟩
  held := by
    intro object number owns
    obtain ⟨entry, running, child, unwaited⟩ := sound.held owns
    exact ⟨entry, by grind, child, unwaited⟩
  unique := sound.unique
  sent := sound.sent
  known := sound.known
  once := sound.once
  covered := by
    intro child member
    rcases sound.covered member with waited | ⟨object, number, entry, owns, running, same⟩
    · exact .inl waited
    · exact .inr ⟨object, number, entry, owns, by grind, same⟩

omit [DecidableEq κ] in
@[simp, grind =]
theorem exitAt_table (processes : Processes κ) (pid other : ℕ+) (entry : TableEntry) :
    (processes.exitAt pid entry).table other =
      if other = pid then
        if entry.process ∈ processes.children then some { entry with exited := true } else none
      else processes.table other :=
  Function.update_apply _ _ _ _

omit [DecidableEq κ] in
/-- The entry of a child that exits is kept. -/
theorem exitAt_keeps {processes : Processes κ} {pid number : ℕ+} {entry other : TableEntry}
    (running : processes.table pid = some entry) (kept : processes.table number = some other)
    (child : other.process ∈ processes.children) :
    ∃ left, (processes.exitAt pid entry).table number = some left ∧
      left.process = other.process := by
  by_cases same : number = pid
  · subst same
    obtain rfl : entry = other := Option.some.inj (running.symm.trans kept)
    exact ⟨{ entry with exited := true }, by simp [child], rfl⟩
  · exact ⟨other, by simp [same, kept], rfl⟩

omit [DecidableEq κ] in
/-- A process exits. -/
theorem Sound.exitAt {processes : Processes κ} (sound : Sound processes) {pid : ℕ+}
    {entry : TableEntry} (running : processes.table pid = some entry) :
    Sound (processes.exitAt pid entry) where
  fresh := by
    have := @sound.fresh
    have := sound.fresh running
    intro number other
    have started : (processes.exitAt pid entry).started = processes.started := rfl
    grind
  distinct := by
    have := @sound.distinct
    grind
  present := by
    intro child member
    obtain ⟨number, other, kept, rfl⟩ := sound.present member
    obtain ⟨left, stays, same⟩ := exitAt_keeps running kept member
    exact ⟨number, left, stays, same⟩
  held := by
    intro object number owns
    obtain ⟨other, kept, child, unwaited⟩ := sound.held owns
    obtain ⟨left, stays, same⟩ := exitAt_keeps running kept child
    exact ⟨left, stays, same ▸ child, same ▸ unwaited⟩
  unique := sound.unique
  sent := sound.sent
  known := sound.known
  once := sound.once
  covered := by
    intro child member
    rcases sound.covered member with waited | ⟨object, number, other, owns, kept, rfl⟩
    · exact .inl waited
    · obtain ⟨left, stays, same⟩ := exitAt_keeps running kept member
      exact .inr ⟨object, number, left, owns, stays, same⟩

/-- A process starts that is the child of a new object. -/
theorem Sound.spawn {processes : Processes κ} (sound : Sound processes) {object : κ} {pid : ℕ+}
    (dead : processes.objects object = none) (free : processes.table pid = none) :
    Sound
      { (processes.startAt pid).put object (some (some pid)) with
        children := processes.children ++ [processes.started] } := by
  have started := sound.startAt free
  have unused (other : κ) : processes.objects other ≠ some (some pid) := by
    intro owns
    obtain ⟨entry, running, -⟩ := sound.held owns
    simp [free] at running
  have objects : (processes.startAt pid).objects = processes.objects := rfl
  have new : processes.started ∉ processes.waited := fun waited =>
    Nat.lt_irrefl _ (sound.child_lt (sound.known waited))
  exact {
    fresh := started.fresh
    distinct := started.distinct
    present := by
      intro child member
      rcases List.mem_append.mp member with before | last
      · exact started.present before
      · obtain rfl := List.mem_singleton.mp last
        exact ⟨pid, ⟨processes.started, false⟩, by simp, rfl⟩
    held := by
      intro other number owns
      dsimp only at owns ⊢
      rw [put_objects] at owns
      split at owns
      · cases owns
        exact ⟨⟨processes.started, false⟩, by simp, by simp, new⟩
      · obtain ⟨entry, running, child, unwaited⟩ := started.held owns
        exact ⟨entry, running, List.mem_append_left _ child, unwaited⟩
    unique := by
      intro left right number
      have := @started.unique left right number
      have := unused left
      have := unused right
      grind
    sent := fun member => List.mem_append_left _ (sound.sent member)
    known := fun member => List.mem_append_left _ (sound.known member)
    once := sound.once
    covered := by
      intro child member
      rcases List.mem_append.mp member with before | last
      · rcases started.covered before with waited | ⟨other, number, entry, owns, running, same⟩
        · exact .inl waited
        · refine .inr ⟨other, number, entry, ?_, running, same⟩
          have : other ≠ object := by
            rintro rfl
            simp [objects, dead] at owns
          simp [this, owns]
      · obtain rfl := List.mem_singleton.mp last
        exact .inr ⟨object, pid, ⟨processes.started, false⟩, by simp, by simp, rfl⟩ }

/-- A number moves to a place where none is held. -/
theorem Sound.move {processes : Processes κ} (sound : Sound processes) {object source : κ}
    {held : Option ℕ+} (live : processes.objects source = some held)
    (old : ∀ pid, processes.objects object ≠ some (some pid)) :
    Sound ((processes.put source (some none)).put object (some held)) where
  fresh := sound.fresh
  distinct := sound.distinct
  present := sound.present
  held := by
    intro other pid owns
    have := @sound.held other pid
    have := @sound.held source pid
    grind
  unique := by
    intro left right pid
    have := @sound.unique left right pid
    have := @sound.unique left source pid
    have := @sound.unique source right pid
    grind
  sent := sound.sent
  known := sound.known
  once := sound.once
  covered := by
    intro child member
    rcases sound.covered member with waited | ⟨owner, pid, entry, owns, running, same⟩
    · exact .inl waited
    · by_cases moved : owner = source
      · exact .inr ⟨object, pid, entry, by grind, running, same⟩
      · exact .inr ⟨owner, pid, entry, by grind, running, same⟩

/-- An object without a number is replaced by one without a number. -/
theorem Sound.putUnowned {processes : Processes κ} (sound : Sound processes) {object : κ}
    {process : Option (Option ℕ+)} (old : ∀ pid, processes.objects object ≠ some (some pid))
    (vacant : ∀ pid, process ≠ some (some pid)) : Sound (processes.put object process) where
  fresh := sound.fresh
  distinct := sound.distinct
  present := sound.present
  held := by
    intro other pid owns
    have := @sound.held other pid
    grind
  unique := by
    intro left right pid
    have := @sound.unique left right pid
    grind
  sent := sound.sent
  known := sound.known
  once := sound.once
  covered := by
    intro child member
    rcases sound.covered member with waited | ⟨owner, pid, entry, owns, running, same⟩
    · exact .inl waited
    · exact .inr ⟨owner, pid, entry, by grind, running, same⟩

omit [DecidableEq κ] in
/-- An object interrupts its child. -/
theorem Sound.terminate {processes : Processes κ} (sound : Sound processes) {object : κ}
    {held : Option ℕ+} (live : processes.objects object = some held) :
    Sound (processes.terminate held) := by
  cases held with
  | none => exact sound
  | some pid =>
      obtain ⟨entry, running, child, -⟩ := sound.held live
      have killed : processes.terminate (some pid) =
          { processes with signalled := processes.signalled ++ [entry.process] } := by
        simp [Processes.terminate, kill, running]
      rw [killed]
      exact {
        fresh := sound.fresh
        distinct := sound.distinct
        present := sound.present
        held := sound.held
        unique := sound.unique
        sent := by
          intro other member
          rcases List.mem_append.mp member with before | last
          · exact sound.sent before
          · rwa [List.mem_singleton.mp last]
        known := sound.known
        once := sound.once
        covered := sound.covered }

omit [DecidableEq κ] in
/-- A child that is waited for stays in the table. -/
theorem wait_eq {processes : Processes κ} {pid : ℕ+} {entry : TableEntry}
    (running : processes.table pid = some entry) :
    processes.wait (some pid) =
      some { processes with waited := processes.waited ++ [entry.process] } := by
  have invalid : wExited ||| waitpidOptions ≠ waitpidOptions := by decide
  simp [wait, waitpid, running, invalid]

omit [DecidableEq κ] in
theorem wait_of_free {processes : Processes κ} {pid : ℕ+} (free : processes.table pid = none) :
    processes.wait (some pid) = some processes := by
  simp [wait, waitpid, free]

/-- An object that gives its number up has waited for its child, at once. -/
theorem Sound.wait {processes : Processes κ} (sound : Sound processes) {object : κ}
    {held : Option ℕ+} {process : Option (Option ℕ+)}
    (live : processes.objects object = some held) (vacant : ∀ pid, process ≠ some (some pid)) :
    ∃ after, (processes.put object process).wait held = some after ∧ Sound after := by
  cases held with
  | none => exact ⟨_, rfl, sound.putUnowned (by simp [live]) vacant⟩
  | some pid =>
      obtain ⟨entry, running, child, unwaited⟩ := sound.held live
      refine ⟨_, wait_eq (running : (processes.put object process).table pid = some entry), ?_⟩
      exact {
        fresh := sound.fresh
        distinct := sound.distinct
        present := sound.present
        held := by
          intro other number owns
          have := @sound.held other number
          have := @sound.unique other object
          have := @sound.distinct pid number entry
          grind
        unique := by
          intro left right number
          have := @sound.unique left right number
          grind
        sent := sound.sent
        known := by
          intro other member
          rcases List.mem_append.mp member with before | last
          · exact sound.known before
          · rwa [List.mem_singleton.mp last]
        once := by
          refine List.nodup_append.mpr ⟨sound.once, by simp, ?_⟩
          rintro other before last member rfl
          obtain rfl := List.mem_singleton.mp member
          exact unwaited before
        covered := by
          intro other member
          rcases sound.covered member with before | ⟨owner, number, found, owns, stays, same⟩
          · exact .inl (List.mem_append_left _ before)
          · by_cases mine : owner = object
            · left
              have : found = entry := by grind
              simp [← same, this]
            · exact .inr ⟨owner, number, found, by grind, stays, same⟩ }

theorem terminate_put (processes : Processes κ) (object : κ) (process : Option (Option ℕ+))
    (held : Option ℕ+) :
    (processes.put object process).terminate held =
      (processes.terminate held).put object process := by
  cases held with
  | none => rfl
  | some pid =>
      simp only [terminate, kill, put_table]
      cases processes.table pid <;> rfl

omit [DecidableEq κ] in
theorem terminate_objects (processes : Processes κ) (held : Option ℕ+) :
    (processes.terminate held).objects = processes.objects := by
  cases held with
  | none => rfl
  | some pid =>
      simp only [terminate, kill]
      cases processes.table pid <;> rfl

omit [DecidableEq κ] in
theorem terminateAndWait_objects {processes after : Processes κ} {held : Option ℕ+}
    (waited : processes.terminateAndWait held = some after) :
    after.objects = processes.objects := by
  rw [← terminate_objects processes held]
  rw [terminateAndWait] at waited
  generalize processes.terminate held = signalled at waited ⊢
  cases held with
  | none =>
      cases waited
      rfl
  | some pid =>
      cases found : signalled.table pid with
      | none =>
          rw [wait_of_free found] at waited
          cases waited
          rfl
      | some entry =>
          rw [wait_eq found] at waited
          cases waited
          rfl

/-- An object that gives its number up has interrupted its child and waited for it, at once. -/
theorem Sound.terminateAndWait {processes : Processes κ} (sound : Sound processes) {object : κ}
    {held : Option ℕ+} {process : Option (Option ℕ+)}
    (live : processes.objects object = some held) (vacant : ∀ pid, process ≠ some (some pid)) :
    ∃ after, (processes.put object process).terminateAndWait held = some after ∧ Sound after := by
  rw [Processes.terminateAndWait, terminate_put]
  exact (sound.terminate live).wait (by rw [terminate_objects, live]) vacant

theorem terminateAndWait_put (processes : Processes κ) (object : κ)
    (process : Option (Option ℕ+)) (held : Option ℕ+) :
    (processes.put object process).terminateAndWait held =
      (processes.terminateAndWait held).map (·.put object process) := by
  rw [terminateAndWait, terminate_put, terminateAndWait]
  generalize processes.terminate held = signalled
  cases held with
  | none => rfl
  | some pid =>
      cases found : signalled.table pid with
      | none => rw [wait_of_free found, wait_of_free (put_table signalled object process ▸ found),
          Option.map_some]
      | some entry =>
          rw [wait_eq found, wait_eq (put_table signalled object process ▸ found)]
          rfl

theorem put_put_put (processes : Processes κ) {object source : κ} (different : object ≠ source)
    (first second third : Option (Option ℕ+)) :
    ((processes.put object first).put source second).put object third =
      (processes.put source second).put object third := by
  simp only [put, Function.update_comm different, Function.update_idem]

/-- A move assignment gives up the old number of its target, and the number of its source moves into
its place. -/
theorem Sound.moveAssign {processes : Processes κ} (sound : Sound processes) {object source : κ}
    {old tmp : Option ℕ+} (different : object ≠ source)
    (target : processes.objects object = some old) (live : processes.objects source = some tmp) :
    ∃ after, ((processes.put source (some none)).put object (some tmp)).terminateAndWait old =
      some after ∧ Sound after := by
  obtain ⟨vacated, waited, sound'⟩ : ∃ after,
      (processes.put object (some none)).terminateAndWait old = some after ∧ Sound after :=
    sound.terminateAndWait target (by simp)
  have objects : vacated.objects = (processes.put object (some none)).objects :=
    terminateAndWait_objects waited
  rw [← put_put_put processes different (some none), terminateAndWait_put, terminateAndWait_put,
    waited]
  refine ⟨_, rfl, sound'.move ?_ ?_⟩
  · rw [objects, put_objects, if_neg (Ne.symm different), live]
  · intro pid
    simp [objects]

/-- Every operation keeps the invariant. -/
theorem step_sound {processes after : Processes κ} {label : Label κ} (sound : Sound processes)
    (step : processes.step label = some after) : Sound after := by
  have given {result : Option (Processes κ)}
      (waited : ∃ after, result = some after ∧ Sound after) (step : result = some after) :
      Sound after := by
    obtain ⟨found, eq, sound'⟩ := waited
    cases eq.symm.trans step
    exact sound'
  cases label with
  | start pid =>
      simp only [Processes.step] at step
      split at step
      · next free =>
          obtain rfl := Option.some.inj step
          exact sound.startAt free
      · cases step
  | exit pid =>
      simp only [Processes.step] at step
      split at step
      · cases step
      · next entry running =>
          split at step
          · cases step
          · obtain rfl := Option.some.inj step
            exact sound.exitAt running
  | spawn object pid =>
      simp only [Processes.step] at step
      split at step
      · next dead free =>
          obtain rfl := Option.some.inj step
          exact sound.spawn dead free
      · cases step
  | defaultConstruct object =>
      simp only [Processes.step] at step
      split at step
      · next dead =>
          obtain rfl := Option.some.inj step
          exact sound.putUnowned (by simp [dead]) (by simp)
      · cases step
  | moveConstruct object source =>
      simp only [Processes.step] at step
      split at step
      · next held dead live =>
          obtain rfl := Option.some.inj step
          exact sound.move live (by simp [dead])
      · cases step
  | moveAssign object source =>
      simp only [Processes.step] at step
      split at step
      · next target tmp alive live =>
          by_cases same : object = source
          · -- the temporary takes the number away before the swap
            subst same
            rw [put_objects, if_pos rfl] at step
            obtain rfl := Option.some.inj step
            rwa [put, put, Function.update_idem, ← live, Function.update_eq_self]
          · rw [put_objects, if_neg same, alive] at step
            exact given (sound.moveAssign same alive live) step
      · cases step
  | terminate object =>
      simp only [Processes.step] at step
      split at step
      · cases step
      · next held live =>
          obtain rfl := Option.some.inj step
          exact sound.terminate live
  | wait object =>
      simp only [Processes.step] at step
      split at step
      · cases step
      · next held live => exact given (sound.wait live (by simp)) step
  | terminateAndWait object =>
      simp only [Processes.step] at step
      split at step
      · cases step
      · next held live => exact given (sound.terminateAndWait live (by simp)) step
  | destroy object =>
      simp only [Processes.step] at step
      split at step
      · cases step
      · next held live => exact given (sound.terminateAndWait live (by simp)) step

/-! ### Runs -/

/-- No child leaves the table, interrupts and waits are for children, no child is waited for twice,
none is forgotten by the last object, and no destructor blocks. -/
structure Kept (processes : Processes κ) : Prop where
  present : ∀ child ∈ processes.children,
    ∃ pid entry, processes.table pid = some entry ∧ entry.process = child
  sent : ∀ child ∈ processes.signalled, child ∈ processes.children
  known : ∀ child ∈ processes.waited, child ∈ processes.children
  once : processes.waited.Nodup
  covered : (∀ object, processes.objects object = none) →
    ∀ child ∈ processes.children, child ∈ processes.waited
  goesOn : ∀ object held, processes.objects object = some held →
    ∃ after, processes.step (.destroy object) = some after

theorem Sound.kept {processes : Processes κ} (sound : Sound processes) : Kept processes where
  present := fun _ => sound.present
  sent := fun _ => sound.sent
  known := fun _ => sound.known
  once := sound.once
  covered := by
    intro dead child member
    rcases sound.covered member with waited | ⟨object, pid, entry, owns, -⟩
    · exact waited
    · simp [dead object] at owns
  goesOn := by
    intro object held live
    obtain ⟨after, waited, -⟩ : ∃ after,
        (processes.put object none).terminateAndWait held = some after ∧ Sound after :=
      sound.terminateAndWait live (by simp)
    exact ⟨after, by simp only [step, live, waited]⟩

/-- The children which were waited for were interrupted. -/
def Interrupted (processes : Processes κ) : Prop :=
  ∀ child ∈ processes.waited, child ∈ processes.signalled

theorem Interrupted.put {processes : Processes κ} (interrupted : Interrupted processes) (object : κ)
    (process : Option (Option ℕ+)) : Interrupted (processes.put object process) := interrupted

omit [DecidableEq κ] in
theorem Interrupted.terminate {processes : Processes κ} (interrupted : Interrupted processes)
    (held : Option ℕ+) : Interrupted (processes.terminate held) := by
  cases held with
  | none => exact interrupted
  | some pid =>
      simp only [Processes.terminate, kill]
      split
      · exact interrupted
      · exact fun child member => List.mem_append_left _ (interrupted child member)

omit [DecidableEq κ] in
theorem Interrupted.terminateAndWait {processes after : Processes κ}
    (interrupted : Interrupted processes) {held : Option ℕ+}
    (waited : processes.terminateAndWait held = some after) : Interrupted after := by
  have signalled := interrupted.terminate held
  cases held with
  | none =>
      obtain rfl := Option.some.inj waited
      exact signalled
  | some pid =>
      cases found : processes.table pid with
      | none =>
          have kept : processes.terminate (some pid) = processes := by
            simp [Processes.terminate, kill, found]
          rw [Processes.terminateAndWait, kept, wait_of_free found] at waited
          obtain rfl := Option.some.inj waited
          exact interrupted
      | some entry =>
          have killed : processes.terminate (some pid) =
              { processes with signalled := processes.signalled ++ [entry.process] } := by
            simp [Processes.terminate, kill, found]
          have stays : (processes.terminate (some pid)).table pid = some entry := by
            rw [killed]
            exact found
          rw [Processes.terminateAndWait, wait_eq stays, killed] at waited
          obtain rfl := Option.some.inj waited
          intro child member
          rcases List.mem_append.mp member with before | last
          · exact List.mem_append_left _ (interrupted child before)
          · exact List.mem_append_right _ last

/-- Every operation but `wait` interrupts what it waits for. -/
theorem step_interrupted {processes after : Processes κ} {label : Label κ}
    (interrupted : Interrupted processes) (other : ∀ object, label ≠ .wait object)
    (step : processes.step label = some after) : Interrupted after := by
  cases label with
  | wait object => exact absurd rfl (other object)
  | start pid | spawn object pid | defaultConstruct object | moveConstruct object source =>
      simp only [Processes.step] at step
      split at step
      · obtain rfl := Option.some.inj step
        exact interrupted
      · cases step
  | exit pid =>
      simp only [Processes.step] at step
      split at step
      · cases step
      · split at step
        · cases step
        · obtain rfl := Option.some.inj step
          exact interrupted
  | moveAssign object source =>
      simp only [Processes.step] at step
      split at step
      · split at step
        · exact ((interrupted.put _ _).put _ _).terminateAndWait step
        · cases step
      · cases step
  | terminate object =>
      simp only [Processes.step] at step
      split at step
      · cases step
      · obtain rfl := Option.some.inj step
        exact interrupted.terminate _
  | terminateAndWait object | destroy object =>
      simp only [Processes.step] at step
      split at step
      · cases step
      · exact (interrupted.put _ _).terminateAndWait step

/-- In every run no child is reaped or forgotten, and only children are interrupted and waited for,
after an interrupt unless `wait` is called on its own. -/
theorem always_kept (labels : List (Label κ)) :
    machine.Always Kept empty labels ∧
      ((∀ object, Label.wait object ∉ labels) → machine.Always Interrupted empty labels) := by
  constructor
  · rw [Machine.always_iff_forall_front]
    intro front back final split execution
    have keeps {processes label after} (sound : Sound processes)
        (step : machine.step processes label = some after) : Sound (after : Processes κ) :=
      step_sound sound step
    exact (Machine.run_invariant keeps empty_sound execution).kept
  · intro alone
    rw [Machine.always_iff_forall_front]
    rintro front back final rfl execution
    have keeps {processes : Processes κ} {label : Label κ} {after}
        (interrupted : Interrupted processes) (other : ∀ object, label ≠ .wait object)
        (step : machine.step processes label = some after) : Interrupted after :=
      step_interrupted interrupted other step
    refine Machine.run_history (P := fun _ => Interrupted) (fun interrupted other step =>
      keeps interrupted other step) ?_ ?_ execution
    · simp [Interrupted, empty]
    · rintro label member object rfl
      exact alone object (List.mem_append_left _ member)

end Processes

end ShadowCast
