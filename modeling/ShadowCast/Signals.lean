import Mathlib.Data.Finset.Erase
import Mathlib.Data.Finset.Filter
import Mathlib.Data.Finset.Insert

/-!
# Signals and masks

A signal that every thread of a process blocks is kept for later; otherwise the process acts on it.
A thread may wait with a mask of its own, which replaces its mask for the time of the wait, and a
signal that it handles then ends the wait.
-/

namespace ShadowCast

/-- What a process does when it acts on a signal. -/
inductive Disposition where
  | ignored
  | terminates
  | caught
  deriving DecidableEq, Repr

/-- The signals of a process, from the side of one of its threads. -/
structure Signals (σ : Type*) where
  /-- The mask of the thread. -/
  mask : Finset σ
  /-- The mask that the thread returns to, during a wait. -/
  saved : Option (Finset σ)
  /-- The masks of the other threads. -/
  others : List (Finset σ)
  /-- The signals that have been kept. -/
  pending : Finset σ
  disposition : σ → Disposition
  killed : Bool

namespace Signals

variable {σ : Type*} [DecidableEq σ]

/-- Every thread blocks the signal. -/
def Blocked (signals : Signals σ) (signal : σ) : Prop :=
  signal ∈ signals.mask ∧ ∀ mask ∈ signals.others, signal ∈ mask

instance (signals : Signals σ) (signal : σ) : Decidable (signals.Blocked signal) :=
  inferInstanceAs (Decidable (_ ∧ _))

/-- A wait ends. -/
def wake (signals : Signals σ) : Signals σ :=
  { signals with mask := signals.saved.getD signals.mask, saved := none }

/-- The process acts on a signal.  The thread handles what it does not block. -/
def act (signals : Signals σ) (signal : σ) : Signals σ :=
  match signals.disposition signal with
  | .ignored => signals
  | .terminates => { signals with killed := true }
  | .caught => if signal ∈ signals.mask then signals else signals.wake

/-- A signal is sent to the process. -/
def raise (signals : Signals σ) (signal : σ) : Signals σ :=
  if signals.Blocked signal then { signals with pending := insert signal signals.pending }
  else signals.act signal

/-- What has been kept and is not blocked any more. -/
def Released (signals : Signals σ) (disposition : Disposition) : Prop :=
  ∃ signal ∈ signals.pending, signal ∉ signals.mask ∧ signals.disposition signal = disposition

instance (signals : Signals σ) (disposition : Disposition) :
    Decidable (signals.Released disposition) :=
  inferInstanceAs (Decidable (∃ signal ∈ signals.pending, _))

/-- The thread has changed its mask, and the process acts on what it does not block any more. -/
def deliver (signals : Signals σ) : Signals σ :=
  let left := { signals with pending := signals.pending.filter (· ∈ signals.mask) }
  if signals.Released .terminates then { left with killed := true }
  else if signals.Released .caught then left.wake
  else left

/-- `pthread_sigmask` with `SIG_SETMASK`. -/
def setMask (signals : Signals σ) (mask : Finset σ) : Signals σ :=
  { signals with mask := mask }.deliver

/-- A wait with a mask of its own, when there is nothing to wait for yet. -/
def wait (signals : Signals σ) (mask : Finset σ) : Signals σ :=
  { signals with mask := mask, saved := some signals.mask }.deliver

/-- A signal is taken from a descriptor. -/
def take (signals : Signals σ) (signal : σ) : Signals σ :=
  { signals with pending := signals.pending.erase signal }

/-- A thread is started. -/
def startThread (signals : Signals σ) (mask : Finset σ) : Signals σ :=
  { signals with others := signals.others ++ [mask] }

/-- The mask of the thread outside of its waits. -/
def restMask (signals : Signals σ) : Finset σ :=
  signals.saved.getD signals.mask

/-- Every thread blocks these signals outside of its waits. -/
structure Guards (guarded : Finset σ) (signals : Signals σ) : Prop where
  own : guarded ⊆ signals.restMask
  others : ∀ mask ∈ signals.others, guarded ⊆ mask

/-! ### What the operations leave as it is -/

/-- The masks outside of waits and the dispositions are the same. -/
structure Same (before after : Signals σ) : Prop where
  restMask : after.restMask = before.restMask
  others : after.others = before.others
  disposition : after.disposition = before.disposition

omit [DecidableEq σ] in
theorem wake_same (signals : Signals σ) : Same signals signals.wake := ⟨rfl, rfl, rfl⟩

omit [DecidableEq σ] in
theorem Guards.of_same {guarded : Finset σ} {before after : Signals σ}
    (guards : Guards guarded before) (same : Same before after) : Guards guarded after where
  own := same.restMask ▸ guards.own
  others := same.others ▸ guards.others

theorem deliver_same (signals : Signals σ) : Same signals signals.deliver := by
  unfold deliver
  dsimp only
  split
  · exact ⟨rfl, rfl, rfl⟩
  · split <;> exact ⟨rfl, rfl, rfl⟩

theorem take_same (signals : Signals σ) (signal : σ) : Same signals (signals.take signal) :=
  ⟨rfl, rfl, rfl⟩

theorem setMask_restMask {signals : Signals σ} (free : signals.saved = none) (mask : Finset σ) :
    (signals.setMask mask).restMask = mask := by
  rw [setMask, (deliver_same _).restMask, restMask, free]
  rfl

theorem Guards.setMask {guarded mask : Finset σ} {signals : Signals σ}
    (guards : Guards guarded signals) (free : signals.saved = none) (larger : guarded ⊆ mask) :
    Guards guarded (signals.setMask mask) where
  own := by rwa [setMask_restMask free]
  others := by
    rw [Signals.setMask, (deliver_same _).others]
    exact guards.others

omit [DecidableEq σ] in
theorem Guards.startThread {guarded mask : Finset σ} {signals : Signals σ}
    (guards : Guards guarded signals) (larger : guarded ⊆ mask) :
    Guards guarded (signals.startThread mask) where
  own := guards.own
  others := by
    intro other member
    rcases List.mem_append.mp member with before | last
    · exact guards.others other before
    · rwa [List.mem_singleton.mp last]

/-! ### What becomes of a signal -/

/-- A guarded signal is kept outside of waits. -/
theorem Guards.raise_eq {guarded : Finset σ} {signals : Signals σ} {signal : σ}
    (guards : Guards guarded signals) (member : signal ∈ guarded) (free : signals.saved = none) :
    signals.raise signal = { signals with pending := insert signal signals.pending } := by
  have own := guards.own member
  rw [restMask, free] at own
  exact if_pos ⟨own, fun mask other => guards.others mask other member⟩

theorem raise_of_notMem {signals : Signals σ} {signal : σ} (unblocked : signal ∉ signals.mask) :
    signals.raise signal = signals.act signal :=
  if_neg fun blocked => unblocked blocked.1

theorem act_of_terminates {signals : Signals σ} {signal : σ}
    (terminates : signals.disposition signal = .terminates) :
    signals.act signal = { signals with killed := true } := by
  simp only [act, terminates]

/-- Nothing happens when everything that has been kept is still blocked. -/
theorem deliver_of_subset {signals : Signals σ} (blocked : signals.pending ⊆ signals.mask) :
    signals.deliver = signals := by
  have none (disposition : Disposition) : ¬signals.Released disposition := by
    rintro ⟨signal, kept, released, -⟩
    exact released (blocked kept)
  simp only [deliver, if_neg (none _), Finset.filter_true_of_mem blocked]

/-- A wait when nothing has been kept. -/
theorem wait_of_empty {signals : Signals σ} (empty : signals.pending = ∅) (mask : Finset σ) :
    signals.wait mask = { signals with mask := mask, saved := some signals.mask } :=
  deliver_of_subset (by simp [empty])

end Signals

end ShadowCast
