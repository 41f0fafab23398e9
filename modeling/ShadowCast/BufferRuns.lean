import ShadowCast.DynamicBuffer
import ShadowCast.Machine

/-!
# Runs of a byte buffer in 64-bit arithmetic

The sizes of a `DynamicBuffer` are words of 64 bits.  `prepare` adds to the size of the vector what
is missing, and the sum is the number of committed bytes plus the number of requested ones.  While
that is a word, the buffer works like its model with natural numbers; otherwise it wraps around, and
the vector is cut off inside the committed bytes.
-/

namespace ShadowCast
namespace DynamicBuffer

/-- The difference of two words. -/
def subWord (a b : Nat) : Nat := (a + (2 ^ 64 - b)) % 2 ^ 64

/-- `max_size` of a vector of bytes. -/
def maxSize : Nat := 2 ^ 63 - 1

/-- `std::vector::resize`; `none` is an exception, which leaves the vector as it is. -/
def resize (data_ : List UInt8) (size : Nat) (allocates : Bool) : Option (List UInt8) :=
  if size ≤ data_.length then some (data_.take size)
  else if maxSize < size ∨ allocates = false then none
  else some (data_ ++ List.replicate (size - data_.length) 0)

/-- `capacity`, as a word. -/
def capacityWord (buffer : DynamicBuffer) : Nat :=
  subWord buffer.data_.length buffer.bytesCommitted

/-- `prepare`, with words; `none` is an exception. -/
def prepareWord (buffer : DynamicBuffer) (n : Nat) (allocates : Bool) : Option DynamicBuffer :=
  if n > buffer.capacityWord then
    let size := (buffer.data_.length + subWord n buffer.capacityWord) % 2 ^ 64
    (resize buffer.data_ size allocates).map fun data_ => { buffer with data_ }
  else some buffer

/-- Write bytes somewhere into the span behind the committed bytes, unless they do not fit. -/
def writeAt (buffer : DynamicBuffer) (offset : Nat) (source : List UInt8) :
    Option DynamicBuffer :=
  let start := buffer.bytesCommitted + offset
  if start + source.length ≤ buffer.data_.length then
    some
      { buffer with
        data_ :=
          buffer.data_.take start ++ source ++ buffer.data_.drop (start + source.length) }
  else none

/-- The operations, with the arguments of the caller and the outcome of an allocation. -/
inductive Operation where
  | prepare (n : UInt64) (allocates : Bool)
  | write (offset : Nat) (source : List UInt8)
  | commit (n : UInt64)
  | consume (n : UInt64)
  | reset
  deriving DecidableEq, Repr

/-- What `prepare` returned, and what it was called with. -/
structure Prepared where
  requested : Nat
  start : Nat
  length : Nat
  /-- The committed bytes before the call. -/
  before : List UInt8
  deriving DecidableEq, Repr

/-- The subtractions of an operation. -/
def subtractions (buffer : DynamicBuffer) : Operation → List (Nat × Nat)
  | .prepare n _ =>
      (buffer.data_.length, buffer.bytesCommitted) ::
        if n.toNat > buffer.capacityWord then [(n.toNat, buffer.capacityWord)] else []
  | .commit _ => [(buffer.data_.length, buffer.bytesCommitted)]
  | .consume n => [(buffer.bytesCommitted, n.toNat)]
  | .write _ _ | .reset => []

/-- A buffer, with the bytes that were committed since the last reset and those that were
consumed. -/
structure Observed where
  buffer : DynamicBuffer
  ledger : Ledger UInt8
  /-- The result of the last operation, if it was a `prepare` that returned. -/
  prepared : Option Prepared
  /-- A subtraction has wrapped around. -/
  wrapped : Bool

namespace Observed

/-- A default-constructed buffer. -/
def start : Observed := { buffer := new, ledger := .empty, prepared := none, wrapped := false }

/-- An operation; one that breaks its precondition is not enabled. -/
def step (observed : Observed) (operation : Operation) : Option Observed :=
  let buffer := observed.buffer
  let wrapped := observed.wrapped || (buffer.subtractions operation).any fun pair => pair.1 < pair.2
  match operation with
  | .prepare n allocates =>
      match buffer.prepareWord n.toNat allocates with
      | none => some { observed with prepared := none, wrapped }
      | some after =>
          some
            { observed with
              buffer := after
              prepared :=
                some
                  { requested := n.toNat
                    start := after.bytesCommitted
                    length := after.capacityWord
                    before := buffer.data }
              wrapped }
  | .write offset source =>
      (buffer.writeAt offset source).map fun after =>
        { observed with buffer := after, prepared := none, wrapped }
  | .commit n =>
      if n.toNat ≤ buffer.capacity then
        some
          { buffer := { buffer with bytesCommitted := (buffer.bytesCommitted + n.toNat) % 2 ^ 64 }
            ledger :=
              observed.ledger.push ((buffer.data_.drop buffer.bytesCommitted).take n.toNat)
            prepared := none
            wrapped }
      else none
  | .consume n =>
      if n.toNat ≤ buffer.size then
        some
          { buffer :=
              { data_ := buffer.data_.drop n.toNat
                bytesCommitted := subWord buffer.bytesCommitted n.toNat }
            ledger := observed.ledger.pop n.toNat
            prepared := none
            wrapped }
      else none
  | .reset =>
      some { buffer := buffer.reset, ledger := .empty, prepared := none, wrapped }

/-- The machine of the operations. -/
def machine : Machine Observed Operation := ⟨step⟩

/-- The buffer is a first-in first-out queue of bytes. -/
structure Fifo (observed : Observed) : Prop where
  inside : observed.buffer.bytesCommitted ≤ observed.buffer.data_.length
  unwrapped : observed.wrapped = false
  pending : observed.buffer.data = observed.ledger.inside
  span : ∀ prepared ∈ observed.prepared,
    prepared.requested ≤ prepared.length ∧ prepared.start = observed.buffer.bytesCommitted ∧
      prepared.start + prepared.length = observed.buffer.data_.length ∧
      prepared.before = observed.buffer.data
  total : observed.buffer.size + observed.buffer.capacityWord = observed.buffer.data_.length

/-- The number of committed bytes and that of the requested ones add up to a word. -/
def Room (observed : Observed) : Operation → Prop
  | .prepare n _ => observed.buffer.size + n.toNat < 2 ^ 64
  | _ => True

instance (observed : Observed) : (operation : Operation) → Decidable (observed.Room operation)
  | .prepare n _ => inferInstanceAs (Decidable (observed.buffer.size + n.toNat < 2 ^ 64))
  | .write _ _ => isTrue trivial
  | .commit _ => isTrue trivial
  | .consume _ => isTrue trivial
  | .reset => isTrue trivial

end Observed

/-! ### Words and numbers -/

theorem subWord_eq {a b : Nat} (ordered : b ≤ a) (word : a < 2 ^ 64) : subWord a b = a - b := by
  rw [subWord, show a + (2 ^ 64 - b) = a - b + 2 ^ 64 by omega, Nat.add_mod_right,
    Nat.mod_eq_of_lt (by omega)]

/-- The buffer fits into memory and its committed bytes lie inside the vector. -/
structure Sized (buffer : DynamicBuffer) : Prop where
  wellFormed : buffer.WellFormed
  bounded : buffer.data_.length ≤ maxSize

theorem Sized.capacityWord_eq {buffer : DynamicBuffer} (sized : buffer.Sized) :
    buffer.capacityWord = buffer.capacity := by
  have bounded := sized.bounded
  rw [maxSize] at bounded
  exact subWord_eq sized.wellFormed (by omega)

/-- The size which `prepare` asks for is that of the committed and the requested bytes. -/
theorem prepareWord_of_short {buffer : DynamicBuffer} (sized : buffer.Sized) {n : Nat}
    (word : n < 2 ^ 64) (short : buffer.capacity < n) (allocates : Bool) :
    buffer.prepareWord n allocates =
      (resize buffer.data_ ((buffer.size + n) % 2 ^ 64) allocates).map
        fun data_ => { buffer with data_ } := by
  have balance := size_add_capacity sized.wellFormed
  rw [prepareWord, sized.capacityWord_eq, if_pos short, subWord_eq (Nat.le_of_lt short) word,
    show buffer.data_.length + (n - buffer.capacity) = buffer.size + n by omega]

/-- While the sum is a word, `prepare` throws, or does what it does with natural numbers. -/
theorem prepareWord_eq {buffer : DynamicBuffer} (sized : buffer.Sized) {n : Nat}
    (room : buffer.size + n < 2 ^ 64) (allocates : Bool) :
    buffer.prepareWord n allocates =
      if n ≤ buffer.capacity ∨ buffer.size + n ≤ maxSize ∧ allocates then some (buffer.prepare n)
      else none := by
  have balance := size_add_capacity sized.wellFormed
  by_cases short : buffer.capacity < n
  · rw [prepareWord_of_short sized (by omega) short, Nat.mod_eq_of_lt room, resize,
      if_neg (by omega), prepare, if_pos short]
    by_cases fits : buffer.size + n ≤ maxSize ∧ allocates
    · rw [if_neg (by simp [fits.2]; omega), if_pos (Or.inr fits), Option.map_some,
        show buffer.size + n - buffer.data_.length = n - buffer.capacity by omega]
    · rw [if_pos (by grind), if_neg (by grind), Option.map_none]
  · rw [prepareWord, sized.capacityWord_eq, if_neg short, prepare, if_neg short,
      if_pos (Or.inl (by omega))]

/-- If the sum is not a word, the vector is cut off inside the committed bytes. -/
theorem prepareWord_of_wrapped {buffer : DynamicBuffer} (sized : buffer.Sized) {n : Nat}
    (word : n < 2 ^ 64) (wraps : 2 ^ 64 ≤ buffer.size + n) (allocates : Bool) :
    ∃ after, buffer.prepareWord n allocates = some after ∧ ¬after.WellFormed := by
  have balance := size_add_capacity sized.wellFormed
  have bounded := sized.bounded
  rw [maxSize] at bounded
  have wrapped : (buffer.size + n) % 2 ^ 64 = buffer.size + n - 2 ^ 64 := by omega
  refine ⟨{ buffer with data_ := buffer.data_.take (buffer.size + n - 2 ^ 64) }, ?_, ?_⟩
  · rw [prepareWord_of_short sized word (by omega), wrapped, resize, if_pos (by omega),
      Option.map_some]
  · simp only [WellFormed, List.length_take]
    simp only [size] at wraps bounded balance ⊢
    omega

/-- Writing into the span changes no committed byte. -/
theorem writeAt_spec {buffer after : DynamicBuffer} (wellFormed : buffer.WellFormed) {offset : Nat}
    {source : List UInt8} (written : buffer.writeAt offset source = some after) :
    after.bytesCommitted = buffer.bytesCommitted ∧
      after.data_.length = buffer.data_.length ∧ after.data = buffer.data := by
  unfold WellFormed at wellFormed
  simp only [writeAt] at written
  split at written
  · next fits =>
      cases written
      refine ⟨rfl, ?_, ?_⟩
      · simp only [List.length_append, List.length_take, List.length_drop]
        omega
      · simp only [data]
        rw [List.append_assoc, List.take_append_of_le_length (by simp; omega), List.take_take,
          Nat.min_eq_left (by omega)]
  · cases written

namespace Observed

/-- What a run keeps: the buffer is a queue and fits into memory. -/
def Kept (observed : Observed) : Prop := observed.Fifo ∧ observed.buffer.Sized

theorem start_kept : start.Kept := by
  refine ⟨⟨Nat.le_refl 0, rfl, rfl, nofun, rfl⟩, ⟨Nat.le_refl 0, ?_⟩⟩
  simp [start, new, maxSize]

/-- No subtraction wraps around in a buffer that is in order. -/
theorem Kept.unwrapped {observed : Observed} (kept : observed.Kept) (operation : Operation)
    (allowed : ∀ n, operation = .consume n → n.toNat ≤ observed.buffer.size) :
    (observed.wrapped ||
      (observed.buffer.subtractions operation).any fun pair => pair.1 < pair.2) = false := by
  obtain ⟨fifo, sized⟩ := kept
  rw [fifo.unwrapped, Bool.false_or]
  have inside : ¬observed.buffer.data_.length < observed.buffer.bytesCommitted :=
    Nat.not_lt.mpr sized.wellFormed
  cases operation with
  | prepare n allocates =>
      by_cases short : n.toNat > observed.buffer.capacityWord
      · simp [subtractions, short, inside, Nat.le_of_lt short]
      · simp [subtractions, short, inside]
  | write offset source => rfl
  | commit n => simp [subtractions, inside]
  | consume n => simpa [subtractions, size] using allowed n rfl
  | reset => rfl

/-- The parts of the invariant which the operations have to provide. -/
theorem Kept.intro {observed : Observed} (sized : observed.buffer.Sized)
    (unwrapped : observed.wrapped = false)
    (pending : observed.buffer.data = observed.ledger.inside)
    (span : ∀ prepared ∈ observed.prepared,
      prepared.requested ≤ prepared.length ∧ prepared.start = observed.buffer.bytesCommitted ∧
        prepared.start + prepared.length = observed.buffer.data_.length ∧
        prepared.before = observed.buffer.data) : observed.Kept := by
  refine ⟨⟨sized.wellFormed, unwrapped, pending, span, ?_⟩, sized⟩
  rw [sized.capacityWord_eq]
  exact size_add_capacity sized.wellFormed

theorem Kept.prepare {observed after : Observed} {n : UInt64} {allocates : Bool}
    (kept : observed.Kept) (room : observed.buffer.size + n.toNat < 2 ^ 64)
    (step : observed.step (.prepare n allocates) = some after) : after.Kept := by
  have unwrapped := kept.unwrapped (.prepare n allocates) fun _ => nofun
  obtain ⟨fifo, sized⟩ := kept
  have balance := size_add_capacity sized.wellFormed
  simp only [Observed.step, prepareWord_eq sized room] at step
  by_cases fits : n.toNat ≤ observed.buffer.capacity ∨
      observed.buffer.size + n.toNat ≤ maxSize ∧ allocates
  · rw [if_pos fits] at step
    cases step
    have wellFormed := prepare_wellFormed sized.wellFormed n.toNat
    have enough := le_prepare_capacity sized.wellFormed n.toNat
    have bounded := sized.bounded
    have grown : (observed.buffer.prepare n.toNat).Sized := by
      refine ⟨wellFormed, ?_⟩
      simp only [DynamicBuffer.prepare]
      split
      · simp only [List.length_append, List.length_replicate]
        omega
      · exact bounded
    refine Kept.intro grown unwrapped ?_ ?_
    · exact (prepare_data sized.wellFormed n.toNat).trans fifo.pending
    · have length := grown.capacityWord_eq
      rintro _ ⟨⟩
      refine ⟨?_, rfl, ?_, (prepare_data sized.wellFormed n.toNat).symm⟩
      · exact Nat.le_trans enough (Nat.le_of_eq length.symm)
      · dsimp only
        rw [length]
        exact Nat.add_sub_cancel' wellFormed
  · rw [if_neg fits] at step
    cases step
    exact Kept.intro sized unwrapped fifo.pending nofun

theorem Kept.write {observed after : Observed} {offset : Nat} {source : List UInt8}
    (kept : observed.Kept) (step : observed.step (.write offset source) = some after) :
    after.Kept := by
  have unwrapped := kept.unwrapped (.write offset source) fun _ => nofun
  obtain ⟨fifo, sized⟩ := kept
  obtain ⟨buffer, written, rfl⟩ := Option.map_eq_some_iff.mp step
  obtain ⟨same, length, data⟩ := writeAt_spec sized.wellFormed written
  refine Kept.intro ⟨?_, ?_⟩ unwrapped (data.trans fifo.pending) nofun
  · simpa only [WellFormed, same, length] using sized.wellFormed
  · simpa only [length] using sized.bounded

theorem Kept.commit {observed after : Observed} {n : UInt64} (kept : observed.Kept)
    (step : observed.step (.commit n) = some after) : after.Kept := by
  have unwrapped := kept.unwrapped (.commit n) (by simp)
  obtain ⟨fifo, sized⟩ := kept
  have balance := size_add_capacity sized.wellFormed
  have bounded := sized.bounded
  rw [maxSize] at bounded
  simp only [Observed.step] at step
  split at step
  · next allowed =>
      cases step
      simp only [size] at balance
      have sum : (observed.buffer.bytesCommitted + n.toNat) % 2 ^ 64 =
          observed.buffer.bytesCommitted + n.toNat := Nat.mod_eq_of_lt (by omega)
      refine Kept.intro ⟨?_, sized.bounded⟩ unwrapped ?_ (by simp)
      · simp only [WellFormed, sum]
        omega
      · simp only [data, sum, Ledger.push_inside, ← fifo.pending]
        exact List.take_add
  · cases step

theorem Kept.consume {observed after : Observed} {n : UInt64} (kept : observed.Kept)
    (step : observed.step (.consume n) = some after) : after.Kept := by
  have unwrapped := kept.unwrapped (.consume n)
  obtain ⟨fifo, sized⟩ := kept
  have bounded := sized.bounded
  rw [maxSize] at bounded
  simp only [Observed.step] at step
  split at step
  · next allowed =>
      cases step
      have inside := sized.wellFormed
      simp only [WellFormed] at inside
      have difference := subWord_eq allowed (by simp only [size]; omega)
      obtain ⟨consumed, consumed_eq, wellFormed, -, data⟩ := consume_spec sized.wellFormed allowed
      obtain rfl := Option.some.inj ((if_pos allowed).symm.trans consumed_eq)
      simp only [size] at difference
      refine Kept.intro ⟨?_, ?_⟩ (unwrapped (by rintro _ ⟨⟩; exact allowed)) ?_ (by simp)
      · simpa only [difference] using wellFormed
      · simp only [List.length_drop, maxSize]
        omega
      · simp only [difference, Ledger.pop_inside, ← fifo.pending]
        exact data
  · cases step

/-- A step with room keeps the invariant. -/
theorem Kept.step {observed after : Observed} {operation : Operation} (kept : observed.Kept)
    (room : observed.Room operation) (step : observed.step operation = some after) :
    after.Kept := by
  cases operation with
  | prepare n allocates => exact kept.prepare room step
  | write offset source => exact kept.write step
  | commit n => exact kept.commit step
  | consume n => exact kept.consume step
  | reset =>
      have unwrapped := kept.unwrapped .reset fun _ => nofun
      cases step
      exact Kept.intro ⟨Nat.zero_le _, kept.2.bounded⟩ unwrapped rfl nofun

/-- A `prepare` without room breaks the buffer. -/
theorem Kept.room_of_fifo {observed after : Observed} {operation : Operation}
    (kept : observed.Kept) (step : observed.step operation = some after) (fifo : after.Fifo) :
    observed.Room operation := by
  obtain ⟨-, sized⟩ := kept
  cases operation with
  | prepare n allocates =>
      by_contra wraps
      obtain ⟨cut, prepared, broken⟩ := prepareWord_of_wrapped sized n.toNat_lt
        (Nat.le_of_not_lt wraps) allocates
      simp only [Observed.step, prepared] at step
      cases step
      exact broken fifo.inside
  | write offset source => trivial
  | commit n => trivial
  | consume n => trivial
  | reset => trivial

/-- A run of the operations is one of a queue, at every moment, exactly when the sum of the
committed and the requested bytes was a word whenever `prepare` was called. -/
theorem fifo_iff {operations : List Operation} {final : Observed}
    (execution : machine.run operations start = some final) :
    machine.Always Fifo start operations ↔ machine.Guarded Room start operations :=
  Machine.always_iff_guarded_of_forced (fun kept => kept.1)
    (fun kept room step => kept.step room step)
    (fun kept step fifo => kept.room_of_fifo step fifo) start_kept execution

/-- Bytes are committed and consumed, and the vector grows behind the rest. -/
theorem fifo_of_growing_run :
    machine.Always Fifo start
      [.prepare 4 true, .write 0 [1, 2, 3], .commit 3, .consume 1, .prepare 9 true] := by
  have enabled : (machine.run
      [.prepare 4 true, .write 0 [1, 2, 3], .commit 3, .consume 1, .prepare 9 true]
      start).isSome := by
    decide +kernel
  obtain ⟨final, execution⟩ := Option.isSome_iff_exists.mp enabled
  refine (fifo_iff execution).mpr ?_
  decide +kernel

/-- Ten bytes are committed when `prepare` is called with 2^64 - 5, and five are left. -/
theorem prepare_cuts_off :
    ¬∀ operations final, machine.run operations start = some final →
      machine.Always Fifo start operations := by
  intro every
  have cut : (machine.run [.prepare 10 true, .commit 10, .prepare (0 - 5) true] start).map
      (fun final => (final.buffer.bytesCommitted, final.buffer.data_.length)) = some (10, 5) := by
    decide +kernel
  obtain ⟨final, execution, sizes⟩ := Option.map_eq_some_iff.mp cut
  have inside := (Machine.always_end (every _ final execution) execution).inside
  rw [Prod.mk.injEq] at sizes
  omega

end Observed
end DynamicBuffer
end ShadowCast
