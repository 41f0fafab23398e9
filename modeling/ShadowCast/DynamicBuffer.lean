import ShadowCast.Ledger
import Mathlib.Tactic.ByContra

/-!
# The growing byte buffer of a channel

`DynamicBuffer` keeps committed and spare bytes in one vector.  Its operations are partial where the
source asserts, and writing into the span returned by `prepare` is an operation of its own.  Read
through `data`, the buffer is a first-in first-out queue of bytes.
-/

namespace ShadowCast

/-- One vector, whose first `bytesCommitted` bytes are committed and whose other bytes are spare. -/
structure DynamicBuffer where
  /-- The backing vector. -/
  data_ : List UInt8
  /-- Number of committed bytes. -/
  bytesCommitted : Nat
  deriving DecidableEq, Repr

namespace DynamicBuffer

/-- A default-constructed buffer. -/
def new : DynamicBuffer := ⟨[], 0⟩

/-- Number of committed bytes. -/
def size (buffer : DynamicBuffer) : Nat := buffer.bytesCommitted

/-- Number of spare bytes. -/
def capacity (buffer : DynamicBuffer) : Nat := buffer.data_.length - buffer.size

/-- The committed bytes. -/
def data (buffer : DynamicBuffer) : List UInt8 := buffer.data_.take buffer.bytesCommitted

/-- Forget the committed bytes. -/
def reset (buffer : DynamicBuffer) : DynamicBuffer := { buffer with bytesCommitted := 0 }

/-- Make room for `n` more bytes; the returned span is everything after the committed bytes. -/
def prepare (buffer : DynamicBuffer) (n : Nat) : DynamicBuffer :=
  if n > buffer.capacity then
    { buffer with data_ := buffer.data_ ++ List.replicate (n - buffer.capacity) 0 }
  else
    buffer

/-- Copy bytes to the beginning of the span returned by `prepare`, unless they do not fit. -/
def write (buffer : DynamicBuffer) (source : List UInt8) : Option DynamicBuffer :=
  if source.length ≤ buffer.capacity then
    some
      { buffer with
        data_ :=
          buffer.data ++ source ++ buffer.data_.drop (buffer.bytesCommitted + source.length) }
  else
    none

/-- Commit `n` spare bytes; `none` is a failed assertion. -/
def commit (buffer : DynamicBuffer) (n : Nat) : Option DynamicBuffer :=
  if n ≤ buffer.data_.length - buffer.bytesCommitted then
    some { buffer with bytesCommitted := buffer.bytesCommitted + n }
  else
    none

/-- Erase `n` committed bytes at the front; `none` is a failed assertion. -/
def consume (buffer : DynamicBuffer) (n : Nat) : Option DynamicBuffer :=
  if n ≤ buffer.bytesCommitted then
    some { data_ := buffer.data_.drop n, bytesCommitted := buffer.bytesCommitted - n }
  else
    none

/-- The committed bytes lie inside the vector. -/
def WellFormed (buffer : DynamicBuffer) : Prop := buffer.bytesCommitted ≤ buffer.data_.length

theorem new_wellFormed : new.WellFormed := Nat.le_refl 0

@[simp]
theorem data_length {buffer : DynamicBuffer} (wellFormed : buffer.WellFormed) :
    buffer.data.length = buffer.size := by
  rw [data, List.length_take]
  exact Nat.min_eq_left wellFormed

theorem size_add_capacity {buffer : DynamicBuffer} (wellFormed : buffer.WellFormed) :
    buffer.size + buffer.capacity = buffer.data_.length := by
  unfold WellFormed at wellFormed
  simp only [capacity, size]
  omega

@[simp]
theorem prepare_bytesCommitted (buffer : DynamicBuffer) (n : Nat) :
    (buffer.prepare n).bytesCommitted = buffer.bytesCommitted := by
  unfold prepare
  split <;> rfl

theorem prepare_wellFormed {buffer : DynamicBuffer} (wellFormed : buffer.WellFormed) (n : Nat) :
    (buffer.prepare n).WellFormed := by
  unfold WellFormed at wellFormed ⊢
  unfold prepare
  split
  · simp only [List.length_append]
    omega
  · exact wellFormed

/-- `prepare` leaves the committed bytes alone. -/
theorem prepare_data {buffer : DynamicBuffer} (wellFormed : buffer.WellFormed) (n : Nat) :
    (buffer.prepare n).data = buffer.data := by
  unfold WellFormed at wellFormed
  unfold prepare
  split
  · simp [data, List.take_append_of_le_length wellFormed]
  · rfl

/-- `prepare` returns a span of at least the requested length. -/
theorem le_prepare_capacity {buffer : DynamicBuffer} (wellFormed : buffer.WellFormed) (n : Nat) :
    n ≤ (buffer.prepare n).capacity := by
  unfold WellFormed at wellFormed
  unfold prepare
  split
  · rename_i short
    simp only [capacity, size, List.length_append, List.length_replicate] at short ⊢
    omega
  · omega

/-- Writing into the span changes no committed byte, and puts the source right behind them. -/
theorem write_spec {buffer : DynamicBuffer} (wellFormed : buffer.WellFormed)
    {source : List UInt8} (room : source.length ≤ buffer.capacity) :
    ∃ written, buffer.write source = some written ∧
      written.bytesCommitted = buffer.bytesCommitted ∧
      written.data_.length = buffer.data_.length ∧
      written.data_.take (buffer.bytesCommitted + source.length) = buffer.data ++ source := by
  have data_length_eq : buffer.data.length = buffer.bytesCommitted := data_length wellFormed
  have front_length :
      (buffer.data ++ source).length = buffer.bytesCommitted + source.length := by
    simp [data_length_eq]
  refine ⟨{ buffer with
    data_ := buffer.data ++ source ++ buffer.data_.drop (buffer.bytesCommitted + source.length) },
    if_pos room, rfl, ?_, ?_⟩
  · have balance := size_add_capacity wellFormed
    rw [List.length_append, front_length, List.length_drop]
    simp only [size] at balance
    omega
  · rw [← front_length]
    exact List.take_left

/-- The treatment of one channel by `on_process`: prepare, copy into the span, commit. -/
def append (buffer : DynamicBuffer) (source : List UInt8) : Option DynamicBuffer :=
  ((buffer.prepare source.length).write source).bind fun written => written.commit source.length

/-- Appending to a well-formed buffer never fails, and appends. -/
theorem append_spec {buffer : DynamicBuffer} (wellFormed : buffer.WellFormed)
    (source : List UInt8) :
    ∃ after, buffer.append source = some after ∧ after.WellFormed ∧
      after.size = buffer.size + source.length ∧ after.data = buffer.data ++ source := by
  have prepared_wellFormed := prepare_wellFormed wellFormed source.length
  have room := le_prepare_capacity wellFormed source.length
  obtain ⟨written, written_eq, same_size, same_length, front⟩ :=
    write_spec prepared_wellFormed room
  have balance := size_add_capacity prepared_wellFormed
  simp only [size] at balance
  have fits : source.length ≤ written.data_.length - written.bytesCommitted := by omega
  refine ⟨{ written with bytesCommitted := written.bytesCommitted + source.length }, ?_, ?_, ?_, ?_⟩
  · rw [append, written_eq]
    exact if_pos fits
  · simp only [WellFormed]
    omega
  · simp [size, same_size]
  · rw [← prepare_data wellFormed source.length, ← front, ← same_size]
    rfl

/-- Consuming committed bytes never fails, and drops them from the front. -/
theorem consume_spec {buffer : DynamicBuffer} (wellFormed : buffer.WellFormed) {n : Nat}
    (enough : n ≤ buffer.size) :
    ∃ after, buffer.consume n = some after ∧ after.WellFormed ∧
      after.size = buffer.size - n ∧ after.data = buffer.data.drop n := by
  unfold WellFormed at wellFormed
  refine ⟨_, if_pos enough, ?_, rfl, ?_⟩
  · simp only [WellFormed, List.length_drop]
    simp only [size] at enough
    omega
  · have split : n + (buffer.bytesCommitted - n) = buffer.bytesCommitted :=
      Nat.add_sub_cancel' enough
    simp only [data, List.take_drop, split]

/-- The buffer and the ledger hold the same pending bytes. -/
def Represents (buffer : DynamicBuffer) (ledger : Ledger UInt8) : Prop :=
  buffer.WellFormed ∧ buffer.data = ledger.inside

theorem new_represents : new.Represents Ledger.empty := ⟨new_wellFormed, rfl⟩

/-- Appending refines entering the queue. -/
theorem append_represents {buffer after : DynamicBuffer} {ledger : Ledger UInt8}
    (represents : buffer.Represents ledger) {source : List UInt8}
    (appended : buffer.append source = some after) : after.Represents (ledger.push source) := by
  obtain ⟨wellFormed, same⟩ := represents
  obtain ⟨after', appended', after_wellFormed, -, after_data⟩ := append_spec wellFormed source
  obtain rfl : after = after' := Option.some.inj (appended.symm.trans appended')
  exact ⟨after_wellFormed, by simp [after_data, same]⟩

/-- Consuming refines leaving the queue. -/
theorem consume_represents {buffer after : DynamicBuffer} {ledger : Ledger UInt8}
    (represents : buffer.Represents ledger) {n : Nat}
    (consumed : buffer.consume n = some after) : after.Represents (ledger.pop n) := by
  obtain ⟨wellFormed, same⟩ := represents
  have enough : n ≤ buffer.size := by
    by_contra short
    simp [consume, size] at consumed short
    omega
  obtain ⟨after', consumed', after_wellFormed, -, after_data⟩ := consume_spec wellFormed enough
  obtain rfl : after = after' := Option.some.inj (consumed.symm.trans consumed')
  exact ⟨after_wellFormed, by simp [after_data, same]⟩

end DynamicBuffer

end ShadowCast
