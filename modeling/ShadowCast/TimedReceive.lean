import ShadowCast.MessageHandler

/-!
# Receives behind a timeout

A receive cannot block when its descriptor was readable at the instant at which `ppoll` reported it.
The helper polls for input before it receives.  `get_drm_data` polls for output before it receives,
which is as good exactly when the answer is there by the time the socket is found writable.
-/

namespace ShadowCast

/-- The instant lies within the timeout. -/
def WithinTime (timeout : Option Nat) (instant : Instant) : Prop :=
  ∀ limit ∈ timeout, instant.time ≤ limit

theorem not_any_lt_iff {timeout : Option Nat} {instant : Instant} :
    timeout.any (· < instant.time) = false ↔ WithinTime timeout instant := by
  cases timeout <;> simp [WithinTime]

/-- The instant changes nothing for a poll in this direction. -/
def Uneventful (direction : Direction) (instant : Instant) : Prop :=
  (instant.revents direction).any = false ∧ instant.signal = false

/-- `ppoll` reports the first instant at which the descriptor is ready, if no signal and no timeout
comes first. -/
theorem ppoll_ready_iff {direction : Direction} {timeout : Option Nat} {window : List Instant}
    {instant : Instant} :
    ppoll direction timeout window = .ready instant ↔
      ∃ before after, window = before ++ instant :: after ∧
        (∀ other ∈ before, WithinTime timeout other ∧ Uneventful direction other) ∧
        WithinTime timeout instant ∧ (instant.revents direction).any = true := by
  induction window with
  | nil =>
      unfold ppoll
      split <;> simp
  | cons first rest ih =>
      constructor
      · intro polled
        unfold ppoll at polled
        split at polled
        · cases polled
        · rename_i in_time
          have in_time := not_any_lt_iff.mp (Bool.not_eq_true _ ▸ in_time)
          split at polled
          · rename_i ready
            obtain rfl := PollResult.ready.inj polled
            exact ⟨[], rest, rfl, by simp, in_time, ready⟩
          · rename_i not_ready
            split at polled
            · cases polled
            · rename_i no_signal
              obtain ⟨before, after, rfl, uneventful, ready⟩ := ih.mp polled
              refine ⟨first :: before, after, rfl, ?_, ready⟩
              simp only [List.mem_cons, forall_eq_or_imp]
              exact ⟨⟨in_time, by simpa using not_ready, by simpa using no_signal⟩, uneventful⟩
      · rintro ⟨before, after, split, uneventful, in_time, ready⟩
        cases before with
        | nil =>
            obtain ⟨rfl, -⟩ : first = instant ∧ rest = after := by simpa using split
            simp [ppoll, not_any_lt_iff.mpr in_time, ready]
        | cons _ before =>
            obtain ⟨rfl, rfl⟩ : first = _ ∧ rest = before ++ instant :: after := by
              simpa using split
            simp only [List.mem_cons, forall_eq_or_imp] at uneventful
            obtain ⟨⟨first_in_time, not_ready, no_signal⟩, uneventful⟩ := uneventful
            simp only [ppoll, not_any_lt_iff.mpr first_in_time, not_ready, no_signal]
            exact ih.mpr ⟨before, after, rfl, uneventful, in_time, ready⟩

/-- Only a signal within the timeout interrupts. -/
theorem ppoll_interrupted {direction : Direction} {timeout : Option Nat} {window : List Instant}
    (polled : ppoll direction timeout window = .interrupted) :
    ∃ instant ∈ window, WithinTime timeout instant ∧ instant.signal = true := by
  induction window with
  | nil =>
      unfold ppoll at polled
      split at polled <;> cases polled
  | cons first rest ih =>
      unfold ppoll at polled
      split at polled
      · cases polled
      · rename_i in_time
        split at polled
        · cases polled
        · split at polled
          · rename_i signal
            exact ⟨first, by simp, not_any_lt_iff.mp (Bool.not_eq_true _ ▸ in_time), signal⟩
          · obtain ⟨instant, member, found⟩ := ih polled
            exact ⟨instant, by simp [member], found⟩

/-- A wait with a timeout ends. -/
theorem ppoll_ne_waiting (direction : Direction) (limit : Nat) (window : List Instant) :
    ppoll direction (some limit) window ≠ .waiting := by
  induction window with
  | nil => simp [ppoll]
  | cons first rest ih =>
      unfold ppoll
      split
      · exact PollResult.noConfusion
      · split
        · exact PollResult.noConfusion
        · split
          · exact PollResult.noConfusion
          · exact ih

/-- If the handler receives, the descriptor was readable when its `ppoll` reported it. -/
def ReadableReceive (call : HandlerCall) : Prop :=
  call.handler.systemCall = .recvmsg → call.entered = true →
    ∃ instant, call.poll = .ready instant ∧ instant.readable = true

/-- Whenever the wait first finds the socket writable or hung up, data or the end of the stream is
there. -/
def ReadableWhenWritable (timeout : Option Nat) (window : List Instant) : Prop :=
  ∀ before instant after, window = before ++ instant :: after →
    (∀ other ∈ before, WithinTime timeout other ∧ other.writable = false ∧
      other.closed = false ∧ other.signal = false) →
    WithinTime timeout instant → instant.writable = true ∨ instant.closed = true →
      instant.data = true ∨ instant.closed = true

/-- Within the timeout nothing becomes readable, and no signal arrives. -/
def Quiet (timeout : Option Nat) (window : List Instant) : Prop :=
  ∀ instant ∈ window, WithinTime timeout instant →
    instant.readable = false ∧ instant.signal = false

@[simp]
theorem call_handler (handler : MessageHandler) (phase : Phase) :
    (handler.call phase).handler = handler := by
  simp only [MessageHandler.call]
  split <;> rfl

@[simp]
theorem call_poll (handler : MessageHandler) (phase : Phase) :
    (handler.call phase).poll = ppoll handler.direction handler.timespec phase.window := by
  simp only [MessageHandler.call]
  split <;> rfl

theorem call_entered_iff {handler : MessageHandler} {phase : Phase} :
    (handler.call phase).entered = true ↔
      ∃ instant, ppoll handler.direction handler.timespec phase.window = .ready instant := by
  simp only [MessageHandler.call]
  split <;> simp [*]

/-- A handler which sends never receives. -/
theorem readableReceive_of_sender (handler : MessageHandler)
    (sender : handler.systemCall = .sendmsg) (phase : Phase) :
    ReadableReceive (handler.call phase) := by
  intro receives
  rw [call_handler, sender] at receives
  cases receives

/-- A handler which polls for input receives only what is there. -/
theorem readableReceive_of_read {handler : MessageHandler} (reads : handler.direction = .read)
    (phase : Phase) : ReadableReceive (handler.call phase) := by
  intro _ entered
  obtain ⟨instant, polled⟩ := call_entered_iff.mp entered
  refine ⟨instant, by simpa using polled, ?_⟩
  rw [reads] at polled
  obtain ⟨-, -, -, -, -, ready⟩ := ppoll_ready_iff.mp polled
  simp only [PollEvents.any, Instant.revents, Instant.readable, Bool.or_eq_true, Bool.and_eq_true,
    decide_eq_true_eq] at ready ⊢
  tauto

/-- A handler which polls for output receives only what is there exactly when the answer is there
by the time the socket is found writable. -/
theorem readableReceive_iff_of_write (handler : MessageHandler)
    (writes : handler.direction = .write) (receiver : handler.systemCall = .recvmsg)
    (phase : Phase) :
    ReadableReceive (handler.call phase) ↔
      ReadableWhenWritable handler.timespec phase.window := by
  have any_iff : ∀ instant : Instant, (instant.revents .write).any = true ↔
      instant.writable = true ∨ instant.closed = true := by
    intro instant
    simp [PollEvents.any, Instant.revents]
  have uneventful_iff : ∀ instant : Instant, Uneventful .write instant ↔
      instant.writable = false ∧ instant.closed = false ∧ instant.signal = false := by
    intro instant
    simp [Uneventful, PollEvents.any, Instant.revents, and_assoc]
  constructor
  · intro readable before instant after split uneventful in_time found
    have polled : ppoll handler.direction handler.timespec phase.window = .ready instant := by
      rw [writes, ppoll_ready_iff]
      refine ⟨before, after, split, fun other member => ?_, in_time, (any_iff instant).mpr found⟩
      obtain ⟨other_in_time, quiet⟩ := uneventful other member
      exact ⟨other_in_time, (uneventful_iff other).mpr quiet⟩
    obtain ⟨reported, polled', reported_readable⟩ :=
      readable (by simpa using receiver) (call_entered_iff.mpr ⟨instant, polled⟩)
    obtain rfl : instant = reported :=
      PollResult.ready.inj (polled.symm.trans (by simpa using polled'))
    simpa [Instant.readable] using reported_readable
  · intro answered _ entered
    obtain ⟨instant, polled⟩ := call_entered_iff.mp entered
    refine ⟨instant, by simpa using polled, ?_⟩
    rw [writes] at polled
    obtain ⟨before, after, split, uneventful, in_time, ready⟩ := ppoll_ready_iff.mp polled
    have found := answered before instant after split
      (fun other member => ⟨(uneventful other member).1,
        (uneventful_iff other).mp (uneventful other member).2⟩)
      in_time ((any_iff instant).mp ready)
    simpa [Instant.readable] using found

/-- A quiet wait before a receive which would read only what is there ends with the timeout, and
nothing is received. -/
theorem call_of_quiet {handler : MessageHandler} {phase : Phase}
    (receiver : handler.systemCall = .recvmsg) (finite : handler.timeoutMs ≠ kInfinite)
    (readable : ReadableReceive (handler.call phase))
    (quiet : Quiet handler.timespec phase.window) :
    (handler.call phase).entered = false ∧ (handler.call phase).result = some (.ok 0) := by
  have timed_out : ppoll handler.direction handler.timespec phase.window = .timedOut := by
    cases polled : ppoll handler.direction handler.timespec phase.window with
    | timedOut => rfl
    | waiting =>
        rw [MessageHandler.timespec, if_pos finite] at polled
        exact absurd polled (ppoll_ne_waiting _ _ _)
    | interrupted =>
        obtain ⟨instant, member, in_time, signal⟩ := ppoll_interrupted polled
        simp [(quiet instant member in_time).2] at signal
    | ready instant =>
        obtain ⟨before, after, split, -, in_time, -⟩ := ppoll_ready_iff.mp polled
        obtain ⟨reported, reported_eq, is_readable⟩ :=
          readable (by simpa using receiver) (call_entered_iff.mpr ⟨instant, polled⟩)
        obtain rfl : instant = reported :=
          PollResult.ready.inj (polled.symm.trans (by simpa using reported_eq))
        simp [(quiet instant (by simp [split]) in_time).1] at is_readable
  simp only [MessageHandler.call]
  split
  · rename_i waiting
    rw [timed_out] at waiting
    cases waiting
  · rename_i interrupted
    rw [timed_out] at interrupted
    cases interrupted
  · exact ⟨rfl, rfl⟩
  · rename_i ready
    rw [timed_out] at ready
    cases ready

/-- The handler calls of one iteration of the helper's loop. -/
theorem app_calls_subset (round : Round) (rounds : List Round) :
    (app (round :: rounds)).calls ⊆
      (requestReceiver kInfinite).call round.receive ::
        (drmResponseSender kInfinite).call round.send :: (app rounds).calls := by
  simp only [app]
  repeat' split
  all_goals simp

/-- The helper receives only what is there, whatever its rounds are. -/
theorem app_readableReceive (rounds : List Round) :
    ∀ call ∈ (app rounds).calls, ReadableReceive call := by
  induction rounds with
  | nil => simp [app]
  | cons round rounds ih =>
      intro call member
      rcases List.mem_cons.mp (app_calls_subset round rounds member) with rfl | member
      · exact readableReceive_of_read rfl round.receive
      · rcases List.mem_cons.mp member with rfl | later
        · exact readableReceive_of_sender _ rfl round.send
        · exact ih call later

/-- The send phase of `get_drm_data` hands over a whole request. -/
def SendCompletes (timeoutMs : Nat) (exchange : Exchange) : Prop :=
  ((requestSender timeoutMs).call exchange.send).result.map afterSend = some (.ok ())

/-- The exchange cannot hang in a receive. -/
structure NeverHangs (timeoutMs : Nat) (exchange : Exchange) (rounds : List Round) : Prop where
  /-- Both sides receive only after the descriptor was reported in a readable state. -/
  readable : ∀ call ∈ (getDrmData timeoutMs exchange).calls ++ (app rounds).calls,
    ReadableReceive call
  /-- If nothing becomes readable in time, the receive phase returns 0 bytes without receiving, and
  `get_drm_data` returns `EAGAIN`. -/
  timesOut : SendCompletes timeoutMs exchange → timeoutMs ≠ kInfinite →
    Quiet (drmResponseReceiver timeoutMs).timespec exchange.receive.window →
      (getDrmData timeoutMs exchange).result = some (.error .eagain) ∧
        ∀ call ∈ (getDrmData timeoutMs exchange).calls, call.handler.systemCall = .recvmsg →
          call.entered = false ∧ call.result = some (.ok 0)

theorem getDrmData_of_sendCompletes {timeoutMs : Nat} {exchange : Exchange}
    (completes : SendCompletes timeoutMs exchange) :
    getDrmData timeoutMs exchange =
      ⟨[(requestSender timeoutMs).call exchange.send,
          (drmResponseReceiver timeoutMs).call exchange.receive],
        ((drmResponseReceiver timeoutMs).call exchange.receive).result.map
          (afterReceive exchange.response)⟩ := by
  unfold SendCompletes at completes
  simp only [getDrmData, completes]

theorem getDrmData_calls_of_not_sendCompletes {timeoutMs : Nat} {exchange : Exchange}
    (stops : ¬ SendCompletes timeoutMs exchange) :
    (getDrmData timeoutMs exchange).calls = [(requestSender timeoutMs).call exchange.send] := by
  unfold SendCompletes at stops
  simp only [getDrmData]
  split
  · rfl
  · rfl
  · contradiction

/-- The exchange cannot hang in a receive exactly when, once the request is sent, the answer is
there by the time the socket is found writable. -/
theorem neverHangs_iff (timeoutMs : Nat) (exchange : Exchange) (rounds : List Round) :
    NeverHangs timeoutMs exchange rounds ↔
      (SendCompletes timeoutMs exchange →
        ReadableWhenWritable (drmResponseReceiver timeoutMs).timespec exchange.receive.window) := by
  have sender := readableReceive_of_sender (requestSender timeoutMs) rfl exchange.send
  have receiver := readableReceive_iff_of_write (drmResponseReceiver timeoutMs) rfl rfl
    exchange.receive
  constructor
  · intro never_hangs completes
    refine receiver.mp (never_hangs.readable _ ?_)
    simp [getDrmData_of_sendCompletes completes]
  · intro answered
    constructor
    · intro call member
      rcases List.mem_append.mp member with ours | helper
      · by_cases completes : SendCompletes timeoutMs exchange
        · simp only [getDrmData_of_sendCompletes completes, List.mem_cons, List.not_mem_nil,
            or_false] at ours
          rcases ours with rfl | rfl
          · exact sender
          · exact receiver.mpr (answered completes)
        · rw [getDrmData_calls_of_not_sendCompletes completes, List.mem_singleton] at ours
          exact ours ▸ sender
      · exact app_readableReceive rounds call helper
    · intro completes finite quiet
      obtain ⟨not_entered, nothing⟩ :=
        call_of_quiet rfl finite (receiver.mpr (answered completes)) quiet
      rw [getDrmData_of_sendCompletes completes]
      refine ⟨by simp [nothing, afterReceive, responseSize], fun call member receives => ?_⟩
      simp only [List.mem_cons, List.not_mem_nil, or_false] at member
      rcases member with rfl | rfl
      · simp [requestSender] at receives
      · exact ⟨not_entered, nothing⟩

/-- The socket has room, and nothing has arrived. -/
def idleInstant : Instant := ⟨0, false, false, true, false⟩

/-- With a helper which is slow to answer, `get_drm_data` enters a receive on an empty socket. -/
theorem slow_helper_hangs_the_receive :
    ¬ ∀ (timeoutMs : Nat) (exchange : Exchange) (rounds : List Round),
      NeverHangs timeoutMs exchange rounds := by
  intro never_hangs
  have readable := (never_hangs 1000
    ⟨⟨[idleInstant], some (.ok requestSize)⟩, ⟨[idleInstant], none⟩, ⟨1⟩⟩ []).readable
  obtain ⟨instant, polled, data⟩ := readable
    ⟨drmResponseReceiver 1000, .ready idleInstant, true, none⟩ (by decide) rfl rfl
  obtain rfl := PollResult.ready.inj polled
  cases data

end ShadowCast
