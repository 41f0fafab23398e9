import ShadowCast.MessageHandler
import ShadowCast.Machine

/-!
# Request and response pairing with the helper

The socket is a pair of byte streams.  Its messages carry no sequence number, so each byte of the
model is marked with the `dispatch_frame` call whose request it belongs to or answers.  A call which
returns between sending its request and receiving the answer leaves the answer for the next call.
-/

namespace ShadowCast

/-- The state of the helper's loop. -/
inductive HelperState
  | idle
  /-- Bytes of the answer to a request are still to be sent. -/
  | answering (request left : Nat)
  deriving DecidableEq, Repr

/-- The state of `dispatch_frame`. -/
inductive ClientState
  | idle
  /-- The call has sent its request and waits for the response. -/
  | receiving (call : Nat)
  /-- An exception has left a call and ended the session. -/
  | ended
  deriving DecidableEq, Repr

/-- Both ends of the socket, and the bytes in flight. -/
structure DrmSession where
  /-- Bytes on the way to the helper, each marked with the call which sent it. -/
  requests : List Nat
  /-- Bytes on the way to the service, each marked with the call whose request it answers. -/
  responses : List Nat
  helper : HelperState
  client : ClientState
  /-- Number of calls so far. -/
  calls : Nat
  /-- Each call which used a response, with the marks of the response's bytes. -/
  used : List (Nat × List Nat)
  deriving DecidableEq, Repr

namespace DrmSession

/-- The state in which `on_init` leaves the socket. -/
def initial : DrmSession := ⟨[], [], .idle, .idle, 0, []⟩

/-- What `dispatch_frame` does with an error of `get_drm_data`: `EINTR` is ignored. -/
def dispatchError : Errno → ClientState
  | .eintr => .idle
  | _ => .ended

/-- What the scheduler and the environment choose. -/
inductive Label
  /-- A call performs its send phase. -/
  | send (sent : Except Errno Nat)
  /-- The helper takes a request from its stream. -/
  | helperReceives
  /-- The helper sends some bytes of its answer. -/
  | helperSends (count : Nat)
  /-- The call performs its receive phase; the rest of it may still throw. -/
  | receive (received : Except Errno Nat) (response : DRMResponse) (completes : Bool)
  deriving DecidableEq, Repr

/-- Transferred bytes of a phase. -/
def transferred : Except Errno Nat → Nat
  | .ok count => count
  | .error _ => 0

/-- The send phase of the next call. -/
def send (session : DrmSession) (sent : Except Errno Nat) : DrmSession :=
  { session with
    requests := session.requests ++ List.replicate (transferred sent) session.calls
    calls := session.calls + 1
    client :=
      match afterSend sent with
      | .ok () => .receiving session.calls
      | .error errno => dispatchError errno }

/-- The receive phase of a call, and the rest of the call. -/
def receive (session : DrmSession) (call : Nat) (received : Except Errno Nat)
    (response : DRMResponse) (completes : Bool) : DrmSession :=
  let taken :=
    { session with responses := session.responses.drop (transferred received) }
  match afterReceive response received with
  | .error errno => { taken with client := dispatchError errno }
  | .ok response =>
      { taken with
        used := session.used ++ [(call, session.responses.take (transferred received))]
        client := if response.numFds ≠ 0 ∧ completes = true then .idle else .ended }

/-- One step of the service or of the helper. -/
def step (session : DrmSession) : Label → Option DrmSession
  | .send sent =>
      if session.client = .idle ∧ transferred sent ≤ requestSize then
        some (session.send sent)
      else
        none
  | .helperReceives =>
      match session.helper, session.requests with
      | .idle, call :: _ =>
          if requestSize ≤ session.requests.length then
            some
              { session with
                requests := session.requests.drop requestSize
                helper := .answering call responseSize }
          else
            none
      | _, _ => none
  | .helperSends count =>
      match session.helper with
      | .answering request left =>
          if 0 < count ∧ count ≤ left then
            some
              { session with
                responses := session.responses ++ List.replicate count request
                helper := if count = left then .idle else .answering request (left - count) }
          else
            none
      | .idle => none
  | .receive received response completes =>
      match session.client with
      | .receiving call =>
          if transferred received ≤ session.responses.length ∧
              transferred received ≤ responseSize then
            some (session.receive call received response completes)
          else
            none
      | _ => none

/-- Service and helper under every interleaving. -/
def machine : Machine DrmSession Label := ⟨step⟩

/-- The receive phase of no call ends with `EINTR`. -/
def ReceiveUninterrupted (_ : DrmSession) : Label → Prop
  | .receive (.error .eintr) _ _ => False
  | _ => True

instance (session : DrmSession) :
    (label : Label) → Decidable (ReceiveUninterrupted session label)
  | .receive (.error .eintr) _ _ => isFalse id
  | .receive (.error .eagain) _ _ => isTrue trivial
  | .receive (.error (.other _)) _ _ => isTrue trivial
  | .receive (.ok _) _ _ => isTrue trivial
  | .send _ => isTrue trivial
  | .helperReceives => isTrue trivial
  | .helperSends _ => isTrue trivial

/-- Responses are paired with their requests, and calls leave nothing behind. -/
structure Paired (session : DrmSession) : Prop where
  /-- Every used response answers the request which the same call sent. -/
  used : ∀ entry ∈ session.used, entry.2 = List.replicate responseSize entry.1
  /-- Between calls there is no unread response in the socket. -/
  unread : session.client = .idle → session.responses = []
  /-- Between calls there is no request whose response could still arrive. -/
  unanswered : session.client = .idle → session.requests = [] ∧ session.helper = .idle

/-- Where the exchange of the running call has got to. -/
inductive Pipeline (call : Nat) (session : DrmSession) : Prop
  | requested
      (requests : session.requests = List.replicate requestSize call)
      (helper : session.helper = .idle)
      (responses : session.responses = [])
  | answering (left : Nat) (some_left : 0 < left) (left_le : left ≤ responseSize)
      (requests : session.requests = [])
      (helper : session.helper = .answering call left)
      (responses : session.responses = List.replicate (responseSize - left) call)
  | answered
      (requests : session.requests = [])
      (helper : session.helper = .idle)
      (responses : session.responses = List.replicate responseSize call)

/-- The inductive form of `Paired`. -/
structure InStep (session : DrmSession) : Prop extends Paired session where
  pipeline : ∀ call, session.client = .receiving call → Pipeline call session

theorem initial_inStep : InStep initial where
  used := by simp [initial]
  unread := fun _ => rfl
  unanswered := fun _ => ⟨rfl, rfl⟩
  pipeline := fun _ receiving => by cases receiving

theorem responseSize_pos : 0 < responseSize := by decide

/-- A running exchange has left something in the socket or with the helper. -/
theorem Pipeline.left_behind {call : Nat} {session : DrmSession}
    (pipeline : Pipeline call session) :
    ¬ (session.responses = [] ∧ session.requests = [] ∧ session.helper = .idle) := by
  rintro ⟨no_responses, no_requests, helper_idle⟩
  cases pipeline with
  | requested requests helper responses =>
      rw [no_requests] at requests
      simp [requestSize] at requests
  | answering left some_left left_le requests helper responses =>
      rw [helper] at helper_idle
      cases helper_idle
  | answered requests helper responses =>
      rw [no_responses] at responses
      have length_eq := congrArg List.length responses
      rw [List.length_replicate] at length_eq
      exact absurd length_eq (Nat.ne_of_lt responseSize_pos)

/-- A change of the helper and of the streams while a call waits for its response. -/
theorem InStep.of_pipeline {session later : DrmSession} (in_step : InStep session) {call : Nat}
    (receiving : later.client = .receiving call) (same_used : later.used = session.used)
    (pipeline : Pipeline call later) : InStep later := by
  refine ⟨⟨same_used ▸ in_step.used, fun idle => ?_, fun idle => ?_⟩, fun other waiting => ?_⟩
  · rw [receiving] at idle
    cases idle
  · rw [receiving] at idle
    cases idle
  · rw [receiving] at waiting
    obtain rfl := ClientState.receiving.inj waiting
    exact pipeline

/-- After the session has ended, nothing more is promised about the streams. -/
theorem InStep.of_ended {session later : DrmSession} (in_step : InStep session)
    (ended : later.client = .ended) (same_used : later.used = session.used) : InStep later := by
  refine ⟨⟨same_used ▸ in_step.used, fun idle => ?_, fun idle => ?_⟩, fun other waiting => ?_⟩
  · rw [ended] at idle
    cases idle
  · rw [ended] at idle
    cases idle
  · rw [ended] at waiting
    cases waiting

/-- The send phase of a call which finds nothing left behind. -/
theorem send_inStep {session : DrmSession} {sent : Except Errno Nat} (in_step : InStep session)
    (idle : session.client = .idle) (fits : transferred sent ≤ requestSize) :
    InStep (session.send sent) := by
  have no_responses := in_step.unread idle
  obtain ⟨no_requests, helper_idle⟩ := in_step.unanswered idle
  cases sent with
  | error errno =>
      refine ⟨⟨in_step.used, fun _ => no_responses, fun _ => ?_⟩, fun call receiving => ?_⟩
      · exact ⟨by simp [send, transferred, no_requests], helper_idle⟩
      · cases errno <;> cases receiving
  | ok count =>
      by_cases short : count < requestSize
      · have gave_up : (session.send (.ok count)).client = .ended := by
          simp [send, afterSend, short, dispatchError]
        exact in_step.of_ended gave_up rfl
      · obtain rfl : count = requestSize := by
          simp only [transferred] at fits
          omega
        have waiting : (session.send (.ok requestSize)).client = .receiving session.calls := by
          simp [send, afterSend]
        exact in_step.of_pipeline waiting rfl
          (.requested (by simp [send, transferred, no_requests]) helper_idle no_responses)

/-- An uninterrupted receive phase ends the session, or uses the whole answer to the request of its
own call and leaves nothing behind. -/
theorem receive_inStep {session : DrmSession} {call : Nat} {received : Except Errno Nat}
    {response : DRMResponse} {completes : Bool} (in_step : InStep session)
    (receiving : session.client = .receiving call)
    (available : transferred received ≤ session.responses.length)
    (fits : transferred received ≤ responseSize) (uninterrupted : received ≠ .error .eintr) :
    InStep (session.receive call received response completes) := by
  cases received with
  | error errno =>
      apply in_step.of_ended
      · cases errno with
        | eintr => exact absurd rfl uninterrupted
        | eagain => rfl
        | other code => rfl
      · rfl
  | ok count =>
      by_cases short : count < responseSize
      · apply in_step.of_ended
        · simp [receive, afterReceive, short, dispatchError]
        · simp [receive, afterReceive, short]
      · obtain rfl : count = responseSize := by
          simp only [transferred] at fits
          omega
        obtain ⟨no_requests, helper_idle, whole⟩ : session.requests = [] ∧
            session.helper = .idle ∧ session.responses = List.replicate responseSize call := by
          simp only [transferred] at available
          cases in_step.pipeline call receiving with
          | requested requests helper responses =>
              rw [responses, List.length_nil] at available
              exact absurd available (Nat.not_le.mpr responseSize_pos)
          | answering left some_left left_le requests helper responses =>
              rw [responses, List.length_replicate] at available
              omega
          | answered requests helper responses => exact ⟨requests, helper, responses⟩
        have taken : session.responses.take responseSize = List.replicate responseSize call := by
          rw [whole, List.take_replicate, Nat.min_self]
        have rest : session.responses.drop responseSize = [] := by
          rw [whole, List.drop_replicate, Nat.sub_self, List.replicate_zero]
        refine ⟨⟨?_, fun _ => ?_, fun _ => ?_⟩, fun other other_receiving => ?_⟩
        · simp only [receive, afterReceive, Nat.lt_irrefl, if_false, transferred, taken]
          intro entry member
          rcases List.mem_append.mp member with old | new
          · exact in_step.used entry old
          · obtain rfl := List.mem_singleton.mp new
            rfl
        · simpa [receive, afterReceive, transferred] using rest
        · simpa [receive, afterReceive] using ⟨no_requests, helper_idle⟩
        · simp only [receive, afterReceive, Nat.lt_irrefl, if_false] at other_receiving
          split at other_receiving <;> cases other_receiving

/-- The helper takes the request of the running call. -/
theorem helperReceives_inStep {session later : DrmSession} (in_step : InStep session)
    (step : session.step .helperReceives = some later) : InStep later := by
  simp only [DrmSession.step] at step
  split at step
  · rename_i call rest helper_idle requests_eq
    split at step
    · obtain rfl := Option.some.inj step
      cases client : session.client with
      | idle =>
          rw [(in_step.unanswered client).1] at requests_eq
          cases requests_eq
      | ended => exact in_step.of_ended rfl rfl
      | receiving current =>
          refine in_step.of_pipeline rfl rfl ?_
          cases in_step.pipeline current client with
          | requested requests helper responses =>
              obtain rfl : call = current := by
                rw [requests] at requests_eq
                simpa [requestSize, List.replicate] using (congrArg List.head? requests_eq).symm
              refine .answering responseSize responseSize_pos (Nat.le_refl _) ?_ rfl ?_
              · simp [requests]
              · simpa using responses
          | answering left some_left left_le requests helper responses =>
              rw [helper] at helper_idle
              cases helper_idle
          | answered requests helper responses =>
              rw [requests] at requests_eq
              cases requests_eq
    · cases step
  · cases step

/-- The helper sends a part of the answer to the running call. -/
theorem helperSends_inStep {session later : DrmSession} {count : Nat} (in_step : InStep session)
    (step : session.step (.helperSends count) = some later) : InStep later := by
  simp only [DrmSession.step] at step
  split at step
  · rename_i request left helper_eq
    split at step
    · rename_i some_sent
      obtain rfl := Option.some.inj step
      cases client : session.client with
      | idle =>
          rw [(in_step.unanswered client).2] at helper_eq
          cases helper_eq
      | ended => exact in_step.of_ended rfl rfl
      | receiving current =>
          refine in_step.of_pipeline rfl rfl ?_
          cases in_step.pipeline current client with
          | requested requests helper responses =>
              rw [helper] at helper_eq
              cases helper_eq
          | answering left' some_left left_le requests helper responses =>
              obtain ⟨rfl, rfl⟩ : current = request ∧ left' = left := by
                simpa [helper] using helper_eq
              have appended : session.responses ++ List.replicate count current =
                  List.replicate (responseSize - (left' - count)) current := by
                rw [responses, List.replicate_append_replicate]
                congr 1
                omega
              by_cases last : count = left'
              · refine .answered requests (if_pos last) ?_
                simpa [last] using appended
              · exact .answering (left' - count) (by omega) (by omega) requests (if_neg last)
                  appended
          | answered requests helper responses =>
              rw [helper] at helper_eq
              cases helper_eq
    · cases step
  · cases step

/-- A step keeps the exchange in step unless it interrupts a receive phase. -/
theorem step_inStep {session later : DrmSession} {label : Label} (in_step : InStep session)
    (uninterrupted : ReceiveUninterrupted session label)
    (step : session.step label = some later) : InStep later := by
  cases label with
  | send sent =>
      simp only [DrmSession.step] at step
      split at step
      · rename_i enabled
        obtain rfl := Option.some.inj step
        exact send_inStep in_step enabled.1 enabled.2
      · cases step
  | helperReceives => exact helperReceives_inStep in_step step
  | helperSends count => exact helperSends_inStep in_step step
  | receive received response completes =>
      simp only [DrmSession.step] at step
      split at step
      · rename_i call receiving
        split at step
        · rename_i enabled
          obtain rfl := Option.some.inj step
          refine receive_inStep in_step receiving enabled.1 enabled.2 ?_
          rintro rfl
          exact uninterrupted
        · cases step
      · cases step

/-- An interrupted receive phase leaves a part of its exchange behind. -/
theorem receiveUninterrupted_of_paired {session later : DrmSession} {label : Label}
    (in_step : InStep session) (step : session.step label = some later) (paired : Paired later) :
    ReceiveUninterrupted session label := by
  cases label with
  | send sent => trivial
  | helperReceives => trivial
  | helperSends count => trivial
  | receive received response completes =>
      simp only [DrmSession.step] at step
      split at step
      · rename_i call receiving
        split at step
        · obtain rfl := Option.some.inj step
          cases received with
          | ok count => trivial
          | error errno =>
              cases errno with
              | eintr =>
                  have unread := paired.unread rfl
                  have unanswered := paired.unanswered rfl
                  exact (in_step.pipeline call receiving).left_behind ⟨unread, unanswered⟩
              | eagain => trivial
              | other code => trivial
        · cases step
      · cases step

/-- Requests and responses stay paired all along a session exactly when the receive phase of no call
ends with `EINTR`. -/
theorem paired_iff_receives_uninterrupted (labels : List Label) (session : DrmSession)
    (execution : machine.run labels initial = some session) :
    machine.Always Paired initial labels ↔
      machine.Guarded ReceiveUninterrupted initial labels :=
  Machine.always_iff_guarded_of_forced (fun in_step => in_step.toPaired) step_inStep
    receiveUninterrupted_of_paired initial_inStep execution

set_option maxRecDepth 4000 in
/-- The equivalence in a session of two calls, the first of which is interrupted while it sends. -/
theorem paired_with_an_interrupted_send :
    machine.Always Paired initial
      [.send (.error .eintr), .send (.ok requestSize), .helperReceives,
        .helperSends responseSize, .receive (.ok responseSize) ⟨1⟩ true] :=
  (paired_iff_receives_uninterrupted _ _ rfl).mpr (by decide)

set_option maxRecDepth 4000 in
/-- A call which is interrupted while it receives leaves its response for the next call. -/
theorem interrupted_receive_shifts_responses :
    ¬ ∀ (labels : List Label) (session : DrmSession),
      machine.run labels initial = some session →
        ∀ entry ∈ session.used, entry.2 = List.replicate responseSize entry.1 := by
  intro paired
  obtain ⟨session, execution, used⟩ : ∃ session,
      machine.run
        [.send (.ok requestSize), .receive (.error .eintr) ⟨1⟩ true, .send (.ok requestSize),
          .helperReceives, .helperSends responseSize, .receive (.ok responseSize) ⟨1⟩ true]
        initial = some session ∧ session.used = [(1, List.replicate responseSize 0)] :=
    ⟨_, rfl, rfl⟩
  have same := paired _ _ execution (1, List.replicate responseSize 0) (by simp [used])
  have head_eq := congrArg List.head? same
  simp only [List.head?_replicate, if_neg (Nat.ne_of_gt responseSize_pos)] at head_eq
  cases head_eq

end DrmSession

end ShadowCast
