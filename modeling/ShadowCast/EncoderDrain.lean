import ShadowCast.EncoderService

/-!
# The drain invariant of the encoder service

A codec which still has packets is named by an item which some dispatch is going to poll: one in
`pending_`, or the current or a later one of the running dispatch.  When the dispatch of `on_uninit`
has come to its end and nothing was submitted after it took `pending_`, every packet has therefore
been received and written.
-/

namespace ShadowCast
namespace EncoderService

/-- The current and the later items of the running dispatch. -/
def toPoll (service : EncoderService) : List Submission :=
  match service.phase with
  | .polling position => service.tmp.drop position
  | .writing position _ => service.tmp.drop position
  | _ => []

/-- Every codec with an unreceived packet is named by an item which is going to be polled. -/
def Covered (service : EncoderService) : Prop :=
  ∀ codecCtx, (service.codecs codecCtx).output.inside ≠ [] →
    ∃ submission ∈ service.pending ++ service.toPoll, submission.codecCtx = codecCtx

/-- No call of the codecs or of the output file fails. -/
def Label.Succeeds : Label → Prop
  | .receivePacket .failed => False
  | .writePacket succeeds => succeeds = true
  | _ => True

instance (label : Label) : Decidable label.Succeeds := by
  unfold Label.Succeeds
  split <;> infer_instance

/-- Items are prepared for a codec context together with that context's own stream. -/
def Label.Paired (streamOf : Nat → Nat) : Label → Prop
  | .prepareFrame codecCtx stream => stream = streamOf codecCtx
  | _ => True

theorem drop_eq_current_cons {service : EncoderService} {position : Nat} {submission : Submission}
    (current : service.tmp[position]? = some submission) :
    service.tmp.drop position = submission :: service.tmp.drop (position + 1) := by
  obtain ⟨in_range, rfl⟩ := List.getElem?_eq_some_iff.mp current
  exact List.drop_eq_getElem_cons in_range

/-- The item has been polled until its codec context had no more packets. -/
def DrainedBy (service after : EncoderService) (submission : Submission) : Prop :=
  submission.number ∈ after.polled ∧ after.codecs = service.codecs ∧
    (service.codecs submission.codecCtx).output.inside = []

/-- Receiving leaves the current item only when its codec is empty. -/
theorem receivePacket_waiting {service after : EncoderService} {position : Nat}
    {current submission : Submission} {response : ReceiveResponse}
    (polling : service.phase = .polling position)
    (at_position : service.tmp[position]? = some current)
    (succeeds : (Label.receivePacket response).Succeeds)
    (received : service.receivePacket position current response = some after)
    (waiting : submission ∈ service.pending ++ service.toPoll) :
    submission ∈ after.pending ++ after.toPoll ∨ DrainedBy service after submission := by
  cases response with
  | failed => exact absurd succeeds id
  | drained =>
      obtain ⟨empty, rfl⟩ := receivePacket_drained.mp received
      simp only [toPoll, polling, drop_eq_current_cons at_position, List.mem_append,
        List.mem_cons] at waiting ⊢
      rcases waiting with pending | rfl | later
      · exact Or.inl (Or.inl pending)
      · exact Or.inr ⟨by simp, rfl, empty⟩
      · exact Or.inl (Or.inr later)
  | packet retires =>
      obtain ⟨packet, rest, -, -, rfl⟩ := receivePacket_packet.mp received
      exact Or.inl (by simpa [toPoll, polling] using waiting)

/-- A step of which no call fails leaves a waiting item waiting, or drains its codec. -/
theorem step_waiting {service after : EncoderService} {label : Label} {submission : Submission}
    (succeeds : label.Succeeds) (step : service.step label = some after)
    (waiting : submission ∈ service.pending ++ service.toPoll) :
    submission ∈ after.pending ++ after.toPoll ∨ DrainedBy service after submission := by
  cases label with
  | fill | prepareFrame | fillFrame | resetFrame =>
      obtain rfl := Option.some.inj step
      exact Or.inl waiting
  | dropFrame id =>
      obtain ⟨item, -, rfl⟩ := step_dropFrame.mp step
      exact Or.inl waiting
  | writeFrame id response =>
      obtain ⟨item, codecCtx, stream, -, -, -, rfl⟩ := step_writeFrame.mp step
      refine Or.inl ?_
      rcases List.mem_append.mp waiting with pending | current
      · exact List.mem_append_left _ (List.mem_append_left _ pending)
      · exact List.mem_append_right _ current
  | beginDispatch =>
      obtain ⟨idle, -, rfl⟩ := step_beginDispatch.mp step
      exact Or.inl (by simpa [toPoll, idle] using waiting)
  | takePending =>
      obtain ⟨starting, rfl⟩ := step_takePending.mp step
      exact Or.inl (by simpa [toPoll, starting] using waiting)
  | receivePacket response =>
      obtain ⟨position, current, polling, at_position, received⟩ := step_receivePacket.mp step
      exact receivePacket_waiting polling at_position succeeds received waiting
  | writePacket result =>
      obtain rfl : result = true := succeeds
      obtain ⟨position, packet, current, writing, -, rfl⟩ := step_writePacket.mp step
      exact Or.inl (by simpa [toPoll, writing] using waiting)
  | finishLoop =>
      obtain ⟨position, polling, past_end, rfl⟩ := step_finishLoop.mp step
      exact Or.inl (by simpa [toPoll, polling, List.drop_of_length_le past_end] using waiting)
  | returnItem =>
      obtain ⟨threw, current, rest, returning, -, rfl⟩ := step_returnItem.mp step
      exact Or.inl (by simpa [toPoll, returning] using waiting)
  | endDispatch =>
      obtain ⟨threw, returning, -, rfl⟩ := step_endDispatch.mp step
      exact Or.inl (by simpa [toPoll, returning, leaveDispatch] using waiting)
  | beginUninit =>
      obtain ⟨idle, -, rfl⟩ := step_beginUninit.mp step
      exact Or.inl (by simpa [toPoll, idle] using waiting)

/-- The locked section of a `write_frame` call. -/
def Label.IsWriteFrame : Label → Prop
  | .writeFrame _ _ => True
  | _ => False

/-- Only `write_frame` gives packets to a codec. -/
theorem step_inside_subset {service after : EncoderService} {label : Label}
    (other : ¬ label.IsWriteFrame) (step : service.step label = some after) (codecCtx : Nat) :
    (after.codecs codecCtx).output.inside ⊆ (service.codecs codecCtx).output.inside := by
  have same_codecs (same : after.codecs = service.codecs) :
      (after.codecs codecCtx).output.inside ⊆ (service.codecs codecCtx).output.inside :=
    same ▸ List.Subset.refl _
  cases label with
  | writeFrame id response => exact absurd trivial other
  | receivePacket response =>
      obtain ⟨position, submission, -, -, received⟩ := step_receivePacket.mp step
      cases response with
      | packet retires =>
          obtain ⟨packet, rest, inside, -, rfl⟩ := receivePacket_packet.mp received
          by_cases same : codecCtx = submission.codecCtx
          · subst same
            simp [CodecContext.receivePacket, inside]
          · simp [Function.update_of_ne same]
      | drained =>
          obtain ⟨-, rfl⟩ := receivePacket_drained.mp received
          exact List.Subset.refl _
      | failed =>
          obtain rfl := Option.some.inj received
          exact List.Subset.refl _
  | fill | prepareFrame | fillFrame | resetFrame | dropFrame | beginDispatch | takePending
  | writePacket | finishLoop | returnItem | endDispatch | beginUninit =>
      refine same_codecs ?_
      simp only [EncoderService.step, prepareFrame, setFrame, leaveDispatch] at step
      grind

/-- The locked section of `write_frame` names the codec it extends. -/
theorem writeFrame_covered {service : EncoderService} (covered : Covered service)
    (item : StreamPoll) (codecCtx stream : Nat) (response : SendResponse) :
    Covered (service.writeFrame item codecCtx stream response) := by
  intro other unreceived
  by_cases same : other = codecCtx
  · subst same
    exact ⟨_, List.mem_append_left _ (List.mem_append_right _ (List.mem_singleton_self _)), rfl⟩
  · have unreceived_before : (service.codecs other).output.inside ≠ [] := by
      simpa [writeFrame, Function.update_of_ne same] using unreceived
    obtain ⟨submission, member, named⟩ := covered other unreceived_before
    refine ⟨submission, ?_, named⟩
    rcases List.mem_append.mp member with waiting | current
    · exact List.mem_append_left _ (List.mem_append_left _ waiting)
    · exact List.mem_append_right _ current

/-- Every step of which no call fails keeps the codecs covered. -/
theorem step_covered {service after : EncoderService} {label : Label} (covered : Covered service)
    (succeeds : label.Succeeds) (step : service.step label = some after) : Covered after := by
  by_cases submits : label.IsWriteFrame
  · cases label with
    | writeFrame id response =>
        obtain ⟨item, codecCtx, stream, -, -, -, rfl⟩ := step_writeFrame.mp step
        exact writeFrame_covered covered item codecCtx stream response
    | _ => exact absurd submits id
  · intro codecCtx unreceived
    have unreceived_before : (service.codecs codecCtx).output.inside ≠ [] := fun empty =>
      unreceived (List.subset_nil.mp (empty ▸ step_inside_subset submits step codecCtx))
    obtain ⟨submission, waiting, rfl⟩ := covered codecCtx unreceived_before
    rcases step_waiting succeeds step waiting with waiting_after | ⟨-, -, empty⟩
    · exact ⟨submission, waiting_after, rfl⟩
    · exact absurd empty unreceived_before

/-- Every submission has been polled or waits for it. -/
def Accounted (service : EncoderService) : Prop :=
  ∀ number < service.submitted.length, number ∈ service.polled ∨
    ∃ submission ∈ service.pending ++ service.toPoll, submission.number = number

/-- No step takes a submission out of the count of the polled ones. -/
theorem step_polled_subset {service after : EncoderService} {label : Label}
    (step : service.step label = some after) :
    service.polled ⊆ after.polled ∧
      (¬ label.IsWriteFrame → after.submitted = service.submitted) := by
  cases label with
  | receivePacket response =>
      obtain ⟨position, submission, -, -, received⟩ := step_receivePacket.mp step
      cases response <;> simp only [EncoderService.receivePacket] at received <;> grind
  | fill | prepareFrame | fillFrame | resetFrame | dropFrame | beginDispatch | takePending
  | writeFrame | writePacket | finishLoop | returnItem | endDispatch | beginUninit =>
      simp only [EncoderService.step, prepareFrame, setFrame, leaveDispatch, writeFrame,
        Label.IsWriteFrame] at step ⊢
      grind

/-- Every step of which no call fails keeps the submissions accounted for. -/
theorem step_accounted {service after : EncoderService} {label : Label}
    (accounted : Accounted service) (succeeds : label.Succeeds)
    (step : service.step label = some after) : Accounted after := by
  obtain ⟨polled_subset, same_submitted⟩ := step_polled_subset step
  have old (number : Nat) (submitted : number < service.submitted.length) :
      number ∈ after.polled ∨
        ∃ submission ∈ after.pending ++ after.toPoll, submission.number = number := by
    rcases accounted number submitted with polled | ⟨submission, waiting, rfl⟩
    · exact Or.inl (polled_subset polled)
    · rcases step_waiting succeeds step waiting with waiting_after | ⟨polled, -⟩
      · exact Or.inr ⟨submission, waiting_after, rfl⟩
      · exact Or.inl polled
  by_cases submits : label.IsWriteFrame
  · cases label with
    | writeFrame id response =>
        obtain ⟨item, codecCtx, stream, -, -, -, rfl⟩ := step_writeFrame.mp step
        intro number submitted
        rcases Nat.lt_succ_iff_lt_or_eq.mp (by simpa [writeFrame] using submitted) with
          earlier | rfl
        · exact old number earlier
        · exact Or.inr ⟨_, List.mem_append_left _
            (List.mem_append_right _ (List.mem_singleton_self _)), rfl⟩
    | _ => exact absurd submits id
  · rw [Accounted, same_submitted submits]
    exact old

/-- Every item names the stream of its own codec context. -/
structure Matched (streamOf : Nat → Nat) (service : EncoderService) : Prop where
  hands : ∀ item ∈ service.hands, ∀ codecCtx stream, item.codecCtx = some codecCtx →
    item.stream = some stream → stream = streamOf codecCtx
  submissions : ∀ submission ∈ service.pending ++ service.tmp,
    submission.stream = streamOf submission.codecCtx
  written : ∀ packet ∈ service.written, packet.streamIndex = streamOf packet.codecCtx

/-- A step which touches no item in the hands of a producer or of the media thread. -/
theorem Matched.frame {streamOf : Nat → Nat} {service after : EncoderService}
    (matched : Matched streamOf service) (same_hands : ∀ item ∈ after.hands, item ∈ service.hands)
    (same_submissions : ∀ submission ∈ after.pending ++ after.tmp,
      submission ∈ service.pending ++ service.tmp)
    (same_written : after.written = service.written) : Matched streamOf after where
  hands := fun item member => matched.hands item (same_hands item member)
  submissions := fun submission member =>
    matched.submissions submission (same_submissions submission member)
  written := same_written ▸ matched.written

/-- Receiving touches no item, writes no packet and closes nothing. -/
theorem receivePacket_frame {service after : EncoderService} {position : Nat}
    {submission : Submission} {response : ReceiveResponse}
    (received : service.receivePacket position submission response = some after) :
    after.hands = service.hands ∧ after.pending = service.pending ∧ after.tmp = service.tmp ∧
      after.written = service.written ∧ after.lifecycle = service.lifecycle := by
  cases response with
  | packet retires =>
      obtain ⟨packet, rest, -, -, rfl⟩ := receivePacket_packet.mp received
      exact ⟨rfl, rfl, rfl, rfl, rfl⟩
  | drained =>
      obtain ⟨-, rfl⟩ := receivePacket_drained.mp received
      exact ⟨rfl, rfl, rfl, rfl, rfl⟩
  | failed =>
      obtain rfl := Option.some.inj received
      exact ⟨rfl, rfl, rfl, rfl, rfl⟩

/-- Items keep their streams on the way through the service. -/
theorem step_matched {streamOf : Nat → Nat} {service after : EncoderService} {label : Label}
    (matched : Matched streamOf service) (paired : label.Paired streamOf)
    (step : service.step label = some after) : Matched streamOf after := by
  cases label with
  | fill =>
      obtain rfl := Option.some.inj step
      exact matched.frame (fun _ member => member) (fun _ member => member) rfl
  | prepareFrame codecCtx stream =>
      obtain rfl := Option.some.inj step
      refine ⟨fun item member => ?_, matched.submissions, matched.written⟩
      rcases List.mem_append.mp member with old | new
      · exact matched.hands item old
      · obtain rfl := List.mem_singleton.mp new
        intro codecCtx' stream' codecCtx_eq stream_eq
        cases codecCtx_eq
        cases stream_eq
        exact paired
  | fillFrame id | resetFrame id =>
      obtain rfl := Option.some.inj step
      refine ⟨fun item member => ?_, matched.submissions, matched.written⟩
      obtain ⟨before, before_member, rfl⟩ := List.mem_map.mp member
      have before_matched := matched.hands before before_member
      split <;> exact before_matched
  | dropFrame id =>
      obtain ⟨item, -, rfl⟩ := step_dropFrame.mp step
      exact matched.frame (fun _ member => List.mem_of_mem_filter member)
        (fun _ member => member) rfl
  | writeFrame id response =>
      obtain ⟨item, codecCtx, stream, found, codecCtx_eq, stream_eq, rfl⟩ :=
        step_writeFrame.mp step
      refine ⟨fun item member => matched.hands item (List.mem_of_mem_filter member), ?_,
        matched.written⟩
      intro submission member
      simp only [writeFrame, List.mem_append, List.mem_singleton] at member
      rcases member with (waiting | rfl) | current
      · exact matched.submissions submission (List.mem_append_left _ waiting)
      · exact matched.hands item (List.mem_of_find?_eq_some found) codecCtx stream codecCtx_eq
          stream_eq
      · exact matched.submissions submission (List.mem_append_right _ current)
  | beginDispatch =>
      obtain ⟨-, -, rfl⟩ := step_beginDispatch.mp step
      exact matched.frame (fun _ member => member) (fun _ member => member) rfl
  | takePending =>
      obtain ⟨-, rfl⟩ := step_takePending.mp step
      exact matched.frame (fun _ member => member)
        (fun _ member => List.mem_append_left _ (by simpa using member)) rfl
  | receivePacket response =>
      obtain ⟨position, submission, -, -, received⟩ := step_receivePacket.mp step
      obtain ⟨same_hands, same_pending, same_tmp, same_written, -⟩ := receivePacket_frame received
      exact matched.frame (fun _ member => same_hands ▸ member)
        (fun _ member => same_pending ▸ same_tmp ▸ member) same_written
  | writePacket succeeds =>
      obtain ⟨position, packet, submission, -, current, rfl⟩ := step_writePacket.mp step
      split
      · refine ⟨matched.hands, matched.submissions, fun written member => ?_⟩
        rcases List.mem_append.mp member with old | new
        · exact matched.written written old
        · obtain rfl := List.mem_singleton.mp new
          exact matched.submissions submission
            (List.mem_append_right _ (List.mem_of_getElem? current))
      · exact matched.frame (fun _ member => member) (fun _ member => member) rfl
  | finishLoop =>
      obtain ⟨position, -, -, rfl⟩ := step_finishLoop.mp step
      exact matched.frame (fun _ member => member) (fun _ member => member) rfl
  | returnItem =>
      obtain ⟨threw, submission, rest, -, tmp, rfl⟩ := step_returnItem.mp step
      refine matched.frame (fun _ member => member) (fun other member => ?_) rfl
      rw [tmp]
      rcases List.mem_append.mp member with waiting | later
      · exact List.mem_append_left _ waiting
      · exact List.mem_append_right _ (List.mem_cons_of_mem _ later)
  | endDispatch =>
      obtain ⟨threw, -, -, rfl⟩ := step_endDispatch.mp step
      exact matched.frame (fun _ member => member) (fun _ member => member) rfl
  | beginUninit =>
      obtain ⟨-, -, rfl⟩ := step_beginUninit.mp step
      exact matched.frame (fun _ member => member) (fun _ member => member) rfl

/-- The packets of a codec context which have been written, in order. -/
def writtenBy (service : EncoderService) (codecCtx : Nat) : List Nat :=
  (service.written.filter (·.codecCtx = codecCtx)).map (·.packet)

/-- The packet of a codec context which has been received and is about to be written. -/
def inFlight (service : EncoderService) (codecCtx : Nat) : List Nat :=
  match service.phase with
  | .writing position packet =>
      match service.tmp[position]? with
      | some submission => if submission.codecCtx = codecCtx then [packet] else []
      | none => []
  | _ => []

/-- The packets written and the packet in flight are the packets received, in order. -/
def Delivered (service : EncoderService) : Prop :=
  ∀ codecCtx, service.writtenBy codecCtx ++ service.inFlight codecCtx =
    (service.codecs codecCtx).output.left

/-- A step which receives and writes nothing. -/
theorem Delivered.frame {service after : EncoderService} (delivered : Delivered service)
    (same_left : ∀ codecCtx, (after.codecs codecCtx).output.left =
      (service.codecs codecCtx).output.left)
    (same_written : after.written = service.written)
    (same_flight : ∀ codecCtx, after.inFlight codecCtx = service.inFlight codecCtx) :
    Delivered after := by
  intro codecCtx
  rw [same_left, same_flight, writtenBy, same_written]
  exact delivered codecCtx

/-- Receiving puts the next packet of the codec in flight. -/
theorem receivePacket_delivered {service after : EncoderService} {position : Nat}
    {submission : Submission} {response : ReceiveResponse} (delivered : Delivered service)
    (polling : service.phase = .polling position)
    (current : service.tmp[position]? = some submission)
    (succeeds : (Label.receivePacket response).Succeeds)
    (received : service.receivePacket position submission response = some after) :
    Delivered after := by
  cases response with
  | failed => exact absurd succeeds id
  | drained =>
      obtain ⟨-, rfl⟩ := receivePacket_drained.mp received
      exact delivered.frame (fun _ => rfl) rfl fun codecCtx => by simp [inFlight, polling]
  | packet retires =>
      obtain ⟨packet, rest, inside, -, rfl⟩ := receivePacket_packet.mp received
      intro codecCtx
      have before : service.writtenBy codecCtx = (service.codecs codecCtx).output.left := by
        simpa [inFlight, polling] using delivered codecCtx
      by_cases same : submission.codecCtx = codecCtx
      · subst same
        simpa [writtenBy, inFlight, current, CodecContext.receivePacket, inside] using before
      · have other : codecCtx ≠ submission.codecCtx := fun named => same named.symm
        simpa [writtenBy, inFlight, current, same, Function.update_of_ne other] using before

/-- Every step of which no call fails keeps received packets on their way to the file. -/
theorem step_delivered {service after : EncoderService} {label : Label}
    (delivered : Delivered service) (succeeds : label.Succeeds)
    (step : service.step label = some after) : Delivered after := by
  cases label with
  | fill | prepareFrame | fillFrame | resetFrame =>
      obtain rfl := Option.some.inj step
      exact delivered
  | dropFrame id =>
      obtain ⟨item, -, rfl⟩ := step_dropFrame.mp step
      exact delivered
  | writeFrame id response =>
      obtain ⟨item, codecCtx, stream, -, -, -, rfl⟩ := step_writeFrame.mp step
      refine delivered.frame (fun other => ?_) rfl fun _ => rfl
      by_cases same : other = codecCtx
      · subst same
        simp [writeFrame]
      · simp [writeFrame, Function.update_of_ne same]
  | beginDispatch =>
      obtain ⟨idle, -, rfl⟩ := step_beginDispatch.mp step
      exact delivered.frame (fun _ => rfl) rfl fun _ => by simp [inFlight, idle]
  | takePending =>
      obtain ⟨starting, rfl⟩ := step_takePending.mp step
      exact delivered.frame (fun _ => rfl) rfl fun _ => by simp [inFlight, starting]
  | receivePacket response =>
      obtain ⟨position, submission, polling, current, received⟩ := step_receivePacket.mp step
      exact receivePacket_delivered delivered polling current succeeds received
  | writePacket result =>
      obtain rfl : result = true := succeeds
      obtain ⟨position, packet, submission, writing, current, rfl⟩ := step_writePacket.mp step
      intro codecCtx
      have before := delivered codecCtx
      simp only [inFlight, writing, current] at before
      simp only [inFlight, if_true, List.append_nil, writtenBy, List.filter_append,
        List.map_append]
      rw [← before, writtenBy]
      by_cases same : submission.codecCtx = codecCtx <;> simp [same]
  | finishLoop =>
      obtain ⟨position, polling, -, rfl⟩ := step_finishLoop.mp step
      exact delivered.frame (fun _ => rfl) rfl fun _ => by simp [inFlight, polling]
  | returnItem =>
      obtain ⟨threw, submission, rest, returning, -, rfl⟩ := step_returnItem.mp step
      exact delivered.frame (fun _ => rfl) rfl fun _ => by simp [inFlight, returning]
  | endDispatch =>
      obtain ⟨threw, returning, -, rfl⟩ := step_endDispatch.mp step
      exact delivered.frame (fun _ => rfl) rfl fun _ => by
        simp [inFlight, leaveDispatch, returning]
  | beginUninit =>
      obtain ⟨idle, -, rfl⟩ := step_beginUninit.mp step
      exact delivered.frame (fun _ => rfl) rfl fun _ => by simp [inFlight, idle]

/-- A closed service dispatches nothing. -/
def IdleOnceClosed (service : EncoderService) : Prop :=
  service.lifecycle = .closed → service.phase = .idle

theorem step_idleOnceClosed {service after : EncoderService} {label : Label}
    (idle_once_closed : IdleOnceClosed service) (step : service.step label = some after) :
    IdleOnceClosed after := by
  intro closed
  cases label with
  | fill | prepareFrame | fillFrame | resetFrame =>
      obtain rfl := Option.some.inj step
      exact idle_once_closed closed
  | dropFrame id =>
      obtain ⟨item, -, rfl⟩ := step_dropFrame.mp step
      exact idle_once_closed closed
  | writeFrame id response =>
      obtain ⟨item, codecCtx, stream, -, -, -, rfl⟩ := step_writeFrame.mp step
      exact idle_once_closed closed
  | beginDispatch =>
      obtain ⟨-, active, rfl⟩ := step_beginDispatch.mp step
      cases active.symm.trans closed
  | takePending =>
      obtain ⟨starting, rfl⟩ := step_takePending.mp step
      cases starting.symm.trans (idle_once_closed closed)
  | receivePacket response =>
      obtain ⟨position, submission, polling, -, received⟩ := step_receivePacket.mp step
      have closed_before := (receivePacket_frame received).2.2.2.2.symm.trans closed
      cases polling.symm.trans (idle_once_closed closed_before)
  | writePacket succeeds =>
      obtain ⟨position, packet, submission, writing, -, rfl⟩ := step_writePacket.mp step
      have closed_before : service.lifecycle = .closed := by cases succeeds <;> exact closed
      cases writing.symm.trans (idle_once_closed closed_before)
  | finishLoop =>
      obtain ⟨position, polling, -, rfl⟩ := step_finishLoop.mp step
      cases polling.symm.trans (idle_once_closed closed)
  | returnItem =>
      obtain ⟨threw, submission, rest, returning, -, rfl⟩ := step_returnItem.mp step
      cases returning.symm.trans (idle_once_closed closed)
  | endDispatch =>
      obtain ⟨threw, -, -, rfl⟩ := step_endDispatch.mp step
      rfl
  | beginUninit =>
      obtain ⟨-, -, rfl⟩ := step_beginUninit.mp step
      cases closed

/-- Only `write_frame` puts items into `pending_`. -/
theorem step_pending_nil {service after : EncoderService} {label : Label}
    (nothing_pending : service.pending = []) (other : ¬ label.IsWriteFrame)
    (step : service.step label = some after) : after.pending = [] := by
  cases label with
  | fill | prepareFrame | fillFrame | resetFrame =>
      obtain rfl := Option.some.inj step
      exact nothing_pending
  | dropFrame id =>
      obtain ⟨item, -, rfl⟩ := step_dropFrame.mp step
      exact nothing_pending
  | writeFrame id response => exact absurd trivial other
  | beginDispatch =>
      obtain ⟨-, -, rfl⟩ := step_beginDispatch.mp step
      exact nothing_pending
  | takePending =>
      obtain ⟨-, rfl⟩ := step_takePending.mp step
      rfl
  | receivePacket response =>
      obtain ⟨position, submission, -, -, received⟩ := step_receivePacket.mp step
      exact (receivePacket_frame received).2.1.trans nothing_pending
  | writePacket succeeds =>
      obtain ⟨position, packet, submission, -, -, rfl⟩ := step_writePacket.mp step
      cases succeeds <;> exact nothing_pending
  | finishLoop =>
      obtain ⟨position, -, -, rfl⟩ := step_finishLoop.mp step
      exact nothing_pending
  | returnItem =>
      obtain ⟨threw, submission, rest, -, -, rfl⟩ := step_returnItem.mp step
      exact nothing_pending
  | endDispatch =>
      obtain ⟨threw, -, -, rfl⟩ := step_endDispatch.mp step
      exact nothing_pending
  | beginUninit =>
      obtain ⟨-, -, rfl⟩ := step_beginUninit.mp step
      exact nothing_pending

/-- `on_uninit` has taken `pending_` for the last time. -/
def TookLast (service : EncoderService) : Prop :=
  service.lifecycle = .closed ∨ service.lifecycle = .closing ∧ service.phase ≠ .starting

/-- The lifecycle after a step. -/
def Label.lifecycle : Label → Lifecycle → Lifecycle
  | .beginUninit, _ => .closing
  | .endDispatch, .closing => .closed
  | _, lifecycle => lifecycle

theorem step_lifecycle {service after : EncoderService} {label : Label}
    (step : service.step label = some after) :
    after.lifecycle = label.lifecycle service.lifecycle := by
  cases label with
  | receivePacket response =>
      obtain ⟨position, submission, -, -, received⟩ := step_receivePacket.mp step
      exact (receivePacket_frame received).2.2.2.2
  | endDispatch =>
      obtain ⟨threw, -, -, rfl⟩ := step_endDispatch.mp step
      cases lifecycle : service.lifecycle <;> simp [leaveDispatch, Label.lifecycle, lifecycle]
  | fill | prepareFrame | fillFrame | resetFrame | dropFrame | beginDispatch | takePending
  | writeFrame | writePacket | finishLoop | returnItem | beginUninit =>
      simp only [EncoderService.step, prepareFrame, setFrame, writeFrame, Label.lifecycle] at step ⊢
      grind

/-- A dispatch starts only in a service which is active, and starts with the splice. -/
theorem step_starting {service after : EncoderService} {label : Label}
    (step : service.step label = some after) :
    (after.phase = .starting → service.phase = .starting ∨ service.lifecycle = .active) ∧
      (service.phase = .starting → after.phase = .starting ∨ label = .takePending) := by
  cases label with
  | receivePacket response =>
      obtain ⟨position, submission, polling, at_position, received⟩ := step_receivePacket.mp step
      cases response <;> simp only [EncoderService.receivePacket] at received <;> grind
  | fill | prepareFrame | fillFrame | resetFrame | dropFrame | beginDispatch | takePending
  | writeFrame | writePacket | finishLoop | returnItem | endDispatch | beginUninit =>
      simp only [EncoderService.step, prepareFrame, setFrame, leaveDispatch, writeFrame] at step
      grind

/-- There is no way back from the last splice. -/
theorem step_tookLast {service after : EncoderService} {label : Label} (took : TookLast service)
    (step : service.step label = some after) : TookLast after := by
  have lifecycle := step_lifecycle step
  have starting := (step_starting step).1
  rcases took with closed | ⟨closing, not_starting⟩
  · rw [closed] at lifecycle
    cases label with
    | beginUninit =>
        obtain ⟨-, active, -⟩ := step_beginUninit.mp step
        cases active.symm.trans closed
    | _ => exact Or.inl lifecycle
  · rw [closing] at lifecycle
    cases label with
    | endDispatch => exact Or.inl lifecycle
    | _ => exact Or.inr ⟨lifecycle, fun starting_after => by simp_all⟩

/-- The last splice leaves nothing pending, and nothing becomes pending but by `write_frame`. -/
theorem step_taken {service after : EncoderService} {label : Label}
    (taken : TookLast service → service.pending = [])
    (submits_before : label.IsWriteFrame → ¬ TookLast service)
    (step : service.step label = some after) : TookLast after → after.pending = [] := by
  intro took_after
  by_cases took : TookLast service
  · exact step_pending_nil (taken took) (fun submits => submits_before submits took) step
  · obtain rfl : label = .takePending := by
      by_contra other
      have lifecycle := step_lifecycle step
      have starting := (step_starting step).2
      cases label with
      | endDispatch =>
          obtain ⟨threw, returning, -⟩ := step_endDispatch.mp step
          cases before : service.lifecycle <;>
            simp_all [TookLast, Label.lifecycle]
      | beginUninit =>
          obtain ⟨-, -, rfl⟩ := step_beginUninit.mp step
          simp [TookLast] at took_after
      | _ => simp_all [TookLast, Label.lifecycle]
    obtain ⟨-, rfl⟩ := step_takePending.mp step
    rfl

theorem initial_covered : Covered initial := by
  simp [Covered, initial, CodecContext.new]

theorem initial_accounted : Accounted initial := by
  simp [Accounted, initial]

theorem initial_matched (streamOf : Nat → Nat) : Matched streamOf initial := by
  constructor <;> simp [initial]

theorem initial_delivered : Delivered initial := by
  simp [Delivered, initial, writtenBy, inFlight, CodecContext.new]

theorem initial_idleOnceClosed : IdleOnceClosed initial := fun _ => rfl

/-- In a run of which no call fails, a predicate kept by such steps holds at the end. -/
theorem run_of_succeeds {P : EncoderService → Prop}
    (keeps : ∀ {service after label}, P service → label.Succeeds →
      EncoderService.step service label = some after → P after)
    {labels : List Label} {service after : EncoderService} (start : P service)
    (succeeds : ∀ label ∈ labels, label.Succeeds)
    (execution : machine.run labels service = some after) : P after :=
  Machine.run_history (P := fun _ => P) (Q := Label.Succeeds) keeps start succeeds execution

/-- Every codec with an unreceived packet is covered in every reachable state; and when the dispatch
of `on_uninit` has come to its end, and no frame was submitted after it took `pending_`, then every
packet of every codec context has been written once, in output order and to its own stream. -/
theorem encoder_drains (streamOf : Nat → Nat) (labels : List Label) (service : EncoderService)
    (succeeds : ∀ label ∈ labels, label.Succeeds)
    (paired : ∀ label ∈ labels, label.Paired streamOf)
    (execution : machine.run labels initial = some service) :
    Covered service ∧
      ∀ front back, labels = front ++ .takePending :: back →
        (∀ label ∈ back, ¬ label.IsWriteFrame) → service.lifecycle = .closed →
          (∀ codecCtx, service.writtenBy codecCtx =
            (service.codecs codecCtx).output.entered) ∧
          ∀ packet ∈ service.written, packet.streamIndex = streamOf packet.codecCtx := by
  have covered : Covered service := run_of_succeeds step_covered initial_covered succeeds execution
  refine ⟨covered, fun front back split no_write closed => ⟨fun codecCtx => ?_, ?_⟩⟩
  · have delivered : Delivered service :=
      run_of_succeeds step_delivered initial_delivered succeeds execution
    have idle : service.phase = .idle :=
      Machine.run_invariant step_idleOnceClosed initial_idleOnceClosed execution closed
    have nothing_pending : service.pending = [] := by
      rw [split, Machine.run_append_eq_some] at execution
      obtain ⟨before, -, execution⟩ := execution
      obtain ⟨taken, taking, execution⟩ := Machine.run_cons_eq_some.mp execution
      obtain ⟨-, rfl⟩ := step_takePending.mp taking
      exact Machine.run_history (P := fun _ later => later.pending = [])
        (Q := fun label => ¬ label.IsWriteFrame)
        step_pending_nil rfl no_write execution
    have received : (service.codecs codecCtx).output.inside = [] := by
      by_contra unreceived
      obtain ⟨submission, member, -⟩ := covered codecCtx unreceived
      simp [nothing_pending, toPoll, idle] at member
    have written := delivered codecCtx
    rw [(service.codecs codecCtx).output.left_eq_entered received] at written
    simpa [inFlight, idle] using written
  · exact (Machine.run_history (P := fun _ => Matched streamOf) (Q := Label.Paired streamOf)
      step_matched (initial_matched streamOf) paired execution).written

/-- One frame whose two packets are received by the dispatch of `on_uninit`. -/
def drainingRun : List Label :=
  [.prepareFrame 0 5, .fillFrame 0, .writeFrame 0 (.accepted [7, 8]), .beginUninit, .takePending,
    .receivePacket (.packet 0), .writePacket true, .receivePacket (.packet 1), .writePacket true,
    .receivePacket .drained, .finishLoop, .returnItem, .endDispatch]

theorem encoder_drains_two_packets :
    ∃ service, machine.run drainingRun initial = some service ∧ service.lifecycle = .closed ∧
      service.writtenBy 0 = [7, 8] ∧ Covered service ∧
      service.writtenBy 0 = (service.codecs 0).output.entered := by
  obtain ⟨service, execution, closed, written⟩ : ∃ service,
      machine.run drainingRun initial = some service ∧ service.lifecycle = .closed ∧
        service.writtenBy 0 = [7, 8] := ⟨_, rfl, rfl, rfl⟩
  obtain ⟨covered, drained⟩ := encoder_drains (· + 5) drainingRun service
    (by simp [drainingRun, Label.Succeeds]) (by simp [drainingRun, Label.Paired]) execution
  refine ⟨service, execution, closed, written, covered, ?_⟩
  exact (drained (drainingRun.take 4) (drainingRun.drop 5) rfl
    (by simp [drainingRun, Label.IsWriteFrame]) closed).1 0

end EncoderService
end ShadowCast
