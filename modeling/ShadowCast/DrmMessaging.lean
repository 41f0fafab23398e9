import Mathlib.Data.List.Basic
import Mathlib.Data.Vector.Basic
import ShadowCast.MessageHandler
import ShadowCast.ScopeGuard

/-!
# Responses that carry descriptors

A response travels as the raw struct, and its descriptors as an `SCM_RIGHTS` control message beside
it.  The sender splits the two and the receiver merges them by position.  What the receiver does
outside the arrays and messages it has is a fault.
-/

namespace ShadowCast
namespace Drm

/-- `kMaxPlaneDescriptors`. -/
def kMaxPlaneDescriptors : Nat := 8

/-- One plane of the display. -/
structure PlaneDescriptor where
  fd : Int
  width : UInt32
  height : UInt32
  pitch : UInt32
  offset : UInt32
  pixelFormat : UInt32
  modifier : UInt64
  connectorId : UInt32
  flags : UInt32
  x : Int
  y : Int
  srcW : Int
  srcH : Int
  deriving DecidableEq, Repr

/-- The whole response. -/
structure DRMResponse where
  result : UInt32
  numFds : UInt32
  descriptors : Vector PlaneDescriptor kMaxPlaneDescriptors
  deriving DecidableEq, Repr

/-- The part of the response which decides how the exchange goes on. -/
def DRMResponse.summary (response : DRMResponse) : ShadowCast.DRMResponse :=
  { numFds := response.numFds.toNat }

/-! ### Sending -/

/-- `CMSG_LEN`. -/
def cmsgLen (length : Nat) : Nat := 16 + length

/-- `CMSG_SPACE`. -/
def cmsgSpace (length : Nat) : Nat := 16 + (length + 7) / 8 * 8

/-- `sizeof(int)`. -/
def intSize : Nat := 4

/-- An `SCM_RIGHTS` message in the control buffer of a `msghdr`. -/
structure ControlMessage where
  controllen : Nat
  cmsgLen : Nat
  /-- The descriptors written behind the header. -/
  data : List Int
  deriving DecidableEq, Repr

/-- The descriptors that the kernel takes from a control message: as many as its length says. -/
def ControlMessage.carried (control : ControlMessage) : List Int :=
  control.data.take ((control.cmsgLen - Drm.cmsgLen 0) / intSize)

/-- The kernel refuses a control message that is longer than its buffer. -/
def ControlMessage.Fits (control : ControlMessage) : Prop :=
  Drm.cmsgLen 0 ≤ control.cmsgLen ∧ control.cmsgLen ≤ control.controllen

instance (control : ControlMessage) : Decidable control.Fits :=
  inferInstanceAs (Decidable (_ ∧ _))

/-- What is passed to `sendmsg`. -/
structure Message where
  payload : DRMResponse
  control : Option ControlMessage
  deriving DecidableEq, Repr

/-- The descriptors a message carries. -/
def Message.carried (message : Message) : List Int :=
  match message.control with
  | none => []
  | some control => control.carried

/-- The planes a response says it has, as far as its array goes. -/
def DRMResponse.planeList (response : DRMResponse) : List PlaneDescriptor :=
  response.descriptors.toList.take response.numFds.toNat

/-- The descriptors of the planes of a response, as the sender walks over them. -/
def DRMResponse.fds (response : DRMResponse) : List Int :=
  response.planeList.map PlaneDescriptor.fd

/-- `DRMResponseSendHandler`, up to its `sendmsg`; `none` is the failed contract check. -/
def sendHandler (response : DRMResponse) : Option Message :=
  let numFds := response.numFds.toNat
  if numFds ≤ kMaxPlaneDescriptors then
    some
      { payload := response
        control :=
          if numFds ≠ 0 then
            some
              { controllen := cmsgSpace (intSize * numFds)
                cmsgLen := cmsgLen (intSize * numFds)
                data := response.fds }
          else none }
  else none

/-! ### Receiving -/

/-- What `recvmsg` leaves behind. -/
structure Delivery where
  /-- Its result. -/
  received : Int
  /-- The response object, with the received bytes in place. -/
  response : DRMResponse
  /-- The descriptors the peer attached, as numbers of this process. -/
  passed : List Int
  deriving DecidableEq, Repr

/-- The descriptors installed in this process: what does not fit into the control buffer of the
handler is dropped, and nothing comes without bytes. -/
def Delivery.delivered (delivery : Delivery) : List Int :=
  if 0 < delivery.received then delivery.passed.take kMaxPlaneDescriptors else []

/-- The message is transferred whole and its descriptors are translated; `none` is a refused one. -/
def Message.deliver (translate : Int → Int) (message : Message) : Option Delivery :=
  if ∀ control ∈ message.control, control.Fits then
    some
      { received := responseSize
        response := message.payload
        passed := message.carried.map translate }
  else none

/-- The control message, which is absent when no descriptor was delivered. -/
def Delivery.control (delivery : Delivery) : Option (List Int) :=
  if delivery.delivered = [] then none else some delivery.delivered

/-- Actions without defined behaviour. -/
inductive Fault where
  /-- The null pointer of `CMSG_FIRSTHDR` is dereferenced. -/
  | absentControlMessage
  /-- A descriptor number behind the delivered ones is read. -/
  | beyondDelivered (index : Nat)
  /-- An element of `descriptors` behind its end is used. -/
  | beyondDescriptors (index : Nat)
  deriving DecidableEq, Repr

/-- `fds[i]`. -/
def readFd (control : Option (List Int)) (i : Nat) : Except Fault Int :=
  match control with
  | none => .error .absentControlMessage
  | some fds =>
      match fds[i]? with
      | none => .error (.beyondDelivered i)
      | some fd => .ok fd

/-- `response.descriptors[i].fd = fd`. -/
def storeFd (descriptors : Vector PlaneDescriptor kMaxPlaneDescriptors) (i : Nat) (fd : Int) :
    Except Fault (Vector PlaneDescriptor kMaxPlaneDescriptors) :=
  if bound : i < kMaxPlaneDescriptors then
    .ok (descriptors.set i { descriptors[i] with fd })
  else .error (.beyondDescriptors i)

/-- The loop of the receive handler, with `count` turns left. -/
def storeFds (control : Option (List Int)) (i count : Nat)
    (descriptors : Vector PlaneDescriptor kMaxPlaneDescriptors) :
    Except Fault (Vector PlaneDescriptor kMaxPlaneDescriptors) :=
  match count with
  | 0 => .ok descriptors
  | count + 1 =>
      match readFd control i with
      | .error fault => .error fault
      | .ok fd =>
          match storeFd descriptors i fd with
          | .error fault => .error fault
          | .ok descriptors => storeFds control (i + 1) count descriptors

/-- `DRMResponseReceiveHandler`, behind its `recvmsg`.  Its contract check compares `num_fds` with
the size of a span which was made from `num_fds`, and so never fails. -/
def receiveHandler (delivery : Delivery) : Except Fault (Int × DRMResponse) :=
  if delivery.received ≤ 0 then .ok (delivery.received, delivery.response)
  else if 0 < delivery.response.numFds.toNat then
    match storeFds delivery.control 0 delivery.response.numFds.toNat
        delivery.response.descriptors with
    | .error fault => .error fault
    | .ok descriptors => .ok (delivery.received, { delivery.response with descriptors })
  else .ok (delivery.received, delivery.response)

/-! ### Merging by position -/

/-- The descriptors with the numbers of the positions from `i` to `i + count` replaced. -/
def replaceFds (fds : List Int) (i count : Nat)
    (descriptors : Vector PlaneDescriptor kMaxPlaneDescriptors) :
    Vector PlaneDescriptor kMaxPlaneDescriptors :=
  descriptors.mapIdx fun j descriptor =>
    if i ≤ j ∧ j < i + count then { descriptor with fd := fds.getD j descriptor.fd }
    else descriptor

/-- The loop replaces what it reads when it stays within both arrays. -/
theorem storeFds_eq {fds : List Int} {i count : Nat} (delivered : i + count ≤ fds.length)
    (few : i + count ≤ kMaxPlaneDescriptors)
    (descriptors : Vector PlaneDescriptor kMaxPlaneDescriptors) :
    storeFds (some fds) i count descriptors = .ok (replaceFds fds i count descriptors) := by
  induction count generalizing i descriptors with
  | zero =>
      rw [storeFds]
      congr 1
      ext j bound : 1
      have outside : ¬(i ≤ j ∧ j < i) := by omega
      simp [replaceFds, outside]
  | succ count ih =>
      have within : i < fds.length := by omega
      have bound : i < kMaxPlaneDescriptors := by omega
      simp only [storeFds, readFd, List.getElem?_eq_getElem within, storeFd, dif_pos bound]
      rw [ih (by omega) (by omega)]
      congr 1
      ext j limit : 1
      simp only [replaceFds, Vector.getElem_mapIdx, Vector.getElem_set]
      by_cases first : i = j
      · subst first
        simp [List.getElem?_eq_getElem within]
      · have same : (i + 1 ≤ j ∧ j < i + 1 + count) ↔ (i ≤ j ∧ j < i + (count + 1)) := by omega
        simp only [if_neg first, same]

/-- The loop stays within the arrays exactly when enough descriptors were delivered. -/
theorem storeFds_eq_ok_iff {control : Option (List Int)} {i count : Nat}
    {descriptors : Vector PlaneDescriptor kMaxPlaneDescriptors} :
    (∃ stored, storeFds control i count descriptors = .ok stored) ↔
      count = 0 ∨ ∃ fds, control = some fds ∧ i + count ≤ fds.length ∧
        i + count ≤ kMaxPlaneDescriptors := by
  constructor
  · intro done
    induction count generalizing i descriptors with
    | zero => exact Or.inl rfl
    | succ count ih =>
        obtain ⟨stored, run⟩ := done
        right
        simp only [storeFds] at run
        cases control with
        | none => simp [readFd] at run
        | some fds =>
            refine ⟨fds, rfl, ?_⟩
            by_cases within : i < fds.length
            · simp only [readFd, List.getElem?_eq_getElem within, storeFd] at run
              by_cases bound : i < kMaxPlaneDescriptors
              · simp only [dif_pos bound] at run
                rcases ih ⟨stored, run⟩ with rfl | ⟨later, same, delivered, few⟩
                · omega
                · obtain rfl : fds = later := by simpa using same
                  omega
              · simp [bound] at run
            · simp [readFd, within] at run
  · rintro (rfl | ⟨fds, rfl, delivered, few⟩)
    · exact ⟨descriptors, rfl⟩
    · exact ⟨_, storeFds_eq delivered few descriptors⟩

theorem length_delivered_le (delivery : Delivery) :
    delivery.delivered.length ≤ kMaxPlaneDescriptors := by
  unfold Delivery.delivered
  split
  · rw [List.length_take]
    exact Nat.min_le_left _ _
  · exact Nat.zero_le _

theorem control_eq_some_iff {delivery : Delivery} {fds : List Int} :
    delivery.control = some fds ↔ delivery.delivered ≠ [] ∧ fds = delivery.delivered := by
  unfold Delivery.control
  by_cases empty : delivery.delivered = []
  · simp [empty]
  · rw [if_neg empty, Option.some.injEq]
    exact ⟨fun same => ⟨empty, same.symm⟩, fun same => same.2.symm⟩

/-- The receive handler has defined behaviour exactly when nothing was received, or the response
claims no more descriptors than were delivered. -/
theorem receiveHandler_eq_ok_iff (delivery : Delivery) :
    (∃ result, receiveHandler delivery = .ok result) ↔
      delivery.received ≤ 0 ∨ delivery.response.numFds.toNat ≤ delivery.delivered.length := by
  have loop := @storeFds_eq_ok_iff delivery.control 0 delivery.response.numFds.toNat
    delivery.response.descriptors
  have room := length_delivered_le delivery
  unfold receiveHandler
  by_cases nothing : delivery.received ≤ 0
  · simp [nothing]
  rw [if_neg nothing, or_iff_right nothing]
  by_cases claims : 0 < delivery.response.numFds.toNat
  · rw [if_pos claims]
    have enough : (∃ stored, storeFds delivery.control 0 delivery.response.numFds.toNat
        delivery.response.descriptors = .ok stored) ↔
          delivery.response.numFds.toNat ≤ delivery.delivered.length := by
      rw [loop]
      constructor
      · rintro (none | ⟨fds, control, delivered, -⟩)
        · omega
        · obtain ⟨-, rfl⟩ := control_eq_some_iff.mp control
          omega
      · intro within
        refine Or.inr ⟨_, control_eq_some_iff.mpr ⟨?_, rfl⟩, by omega, by omega⟩
        exact List.length_pos_iff.mp (by omega)
    rw [← enough]
    cases storeFds delivery.control 0 delivery.response.numFds.toNat
        delivery.response.descriptors with
    | error fault => simp
    | ok stored => simp
  · simp [claims]
    omega

/-- What a complete response becomes when all its descriptors were delivered. -/
theorem receiveHandler_eq {delivery : Delivery} (received : 0 < delivery.received)
    (enough : delivery.response.numFds.toNat ≤ delivery.delivered.length) :
    receiveHandler delivery =
      .ok (delivery.received,
        { delivery.response with
          descriptors := replaceFds delivery.delivered 0 delivery.response.numFds.toNat
            delivery.response.descriptors }) := by
  have room := length_delivered_le delivery
  rw [receiveHandler, if_neg (by omega)]
  by_cases claims : 0 < delivery.response.numFds.toNat
  · have control : delivery.control = some delivery.delivered :=
      control_eq_some_iff.mpr ⟨List.length_pos_iff.mp (by omega), rfl⟩
    rw [if_pos claims, control, storeFds_eq (by omega) (by omega)]
  · have none : delivery.response.numFds.toNat = 0 := by omega
    have kept : replaceFds delivery.delivered 0 0 delivery.response.descriptors =
        delivery.response.descriptors := by
      ext j bound : 1
      simp [replaceFds]
    rw [if_neg claims, none, kept]

/-! ### The round trip -/

/-- The struct that was sent, with the descriptors of its planes translated. -/
def DRMResponse.translated (translate : Int → Int) (response : DRMResponse) : DRMResponse :=
  { response with
    descriptors := response.descriptors.mapIdx fun i descriptor =>
      if i < response.numFds.toNat then { descriptor with fd := translate descriptor.fd }
      else descriptor }

theorem length_fds {response : DRMResponse}
    (few : response.numFds.toNat ≤ kMaxPlaneDescriptors) :
    response.fds.length = response.numFds.toNat := by
  simp [DRMResponse.fds, DRMResponse.planeList, few]

/-- The control message carries what was written into it. -/
theorem carried_of_cmsgLen (control : ControlMessage)
    (exact : control.cmsgLen = cmsgLen (intSize * control.data.length)) :
    control.carried = control.data := by
  have count : (control.cmsgLen - cmsgLen 0) / intSize = control.data.length := by
    rw [exact]
    simp only [cmsgLen, intSize]
    omega
  rw [ControlMessage.carried, count, List.take_length]

/-- What the sender passes to `sendmsg`. -/
theorem sendHandler_eq {response : DRMResponse}
    (few : response.numFds.toNat ≤ kMaxPlaneDescriptors) :
    ∃ message, sendHandler response = some message ∧ message.payload = response ∧
      message.carried = response.fds ∧ (∀ control ∈ message.control, control.Fits) ∧
      (response.numFds.toNat = 0 → message.control = none) := by
  have length := length_fds few
  by_cases planes : response.numFds.toNat ≠ 0
  · refine ⟨_, by rw [sendHandler, if_pos few, if_pos planes], rfl, ?_, ?_, ?_⟩
    · exact carried_of_cmsgLen _ (by rw [length])
    · rintro control ⟨⟩
      simp only [ControlMessage.Fits, cmsgLen, cmsgSpace, intSize]
      omega
    · exact fun none => absurd none planes
  · have empty : response.fds = [] := by
      rw [← List.length_eq_zero_iff, length]
      omega
    refine ⟨_, by rw [sendHandler, if_pos few, if_neg planes], rfl, ?_, ?_, fun _ => rfl⟩
    · exact empty.symm
    · rintro control ⟨⟩

/-- The descriptors which are merged back are the translated ones. -/
theorem replaceFds_map_fds (translate : Int → Int) (response : DRMResponse) :
    replaceFds (response.fds.map translate) 0 response.numFds.toNat response.descriptors =
      (response.translated translate).descriptors := by
  ext j bound : 1
  simp only [replaceFds, DRMResponse.translated, Vector.getElem_mapIdx, Nat.zero_le, true_and,
    Nat.zero_add]
  by_cases plane : j < response.numFds.toNat
  · have within : j < response.descriptors.size := bound
    have fd : (response.fds.map translate).getD j response.descriptors[j].fd =
        translate response.descriptors[j].fd := by
      simp [DRMResponse.fds, DRMResponse.planeList, plane, within]
    rw [if_pos plane, if_pos plane, fd]
  · rw [if_neg plane, if_neg plane]

/-- Sending a response and receiving it translates the descriptors of its planes and changes
nothing else.  The control message carries one descriptor for each plane. -/
theorem receive_send (translate : Int → Int) (response : DRMResponse)
    (few : response.numFds.toNat ≤ kMaxPlaneDescriptors) :
    ∃ message delivery, sendHandler response = some message ∧
      message.deliver translate = some delivery ∧
      message.carried.length = response.numFds.toNat ∧
      (response.numFds.toNat = 0 → message.control = none) ∧
      receiveHandler delivery = .ok (responseSize, response.translated translate) := by
  obtain ⟨message, sent, payload, carried, fits, absent⟩ := sendHandler_eq few
  have length := length_fds few
  have delivered : message.deliver translate =
      some ⟨responseSize, response, response.fds.map translate⟩ := by
    rw [Message.deliver, if_pos fits, payload, carried]
  have positive : (0 : Int) < responseSize := by decide
  have whole : Delivery.delivered ⟨responseSize, response, response.fds.map translate⟩ =
      response.fds.map translate := by
    rw [Delivery.delivered, if_pos positive]
    apply List.take_of_length_le
    rw [List.length_map, length]
    exact few
  refine ⟨message, _, sent, delivered, by rw [carried, length], absent, ?_⟩
  rw [receiveHandler_eq positive (by rw [whole, List.length_map, length]), whole,
    replaceFds_map_fds]
  rfl

/-- A plane with the given descriptor. -/
def plainPlane (fd : Int) (width height : UInt32) (flags : UInt32) : PlaneDescriptor :=
  { fd, width, height, pitch := 4 * width, offset := 0, pixelFormat := 0x34325258, modifier := 0
    connectorId := 1, flags, x := 0, y := 0, srcW := 0, srcH := 0 }

/-- A response with a screen and a mouse plane. -/
def twoPlanes : DRMResponse :=
  { result := 0
    numFds := 2
    descriptors := Vector.ofFn fun i =>
      if i.val = 0 then plainPlane 5 1920 1080 0
      else if i.val = 1 then plainPlane 6 64 64 1
      else plainPlane 0 0 0 0 }

/-- The round trip of two planes. -/
theorem receive_send_twoPlanes :
    ∃ message delivery, sendHandler twoPlanes = some message ∧
      message.deliver (· + 20) = some delivery ∧ message.carried.length = 2 ∧
      (twoPlanes.numFds.toNat = 0 → message.control = none) ∧
      receiveHandler delivery = .ok (responseSize, twoPlanes.translated (· + 20)) :=
  receive_send (· + 20) twoPlanes (by decide)

end Drm
end ShadowCast
