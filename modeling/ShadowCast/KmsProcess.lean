import ShadowCast.KmsResources

/-!
# A run of the DRM helper

Between two requests the helper holds the device and the socket, whatever it has been asked before.
When it stops it holds nothing, and when it fails only what a refused plane leaves behind, which
goes with the process.
-/

namespace ShadowCast
namespace Kms

open Drm Discipline Machine

variable {held : Multiset Resource} {device socket : Int}

/-- A plane is refused, and this is left behind: the descriptors of the planes in front of it, and
what had been acquired for it. -/
def Round.Refused (round : Round) (left : Multiset Resource) : Prop :=
  ∃ probes before probe after planes refusal, round.planes = some probes ∧
    shown probes kMaxPlaneDescriptors = before ++ probe :: after ∧
    before.map PlaneProbe.exported = planes.map .ok ∧ probe.exported = .error refusal ∧
    left = openFds planes + refusal.leaves

/-- The request is one for the planes. -/
def Round.Asks (round : Round) : Prop :=
  (∃ size, round.received = .ok size ∧ requestSize ≤ size) ∧ round.type = kGetPlanes

/-- The request for the planes is answered, and the whole response is sent. -/
def Round.Answers (round : Round) : Prop :=
  round.planes.isSome ∧ (∀ left, ¬round.Refused left) ∧
    ∃ size, round.sent = .ok size ∧ responseSize ≤ size

/-- Behind this round the helper waits for the next request. -/
def Round.GoesOn (round : Round) : Prop :=
  (∃ size, round.received = .ok size ∧ requestSize ≤ size) ∧ round.type ≠ kStop ∧
    (round.type = kGetPlanes → round.Answers)

/-- The helper comes to a request with a refused plane, which leaves this behind. -/
inductive FirstRefusal : List Round → Multiset Resource → Prop
  | refused {round : Round} {rounds : List Round} {left : Multiset Resource}
      (asks : round.Asks) (refused : round.Refused left) : FirstRefusal (round :: rounds) left
  | later {round : Round} {rounds : List Round} {left : Multiset Resource}
      (goesOn : round.GoesOn) (refusal : FirstRefusal rounds left) :
      FirstRefusal (round :: rounds) left

/-- Where the helper stops, no refusal follows. -/
theorem not_firstRefusal {round : Round} (answerable : round.Asks → ∀ left, ¬round.Refused left)
    (stops : ¬round.GoesOn) (rounds : List Round) (left : Multiset Resource) :
    ¬FirstRefusal (round :: rounds) left := by
  intro refusal
  cases refusal with
  | refused asks refused => exact answerable asks left refused
  | later goesOn _ => exact stops goesOn

/-- Where the helper goes on, the refusals are those of the later rounds. -/
theorem firstRefusal_cons {round : Round} (answerable : round.Asks → ∀ left, ¬round.Refused left)
    (goesOn : round.GoesOn) (rounds : List Round) (left : Multiset Resource) :
    FirstRefusal (round :: rounds) left ↔ FirstRefusal rounds left := by
  constructor
  · intro refusal
    cases refusal with
    | refused asks refused => exact absurd refused (answerable asks left)
    | later _ refusal => exact refusal
  · exact FirstRefusal.later goesOn

/-- Nothing is refused when every plane is exported. -/
theorem not_refused {round : Round} {probes : List PlaneProbe} {planes : List PlaneDescriptor}
    (probed : round.planes = some probes)
    (all : (shown probes kMaxPlaneDescriptors).map PlaneProbe.exported = planes.map .ok)
    (left : Multiset Resource) : ¬round.Refused left := by
  rintro ⟨probes', before, probe, after, -, refusal, probed', split, -, refused, -⟩
  obtain rfl := Option.some.inj (probed.symm.trans probed')
  have listed : (.error refusal : Except Refusal PlaneDescriptor) ∈ planes.map .ok := by
    rw [← all, ← refused, split]
    exact List.mem_map_of_mem (by simp)
  obtain ⟨plane, -, same⟩ := List.mem_map.mp listed
  cases same

/-- The clean-up of a response. -/
theorem closeFds_ends (held : Multiset Resource) (response : Drm.DRMResponse) :
    resources.Ends (held + openFds response.planeList) (closeFds response) (.returned ())
      held := by
  unfold closeFds Drm.DRMResponse.fds
  induction response.planeList generalizing held with
  | nil => exact Keeps.pure ⟨rfl, (Multiset.add_zero held)⟩
  | cons plane planes ih =>
      rw [openFds_cons, ← Multiset.add_assoc, swap_last]
      exact (free_ends _ _).bind (ih held)

/-- How the answer to a request is left. -/
def Answered (held : Multiset Resource) (round : Round) :
    Exit Failure Waiting Bool → Multiset Resource → Prop
  | .returned goesOn, left =>
      left = held ∧ (∀ left, ¬round.Refused left) ∧ (goesOn = true ↔ round.Answers)
  | .threw _, left => (left = held ∧ (∀ left, ¬round.Refused left) ∧ ¬round.Answers) ∨
      ∃ more, left = held + more ∧ round.Refused more
  | .faulted _, _ => False

/-- A response is sent while its descriptors are open, and they are closed behind it. -/
theorem answer_keeps (opened : .descriptor device ∈ held) (connected : .descriptor socket ∈ held)
    (none : NoHandles held) (round : Round) :
    resources.Keeps held (answer device socket round) (Answered held round) := by
  have ends := getFb_ends opened none round.planes
  unfold answer
  cases probed : round.planes with
  | none =>
      rw [probed] at ends
      have unrefused (left : Multiset Resource) : ¬round.Refused left := by
        rintro ⟨probes, _, _, _, _, _, some, -⟩
        cases probed.symm.trans some
      have unanswered : ¬round.Answers := by simp [Round.Answers, probed]
      exact ends.bind_threw.keeps (.inl ⟨Multiset.add_zero held, unrefused, unanswered⟩)
  | some probes =>
      rw [probed] at ends
      simp only [exitOfGetFb, leftByGetFb] at ends
      have all := exportAll_spec (shown probes kMaxPlaneDescriptors)
      have listed := @response_spec probes _ rfl
      revert ends all listed
      unfold gathered
      obtain ⟨exports, _ | refusal⟩ := exportAll (shown probes kMaxPlaneDescriptors)
      · rintro ends all ⟨list, -⟩
        have unrefused := not_refused probed all
        have answers : round.Answers ↔ ∃ size, round.sent = .ok size ∧ responseSize ≤ size :=
          ⟨fun answers => answers.2.2, fun sent => ⟨by simp [probed], unrefused, sent⟩⟩
        refine ends.bind ?_
        have closed := closeFds_ends held (exports.foldl addPlane zeroResponse)
        change resources.Keeps (held + openFds exports) _ _
        rw [list] at closed
        have carried : resources.needs (.send socket (exports.foldl addPlane zeroResponse)) ≤
            held + openFds exports := by
          simp only [resources, Drm.DRMResponse.fds, list, List.map_map]
          rw [← Multiset.singleton_add]
          exact Multiset.add_le_add_right (Multiset.singleton_le.mpr connected)
        refine Ends.cleanup closed ?_
        refine Keeps.use_bind carried rfl rfl ?_
        cases sent : round.sent with
        | ok size => exact Keeps.pure ⟨rfl, by simp, rfl, unrefused, by simp [answers, sent]⟩
        | error errno =>
            have unanswered : ¬round.Answers := by simp [answers, sent]
            by_cases interrupted : errno = .eintr
            · simp only [interrupted, if_true]
              exact Keeps.pure ⟨rfl, by simp, rfl, unrefused, by simp [unanswered]⟩
            · simp only [interrupted, if_false]
              exact Keeps.throwing ⟨rfl, by simp, .inl ⟨rfl, unrefused, unanswered⟩⟩
      · rintro ends ⟨before, probe, after, split, exported, refused⟩ -
        refine ends.bind_threw.keeps (.inr ⟨_, rfl, ?_⟩)
        exact ⟨probes, before, probe, after, exports, refusal, probed, split, exported, refused,
          rfl⟩

/-- How the loop is left, or what is held while it waits. -/
def Served (held : Multiset Resource) (rounds : List Round) :
    Exit Failure Waiting Unit → Multiset Resource → Prop
  | .threw _, left => (left = held ∧ ∀ more, ¬FirstRefusal rounds more) ∨
      ∃ more, left = held + more ∧ FirstRefusal rounds more
  | _, left => left = held ∧ ∀ more, ¬FirstRefusal rounds more

theorem Served.congr {rounds rounds' : List Round} {exit : Exit Failure Waiting Unit}
    {left : Multiset Resource} (served : Served held rounds exit left)
    (same : ∀ more, FirstRefusal rounds' more ↔ FirstRefusal rounds more) :
    Served held rounds' exit left := by
  cases exit <;> simpa only [Served, same] using served

/-- The loop, for any number of requests. -/
theorem serve_keeps (opened : .descriptor device ∈ held) (connected : .descriptor socket ∈ held)
    (none : NoHandles held) (rounds : List Round) :
    resources.Keeps held (serve device socket rounds) (Served held rounds) := by
  induction rounds with
  | nil => exact Keeps.faulting ⟨rfl, by rintro more ⟨⟩⟩
  | cons round rounds ih =>
      have later (unrefused : round.Asks → ∀ left, ¬round.Refused left) (goesOn : round.GoesOn) :
          resources.Keeps held (serve device socket rounds) (Served held (round :: rounds)) :=
        ih.mono fun _ _ served => served.congr (firstRefusal_cons unrefused goesOn rounds)
      refine Keeps.use_bind (Multiset.singleton_le.mpr connected) rfl rfl ?_
      cases received : round.received with
      | error errno =>
          have unserved : ∀ more, ¬FirstRefusal (round :: rounds) more :=
            not_firstRefusal (by simp [Round.Asks, received]) (by simp [Round.GoesOn, received])
              rounds
          by_cases interrupted : errno = .eintr
          · simp only [interrupted, if_true]
            exact Keeps.pure ⟨rfl, unserved⟩
          · simp only [interrupted, if_false]
            exact Keeps.throwing (.inl ⟨rfl, unserved⟩)
      | ok size =>
          dsimp only
          split_ifs with short stop other
          · refine Keeps.pure ⟨rfl, not_firstRefusal ?_ ?_ rounds⟩
            · rintro ⟨⟨size', same, whole⟩, -⟩
              cases received.symm.trans same
              omega
            · rintro ⟨⟨size', same, whole⟩, -⟩
              cases received.symm.trans same
              omega
          · refine Keeps.pure ⟨rfl, not_firstRefusal ?_ ?_ rounds⟩
            · rintro ⟨-, asks⟩
              exact absurd (stop.symm.trans asks) (by decide)
            · exact fun goesOn => goesOn.2.1 stop
          · refine later (fun asks => absurd asks.2 other) ?_
            exact ⟨⟨size, received, not_lt.mp short⟩, stop, fun asks => absurd asks other⟩
          · have asks : round.Asks := ⟨⟨size, received, not_lt.mp short⟩, not_not.mp other⟩
            have goesOn : round.GoesOn ↔ round.Answers :=
              ⟨fun goesOn => goesOn.2.2 asks.2, fun answers => ⟨asks.1, stop, fun _ => answers⟩⟩
            refine Keeps.bind ((answer_keeps opened connected none round).mono ?_)
            rintro (sent | failure | fault) left answered
            · obtain ⟨rfl, unrefused, answers⟩ := answered
              cases sent with
              | true => exact later (fun _ => unrefused) (goesOn.mpr (answers.mp rfl))
              | false =>
                  have stops : ¬round.GoesOn := fun onward =>
                    absurd (answers.mpr (goesOn.mp onward)) (by decide)
                  exact Keeps.pure ⟨rfl, not_firstRefusal (fun _ => unrefused) stops rounds⟩
            · rcases answered with ⟨same, unrefused, unanswered⟩ | ⟨more, same, refused⟩
              · refine .inl ⟨same, not_firstRefusal (fun _ => unrefused) ?_ rounds⟩
                exact fun onward => unanswered (goesOn.mp onward)
              · exact .inr ⟨more, same, .refused asks refused⟩
            · exact answered.elim

/-! ### The whole process -/

/-- What must hold where a descriptor is about to be closed. -/
def Closes {α : Type} (fd : Int) (exits : Exit Failure Waiting α → Multiset Resource → Prop) :
    Exit Failure Waiting α → Multiset Resource → Prop
  | .faulted fault, left => exits (.faulted fault) left
  | exit, left => ∃ more, left = more + {.descriptor fd} ∧ exits exit more

/-- A scope behind which a descriptor is closed. -/
theorem closing {α : Type} {fd : Int} {rest : Helper α}
    {exits : Exit Failure Waiting α → Multiset Resource → Prop}
    (keeps : resources.Keeps held rest (Closes fd exits)) :
    resources.Keeps held (Block.scopeGuard (close fd) rest) exits := by
  refine Keeps.scopeGuard (keeps.mono ?_)
  rintro (value | failure | fault) left closes
  · obtain ⟨more, rfl, holds⟩ := closes
    obtain ⟨_, run, closed, rfl⟩ := free_ends more (.descriptor fd)
    exact ⟨_, run, by rw [close, closed]; exact holds⟩
  · obtain ⟨more, rfl, holds⟩ := closes
    obtain ⟨_, run, closed, rfl⟩ := free_ends more (.descriptor fd)
    exact ⟨_, run, by rw [close, closed]; exact holds⟩
  · exact closes

/-- `socket::connect` succeeds. -/
def World.Connects (world : World) (path : String) : Prop :=
  (∃ fd, world.socket = .ok fd) ∧ path.utf8ByteSize ≤ sunPathSize ∧ world.connect = .ok ()

/-- How `socket::connect` is left. -/
def Connected (world : World) (path : String) (held : Multiset Resource) :
    Exit Failure Waiting Int → Multiset Resource → Prop
  | .returned fd, left =>
      left = held + {.descriptor fd} ∧ world.socket = .ok fd ∧ world.Connects path
  | .threw _, left => left = held ∧ ¬world.Connects path
  | .faulted _, _ => False

theorem connect_keeps (held : Multiset Resource) (world : World) (path : String) :
    resources.Keeps held (connect world path) (Connected world path held) := by
  unfold connect
  cases found : world.socket with
  | error text => exact Keeps.throwing ⟨rfl, by simp [World.Connects, found]⟩
  | ok fd =>
      refine acquire_bind ?_
      split_ifs with long
      · have fails : ¬world.Connects path := fun connects =>
          absurd connects.2.1 (not_le.mpr long)
        exact closing (Keeps.throwing ⟨held, rfl, rfl, fails⟩)
      · cases connected : world.connect with
        | error text =>
            have fails : ¬world.Connects path := by simp [World.Connects, connected]
            exact closing (Keeps.throwing ⟨held, rfl, rfl, fails⟩)
        | ok _ => exact Keeps.pure ⟨rfl, found, ⟨fd, found⟩, not_lt.mp long, connected⟩

theorem setClientCap_keeps (opened : .descriptor device ∈ held) (succeeds : Bool) :
    resources.Keeps held (setClientCap device succeeds)
      (Keeps.Requires (succeeds = true) held) := by
  refine call_bind opened ?_
  cases succeeds with
  | true => exact Keeps.pure ⟨rfl, rfl⟩
  | false => exact Keeps.throwing ⟨rfl, by simp⟩

theorem blockSignals_keeps (held : Multiset Resource) (world : World) :
    resources.Keeps held (blockSignals world)
      (Keeps.Requires (world.blockSignals = .ok ()) held) := by
  unfold blockSignals
  cases blocked : world.blockSignals with
  | error errno => exact Keeps.throwing ⟨rfl, by simp⟩
  | ok _ => exact Keeps.pure ⟨rfl, rfl⟩

theorem searchDevices_keeps (held : Multiset Resource) (devices : Nat → DeviceProbe) :
    resources.Keeps held (getDrmDevicePath devices)
      (Keeps.Requires (∃ i < maxDevices, (devices i).shows = true) held) := by
  refine (searchDevices_ends held devices maxDevices 0).keeps ?_
  cases search : firstDevice devices maxDevices 0 with
  | some i =>
      obtain ⟨shows, member, -⟩ := List.find?_range'_eq_some.mp search
      rw [List.mem_range'_1] at member
      exact ⟨rfl, i, by omega, shows⟩
  | none =>
      refine ⟨rfl, ?_⟩
      rintro ⟨i, less, shows⟩
      have hidden := List.find?_range'_eq_none.mp search i (Nat.zero_le i) (by omega)
      exact absurd shows (by simpa using hidden)

/-- The helper comes to its loop. -/
structure World.Serves (world : World) (path : String) : Prop where
  blocks : world.blockSignals = .ok ()
  shows : ∃ i < maxDevices, (world.devices i).shows = true
  opens : world.device.isSome
  universalPlanes : world.universalPlanes = true
  atomic : world.atomic = true
  connects : world.Connects path

/-- A plane is refused in the run of `app`, and this is left behind. -/
def World.Refuses (world : World) (path : String) (left : Multiset Resource) : Prop :=
  world.Serves path ∧ FirstRefusal world.rounds left

/-- How the helper is left, or what it holds while it waits. -/
def Finished (world : World) (path : String) :
    Exit Failure Waiting Unit → Multiset Resource → Prop
  | .returned _, left => left = 0 ∧ ∀ more, ¬world.Refuses path more
  | .threw _, left => world.Refuses path left ∨ left = 0 ∧ ∀ more, ¬world.Refuses path more
  | .faulted _, left => (∀ more, ¬world.Refuses path more) ∧
      ∃ device socket, world.device = some device ∧ world.socket = .ok socket ∧
        left = {.descriptor device} + {.descriptor socket}

theorem app_keeps (world : World) (path : String) :
    resources.Keeps 0 (app world path) (Finished world path) := by
  have stops (fails : ¬world.Serves path) (failure : Failure) :
      Finished world path (.threw failure) 0 :=
    .inr ⟨rfl, fun _ refuses => fails refuses.1⟩
  unfold app
  refine Keeps.bind_requires (blockSignals_keeps 0 world)
    (fun fails => stops fun serves => fails serves.blocks) fun blocks _ => ?_
  refine Keeps.bind_requires (searchDevices_keeps 0 world.devices)
    (fun fails => stops fun serves => fails serves.shows) fun shows _ => ?_
  cases opens : world.device with
  | none =>
      have fails : ¬world.Serves path := fun serves => by simpa [opens] using serves.opens
      exact Keeps.throwing (stops fails _)
  | some device =>
      have opened : Resource.descriptor device ∈ ({.descriptor device} : Multiset Resource) :=
        Multiset.mem_singleton_self _
      refine acquire_bind ?_
      rw [Multiset.zero_add]
      have closes (fails : ¬world.Serves path) (failure : Failure) :
          Closes device (Finished world path) (.threw failure) {.descriptor device} :=
        ⟨0, (Multiset.zero_add _).symm, stops fails failure⟩
      refine closing (Keeps.bind_requires (setClientCap_keeps opened _)
        (fun fails => closes fun serves => fails serves.universalPlanes) fun universal _ => ?_)
      refine Keeps.bind_requires (setClientCap_keeps opened _)
        (fun fails => closes fun serves => fails serves.atomic) fun atomic _ => ?_
      refine Keeps.bind ((connect_keeps _ world path).mono ?_)
      rintro (socket | failure | fault) left connected
      · obtain ⟨rfl, found, connects⟩ := connected
        have serves : world.Serves path :=
          ⟨blocks, shows, by simp [opens], universal, atomic, connects⟩
        refine closing ((serve_keeps (mem_acquired opened _) (by simp) (by simp [NoHandles])
          world.rounds).mono ?_)
        rintro (_ | failure | fault) left served
        · obtain ⟨rfl, unrefused⟩ := served
          exact ⟨_, rfl, 0, (Multiset.zero_add _).symm, rfl,
            fun more refuses => unrefused more refuses.2⟩
        · rcases served with ⟨rfl, unrefused⟩ | ⟨more, rfl, refusal⟩
          · exact ⟨_, rfl, 0, (Multiset.zero_add _).symm, .inr ⟨rfl,
              fun more refuses => unrefused more refuses.2⟩⟩
          · refine ⟨more + {.descriptor device}, ?_, more, rfl, .inl ⟨serves, refusal⟩⟩
            rw [Multiset.add_comm, ← Multiset.add_assoc]
        · obtain ⟨rfl, unrefused⟩ := served
          exact ⟨fun more refuses => unrefused more refuses.2, device, socket, opens, found, rfl⟩
      · obtain ⟨rfl, fails⟩ := connected
        exact closes (fun serves => fails serves.connects) failure
      · exact connected.elim

/-- The helper is asked for a plane that is refused, and this is left behind. -/
def World.Leaves (world : World) (left : Multiset Resource) : Prop :=
  ∃ path, world.path = some path ∧ world.Refuses path left

theorem World.leaves_iff {world : World} {path : String} (given : world.path = some path)
    (left : Multiset Resource) : world.Leaves left ↔ world.Refuses path left := by
  simp [World.Leaves, given]

/-- How `main` is left, or what the helper holds while it waits. -/
def Ran (world : World) : Exit Failure Waiting Nat → Multiset Resource → Prop
  | .returned code, left => code = 1 ∧ world.Leaves left ∨
      (code = 0 ∨ code = 1) ∧ left = 0 ∧ ∀ more, ¬world.Leaves more
  | .threw _, _ => False
  | .faulted _, left => (∀ more, ¬world.Leaves more) ∧
      ∃ device socket, world.device = some device ∧ world.socket = .ok socket ∧
        left = {.descriptor device} + {.descriptor socket}

/-- From nothing on, a run of the helper uses the device, the socket and the exported descriptors
only while they are open, and frees each object of the library it has obtained, once.  While it
waits for a request it holds the device and the socket.  When it stops it has given back everything,
unless a plane was refused: then it fails, and the descriptors of the planes in front of that one
are left to the kernel, and what had been acquired for it. -/
theorem main_keeps (world : World) :
    resources.Keeps 0 (main world) (Ran world) := by
  refine Keeps.handling ?_
  unfold mainBody
  cases given : world.path with
  | none =>
      have unrefused (more : Multiset Resource) : ¬world.Leaves more := by
        simp [World.Leaves, given]
      exact Keeps.throwing (Keeps.pure (.inr ⟨.inr rfl, rfl, unrefused⟩))
  | some path =>
      have leaves := World.leaves_iff given
      refine Keeps.bind ((app_keeps world path).mono ?_)
      rintro (_ | failure | fault) left finished
      · obtain ⟨rfl, unrefused⟩ := finished
        exact Keeps.pure (.inr ⟨.inl rfl, rfl, by simpa only [leaves] using unrefused⟩)
      · refine Keeps.pure ?_
        rcases finished with refuses | ⟨rfl, unrefused⟩
        · exact .inl ⟨rfl, (leaves left).mpr refuses⟩
        · exact .inr ⟨.inr rfl, rfl, by simpa only [leaves] using unrefused⟩
      · obtain ⟨unrefused, waiting⟩ := finished
        exact ⟨by simpa only [leaves] using unrefused, waiting⟩

end Kms
end ShadowCast
