import Mathlib.Data.List.Nodup
import Mathlib.Logic.Function.Basic
import ShadowCast.Machine

/-!
# Sockets that own their descriptor

A `UnixSocket` is a number that its destructor closes.  Numbers are handed out again by later
opens, so every open gives a new descriptor under a number which was closed.  Ownership follows the
number through moves and ends with a close; `close` itself leaves the number in place.
-/

namespace ShadowCast

/-- A `UnixSocket`, with the history of its number. -/
structure UnixSocket where
  /-- `fd_`; `none` is -1. -/
  fd : Option Nat
  /-- The descriptor which the object owns: the one it was given with the number. -/
  owns : Option Nat
  /-- `close` was called for the number. -/
  spent : Bool
  deriving DecidableEq, Repr

namespace UnixSocket

/-- A default-constructed or moved-from socket. -/
def vacant : UnixSocket := { fd := none, owns := none, spent := false }

end UnixSocket

/-- The descriptor table of the process and its `UnixSocket` objects. -/
structure Sockets (κ : Type*) where
  /-- The descriptor which is open under a number. -/
  table : Nat → Option Nat
  /-- The number of descriptors opened so far, which is the name of the next one. -/
  opened : Nat
  /-- The live objects. -/
  objects : κ → Option UnixSocket
  /-- The descriptors given to an object, in order. -/
  given : List Nat
  /-- The descriptors closed, in order. -/
  closed : List Nat

namespace Sockets

variable {κ : Type*}

/-- Nothing is open and no object is alive. -/
def empty : Sockets κ where
  table := fun _ => none
  opened := 0
  objects := fun _ => none
  given := []
  closed := []

/-- The operations of the objects, and those of other threads on descriptors. -/
inductive Label (κ : Type*)
  /-- A descriptor is opened under any number that is closed. -/
  | openNumber (number : Nat)
  /-- A descriptor that was given to no object is closed. -/
  | closeForeign (number : Nat)
  /-- A socket is constructed from a descriptor. -/
  | construct (object : κ) (number : Nat)
  | defaultConstruct (object : κ)
  | moveConstruct (object source : κ)
  | moveAssign (object source : κ)
  | close (object : κ)
  | destroy (object : κ)
  deriving DecidableEq, Repr

/-- `::close`, which fails on -1 and on a closed number. -/
def sysClose (sockets : Sockets κ) : Option Nat → Sockets κ
  | none => sockets
  | some number =>
      match sockets.table number with
      | none => sockets
      | some descriptor =>
          { sockets with
            table := Function.update sockets.table number none
            closed := sockets.closed ++ [descriptor] }

variable [DecidableEq κ]

/-- Replace one object. -/
def put (sockets : Sockets κ) (object : κ) (socket : Option UnixSocket) : Sockets κ :=
  { sockets with objects := Function.update sockets.objects object socket }

/-- One operation. -/
def step (sockets : Sockets κ) : Label κ → Option (Sockets κ)
  | .openNumber number =>
      match sockets.table number with
      | none =>
          some
            { sockets with
              table := Function.update sockets.table number (some sockets.opened)
              opened := sockets.opened + 1 }
      | some _ => none
  | .closeForeign number =>
      match sockets.table number with
      | none => none
      | some descriptor =>
          if descriptor ∈ sockets.given then none else some (sockets.sysClose (some number))
  | .construct object number =>
      match sockets.objects object, sockets.table number with
      | none, some descriptor =>
          if descriptor ∈ sockets.given then none
          else
            some
              { sockets.put object
                  (some { fd := some number, owns := some descriptor, spent := false }) with
                given := sockets.given ++ [descriptor] }
      | _, _ => none
  | .defaultConstruct object =>
      match sockets.objects object with
      | none => some (sockets.put object (some .vacant))
      | some _ => none
  | .moveConstruct object source =>
      match sockets.objects object, sockets.objects source with
      -- `std::exchange` with -1
      | none, some socket => some ((sockets.put source (some .vacant)).put object (some socket))
      | _, _ => none
  | .moveAssign object source =>
      match sockets.objects object, sockets.objects source with
      | some _, some tmp =>
          let moved := sockets.put source (some .vacant)
          match moved.objects object with
          -- `swap` with the temporary, which is destroyed with the old number
          | some old => some ((moved.put object (some tmp)).sysClose old.fd)
          | none => none
      | _, _ => none
  | .close object =>
      match sockets.objects object with
      | none => none
      | some socket =>
          some ((sockets.put object (some { socket with owns := none, spent := true })).sysClose
            socket.fd)
  | .destroy object =>
      match sockets.objects object with
      | none => none
      | some socket => some ((sockets.put object none).sysClose socket.fd)

/-- The objects and other threads under every interleaving. -/
def machine : Machine (Sockets κ) (Label κ) := ⟨step⟩

/-- The socket whose number an operation passes to `::close`. -/
def closing (sockets : Sockets κ) : Label κ → Option UnixSocket
  | .close object | .destroy object => sockets.objects object
  | .moveAssign object source => if object = source then none else sockets.objects object
  | _ => none

/-- A socket operation closes no descriptor but the one its object owns. -/
def ClosesOwn (sockets : Sockets κ) (label : Label κ) : Prop :=
  ∀ socket ∈ sockets.closing label, ∀ number ∈ socket.fd,
    ∀ descriptor ∈ sockets.table number, socket.owns = some descriptor

instance (sockets : Sockets κ) (label : Label κ) : Decidable (sockets.ClosesOwn label) :=
  inferInstanceAs (Decidable (∀ socket ∈ sockets.closing label, ∀ number ∈ socket.fd,
    ∀ descriptor ∈ sockets.table number, socket.owns = some descriptor))

/-- A number for which `close` was called is closed again only while nothing is open under it. -/
def RepeatsHarmlessly (sockets : Sockets κ) (label : Label κ) : Prop :=
  ∀ socket ∈ sockets.closing label, socket.spent = true →
    ∀ number ∈ socket.fd, sockets.table number = none

/-- Once no object is alive, every descriptor given to one has been closed exactly once. -/
def AllClosed (sockets : Sockets κ) : Prop :=
  (∀ object, sockets.objects object = none) →
    ∀ descriptor ∈ sockets.given, sockets.closed.count descriptor = 1

/-! ### The ownership invariant -/

/-- The owned descriptors are open under the number of their one owner, and every descriptor given
away is owned or closed. -/
structure Sound (sockets : Sockets κ) : Prop where
  fresh : ∀ {number descriptor}, sockets.table number = some descriptor →
    descriptor < sockets.opened
  distinct : ∀ {m n descriptor}, sockets.table m = some descriptor →
    sockets.table n = some descriptor → m = n
  gone : ∀ {descriptor}, descriptor ∈ sockets.closed →
    descriptor < sockets.opened ∧ ∀ number, sockets.table number ≠ some descriptor
  once : sockets.closed.Nodup
  known : ∀ {descriptor}, descriptor ∈ sockets.given → descriptor < sockets.opened
  owned : ∀ {object socket descriptor}, sockets.objects object = some socket →
    socket.owns = some descriptor → descriptor ∈ sockets.given ∧
      ∃ number, socket.fd = some number ∧ sockets.table number = some descriptor
  unique : ∀ {left right socket other descriptor}, sockets.objects left = some socket →
    sockets.objects right = some other → socket.owns = some descriptor →
      other.owns = some descriptor → left = right
  spent_iff : ∀ {object socket number}, sockets.objects object = some socket →
    socket.fd = some number → (socket.spent = true ↔ socket.owns = none)
  covered : ∀ {descriptor}, descriptor ∈ sockets.given → descriptor ∈ sockets.closed ∨
    ∃ object socket, sockets.objects object = some socket ∧ socket.owns = some descriptor

omit [DecidableEq κ] in
theorem empty_sound : Sound (empty : Sockets κ) := by
  constructor <;> simp [empty]

/-- The operations that close a number close that of a live object. -/
theorem closing_live {sockets : Sockets κ} {label : Label κ} {socket : UnixSocket}
    (closing : socket ∈ sockets.closing label) :
    ∃ object, sockets.objects object = some socket := by
  cases label with
  | close object | destroy object => exact ⟨object, closing⟩
  | moveAssign object source =>
      simp only [Sockets.closing] at closing
      split at closing
      · cases closing
      · exact ⟨object, closing⟩
  | openNumber | closeForeign | construct | defaultConstruct | moveConstruct => cases closing

omit [DecidableEq κ] in
/-- What a live object owns is what its number names. -/
theorem Sound.table_of_owns {sockets : Sockets κ} (sound : Sound sockets) {object : κ}
    {socket : UnixSocket} {number descriptor : Nat} (live : sockets.objects object = some socket)
    (owns : socket.owns = some descriptor) (held : socket.fd = some number) :
    sockets.table number = some descriptor := by
  obtain ⟨-, number', held', entry⟩ := sound.owned live owns
  obtain rfl : number = number' := Option.some.inj (held.symm.trans held')
  exact entry

/-- In a sound state, closing only what is owned is not repeating a close harmfully. -/
theorem Sound.closesOwn_iff {sockets : Sockets κ} (sound : Sound sockets) (label : Label κ) :
    sockets.ClosesOwn label ↔ sockets.RepeatsHarmlessly label := by
  constructor
  · intro own socket closing spent number held
    obtain ⟨object, live⟩ := closing_live closing
    have nothing := (sound.spent_iff live held).mp spent
    cases entry : sockets.table number with
    | none => rfl
    | some descriptor => simp [own socket closing number held descriptor entry] at nothing
  · intro harmless socket closing number held descriptor entry
    obtain ⟨object, live⟩ := closing_live closing
    cases owns : socket.owns with
    | none =>
        have spent := (sound.spent_iff live held).mpr owns
        simp [harmless socket closing spent number held] at entry
    | some own =>
        exact (sound.table_of_owns live owns held).symm.trans entry

/-! ### One operation -/

@[simp, grind =]
theorem put_objects (sockets : Sockets κ) (object other : κ) (socket : Option UnixSocket) :
    (sockets.put object socket).objects other =
      if other = object then socket else sockets.objects other :=
  Function.update_apply _ _ _ _

@[simp, grind =]
theorem put_table (sockets : Sockets κ) (object : κ) (socket : Option UnixSocket) :
    (sockets.put object socket).table = sockets.table := rfl

@[simp, grind =]
theorem put_given (sockets : Sockets κ) (object : κ) (socket : Option UnixSocket) :
    (sockets.put object socket).given = sockets.given := rfl

@[simp, grind =]
theorem put_opened (sockets : Sockets κ) (object : κ) (socket : Option UnixSocket) :
    (sockets.put object socket).opened = sockets.opened := rfl

@[simp, grind =]
theorem put_closed (sockets : Sockets κ) (object : κ) (socket : Option UnixSocket) :
    (sockets.put object socket).closed = sockets.closed := rfl

omit [DecidableEq κ] in
/-- A descriptor is opened. -/
theorem Sound.openNumber {sockets : Sockets κ} (sound : Sound sockets) {number : Nat}
    (free : sockets.table number = none) :
    Sound
      { sockets with
        table := Function.update sockets.table number (some sockets.opened)
        opened := sockets.opened + 1 } where
  fresh := by
    have := @sound.fresh
    grind [Function.update_apply]
  distinct := by
    have := @sound.fresh
    have := @sound.distinct
    grind [Function.update_apply]
  gone := by
    have := @sound.gone
    grind [Function.update_apply]
  once := sound.once
  known := by
    have := @sound.known
    grind
  owned := by
    have := @sound.owned
    grind [Function.update_apply]
  unique := sound.unique
  spent_iff := sound.spent_iff
  covered := sound.covered

/-- What an object becomes when it gives its descriptor up: it is gone, or it owns nothing and its
number, if it keeps one, is spent. -/
def Unowning (socket : Option UnixSocket) : Prop :=
  ∀ left, socket = some left →
    left.owns = none ∧ ∀ number, left.fd = some number → left.spent = true

/-- An object that owns nothing is replaced by one that owns nothing. -/
theorem Sound.putUnowned {sockets : Sockets κ} (sound : Sound sockets) {object : κ}
    {socket : Option UnixSocket}
    (old : ∀ other, sockets.objects object = some other → other.owns = none)
    (unowning : Unowning socket) : Sound (sockets.put object socket) where
  fresh := sound.fresh
  distinct := sound.distinct
  gone := sound.gone
  once := sound.once
  known := sound.known
  owned := by
    intro other socket' descriptor live owns
    have := @sound.owned other socket' descriptor
    grind [Unowning]
  unique := by
    intro left right socket' other descriptor
    have := @sound.unique left right socket' other descriptor
    grind [Unowning]
  spent_iff := by
    intro other socket' number
    have := @sound.spent_iff other socket' number
    grind [Unowning]
  covered := by
    intro descriptor given
    rcases sound.covered given with closed | ⟨owner, socket', live, owns⟩
    · exact Or.inl closed
    · exact Or.inr ⟨owner, socket', by grind, owns⟩

/-- A socket moves to a place where nothing is owned. -/
theorem Sound.move {sockets : Sockets κ} (sound : Sound sockets) {object source : κ}
    {socket : UnixSocket} (live : sockets.objects source = some socket)
    (old : ∀ other, sockets.objects object = some other → other.owns = none) :
    Sound ((sockets.put source (some .vacant)).put object (some socket)) where
  fresh := sound.fresh
  distinct := sound.distinct
  gone := sound.gone
  once := sound.once
  known := sound.known
  owned := by
    intro other socket' descriptor live' owns
    have := @sound.owned other socket' descriptor
    have := @sound.owned source socket' descriptor
    grind [UnixSocket.vacant]
  unique := by
    intro left right socket' other descriptor
    have := @sound.unique left right socket' other descriptor
    have := @sound.unique left source socket' other descriptor
    have := @sound.unique source right socket' other descriptor
    grind [UnixSocket.vacant]
  spent_iff := by
    intro other socket' number
    have := @sound.spent_iff other socket' number
    have := @sound.spent_iff source socket' number
    grind [UnixSocket.vacant]
  covered := by
    intro descriptor given
    rcases sound.covered given with closed | ⟨owner, socket', live', owns⟩
    · exact Or.inl closed
    · right
      by_cases moved : owner = source
      · exact ⟨object, socket', by grind, owns⟩
      · exact ⟨owner, socket', by grind, owns⟩

/-- A descriptor is given to a new socket. -/
theorem Sound.construct {sockets : Sockets κ} (sound : Sound sockets) {object : κ}
    {number descriptor : Nat} (dead : sockets.objects object = none)
    (entry : sockets.table number = some descriptor) (new : descriptor ∉ sockets.given) :
    Sound
      { sockets.put object
          (some { fd := some number, owns := some descriptor, spent := false }) with
        given := sockets.given ++ [descriptor] } where
  fresh := sound.fresh
  distinct := sound.distinct
  gone := sound.gone
  once := sound.once
  known := by
    have := @sound.known
    have := sound.fresh entry
    grind
  owned := by
    intro other socket' descriptor' live owns
    have := @sound.owned other socket' descriptor'
    grind
  unique := by
    intro left right socket' other descriptor' live live' owns owns'
    have := @sound.unique left right socket' other descriptor'
    have := @sound.owned left socket' descriptor'
    have := @sound.owned right other descriptor'
    grind
  spent_iff := by
    intro other socket' number'
    have := @sound.spent_iff other socket' number'
    grind
  covered := by
    intro descriptor' given
    rcases List.mem_append.mp given with before | last
    · rcases sound.covered before with closed | ⟨owner, socket', live, owns⟩
      · exact Or.inl closed
      · exact Or.inr ⟨owner, socket', by grind, owns⟩
    · obtain rfl := List.mem_singleton.mp last
      exact Or.inr ⟨object, ⟨some number, some descriptor', false⟩, by grind, rfl⟩

omit [DecidableEq κ] in
/-- A descriptor is closed, and no object is left that owns it. -/
theorem Sound.closeDescriptor {sockets : Sockets κ} (sound : Sound sockets)
    {objects : κ → Option UnixSocket} {number descriptor : Nat}
    (entry : sockets.table number = some descriptor)
    (old : ∀ object socket, objects object = some socket →
      Unowning (some socket) ∨
        sockets.objects object = some socket ∧ socket.owns ≠ some descriptor)
    (kept : ∀ object socket other, sockets.objects object = some socket →
      socket.owns = some other → other ≠ descriptor → objects object = some socket) :
    Sound
      { sockets with
        table := Function.update sockets.table number none
        objects := objects
        closed := sockets.closed ++ [descriptor] } where
  fresh := by
    intro other descriptor'
    have := @sound.fresh other descriptor'
    grind [Function.update_apply]
  distinct := by
    intro m n descriptor'
    have := @sound.distinct m n descriptor'
    grind [Function.update_apply]
  gone := by
    intro descriptor' closed
    have := @sound.gone descriptor'
    have := sound.fresh entry
    have := @sound.distinct number
    grind [Function.update_apply]
  once := by
    rw [List.nodup_append]
    refine ⟨sound.once, by simp, ?_⟩
    rintro other closed descriptor' last rfl
    obtain rfl := List.mem_singleton.mp last
    exact (sound.gone closed).2 number entry
  known := sound.known
  owned := by
    intro object socket descriptor' live owns
    have := @sound.owned object socket descriptor'
    have := old object socket live
    grind [Unowning, Function.update_apply]
  unique := by
    intro left right socket other descriptor' live live' owns owns'
    have := @sound.unique left right socket other descriptor'
    have := old left socket live
    have := old right other live'
    grind [Unowning]
  spent_iff := by
    intro object socket number' live held
    have := @sound.spent_iff object socket number'
    have := old object socket live
    grind [Unowning]
  covered := by
    intro descriptor' given
    rcases sound.covered given with closed | ⟨owner, socket, live, owns⟩
    · exact Or.inl (List.mem_append_left _ closed)
    · by_cases same : descriptor' = descriptor
      · exact Or.inl (by simp [same])
      · exact Or.inr ⟨owner, socket, kept owner socket descriptor' live owns same, owns⟩

/-- An object closes its number and gives its descriptor up, repeating no close harmfully. -/
theorem Sound.closeObject {sockets : Sockets κ} (sound : Sound sockets) {object : κ}
    {socket : UnixSocket} {replacement : Option UnixSocket}
    (live : sockets.objects object = some socket)
    (harmless : socket.spent = true → ∀ number ∈ socket.fd, sockets.table number = none)
    (unowning : Unowning replacement) :
    Sound ((sockets.put object replacement).sysClose socket.fd) := by
  have unowned (nothing : socket.owns = none) : Sound (sockets.put object replacement) := by
    refine sound.putUnowned (fun other live' => ?_) unowning
    obtain rfl : socket = other := Option.some.inj (live.symm.trans live')
    exact nothing
  cases held : socket.fd with
  | none =>
      refine unowned ?_
      by_contra owning
      obtain ⟨descriptor, owns⟩ := Option.ne_none_iff_exists'.mp owning
      obtain ⟨-, number, held', -⟩ := sound.owned live owns
      simp [held] at held'
  | some number =>
      cases entry : sockets.table number with
      | none =>
          have kept : (sockets.put object replacement).sysClose (some number) =
              sockets.put object replacement := by
            simp [sysClose, entry]
          rw [kept]
          refine unowned ?_
          by_contra owning
          obtain ⟨descriptor, owns⟩ := Option.ne_none_iff_exists'.mp owning
          simp [sound.table_of_owns live owns held] at entry
      | some descriptor =>
          have unspent : socket.spent ≠ true := by
            intro spent
            simp [harmless spent number held] at entry
          have owning : socket.owns ≠ none := fun nothing =>
            unspent ((sound.spent_iff live held).mpr nothing)
          obtain ⟨own, owns⟩ := Option.ne_none_iff_exists'.mp owning
          obtain rfl : descriptor = own :=
            Option.some.inj (entry.symm.trans (sound.table_of_owns live owns held))
          have closed : (sockets.put object replacement).sysClose (some number) =
              { sockets with
                table := Function.update sockets.table number none
                objects := Function.update sockets.objects object replacement
                closed := sockets.closed ++ [descriptor] } := by
            simp only [sysClose, put_table, entry]
            rfl
          rw [closed]
          refine sound.closeDescriptor entry ?_ ?_
          · intro other socket' live'
            have := @sound.unique other object socket' socket descriptor
            grind [Function.update_apply]
          · intro other socket' descriptor' live' owns' different
            grind [Function.update_apply]

theorem sysClose_put (sockets : Sockets κ) (object : κ) (socket : Option UnixSocket)
    (fd : Option Nat) :
    (sockets.put object socket).sysClose fd = (sockets.sysClose fd).put object socket := by
  cases fd with
  | none => rfl
  | some number =>
      simp only [sysClose, put_table]
      cases sockets.table number with
      | none => rfl
      | some descriptor => rfl

theorem put_put_put (sockets : Sockets κ) {object source : κ} (different : object ≠ source)
    (first second third : Option UnixSocket) :
    ((sockets.put object first).put source second).put object third =
      (sockets.put source second).put object third := by
  simp only [put, Function.update_comm different, Function.update_idem]

/-- A socket moved to itself stays as it is. -/
theorem put_put_self {sockets : Sockets κ} {object : κ} {socket other : UnixSocket}
    (live : sockets.objects object = some socket) :
    (sockets.put object (some other)).put object (some socket) = sockets := by
  simp only [put, Function.update_idem, ← live, Function.update_eq_self]

/-- A move assignment closes the old number of its target, and the socket moves into its place. -/
theorem Sound.moveAssign {sockets : Sockets κ} (sound : Sound sockets) {object source : κ}
    {old tmp : UnixSocket} (different : object ≠ source)
    (target : sockets.objects object = some old) (live : sockets.objects source = some tmp)
    (harmless : old.spent = true → ∀ number ∈ old.fd, sockets.table number = none) :
    Sound (((sockets.put source (some .vacant)).put object (some tmp)).sysClose old.fd) := by
  have vacated : Sound ((sockets.sysClose old.fd).put object (some .vacant)) := by
    rw [← sysClose_put]
    refine sound.closeObject target harmless ?_
    rintro left ⟨⟩
    exact ⟨rfl, by rintro number ⟨⟩⟩
  have objects (fd : Option Nat) : (sockets.sysClose fd).objects = sockets.objects := by
    cases fd with
    | none => rfl
    | some number =>
        simp only [sysClose]
        cases sockets.table number with
        | none => rfl
        | some descriptor => rfl
  rw [sysClose_put, sysClose_put, ← put_put_put _ different (some .vacant)]
  refine vacated.move ?_ ?_
  · rw [put_objects, if_neg (Ne.symm different), objects, live]
  · intro other live'
    rw [put_objects, if_pos rfl] at live'
    cases live'
    rfl

/-- Every operation that repeats no close harmfully keeps the invariant. -/
theorem step_sound {sockets after : Sockets κ} {label : Label κ} (sound : Sound sockets)
    (harmless : sockets.RepeatsHarmlessly label) (step : sockets.step label = some after) :
    Sound after := by
  cases label with
  | openNumber number =>
      simp only [Sockets.step] at step
      split at step
      · next free =>
          obtain rfl := Option.some.inj step
          exact sound.openNumber free
      · cases step
  | closeForeign number =>
      simp only [Sockets.step] at step
      split at step
      · cases step
      · next descriptor entry =>
          split at step
          · cases step
          · next foreign =>
              obtain rfl := Option.some.inj step
              have closed : sockets.sysClose (some number) =
                  { sockets with
                    table := Function.update sockets.table number none
                    objects := sockets.objects
                    closed := sockets.closed ++ [descriptor] } := by
                simp only [sysClose, entry]
              rw [closed]
              refine sound.closeDescriptor entry ?_ fun object socket other live _ _ => live
              intro object socket live
              refine Or.inr ⟨live, fun owns => foreign (sound.owned live owns).1⟩
  | construct object number =>
      simp only [Sockets.step] at step
      split at step
      · next descriptor dead entry =>
          split at step
          · cases step
          · next new =>
              obtain rfl := Option.some.inj step
              exact sound.construct dead entry new
      · cases step
  | defaultConstruct object =>
      simp only [Sockets.step] at step
      split at step
      · next dead =>
          obtain rfl := Option.some.inj step
          refine sound.putUnowned ?_ ?_
          · simp [dead]
          · rintro left ⟨⟩
            exact ⟨rfl, by rintro number ⟨⟩⟩
      · cases step
  | moveConstruct object source =>
      simp only [Sockets.step] at step
      split at step
      · next socket dead live =>
          obtain rfl := Option.some.inj step
          exact sound.move live (by simp [dead])
      · cases step
  | moveAssign object source =>
      simp only [Sockets.step] at step
      split at step
      · next target tmp alive live =>
          by_cases same : object = source
          · subst same
            rw [put_objects, if_pos rfl] at step
            obtain rfl := Option.some.inj step
            rw [put_put_self live]
            exact sound
          · rw [put_objects, if_neg same, alive] at step
            obtain rfl := Option.some.inj step
            refine sound.moveAssign same alive live (harmless target ?_)
            simp only [closing, if_neg same]
            exact alive
      · cases step
  | close object =>
      simp only [Sockets.step] at step
      split at step
      · cases step
      · next socket live =>
          obtain rfl := Option.some.inj step
          refine sound.closeObject live (harmless socket live) ?_
          rintro left ⟨⟩
          exact ⟨rfl, fun _ _ => rfl⟩
  | destroy object =>
      simp only [Sockets.step] at step
      split at step
      · cases step
      · next socket live =>
          obtain rfl := Option.some.inj step
          refine sound.closeObject live (harmless socket live) ?_
          rintro left ⟨⟩

/-! ### Runs -/

omit [DecidableEq κ] in
/-- In a sound state without objects nothing given away is left open. -/
theorem Sound.allClosed {sockets : Sockets κ} (sound : Sound sockets) : sockets.AllClosed := by
  intro dead descriptor given
  rcases sound.covered given with closed | ⟨object, socket, live, -⟩
  · exact List.count_eq_one_of_mem sound.once closed
  · simp [dead object] at live

/-- In every run, the sockets close only what they own and leave nothing open exactly when no step
closes, for a socket whose number `close` was already called for, a number that is open again. -/
theorem closes_own_iff_repeats_harmlessly (labels : List (Label κ)) :
    (machine.Guarded ClosesOwn empty labels ∧ machine.Always AllClosed empty labels) ↔
      machine.Guarded RepeatsHarmlessly empty labels := by
  have keeps : ∀ {sockets : Sockets κ} {label after}, Sound sockets →
      sockets.RepeatsHarmlessly label → machine.step sockets label = some after → Sound after :=
    fun sound harmless step => step_sound sound harmless step
  have agree : ∀ {sockets : Sockets κ} {label}, Sound sockets →
      (sockets.ClosesOwn label ↔ sockets.RepeatsHarmlessly label) :=
    fun sound => sound.closesOwn_iff _
  constructor
  · rintro ⟨own, -⟩
    refine (Machine.guarded_congr_of_guarded (m := machine) (P := Sound) ?_ agree empty_sound
      own).mp own
    exact fun sound own step => keeps sound ((agree sound).mp own) step
  · intro harmless
    refine ⟨?_, ?_⟩
    · exact (Machine.guarded_congr_of_guarded (m := machine) (P := Sound) keeps agree empty_sound
        harmless).mpr harmless
    · exact (Machine.always_of_guarded keeps empty_sound harmless).mono fun _ sound =>
        sound.allClosed

/-! ### The sockets of the program -/

/-- `create_socket`: the socket made from the descriptor is moved to the caller. -/
def createSocket (number : Nat) (made returned : κ) : List (Label κ) :=
  [.openNumber number, .construct made number, .moveConstruct returned made, .destroy made]

/-- `on_init`: the listening socket is closed by the scope guard and closed again by its
destructor.  In between another thread opens a file and is given its number. -/
def closedTwice : List (Label Bool) :=
  createSocket 5 false true ++ [.close true, .openNumber 5, .destroy true]

/-- The destructor closes the file of the other thread. -/
theorem destructor_closes_foreign_file :
    ¬(machine.Guarded ClosesOwn empty closedTwice ∧
      machine.Always AllClosed empty closedTwice) := by
  rintro ⟨own, -⟩
  revert own
  decide +kernel

end Sockets
end ShadowCast
