import ShadowCast.EncoderLists
import ShadowCast.IntrusiveListRuns

/-!
# The linked lists refine the sequences of the encoder service

The nodes in the lists, the ones in the producers' hands and the ones that are not allocated yet are
different.  So no step of one party touches the links another one relies on, every operation
returns, and the lists show the sequences of the encoder service after every run.
-/

namespace ShadowCast
namespace EncoderLists

open LinkedRing IntrusiveList

/-- The sentinels of the lists which can be reached. -/
abbrev Sentinel (live : Bool) : Type :=
  { node : ListNode // node = .poolList ∨ node = .pending ∨ node = .tmp ∧ live = true }

/-- The lists are rings, `tmp` included while it lives. -/
def Linked (live : Bool) (links : Heap ListNode) (contents : ListNode → List ListNode) : Prop :=
  links.Rings (fun list : Sentinel live => list.val) fun list => contents list.val

namespace Linked

variable {live : Bool} {links : Heap ListNode} {contents : ListNode → List ListNode}

/-- A change of one list, and of that list among those which can be reached. -/
theorem update_val (contents : ListNode → List ListNode) (list : Sentinel live)
    (xs : List ListNode) :
    Function.update (fun list : Sentinel live => contents list.val) list xs =
      fun other => Function.update contents list.val xs other.val :=
  (Function.update_comp_eq_of_injective contents Subtype.val_injective list xs).symm

theorem ring (linked : Linked live links contents) (list : Sentinel live) :
    links.Ring list.val (contents list.val) :=
  Heap.Rings.ring linked list

/-- An item that is in no list is put at the end of one. -/
theorem pushBack (linked : Linked live links contents) (list : Sentinel live) {id : Nat}
    (fresh : ∀ list, .item id ∉ contents list) :
    ∃ links', IntrusiveList.pushBack list.val (.item id) links = .ok links' ∧
      Linked live links'
        (Function.update contents list.val (contents list.val ++ [.item id])) := by
  have outside : Fresh (fun list : Sentinel live => list.val) (fun list => contents list.val)
      (.item id) := by
    intro other member
    rcases List.mem_cons.mp member with same | member
    · have sentinel := other.property
      rw [← show .item id = other.val from same] at sentinel
      simp at sentinel
    · exact fresh _ member
  obtain ⟨links', done, rings⟩ := @pushBack_spec _ _ _ _ _ _ _ linked list _ outside
  rw [update_val] at rings
  exact ⟨links', done, rings⟩

/-- An item of a list is erased. -/
theorem erase (linked : Linked live links contents) (list : Sentinel live)
    {x : ListNode} {xs : List ListNode} (split : contents list.val = x :: xs) :
    ∃ links', IntrusiveList.erase list.val x links = .ok (links', xs.headD list.val) ∧
      Linked live links' (Function.update contents list.val xs) := by
  have split' : contents list.val = [] ++ x :: xs := split
  have ring := linked.ring list
  rw [split'] at ring
  have rings := Heap.Rings.link_over linked (i := list) split'
  rw [update_val] at rings
  exact ⟨_, erase_eq ring, rings⟩

/-- The first item of a list comes behind its sentinel. -/
theorem next_sentinel (linked : Linked live links contents) (list : Sentinel live) :
    links.next list.val = some ((contents list.val).headD list.val) :=
  (linked.ring list).segment.ends.1

theorem next_item (linked : Linked live links contents) (list : Sentinel live)
    {us vs : List ListNode} {x : ListNode} (split : contents list.val = us ++ x :: vs) :
    links.next x = some (vs.headD list.val) := by
  have ring := linked.ring list
  rw [split] at ring
  exact ring.neighbours.2

theorem nodup (linked : Linked live links contents) (list : Sentinel live) :
    (contents list.val).Nodup :=
  (List.nodup_cons.mp (linked.ring list).nodup).2

/-- The lists are the same for links that differ at other nodes. -/
theorem congr {links' : Heap ListNode} (linked : Linked live links contents)
    (agree : ∀ list : Sentinel live, ∀ node ∈ list.val :: contents list.val,
      links.AgreeAt links' node) :
    Linked live links' contents :=
  ⟨fun list => (linked.ring list).congr (agree list), Heap.Rings.separate linked⟩

/-- The links of an item that is in no list do not matter. -/
theorem newItem {id : Nat} (linked : Linked live links contents)
    (fresh : ∀ list, .item id ∉ contents list) :
    Linked live ((links.setPrev (.item id) none).setNext (.item id) none) contents := by
  refine linked.congr fun list node member => ?_
  have other : node ≠ .item id := by
    rintro rfl
    rcases List.mem_cons.mp member with same | member
    · have sentinel := list.property
      rw [← same] at sentinel
      simp at sentinel
    · exact fresh _ member
  constructor <;> simp [other]

/-- `get` takes the first item of the pool. -/
theorem takeFirst (linked : Linked live links contents) :
    match contents .poolList with
    | [] => Pool.takeFirst .poolList links = .ok none
    | x :: xs => ∃ links', Pool.takeFirst .poolList links = .ok (some (links', x)) ∧
        Linked live links' (Function.update contents .poolList xs) := by
  have ring := linked.ring ⟨.poolList, .inl rfl⟩
  have first := linked.next_sentinel ⟨.poolList, .inl rfl⟩
  have nonempty := empty_iff ring
  split
  case h_1 split =>
    simp only [Pool.takeFirst, nonempty.mpr split, if_true]
    rfl
  case h_2 x xs split =>
    obtain ⟨links', erased, linked'⟩ := linked.erase ⟨.poolList, .inl rfl⟩ split
    have full : IntrusiveList.empty .poolList links ≠ true := by
      rw [Ne, nonempty, split]
      simp
    refine ⟨links', ?_, linked'⟩
    simp only [Pool.takeFirst, full, first, split, List.headD_cons, deref_some, erased, bind,
      Except.bind, pure, Except.pure]
    rfl

/-- A round of the guard moves the first item of `tmp` to the end of the pool. -/
theorem returnItem (linked : Linked true links contents) {id : Nat} {xs : List ListNode}
    (split : contents .tmp = .item id :: xs) (fresh : ∀ list ≠ .tmp, .item id ∉ contents list) :
    ∃ links', EncoderLists.returnItem (.item id) links = .ok (links', xs.headD .tmp) ∧
      Linked true links' (Function.update (Function.update contents .tmp xs) .poolList
        (contents .poolList ++ [.item id])) := by
  have nodup := linked.nodup ⟨.tmp, by simp⟩
  rw [split] at nodup
  obtain ⟨links₁, erased, linked₁⟩ := linked.erase ⟨.tmp, by simp⟩ split
  have taken : ∀ list, .item id ∉ Function.update contents .tmp xs list := by
    intro list
    rw [Function.update_apply]
    split
    · exact (List.nodup_cons.mp nodup).1
    · next other => exact fresh list other
  obtain ⟨links', pushed, linked'⟩ := linked₁.pushBack ⟨.poolList, .inl rfl⟩ taken
  refine ⟨links', ?_, by simpa using linked'⟩
  simp only [EncoderLists.returnItem, erased, bind, Except.bind, pushed, pure, Except.pure]

/-- The loop of `clear` erases all items. -/
theorem clearLoop {xs : List ListNode} (linked : Linked live links contents)
    (split : contents .poolList = xs) {fuel : Nat} (enough : xs.length < fuel) :
    ∃ links', EncoderLists.clearLoop fuel (xs.headD .poolList) links = .ok links' ∧
      Linked live links' (Function.update contents .poolList []) := by
  induction xs generalizing links contents fuel with
  | nil =>
      obtain ⟨fuel, rfl⟩ := Nat.exists_eq_succ_of_ne_zero (Nat.ne_of_gt enough)
      refine ⟨links, if_pos rfl, ?_⟩
      rwa [← split, Function.update_eq_self]
  | cons x xs ih =>
      obtain ⟨fuel, rfl⟩ := Nat.exists_eq_succ_of_ne_zero (Nat.ne_of_gt (Nat.zero_lt_of_lt enough))
      have absent := (List.nodup_cons.mp (linked.ring ⟨.poolList, .inl rfl⟩).nodup).1
      have other : x ≠ .poolList := by
        rintro rfl
        exact absent (by simp [split])
      obtain ⟨links₁, erased, linked₁⟩ := linked.erase ⟨.poolList, .inl rfl⟩ split
      obtain ⟨links', done, linked'⟩ :=
        ih linked₁ (Function.update_self ..) (by simpa using enough)
      refine ⟨links', ?_, by simpa using linked'⟩
      rw [List.headD_cons, EncoderLists.clearLoop, if_neg other]
      simp only [erased, bind, Except.bind, done]

theorem clear (linked : Linked live links contents) {fuel : Nat}
    (enough : (contents .poolList).length < fuel) :
    ∃ links', EncoderLists.clear fuel links = .ok links' ∧
      Linked live links' (Function.update contents .poolList []) := by
  obtain ⟨links', done, linked'⟩ := linked.clearLoop rfl enough
  refine ⟨links', ?_, linked'⟩
  rw [EncoderLists.clear, linked.next_sentinel ⟨.poolList, .inl rfl⟩]
  exact done

/-- The declaration of `tmp` adds an empty list. -/
theorem construct (linked : Linked false links contents) (empty : contents .tmp = [])
    (fresh : ∀ list, .tmp ∉ contents list) :
    Linked true (IntrusiveList.construct .tmp links) contents := by
  have old {list : ListNode} (reached : list = .poolList ∨ list = .pending) :
      ∀ node ∈ list :: contents list, links.AgreeAt (IntrusiveList.construct .tmp links) node := by
    intro node member
    have other : node ≠ .tmp := by
      rintro rfl
      rcases List.mem_cons.mp member with rfl | member
      · simp at reached
      · exact fresh list member
    constructor <;> simp [IntrusiveList.construct, other]
  have apart {list : ListNode} (other : list ≠ .tmp) :
      (list :: contents list).Disjoint (.tmp :: contents .tmp) := by
    rw [empty, List.disjoint_singleton]
    exact fun member => (List.mem_cons.mp member).elim (fun same => other same.symm) (fresh list)
  constructor
  · rintro ⟨list, rfl | rfl | ⟨rfl, -⟩⟩
    · exact (linked.ring ⟨.poolList, .inl rfl⟩).congr (old (.inl rfl))
    · exact (linked.ring ⟨.pending, .inr (.inl rfl)⟩).congr (old (.inr rfl))
    · change Heap.Ring _ .tmp (contents .tmp)
      rw [empty]
      exact construct_ring ..
  · rintro ⟨list, reached⟩ ⟨other, reached'⟩ differ
    by_cases first : list = .tmp
    · subst first
      exact (apart fun same => differ (Subtype.ext same.symm)).symm
    · by_cases second : other = .tmp
      · subst second
        exact apart first
      · exact Heap.Rings.separate linked ⟨list, by simpa [first] using reached⟩
          ⟨other, by simpa [second] using reached'⟩ (by simpa using differ)

/-- The declaration of `tmp` and the splice move all queued items. -/
theorem spliceLists (linked : Linked false links contents) (empty : contents .tmp = [])
    (fresh : ∀ list, .tmp ∉ contents list) {fuel : Nat}
    (enough : (contents .pending).length < fuel) :
    ∃ links', EncoderLists.spliceLists fuel links =
        .ok (links', (contents .pending).headD .tmp) ∧
      Linked true links'
        (Function.update (Function.update contents .pending []) .tmp (contents .pending)) := by
  have live := linked.construct empty fresh
  have first := live.next_sentinel ⟨.pending, .inr (.inl rfl)⟩
  have before : (IntrusiveList.construct .tmp links).next .tmp = some .tmp := by
    simpa [empty] using live.next_sentinel ⟨.tmp, by simp⟩
  have absent := (List.nodup_cons.mp (live.ring ⟨.pending, .inr (.inl rfl)⟩).nodup).1
  have all := between_all absent
  obtain ⟨links', spliced, rings⟩ := @splice_spec _ _ _ _ _ _ _ live ⟨.tmp, by simp⟩
    ⟨.pending, .inr (.inl rfl)⟩ .tmp _ .pending (.inl rfl)
    (position_first (fun list : Sentinel true => contents list.val) ⟨.pending, .inr (.inl rfl)⟩)
    (.inl rfl) (by rw [all]; exact fresh _) (by simp)
  rw [all] at spliced rings
  have moved : Linked true links'
      (Function.update (Function.update contents .pending []) .tmp (contents .pending)) := by
    have here := rings
    rw [moveRange, update_val, update_val] at here
    have none : without (contents .pending) (contents .pending) = [] :=
      List.filter_eq_nil_iff.mpr (by simp)
    simpa [Linked, none, empty, insertAll] using here
  refine ⟨links', ?_, moved⟩
  have start := moved.next_sentinel ⟨.tmp, by simp⟩
  simp only [Function.update_self] at start
  simp only [EncoderLists.spliceLists, before, first, deref_some, spliced fuel enough, start, bind,
    Except.bind, pure, Except.pure]

end Linked

/-- `tmp` is left out of the lists again. -/
theorem Linked.drop {links : Heap ListNode} {contents : ListNode → List ListNode} {live : Bool}
    (linked : Linked live links contents) : Linked false links contents := by
  have reached (list : Sentinel false) :
      list.val = .poolList ∨ list.val = .pending ∨ list.val = .tmp ∧ live = true := by
    simpa [or_assoc] using list.property.imp_right Or.inl
  constructor
  · exact fun list => linked.ring ⟨list.val, reached list⟩
  · exact fun list other differ => Heap.Rings.separate linked ⟨list.val, reached list⟩
      ⟨other.val, reached other⟩ fun same => differ (Subtype.ext (Subtype.mk.inj same))

/-! ### The places of the items -/

/-- No item is in two places, and only allocated items are in any. -/
structure Places (allocated : Nat) (hands : List ListNode)
    (contents : ListNode → List ListNode) : Prop where
  listed : ∀ list, ∀ node ∈ contents list, ∃ id < allocated, node = .item id
  held : ∀ node ∈ hands, ∃ id < allocated, node = .item id
  apart : ∀ list, ∀ node ∈ contents list, node ∉ hands
  separate : ∀ list other, list ≠ other → (contents list).Disjoint (contents other)

/-- An item which is in no list and in nobody's hands, while a step moves it. -/
structure Loose (allocated : Nat) (hands : List ListNode) (contents : ListNode → List ListNode)
    (id : Nat) : Prop where
  allocated : id < allocated
  unlisted : ∀ list, .item id ∉ contents list
  unheld : .item id ∉ hands

namespace Places

variable {allocated id : Nat} {hands : List ListNode}
  {contents contents' : ListNode → List ListNode}

/-- A new item is loose. -/
theorem newItem (places : Places allocated hands contents) :
    Places (allocated + 1) hands contents ∧ Loose (allocated + 1) hands contents allocated := by
  have older {node : ListNode} : (∃ id < allocated, node = .item id) →
      ∃ id < allocated + 1, node = .item id := fun ⟨id, before, same⟩ =>
    ⟨id, Nat.lt_succ_of_lt before, same⟩
  have fresh : ¬∃ id < allocated, ListNode.item allocated = .item id := by
    rintro ⟨id, before, same⟩
    exact before.ne (ListNode.item.inj same).symm
  refine ⟨{ places with
    listed := fun list node member => older (places.listed list node member)
    held := fun node member => older (places.held node member) }, ?_⟩
  exact ⟨Nat.lt_succ_self _, fun list member => fresh (places.listed list _ member),
    fun member => fresh (places.held _ member)⟩

/-- A loose item is put into the hands of a producer. -/
theorem hold (places : Places allocated hands contents)
    (loose : Loose allocated hands contents id) :
    Places allocated (hands ++ [.item id]) contents where
  listed := places.listed
  held := by
    intro node member
    rcases List.mem_append.mp member with member | member
    · exact places.held node member
    · exact ⟨id, loose.allocated, List.mem_singleton.mp member⟩
  apart := by
    intro list node member held
    rcases List.mem_append.mp held with held | held
    · exact places.apart list node member held
    · exact loose.unlisted list (List.mem_singleton.mp held ▸ member)
  separate := places.separate

/-- An item that leaves the hands of a producer is loose. -/
theorem letGo (places : Places allocated hands contents) (held : .item id ∈ hands) :
    Places allocated (hands.filter (· ≠ .item id)) contents ∧
      Loose allocated (hands.filter (· ≠ .item id)) contents id := by
  refine ⟨{ places with
    held := fun node member => places.held node (List.mem_of_mem_filter member)
    apart := fun list node member other =>
      places.apart list node member (List.mem_of_mem_filter other) }, ?_⟩
  obtain ⟨other, allocated, same⟩ := places.held _ held
  obtain rfl := ListNode.item.inj same
  exact ⟨allocated, fun list member => places.apart list _ member held, by simp⟩

/-- A loose item is put at the end of a list. -/
theorem put (places : Places allocated hands contents)
    (loose : Loose allocated hands contents id) (list : ListNode) :
    Places allocated hands (Function.update contents list (contents list ++ [.item id])) := by
  have within {l node : ListNode}
      (member : node ∈ Function.update contents list (contents list ++ [.item id]) l) :
      node ∈ contents l ∨ node = .item id ∧ l = list := by
    rw [Function.update_apply] at member
    split at member
    · next equal =>
        subst equal
        simpa using member
    · exact .inl member
  refine { places with listed := ?_, apart := ?_, separate := ?_ }
  · intro l node member
    rcases within member with member | ⟨rfl, -⟩
    · exact places.listed l node member
    · exact ⟨id, loose.allocated, rfl⟩
  · intro l node member held
    rcases within member with member | ⟨rfl, -⟩
    · exact places.apart l node member held
    · exact loose.unheld held
  · intro l l' differ node member member'
    rcases within member with member | ⟨rfl, rfl⟩
    · rcases within member' with member' | ⟨rfl, -⟩
      · exact places.separate l l' differ member member'
      · exact loose.unlisted l member
    · rcases within member' with member' | ⟨-, rfl⟩
      · exact loose.unlisted l' member'
      · exact differ rfl

/-- Items that are taken out of the lists leave the others where they are. -/
theorem mono (places : Places allocated hands contents)
    (fewer : ∀ list, contents' list ⊆ contents list) : Places allocated hands contents' where
  listed list node member := places.listed list node (fewer list member)
  held := places.held
  apart list node member := places.apart list node (fewer list member)
  separate list other differ := List.disjoint_of_subset_left (fewer list)
    (List.disjoint_of_subset_right (fewer other) (places.separate list other differ))

theorem fewer_update {list : ListNode} {xs : List ListNode} (part : xs ⊆ contents list)
    (other : ListNode) : Function.update contents list xs other ⊆ contents other := by
  rw [Function.update_apply]
  split
  · next same => rwa [same]
  · exact List.Subset.refl _

/-- The first item of a list is loose when it is taken out. -/
theorem take (places : Places allocated hands contents) {list x : ListNode} {xs : List ListNode}
    (split : contents list = x :: xs) (nodup : (contents list).Nodup) :
    ∃ id, x = .item id ∧ Places allocated hands (Function.update contents list xs) ∧
      Loose allocated hands (Function.update contents list xs) id := by
  have member : x ∈ contents list := by simp [split]
  obtain ⟨id, before, rfl⟩ := places.listed list x member
  refine ⟨id, rfl, places.mono (fewer_update (by simp [split])), before, fun other => ?_,
    places.apart list _ member⟩
  rw [Function.update_apply]
  split
  · rw [split] at nodup
    exact (List.nodup_cons.mp nodup).1
  · next differ => exact fun elsewhere => places.separate other list differ elsewhere member

/-- All items of one list are moved to another one, which is empty. -/
theorem move (places : Places allocated hands contents) {list other : ListNode}
    (differ : list ≠ other) :
    Places allocated hands
      (Function.update (Function.update contents list []) other (contents list)) := by
  have within {l node : ListNode}
      (member : node ∈ Function.update (Function.update contents list []) other
        (contents list) l) :
      l = other ∧ node ∈ contents list ∨ l ≠ other ∧ l ≠ list ∧ node ∈ contents l := by
    simp only [Function.update_apply] at member
    grind
  refine { places with listed := ?_, apart := ?_, separate := ?_ }
  · intro l node member
    rcases within member with ⟨-, member⟩ | ⟨-, -, member⟩ <;> exact places.listed _ node member
  · intro l node member
    rcases within member with ⟨-, member⟩ | ⟨-, -, member⟩ <;> exact places.apart _ node member
  · intro l l' apart node member member'
    rcases within member with ⟨rfl, mine⟩ | ⟨-, old, mine⟩ <;>
      rcases within member' with ⟨rfl, yours⟩ | ⟨-, old', yours⟩
    · exact apart rfl
    · exact places.separate list l' old'.symm mine yours
    · exact places.separate l list old mine yours
    · exact places.separate l l' apart mine yours

end Places

/-! ### What the lists show -/

/-- Where the iterator is, among the items of `tmp`. -/
def Program.At (tmp : List ListNode) : Program → Prop
  | .idle | .starting => tmp = []
  | .polling it => it = .tmp ∨ it ∈ tmp
  | .writing it _ => it ∈ tmp
  | .returning _ it => it = tmp.headD .tmp

/-- The lists have these items, of which the queued ones and the ones that have been taken over are
these submissions. -/
structure Shows (state : State) (contents : ListNode → List ListNode)
    (queued taken : List Submission) : Prop where
  linked : Linked state.program.live state.links contents
  running : state.stopped = none
  places : Places state.allocated state.hands contents
  ids : ∀ id, (state.data (.item id)).id = id
  queued : (contents .pending).map state.submission = queued.map some
  taken : (contents .tmp).map state.submission = taken.map some
  position : state.program.At (contents .tmp)

/-- The lists show the service. -/
def Refines (state : State) (service : EncoderService) : Prop :=
  ∃ contents queued taken, Shows state contents queued taken ∧
    state.service (contents .poolList) (contents .tmp) queued taken = service

variable {state : State} {contents : ListNode → List ListNode} {queued taken : List Submission}

/-- A change at a node that is not in a list. -/
theorem map_update {β : Type} (f : ListNode → β) {node : ListNode} {nodes : List ListNode}
    (absent : node ∉ nodes) (value : β) :
    nodes.map (Function.update f node value) = nodes.map f := by
  refine List.map_congr_left fun other member => Function.update_of_ne ?_ ..
  rintro rfl
  exact absent member

namespace Shows

/-- The data of an item that is in no list does not show. -/
theorem setData (shows : Shows state contents queued taken) {id : Nat}
    (unlisted : ∀ list, .item id ∉ contents list) (data : StreamPoll) (same : data.id = id) :
    Shows { state with data := Function.update state.data (.item id) data } contents
      queued taken := by
  have kept (list : ListNode) : (contents list).map
      ({ state with data := Function.update state.data (.item id) data } : State).submission =
        (contents list).map state.submission := by
    refine List.map_congr_left fun node member => ?_
    have other : node ≠ .item id := fun same => unlisted list (same ▸ member)
    simp [State.submission, other]
  refine { shows with ids := fun other => ?_, queued := ?_, taken := ?_ }
  · simp only [Function.update_apply]
    split
    · next equal => rw [same, ListNode.item.inj equal]
    · exact shows.ids other
  · rw [kept]
    exact shows.queued
  · rw [kept]
    exact shows.taken

theorem newItem (shows : Shows state contents queued taken) :
    Shows state.newItem contents queued taken := by
  have loose := shows.places.newItem.2
  have set := shows.setData loose.unlisted ⟨state.allocated, none, none, .blank⟩ rfl
  exact { set with
    linked := shows.linked.newItem loose.unlisted
    places := shows.places.newItem.1 }

end Shows

/-! ### The steps -/

/-- The state and the service take a step together, or neither does. -/
abbrev Agree : Option State → Option EncoderService → Prop := Option.Rel Refines

/-- A loose item that is handed to a producer with its pointers. -/
theorem Shows.handOut (shows : Shows state contents queued taken) {id : Nat}
    (loose : Loose state.allocated state.hands contents id) (codecCtx stream : Nat) :
    Refines (state.handOut (.item id) codecCtx stream)
      { state.service (contents .poolList) (contents .tmp) queued taken with
        hands := state.hands.map state.data ++
          [{ state.data (.item id) with codecCtx := some codecCtx, stream := some stream }] } := by
  have set := shows.setData loose.unlisted
    { state.data (.item id) with codecCtx := some codecCtx, stream := some stream }
    (shows.ids id)
  refine ⟨contents, queued, taken, { set with places := shows.places.hold loose }, ?_⟩
  simp only [State.service, State.handOut, map_update state.data (loose.unlisted _),
    map_update state.data loose.unheld, List.map_append, List.map_cons, List.map_nil,
    Function.update_self]

/-- A loose item is put into the pool. -/
theorem Shows.putPool (shows : Shows state contents queued taken) {id : Nat}
    (loose : Loose state.allocated state.hands contents id) :
    ∃ links, pushBack .poolList (.item id) state.links = .ok links ∧
      Shows { state with links }
        (Function.update contents .poolList (contents .poolList ++ [.item id])) queued taken := by
  obtain ⟨links, pushed, linked⟩ :=
    shows.linked.pushBack ⟨.poolList, .inl rfl⟩ loose.unlisted
  exact ⟨links, pushed, { shows with linked, places := shows.places.put loose .poolList }⟩

/-- `pool_.fill(1)`. -/
theorem Shows.fill (shows : Shows state contents queued taken) :
    Agree (some state.fill)
      ((state.service (contents .poolList) (contents .tmp) queued taken).step .fill) := by
  have loose := shows.places.newItem.2
  obtain ⟨links, pushed, shows'⟩ := shows.newItem.putPool loose
  rw [State.fill, pushed, State.attempt_ok]
  refine .some ⟨_, queued, taken, shows', ?_⟩
  have hands : state.hands.map state.newItem.data = state.hands.map state.data :=
    map_update state.data loose.unheld _
  have pool : (contents .poolList).map state.newItem.data =
      (contents .poolList).map state.data := map_update state.data (loose.unlisted _) _
  have tmp : Function.update contents .poolList
      (contents .poolList ++ [.item state.allocated]) .tmp = contents .tmp :=
    Function.update_of_ne (by simp) ..
  simp only [State.service, Function.update_self, List.map_append, List.map_cons, List.map_nil,
    tmp]
  congr 1
  exact congrArg₂ (· ++ ·) pool (congrArg (fun item => [item]) (Function.update_self ..))

/-- `prepare_frame` takes the first item of the pool, or a new one. -/
theorem Shows.prepareFrame (shows : Shows state contents queued taken) (codecCtx stream : Nat) :
    Agree (some (state.prepareFrame codecCtx stream))
      ((state.service (contents .poolList) (contents .tmp) queued taken).step
        (.prepareFrame codecCtx stream)) := by
  have pool := shows.linked.takeFirst
  refine .some ?_
  split at pool
  case h_1 split =>
    have loose := shows.places.newItem.2
    have handed := shows.newItem.handOut loose codecCtx stream
    rw [State.prepareFrame, pool, State.attempt_ok]
    convert handed using 1
    have hands : state.newItem.hands.map state.newItem.data = state.hands.map state.data :=
      map_update state.data loose.unheld _
    have new : state.newItem.data (.item state.allocated) =
      ⟨state.allocated, none, none, .blank⟩ := Function.update_self ..
    simp only [EncoderService.prepareFrame, EncoderService.poolItem, State.service, split,
      List.map_nil, hands, new]
    rfl
  case h_2 x xs split =>
    obtain ⟨links, first, linked⟩ := pool
    obtain ⟨id, rfl, places, loose⟩ :=
      shows.places.take split (shows.linked.nodup ⟨.poolList, .inl rfl⟩)
    rw [State.prepareFrame, first, State.attempt_ok]
    have taken' : Shows { state with links } (Function.update contents .poolList xs)
        queued taken :=
      { shows with linked, places }
    have reset := taken'.setData loose.unlisted (state.data (.item id)).reset
      (shows.ids id)
    have handed := reset.handOut loose codecCtx stream
    convert handed using 1
    have rest : .item id ∉ xs := by simpa using loose.unlisted .poolList
    simp only [EncoderService.prepareFrame, EncoderService.poolItem, State.service, split,
      List.map_cons, Function.update_self, List.tail_cons, map_update state.data rest,
      map_update state.data loose.unheld]
    rfl

/-- An item in the hands of a producer is known by its address. -/
theorem Shows.id_iff (shows : Shows state contents queued taken) (id : Nat) :
    ∀ node ∈ state.hands, ((state.data node).id = id ↔ node = .item id) := by
  intro node member
  obtain ⟨own, -, rfl⟩ := shows.places.held node member
  rw [shows.ids own, ListNode.item.injEq]

/-- `flush`, and the code which fills a frame. -/
theorem Shows.setFrame (shows : Shows state contents queued taken) (id : Nat)
    (frame : FrameSlot) :
    Refines (state.setFrame (.item id) frame)
      ((state.service (contents .poolList) (contents .tmp) queued taken).setFrame id frame) := by
  have known := shows.id_iff id
  unfold State.setFrame
  split
  case isTrue member =>
    have unlisted : ∀ list, .item id ∉ contents list :=
      fun list listed => shows.places.apart list _ listed member
    have set := shows.setData unlisted { state.data (.item id) with frame } (shows.ids id)
    refine ⟨contents, queued, taken, set, ?_⟩
    simp only [State.service, EncoderService.setFrame, map_update state.data (unlisted _),
      List.map_map]
    congr 1
    refine List.map_congr_left fun node held => ?_
    simp only [Function.update_apply, Function.comp_apply, known node held]
    split
    · next same => rw [same]
    · rfl
  case isFalse absent =>
    refine ⟨contents, queued, taken, shows, ?_⟩
    simp only [State.service, EncoderService.setFrame, List.map_map]
    congr 1
    refine List.map_congr_left fun node held => ?_
    rw [Function.comp_apply, if_neg]
    rw [known node held]
    rintro rfl
    exact absent held

/-- The item which a producer gives away. -/
theorem Shows.find_hands (shows : Shows state contents queued taken) (id : Nat) :
    (state.hands.map state.data).find? (·.id = id) =
      if .item id ∈ state.hands then some (state.data (.item id)) else none := by
  have known := shows.id_iff id
  generalize state.hands = nodes at known
  induction nodes with
  | nil => rfl
  | cons node nodes ih =>
      rw [List.map_cons, List.find?_cons]
      simp only [known node List.mem_cons_self,
        ih fun other member => known other (List.mem_cons_of_mem _ member), List.mem_cons]
      by_cases same : node = .item id
      · subst same
        simp
      · simp [same, Ne.symm same]

theorem Shows.filter_hands (shows : Shows state contents queued taken) (id : Nat) :
    (state.hands.map state.data).filter (·.id ≠ id) =
      (state.hands.filter (· ≠ .item id)).map state.data := by
  rw [List.filter_map]
  refine congrArg _ (List.filter_congr fun node member => ?_)
  simp only [Function.comp_apply, ne_eq, shows.id_iff id node member]

/-- A producer drops a frame. -/
theorem Shows.dropFrame (shows : Shows state contents queued taken) (id : Nat) :
    Agree (state.step (.dropFrame id))
      ((state.service (contents .poolList) (contents .tmp) queued taken).step (.dropFrame id)) := by
  have find := shows.find_hands id
  simp only [State.step, shows.running, EncoderService.step, State.service, find]
  by_cases held : .item id ∈ state.hands
  · obtain ⟨places, loose⟩ := shows.places.letGo held
    have dropped : Shows { state with hands := state.hands.filter (· ≠ .item id) } contents
        queued taken := { shows with places }
    obtain ⟨links, pushed, shows'⟩ := dropped.putPool loose
    simp only [held, if_true, State.release, pushed, State.attempt_ok]
    refine .some ⟨_, queued, taken, shows', ?_⟩
    simp only [State.service, shows.filter_hands id, Function.update_self, List.map_append,
      List.map_cons, List.map_nil]
    rfl
  · simp only [held, if_false]
    exact .none

/-- The call which has queued an item does not show while the item is not queued. -/
theorem Shows.setNumber (shows : Shows state contents queued taken) {id : Nat}
    (unlisted : ∀ list, .item id ∉ contents list) (number : Nat) :
    Shows { state with number := Function.update state.number (.item id) number } contents
      queued taken := by
  have kept (list : ListNode) : (contents list).map
      ({ state with number := Function.update state.number (.item id) number } :
        State).submission = (contents list).map state.submission := by
    refine List.map_congr_left fun node member => ?_
    have other : node ≠ .item id := fun same => unlisted list (same ▸ member)
    simp [State.submission, other]
  refine { shows with queued := ?_, taken := ?_ }
  · rw [kept]
    exact shows.queued
  · rw [kept]
    exact shows.taken

/-- A loose item whose pointers are set is queued. -/
theorem Shows.putPending (shows : Shows state contents queued taken) {id : Nat}
    (loose : Loose state.allocated state.hands contents id) (submission : Submission)
    (same : state.submission (.item id) = some submission) :
    ∃ links, pushBack .pending (.item id) state.links = .ok links ∧
      Shows { state with links }
        (Function.update contents .pending (contents .pending ++ [.item id]))
        (queued ++ [submission]) taken := by
  obtain ⟨links, pushed, linked⟩ :=
    shows.linked.pushBack ⟨.pending, .inr (.inl rfl)⟩ loose.unlisted
  refine ⟨links, pushed, { shows with
    linked, places := shows.places.put loose .pending, queued := ?_ }⟩
  rw [Function.update_self, List.map_append, List.map_append]
  exact congrArg₂ (· ++ ·) shows.queued (congrArg (fun value => [value]) same)

/-- The locked section of `write_frame`. -/
theorem Shows.writeFrame (shows : Shows state contents queued taken) (id : Nat)
    (response : SendResponse) :
    Agree (state.step (.writeFrame id response))
      ((state.service (contents .poolList) (contents .tmp) queued taken).step
        (.writeFrame id response)) := by
  have find := shows.find_hands id
  simp only [State.step, shows.running, EncoderService.step, State.service, find]
  by_cases held : .item id ∈ state.hands
  · simp only [held, if_true, Option.isSome_none, Bool.false_eq_true, if_false]
    cases codec : (state.data (.item id)).codecCtx with
    | none => exact .none
    | some codecCtx =>
      cases target : (state.data (.item id)).stream with
      | none => exact .none
      | some stream =>
        obtain ⟨places, loose⟩ := shows.places.letGo held
        have unlisted : ∀ list, .item id ∉ contents list := loose.unlisted
        have numbered := shows.setNumber unlisted state.submitted.length
        have sent : Shows
            { state with
              codecs := Function.update state.codecs codecCtx
                ((state.codecs codecCtx).sendFrame state.submitted.length response)
              submitted := state.submitted ++ [codecCtx]
              number := Function.update state.number (.item id) state.submitted.length
              hands := state.hands.filter (· ≠ .item id) } contents queued taken :=
          { numbered with places }
        obtain ⟨links, pushed, shows'⟩ := sent.putPending loose
          ⟨id, codecCtx, stream, (state.data (.item id)).frame, state.submitted.length⟩
          (by simp [State.submission, codec, target, shows.ids])
        simp only [State.writeFrame, State.release, pushed, State.attempt_ok]
        refine .some ⟨_, _, taken, shows', ?_⟩
        simp only [State.service, EncoderService.writeFrame, shows.ids id, shows.filter_hands id]
        rfl
  · simp only [held, if_false]
    exact .none

/-- The lists are not longer than the number of items. -/
theorem Shows.length_le (shows : Shows state contents queued taken)
    (list : Sentinel state.program.live) : (contents list.val).length ≤ state.allocated := by
  have within : contents list.val ⊆ (List.range state.allocated).map ListNode.item := by
    intro node member
    obtain ⟨id, before, rfl⟩ := shows.places.listed list.val node member
    exact List.mem_map_of_mem (List.mem_range.mpr before)
  simpa using ((shows.linked.nodup list).subperm within).length_le

theorem Shows.sentinel_notMem (shows : Shows state contents queued taken) (list : ListNode) :
    .tmp ∉ contents list := by
  intro member
  obtain ⟨id, -, same⟩ := shows.places.listed list _ member
  cases same

theorem idxOf_headD {tmp : List ListNode} (node : ListNode) : tmp.idxOf (tmp.headD node) = 0 := by
  cases tmp <;> simp

@[simp]
theorem Program.phase_eq_idle {tmp : List ListNode} {program : Program} :
    program.phase tmp = .idle ↔ program = .idle := by
  cases program <;> simp [Program.phase]

@[simp]
theorem Program.phase_eq_starting {tmp : List ListNode} {program : Program} :
    program.phase tmp = .starting ↔ program = .starting := by
  cases program <;> simp [Program.phase]

/-- The locked splice. -/
theorem Shows.takePending (shows : Shows state contents queued taken) :
    Agree (state.step .takePending)
      ((state.service (contents .poolList) (contents .tmp) queued taken).step .takePending) := by
  simp only [State.step, shows.running, EncoderService.step, State.service,
    Program.phase_eq_starting]
  by_cases program : state.program = .starting
  · have linked := shows.linked
    rw [program] at linked
    have empty : contents .tmp = [] := by simpa [program, Program.At] using shows.position
    have enough : (contents .pending).length < state.fuel :=
      Nat.lt_succ_of_le (shows.length_le ⟨.pending, .inr (.inl rfl)⟩)
    obtain ⟨links, spliced, linked'⟩ := linked.spliceLists empty shows.sentinel_notMem enough
    simp only [program, if_true, spliced, State.attempt_ok]
    refine .some ⟨_, [], queued, { shows with
      linked := linked', running := rfl, places := shows.places.move (by simp), queued := ?_,
      taken := ?_, position := ?_ }, ?_⟩
    · simp
    · rw [Function.update_self]
      exact shows.queued
    · rw [Function.update_self]
      cases contents .pending <;> simp [Program.At]
    · simp only [State.service, Program.phase, Function.update_self, idxOf_headD]
      rfl
  · simp only [program, if_false]
    exact .none

/-- The submission of the item at the iterator. -/
theorem Shows.at_item (shows : Shows state contents queued taken) {it : ListNode}
    (member : it ∈ contents .tmp) :
    ∃ submission, taken[(contents .tmp).idxOf it]? = some submission ∧
      state.submission it = some submission := by
  have here := congrArg (·[(contents .tmp).idxOf it]?) shows.taken
  simp only [List.getElem?_map, List.getElem?_idxOf member, Option.map_some] at here
  obtain ⟨submission, there, same⟩ := Option.map_eq_some_iff.mp here.symm
  exact ⟨submission, there, same.symm⟩

theorem Shows.at_end (shows : Shows state contents queued taken) :
    taken.length ≤ (contents .tmp).idxOf .tmp ∧ taken[(contents .tmp).idxOf .tmp]? = none := by
  have length := congrArg List.length shows.taken
  simp only [List.length_map] at length
  rw [List.idxOf_eq_length (shows.sentinel_notMem .tmp), length]
  simp

theorem submission_eq_some {node : ListNode} {submission : Submission} :
    state.submission node = some submission ↔
      (state.data node).id = submission.id ∧ (state.data node).codecCtx = some submission.codecCtx ∧
        (state.data node).stream = some submission.stream ∧
        (state.data node).frame = submission.frame ∧ state.number node = submission.number := by
  obtain ⟨id, codecCtx, stream, frame, number⟩ := submission
  simp only [State.submission]
  grind

/-- The guard starts with the first item of `tmp`. -/
theorem Shows.unwind (shows : Shows state contents queued taken)
    (live : state.program.live = true) (threw : Bool) :
    Refines (state.unwind threw)
      { state.service (contents .poolList) (contents .tmp) queued taken with
        phase := .returning threw } := by
  have linked := shows.linked
  rw [live] at linked
  rw [State.unwind, linked.next_sentinel ⟨.tmp, by simp⟩, deref_some, State.attempt_ok]
  exact ⟨contents, queued, taken, { shows with linked, position := rfl }, rfl⟩

/-- A position of the loop, as it is seen from both sides. -/
theorem Shows.polling (shows : Shows state contents queued taken) {it : ListNode}
    (program : state.program = .polling it) :
    it = .tmp ∧ taken[(contents .tmp).idxOf it]? = none ∨
      it ≠ .tmp ∧ it ∈ contents .tmp ∧
        ∃ submission, taken[(contents .tmp).idxOf it]? = some submission ∧
          state.submission it = some submission := by
  have position := shows.position
  rw [program] at position
  rcases position with rfl | member
  · exact .inl ⟨rfl, shows.at_end.2⟩
  · refine .inr ⟨?_, member, shows.at_item member⟩
    rintro rfl
    exact shows.sentinel_notMem .tmp member

/-- The iterator is moved to the next item. -/
theorem Shows.next (shows : Shows state contents queued taken)
    (live : state.program.live = true) {it : ListNode} (member : it ∈ contents .tmp) :
    ∃ next, state.links.next it = some next ∧ (next = .tmp ∨ next ∈ contents .tmp) ∧
      (contents .tmp).idxOf next = (contents .tmp).idxOf it + 1 := by
  have linked := shows.linked
  rw [live] at linked
  have nodup := linked.nodup ⟨.tmp, by simp⟩
  have absent := shows.sentinel_notMem .tmp
  obtain ⟨us, vs, split, front⟩ := List.eq_append_cons_of_mem member
  refine ⟨_, linked.next_item ⟨.tmp, by simp⟩ split, ?_, ?_⟩
  · rw [split]
    cases vs <;> simp
  · simp only [split] at nodup absent ⊢
    rw [List.idxOf_append_of_notMem front, List.idxOf_cons_self]
    cases vs with
    | nil => rw [List.headD_nil, List.idxOf_eq_length absent]; simp
    | cons v vs =>
        have later : v ∉ us ∧ it ≠ v := by grind
        rw [List.headD_cons, List.idxOf_append_of_notMem later.1,
          List.idxOf_cons_ne _ later.2, List.idxOf_cons_self]

/-- `avcodec_receive_packet`, and the branches on its response. -/
theorem Shows.receivePacket (shows : Shows state contents queued taken)
    (response : ReceiveResponse) :
    Agree (state.step (.receivePacket response))
      ((state.service (contents .poolList) (contents .tmp) queued taken).step
        (.receivePacket response)) := by
  cases program : state.program with
  | polling it =>
      have live : state.program.live = true := by rw [program]; rfl
      rcases shows.polling program with ⟨rfl, ends⟩ | ⟨other, member, submission, here, same⟩
      · simp only [State.step, shows.running, program, EncoderService.step, State.service,
          Program.phase, ends]
        exact .none
      · obtain ⟨-, codec, -, -, number⟩ := submission_eq_some.mp same
        simp only [State.step, shows.running, program, EncoderService.step, State.service,
          Program.phase, here, other, codec]
        cases response with
        | packet retires =>
            simp only [State.receivePacket, EncoderService.receivePacket]
            cases (state.codecs submission.codecCtx).output.inside with
            | nil => exact .none
            | cons packet rest =>
              by_cases holds : retires ≤ (state.codecs submission.codecCtx).held
              · have linked := shows.linked
                rw [live] at linked
                simp only [holds, if_true]
                exact .some ⟨contents, queued, taken,
                  { shows with linked, position := member }, rfl⟩
              · simp only [holds, if_false]
                exact .none
        | drained =>
            simp only [State.receivePacket, EncoderService.receivePacket]
            by_cases drained : (state.codecs submission.codecCtx).output.inside = []
            · have linked := shows.linked
              rw [live] at linked
              obtain ⟨next, follows, behind, index⟩ := shows.next live member
              simp only [drained, if_true, follows, deref_some, State.attempt_ok]
              refine .some ⟨contents, queued, taken,
                { shows with linked, position := behind }, ?_⟩
              simp only [State.service, Program.phase, index, number]
            · simp only [drained, if_false]
              exact .none
        | failed => exact .some (shows.unwind live true)
  | _ =>
      simp only [State.step, shows.running, program, EncoderService.step, State.service,
        Program.phase]
      exact .none

/-- `av_interleaved_write_frame`. -/
theorem Shows.writePacket (shows : Shows state contents queued taken) (succeeds : Bool) :
    Agree (state.step (.writePacket succeeds))
      ((state.service (contents .poolList) (contents .tmp) queued taken).step
        (.writePacket succeeds)) := by
  cases program : state.program with
  | writing it packet =>
      have live : state.program.live = true := by rw [program]; rfl
      have member : it ∈ contents .tmp := by simpa [program, Program.At] using shows.position
      obtain ⟨submission, here, same⟩ := shows.at_item member
      obtain ⟨-, codec, stream, -, -⟩ := submission_eq_some.mp same
      simp only [State.step, shows.running, program, EncoderService.step, State.service,
        Program.phase, here, codec, stream]
      cases succeeds with
      | true =>
          have linked := shows.linked
          rw [live] at linked
          exact .some ⟨contents, queued, taken,
            { shows with linked, position := .inr member }, rfl⟩
      | false => exact .some (shows.unwind live true)
  | _ =>
      simp only [State.step, shows.running, program, EncoderService.step, State.service,
        Program.phase]
      exact .none

/-- The loop has come to its end. -/
theorem Shows.finishLoop (shows : Shows state contents queued taken) :
    Agree (state.step .finishLoop)
      ((state.service (contents .poolList) (contents .tmp) queued taken).step .finishLoop) := by
  cases program : state.program with
  | polling it =>
      have live : state.program.live = true := by rw [program]; rfl
      rcases shows.polling program with ⟨rfl, -⟩ | ⟨other, -, submission, here, -⟩
      · have unwound := shows.unwind live false
        simp only [State.step, shows.running, program, EncoderService.step, State.service,
          Program.phase, shows.at_end.1, if_true]
        exact .some unwound
      · have before : ¬taken.length ≤ (contents .tmp).idxOf it := by
          rw [Nat.not_le]
          exact (List.getElem?_eq_some_iff.mp here).1
        simp only [State.step, shows.running, program, EncoderService.step, State.service,
          Program.phase, other, before, if_false]
        exact .none
  | _ =>
      simp only [State.step, shows.running, program, EncoderService.step, State.service,
        Program.phase]
      exact .none

/-- A round of the guard. -/
theorem Shows.returnItem (shows : Shows state contents queued taken) :
    Agree (state.step .returnItem)
      ((state.service (contents .poolList) (contents .tmp) queued taken).step .returnItem) := by
  cases program : state.program with
  | returning threw it =>
      have linked := shows.linked
      have first : it = (contents .tmp).headD .tmp := by
        simpa only [program, Program.At] using shows.position
      have matching := shows.taken
      simp only [State.step, shows.running, program, EncoderService.step, State.service,
        Program.phase]
      cases split : contents .tmp with
      | nil =>
          rw [split] at first matching
          obtain rfl : taken = [] := by simpa using matching.symm
          subst first
          exact .none
      | cons x xs =>
          rw [split] at first matching
          obtain rfl : it = x := first
          rw [program] at linked
          change Linked true state.links contents at linked
          obtain ⟨id, rfl, places, loose⟩ :=
            shows.places.take split (linked.nodup ⟨.tmp, by simp⟩)
          cases taken with
          | nil => simp at matching
          | cons submission rest =>
            obtain ⟨same, later⟩ := List.cons.inj matching
            obtain ⟨own, codec, stream, frame, -⟩ := submission_eq_some.mp same
            have item : state.data (.item id) = submission.item := by
              rw [Submission.item, ← own, ← codec, ← stream, ← frame]
            obtain ⟨links, returned, linked'⟩ := linked.returnItem split fun list other member =>
              loose.unlisted list (by rwa [Function.update_of_ne other])
            have places' := places.put loose .poolList
            rw [Function.update_of_ne (by simp)] at places'
            simp only [returned, State.attempt_ok]
            refine .some ⟨_, queued, rest, { shows with
              linked := linked', running := rfl, places := places', queued := ?_, taken := ?_,
              position := ?_ }, ?_⟩
            · rw [Function.update_of_ne (by simp), Function.update_of_ne (by simp)]
              exact shows.queued
            · rw [Function.update_of_ne (by simp), Function.update_self]
              exact later
            · simp [Program.At]
            · simp [State.service, Program.phase, item]
  | _ =>
      simp only [State.step, shows.running, program, EncoderService.step, State.service,
        Program.phase]
      exact .none

/-- The end of `dispatch`. -/
theorem Shows.endDispatch (shows : Shows state contents queued taken) :
    Agree (state.step .endDispatch)
      ((state.service (contents .poolList) (contents .tmp) queued taken).step .endDispatch) := by
  cases program : state.program with
  | returning threw it =>
      have linked := shows.linked.drop
      have first : it = (contents .tmp).headD .tmp := by
        simpa only [program, Program.At] using shows.position
      have length := congrArg List.length shows.taken
      simp only [List.length_map] at length
      simp only [State.step, shows.running, program, EncoderService.step, State.service,
        Program.phase]
      cases split : contents .tmp with
      | nil =>
          rw [split] at first length
          obtain rfl : taken = [] := List.length_eq_zero_iff.mp length.symm
          subst first
          simp only [if_true]
          refine .some ?_
          unfold State.leaveDispatch
          split
          case isTrue closing =>
            cases threw with
            | true =>
                refine ⟨contents, queued, [], { shows with linked, position := split }, ?_⟩
                simp [State.service, EncoderService.leaveDispatch, closing, Program.phase]
            | false =>
                have enough : (contents .poolList).length < state.fuel :=
                  Nat.lt_succ_of_le (shows.length_le ⟨.poolList, .inl rfl⟩)
                obtain ⟨links, cleared, linked'⟩ := linked.clear enough
                simp only [Bool.false_eq_true, if_false, cleared, State.attempt_ok]
                refine ⟨_, queued, [], { shows with
                  linked := linked', places := shows.places.mono (Places.fewer_update (by simp)),
                  queued := ?_, taken := ?_, position := ?_ }, ?_⟩
                · rw [Function.update_of_ne (by simp)]
                  exact shows.queued
                · rw [Function.update_of_ne (by simp)]
                  exact shows.taken
                · simpa [Program.At] using split
                · simp [State.service, EncoderService.leaveDispatch, closing, Program.phase]
          case isFalse open_ =>
            refine ⟨contents, queued, [], { shows with linked, position := split }, ?_⟩
            simp [State.service, EncoderService.leaveDispatch, open_, Program.phase]
      | cons x xs =>
          obtain ⟨id, -, rfl⟩ := shows.places.listed .tmp x (by simp [split])
          have nonempty : taken ≠ [] := by
            rintro rfl
            simp [split] at length
          rw [split] at first
          subst first
          simp only [List.headD_cons, reduceCtorEq, nonempty, if_false]
          exact .none
  | _ =>
      simp only [State.step, shows.running, program, EncoderService.step, State.service,
        Program.phase]
      exact .none

theorem Shows.beginDispatch (shows : Shows state contents queued taken) (lifecycle : Lifecycle) :
    Agree
      (if state.program = .idle ∧ state.lifecycle = .active then
        some { state with program := .starting, lifecycle }
      else none)
      (if state.program.phase (contents .tmp) = .idle ∧ state.lifecycle = .active then
        some
          { state.service (contents .poolList) (contents .tmp) queued taken with
            phase := .starting
            lifecycle }
      else none) := by
  simp only [Program.phase_eq_idle]
  by_cases ready : state.program = .idle ∧ state.lifecycle = .active
  · rw [if_pos ready, if_pos ready]
    refine .some ⟨contents, queued, taken, { shows with
      linked := shows.linked.drop, position := ?_ }, rfl⟩
    simpa [ready.1, Program.At] using shows.position
  · rw [if_neg ready, if_neg ready]
    exact .none

/-- Every step is one of the service's. -/
theorem Shows.step (shows : Shows state contents queued taken) (label : EncoderService.Label) :
    Agree (state.step label)
      ((state.service (contents .poolList) (contents .tmp) queued taken).step label) := by
  have running : ¬state.stopped.isSome = true := by simp [shows.running]
  cases label with
  | fill =>
      rw [State.step, if_neg running]
      exact shows.fill
  | prepareFrame codecCtx stream =>
      rw [State.step, if_neg running]
      exact shows.prepareFrame codecCtx stream
  | fillFrame id =>
      rw [State.step, if_neg running]
      exact .some (shows.setFrame id .filled)
  | resetFrame id =>
      rw [State.step, if_neg running]
      exact .some (shows.setFrame id .null)
  | dropFrame id => exact shows.dropFrame id
  | writeFrame id response => exact shows.writeFrame id response
  | beginDispatch =>
      rw [State.step, if_neg running]
      exact shows.beginDispatch state.lifecycle
  | takePending => exact shows.takePending
  | receivePacket response => exact shows.receivePacket response
  | writePacket succeeds => exact shows.writePacket succeeds
  | finishLoop => exact shows.finishLoop
  | returnItem => exact shows.returnItem
  | endDispatch => exact shows.endDispatch
  | beginUninit =>
      rw [State.step, if_neg running]
      exact shows.beginDispatch .closing

theorem run_agree (labels : List EncoderService.Label) {state : State} {service : EncoderService}
    (refines : Refines state service) :
    Agree (machine.run labels state) (EncoderService.machine.run labels service) := by
  induction labels generalizing state service with
  | nil => exact .some refines
  | cons label labels ih =>
      obtain ⟨contents, queued, taken, shows, rfl⟩ := refines
      have step := shows.step label
      simp only [Machine.run, machine, EncoderService.machine]
      revert step
      generalize state.step label = after
      generalize EncoderService.step _ label = after'
      rintro (step | -)
      · exact ih step
      · exact .none

theorem initial_refines : Refines initial .initial := by
  refine ⟨fun _ => [], [], [], ⟨?_, rfl, ?_, fun _ => rfl, rfl, rfl, rfl⟩, rfl⟩
  · refine Heap.rings_of_linked Subtype.val_injective ?_
    rintro ⟨list, rfl | rfl | ⟨-, live⟩⟩
    · simp [initial, construct, Heap.Linked]
    · simp [initial, construct, Heap.Linked]
    · cases live
  · exact ⟨by simp, by simp [initial], by simp, by simp⟩

/-! ### The service which the lists show -/

theorem mapM_of_map {β γ : Type} {f : β → Option γ} {xs : List β} {ys : List γ}
    (all : xs.map f = ys.map some) : xs.mapM f = some ys := by
  induction xs generalizing ys with
  | nil =>
      obtain rfl : ys = [] := by simpa using all.symm
      rfl
  | cons x xs ih =>
      cases ys with
      | nil => simp at all
      | cons y ys =>
          obtain ⟨first, rest⟩ := List.cons.inj all
          simp [List.mapM_cons, first, ih rest]

theorem Shows.items (shows : Shows state contents queued taken)
    (list : Sentinel state.program.live) : state.items list.val = some (contents list.val) := by
  have enough : (contents list.val).length < state.fuel := Nat.lt_succ_of_le (shows.length_le list)
  obtain ⟨forward, backward⟩ := (shows.linked.ring list).around enough
  simp [State.items, forward, backward]

/-- The service can be read off the lists. -/
theorem Refines.view {service : EncoderService} (refines : Refines state service) :
    state.view = some service := by
  obtain ⟨contents, queued, taken, shows, rfl⟩ := refines
  have tmp : state.tmpItems = some (contents .tmp) := by
    unfold State.tmpItems
    split
    case isTrue live => exact shows.items ⟨.tmp, by simp [live]⟩
    case isFalse off =>
      have position := shows.position
      cases program : state.program <;> simp_all [Program.live, Program.At]
  have pool := shows.items ⟨.poolList, .inl rfl⟩
  have pending := shows.items ⟨.pending, .inr (.inl rfl)⟩
  simp [State.view, shows.running, pool, pending, tmp, mapM_of_map shows.queued,
    mapM_of_map shows.taken]

/-- In every run, whatever the threads and the codecs do, no list operation fails or goes on for
ever, and the lists show the service that the same run leads to on sequences. -/
theorem view_run (labels : List EncoderService.Label) :
    (machine.run labels initial).map State.view =
      (EncoderService.machine.run labels .initial).map some := by
  have agree := run_agree labels initial_refines
  revert agree
  generalize machine.run labels initial = final
  generalize EncoderService.machine.run labels .initial = final'
  rintro (refines | -)
  · simp [refines.view]
  · rfl

end EncoderLists
end ShadowCast
