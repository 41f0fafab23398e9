import ShadowCast.DispatchFrame
import Mathlib.Data.List.Sigma

/-!
# The properties of a plane

The kernel lists the properties of a plane in an order of its own.  The position on the screen and
the position in the source are both properties, and which of them a descriptor shows depends on the
type of the plane, which is a third one.

Each property that counts is an assignment to one of seven places, and no two properties have the
same name.  So the loop only collects the values, and the order they come in is lost.
-/

namespace ShadowCast
namespace Drm

/-- A value of an enumeration, with its name. -/
structure PropertyEnum where
  value : UInt64
  name : String
  deriving DecidableEq, Repr

/-- What `drmModeGetProperty` returns. -/
structure Property where
  flags : UInt32
  name : String
  enums : List PropertyEnum
  deriving DecidableEq, Repr

/-- A property of an object: the outcome of its look-up, which may fail, and its value. -/
structure ObjectProperty where
  prop : Option Property
  value : UInt64
  deriving DecidableEq, Repr

/-- `DRM_MODE_PROP_RANGE`. -/
def propRange : UInt32 := 0x02

/-- `DRM_MODE_PROP_ENUM`. -/
def propEnum : UInt32 := 0x08

/-- `DRM_MODE_PROP_SIGNED_RANGE`. -/
def propSignedRange : UInt32 := 0x80

/-- `DRM_MODE_PROP_LEGACY_TYPE`: range, enumeration, blob and bit mask. -/
def propLegacyType : UInt32 := propRange ||| propEnum ||| 0x10 ||| 0x20

/-- `DRM_MODE_PROP_EXTENDED_TYPE`. -/
def propExtendedType : UInt32 := 0x0000ffc0

/-- The bits of the flags which stand for the type. -/
def Property.type (prop : Property) : UInt32 :=
  prop.flags &&& (propLegacyType ||| propExtendedType)

/-- The property has one of the types and the name. -/
def Property.Matches (prop : Property) (type : UInt32) (name : String) : Prop :=
  prop.type &&& type ≠ 0 ∧ prop.name = name

instance (prop : Property) (type : UInt32) (name : String) : Decidable (prop.Matches type name) :=
  inferInstanceAs (Decidable (_ ∧ _))

/-- The conversion of a `uint64_t` to an `int`. -/
def toInt (value : UInt64) : Int := value.toUInt32.toInt32.toInt

/-- `set_flag`. -/
def PlaneDescriptor.setFlag (descriptor : PlaneDescriptor) (flag : UInt32) : PlaneDescriptor :=
  { descriptor with flags := descriptor.flags ||| flag }

/-- The search for the current value among the values of the property `type`. -/
def searchCursor (current : UInt64) (descriptor : PlaneDescriptor) :
    List PropertyEnum → PlaneDescriptor
  | [] => descriptor
  | entry :: entries =>
      if entry.value = current ∧ entry.name = "Cursor" then descriptor.setFlag isCursor
      else searchCursor current descriptor entries

/-- The variables of the loop: the descriptor, and the position on the screen. -/
structure PlaneLoop where
  descriptor : PlaneDescriptor
  x : Int
  y : Int
  deriving DecidableEq, Repr

/-- The body of the loop. -/
def PlaneLoop.visit (loop : PlaneLoop) (property : ObjectProperty) : PlaneLoop :=
  match property.prop with
  | none => loop
  | some prop =>
      if prop.Matches propSignedRange "CRTC_X" then
        { loop with x := toInt property.value }
      else if prop.Matches propSignedRange "CRTC_Y" then
        { loop with y := toInt property.value }
      else if prop.Matches propRange "SRC_X" then
        { loop with descriptor := { loop.descriptor with x := toInt (property.value >>> 16) } }
      else if prop.Matches propRange "SRC_Y" then
        { loop with descriptor := { loop.descriptor with y := toInt (property.value >>> 16) } }
      else if prop.Matches propRange "SRC_W" then
        { loop with descriptor := { loop.descriptor with srcW := toInt (property.value >>> 16) } }
      else if prop.Matches propRange "SRC_H" then
        { loop with descriptor := { loop.descriptor with srcH := toInt (property.value >>> 16) } }
      else if prop.Matches propEnum "type" then
        { loop with descriptor := searchCursor property.value loop.descriptor prop.enums }
      else loop

/-- `get_plane_properties`, given what `drmModeObjectGetProperties` returns. -/
def getPlaneProperties (props : Option (List ObjectProperty)) (descriptor : PlaneDescriptor) :
    Except String PlaneDescriptor :=
  match props with
  | none => .error "drmModeObjectGetProperties failed"
  | some props =>
      let loop := props.foldl PlaneLoop.visit { descriptor, x := 0, y := 0 }
      if loop.descriptor.isFlagSet isCursor then
        .ok { loop.descriptor with x := loop.x, y := loop.y }
      else .ok loop.descriptor

/-! ### Places -/

/-- Where the value of a property goes. -/
inductive Place where
  | crtcX
  | crtcY
  | srcX
  | srcY
  | srcW
  | srcH
  | cursor
  deriving DecidableEq, Repr

/-- The type a property must have to go to the place. -/
def Place.type : Place → UInt32
  | .crtcX | .crtcY => propSignedRange
  | .srcX | .srcY | .srcW | .srcH => propRange
  | .cursor => propEnum

/-- The name a property must have to go to the place. -/
def Place.name : Place → String
  | .crtcX => "CRTC_X"
  | .crtcY => "CRTC_Y"
  | .srcX => "SRC_X"
  | .srcY => "SRC_Y"
  | .srcW => "SRC_W"
  | .srcH => "SRC_H"
  | .cursor => "type"

/-- The current value of an enumeration is called `Cursor`. -/
def Property.NamesCursor (prop : Property) (current : UInt64) : Prop :=
  ∃ entry ∈ prop.enums, entry.value = current ∧ entry.name = "Cursor"

instance (prop : Property) (current : UInt64) : Decidable (prop.NamesCursor current) :=
  inferInstanceAs (Decidable (∃ entry ∈ prop.enums, entry.value = current ∧ entry.name = "Cursor"))

/-- The property is found and has the type and the name of the place. -/
def ObjectProperty.GoesTo (property : ObjectProperty) (place : Place) : Prop :=
  ∃ prop ∈ property.prop, prop.Matches place.type place.name

instance (property : ObjectProperty) (place : Place) : Decidable (property.GoesTo place) :=
  inferInstanceAs (Decidable (∃ prop ∈ property.prop, prop.Matches place.type place.name))

/-- The property is found and its value is called `Cursor`. -/
def ObjectProperty.NamesCursor (property : ObjectProperty) : Prop :=
  ∃ prop ∈ property.prop, prop.NamesCursor property.value

instance (property : ObjectProperty) : Decidable property.NamesCursor :=
  inferInstanceAs (Decidable (∃ prop ∈ property.prop, prop.NamesCursor property.value))

/-- No two properties that are found have the same name. -/
def DistinctNames (props : List ObjectProperty) : Prop :=
  ((props.filterMap ObjectProperty.prop).map Property.name).Nodup

instance (props : List ObjectProperty) : Decidable (DistinctNames props) :=
  inferInstanceAs (Decidable (List.Nodup _))

/-- The property of the given type and name. -/
def propertyAt (props : List ObjectProperty) (place : Place) : Option ObjectProperty :=
  props.find? fun property => property.GoesTo place

/-- The type of the plane is `Cursor`. -/
def IsCursorPlane (props : List ObjectProperty) : Prop :=
  ∃ property ∈ propertyAt props .cursor, property.NamesCursor

instance (props : List ObjectProperty) : Decidable (IsCursorPlane props) :=
  inferInstanceAs (Decidable (∃ property ∈ propertyAt props .cursor, property.NamesCursor))

/-- A position on the screen, which is a whole number. -/
def ObjectProperty.screen (property : ObjectProperty) : Int := toInt property.value

/-- A position in the source, whose last sixteen bits are a fraction. -/
def ObjectProperty.source (property : ObjectProperty) : Int := toInt (property.value >>> 16)

/-- The descriptor the properties describe, beyond what it holds already. -/
def described (props : List ObjectProperty) (descriptor : PlaneDescriptor) : PlaneDescriptor :=
  { descriptor with
    flags := if IsCursorPlane props then descriptor.flags ||| isCursor else descriptor.flags
    x :=
      if IsCursorPlane props then (propertyAt props .crtcX).elim 0 ObjectProperty.screen
      else (propertyAt props .srcX).elim descriptor.x ObjectProperty.source
    y :=
      if IsCursorPlane props then (propertyAt props .crtcY).elim 0 ObjectProperty.screen
      else (propertyAt props .srcY).elim descriptor.y ObjectProperty.source
    srcW := (propertyAt props .srcW).elim descriptor.srcW ObjectProperty.source
    srcH := (propertyAt props .srcH).elim descriptor.srcH ObjectProperty.source }

/-! ### Where a property goes -/

/-- The places, in the order the loop compares with them. -/
def places : List Place := [.crtcX, .crtcY, .srcX, .srcY, .srcW, .srcH, .cursor]

/-- Where the property goes. -/
def ObjectProperty.place (property : ObjectProperty) : Option Place :=
  places.find? fun place => property.GoesTo place

theorem name_injective {place other : Place} (same : place.name = other.name) : place = other := by
  cases place <;> cases other <;> first | rfl | exact absurd same (by decide)

/-- A property goes to one place at most, since the names of the places differ. -/
theorem place_eq_some_iff (property : ObjectProperty) (place : Place) :
    property.place = some place ↔ property.GoesTo place := by
  constructor
  · intro found
    simpa using List.find?_some found
  · intro goes
    have total : place ∈ places := by
      cases place <;> decide
    have some_place : property.place.isSome :=
      List.find?_isSome.mpr ⟨place, total, by simpa using goes⟩
    obtain ⟨other, found⟩ := Option.isSome_iff_exists.mp some_place
    obtain ⟨prop, present, -, named⟩ : property.GoesTo other := by
      simpa using List.find?_some found
    obtain ⟨prop', present', -, named'⟩ := goes
    cases present.symm.trans present'
    rw [found, name_injective (named.symm.trans named')]

/-- An assignment of the loop. -/
def PlaneLoop.assign (loop : PlaneLoop) (property : ObjectProperty) : Place → PlaneLoop
  | .crtcX => { loop with x := property.screen }
  | .crtcY => { loop with y := property.screen }
  | .srcX => { loop with descriptor := { loop.descriptor with x := property.source } }
  | .srcY => { loop with descriptor := { loop.descriptor with y := property.source } }
  | .srcW => { loop with descriptor := { loop.descriptor with srcW := property.source } }
  | .srcH => { loop with descriptor := { loop.descriptor with srcH := property.source } }
  | .cursor =>
      { loop with
        descriptor :=
          if property.NamesCursor then loop.descriptor.setFlag isCursor else loop.descriptor }

theorem searchCursor_eq (current : UInt64) (descriptor : PlaneDescriptor)
    (entries : List PropertyEnum) :
    searchCursor current descriptor entries =
      if ∃ entry ∈ entries, entry.value = current ∧ entry.name = "Cursor" then
        descriptor.setFlag isCursor
      else descriptor := by
  induction entries with
  | nil => simp [searchCursor]
  | cons entry entries ih =>
      rw [searchCursor, ih]
      by_cases cursor : entry.value = current ∧ entry.name = "Cursor"
      · rw [if_pos cursor, if_pos ⟨entry, List.mem_cons_self, cursor⟩]
      · simp [cursor]

/-- One round of the loop is one assignment, or none. -/
theorem visit_eq (loop : PlaneLoop) (property : ObjectProperty) :
    loop.visit property = property.place.elim loop (loop.assign property) := by
  obtain ⟨prop, value⟩ := property
  cases prop with
  | none =>
      have nowhere : ObjectProperty.place { prop := none, value } = none := by
        simp [ObjectProperty.place, ObjectProperty.GoesTo]
      rw [nowhere]
      rfl
  | some prop =>
      have goes (place : Place) : ObjectProperty.GoesTo { prop := some prop, value } place ↔
          prop.Matches place.type place.name := by
        simp [ObjectProperty.GoesTo]
      simp only [PlaneLoop.visit, ObjectProperty.place, goes, places, Place.type, Place.name,
        List.find?_cons, List.find?_nil]
      by_cases crtc_x : prop.Matches propSignedRange "CRTC_X"
      · simp only [crtc_x, decide_true, if_true]
        rfl
      by_cases crtc_y : prop.Matches propSignedRange "CRTC_Y"
      · simp only [crtc_x, crtc_y, decide_true, decide_false, if_true, if_false]
        rfl
      by_cases src_x : prop.Matches propRange "SRC_X"
      · simp only [crtc_x, crtc_y, src_x, decide_true, decide_false, if_true, if_false]
        rfl
      by_cases src_y : prop.Matches propRange "SRC_Y"
      · simp only [crtc_x, crtc_y, src_x, src_y, decide_true, decide_false, if_true, if_false]
        rfl
      by_cases src_w : prop.Matches propRange "SRC_W"
      · simp only [crtc_x, crtc_y, src_x, src_y, src_w, decide_true, decide_false, if_true,
          if_false]
        rfl
      by_cases src_h : prop.Matches propRange "SRC_H"
      · simp only [crtc_x, crtc_y, src_x, src_y, src_w, src_h, decide_true, decide_false, if_true,
          if_false]
        rfl
      by_cases type : prop.Matches propEnum "type"
      · simp only [crtc_x, crtc_y, src_x, src_y, src_w, src_h, type, decide_true, decide_false,
          if_true, if_false, searchCursor_eq]
        simp [PlaneLoop.assign, ObjectProperty.NamesCursor, Property.NamesCursor]
      · simp only [crtc_x, crtc_y, src_x, src_y, src_w, src_h, type, decide_false, if_false]
        rfl

/-! ### The whole loop -/

/-- The properties that go to a place, with their places. -/
def placed (props : List ObjectProperty) : List (Sigma fun _ : Place => ObjectProperty) :=
  props.filterMap fun property => property.place.map fun place => ⟨place, property⟩

/-- No place is assigned twice. -/
theorem DistinctNames.nodupKeys {props : List ObjectProperty} (distinct : DistinctNames props) :
    (placed props).NodupKeys := by
  rw [List.nodupKeys_iff_pairwise, placed, List.pairwise_filterMap]
  rw [DistinctNames, List.Nodup, List.pairwise_map, List.pairwise_filterMap] at distinct
  refine distinct.imp fun {property other} differ => ?_
  rintro _ found _ found' same
  obtain ⟨place, here, rfl⟩ := Option.map_eq_some_iff.mp found
  obtain ⟨place', there, rfl⟩ := Option.map_eq_some_iff.mp found'
  obtain ⟨prop, present, -, named⟩ := (place_eq_some_iff property place).mp here
  obtain ⟨prop', present', -, named'⟩ := (place_eq_some_iff other place').mp there
  refine differ prop present prop' present' ?_
  rw [named, named', show place = place' from same]

/-- The property at a place is the one that goes there. -/
theorem propertyAt_eq (props : List ObjectProperty) (place : Place) :
    propertyAt props place = (placed props).dlookup place := by
  induction props with
  | nil => rfl
  | cons property props ih =>
      rw [propertyAt, List.find?_cons]
      rw [propertyAt] at ih
      by_cases goes : property.GoesTo place
      · have here := (place_eq_some_iff property place).mpr goes
        simp [goes, placed, here]
      · rw [ih]
        cases elsewhere : property.place with
        | none => simp [goes, placed, elsewhere]
        | some other =>
            have differ : place ≠ other := by
              rintro rfl
              exact goes ((place_eq_some_iff property place).mp elsewhere)
            simp only [goes, decide_false, placed, List.filterMap_cons, elsewhere, Option.map_some]
            exact (List.dlookup_cons_ne (placed props)
              (⟨other, property⟩ : Sigma fun _ : Place => ObjectProperty) differ).symm

/-- The variables of the loop with the values of all places filled in. -/
def PlaneLoop.fill (loop : PlaneLoop) (found : Place → Option ObjectProperty) : PlaneLoop where
  descriptor :=
    { loop.descriptor with
      flags :=
        if ∃ property ∈ found .cursor, property.NamesCursor then loop.descriptor.flags ||| isCursor
        else loop.descriptor.flags
      x := (found .srcX).elim loop.descriptor.x ObjectProperty.source
      y := (found .srcY).elim loop.descriptor.y ObjectProperty.source
      srcW := (found .srcW).elim loop.descriptor.srcW ObjectProperty.source
      srcH := (found .srcH).elim loop.descriptor.srcH ObjectProperty.source }
  x := (found .crtcX).elim loop.x ObjectProperty.screen
  y := (found .crtcY).elim loop.y ObjectProperty.screen

/-- Assignments to different places collect their values. -/
theorem foldl_assign (assignments : List (Sigma fun _ : Place => ObjectProperty))
    (distinct : assignments.NodupKeys) (loop : PlaneLoop) :
    assignments.foldl (fun loop assignment => loop.assign assignment.2 assignment.1) loop =
      loop.fill fun place => assignments.dlookup place := by
  induction assignments generalizing loop with
  | nil => simp [PlaneLoop.fill]
  | cons assignment assignments ih =>
      obtain ⟨place, property⟩ := assignment
      obtain ⟨fresh, distinct⟩ := List.nodupKeys_cons.mp distinct
      have none_later : assignments.dlookup place = none := List.dlookup_eq_none.mpr fresh
      rw [List.foldl_cons, ih distinct]
      cases place with
      | cursor =>
          by_cases cursor : property.NamesCursor <;>
            simp [PlaneLoop.fill, PlaneLoop.assign, PlaneDescriptor.setFlag, none_later,
              List.dlookup_cons_ne, cursor]
      | _ => simp [PlaneLoop.fill, PlaneLoop.assign, none_later, List.dlookup_cons_ne]

theorem foldl_visit (props : List ObjectProperty) (loop : PlaneLoop) :
    props.foldl PlaneLoop.visit loop =
      (placed props).foldl (fun loop assignment => loop.assign assignment.2 assignment.1) loop := by
  induction props generalizing loop with
  | nil => rfl
  | cons property props ih =>
      rw [List.foldl_cons, ih, visit_eq]
      cases goes : property.place with
      | none => simp [placed, goes]
      | some place => simp [placed, goes]

theorem or_and_self (flags flag : UInt32) : (flags ||| flag) &&& flag = flag := by
  apply UInt32.toBitVec_inj.mp
  ext i inside
  simp only [UInt32.toBitVec_and, UInt32.toBitVec_or, BitVec.getElem_and, BitVec.getElem_or]
  cases flags.toBitVec[i] <;> cases flag.toBitVec[i] <;> rfl

/-- The descriptor shows what the properties describe, in whatever order they are listed. -/
theorem getPlaneProperties_eq {props : List ObjectProperty} (distinct : DistinctNames props)
    {descriptor : PlaneDescriptor} (plain : descriptor.isFlagSet isCursor = false) :
    getPlaneProperties (some props) descriptor = .ok (described props descriptor) ∧
      ∀ reordered, reordered.Perm props →
        getPlaneProperties (some reordered) descriptor =
          getPlaneProperties (some props) descriptor := by
  have filled (props : List ObjectProperty) (distinct : DistinctNames props) :
      getPlaneProperties (some props) descriptor = .ok (described props descriptor) := by
    rw [getPlaneProperties, foldl_visit, foldl_assign _ distinct.nodupKeys]
    simp only [← propertyAt_eq]
    by_cases cursor : IsCursorPlane props
    · have named : ∃ property ∈ propertyAt props .cursor, property.NamesCursor := cursor
      have flagged : (descriptor.flags ||| isCursor) &&& isCursor ≠ 0 := by
        rw [or_and_self]
        decide
      simp only [PlaneLoop.fill, described, if_pos cursor, if_pos named,
        PlaneDescriptor.isFlagSet, flagged, ne_eq, not_false_eq_true, decide_true, if_true]
    · have unnamed : ¬∃ property ∈ propertyAt props .cursor, property.NamesCursor := cursor
      have unflagged : descriptor.flags &&& isCursor = 0 := by
        simpa [PlaneDescriptor.isFlagSet] using plain
      simp only [PlaneLoop.fill, described, if_neg cursor, if_neg unnamed,
        PlaneDescriptor.isFlagSet, unflagged, ne_eq, not_true_eq_false, decide_false,
        Bool.false_eq_true, if_false]
  refine ⟨filled props distinct, fun reordered perm => ?_⟩
  have distinct' : DistinctNames reordered :=
    ((perm.filterMap _).map _).nodup_iff.mpr distinct
  have same (place : Place) : propertyAt reordered place = propertyAt props place := by
    rw [propertyAt_eq, propertyAt_eq]
    exact List.perm_dlookup place distinct'.nodupKeys (perm.filterMap _)
  have cursor : IsCursorPlane reordered ↔ IsCursorPlane props := by
    rw [IsCursorPlane, IsCursorPlane, same]
  rw [filled props distinct, filled reordered distinct']
  simp only [described, cursor, same]

/-- A cursor plane whose type is listed behind its coordinates, among them one of another type and
a look-up that fails. -/
theorem getPlaneProperties_of_late_type :
    getPlaneProperties
        (some [⟨some ⟨propSignedRange, "CRTC_X", []⟩, 0xfffffffb⟩, ⟨none, 3⟩,
          ⟨some ⟨propRange, "SRC_X", []⟩, 0x90000⟩, ⟨some ⟨propRange, "CRTC_Y", []⟩, 7⟩,
          ⟨some ⟨propEnum, "type", [⟨0, "Overlay"⟩, ⟨2, "Cursor"⟩]⟩, 2⟩])
        ⟨3, 64, 64, 256, 0, 0, 0, 1, 2, 0, 0, 0, 0⟩ =
      .ok ⟨3, 64, 64, 256, 0, 0, 0, 1, 3, -5, 0, 0, 0⟩ := by
  refine (getPlaneProperties_eq ?_ ?_).1.trans ?_ <;> decide +kernel

end Drm
end ShadowCast
