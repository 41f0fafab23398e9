import Mathlib.Algebra.Ring.Nat
import ShadowCast.Base64

/-!
# What the base64 decoder accepts

A group is refused on the characters before its first `'='` alone, and a group with none of them
still yields three bytes.  So the decoder accepts more than base64: a text that is refused in no
group has the form and the size of base64 exactly when its padding stands at its end and does not
head a group.
-/

namespace ShadowCast
namespace Base64

/-- The number of characters of the alphabet in a text. -/
def tokenCount (encoded : List Char) : Nat :=
  encoded.countP (· ∈ base64Alphabet)

/-- The form of a base64 text whose padding may be left off. -/
structure IsBase64 (encoded : List Char) : Prop where
  /-- Every character is in the alphabet or is `'='`. -/
  characters : ∀ c ∈ encoded, c ∈ base64Alphabet ∨ c = '='
  /-- `'='` only trails, within the final group of four. -/
  padding : ∃ text count, encoded = text ++ List.replicate count '=' ∧ '=' ∉ text ∧
    encoded.length ≤ 4 * (text.length / 4) + 4
  /-- No sextet stands alone in the final group. -/
  tokens : tokenCount encoded % 4 ≠ 1

/-- The decoder yields the bytes of a base64 text, or one of its errors. -/
def AcceptsOnlyBase64 (order : ByteOrder) (encoded : List Char) : Prop :=
  (∃ bytes, base64Decode order encoded = .ok bytes ∧ IsBase64 encoded ∧
      bytes.length = 6 * tokenCount encoded / 8) ∨
    base64Decode order encoded = .error .invalidToken ∨
      base64Decode order encoded = .error .notEnoughTokens

/-- Before its first `'='` the group has a character outside the alphabet, or only one. -/
def Refused (group : List Char) : Prop :=
  (∃ c ∈ tokens group, c ∉ base64Alphabet) ∨ (tokens group).length = 1

/-- The group does not start with `'='` and has nothing but `'='` after its first one. -/
def PadsOnlyTail (group : List Char) : Prop :=
  group.head? ≠ some '=' ∧ ∀ c ∈ group.dropWhile (· ≠ '='), c = '='

/-- Only the last group has a `'='`, and there it only trails. -/
def PadsOnlyLast : List (List Char) → Prop
  | [] => True
  | [group] => PadsOnlyTail group
  | group :: rest => '=' ∉ group ∧ PadsOnlyLast rest

/-- The number of bytes a group yields. -/
def groupSize (group : List Char) : Nat :=
  (byteCount (tokens group).length).toNat

/-- The number of bytes all groups of a text yield. -/
def textSize (encoded : List Char) : Nat :=
  ((groups 4 encoded).map groupSize).sum

/-! ### Which texts are decoded -/

theorem decodeGroup_of_refused (order : ByteOrder) {group : List Char} (refused : Refused group) :
    ∃ error, decodeGroup order group = .error error := by
  rw [decodeGroup_eq]
  by_cases known : Known (tokens group)
  · have single : (tokens group).length = 1 := by
      refine refused.resolve_left ?_
      rintro ⟨c, member, unknown⟩
      exact unknown (known c member)
    exact ⟨_, by rw [if_pos known, if_pos single]⟩
  · exact ⟨_, by rw [if_neg known]⟩

theorem tokens_of_accepted {group : List Char} (accepted : ¬Refused group) :
    Known (tokens group) := by
  intro c member
  by_contra unknown
  exact accepted (Or.inl ⟨c, member, unknown⟩)

theorem decodeGroup_of_accepted (order : ByteOrder) {group : List Char}
    (accepted : ¬Refused group) :
    ∃ bytes, decodeGroup order group = .ok bytes ∧ bytes.length = groupSize group := by
  have several : (tokens group).length ≠ 1 := fun single => accepted (Or.inr single)
  refine ⟨_, by rw [decodeGroup_eq, if_pos (tokens_of_accepted accepted), if_neg several], ?_⟩
  have few : (byteCount (tokens group).length).toNat < 4 := BitVec.isLt _
  rw [List.length_take, highFirst, List.length_map, groupSize]
  exact Nat.min_eq_left (Nat.le_of_lt few)

/-- One refused group is enough for an error. -/
theorem base64Decode_of_refused (order : ByteOrder) {encoded : List Char}
    (refused : ∃ group ∈ groups 4 encoded, Refused group) :
    ∃ error, base64Decode order encoded = .error error := by
  rw [base64Decode_eq]
  generalize groups 4 encoded = pieces at refused ⊢
  induction pieces with
  | nil => simp at refused
  | cons group rest ih =>
      rw [List.mapM_cons]
      cases first : decodeGroup order group with
      | error error => exact ⟨error, rfl⟩
      | ok bytes =>
          have later : ∃ group ∈ rest, Refused group := by
            obtain ⟨other, member, bad⟩ := refused
            rcases List.mem_cons.mp member with rfl | member
            · obtain ⟨error, failed⟩ := decodeGroup_of_refused order bad
              simp [failed] at first
            · exact ⟨other, member, bad⟩
          obtain ⟨error, failed⟩ := ih later
          cases decoded : rest.mapM (decodeGroup order) with
          | error error => exact ⟨error, rfl⟩
          | ok bytes => simp [decoded, Except.map] at failed

/-- A text none of whose groups is refused is decoded. -/
theorem base64Decode_of_accepted (order : ByteOrder) {encoded : List Char}
    (accepted : ∀ group ∈ groups 4 encoded, ¬Refused group) :
    ∃ bytes, base64Decode order encoded = .ok bytes ∧ bytes.length = textSize encoded := by
  rw [base64Decode_eq, textSize]
  generalize groups 4 encoded = pieces at accepted ⊢
  induction pieces with
  | nil => exact ⟨[], rfl, rfl⟩
  | cons group rest ih =>
      obtain ⟨bytes, first, size⟩ := decodeGroup_of_accepted order (accepted group (by simp))
      obtain ⟨later, decoded, laterSize⟩ := ih fun other member =>
        accepted other (List.mem_cons_of_mem _ member)
      cases mapped : rest.mapM (decodeGroup order) with
      | error error => simp [mapped, Except.map] at decoded
      | ok decodings =>
          obtain rfl : decodings.flatten = later := by
            simpa [mapped, Except.map] using decoded
          refine ⟨bytes ++ decodings.flatten, ?_, ?_⟩
          · rw [List.mapM_cons, first, mapped]
            rfl
          · rw [List.length_append, size, laterSize, List.map_cons, List.sum_cons]

/-! ### The form of an accepted text -/

theorem tokenCount_append (front back : List Char) :
    tokenCount (front ++ back) = tokenCount front + tokenCount back :=
  List.countP_append

theorem tokenCount_of_mem {text : List Char} (known : Known text) :
    tokenCount text = text.length := by
  apply List.countP_eq_length.mpr
  intro c member
  simpa using known c member

theorem tokenCount_padding (count : Nat) : tokenCount (List.replicate count '=') = 0 := by
  apply List.countP_eq_zero.mpr
  intro c member
  rw [List.eq_of_mem_replicate member]
  simpa using pad_not_mem

theorem tokens_of_not_mem {text : List Char} (free : '=' ∉ text) : tokens text = text := by
  apply List.takeWhile_eq_self_iff.mpr
  intro c member
  simpa using ne_of_mem_of_not_mem member free

theorem tokens_append_dropWhile (group : List Char) :
    tokens group ++ group.dropWhile (· ≠ '=') = group :=
  List.takeWhile_append_dropWhile

theorem textSize_last {group : List Char} (nonempty : group ≠ []) (short : group.length ≤ 4) :
    textSize group = groupSize group := by
  rw [textSize, groups.of_length_le nonempty short]
  simp

theorem textSize_append {group : List Char} (full : group.length = 4) (rest : List Char) :
    textSize (group ++ rest) = groupSize group + textSize rest := by
  rw [textSize, groups.append (by decide) full, List.map_cons, List.sum_cons, textSize]

theorem padsOnlyLast_append {group rest : List Char} (full : group.length = 4)
    (more : rest ≠ []) :
    PadsOnlyLast (groups 4 (group ++ rest)) ↔ '=' ∉ group ∧ PadsOnlyLast (groups 4 rest) := by
  rw [groups.append (by decide) full, groups.of_ne_nil (by decide) more]
  rfl

/-- A group of characters of the alphabet and trailing padding. -/
theorem tokenCount_padded {text : List Char} (known : Known text)
    (count : Nat) : tokenCount (text ++ List.replicate count '=') = text.length := by
  rw [tokenCount_append, tokenCount_padding, tokenCount_of_mem known, Nat.add_zero]

/-- The last group: padding that only trails is what its form and its size ask for. -/
theorem isBase64_last_iff {group : List Char} (nonempty : group ≠ []) (short : group.length ≤ 4)
    (accepted : ¬Refused group) :
    (IsBase64 group ∧ groupSize group = 6 * tokenCount group / 8) ↔ PadsOnlyTail group := by
  have known := tokens_of_accepted accepted
  have several : (tokens group).length ≠ 1 := fun single => accepted (Or.inr single)
  constructor
  · rintro ⟨⟨-, ⟨text, count, split, free, -⟩, -⟩, size⟩
    have text_eq : tokens group = text := by
      rw [split, tokens_append_padding, tokens_of_not_mem free]
    have rest_eq : group.dropWhile (· ≠ '=') = List.replicate count '=' := by
      have same : tokens group ++ group.dropWhile (· ≠ '=') =
          tokens group ++ List.replicate count '=' := by
        rw [tokens_append_dropWhile, text_eq, split]
      exact List.append_cancel_left same
    refine ⟨?_, fun c member => List.eq_of_mem_replicate (rest_eq ▸ member)⟩
    cases text with
    | nil =>
        have none : tokenCount group = 0 := by
          rw [split]
          exact tokenCount_padding count
        have three : groupSize group = 3 := by
          rw [groupSize, text_eq]
          rfl
        omega
    | cons c text =>
        rw [split]
        simp only [List.cons_append, List.head?_cons, ne_eq, Option.some.injEq]
        exact fun pad => free (pad ▸ List.mem_cons_self)
  · rintro ⟨head, tail⟩
    have rest_eq := List.eq_replicate_of_mem tail
    have split := tokens_append_dropWhile group
    rw [rest_eq] at split
    generalize (group.dropWhile (· ≠ '=')).length = count at split
    have total : tokenCount group = (tokens group).length := by
      conv => lhs; rw [← split]
      exact tokenCount_padded known count
    have size : (tokens group).length + count = group.length := by
      rw [← List.length_replicate (n := count) (a := '='), ← List.length_append, split]
    have some : (tokens group).length ≠ 0 := by
      intro none
      rw [List.length_eq_zero_iff] at none
      cases count with
      | zero => exact nonempty (by simpa [none] using split.symm)
      | succ count =>
          rw [none, List.nil_append, List.replicate_succ] at split
          exact head (by rw [← split]; rfl)
    refine ⟨⟨?_, ⟨tokens group, count, split.symm, ?_, by omega⟩, by omega⟩, ?_⟩
    · intro c member
      rw [← split, List.mem_append] at member
      exact member.imp (known c) List.eq_of_mem_replicate
    · exact fun member => pad_not_mem (known _ member)
    · rw [total, groupSize]
      have bound : (tokens group).length ≤ 4 := by omega
      generalize (tokens group).length = n at several some bound
      match n with
      | 2 | 3 | 4 => rfl

/-- A full group without padding has four sextets and yields three bytes. -/
theorem free_group {group : List Char} (full : group.length = 4) (accepted : ¬Refused group)
    (free : '=' ∉ group) :
    (∀ c ∈ group, c ∈ base64Alphabet) ∧ tokenCount group = 4 ∧ groupSize group = 3 := by
  have whole := tokens_of_not_mem free
  have known := tokens_of_accepted accepted
  rw [whole] at known
  refine ⟨known, ?_, ?_⟩
  · rw [tokenCount_of_mem known, full]
  · rw [groupSize, whole, full]
    rfl

/-- A full group with more behind it has to be free of padding. -/
theorem isBase64_append_iff {group rest : List Char} (full : group.length = 4)
    (more : rest ≠ []) (accepted : ¬Refused group) :
    (IsBase64 (group ++ rest) ∧
        textSize (group ++ rest) = 6 * tokenCount (group ++ rest) / 8) ↔
      '=' ∉ group ∧ IsBase64 rest ∧ textSize rest = 6 * tokenCount rest / 8 := by
  rw [textSize_append full]
  constructor
  · rintro ⟨⟨characters, ⟨text, count, split, free, within⟩, odd⟩, size⟩
    have reach : group.length ≤ text.length := by
      have := List.length_pos_iff.mpr more
      rw [List.length_append] at within
      omega
    obtain ⟨later, rfl⟩ : group <+: text :=
      List.prefix_of_prefix_length_le (List.prefix_append group rest)
        (split ▸ List.prefix_append text _) reach
    have rest_eq : rest = later ++ List.replicate count '=' := by
      rw [List.append_assoc] at split
      exact List.append_cancel_left split
    have freeGroup : '=' ∉ group := fun member => free (List.mem_append_left _ member)
    obtain ⟨-, four, three⟩ := free_group full accepted freeGroup
    rw [tokenCount_append, four] at odd size
    rw [List.length_append, List.length_append, full] at within
    refine ⟨freeGroup, ⟨fun c member => characters c (List.mem_append_right _ member),
      ⟨later, count, rest_eq, fun member => free (List.mem_append_right _ member), ?_⟩, ?_⟩, ?_⟩
    all_goals omega
  · rintro ⟨freeGroup, ⟨characters, ⟨text, count, split, free, within⟩, odd⟩, size⟩
    obtain ⟨known, four, three⟩ := free_group full accepted freeGroup
    have total : tokenCount (group ++ rest) = 4 + tokenCount rest := by
      rw [tokenCount_append, four]
    refine ⟨⟨?_, ⟨group ++ text, count, by rw [split, List.append_assoc], ?_, ?_⟩, ?_⟩, ?_⟩
    · intro c member
      rcases List.mem_append.mp member with member | member
      · exact Or.inl (known c member)
      · exact characters c member
    · intro member
      rcases List.mem_append.mp member with member | member
      · exact freeGroup member
      · exact free member
    · rw [List.length_append, List.length_append, full]
      omega
    all_goals omega

/-- The padding decides about the form and the size of a text with no refused group. -/
theorem isBase64_iff_of_accepted (encoded : List Char)
    (accepted : ∀ group ∈ groups 4 encoded, ¬Refused group) :
    (IsBase64 encoded ∧ textSize encoded = 6 * tokenCount encoded / 8) ↔
      PadsOnlyLast (groups 4 encoded) := by
  induction encoded using @groups.induction _ 4 _ (by decide) with
  | nil =>
      rw [groups.eq_nil]
      refine iff_of_true ⟨⟨by simp, ⟨[], 0, rfl, by simp, by simp⟩, by decide⟩, ?_⟩ trivial
      simp [textSize, tokenCount]
  | last group nonempty short =>
      rw [groups.of_length_le nonempty short] at accepted ⊢
      rw [textSize_last nonempty short]
      exact isBase64_last_iff nonempty short (accepted group (by simp))
  | full group rest full more ih =>
      rw [groups.append (by decide) full] at accepted
      rw [isBase64_append_iff full more (accepted group (by simp)), padsOnlyLast_append full more,
        ih fun other member => accepted other (List.mem_cons_of_mem _ member)]

/-- The decoder accepts only base64 on exactly the texts that it refuses in some group, or whose
padding stands only at the end and does not head a group. -/
theorem acceptsOnlyBase64_iff (order : ByteOrder) (encoded : List Char) :
    AcceptsOnlyBase64 order encoded ↔
      (∃ group ∈ groups 4 encoded, Refused group) ∨ PadsOnlyLast (groups 4 encoded) := by
  by_cases refused : ∃ group ∈ groups 4 encoded, Refused group
  · obtain ⟨error, failed⟩ := base64Decode_of_refused order refused
    refine iff_of_true (Or.inr ?_) (Or.inl refused)
    rw [failed]
    cases error with
    | invalidToken => exact Or.inl rfl
    | notEnoughTokens => exact Or.inr rfl
  · have accepted : ∀ group ∈ groups 4 encoded, ¬Refused group := by
      intro group member bad
      exact refused ⟨group, member, bad⟩
    obtain ⟨bytes, decoded, size⟩ := base64Decode_of_accepted order accepted
    rw [or_iff_right refused, ← isBase64_iff_of_accepted encoded accepted, AcceptsOnlyBase64,
      decoded]
    constructor
    · rintro (⟨result, same, form, total⟩ | failed | failed)
      · obtain rfl : bytes = result := by simpa using same
        exact ⟨form, by rw [← size, total]⟩
      · cases failed
      · cases failed
    · rintro ⟨form, total⟩
      exact Or.inl ⟨bytes, rfl, form, by rw [size, total]⟩

/-- Four pads hold no sextet and are decoded to three bytes. -/
theorem four_pads_yield_three_bytes :
    ¬AcceptsOnlyBase64 .littleEndian ['=', '=', '=', '='] := by
  have decoded : base64Decode .littleEndian ['=', '=', '=', '='] = .ok [0, 0, 0] := by
    rw [base64Decode_last _ (by simp) (by simp)]
    decide +kernel
  have none : tokenCount ['=', '=', '=', '='] = 0 := by decide +kernel
  rintro (⟨bytes, result, -, size⟩ | failed | failed)
  · obtain rfl : [0, 0, 0] = bytes := by simpa [decoded] using result
    rw [none] at size
    cases size
  · simp [decoded] at failed
  · simp [decoded] at failed

end Base64
end ShadowCast
