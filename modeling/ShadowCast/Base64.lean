import Mathlib.Data.List.TakeWhile
import ShadowCast.Groups

/-!
# Decoding base64

The decoder packs the sextets of a group of four characters, and the number of bytes they stand
for, into one 32-bit word, and reads the bytes back through the object representation of that
word.  The main result is that it undoes the standard encoding, padded or not, under both byte
orders.
-/

namespace ShadowCast

/-- The byte orders of `config.hpp`. -/
inductive ByteOrder where
  | littleEndian
  | bigEndian
  deriving DecidableEq, Repr

/-- The errors of the decoder. -/
inductive Base64DecodeErrorCode where
  | invalidToken
  | notEnoughTokens
  deriving DecidableEq, Repr

namespace Base64

/-- The characters from `first` to `last`. -/
def charRange (first last : Char) : List Char :=
  (List.range (last.toNat + 1 - first.toNat)).map fun k => Char.ofNat (first.toNat + k)

/-- The alphabet, in the order of the sextets. -/
def base64Alphabet : List Char :=
  charRange 'A' 'Z' ++ charRange 'a' 'z' ++ charRange '0' '9' ++ ['+', '/']

/-- The locals of the loop of `base64_decode_chunk`. -/
structure ChunkCursor where
  val : BitVec 32
  shift : Int
  n : Nat
  deriving DecidableEq, Repr

namespace ChunkCursor

/-- The locals before the first character. -/
def start : ChunkCursor := { val := 0, shift := 3, n := 0 }

/-- Or the sextet `i` into the word and count it. -/
def push (cursor : ChunkCursor) (i : Nat) : ChunkCursor :=
  { val := cursor.val ||| BitVec.ofNat 32 ((i &&& 0x3f) <<< (6 * cursor.shift + 2).toNat)
    shift := cursor.shift - 1
    n := cursor.n + 1 }

end ChunkCursor

/-- The loop of `base64_decode_chunk`, which a `'='` ends. -/
def readTokens : List Char → ChunkCursor → Except Base64DecodeErrorCode ChunkCursor
  | [], cursor => .ok cursor
  | c :: input, cursor =>
      if c = '=' then .ok cursor
      else
        match base64Alphabet.findIdx? (· == c) with
        | none => .error .invalidToken
        | some i => readTokens input (cursor.push i)

/-- The sextets of a chunk in the upper bytes of a word, and its number of bytes in the lowest
two bits. -/
def base64DecodeChunk (input : List Char) : Except Base64DecodeErrorCode (BitVec 32) :=
  match readTokens input .start with
  | .error error => .error error
  | .ok cursor =>
      match cursor.n with
      | 1 => .error .notEnoughTokens
      | 2 => .ok (cursor.val <<< 6 ||| (1#32 &&& 0x03#32))
      | 3 => .ok (cursor.val <<< 6 ||| (2#32 &&& 0x03#32))
      | _ => .ok (cursor.val <<< 6 ||| (3#32 &&& 0x03#32))

/-- The object representation of a word. -/
def objectBytes (order : ByteOrder) (val : BitVec 32) : List (BitVec 8) :=
  let lowFirst := [0, 8, 16, 24].map fun k => (val >>> k).setWidth 8
  match order with
  | .littleEndian => lowFirst
  | .bigEndian => lowFirst.reverse

/-- The bytes in the order in which `begin_by_byte_order` visits them. -/
def beginByByteOrder (order : ByteOrder) (bytes : List (BitVec 8)) : List (BitVec 8) :=
  match order with
  | .littleEndian => bytes.reverse
  | .bigEndian => bytes

/-- The bytes that one decoded word appends to the result. -/
def wordBytes (order : ByteOrder) (val : BitVec 32) : List (BitVec 8) :=
  let numBytes := val &&& 0x03#32
  (beginByByteOrder order (objectBytes order (val &&& ~~~0x03#32))).take numBytes.toNat

/-- The buffer `decode_chunk`, reused from one group to the next. -/
structure DecodeChunk where
  chars : List Char
  size_eq : chars.length = 4

namespace DecodeChunk

/-- The buffer as it is initialised. -/
def blank : DecodeChunk := ⟨List.replicate 4 (Char.ofNat 0), rfl⟩

/-- The number of characters the next turn of the loop takes. -/
def numToRead (chunk : DecodeChunk) (input : List Char) : Nat :=
  min chunk.chars.length input.length

/-- Copy the next characters to the front of the buffer and write `'='` from there to its end. -/
def fill (chunk : DecodeChunk) (input : List Char) : DecodeChunk :=
  let copied := input.take (chunk.numToRead input) ++ chunk.chars.drop (chunk.numToRead input)
  { chars := copied.take (chunk.numToRead input) ++
      List.replicate (chunk.chars.length - chunk.numToRead input) '='
    size_eq := by
      have size := chunk.size_eq
      simp only [copied, numToRead, List.length_append, List.length_take, List.length_drop,
        List.length_replicate]
      omega }

theorem numToRead_eq (chunk : DecodeChunk) (input : List Char) :
    chunk.numToRead input = min 4 input.length := by
  rw [numToRead, chunk.size_eq]

/-- What was in the buffer before does not matter. -/
theorem fill_chars (chunk : DecodeChunk) (input : List Char) :
    (chunk.fill input).chars =
      input.take 4 ++ List.replicate (4 - (input.take 4).length) '=' := by
  have taken : input.take (min 4 input.length) = input.take 4 := by
    rw [List.take_eq_take_iff]
    omega
  have size : (input.take 4).length = min 4 input.length := List.length_take
  simp only [fill, numToRead_eq, chunk.size_eq, taken, size]
  rw [List.take_left' size]

end DecodeChunk

/-- The loop of `base64_decode`. -/
def decodeLoop (order : ByteOrder) (chunk : DecodeChunk) (result : List (BitVec 8)) :
    List Char → Except Base64DecodeErrorCode (List (BitVec 8))
  | [] => .ok result
  | c :: input =>
      let chunk' := chunk.fill (c :: input)
      match base64DecodeChunk chunk'.chars with
      | .error error => .error error
      | .ok val =>
          decodeLoop order chunk' (result ++ wordBytes order val)
            ((c :: input).drop (chunk.numToRead (c :: input)))
termination_by input => input.length
decreasing_by
  simp only [DecodeChunk.numToRead_eq, List.length_drop, List.length_cons]
  omega

/-- The decoder. -/
def base64Decode (order : ByteOrder) (encoded : List Char) :
    Except Base64DecodeErrorCode (List (BitVec 8)) :=
  decodeLoop order .blank [] encoded

/-! ### One group at a time -/

/-- The bytes of one group, which is filled up with `'='` when it is short. -/
def decodeGroup (order : ByteOrder) (group : List Char) :
    Except Base64DecodeErrorCode (List (BitVec 8)) :=
  (base64DecodeChunk (group ++ List.replicate (4 - group.length) '=')).map (wordBytes order)

theorem decodeLoop_eq (order : ByteOrder) (chunk : DecodeChunk) (result : List (BitVec 8))
    (encoded : List Char) :
    decodeLoop order chunk result encoded =
      ((groups 4 encoded).mapM (decodeGroup order)).map fun bytes => result ++ bytes.flatten := by
  induction chunk, result, encoded using decodeLoop.induct order with
  | case1 chunk result => simp [decodeLoop, Except.map, pure, Except.pure]
  | case2 chunk result c input chunk' error failed =>
      have group : decodeGroup order ((c :: input).take 4) = .error error := by
        rw [decodeGroup, ← chunk.fill_chars, failed]
        rfl
      rw [decodeLoop, groups.of_ne_nil (by decide) (by simp), List.mapM_cons, group]
      simp only [chunk'] at failed
      rw [failed]
      rfl
  | case3 chunk result c input chunk' val decoded ih =>
      have group : decodeGroup order ((c :: input).take 4) = .ok (wordBytes order val) := by
        rw [decodeGroup, ← chunk.fill_chars, decoded]
        rfl
      have rest : (c :: input).drop (chunk.numToRead (c :: input)) = (c :: input).drop 4 := by
        rw [chunk.numToRead_eq, List.drop_eq_drop_iff]
        omega
      rw [decodeLoop, groups.of_ne_nil (by decide) (by simp), List.mapM_cons, group]
      simp only [chunk'] at decoded ih
      simp only [decoded]
      rw [ih, rest]
      cases (groups 4 ((c :: input).drop 4)).mapM (decodeGroup order) with
      | error error => rfl
      | ok bytes => simp [Except.map, bind, Except.bind, pure, Except.pure]

/-- The decoder works group by group and stops at the first group it refuses. -/
theorem base64Decode_eq (order : ByteOrder) (encoded : List Char) :
    base64Decode order encoded =
      ((groups 4 encoded).mapM (decodeGroup order)).map List.flatten :=
  decodeLoop_eq order .blank [] encoded

@[simp]
theorem base64Decode_nil (order : ByteOrder) : base64Decode order [] = .ok [] := by
  rw [base64Decode_eq, groups.eq_nil]
  rfl

/-- A text of at most four characters is one group. -/
theorem base64Decode_last (order : ByteOrder) {group : List Char} (nonempty : group ≠ [])
    (short : group.length ≤ 4) : base64Decode order group = decodeGroup order group := by
  rw [base64Decode_eq, groups.of_length_le nonempty short, List.mapM_cons]
  cases decodeGroup order group with
  | error error => rfl
  | ok bytes => simp [Except.map, bind, Except.bind, pure, Except.pure]

/-- Four characters in front are decoded on their own. -/
theorem base64Decode_append (order : ByteOrder) {group : List Char} (full : group.length = 4)
    (rest : List Char) :
    base64Decode order (group ++ rest) =
      (decodeGroup order group).bind fun bytes =>
        (base64Decode order rest).map fun later => bytes ++ later := by
  rw [base64Decode_eq, base64Decode_eq, groups.append (by decide) full, List.mapM_cons]
  cases decodeGroup order group with
  | error error => rfl
  | ok bytes =>
      cases (groups 4 rest).mapM (decodeGroup order) with
      | error error => rfl
      | ok later => rfl

/-! ### The word of a group -/

/-- The characters of a group before its first `'='`. -/
def tokens (group : List Char) : List Char :=
  group.takeWhile (· ≠ '=')

/-- There are only characters of the alphabet. -/
def Known (characters : List Char) : Prop := ∀ c ∈ characters, c ∈ base64Alphabet

instance (characters : List Char) : Decidable (Known characters) :=
  List.decidableBAll (· ∈ base64Alphabet) characters

/-- The locals after the given characters of the alphabet. -/
def pushAll (characters : List Char) (cursor : ChunkCursor) : ChunkCursor :=
  characters.foldl (fun cursor c => cursor.push (base64Alphabet.idxOf c)) cursor

/-- How many bytes a group with `n` characters before its first `'='` yields. -/
def byteCount : Nat → BitVec 2
  | 2 => 1
  | 3 => 2
  | _ => 3

theorem findIdx_alphabet (c : Char) :
    base64Alphabet.findIdx? (· == c) =
      if c ∈ base64Alphabet then some (base64Alphabet.idxOf c) else none := by
  by_cases known : c ∈ base64Alphabet
  · rw [if_pos known, List.findIdx?_eq_some_iff_findIdx_eq]
    exact ⟨List.idxOf_lt_length_iff.mpr known, rfl⟩
  · rw [if_neg known, List.findIdx?_eq_none_iff]
    intro x member
    simpa using ne_of_mem_of_not_mem member known

theorem tokens_append_padding (group : List Char) (count : Nat) :
    tokens (group ++ List.replicate count '=') = tokens group := by
  induction group with
  | nil => cases count <;> simp [tokens, List.replicate_succ]
  | cons c group ih =>
      by_cases pad : c = '='
      · simp [tokens, pad]
      · simpa [tokens, pad] using ih

theorem known_cons (c : Char) (characters : List Char) :
    Known (c :: characters) ↔ c ∈ base64Alphabet ∧ Known characters :=
  List.forall_mem_cons

theorem readTokens_eq (input : List Char) (cursor : ChunkCursor) :
    readTokens input cursor =
      if Known (tokens input) then .ok (pushAll (tokens input) cursor)
      else .error .invalidToken := by
  induction input generalizing cursor with
  | nil => rfl
  | cons c input ih =>
      by_cases pad : c = '='
      · have token : tokens (c :: input) = [] := by simp [tokens, pad]
        rw [readTokens, if_pos pad, token]
        rfl
      · have token : tokens (c :: input) = c :: tokens input := by simp [tokens, pad]
        rw [readTokens, if_neg pad, token, findIdx_alphabet]
        by_cases known : c ∈ base64Alphabet
        · simp only [ih, known_cons, known, true_and, if_true]
          rfl
        · simp only [known_cons, known, false_and, if_false]

theorem pushAll_n (characters : List Char) (cursor : ChunkCursor) :
    (pushAll characters cursor).n = cursor.n + characters.length := by
  induction characters generalizing cursor with
  | nil => rfl
  | cons c characters ih =>
      calc
        (pushAll (c :: characters) cursor).n =
            (cursor.push (base64Alphabet.idxOf c)).n + characters.length := ih _
        _ = cursor.n + (c :: characters).length := by
          simp only [ChunkCursor.push, List.length_cons]
          omega

theorem base64DecodeChunk_eq (input : List Char) :
    base64DecodeChunk input =
      if Known (tokens input) then
        if (tokens input).length = 1 then .error .notEnoughTokens
        else .ok ((pushAll (tokens input) .start).val <<< 6 |||
          (byteCount (tokens input).length).setWidth 32)
      else .error .invalidToken := by
  rw [base64DecodeChunk, readTokens_eq]
  by_cases known : Known (tokens input)
  · have count : (pushAll (tokens input) .start).n = (tokens input).length := by
      rw [pushAll_n]
      exact Nat.zero_add _
    simp only [if_pos known, count]
    generalize (tokens input).length = n
    match n with
    | 0 | 1 | 2 | 3 | n + 4 => simp [byteCount]
  · simp only [if_neg known]

/-- The mask for the number of bytes covers the lowest two bits. -/
theorem getElem_three {i : Nat} (hi : i < 32) : (0x03#32)[i] = decide (i < 2) := by
  have mask : 0x03#32 = BitVec.setWidth 32 (BitVec.allOnes 2) := rfl
  rw [mask, BitVec.getElem_setWidth, BitVec.getLsbD_allOnes]

theorem word_and_three (val : BitVec 32) (count : BitVec 2) :
    (val <<< 6 ||| count.setWidth 32) &&& 0x03#32 = count.setWidth 32 := by
  ext i hi
  rw [BitVec.getElem_and, getElem_three hi]
  grind

theorem word_and_not_three (val : BitVec 32) (count : BitVec 2) :
    (val <<< 6 ||| count.setWidth 32) &&& ~~~0x03#32 = val <<< 6 := by
  ext i hi
  rw [BitVec.getElem_and, BitVec.getElem_not, getElem_three hi]
  grind

/-- The bytes of a word, the highest first. -/
def highFirst (val : BitVec 32) : List (BitVec 8) :=
  [24, 16, 8, 0].map fun k => (val >>> k).setWidth 8

/-- Both byte orders lead to the same bytes. -/
theorem wordBytes_eq (order : ByteOrder) (val : BitVec 32) (count : BitVec 2) :
    wordBytes order (val <<< 6 ||| count.setWidth 32) =
      (highFirst (val <<< 6)).take count.toNat := by
  have number : (count.setWidth 32).toNat = count.toNat := by
    rw [BitVec.toNat_setWidth]
    have := count.isLt
    omega
  simp only [wordBytes, word_and_three, word_and_not_three, number]
  cases order <;> rfl

theorem decodeGroup_eq (order : ByteOrder) (group : List Char) :
    decodeGroup order group =
      if Known (tokens group) then
        if (tokens group).length = 1 then .error .notEnoughTokens
        else .ok ((highFirst ((pushAll (tokens group) .start).val <<< 6)).take
          (byteCount (tokens group).length).toNat)
      else .error .invalidToken := by
  rw [decodeGroup, base64DecodeChunk_eq, tokens_append_padding]
  split
  · split
    · rfl
    · exact congrArg Except.ok (wordBytes_eq order _ _)
  · rfl

/-! ### The standard encoding -/

/-- The alphabet of the standard. -/
def standardAlphabet : List Char :=
  "ABCDEFGHIJKLMNOPQRSTUVWXYZabcdefghijklmnopqrstuvwxyz0123456789+/".toList

/-- Three bytes as one group of 24 bits, the first byte on top. -/
def quantum (a b c : BitVec 8) : BitVec 24 :=
  a.setWidth 24 <<< 16 ||| b.setWidth 24 <<< 8 ||| c.setWidth 24

/-- The six bits from bit `k` up. -/
def sextet (bits : BitVec 24) (k : Nat) : BitVec 6 := (bits >>> k).setWidth 6

/-- The character of six bits. -/
def symbol (bits : BitVec 6) : Char := standardAlphabet.getD bits.toNat '='

/-- The four characters of three bytes. -/
def quantumText (a b c : BitVec 8) : List Char :=
  [18, 12, 6, 0].map fun k => symbol (sextet (quantum a b c) k)

/-- The standard base64 text of a byte sequence, with its padding or without: missing bytes of
the last group are zero bits, and the characters that stand for them alone are left out. -/
def base64Text (padded : Bool) : List (BitVec 8) → List Char
  | [] => []
  | [a] => (quantumText a 0#8 0#8).take 2 ++ if padded then ['=', '='] else []
  | [a, b] => (quantumText a b 0#8).take 3 ++ if padded then ['='] else []
  | a :: b :: c :: bytes => quantumText a b c ++ base64Text padded bytes

theorem base64Alphabet_eq : base64Alphabet = standardAlphabet := by
  decide +kernel

theorem symbol_eq (bits : BitVec 6) : symbol bits = base64Alphabet.getD bits.toNat '=' := by
  rw [base64Alphabet_eq]
  rfl

theorem symbol_mem (bits : BitVec 6) : symbol bits ∈ base64Alphabet := by
  have size : base64Alphabet.length = 64 := rfl
  have inside : bits.toNat < base64Alphabet.length := size ▸ bits.isLt
  rw [symbol_eq, List.getD_eq_getElem?_getD, List.getElem?_eq_getElem inside]
  exact List.getElem_mem inside

theorem idxOf_symbol (bits : BitVec 6) : base64Alphabet.idxOf (symbol bits) = bits.toNat := by
  have all : ∀ k : Fin 64, base64Alphabet.idxOf (base64Alphabet.getD k.val '=') = k.val := by
    decide +kernel
  rw [symbol_eq]
  exact all bits.toFin

theorem pad_not_mem : '=' ∉ base64Alphabet := by
  decide +kernel

theorem tokens_of_known {group : List Char} (known : Known group) :
    tokens group = group := by
  rw [tokens]
  apply List.takeWhile_eq_self_iff.mpr
  intro c member
  have := ne_of_mem_of_not_mem (known c member) pad_not_mem
  simpa using this

/-- Six bits go into the word at the place the cursor has reached. -/
theorem push_symbol (cursor : ChunkCursor) (bits : BitVec 6) :
    cursor.push (base64Alphabet.idxOf (symbol bits)) =
      { val := cursor.val ||| bits.setWidth 32 <<< (6 * cursor.shift + 2).toNat
        shift := cursor.shift - 1
        n := cursor.n + 1 } := by
  have masked : bits.toNat &&& 0x3f = bits.toNat := by
    rw [Nat.and_two_pow_sub_one_eq_mod _ 6]
    exact Nat.mod_eq_of_lt bits.isLt
  have shifted (k : Nat) :
      BitVec.ofNat 32 (bits.toNat <<< k) = bits.setWidth 32 <<< k := by
    apply BitVec.eq_of_toNat_eq
    have small : bits.toNat < 2 ^ 32 := by
      have := bits.isLt
      omega
    rw [BitVec.toNat_ofNat, BitVec.toNat_shiftLeft, BitVec.toNat_setWidth,
      Nat.mod_eq_of_lt small]
  rw [idxOf_symbol, ChunkCursor.push, masked, shifted]

/-- The word in which four sextets are collected. -/
theorem pushAll_symbols (b₀ b₁ b₂ b₃ : BitVec 6) :
    (pushAll [symbol b₀, symbol b₁, symbol b₂, symbol b₃] .start).val =
      b₀.setWidth 32 <<< 20 ||| b₁.setWidth 32 <<< 14 ||| b₂.setWidth 32 <<< 8 |||
        b₃.setWidth 32 <<< 2 := by
  simp only [pushAll, List.foldl_cons, List.foldl_nil, push_symbol, ChunkCursor.start]
  simp

/-- A missing last character counts as zero bits. -/
theorem pushAll_three (b₀ b₁ b₂ : BitVec 6) :
    (pushAll [symbol b₀, symbol b₁, symbol b₂] .start).val =
      (pushAll [symbol b₀, symbol b₁, symbol b₂, symbol 0#6] .start).val := by
  simp only [pushAll, List.foldl_cons, List.foldl_nil, push_symbol, ChunkCursor.start]
  simp

/-- Two missing characters count as zero bits. -/
theorem pushAll_two (b₀ b₁ : BitVec 6) :
    (pushAll [symbol b₀, symbol b₁] .start).val =
      (pushAll [symbol b₀, symbol b₁, symbol 0#6, symbol 0#6] .start).val := by
  simp only [pushAll, List.foldl_cons, List.foldl_nil, push_symbol, ChunkCursor.start]
  simp

/-- The sextets of 24 bits fill the three upper bytes of the word. -/
theorem sextets_shiftLeft (bits : BitVec 24) :
    ((sextet bits 18).setWidth 32 <<< 20 ||| (sextet bits 12).setWidth 32 <<< 14 |||
      (sextet bits 6).setWidth 32 <<< 8 ||| (sextet bits 0).setWidth 32 <<< 2) <<< 6 =
        bits.setWidth 32 <<< 8 := by
  ext i hi
  simp only [sextet, BitVec.getElem_shiftLeft, BitVec.getElem_or, BitVec.getElem_setWidth,
    BitVec.getLsbD_setWidth, BitVec.getLsbD_ushiftRight]
  grind

theorem pushAll_quantumText (a b c : BitVec 8) :
    (pushAll (quantumText a b c) .start).val <<< 6 = (quantum a b c).setWidth 32 <<< 8 := by
  rw [← sextets_shiftLeft, ← pushAll_symbols]
  rfl

/-- The upper bytes of the word are the bytes of the group. -/
theorem upperByte (a b c : BitVec 8) :
    (((quantum a b c).setWidth 32 <<< 8) >>> 24).setWidth 8 = a ∧
      (((quantum a b c).setWidth 32 <<< 8) >>> 16).setWidth 8 = b ∧
        (((quantum a b c).setWidth 32 <<< 8) >>> 8).setWidth 8 = c := by
  refine ⟨?_, ?_, ?_⟩ <;>
  · ext i hi
    simp only [quantum, BitVec.getElem_setWidth, BitVec.getLsbD_ushiftRight,
      BitVec.getLsbD_shiftLeft, BitVec.getLsbD_or, BitVec.getLsbD_setWidth]
    grind

theorem take_highFirst_quantum (a b c : BitVec 8) {k : Nat} (few : k ≤ 3) :
    (highFirst ((quantum a b c).setWidth 32 <<< 8)).take k = [a, b, c].take k := by
  obtain ⟨first, second, third⟩ := upperByte a b c
  have three : (highFirst ((quantum a b c).setWidth 32 <<< 8)).take 3 = [a, b, c] := by
    simp only [highFirst, List.map_cons, first, second, third, List.take_succ_cons,
      List.take_zero]
  rw [← three, List.take_take, Nat.min_eq_left few]

theorem sextet_zero_of_two (a b : BitVec 8) : sextet (quantum a b 0#8) 0 = 0#6 := by
  ext i hi
  grind [quantum, sextet]

theorem sextet_six_of_one (a : BitVec 8) : sextet (quantum a 0#8 0#8) 6 = 0#6 := by
  ext i hi
  grind [quantum, sextet]

theorem quantumText_known (a b c : BitVec 8) : Known (quantumText a b c) := by
  intro x member
  obtain ⟨k, -, rfl⟩ := List.mem_map.mp member
  exact symbol_mem _

theorem length_quantumText (a b c : BitVec 8) : (quantumText a b c).length = 4 := rfl

/-- A group that starts with at least two characters of three bytes, and nothing after them but
padding, yields one byte less than it has characters. -/
theorem decodeGroup_quantumText (order : ByteOrder) (a b c : BitVec 8) (n count : Nat)
    (enough : 2 ≤ n) (word : (pushAll ((quantumText a b c).take n) .start).val =
      (pushAll (quantumText a b c) .start).val) :
    decodeGroup order ((quantumText a b c).take n ++ List.replicate count '=') =
      .ok ([a, b, c].take (n - 1)) := by
  have known : Known ((quantumText a b c).take n) := by
    intro x member
    exact quantumText_known a b c x (List.mem_of_mem_take member)
  have text : tokens ((quantumText a b c).take n ++ List.replicate count '=') =
      (quantumText a b c).take n := by
    rw [tokens_append_padding, tokens_of_known known]
  have length : ((quantumText a b c).take n).length = min n 4 := by
    rw [List.length_take, length_quantumText]
  rw [decodeGroup_eq, text, if_pos known, length, if_neg (by omega), word,
    pushAll_quantumText, take_highFirst_quantum a b c (Nat.le_of_lt_succ (BitVec.isLt _))]
  match n with
  | 2 | 3 => rfl
  | n + 4 => simp [byteCount]

/-- The decoder undoes the standard encoding. -/
theorem base64Decode_base64Text (order : ByteOrder) (padded : Bool) (bytes : List (BitVec 8)) :
    base64Decode order (base64Text padded bytes) = .ok bytes := by
  induction bytes using base64Text.induct with
  | case1 => exact base64Decode_nil order
  | case2 a =>
      have padding : (if padded then ['=', '='] else []) =
          List.replicate (if padded then 2 else 0) '=' := by
        cases padded <;> rfl
      have word : (pushAll ((quantumText a 0#8 0#8).take 2) .start).val =
          (pushAll (quantumText a 0#8 0#8) .start).val := by
        simp only [quantumText, List.map_cons, List.map_nil, sextet_six_of_one,
          sextet_zero_of_two, List.take_succ_cons, List.take_zero, pushAll_two]
      rw [base64Text, padding, base64Decode_last order (by simp [quantumText])
        (by cases padded <;> simp [quantumText])]
      exact decodeGroup_quantumText order a 0#8 0#8 2 _ (by decide) word
  | case3 a b =>
      have padding : (if padded then ['='] else []) =
          List.replicate (if padded then 1 else 0) '=' := by
        cases padded <;> rfl
      have word : (pushAll ((quantumText a b 0#8).take 3) .start).val =
          (pushAll (quantumText a b 0#8) .start).val := by
        simp only [quantumText, List.map_cons, List.map_nil, sextet_zero_of_two,
          List.take_succ_cons, List.take_zero, pushAll_three]
      rw [base64Text, padding, base64Decode_last order (by simp [quantumText])
        (by cases padded <;> simp [quantumText])]
      exact decodeGroup_quantumText order a b 0#8 3 _ (by decide) word
  | case4 a b c bytes ih =>
      have group : decodeGroup order (quantumText a b c) = .ok [a, b, c] := by
        exact decodeGroup_quantumText order a b c 4 0 (by decide) rfl
      rw [base64Text, base64Decode_append order (length_quantumText a b c), group, ih]
      rfl

end Base64
end ShadowCast
