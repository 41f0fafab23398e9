import ShadowCast.CommandLine
import Mathlib.Data.List.TakeWhile

/-!
# Which option values are accepted

A number is read up to its first character that is not a digit, and the array of acceptable values
has empty entries.  So the parser accepts, besides the values the table of options calls valid, the
empty video encoder and numbers in range with something behind them, and nothing else.
-/

namespace ShadowCast
namespace CmdLine

/-! ### Valid values -/

/-- The text is the decimal integer `n`. -/
inductive DecimalInteger : List Char → Int → Prop
  | natural (digits : List Char) (nonempty : digits ≠ []) (decimal : ∀ c ∈ digits, c.isDigit) :
      DecimalInteger digits (digitsValue digits)
  | negative (digits : List Char) (nonempty : digits ≠ []) (decimal : ∀ c ∈ digits, c.isDigit) :
      DecimalInteger ('-' :: digits) (-digitsValue digits)

/-- The text is a decimal integer within the range. -/
def InRange (low high : Int) (text : List Char) : Prop :=
  ∃ n, DecimalInteger text n ∧ low ≤ n ∧ n ≤ high

/-- The names of video encoders which the table of options lists. -/
def encoderNames : List (List Char) := ["h264_nvenc".toList, "hevc_nvenc".toList]

/-- The value is valid for the option. -/
def ValidValue (spec : CmdLineOptionSpec) (value : List Char) : Prop :=
  match spec.validation with
  | .acceptableValues _ => value ∈ encoderNames
  | .validRange low high => InRange low high value
  | .noValidation => True

/-- The value is a loose one: an empty name, or a number in range with something behind it. -/
def LooseValue (spec : CmdLineOptionSpec) (value : List Char) : Prop :=
  match spec.validation with
  | .acceptableValues _ => value = []
  | .validRange low high => ∃ number c rest,
      value = number ++ c :: rest ∧ c.isDigit = false ∧ InRange low high number
  | .noValidation => False

theorem DecimalInteger.ne_nil {text : List Char} {n : Int} (integer : DecimalInteger text n) :
    text ≠ [] := by
  cases integer with
  | natural _ nonempty => exact nonempty
  | negative digits => simp

/-- Behind its first character, a decimal integer has only digits. -/
theorem DecimalInteger.tail_digits {text : List Char} {n : Int}
    (integer : DecimalInteger text n) : ∀ c ∈ text.tail, c.isDigit := by
  cases integer with
  | natural _ nonempty decimal => exact fun c member => decimal c (List.mem_of_mem_tail member)
  | negative digits nonempty decimal => exact decimal

/-- What `std::from_chars` reads: a decimal integer that no digit follows. -/
theorem fromChars_of_decimal {number : List Char} {n : Int} (integer : DecimalInteger number n)
    {rest : List Char} (ended : ∀ c ∈ rest.head?, c.isDigit = false) :
    fromChars (number ++ rest) =
      if n < -2147483648 ∨ 2147483647 < n then .error .resultOutOfRange else .ok n := by
  have run {digits : List Char} (decimal : ∀ c ∈ digits, c.isDigit) :
      (digits ++ rest).takeWhile Char.isDigit = digits := by
    rw [List.takeWhile_append_of_pos decimal]
    cases rest with
    | nil => simp
    | cons c rest => simp [ended c rfl]
  cases integer with
  | natural _ nonempty decimal =>
      have unsigned : (number ++ rest).head? ≠ some '-' := by
        cases number with
        | nil => exact absurd rfl nonempty
        | cons c digits =>
            rintro ⟨⟩
            exact absurd (decimal '-' List.mem_cons_self) (by decide)
      rw [fromChars, if_neg unsigned, if_neg unsigned, run decimal, if_neg nonempty]
  | negative digits nonempty decimal =>
      simp only [fromChars, List.cons_append, List.head?_cons, List.tail_cons, if_true,
        run decimal, if_neg nonempty]

/-- `std::from_chars` reads a decimal integer, up to a character that is not a digit. -/
theorem decimal_of_fromChars {text : List Char} {n : Int} (read : fromChars text = .ok n) :
    ∃ number rest, text = number ++ rest ∧ DecimalInteger number n ∧
      ∀ c ∈ rest.head?, c.isDigit = false := by
  have ended (digits : List Char) :
      ∀ c ∈ (digits.dropWhile Char.isDigit).head?, c.isDigit = false := by
    intro c first
    have := List.head?_dropWhile_not Char.isDigit digits
    rw [Option.mem_def.mp first] at this
    simpa using this
  have decimal (digits : List Char) : ∀ c ∈ digits.takeWhile Char.isDigit, c.isDigit :=
    fun c member => List.mem_takeWhile_imp member
  unfold fromChars at read
  by_cases signed : text.head? = some '-'
  · obtain ⟨digits, rfl⟩ : ∃ digits, text = '-' :: digits := by
      cases text with
      | nil => simp at signed
      | cons c digits => exact ⟨digits, by simpa using signed⟩
    simp only [List.head?_cons, if_pos, List.tail_cons] at read
    split at read
    · cases read
    · split at read
      · cases read
      · rename_i nonempty _
        cases read
        exact ⟨_, _, (congrArg _ List.takeWhile_append_dropWhile).symm,
          .negative _ nonempty (decimal digits), ended digits⟩
  · simp only [if_neg signed] at read
    split at read
    · cases read
    · split at read
      · cases read
      · rename_i nonempty _
        cases read
        exact ⟨_, _, List.takeWhile_append_dropWhile.symm, .natural _ nonempty (decimal text),
          ended text⟩

/-! ### Accepted values -/

theorem validate_acceptable_iff (value : List Char) (acceptable : List (List Char)) :
    validate value (.acceptableValues acceptable) = .ok () ↔ value ∈ acceptable := by
  rw [validate]
  split
  · next known => exact iff_of_true rfl known
  · next unknown => exact iff_of_false nofun unknown

theorem validate_range_iff (value : List Char) (low high : Int) :
    validate value (.validRange low high) = .ok () ↔
      ∃ n, fromChars value = .ok n ∧ low ≤ n ∧ n ≤ high := by
  rw [validate]
  split
  · next n read =>
      split
      · next outside =>
          refine iff_of_false nofun ?_
          rintro ⟨m, same, above, below⟩
          cases read.symm.trans same
          omega
      · next inside => exact iff_of_true rfl ⟨n, read, by omega, by omega⟩
  · next error failed =>
      refine iff_of_false nofun ?_
      rintro ⟨n, read, -⟩
      cases failed.symm.trans read

theorem checkValidValue_eq_ok_iff (spec : CmdLineOptionSpec) (value value' : List Char) :
    checkValidValue value spec = .ok value' ↔
      value' = value ∧ validate value spec.validation = .ok () ∧
        (spec.flags &&& valueNumeric ≠ 0 → ∃ n, fromChars value = .ok n) := by
  have checked {result : Except RuntimeError (List Char)}
      (failing : ∀ error, validate value spec.validation = .error error → result = .error error)
      (passing : validate value spec.validation = .ok () → result = .ok value) :
      result = .ok value' ↔ value' = value ∧ validate value spec.validation = .ok () := by
    cases validated : validate value spec.validation with
    | error error => simp [failing error validated]
    | ok passed => simp [passing validated, eq_comm]
  rw [checkValidValue]
  cases fromChars value with
  | error error =>
      by_cases numeric : spec.flags &&& valueNumeric ≠ 0
      · rw [if_pos ⟨numeric, rfl⟩]
        refine iff_of_false (fun accepted => by cases accepted) fun passed => ?_
        obtain ⟨n, read⟩ := passed.2.2 numeric
        cases read
      · rw [if_neg fun failed => numeric failed.1, ← and_assoc,
          and_iff_left fun text => absurd text numeric]
        exact checked (by simp +contextual) (by simp +contextual)
  | ok n =>
      rw [if_neg (fun failed => by cases failed.2), ← and_assoc, and_iff_left fun _ => ⟨n, rfl⟩]
      exact checked (by simp +contextual) (by simp +contextual)

/-- A value is read as a number in a 32-bit range when it is one or starts with one. -/
theorem fromChars_inRange_iff {low high : Int} (least : -2147483648 ≤ low)
    (greatest : high ≤ 2147483647) (value : List Char) :
    (∃ n, fromChars value = .ok n ∧ low ≤ n ∧ n ≤ high) ↔
      InRange low high value ∨ ∃ number c rest,
        value = number ++ c :: rest ∧ c.isDigit = false ∧ InRange low high number := by
  constructor
  · rintro ⟨n, read, above, below⟩
    obtain ⟨number, rest, rfl, integer, ended⟩ := decimal_of_fromChars read
    cases rest with
    | nil => exact Or.inl (by simpa using ⟨n, integer, above, below⟩)
    | cons c rest =>
        exact Or.inr ⟨number, c, rest, rfl, ended c rfl, n, integer, above, below⟩
  · have reads {number rest : List Char} (inside : InRange low high number)
        (ended : ∀ c ∈ rest.head?, c.isDigit = false) :
        ∃ n, fromChars (number ++ rest) = .ok n ∧ low ≤ n ∧ n ≤ high := by
      obtain ⟨n, integer, above, below⟩ := inside
      refine ⟨n, ?_, above, below⟩
      rw [fromChars_of_decimal integer ended, if_neg (by omega)]
    rintro (inside | ⟨number, c, rest, rfl, junk, inside⟩)
    · have whole := @reads value [] inside nofun
      simpa using whole
    · exact reads inside (by simpa using junk)

/-- The table of options, as far as its validations are concerned. -/
theorem validation_cases {spec : CmdLineOptionSpec} (known : spec ∈ cmdLineSpec) :
    spec.validation = .noValidation ∧ spec.flags &&& valueNumeric = 0 ∨
      spec.validation = construct encoderNames ∧ spec.flags &&& valueNumeric = 0 ∨
        ∃ low high, spec.validation = .validRange low high ∧ -2147483648 ≤ low ∧
          high ≤ 2147483647 := by
  simp only [cmdLineSpec, List.mem_cons, List.not_mem_nil, or_false] at known
  rcases known with rfl | rfl | rfl | rfl | rfl | rfl
  · exact Or.inl ⟨rfl, rfl⟩
  · exact Or.inr (Or.inr ⟨20, 70, rfl, by decide, by decide⟩)
  · exact Or.inl ⟨rfl, rfl⟩
  · exact Or.inr (Or.inr ⟨8000, 48000, rfl, by decide, by decide⟩)
  · exact Or.inl ⟨rfl, rfl⟩
  · exact Or.inr (Or.inl ⟨rfl, rfl⟩)

/-- Exactly the valid and the loose values of an option are accepted. -/
theorem checkValidValue_iff {spec : CmdLineOptionSpec} (known : spec ∈ cmdLineSpec)
    (value value' : List Char) :
    checkValidValue value spec = .ok value' ↔
      value' = value ∧ (ValidValue spec value ∨ LooseValue spec value) := by
  rw [checkValidValue_eq_ok_iff]
  unfold ValidValue LooseValue
  rcases validation_cases known with ⟨none, text⟩ | ⟨names, text⟩ |
    ⟨low, high, range, least, greatest⟩
  · simp [none, text, validate]
  · have accepted : value ∈ encoderNames ++ List.replicate (16 - encoderNames.length) [] ↔
        value ∈ encoderNames ∨ value = [] := by
      rw [List.mem_append, List.mem_replicate]
      exact or_congr_right (and_iff_right (by decide))
    simp only [names, construct, validate_acceptable_iff, accepted, text]
    simp
  · simp only [range, validate_range_iff, ← fromChars_inRange_iff least greatest]
    exact and_congr_right fun _ => ⟨fun passed => passed.1, fun ⟨n, read, inside⟩ =>
      ⟨⟨n, read, inside⟩, fun _ => ⟨n, read⟩⟩⟩

/-- No value is valid and loose. -/
theorem ValidValue.not_loose {spec : CmdLineOptionSpec} {value : List Char}
    (valid : ValidValue spec value) : ¬LooseValue spec value := by
  unfold ValidValue at valid
  unfold LooseValue
  cases validation : spec.validation with
  | acceptableValues acceptable =>
      have nonempty : [] ∉ encoderNames := by decide
      rw [validation] at valid
      rintro rfl
      exact nonempty valid
  | validRange low high =>
      rw [validation] at valid
      obtain ⟨n, integer, -⟩ := valid
      rintro ⟨number, c, rest, rfl, junk, m, start, -⟩
      have digit := integer.tail_digits c (by
        rw [List.tail_append_of_ne_nil start.ne_nil]
        simp)
      simp [digit] at junk
  | noValidation => exact id

/-! ### The options of an argument vector -/

/-- How an option of the table is read, whatever its value is: the value, empty if it takes none,
and the words behind it.  The value may be missing. -/
def splitValue (spec : CmdLineOptionSpec) (key : List Char) (first : List (List Char)) :
    Option (List Char × List (List Char)) :=
  if spec.flags = 0 then some ([], first)
  else if key ≠ [] then some (key, first)
  else
    match first with
    | [] => none
    | word :: rest => some (word, rest)

/-- The option a word names, its value, and the words behind them. -/
def readOption (word : List Char) (rest : List (List Char)) :
    Option ((CmdLineOptionSpec × List Char) × List (List Char)) :=
  match word with
  | '-' :: c :: key =>
      match cmdLineSpec.find? (fun spec => spec.shortName = c) with
      | none => none
      | some spec => (splitValue spec key rest).map fun split => ((spec, split.1), split.2)
  | _ => none

/-- An option of the table with a value, as it is stored. -/
def storedOption (given : CmdLineOptionSpec × List Char) : CmdLineOptionValue :=
  { option := given.1.option, flags := given.1.flags, value := given.2 }

/-- The value passes the checks of the option, if it takes one. -/
def Passes (given : CmdLineOptionSpec × List Char) : Prop :=
  given.1.flags ≠ 0 → checkValidValue given.2 given.1 = .ok given.2

theorem splitValue_length {spec : CmdLineOptionSpec} {key value : List Char}
    {first later : List (List Char)} (split : splitValue spec key first = some (value, later)) :
    later.length ≤ first.length := by
  unfold splitValue at split
  grind

theorem readOption_length {word : List Char} {rest later : List (List Char)}
    {given : CmdLineOptionSpec × List Char} (read : readOption word rest = some (given, later)) :
    later.length ≤ rest.length := by
  unfold readOption at read
  split at read
  · split at read
    · cases read
    · obtain ⟨⟨value, words⟩, split, same⟩ := Option.map_eq_some_iff.mp read
      cases same
      exact splitValue_length split
  · cases read

theorem mem_of_readOption {word : List Char} {rest later : List (List Char)}
    {given : CmdLineOptionSpec × List Char} (read : readOption word rest = some (given, later)) :
    given.1 ∈ cmdLineSpec := by
  unfold readOption at read
  split at read
  · split at read
    · cases read
    · next spec found =>
        obtain ⟨split, -, same⟩ := Option.map_eq_some_iff.mp read
        cases same
        exact List.mem_of_find?_eq_some found
  · cases read

/-- The options of an argument vector, whatever their values are; there are none if an option is
unknown or lacks its value. -/
def givenOptions : List (List Char) → Option (List (CmdLineOptionSpec × List Char))
  | [] => some []
  | word :: rest =>
      if word = [] then some []
      else if word.head? = some '-' ∧ word.tail ≠ [] then
        match _read : readOption word rest with
        | none => none
        | some (given, later) => (givenOptions later).map (given :: ·)
      else givenOptions rest
termination_by words => words.length
decreasing_by
  · exact Nat.lt_succ_of_le (readOption_length _read)
  · simp

/-- An option of the table is taken when its value is there and passes the checks. -/
theorem takeValue_eq_ok_iff {spec : CmdLineOptionSpec} (known : spec ∈ cmdLineSpec)
    (key : List Char) (first later : List (List Char)) (stored : CmdLineOptionValue) :
    takeValue spec key first = .ok (stored, later) ↔
      ∃ value, splitValue spec key first = some (value, later) ∧ Passes (spec, value) ∧
        stored = storedOption (spec, value) := by
  have taken (word : List Char) (rest : List (List Char)) (takes : spec.flags ≠ 0)
      {result : Except RuntimeError (CmdLineOptionValue × List (List Char))}
      (failing : ∀ error, checkValidValue word spec = .error error → result = .error error)
      (passing : ∀ value, checkValidValue word spec = .ok value →
        result = .ok ({ option := spec.option, flags := spec.flags, value }, rest)) :
      result = .ok (stored, later) ↔
        rest = later ∧ Passes (spec, word) ∧ stored = storedOption (spec, word) := by
    simp only [Passes, storedOption, takes, ne_eq, not_false_eq_true, true_imp_iff]
    cases checked : checkValidValue word spec with
    | error error => simp [failing error checked]
    | ok value =>
        obtain ⟨rfl, -⟩ := (checkValidValue_eq_ok_iff spec word value).mp checked
        simp [passing value checked, and_comm, eq_comm]
  unfold takeValue splitValue
  by_cases bare : spec.flags = 0
  · simp [bare, Passes, storedOption, and_comm, eq_comm]
  · have required := required_of_flags known bare
    simp only [if_neg bare, required, ne_eq, not_false_eq_true, or_true, and_true]
    by_cases joined : key = []
    · rw [if_neg (not_not.mpr joined), if_neg (not_not.mpr joined)]
      cases first with
      | nil => exact iff_of_false (by simp) (by simp)
      | cons word rest =>
          refine (taken word rest bare (by simp +contextual) (by simp +contextual)).trans ?_
          simp [and_assoc]
    · rw [if_pos joined, if_pos joined]
      refine (taken key first bare (by simp +contextual) (by simp +contextual)).trans ?_
      simp [and_assoc]

theorem parseOption_eq_ok_iff (c : Char) (key : List Char) (rest later : List (List Char))
    (stored : CmdLineOptionValue) :
    parseOption ('-' :: c :: key) rest = .ok (stored, later) ↔
      ∃ given, readOption ('-' :: c :: key) rest = some (given, later) ∧ Passes given ∧
        stored = storedOption given := by
  cases found : cmdLineSpec.find? (fun spec => spec.shortName = c) with
  | none =>
      have unread : readOption ('-' :: c :: key) rest = none := by simp only [readOption, found]
      rw [unread]
      refine iff_of_false ?_ (by simp)
      by_cases dash : c = '-'
      · simp [parseOption, dash, parseLongOption]
      · rw [parseOption_dash dash, parseShortOption, List.headD_cons, found]
        simp
  | some spec =>
      have known : spec ∈ cmdLineSpec := List.mem_of_find?_eq_some found
      obtain rfl : spec.shortName = c := by simpa using List.find?_some found
      rw [parseOption_dash (shortName_ne_dash known), parseShortOption_eq known,
        takeValue_eq_ok_iff known]
      simp only [readOption, found, Option.map_eq_some_iff]
      constructor
      · rintro ⟨value, split, passes, same⟩
        exact ⟨(spec, value), ⟨(value, later), split, rfl⟩, passes, same⟩
      · rintro ⟨given, ⟨⟨value, words⟩, split, same⟩, passes, rfl⟩
        cases same
        exact ⟨value, split, passes, rfl⟩

/-- A word that is an option. -/
theorem exists_of_option {word : List Char} (isOption : word.head? = some '-' ∧ word.tail ≠ []) :
    ∃ c key, word = '-' :: c :: key := by
  match word with
  | [] => simp at isOption
  | [c] => simp at isOption
  | dash :: c :: key => exact ⟨c, key, by simpa using isOption⟩

/-- The parser at an option. -/
theorem parseWords_of_option {word : List Char}
    (isOption : word.head? = some '-' ∧ word.tail ≠ []) (rest : List (List Char))
    (cmdline : CmdLine) :
    parseWords (word :: rest) cmdline =
      match parseOption word rest with
      | .error error => .error error
      | .ok (value, later) =>
          parseWords later { cmdline with options := cmdline.options ++ [value] } := by
  have nonempty : word ≠ [] := by
    rintro rfl
    simp at isOption
  rw [parseWords, if_neg nonempty, if_pos isOption]
  split
  · next failed => rw [failed]
  · next parsed => rw [parsed]

theorem givenOptions_of_read {word : List Char} {rest later : List (List Char)}
    {given : CmdLineOptionSpec × List Char} (read : readOption word rest = some (given, later))
    (isOption : word.head? = some '-' ∧ word.tail ≠ []) :
    givenOptions (word :: rest) = (givenOptions later).map (given :: ·) := by
  have nonempty : word ≠ [] := by
    rintro rfl
    simp at isOption
  rw [givenOptions, if_neg nonempty, if_pos isOption]
  split
  · next unread => cases unread.symm.trans read
  · next given' later' read' =>
      cases read'.symm.trans read
      rfl

theorem givenOptions_of_unread {word : List Char} {rest : List (List Char)}
    (unread : readOption word rest = none)
    (isOption : word.head? = some '-' ∧ word.tail ≠ []) : givenOptions (word :: rest) = none := by
  have nonempty : word ≠ [] := by
    rintro rfl
    simp at isOption
  rw [givenOptions, if_neg nonempty, if_pos isOption]
  split
  · rfl
  · next read => cases unread.symm.trans read

/-- The parser succeeds when no option is unknown or lacks its value and every value passes its
checks; then it stores the options as they are given. -/
theorem parseWords_ok_iff (words : List (List Char)) (cmdline : CmdLine)
    (options : List CmdLineOptionValue) :
    (∃ parsed, parseWords words cmdline = .ok parsed ∧ parsed.options = options) ↔
      ∃ given, givenOptions words = some given ∧ (∀ pair ∈ given, Passes pair) ∧
        options = cmdline.options ++ given.map storedOption := by
  induction words, cmdline using parseWords.induct with
  | case1 cmdline => simp [parseWords, givenOptions, eq_comm]
  | case2 rest cmdline => simp [parseWords, givenOptions, eq_comm]
  | case3 word rest cmdline nonempty isOption error failed =>
      obtain ⟨c, key, rfl⟩ := exists_of_option isOption
      rw [parseWords_of_option isOption, failed]
      refine iff_of_false (by simp) ?_
      rintro ⟨given, options, passes, -⟩
      cases read : readOption ('-' :: c :: key) rest with
      | none => cases (givenOptions_of_unread read isOption).symm.trans options
      | some first =>
          obtain ⟨first, later⟩ := first
          rw [givenOptions_of_read read isOption] at options
          obtain ⟨others, -, rfl⟩ := Option.map_eq_some_iff.mp options
          have taken := (parseOption_eq_ok_iff c key rest later _).mpr
            ⟨first, read, passes first List.mem_cons_self, rfl⟩
          cases failed.symm.trans taken
  | case4 word rest cmdline nonempty isOption value later parsed ih =>
      obtain ⟨c, key, rfl⟩ := exists_of_option isOption
      obtain ⟨first, read, passes, rfl⟩ := (parseOption_eq_ok_iff c key rest later _).mp parsed
      simp only [parseWords_of_option isOption, parsed]
      rw [ih, givenOptions_of_read read isOption]
      constructor
      · rintro ⟨others, options, passOthers, rfl⟩
        refine ⟨first :: others, by rw [options]; rfl, ?_, by simp⟩
        exact List.forall_mem_cons.mpr ⟨passes, passOthers⟩
      · rintro ⟨given, options, passAll, rfl⟩
        obtain ⟨others, found, rfl⟩ := Option.map_eq_some_iff.mp options
        exact ⟨others, found, (List.forall_mem_cons.mp passAll).2, by simp⟩
  | case5 word rest cmdline nonempty positional ih =>
      rw [parseWords, if_neg nonempty, if_neg positional, givenOptions, if_neg nonempty,
        if_neg positional]
      exact ih

/-- Given options are options of the table. -/
theorem mem_of_givenOptions {words : List (List Char)}
    {given : List (CmdLineOptionSpec × List Char)} (found : givenOptions words = some given) :
    ∀ pair ∈ given, pair.1 ∈ cmdLineSpec := by
  induction words using givenOptions.induct generalizing given with
  | case1 =>
      obtain rfl : [] = given := by simpa [givenOptions] using found
      simp
  | case2 rest =>
      obtain rfl : [] = given := by simpa [givenOptions] using found
      simp
  | case3 word rest nonempty isOption unread =>
      cases (givenOptions_of_unread unread isOption).symm.trans found
  | case4 word rest nonempty isOption first later read ih =>
      rw [givenOptions_of_read read isOption] at found
      obtain ⟨others, found', rfl⟩ := Option.map_eq_some_iff.mp found
      exact List.forall_mem_cons.mpr ⟨mem_of_readOption read, ih found'⟩
  | case5 word rest nonempty positional ih =>
      rw [givenOptions, if_neg nonempty, if_neg positional] at found
      exact ih found

/-! ### What the parser accepts -/

/-- The values that are stored for an argument vector which the parser accepts are valid. -/
def ValidatesExactly (argv : List (List Char)) : Prop :=
  ∀ cmdline, parseCmdLine argv = .ok cmdline → ∀ stored ∈ cmdline.options,
    ∀ spec ∈ cmdLineSpec, spec.option = stored.option → ValidValue spec stored.value

/-- A value can stand in the word of its option or in the next one, unless it is empty. -/
def SpellingsAgree : Prop :=
  ∀ spec ∈ cmdLineSpec, spec.flags ≠ 0 → ∀ value ≠ [], ∀ rest cmdline,
    parseWords (('-' :: spec.shortName :: value) :: rest) cmdline =
      parseWords (['-', spec.shortName] :: value :: rest) cmdline

/-- No value is loose, unless the parser has another reason to fail: an option that is unknown or
lacks its value, or a value that is neither valid nor loose. -/
def AvoidsLoose (argv : List (List Char)) : Prop :=
  ∀ given, givenOptions argv = some given →
    (∀ pair ∈ given, ¬LooseValue pair.1 pair.2) ∨
      ∃ pair ∈ given, ¬ValidValue pair.1 pair.2 ∧ ¬LooseValue pair.1 pair.2

theorem spellingsAgree : SpellingsAgree := by
  intro spec known takes value nonempty rest cmdline
  have required := required_of_flags known takes
  have same : takeValue spec value rest = takeValue spec [] (value :: rest) := by
    unfold takeValue
    rw [if_neg takes, if_neg takes, if_pos ⟨nonempty, Or.inr required⟩, if_neg (by simp)]
  rw [parseWords_of_option (by simp), parseWords_of_option (by simp),
    parseOption_dash (shortName_ne_dash known), parseOption_dash (shortName_ne_dash known),
    parseShortOption_eq known, parseShortOption_eq known, same]

/-- Given values are checked: exactly the valid and the loose ones pass. -/
theorem passes_iff {given : CmdLineOptionSpec × List Char} (known : given.1 ∈ cmdLineSpec) :
    Passes given ↔ ValidValue given.1 given.2 ∨ LooseValue given.1 given.2 := by
  by_cases bare : given.1.flags = 0
  · have none : given.1.validation = .noValidation := by
      have all : ∀ spec ∈ cmdLineSpec, spec.flags = 0 → spec.validation = .noValidation := by
        decide +kernel
      exact all given.1 known bare
    simp [Passes, bare, ValidValue, none]
  · rw [Passes, checkValidValue_iff known]
    simp [bare]

/-- An entry of the table is found by its option. -/
theorem spec_unique {spec other : CmdLineOptionSpec} (known : spec ∈ cmdLineSpec)
    (otherKnown : other ∈ cmdLineSpec) (same : spec.option = other.option) : spec = other := by
  have all : ∀ spec ∈ cmdLineSpec, ∀ other ∈ cmdLineSpec, spec.option = other.option →
      spec = other := by
    decide +kernel
  exact all spec known other otherKnown same

/-- The parser accepts only valid values, in both spellings alike, exactly when it is given no
loose value or fails for another reason. -/
theorem validatesExactly_iff (argv : List (List Char)) :
    ValidatesExactly argv ∧ SpellingsAgree ↔ AvoidsLoose argv := by
  rw [and_iff_left spellingsAgree]
  constructor
  · intro exact_ given found
    by_contra loose
    simp only [not_or, not_forall, not_exists, not_and, not_not] at loose
    obtain ⟨⟨pair, member, isLoose⟩, accepted⟩ := loose
    have known := mem_of_givenOptions found
    have passes : ∀ pair ∈ given, Passes pair := fun pair member =>
      (passes_iff (known pair member)).mpr (or_iff_not_imp_left.mpr (accepted pair member))
    obtain ⟨cmdline, parsed, options⟩ :=
      (parseWords_ok_iff argv { options := [], args := [] } _).mpr ⟨given, found, passes, rfl⟩
    have valid := exact_ cmdline parsed (storedOption pair)
      (by rw [options]; exact List.mem_map_of_mem member) pair.1 (known pair member) rfl
    exact valid.not_loose isLoose
  · intro avoids cmdline parsed stored member spec known same
    obtain ⟨given, found, passes, options⟩ :=
      (parseWords_ok_iff argv { options := [], args := [] } _).mp ⟨cmdline, parsed, rfl⟩
    rw [options, List.nil_append] at member
    obtain ⟨pair, inside, rfl⟩ := List.mem_map.mp member
    have tabled := mem_of_givenOptions found
    obtain rfl := spec_unique known (tabled pair inside) same
    have accepted := fun pair member => (passes_iff (tabled pair member)).mp (passes pair member)
    rcases avoids given found with none | ⟨refused, among, invalid, tight⟩
    · exact (accepted pair inside).resolve_right (none pair inside)
    · exact absurd (accepted refused among) (not_or.mpr ⟨invalid, tight⟩)

/-- An empty encoder, and a frame rate with a letter behind it. -/
theorem loose_values_are_accepted :
    ¬ValidatesExactly ["-V".toList, [], "out.mp4".toList] ∧
      ¬ValidatesExactly ["-f30x".toList, "out.mp4".toList] := by
  constructor
  · intro valid
    have parsed : parseCmdLine ["-V".toList, [], "out.mp4".toList] =
        .ok { options := [⟨.videoEncoder, 1, []⟩], args := ["out.mp4".toList] } := by
      decide +kernel
    have listed : [] ∈ encoderNames :=
      valid _ parsed _ List.mem_cons_self cmdLineSpec[5] (by decide) rfl
    revert listed
    decide
  · intro valid
    have parsed : parseCmdLine ["-f30x".toList, "out.mp4".toList] =
        .ok { options := [⟨.frameRate, 5, "30x".toList⟩], args := ["out.mp4".toList] } := by
      decide +kernel
    obtain ⟨n, integer, -⟩ := valid _ parsed _ List.mem_cons_self cmdLineSpec[1] (by decide) rfl
    exact absurd (integer.tail_digits 'x' (by decide)) (by decide)

end CmdLine
end ShadowCast
