import Mathlib.Data.List.Basic

/-!
# The command line

Words are consumed left to right: an option takes one word or, when its value stands in the word
after it, two; the other words are positional arguments.  A word of a command line is a
NUL-terminated string, so its end is the end of the list.
-/

namespace ShadowCast

/-- The options. -/
inductive CmdLineOption where
  | audioEncoder
  | frameRate
  | help
  | videoEncoder
  | version
  | sampleRate
  deriving DecidableEq, Repr

/-- What the value of an option is checked against. -/
inductive Validation where
  | acceptableValues (acceptable : List (List Char))
  | validRange (low high : Int)
  | noValidation
  deriving DecidableEq, Repr

/-- An entry of the table of options. -/
structure CmdLineOptionSpec where
  shortName : Char
  option : CmdLineOption
  flags : Nat
  validation : Validation
  deriving DecidableEq, Repr

/-- An option as it is stored. -/
structure CmdLineOptionValue where
  option : CmdLineOption
  flags : Nat
  value : List Char
  deriving DecidableEq, Repr

/-- `std::runtime_error` with its text. -/
structure RuntimeError where
  what : List Char
  deriving DecidableEq, Repr

/-- The parsed command line. -/
structure CmdLine where
  options : List CmdLineOptionValue
  args : List (List Char)
  deriving DecidableEq, Repr

namespace CmdLine

/-- `VALUE_REQUIRED`. -/
def valueRequired : Nat := 1

/-- `VALUE_OPTIONAL`. -/
def valueOptional : Nat := 2

/-- `VALUE_NUMERIC`. -/
def valueNumeric : Nat := 4

/-- An array of sixteen views, the first of which are given and the others empty. -/
def construct (values : List (List Char)) : Validation :=
  .acceptableValues (values ++ List.replicate (16 - values.length) [])

/-- The table of options. -/
def cmdLineSpec : List CmdLineOptionSpec :=
  [{ shortName := 'A', option := .audioEncoder, flags := valueRequired
     validation := .noValidation },
   { shortName := 'f', option := .frameRate, flags := valueRequired ||| valueNumeric
     validation := .validRange 20 70 },
   { shortName := 'h', option := .help, flags := 0, validation := .noValidation },
   { shortName := 's', option := .sampleRate, flags := valueRequired ||| valueNumeric
     validation := .validRange 8000 48000 },
   { shortName := 'v', option := .version, flags := 0, validation := .noValidation },
   { shortName := 'V', option := .videoEncoder, flags := valueRequired
     validation := construct ["h264_nvenc".toList, "hevc_nvenc".toList] }]

/-! ### Numbers and values -/

/-- The errors of `std::from_chars`. -/
inductive FromCharsError where
  | invalidArgument
  | resultOutOfRange
  deriving DecidableEq, Repr

/-- The number a sequence of decimal digits stands for. -/
def digitsValue (digits : List Char) : Int :=
  digits.foldl (fun value c => 10 * value + (c.toNat - '0'.toNat : Nat)) 0

/-- `std::from_chars` for a 32-bit integer: an optional minus sign and the longest run of digits
behind it; what follows is left unread. -/
def fromChars (text : List Char) : Except FromCharsError Int :=
  let digits := (if text.head? = some '-' then text.tail else text).takeWhile Char.isDigit
  let value := if text.head? = some '-' then -digitsValue digits else digitsValue digits
  if digits = [] then .error .invalidArgument
  else if value < -2147483648 ∨ 2147483647 < value then .error .resultOutOfRange
  else .ok value

/-- The visitor `Validator`. -/
def validate (val : List Char) : Validation → Except RuntimeError Unit
  | .acceptableValues acceptable =>
      if val ∈ acceptable then .ok ()
      else .error ⟨"Invalid option value: ".toList ++ val⟩
  | .validRange low high =>
      match fromChars val with
      | .ok result =>
          if result < low ∨ high < result then
            .error ⟨"Option value not in acceptable range: ".toList ++ val⟩
          else .ok ()
      | .error _ => .error ⟨"Option value not in acceptable range: ".toList ++ val⟩
  | .noValidation => .ok ()

/-- The value of an option, once it has passed its checks. -/
def checkValidValue (val : List Char) (spec : CmdLineOptionSpec) :
    Except RuntimeError (List Char) :=
  if spec.flags &&& valueNumeric ≠ 0 ∧ fromChars val matches .error _ then
    .error ⟨"Invalid numeric value: ".toList ++ val⟩
  else
    match validate val spec.validation with
    | .error error => .error error
    | .ok () => .ok val

/-! ### The parser -/

/-- `parse_long_option`, which knows no option. -/
def parseLongOption (key : List Char) :
    Except RuntimeError (CmdLineOptionValue × List (List Char)) :=
  .error ⟨"Unknown option: ".toList ++ key⟩

/-- The part of `parse_short_option` behind the look-up: the value of the option is the rest of
its word or the next of the words `first`.  (Every entry of the table that takes a value requires
it, see `required_of_flags`.) -/
def takeValue (spec : CmdLineOptionSpec) (key : List Char) (first : List (List Char)) :
    Except RuntimeError (CmdLineOptionValue × List (List Char)) :=
  if spec.flags = 0 then .ok ({ option := spec.option, flags := spec.flags, value := [] }, first)
  else if key ≠ [] ∧ (spec.flags &&& valueOptional ≠ 0 ∨ spec.flags &&& valueRequired ≠ 0) then
    match checkValidValue key spec with
    | .error error => .error error
    | .ok value => .ok ({ option := spec.option, flags := spec.flags, value }, first)
  else
    match first with
    | [] => .error ⟨"Missing argument: -".toList ++ [spec.shortName]⟩
    | word :: rest =>
        match checkValidValue word spec with
        | .error error => .error error
        | .ok value => .ok ({ option := spec.option, flags := spec.flags, value }, rest)

/-- The option whose short name heads `key`, and the words that remain. -/
def parseShortOption (key : List Char) (first : List (List Char)) :
    Except RuntimeError (CmdLineOptionValue × List (List Char)) :=
  let savedKey := key.headD (Char.ofNat 0)
  match cmdLineSpec.find? (fun spec => spec.shortName = savedKey) with
  | none => .error ⟨"Unknown option: -".toList ++ [savedKey]⟩
  | some spec => takeValue spec key.tail first

/-- An option word: strip its leading dashes and dispatch on their number. -/
def parseOption (word : List Char) (rest : List (List Char)) :
    Except RuntimeError (CmdLineOptionValue × List (List Char)) :=
  let key := word.dropWhile (· = '-')
  let leadingDashes := (word.takeWhile (· = '-')).length
  match leadingDashes with
  | 1 => parseShortOption key rest
  | _ => parseLongOption key

theorem takeValue_length {spec : CmdLineOptionSpec} {key : List Char}
    {first later : List (List Char)} {value : CmdLineOptionValue}
    (parsed : takeValue spec key first = .ok (value, later)) : later.length ≤ first.length := by
  unfold takeValue at parsed
  split at parsed
  · cases parsed
    exact Nat.le_refl _
  · split at parsed
    · split at parsed
      · cases parsed
      · cases parsed
        exact Nat.le_refl _
    · split at parsed
      · cases parsed
      · split at parsed
        · cases parsed
        · cases parsed
          exact Nat.le_succ _

/-- An option leaves no more words than there were behind it. -/
theorem parseOption_length {word : List Char} {rest later : List (List Char)}
    {value : CmdLineOptionValue} (parsed : parseOption word rest = .ok (value, later)) :
    later.length ≤ rest.length := by
  dsimp only [parseOption] at parsed
  split at parsed
  · dsimp only [parseShortOption] at parsed
    split at parsed
    · cases parsed
    · exact takeValue_length parsed
  · cases parsed

/-- The loop of `parse_cmd_line`.  An empty word ends it. -/
def parseWords : List (List Char) → CmdLine → Except RuntimeError CmdLine
  | [], cmdline => .ok cmdline
  | word :: rest, cmdline =>
      if word = [] then .ok cmdline
      else if word.head? = some '-' ∧ word.tail ≠ [] then
        match _parsed : parseOption word rest with
        | .error error => .error error
        | .ok (value, later) =>
            parseWords later { cmdline with options := cmdline.options ++ [value] }
      else parseWords rest { cmdline with args := cmdline.args ++ [word] }
termination_by words => words.length
decreasing_by
  · exact Nat.lt_succ_of_le (parseOption_length _parsed)
  · simp

/-- The parser. -/
def parseCmdLine (argv : List (List Char)) : Except RuntimeError CmdLine :=
  parseWords argv { options := [], args := [] }

/-- Whether the option is stored. -/
def hasOption (cmdline : CmdLine) (opt : CmdLineOption) : Bool :=
  cmdline.options.any (fun item => item.option = opt)

/-- `get_option_value_dispatch` with the tag `StringValue`: the value stored first for the option.
Without one it throws, and `get_option_value`, which is `noexcept`, terminates. -/
def getOptionValue (cmdline : CmdLine) (opt : CmdLineOption) : Except RuntimeError (List Char) :=
  match cmdline.options.find? (fun item => item.option = opt) with
  | none => .error ⟨"Option doesn't exist".toList⟩
  | some item => .ok item.value

/-- A stored option has a value. -/
theorem hasOption_iff (cmdline : CmdLine) (opt : CmdLineOption) :
    hasOption cmdline opt = true ↔ ∃ value, getOptionValue cmdline opt = .ok value := by
  rw [hasOption, getOptionValue, List.any_eq_true, ← List.find?_isSome]
  cases cmdline.options.find? (fun item => item.option = opt) with
  | none => simp
  | some item => simp

/-! ### One item of a command line -/

/-- The entry with the given short name is unique. -/
theorem find_shortName {spec : CmdLineOptionSpec} (known : spec ∈ cmdLineSpec) :
    cmdLineSpec.find? (fun other => other.shortName = spec.shortName) = some spec := by
  have all : ∀ spec ∈ cmdLineSpec,
      cmdLineSpec.find? (fun other => other.shortName = spec.shortName) = some spec := by
    decide +kernel
  exact all spec known

theorem parseShortOption_eq {spec : CmdLineOptionSpec} (known : spec ∈ cmdLineSpec)
    (key : List Char) (first : List (List Char)) :
    parseShortOption (spec.shortName :: key) first = takeValue spec key first := by
  rw [parseShortOption, List.headD_cons, find_shortName known]
  rfl

/-- An entry that takes a value requires it. -/
theorem required_of_flags {spec : CmdLineOptionSpec} (known : spec ∈ cmdLineSpec)
    (takes : spec.flags ≠ 0) : spec.flags &&& valueRequired ≠ 0 := by
  have all : ∀ spec ∈ cmdLineSpec, spec.flags ≠ 0 → spec.flags &&& valueRequired ≠ 0 := by
    decide +kernel
  exact all spec known takes

theorem shortName_ne_dash {spec : CmdLineOptionSpec} (known : spec ∈ cmdLineSpec) :
    spec.shortName ≠ '-' := by
  have all : ∀ spec ∈ cmdLineSpec, spec.shortName ≠ '-' := by
    decide +kernel
  exact all spec known

/-- A word that is an option with a single dash. -/
theorem parseOption_dash {c : Char} (letter : c ≠ '-') (key : List Char)
    (rest : List (List Char)) :
    parseOption ('-' :: c :: key) rest = parseShortOption (c :: key) rest := by
  simp [parseOption, letter]

theorem parseWords_positional {word : List Char} (nonempty : word ≠ [])
    (plain : word = ['-'] ∨ word.head? ≠ some '-') (rest : List (List Char))
    (cmdline : CmdLine) :
    parseWords (word :: rest) cmdline =
      parseWords rest { cmdline with args := cmdline.args ++ [word] } := by
  have not_option : ¬(word.head? = some '-' ∧ word.tail ≠ []) := by
    rintro ⟨dash, more⟩
    rcases plain with rfl | plain
    · exact more rfl
    · exact plain dash
  rw [parseWords, if_neg nonempty, if_neg not_option]

/-- An option of the table is stored, and the parser goes on behind what it consumed. -/
theorem parseWords_option {spec : CmdLineOptionSpec} (known : spec ∈ cmdLineSpec)
    {key : List Char} {rest later : List (List Char)} {value : CmdLineOptionValue}
    (taken : takeValue spec key rest = .ok (value, later)) (cmdline : CmdLine) :
    parseWords (('-' :: spec.shortName :: key) :: rest) cmdline =
      parseWords later { cmdline with options := cmdline.options ++ [value] } := by
  have parsed : parseOption ('-' :: spec.shortName :: key) rest = .ok (value, later) := by
    rw [parseOption_dash (shortName_ne_dash known), parseShortOption_eq known, taken]
  rw [parseWords, if_neg (by simp), if_pos (by simp)]
  split
  · next error failed =>
      rw [parsed] at failed
      cases failed
  · next stored words found =>
      rw [parsed] at found
      cases found
      rfl

end CmdLine
end ShadowCast
