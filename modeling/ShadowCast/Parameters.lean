import ShadowCast.OptionValues
import ShadowCast.FrameTime

/-!
# The parameters of an accepted command line

The values of the options are stored as text and converted again when the parameters are made.  The
conversion can throw, or fail an assertion, and the frame rate is divided by.  None of this happens
on a command line which the parser accepted, since what is converted then is the text that was
checked.
-/

namespace ShadowCast
namespace CmdLine

/-- What ends a `noexcept` function early. -/
inductive Failure where
  | exception (error : RuntimeError)
  | assertionFailed
  | divisionByZero
  deriving DecidableEq, Repr

/-- `get_option_value_dispatch` with the tag `NumberValue`. -/
def getOptionNumber (cmdline : CmdLine) (opt : CmdLineOption) : Except Failure Int :=
  match cmdline.options.find? (fun item => item.option = opt) with
  | none => .error (.exception ⟨"Option doesn't exist".toList⟩)
  | some item =>
      if item.flags &&& valueNumeric = 0 then
        .error (.exception ⟨"Option doesn't hold a numeric value".toList⟩)
      else
        match fromChars item.value with
        | .error _ => .error .assertionFailed
        | .ok val => .ok val

/-- `get_option_value_or_default` with the tag `StringValue`. -/
def getOptionValueOrDefault (cmdline : CmdLine) (opt : CmdLineOption) (dflt : List Char) :
    Except Failure (List Char) :=
  if ¬hasOption cmdline opt then .ok dflt
  else
    match getOptionValue cmdline opt with
    | .error error => .error (.exception error)
    | .ok value => .ok value

/-- `get_option_value_or_default` with the tag `NumberValue`. -/
def getOptionNumberOrDefault (cmdline : CmdLine) (opt : CmdLineOption) (dflt : Int) :
    Except Failure Int :=
  if ¬hasOption cmdline opt then .ok dflt else getOptionNumber cmdline opt

end CmdLine

/-- `CmdLineError::Type`. -/
inductive CmdLineErrorType where
  | showHelp
  | showVersion
  | error
  deriving DecidableEq, Repr

/-- Why there are no parameters. -/
structure CmdLineError where
  type : CmdLineErrorType
  what : List Char := []
  deriving DecidableEq, Repr

/-- The parameters of a capture. -/
structure Parameters where
  videoEncoder : List Char
  audioEncoder : List Char
  frameTime : FrameTime
  sampleRate : Int
  outputFile : List Char
  strictFrameTime : Bool := true
  deriving DecidableEq, Repr

namespace CmdLine

/-- `from_fps`, with its division. -/
def dividedFromFps (fps : UInt32) : Except Failure FrameTime :=
  if fps = 0 then .error .divisionByZero else .ok (fromFps fps)

/-- `read_env`, given the value of `SHADOW_CAST_STRICT_FPS`. -/
def readEnv (strictFrameTime : Option (List Char)) (params : Parameters) : Parameters :=
  match strictFrameTime with
  | none => params
  | some value => { params with strictFrameTime := value = "1".toList }

/-- `get_parameters`. -/
def getParameters (cmdline : CmdLine) (env : Option (List Char)) :
    Except Failure (Except CmdLineError Parameters) := do
  if hasOption cmdline .help then return .error { type := .showHelp }
  if hasOption cmdline .version then return .error { type := .showVersion }
  let videoEncoder ← getOptionValueOrDefault cmdline .videoEncoder "hevc_nvenc".toList
  let audioEncoder ← getOptionValueOrDefault cmdline .audioEncoder "libopus".toList
  let frameTime ← dividedFromFps (.ofInt (← getOptionNumberOrDefault cmdline .frameRate 60))
  let sampleRate ← getOptionNumberOrDefault cmdline .sampleRate 48000
  let outputFile := cmdline.args.headD []
  if outputFile = [] then
    return .error { type := .error, what := "Missing parameter: output file".toList }
  return .ok (readEnv env { videoEncoder, audioEncoder, frameTime, sampleRate, outputFile })

/-! ### What an argument vector gives -/

/-- The positional arguments of an argument vector. -/
def givenArguments : List (List Char) → List (List Char)
  | [] => []
  | word :: rest =>
      if word = [] then []
      else if word.head? = some '-' ∧ word.tail ≠ [] then
        match _read : readOption word rest with
        | none => []
        | some (_, later) => givenArguments later
      else word :: givenArguments rest
termination_by words => words.length
decreasing_by
  · exact Nat.lt_succ_of_le (readOption_length _read)
  · simp

/-- The number which the check of a value has compared with the range of its option. -/
def checkedNumber (given : CmdLineOptionSpec × List Char) : Option Int :=
  match given.1.validation, fromChars given.2 with
  | .validRange low high, .ok n => if n < low ∨ high < n then none else some n
  | _, _ => none

/-- The numbers of the command line are read as they were checked. -/
def RereadsNumbers (given : List (CmdLineOptionSpec × List Char)) (cmdline : CmdLine) : Prop :=
  ∀ opt ∈ [CmdLineOption.frameRate, .sampleRate], ∀ pair,
    given.find? (fun pair => pair.1.option = opt) = some pair →
      ∃ n, checkedNumber pair = some n ∧ getOptionNumber cmdline opt = .ok n

/-- The parameters are safe: the frame rate is one that can be divided by. -/
structure SafeParameters (cmdline : CmdLine) (params : Parameters) : Prop where
  frameRate : ∃ fps, getOptionNumberOrDefault cmdline .frameRate 60 = .ok fps ∧
    20 ≤ fps ∧ fps ≤ 70 ∧ params.frameTime = fromFps (.ofInt fps)
  sampleRate : 8000 ≤ params.sampleRate ∧ params.sampleRate ≤ 48000
  outputFile : params.outputFile ≠ []

/-- The positional arguments of a command line are those of its argument vector. -/
theorem args_of_parseWords {words : List (List Char)} {cmdline parsed : CmdLine}
    (success : parseWords words cmdline = .ok parsed) :
    parsed.args = cmdline.args ++ givenArguments words := by
  induction words, cmdline using parseWords.induct with
  | case1 cmdline =>
      rw [parseWords] at success
      cases success
      simp [givenArguments]
  | case2 rest cmdline =>
      rw [parseWords, if_pos rfl] at success
      cases success
      simp [givenArguments]
  | case3 word rest cmdline nonempty isOption error failed =>
      rw [parseWords_of_option isOption, failed] at success
      cases success
  | case4 word rest cmdline nonempty isOption value later parsed ih =>
      obtain ⟨c, key, rfl⟩ := exists_of_option isOption
      obtain ⟨first, read, -, -⟩ := (parseOption_eq_ok_iff c key rest later _).mp parsed
      simp only [parseWords_of_option isOption, parsed] at success
      rw [ih success, givenArguments, if_neg nonempty, if_pos isOption]
      split
      · next unread => cases unread.symm.trans read
      · next given' later' read' =>
          cases read'.symm.trans read
          rfl
  | case5 word rest cmdline nonempty positional ih =>
      rw [parseWords, if_neg nonempty, if_neg positional] at success
      rw [ih success, givenArguments, if_neg nonempty, if_neg positional]
      simp

theorem ne_nil_of_mem_givenArguments {words : List (List Char)} :
    ∀ word ∈ givenArguments words, word ≠ [] := by
  induction words using givenArguments.induct with
  | case1 => simp [givenArguments]
  | case2 rest => simp [givenArguments]
  | case3 word rest nonempty isOption unread =>
      rw [givenArguments, if_neg nonempty, if_pos isOption]
      split
      · simp
      · next read => cases unread.symm.trans read
  | case4 word rest nonempty isOption given later read ih =>
      rw [givenArguments, if_neg nonempty, if_pos isOption]
      split
      · simp
      · next read' =>
          cases read'.symm.trans read
          exact ih
  | case5 word rest nonempty positional ih =>
      rw [givenArguments, if_neg nonempty, if_neg positional]
      simpa [nonempty] using ih

/-! ### The second conversion -/

/-- The first option of a kind is stored first. -/
theorem find_storedOption (given : List (CmdLineOptionSpec × List Char)) (opt : CmdLineOption) :
    (given.map storedOption).find? (fun item => item.option = opt) =
      (given.find? (fun pair => pair.1.option = opt)).map storedOption := by
  rw [List.find?_map]
  rfl

theorem hasOption_of_given {given : List (CmdLineOptionSpec × List Char)} {cmdline : CmdLine}
    (options : cmdline.options = given.map storedOption) (opt : CmdLineOption) :
    hasOption cmdline opt = true ↔ ∃ pair ∈ given, pair.1.option = opt := by
  rw [hasOption, options, List.any_map, List.any_eq_true]
  exact exists_congr fun pair => and_congr_right fun _ => decide_eq_true_iff

/-- The table entry of a numeric option. -/
theorem numeric_entry {spec : CmdLineOptionSpec} (known : spec ∈ cmdLineSpec) :
    (spec.option = .frameRate → spec.flags = 5 ∧ spec.validation = .validRange 20 70) ∧
      (spec.option = .sampleRate → spec.flags = 5 ∧ spec.validation = .validRange 8000 48000) := by
  have all : ∀ spec ∈ cmdLineSpec,
      (spec.option = .frameRate → spec.flags = 5 ∧ spec.validation = .validRange 20 70) ∧
        (spec.option = .sampleRate →
          spec.flags = 5 ∧ spec.validation = .validRange 8000 48000) := by
    decide +kernel
  exact all spec known

/-- A value which passed the check of a range is converted to the number that was checked. -/
theorem checkedNumber_of_passes {pair : CmdLineOptionSpec × List Char} {low high : Int}
    (numeric : pair.1.flags = 5) (range : pair.1.validation = .validRange low high)
    (passes : Passes pair) :
    ∃ n, checkedNumber pair = some n ∧ fromChars pair.2 = .ok n ∧ low ≤ n ∧ n ≤ high := by
  have valid := ((checkValidValue_eq_ok_iff _ _ _).mp (passes (by rw [numeric]; decide))).2.1
  rw [range, validate_range_iff] at valid
  obtain ⟨n, read, above, below⟩ := valid
  refine ⟨n, ?_, read, above, below⟩
  rw [checkedNumber, range, read]
  exact if_neg (by omega)

/-- A numeric option is read again without an error, as the number that was checked. -/
theorem getOptionNumber_of_given {given : List (CmdLineOptionSpec × List Char)}
    {cmdline : CmdLine} (options : cmdline.options = given.map storedOption)
    {opt : CmdLineOption} {pair : CmdLineOptionSpec × List Char}
    (first : given.find? (fun pair => pair.1.option = opt) = some pair) {low high : Int}
    (numeric : pair.1.flags = 5) (range : pair.1.validation = .validRange low high)
    (passes : Passes pair) :
    ∃ n, checkedNumber pair = some n ∧ getOptionNumber cmdline opt = .ok n ∧
      low ≤ n ∧ n ≤ high := by
  obtain ⟨n, checked, read, inside⟩ := checkedNumber_of_passes numeric range passes
  refine ⟨n, checked, ?_, inside⟩
  simp only [getOptionNumber, options, find_storedOption, first, Option.map_some]
  rw [if_neg (by simp [storedOption, numeric, valueNumeric])]
  simp only [storedOption, read]

/-- A numeric option or its default is in the range of the option. -/
theorem getOptionNumberOrDefault_of_given {given : List (CmdLineOptionSpec × List Char)}
    {cmdline : CmdLine} (options : cmdline.options = given.map storedOption)
    (opt : CmdLineOption) (dflt : Int) {low high : Int} (inside : low ≤ dflt ∧ dflt ≤ high)
    (entry : ∀ pair ∈ given, pair.1.option = opt →
      pair.1.flags = 5 ∧ pair.1.validation = .validRange low high)
    (passes : ∀ pair ∈ given, Passes pair) :
    ∃ n, getOptionNumberOrDefault cmdline opt dflt = .ok n ∧ low ≤ n ∧ n ≤ high := by
  unfold getOptionNumberOrDefault
  cases first : given.find? (fun pair => pair.1.option = opt) with
  | none =>
      have absent : ¬hasOption cmdline opt := by
        rw [hasOption_of_given options]
        rintro ⟨pair, member, same⟩
        exact absurd same (by simpa using List.find?_eq_none.mp first pair member)
      rw [if_pos absent]
      exact ⟨dflt, rfl, inside⟩
  | some pair =>
      have member := List.mem_of_find?_eq_some first
      have same : pair.1.option = opt := by simpa using List.find?_some first
      obtain ⟨numeric, range⟩ := entry pair member same
      obtain ⟨n, -, read, inside⟩ :=
        getOptionNumber_of_given options first numeric range (passes pair member)
      rw [if_neg (by simpa using (hasOption_of_given options opt).mpr ⟨pair, member, same⟩)]
      exact ⟨n, read, inside⟩

/-- A text option or its default is always there. -/
theorem getOptionValueOrDefault_isOk (cmdline : CmdLine) (opt : CmdLineOption)
    (dflt : List Char) : ∃ value, getOptionValueOrDefault cmdline opt dflt = .ok value := by
  unfold getOptionValueOrDefault
  split
  · exact ⟨dflt, rfl⟩
  · next stored =>
      obtain ⟨value, found⟩ := (hasOption_iff cmdline opt).mp (not_not.mp stored)
      exact ⟨value, by rw [found]⟩

theorem dividedFromFps_of_range {fps : Int} (low : 20 ≤ fps) (high : fps ≤ 70) :
    dividedFromFps (.ofInt fps) = .ok (fromFps (.ofInt fps)) := by
  have all : ∀ n < 71, 20 ≤ n → UInt32.ofInt (n : ℕ) ≠ 0 := by
    decide +kernel
  have nonzero := all fps.toNat (by omega) (by omega)
  rw [Int.toNat_of_nonneg (by omega)] at nonzero
  exact if_neg nonzero

/-! ### The parameters -/

/-- The command line an argument vector is parsed to. -/
theorem given_of_parsed {argv : List (List Char)} {cmdline : CmdLine}
    (parsed : parseCmdLine argv = .ok cmdline) :
    ∃ given, givenOptions argv = some given ∧ (∀ pair ∈ given, Passes pair) ∧
      cmdline = { options := given.map storedOption, args := givenArguments argv } := by
  obtain ⟨given, found, passes, options⟩ :=
    (parseWords_ok_iff argv { options := [], args := [] } _).mp ⟨cmdline, parsed, rfl⟩
  refine ⟨given, found, passes, ?_⟩
  have args := args_of_parseWords parsed
  cases cmdline with
  | mk stored words =>
      cases options
      cases args
      rfl

/-- The environment has a say only in how strict the frame time is. -/
theorem SafeParameters.readEnv {cmdline : CmdLine} {params : Parameters}
    (safe : SafeParameters cmdline params) (env : Option (List Char)) :
    SafeParameters cmdline (CmdLine.readEnv env params) := by
  cases env with
  | none => exact safe
  | some value => exact ⟨safe.frameRate, safe.sampleRate, safe.outputFile⟩

/-- The parameters of an accepted command line, without help and version. -/
theorem getParameters_eq {given : List (CmdLineOptionSpec × List Char)} {cmdline : CmdLine}
    (options : cmdline.options = given.map storedOption)
    (known : ∀ pair ∈ given, pair.1 ∈ cmdLineSpec) (passes : ∀ pair ∈ given, Passes pair)
    (args : ∀ word ∈ cmdline.args, word ≠ []) (env : Option (List Char))
    (help : hasOption cmdline .help = false) (version : hasOption cmdline .version = false) :
    if cmdline.args = [] then
      getParameters cmdline env =
        .ok (.error { type := .error, what := "Missing parameter: output file".toList })
    else ∃ params, getParameters cmdline env = .ok (.ok params) ∧
      SafeParameters cmdline params := by
  obtain ⟨videoEncoder, video⟩ :=
    getOptionValueOrDefault_isOk cmdline .videoEncoder "hevc_nvenc".toList
  obtain ⟨audioEncoder, audio⟩ :=
    getOptionValueOrDefault_isOk cmdline .audioEncoder "libopus".toList
  obtain ⟨fps, rate, slow, fast⟩ := getOptionNumberOrDefault_of_given options .frameRate 60
    (by decide) (fun pair member => (numeric_entry (known pair member)).1) passes
  obtain ⟨sampleRate, sample, low, high⟩ :=
    getOptionNumberOrDefault_of_given options .sampleRate 48000
      (by decide) (fun pair member => (numeric_entry (known pair member)).2) passes
  have divided := dividedFromFps_of_range slow fast
  simp only [getParameters, help, version, video, audio, rate, divided, sample, bind, pure,
    Except.bind, Except.pure]
  cases words : cmdline.args with
  | nil => simp
  | cons word rest =>
      have nonempty : word ≠ [] := args word (by simp [words])
      rw [if_neg (by simp)]
      simp only [List.headD_cons, Bool.false_eq_true, if_false]
      refine ⟨_, if_neg nonempty, SafeParameters.readEnv ?_ env⟩
      exact ⟨⟨fps, rate, slow, fast, rfl⟩, ⟨low, high⟩, nonempty⟩

/-- The option is given. -/
def Gives (argv : List (List Char)) (opt : CmdLineOption) : Prop :=
  ∃ given, givenOptions argv = some given ∧ ∃ pair ∈ given, pair.1.option = opt

/-- An accepted command line gives parameters, which are safe, exactly when it asks neither for help
nor for the version and has a positional argument.  Nothing is thrown, asserted or divided by zero
on the way, whatever the environment holds. -/
theorem getParameters_of_parsed {argv : List (List Char)} {cmdline : CmdLine}
    (parsed : parseCmdLine argv = .ok cmdline) (env : Option (List Char)) :
    (∃ given, givenOptions argv = some given ∧ RereadsNumbers given cmdline) ∧
      ∃ outcome, getParameters cmdline env = .ok outcome ∧
        (∀ params, outcome = .ok params → SafeParameters cmdline params) ∧
        ((∃ params, outcome = .ok params) ↔
          ¬Gives argv .help ∧ ¬Gives argv .version ∧ givenArguments argv ≠ []) := by
  obtain ⟨given, found, passes, same⟩ := given_of_parsed parsed
  have known := mem_of_givenOptions found
  have options : cmdline.options = given.map storedOption := by rw [same]
  have args : cmdline.args = givenArguments argv := by rw [same]
  have gives (opt : CmdLineOption) : Gives argv opt ↔ hasOption cmdline opt = true := by
    rw [hasOption_of_given options]
    constructor
    · rintro ⟨given', found', among⟩
      cases found.symm.trans found'
      exact among
    · exact fun among => ⟨given, found, among⟩
  refine ⟨⟨given, found, ?_⟩, ?_⟩
  · intro opt numeric pair first
    have member := List.mem_of_find?_eq_some first
    have sameOption : pair.1.option = opt := by simpa using List.find?_some first
    obtain ⟨rate, sample⟩ := numeric_entry (known pair member)
    simp only [List.mem_cons, List.not_mem_nil, or_false] at numeric
    rcases numeric with rfl | rfl
    · obtain ⟨n, checked, read, -⟩ := getOptionNumber_of_given options first
        (rate sameOption).1 (rate sameOption).2 (passes pair member)
      exact ⟨n, checked, read⟩
    · obtain ⟨n, checked, read, -⟩ := getOptionNumber_of_given options first
        (sample sameOption).1 (sample sameOption).2 (passes pair member)
      exact ⟨n, checked, read⟩
  · cases help : hasOption cmdline .help with
    | true =>
        refine ⟨.error { type := .showHelp }, ?_, nofun, iff_of_false nofun ?_⟩
        · simp [getParameters, help, pure, Except.pure]
        · rw [gives]
          exact fun none => none.1 help
    | false =>
        cases version : hasOption cmdline .version with
        | true =>
            refine ⟨.error { type := .showVersion }, ?_, nofun, iff_of_false nofun ?_⟩
            · simp [getParameters, help, version, pure, Except.pure]
            · rw [gives .version]
              exact fun none => none.2.1 version
        | false =>
            have made := getParameters_eq options known passes
              (by rw [args]; exact ne_nil_of_mem_givenArguments) env help version
            rw [gives, gives, help, version, ← args]
            by_cases positional : cmdline.args = []
            · rw [if_pos positional] at made
              exact ⟨_, made, nofun, iff_of_false nofun fun all => all.2.2 positional⟩
            · rw [if_neg positional] at made
              obtain ⟨params, made, safe⟩ := made
              refine ⟨_, made, ?_, iff_of_true ⟨params, rfl⟩ ⟨by simp, by simp, positional⟩⟩
              rintro _ ⟨⟩
              exact safe

/-- The frame rate is given twice, the first time within its word. -/
theorem getParameters_of_repeated_rate :
    ∃ outcome, getParameters
        { options := [⟨.frameRate, 5, "30".toList⟩, ⟨.frameRate, 5, "70".toList⟩]
          args := ["out.mp4".toList] } none = .ok outcome ∧
      ∀ params, outcome = .ok params → SafeParameters
        { options := [⟨.frameRate, 5, "30".toList⟩, ⟨.frameRate, 5, "70".toList⟩]
          args := ["out.mp4".toList] } params := by
  have parsed : parseCmdLine ["-f30".toList, "out.mp4".toList, "-f".toList, "70".toList] =
      .ok { options := [⟨.frameRate, 5, "30".toList⟩, ⟨.frameRate, 5, "70".toList⟩]
            args := ["out.mp4".toList] } := by
    decide +kernel
  obtain ⟨-, outcome, made, safe, -⟩ := getParameters_of_parsed parsed none
  exact ⟨outcome, made, safe⟩

end CmdLine
end ShadowCast
