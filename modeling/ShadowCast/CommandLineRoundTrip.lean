import ShadowCast.CommandLine

/-!
# Rendered command lines are parsed back

An `Item` is a positional argument or an option of the table with a value that passes its checks,
in one of its spellings.  Parsing the words of any list of items gives its positional arguments and
its options back, in order.
-/

namespace ShadowCast
namespace CmdLine

/-- An item of a command line, with the conditions that make it one. -/
inductive Item where
  /-- A positional argument. -/
  | positional (word : List Char) (nonempty : word ≠ [])
      (plain : word = ['-'] ∨ word.head? ≠ some '-')
  /-- An option without a value. -/
  | flag (spec : CmdLineOptionSpec) (known : spec ∈ cmdLineSpec) (bare : spec.flags = 0)
  /-- An option and its value in one word. -/
  | joined (spec : CmdLineOptionSpec) (value : List Char) (known : spec ∈ cmdLineSpec)
      (takes : spec.flags ≠ 0) (valid : checkValidValue value spec = .ok value)
      (nonempty : value ≠ [])
  /-- An option and, in the next word, its value. -/
  | separate (spec : CmdLineOptionSpec) (value : List Char) (known : spec ∈ cmdLineSpec)
      (takes : spec.flags ≠ 0) (valid : checkValidValue value spec = .ok value)

namespace Item

/-- The words of an item. -/
def render : Item → List (List Char)
  | positional word _ _ => [word]
  | flag spec _ _ => [['-', spec.shortName]]
  | joined spec value _ _ _ _ => ['-' :: spec.shortName :: value]
  | separate spec value _ _ _ => [['-', spec.shortName], value]

/-- The positional argument an item is. -/
def argument : Item → Option (List Char)
  | positional word _ _ => some word
  | flag .. | joined .. | separate .. => none

/-- The option an item is, as it is stored. -/
def stored : Item → Option CmdLineOptionValue
  | positional .. => none
  | flag spec _ _ => some { option := spec.option, flags := spec.flags, value := [] }
  | joined spec value _ _ _ _ => some { option := spec.option, flags := spec.flags, value }
  | separate spec value _ _ _ => some { option := spec.option, flags := spec.flags, value }

/-- The value an item gives to an option. -/
def valueOf (opt : CmdLineOption) (item : Item) : Option (List Char) :=
  match item.stored with
  | none => none
  | some value => if value.option = opt then some value.value else none

end Item

/-- The command line after one more item. -/
def extend (cmdline : CmdLine) (item : Item) : CmdLine :=
  { options := cmdline.options ++ item.stored.toList
    args := cmdline.args ++ item.argument.toList }

/-- The parser consumes exactly the words of an item. -/
theorem parseWords_render (item : Item) (rest : List (List Char)) (cmdline : CmdLine) :
    parseWords (item.render ++ rest) cmdline = parseWords rest (extend cmdline item) := by
  cases item with
  | positional word nonempty plain =>
      simp only [Item.render, extend, Item.stored, Item.argument, Option.toList_none,
        Option.toList_some, List.append_nil]
      exact parseWords_positional nonempty plain rest cmdline
  | flag spec known bare =>
      have taken : takeValue spec [] rest =
          .ok ({ option := spec.option, flags := spec.flags, value := [] }, rest) := by
        unfold takeValue
        rw [if_pos bare]
      simp only [Item.render, extend, Item.stored, Item.argument, Option.toList_none,
        Option.toList_some, List.append_nil]
      exact parseWords_option known taken cmdline
  | joined spec value known takes valid nonempty =>
      have required := required_of_flags known takes
      have taken : takeValue spec value rest =
          .ok ({ option := spec.option, flags := spec.flags, value }, rest) := by
        unfold takeValue
        rw [if_neg takes, if_pos ⟨nonempty, Or.inr required⟩, valid]
      simp only [Item.render, extend, Item.stored, Item.argument, Option.toList_none,
        Option.toList_some, List.append_nil]
      exact parseWords_option known taken cmdline
  | separate spec value known takes valid =>
      have taken : takeValue spec [] (value :: rest) =
          .ok ({ option := spec.option, flags := spec.flags, value }, rest) := by
        unfold takeValue
        rw [if_neg takes, if_neg (by simp)]
        simp only [valid]
      simp only [Item.render, extend, Item.stored, Item.argument, Option.toList_none,
        Option.toList_some, List.append_nil]
      exact parseWords_option known taken cmdline

/-- Parsing the words of a list of items adds its options and its positional arguments. -/
theorem parseWords_flatMap_render (items : List Item) (cmdline : CmdLine) :
    parseWords (items.flatMap Item.render) cmdline =
      .ok { options := cmdline.options ++ items.filterMap Item.stored
            args := cmdline.args ++ items.filterMap Item.argument } := by
  induction items generalizing cmdline with
  | nil => simp [parseWords]
  | cons item items ih =>
      rw [List.flatMap_cons, parseWords_render, ih, extend]
      cases hs : item.stored <;> cases ha : item.argument <;> simp [hs, ha]

/-- The value found for an option is the one the first of its items gives. -/
theorem getOptionValue_filterMap (items : List Item) (args : List (List Char))
    (opt : CmdLineOption) :
    getOptionValue { options := items.filterMap Item.stored, args } opt =
      match (items.filterMap (Item.valueOf opt)).head? with
      | none => .error ⟨"Option doesn't exist".toList⟩
      | some value => .ok value := by
  induction items with
  | nil => rfl
  | cons item items ih =>
      cases kept : item.stored with
      | none =>
          have silent : item.valueOf opt = none := by rw [Item.valueOf, kept]
          rw [List.filterMap_cons_none kept, List.filterMap_cons_none silent, ih]
      | some value =>
          by_cases same : value.option = opt
          · have given : item.valueOf opt = some value.value := by
              simp only [Item.valueOf, kept, if_pos same]
            rw [List.filterMap_cons_some kept, List.filterMap_cons_some given, getOptionValue,
              List.find?_cons_of_pos (by simpa using same)]
            rfl
          · have silent : item.valueOf opt = none := by
              simp only [Item.valueOf, kept, if_neg same]
            rw [List.filterMap_cons_some kept, List.filterMap_cons_none silent, ← ih,
              getOptionValue, List.find?_cons_of_neg (by simpa using same), getOptionValue]

/-- The parser inverts the rendering of every list of items. -/
theorem parseCmdLine_render (items : List Item) :
    ∃ cmdline, parseCmdLine (items.flatMap Item.render) = .ok cmdline ∧
      cmdline.args = items.filterMap Item.argument ∧
      cmdline.options = items.filterMap Item.stored ∧
      ∀ opt, getOptionValue cmdline opt =
        match (items.filterMap (Item.valueOf opt)).head? with
        | none => .error ⟨"Option doesn't exist".toList⟩
        | some value => .ok value := by
  refine ⟨_, parseWords_flatMap_render items _, rfl, rfl, ?_⟩
  exact getOptionValue_filterMap items _

/-- Values that look like options are values in both spellings. -/
example : parseCmdLine ["-A".toList, "-f30".toList, "-".toList, "-A-h".toList] =
    .ok { options := [⟨.audioEncoder, 1, "-f30".toList⟩, ⟨.audioEncoder, 1, "-h".toList⟩]
          args := ["-".toList] } := by
  decide +kernel

end CmdLine
end ShadowCast
