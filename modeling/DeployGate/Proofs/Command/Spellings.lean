import DeployGate.Command.Arguments

/-!
# Spellings

What the command line of a check may say, and the arguments that say it. An option may have two
names, and the value of a setting may be joined to its name or follow it.

## Main result

`Wish.leads`: wherever it may stand, each spelling of a wish is read as that wish, and what has been
read before stays as it is.
-/

namespace DeployGate.Command

/-- The word for a format. -/
def Format.word : Format → String
  | text => "text"
  | json => "json"

/-- Something that the command line of a check may say. -/
inductive Wish
  | plan (path : String)
  | bareDiff
  | skipEmptyTasks
  | allowUnrecognized
  | verbose
  | config (path : String)
  | format (format : Format)
  deriving DecidableEq, Repr

namespace Wish

/-- Whether it concerns every command, so that it may stand in front of the command. -/
def isGlobal : Wish → Bool
  | verbose | config _ | format _ => true
  | _ => false

/-- The arguments that say it, one way after the other. -/
def spellings : Wish → List (List String)
  | plan path => [[path]]
  | bareDiff => [["--bare-diff"]]
  | skipEmptyTasks => [["--skip-empty-tasks"]]
  | allowUnrecognized => [["--allow-unrecognized"]]
  | verbose => [["--verbose"], ["-v"]]
  | config path =>
    [["--config", path], ["--config=" ++ path], ["-c", path], ["-c=" ++ path]]
  | format chosen => [["--format", chosen.word], ["--format=" ++ chosen.word]]

/-- The option that says it. The plan is no option. -/
def flag? : Wish → Option Flag
  | plan _ => none
  | bareDiff => some (.switch .bareDiff)
  | skipEmptyTasks => some (.switch .skipEmptyTasks)
  | allowUnrecognized => some (.switch .allowUnrecognized)
  | verbose => some (.switch .verbose)
  | config _ => some (.setting .config)
  | format _ => some (.setting .format)

/-- Its path is not taken for an option. The standard input may be the plan, but no configuration is
read from it, and a configuration has a path. -/
def Readable : Wish → Prop
  | plan path => path = "-" ∨ path.toList.head? ≠ some '-'
  | config path => path ≠ "" ∧ path.toList.head? ≠ some '-'
  | _ => True

end Wish

/-! ### What a part of the command line holds -/

namespace Given

/-- What has been given once a wish has been read as well. -/
def grant (given : Given) : Wish → Given
  | .plan path => { given with plan := some path }
  | .bareDiff => { given with bareDiff := true }
  | .skipEmptyTasks => { given with skipEmptyTasks := true }
  | .allowUnrecognized => { given with allowUnrecognized := true }
  | .verbose => { given with verbose := true }
  | .config path => { given with config := some path }
  | .format chosen => { given with format := some chosen }

/-- No wish of the same kind has been granted. -/
def Lacks (given : Given) : Wish → Prop
  | .plan _ => given.plan = none
  | .bareDiff => given.bareDiff = false
  | .skipEmptyTasks => given.skipEmptyTasks = false
  | .allowUnrecognized => given.allowUnrecognized = false
  | .verbose => given.verbose = false
  | .config _ => given.config = none
  | .format _ => given.format = none

variable {given : Given}

theorem turnOn_eq {wish : Wish} {switch : Switch} (option : .switch switch ∈ wish.flag?)
    (lacks : given.Lacks wish) : given.turnOn switch = .ok (given.grant wish) := by
  cases wish <;> cases option
  all_goals
    simp only [Lacks] at lacks
    simp [turnOn, lacks, grant]

theorem put_config {path : String} (fresh : given.config = none) (named : path ≠ "") :
    given.put .config path = .ok (given.grant (.config path)) := by
  simp [put, fresh, named, grant]

theorem put_format (fresh : given.format = none) (chosen : Format) :
    given.put .format chosen.word = .ok (given.grant (.format chosen)) := by
  have known : formats.lookup chosen.word = some chosen := by cases chosen <;> rfl
  simp [put, fresh, known, grant]

theorem plan_put {setting : Setting} {value : String} {next : Given}
    (put : given.put setting value = .ok next) : next.plan = given.plan := by
  cases setting with
  | config =>
    simp only [Given.put] at put
    split at put
    · cases put
    · split at put
      · cases put
      · cases put
        rfl
  | format =>
    simp only [Given.put] at put
    split at put
    · cases put
    · split at put
      · cases put
        rfl
      · cases put

end Given

/-- Everything that is given has been read, the last value may be left to be looked at, and options
may follow. -/
structure Progress.Holds (progress : Progress) (given : Given) : Prop where
  options : progress.literal = false
  settled : progress.settle = .ok given

namespace Progress.Holds

variable {progress : Progress} {given : Given}

theorem awaits_nothing (holds : progress.Holds given) (setting : Setting) :
    progress.pending ≠ .value setting := by
  intro awaits
  have settled := holds.settled
  simp [settle, awaits] at settled

theorem plan (holds : progress.Holds given) : progress.given.plan = given.plan := by
  have settled := holds.settled
  rw [settle] at settled
  split at settled
  · cases settled
    rfl
  · cases settled
  · exact (Given.plan_put settled).symm

end Progress.Holds

/-! ### Shapes of arguments -/

theorem Shape.ofArgument_word {argument : List Char}
    (plain : argument = ['-'] ∨ argument.head? ≠ some '-') : ofArgument argument = .word := by
  rcases plain with rfl | plain
  · rfl
  · unfold ofArgument
    split
    · simp at plain
    · simp at plain
    · simp at plain
    · rfl

/-- An option is no command. -/
theorem Progress.keyword?_eq_none (progress : Progress) {argument : String}
    (dashed : Shape.ofArgument argument.toList ≠ .word) : progress.keyword? argument = none := by
  have unknown : keywords.lookup argument = none := by
    rw [List.lookup_eq_none_iff]
    simp only [keywords, List.forall_mem_cons, bne_iff_ne]
    refine ⟨?_, ?_, ?_, by simp⟩
    all_goals
      rintro rfl
      exact dashed rfl
  unfold keyword?
  split
  · rfl
  · rfl
  · exact unknown

namespace Scope

theorem named?_name {scope : Scope} {flag : Flag} (inside : flag ∈ scope.flags) :
    scope.named? flag.name.toList = some flag := by
  revert flag
  cases scope <;> decide

theorem lettered?_letter {scope : Scope} {flag : Flag} {letter : Char}
    (inside : flag ∈ scope.flags) (lettered : letter ∈ flag.letter?) :
    scope.lettered? letter = some flag := by
  cases flag with
  | switch switch =>
    cases switch with
    | verbose | help =>
      cases lettered
      cases scope <;> rfl
    | version =>
      cases lettered
      -- the version is shown in front of a command only
      cases scope with
      | top => rfl
      | check | config => exact absurd inside (by decide)
    | _ => cases lettered
  | setting setting =>
    cases setting with
    | config =>
      cases lettered
      cases scope <;> rfl
    | format => cases lettered

theorem mem_flags {flag : Flag} (inside : flag ∈ everywhere) (scope : Scope) :
    flag ∈ scope.flags := by
  cases scope <;> simp [flags, inside]

end Scope

/-- The option of a wish is known where the wish may stand. -/
theorem Wish.mem_flags {wish : Wish} {flag : Flag} {scope : Scope}
    (allowed : scope = .check ∨ wish.isGlobal = true) (option : flag ∈ wish.flag?) :
    flag ∈ scope.flags := by
  rcases allowed with rfl | isGlobal
  · cases wish <;> cases option <;> decide
  · apply Scope.mem_flags
    cases wish <;> cases option <;> first | decide | cases isGlobal

/-- The argument is one of the names of an option. -/
inductive Names (argument : String) (flag : Flag) : Prop
  | long : Shape.ofArgument argument.toList = .long flag.name.toList none → Names argument flag
  | letter {letter : Char} : letter ∈ flag.letter? →
      Shape.ofArgument argument.toList = .letters [letter] → Names argument flag

/-- The argument is a name of a setting with the value joined to it. -/
inductive Joins (argument : String) (setting : Setting) (value : String) : Prop
  | long : Shape.ofArgument argument.toList
        = .long (Flag.setting setting).name.toList (some value.toList) →
      Joins argument setting value
  | letter {letter : Char} : letter ∈ (Flag.setting setting).letter? →
      Shape.ofArgument argument.toList = .letters (letter :: '=' :: value.toList) →
      Joins argument setting value

theorem Names.dashed {argument : String} {flag : Flag} (names : Names argument flag) :
    Shape.ofArgument argument.toList ≠ .word := by
  cases names with
  | long shape => simp [shape]
  | letter _ shape => simp [shape]

theorem Joins.dashed {argument value : String} {setting : Setting}
    (joins : Joins argument setting value) : Shape.ofArgument argument.toList ≠ .word := by
  cases joins with
  | long shape => simp [shape]
  | letter _ shape => simp [shape]

/-! ### Reading one argument -/

section

variable {scope : Scope} {progress : Progress} {given next : Given}

theorem takeArgument_long {argument : String} {name : List Char} {value : Option (List Char)}
    (options : progress.literal = false)
    (shape : Shape.ofArgument argument.toList = .long name value) :
    takeArgument scope progress argument = takeLong scope progress name value := by
  simp [takeArgument, options, shape]

theorem takeArgument_letters {argument : String} {letters : List Char}
    (options : progress.literal = false)
    (shape : Shape.ofArgument argument.toList = .letters letters) :
    takeArgument scope progress argument = takeLetters scope progress letters := by
  simp [takeArgument, options, shape]

theorem takeArgument_switch {argument : String} {switch : Switch}
    (names : Names argument (.switch switch)) (inside : .switch switch ∈ scope.flags)
    (holds : progress.Holds given) (on : given.turnOn switch = .ok next) :
    takeArgument scope progress argument = .ok { given := next } := by
  cases names with
  | long shape =>
    rw [takeArgument_long holds.options shape]
    simp [takeLong, Scope.named?_name inside, holds.settled, on, bind, Except.bind, pure,
      Except.pure]
  | letter lettered shape =>
    rw [takeArgument_letters holds.options shape, takeLetters,
      Scope.lettered?_letter inside lettered]
    simp [holds.settled, on, bind, Except.bind, takeLetters]

theorem takeArgument_setting {argument : String} {setting : Setting}
    (names : Names argument (.setting setting)) (inside : .setting setting ∈ scope.flags)
    (holds : progress.Holds given) :
    takeArgument scope progress argument = .ok { given, pending := .value setting } := by
  cases names with
  | long shape =>
    rw [takeArgument_long holds.options shape]
    simp [takeLong, Scope.named?_name inside, holds.settled, bind, Except.bind, pure, Except.pure]
  | letter lettered shape =>
    rw [takeArgument_letters holds.options shape, takeLetters,
      Scope.lettered?_letter inside lettered]
    simp [holds.settled, bind, Except.bind, pure, Except.pure]

theorem takeArgument_joined {argument value : String} {setting : Setting}
    (joins : Joins argument setting value) (inside : .setting setting ∈ scope.flags)
    (holds : progress.Holds given) (put : given.put setting value = .ok next) :
    takeArgument scope progress argument = .ok { given := next } := by
  cases joins with
  | long shape =>
    rw [takeArgument_long holds.options shape]
    simp [takeLong, Scope.named?_name inside, holds.settled, put, bind, Except.bind, pure,
      Except.pure]
  | letter lettered shape =>
    rw [takeArgument_letters holds.options shape, takeLetters,
      Scope.lettered?_letter inside lettered]
    simp [holds.settled, put, bind, Except.bind, pure, Except.pure]

theorem takeArgument_value {value : String} {setting : Setting}
    (word : Shape.ofArgument value.toList = .word) :
    takeArgument scope { given, pending := .value setting } value
      = .ok { given, pending := .check setting value } := by
  simp [takeArgument, word]

theorem takeArgument_plan {path : String} (word : Shape.ofArgument path.toList = .word)
    (holds : progress.Holds given) (fresh : given.plan = none) :
    takeArgument .check progress path = .ok { given := given.grant (.plan path) } := by
  have taken : takeWord .check progress path = .ok { given := given.grant (.plan path) } := by
    simp [takeWord, holds.plan.trans fresh, holds.settled, holds.options, bind, Except.bind, pure,
      Except.pure, Given.grant]
  rw [takeArgument, if_neg (by simp [holds.options])]
  simp only [word]
  split
  next setting awaits => exact absurd awaits (holds.awaits_nothing setting)
  next => exact taken

end

/-! ### Reading the arguments of a wish -/

/-- Taken one by one, the arguments lead from one progress to another. Where a command may stand,
none of them names one. -/
inductive Leads (scope : Scope) : Progress → List String → Progress → Prop
  | nil (progress : Progress) : Leads scope progress [] progress
  | cons {progress next last : Progress} {argument : String} {rest : List String} :
      (scope = .top → progress.keyword? argument = none) →
      takeArgument scope progress argument = .ok next → Leads scope next rest last →
      Leads scope progress (argument :: rest) last

namespace Leads

variable {scope : Scope} {progress next last : Progress} {given granted : Given}

theorem append {arguments rest : List String} (first : Leads scope progress arguments next)
    (behind : Leads scope next rest last) : Leads scope progress (arguments ++ rest) last := by
  induction first with
  | nil => exact behind
  | cons noCommand taken _ ih => exact .cons noCommand taken (ih behind)

theorem foldlM_eq {arguments : List String} (leads : Leads scope progress arguments last) :
    arguments.foldlM (takeArgument scope) progress = .ok last := by
  induction leads with
  | nil => rfl
  | cons _ taken _ ih =>
    rw [List.foldlM_cons, taken]
    exact ih

/-- In front of the command the reading goes on behind the arguments. -/
theorem readFrom_eq {arguments : List String} (leads : Leads .top progress arguments last)
    (rest : List String) : readFrom progress (arguments ++ rest) = readFrom last rest := by
  induction leads with
  | nil => rfl
  | cons noCommand taken _ ih =>
    rw [List.cons_append, readFrom, noCommand rfl]
    simp only [taken]
    exact ih

theorem dashed {argument : String} (dashed : Shape.ofArgument argument.toList ≠ .word)
    (taken : takeArgument scope progress argument = .ok next) :
    Leads scope progress [argument] next :=
  .cons (fun _ => progress.keyword?_eq_none dashed) taken (.nil next)

theorem switch {argument : String} {switch : Switch} (names : Names argument (.switch switch))
    (inside : .switch switch ∈ scope.flags) (holds : progress.Holds given)
    (on : given.turnOn switch = .ok granted) :
    ∃ last, Leads scope progress [argument] last ∧ last.Holds granted :=
  ⟨_, .dashed names.dashed (takeArgument_switch names inside holds on), rfl, rfl⟩

theorem joined {argument value : String} {setting : Setting} (joins : Joins argument setting value)
    (inside : .setting setting ∈ scope.flags) (holds : progress.Holds given)
    (put : given.put setting value = .ok granted) :
    ∃ last, Leads scope progress [argument] last ∧ last.Holds granted :=
  ⟨_, .dashed joins.dashed (takeArgument_joined joins inside holds put), rfl, rfl⟩

/-- A value that follows is no command either, as it is awaited. -/
theorem apart {name value : String} {setting : Setting} (names : Names name (.setting setting))
    (word : Shape.ofArgument value.toList = .word) (inside : .setting setting ∈ scope.flags)
    (holds : progress.Holds given) (put : given.put setting value = .ok granted) :
    ∃ last, Leads scope progress [name, value] last ∧ last.Holds granted := by
  have awaited : Leads scope { given, pending := .value setting } [value]
      { given, pending := .check setting value } :=
    .cons (fun _ => rfl) (takeArgument_value word) (.nil _)
  have leads := (dashed names.dashed (takeArgument_setting names inside holds)).append awaited
  exact ⟨_, leads, rfl, put⟩

end Leads

/-- Wherever a wish may stand, each of its spellings is read as the wish, if there was none of its
kind before. -/
theorem Wish.leads {scope : Scope} {wish : Wish} {spelling : List String} {progress : Progress}
    {given : Given} (spelled : spelling ∈ wish.spellings) (readable : wish.Readable)
    (allowed : scope = .check ∨ wish.isGlobal = true) (holds : progress.Holds given)
    (lacks : given.Lacks wish) :
    ∃ last, Leads scope progress spelling last ∧ last.Holds (given.grant wish) := by
  cases wish with
  | plan path =>
    obtain rfl : spelling = [path] := by simpa [spellings] using spelled
    obtain rfl : scope = .check := by simpa [isGlobal] using allowed
    have word : Shape.ofArgument path.toList = .word := by
      apply Shape.ofArgument_word
      rcases readable with rfl | plain
      · exact .inl rfl
      · exact .inr plain
    exact ⟨_, .cons nofun (takeArgument_plan word holds lacks) (.nil _), rfl, rfl⟩
  | bareDiff =>
    obtain rfl : spelling = ["--bare-diff"] := by simpa [spellings] using spelled
    exact Leads.switch (.long rfl) (mem_flags allowed rfl) holds (Given.turnOn_eq rfl lacks)
  | skipEmptyTasks =>
    obtain rfl : spelling = ["--skip-empty-tasks"] := by simpa [spellings] using spelled
    exact Leads.switch (.long rfl) (mem_flags allowed rfl) holds (Given.turnOn_eq rfl lacks)
  | allowUnrecognized =>
    obtain rfl : spelling = ["--allow-unrecognized"] := by simpa [spellings] using spelled
    exact Leads.switch (.long rfl) (mem_flags allowed rfl) holds (Given.turnOn_eq rfl lacks)
  | verbose =>
    have on : given.turnOn .verbose = .ok (given.grant .verbose) := Given.turnOn_eq rfl lacks
    have inside := mem_flags allowed rfl
    obtain rfl | rfl : spelling = ["--verbose"] ∨ spelling = ["-v"] := by
      simpa [spellings] using spelled
    · exact Leads.switch (.long rfl) inside holds on
    · exact Leads.switch (.letter rfl rfl) inside holds on
  | config path =>
    have put := Given.put_config lacks readable.1
    have inside := mem_flags allowed rfl
    have word := Shape.ofArgument_word (.inr readable.2)
    simp only [spellings, List.mem_cons, List.not_mem_nil, or_false] at spelled
    rcases spelled with rfl | rfl | rfl | rfl
    · exact Leads.apart (.long rfl) word inside holds put
    · exact Leads.joined (.long (by simp [Shape.ofArgument, Flag.name])) inside holds put
    · exact Leads.apart (.letter rfl rfl) word inside holds put
    · exact Leads.joined (.letter rfl (by simp [Shape.ofArgument])) inside holds put
  | format chosen =>
    have put := Given.put_format lacks chosen
    have inside := mem_flags allowed rfl
    have word : Shape.ofArgument chosen.word.toList = .word := by cases chosen <;> rfl
    simp only [spellings, List.mem_cons, List.not_mem_nil, or_false] at spelled
    rcases spelled with rfl | rfl
    · exact Leads.apart (.long rfl) word inside holds put
    · exact Leads.joined (.long (by simp [Shape.ofArgument, Flag.name])) inside holds put

end DeployGate.Command
