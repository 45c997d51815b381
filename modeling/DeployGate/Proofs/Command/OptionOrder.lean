import DeployGate.Proofs.Command.Spellings
import Mathlib.Data.List.Nodup

/-!
# The order of options

What a check is asked for does not depend on where its options stand or on how they are spelled.
Only two rules bind them: what concerns the check alone stands behind the command, and nothing is
said twice. Under these rules a path may be the name of a command or the word for a format, and is
not taken for one.

## Main result

`ofArguments_writtenAs`: every way to write a request is read as that request.

## Proof strategy

On either side of the command the wishes are granted one after the other. Wishes of different kinds
may be granted in any order, also across the command, so all that counts is which wishes there are.
-/

namespace DeployGate.Command

/-! ### Requests -/

/-- What the command line of a check asks for. -/
structure Request where
  options : CheckOptions
  verbose : Bool := false
  config : Option String := none
  format : Option Format := none
  deriving DecidableEq, Repr

/-- The arguments spell the wishes, one behind the other. -/
inductive Spells : List Wish → List String → Prop
  | nil : Spells [] []
  | cons {wish : Wish} {spelling : List String} {wishes : List Wish} {arguments : List String} :
      spelling ∈ wish.spellings → Spells wishes arguments →
      Spells (wish :: wishes) (spelling ++ arguments)

namespace Request

/-- Every wish of the request, none of them twice. -/
def wishes (request : Request) : List Wish :=
  .plan request.options.plan ::
    ((if request.options.bareDiff then [.bareDiff] else []) ++
      ((if request.options.skipEmptyTasks then [.skipEmptyTasks] else []) ++
        ((if request.options.allowUnrecognized then [.allowUnrecognized] else []) ++
          ((if request.verbose then [.verbose] else []) ++
            (request.config.toList.map .config ++ request.format.toList.map .format)))))

/-- The arguments make the request. What concerns every command may stand on either side of the
command, and what is left stands behind it. -/
inductive WrittenAs (request : Request) : List String → Prop
  | intro {before after : List Wish} {front behind : List String} :
      (before ++ after).Perm request.wishes → (∀ wish ∈ before, wish.isGlobal = true) →
      Spells before front → Spells after behind →
      WrittenAs request (front ++ "check" :: behind)

/-- The request as it is carried out. -/
def invocation (request : Request) : Invocation where
  action := .check request.options
  verbose := request.verbose
  config := request.config
  format := request.format.getD .text

/-- All that the request gives, on whichever side of the command. -/
def given (request : Request) : Given where
  verbose := request.verbose
  config := request.config
  format := request.format
  plan := some request.options.plan
  bareDiff := request.options.bareDiff
  skipEmptyTasks := request.options.skipEmptyTasks
  allowUnrecognized := request.options.allowUnrecognized

theorem distinct_wishes (request : Request) : (request.wishes.map Wish.flag?).Nodup := by
  have switched (chosen : Bool) (wish : Wish) :
      ((if chosen then [wish] else []).map Wish.flag?).Sublist [wish.flag?] := by
    cases chosen <;> simp
  have config : ((request.config.toList.map Wish.config).map Wish.flag?).Sublist
      [some (.setting .config)] := by
    cases request.config <;> simp [Wish.flag?]
  have format : ((request.format.toList.map Wish.format).map Wish.flag?).Sublist
      [some (.setting .format)] := by
    cases request.format <;> simp [Wish.flag?]
  have kinds : (request.wishes.map Wish.flag?).Sublist
      [none, some (.switch .bareDiff), some (.switch .skipEmptyTasks),
        some (.switch .allowUnrecognized), some (.switch .verbose), some (.setting .config),
        some (.setting .format)] := by
    simp only [wishes, List.map_cons, List.map_append]
    exact .cons_cons _ (.append (switched _ .bareDiff) (.append (switched _ .skipEmptyTasks)
      (.append (switched _ .allowUnrecognized) (.append (switched _ .verbose)
        (.append config format)))))
  exact kinds.nodup (by decide)

theorem foldl_grant_wishes (request : Request) :
    request.wishes.foldl Given.grant {} = request.given := by
  obtain ⟨⟨plan, bareDiff, skipEmptyTasks, allowUnrecognized⟩, verbose, config, format⟩ := request
  cases bareDiff <;> cases skipEmptyTasks <;> cases allowUnrecognized <;> cases verbose <;>
    cases config <;> cases format <;> rfl

/-- Only the paths of a request could be taken for options. -/
theorem readable {request : Request}
    (plan : request.options.plan = "-" ∨ request.options.plan.toList.head? ≠ some '-')
    (config : ∀ path ∈ request.config, path ≠ "" ∧ path.toList.head? ≠ some '-') {wish : Wish}
    (inside : wish ∈ request.wishes) : wish.Readable := by
  cases wish with
  | plan path =>
    obtain rfl : path = request.options.plan := by simpa [wishes] using inside
    exact plan
  | config path => exact config path (by simpa [wishes] using inside)
  | _ => exact trivial

end Request

/-! ### Granting wishes -/

namespace Given

variable {given : Given} {wish other : Wish} {wishes wishes' : List Wish}

theorem lacks_grant (differs : wish.flag? ≠ other.flag?) (lacks : given.Lacks other) :
    (given.grant wish).Lacks other := by
  cases wish <;> cases other <;> first | exact lacks | exact absurd rfl differs

theorem grant_comm (differs : wish.flag? ≠ other.flag?) :
    (given.grant wish).grant other = (given.grant other).grant wish := by
  cases wish <;> cases other <;> first | rfl | exact absurd rfl differs

/-- Wishes of different kinds may be granted in any order. -/
theorem foldl_grant_perm (perm : wishes.Perm wishes') (distinct : (wishes.map Wish.flag?).Nodup)
    (given : Given) : wishes.foldl grant given = wishes'.foldl grant given := by
  refine perm.foldl_eq' (fun wish inside other inside' given => ?_) given
  by_cases same : wish = other
  · rw [same]
  · exact grant_comm fun kind => same (List.inj_on_of_nodup_map distinct inside inside' kind)

/-- What is given on both sides of the command, of which the one behind it counts more. -/
def beside (before after : Given) : Given :=
  { after with
    verbose := before.verbose || after.verbose
    config := after.config <|> before.config
    format := after.format <|> before.format }

/-- The part that concerns every command. -/
def everywhere (given : Given) : Given where
  verbose := given.verbose
  config := given.config
  format := given.format

theorem beside_grant (before after : Given) (wish : Wish) :
    before.beside (after.grant wish) = (before.beside after).grant wish := by
  cases wish <;> simp [beside, grant]

theorem beside_foldl_grant (before after : Given) (wishes : List Wish) :
    before.beside (wishes.foldl grant after) = wishes.foldl grant (before.beside after) := by
  induction wishes generalizing after with
  | nil => rfl
  | cons wish wishes ih => rw [List.foldl_cons, ih, beside_grant, List.foldl_cons]

theorem beside_empty (before : Given) : before.beside {} = before.everywhere := by
  simp [beside, everywhere]

theorem everywhere_grant (wish : Wish) (isGlobal : wish.isGlobal = true) :
    (given.grant wish).everywhere = given.everywhere.grant wish := by
  cases wish <;> first | rfl | cases isGlobal

theorem everywhere_foldl_grant (areGlobal : ∀ wish ∈ wishes, wish.isGlobal = true)
    (given : Given) :
    (wishes.foldl grant given).everywhere = wishes.foldl grant given.everywhere := by
  induction wishes generalizing given with
  | nil => rfl
  | cons wish wishes ih =>
    rw [List.forall_mem_cons] at areGlobal
    rw [List.foldl_cons, ih areGlobal.2, everywhere_grant wish areGlobal.1, List.foldl_cons]

/-- It does not matter where the command stands between the wishes. -/
theorem beside_wishes {before : List Wish} (areGlobal : ∀ wish ∈ before, wish.isGlobal = true)
    (after : List Wish) :
    beside (before.foldl grant {}) (after.foldl grant {}) = (before ++ after).foldl grant {} := by
  rw [beside_foldl_grant, beside_empty, everywhere_foldl_grant areGlobal, List.foldl_append]
  rfl

end Given

/-! ### Reading wishes -/

/-- Wishes of different kinds are read one after the other. -/
theorem Spells.leads (scope : Scope) {wishes : List Wish} {arguments : List String}
    {progress : Progress} {given : Given} (spells : Spells wishes arguments)
    (distinct : (wishes.map Wish.flag?).Nodup) (readable : ∀ wish ∈ wishes, wish.Readable)
    (allowed : ∀ wish ∈ wishes, scope = .check ∨ wish.isGlobal = true)
    (holds : progress.Holds given) (lacks : ∀ wish ∈ wishes, given.Lacks wish) :
    ∃ last, Leads scope progress arguments last ∧ last.Holds (wishes.foldl Given.grant given) := by
  induction spells generalizing progress given with
  | nil => exact ⟨progress, .nil progress, holds⟩
  | @cons wish spelling wishes arguments spelled _ ih =>
    rw [List.forall_mem_cons] at readable allowed lacks
    rw [List.map_cons, List.nodup_cons] at distinct
    obtain ⟨next, first, held⟩ := wish.leads spelled readable.1 allowed.1 holds lacks.1
    -- what is left is of other kinds than the wish
    have lacking : ∀ other ∈ wishes, (given.grant wish).Lacks other := by
      intro other inside
      refine Given.lacks_grant (fun same => distinct.1 ?_) (lacks.2 other inside)
      exact List.mem_map.mpr ⟨other, inside, same.symm⟩
    obtain ⟨last, behind, holds⟩ := ih distinct.2 readable.2 allowed.2 held lacking
    exact ⟨last, first.append behind, holds⟩

theorem Given.lacks_empty (wish : Wish) : ({} : Given).Lacks wish := by
  cases wish <;> rfl

theorem Progress.holds_empty : ({} : Progress).Holds {} := ⟨rfl, rfl⟩

theorem Progress.Holds.keyword?_eq {progress : Progress} {given : Given}
    (holds : progress.Holds given) (argument : String) :
    progress.keyword? argument = keywords.lookup argument := by
  unfold keyword?
  split
  next literal => simp [holds.options] at literal
  next awaits _ => exact absurd awaits (holds.awaits_nothing _)
  next => rfl

theorem Leads.readPart_eq {scope : Scope} {progress last : Progress} {arguments : List String}
    {given : Given} (leads : Leads scope progress arguments last) (holds : last.Holds given) :
    readPart scope progress arguments = .ok given := by
  rw [readPart, leads.foldlM_eq]
  exact holds.settled

theorem readFrom_check {before : Progress} {front after : Given} {behind : List String}
    {plan : String} (holds : before.Holds front) (read : readPart .check {} behind = .ok after)
    (planned : after.plan = some plan) :
    readFrom before ("check" :: behind)
      = .ok (.ofGiven
          (.check ⟨plan, after.bareDiff, after.skipEmptyTasks, after.allowUnrecognized⟩)
          front after) := by
  have command : before.keyword? "check" = some .check := holds.keyword?_eq "check"
  rw [readFrom]
  simp [command, read, planned, holds.settled, bind, Except.bind, pure, Except.pure]

theorem Request.ofGiven_eq {request : Request} {front after : Given}
    (merged : front.beside after = request.given) :
    Invocation.ofGiven (.check ⟨request.options.plan, after.bareDiff, after.skipEmptyTasks,
        after.allowUnrecognized⟩) front after
      = request.invocation := by
  simp only [Given.beside, given, Given.mk.injEq] at merged
  obtain ⟨verbose, config, format, -, bareDiff, skipEmptyTasks, allowUnrecognized⟩ := merged
  simp only [Invocation.ofGiven, invocation, verbose, config, format, bareDiff, skipEmptyTasks,
    allowUnrecognized]

/-! ### The main result -/

/-- Every way to write a request is read as the request, if its plan is `-` or does not begin with a
dash, and its configuration is not empty and does not begin with one. -/
theorem ofArguments_writtenAs {request : Request} {arguments : List String}
    (plan : request.options.plan = "-" ∨ request.options.plan.toList.head? ≠ some '-')
    (config : ∀ path ∈ request.config, path ≠ "" ∧ path.toList.head? ≠ some '-')
    (written : request.WrittenAs arguments) :
    Invocation.ofArguments arguments = .ok request.invocation := by
  cases written with
  | @intro before after front behind perm areGlobal spellsFront spellsBehind =>
    have distinct : ((before ++ after).map Wish.flag?).Nodup :=
      (perm.map Wish.flag?).nodup_iff.mpr request.distinct_wishes
    have readable : ∀ wish ∈ before ++ after, wish.Readable :=
      fun wish inside => Request.readable plan config (perm.subset inside)
    -- both sides begin with nothing given
    have merged : Given.beside (before.foldl Given.grant {}) (after.foldl Given.grant {})
        = request.given := by
      rw [Given.beside_wishes areGlobal, Given.foldl_grant_perm perm distinct,
        request.foldl_grant_wishes]
    rw [List.map_append, List.nodup_append'] at distinct
    rw [List.forall_mem_append] at readable
    obtain ⟨_, leads, holds⟩ := spellsFront.leads .top distinct.1 readable.1
      (fun wish inside => .inr (areGlobal wish inside)) Progress.holds_empty
      (fun wish _ => Given.lacks_empty wish)
    obtain ⟨_, leads', holds'⟩ := spellsBehind.leads .check distinct.2.1 readable.2
      (fun _ _ => .inl rfl) Progress.holds_empty (fun wish _ => Given.lacks_empty wish)
    have planned := congrArg Given.plan merged
    rw [Invocation.ofArguments, leads.readFrom_eq,
      readFrom_check holds (leads'.readPart_eq holds') planned, Request.ofGiven_eq merged]

/-- The configuration has the name of a command, and the plan that of another one. -/
theorem ofArguments_writtenAs_commands :
    let options : CheckOptions := { plan := "help", bareDiff := true, allowUnrecognized := true }
    let request : Request :=
      { options, verbose := true, config := some "check", format := some .json }
    let arguments :=
      ["-v", "-c", "check", "check", "--bare-diff", "--format=json", "help", "--allow-unrecognized"]
    (options.plan = "-" ∨ options.plan.toList.head? ≠ some '-') ∧
      (∀ path ∈ request.config, path ≠ "" ∧ path.toList.head? ≠ some '-') ∧
      request.WrittenAs arguments ∧
      Invocation.ofArguments arguments = .ok ⟨.check options, true, some "check", .json⟩ := by
  intro options request arguments
  have plan : options.plan = "-" ∨ options.plan.toList.head? ≠ some '-' := by decide
  have config : ∀ path ∈ request.config, path ≠ "" ∧ path.toList.head? ≠ some '-' := by decide
  have front : Spells [.verbose, .config "check"] (["-v"] ++ (["-c", "check"] ++ [])) :=
    .cons (by decide) (.cons (by decide) .nil)
  have behind : Spells [.bareDiff, .format .json, .plan "help", .allowUnrecognized]
      (["--bare-diff"] ++ (["--format=json"] ++ (["help"] ++ (["--allow-unrecognized"] ++ [])))) :=
    .cons (by decide) (.cons (by decide) (.cons (by decide) (.cons (by decide) .nil)))
  have written : request.WrittenAs arguments := .intro (by decide) (by decide) front behind
  exact ⟨plan, config, written, ofArguments_writtenAs plan config written⟩

end DeployGate.Command
