import DeployGate.Gate.ConfigToml

/-!
# Which tables are configurations

A table is a configuration exactly when it has no other keys than the two policies and each of them
stands there by name: as a text, or as the one key of a table, with nothing under it.

## Main result

`ofEntries_eq_ok_iff`.
-/

namespace DeployGate.Gate

open Toml (Entries Item Key Span)
open Walk (EmptyTaskPolicy)

variable {α : Type}

/-- Nothing stands here: a list or a table without anything in it. -/
inductive Blank : Item → Prop
  | array (span : Span) : Blank (.array span [])
  | inline (span : Option Span) (origin : Toml.Origin) : Blank (.inline span origin [])
  | table (span : Option Span) (origin : Toml.Origin) : Blank (.table span origin [])
  | tables : Blank (.tables [])

/-- The item gives a policy by its name. -/
inductive Names (name : α → String) (policy : α) : Item → Prop
  | text (span : Span) : Names name policy (.scalar span (.string (name policy)))
  | inline {key : Key} {item : Item} (span : Option Span) (origin : Toml.Origin) :
    key.name = name policy → Blank item → Names name policy (.inline span origin [(key, item)])
  | table {key : Key} {item : Item} (span : Option Span) (origin : Toml.Origin) :
    key.name = name policy → Blank item → Names name policy (.table span origin [(key, item)])

/-- Whatever stands under the key in the table gives the policy by its name; without the key it is
the default. -/
structure Sets (key : String) (name : α → String) (default : α) (root : Entries) (policy : α) :
    Prop where
  named : ∀ entry ∈ root, entry.1.name = key → Names name policy entry.2
  absent : (∀ entry ∈ root, entry.1.name ≠ key) → policy = default

/-- The table is a configuration, and which one it is. -/
structure Understood (root : Entries) (config : Config) : Prop where
  keys : ∀ entry ∈ root, entry.1.name = "unrecognized" ∨ entry.1.name = "empty-task"
  unrecognized : Sets "unrecognized" UnrecognizedPolicy.name .reject root config.unrecognized
  emptyTask : Sets "empty-task" EmptyTaskPolicy.name .abortWalk root config.emptyTask

/-! ### Policies -/

theorem bind_eq_ok_iff {ε β : Type} {reading : Except ε α} {next : α → Except ε β} {value : β} :
    (reading >>= next) = .ok value ↔ ∃ found, reading = .ok found ∧ next found = .ok value := by
  cases reading <;> simp [bind, Except.bind]

theorem expectEmpty_eq_ok_iff {item : Item} (around : Span) :
    expectEmpty item around = .ok () ↔ Blank item := by
  constructor
  · intro accepted
    unfold expectEmpty at accepted
    cases item with
    | scalar => cases accepted
    | array span elements =>
      cases elements with
      | nil => exact .array span
      | cons => cases accepted
    | inline span origin entries =>
      cases entries with
      | nil => exact .inline span origin
      | cons => cases accepted
    | table span origin entries =>
      cases entries with
      | nil => exact .table span origin
      | cons => cases accepted
    | tables items =>
      cases items with
      | nil => exact .tables
      | cons => cases accepted
  · intro blank
    cases blank <;> rfl

section

variable {policies : List (String × α)} {name : α → String}
  (listed : ∀ text policy, policies.lookup text = some policy ↔ text = name policy)

include listed

theorem policyNamed_eq_ok_iff {text : String} (span : Span) {policy : α} :
    policyNamed policies text span = .ok policy ↔ text = name policy := by
  rw [← listed, policyNamed]
  cases policies.lookup text <;> simp

/-- A table with one key, under which nothing stands. -/
theorem named_eq_ok_iff {key : Key} {item : Item} {around : Span} {policy : α} :
    (do
      let policy ← policyNamed policies key.name key.span
      expectEmpty item around
      return policy) = Except.ok policy ↔ key.name = name policy ∧ Blank item := by
  rw [← policyNamed_eq_ok_iff listed key.span, ← expectEmpty_eq_ok_iff around]
  cases policyNamed policies key.name key.span with
  | error => simp [bind, Except.bind]
  | ok => cases expectEmpty item around <;> simp [bind, Except.bind, pure, Except.pure]

theorem policyOf_eq_ok_iff {key : Key} {item : Item} {policy : α} :
    policyOf policies key item = .ok policy ↔ Names name policy item := by
  constructor
  · intro accepted
    unfold policyOf at accepted
    cases item with
    | scalar span value =>
      cases value with
      | string text =>
        obtain rfl := (policyNamed_eq_ok_iff listed span).mp accepted
        exact .text span
      | _ => cases accepted
    | inline span origin entries =>
      match entries with
      | [] => cases accepted
      | [(key, item)] =>
        obtain ⟨same, blank⟩ := (named_eq_ok_iff listed).mp accepted
        exact .inline span origin same blank
      | _ :: _ :: _ => cases accepted
    | table span origin entries =>
      match entries with
      | [] => cases accepted
      | [(key, item)] =>
        obtain ⟨same, blank⟩ := (named_eq_ok_iff listed).mp accepted
        exact .table span origin same blank
      | _ :: _ :: _ => cases accepted
    | array | tables => cases accepted
  · intro names
    cases names with
    | text span => exact (policyNamed_eq_ok_iff listed span).mpr rfl
    | inline span origin same blank | table span origin same blank =>
      exact (named_eq_ok_iff listed).mpr ⟨same, blank⟩

end

theorem lookup_unrecognized (text : String) (policy : UnrecognizedPolicy) :
    unrecognizedPolicies.lookup text = some policy ↔ text = policy.name := by
  by_cases first : text = "reject"
  · subst first
    cases policy <;> decide
  · by_cases second : text = "proceed"
    · subst second
      cases policy <;> decide
    · have none : unrecognizedPolicies.lookup text = none := by
        simp [unrecognizedPolicies, List.lookup_eq_none_iff, first, second]
      cases policy <;> simp [none, UnrecognizedPolicy.name, first, second]

theorem lookup_emptyTask (text : String) (policy : EmptyTaskPolicy) :
    emptyTaskPolicies.lookup text = some policy ↔ text = policy.name := by
  by_cases first : text = "abort-walk"
  · subst first
    cases policy <;> decide
  · by_cases second : text = "skip-task"
    · subst second
      cases policy <;> decide
    · have none : emptyTaskPolicies.lookup text = none := by
        simp [emptyTaskPolicies, List.lookup_eq_none_iff, first, second]
      cases policy <;> simp [none, EmptyTaskPolicy.name, first, second]

/-! ### Tables -/

section

variable {key : String} {name : α → String} {default policy : α} {root : Entries}

/-- Without the key the default is taken. -/
theorem Sets.fresh_iff (fresh : key ∉ root.map fun entry => entry.1.name) :
    Sets key name default root policy ↔ policy = default := by
  have other (entry : Key × Item) (inside : entry ∈ root) : entry.1.name ≠ key := by
    rintro rfl
    exact fresh (List.mem_map_of_mem inside)
  constructor
  · intro sets
    exact sets.absent other
  · rintro rfl
    exact ⟨fun entry inside same => absurd same (other entry inside), fun _ => rfl⟩

/-- A key that comes first is not found again behind. -/
theorem Sets.same_iff {first : Key} {item : Item}
    (fresh : first.name ∉ root.map fun entry => entry.1.name) :
    Sets first.name name default ((first, item) :: root) policy ↔ Names name policy item := by
  constructor
  · intro sets
    exact sets.named (first, item) List.mem_cons_self rfl
  · intro names
    constructor
    · intro entry inside same
      rcases List.mem_cons.mp inside with rfl | inside
      · exact names
      · rw [← same] at fresh
        exact absurd (List.mem_map_of_mem inside) fresh
    · intro absent
      exact absurd rfl (absent (first, item) List.mem_cons_self)

theorem Sets.other_iff {first : Key} {item : Item} (other : first.name ≠ key) :
    Sets key name default ((first, item) :: root) policy ↔
      Sets key name default root policy := by
  constructor
  · rintro ⟨named, absent⟩
    constructor
    · exact fun entry inside => named entry (List.mem_cons_of_mem _ inside)
    · exact fun none => absent (List.forall_mem_cons.mpr ⟨other, none⟩)
  · rintro ⟨named, absent⟩
    constructor
    · exact List.forall_mem_cons.mpr ⟨fun same => absurd same other, named⟩
    · exact fun none => absent (List.forall_mem_cons.mp none).2

end

/-- What a table adds to a configuration that is there. -/
theorem ofEntries_eq_ok_iff_from {root : Entries}
    (distinct : (root.map fun entry => entry.1.name).Nodup) (start config : Config) :
    Config.ofEntries start root = .ok config ↔
      (∀ entry ∈ root, entry.1.name = "unrecognized" ∨ entry.1.name = "empty-task") ∧
        Sets "unrecognized" UnrecognizedPolicy.name start.unrecognized root config.unrecognized ∧
        Sets "empty-task" EmptyTaskPolicy.name start.emptyTask root config.emptyTask := by
  induction root generalizing start with
  | nil =>
    rw [Config.ofEntries, Sets.fresh_iff (by simp), Sets.fresh_iff (by simp)]
    cases start
    cases config
    simp [eq_comm]
  | cons entry root ih =>
    obtain ⟨key, item⟩ := entry
    rw [List.map_cons, List.nodup_cons] at distinct
    obtain ⟨fresh, distinct⟩ := distinct
    simp only [Config.ofEntries, List.forall_mem_cons]
    by_cases first : key.name = "unrecognized"
    · have other : key.name ≠ "empty-task" := by simp [first]
      rw [if_pos first, bind_eq_ok_iff, Sets.other_iff other, ← first, Sets.same_iff fresh]
      simp only [ih distinct, policyOf_eq_ok_iff lookup_unrecognized, first, true_or, true_and]
      rw [first] at fresh
      -- the policy that is found here is the one that stays
      simp only [Sets.fresh_iff fresh]
      constructor
      · rintro ⟨policy, names, keys, rfl, emptyTask⟩
        exact ⟨keys, names, emptyTask⟩
      · rintro ⟨keys, names, emptyTask⟩
        exact ⟨_, names, keys, rfl, emptyTask⟩
    · by_cases second : key.name = "empty-task"
      · rw [if_neg first, if_pos second, bind_eq_ok_iff, Sets.other_iff first, ← second,
          Sets.same_iff fresh]
        simp only [ih distinct, policyOf_eq_ok_iff lookup_emptyTask, second, or_true, true_and]
        rw [second] at fresh
        simp only [Sets.fresh_iff fresh]
        constructor
        · rintro ⟨policy, names, keys, unrecognized, rfl⟩
          exact ⟨keys, unrecognized, names⟩
        · rintro ⟨keys, unrecognized, names⟩
          exact ⟨_, names, keys, unrecognized, rfl⟩
      · rw [if_neg first, if_neg second]
        simp [first, second]

/-- A table without repeated keys is the configuration that it is understood as, and no other table
is one. -/
theorem ofEntries_eq_ok_iff {root : Entries}
    (distinct : (root.map fun entry => entry.1.name).Nodup) (config : Config) :
    Config.ofEntries {} root = .ok config ↔ Understood root config := by
  rw [ofEntries_eq_ok_iff_from distinct]
  constructor
  · rintro ⟨keys, unrecognized, emptyTask⟩
    exact ⟨keys, unrecognized, emptyTask⟩
  · intro understood
    exact ⟨understood.keys, understood.unrecognized, understood.emptyTask⟩

end DeployGate.Gate
