import DeployGate.Proofs.Gate.Understanding
import DeployGate.Proofs.Toml.Proper
import DeployGate.Proofs.Toml.Spans

/-!
# What a configuration depends on

Whether a table is a configuration, and which one, depends on what stands at its paths: not on where
in a text it stands, in which order the keys come, or in which style the tables are written.

## Main results

`understood_bare`, `Understood.of_alike`.
-/

namespace DeployGate.Gate

open Toml (Entries Item Key Span Mark)

variable {α : Type} {name : α → String} {policy : α}

/-! ### Places -/

theorem blank_bare {item : Item} : Blank item.bare ↔ Blank item := by
  constructor
  · intro blank
    cases item with
    | scalar => cases blank
    | array span elements =>
      cases elements with
      | nil => exact .array span
      | cons => cases blank
    | inline span origin entries =>
      cases entries with
      | nil => exact .inline span origin
      | cons => cases blank
    | table span origin entries =>
      cases entries with
      | nil => exact .table span origin
      | cons => cases blank
    | tables items =>
      cases items with
      | nil => exact .tables
      | cons => cases blank
  · intro blank
    cases blank with
    | array => exact .array _
    | inline => exact .inline _ _
    | table => exact .table _ _
    | tables => exact .tables

theorem names_bare {item : Item} : Names name policy item.bare ↔ Names name policy item := by
  constructor
  · intro names
    cases item with
    | scalar span value =>
      cases names
      exact .text span
    | array | tables => cases names
    | inline span origin entries =>
      match entries with
      | [] => cases names
      | [(key, item)] =>
        cases names with
        | inline _ _ same blank => exact .inline span origin same (blank_bare.mp blank)
      | _ :: _ :: _ => cases names
    | table span origin entries =>
      match entries with
      | [] => cases names
      | [(key, item)] =>
        cases names with
        | table _ _ same blank => exact .table span origin same (blank_bare.mp blank)
      | _ :: _ :: _ => cases names
  · intro names
    cases names with
    | text => exact .text _
    | inline span origin same blank => exact .inline _ origin same (blank_bare.mpr blank)
    | table span origin same blank => exact .table _ origin same (blank_bare.mpr blank)

theorem forall_bare (root : Entries) (test : String → Item → Prop) :
    (∀ entry ∈ root.bare, test entry.1.name entry.2) ↔
      ∀ entry ∈ root, test entry.1.name entry.2.bare := by
  rw [Entries.bare_eq_map, List.forall_mem_map]
  rfl

theorem sets_bare {key : String} {default : α} {root : Entries} :
    Sets key name default root.bare policy ↔ Sets key name default root policy := by
  have named := forall_bare root fun other item => other = key → Names name policy item
  have absent := forall_bare root fun other _ => other ≠ key
  simp only [names_bare] at named
  constructor
  · intro sets
    exact ⟨named.mp sets.named, fun none => sets.absent (absent.mpr none)⟩
  · intro sets
    exact ⟨named.mpr sets.named, fun none => sets.absent (absent.mp none)⟩

/-- Where the keys and the values stand makes no difference. -/
theorem understood_bare {root : Entries} {config : Config} :
    Understood root.bare config ↔ Understood root config := by
  have keys := forall_bare root fun name _ => name = "unrecognized" ∨ name = "empty-task"
  constructor
  · intro understood
    exact ⟨keys.mp understood.keys, sets_bare.mp understood.unrecognized,
      sets_bare.mp understood.emptyTask⟩
  · intro understood
    exact ⟨keys.mpr understood.keys, sets_bare.mpr understood.unrecognized,
      sets_bare.mpr understood.emptyTask⟩

/-! ### Paths -/

/-- The same stands at all paths. -/
def Alike (item item' : Item) : Prop :=
  ∀ path mark, item.holds (Item.Marked mark) path ↔ item'.holds (Item.Marked mark) path

def AlikeTables (root root' : Entries) : Prop :=
  ∀ path mark, root.holds (Item.Marked mark) path ↔ root'.holds (Item.Marked mark) path

namespace AlikeTables

variable {root root' : Entries}

theorem symm (alike : AlikeTables root root') : AlikeTables root' root :=
  fun path mark => (alike path mark).symm

/-- What stands under a name in one table stands under it in the other. -/
theorem find (alike : AlikeTables root root') (proper : root.Proper) {key : Key} {item : Item}
    (inside : (key, item) ∈ root) :
    ∃ key' item', (key', item') ∈ root' ∧ key'.name = key.name ∧ Alike item item' := by
  have found := Entries.mem_find? proper.distinct inside
  obtain ⟨mark, marked⟩ := (proper.inside _ inside).exists_mark
  obtain ⟨item', found', -⟩ := (alike [key.name] mark).mp ⟨item, found, marked⟩
  obtain ⟨key', inside', same⟩ := Entries.exists_of_find? found'
  refine ⟨key', item', inside', same, fun path mark => ?_⟩
  constructor
  · intro stands
    obtain ⟨part, found'', held⟩ := (alike (key.name :: path) mark).mp ⟨item, found, stands⟩
    obtain rfl := Option.some.inj (found'.symm.trans found'')
    exact held
  · intro stands
    obtain ⟨part, found'', held⟩ := (alike (key.name :: path) mark).mpr ⟨item', found', stands⟩
    obtain rfl := Option.some.inj (found.symm.trans found'')
    exact held

end AlikeTables

namespace Alike

variable {item item' : Item}

theorem symm (alike : Alike item item') : Alike item' item :=
  fun path mark => (alike path mark).symm

theorem mark (alike : Alike item item') (proper : item'.Proper) : item.mark? = item'.mark? := by
  obtain ⟨mark, marked⟩ := proper.exists_mark
  rw [marked]
  exact (alike [] mark).mpr marked

/-- Items that are alike are tables with entries that are alike. -/
theorem entries {entries : Entries} (alike : Alike item item') (proper : item'.Proper)
    (has : item.entries? = some entries) :
    ∃ entries', item'.entries? = some entries' ∧ AlikeTables entries entries' := by
  have marked := Item.mark_of_entries has
  rw [alike.mark proper] at marked
  obtain ⟨entries', has'⟩ := Item.entries_of_mark marked
  refine ⟨entries', has', fun path mark => ?_⟩
  cases path with
  | nil => exact Iff.rfl
  | cons name path =>
    rw [← Item.holds_cons has, ← Item.holds_cons has']
    exact alike (name :: path) mark

end Alike

/-! ### Policies -/

theorem Blank.of_entries {item : Item} (has : item.entries? = some []) : Blank item := by
  cases item with
  | inline span origin =>
    obtain rfl := Option.some.inj has
    exact .inline span origin
  | table span origin =>
    obtain rfl := Option.some.inj has
    exact .table span origin
  | _ => cases has

theorem Blank.of_alike {item item' : Item} (alike : Alike item item') (proper : item'.Proper)
    (blank : Blank item) : Blank item' := by
  have empty (has : item.entries? = some []) : Blank item' := by
    obtain ⟨entries', has', same⟩ := alike.entries proper has
    cases entries' with
    | nil => exact .of_entries has'
    | cons entry entries' =>
      -- the first table would have this entry, too
      obtain ⟨key, part, ⟨⟩, -⟩ := same.symm.find (proper.entries has') List.mem_cons_self
  cases blank with
  | array span =>
    have marked := alike.mark proper
    cases proper with
    | array span elements =>
      cases elements with
      | nil => exact .array span
      | cons => cases marked
    | _ => cases marked
  | inline | table => exact empty rfl
  | tables =>
    have marked := alike.mark proper
    cases proper <;> cases marked

theorem Names.of_entries {item part : Item} {key : Key} (has : item.entries? = some [(key, part)])
    (same : key.name = name policy) (blank : Blank part) : Names name policy item := by
  cases item with
  | inline span origin =>
    obtain rfl := Option.some.inj has
    exact .inline span origin same blank
  | table span origin =>
    obtain rfl := Option.some.inj has
    exact .table span origin same blank
  | _ => cases has

/-- A list whose elements are all of one name has no more than one of them, if none comes twice. -/
theorem eq_singleton {entries : Entries} (distinct : entries.names.Nodup) {key : Key} {item : Item}
    (inside : (key, item) ∈ entries) (all : ∀ entry ∈ entries, entry.1.name = key.name) :
    entries = [(key, item)] := by
  match entries with
  | [] => cases inside
  | [entry] => rw [List.mem_singleton.mp inside]
  | first :: second :: entries =>
    have same : first.1.name = second.1.name :=
      (all first (by simp)).trans (all second (by simp)).symm
    have differ : first.1.name ∉ Entries.names (second :: entries) :=
      (List.nodup_cons.mp distinct).1
    rw [same] at differ
    exact absurd List.mem_cons_self differ

theorem Names.of_alike {item item' : Item} (alike : Alike item item') (proper : item.Proper)
    (proper' : item'.Proper) (names : Names name policy item) : Names name policy item' := by
  have table {key : Key} {part : Item} (has : item.entries? = some [(key, part)])
      (named : key.name = name policy) (blank : Blank part) : Names name policy item' := by
    obtain ⟨entries', has', same⟩ := alike.entries proper' has
    have inner := proper.entries has
    have inner' := proper'.entries has'
    obtain ⟨key', part', inside', sameName, alike'⟩ := same.find inner List.mem_cons_self
    -- every entry there has the name of the one entry here
    have all (entry : Key × Item) (inside : entry ∈ entries') : entry.1.name = key'.name := by
      obtain ⟨key'', part'', inside'', sameName', -⟩ := same.symm.find inner' inside
      cases List.mem_singleton.mp inside''
      exact sameName'.symm.trans sameName.symm
    rw [eq_singleton inner'.distinct inside' all] at has'
    exact .of_entries has' (sameName.trans named)
      (blank.of_alike alike' (inner'.inside _ inside'))
  cases names with
  | text span =>
    have marked := alike.mark proper'
    cases proper' with
    | scalar span value =>
      cases marked
      exact .text span
    | _ => cases marked
  | inline span origin named blank | table span origin named blank => exact table rfl named blank

/-! ### Configurations -/

variable {root root' : Entries}

theorem Sets.of_alike {key : String} {default : α} (alike : AlikeTables root root')
    (proper : root.Proper) (proper' : root'.Proper) (sets : Sets key name default root policy) :
    Sets key name default root' policy where
  named entry' inside' same := by
    obtain ⟨key, item, inside, sameName, alike'⟩ := alike.symm.find proper' inside'
    have names := sets.named _ inside (sameName.trans same)
    exact names.of_alike alike'.symm (proper.inside _ inside) (proper'.inside _ inside')
  absent none := by
    apply sets.absent
    intro entry inside same
    obtain ⟨key', item', inside', sameName, -⟩ := alike.find proper inside
    exact none _ inside' (sameName.trans same)

/-- Tables in which the same stands at all paths are the same configuration, if they are one. -/
theorem Understood.of_alike {config : Config} (alike : AlikeTables root root')
    (proper : root.Proper) (proper' : root'.Proper) (understood : Understood root config) :
    Understood root' config where
  keys entry' inside' := by
    obtain ⟨key, item, inside, sameName, -⟩ := alike.symm.find proper' inside'
    rw [← sameName]
    exact understood.keys _ inside
  unrecognized := understood.unrecognized.of_alike alike proper proper'
  emptyTask := understood.emptyTask.of_alike alike proper proper'

theorem Blank.single {item : Item} (blank : Blank item) (path : List String) :
    ¬ item.holds (Item.Marked .tables) path := by
  intro tables
  cases path with
  | nil => cases blank <;> cases tables
  | cons name path =>
    obtain ⟨entries, part, has, found, -⟩ := tables
    cases blank <;> cases has <;> cases found

theorem Names.single {item : Item} (names : Names name policy item) (path : List String) :
    ¬ item.holds (Item.Marked .tables) path := by
  intro tables
  cases path with
  | nil => cases names <;> cases tables
  | cons other path =>
    obtain ⟨entries, part, has, found, tables⟩ := tables
    obtain ⟨key, inside, -⟩ := Entries.exists_of_find? found
    cases names with
    | text => cases has
    | inline span origin named blank | table span origin named blank =>
      cases has
      cases List.mem_singleton.mp inside
      exact blank.single path tables

/-- Headers in double brackets have no place in a configuration. -/
theorem Understood.single {config : Config} (understood : Understood root config) :
    ¬ ∃ path, root.holds (Item.Marked .tables) path := by
  rintro ⟨path, tables⟩
  cases path with
  | nil => exact tables
  | cons name path =>
    obtain ⟨part, found, tables⟩ := tables
    obtain ⟨key, inside, -⟩ := Entries.exists_of_find? found
    rcases understood.keys _ inside with same | same
    · exact (understood.unrecognized.named _ inside same).single path tables
    · exact (understood.emptyTask.named _ inside same).single path tables

end DeployGate.Gate
