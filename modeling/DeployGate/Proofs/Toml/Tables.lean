import DeployGate.Proofs.Toml.Steps

/-!
# What stands where in a table

Items are looked up by paths of names. What a table has is told by what stands at its paths: another
table, a value without parts, a list, or the tables of a header in double brackets. Neither the
order of the keys nor the style of the tables is to be seen there.

Whatever binds a key or enters a header changes the table of one path, and what stands elsewhere
stays.

## Main results

`find?_update`, `Adds.update`, `Adds.trans`.
-/

namespace DeployGate.Toml

/-! ### Looking up -/

/-- The entries of a table. -/
def Item.entries? : Item → Option Entries
  | .inline _ _ entries | .table _ _ entries => some entries
  | _ => none

/-- At the end of the path stands something that passes the test. -/
def Item.holds (test : Item → Prop) : List String → Item → Prop
  | [], item => test item
  | name :: path, item => ∃ entries part, item.entries? = some entries ∧
    Entries.find? name entries = some part ∧ part.holds test path

def Entries.holds (test : Item → Prop) : List String → Entries → Prop
  | [], _ => False
  | name :: path, entries => ∃ part, find? name entries = some part ∧ part.holds test path

theorem Item.holds_cons {test : Item → Prop} {item : Item} {entries : Entries}
    (has : item.entries? = some entries) (name : String) (path : List String) :
    item.holds test (name :: path) ↔ entries.holds test (name :: path) := by
  constructor
  · rintro ⟨entries', part, has', found, held⟩
    obtain rfl := Option.some.inj (has.symm.trans has')
    exact ⟨part, found, held⟩
  · rintro ⟨part, found, held⟩
    exact ⟨entries, part, has, found, held⟩

/-- What can be seen of an item from outside. -/
inductive Mark
  | table
  | scalar (value : Scalar)
  | array (empty : Bool)
  | tables
  deriving DecidableEq, Repr

/-- A name with double brackets has at least one table. -/
def Item.mark? : Item → Option Mark
  | .scalar _ value => some (.scalar value)
  | .array _ elements => some (.array elements.isEmpty)
  | .inline _ _ _ | .table _ _ _ => some .table
  | .tables items => if items.isEmpty then none else some .tables

namespace Item

theorem entries_of_mark {item : Item} (marked : item.mark? = some .table) :
    ∃ entries, item.entries? = some entries := by
  cases item with
  | inline _ _ entries | table _ _ entries => exact ⟨entries, rfl⟩
  | tables items => cases items <;> cases marked
  | _ => cases marked

theorem mark_of_entries {item : Item} {entries : Entries} (has : item.entries? = some entries) :
    item.mark? = some .table := by
  cases item with
  | inline | table => rfl
  | _ => cases has

end Item

def Item.Marked (mark : Mark) (item : Item) : Prop := item.mark? = some mark

/-- No header may define the item again. -/
def Item.Closed (item : Item) : Prop := ∀ span entries, item ≠ .table span .passed entries

namespace Entries

def names (entries : Entries) : List String := entries.map fun entry => entry.1.name

theorem find?_cons (name : String) (key : Key) (item : Item) (entries : Entries) :
    find? name ((key, item) :: entries)
      = if key.name = name then some item else find? name entries := by
  rw [find?, find?]
  by_cases same : key.name = name
  · rw [if_pos same, List.find?_cons_of_pos (by simpa using same)]
    rfl
  · rw [if_neg same, List.find?_cons_of_neg (by simpa using same)]

theorem find?_append (name : String) (front back : Entries) :
    find? name (front ++ back) = (find? name front).or (find? name back) := by
  rw [find?, find?, find?, List.find?_append]
  cases List.find? (fun entry => entry.1.name == name) front <;> rfl

/-- Only the item of the key changes. -/
theorem find?_update {key : Key} {fresh : Option Item} {change : Item → Option Item}
    {entries entries' : Entries} (updated : update key fresh change entries = some entries')
    (name : String) :
    find? name entries'
      = if name = key.name then (find? name entries).elim fresh change else find? name entries := by
  induction entries generalizing entries' with
  | nil =>
    obtain ⟨item, rfl, rfl⟩ := Option.map_eq_some_iff.mp updated
    by_cases same : name = key.name
    · subst same
      rw [find?_cons, if_pos rfl, if_pos rfl]
      rfl
    · rw [find?_cons, if_neg (Ne.symm same), if_neg same]
  | cons entry entries ih =>
    obtain ⟨k, item⟩ := entry
    rw [update] at updated
    by_cases found : k.name = key.name
    · rw [if_pos found] at updated
      obtain ⟨item', changed, rfl⟩ := Option.map_eq_some_iff.mp updated
      by_cases same : name = key.name
      · rw [find?_cons, find?_cons, found, if_pos same.symm, if_pos same.symm, if_pos same]
        exact changed.symm
      · rw [find?_cons, find?_cons, found, if_neg (Ne.symm same), if_neg same,
          if_neg (Ne.symm same)]
    · rw [if_neg found] at updated
      obtain ⟨entries', further, rfl⟩ := Option.map_eq_some_iff.mp updated
      by_cases same : k.name = name
      · have other : name ≠ key.name := same ▸ found
        rw [find?_cons, find?_cons, if_pos same, if_pos same, if_neg other]
      · rw [find?_cons, find?_cons, if_neg same, if_neg same, ih further]

/-- There is an item of the key afterwards. -/
theorem exists_of_update {key : Key} {fresh : Option Item} {change : Item → Option Item}
    {entries entries' : Entries} (updated : update key fresh change entries = some entries') :
    ∃ item, (find? key.name entries).elim fresh change = some item := by
  induction entries generalizing entries' with
  | nil =>
    obtain ⟨item, made, -⟩ := Option.map_eq_some_iff.mp updated
    exact ⟨item, made⟩
  | cons entry entries ih =>
    obtain ⟨k, item⟩ := entry
    rw [update] at updated
    by_cases found : k.name = key.name
    · rw [if_pos found] at updated
      obtain ⟨item', changed, -⟩ := Option.map_eq_some_iff.mp updated
      exact ⟨item', by rw [find?_cons, if_pos found]; exact changed⟩
    · rw [if_neg found] at updated
      obtain ⟨entries', further, -⟩ := Option.map_eq_some_iff.mp updated
      rw [find?_cons, if_neg found]
      exact ih further

theorem find?_without (name other : String) (entries : Entries) :
    find? other (without name entries)
      = if other = name then none else find? other entries := by
  induction entries with
  | nil => simp [without, find?]
  | cons entry entries ih =>
    obtain ⟨key, item⟩ := entry
    by_cases dropped : key.name = name
    · have same : without name ((key, item) :: entries) = without name entries := by
        simp [without, dropped]
      rw [same, ih, find?_cons, dropped]
      by_cases equal : other = name
      · rw [if_pos equal, if_pos equal]
      · rw [if_neg equal, if_neg equal, if_neg (Ne.symm equal)]
    · have same : without name ((key, item) :: entries)
          = (key, item) :: without name entries := by
        simp [without, dropped]
      rw [same, find?_cons, find?_cons, ih]
      by_cases equal : other = name
      · rw [if_pos equal, if_pos equal, if_neg (by rw [equal]; exact dropped)]
      · rw [if_neg equal, if_neg equal]

theorem mem_find? {entries : Entries} (distinct : entries.names.Nodup) {key : Key} {item : Item}
    (inside : (key, item) ∈ entries) : find? key.name entries = some item := by
  induction entries with
  | nil => cases inside
  | cons entry entries ih =>
    obtain ⟨k, first⟩ := entry
    obtain ⟨fresh, distinct⟩ := List.nodup_cons.mp distinct
    rw [find?_cons]
    rcases List.mem_cons.mp inside with same | inside
    · cases same
      rw [if_pos rfl]
    · have other : k.name ≠ key.name := by
        intro same
        have member : key.name ∈ names entries := List.mem_map_of_mem inside
        rw [← same] at member
        exact fresh member
      rw [if_neg other]
      exact ih distinct inside

theorem exists_of_find? {entries : Entries} {name : String} {item : Item}
    (found : find? name entries = some item) : ∃ key, (key, item) ∈ entries ∧ key.name = name := by
  obtain ⟨⟨key, item⟩, first, rfl⟩ := Option.map_eq_some_iff.mp found
  exact ⟨key, List.mem_of_find?_eq_some first, by simpa using List.find?_some first⟩

end Entries

/-! ### What is added -/

/-- Which tests what stands at the end of a path passes. -/
abbrev Content := (Item → Prop) → List String → Prop

def Entries.content (entries : Entries) : Content := fun test path => entries.holds test path

theorem Entries.not_content_nil (test : Item → Prop) (path : List String) :
    ¬ Entries.content [] test path := by
  cases path with
  | nil => exact id
  | cons name path =>
    rintro ⟨part, ⟨⟩, -⟩

/-- The content of an item that may be there. -/
def Content.of (item? : Option Item) : Content := fun test path =>
  ∃ item, item? = some item ∧ item.holds test path

/-- The test is passed for good: whatever is added inside an item that passes it. -/
structure Stable (test : Item → Prop) : Prop where
  inside {item : Item} {inner : Entries} {put : Entries → Item} (inner' : Entries) :
    item.inside? = some (inner, put) → test item → test (put inner')
  defined {span span' : Option Span} {inner inner' : Entries} :
    test (.table span .passed inner) → test (.table span' .written inner')
  more {items : List (Span × Entries)} (table : Span × Entries) :
    test (.tables items) → test (.tables (items ++ [table]))

/-- What is said to stand at the paths of a table. -/
abbrev Facts := List String → Mark → Prop

namespace Facts

/-- Something is said about the item of a name. -/
def under (name : String) (facts : Facts) : Facts := fun path mark =>
  ∃ rest, path = name :: rest ∧ facts rest mark

/-- Something is said about the entries of a table. -/
def tabled (facts : Facts) : Facts := fun path mark => (path = [] ∧ mark = .table) ∨ facts path mark

end Facts

/-- Everything that is said is there, and the given paths are new ones, different from each other,
which are not given again. -/
structure Exact (facts : Facts) (given : List (List String)) (before after : Content) : Prop where
  said : ∀ path mark, facts path mark → after (Item.Marked mark) path
  distinct : given.Nodup
  free : ∀ path ∈ given, ¬ before Item.Closed path
  taken : ∀ path ∈ given, after Item.Closed path

/-- Nothing is lost and nothing comes in but what is said. Inside the tables of a header with double
brackets what is said is not to be seen. -/
structure Adds (facts : Facts) (given : List (List String)) (before after : Content) : Prop where
  kept : ∀ test, Stable test → ∀ path, before test path → after test path
  only : ∀ path mark, after (Item.Marked mark) path →
    before (Item.Marked mark) path ∨ facts path mark
  exact : (∃ path, after (Item.Marked .tables) path) ∨ Exact facts given before after

theorem stable_marked (mark : Mark) : Stable (Item.Marked mark) where
  inside {item} _ _ inner' reached marked := by
    cases item with
    | scalar | array => cases reached
    | inline | table =>
      cases reached
      exact marked
    | tables items =>
      obtain ⟨last, found, same⟩ := Option.map_eq_some_iff.mp reached
      cases same
      cases items with
      | nil => cases found
      | cons => simpa [Item.Marked, Item.mark?] using marked
  defined marked := marked
  more {items} table marked := by
    cases items with
    | nil => cases marked
    | cons => exact marked

theorem stable_closed : Stable Item.Closed where
  inside {item} _ _ inner' reached closed := by
    intro span entries same
    cases item with
    | scalar | array => cases reached
    | inline =>
      cases reached
      cases same
    | table =>
      cases reached
      cases same
      exact closed _ _ rfl
    | tables items =>
      obtain ⟨last, found, put⟩ := Option.map_eq_some_iff.mp reached
      cases put
      cases same
  defined closed := absurd rfl (closed _ _)
  more table _ := by
    intro span entries same
    cases same

namespace Adds

variable {facts facts' : Facts} {given given' : List (List String)}
  {before between after : Content}

/-- Nothing is added. -/
theorem refl (content : Content) : Adds (fun _ _ => False) [] content content where
  kept _ _ _ held := held
  only _ _ said := .inl said
  exact := .inr ⟨fun _ _ none => none.elim, List.nodup_nil, by simp, by simp⟩

/-- What is added later comes on top. -/
theorem trans (first : Adds facts given before between)
    (second : Adds facts' given' between after) :
    Adds (fun path mark => facts path mark ∨ facts' path mark) (given ++ given') before after where
  kept test stable path held := second.kept test stable path (first.kept test stable path held)
  only path mark said := by
    rcases second.only path mark said with said | said
    · rcases first.only path mark said with said | said
      · exact .inl said
      · exact .inr (.inl said)
    · exact .inr (.inr said)
  exact := by
    rcases first.exact with ⟨path, tables⟩ | first'
    · exact .inl ⟨path, second.kept _ (stable_marked _) path tables⟩
    rcases second.exact with tables | second'
    · exact .inl tables
    right
    constructor
    · intro path mark said
      rcases said with said | said
      · exact second.kept _ (stable_marked _) path (first'.said path mark said)
      · exact second'.said path mark said
    · rw [List.nodup_append]
      refine ⟨first'.distinct, second'.distinct, fun path inside path' inside' same => ?_⟩
      -- what is given first is closed afterwards, and what is given then was not
      subst same
      exact second'.free path inside' (first'.taken path inside)
    · intro path inside closed
      rcases List.mem_append.mp inside with inside | inside
      · exact first'.free path inside closed
      · exact second'.free path inside (first.kept _ stable_closed path closed)
    · intro path inside
      rcases List.mem_append.mp inside with inside | inside
      · exact second.kept _ stable_closed path (first'.taken path inside)
      · exact second'.taken path inside

/-- What is added to the item of one name is added to the table. -/
theorem under {entries entries' : Entries} {name : String}
    (others : ∀ other, other ≠ name → Entries.find? other entries' = Entries.find? other entries)
    (here : Adds facts given (.of (Entries.find? name entries))
      (.of (Entries.find? name entries'))) :
    Adds (facts.under name) (given.map (name :: ·)) entries.content entries'.content where
  kept test stable path held := by
    cases path with
    | nil => exact held.elim
    | cons other path =>
      by_cases same : other = name
      · subst same
        exact here.kept test stable path held
      · rw [Entries.content, Entries.holds, others other same]
        exact held
  only path mark said := by
    cases path with
    | nil => exact said.elim
    | cons other path =>
      by_cases same : other = name
      · subst same
        rcases here.only path mark said with said | said
        · exact .inl said
        · exact .inr ⟨path, rfl, said⟩
      · rw [Entries.content, Entries.holds, others other same] at said
        exact .inl said
  exact := by
    rcases here.exact with ⟨path, tables⟩ | here
    · exact .inl ⟨name :: path, tables⟩
    right
    constructor
    · rintro path mark ⟨rest, rfl, said⟩
      exact here.said rest mark said
    · exact List.Pairwise.map _ (fun a b differ same => differ (List.cons.inj same).2) here.distinct
    · intro path inside
      obtain ⟨rest, member, rfl⟩ := List.mem_map.mp inside
      exact here.free rest member
    · intro path inside
      obtain ⟨rest, member, rfl⟩ := List.mem_map.mp inside
      exact here.taken rest member

/-- The entries of the table are its content, apart from the table itself. -/
structure Around (content : Content) (entries : Entries) : Prop where
  below : ∀ test name path, content test (name :: path) ↔ entries.holds test (name :: path)

/-- What is added to the entries is added to their table. -/
theorem tabled {inner inner' : Entries} (around : Around before inner)
    (around' : Around after inner') (kept : ∀ test, Stable test → before test [] → after test [])
    (table : ∀ mark, after (Item.Marked mark) [] ↔ mark = .table)
    (adds : Adds facts given inner.content inner'.content) :
    Adds facts.tabled given before after where
  kept test stable path held := by
    cases path with
    | nil => exact kept test stable held
    | cons name path =>
      rw [around'.below]
      exact adds.kept test stable _ ((around.below ..).mp held)
  only path mark said := by
    cases path with
    | nil => exact .inr (.inl ⟨rfl, (table mark).mp said⟩)
    | cons name path =>
      rcases adds.only _ mark ((around'.below ..).mp said) with said | said
      · exact .inl ((around.below ..).mpr said)
      · exact .inr (.inr said)
  exact := by
    rcases adds.exact with ⟨path, tables⟩ | exact_
    · cases path with
      | nil => exact tables.elim
      | cons name path => exact .inl ⟨name :: path, (around'.below ..).mpr tables⟩
    right
    -- no given path is empty, since the entries themselves stand at none
    have found (path : List String) (inside : path ∈ given) : ∃ name rest, path = name :: rest := by
      cases path with
      | nil => exact (exact_.taken [] inside).elim
      | cons name rest => exact ⟨name, rest, rfl⟩
    constructor
    · rintro path mark (⟨rfl, rfl⟩ | said)
      · exact (table _).mpr rfl
      · have said := exact_.said path mark said
        cases path with
        | nil => exact said.elim
        | cons name path => exact (around'.below ..).mpr said
    · exact exact_.distinct
    · intro path inside closed
      obtain ⟨name, rest, rfl⟩ := found path inside
      exact exact_.free _ inside ((around.below ..).mp closed)
    · intro path inside
      obtain ⟨name, rest, rfl⟩ := found path inside
      exact (around'.below ..).mpr (exact_.taken _ inside)

theorem around_of {item : Item} {entries : Entries} (has : item.entries? = some entries) :
    Around (.of (some item)) entries where
  below test name path := by
    rw [← Item.holds_cons has]
    constructor
    · rintro ⟨item, ⟨⟩, held⟩
      exact held
    · exact fun held => ⟨item, rfl, held⟩

/-- Nothing is there, as in a table without entries. -/
theorem around_none : Around (.of none) [] where
  below test name path := by
    constructor
    · rintro ⟨item, ⟨⟩, -⟩
    · rintro ⟨part, ⟨⟩, -⟩

theorem of_nil (test : Item → Prop) (item : Item) : Content.of (some item) test [] ↔ test item := by
  constructor
  · rintro ⟨item, ⟨⟩, passed⟩
    exact passed
  · intro passed
    exact ⟨item, rfl, passed⟩

theorem marked_table {item : Item} {entries : Entries} (has : item.entries? = some entries)
    (mark : Mark) : Content.of (some item) (Item.Marked mark) [] ↔ mark = .table := by
  rw [of_nil, Item.Marked, Item.mark_of_entries has, Option.some_inj, eq_comm]

theorem marked_tables {items : List (Span × Entries)} (some_ : items ≠ []) :
    Item.Marked .tables (.tables items) := by
  cases items with
  | nil => exact absurd rfl some_
  | cons => rfl

/-- A table that is made has the entries that are added to none. -/
theorem fresh {item : Item} {entries : Entries} (has : item.entries? = some entries)
    (adds : Adds facts given (Entries.content []) entries.content) :
    Adds facts.tabled given (.of none) (.of (some item)) := by
  apply tabled around_none (around_of has) _ (marked_table has) adds
  rintro test - ⟨item, ⟨⟩, -⟩

/-- What is added inside an item is added to it. -/
theorem inside {item : Item} {inner inner' : Entries} {put : Entries → Item}
    (reached : item.inside? = some (inner, put))
    (adds : Adds facts given inner.content inner'.content) :
    Adds facts.tabled given (.of (some item)) (.of (some (put inner'))) := by
  have here (test : Item → Prop) (stable : Stable test)
      (passed : Content.of (some item) test []) : Content.of (some (put inner')) test [] := by
    rw [of_nil] at passed ⊢
    exact stable.inside inner' reached passed
  cases item with
  | scalar | array => cases reached
  | inline | table =>
    cases reached
    exact tabled (around_of rfl) (around_of rfl) here (marked_table rfl) adds
  | tables items =>
    obtain ⟨last, found, same⟩ := Option.map_eq_some_iff.mp reached
    cases same
    -- what is inside of several tables is not to be seen, only that they are there
    have several : Content.of (some (.tables (items.dropLast ++ [(last.1, inner')])))
        (Item.Marked .tables) [] := by
      rw [of_nil]
      exact marked_tables (by simp)
    constructor
    · intro test stable path held
      cases path with
      | nil => exact here test stable held
      | cons name path =>
        obtain ⟨item, ⟨⟩, entries, part, ⟨⟩, -⟩ := held
    · intro path mark said
      cases path with
      | nil =>
        left
        rw [of_nil] at said ⊢
        obtain rfl := Option.some.inj ((marked_tables (by simp)).symm.trans said)
        apply marked_tables
        rintro rfl
        cases found
      | cons name path =>
        obtain ⟨item, ⟨⟩, entries, part, ⟨⟩, -⟩ := said
    · exact .inl ⟨[], several⟩

/-- What is changed inside an item that is entered is added to it. -/
theorem descend {enters : Item → Bool} {change : Entries → Option Entries} {item item' : Item}
    (changed : item.descend enters change = some item')
    (adds : ∀ inner inner', change inner = some inner' →
      Adds facts given inner.content inner'.content) :
    Adds facts.tabled given (.of (some item)) (.of (some item')) := by
  obtain ⟨-, inner, put, inner', reached, further, rfl⟩ := Item.descend_eq_some_iff.mp changed
  exact inside reached (adds inner inner' further)

/-- What is added by a change of the item of a key, or by a fresh one. -/
theorem update {key : Key} {fresh : Option Item} {change : Item → Option Item}
    {entries entries' : Entries} (updated : entries.update key fresh change = some entries')
    (made : ∀ item, fresh = some item → Adds facts given (.of none) (.of (some item)))
    (changed : ∀ item item', change item = some item' →
      Adds facts given (.of (some item)) (.of (some item'))) :
    Adds (facts.under key.name) (given.map (key.name :: ·)) entries.content entries'.content := by
  apply under
  · intro other differ
    rw [Entries.find?_update updated, if_neg differ]
  · have here := Entries.find?_update updated key.name
    rw [if_pos rfl] at here
    obtain ⟨item', becomes⟩ := Entries.exists_of_update updated
    rw [here, becomes]
    cases found : Entries.find? key.name entries with
    | none =>
      rw [found] at becomes
      exact made item' becomes
    | some item =>
      rw [found] at becomes
      exact changed item item' becomes

end Adds

end DeployGate.Toml
