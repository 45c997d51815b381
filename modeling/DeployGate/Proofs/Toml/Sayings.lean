import DeployGate.Proofs.Toml.Tables

/-!
# What a document says

Bindings and headers say what stands at paths of names. What they say is what stands in the table
they make, unless it is inside the tables of a header in double brackets; and in a table without
such a header no key is bound again and no table is defined again.

## Main result

`Adds.document`.
-/

namespace DeployGate.Toml

/-! ### Bindings -/

/-- Something is said about what stands under the names of a path. -/
def Facts.along (facts : Facts) : List Key → Facts
  | [] => facts
  | key :: path => .under key.name (.tabled (facts.along path))

def Item.tells (item : Item) : Facts := fun path mark => item.holds (Item.Marked mark) path

/-- The names that lead to what a key stands for. -/
def Key.names (path : List Key) (last : Key) : List String := (path ++ [last]).map Key.name

namespace Adds

/-- An item of which nothing was there. -/
theorem item {item : Item} (closed : item.Closed) :
    Adds item.tells [[]] (.of none) (.of (some item)) where
  kept test _ path held := by
    obtain ⟨item, ⟨⟩, -⟩ := held
  only path mark said := by
    obtain ⟨item, ⟨⟩, said⟩ := said
    exact .inr said
  exact := by
    right
    constructor
    · intro path mark said
      exact ⟨item, rfl, said⟩
    · simp
    · rintro path - ⟨item, ⟨⟩, -⟩
    · intro path inside
      obtain rfl := List.mem_singleton.mp inside
      exact ⟨item, rfl, closed⟩

section

variable {wrap : Entries → Item} (wraps : ∀ entries, (wrap entries).entries? = some entries)

include wraps

theorem bind {last : Key} {item : Item} (closed : item.Closed) {path : List Key}
    {entries entries' : Entries} (bound : entries.bind wrap last item path = some entries') :
    Adds (.along (.under last.name item.tells) path) [Key.names path last] entries.content
      entries'.content := by
  induction path generalizing entries entries' with
  | nil =>
    rw [Entries.bind_nil] at bound
    change Adds _ ([[]].map (last.name :: ·)) _ _
    apply Adds.update bound
    · rintro item' ⟨⟩
      exact Adds.item closed
    · rintro item' item'' ⟨⟩
  | cons key path ih =>
    rw [Entries.bind_cons] at bound
    change Adds _ ([Key.names path last].map (key.name :: ·)) _ _
    apply Adds.update bound
    · intro item' made
      obtain ⟨inner, further, rfl⟩ := Option.map_eq_some_iff.mp made
      exact Adds.fresh (wraps inner) (ih further)
    · intro item' item'' changed
      exact Adds.descend changed fun inner inner' => ih

end

end Adds

/-! ### Bindings -/

namespace Binding

def tells (binding : Binding) : Facts :=
  .along (.under binding.last.name binding.item.tells) binding.path

def names (binding : Binding) : List String := Key.names binding.path binding.last

/-- What several bindings say. -/
def allTell (bindings : List Binding) : Facts := fun path mark =>
  ∃ binding ∈ bindings, binding.tells path mark

end Binding

theorem Adds.congr {facts facts' : Facts} {given given' : List (List String)}
    {before after : Content} (adds : Adds facts given before after)
    (same : ∀ path mark, facts path mark ↔ facts' path mark) (given_ : given = given') :
    Adds facts' given' before after := by
  obtain rfl := given_
  obtain rfl : facts = facts' := by
    funext path mark
    exact propext (same path mark)
  exact adds

theorem Adds.bindAll {wrap : Entries → Item}
    (wraps : ∀ entries, (wrap entries).entries? = some entries) {bindings : List Binding}
    (closed : ∀ binding ∈ bindings, binding.item.Closed) {entries entries' : Entries}
    (bound : Toml.bindAll wrap bindings entries = some entries') :
    Adds (Binding.allTell bindings) (bindings.map Binding.names) entries.content
      entries'.content := by
  induction bindings generalizing entries with
  | nil =>
    obtain rfl : entries = entries' := Option.some.inj bound
    exact (Adds.refl entries.content).congr (by simp [Binding.allTell]) rfl
  | cons binding bindings ih =>
    obtain ⟨here, others⟩ := List.forall_mem_cons.mp closed
    rw [Toml.bindAll, List.foldlM_cons] at bound
    obtain ⟨between, first, further⟩ := Option.bind_eq_some_iff.mp bound
    have adds := (Adds.bind wraps here first).trans (ih others further)
    apply adds.congr
    · simp [Binding.allTell, Binding.tells]
    · rfl

/-! ### Headers -/

/-- The path of a header is followed. -/
theorem Adds.enter {facts : Facts} {given : List (List String)} {change : Entries → Option Entries}
    (adds : ∀ entries entries', change entries = some entries' →
      Adds facts given entries.content entries'.content)
    {path : List Key} {entries entries' : Entries}
    (entered : entries.enter change path = some entries') :
    Adds (facts.along path) (given.map (path.map Key.name ++ ·)) entries.content
      entries'.content := by
  induction path generalizing entries entries' with
  | nil =>
    rw [Entries.enter_nil] at entered
    exact (adds entries entries' entered).congr (fun _ _ => .rfl) (by simp)
  | cons key path ih =>
    rw [Entries.enter_cons] at entered
    have under : Adds (.under key.name (.tabled (facts.along path)))
        ((given.map (path.map Key.name ++ ·)).map (key.name :: ·)) entries.content
        entries'.content := by
      apply Adds.update entered
      · intro item' made
        obtain ⟨inner, further, rfl⟩ := Option.map_eq_some_iff.mp made
        exact Adds.fresh rfl (ih further)
      · intro item' item'' changed
        exact Adds.descend changed fun inner inner' => ih
    exact under.congr (fun _ _ => .rfl) (by simp)

namespace Section

/-- A header that makes one of several tables says no more than that. Another one makes a table with
its bindings. -/
def inside (part : Section) : Facts :=
  if part.header.double then fun path mark => path = [] ∧ mark = .tables
  else .tabled (Binding.allTell part.bindings)

def tells (part : Section) : Facts :=
  .along (.under part.header.last.name part.inside) part.header.path

def names (part : Section) : List String := Key.names part.header.path part.header.last

/-- What may not be given again: the table of a header and the keys that are bound there. -/
def given (part : Section) : List (List String) :=
  if part.header.double then []
  else part.names :: part.bindings.map fun binding => part.names ++ binding.names

/-- What several sections say. -/
def allTell (parts : List Section) : Facts := fun path mark => ∃ part ∈ parts, part.tells path mark

end Section

namespace Adds

variable {part : Section} {entries entries' : Entries}

/-- One more table under the name of several ones. -/
theorem another {table : Span × Entries} {item item' : Item}
    (changed : Item.another table item = some item') :
    Adds (fun path mark => path = [] ∧ mark = .tables) [] (.of (some item)) (.of (some item')) := by
  cases item with
  | tables items =>
    obtain rfl := Option.some.inj changed
    have several : Content.of (some (.tables (items ++ [table]))) (Item.Marked .tables) [] := by
      rw [of_nil]
      exact marked_tables (by simp)
    constructor
    · intro test stable path held
      cases path with
      | nil =>
        rw [of_nil] at held ⊢
        exact stable.more table held
      | cons name path => obtain ⟨item, ⟨⟩, entries, part, ⟨⟩, -⟩ := held
    · intro path mark said
      cases path with
      | nil =>
        rw [of_nil] at said
        exact .inr ⟨rfl, (Option.some.inj ((marked_tables (by simp)).symm.trans said)).symm⟩
      | cons name path => obtain ⟨item, ⟨⟩, entries, part, ⟨⟩, -⟩ := said
    · exact .inl ⟨[], several⟩
  | _ => cases changed

theorem several (table : Span × Entries) :
    Adds (fun path mark => path = [] ∧ mark = .tables) [] (.of none)
      (.of (some (.tables [table]))) := by
  constructor
  · rintro test - path ⟨item, ⟨⟩, -⟩
  · intro path mark said
    cases path with
    | nil =>
      rw [of_nil] at said
      exact .inr ⟨rfl, (Option.some.inj said).symm⟩
    | cons name path => obtain ⟨item, ⟨⟩, entries, part, ⟨⟩, -⟩ := said
  · exact .inl ⟨[], (of_nil _ _).mpr rfl⟩

/-- The item itself may not be given again. -/
theorem close (adds : Adds facts given before after) (apart : [] ∉ given)
    (open_ : ¬ before Item.Closed []) (closed : after Item.Closed []) :
    Adds facts ([] :: given) before after where
  kept := adds.kept
  only := adds.only
  exact := by
    rcases adds.exact with tables | exact_
    · exact .inl tables
    · right
      constructor
      · exact exact_.said
      · exact List.nodup_cons.mpr ⟨apart, exact_.distinct⟩
      · exact List.forall_mem_cons.mpr ⟨open_, exact_.free⟩
      · exact List.forall_mem_cons.mpr ⟨closed, exact_.taken⟩

/-- A table that no header has defined so far is defined. -/
theorem defined {item? : Option Item} {inner filled : Entries} {span : Option Span}
    (start : item?.elim (some []) Item.undefined? = some inner) (apart : [] ∉ given)
    (adds : Adds facts given inner.content filled.content) :
    Adds facts.tabled ([] :: given) (.of item?) (.of (some (.table span .written filled))) := by
  have closed : Content.of (some (.table span .written filled)) Item.Closed [] := by
    rw [of_nil]
    rintro span entries ⟨⟩
  match item? with
  | none =>
    obtain rfl := Option.some.inj start
    apply close (fresh rfl adds) apart _ closed
    rintro ⟨item, ⟨⟩, -⟩
  | some (.table span' .passed entries) =>
    obtain rfl := Option.some.inj start
    apply close (tabled (around_of rfl) (around_of rfl) _ (marked_table rfl) adds) apart _ closed
    · intro test stable passed
      rw [of_nil] at passed ⊢
      exact stable.defined passed
    · rw [of_nil]
      exact fun closed => closed _ _ rfl

/-- What is defined under a name stands there, and nothing else changes. -/
theorem find?_define {last : Key} {item : Item} (name : String) (entries : Entries) :
    Entries.find? name (Entries.without last.name entries ++ [(last, item)])
      = if name = last.name then some item else Entries.find? name entries := by
  rw [Entries.find?_append, Entries.find?_without, Entries.find?_cons]
  by_cases same : name = last.name
  · rw [if_pos same, if_pos same, if_pos same.symm]
    rfl
  · rw [if_neg same, if_neg same, if_neg (Ne.symm same)]
    cases Entries.find? name entries <;> rfl

theorem define {part : Section} {entries entries' : Entries}
    (closed : ∀ binding ∈ part.bindings, binding.item.Closed)
    (defined_ : part.define entries = some entries') :
    Adds (.under part.header.last.name part.inside)
      ((if part.header.double then [] else [] :: part.bindings.map Binding.names).map
        (part.header.last.name :: ·))
      entries.content entries'.content := by
  cases double : part.header.double with
  | true =>
    rw [part.define_double entries double] at defined_
    obtain ⟨inner, -, updated⟩ := Option.bind_eq_some_iff.mp defined_
    rw [Section.inside, if_pos double, if_pos rfl]
    apply update updated
    · rintro item ⟨⟩
      exact several _
    · exact fun item item' => another
  | false =>
    rw [part.define_single entries double] at defined_
    obtain ⟨inner, start, more⟩ := Option.bind_eq_some_iff.mp defined_
    obtain ⟨filled, bound, rfl⟩ := Option.map_eq_some_iff.mp more
    have apart : [] ∉ part.bindings.map Binding.names := by
      simp [Binding.names, Key.names]
    rw [Section.inside, double, if_neg (by simp), if_neg (by simp)]
    apply under
    · intro other differ
      rw [find?_define, if_neg differ]
    · rw [find?_define, if_pos rfl]
      exact defined start apart (bindAll (fun _ => rfl) closed bound)

end Adds

/-! ### Documents -/

/-- What a document says. -/
def documentTells (leading : List Binding) (parts : List Section) : Facts := fun path mark =>
  Binding.allTell leading path mark ∨ Section.allTell parts path mark

/-- The keys and the tables that a document gives. -/
def documentGiven (leading : List Binding) (parts : List Section) : List (List String) :=
  leading.map Binding.names ++ parts.flatMap Section.given

namespace Adds

theorem enterSections {parts : List Section}
    (closed : ∀ part ∈ parts, ∀ binding ∈ part.bindings, binding.item.Closed)
    {entries entries' : Entries}
    (entered : parts.foldlM (fun entries part => Entries.enter part.define part.header.path entries)
      entries = some entries') :
    Adds (Section.allTell parts) (parts.flatMap Section.given) entries.content
      entries'.content := by
  induction parts generalizing entries with
  | nil =>
    obtain rfl : entries = entries' := Option.some.inj entered
    exact (refl entries.content).congr (by simp [Section.allTell]) rfl
  | cons part parts ih =>
    obtain ⟨here, others⟩ := List.forall_mem_cons.mp closed
    rw [List.foldlM_cons] at entered
    obtain ⟨between, first, further⟩ := Option.bind_eq_some_iff.mp entered
    have adds := enter (fun entries entries' => define here) first
    apply (adds.trans (ih others further)).congr
    · simp [Section.allTell, Section.tells]
    · rw [List.flatMap_cons]
      congr 1
      rw [Section.given]
      split
      · rfl
      · simp [Section.names, Key.names]

/-- What a document says is what stands in its table. -/
theorem document {leading : List Binding} {parts : List Section} {root : Entries}
    (closed : ∀ binding ∈ leading, binding.item.Closed)
    (closed' : ∀ part ∈ parts, ∀ binding ∈ part.bindings, binding.item.Closed)
    (made : documentEntries leading parts = some root) :
    Adds (documentTells leading parts) (documentGiven leading parts) (Entries.content [])
      root.content := by
  obtain ⟨entries, bound, entered⟩ := Option.bind_eq_some_iff.mp made
  exact (bindAll (fun _ => rfl) closed bound).trans (enterSections closed' entered)

section

variable {facts : Facts} {given : List (List String)} {root : Entries}

/-- There are several tables of one name just if a header with double brackets says so. -/
theorem tables_iff (adds : Adds facts given (Entries.content []) root.content) :
    (∃ path, root.holds (Item.Marked .tables) path) ↔ ∃ path, facts path .tables := by
  constructor
  · rintro ⟨path, tables⟩
    rcases adds.only path .tables tables with nothing | said
    · exact absurd nothing (Entries.not_content_nil _ path)
    · exact ⟨path, said⟩
  · rintro ⟨path, said⟩
    rcases adds.exact with tables | exact_
    · exact tables
    · exact ⟨path, exact_.said path .tables said⟩

/-- Without headers in double brackets just that stands in the table which is said. -/
theorem holds_iff (adds : Adds facts given (Entries.content []) root.content)
    (single : ¬ ∃ path, root.holds (Item.Marked .tables) path) (path : List String) (mark : Mark) :
    root.holds (Item.Marked mark) path ↔ facts path mark := by
  constructor
  · intro stands
    rcases adds.only path mark stands with nothing | said
    · exact absurd nothing (Entries.not_content_nil _ path)
    · exact said
  · intro said
    rcases adds.exact with tables | exact_
    · exact absurd tables single
    · exact exact_.said path mark said

end

end Adds

/-- A header with double brackets says that there are several tables. -/
theorem Section.tells_tables {part : Section} (double : part.header.double = true) :
    part.tells part.names .tables := by
  have along (facts : Facts) (rest : List String) (said : facts rest .tables) (path : List Key) :
      facts.along path (path.map Key.name ++ rest) .tables := by
    induction path with
    | nil => exact said
    | cons key path ih => exact ⟨_, rfl, .inr ih⟩
  rw [Section.names, Key.names, List.map_append]
  apply along
  refine ⟨[], rfl, ?_⟩
  rw [Section.inside, if_pos double]
  exact ⟨rfl, rfl⟩

/-! ### Styles of tables -/

namespace Facts

theorem along_append (facts : Facts) (path more : List Key) :
    facts.along (path ++ more) = (facts.along more).along path := by
  induction path with
  | nil => rfl
  | cons key path ih => rw [List.cons_append, along, ih, along]

/-- Several things that are said at the end of a path are said by going there for each. -/
theorem along_exists {α : Type} {all : List α} (some_ : all ≠ []) (facts : α → Facts)
    (path : List Key) (names : List String) (mark : Mark) :
    along (fun names mark => ∃ a ∈ all, facts a names mark) path names mark ↔
      ∃ a ∈ all, (facts a).along path names mark := by
  -- one of them has to be there for the tables on the way
  obtain ⟨a, inside⟩ := List.exists_mem_of_ne_nil all some_
  induction path generalizing names with
  | nil => exact Iff.rfl
  | cons key path ih =>
    constructor
    · rintro ⟨rest, rfl, table | said⟩
      · exact ⟨a, inside, rest, rfl, .inl table⟩
      · obtain ⟨b, inside', said⟩ := (ih rest).mp said
        exact ⟨b, inside', rest, rfl, .inr said⟩
    · rintro ⟨b, inside', rest, rfl, table | said⟩
      · exact ⟨rest, rfl, .inl table⟩
      · exact ⟨rest, rfl, .inr ((ih rest).mpr ⟨b, inside', said⟩)⟩

end Facts

theorem Binding.allTell_map {α : Type} (binding : α → Binding) (all : List α)
    (names : List String) (mark : Mark) :
    allTell (all.map binding) names mark ↔ ∃ a ∈ all, (binding a).tells names mark := by
  constructor
  · rintro ⟨_, member, said⟩
    obtain ⟨a, source, rfl⟩ := List.mem_map.mp member
    exact ⟨a, source, said⟩
  · rintro ⟨a, source, said⟩
    exact ⟨_, List.mem_map_of_mem source, said⟩

/-- The binding under a header, with the names of the header in front of its key. -/
def Section.dotted (part : Section) (binding : Binding) : Binding :=
  ⟨part.header.path ++ part.header.last :: binding.path, binding.last, binding.item⟩

/-- A table under a header says what dotted keys say. -/
theorem Section.tells_iff {part : Section} (single : part.header.double = false)
    (some_ : part.bindings ≠ []) (names : List String) (mark : Mark) :
    part.tells names mark ↔ Binding.allTell (part.bindings.map part.dotted) names mark := by
  have dotted (binding : Binding) : (part.dotted binding).tells
      = binding.tells.along (part.header.path ++ [part.header.last]) := by
    rw [Binding.tells, dotted, Facts.along_append, Facts.along_append]
    rfl
  have inside : part.tells = (Binding.allTell part.bindings).along
      (part.header.path ++ [part.header.last]) := by
    rw [tells, Section.inside, single, if_neg (by simp), Facts.along_append]
    rfl
  rw [inside, Binding.allTell_map]
  simp only [dotted]
  exact Facts.along_exists some_ Binding.tells _ names mark

theorem Item.tells_table {item : Item} {entries : Entries} (table : item.entries? = some entries)
    (distinct : entries.names.Nodup) :
    item.tells = .tabled fun names mark =>
      ∃ entry ∈ entries, Facts.under entry.1.name entry.2.tells names mark := by
  funext names mark
  apply propext
  cases names with
  | nil =>
    constructor
    · intro said
      exact .inl ⟨rfl, Option.some.inj (said.symm.trans (mark_of_entries table))⟩
    · rintro (⟨-, rfl⟩ | ⟨entry, member, rest, ⟨⟩, -⟩)
      exact mark_of_entries table
  | cons name rest =>
    rw [Item.tells, holds_cons table]
    constructor
    · rintro ⟨part, found, said⟩
      obtain ⟨key, member, rfl⟩ := Entries.exists_of_find? found
      exact .inr ⟨(key, part), member, rest, rfl, said⟩
    · rintro (⟨⟨⟩, -⟩ | ⟨entry, member, rest, ⟨⟩, said⟩)
      -- the key comes once, so this entry is the one that is found
      exact ⟨entry.2, Entries.mem_find? distinct member, said⟩

/-- The entries of a table in a value, as bindings with dotted keys. -/
def Binding.dotted (binding : Binding) (entry : Key × Item) : Binding :=
  ⟨binding.path ++ [binding.last], entry.1, entry.2⟩

/-- A table between braces says what dotted keys say. -/
theorem Binding.tells_iff {binding : Binding} {entries : Entries}
    (table : binding.item.entries? = some entries) (distinct : entries.names.Nodup)
    (some_ : entries ≠ []) (names : List String) (mark : Mark) :
    binding.tells names mark ↔ Binding.allTell (entries.map binding.dotted) names mark := by
  have dotted (entry : Key × Item) : (binding.dotted entry).tells
      = (Facts.under entry.1.name entry.2.tells).along (binding.path ++ [binding.last]) := rfl
  have inside : binding.tells = Facts.along
      (fun names mark => ∃ entry ∈ entries, Facts.under entry.1.name entry.2.tells names mark)
      (binding.path ++ [binding.last]) := by
    rw [Binding.tells, Item.tells_table table distinct, Facts.along_append]
    rfl
  rw [inside, Binding.allTell_map]
  simp only [dotted]
  exact Facts.along_exists some_ _ _ names mark

/-- A header without bindings says what an empty table says. -/
theorem Section.tells_empty {part : Section} {item : Item} (single : part.header.double = false)
    (none : part.bindings = []) (empty : item.entries? = some []) :
    part.tells = Binding.tells ⟨part.header.path, part.header.last, item⟩ := by
  have inside : part.inside = item.tells := by
    have nothing : Binding.allTell [] = fun _ _ => False := by
      funext names mark
      simp [Binding.allTell]
    rw [Section.inside, single, if_neg (by simp), none, nothing,
      Item.tells_table empty (by simp [Entries.names])]
    simp
  rw [tells, inside]
  rfl

/-- Of a list it is told whether it is empty. -/
theorem Item.tells_array {elements elements' : List Item}
    (same : elements.isEmpty = elements'.isEmpty) (span span' : Span) :
    (Item.array span elements).tells = (Item.array span' elements').tells := by
  funext names mark
  cases names with
  | nil => rw [tells, tells, holds, holds, Marked, Marked, mark?, mark?, same]
  | cons name rest =>
    apply propext
    constructor <;>
    · rintro ⟨entries, part, ⟨⟩, -⟩

/-- Of a header in double brackets it is told that there are several tables, and nothing of what is
in them. -/
theorem Section.tells_double {header : Header} (double : header.double = true)
    (bindings bindings' : List Binding) :
    Section.tells ⟨header, bindings⟩ = Section.tells ⟨header, bindings'⟩ := by
  rw [tells, tells, inside, inside, if_pos double, if_pos double]

theorem Binding.allTell_append (bindings bindings' : List Binding) (names : List String)
    (mark : Mark) :
    allTell (bindings ++ bindings') names mark ↔
      allTell bindings names mark ∨ allTell bindings' names mark := by
  simp only [allTell, List.mem_append, or_and_right, exists_or]

theorem Binding.allTell_cons (binding : Binding) (bindings : List Binding) (names : List String)
    (mark : Mark) :
    allTell (binding :: bindings) names mark ↔
      binding.tells names mark ∨ allTell bindings names mark := by
  simp [allTell]

theorem Section.allTell_cons (part : Section) (parts : List Section) (names : List String)
    (mark : Mark) :
    allTell (part :: parts) names mark ↔ part.tells names mark ∨ allTell parts names mark := by
  simp [allTell]

/-- The same in another order, or with its tables in another style: with dotted keys, between braces
or under headers. In a list that is not empty and under a header in double brackets everything may
be different. -/
inductive Restyled : List Binding → List Section → List Binding → List Section → Prop
  | order {leading leading' : List Binding} {parts parts' : List Section} :
    leading.Perm leading' → parts.Perm parts' → Restyled leading parts leading' parts'
  | braces {binding : Binding} {entries : Entries} {leading : List Binding} {parts : List Section} :
    binding.item.entries? = some entries → entries.names.Nodup → entries ≠ [] →
    Restyled (binding :: leading) parts (entries.map binding.dotted ++ leading) parts
  | header {part : Section} {leading : List Binding} {parts : List Section} :
    part.header.double = false → part.bindings ≠ [] →
    Restyled leading (part :: parts) (part.bindings.map part.dotted ++ leading) parts
  | empty {part : Section} {item : Item} {leading : List Binding} {parts : List Section} :
    part.header.double = false → part.bindings = [] → item.entries? = some [] →
    Restyled leading (part :: parts) (⟨part.header.path, part.header.last, item⟩ :: leading) parts
  | list {path : List Key} {last : Key} {span span' : Span} {elements elements' : List Item}
    {leading : List Binding} {parts : List Section} : elements.isEmpty = elements'.isEmpty →
    Restyled (⟨path, last, .array span elements⟩ :: leading) parts
      (⟨path, last, .array span' elements'⟩ :: leading) parts
  | several {header : Header} {bindings bindings' leading : List Binding} {parts : List Section} :
    header.double = true →
    Restyled leading (⟨header, bindings⟩ :: parts) leading (⟨header, bindings'⟩ :: parts)
  | symm {leading leading' : List Binding} {parts parts' : List Section} :
    Restyled leading parts leading' parts' → Restyled leading' parts' leading parts
  | trans {leading between leading' : List Binding} {parts partsBetween parts' : List Section} :
    Restyled leading parts between partsBetween → Restyled between partsBetween leading' parts' →
    Restyled leading parts leading' parts'

/-- Order and style make no difference to what is said. -/
theorem Restyled.tells {leading leading' : List Binding} {parts parts' : List Section}
    (restyled : Restyled leading parts leading' parts') (names : List String) (mark : Mark) :
    documentTells leading parts names mark ↔ documentTells leading' parts' names mark := by
  induction restyled with
  | order first second =>
    simp only [documentTells, Binding.allTell, Section.allTell, first.mem_iff, second.mem_iff]
  | braces table distinct some_ =>
    rw [documentTells, documentTells, Binding.allTell_cons, Binding.allTell_append,
      Binding.tells_iff table distinct some_]
  | header single some_ =>
    rw [documentTells, documentTells, Section.allTell_cons, Binding.allTell_append,
      Section.tells_iff single some_, ← or_assoc, or_comm (a := Binding.allTell _ names mark)]
  | empty single none empty =>
    rw [documentTells, documentTells, Section.allTell_cons, Binding.allTell_cons,
      Section.tells_empty single none empty, ← or_assoc,
      or_comm (a := Binding.allTell _ names mark)]
  | @list path last span span' elements elements' leading parts same =>
    rw [documentTells, documentTells, Binding.allTell_cons, Binding.allTell_cons, Binding.tells,
      Binding.tells, Item.tells_array same span span']
  | @several header bindings bindings' leading parts double =>
    rw [documentTells, documentTells, Section.allTell_cons, Section.allTell_cons,
      Section.tells_double double bindings bindings']
  | symm _ ih => exact ih.symm
  | trans _ _ first second => exact first.trans second

end DeployGate.Toml
