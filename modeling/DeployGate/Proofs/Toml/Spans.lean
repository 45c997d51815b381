import DeployGate.Proofs.Toml.Steps

/-!
# What a document says, without where

Which table a document has depends on the names of its keys and on its values, in their order. Where
they stand makes no difference: the items without their places are those that come of the bindings
and the headers without their places.

## Main result

`documentEntries_bare`.
-/

namespace DeployGate.Toml

/-! ### Items without their places -/

def Span.blank : Span := ⟨[], []⟩

def Key.bare (key : Key) : Key := ⟨key.name, .blank⟩

namespace Item

mutual

def bare : Item → Item
  | scalar _ value => scalar .blank value
  | array _ elements => array .blank (bareElements elements)
  | inline span origin entries => inline (span.map fun _ => .blank) origin (bareEntries entries)
  | table span origin entries => table (span.map fun _ => .blank) origin (bareEntries entries)
  | tables items => tables (bareTables items)

def bareElements : List Item → List Item
  | [] => []
  | element :: rest => element.bare :: bareElements rest

def bareEntries : List (Key × Item) → List (Key × Item)
  | [] => []
  | (key, item) :: rest => (key.bare, item.bare) :: bareEntries rest

def bareTables : List (Span × List (Key × Item)) → List (Span × List (Key × Item))
  | [] => []
  | (_, entries) :: rest => (.blank, bareEntries entries) :: bareTables rest

end

end Item

def Entries.bare (entries : Entries) : Entries := Item.bareEntries entries

def Binding.bare (binding : Binding) : Binding :=
  ⟨binding.path.map Key.bare, binding.last.bare, binding.item.bare⟩

def Header.bare (header : Header) : Header :=
  ⟨header.path.map Key.bare, header.last.bare, header.double, .blank⟩

def Section.bare (part : Section) : Section :=
  ⟨part.header.bare, part.bindings.map Binding.bare⟩

namespace Item

theorem bareElements_eq_map (elements : List Item) : bareElements elements = elements.map bare := by
  induction elements with
  | nil => rfl
  | cons element rest ih => rw [bareElements, ih, List.map_cons]

theorem bareEntries_eq_map (entries : Entries) :
    bareEntries entries = entries.map fun entry => (entry.1.bare, entry.2.bare) := by
  induction entries with
  | nil => rfl
  | cons entry rest ih => rw [bareEntries, ih, List.map_cons]

theorem bareTables_eq_map (items : List (Span × Entries)) :
    bareTables items = items.map fun item => (.blank, bareEntries item.2) := by
  induction items with
  | nil => rfl
  | cons item rest ih => rw [bareTables, ih, List.map_cons]

theorem span?_bare (item : Item) : item.bare.span? = item.span?.map fun _ => .blank := by
  cases item with
  | scalar | array => rw [bare, span?, span?, Option.map_some]
  | inline | table => rw [bare, span?, span?]
  | tables items =>
    rw [bare, span?, span?, bareTables_eq_map, List.head?_map, List.getLast?_map]
    cases items.head? <;> cases items.getLast? <;> rfl

end Item

namespace Entries

theorem bare_eq_map (entries : Entries) :
    entries.bare = entries.map fun entry => (entry.1.bare, entry.2.bare) :=
  Item.bareEntries_eq_map entries

theorem bare_append (entries entries' : Entries) :
    bare (entries ++ entries') = entries.bare ++ entries'.bare := by
  simp [bare_eq_map]

theorem bare_cons (key : Key) (item : Item) (entries : Entries) :
    bare ((key, item) :: entries) = (key.bare, item.bare) :: entries.bare := rfl

theorem update_bare {key : Key} {fresh : Option Item} {change change' : Item → Option Item}
    (same : ∀ item, (change item).map Item.bare = change' item.bare) (entries : Entries) :
    (update key fresh change entries).map bare
      = update key.bare (fresh.map Item.bare) change' entries.bare := by
  induction entries with
  | nil => cases fresh <;> rfl
  | cons entry entries ih =>
    obtain ⟨k, item⟩ := entry
    rw [bare_cons, update, update]
    change _ = if k.name = key.name then _ else _
    split
    · rw [← same]
      cases change item <;> rfl
    · rw [← ih]
      cases update key fresh change entries <;> rfl

end Entries

namespace Item

theorem getLast?_bareTables (items : List (Span × Entries)) :
    (bareTables items).getLast? = items.getLast?.map fun item => (.blank, item.2.bare) := by
  rw [bareTables_eq_map, List.getLast?_map]
  rfl

/-- The last of the tables of a name is replaced. -/
theorem bareTables_replaceLast (items : List (Span × Entries)) (span : Span) (inner : Entries) :
    bareTables (items.dropLast ++ [(span, inner)])
      = (bareTables items).dropLast ++ [(.blank, inner.bare)] := by
  rw [bareTables_eq_map, bareTables_eq_map, List.map_append, List.map_dropLast]
  rfl

theorem inside?_bare {item : Item} {inner : Entries} {put : Entries → Item}
    (reached : item.inside? = some (inner, put)) :
    ∃ put', item.bare.inside? = some (inner.bare, put') ∧
      ∀ entries, (put entries).bare = put' entries.bare := by
  cases item with
  | scalar | array => cases reached
  | inline | table =>
    cases reached
    exact ⟨_, rfl, fun _ => rfl⟩
  | tables items =>
    obtain ⟨⟨span, inner⟩, found, same⟩ := Option.map_eq_some_iff.mp reached
    cases same
    refine ⟨fun entries => .tables ((bareTables items).dropLast ++ [(.blank, entries)]), ?_, ?_⟩
    · rw [bare, inside?, getLast?_bareTables, found]
      rfl
    · intro entries
      rw [bare, bareTables_replaceLast]

theorem inside?_bare_none {item : Item} (closed : item.inside? = none) :
    item.bare.inside? = none := by
  cases item with
  | scalar | array => rfl
  | inline | table => cases closed
  | tables items =>
    rw [inside?, Option.map_eq_none_iff] at closed
    rw [bare, inside?, getLast?_bareTables, closed]
    rfl

theorem descend_bare {enters : Item → Bool} (blind : ∀ item, enters item.bare = enters item)
    {change change' : Entries → Option Entries}
    (same : ∀ entries, (change entries).map Entries.bare = change' entries.bare) (item : Item) :
    (item.descend enters change).map bare = item.bare.descend enters change' := by
  rw [descend, descend, blind]
  split
  next =>
    cases reached : item.inside? with
    | none => rw [inside?_bare_none reached]; rfl
    | some inside =>
      obtain ⟨inner, put⟩ := inside
      obtain ⟨put', reached', puts⟩ := inside?_bare reached
      rw [reached', Option.bind_some, Option.bind_some, ← same]
      cases change inner with
      | none => rfl
      | some inner' => exact congrArg some (puts inner')
  next => rfl

theorem dotted_bare (further : Bool) (item : Item) :
    item.bare.dotted further = item.dotted further := by
  cases item with
  | inline span origin | table span origin => cases origin <;> rfl
  | _ => rfl

theorem headed_bare (item : Item) : item.bare.headed = item.headed := by
  cases item <;> rfl

end Item

namespace Entries

section

variable {wrap : Entries → Item} (wraps : ∀ entries, (wrap entries).bare = wrap entries.bare)

include wraps

theorem bind_bare (last : Key) (item : Item) (path : List Key) (entries : Entries) :
    (bind wrap last item path entries).map bare
      = bind wrap last.bare item.bare (path.map Key.bare) entries.bare := by
  induction path generalizing entries with
  | nil =>
    rw [bind_nil, List.map_nil, bind_nil]
    exact update_bare (fun _ => rfl) entries
  | cons key path ih =>
    have fresh : ((bind wrap last item path []).map wrap).map Item.bare
        = (bind wrap last.bare item.bare (path.map Key.bare) []).map wrap := by
      have start := ih []
      change _ = bind wrap last.bare item.bare (path.map Key.bare) [] at start
      rw [← start]
      cases bind wrap last item path [] with
      | none => rfl
      | some entries => exact congrArg some (wraps entries)
    rw [bind_cons, List.map_cons, bind_cons, ← fresh, List.isEmpty_map]
    exact update_bare (Item.descend_bare (Item.dotted_bare _) ih) entries

theorem bindAll_bare (bindings : List Binding) (entries : Entries) :
    (bindAll wrap bindings entries).map bare
      = bindAll wrap (bindings.map Binding.bare) entries.bare := by
  induction bindings generalizing entries with
  | nil => rfl
  | cons binding bindings ih =>
    rw [bindAll, List.foldlM_cons, List.map_cons, bindAll, List.foldlM_cons]
    have first := bind_bare wraps binding.last binding.item binding.path entries
    change _ = bind wrap binding.bare.last binding.bare.item binding.bare.path entries.bare at first
    rw [← first]
    cases bind wrap binding.last binding.item binding.path entries with
    | none => rfl
    | some entries => exact ih entries

end

theorem enter_bare {change change' : Entries → Option Entries}
    (same : ∀ entries, (change entries).map bare = change' entries.bare) (path : List Key)
    (entries : Entries) :
    (enter change path entries).map bare
      = enter change' (path.map Key.bare) entries.bare := by
  induction path generalizing entries with
  | nil => exact same entries
  | cons key path ih =>
    have fresh : ((enter change path []).map (Item.table none .passed)).map Item.bare
        = (enter change' (path.map Key.bare) []).map (Item.table none .passed) := by
      have start := ih []
      change _ = enter change' (path.map Key.bare) [] at start
      rw [← start]
      cases enter change path [] <;> rfl
    rw [enter_cons, List.map_cons, enter_cons, ← fresh]
    exact update_bare (Item.descend_bare Item.headed_bare ih) entries

theorem find?_bare (name : String) (entries : Entries) :
    find? name entries.bare = (find? name entries).map Item.bare := by
  rw [find?, find?, bare_eq_map, List.find?_map, Option.map_map, Option.map_map]
  rfl

theorem without_bare (name : String) (entries : Entries) :
    without name entries.bare = (without name entries).bare := by
  rw [without, without, bare_eq_map, bare_eq_map, List.filter_map]
  rfl

end Entries

theorem inlineTable_bare (span : Span) (bindings : List Binding) :
    (inlineTable span bindings).map Item.bare
      = inlineTable .blank (bindings.map Binding.bare) := by
  have bound : (bindAll (.inline none .dotted) bindings []).map Entries.bare
      = bindAll (.inline none .dotted) (bindings.map Binding.bare) [] :=
    Entries.bindAll_bare (fun _ => rfl) bindings []
  rw [inlineTable, inlineTable, ← bound]
  cases bindAll (.inline none .dotted) bindings [] <;> rfl

/-! ### Sections -/

namespace Section

theorem span_bare (part : Section) : part.bare.span = .blank := by
  rw [span, bare, List.getLast?_map]
  cases part.bindings.getLast? with
  | none => rfl
  | some binding =>
    have whole : binding.bare.item.span? = binding.item.span?.map fun _ => .blank :=
      binding.item.span?_bare
    dsimp only [Option.map_some, Option.bind_some]
    rw [whole]
    cases binding.item.span? <;> rfl

theorem fill_bare (part : Section) (entries : Entries) :
    (part.fill entries).map Entries.bare = part.bare.fill entries.bare :=
  Entries.bindAll_bare (fun _ => rfl) part.bindings entries

theorem define_bare (part : Section) (entries : Entries) :
    (part.define entries).map Entries.bare = part.bare.define entries.bare := by
  cases double : part.header.double with
  | true =>
    have double' : part.bare.header.double = true := double
    rw [define_double part entries double, define_double part.bare entries.bare double', span_bare]
    have filled := part.fill_bare []
    change _ = part.bare.fill [] at filled
    rw [← filled]
    cases part.fill [] with
    | none => rfl
    | some inner =>
      refine Entries.update_bare (fun item => ?_) entries
      cases item with
      | tables items =>
        rw [Item.another, Option.map_some, Item.bare, Item.bare, Item.another,
          Item.bareTables_eq_map, Item.bareTables_eq_map, List.map_append]
        rfl
      | _ => rfl
  | false =>
    have single' : part.bare.header.double = false := double
    rw [define_single part entries double, define_single part.bare entries.bare single', span_bare]
    have start : ((Entries.find? part.header.last.name entries).elim (some []) Item.undefined?).map
          Entries.bare
        = (Entries.find? part.header.last.name entries.bare).elim (some []) Item.undefined? := by
      rw [Entries.find?_bare]
      cases Entries.find? part.header.last.name entries with
      | none => rfl
      | some item =>
        cases item with
        | table span origin => cases origin <;> rfl
        | _ => rfl
    have named : part.bare.header.last.name = part.header.last.name := rfl
    rw [named, ← start]
    cases (Entries.find? part.header.last.name entries).elim (some []) Item.undefined? with
    | none => rfl
    | some inner =>
      rw [Option.bind_some, Option.map_some, Option.bind_some, ← fill_bare]
      cases part.fill inner with
      | none => rfl
      | some filled =>
        rw [Option.map_some, Option.map_some, Option.map_some, Option.map_some,
          Entries.bare_append, ← Entries.without_bare]
        rfl

end Section

theorem enterSections_bare (parts : List Section) (entries : Entries) :
    Option.map Entries.bare
        (parts.foldlM (fun entries part => Entries.enter part.define part.header.path entries)
          entries)
      = (parts.map Section.bare).foldlM
          (fun entries part => Entries.enter part.define part.header.path entries)
          entries.bare := by
  induction parts generalizing entries with
  | nil => rfl
  | cons part parts ih =>
    rw [List.foldlM_cons, List.map_cons, List.foldlM_cons]
    have entered := Entries.enter_bare part.define_bare part.header.path entries
    change _ = Entries.enter part.bare.define part.bare.header.path entries.bare at entered
    rw [← entered]
    cases Entries.enter part.define part.header.path entries with
    | none => rfl
    | some entries => exact ih entries

/-- Where a document says something makes no difference to what it says. -/
theorem documentEntries_bare (leading : List Binding) (parts : List Section) :
    (documentEntries leading parts).map Entries.bare
      = documentEntries (leading.map Binding.bare) (parts.map Section.bare) := by
  have start : (bindAll (.table none .dotted) leading []).map Entries.bare
      = bindAll (.table none .dotted) (leading.map Binding.bare) [] :=
    Entries.bindAll_bare (fun _ => rfl) leading []
  rw [documentEntries, documentEntries, ← start]
  cases bindAll (.table none .dotted) leading [] with
  | none => rfl
  | some entries => exact enterSections_bare parts entries

end DeployGate.Toml
