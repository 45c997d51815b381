import DeployGate.Toml.Document

/-!
# Steps into tables

Both a dotted key and the path of a header go from table to table. At each of their keys a table is
made or one that is there is entered; they differ in which tables they enter.
-/

namespace DeployGate.Toml

namespace Item

/-- The entries that can be reached through an item, and the item with other entries there. -/
def inside? : Item → Option (Entries × (Entries → Item))
  | inline span origin entries => some (entries, inline span origin)
  | table span origin entries => some (entries, table span origin)
  | tables items =>
    items.getLast?.map fun last =>
      (last.2, fun entries => tables (items.dropLast ++ [(last.1, entries)]))
  | _ => none

/-- A dotted key enters what dotted keys have made. If it goes on from there, it also enters what
was made on the way of a header, and the last of several tables. -/
def dotted (further : Bool) : Item → Bool
  | inline _ .dotted _ | table _ .dotted _ => true
  | table _ .passed _ | tables _ => further
  | _ => false

/-- A header enters every table that is not inside a value. -/
def headed : Item → Bool
  | table _ _ _ | tables _ => true
  | _ => false

/-- Changes what is reached through the item, if it is entered. -/
def descend (enters : Item → Bool) (change : Entries → Option Entries) (item : Item) :
    Option Item :=
  if enters item then item.inside?.bind fun inside => (change inside.1).map inside.2 else none

theorem descend_eq_some_iff {enters : Item → Bool} {change : Entries → Option Entries}
    {item item' : Item} :
    descend enters change item = some item' ↔
      enters item = true ∧ ∃ inner put inner', item.inside? = some (inner, put) ∧
        change inner = some inner' ∧ item' = put inner' := by
  rw [descend]
  split
  next entered =>
    simp only [entered, true_and, Option.bind_eq_some_iff, Option.map_eq_some_iff]
    constructor
    · rintro ⟨⟨inner, put⟩, reached, inner', changed, rfl⟩
      exact ⟨inner, put, inner', reached, changed, rfl⟩
    · rintro ⟨inner, put, inner', reached, changed, rfl⟩
      exact ⟨(inner, put), reached, inner', changed, rfl⟩
  next refused => simp [refused]

end Item

namespace Entries

variable (wrap : Entries → Item) (last : Key) (item : Item) (change : Entries → Option Entries)
  (key : Key) (path : List Key) (entries : Entries)

theorem bind_nil :
    bind wrap last item [] entries = update last (some item) (fun _ => none) entries :=
  rfl

theorem bind_cons :
    bind wrap last item (key :: path) entries
      = update key ((bind wrap last item path []).map wrap)
          (Item.descend (Item.dotted !path.isEmpty) (bind wrap last item path)) entries := by
  rw [bind]
  congr
  funext other
  cases other with
  | scalar | array => rfl
  | inline span origin inner => cases origin <;> rfl
  | table span origin inner =>
    cases origin with
    | passed => cases path <;> rfl
    | _ => rfl
  | tables items =>
    cases found : items.getLast? with
    | none => cases path <;> simp [Item.descend, Item.inside?, found]
    | some last => cases path <;> simp [Item.descend, Item.dotted, Item.inside?, found]

theorem enter_nil : enter change [] entries = change entries := rfl

theorem enter_cons :
    enter change (key :: path) entries
      = update key ((enter change path []).map (.table none .passed))
          (Item.descend Item.headed (enter change path)) entries := by
  rw [enter]
  congr
  funext other
  cases other with
  | scalar | array | inline | table => rfl
  | tables items =>
    cases found : items.getLast? with
    | none => simp [Item.descend, Item.inside?, found]
    | some last => simp [Item.descend, Item.headed, Item.inside?, found]

end Entries

/-! ### Headers -/

namespace Item

/-- One more table under the name of several ones. -/
def another (table : Span × Entries) : Item → Option Item
  | tables items => some (tables (items ++ [table]))
  | _ => none

/-- The entries of a table that may still be defined. -/
def undefined? : Item → Option Entries
  | table _ .passed inner => some inner
  | _ => none

end Item

namespace Section

variable (part : Section) (entries : Entries)

theorem define_double (double : part.header.double = true) :
    part.define entries = (part.fill []).bind fun inner =>
      Entries.update part.header.last (some (.tables [(part.span, inner)]))
        (Item.another (part.span, inner)) entries := by
  rw [define]
  simp only [double, if_true]
  rfl

/-- What a header defines goes to the end. -/
theorem define_single (single : part.header.double = false) :
    part.define entries
      = ((Entries.find? part.header.last.name entries).elim (some []) Item.undefined?).bind
          fun inner => (part.fill inner).map fun filled =>
            Entries.without part.header.last.name entries
              ++ [(part.header.last, .table part.span .written filled)] := by
  rw [define]
  simp only [single, Bool.false_eq_true, if_false]
  have finish (inner : Entries) :
      (do
        let filled ← part.fill inner
        pure (Entries.without part.header.last.name entries
          ++ [(part.header.last, Item.table part.span .written filled)]))
        = (part.fill inner).map fun filled => Entries.without part.header.last.name entries
          ++ [(part.header.last, .table part.span .written filled)] := by
    cases part.fill inner <;> rfl
  cases Entries.find? part.header.last.name entries with
  | none => exact finish []
  | some item =>
    cases item with
    | table span origin inner =>
      cases origin with
      | passed => exact finish inner
      | _ => rfl
    | _ => rfl

end Section

end DeployGate.Toml
