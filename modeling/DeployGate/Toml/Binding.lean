import DeployGate.Toml.Item

/-!
# Binding keys

How keys come into tables. A key is bound once. Dotted keys make the tables on their way, and enter
only tables that dotted keys have made; a header enters every table on its way, and may define one
that so far was only passed by other headers.
-/

namespace DeployGate.Toml

namespace Entries

/-- Changes the item of a key where it is, or puts a fresh one at the end. -/
def update (key : Key) (fresh : Option Item) (change : Item → Option Item) :
    Entries → Option Entries
  | [] => fresh.map fun item => [(key, item)]
  | (k, item) :: rest =>
    if k.name = key.name then (change item).map fun item => (k, item) :: rest
    else (update key fresh change rest).map ((k, item) :: ·)

def find? (name : String) (entries : Entries) : Option Item :=
  (List.find? (fun entry => entry.1.name == name) entries).map (·.2)

def without (name : String) (entries : Entries) : Entries :=
  entries.filter fun entry => entry.1.name != name

/-- Binds a dotted key, whose new tables are made by `wrap`. -/
def bind (wrap : Entries → Item) (last : Key) (item : Item) : List Key → Entries → Option Entries
  | [], entries => entries.update last (some item) fun _ => none
  | key :: path, entries =>
    entries.update key ((bind wrap last item path []).map wrap) fun
      | .inline span .dotted inner =>
        (bind wrap last item path inner).map (.inline span .dotted)
      | .table span .dotted inner => (bind wrap last item path inner).map (.table span .dotted)
      | .table span .passed inner =>
        if path.isEmpty then none
        else (bind wrap last item path inner).map (.table span .passed)
      | .tables items =>
        match items.getLast? with
        | some (span, inner) =>
          if path.isEmpty then none
          else
            (bind wrap last item path inner).map fun inner =>
              .tables (items.dropLast ++ [(span, inner)])
        | none => none
      | _ => none

/-- Changes the entries of the table at the end of a header's path. -/
def enter (change : Entries → Option Entries) : List Key → Entries → Option Entries
  | [], entries => change entries
  | key :: path, entries =>
    entries.update key ((enter change path []).map (.table none .passed)) fun
      | .table span origin inner => (enter change path inner).map (.table span origin)
      | .tables items =>
        match items.getLast? with
        | some (span, inner) =>
          (enter change path inner).map fun inner =>
            .tables (items.dropLast ++ [(span, inner)])
        | none => none
      | _ => none

end Entries

structure Binding where
  path : List Key
  last : Key
  item : Item

/-- A header: its path, whether it has double brackets, and where it is. -/
structure Header where
  path : List Key
  last : Key
  double : Bool
  span : Span

structure Section where
  header : Header
  bindings : List Binding

def bindAll (wrap : Entries → Item) (bindings : List Binding) (entries : Entries) :
    Option Entries :=
  bindings.foldlM (fun entries b => entries.bind wrap b.last b.item b.path) entries

def inlineTable (span : Span) (bindings : List Binding) : Option Item :=
  (bindAll (.inline none .dotted) bindings []).map (.inline (some span) .written)

namespace Section

def span (part : Section) : Span :=
  match part.bindings.getLast?.bind (·.item.span?) with
  | some last => part.header.span.upTo last
  | none => part.header.span

def fill (part : Section) (entries : Entries) : Option Entries :=
  bindAll (.table none .dotted) part.bindings entries

def define (part : Section) (entries : Entries) : Option Entries :=
  let last := part.header.last
  if part.header.double then do
    let table := (part.span, ← part.fill [])
    entries.update last (some (.tables [table])) fun
      | .tables items => some (.tables (items ++ [table]))
      | _ => none
  else do
    let inner ← match entries.find? last.name with
      | none => some []
      | some (.table _ .passed inner) => some inner
      | some _ => none
    let table := Item.table part.span .written (← part.fill inner)
    return entries.without last.name ++ [(last, table)]

end Section

/-- The entries of a document: the bindings before the first header, then the sections. -/
def documentEntries (leading : List Binding) (parts : List Section) : Option Entries := do
  parts.foldlM (fun entries part => entries.enter part.define part.header.path)
    (← bindAll (.table none .dotted) leading [])

end DeployGate.Toml
