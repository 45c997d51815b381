import DeployGate.Proofs.Toml.Documents
import DeployGate.Proofs.Toml.Sayings

/-!
# Tables are proper

In the table of a document no key comes twice, also not in the tables inside it, and what stands
under a name with double brackets is not empty.

## Main result

`documentEntries_proper`.
-/

namespace DeployGate.Toml

inductive Item.Proper : Item → Prop
  | scalar (span : Span) (value : Scalar) : Proper (.scalar span value)
  | array (span : Span) (elements : List Item) : Proper (.array span elements)
  | inline {entries : Entries} (span : Option Span) (origin : Origin) : entries.names.Nodup →
    (∀ entry ∈ entries, Proper entry.2) → Proper (.inline span origin entries)
  | table {entries : Entries} (span : Option Span) (origin : Origin) : entries.names.Nodup →
    (∀ entry ∈ entries, Proper entry.2) → Proper (.table span origin entries)
  | tables (table : Span × Entries) (items : List (Span × Entries)) :
    Proper (.tables (table :: items))

structure Entries.Proper (entries : Entries) : Prop where
  distinct : entries.names.Nodup
  inside : ∀ entry ∈ entries, entry.2.Proper

namespace Item

theorem Proper.entries {item : Item} {entries : Entries} (proper : item.Proper)
    (has : item.entries? = some entries) : entries.Proper := by
  cases proper with
  | inline span origin distinct inside | table span origin distinct inside =>
    obtain rfl := Option.some.inj has
    exact ⟨distinct, inside⟩
  | _ => cases has

theorem Proper.exists_mark {item : Item} (proper : item.Proper) :
    ∃ mark, item.mark? = some mark := by
  cases proper <;> exact ⟨_, rfl⟩

theorem Proper.tables_of {items : List (Span × Entries)} (some_ : items ≠ []) :
    Proper (.tables items) := by
  cases items with
  | nil => exact absurd rfl some_
  | cons table items => exact .tables table items

theorem Proper.descend {enters : Item → Bool} {change : Entries → Option Entries}
    {item item' : Item} (changed : item.descend enters change = some item')
    (keeps : ∀ inner inner', change inner = some inner' → inner.Proper → inner'.Proper)
    (proper : item.Proper) : item'.Proper := by
  obtain ⟨-, inner, put, inner', reached, further, rfl⟩ := descend_eq_some_iff.mp changed
  cases proper with
  | scalar | array => cases reached
  | inline span origin distinct inside =>
    cases reached
    have proper := keeps inner inner' further ⟨distinct, inside⟩
    exact .inline span origin proper.distinct proper.inside
  | table span origin distinct inside =>
    cases reached
    have proper := keeps inner inner' further ⟨distinct, inside⟩
    exact .table span origin proper.distinct proper.inside
  | tables =>
    cases reached
    exact .tables_of (by simp)

end Item

namespace Entries

theorem mem_names_update {key : Key} {fresh : Option Item} {change : Item → Option Item}
    {entries entries' : Entries} (updated : update key fresh change entries = some entries')
    {name : String} (inside : name ∈ entries'.names) : name ∈ entries.names ∨ name = key.name := by
  induction entries generalizing entries' with
  | nil =>
    obtain ⟨item, -, rfl⟩ := Option.map_eq_some_iff.mp updated
    exact .inr (List.mem_singleton.mp inside)
  | cons entry entries ih =>
    obtain ⟨k, item⟩ := entry
    rw [update] at updated
    split at updated
    · obtain ⟨item', -, rfl⟩ := Option.map_eq_some_iff.mp updated
      exact .inl inside
    · obtain ⟨entries', further, rfl⟩ := Option.map_eq_some_iff.mp updated
      rcases List.mem_cons.mp inside with rfl | inside
      · exact .inl List.mem_cons_self
      · rcases ih further inside with inside | same
        · exact .inl (List.mem_cons_of_mem _ inside)
        · exact .inr same

theorem Proper.update {key : Key} {fresh : Option Item} {change : Item → Option Item}
    {entries entries' : Entries} (updated : Entries.update key fresh change entries = some entries')
    (made : ∀ item, fresh = some item → item.Proper)
    (changed : ∀ item item', change item = some item' → item.Proper → item'.Proper)
    (proper : entries.Proper) : entries'.Proper := by
  induction entries generalizing entries' with
  | nil =>
    obtain ⟨item, isFresh, rfl⟩ := Option.map_eq_some_iff.mp updated
    exact ⟨by simp [names], by simpa using made item isFresh⟩
  | cons entry entries ih =>
    obtain ⟨k, item⟩ := entry
    obtain ⟨distinct, inside⟩ := proper
    obtain ⟨first, others⟩ := List.forall_mem_cons.mp inside
    obtain ⟨new, distinct⟩ := List.nodup_cons.mp distinct
    rw [Entries.update] at updated
    split at updated
    next found =>
      obtain ⟨item', isChanged, rfl⟩ := Option.map_eq_some_iff.mp updated
      exact ⟨List.nodup_cons.mpr ⟨new, distinct⟩,
        List.forall_mem_cons.mpr ⟨changed item item' isChanged first, others⟩⟩
    next other =>
      obtain ⟨entries', further, rfl⟩ := Option.map_eq_some_iff.mp updated
      have rest := ih further ⟨distinct, others⟩
      refine ⟨List.nodup_cons.mpr ⟨fun member => ?_, rest.distinct⟩,
        List.forall_mem_cons.mpr ⟨first, rest.inside⟩⟩
      rcases mem_names_update further member with member | same
      · exact new member
      · exact other same

end Entries

/-! ### Bindings and headers -/

theorem Entries.proper_nil : Entries.Proper [] := ⟨List.nodup_nil, by simp⟩

section

variable {wrap : Entries → Item}
  (wraps : ∀ entries : Entries, entries.Proper → (wrap entries).Proper)

include wraps

theorem Entries.Proper.bind {last : Key} {item : Item} (bound : item.Proper) {path : List Key}
    {entries entries' : Entries} (binds : entries.bind wrap last item path = some entries')
    (proper : entries.Proper) : entries'.Proper := by
  induction path generalizing entries entries' with
  | nil =>
    rw [bind_nil] at binds
    apply Proper.update binds _ _ proper
    · rintro item' ⟨⟩
      exact bound
    · rintro item' item'' ⟨⟩
  | cons key path ih =>
    rw [bind_cons] at binds
    apply Proper.update binds _ _ proper
    · intro item' made
      obtain ⟨inner, further, rfl⟩ := Option.map_eq_some_iff.mp made
      exact wraps inner (ih further proper_nil)
    · intro item' item'' changed
      exact Item.Proper.descend changed fun inner inner' => ih

theorem bindAll_proper {bindings : List Binding} (bound : ∀ binding ∈ bindings, binding.item.Proper)
    {entries entries' : Entries} (binds : bindAll wrap bindings entries = some entries')
    (proper : entries.Proper) : entries'.Proper := by
  induction bindings generalizing entries with
  | nil => exact Option.some.inj binds ▸ proper
  | cons binding bindings ih =>
    obtain ⟨here, others⟩ := List.forall_mem_cons.mp bound
    rw [bindAll, List.foldlM_cons] at binds
    obtain ⟨between, first, further⟩ := Option.bind_eq_some_iff.mp binds
    exact ih others further (Entries.Proper.bind wraps here first proper)

end

theorem Entries.Proper.toTable {entries : Entries} (proper : entries.Proper) (span : Option Span)
    (origin : Origin) : (Item.table span origin entries).Proper :=
  .table span origin proper.distinct proper.inside

theorem inlineTable_proper {span : Span} {bindings : List Binding}
    (bound : ∀ binding ∈ bindings, binding.item.Proper) {item : Item}
    (made : inlineTable span bindings = some item) : item.Proper := by
  obtain ⟨entries, binds, rfl⟩ := Option.map_eq_some_iff.mp made
  have proper := bindAll_proper (fun entries proper => .inline none .dotted proper.distinct
    proper.inside) bound binds Entries.proper_nil
  exact .inline (some span) .written proper.distinct proper.inside

theorem Entries.Proper.enter {change : Entries → Option Entries}
    (keeps : ∀ entries entries', change entries = some entries' → entries.Proper → entries'.Proper)
    {path : List Key} {entries entries' : Entries}
    (enters : entries.enter change path = some entries') (proper : entries.Proper) :
    entries'.Proper := by
  induction path generalizing entries entries' with
  | nil => exact keeps entries entries' enters proper
  | cons key path ih =>
    rw [enter_cons] at enters
    apply Proper.update enters _ _ proper
    · intro item' made
      obtain ⟨inner, further, rfl⟩ := Option.map_eq_some_iff.mp made
      exact (ih further proper_nil).toTable none .passed
    · intro item' item'' changed
      exact Item.Proper.descend changed fun inner inner' => ih

theorem Entries.Proper.without {entries : Entries} (proper : entries.Proper) {last : Key}
    {item : Item} (defined : item.Proper) :
    Entries.Proper (Entries.without last.name entries ++ [(last, item)]) := by
  constructor
  · have others : (names (Entries.without last.name entries)).Nodup :=
      List.Sublist.nodup (List.filter_sublist.map _) proper.distinct
    have apart : last.name ∉ names (Entries.without last.name entries) := by
      simp [names, Entries.without]
    rw [names, List.map_append, List.nodup_append]
    refine ⟨others, by simp, fun name inside name' inside' same => ?_⟩
    subst same
    obtain rfl := List.mem_singleton.mp inside'
    exact apart inside
  · intro entry inside
    rcases List.mem_append.mp inside with inside | inside
    · exact proper.inside entry (List.mem_filter.mp inside |>.1)
    · obtain rfl := List.mem_singleton.mp inside
      exact defined

theorem Section.define_proper {part : Section}
    (bound : ∀ binding ∈ part.bindings, binding.item.Proper) {entries entries' : Entries}
    (defined : part.define entries = some entries') (proper : entries.Proper) :
    entries'.Proper := by
  cases double : part.header.double with
  | true =>
    rw [part.define_double entries double] at defined
    obtain ⟨inner, -, updated⟩ := Option.bind_eq_some_iff.mp defined
    apply Entries.Proper.update updated _ _ proper
    · rintro item ⟨⟩
      exact .tables _ _
    · intro item item' changed _
      cases item with
      | tables items =>
        obtain rfl := Option.some.inj changed
        exact .tables_of (by simp)
      | _ => cases changed
  | false =>
    rw [part.define_single entries double] at defined
    obtain ⟨inner, start, more⟩ := Option.bind_eq_some_iff.mp defined
    obtain ⟨filled, binds, rfl⟩ := Option.map_eq_some_iff.mp more
    -- what is filled is a new table, or one that was made on the way of a header
    have inner_ : Entries.Proper inner := by
      cases found : Entries.find? part.header.last.name entries with
      | none =>
        rw [found] at start
        obtain rfl := Option.some.inj start
        exact Entries.proper_nil
      | some item =>
        rw [found] at start
        obtain ⟨key, inside, -⟩ := Entries.exists_of_find? found
        match item with
        | .table span .passed entries =>
          obtain rfl := Option.some.inj start
          exact (proper.inside _ inside).entries rfl
    have wraps (entries : Entries) (proper : entries.Proper) := proper.toTable none .dotted
    exact proper.without ((bindAll_proper wraps bound binds inner_).toTable _ _)

/-- The table of a document is proper. -/
theorem documentEntries_proper {leading : List Binding} {parts : List Section} {root : Entries}
    (bound : ∀ binding ∈ leading, binding.item.Proper)
    (bound' : ∀ part ∈ parts, ∀ binding ∈ part.bindings, binding.item.Proper)
    (made : documentEntries leading parts = some root) : root.Proper := by
  obtain ⟨entries, binds, entered⟩ := Option.bind_eq_some_iff.mp made
  have wraps (entries : Entries) (proper : entries.Proper) := proper.toTable none .dotted
  have proper := bindAll_proper wraps bound binds Entries.proper_nil
  clear binds made
  induction parts generalizing entries with
  | nil => exact Option.some.inj entered ▸ proper
  | cons part parts ih =>
    obtain ⟨here, others⟩ := List.forall_mem_cons.mp bound'
    rw [List.foldlM_cons] at entered
    obtain ⟨between, first, further⟩ := Option.bind_eq_some_iff.mp entered
    apply ih others between further
    exact Entries.Proper.enter (fun _ _ => part.define_proper here) first proper

/-! ### Documents by the grammar -/

/-- A value is proper, and no header may define it again. -/
def Item.Sealed (item : Item) : Prop := item.Proper ∧ item.Closed

def Phrase.Sealed : Phrase → Prop
  | .value _ item => item.Sealed
  | .binding _ found => found.item.Sealed
  | .elements _ _ => True
  | .bindings _ all => ∀ found ∈ all, found.item.Sealed

theorem Spells.sealed {phrase : Phrase} {text : List Char} (spells : Spells phrase text) :
    phrase.Sealed := by
  have scalar (value : Scalar) : (Item.scalar .blank value).Sealed :=
    ⟨.scalar .blank value, by rintro span entries ⟨⟩⟩
  induction spells with
  | text => exact scalar _
  | word => exact scalar _
  | moment => exact scalar _
  | array => exact ⟨.array .blank _, by rintro span entries ⟨⟩⟩
  | emptyTable => exact ⟨.inline _ _ List.nodup_nil (by simp), by rintro span entries ⟨⟩⟩
  | table spells made ih =>
    refine ⟨inlineTable_proper (fun binding inside => (ih binding inside).1) made, ?_⟩
    obtain ⟨entries, -, rfl⟩ := Option.map_eq_some_iff.mp made
    rintro span entries ⟨⟩
  | noElements | lastElement | element => trivial
  | lastBinding spells after ih =>
    intro binding inside
    exact List.mem_singleton.mp inside ▸ ih
  | nextBinding spells after more ih ihMore => exact List.forall_mem_cons.mpr ⟨ih, ihMore⟩
  | binding keys short space spells ih => exact ih

theorem Writes.sealed {leading : List Binding} {parts : List Section} {text : List Char}
    (writes : Writes leading parts text) :
    (∀ binding ∈ leading, binding.item.Sealed) ∧
      ∀ part ∈ parts, ∀ binding ∈ part.bindings, binding.item.Sealed := by
  induction writes with
  | nothing => simp
  | binding blank spells line writes ih =>
    exact ⟨List.forall_mem_cons.mpr ⟨spells.sealed, ih.1⟩, ih.2⟩
  | header blank heads line writes ih => exact ⟨by simp, List.forall_mem_cons.mpr ih⟩

/-- What the table of a document has is what the document says, and the table is proper. -/
theorem Written.table {leading : List Binding} {parts : List Section} {document : String}
    {root : Entries} (written : Written leading parts document)
    (parsed : parse? document.toList = some root) :
    root.bare.Proper ∧ Adds (documentTells leading parts) (documentGiven leading parts)
      (Entries.content []) root.bare.content := by
  have made := written.parse_bare
  rw [parsed] at made
  obtain ⟨text, writes, -⟩ := written
  obtain ⟨sealed, sealed'⟩ := writes.sealed
  constructor
  · exact documentEntries_proper (fun binding inside => (sealed binding inside).1)
      (fun part inside binding inside' => (sealed' part inside binding inside').1) made.symm
  · exact Adds.document (fun binding inside => (sealed binding inside).2)
      (fun part inside binding inside' => (sealed' part inside binding inside').2) made.symm

end DeployGate.Toml
