import DeployGate.Proofs.Plan.Schema

/-!
# Cells of records

What a record gives for one of its keys, as an object or as a list, and the value that it has there
when it is decoded.
-/

namespace DeployGate.Plan

open Json (Row Tree valuesOf)

/-! ### Cells -/

/-- The row has the value under the key of the given name. -/
inductive Parts.Cell :
    (parts : Parts) → Row parts.types → String → (part : Part) → part.Result → Prop
  | first {name : String} {part : Part} {parts : Parts} (value : part.Result)
    (row : Row parts.types) : Parts.Cell ((name, part) :: parts) (value, row) name part value
  | later {name other : String} {part part' : Part} {parts : Parts} {value : part.Result}
    {row : Row parts.types} (value' : part'.Result) :
    Parts.Cell parts row name part value →
      Parts.Cell ((other, part') :: parts) (value', row) name part value

/-- The record has the value under the key of the given name. -/
def Kind.Cell (kind : Kind) (result : kind.Result) (name : String) (part : Part)
    (value : part.Result) : Prop :=
  kind.parts.Cell (kind.row result) name part value

namespace Parts.Cell

variable {parts : Parts} {row : Row parts.types} {name : String} {part : Part}
  {value value' : part.Result}

theorem declared (cell : parts.Cell row name part value) : (name, part) ∈ parts := by
  induction cell with
  | first => exact List.mem_cons_self
  | later _ _ ih => exact List.mem_cons_of_mem _ ih

theorem unique (distinct : (parts.map Prod.fst).Nodup) (cell : parts.Cell row name part value)
    (cell' : parts.Cell row name part value') : value = value' := by
  induction cell with
  | first value row =>
    rw [List.map_cons, List.nodup_cons] at distinct
    cases cell' with
    | first => rfl
    | later _ inside => exact absurd (List.mem_map.mpr ⟨_, inside.declared, rfl⟩) distinct.1
  | later _ inside ih =>
    rw [List.map_cons, List.nodup_cons] at distinct
    cases cell' with
    | first => exact absurd (List.mem_map.mpr ⟨_, inside.declared, rfl⟩) distinct.1
    | later _ inside' => exact ih distinct.2 inside'

end Parts.Cell

/-! ### What a record gives -/

/-- The values that a record gives for the key of the name, which is at the index among its keys. -/
def given (name : String) (index : Nat) : Tree → List Tree
  | .object members => valuesOf name members
  | .array elements => elements[index]?.toList
  | _ => []

namespace Parts

variable {depth depth' : Nat} {name : String} {part : Part} {parts : Parts} {index : Nat}

/-- A list gives its values in order, and behind its end none. -/
theorem ofElements_step (elements : List Tree) :
    ofElements depth ((name, part) :: parts) elements =
      (part.cell depth elements[0]?.toList).bind fun value =>
        (parts.ofElements depth elements.tail).map fun row => (value, row) := by
  cases elements with
  | nil => exact ofElements_nil
  | cons element elements => exact ofElements_cons element elements

theorem cell_of_ofMembers {members : List (List Nat × Tree)} {row : Row parts.types}
    (found : parts.ofMembers depth members = some row) (declared : (name, part) ∈ parts) :
    ∃ value, part.cell depth (valuesOf name members) = some value ∧
      parts.Cell row name part value := by
  induction parts with
  | nil => cases declared
  | cons entry parts ih =>
    obtain ⟨other, part'⟩ := entry
    rw [ofMembers_cons] at found
    obtain ⟨value, first, found⟩ := Option.bind_eq_some_iff.mp found
    obtain ⟨row, others, rfl⟩ := Option.map_eq_some_iff.mp found
    rcases List.mem_cons.mp declared with same | declared
    · cases same
      exact ⟨value, first, .first value row⟩
    · obtain ⟨later, cell, inside⟩ := ih others declared
      exact ⟨later, cell, .later value inside⟩

theorem cell_of_ofElements {elements : List Tree} {row : Row parts.types}
    (found : parts.ofElements depth elements = some row)
    (declared : parts[index]? = some (name, part)) :
    ∃ value, part.cell depth elements[index]?.toList = some value ∧
      parts.Cell row name part value := by
  induction parts generalizing elements index with
  | nil => cases declared
  | cons entry parts ih =>
    obtain ⟨other, part'⟩ := entry
    rw [ofElements_step] at found
    obtain ⟨value, first, found⟩ := Option.bind_eq_some_iff.mp found
    obtain ⟨row, others, rfl⟩ := Option.map_eq_some_iff.mp found
    cases index with
    | zero =>
      cases declared
      exact ⟨value, first, .first value row⟩
    | succ index =>
      obtain ⟨later, cell, inside⟩ := ih others declared
      rw [List.getElem?_tail] at cell
      exact ⟨later, cell, .later value inside⟩

theorem length_of_ofElements {elements : List Tree} {row : Row parts.types}
    (found : parts.ofElements depth elements = some row) : elements.length ≤ parts.length := by
  induction parts generalizing elements with
  | nil =>
    cases elements with
    | nil => exact Nat.le_refl 0
    | cons element elements => cases found
  | cons entry parts ih =>
    obtain ⟨name, part⟩ := entry
    rw [ofElements_step] at found
    obtain ⟨value, first, found⟩ := Option.bind_eq_some_iff.mp found
    obtain ⟨row, others, rfl⟩ := Option.map_eq_some_iff.mp found
    have shorter := ih others
    rw [List.length_tail] at shorter
    rw [List.length_cons]
    omega

/-- What the keys come to is kept where each of them keeps it. -/
theorem ofMembers_mono {members members' : List (List Nat × Tree)}
    (cells : ∀ name (part : Part), (name, part) ∈ parts → ∀ value,
      part.cell depth (valuesOf name members) = some value →
        part.cell depth' (valuesOf name members') = some value)
    {row : Row parts.types} (found : parts.ofMembers depth members = some row) :
    parts.ofMembers depth' members' = some row := by
  induction parts with
  | nil => exact found
  | cons entry parts ih =>
    obtain ⟨name, part⟩ := entry
    rw [ofMembers_cons] at found ⊢
    obtain ⟨value, first, found⟩ := Option.bind_eq_some_iff.mp found
    obtain ⟨row, others, rfl⟩ := Option.map_eq_some_iff.mp found
    have later : Parts.ofMembers depth' parts members' = some row :=
      ih (fun name part declared => cells name part (List.mem_cons_of_mem _ declared)) others
    rw [cells name part List.mem_cons_self value first, later]
    rfl

theorem ofElements_mono {elements elements' : List Tree} (fits : elements'.length ≤ parts.length)
    (cells : ∀ (index : Nat) name (part : Part), parts[index]? = some (name, part) → ∀ value,
      part.cell depth elements[index]?.toList = some value →
        part.cell depth' elements'[index]?.toList = some value)
    {row : Row parts.types} (found : parts.ofElements depth elements = some row) :
    parts.ofElements depth' elements' = some row := by
  induction parts generalizing elements elements' with
  | nil =>
    -- behind the last key nothing may be left
    have empty : elements' = [] := List.length_eq_zero_iff.mp (Nat.le_zero.mp fits)
    subst empty
    rfl
  | cons entry parts ih =>
    obtain ⟨name, part⟩ := entry
    rw [ofElements_step] at found ⊢
    obtain ⟨value, first, found⟩ := Option.bind_eq_some_iff.mp found
    obtain ⟨row, others, rfl⟩ := Option.map_eq_some_iff.mp found
    have later : Parts.ofElements depth' parts elements'.tail = some row := by
      rw [List.length_cons] at fits
      refine ih (by rw [List.length_tail]; omega) ?_ others
      intro index name part declared value
      rw [List.getElem?_tail, List.getElem?_tail]
      exact cells (index + 1) name part declared value
    rw [cells 0 name part rfl value first, later]
    rfl

end Parts

namespace Kind

variable {kind : Kind} {depth depth' : Nat} {node : Tree} {result : kind.Result}

/-- Every key of a record comes to a value, which the record has. -/
theorem cell_of_decode (decoded : kind.decode depth node = some result) {index : Nat}
    {name : String} {part : Part} (declared : kind.parts[index]? = some (name, part)) :
    ∃ inner < depth, ∃ value, part.cell inner (given name index node) = some value ∧
      kind.Cell result name part value := by
  cases decode_eq_some_iff.mp decoded with
  | @object depth members row _ found =>
    have inside : (name, part) ∈ kind.parts := List.mem_of_getElem? declared
    simp only [Kind.Cell, row_build]
    exact ⟨depth, Nat.lt_succ_self depth, Parts.cell_of_ofMembers found inside⟩
  | @array depth elements row found =>
    simp only [Kind.Cell, row_build]
    exact ⟨depth, Nat.lt_succ_self depth, Parts.cell_of_ofElements found declared⟩

theorem decode_object_mono {members members' : List (List Nat × Tree)}
    (texts : Json.areTexts members = true → Json.areTexts members' = true)
    (cells : ∀ name (part : Part), (name, part) ∈ kind.parts → ∀ value,
      part.cell depth (valuesOf name members) = some value →
        part.cell depth' (valuesOf name members') = some value)
    (decoded : kind.decode (depth + 1) (.object members) = some result) :
    kind.decode (depth' + 1) (.object members') = some result := by
  rw [decode_eq_some_iff] at decoded ⊢
  cases decoded with
  | object spelled found => exact .object (texts spelled) (Parts.ofMembers_mono cells found)

theorem decode_array_mono {elements elements' : List Tree}
    (fits : elements.length ≤ kind.parts.length → elements'.length ≤ kind.parts.length)
    (cells : ∀ (index : Nat) name (part : Part), kind.parts[index]? = some (name, part) → ∀ value,
      part.cell depth elements[index]?.toList = some value →
        part.cell depth' elements'[index]?.toList = some value)
    (decoded : kind.decode (depth + 1) (.array elements) = some result) :
    kind.decode (depth' + 1) (.array elements') = some result := by
  rw [decode_eq_some_iff] at decoded ⊢
  cases decoded with
  | array found =>
    have enough := fits (Parts.length_of_ofElements found)
    exact .array (Parts.ofElements_mono enough cells found)

end Kind

theorem Part.cell_eq_some_iff {part : Part} {depth : Nat} {values : List Tree}
    {value : part.Result} : part.cell depth values = some value ↔
      (values = [] ∧ part.absent = some value) ∨
        ∃ tree, values = [tree] ∧ part.decode depth tree = some value := by
  match values with
  | [] => simp [cell]
  | [tree] => simp [cell]
  | _ :: _ :: _ => simp [cell]

theorem Kind.given_of_cell {kind : Kind} {depth : Nat} {node : Tree} {result : kind.Result}
    (decoded : kind.decode depth node = some result) {name : String} {part : Part}
    {value : part.Result} (cell : kind.Cell result name part value) :
    ∃ index, kind.parts[index]? = some (name, part) ∧
      ∃ inner < depth, part.cell inner (given name index node) = some value := by
  obtain ⟨index, declared⟩ := List.getElem?_of_mem cell.declared
  obtain ⟨inner, lt, value', found, cell'⟩ := Kind.cell_of_decode decoded declared
  cases cell.unique kind.names_nodup cell'
  exact ⟨index, declared, inner, lt, found⟩

end DeployGate.Plan
