import DeployGate.Proofs.Plan.Cells

/-!
# Places in a plan

A place in a document is a path from its root through declared keys, list elements and diffs down to
a record. The rest of the document sees only what the record there is read as.
-/

namespace DeployGate.Plan

open Json (Row Tree textOfUnits valuesOf)

/-! ### Contexts -/

section

variable {α β γ δ : Type}

/-- All that the outer function sees of a tree is what the inner one makes of it, which it keeps
where the relation says. It gives nothing where the inner one does. -/
def Sees (outer : Tree → Option β) (inner : Tree → Option α) (keeps : α → β → Prop) : Prop :=
  ∃ context : α → Option β,
    (∀ tree, tree ≠ .null → outer tree = (inner tree).bind context) ∧
      ∀ value result, context value = some result → keeps value result

namespace Sees

variable {outer : Tree → Option γ} {middle : Tree → Option β} {inner : Tree → Option α}
  {keeps : α → β → Prop} {keeps' : β → γ → Prop} {keeps'' : α → γ → Prop}

theorem refl (inner : Tree → Option α) : Sees inner inner Eq :=
  ⟨some, fun tree _ => by cases inner tree <;> rfl, fun _ _ same => Option.some.inj same⟩

theorem of_none {outer : Tree → Option β} (refuses : ∀ tree, tree ≠ .null → outer tree = none) :
    Sees outer inner keeps :=
  ⟨fun _ => none, fun tree composite => by rw [refuses tree composite]; cases inner tree <;> rfl,
    fun _ _ found => by cases found⟩

theorem mono {keeps' : α → β → Prop} (sees : Sees middle inner keeps)
    (weaker : ∀ value result, keeps value result → keeps' value result) :
    Sees middle inner keeps' := by
  obtain ⟨context, through, kept⟩ := sees
  exact ⟨context, through, fun value result found => weaker _ _ (kept _ _ found)⟩

theorem trans {fill : Tree → Tree} (composite : ∀ tree, tree ≠ .null → fill tree ≠ .null)
    (first : Sees (fun tree => middle (fill tree)) inner keeps)
    (second : Sees outer middle keeps') :
    Sees (fun tree => outer (fill tree)) inner
      fun value result => ∃ between, keeps value between ∧ keeps' between result := by
  obtain ⟨context, through, kept⟩ := first
  obtain ⟨context', through', kept'⟩ := second
  refine ⟨fun value => (context value).bind context', fun tree solid => ?_, ?_⟩
  · change outer (fill tree) = _
    rw [through' _ (composite tree solid)]
    have through : middle (fill tree) = (inner tree).bind context := through tree solid
    rw [through, Option.bind_assoc]
  · intro value result found
    obtain ⟨between, first, second⟩ := Option.bind_eq_some_iff.mp found
    exact ⟨between, kept _ _ first, kept' _ _ second⟩

theorem map (f : β → γ) (sees : Sees middle inner keeps)
    (kept : ∀ value result, keeps value result → keeps'' value (f result)) :
    Sees (fun tree => (middle tree).map f) inner keeps'' := by
  obtain ⟨context, through, kept'⟩ := sees
  refine ⟨fun value => (context value).map f, fun tree solid => ?_, ?_⟩
  · change (middle tree).map f = _
    rw [through tree solid]
    cases inner tree <;> rfl
  · intro value result found
    obtain ⟨between, first, rfl⟩ := Option.map_eq_some_iff.mp found
    exact kept _ _ (kept' _ _ first)

/-- Before the tree other values are read, independently of it. -/
theorem beside (other : Option δ) (sees : Sees middle inner keeps) {join : δ → β → γ}
    (kept : ∀ found value result, keeps value result → keeps'' value (join found result)) :
    Sees (fun tree => other.bind fun found => (middle tree).map (join found)) inner keeps'' := by
  cases other with
  | none => exact of_none fun _ _ => rfl
  | some found => exact sees.map (join found) (kept found)

/-- After the tree other values are read, independently of it. -/
theorem followed (other : Option δ) {join : α → δ → β}
    (kept : ∀ value found, keeps value (join value found)) :
    Sees (fun tree => (inner tree).bind fun value => other.map (join value)) inner keeps := by
  refine ⟨fun value => other.map (join value), fun tree _ => rfl, ?_⟩
  intro value result found
  obtain ⟨further, -, rfl⟩ := Option.map_eq_some_iff.mp found
  exact kept value further

end Sees

end

/-! ### Records -/

section

variable {depth : Nat} {name : String} {part : Part} {parts : Parts} {key : List Nat}

/-- The order of the values does not matter, as there may be only one. -/
theorem Part.cell_perm {values values' : List Tree} (same : values.Perm values') :
    part.cell depth values = part.cell depth values' := by
  have length := same.length_eq
  match values, values' with
  | [], [] => rfl
  | [value], [value'] => rw [List.singleton_perm_singleton.mp same]
  | _ :: _ :: _, _ :: _ :: _ => rfl
  | [], _ :: _ => cases length
  | _ :: _, [] => cases length
  | [_], _ :: _ :: _ => simp at length
  | _ :: _ :: _, [_] => simp at length

namespace Parts

/-- Only the members with the keys of the parts matter. -/
theorem ofMembers_congr {members members' : List (List Nat × Tree)}
    (same : ∀ name ∈ parts.map Prod.fst, (valuesOf name members).Perm (valuesOf name members')) :
    parts.ofMembers depth members = parts.ofMembers depth members' := by
  induction parts with
  | nil => rfl
  | cons entry parts ih =>
    obtain ⟨name, part⟩ := entry
    rw [List.map_cons, List.forall_mem_cons] at same
    rw [ofMembers_cons, ofMembers_cons, ih same.2, part.cell_perm same.1]

theorem valuesOf_same (spelled : textOfUnits key = some name)
    (before after : List (List Nat × Tree)) (tree : Tree) :
    valuesOf name (before ++ (key, tree) :: after)
      = valuesOf name before ++ tree :: valuesOf name after := by
  rw [Json.valuesOf_append, Json.valuesOf_cons, if_pos spelled, List.singleton_append]

theorem valuesOf_other {other : String} (spelled : textOfUnits key = some name)
    (differ : other ≠ name) (before after : List (List Nat × Tree)) (tree : Tree) :
    valuesOf other (before ++ (key, tree) :: after) = valuesOf other (before ++ after) := by
  rw [Json.valuesOf_append, Json.valuesOf_append, Json.valuesOf_cons,
    if_neg (by simpa [spelled] using differ.symm), List.nil_append]

/-- A member of another key makes no difference. -/
theorem ofMembers_other (spelled : textOfUnits key = some name)
    (other : name ∉ parts.map Prod.fst) (before after : List (List Nat × Tree)) (tree : Tree) :
    parts.ofMembers depth (before ++ (key, tree) :: after)
      = parts.ofMembers depth (before ++ after) := by
  refine ofMembers_congr fun other inside => ?_
  have differ : other ≠ name := by
    rintro rfl
    contradiction
  rw [valuesOf_other spelled differ]

theorem sees_members (declared : (name, part) ∈ parts) (distinct : (parts.map Prod.fst).Nodup)
    (spelled : textOfUnits key = some name) (before after : List (List Nat × Tree)) :
    Sees (fun tree => parts.ofMembers depth (before ++ (key, tree) :: after)) (part.decode depth)
      fun value row => parts.Cell row name part value := by
  induction parts with
  | nil => cases declared
  | cons entry parts ih =>
    obtain ⟨other, part'⟩ := entry
    rw [List.map_cons, List.nodup_cons] at distinct
    simp only [ofMembers_cons]
    rcases List.mem_cons.mp declared with same | declared
    · cases same
      simp only [valuesOf_same spelled, ofMembers_other spelled distinct.1]
      -- next to another value of the key the tree is refused, whatever it is
      cases valuesOf name before with
      | cons value values => exact .of_none fun tree _ => by cases values <;> rfl
      | nil =>
        cases valuesOf name after with
        | cons value values => exact .of_none fun tree _ => rfl
        | nil => exact .followed _ fun value row => .first value row
    · have differ : other ≠ name := by
        rintro rfl
        exact distinct.1 (List.mem_map.mpr ⟨_, declared, rfl⟩)
      simp only [valuesOf_other spelled differ]
      exact (ih declared distinct.2).beside _ fun value' _ _ cell => .later value' cell

theorem sees_elements (before after : List Tree)
    (declared : parts[before.length]? = some (name, part)) :
    Sees (fun tree => parts.ofElements depth (before ++ tree :: after)) (part.decode depth)
      fun value row => parts.Cell row name part value := by
  induction parts generalizing before with
  | nil => cases declared
  | cons entry parts ih =>
    obtain ⟨other, part'⟩ := entry
    cases before with
    | nil =>
      cases declared
      exact .followed _ fun value row => .first value row
    | cons first before =>
      simp only [List.cons_append, ofElements_cons]
      exact (ih before declared).beside _ fun value' _ _ cell => .later value' cell

end Parts

namespace Kind

variable {kind : Kind}

theorem sees_member (declared : (name, part) ∈ kind.parts) (spelled : textOfUnits key = some name)
    (before after : List (List Nat × Tree)) :
    Sees (fun tree => kind.decode (depth + 1) (.object (before ++ (key, tree) :: after)))
      (part.decode depth) fun value result => kind.Cell result name part value := by
  simp only [decode_object]
  have texts (tree : Tree) : Json.areTexts (before ++ (key, tree) :: after)
      = Json.areTexts (before ++ (key, .null) :: after) := by
    simp [Json.areTexts]
  simp only [texts]
  split
  · refine (Parts.sees_members declared kind.names_nodup spelled before after).map kind.build ?_
    intro value row cell
    rwa [Kind.Cell, row_build]
  · exact .of_none fun _ _ => rfl

theorem sees_element (before after : List Tree)
    (declared : kind.parts[before.length]? = some (name, part)) :
    Sees (fun tree => kind.decode (depth + 1) (.array (before ++ tree :: after)))
      (part.decode depth) fun value result => kind.Cell result name part value := by
  simp only [decode_array]
  refine (Parts.sees_elements before after declared).map kind.build ?_
  intro value row cell
  rwa [Kind.Cell, row_build]

end Kind

theorem sees_mapM {α : Type} (decode : Tree → Option α) (before after : List Tree) :
    Sees (fun tree => (before ++ tree :: after).mapM decode) decode
      fun value results => results[before.length]? = some value := by
  induction before with
  | nil =>
    simp only [List.nil_append, Json.mapM_cons]
    exact .followed _ fun value results => rfl
  | cons first before ih =>
    simp only [List.cons_append, Json.mapM_cons]
    exact ih.beside _ fun _ _ _ found => found

theorem Part.sees_item (kind : Kind) (before after : List Tree) :
    Sees (fun tree => (nodes kind).decode (depth + 1) (.array (before ++ tree :: after)))
      (kind.decode depth) fun value results => results[before.length]? = some value := by
  have listed (elements : List Tree) :
      (nodes kind).decode (depth + 1) (.array elements) = elements.mapM (kind.decode depth) := by
    rw [decode_nodes, orElse_of_ne_null _ _ (by simp)]
    rfl
  simp only [listed]
  exact sees_mapM (kind.decode depth) before after

theorem Part.sees_diff :
    Sees (diff.decode depth) (Kind.job.decode depth) fun job result => result = some job := by
  refine ⟨fun job => some (some job), fun tree solid => ?_, ?_⟩
  · cases tree with
    | null => exact absurd rfl solid
    | _ => exact Option.map_eq_bind
  · rintro job _ ⟨⟩
    rfl

end

/-! ### Paths -/

/-- A way from a part down to a record in it, with everything that stands beside the way. -/
inductive Path : Part → Kind → Type
  | here {kind : Kind} : Path (.node kind) kind
  | member {kind target : Kind} {name : String} {part : Part} {key : List Nat}
    (declared : (name, part) ∈ kind.parts) (spelled : textOfUnits key = some name)
    (before after : List (List Nat × Tree)) : Path part target → Path (.node kind) target
  | element {kind target : Kind} {name : String} {part : Part} (before after : List Tree)
    (declared : kind.parts[before.length]? = some (name, part)) :
    Path part target → Path (.node kind) target
  | item {kind target : Kind} (before after : List Tree) :
    Path (.node kind) target → Path (.nodes kind) target
  | diff {target : Kind} : Path (.node .job) target → Path .diff target

namespace Path

/-- The value with the tree at the end of the way. -/
def fill : {part : Part} → {target : Kind} → Path part target → Tree → Tree
  | _, _, here, tree => tree
  | _, _, @member _ _ _ _ key _ _ before after path, tree =>
    .object (before ++ (key, path.fill tree) :: after)
  | _, _, element before after _ path, tree => .array (before ++ path.fill tree :: after)
  | _, _, item before after path, tree => .array (before ++ path.fill tree :: after)
  | _, _, diff path, tree => path.fill tree

/-- The record stands at the end of the way in the result. -/
def Leads : {part : Part} → {target : Kind} → Path part target → part.Result → target.Result → Prop
  | _, _, here, result, found => found = result
  | _, _, @member kind _ name part _ _ _ _ _ path, result, found =>
    ∃ value, kind.Cell result name part value ∧ path.Leads value found
  | _, _, @element kind _ name part _ _ _ path, result, found =>
    ∃ value, kind.Cell result name part value ∧ path.Leads value found
  | _, _, item before _ path, results, found =>
    ∃ result, results[before.length]? = some result ∧ path.Leads result found
  | _, _, diff path, result, found => ∃ job, result = some job ∧ path.Leads job found

variable {part : Part} {target : Kind}

theorem fill_ne_null (path : Path part target) {tree : Tree} (solid : tree ≠ .null) :
    path.fill tree ≠ .null := by
  induction path with
  | here => exact solid
  | diff path ih => exact ih
  | _ => simp [fill]

/-- All that is seen of a record in a document is what it is read as, possibly with less depth. -/
theorem sees (path : Path part target) (depth : Nat) :
    ∃ left ≤ depth, Sees (fun tree => part.decode depth (path.fill tree)) (target.decode left)
      fun node result => path.Leads result node := by
  have solid {part : Part} {target : Kind} (path : Path part target) (tree : Tree) :
      tree ≠ .null → path.fill tree ≠ .null := path.fill_ne_null
  induction path generalizing depth with
  | here => exact ⟨depth, Nat.le_refl depth, .refl _⟩
  | diff path ih =>
    obtain ⟨left, le, sees⟩ := ih depth
    refine ⟨left, le, (sees.trans (solid path) Part.sees_diff).mono ?_⟩
    rintro node result ⟨job, leads, found⟩
    exact ⟨job, found, leads⟩
  | member declared spelled before after path ih =>
    cases depth with
    | zero => exact ⟨0, Nat.le_refl 0, .of_none fun _ _ => rfl⟩
    | succ depth =>
      obtain ⟨left, le, sees⟩ := ih depth
      refine ⟨left, Nat.le_succ_of_le le, ?_⟩
      refine (sees.trans (solid path) (Kind.sees_member declared spelled before after)).mono ?_
      rintro node result ⟨value, leads, cell⟩
      exact ⟨value, cell, leads⟩
  | element before after declared path ih =>
    cases depth with
    | zero => exact ⟨0, Nat.le_refl 0, .of_none fun _ _ => rfl⟩
    | succ depth =>
      obtain ⟨left, le, sees⟩ := ih depth
      refine ⟨left, Nat.le_succ_of_le le, ?_⟩
      refine (sees.trans (solid path) (Kind.sees_element before after declared)).mono ?_
      rintro node result ⟨value, leads, cell⟩
      exact ⟨value, cell, leads⟩
  | item before after path ih =>
    cases depth with
    | zero => exact ⟨0, Nat.le_refl 0, .of_none fun _ _ => rfl⟩
    | succ depth =>
      obtain ⟨left, le, sees⟩ := ih depth
      refine ⟨left, Nat.le_succ_of_le le, ?_⟩
      refine (sees.trans (solid path) (Part.sees_item _ before after)).mono ?_
      rintro node result ⟨value, leads, found⟩
      exact ⟨value, found, leads⟩

/-- The document is read as what is made of the record at the end of the way, if this is read. -/
theorem decode_fill {root : Kind} (path : Path (.node root) target) (depth : Nat) :
    ∃ left ≤ depth, ∃ context : target.Result → Option root.Result,
      (∀ tree, tree ≠ .null →
        root.decode depth (path.fill tree) = (target.decode left tree).bind context) ∧
      ∀ record result, context record = some result → path.Leads result record :=
  path.sees depth

end Path

end DeployGate.Plan
