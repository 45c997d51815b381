import DeployGate.Proofs.Json.DecodingObjects

/-!
# More depth

Where more lists and objects may open, everything is still read, and as the same value.
-/

namespace DeployGate.Json

variable {α β σ : Type}

/-- Whatever the first function gives, the second gives too. -/
def Refines (decode decode' : Tree → Option α) : Prop :=
  ∀ tree value, decode tree = some value → decode' tree = some value

namespace Refines

variable {decode decode' : Tree → Option α}

theorem refl (decode : Tree → Option α) : Refines decode decode := fun _ _ found => found

theorem map (f : α → β) (refines : Refines decode decode') :
    Refines (fun tree => (decode tree).map f) fun tree => (decode' tree).map f := by
  intro tree value found
  obtain ⟨inner, given, rfl⟩ := Option.map_eq_some_iff.mp found
  exact Option.map_eq_some_iff.mpr ⟨inner, refines tree inner given, rfl⟩

theorem nullable (refines : Refines decode decode') :
    Refines (decodeNullable decode) (decodeNullable decode') := by
  intro tree value found
  cases tree with
  | null => exact found
  | _ => exact refines.map some _ value found

/-- What is read inside one more list or object. -/
theorem within {decode : Nat → Tree → Option α} {depth depth' : Nat} (le : depth ≤ depth')
    (refines : ∀ inner inner', inner < depth → inner ≤ inner' →
      Refines (decode inner) (decode inner')) :
    ∀ inner, Json.within decode depth = some inner →
      ∃ inner', Json.within decode depth' = some inner' ∧ Refines inner inner' := by
  rintro _ found
  obtain ⟨inner, rfl, rfl⟩ := within_eq_some_iff.mp found
  obtain ⟨inner', rfl⟩ : ∃ more, depth' = more + 1 := ⟨depth' - 1, by omega⟩
  exact ⟨_, rfl, refines inner inner' (by omega) (by omega)⟩

variable {item item' : Option (Tree → Option α)}

theorem list
    (refines : ∀ inner, item = some inner → ∃ inner', item' = some inner' ∧ Refines inner inner') :
    Refines (decodeList item) (decodeList item') := by
  intro tree values found
  obtain ⟨elements, inner, rfl, given, found⟩ := decodeList_eq_some_iff.mp found
  obtain ⟨inner', given', further⟩ := refines inner given
  have found' := found.imp fun tree value => further tree value
  exact decodeList_eq_some_iff.mpr ⟨elements, inner', rfl, given', found'⟩

end Refines

theorem foldMembers_refines {place place' : σ → String → Tree → Option σ}
    (refines : ∀ state name, Refines (place state name) (place' state name))
    {state last : σ} {members : List (List Nat × Tree)}
    (found : foldMembers place state members = some last) :
    foldMembers place' state members = some last := by
  -- both folds go through the same states
  induction members generalizing state with
  | nil => exact found
  | cons member members ih =>
    obtain ⟨key, tree⟩ := member
    rw [foldMembers] at found ⊢
    obtain ⟨name, spelled, found⟩ := Option.bind_eq_some_iff.mp found
    obtain ⟨next, placed, found⟩ := Option.bind_eq_some_iff.mp found
    rw [spelled, Option.bind_some, refines state name tree next placed, Option.bind_some, ih found]

namespace Refines

variable {item item' : Option (Tree → Option Datum)}
  (refines : ∀ inner, item = some inner → ∃ inner', item' = some inner' ∧ Refines inner inner')

include refines

theorem membersOf : Refines (decodeMembersOf item) (decodeMembersOf item') := by
  intro tree members found
  obtain ⟨given, inner, rfl, same, found⟩ := decodeMembersOf_eq_some_iff.mp found
  obtain ⟨inner', same', further⟩ := refines inner same
  have placed (state : Members) (name : String) :
      Refines (placeMember inner state name) (placeMember inner' state name) :=
    further.map (state.insert name)
  have found' := foldMembers_refines placed found
  exact decodeMembersOf_eq_some_iff.mpr ⟨given, inner', rfl, same', found'⟩

theorem datumWithin : Refines (decodeDatumWithin item) (decodeDatumWithin item') := by
  intro tree datum found
  cases tree with
  | array trees => exact (list refines).map Datum.array _ datum found
  | object members => exact (membersOf refines).map Members.toDatum _ datum found
  | _ => exact found

end Refines

theorem decodeDatum_refines {depth depth' : Nat} (le : depth ≤ depth') :
    Refines (decodeDatum depth) (decodeDatum depth') := by
  induction depth using Nat.strongRecOn generalizing depth' with
  | ind depth ih =>
    rw [decodeDatum_eq, decodeDatum_eq]
    exact .datumWithin (Refines.within le fun inner inner' lt le => ih inner lt le)

end DeployGate.Json
