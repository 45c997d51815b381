import Mathlib.Data.List.Basic
import Mathlib.Data.Prod.Lex

/-!
# Enumerations

A list enumerates what stands at some keys when it holds one value for every key with a value, and
the keys ascend along it. Enumerations of the parts of a structure are put together to one of the
whole: the lists are appended, and the keys are prolonged by the index of the part.
-/

namespace DeployGate

variable {κ κ' α β γ : Type}

/-- The values are those that stand at keys, one for every such key, by ascending key. -/
def Enumerates (before : κ → κ → Prop) (holds : κ → β → Prop) (values : List β) : Prop :=
  ∃ entries : List (κ × β), entries.map Prod.snd = values ∧
    entries.Pairwise (fun a b => before a.1 b.1) ∧
    ∀ key value, (key, value) ∈ entries ↔ holds key value

/-- First by index, then by what is at the index. -/
abbrev ByIndex (before : κ → κ → Prop) : Nat × κ → Nat × κ → Prop := Prod.Lex (· < ·) before

namespace Enumerates

variable {before : κ → κ → Prop} {holds more : κ → β → Prop} {values others : List β}

theorem congr (enumerates : Enumerates before holds values)
    (same : ∀ key value, holds key value ↔ more key value) : Enumerates before more values := by
  obtain ⟨entries, map, ascending, entry⟩ := enumerates
  exact ⟨entries, map, ascending, fun key value => (entry key value).trans (same key value)⟩

theorem nil (none : ∀ key value, ¬holds key value) : Enumerates before holds [] :=
  ⟨[], rfl, .nil, fun key value => by simp [none key value]⟩

theorem singleton (key : κ) (value : β) :
    Enumerates before (fun k v => k = key ∧ v = value) [value] :=
  ⟨[(key, value)], rfl, List.pairwise_singleton _ _, fun k v => by simp⟩

/-- One enumeration after another, when all keys of the first come before those of the second. -/
theorem append (first : Enumerates before holds values) (second : Enumerates before more others)
    (apart : ∀ key value key' value', holds key value → more key' value' → before key key') :
    Enumerates before (fun key value => holds key value ∨ more key value) (values ++ others) := by
  obtain ⟨entries, rfl, ascending, entry⟩ := first
  obtain ⟨entries', rfl, ascending', entry'⟩ := second
  refine ⟨entries ++ entries', List.map_append, ?_, fun key value => ?_⟩
  · -- inside of either list the keys ascend already, and between the lists they are apart
    refine List.pairwise_append.mpr ⟨ascending, ascending', ?_⟩
    rintro ⟨key, value⟩ inside ⟨key', value'⟩ inside'
    exact apart key value key' value' ((entry key value).mp inside)
      ((entry' key' value').mp inside')
  · rw [List.mem_append, entry, entry']

/-- The same values at other keys, in the same order. -/
theorem rekey (before' : κ' → κ' → Prop) (f : κ → κ')
    (enumerates : Enumerates before holds values)
    (monotone : ∀ key key', before key key' → before' (f key) (f key')) :
    Enumerates before' (fun key value => ∃ old, f old = key ∧ holds old value) values := by
  obtain ⟨entries, rfl, ascending, entry⟩ := enumerates
  refine ⟨entries.map fun e => (f e.1, e.2), by simp, ?_, fun key value => ?_⟩
  · rw [List.pairwise_map]
    exact ascending.imp fun before => monotone _ _ before
  · simp only [List.mem_map, Prod.mk.injEq, Prod.exists]
    constructor
    · rintro ⟨old, v, inside, rfl, rfl⟩
      exact ⟨old, rfl, (entry old v).mp inside⟩
    · rintro ⟨old, rfl, held⟩
      exact ⟨old, value, (entry old value).mpr held, rfl, rfl⟩

/-- The parts of a list are enumerated one after the other, by their index and then by their own
keys. -/
theorem flatMap (holds : α → κ → β → Prop) (parts : List α) (values : α → List β)
    (each : ∀ part ∈ parts, Enumerates before (holds part) (values part)) :
    Enumerates (ByIndex before)
      (fun key value => ∃ part, parts[key.1]? = some part ∧ holds part key.2 value)
      (parts.flatMap values) := by
  induction parts with
  | nil => exact nil (by simp)
  | cons part parts ih =>
    -- the first part gets the index zero, and the index of every other part grows by one
    have first := (each part List.mem_cons_self).rekey (ByIndex before)
      (fun key => (0, key)) fun key key' ordered => Prod.Lex.right 0 ordered
    have rest := (ih fun other inside => each other (List.mem_cons_of_mem part inside)).rekey
      (ByIndex before) (fun key => (key.1 + 1, key.2)) (by
        rintro _ _ (⟨_, _, less⟩ | ⟨_, ordered⟩)
        · exact .left _ _ (Nat.succ_lt_succ less)
        · exact .right _ ordered)
    rw [List.flatMap_cons]
    refine (first.append rest ?_).congr fun key value => ?_
    · rintro _ value _ value' ⟨key, rfl, _⟩ ⟨⟨index, key'⟩, rfl, _⟩
      exact .left _ _ (Nat.succ_pos index)
    · obtain ⟨index, key⟩ := key
      cases index with
      | zero => simp
      | succ index => simp

/-- Of a filtered list the parts that pass the test are enumerated, by their index in the whole. -/
theorem flatMap_filter (holds : α → κ → β → Prop) (parts : List α) (test : α → Bool)
    (values : α → List β)
    (each : ∀ part ∈ parts, Enumerates before (holds part) (values part)) :
    Enumerates (ByIndex before)
      (fun key value => ∃ part, parts[key.1]? = some part ∧ test part = true
        ∧ holds part key.2 value)
      ((parts.filter test).flatMap values) := by
  -- a part that fails the test is kept in the list, where it gives nothing: so no index moves
  have flat : (parts.filter test).flatMap values
      = parts.flatMap fun part => if test part then values part else [] := by
    induction parts with
    | nil => rfl
    | cons part parts ih =>
      have tail := ih fun other inside => each other (List.mem_cons_of_mem part inside)
      rw [List.filter_cons, List.flatMap_cons, ← tail]
      split
      · rw [List.flatMap_cons]
      · rw [List.nil_append]
  rw [flat]
  refine flatMap (fun part key value => test part = true ∧ holds part key value) parts _
    fun part inside => ?_
  split
  case isTrue passes => exact (each part inside).congr fun key value => by simp [passes]
  case isFalse fails => exact nil fun key value => by simp [fails]

/-- What the parts that pass a test give is enumerated by their index. -/
theorem map_filter (parts : List α) (test : α → Bool) (value : α → β) :
    Enumerates (· < ·)
      (fun (index : Nat) v => ∃ part, parts[index]? = some part ∧ test part = true ∧ value part = v)
      ((parts.filter test).map value) := by
  -- a single value stands at the only key of the unit type
  have single (part : α) : Enumerates (fun _ _ => False) (fun _ v => value part = v) [value part] :=
    (singleton () (value part)).congr fun _ v => by simp [eq_comm]
  have flat := flatMap_filter (fun part (_ : Unit) v => value part = v) parts test
    (fun part => [value part]) fun part _ => single part
  rw [List.map_eq_flatMap]
  refine (flat.rekey (· < ·) Prod.fst ?_).congr fun index v => by simp
  rintro _ _ (⟨_, _, less⟩ | ⟨_, never⟩)
  · exact less
  · exact never.elim

end Enumerates

end DeployGate
