import DeployGate.Proofs.Walk.Steps

/-!
# Receivers of a walk

A walk threads the state of its receiver through all groups, tasks and objects. The receiver has no
influence on the way: every one is handed the changes that are collected, in order and each once,
and the outcome is the same for all.

## Main result

`walk_ofChanges`: the state after a walk is the left fold of the receiver over the collected
changes. A list that is walked into keeps what it holds and gains the changes, and the outcome
counts the calls of this walk alone.
-/

namespace DeployGate.Walk

open Plan (JobDiff)

/-- A receiver that also counts how often it is called. -/
def countingCalls {σ : Type} (receive : σ → FieldChange → σ) (state : σ × Nat)
    (change : FieldChange) : σ × Nat :=
  (receive state.1 change, state.2 + 1)

theorem foldl_countingCalls {σ : Type} (receive : σ → FieldChange → σ)
    (changes : List FieldChange) (state : σ) (calls : Nat) :
    changes.foldl (countingCalls receive) (state, calls)
      = (changes.foldl receive state, calls + changes.length) := by
  induction changes generalizing state calls with
  | nil => rfl
  | cons change changes ih =>
    rw [List.foldl_cons, countingCalls, ih, List.foldl_cons, List.length_cons, Nat.add_assoc,
      Nat.add_comm 1]

/-- Whatever receives the changes, the walk is the one that collects them. -/
theorem walk_ofChanges_eq_foldl {σ : Type} (receive : σ → FieldChange → σ)
    (policy : EmptyTaskPolicy) (job : JobDiff) (state : σ) :
    walk (.ofChanges receive) policy job state
      = ((collectChanges job policy).1.foldl receive state, (collectChanges job policy).2) := by
  rw [walk_eq_foldl, foldl_ofChanges, collectChanges_eq]

/-- Every receiver of changes is folded over the collected ones, and the outcome is theirs. A list
of changes is prolonged by them, a call is made for each, and the outcome counts these, however the
walk ends. A receiver that also takes notice of empty tasks is folded over steps whose changes are
the collected ones. -/
theorem walk_ofChanges (policy : EmptyTaskPolicy) (job : JobDiff) :
    (∀ (σ : Type) (receive : σ → FieldChange → σ) (state : σ),
      walk (.ofChanges receive) policy job state
        = ((collectChanges job policy).1.foldl receive state, (collectChanges job policy).2)) ∧
    (∀ held : List FieldChange,
      let walked := walk (.ofChanges fun changes change => changes ++ [change]) policy job held
      walked = (held ++ (collectChanges job policy).1, (collectChanges job policy).2) ∧
        walked.1.length = held.length + walked.2.emitted) ∧
    (∀ (σ : Type) (receive : σ → FieldChange → σ) (state : σ) (calls : Nat),
      let walked := walk (.ofChanges (countingCalls receive)) policy job (state, calls)
      walked.1.1 = (walk (.ofChanges receive) policy job state).1 ∧
        walked.1.2 = calls + walked.2.emitted) ∧
    ∃ steps, changesOf steps = (collectChanges job policy).1 ∧
      ∀ (σ : Type) (receive : Receiver σ) (state : σ),
        walk receive policy job state
          = (steps.foldl receive state, (collectChanges job policy).2) := by
  refine ⟨fun σ receive => walk_ofChanges_eq_foldl receive policy job, fun held => ?_,
    fun σ receive state calls => ?_, ?_⟩
  · intro walked
    have prolonged : walked
        = (held ++ (collectChanges job policy).1, (collectChanges job policy).2) := by
      rw [← foldl_append_singleton]
      exact walk_ofChanges_eq_foldl _ policy job held
    refine ⟨prolonged, ?_⟩
    rw [prolonged, List.length_append, emitted_collectChanges]
  · intro walked
    have counted : walked = (((collectChanges job policy).1.foldl receive state,
        calls + (collectChanges job policy).1.length), (collectChanges job policy).2) := by
      rw [← foldl_countingCalls]
      exact walk_ofChanges_eq_foldl _ policy job (state, calls)
    rw [counted, walk_ofChanges_eq_foldl, emitted_collectChanges]
    exact ⟨rfl, rfl⟩
  · refine ⟨(groupSteps policy job.groups).1, ?_, fun σ receive state => ?_⟩
    · rw [collectChanges_eq]
    · rw [walk_eq_foldl, collectChanges_eq]

end DeployGate.Walk
