import DeployGate.Gate.Failure
import Mathlib.Data.List.Basic

/-!
# Messages of failures

Failures are compared by their messages. A message is a text of the failure between words that are
fixed for its kind, and no message begins with the words of another kind. So a failure can be read
back from its message, and comparing messages is the same as comparing failures.

## Main result

`agrees_structural`: two failures agree exactly if they are equal, and a failure is read back from
its own message and from no other text.
-/

namespace DeployGate.Gate.Failure

section

-- Nothing but the name is unfolded here: the texts are too long to be compared letter by letter.

variable (text : String)

theorem message_unrecognizedDiffType :
    (unrecognizedDiffType text).message = "unrecognized job diff type '" ++ text ++ "'" := by
  delta message
  with_reducible rfl

theorem message_missingDiff :
    missingDiff.message = "plan response does not contain a job diff" := by
  delta message
  with_reducible rfl

theorem message_source : (source text).message = "plan source error: " ++ text := by
  delta message
  with_reducible rfl

theorem message_config : (config text).message = "configuration error: " ++ text := by
  delta message
  with_reducible rfl

end

/-! ### Reading a message back -/

/-- What stands in a text between its first words and its last ones. -/
def between? (opening closing text : String) : Option String :=
  ((text.toList.dropPrefix? opening.toList).bind (·.dropSuffix? closing.toList)).map String.ofList

theorem between?_eq_some_iff {opening closing text inner : String} :
    between? opening closing text = some inner ↔ opening ++ inner ++ closing = text := by
  simp only [between?, Option.map_eq_some_iff, Option.bind_eq_some_iff,
    List.dropPrefix?_eq_some_iff, List.dropSuffix?_eq_some_iff, beq_iff_eq]
  constructor
  · rintro ⟨inner, ⟨rest, ⟨_, whole, rfl⟩, _, rfl, rfl⟩, rfl⟩
    rw [← String.toList_inj, whole]
    simp
  · rintro rfl
    refine ⟨inner.toList, ⟨inner.toList ++ closing.toList, ⟨_, ?_, rfl⟩, _, rfl, rfl⟩, ?_⟩
    · simp
    · exact String.ofList_toList

/-- A text that does not begin with the first words has nothing behind them. -/
theorem between?_eq_none {opening closing text : String}
    (other : ¬ opening.toList <+: text.toList) : between? opening closing text = none := by
  rw [Option.eq_none_iff_forall_ne_some]
  intro inner found
  rw [between?_eq_some_iff] at found
  refine other ⟨inner.toList ++ closing.toList, ?_⟩
  simp [← found]

/-- The failure that has the text for its message. -/
def ofMessage? (text : String) : Option Failure :=
  (between? "unrecognized job diff type '" "'" text).map unrecognizedDiffType
    <|> (between? "plan source error: " "" text).map source
    <|> (between? "configuration error: " "" text).map config
    <|> if text = "plan response does not contain a job diff" then some missingDiff else none

theorem message_of_ofMessage? {text : String} {failure : Failure}
    (read : ofMessage? text = some failure) : failure.message = text := by
  simp only [ofMessage?, Option.orElse_eq_orElse, Option.orElse_eq_or, Option.or_eq_some_iff,
    Option.map_eq_some_iff, between?_eq_some_iff, String.append_empty] at read
  rcases read with
    ⟨raw, rfl, rfl⟩ | ⟨-, ⟨reason, rfl, rfl⟩ | ⟨-, ⟨reason, rfl, rfl⟩ | ⟨-, missing⟩⟩⟩
  · exact message_unrecognizedDiffType raw
  · exact message_source reason
  · exact message_config reason
  · split at missing
    next same =>
      cases missing
      exact message_missingDiff.trans same.symm
    next => cases missing

/-- No message begins with the words of another kind, so it is read back as what it is. -/
theorem ofMessage?_message (failure : Failure) : ofMessage? failure.message = some failure := by
  have closed (words text : String) : between? words "" (words ++ text) = some text :=
    between?_eq_some_iff.mpr String.append_empty
  cases failure with
  | unrecognizedDiffType raw =>
    have found := between?_eq_some_iff.mpr (message_unrecognizedDiffType raw).symm
    rw [ofMessage?, found]
    rfl
  | source reason =>
    have noType : ¬ "unrecognized job diff type '".toList <+:
        ("plan source error: " ++ reason).toList := by simp
    rw [message_source, ofMessage?, between?_eq_none noType, closed]
    rfl
  | config reason =>
    have noType : ¬ "unrecognized job diff type '".toList <+:
        ("configuration error: " ++ reason).toList := by simp
    have noSource : ¬ "plan source error: ".toList <+:
        ("configuration error: " ++ reason).toList := by simp
    rw [message_config, ofMessage?, between?_eq_none noType, between?_eq_none noSource, closed]
    rfl
  | missingDiff => rfl

theorem ofMessage?_eq_some_iff {text : String} {failure : Failure} :
    ofMessage? text = some failure ↔ failure.message = text := by
  constructor
  · exact message_of_ofMessage?
  · rintro rfl
    exact ofMessage?_message failure

/-! ### Comparing messages -/

theorem message_injective : Function.Injective message := by
  intro a b same
  have read := ofMessage?_message a
  rw [same, ofMessage?_message] at read
  exact (Option.some.inj read).symm

theorem agrees_iff {a b : Failure} : a.agrees b = true ↔ a = b := by
  rw [agrees, beq_iff_eq]
  exact message_injective.eq_iff

/-- Failures agree exactly if they are of one kind and say the same, so that agreement is an
equivalence. A failure is read back from its message and from no other text. Above all, whatever the
source of a plan reports, this is taken for no other kind of failure. -/
theorem agrees_structural :
    (∀ a b : Failure, a.agrees b = true ↔ a = b) ∧
    (∀ text failure, ofMessage? text = some failure ↔ failure.message = text) ∧
    (∀ reason text, (source reason).agrees missingDiff = false ∧
      (source reason).agrees (unrecognizedDiffType text) = false ∧
      (source reason).agrees (config text) = false) ∧
    Equivalence fun a b : Failure => a.agrees b = true := by
  refine ⟨fun _ _ => agrees_iff, fun _ _ => ofMessage?_eq_some_iff, fun reason text => ?_, ?_⟩
  · simp [← Bool.not_eq_true, agrees_iff]
  · simp only [agrees_iff]
    exact ⟨Eq.refl, Eq.symm, Eq.trans⟩

/-- What a source reports may look like the message of another failure. -/
example :
    ofMessage? "plan source error: configuration error: 'missing'"
      = some (source "configuration error: 'missing'") := by
  decide

end DeployGate.Gate.Failure
