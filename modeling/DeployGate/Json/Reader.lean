import DeployGate.Json.Fault
import DeployGate.Text.Found

/-!
# Readers

A reader takes what is left of a document and gives a value with what is left after it, or a fault.
-/

namespace DeployGate.Json

abbrev Reader (α : Type) := (text : List Char) → Except Fault (Found α text)

def Reader.map (f : α → β) (reader : Reader α) : Reader β :=
  fun text => (reader text).map (Found.map f)

def isBlank (c : Char) : Bool := c = ' ' || c = '\n' || c = '\t' || c = '\r'

def skipBlank (text : List Char) : List Char := text.dropWhile isBlank

theorem length_skipBlank_le (text : List Char) : (skipBlank text).length ≤ text.length :=
  (List.dropWhile_suffix isBlank).sublist.length_le

theorem length_lt_of_skipBlank {text rest : List Char} {c : Char}
    (skipped : skipBlank text = c :: rest) : rest.length < text.length := by
  have := length_skipBlank_le text
  rw [skipped, List.length_cons] at this
  omega

def afterBlank (reader : Reader α) : Reader α :=
  fun text => (reader (skipBlank text)).map (·.widen (length_skipBlank_le text))

def dropWord : List Char → List Char → Except Fault (List Char)
  | [], rest => .ok rest
  | _ :: _, [] => .error (.here .endInValue [])
  | letter :: word, c :: rest =>
    if c = letter then dropWord word rest else .error (.next .brokenWord (c :: rest))

theorem length_dropWord_le {word text rest : List Char} (dropped : dropWord word text = .ok rest) :
    rest.length ≤ text.length := by
  induction word generalizing text with
  | nil => simp_all [dropWord]
  | cons letter word ih =>
    cases text with
    | nil => simp [dropWord] at dropped
    | cons c text =>
      simp only [dropWord] at dropped
      split at dropped
      · have := ih dropped
        simp only [List.length_cons]
        omega
      · simp at dropped

/-- The value that a word stands for, after the word's first letter. -/
def readWord (first : Char) (word : String) (value : α) (rest : List Char) :
    Except Fault (Found α (first :: rest)) :=
  match dropped : dropWord word.toList rest with
  | .ok after =>
    .ok ⟨value, after, by
      have := length_dropWord_le dropped
      simp only [List.length_cons]
      omega⟩
  | .error fault => .error fault

end DeployGate.Json
