/-!
# What a reader finds

Whatever is found at the start of a text comes with the rest of the text and a proof that the rest
is shorter. That is why the loops of the readers end: each round consumes something.
-/

namespace DeployGate

/-- A value found at the start of a text, and what follows it. -/
structure Found (α : Type) (text : List Char) where
  value : α
  rest : List Char
  shorter : rest.length < text.length

namespace Found

def map (f : α → β) (found : Found α text) : Found β text :=
  ⟨f found.value, found.rest, found.shorter⟩

/-- What is found in the end of a text is found in the text. -/
def widen (found : Found α text) (shorter : text.length ≤ whole.length) : Found α whole :=
  ⟨found.value, found.rest, Nat.lt_of_lt_of_le found.shorter shorter⟩

/-- What is found in an end of a text that is shorter is found in the text. -/
def past (found : Found α text) (shorter : text.length < whole.length) : Found α whole :=
  ⟨found.value, found.rest, Nat.lt_trans found.shorter shorter⟩

def first (value : α) : Found α (c :: text) := ⟨value, text, Nat.lt_succ_self text.length⟩

/-- What is found after the first character is found in the text. -/
def later (found : Found α text) : Found α (c :: text) := found.widen (Nat.le_succ text.length)

@[simp]
theorem rest_map (f : α → β) (found : Found α text) : (found.map f).rest = found.rest := rfl

@[simp]
theorem rest_widen {whole : List Char} (found : Found α text)
    (shorter : text.length ≤ whole.length) :
    (found.widen shorter).rest = found.rest :=
  rfl

@[simp]
theorem rest_past {whole : List Char} (found : Found α text)
    (shorter : text.length < whole.length) :
    (found.past shorter).rest = found.rest :=
  rfl

@[simp]
theorem rest_first (value : α) : (first value : Found α (c :: text)).rest = text := rfl

@[simp]
theorem rest_later (found : Found α text) : (found.later (c := c)).rest = found.rest := rfl

/-- What stands before the first occurrence of a character, which is dropped. -/
def before (stop : Char) : (text : List Char) → Option (Found (List Char) text)
  | [] => none
  | c :: rest =>
    if c = stop then some (.first [])
    else (before stop rest).map fun found => (found.map (c :: ·)).later

end Found

/-- The end of a text, possibly all of it. -/
abbrev Remainder (text : List Char) := { rest : List Char // rest.length ≤ text.length }

namespace Remainder

def all (text : List Char) : Remainder text := ⟨text, Nat.le_refl _⟩

def widen {whole : List Char} (rest : Remainder text) (le : text.length ≤ whole.length) :
    Remainder whole :=
  ⟨rest.val, Nat.le_trans rest.property le⟩

def ofShorter {rest text : List Char} (shorter : rest.length < text.length) : Remainder text :=
  ⟨rest, Nat.le_of_lt shorter⟩

def ofFound (found : Found α text) : Remainder text := .ofShorter found.shorter

def nothing (text : List Char) : Remainder text := ⟨[], Nat.zero_le text.length⟩

def tail : Remainder (c :: text) := ⟨text, Nat.le_succ text.length⟩

def later (rest : Remainder text) : Remainder (c :: text) := rest.widen (Nat.le_succ text.length)

def follow (rest : Remainder text) (further : Remainder rest.val) : Remainder text :=
  further.widen rest.property

/-- What is found at the start of an end of a text. -/
def find (rest : Remainder text) (found : Found α rest.val) : Found α text :=
  found.widen rest.property

/-- What a text starts with is dropped while the test holds. -/
def dropWhile (test : Char → Bool) (text : List Char) : Remainder text :=
  ⟨text.dropWhile test, (List.dropWhile_suffix test).sublist.length_le⟩

end Remainder

/-- What is found together with some more of the text. -/
def Found.upTo (found : Found α text) (rest : Remainder found.rest) : Found α text :=
  ⟨found.value, rest.val, Nat.lt_of_le_of_lt rest.property found.shorter⟩

/-- What follows the first character ends in what follows whatever is found. -/
def Found.tail (found : Found α (c :: text)) : Remainder text :=
  ⟨found.rest, Nat.le_of_lt_succ found.shorter⟩

/-- What the first character and some of those after it stand for. -/
def Found.behind (value : α) (rest : Remainder text) : Found α (c :: text) :=
  ⟨value, rest.val, Nat.lt_succ_of_le rest.property⟩

end DeployGate
