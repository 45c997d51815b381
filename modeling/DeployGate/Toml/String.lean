import DeployGate.Text.Found
import DeployGate.Toml.Item
import DeployGate.Toml.Word

/-!
# Strings and keys

Strings come in four kinds: with or without escapes, on one line or on several. In those of several
lines a line feed after the opening quotes is dropped, both line endings count as a line feed, and
up to two quotes may stand before the closing three.
-/

namespace DeployGate.Toml

abbrev Parser (α : Type) := (text : List Char) → Option (Found α text)

def isSpace (c : Char) : Bool := c = ' ' || c = '\t'

def skipSpace (text : List Char) : Remainder text := .dropWhile isSpace text

/-- What may stand in a comment, and in a string except for quotes and backslashes. -/
def isPlain (c : Char) : Bool := c = '\t' || (0x20 ≤ c.toNat && c ≠ '\x7f')

def newline : Parser Unit
  | '\n' :: _ => some (.first ())
  | '\r' :: '\n' :: _ => some (.later (.first ()))
  | _ => none

/-- The character of a code point, surrogates excluded. -/
def scalarValue? (point : Nat) : Option Char :=
  if point.isValidChar then some (Char.ofNat point) else none

def hexEscape (count : Nat) (text : List Char) : Option (Char × Remainder text) :=
  let digits := text.take count
  if digits.length = count ∧ digits.all isHexDigit then
    (scalarValue? (digitsValue 16 digits)).map fun c => (c, ⟨text.drop count, by simp⟩)
  else none

def escape : Parser Char
  | 'b' :: _ => some (.first '\x08')
  | 't' :: _ => some (.first '\t')
  | 'n' :: _ => some (.first '\n')
  | 'f' :: _ => some (.first '\x0c')
  | 'r' :: _ => some (.first '\r')
  | '"' :: _ => some (.first '"')
  | '\\' :: _ => some (.first '\\')
  | 'u' :: rest =>
    (hexEscape 4 rest).map fun found => ⟨found.1, found.2.val, by
      have := found.2.property; simp only [List.length_cons]; omega⟩
  | 'U' :: rest =>
    (hexEscape 8 rest).map fun found => ⟨found.1, found.2.val, by
      have := found.2.property; simp only [List.length_cons]; omega⟩
  | _ => none

/-- A string with escapes, after its opening quote. -/
def basicString (text : List Char) : Option (Found (List Char) text) :=
  match text with
  | [] => none
  | '"' :: _ => some (.first [])
  | '\\' :: rest => do
    let ⟨c, after, shorter⟩ ← escape rest
    let ⟨cs, last, shorter'⟩ ← basicString after
    return ⟨c :: cs, last, by simp only [List.length_cons]; omega⟩
  | c :: rest =>
    if isPlain c then
      (basicString rest).map fun found => (found.map (c :: ·)).later
    else none
termination_by text.length
decreasing_by all_goals simp only [List.length_cons]; omega

/-- A string without escapes, after its opening quote. -/
def literalString : Parser (List Char)
  | [] => none
  | '\'' :: _ => some (.first [])
  | c :: rest =>
    if isPlain c then
      (literalString rest).map fun found => (found.map (c :: ·)).later
    else none

/-- Up to two quotes before the closing three. -/
def closingQuotes (quote : Char) : Parser (List Char)
  | a :: b :: c :: rest =>
    if a = quote ∧ b = quote ∧ c = quote then
      match rest with
      | d :: e :: after =>
        if d = quote then
          if e = quote then
            some ⟨[quote, quote], after, by simp only [List.length_cons]; omega⟩
          else some ⟨[quote], e :: after, by simp only [List.length_cons]; omega⟩
        else some ⟨[], d :: e :: after, by simp only [List.length_cons]; omega⟩
      | [d] =>
        if d = quote then some ⟨[quote], [], by simp⟩
        else some ⟨[], [d], by simp only [List.length_cons]; omega⟩
      | [] => some ⟨[], [], by simp⟩
    else none
  | _ => none

/-- What a backslash at the end of a line swallows: all space up to the next character. -/
def lineFold (text : List Char) : Option (Found Unit text) :=
  match newline (skipSpace text).val with
  | none => none
  | some ⟨_, rest, shorter⟩ =>
    let after := dropFolded rest
    some ⟨(), after.val, by
      have := (skipSpace text).property
      have := after.property
      omega⟩
where
  dropFolded : (rest : List Char) → Remainder rest
    | '\r' :: '\n' :: rest => (dropFolded rest).later.later
    | c :: rest =>
      if isSpace c || c = '\n' then (dropFolded rest).later else .all (c :: rest)
    | [] => .all []

/-- A string with escapes on several lines, after its opening quotes. -/
def basicLines (text : List Char) : Option (Found (List Char) text) :=
  match closingQuotes '"' text with
  | some found => some found
  | none =>
    match text with
    | [] => none
    | '\\' :: rest =>
      match lineFold rest with
      | some ⟨_, after, shorter⟩ =>
        (basicLines after).map fun found => (found.past shorter).later
      | none => do
        let ⟨c, after, shorter⟩ ← escape rest
        let ⟨cs, last, shorter'⟩ ← basicLines after
        return ⟨c :: cs, last, by simp only [List.length_cons]; omega⟩
    | c :: rest =>
      match newline (c :: rest) with
      | some ⟨_, after, shorter⟩ =>
        (basicLines after).map fun found =>
          (found.map ('\n' :: ·)).past shorter
      | none =>
        if isPlain c then
          (basicLines rest).map fun found => (found.map (c :: ·)).later
        else none
termination_by text.length
decreasing_by all_goals simp only [List.length_cons] at *; omega

/-- A string without escapes on several lines, after its opening quotes. -/
def literalLines (text : List Char) : Option (Found (List Char) text) :=
  match closingQuotes '\'' text with
  | some found => some found
  | none =>
    match text with
    | [] => none
    | c :: rest =>
      match newline (c :: rest) with
      | some ⟨_, after, shorter⟩ =>
        (literalLines after).map fun found =>
          (found.map ('\n' :: ·)).past shorter
      | none =>
        if isPlain c then
          (literalLines rest).map fun found => (found.map (c :: ·)).later
        else none
termination_by text.length
decreasing_by all_goals simp only [List.length_cons] at *; omega

def dropNewline (text : List Char) : Remainder text :=
  match newline text with
  | some found => ⟨found.rest, by have := found.shorter; omega⟩
  | none => .all text

def string : Parser String := fun text =>
  match text with
  | '"' :: '"' :: '"' :: rest =>
    let body := dropNewline rest
    (basicLines body.val).map fun found =>
      ((found.map String.ofList).widen body.property).later.later.later
  | '\'' :: '\'' :: '\'' :: rest =>
    let body := dropNewline rest
    (literalLines body.val).map fun found =>
      ((found.map String.ofList).widen body.property).later.later.later
  | '"' :: rest => (basicString rest).map fun found => (found.map String.ofList).later
  | '\'' :: rest => (literalString rest).map fun found => (found.map String.ofList).later
  | _ => none

def isBareKeyChar (c : Char) : Bool := c.isAlphanum || c = '_' || c = '-'

/-- A key without dots: quoted, on one line, or bare. -/
def simpleKey : Parser Key := fun text =>
  let found? : Option (Found String text) :=
    match text with
    | '"' :: rest => (basicString rest).map fun found => (found.map String.ofList).later
    | '\'' :: rest =>
      (literalString rest).map fun found => (found.map String.ofList).later
    | c :: rest =>
      if isBareKeyChar c then
        some ⟨String.ofList (c :: rest.takeWhile isBareKeyChar), rest.dropWhile isBareKeyChar, by
          have := (Remainder.dropWhile isBareKeyChar rest).property
          simp only [List.length_cons]
          exact Nat.lt_succ_of_le this⟩
      else none
    | [] => none
  found?.map fun found => ⟨⟨found.value, ⟨text, found.rest⟩⟩, found.rest, found.shorter⟩

/-- Keys joined by dots, with space around each: all but the last, and the last. -/
def dottedKey (text : List Char) : Option (Found (List Key × Key) text) :=
  match simpleKey (skipSpace text).val with
  | none => none
  | some ⟨key, rest, shorter⟩ =>
    have le := (skipSpace text).property
    match h : (skipSpace rest).val with
    | '.' :: more =>
      have le' := (skipSpace rest).property
      (dottedKey more).map fun found =>
        (found.map fun keys => (key :: keys.1, keys.2)).widen (by
          simp only [h, List.length_cons] at le'; omega)
    | after => some ⟨([], key), after, by have := (skipSpace rest).property; rw [h] at this; omega⟩
termination_by text.length
decreasing_by simp only [h, List.length_cons] at le'; omega

end DeployGate.Toml
