import DeployGate.Toml.Binding
import DeployGate.Toml.String

/-!
# Documents

The grammar above words and strings: values, the bindings of keys to values, headers, and documents
as sequences of these. Lists and tables are not nested without bounds in a value.
-/

namespace DeployGate.Toml

/-- How many lists and tables may be open in a value, and how many keys dots may join. -/
def depthLimit : Nat := 79

def skipTrivia (text : List Char) : Remainder text :=
  match text with
  | [] => .all []
  | '\r' :: '\n' :: rest => (skipTrivia rest).later.later
  | '#' :: rest =>
    let ⟨after, le⟩ := Remainder.dropWhile isPlain rest
    ((skipTrivia after).widen le).later
  | c :: rest =>
    if isSpace c || c = '\n' then (skipTrivia rest).later else .all (c :: rest)
termination_by text.length
decreasing_by all_goals simp only [List.length_cons]; omega

/-- The end of a line after a header or a value: space, a comment and a line end, or the end of the
document. -/
def lineEnd (text : List Char) : Option (Remainder text) :=
  let ⟨rest, le⟩ := skipSpace text
  let ⟨rest, le'⟩ : Remainder rest := match rest with
    | '#' :: comment => (Remainder.dropWhile isPlain comment).later
    | other => .all other
  match rest, newline rest with
  | [], _ => some (.nothing text)
  | rest, some found => some ⟨found.rest, by have := found.shorter; omega⟩
  | _, none => none

/-- The elements of a list after its opening bracket. A comma may follow the last one. -/
def elements (item : Parser Item) (text : List Char) : Option (Found (List Item) text) :=
  match h : (skipTrivia text).val with
  | [] => none
  | ']' :: rest =>
    some ⟨[], rest, by
      have := (skipTrivia text).property; simp only [h, List.length_cons] at this; omega⟩
  | c :: start =>
    have le : start.length + 1 ≤ text.length := by
      have := (skipTrivia text).property; simpa only [h, List.length_cons] using this
    match item (c :: start) with
    | none => none
    | some ⟨first, after, shorter⟩ =>
      match h' : (skipTrivia after).val with
      | ']' :: rest => some ⟨[first], rest, by
          have := (skipTrivia after).property
          simp only [h', List.length_cons] at this shorter; omega⟩
      | ',' :: rest =>
        have le' : rest.length + 1 ≤ after.length := by
          have := (skipTrivia after).property; simpa only [h', List.length_cons] using this
        (elements item rest).map fun found =>
          (found.map (first :: ·)).widen (by simp only [List.length_cons] at shorter; omega)
      | _ => none
termination_by text.length
decreasing_by simp only [List.length_cons] at shorter; omega

def binding (item : Parser Item) (text : List Char) : Option (Found Binding text) :=
  match dottedKey text with
  | none => none
  | some ⟨(path, last), rest, shorter⟩ =>
    match rest with
    | '=' :: rest =>
      if depthLimit ≤ path.length then none
      else
        let ⟨start, le⟩ := skipSpace rest
        (item start).map fun found =>
          (found.map fun item => ⟨path, last, item⟩).widen (by
            simp only [List.length_cons] at shorter; omega)
    | _ => none

/-- The bindings between braces after the first one. -/
def bindings (item : Parser Item) (text : List Char) : Option (Found (List Binding) text) :=
  match binding item text with
  | none => none
  | some ⟨first, after, shorter⟩ =>
    match h : (skipSpace after).val with
    | '\x7d' :: rest => some ⟨[first], rest, by
        have := (skipSpace after).property
        simp only [h, List.length_cons] at this; omega⟩
    | ',' :: rest =>
      have le : rest.length + 1 ≤ after.length := by
        have := (skipSpace after).property; simpa only [h, List.length_cons] using this
      (bindings item rest).map fun found => (found.map (first :: ·)).widen (by omega)
    | _ => none
termination_by text.length

def braced (item : Parser Item) (text : List Char) : Option (Found (List Binding) text) :=
  match h : (skipSpace text).val with
  | '\x7d' :: rest =>
    some ⟨[], rest, by
      have := (skipSpace text).property; simp only [h, List.length_cons] at this; omega⟩
  | _ => bindings item text

/-- A number, a date, a time or a truth value. Between a date and a time a space may stand. -/
def word (text : List Char) : Option (Found Scalar text) :=
  let letters := text.takeWhile isWordChar
  let rest := text.dropWhile isWordChar
  match h : rest with
  | ' ' :: next =>
    let time := next.takeWhile isWordChar
    if isDate letters && isOffsetTime time then
      some ⟨.datetime (String.ofList (letters ++ ' ' :: time)), next.dropWhile isWordChar, by
        have first := (Remainder.dropWhile isWordChar text).property
        have second := (Remainder.dropWhile isWordChar next).property
        simp only [Remainder.dropWhile, rest] at first second h
        rw [h, List.length_cons] at first
        omega⟩
    else plain text
  | _ => plain text
where
  plain (text : List Char) : Option (Found Scalar text) :=
    match text with
    | [] => none
    | c :: rest =>
      if isWordChar c then
        (scalar? (c :: rest.takeWhile isWordChar)).map fun scalar =>
          ⟨scalar, rest.dropWhile isWordChar, by
            have := (Remainder.dropWhile isWordChar rest).property
            simp only [List.length_cons]
            exact Nat.lt_succ_of_le this⟩
      else none

def scalar : Parser Item := fun text =>
  let found? := match text.head? with
    | some '"' | some '\'' => (string text).map (Found.map Scalar.string)
    | _ => word text
  found?.map fun found => found.map fun value => .scalar ⟨text, found.rest⟩ value

/-- A value whose parts are read by `item`, if any part may be a list or a table. -/
def valueWithin (item : Option (Parser Item)) : Parser Item
  | '[' :: rest => do
    let found ← elements (← item) rest
    return (found.map fun items => .array ⟨'[' :: rest, found.rest⟩ items).later
  | '\x7b' :: rest => do
    let found ← braced (← item) rest
    let table ← inlineTable ⟨'\x7b' :: rest, found.rest⟩ found.value
    return (found.map fun _ => table).later
  | text => scalar text

/-- A value in which at most `depth` lists and tables are open at the same time. -/
def value : (depth : Nat) → Parser Item
  | 0 => valueWithin none
  | depth + 1 => valueWithin (some (value depth))

def header (whole text : List Char) : Option (Found Header text) :=
  let (double, rest) : Bool × Remainder text := match text with
    | '[' :: rest => (true, .tail)
    | rest => (false, .all rest)
  match dottedKey rest.val with
  | none => none
  | some ⟨(path, last), after, shorter⟩ =>
    if depthLimit ≤ path.length then none
    else
      match double, after with
      | false, ']' :: after =>
        some ⟨⟨path, last, false, ⟨whole, after⟩⟩, after, by
          have := rest.property; simp only [List.length_cons] at shorter; omega⟩
      | true, ']' :: ']' :: after =>
        some ⟨⟨path, last, true, ⟨whole, after⟩⟩, after, by
          have := rest.property; simp only [List.length_cons] at shorter; omega⟩
      | _, _ => none

/-- The bindings before the first header of a text, and its sections. -/
def sections (text : List Char) : Option (List Binding × List Section) :=
  match h : (skipTrivia text).val with
  | [] => some ([], [])
  | '[' :: rest =>
    have le : rest.length + 1 ≤ text.length := by
      have := (skipTrivia text).property; simpa only [h, List.length_cons] using this
    match header ('[' :: rest) rest with
    | none => none
    | some ⟨header, after, shorter⟩ =>
      match lineEnd after with
      | none => none
      | some ⟨next, le'⟩ =>
        (sections next).map fun (under, parts) => ([], ⟨header, under⟩ :: parts)
  | c :: rest =>
    have le : rest.length + 1 ≤ text.length := by
      have := (skipTrivia text).property; simpa only [h, List.length_cons] using this
    match binding (value depthLimit) (c :: rest) with
    | none => none
    | some ⟨first, after, shorter⟩ =>
      match lineEnd after with
      | none => none
      | some ⟨next, le'⟩ =>
        (sections next).map fun (under, parts) => (first :: under, parts)
termination_by text.length
decreasing_by
  · omega
  · simp only [List.length_cons] at shorter; omega

/-- A byte order mark is no part of a document. -/
def dropMark : List Char → List Char
  | '\ufeff' :: rest => rest
  | text => text

def parse? (text : List Char) : Option Entries := do
  let (leading, parts) ← sections (dropMark text)
  documentEntries leading parts

end DeployGate.Toml
