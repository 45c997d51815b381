import DeployGate.Proofs.Toml.Strings
import Mathlib.Data.Nat.Init

/-!
# Values are read

A value that is written by the grammar is read as that value, whatever follows it, as long as the
next character that is not space cannot belong to a value. The keys and the parts of the value are
read along with the places where they stand, which play no part here.

## Main result

`Spells.reads`.
-/

namespace DeployGate.Toml

variable {α : Type} {text rest : List Char}

/-! ### Space, comments and new lines -/

/-- A value or a key may begin like this, and no trivia does. -/
def Begins (text : List Char) : Prop :=
  ∀ c, text.head? = some c → isSpace c = false ∧ c ≠ '\n' ∧ c ≠ '\r' ∧ c ≠ '#'

theorem skipTrivia_stop (stops : Begins rest) : (skipTrivia rest).val = rest := by
  match rest with
  | [] =>
    rw [skipTrivia]
    rfl
  | c :: rest =>
    obtain ⟨noSpace, noFeed, noCarriage, noComment⟩ := stops c rfl
    rw [skipTrivia, if_neg (by simp [noSpace, noFeed])]
    · rfl
    · simp [noCarriage]
    · exact noComment

theorem skipTrivia_blank {c : Char} (space : isSpace c = true) (text : List Char) :
    (skipTrivia (c :: text)).val = (skipTrivia text).val := by
  rcases isSpace_iff.mp space with rfl | rfl <;>
  · rw [skipTrivia]
    · rfl
    · simp
    · simp

theorem skipTrivia_break {lineBreak : List Char} (ends : Break lineBreak) (text : List Char) :
    (skipTrivia (lineBreak ++ text)).val = (skipTrivia text).val := by
  cases ends with
  | feed =>
    rw [List.singleton_append, skipTrivia]
    · rfl
    · simp
    · simp
  | carriage =>
    rw [List.cons_append, List.singleton_append, skipTrivia]
    rfl

theorem skipTrivia_comment {comment : List Char} (plain : ∀ c ∈ comment, isPlain c = true)
    (stops : ∀ c, rest.head? = some c → isPlain c = false) :
    (skipTrivia ('#' :: (comment ++ rest))).val = (skipTrivia rest).val := by
  have dropped : (comment ++ rest).dropWhile isPlain = rest := dropWhile_exact plain stops
  rw [skipTrivia]
  change (skipTrivia ((comment ++ rest).dropWhile isPlain)).val = _
  rw [dropped]

theorem Break.not_plain {lineBreak : List Char} (ends : Break lineBreak) (c : Char)
    (first : (lineBreak ++ rest).head? = some c) : isPlain c = false := by
  cases ends <;>
  · obtain rfl := Option.some.inj first
    decide

theorem Trivia.skipTrivia_append {trivia : List Char} (blank : Trivia trivia)
    (rest : List Char) :
    (Toml.skipTrivia (trivia ++ rest)).val = (Toml.skipTrivia rest).val := by
  induction blank with
  | nil => rfl
  | space space blank ih => rw [List.cons_append, skipTrivia_blank space, ih]
  | line comment ends blank ih =>
    cases comment with
    | none => rw [List.nil_append, List.append_assoc, skipTrivia_break ends, ih]
    | line plain =>
      rw [List.append_assoc, List.cons_append, List.append_assoc,
        skipTrivia_comment plain ends.not_plain, skipTrivia_break ends, ih]

theorem Trivia.skipTrivia {trivia : List Char} (blank : Trivia trivia) (stops : Begins rest) :
    (Toml.skipTrivia (trivia ++ rest)).val = rest :=
  (blank.skipTrivia_append rest).trans (skipTrivia_stop stops)

/-! ### The end of a value -/

/-- Behind a value and space comes the end, or a character that ends the value. -/
def Ends (text : List Char) : Prop :=
  ∀ c, (text.dropWhile isSpace).head? = some c →
    c = ',' ∨ c = ']' ∨ c = '\x7d' ∨ c = '#' ∨ c = '\n' ∨ c = '\r'

theorem Space.ends {space : List Char} (inside : Space space) {c : Char}
    (closes : c = ',' ∨ c = ']' ∨ c = '\x7d' ∨ c = '#' ∨ c = '\n' ∨ c = '\r')
    (text : List Char) : Ends (space ++ c :: text) := by
  have noSpace : isSpace c = false := by
    rcases closes with rfl | rfl | rfl | rfl | rfl | rfl <;> rfl
  intro d first
  rw [dropWhile_exact inside (by rintro e ⟨⟩; exact noSpace)] at first
  obtain rfl := Option.some.inj first
  exact closes

theorem Trivia.ends {trivia : List Char} (blank : Trivia trivia) {c : Char}
    (closes : c = ',' ∨ c = ']') (text : List Char) : Ends (trivia ++ c :: text) := by
  induction blank with
  | nil =>
    apply Space.nil.ends
    rcases closes with rfl | rfl <;> simp
  | @space d trivia space blank ih =>
    rw [List.cons_append, Ends, List.dropWhile_cons_of_pos space]
    exact ih
  | line comment ends blank ih =>
    cases comment with
    | none => cases ends <;> exact Space.nil.ends (by simp) _
    | line => exact Space.nil.ends (by simp) _

/-- What ends a value is not part of one. -/
theorem Ends.head {c : Char} (ends : Ends rest) (first : rest.head? = some c) :
    isWordChar c = false ∧ c ≠ '"' ∧ c ≠ '\'' := by
  match rest with
  | d :: rest =>
    obtain rfl := Option.some.inj first
    cases space : isSpace d with
    | true => rcases isSpace_iff.mp space with rfl | rfl <;> decide
    | false =>
      have closes := ends d (by rw [List.dropWhile_cons_of_neg (by simp [space])]; rfl)
      rcases closes with rfl | rfl | rfl | rfl | rfl | rfl <;> decide

theorem Ends.not_quote (ends : Ends rest) (quote : Char) (isQuote : IsQuote quote) :
    rest.head? ≠ some quote := by
  intro first
  rcases isQuote with rfl | rfl
  · exact (ends.head first).2.1 rfl
  · exact (ends.head first).2.2 rfl

theorem Ends.tail {c : Char} (ends : Ends (c :: rest)) (space : isSpace c = true) : Ends rest := by
  rwa [Ends, List.dropWhile_cons_of_pos space] at ends

/-! ### Values without parts -/

theorem run_plain {word : List Char} {value : Scalar} (some_ : word ≠ [])
    (inside : ∀ c ∈ word, isWordChar c = true) (known : scalar? word = some value)
    (ends : Ends rest) :
    Parser.run Toml.word.plain (word ++ rest) = some (value, rest) := by
  match word, some_ with
  | c :: word, _ =>
    obtain ⟨first, others⟩ := List.forall_mem_cons.mp inside
    have stops (c : Char) (first : rest.head? = some c) := (ends.head first).1
    simp [Parser.run, Toml.word.plain, first, takeWhile_exact others stops,
      dropWhile_exact others stops, known]

theorem run_word {letters : List Char} {value : Scalar} (some_ : letters ≠ [])
    (inside : ∀ c ∈ letters, isWordChar c = true) (known : scalar? letters = some value)
    (ends : Ends rest) : Parser.run word (letters ++ rest) = some (value, rest) := by
  have stops (c : Char) (first : rest.head? = some c) := (ends.head first).1
  have plain := run_plain some_ inside known ends
  rw [Parser.run] at plain ⊢
  rw [word]
  simp only [takeWhile_exact inside stops]
  split
  next next_ same =>
    -- behind the space no time begins
    rw [dropWhile_exact inside stops] at same
    subst same
    have noTime : next_.takeWhile isWordChar = [] := by
      have stops' (c : Char) (first : next_.head? = some c) := ((ends.tail rfl).head first).1
      have nothing : ([] ++ next_).takeWhile isWordChar = [] := takeWhile_exact (by simp) stops'
      exact nothing
    have noMoment : (isDate letters && isOffsetTime (next_.takeWhile isWordChar)) = false := by
      rw [noTime, show isOffsetTime [] = false from rfl, Bool.and_false]
    simp [noMoment, plain]
  next => exact plain

/-- A date, a space and a time are one value. -/
theorem run_word_moment {date time : List Char} (inside : ∀ c ∈ date ++ time, isWordChar c = true)
    (isDate_ : isDate date = true) (isTime : isOffsetTime time = true) (ends : Ends rest) :
    Parser.run word (date ++ ' ' :: (time ++ rest))
      = some (.datetime (String.ofList (date ++ ' ' :: time)), rest) := by
  obtain ⟨insideDate, insideTime⟩ := List.forall_mem_append.mp inside
  have stops (c : Char) (first : rest.head? = some c) := (ends.head first).1
  have stops' (c : Char) (first : (' ' :: (time ++ rest)).head? = some c) :
      isWordChar c = false := by
    obtain rfl := Option.some.inj first
    rfl
  rw [Parser.run, word]
  simp only [takeWhile_exact insideDate stops']
  split
  next next_ same =>
    rw [dropWhile_exact insideDate stops'] at same
    obtain ⟨-, rfl⟩ := List.cons.inj same
    simp [takeWhile_exact insideTime stops, dropWhile_exact insideTime stops, isDate_, isTime]
  next other => exact absurd (dropWhile_exact insideDate stops') (other _)

/-- A value without parts is neither a list nor a table. -/
theorem run_value_scalar {c : Char} (noList : c ≠ '[') (noTable : c ≠ '\x7b') (depth : Nat)
    (text : List Char) :
    Parser.run (value depth) (c :: text) = Parser.run scalar (c :: text) := by
  cases depth <;>
  · rw [Parser.run, value, valueWithin]
    · rfl
    · simp [noList]
    · simp [noTable]

theorem run_value_quoted {c : Char} {chars : String} (quote : IsQuote c) (depth : Nat)
    (read : Parser.run string (c :: text) = some (chars, rest)) :
    Parser.run (value depth) (c :: text)
      = some (.scalar ⟨c :: text, rest⟩ (.string chars), rest) := by
  obtain ⟨shorter, found⟩ := found_of_run read
  rcases quote with rfl | rfl <;>
  · rw [run_value_scalar (by decide) (by decide)]
    simp [Parser.run, scalar, found]

theorem run_value_word {c : Char} {found : Scalar} (isWord : isWordChar c = true) (depth : Nat)
    (read : Parser.run word (c :: text) = some (found, rest)) :
    Parser.run (value depth) (c :: text) = some (.scalar ⟨c :: text, rest⟩ found, rest) := by
  obtain ⟨shorter, read⟩ := found_of_run read
  have other {d : Char} (noWord : isWordChar d = false) : c ≠ d := by
    rintro rfl
    rw [isWord] at noWord
    cases noWord
  have noDouble : c ≠ '"' := other rfl
  have noSingle : c ≠ '\'' := other rfl
  rw [run_value_scalar (other rfl) (other rfl), Parser.run, scalar]
  simp [noDouble, noSingle, read]

/-! ### Lists and tables -/

theorem run_value_array {depth : Nat} {items : List Item}
    (read : Parser.run (elements (value depth)) text = some (items, rest)) :
    Parser.run (value (depth + 1)) ('[' :: text)
      = some (.array ⟨'[' :: text, rest⟩ items, rest) := by
  obtain ⟨shorter, found⟩ := found_of_run read
  rw [Parser.run, value, valueWithin]
  simp [found]

theorem run_value_table {depth : Nat} {bindings : List Binding} {item : Item}
    (read : Parser.run (braced (value depth)) text = some (bindings, rest))
    (made : inlineTable ⟨'\x7b' :: text, rest⟩ bindings = some item) :
    Parser.run (value (depth + 1)) ('\x7b' :: text) = some (item, rest) := by
  obtain ⟨shorter, found⟩ := found_of_run read
  rw [Parser.run, value, valueWithin]
  simp [found, made]

section

variable {item : Parser Item}

theorem run_elements_nil (closes : (skipTrivia text).val = ']' :: rest) :
    Parser.run (elements item) text = some ([], rest) := by
  rw [Parser.run, elements]
  split
  next none => exact absurd (closes.symm.trans none) (by simp)
  next more same =>
    obtain ⟨-, rfl⟩ := List.cons.inj (closes.symm.trans same)
    rfl
  next c start other same =>
    obtain ⟨rfl, -⟩ := List.cons.inj (closes.symm.trans same)
    exact absurd rfl other

theorem run_elements_last {c : Char} {start after : List Char} {first : Item}
    (begins : (skipTrivia text).val = c :: start) (noEnd : c ≠ ']')
    (read : Parser.run item (c :: start) = some (first, after))
    (closes : (skipTrivia after).val = ']' :: rest) :
    Parser.run (elements item) text = some ([first], rest) := by
  obtain ⟨shorter, found⟩ := found_of_run read
  rw [Parser.run, elements]
  split
  next none => exact absurd (begins.symm.trans none) (by simp)
  next more same => exact absurd (List.cons.inj (begins.symm.trans same)).1 noEnd
  next d start' other same =>
    obtain ⟨rfl, rfl⟩ := List.cons.inj (begins.symm.trans same)
    simp only [found]
    split
    next more same =>
      obtain ⟨-, rfl⟩ := List.cons.inj (closes.symm.trans same)
      rfl
    next more same => exact absurd (List.cons.inj (closes.symm.trans same)).1 (by decide)
    next closed _ => exact absurd closes (closed _)

theorem run_elements_next {c : Char} {start after more : List Char} {first : Item}
    {items : List Item} (begins : (skipTrivia text).val = c :: start) (noEnd : c ≠ ']')
    (read : Parser.run item (c :: start) = some (first, after))
    (comma : (skipTrivia after).val = ',' :: more)
    (found : Parser.run (elements item) more = some (items, rest)) :
    Parser.run (elements item) text = some (first :: items, rest) := by
  obtain ⟨shorter, read⟩ := found_of_run read
  obtain ⟨shorter', found⟩ := found_of_run found
  rw [Parser.run, elements]
  split
  next none => exact absurd (begins.symm.trans none) (by simp)
  next more same => exact absurd (List.cons.inj (begins.symm.trans same)).1 noEnd
  next d start' other same =>
    obtain ⟨rfl, rfl⟩ := List.cons.inj (begins.symm.trans same)
    simp only [read]
    split
    next more same => exact absurd (List.cons.inj (comma.symm.trans same)).1 (by decide)
    next more' same =>
      obtain ⟨-, rfl⟩ := List.cons.inj (comma.symm.trans same)
      simp [found]
    next _ further => exact absurd comma (further _)

theorem run_binding {path : List Key} {last : Key} {start : List Char} {found : Item}
    (keys : Parser.run dottedKey text = some ((path, last), '=' :: start))
    (short : path.length < depthLimit)
    (read : Parser.run item (skipSpace start).val = some (found, rest)) :
    Parser.run (binding item) text = some (⟨path, last, found⟩, rest) := by
  obtain ⟨shorter, keys⟩ := found_of_run keys
  obtain ⟨shorter', read⟩ := found_of_run read
  rw [Parser.run, binding, keys]
  simp [Nat.not_le.mpr short, read]

theorem run_bindings_last {after : List Char} {first : Binding}
    (read : Parser.run (binding item) text = some (first, after))
    (closes : (skipSpace after).val = '\x7d' :: rest) :
    Parser.run (bindings item) text = some ([first], rest) := by
  obtain ⟨shorter, read⟩ := found_of_run read
  rw [Parser.run, bindings, read]
  dsimp only
  split
  next more same =>
    obtain ⟨-, rfl⟩ := List.cons.inj (closes.symm.trans same)
    rfl
  next more same => exact absurd (List.cons.inj (closes.symm.trans same)).1 (by decide)
  next closed _ => exact absurd closes (closed _)

theorem run_bindings_next {after more : List Char} {first : Binding} {others : List Binding}
    (read : Parser.run (binding item) text = some (first, after))
    (comma : (skipSpace after).val = ',' :: more)
    (found : Parser.run (bindings item) more = some (others, rest)) :
    Parser.run (bindings item) text = some (first :: others, rest) := by
  obtain ⟨shorter, read⟩ := found_of_run read
  obtain ⟨shorter', found⟩ := found_of_run found
  rw [Parser.run, bindings, read]
  dsimp only
  split
  next more same => exact absurd (List.cons.inj (comma.symm.trans same)).1 (by decide)
  next more' same =>
    obtain ⟨-, rfl⟩ := List.cons.inj (comma.symm.trans same)
    simp [found]
  next _ further => exact absurd comma (further _)

theorem run_braced_nil (closes : (skipSpace text).val = '\x7d' :: rest) :
    Parser.run (braced item) text = some ([], rest) := by
  rw [Parser.run, braced]
  split
  next more same =>
    obtain ⟨-, rfl⟩ := List.cons.inj (closes.symm.trans same)
    rfl
  next other => exact absurd closes (other _)

theorem run_braced (noEnd : (skipSpace text).val.head? ≠ some '\x7d') :
    Parser.run (braced item) text = Parser.run (bindings item) text := by
  rw [Parser.run, Parser.run, braced]
  split
  next more same => exact absurd (congrArg List.head? same) noEnd
  next => rfl

end

/-! ### Beginnings -/

/-- A value may begin with this character. -/
def Starts (c : Char) : Prop := c = '[' ∨ c = '\x7b' ∨ IsQuote c ∨ isWordChar c = true

/-- What is neither space, nor a comment, nor the end of a list or a table begins a value. -/
theorem Starts.solid {c : Char} (starts : Starts c) :
    isSpace c = false ∧ c ≠ '\n' ∧ c ≠ '\r' ∧ c ≠ '#' ∧ c ≠ ']' ∧ c ≠ '\x7d' := by
  rcases starts with rfl | rfl | (rfl | rfl) | word
  · decide
  · decide
  · decide
  · decide
  · refine ⟨?_, ?_, ?_, ?_, ?_, ?_⟩
    · cases space : isSpace c with
      | false => rfl
      | true => rcases isSpace_iff.mp space with rfl | rfl <;> exact absurd word (by decide)
    all_goals
      rintro rfl
      exact absurd word (by decide)

theorem Starts.begins {c : Char} (starts : Starts c) (text : List Char) : Begins (c :: text) := by
  rintro d ⟨⟩
  obtain ⟨noSpace, noFeed, noCarriage, noComment, -⟩ := starts.solid
  exact ⟨noSpace, noFeed, noCarriage, noComment⟩

theorem Quoted.starts {chars : List Char} (quoted : Quoted chars text) :
    ∃ c more, text = c :: more ∧ IsQuote c := by
  cases quoted with
  | line quote => exact ⟨_, _, rfl, quote⟩
  | lines quote => exact ⟨_, _, rfl, quote⟩

theorem Spells.starts {depth : Nat} {item : Item} (spells : Spells (.value depth item) text) :
    ∃ c more, text = c :: more ∧ Starts c := by
  cases spells with
  | text quoted =>
    obtain ⟨c, more, rfl, quote⟩ := quoted.starts
    exact ⟨c, more, rfl, .inr (.inr (.inl quote))⟩
  | word some_ inside =>
    match text, some_ with
    | c :: more, _ => exact ⟨c, more, rfl, .inr (.inr (.inr (inside c List.mem_cons_self)))⟩
  | @moment _ date time inside isDate_ =>
    match date, isDate_ with
    | c :: date, _ => exact ⟨c, _, rfl, .inr (.inr (.inr (inside c (by simp))))⟩
  | array => exact ⟨_, _, rfl, .inl rfl⟩
  | emptyTable | table => exact ⟨_, _, rfl, .inr (.inl rfl)⟩

theorem isWordChar_of_bare {c : Char} (bare : isBareKeyChar c = true) : isWordChar c = true := by
  simp only [isBareKeyChar, Bool.or_eq_true] at bare
  rcases bare with (bare | bare) | bare <;> simp [isWordChar, bare]

/-- A key does not begin with a bracket. -/
theorem ne_bracket {c : Char} (starts : IsQuote c ∨ isWordChar c = true) : c ≠ '[' := by
  rintro rfl
  exact absurd starts (by decide)

/-- A key begins behind its space, with a quote or a character of a bare key. -/
theorem Dotted.starts {path : List Key} {last : Key} (dotted : Dotted path last text) :
    ∃ before c more, text = before ++ c :: more ∧ Space before ∧ Dotted path last (c :: more) ∧
      (IsQuote c ∨ isWordChar c = true) := by
  have start {name : String} {core : List Char} (names : Names name core) :
      ∃ c more, core = c :: more ∧ (IsQuote c ∨ isWordChar c = true) := by
    cases names with
    | bare some_ inside =>
      match core, some_ with
      | c :: more, _ =>
        exact ⟨c, more, rfl, .inr (isWordChar_of_bare (inside c List.mem_cons_self))⟩
    | quoted quote => exact ⟨_, _, rfl, .inl quote⟩
  cases dotted with
  | last before names after =>
    obtain ⟨c, more, rfl, starts⟩ := start names
    exact ⟨_, c, _, rfl, before, .last .nil names after, starts⟩
  | next before names after dotted =>
    obtain ⟨c, more, rfl, starts⟩ := start names
    exact ⟨_, c, _, rfl, before, .next .nil names after dotted, starts⟩

theorem Spells.binding_starts {depth : Nat} {found : Binding}
    (spells : Spells (.binding depth found) text) :
    ∃ before c more, text = before ++ c :: more ∧ Space before ∧
      Spells (.binding depth found) (c :: more) ∧ (IsQuote c ∨ isWordChar c = true) := by
  cases spells with
  | binding keys short space spells =>
    obtain ⟨before, c, more, rfl, blank, keys, starts⟩ := keys.starts
    exact ⟨before, c, _, List.append_assoc before _ _, blank, .binding keys short space spells,
      starts⟩

theorem Spells.bindings_starts {depth : Nat} {found : List Binding}
    (spells : Spells (.bindings depth found) text) :
    ∃ before c more, text = before ++ c :: more ∧ Space before ∧
      (IsQuote c ∨ isWordChar c = true) := by
  cases spells with
  | lastBinding first | nextBinding first =>
    obtain ⟨before, c, more, rfl, blank, -, starts⟩ := first.binding_starts
    exact ⟨before, c, _, List.append_assoc before _ _, blank, starts⟩

/-! ### All values -/

/-- The part of a document is read, whatever follows it. -/
def Reads : Phrase → List Char → Prop
  | .value depth item, text => ∀ rest, Ends rest →
    ∃ item', Parser.run (value depth) (text ++ rest) = some (item', rest) ∧ item'.bare = item
  | .binding depth found, text => ∀ rest, Ends rest →
    ∃ found', Parser.run (binding (value depth)) (text ++ rest) = some (found', rest) ∧
      found'.bare = found
  | .elements depth items, text => ∀ rest,
    ∃ items', Parser.run (elements (value depth)) (text ++ rest) = some (items', rest) ∧
      items'.map Item.bare = items
  | .bindings depth found, text => ∀ rest,
    ∃ found', Parser.run (bindings (value depth)) (text ++ rest) = some (found', rest) ∧
      found'.map Binding.bare = found

/-- Whatever the grammar writes is read as what it is written for. -/
theorem Spells.reads {phrase : Phrase} (spells : Spells phrase text) : Reads phrase text := by
  -- A part is followed by the rest of what it is in, so the induction is over every rest.
  induction spells with
  | @text depth chars text quoted =>
    intro rest ends
    obtain ⟨c, more, rfl, quote⟩ := quoted.starts
    exact ⟨_, run_value_quoted quote depth (quoted.run_string ends.not_quote), rfl⟩
  | @word depth letters value some_ inside known =>
    intro rest ends
    match letters, some_ with
    | c :: letters, some_ =>
      have isWord := inside c List.mem_cons_self
      exact ⟨_, run_value_word isWord depth (run_word some_ inside known ends), rfl⟩
  | @moment depth date time inside isDate_ isTime =>
    intro rest ends
    match date, isDate_ with
    | c :: date, isDate_ =>
      have isWord := inside c (by simp)
      rw [List.append_assoc]
      exact ⟨_, run_value_word isWord depth (run_word_moment inside isDate_ isTime ends), rfl⟩
  | @array depth items text spells ih =>
    intro rest ends
    obtain ⟨items', read, same⟩ := ih rest
    refine ⟨_, run_value_array read, ?_⟩
    rw [Item.bare, Item.bareElements_eq_map, same]
  | @emptyTable depth space blank =>
    intro rest ends
    have closes := val_skipSpace_cons blank (show isSpace '\x7d' = false from rfl) rest
    rw [List.cons_append, List.append_assoc]
    exact ⟨_, run_value_table (run_braced_nil closes) rfl, rfl⟩
  | @table depth found item text spells made ih =>
    intro rest ends
    obtain ⟨found', read, rfl⟩ := ih rest
    obtain ⟨item', made', same⟩ := Option.map_eq_some_iff.mp
      ((inlineTable_bare ⟨'\x7b' :: (text ++ rest), rest⟩ found').trans made)
    have noEnd : (skipSpace (text ++ rest)).val.head? ≠ some '\x7d' := by
      obtain ⟨before, c, more, rfl, blank, starts⟩ := spells.bindings_starts
      have solid := Starts.solid (.inr (.inr starts))
      rw [List.append_assoc, List.cons_append, val_skipSpace_cons blank solid.1]
      simpa using solid.2.2.2.2.2
    exact ⟨item', run_value_table ((run_braced noEnd).trans read) made', same⟩
  | @noElements depth trivia blank =>
    intro rest
    have closes : (skipTrivia (trivia ++ ']' :: rest)).val = ']' :: rest :=
      blank.skipTrivia (by rintro c ⟨⟩; decide)
    rw [List.append_assoc]
    exact ⟨[], run_elements_nil closes, rfl⟩
  | @lastElement depth item before text after blank spells blank' ih =>
    intro rest
    obtain ⟨c, start, rfl, starts⟩ := spells.starts
    obtain ⟨item', read, same⟩ := ih (after ++ ']' :: rest) (blank'.ends (.inr rfl) rest)
    have begins := blank.skipTrivia (starts.begins (start ++ (after ++ ']' :: rest)))
    have closes : (skipTrivia (after ++ ']' :: rest)).val = ']' :: rest :=
      blank'.skipTrivia (by rintro c ⟨⟩; decide)
    refine ⟨[item'], ?_, by rw [List.map_singleton, same]⟩
    simp only [List.append_assoc, List.cons_append, List.nil_append] at read ⊢
    exact run_elements_last begins starts.solid.2.2.2.2.1 read closes
  | @element depth item items before text after more blank spells blank' others ih ihOthers =>
    intro rest
    obtain ⟨c, start, rfl, starts⟩ := spells.starts
    obtain ⟨item', read, same⟩ :=
      ih (after ++ ',' :: (more ++ rest)) (blank'.ends (.inl rfl) (more ++ rest))
    obtain ⟨items', found, sames⟩ := ihOthers rest
    have begins := blank.skipTrivia (starts.begins (start ++ (after ++ ',' :: (more ++ rest))))
    have comma : (skipTrivia (after ++ ',' :: (more ++ rest))).val = ',' :: (more ++ rest) :=
      blank'.skipTrivia (by rintro c ⟨⟩; decide)
    refine ⟨item' :: items', ?_, by rw [List.map_cons, same, sames]⟩
    simp only [List.append_assoc, List.cons_append] at read ⊢
    exact run_elements_next begins starts.solid.2.2.2.2.1 read comma found
  | @lastBinding depth found text after spells blank ih =>
    intro rest
    obtain ⟨found', read, same⟩ := ih (after ++ '\x7d' :: rest) (blank.ends (by simp) rest)
    have closes := val_skipSpace_cons blank (show isSpace '\x7d' = false from rfl) rest
    refine ⟨[found'], ?_, by rw [List.map_singleton, same]⟩
    simp only [List.append_assoc, List.cons_append, List.nil_append]
    exact run_bindings_last read closes
  | @nextBinding depth found others text after more spells blank further ih ihOthers =>
    intro rest
    obtain ⟨found', read, same⟩ :=
      ih (after ++ ',' :: (more ++ rest)) (blank.ends (.inl rfl) (more ++ rest))
    obtain ⟨others', reads, sames⟩ := ihOthers rest
    have comma := val_skipSpace_cons blank (show isSpace ',' = false from rfl) (more ++ rest)
    refine ⟨found' :: others', ?_, by rw [List.map_cons, same, sames]⟩
    simp only [List.append_assoc, List.cons_append]
    exact run_bindings_next read comma reads
  | @binding depth path last item key space text keys short blank spells ih =>
    intro rest ends
    obtain ⟨c, start, rfl, starts⟩ := spells.starts
    obtain ⟨path', last', read, rfl, rfl⟩ :=
      keys.run_dottedKey (.inl rfl) (space ++ c :: (start ++ rest))
    obtain ⟨item', found, rfl⟩ := ih rest ends
    have skipped := val_skipSpace_cons blank starts.solid.1 (start ++ rest)
    rw [List.cons_append, ← skipped] at found
    refine ⟨⟨path', last', item'⟩, ?_, rfl⟩
    simp only [List.append_assoc, List.cons_append]
    exact run_binding read (by simpa using short) found

end DeployGate.Toml
