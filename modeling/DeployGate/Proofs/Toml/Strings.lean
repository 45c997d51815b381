import DeployGate.Proofs.Toml.Grammar

/-!
# Strings and keys are read

However a string is quoted and a key is written, it is read as what it stands for.

## Main results

`Quoted.run_string`, `Dotted.run_dottedKey`.
-/

namespace DeployGate.Toml

variable {α β : Type} {text rest : List Char}

/-! ### Runs of parsers -/

@[simp]
theorem value_map (f : α → β) (found : Found α text) : (found.map f).value = f found.value := rfl

@[simp]
theorem value_later {c : Char} (found : Found α text) :
    (found.later (c := c)).value = found.value :=
  rfl

@[simp]
theorem value_widen {whole : List Char} (found : Found α text)
    (shorter : text.length ≤ whole.length) : (found.widen shorter).value = found.value :=
  rfl

@[simp]
theorem value_past {whole : List Char} (found : Found α text)
    (shorter : text.length < whole.length) : (found.past shorter).value = found.value :=
  rfl

/-- What a parser finds, and what is left of the text. -/
def Parser.run (parser : Parser α) (text : List Char) : Option (α × List Char) :=
  (parser text).map fun found => (found.value, found.rest)

theorem found_of_run {parser : Parser α} {value : α} (ran : parser.run text = some (value, rest)) :
    ∃ shorter, parser text = some ⟨value, rest, shorter⟩ := by
  obtain ⟨⟨value, rest, shorter⟩, found, same⟩ := Option.map_eq_some_iff.mp ran
  cases same
  exact ⟨shorter, found⟩

/-! ### Space -/

theorem Space.nil : Space [] := by simp [Space]

theorem isSpace_iff {c : Char} : isSpace c = true ↔ c = ' ' ∨ c = '\t' := by simp [isSpace]

theorem dropWhile_exact {test : α → Bool} {front rest : List α}
    (inside : ∀ a ∈ front, test a = true)
    (stops : ∀ a, rest.head? = some a → test a = false) :
    (front ++ rest).dropWhile test = rest := by
  rw [List.dropWhile_append_of_pos inside]
  cases rest with
  | nil => rfl
  | cons a rest => rw [List.dropWhile_cons_of_neg (by simp [stops a rfl])]

theorem takeWhile_exact {test : α → Bool} {front rest : List α}
    (inside : ∀ a ∈ front, test a = true)
    (stops : ∀ a, rest.head? = some a → test a = false) :
    (front ++ rest).takeWhile test = front := by
  rw [List.takeWhile_append_of_pos inside]
  cases rest with
  | nil => rw [List.takeWhile_nil, List.append_nil]
  | cons a rest => rw [List.takeWhile_cons_of_neg (by simp [stops a rfl]), List.append_nil]

theorem val_skipSpace {space : List Char} (blank : Space space)
    (stops : ∀ c, rest.head? = some c → isSpace c = false) :
    (skipSpace (space ++ rest)).val = rest :=
  dropWhile_exact blank stops

theorem val_skipSpace_cons {space : List Char} (blank : Space space) {c : Char}
    (solid : isSpace c = false) (rest : List Char) :
    (skipSpace (space ++ c :: rest)).val = c :: rest := by
  apply val_skipSpace blank
  rintro d ⟨⟩
  exact solid

theorem run_newline {lineBreak : List Char} (ends : Break lineBreak) (rest : List Char) :
    Parser.run newline (lineBreak ++ rest) = some ((), rest) := by
  cases ends <;> rfl

/-! ### Escapes -/

theorem hexEscape_append {digits : List Char} {c : Char} {count : Nat}
    (length : digits.length = count) (hex : digits.all isHexDigit = true)
    (point : scalarValue? (digitsValue 16 digits) = some c) (rest : List Char) :
    (hexEscape count (digits ++ rest)).map (fun found => (found.1, found.2.val))
      = some (c, rest) := by
  subst length
  simp [hexEscape, hex, point]

theorem run_escape {c : Char} {escaped : List Char} (stands : Escaped c escaped)
    (rest : List Char) : Parser.run escape (escaped ++ rest) = some (c, rest) := by
  cases stands with
  | short length hex point | long length hex point =>
    have read := hexEscape_append length hex point rest
    obtain ⟨⟨_, _, le⟩, found, same⟩ := Option.map_eq_some_iff.mp read
    simp only [Prod.mk.injEq] at same
    obtain ⟨rfl, rfl⟩ := same
    simp [Parser.run, escape, found]
  | _ => rfl

/-! ### One line -/

theorem run_basicString {chars : List Char} (line : Line '"' chars text) (rest : List Char) :
    Parser.run basicString (text ++ rest) = some (chars, rest) := by
  induction line with
  | close =>
    rw [Parser.run, List.singleton_append, basicString]
    rfl
  | plain itself line ih =>
    obtain ⟨plain, noQuote, noEscape⟩ := itself
    obtain ⟨shorter, found⟩ := found_of_run ih
    rw [List.cons_append, Parser.run, basicString, if_pos plain, found]
    · rfl
    · exact noQuote
    · exact noEscape rfl
  | escape _ stands line ih =>
    obtain ⟨shorter, found⟩ := found_of_run ih
    obtain ⟨shorter', found'⟩ := found_of_run (run_escape stands _)
    rw [List.cons_append, List.append_assoc, Parser.run, basicString, found']
    simp [found]

theorem run_literalString {chars : List Char} (line : Line '\'' chars text) (rest : List Char) :
    Parser.run literalString (text ++ rest) = some (chars, rest) := by
  induction line with
  | close => rfl
  | plain itself line ih =>
    obtain ⟨plain, noQuote, -⟩ := itself
    obtain ⟨shorter, found⟩ := found_of_run ih
    rw [List.cons_append, Parser.run, literalString, if_pos plain, found]
    · rfl
    · exact noQuote
  | escape double => exact absurd double (by decide)

/-! ### Several lines -/

theorem run_closingQuotes {quote : Char} {chars : List Char} (closes : Closing quote chars text)
    (stops : rest.head? ≠ some quote) :
    Parser.run (closingQuotes quote) (text ++ rest) = some (chars, rest) := by
  cases closes with
  | three =>
    match rest, stops with
    | [], _ => simp [Parser.run, closingQuotes]
    | [c], stops =>
      have other : c ≠ quote := by simpa using stops
      simp [Parser.run, closingQuotes, other]
    | c :: d :: rest, stops =>
      have other : c ≠ quote := by simpa using stops
      simp [Parser.run, closingQuotes, other]
  | four =>
    match rest, stops with
    | [], _ => simp [Parser.run, closingQuotes]
    | c :: rest, stops =>
      have other : c ≠ quote := by simpa using stops
      simp [Parser.run, closingQuotes, other]
  | five => simp [Parser.run, closingQuotes]

theorem closingQuotes_eq_none {quote : Char} (goes : ¬ [quote, quote, quote] <+: text) :
    closingQuotes quote text = none := by
  unfold closingQuotes
  split
  next a b c rest =>
    split
    next closed =>
      obtain ⟨rfl, rfl, rfl⟩ := closed
      exact absurd (List.prefix_append [_, _, _] rest) goes
    next => rfl
  next => rfl

theorem newline_eq_none {c : Char} (noFeed : c ≠ '\n') (noCarriage : c ≠ '\r')
    (text : List Char) : newline (c :: text) = none := by
  rw [newline]
  · simp [noFeed]
  · simp [noCarriage]

theorem newline_plain {c : Char} (plain : isPlain c = true) (text : List Char) :
    newline (c :: text) = none := by
  apply newline_eq_none
  · rintro rfl
    exact absurd plain (by decide)
  · rintro rfl
    exact absurd plain (by decide)

theorem Gap.dropFolded {gap : List Char} (blank : Gap gap) (solid : Solid text) :
    (lineFold.dropFolded (gap ++ text)).val = text := by
  induction blank with
  | nil =>
    match text with
    | [] => rfl
    | c :: text =>
      obtain ⟨noSpace, noFeed, noCarriage⟩ := solid c rfl
      rw [List.nil_append, lineFold.dropFolded, if_neg (by simp [noSpace, noFeed])]
      · rfl
      · simp [noCarriage]
  | @space c gap space blank ih =>
    have noCarriage : c ≠ '\r' := by
      rintro rfl
      exact absurd space (by decide)
    rw [List.cons_append, lineFold.dropFolded, if_pos (by simp [space])]
    · exact ih
    · simp [noCarriage]
  | line ends blank ih =>
    cases ends with
    | feed =>
      rw [List.append_assoc, List.singleton_append, lineFold.dropFolded]
      · exact ih
      · simp
    | carriage => exact ih

theorem run_lineFold {space lineBreak gap : List Char} (inside : Space space)
    (ends : Break lineBreak) (blank : Gap gap) (solid : Solid text) :
    Parser.run lineFold (space ++ (lineBreak ++ (gap ++ text))) = some ((), text) := by
  have skipped : (skipSpace (space ++ (lineBreak ++ (gap ++ text)))).val
      = lineBreak ++ (gap ++ text) := by
    apply val_skipSpace inside
    cases ends <;> simp [isSpace]
  have found := run_newline ends (gap ++ text)
  rw [← skipped] at found
  obtain ⟨shorter, found⟩ := found_of_run found
  simp [Parser.run, lineFold, found, blank.dropFolded solid]

/-- What an escape begins with is no end of a line. -/
theorem lineFold_escaped {c : Char} {escaped : List Char} (stands : Escaped c escaped)
    (rest : List Char) : lineFold (escaped ++ rest) = none := by
  cases stands <;> rfl

theorem Lines.ne_nil {quote : Char} {chars : List Char} (lines : Lines quote chars text) :
    text ≠ [] := by
  cases lines with
  | close closes => cases closes <;> simp
  | line ends => cases ends <;> simp
  | _ => simp

theorem Lines.head?_append {quote : Char} {chars : List Char} (lines : Lines quote chars text)
    (rest : List Char) : (text ++ rest).head? = text.head? := by
  cases text with
  | nil => exact absurd rfl lines.ne_nil
  | cons => rfl

section

variable {chars : List Char}

theorem run_basicLines_close (found : Parser.run (closingQuotes '"') text = some (chars, rest)) :
    Parser.run basicLines text = some (chars, rest) := by
  obtain ⟨shorter, found⟩ := found_of_run found
  rw [Parser.run, basicLines.eq_def, found]
  rfl

theorem run_basicLines_plain {c : Char} (goes : ¬ ['"', '"', '"'] <+: c :: text)
    (plain : isPlain c = true) (noEscape : c ≠ '\\')
    (found : Parser.run basicLines text = some (chars, rest)) :
    Parser.run basicLines (c :: text) = some (c :: chars, rest) := by
  obtain ⟨shorter, found⟩ := found_of_run found
  rw [Parser.run, basicLines, closingQuotes_eq_none goes]
  · simp [newline_plain plain, plain, found]
  · exact noEscape

/-- A character that does not begin three quotes. -/
theorem not_quotes_of_ne {quote c : Char} (other : c ≠ quote) :
    ¬ [quote, quote, quote] <+: c :: text := by
  rw [List.cons_prefix_cons]
  exact fun quotes => other quotes.1.symm

theorem not_quotes_of_head {quote : Char} (stops : text.head? ≠ some quote) :
    ¬ [quote, quote, quote] <+: quote :: quote :: text := by
  rw [List.prefix_cons_inj, List.prefix_cons_inj]
  rintro ⟨more, rfl⟩
  exact stops rfl

theorem not_quotes_of_head_one {quote : Char} (stops : text.head? ≠ some quote) :
    ¬ [quote, quote, quote] <+: quote :: text := by
  rw [List.prefix_cons_inj]
  rintro ⟨more, rfl⟩
  exact stops rfl

theorem run_basicLines_line {c : Char} {tail : List Char} (goes : ¬ ['"', '"', '"'] <+: c :: tail)
    (noEscape : c ≠ '\\') (breaks : Parser.run newline (c :: tail) = some ((), text))
    (found : Parser.run basicLines text = some (chars, rest)) :
    Parser.run basicLines (c :: tail) = some ('\n' :: chars, rest) := by
  obtain ⟨shorter, found⟩ := found_of_run found
  obtain ⟨shorter', breaks⟩ := found_of_run breaks
  rw [Parser.run, basicLines, closingQuotes_eq_none goes]
  · simp [breaks, found]
  · exact noEscape

theorem run_basicLines_escape {c : Char} {escaped : List Char} (stands : Escaped c escaped)
    (found : Parser.run basicLines text = some (chars, rest)) :
    Parser.run basicLines ('\\' :: (escaped ++ text)) = some (c :: chars, rest) := by
  obtain ⟨shorter, found⟩ := found_of_run found
  obtain ⟨shorter', found'⟩ := found_of_run (run_escape stands text)
  rw [Parser.run, basicLines, closingQuotes_eq_none (not_quotes_of_ne (by decide))]
  simp [lineFold_escaped stands, found', found]

theorem run_basicLines_join {joined : List Char}
    (joins : Parser.run lineFold joined = some ((), text))
    (found : Parser.run basicLines text = some (chars, rest)) :
    Parser.run basicLines ('\\' :: joined) = some (chars, rest) := by
  obtain ⟨shorter, found⟩ := found_of_run found
  obtain ⟨shorter', found'⟩ := found_of_run joins
  rw [Parser.run, basicLines, closingQuotes_eq_none (not_quotes_of_ne (by decide))]
  simp [found', found]

theorem run_basicLines (lines : Lines '"' chars text) (stops : rest.head? ≠ some '"') :
    Parser.run basicLines (text ++ rest) = some (chars, rest) := by
  induction lines with
  | close closes => exact run_basicLines_close (run_closingQuotes closes stops)
  | plain itself lines ih =>
    obtain ⟨plain, noQuote, noEscape⟩ := itself
    exact run_basicLines_plain (not_quotes_of_ne noQuote) plain (noEscape rfl) ih
  | one single lines ih =>
    rw [← lines.head?_append rest] at single
    exact run_basicLines_plain (not_quotes_of_head_one single) (by decide) (by decide) ih
  | two double lines ih =>
    rw [← lines.head?_append rest] at double
    apply run_basicLines_plain (not_quotes_of_head double) (by decide) (by decide)
    exact run_basicLines_plain (not_quotes_of_head_one double) (by decide) (by decide) ih
  | line ends lines ih =>
    cases ends with
    | feed | carriage => exact run_basicLines_line (not_quotes_of_ne (by decide)) (by decide) rfl ih
  | escape _ stands lines ih =>
    rw [List.cons_append, List.append_assoc]
    exact run_basicLines_escape stands ih
  | join _ inside ends blank solid lines ih =>
    rw [List.cons_append, List.append_assoc, List.append_assoc, List.append_assoc]
    apply run_basicLines_join (run_lineFold inside ends blank _) ih
    intro c first
    exact solid c (lines.head?_append rest ▸ first)

theorem run_literalLines_close
    (found : Parser.run (closingQuotes '\'') text = some (chars, rest)) :
    Parser.run literalLines text = some (chars, rest) := by
  obtain ⟨shorter, found⟩ := found_of_run found
  rw [Parser.run, literalLines.eq_def, found]
  rfl

theorem run_literalLines_plain {c : Char} (goes : ¬ ['\'', '\'', '\''] <+: c :: text)
    (plain : isPlain c = true) (found : Parser.run literalLines text = some (chars, rest)) :
    Parser.run literalLines (c :: text) = some (c :: chars, rest) := by
  obtain ⟨shorter, found⟩ := found_of_run found
  rw [Parser.run, literalLines, closingQuotes_eq_none goes]
  simp [newline_plain plain, plain, found]

theorem run_literalLines_line {c : Char} {tail : List Char}
    (goes : ¬ ['\'', '\'', '\''] <+: c :: tail)
    (breaks : Parser.run newline (c :: tail) = some ((), text))
    (found : Parser.run literalLines text = some (chars, rest)) :
    Parser.run literalLines (c :: tail) = some ('\n' :: chars, rest) := by
  obtain ⟨shorter, found⟩ := found_of_run found
  obtain ⟨shorter', breaks⟩ := found_of_run breaks
  rw [Parser.run, literalLines, closingQuotes_eq_none goes]
  simp [breaks, found]

theorem run_literalLines (lines : Lines '\'' chars text) (stops : rest.head? ≠ some '\'') :
    Parser.run literalLines (text ++ rest) = some (chars, rest) := by
  induction lines with
  | close closes => exact run_literalLines_close (run_closingQuotes closes stops)
  | plain itself lines ih =>
    exact run_literalLines_plain (not_quotes_of_ne itself.2.1) itself.1 ih
  | one single lines ih =>
    rw [← lines.head?_append rest] at single
    exact run_literalLines_plain (not_quotes_of_head_one single) (by decide) ih
  | two double lines ih =>
    rw [← lines.head?_append rest] at double
    apply run_literalLines_plain (not_quotes_of_head double) (by decide)
    exact run_literalLines_plain (not_quotes_of_head_one double) (by decide) ih
  | line ends lines ih =>
    cases ends with
    | feed | carriage => exact run_literalLines_line (not_quotes_of_ne (by decide)) rfl ih
  | escape double | join double => exact absurd double (by decide)

end

/-! ### Strings -/

/-- What stands after the opening quotes does not begin with the line break that is dropped. -/
theorem Opening.dropNewline {body : List Char} (opens : Opening body text) (rest : List Char)
    (more : body ≠ []) : (dropNewline (text ++ rest)).val = body ++ rest := by
  cases opens with
  | here solid =>
    match text, more with
    | c :: text, _ =>
      obtain ⟨noFeed, noCarriage⟩ := solid c rfl
      rw [List.cons_append, Toml.dropNewline, newline_eq_none noFeed noCarriage]
      rfl
  | next ends => cases ends <;> rfl

/-- A string on one line is not taken for one on several lines. -/
theorem Line.not_quotes {quote : Char} {chars : List Char} (line : Line quote chars text)
    (stops : rest.head? ≠ some quote) : ¬ [quote, quote] <+: text ++ rest := by
  cases line with
  | close =>
    rw [List.singleton_append, List.prefix_cons_inj]
    rintro ⟨more, rfl⟩
    exact stops rfl
  | plain itself =>
    rw [List.cons_append, List.cons_prefix_cons]
    exact fun quotes => itself.2.1 quotes.1.symm
  | escape double =>
    subst double
    rw [List.cons_append, List.cons_prefix_cons]
    exact fun quotes => absurd quotes.1 (by decide)

/-- However a string is quoted, it is read as the text that it stands for. -/
theorem Quoted.run_string {chars : List Char} (quoted : Quoted chars text)
    (stops : ∀ quote, IsQuote quote → rest.head? ≠ some quote) :
    Parser.run string (text ++ rest) = some (String.ofList chars, rest) := by
  cases quoted with
  | line quote line =>
    have single := line.not_quotes (stops _ quote)
    rcases quote with rfl | rfl
    · obtain ⟨shorter, found⟩ := found_of_run (run_basicString line rest)
      rw [List.cons_append, Parser.run, string]
      · simp [found]
      · intro more same
        rw [same] at single
        exact single (List.prefix_append _ more)
    · obtain ⟨shorter, found⟩ := found_of_run (run_literalString line rest)
      rw [List.cons_append, Parser.run, string]
      · simp [found]
      · intro more same
        rw [same] at single
        exact single (List.prefix_append _ more)
  | lines quote lines opens =>
    have body := opens.dropNewline rest lines.ne_nil
    rcases quote with rfl | rfl
    · have found := run_basicLines lines (stops _ (.inl rfl))
      rw [← body] at found
      obtain ⟨shorter, found⟩ := found_of_run found
      simp [Parser.run, string, found]
    · have found := run_literalLines lines (stops _ (.inr rfl))
      rw [← body] at found
      obtain ⟨shorter, found⟩ := found_of_run found
      simp [Parser.run, string, found]

/-! ### Keys -/

theorem run_simpleKey_bare {name : List Char} (some_ : name ≠ [])
    (inside : ∀ c ∈ name, isBareKeyChar c = true)
    (stops : ∀ c, rest.head? = some c → isBareKeyChar c = false) :
    Parser.run simpleKey (name ++ rest)
      = some (⟨String.ofList name, ⟨name ++ rest, rest⟩⟩, rest) := by
  match name, some_ with
  | c :: name, _ =>
    obtain ⟨first, others⟩ := List.forall_mem_cons.mp inside
    have noDouble : c ≠ '"' := by
      rintro rfl
      exact absurd first (by decide)
    have noSingle : c ≠ '\'' := by
      rintro rfl
      exact absurd first (by decide)
    rw [List.cons_append, Parser.run, simpleKey.eq_def]
    simp [first, takeWhile_exact others stops, dropWhile_exact others stops]

/-- A key is read by its name. -/
theorem Names.run_simpleKey {name : String} (names : Names name text)
    (stops : ∀ c, rest.head? = some c → isBareKeyChar c = false) :
    ∃ key, Parser.run simpleKey (text ++ rest) = some (key, rest) ∧ key.bare = ⟨name, .blank⟩ := by
  cases names with
  | bare some_ inside => exact ⟨_, run_simpleKey_bare some_ inside stops, rfl⟩
  | @quoted quote name text isQuote line =>
    refine ⟨⟨String.ofList name, ⟨quote :: (text ++ rest), rest⟩⟩, ?_, rfl⟩
    rcases isQuote with rfl | rfl
    · obtain ⟨shorter, found⟩ := found_of_run (run_basicString line rest)
      simp [Parser.run, simpleKey, found]
    · obtain ⟨shorter, found⟩ := found_of_run (run_literalString line rest)
      simp [Parser.run, simpleKey, found]

theorem run_dottedKey_last {key : Key} {after : List Char}
    (read : Parser.run simpleKey (skipSpace text).val = some (key, after))
    (stops : (skipSpace after).val.head? ≠ some '.') :
    Parser.run dottedKey text = some (([], key), (skipSpace after).val) := by
  obtain ⟨shorter, found⟩ := found_of_run read
  rw [Parser.run, dottedKey, found]
  dsimp only
  split
  next more dot => simp [dot] at stops
  next => rfl

theorem run_dottedKey_next {key last : Key} {path : List Key} {after more : List Char}
    (read : Parser.run simpleKey (skipSpace text).val = some (key, after))
    (dot : (skipSpace after).val = '.' :: more)
    (found : Parser.run dottedKey more = some ((path, last), rest)) :
    Parser.run dottedKey text = some ((key :: path, last), rest) := by
  obtain ⟨shorter, read⟩ := found_of_run read
  obtain ⟨shorter', found⟩ := found_of_run found
  rw [Parser.run, dottedKey, read]
  dsimp only
  split
  next more' dot' =>
    obtain ⟨-, rfl⟩ := List.cons.inj (dot.symm.trans dot')
    simp [found]
  next other => exact absurd dot (other _)

theorem not_bare_of_space {c : Char} (space : isSpace c = true) : isBareKeyChar c = false := by
  rcases isSpace_iff.mp space with rfl | rfl <;> rfl

/-- A key begins where it is read. -/
theorem Names.not_space {name : String} (names : Names name text) (rest : List Char) (c : Char)
    (first : (text ++ rest).head? = some c) : isSpace c = false := by
  cases names with
  | bare some_ inside =>
    match text, some_ with
    | d :: text, _ =>
      obtain rfl : d = c := by simpa using first
      cases space : isSpace d with
      | false => rfl
      | true =>
        have bare := inside d List.mem_cons_self
        rw [not_bare_of_space space] at bare
        cases bare
  | quoted isQuote =>
    obtain rfl := Option.some.inj first
    rcases isQuote with rfl | rfl <;> rfl

theorem Space.not_bare {space : List Char} (inside : Space space)
    (stops : ∀ c, rest.head? = some c → isBareKeyChar c = false) (c : Char)
    (first : (space ++ rest).head? = some c) : isBareKeyChar c = false := by
  cases space with
  | nil => exact stops c first
  | cons d space =>
    obtain rfl : d = c := by simpa using first
    exact not_bare_of_space (inside d List.mem_cons_self)

/-- Keys with dots are read by their names, if an equals sign or a closing bracket follows. -/
theorem Dotted.run_dottedKey {path : List Key} {last : Key} (dotted : Dotted path last text)
    {c : Char} (stops : c = '=' ∨ c = ']') (rest : List Char) :
    ∃ path' last', Parser.run dottedKey (text ++ c :: rest) = some ((path', last'), c :: rest) ∧
      path'.map Key.bare = path ∧ last'.bare = last := by
  induction dotted with
  | @last name before text after blank names blank' =>
    have noBare : ∀ d, (c :: rest).head? = some d → isBareKeyChar d = false := by
      rintro d ⟨⟩
      rcases stops with rfl | rfl <;> rfl
    have noSpace : isSpace c = false := by rcases stops with rfl | rfl <;> rfl
    obtain ⟨key, read, same⟩ := names.run_simpleKey (blank'.not_bare noBare)
    have skipped := val_skipSpace blank (names.not_space (after ++ c :: rest))
    have skipped' := val_skipSpace_cons blank' noSpace rest
    rw [← skipped] at read
    have found := run_dottedKey_last read (by
      rw [skipped']
      rcases stops with rfl | rfl <;> simp)
    rw [skipped'] at found
    simp only [List.append_assoc]
    exact ⟨[], key, found, rfl, same⟩
  | @next name path last before text after more blank names blank' dotted ih =>
    have noBare : ∀ d, ('.' :: (more ++ c :: rest)).head? = some d → isBareKeyChar d = false := by
      rintro d ⟨⟩
      rfl
    obtain ⟨key, read, same⟩ := names.run_simpleKey (blank'.not_bare noBare)
    have skipped := val_skipSpace blank (names.not_space (after ++ '.' :: (more ++ c :: rest)))
    have skipped' :=
      val_skipSpace_cons blank' (show isSpace '.' = false from rfl) (more ++ c :: rest)
    rw [← skipped] at read
    obtain ⟨path', last', found, samePath, sameLast⟩ := ih
    have found := run_dottedKey_next read skipped' found
    simp only [List.append_assoc, List.cons_append]
    exact ⟨key :: path', last', found, by rw [List.map_cons, same, samePath], sameLast⟩

end DeployGate.Toml
