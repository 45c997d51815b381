import DeployGate.Proofs.Toml.Documents

/-!
# Strings and keys that are read

Whatever the parsers of strings and keys take from the front of a text is written by the grammar for
what they give.

## Main results

`Quoted.of_string`, `Dotted.of_dottedKey`.
-/

namespace DeployGate.Toml

variable {α β : Type} {text rest : List Char}

theorem run_of_found {parser : Parser α} {value : α} {shorter : rest.length < text.length}
    (read : parser text = some ⟨value, rest, shorter⟩) : parser.run text = some (value, rest) := by
  rw [Parser.run, read]
  rfl

/-! ### Space -/

theorem exists_space (text : List Char) :
    ∃ space, text = space ++ (skipSpace text).val ∧ Space space := by
  refine ⟨text.takeWhile isSpace, List.takeWhile_append_dropWhile.symm, ?_⟩
  exact List.all_eq_true.mp List.all_takeWhile

theorem Break.of_newline (read : Parser.run newline text = some ((), rest)) :
    ∃ lineBreak, text = lineBreak ++ rest ∧ Break lineBreak := by
  unfold Parser.run newline at read
  split at read
  next tail =>
    cases read
    exact ⟨['\n'], rfl, .feed⟩
  next tail =>
    cases read
    exact ⟨['\r', '\n'], rfl, .carriage⟩
  next => cases read

/-! ### Escapes -/

theorem exists_digits {count : Nat} {c : Char} {le : rest.length ≤ text.length}
    (read : hexEscape count text = some (c, ⟨rest, le⟩)) :
    ∃ digits, text = digits ++ rest ∧ digits.length = count ∧ digits.all isHexDigit = true ∧
      scalarValue? (digitsValue 16 digits) = some c := by
  rw [hexEscape] at read
  split at read
  next digits =>
    obtain ⟨point, known, same⟩ := Option.map_eq_some_iff.mp read
    cases same
    exact ⟨_, (List.take_append_drop count text).symm, digits.1, digits.2, known⟩
  next => cases read

theorem Escaped.of_escape {c : Char} (read : Parser.run escape text = some (c, rest)) :
    ∃ escaped, text = escaped ++ rest ∧ Escaped c escaped := by
  unfold Parser.run escape at read
  split at read
  · cases read
    exact ⟨_, rfl, .backspace⟩
  · cases read
    exact ⟨_, rfl, .tab⟩
  · cases read
    exact ⟨_, rfl, .feed⟩
  · cases read
    exact ⟨_, rfl, .page⟩
  · cases read
    exact ⟨_, rfl, .carriage⟩
  · cases read
    exact ⟨_, rfl, .quote⟩
  · cases read
    exact ⟨_, rfl, .backslash⟩
  · simp only [Option.map_map, Option.map_eq_some_iff] at read
    obtain ⟨⟨point, rest', le⟩, found, same⟩ := read
    cases same
    obtain ⟨digits, rfl, length, hex, known⟩ := exists_digits found
    exact ⟨_, rfl, .short length hex known⟩
  · simp only [Option.map_map, Option.map_eq_some_iff] at read
    obtain ⟨⟨point, rest', le⟩, found, same⟩ := read
    cases same
    obtain ⟨digits, rfl, length, hex, known⟩ := exists_digits found
    exact ⟨_, rfl, .long length hex known⟩
  · cases read

/-! ### One line -/

theorem Line.of_basicString {chars : List Char}
    (read : Parser.run basicString text = some (chars, rest)) :
    ∃ body, text = body ++ rest ∧ Line '"' chars body := by
  induction text using basicString.induct generalizing chars rest with
  | case1 => simp [Parser.run, basicString] at read
  | case2 tail =>
    rw [Parser.run, basicString] at read
    cases read
    exact ⟨_, rfl, .close⟩
  | case3 tail ih =>
    rw [Parser.run, basicString] at read
    simp only [Option.bind_eq_bind, Option.map_eq_some_iff, Option.bind_eq_some_iff] at read
    obtain ⟨-, ⟨⟨c, after, shorter⟩, first, ⟨cs, last, shorter'⟩, others, ⟨⟩⟩, same⟩ := read
    cases same
    obtain ⟨escaped, rfl, stands⟩ := Escaped.of_escape (run_of_found first)
    obtain ⟨body, rfl, line⟩ := ih after shorter (run_of_found others)
    refine ⟨'\\' :: (escaped ++ body), ?_, .escape rfl stands line⟩
    rw [List.cons_append, List.append_assoc]
  | case4 c tail noQuote noEscape plain ih =>
    rw [Parser.run, basicString, if_pos plain] at read
    · simp only [Option.map_map, Option.map_eq_some_iff] at read
      obtain ⟨found, others, same⟩ := read
      cases same
      obtain ⟨body, same, line⟩ := ih (run_of_found others)
      exact ⟨c :: body, congrArg _ same, .plain ⟨plain, noQuote, fun _ => noEscape⟩ line⟩
    · exact noQuote
    · exact noEscape
  | case5 c tail noQuote noEscape plain =>
    rw [Parser.run, basicString, if_neg plain] at read
    · cases read
    · exact noQuote
    · exact noEscape

theorem Line.of_literalString {chars : List Char}
    (read : Parser.run literalString text = some (chars, rest)) :
    ∃ body, text = body ++ rest ∧ Line '\'' chars body := by
  induction text using literalString.induct generalizing chars rest with
  | case1 => cases read
  | case2 tail =>
    cases read
    exact ⟨_, rfl, .close⟩
  | case3 c tail noQuote plain ih =>
    rw [Parser.run, literalString, if_pos plain] at read
    · simp only [Option.map_map, Option.map_eq_some_iff] at read
      obtain ⟨found, others, same⟩ := read
      cases same
      obtain ⟨body, same, line⟩ := ih (run_of_found others)
      exact ⟨c :: body, congrArg _ same, .plain ⟨plain, noQuote, by rintro ⟨⟩⟩ line⟩
    · exact noQuote
  | case4 c tail noQuote plain =>
    rw [Parser.run, literalString, if_neg plain] at read
    · cases read
    · exact noQuote

/-! ### Several lines -/

theorem Closing.of_closingQuotes {quote : Char} {chars : List Char}
    (read : Parser.run (closingQuotes quote) text = some (chars, rest)) :
    ∃ body, text = body ++ rest ∧ Closing quote chars body := by
  unfold Parser.run closingQuotes at read
  split at read
  next a b c tail =>
    split at read
    next quotes =>
      obtain ⟨rfl, rfl, rfl⟩ := quotes
      split at read
      next d e after =>
        split at read
        next more =>
          subst more
          split at read
          next more =>
            subst more
            cases read
            exact ⟨_, rfl, .five⟩
          next =>
            cases read
            exact ⟨_, rfl, .four⟩
        next =>
          cases read
          exact ⟨_, rfl, .three⟩
      next d =>
        split at read
        next more =>
          subst more
          cases read
          exact ⟨_, rfl, .four⟩
        next =>
          cases read
          exact ⟨_, rfl, .three⟩
      next =>
        cases read
        exact ⟨_, rfl, .three⟩
    next => cases read
  next => cases read

theorem closingQuotes_none {quote : Char} (none : closingQuotes quote text = none) :
    ¬ [quote, quote, quote] <+: text := by
  rintro ⟨rest, rfl⟩
  match rest with
  | [] => simp [closingQuotes] at none
  | [d] =>
    simp only [closingQuotes, List.cons_append, List.nil_append, and_self, if_true] at none
    split at none <;> cases none
  | d :: e :: after =>
    simp only [closingQuotes, List.cons_append, List.nil_append, and_self, if_true] at none
    split at none
    · split at none <;> cases none
    · cases none

theorem Lines.carriage {quote : Char} {chars : List Char} (isQuote : IsQuote quote)
    (lines : Lines quote chars text) (first : text.head? = some '\r') :
    ∃ more, text = '\r' :: '\n' :: more := by
  cases lines with
  | close closes =>
    cases closes <;>
    · obtain rfl := Option.some.inj first
      exact absurd isQuote (by decide)
  | plain itself =>
    obtain rfl := Option.some.inj first
    exact absurd itself.1 (by decide)
  | one | two =>
    obtain rfl := Option.some.inj first
    exact absurd isQuote (by decide)
  | line ends =>
    cases ends with
    | feed => cases first
    | carriage => exact ⟨_, rfl⟩
  | escape | join => cases first

/-- One or two quotes stand for themselves, if not a third one follows. -/
theorem Lines.quote {quote : Char} {chars : List Char} (isQuote : IsQuote quote)
    (lines : Lines quote chars text) (goes : ¬ [quote, quote, quote] <+: quote :: text) :
    Lines quote (quote :: chars) (quote :: text) := by
  have noBreak : quote ≠ '\n' ∧ quote ≠ '\r' ∧ quote ≠ '\\' := by
    rcases isQuote with rfl | rfl <;> decide
  by_cases first : text.head? = some quote
  · cases lines with
    | close closes =>
      refine absurd ?_ goes
      cases closes <;> exact List.prefix_append [_, _, _] _
    | plain itself => exact absurd (Option.some.inj first) itself.2.1
    | one single lines => exact .two single lines
    | two => exact absurd (List.prefix_append [_, _, _] _) goes
    | line ends =>
      cases ends with
      | feed => exact absurd (Option.some.inj first).symm noBreak.1
      | carriage => exact absurd (Option.some.inj first).symm noBreak.2.1
    | escape | join => exact absurd (Option.some.inj first).symm noBreak.2.2
  · exact .one first lines

/-- Neither space nor a new line comes first. -/
structure Unfolded (text : List Char) : Prop where
  head : ∀ c, text.head? = some c → isSpace c = false ∧ c ≠ '\n'
  noBreak : ∀ more, text ≠ '\r' :: '\n' :: more

theorem exists_gap (text : List Char) :
    ∃ gap, text = gap ++ (lineFold.dropFolded text).val ∧ Gap gap ∧
      Unfolded (lineFold.dropFolded text).val := by
  induction text using lineFold.dropFolded.induct with
  | case1 tail ih =>
    obtain ⟨gap, same, blank, unfolded⟩ := ih
    rw [lineFold.dropFolded]
    exact ⟨_, congrArg _ (congrArg _ same), .line .carriage blank, unfolded⟩
  | case2 c tail other space ih =>
    obtain ⟨gap, same, blank, unfolded⟩ := ih
    rw [lineFold.dropFolded, if_pos space]
    · refine ⟨c :: gap, congrArg _ same, ?_, unfolded⟩
      rcases Bool.or_eq_true_iff.mp space with space | feed
      · exact .space space blank
      · obtain rfl := of_decide_eq_true feed
        exact .line .feed blank
    · exact other
  | case3 c tail other space =>
    rw [lineFold.dropFolded, if_neg space]
    · refine ⟨[], rfl, .nil, ?_, ?_⟩
      · rintro d ⟨⟩
        simpa using space
      · rintro more same
        obtain ⟨rfl, rfl⟩ := List.cons.inj same
        exact other more rfl rfl
    · exact other
  | case4 => exact ⟨[], rfl, .nil, by rintro c ⟨⟩, by rintro more ⟨⟩⟩

theorem exists_fold (read : Parser.run lineFold text = some ((), rest)) :
    ∃ space lineBreak gap, text = space ++ (lineBreak ++ (gap ++ rest)) ∧ Space space ∧
      Break lineBreak ∧ Gap gap ∧ Unfolded rest := by
  rw [Parser.run, lineFold] at read
  obtain ⟨space, same, blank⟩ := exists_space text
  split at read
  next => cases read
  next after shorter found =>
    cases read
    obtain ⟨lineBreak, same', ends⟩ := Break.of_newline (run_of_found found)
    obtain ⟨gap, same'', blank', unfolded⟩ := exists_gap after
    refine ⟨space, lineBreak, gap, ?_, blank, ends, blank', unfolded⟩
    rw [← same'', ← same', ← same]

/-- A backslash at the end of a line belongs to the string if the rest of the string does. -/
theorem Lines.join_of_fold {chars folded : List Char}
    (read : Parser.run lineFold folded = some ((), text ++ rest))
    (lines : Lines '"' chars text) :
    ∃ body, '\\' :: folded = body ++ rest ∧ Lines '"' chars body := by
  obtain ⟨space, lineBreak, gap, rfl, blank, ends, blank', unfolded⟩ := exists_fold read
  -- the fold takes all space and new lines that there are, so the string goes on with neither
  have solid : Solid text := by
    intro c first
    obtain ⟨noSpace, noFeed⟩ := unfolded.head c ((lines.head?_append rest).trans first)
    refine ⟨noSpace, noFeed, ?_⟩
    rintro rfl
    obtain ⟨more, rfl⟩ := lines.carriage (.inl rfl) first
    exact unfolded.noBreak (more ++ rest) rfl
  refine ⟨'\\' :: (space ++ (lineBreak ++ (gap ++ text))), ?_,
    .join rfl blank ends blank' solid lines⟩
  simp only [List.cons_append, List.append_assoc]

theorem Lines.of_basicLines {chars : List Char}
    (read : Parser.run basicLines text = some (chars, rest)) :
    ∃ body, text = body ++ rest ∧ Lines '"' chars body := by
  induction text using basicLines.induct generalizing chars rest with
  | case1 text found closed =>
    rw [Parser.run, basicLines.eq_def, closed] at read
    cases read
    obtain ⟨body, same, closes⟩ := Closing.of_closingQuotes (run_of_found closed)
    exact ⟨body, same, .close closes⟩
  | case2 => simp [Parser.run, basicLines, closingQuotes] at read
  | case3 tail value after shorter joined goes ih =>
    rw [Parser.run, basicLines, goes] at read
    simp only [joined, Option.map_map, Option.map_eq_some_iff] at read
    obtain ⟨⟨chars, last, le⟩, others, same⟩ := read
    cases same
    obtain ⟨body, rfl, lines⟩ := ih (run_of_found others)
    exact lines.join_of_fold (run_of_found joined)
  | case4 tail noFold goes ih =>
    rw [Parser.run, basicLines, goes] at read
    simp only [noFold, Option.bind_eq_bind, Option.map_eq_some_iff, Option.bind_eq_some_iff] at read
    obtain ⟨-, ⟨⟨c, after, shorter⟩, first, ⟨cs, last, shorter'⟩, others, ⟨⟩⟩, same⟩ := read
    cases same
    obtain ⟨escaped, rfl, stands⟩ := Escaped.of_escape (run_of_found first)
    obtain ⟨body, rfl, lines⟩ := ih after shorter (run_of_found others)
    refine ⟨'\\' :: (escaped ++ body), ?_, .escape rfl stands lines⟩
    rw [List.cons_append, List.append_assoc]
  | case5 c tail noEscape value after shorter breaks goes ih =>
    rw [Parser.run, basicLines, goes] at read
    · simp only [breaks, Option.map_map, Option.map_eq_some_iff] at read
      obtain ⟨⟨chars, last, le⟩, others, same⟩ := read
      cases same
      obtain ⟨lineBreak, same, ends⟩ := Break.of_newline (run_of_found breaks)
      obtain ⟨body, rfl, lines⟩ := ih (run_of_found others)
      exact ⟨lineBreak ++ body, same.trans (List.append_assoc ..).symm, .line ends lines⟩
    · exact noEscape
  | case6 c tail noEscape noBreak plain goes ih =>
    rw [Parser.run, basicLines, goes] at read
    · simp only [noBreak, plain, if_true, Option.map_map, Option.map_eq_some_iff] at read
      obtain ⟨⟨chars, last, le⟩, others, same⟩ := read
      cases same
      obtain ⟨body, rfl, lines⟩ := ih (run_of_found others)
      refine ⟨c :: body, rfl, ?_⟩
      -- a quote stands for itself where it does not close the string
      by_cases quote : c = '"'
      · subst quote
        apply lines.quote (.inl rfl)
        rintro ⟨more, same⟩
        exact closingQuotes_none goes ⟨more ++ last, by rw [← List.append_assoc, same]; rfl⟩
      · exact .plain ⟨plain, quote, fun _ => noEscape⟩ lines
    · exact noEscape
  | case7 c tail noEscape noBreak plain goes =>
    rw [Parser.run, basicLines, goes] at read
    · simp [noBreak, plain] at read
    · exact noEscape

theorem Lines.of_literalLines {chars : List Char}
    (read : Parser.run literalLines text = some (chars, rest)) :
    ∃ body, text = body ++ rest ∧ Lines '\'' chars body := by
  induction text using literalLines.induct generalizing chars rest with
  | case1 text found closed =>
    rw [Parser.run, literalLines.eq_def, closed] at read
    cases read
    obtain ⟨body, same, closes⟩ := Closing.of_closingQuotes (run_of_found closed)
    exact ⟨body, same, .close closes⟩
  | case2 => simp [Parser.run, literalLines, closingQuotes] at read
  | case3 c tail value after shorter breaks goes ih =>
    rw [Parser.run, literalLines, goes] at read
    simp only [breaks, Option.map_map, Option.map_eq_some_iff] at read
    obtain ⟨⟨chars, last, le⟩, others, same⟩ := read
    cases same
    obtain ⟨lineBreak, same, ends⟩ := Break.of_newline (run_of_found breaks)
    obtain ⟨body, rfl, lines⟩ := ih (run_of_found others)
    exact ⟨lineBreak ++ body, same.trans (List.append_assoc ..).symm, .line ends lines⟩
  | case4 c tail noBreak plain goes ih =>
    rw [Parser.run, literalLines, goes] at read
    simp only [noBreak, plain, if_true, Option.map_map, Option.map_eq_some_iff] at read
    obtain ⟨⟨chars, last, le⟩, others, same⟩ := read
    cases same
    obtain ⟨body, rfl, lines⟩ := ih (run_of_found others)
    refine ⟨c :: body, rfl, ?_⟩
    -- a quote stands for itself where it does not close the string
    by_cases quote : c = '\''
    · subst quote
      apply lines.quote (.inr rfl)
      rintro ⟨more, same⟩
      exact closingQuotes_none goes ⟨more ++ last, by rw [← List.append_assoc, same]; rfl⟩
    · exact .plain ⟨plain, quote, by rintro ⟨⟩⟩ lines
  | case5 c tail noBreak plain goes =>
    rw [Parser.run, literalLines, goes] at read
    simp [noBreak, plain] at read

/-! ### Strings and keys -/

theorem exists_opening (text : List Char) :
    (∃ lineBreak, text = lineBreak ++ (dropNewline text).val ∧ Break lineBreak) ∨
      ((dropNewline text).val = text ∧ newline text = none) := by
  rw [dropNewline]
  cases read : newline text with
  | none => exact .inr ⟨rfl, rfl⟩
  | some found =>
    obtain ⟨lineBreak, same, ends⟩ := Break.of_newline (run_of_found read)
    exact .inl ⟨lineBreak, same, ends⟩

theorem Lines.opening {quote : Char} {chars : List Char} (isQuote : IsQuote quote)
    (lines : Lines quote chars text) (noBreak : newline (text ++ rest) = none) :
    Opening text text := by
  apply Opening.here
  intro c first
  constructor
  · rintro rfl
    cases text with
    | nil => cases first
    | cons d more =>
      obtain rfl : d = '\n' := Option.some.inj first
      cases noBreak
  · rintro rfl
    obtain ⟨more, rfl⟩ := lines.carriage isQuote first
    cases noBreak

theorem Lines.quoted {quote : Char} {chars tail : List Char} (isQuote : IsQuote quote)
    (lines : Lines quote chars text) (opens : (dropNewline tail).val = text ++ rest) :
    ∃ body, quote :: quote :: quote :: tail = body ++ rest ∧ Quoted chars body := by
  rcases exists_opening tail with ⟨lineBreak, same, ends⟩ | ⟨same, noBreak⟩
  · rw [opens] at same
    refine ⟨_, ?_, .lines isQuote lines (.next ends)⟩
    rw [same]
    simp only [List.cons_append, List.append_assoc]
  · rw [opens] at same
    subst same
    exact ⟨_, rfl, .lines isQuote lines (lines.opening isQuote noBreak)⟩

theorem Quoted.of_string {value : String}
    (read : Parser.run string text = some (value, rest)) :
    ∃ chars body, text = body ++ rest ∧ Quoted chars body ∧ value = String.ofList chars := by
  unfold Parser.run string at read
  split at read
  next tail =>
    simp only [Option.map_map, Option.map_eq_some_iff] at read
    obtain ⟨⟨chars, last, le⟩, found, same⟩ := read
    cases same
    obtain ⟨body, same, lines⟩ := Lines.of_basicLines (run_of_found found)
    obtain ⟨body', same', quoted⟩ := lines.quoted (.inl rfl) same
    exact ⟨chars, body', same', quoted, rfl⟩
  next tail =>
    simp only [Option.map_map, Option.map_eq_some_iff] at read
    obtain ⟨⟨chars, last, le⟩, found, same⟩ := read
    cases same
    obtain ⟨body, same, lines⟩ := Lines.of_literalLines (run_of_found found)
    obtain ⟨body', same', quoted⟩ := lines.quoted (.inr rfl) same
    exact ⟨chars, body', same', quoted, rfl⟩
  next tail _ =>
    simp only [Option.map_map, Option.map_eq_some_iff] at read
    obtain ⟨⟨chars, last, le⟩, found, same⟩ := read
    cases same
    obtain ⟨body, rfl, line⟩ := Line.of_basicString (run_of_found found)
    exact ⟨chars, _, rfl, .line (.inl rfl) line, rfl⟩
  next tail _ =>
    simp only [Option.map_map, Option.map_eq_some_iff] at read
    obtain ⟨⟨chars, last, le⟩, found, same⟩ := read
    cases same
    obtain ⟨body, rfl, line⟩ := Line.of_literalString (run_of_found found)
    exact ⟨chars, _, rfl, .line (.inr rfl) line, rfl⟩
  next => cases read

theorem Names.of_simpleKey {key : Key} (read : Parser.run simpleKey text = some (key, rest)) :
    ∃ body, text = body ++ rest ∧ Names key.name body := by
  unfold Parser.run simpleKey at read
  simp only [Option.map_map, Option.map_eq_some_iff] at read
  obtain ⟨⟨name, last, le⟩, found, same⟩ := read
  cases same
  split at found
  next tail =>
    obtain ⟨⟨chars, last, le⟩, inner, same⟩ := Option.map_eq_some_iff.mp found
    cases same
    obtain ⟨body, rfl, line⟩ := Line.of_basicString (run_of_found inner)
    exact ⟨_, rfl, .quoted (.inl rfl) line⟩
  next tail =>
    obtain ⟨⟨chars, last, le⟩, inner, same⟩ := Option.map_eq_some_iff.mp found
    cases same
    obtain ⟨body, rfl, line⟩ := Line.of_literalString (run_of_found inner)
    exact ⟨_, rfl, .quoted (.inr rfl) line⟩
  next c tail _ _ =>
    split at found
    next first =>
      cases found
      refine ⟨c :: tail.takeWhile isBareKeyChar, ?_, .bare (by simp) ?_⟩
      · rw [List.cons_append, List.takeWhile_append_dropWhile]
      · exact List.forall_mem_cons.mpr ⟨first, List.all_eq_true.mp List.all_takeWhile⟩
    next => cases found
  next => cases found

theorem Dotted.of_dottedKey {path : List Key} {last : Key}
    (read : Parser.run dottedKey text = some ((path, last), rest)) :
    ∃ body, text = body ++ rest ∧ Dotted (path.map Key.bare) last.bare body := by
  induction text using dottedKey.induct generalizing path last rest with
  | case1 text none =>
    rw [Parser.run, dottedKey, none] at read
    cases read
  | case2 text key after shorter first le more dot le' ih =>
    rw [Parser.run, dottedKey, first] at read
    dsimp only at read
    split at read
    next more' dot' =>
      simp only [Option.map_map, Option.map_eq_some_iff] at read
      obtain ⟨⟨⟨path, last⟩, rest', le⟩, others, same⟩ := read
      cases same
      obtain ⟨-, rfl⟩ := List.cons.inj (dot.symm.trans dot')
      obtain ⟨space, same, blank⟩ := exists_space text
      obtain ⟨space', same', blank'⟩ := exists_space after
      obtain ⟨name, same'', names⟩ := Names.of_simpleKey (run_of_found first)
      obtain ⟨body, rfl, dotted⟩ := ih (run_of_found others)
      have whole : text = space ++ (name ++ (space' ++ '.' :: (body ++ rest'))) := by
        rw [← dot, ← same', ← same'', ← same]
      refine ⟨_, whole.trans ?_, .next blank names blank' dotted⟩
      simp only [List.cons_append, List.append_assoc]
      rfl
    next other => exact absurd dot (other _)
  | case3 text key after shorter first le noDot =>
    rw [Parser.run, dottedKey, first] at read
    dsimp only at read
    split at read
    next more dot => exact absurd dot (noDot _)
    next =>
      cases read
      obtain ⟨space, same, blank⟩ := exists_space text
      obtain ⟨space', same', blank'⟩ := exists_space after
      obtain ⟨name, same'', names⟩ := Names.of_simpleKey (run_of_found first)
      have whole : text = space ++ (name ++ (space' ++ (skipSpace after).val)) := by
        rw [← same', ← same'', ← same]
      refine ⟨_, whole.trans ?_, .last blank names blank'⟩
      simp only [List.append_assoc]

end DeployGate.Toml
