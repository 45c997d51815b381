import DeployGate.Proofs.Toml.Values

/-!
# Documents are read

A document that the grammar writes for a sequence of bindings and headers has the table that these
make, whatever space, comments, line ends and quotes it is written with.

## Main result

`Written.parse_bare`.
-/

namespace DeployGate.Toml

variable {text rest : List Char}

/-! ### Headers -/

theorem run_header_single {whole : List Char} {path : List Key} {last : Key}
    (noDouble : text.head? ≠ some '[')
    (keys : Parser.run dottedKey text = some ((path, last), ']' :: rest))
    (short : path.length < depthLimit) :
    Parser.run (header whole) text = some (⟨path, last, false, ⟨whole, rest⟩⟩, rest) := by
  obtain ⟨shorter, keys⟩ := found_of_run keys
  rw [Parser.run, header]
  · simp [keys, Nat.not_le.mpr short, Remainder.all]
  · rintro more rfl
    exact noDouble rfl

theorem run_header_double {whole : List Char} {path : List Key} {last : Key}
    (keys : Parser.run dottedKey text = some ((path, last), ']' :: ']' :: rest))
    (short : path.length < depthLimit) :
    Parser.run (header whole) ('[' :: text)
      = some (⟨path, last, true, ⟨whole, rest⟩⟩, rest) := by
  obtain ⟨shorter, keys⟩ := found_of_run keys
  rw [Parser.run, header]
  simp [keys, Nat.not_le.mpr short, Remainder.tail]

/-- A header is read by the names of its keys. -/
theorem Heads.run_header {head : Header} (heads : Heads head text) :
    ∃ tail, text = '[' :: tail ∧ ∀ whole rest, ∃ head',
      Parser.run (header whole) (tail ++ rest) = some (head', rest) ∧ head'.bare = head := by
  cases heads with
  | @single path last key keys short =>
    refine ⟨_, rfl, fun whole rest => ?_⟩
    obtain ⟨path', last', read, rfl, rfl⟩ := keys.run_dottedKey (.inr rfl) rest
    refine ⟨⟨path', last', false, ⟨whole, rest⟩⟩, ?_, rfl⟩
    rw [List.append_assoc]
    apply run_header_single _ read (by simpa using short)
    obtain ⟨before, c, more, rfl, inside, -, starts⟩ := keys.starts
    intro first
    cases before with
    | nil => exact ne_bracket starts (Option.some.inj first)
    | cons d before =>
      obtain rfl : d = '[' := Option.some.inj first
      exact absurd (inside '[' List.mem_cons_self) (by decide)
  | @double path last key keys short =>
    refine ⟨_, rfl, fun whole rest => ?_⟩
    obtain ⟨path', last', read, rfl, rfl⟩ := keys.run_dottedKey (.inr rfl) (']' :: rest)
    refine ⟨⟨path', last', true, ⟨whole, rest⟩⟩, ?_, rfl⟩
    rw [List.cons_append, List.append_assoc]
    exact run_header_double read (by simpa using short)

/-! ### Lines -/

/-- The text behind a comment, if there is one. -/
def withoutComment : List Char → List Char
  | '#' :: text => text.dropWhile isPlain
  | text => text

/-- The text behind the end of the line, which stands in front or is the end of the text. -/
def nextLine? : List Char → Option (List Char)
  | [] => some []
  | text => (newline text).map Found.rest

theorem lineEnd_eq (text : List Char) :
    (lineEnd text).map Subtype.val = nextLine? (withoutComment (skipSpace text).val) := by
  rw [lineEnd]
  split
  next behind le skipped =>
  split
  next rest le' same =>
  -- the comment goes first, and what is left decides
  have kept : withoutComment behind = rest := by
    split at same
    next comment le =>
      exact congrArg Subtype.val same
    next noComment =>
      rw [withoutComment]
      · exact congrArg Subtype.val same
      · rintro comment rfl
        exact noComment comment le rfl .rfl
  rw [skipped, kept]
  cases rest with
  | nil => rfl
  | cons c rest =>
    rw [nextLine?]
    · cases newline (c :: rest) <;> rfl
    · simp

/-- Nothing is left of the line: the text is over, or a line end comes first. -/
inductive Over : List Char → List Char → Prop
  | last : Over [] []
  | line {lineBreak : List Char} (ends : Break lineBreak) (more : List Char) :
    Over (lineBreak ++ more) more

theorem Over.head {more : List Char} (ends : Over rest more) {c : Char}
    (first : rest.head? = some c) : isSpace c = false ∧ isPlain c = false := by
  cases ends with
  | last => cases first
  | line ends =>
    cases ends <;>
    · obtain rfl := Option.some.inj first
      decide

theorem Over.nextLine {more : List Char} (ends : Over rest more) : nextLine? rest = some more := by
  cases ends with
  | last => rfl
  | line ends => cases ends <;> rfl

theorem lineEnd_over {space comment more : List Char} (blank : Space space)
    (comments : Comment comment) (ends : Over rest more) :
    (lineEnd (space ++ (comment ++ rest))).map Subtype.val = some more := by
  rw [lineEnd_eq]
  cases comments with
  | none =>
    have kept : withoutComment rest = rest := by
      cases ends with
      | last => rfl
      | line ends => cases ends <;> rfl
    rw [List.nil_append, val_skipSpace blank fun c first => (ends.head first).1, kept]
    exact ends.nextLine
  | @line comment plain =>
    have dropped : (comment ++ rest).dropWhile isPlain = rest :=
      dropWhile_exact plain fun c first => (ends.head first).2
    rw [List.cons_append, val_skipSpace_cons blank rfl, withoutComment, dropped]
    exact ends.nextLine

theorem Rest.lineEnd {more : List Char} (line : Rest text more) :
    (lineEnd text).map Subtype.val = some more := by
  cases line with
  | line blank comments ends => exact lineEnd_over blank comments (.line ends more)
  | @last space comment blank comments =>
    rw [← List.append_nil comment]
    exact lineEnd_over blank comments .last

/-- A value may stand in front of the rest of a line. -/
theorem Rest.ends {more : List Char} (line : Rest text more) : Ends text := by
  cases line with
  | line blank comments ends =>
    cases comments with
    | none => cases ends <;> exact blank.ends (by simp) _
    | line => exact blank.ends (by simp) _
  | @last space comment blank comments =>
    cases comments with
    | none =>
      have dropped : (space ++ []).dropWhile isSpace = [] := dropWhile_exact blank (by simp)
      intro c first
      rw [dropped] at first
      cases first
    | line => exact blank.ends (by simp) _

/-! ### Sections -/

theorem sections_nil (nothing : (skipTrivia text).val = []) : sections text = some ([], []) := by
  rw [sections]
  split
  next => rfl
  next same => exact absurd (nothing.symm.trans same) (by simp)
  next same => exact absurd (nothing.symm.trans same) (by simp)

theorem sections_header {start after next : List Char} {head : Header} {under : List Binding}
    {parts : List Section} (begins : (skipTrivia text).val = '[' :: start)
    (read : Parser.run (header ('[' :: start)) start = some (head, after))
    (line : (lineEnd after).map Subtype.val = some next)
    (others : sections next = some (under, parts)) :
    sections text = some ([], ⟨head, under⟩ :: parts) := by
  obtain ⟨shorter, read⟩ := found_of_run read
  obtain ⟨⟨next, le⟩, ended, rfl⟩ := Option.map_eq_some_iff.mp line
  rw [sections]
  split
  next same => exact absurd (begins.symm.trans same) (by simp)
  next start' same =>
    obtain ⟨-, rfl⟩ := List.cons.inj (begins.symm.trans same)
    simp [read, ended, others]
  next other same =>
    obtain ⟨rfl, -⟩ := List.cons.inj (begins.symm.trans same)
    exact absurd rfl other

theorem sections_binding {c : Char} {start after next : List Char} {first : Binding}
    {under : List Binding} {parts : List Section} (begins : (skipTrivia text).val = c :: start)
    (noHeader : c ≠ '[')
    (read : Parser.run (binding (value depthLimit)) (c :: start) = some (first, after))
    (line : (lineEnd after).map Subtype.val = some next)
    (others : sections next = some (under, parts)) :
    sections text = some (first :: under, parts) := by
  obtain ⟨shorter, read⟩ := found_of_run read
  obtain ⟨⟨next, le⟩, ended, rfl⟩ := Option.map_eq_some_iff.mp line
  rw [sections]
  split
  next same => exact absurd (begins.symm.trans same) (by simp)
  next same => exact absurd (List.cons.inj (begins.symm.trans same)).1 noHeader
  next d start' other same =>
    obtain ⟨rfl, rfl⟩ := List.cons.inj (begins.symm.trans same)
    simp [read, ended, others]

theorem Trivia.append_space {trivia space : List Char} (blank : Trivia trivia)
    (inside : Space space) : Trivia (trivia ++ space) := by
  induction blank with
  | nil =>
    rw [List.nil_append]
    induction space with
    | nil => exact .nil
    | cons c space ih =>
      obtain ⟨first, others⟩ := List.forall_mem_cons.mp inside
      exact .space first (ih others)
  | space first blank ih => exact .space first ih
  | line comments ends blank ih =>
    rw [List.append_assoc, List.append_assoc]
    exact .line comments ends ih

theorem Trivia.skipTrivia_end {trivia comment : List Char} (blank : Trivia trivia)
    (comments : Comment comment) : (Toml.skipTrivia (trivia ++ comment)).val = [] := by
  rw [blank.skipTrivia_append]
  cases comments with
  | none => exact skipTrivia_stop (by rintro c ⟨⟩)
  | @line comment plain =>
    have skipped : (Toml.skipTrivia ('#' :: (comment ++ []))).val = (Toml.skipTrivia []).val :=
      skipTrivia_comment plain (by rintro c ⟨⟩)
    rw [List.append_nil] at skipped
    exact skipped.trans (skipTrivia_stop (by rintro c ⟨⟩))

/-- The bindings and the headers of a document are read. -/
theorem Writes.sections {leading : List Binding} {parts : List Section}
    (writes : Writes leading parts text) :
    ∃ leading' parts', Toml.sections text = some (leading', parts') ∧
      leading'.map Binding.bare = leading ∧ parts'.map Section.bare = parts := by
  induction writes with
  | nothing blank comments => exact ⟨[], [], sections_nil (blank.skipTrivia_end comments), rfl, rfl⟩
  | @binding found under parts trivia text rest more blank spells line writes ih =>
    obtain ⟨under', parts', others, rfl, rfl⟩ := ih
    -- for the parser the space in front of the key belongs to the trivia
    obtain ⟨before, c, core, rfl, inside, spells, starts⟩ := spells.binding_starts
    obtain ⟨found', read, rfl⟩ := spells.reads rest line.ends
    have begins := (blank.append_space inside).skipTrivia
      (Starts.begins (.inr (.inr starts)) (core ++ rest))
    refine ⟨found' :: under', parts', ?_, rfl, rfl⟩
    rw [List.append_assoc, List.cons_append, ← List.append_assoc]
    exact sections_binding begins (ne_bracket starts) read line.lineEnd others
  | @header head under parts trivia text rest more blank heads line writes ih =>
    obtain ⟨under', parts', others, rfl, rfl⟩ := ih
    obtain ⟨tail, rfl, reads⟩ := heads.run_header
    obtain ⟨head', read, rfl⟩ := reads ('[' :: (tail ++ rest)) rest
    have begins := blank.skipTrivia (Starts.begins (.inl rfl) (tail ++ rest))
    refine ⟨[], ⟨head', under'⟩ :: parts', ?_, rfl, rfl⟩
    exact sections_header begins read line.lineEnd others

/-! ### The byte order mark -/

/-- No document begins with a byte order mark after the one that is dropped. -/
theorem Writes.head {leading : List Binding} {parts : List Section}
    (writes : Writes leading parts text) : text.head? ≠ some '\ufeff' := by
  have behind {trivia rest : List Char} (blank : Trivia trivia)
      (none : rest.head? ≠ some '\ufeff') : (trivia ++ rest).head? ≠ some '\ufeff' := by
    cases blank with
    | nil => exact none
    | space space =>
      intro first
      obtain rfl := Option.some.inj first
      exact absurd space (by decide)
    | line comments ends =>
      cases comments with
      | none => cases ends <;> simp
      | line => simp
  cases writes with
  | nothing blank comments =>
    apply behind blank
    cases comments <;> simp
  | binding blank spells =>
    apply behind blank
    obtain ⟨before, c, core, rfl, inside, -, starts⟩ := spells.binding_starts
    intro first
    cases before with
    | nil =>
      obtain rfl : c = '\ufeff' := Option.some.inj first
      exact absurd starts (by decide)
    | cons d before =>
      obtain rfl : d = '\ufeff' := Option.some.inj first
      exact absurd (inside _ List.mem_cons_self) (by decide)
  | header blank heads =>
    apply behind blank
    obtain ⟨tail, rfl, -⟩ := heads.run_header
    simp

theorem dropMark_eq (first : text.head? ≠ some '\ufeff') : dropMark text = text := by
  unfold dropMark
  split
  · exact absurd rfl first
  · rfl

/-- However a document is written, it has the table that its bindings and headers make. -/
theorem Written.parse_bare {leading : List Binding} {parts : List Section} {document : String}
    (written : Written leading parts document) :
    (parse? document.toList).map Entries.bare = documentEntries leading parts := by
  obtain ⟨text, writes, said⟩ := written
  have dropped : dropMark document.toList = text := by
    rcases said with said | said
    · rw [said, dropMark_eq writes.head]
    · rw [said, dropMark]
  obtain ⟨leading', parts', read, rfl, rfl⟩ := writes.sections
  rw [parse?, dropped, read]
  exact documentEntries_bare leading' parts'

end DeployGate.Toml
