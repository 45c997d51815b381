import DeployGate.Proofs.Toml.StringReadings

/-!
# Documents that are read

Every document that is read is written by the grammar, for bindings and headers that make its table.
With what `Documents` says a text is a document just if the grammar writes it and its bindings and
headers make a table.

## Main result

`exists_written`.
-/

namespace DeployGate.Toml

variable {text rest : List Char}

/-! ### Trivia -/

theorem exists_plain (text : List Char) :
    ∃ front, text = front ++ text.dropWhile isPlain ∧ (∀ c ∈ front, isPlain c = true) ∧
      ∀ c, (text.dropWhile isPlain).head? = some c → isPlain c = false := by
  refine ⟨text.takeWhile isPlain, List.takeWhile_append_dropWhile.symm, ?_, ?_⟩
  · exact List.all_eq_true.mp List.all_takeWhile
  · intro c first
    have stops := List.head?_dropWhile_not isPlain text
    rw [first] at stops
    exact stops

/-- Behind a comment without a line end comes nothing that a document may have. -/
theorem exists_trivia (text : List Char) :
    ∃ trivia comment, text = trivia ++ (comment ++ (skipTrivia text).val) ∧ Trivia trivia ∧
      Comment comment ∧
      (comment = [] ∨ ∀ c, (skipTrivia text).val.head? = some c → isPlain c = false) := by
  induction text using skipTrivia.induct with
  | case1 =>
    refine ⟨[], [], ?_, .nil, .none, .inl rfl⟩
    rw [skipTrivia]
    rfl
  | case2 tail ih =>
    obtain ⟨trivia, comment, same, blank, comments, ends⟩ := ih
    rw [skipTrivia]
    exact ⟨_, comment, congrArg _ (congrArg _ same), .line .none .carriage blank, comments, ends⟩
  | case3 tail after le dropped ih =>
    obtain ⟨trivia, comment, same, blank, comments, ends⟩ := ih
    obtain rfl : tail.dropWhile isPlain = after := congrArg Subtype.val dropped
    obtain ⟨front, whole, plain, stops⟩ := exists_plain tail
    have skipped : (skipTrivia ('#' :: tail)).val = (skipTrivia (tail.dropWhile isPlain)).val := by
      rw [skipTrivia]
      rfl
    rw [skipped]
    generalize (skipTrivia (tail.dropWhile isPlain)).val = rest at same ends ⊢
    generalize tail.dropWhile isPlain = after at same whole stops
    subst same whole
    -- behind the comment comes a new line, or nothing that a document may have
    cases blank with
    | nil =>
      cases comments with
      | none => exact ⟨[], '#' :: front, rfl, .nil, .line plain, .inr stops⟩
      | line => exact absurd (stops '#' rfl) (by decide)
    | @space c trivia space blank =>
      have noPlain := stops c rfl
      rcases isSpace_iff.mp space with rfl | rfl <;> exact absurd noPlain (by decide)
    | @line comment' lineBreak trivia comments' breaks blank =>
      cases comments' with
      | line => exact absurd (stops '#' rfl) (by decide)
      | none =>
        refine ⟨'#' :: front ++ (lineBreak ++ trivia), comment, ?_,
          .line (.line plain) breaks blank, comments, ends⟩
        simp only [List.nil_append, List.cons_append, List.append_assoc]
  | case4 c tail noBreak noComment space ih =>
    obtain ⟨trivia, comment, same, blank, comments, ends⟩ := ih
    rw [skipTrivia, if_pos space]
    · refine ⟨c :: trivia, comment, congrArg _ same, ?_, comments, ends⟩
      rcases Bool.or_eq_true_iff.mp space with space | feed
      · exact .space space blank
      · obtain rfl := of_decide_eq_true feed
        exact .line .none .feed blank
    · exact noBreak
    · exact noComment
  | case5 c tail noBreak noComment space =>
    refine ⟨[], [], ?_, .nil, .none, .inl rfl⟩
    rw [skipTrivia, if_neg space]
    · rfl
    · exact noBreak
    · exact noComment

theorem exists_trivia_before {c : Char} (reached : (skipTrivia text).val = c :: rest)
    (plain : isPlain c = true) : ∃ trivia, text = trivia ++ c :: rest ∧ Trivia trivia := by
  obtain ⟨trivia, comment, same, blank, -, ends⟩ := exists_trivia text
  rw [reached] at same ends
  rcases ends with rfl | ends
  · exact ⟨trivia, same, blank⟩
  · rw [ends c rfl] at plain
    cases plain

theorem exists_trivia_end (reached : (skipTrivia text).val = []) :
    ∃ trivia comment, text = trivia ++ comment ∧ Trivia trivia ∧ Comment comment := by
  obtain ⟨trivia, comment, same, blank, comments, -⟩ := exists_trivia text
  rw [reached, List.append_nil] at same
  exact ⟨trivia, comment, same, blank, comments⟩

/-! ### Values without parts -/

theorem Spells.of_plain {value : Scalar} (depth : Nat)
    (read : Parser.run Toml.word.plain text = some (value, rest)) :
    ∃ body, text = body ++ rest ∧ Spells (.value depth (.scalar .blank value)) body := by
  unfold Parser.run Toml.word.plain at read
  split at read
  next => cases read
  next c tail =>
    split at read
    next first =>
      simp only [Option.map_map, Option.map_eq_some_iff] at read
      obtain ⟨value, known, same⟩ := read
      cases same
      refine ⟨c :: tail.takeWhile isWordChar, ?_, .word (by simp) ?_ known⟩
      · exact congrArg (c :: ·) List.takeWhile_append_dropWhile.symm
      · exact List.forall_mem_cons.mpr ⟨first, List.all_eq_true.mp List.all_takeWhile⟩
    next => cases read

theorem Spells.of_word {value : Scalar} (depth : Nat)
    (read : Parser.run Toml.word text = some (value, rest)) :
    ∃ body, text = body ++ rest ∧ Spells (.value depth (.scalar .blank value)) body := by
  rw [Parser.run, Toml.word] at read
  dsimp only at read
  split at read
  next next_ behind =>
    split at read
    next known =>
      cases read
      obtain ⟨date, time⟩ := Bool.and_eq_true_iff.mp known
      refine ⟨text.takeWhile isWordChar ++ ' ' :: next_.takeWhile isWordChar, ?_,
        .moment (List.forall_mem_append.mpr ?_) date time⟩
      · rw [List.append_assoc, List.cons_append, List.takeWhile_append_dropWhile, ← behind,
          List.takeWhile_append_dropWhile]
      · exact ⟨List.all_eq_true.mp List.all_takeWhile, List.all_eq_true.mp List.all_takeWhile⟩
    next => exact Spells.of_plain depth read
  next => exact Spells.of_plain depth read

theorem Spells.of_scalar {item : Item} (depth : Nat)
    (read : Parser.run scalar text = some (item, rest)) :
    ∃ body, text = body ++ rest ∧ Spells (.value depth item.bare) body := by
  unfold Parser.run scalar at read
  simp only [Option.map_map, Option.map_eq_some_iff] at read
  obtain ⟨⟨value, last, le⟩, found, same⟩ := read
  cases same
  split at found
  · obtain ⟨⟨chars, last, le⟩, inner, same⟩ := Option.map_eq_some_iff.mp found
    cases same
    obtain ⟨chars, body, same, quoted, rfl⟩ := Quoted.of_string (run_of_found inner)
    exact ⟨body, same, .text quoted⟩
  · obtain ⟨⟨chars, last, le⟩, inner, same⟩ := Option.map_eq_some_iff.mp found
    cases same
    obtain ⟨chars, body, same, quoted, rfl⟩ := Quoted.of_string (run_of_found inner)
    exact ⟨body, same, .text quoted⟩
  · exact Spells.of_word depth (run_of_found found)

/-! ### Beginnings -/

theorem isPlain_of_word {c : Char} (word : isWordChar c = true) : isPlain c = true := by
  -- the characters below space are tried one by one
  have control : ∀ n < 0x20, isWordChar (Char.ofNat n) = false := by decide
  have printed : 0x20 ≤ c.toNat := by
    apply Nat.le_of_not_lt
    intro low
    have none := control c.toNat low
    rw [Char.ofNat_toNat, word] at none
    cases none
  have noDelete : c ≠ '\x7f' := by
    rintro rfl
    exact absurd word (by decide)
  simp [isPlain, printed, noDelete]

theorem Starts.plain {c : Char} (starts : Starts c) : isPlain c = true := by
  rcases starts with rfl | rfl | (rfl | rfl) | word
  · rfl
  · rfl
  · rfl
  · rfl
  · exact isPlain_of_word word

/-! ### Lists and tables -/

/-- Whatever the parser reads is written by the grammar as a value of this depth. -/
def Sound (item : Parser Item) (depth : Nat) : Prop :=
  ∀ text found rest, item.run text = some (found, rest) →
    ∃ body, text = body ++ rest ∧ Spells (.value depth found.bare) body

section

variable {item : Parser Item} {depth : Nat} (sound : Sound item depth)

include sound

/-- A value that is read begins with a character that may stand in a text. -/
theorem Sound.plain {c : Char} {found : Item}
    (read : item.run (c :: text) = some (found, rest)) : isPlain c = true := by
  obtain ⟨body, same, spells⟩ := sound (c :: text) found rest read
  obtain ⟨d, more, rfl, starts⟩ := spells.starts
  obtain ⟨rfl, -⟩ := List.cons.inj same
  exact starts.plain

theorem Spells.of_elements {items : List Item}
    (read : Parser.run (Toml.elements item) text = some (items, rest)) :
    ∃ body, text = body ++ rest ∧ Spells (.elements depth (items.map Item.bare)) body := by
  unfold Parser.run at read
  fun_induction Toml.elements item text generalizing items rest with
  | case1 text none => cases read
  | case2 text tail closes =>
    cases read
    obtain ⟨trivia, rfl, blank⟩ := exists_trivia_before closes (by decide)
    exact ⟨trivia ++ [']'], by rw [List.append_assoc]; rfl, .noElements blank⟩
  | case3 => cases read
  | case4 text c start noEnd reached le first after shorter found tail closes =>
    cases read
    obtain ⟨trivia, rfl, blank⟩ := exists_trivia_before reached (sound.plain (run_of_found found))
    obtain ⟨body, same, spells⟩ := sound _ _ _ (run_of_found found)
    obtain ⟨trivia', rfl, blank'⟩ := exists_trivia_before closes (by decide)
    refine ⟨_, (congrArg (trivia ++ ·) same).trans ?_, .lastElement blank spells blank'⟩
    simp only [List.append_assoc, List.singleton_append]
  | case5 text c start noEnd reached le first after shorter found tail comma le' ih =>
    simp only [Option.map_map, Option.map_eq_some_iff] at read
    obtain ⟨⟨items, last, le⟩, others, same⟩ := read
    cases same
    obtain ⟨trivia, rfl, blank⟩ := exists_trivia_before reached (sound.plain (run_of_found found))
    obtain ⟨body, same, spells⟩ := sound _ _ _ (run_of_found found)
    obtain ⟨trivia', rfl, blank'⟩ := exists_trivia_before comma (by decide)
    obtain ⟨more, rfl, spells'⟩ := ih (run_of_found others)
    refine ⟨_, (congrArg (trivia ++ ·) same).trans ?_, .element blank spells blank' spells'⟩
    simp only [List.append_assoc, List.cons_append]
    rfl
  | case6 => cases read

theorem Spells.of_binding {found : Binding}
    (read : Parser.run (Toml.binding item) text = some (found, rest)) :
    ∃ body, text = body ++ rest ∧ Spells (.binding depth found.bare) body := by
  unfold Parser.run Toml.binding at read
  split at read
  next => cases read
  next path last after shorter keys =>
    split at read
    next start _ =>
      split at read
      next => cases read
      next short =>
        obtain ⟨space, same, blank⟩ := exists_space start
        generalize skipSpace start = skipped at read same
        obtain ⟨start', le⟩ := skipped
        simp only [Option.map_map, Option.map_eq_some_iff] at read
        obtain ⟨⟨item, last', le'⟩, inner, same'⟩ := read
        cases same'
        obtain ⟨key, rfl, dotted⟩ := Dotted.of_dottedKey (run_of_found keys)
        obtain ⟨body, rfl, spells⟩ := sound _ _ _ (run_of_found inner)
        refine ⟨_, (congrArg (key ++ '=' :: ·) same).trans ?_, .binding dotted ?_ blank spells⟩
        · simp only [List.append_assoc, List.cons_append]
          rfl
        · simpa using short
    next => cases read

theorem Spells.of_bindings {found : List Binding}
    (read : Parser.run (Toml.bindings item) text = some (found, rest)) :
    ∃ body, text = body ++ rest ∧ Spells (.bindings depth (found.map Binding.bare)) body := by
  unfold Parser.run at read
  fun_induction Toml.bindings item text generalizing found rest with
  | case1 => cases read
  | case2 text first after shorter start tail closes =>
    cases read
    obtain ⟨body, rfl, spells⟩ := Spells.of_binding sound (run_of_found start)
    obtain ⟨space, same, blank⟩ := exists_space after
    rw [closes] at same
    subst same
    refine ⟨_, ?_, .lastBinding spells blank⟩
    simp only [List.append_assoc, List.singleton_append]
  | case3 text first after shorter start tail comma le ih =>
    simp only [Option.map_map, Option.map_eq_some_iff] at read
    obtain ⟨⟨others, last, le'⟩, further, same⟩ := read
    cases same
    obtain ⟨body, rfl, spells⟩ := Spells.of_binding sound (run_of_found start)
    obtain ⟨space, same, blank⟩ := exists_space after
    obtain ⟨more, rfl, spells'⟩ := ih (run_of_found further)
    rw [comma] at same
    subst same
    refine ⟨_, ?_, .nextBinding spells blank spells'⟩
    simp only [List.append_assoc, List.cons_append]
    rfl
  | case4 => cases read

end

/-- A table between braces that is read is written by the grammar. -/
theorem Spells.of_braced {item : Parser Item} {depth : Nat} (sound : Sound item depth)
    {found : List Binding} {table : Item} {span : Span}
    (read : Parser.run (braced item) text = some (found, rest))
    (made : inlineTable span found = some table) :
    ∃ body, text = body ++ rest ∧ Spells (.value (depth + 1) table.bare) ('\x7b' :: body) := by
  unfold Parser.run braced at read
  split at read
  next tail closes =>
    cases read
    cases made
    obtain ⟨space, same, blank⟩ := exists_space text
    rw [closes] at same
    refine ⟨space ++ ['\x7d'], ?_, .emptyTable blank⟩
    rw [List.append_assoc]
    exact same
  next =>
    obtain ⟨body, same, spells⟩ := Spells.of_bindings sound read
    have bare := inlineTable_bare span found
    rw [made] at bare
    exact ⟨body, same, .table spells bare.symm⟩

/-- A value that is read is written by the grammar. -/
theorem sound_value (depth : Nat) : Sound (value depth) depth := by
  induction depth with
  | zero =>
    intro text found rest read
    unfold Parser.run value valueWithin at read
    split at read
    next => cases read
    next => cases read
    next => exact Spells.of_scalar 0 read
  | succ depth ih =>
    intro text found rest read
    unfold Parser.run value valueWithin at read
    split at read
    next tail =>
      simp only [Option.bind_eq_bind, Option.map_eq_some_iff, Option.bind_eq_some_iff] at read
      obtain ⟨-, ⟨item, ⟨⟩, ⟨items, last, le⟩, inner, ⟨⟩⟩, same⟩ := read
      cases same
      obtain ⟨body, rfl, spells⟩ := Spells.of_elements ih (run_of_found inner)
      refine ⟨'[' :: body, rfl, ?_⟩
      rw [value_later, value_map, Item.bare, Item.bareElements_eq_map]
      exact .array spells
    next tail =>
      simp only [Option.bind_eq_bind, Option.map_eq_some_iff, Option.bind_eq_some_iff] at read
      obtain ⟨-, ⟨item, ⟨⟩, ⟨all, last, le⟩, inner, table, made, ⟨⟩⟩, same⟩ := read
      cases same
      obtain ⟨body, rfl, spells⟩ := Spells.of_braced ih (run_of_found inner) made
      exact ⟨'\x7b' :: body, rfl, spells⟩
    next => exact Spells.of_scalar (depth + 1) read

/-! ### Lines and headers -/

theorem Heads.of_header {whole : List Char} {head : Header}
    (read : Parser.run (Toml.header whole) text = some (head, rest)) :
    ∃ body, text = body ++ rest ∧ Heads head.bare ('[' :: body) := by
  unfold Parser.run Toml.header at read
  split at read
  next _ double behind opened =>
  have opens : text = if double then '[' :: behind.val else behind.val := by
    split at opened <;>
    · cases opened
      rfl
  clear opened
  split at read
  next => cases read
  next path last after shorter keys =>
    obtain ⟨key, same, dotted⟩ := Dotted.of_dottedKey (run_of_found keys)
    split at read
    next => cases read
    next short =>
      have short : (path.map Key.bare).length < depthLimit := by simpa using short
      split at read
      next after' _ =>
        cases read
        refine ⟨key ++ [']'], ?_, .single dotted short⟩
        rw [List.append_assoc]
        exact opens.trans same
      next after' _ =>
        cases read
        refine ⟨'[' :: (key ++ [']', ']']), ?_, .double dotted short⟩
        rw [List.cons_append, List.append_assoc]
        exact opens.trans (congrArg ('[' :: ·) same)
      next => cases read

theorem Over.of_nextLine {more : List Char} (read : nextLine? text = some more) :
    Over text more := by
  unfold nextLine? at read
  split at read
  next =>
    cases read
    exact .last
  next =>
    obtain ⟨⟨_, rest, shorter⟩, breaks, rfl⟩ := Option.map_eq_some_iff.mp read
    obtain ⟨lineBreak, rfl, ends⟩ := Break.of_newline (run_of_found breaks)
    exact .line ends rest

theorem Rest.of_lineEnd {more : List Char}
    (read : (Toml.lineEnd text).map Subtype.val = some more) : Rest text more := by
  rw [lineEnd_eq] at read
  obtain ⟨space, same, blank⟩ := exists_space text
  generalize (skipSpace text).val = behind at read same
  subst same
  have close {comment rest : List Char} (comments : Comment comment) (ends : Over rest more) :
      Rest (space ++ (comment ++ rest)) more := by
    cases ends with
    | last =>
      rw [List.append_nil]
      exact .last blank comments
    | line ends more => exact .line blank comments ends
  have ends := Over.of_nextLine read
  unfold withoutComment at ends
  split at ends
  next comment =>
    obtain ⟨front, same, plain, -⟩ := exists_plain comment
    have line := close (.line plain) ends
    rwa [List.cons_append, ← same] at line
  next => exact close .none ends

/-! ### Documents -/

/-- A binding begins with a character that may stand in a text. -/
theorem Spells.binding_plain {depth : Nat} {found : Binding}
    (spells : Spells (.binding depth found) text) :
    ∃ c more, text = c :: more ∧ isPlain c = true := by
  obtain ⟨before, c, core, rfl, inside, -, starts⟩ := spells.binding_starts
  cases before with
  | nil => exact ⟨c, core, rfl, Starts.plain (.inr (.inr starts))⟩
  | cons d before =>
    refine ⟨d, _, rfl, ?_⟩
    rcases isSpace_iff.mp (inside d List.mem_cons_self) with rfl | rfl <;> rfl

theorem Writes.of_sections {leading : List Binding} {parts : List Section}
    (read : Toml.sections text = some (leading, parts)) :
    Writes (leading.map Binding.bare) (parts.map Section.bare) text := by
  fun_induction Toml.sections text generalizing leading parts with
  | case1 text nothing =>
    cases read
    obtain ⟨trivia, comment, rfl, blank, comments⟩ := exists_trivia_end nothing
    exact .nothing blank comments
  | case2 => cases read
  | case3 => cases read
  | case4 text tail begins le head after shorter header next le' line ih =>
    obtain ⟨⟨under, parts⟩, others, same⟩ := Option.map_eq_some_iff.mp read
    cases same
    obtain ⟨trivia, rfl, blank⟩ := exists_trivia_before begins (by decide)
    obtain ⟨body, rfl, heads⟩ := Heads.of_header (run_of_found header)
    exact .header blank heads (Rest.of_lineEnd (by rw [line]; rfl)) (ih others)
  | case5 => cases read
  | case6 => cases read
  | case7 text c tail noHeader begins le first after shorter found next le' line ih =>
    obtain ⟨⟨under, parts⟩, others, same⟩ := Option.map_eq_some_iff.mp read
    cases same
    obtain ⟨body, same, spells⟩ := Spells.of_binding (sound_value depthLimit) (run_of_found found)
    -- a comment would have taken the first character of the binding, so none is open before it
    obtain ⟨d, more, rfl, plain⟩ := spells.binding_plain
    obtain ⟨rfl, rfl⟩ := List.cons.inj same
    obtain ⟨trivia, rfl, blank⟩ := exists_trivia_before begins plain
    exact .binding blank spells (Rest.of_lineEnd (by rw [line]; rfl)) (ih others)

/-- A document that has a table is written for bindings and sections that make it. -/
theorem exists_written {document : String} {root : Entries}
    (parsed : parse? document.toList = some root) :
    ∃ leading parts, Written leading parts document ∧
      documentEntries leading parts = some root.bare := by
  obtain ⟨⟨leading, parts⟩, read, made⟩ := Option.bind_eq_some_iff.mp parsed
  have writes := Writes.of_sections read
  refine ⟨_, _, ⟨_, writes, ?_⟩, ?_⟩
  · unfold dropMark
    split
    next same => exact .inr same
    next => exact .inl rfl
  · have bare := documentEntries_bare leading parts
    rw [show documentEntries leading parts = some root from made] at bare
    exact bare.symm

end DeployGate.Toml
