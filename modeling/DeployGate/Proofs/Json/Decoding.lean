import DeployGate.Proofs.Json.Skipping
import Mathlib.Data.List.Forall2
import Mathlib.Data.Option.Basic

/-!
# Decoding trees

What a reader makes of a value is a function of the tree, and none of how the value is spelled.
Beside every reader stands the function that says what it gives: nothing where it fails.
-/

namespace DeployGate.Json

variable {α β σ : Type}

/-! ### Readers and trees -/

/-- Whatever spells a value is read as the function says, and nothing else is read. -/
structure Reads (reader : Reader α) (decode : Tree → Option α) : Prop where
  gives : ∀ {tree text} rest, Spells (.value tree) text → tree.Ends rest →
    Gives rest (reader.run (text ++ rest)) (decode tree)
  begins : ∀ {text} {found : Found α text}, reader text = .ok found →
    ∃ tree, Begins (.value tree) text found.rest

/-- Two readings in a row. -/
theorem Gives.bind {rest last : List Char} {reading : Except Fault (α × List Char)}
    {outcome : Option α} {next : α × List Char → Except Fault (β × List Char)}
    {further : α → Option β} (first : Gives rest reading outcome)
    (second : ∀ value, Gives last (next (value, rest)) (further value)) :
    Gives last (reading.bind next) (outcome.bind further) := by
  cases first with
  | value value => exact second value
  | fault fault => exact .fault fault

namespace Reads

variable {reader : Reader α} {decode : Tree → Option α}

theorem map (f : α → β) (reads : Reads reader decode) :
    Reads (reader.map f) fun tree => (decode tree).map f where
  gives rest spells ends := by
    rw [run_map]
    exact (reads.gives rest spells ends).map f
  begins read := by
    obtain ⟨found, inner, rfl⟩ := map_eq_ok_iff.mp read
    exact reads.begins inner

theorem skip : Reads skipValue fun _ => some () where
  gives rest spells ends := by
    rw [run_skipValue spells ends]
    exact .value ()
  begins read := begins_of_skipValue read

/-- A reader that begins after the blanks need only be looked at where there are none. -/
theorem afterBlank
    (gives : ∀ {tree c text} rest, Spells (.value tree) (c :: text) → tree.Opens c →
      tree.Ends rest → Gives rest (reader.run (c :: (text ++ rest))) (decode tree))
    (begins : ∀ {text} {found : Found α text}, reader text = .ok found →
      ∃ tree, Begins (.value tree) text found.rest) :
    Reads (afterBlank reader) decode where
  gives rest spells ends := by
    obtain ⟨c, text, spells', solid, skipped⟩ := spells.solid
    rw [run_afterBlank, skipped]
    exact gives rest spells' (spells'.opens solid) ends
  begins read := by
    obtain ⟨found, inner, rfl⟩ := map_eq_ok_iff.mp read
    obtain ⟨tree, begins⟩ := begins inner
    exact ⟨tree, begins.of_skipBlank⟩

end Reads

/-! ### Scalars -/

def decodeText : Tree → Option String
  | .string units => textOfUnits units
  | _ => none

def decodeNullable (decode : Tree → Option α) : Tree → Option (Option α)
  | .null => some none
  | tree => (decode tree).map some

theorem decodeNullable_eq_some_iff {decode : Tree → Option α} {tree : Tree}
    {found : Option α} :
    decodeNullable decode tree = some found ↔
      (tree = .null ∧ found = none) ∨
        (tree ≠ .null ∧ ∃ value, decode tree = some value ∧ found = some value) := by
  cases tree with
  | null => simp [decodeNullable, eq_comm]
  | _ => simp [decodeNullable, eq_comm]

/-- The number that a literal stands for, if it is not too large. -/
def numberOf (literal : List Char) : Option Number :=
  match readNumber.run literal with
  | .ok (number, _) => some number
  | .error _ => none

def decodeUnsigned : Tree → Option UInt64
  | .number literal =>
    match numberOf literal with
    | some (.integer value _ _) => if value < 0 then none else some (UInt64.ofNat value.toNat)
    | _ => none
  | _ => none

theorem spells_null {text : List Char} (spells : Spells (.value .null) ('n' :: text)) :
    text = "ull".toList := by
  cases spells with
  | blank blank => cases blank
  | null => rfl

theorem spells_bool {value : Bool} {c : Char} {text : List Char}
    (spells : Spells (.value (.bool value)) (c :: text)) (opens : (Tree.bool value).Opens c) :
    c :: text = (if value then "true" else "false").toList := by
  generalize spelled : c :: text = whole at spells
  cases spells with
  | blank blank =>
    cases spelled
    cases value <;> cases opens <;> cases blank
  | bool => rfl

theorem spells_string {units : List Nat} {text : List Char}
    (spells : Spells (.value (.string units)) ('"' :: text)) :
    ∃ letters, Letters units letters ∧ text = letters ++ ['"'] := by
  cases spells with
  | blank blank => cases blank
  | string letters => exact ⟨_, letters, rfl⟩

theorem spells_number {literal text : List Char} {c : Char}
    (spells : Spells (.value (.number literal)) (c :: text)) (opens : c = '-' ∨ c.isDigit = true) :
    Numeral (c :: text) ∧ literal = c :: text := by
  cases spells with
  | blank blank => cases blank.symm.trans (solid_of_number opens)
  | number numeral => exact ⟨numeral, rfl⟩

theorem gives_numberOf {literal : List Char} (numeral : Numeral literal) {rest : List Char}
    (delimited : Delimited rest) :
    Gives rest (readNumber.run (literal ++ rest)) (numberOf literal) := by
  -- the outcome is the same in front of whatever ends the number, the end of a text included
  obtain ⟨outcome, gives⟩ := gives_readNumber numeral
  have alone := gives [] (by simp [Delimited])
  rw [List.append_nil] at alone
  have same : numberOf literal = outcome := by
    rw [numberOf]
    generalize readNumber.run literal = reading at alone
    cases alone <;> rfl
  rw [same]
  exact gives rest delimited

theorem begins_of_readQuoted {text : List Char} {found : Found String text}
    (read : readQuoted text = .ok found) :
    ∃ tree, Begins (.value tree) ('"' :: text) found.rest := by
  obtain ⟨found, inner, rfl⟩ := map_eq_ok_iff.mp read
  obtain ⟨units, letters, spells, same⟩ := letters_of_readString inner
  exact ⟨.string units, _, .string spells, by simp [same]⟩

theorem begins_of_readNumber {text : List Char} {found : Found Number text}
    (read : readNumber text = .ok found) : ∃ tree, Begins (.value tree) text found.rest := by
  obtain ⟨literal, numeral, same⟩ := numeral_of_readNumber read
  exact ⟨.number literal, literal, .number numeral, same⟩

namespace Reads

theorem text : Reads readText decodeText := by
  refine afterBlank ?_ ?_
  · intro tree c text rest spells opens ends
    generalize whole : c :: (text ++ rest) = given
    rw [Reader.run]
    split
    next =>
      obtain ⟨rfl, rfl⟩ := List.cons.inj whole
      obtain ⟨units, rfl⟩ := opens.of_quote
      obtain ⟨letters, spelled, rfl⟩ := spells_string spells
      rw [map_later, List.append_assoc]
      exact gives_readQuoted spelled rest
    next noQuote =>
      have refused : decodeText tree = none := by
        cases tree with
        | string units => exact absurd (whole.symm.trans (congrArg (· :: _) opens)) (noQuote _)
        | _ => rfl
      rw [refused]
      exact .fault _
  · intro text found read
    split at read
    · obtain ⟨found, quoted, rfl⟩ := map_eq_ok_iff.mp read
      exact begins_of_readQuoted quoted
    · cases read

theorem nullable {reader : Reader α} {decode : Tree → Option α} (reads : Reads reader decode) :
    Reads (readNullable reader) (decodeNullable decode) := by
  refine afterBlank ?_ ?_
  · intro tree c text rest spells opens ends
    generalize whole : c :: (text ++ rest) = given
    rw [Reader.run]
    split
    next =>
      obtain ⟨rfl, rfl⟩ := List.cons.inj whole
      obtain rfl := opens.of_n
      obtain rfl := spells_null spells
      have read := run_readWord 'n' "ull" (none : Option α) rest
      rw [read]
      exact .value none
    next noNull =>
      have some : decodeNullable decode tree = (decode tree).map some := by
        cases tree with
        | null => exact absurd (whole.symm.trans (congrArg (· :: _) opens)) (noNull _)
        | _ => rfl
      rw [some, ← whole]
      have gives := (reads.gives rest spells ends).map Option.some
      rw [← run_map] at gives
      exact gives
  · intro text found read
    split at read
    · exact ⟨.null, begins_of_readWord read .null⟩
    · obtain ⟨found, inner, rfl⟩ := map_eq_ok_iff.mp read
      exact reads.begins inner

theorem unsigned : Reads readUnsigned decodeUnsigned := by
  refine afterBlank ?_ ?_
  · intro tree c text rest spells opens ends
    rw [Reader.run]
    split
    next starts =>
      have opening := startsNumber_head starts
      obtain ⟨literal, rfl⟩ := opens.of_number opening
      obtain ⟨numeral, rfl⟩ := spells_number spells opening
      have gives := gives_numberOf numeral ends
      rw [List.cons_append] at gives
      rw [decodeUnsigned]
      generalize ran : readNumber.run (c :: (text ++ rest)) = reading at gives
      generalize numberOf (c :: text) = outcome at gives
      cases gives with
      | fault fault =>
        rw [eq_of_run_error ran]
        exact .fault fault
      | value number =>
        obtain ⟨shorter, read⟩ := eq_of_run ran
        rw [read]
        cases number with
        | float bits => exact .fault _
        | integer value lower upper =>
          by_cases negative : value < 0
          · simp only [negative, if_true]
            exact .fault _
          · simp only [negative, if_false]
            exact .value _
    next noNumber =>
      have refused : decodeUnsigned tree = none := by
        cases tree with
        | number literal => exact absurd (startsNumber_cons _ opens) noNumber
        | _ => rfl
      rw [refused]
      exact .fault _
  · intro text found read
    split at read
    · split at read
      · cases read
      next number =>
        split at read
        · cases read
        · cases read
          exact begins_of_readNumber number
      · cases read
    · cases read

end Reads

/-! ### Lists -/

/-- What a list with these elements spells behind its opening bracket, or what the elements spell
that come after another one. -/
def Listing (first : Bool) (trees : List Tree) (text : List Char) : Prop :=
  match first with
  | true => Spells (.value (.array trees)) ('[' :: text)
  | false => Spells (.elements trees) text

namespace Listing

variable {first : Bool} {tree : Tree} {trees : List Tree} {text : List Char}

/-- Behind the last element, or in a list without elements, the closing bracket is found. -/
theorem close (listing : Listing first [] text) (rest : List Char) :
    ∃ shorter, nextElement first (text ++ rest) = .ok (.close rest shorter) := by
  have spells : Spells (.elements []) text := by
    cases first with
    | false => exact listing
    | true =>
      cases listing with
      | blank blank => cases blank
      | emptyArray spells => exact spells
  obtain ⟨c, more, spells, solid, skipped⟩ := spells.solid
  cases spells with
  | blank blank => cases blank.symm.trans solid
  | closeArray => exact nextElement_close first (skipped rest)

theorem next (listing : Listing first (tree :: trees) text) (rest : List Char) :
    ∃ element others le, Spells (.value tree) element ∧ Listing false trees others ∧
      nextElement first (text ++ rest) = .ok (.element ⟨element ++ (others ++ rest), le⟩) := by
  cases first with
  | true =>
    cases listing with
    | blank blank => cases blank
    | @array _ _ element others spells further =>
      obtain ⟨c, more, spells', solid, skipped⟩ := spells.solid
      rw [List.append_assoc]
      have next :=
        nextElement_first (skipped (others ++ rest)) ((spells'.opens solid).ne (by decide))
      exact ⟨element, others, Nat.le_refl _, spells, further, next⟩
  | false =>
    obtain ⟨c, more, listing, solid, skipped⟩ := Spells.solid listing
    cases listing with
    | blank blank => cases blank.symm.trans solid
    | @element _ _ element others spells further =>
      obtain ⟨c, more, spells', solid, skipped'⟩ := spells.solid
      have comma := skipped rest
      rw [List.append_assoc] at comma
      obtain ⟨le, next⟩ :=
        nextElement_comma comma (skipped' _) ((spells'.opens solid).ne (by decide))
      exact ⟨element, others, le, spells, further, next⟩

end Listing

/-- What a list leaves, from the inside or from what follows an element on. -/
def Lists (first : Bool) (text rest : List Char) : Prop :=
  match first with
  | true => ∃ tree, Begins (.value tree) ('[' :: text) rest
  | false => ∃ trees, Begins (.elements trees) text rest

section

variable {first : Bool} {text rest last : List Char}

theorem nextElement_cases {step : ListStep text} (next : nextElement first text = .ok step) :
    (∃ rest shorter, step = .close rest shorter ∧ skipBlank text = ']' :: rest) ∨
    (first = true ∧ step = .element (.all text)) ∨
    (first = false ∧ ∃ rest le, step = .element ⟨rest, le⟩ ∧ skipBlank text = ',' :: rest) := by
  rw [nextElement] at next
  split at next
  next => cases next
  next c rest skipped =>
    split at next
    next same =>
      cases next
      exact .inl ⟨rest, _, rfl, same ▸ skipped⟩
    next =>
      split at next
      next isFirst =>
        cases next
        exact .inr (.inl ⟨isFirst, rfl⟩)
      next notFirst =>
        split at next
        next same =>
          split at next
          · cases next
          · cases next
          · cases next
            exact .inr (.inr ⟨by simpa using notFirst, rest, _, rfl, same ▸ skipped⟩)
        next => cases next

theorem skipBlank_of_close {shorter : rest.length < text.length}
    (next : nextElement first text = .ok (.close rest shorter)) : skipBlank text = ']' :: rest := by
  rcases nextElement_cases next with ⟨_, _, same, skipped⟩ | ⟨_, same⟩ | ⟨_, _, _, same, _⟩
  · cases same
    exact skipped
  · cases same
  · cases same

theorem Lists.close {shorter : rest.length < text.length}
    (next : nextElement first text = .ok (.close rest shorter)) : Lists first text rest := by
  have ends : Begins (.elements []) text rest :=
    .of_skipBlank (skipBlank_of_close next ▸ .closeArray rest)
  cases first with
  | true => exact ⟨_, ends.emptyArray⟩
  | false => exact ⟨_, ends⟩

theorem Lists.next {tree : Tree} {left : Remainder text}
    (next : nextElement first text = .ok (.element left))
    (begins : Begins (.value tree) left.val rest)
    (lists : Lists false rest last) : Lists first text last := by
  obtain ⟨trees, others⟩ := lists
  rcases nextElement_cases next with ⟨_, _, same, _⟩ | ⟨rfl, same⟩ | ⟨rfl, _, _, same, skipped⟩
  · cases same
  · cases same
    exact ⟨_, begins.array others⟩
  · cases same
    exact ⟨_, .of_skipBlank (skipped ▸ begins.element others)⟩

end

def decodeList (item : Option (Tree → Option α)) : Tree → Option (List α)
  | .array trees => item.bind fun decode => trees.mapM decode
  | _ => none

theorem mapM_cons (decode : Tree → Option α) (tree : Tree) (trees : List Tree) :
    (tree :: trees).mapM decode
      = (decode tree).bind fun value => (trees.mapM decode).map (value :: ·) := by
  rw [List.mapM_cons]
  cases decode tree <;> cases trees.mapM decode <;> rfl

/-- The values of a list come one from each of its elements. -/
theorem mapM_eq_some_iff {decode : Tree → Option α} {trees : List Tree} {values : List α} :
    trees.mapM decode = some values ↔
      List.Forall₂ (fun tree value => decode tree = some value) trees values := by
  induction trees generalizing values with
  | nil => simp [List.forall₂_nil_left_iff, eq_comm]
  | cons tree trees ih =>
    simp only [mapM_cons, Option.bind_eq_some_iff, Option.map_eq_some_iff,
      List.forall₂_cons_left_iff, ih]
    constructor
    · rintro ⟨value, first, others, further, rfl⟩
      exact ⟨value, others, first, further, rfl⟩
    · rintro ⟨value, others, first, further, rfl⟩
      exact ⟨value, first, others, further, rfl⟩

theorem value_of_mem {decode : Tree → Option α} {trees : List Tree} {values : List α}
    (read : List.Forall₂ (fun tree value => decode tree = some value) trees values) :
    ∀ tree ∈ trees, ∃ value, decode tree = some value := by
  induction read with
  | nil => simp
  | cons first _ ih => exact List.forall_mem_cons.mpr ⟨⟨_, first⟩, ih⟩

theorem tree_of_mem {decode : Tree → Option α} {trees : List Tree} {values : List α}
    (read : List.Forall₂ (fun tree value => decode tree = some value) trees values) :
    ∀ value ∈ values, ∃ tree ∈ trees, decode tree = some value := by
  induction read with
  | nil => simp
  | cons first _ ih =>
    refine List.forall_mem_cons.mpr ⟨⟨_, List.mem_cons_self, first⟩, fun value inside => ?_⟩
    obtain ⟨tree, later, found⟩ := ih value inside
    exact ⟨tree, List.mem_cons_of_mem _ later, found⟩

theorem decodeList_eq_some_iff {item : Option (Tree → Option α)} {tree : Tree} {values : List α} :
    decodeList item tree = some values ↔
      ∃ elements decode, tree = .array elements ∧ item = some decode ∧
        List.Forall₂ (fun tree value => decode tree = some value) elements values := by
  simp only [← mapM_eq_some_iff]
  cases tree with
  | array elements => cases item <;> simp [decodeList]
  | _ => simp [decodeList]

theorem within_eq_some_iff {f : Nat → α} {depth : Nat} {value : α} :
    within f depth = some value ↔ ∃ inner, depth = inner + 1 ∧ f inner = value := by
  cases depth <;> simp [within]

section

variable {item : Reader α} {decode : Tree → Option α} (reads : Reads item decode)

include reads

theorem gives_readElements {first : Bool} {trees : List Tree} {text : List Char}
    (listing : Listing first trees text) (rest : List Char) :
    Gives rest (Reader.run (readElements item first) (text ++ rest)) (trees.mapM decode) := by
  induction trees generalizing first text with
  | nil =>
    obtain ⟨shorter, next⟩ := listing.close rest
    rw [run_readElements, next]
    exact .value []
  | cons tree trees ih =>
    obtain ⟨element, others, le, spells, further, next⟩ := listing.next rest
    rw [run_readElements, next, mapM_cons]
    have delimited := Spells.delimited_elements further rest
    refine (reads.gives _ spells (.of_delimited tree delimited)).bind fun value => ?_
    exact (ih further).map (value :: ·)

theorem lists_of_readElements {first : Bool} {text : List Char} {found : Found (List α) text}
    (read : readElements item first text = .ok found) : Lists first text found.rest := by
  fun_induction readElements item first text with
  | case2 first text rest shorter next =>
    cases read
    exact .close next
  | case5 first text left le next value after shorter element values last shorter' others ih =>
    cases read
    obtain ⟨tree, begins⟩ := reads.begins element
    exact .next next begins (ih others)
  | _ => cases read

end

namespace Reads

theorem list {item : Option (Reader α)} {decode : Option (Tree → Option α)}
    (reads : Option.Rel Reads item decode) : Reads (readList item) (decodeList decode) := by
  refine afterBlank ?_ ?_
  · intro tree c text rest spells opens ends
    generalize whole : c :: (text ++ rest) = given
    rw [Reader.run]
    split
    next =>
      obtain ⟨rfl, rfl⟩ := List.cons.inj whole
      obtain ⟨trees, rfl⟩ := opens.of_bracket
      cases reads with
      | none => exact .fault _
      | some reads =>
        simp only
        rw [map_later]
        have listing : Listing true trees text := spells
        exact gives_readElements reads listing rest
    next noBracket =>
      have refused : decodeList decode tree = none := by
        cases tree with
        | array trees => exact absurd (whole.symm.trans (congrArg (· :: _) opens)) (noBracket _)
        | _ => rfl
      rw [refused]
      exact .fault _
  · intro text found read
    split at read
    · cases reads with
      | none => cases read
      | some reads =>
        obtain ⟨found, elements, rfl⟩ := map_eq_ok_iff.mp read
        exact lists_of_readElements reads elements
    · cases read

/-- Readers that take the depth that is left are told by functions that take it. -/
theorem within {read : Nat → Reader α} {decode : Nat → Tree → Option α}
    (reads : ∀ depth, Reads (read depth) (decode depth)) (depth : Nat) :
    Option.Rel Reads (Json.within read depth) (Json.within decode depth) := by
  cases depth with
  | zero => exact .none
  | succ depth => exact .some (reads depth)

end Reads

/-! ### Documents -/

theorem skipBlank_eq_nil_iff (text : List Char) :
    skipBlank text = [] ↔ ∀ c ∈ text, isBlank c = true := by
  induction text with
  | nil => simp [skipBlank]
  | cons c text ih =>
    rw [List.forall_mem_cons, ← ih]
    by_cases blank : isBlank c = true
    · simp [skipBlank_blank text blank, blank]
    · simp [skipBlank_cons text (by simpa using blank), blank]

theorem delimited_blanks {blanks : List Char} (blank : ∀ c ∈ blanks, isBlank c = true) :
    Delimited blanks := by
  cases blanks with
  | nil => simp [Delimited]
  | cons c blanks => exact delimited_blank blanks (blank c List.mem_cons_self)

/-- A document is decoded when the reader leaves only blanks of it. -/
theorem decode_eq_ok_iff {reader : Reader α} {document : String} {value : α} :
    Json.decode reader document = .ok value ↔
      ∃ blanks, reader.run document.toList = .ok (value, blanks) ∧
        ∀ c ∈ blanks, isBlank c = true := by
  rw [Json.decode, readAll, Reader.run]
  cases reader document.toList with
  | error fault => simp [Except.mapError, Except.map]
  | ok found =>
    simp only [Except.map, ← skipBlank_eq_nil_iff, Except.ok.injEq, Prod.mk.injEq, and_assoc,
      exists_and_left, exists_eq_left']
    cases skipBlank found.rest <;> simp [Except.mapError]

namespace Reads

variable {reader : Reader α} {decode : Tree → Option α} {document : String} {value : α}

/-- A document is decoded as the value that it spells is. -/
theorem decode_iff (reads : Reads reader decode) {tree : Tree} (spelled : Spelled tree document) :
    Json.decode reader document = .ok value ↔ decode tree = some value := by
  obtain ⟨text, blanks, spells, blank, same⟩ := spelled
  have gives := reads.gives blanks spells (.of_delimited tree (delimited_blanks blank))
  rw [decode_eq_ok_iff, same]
  generalize reader.run (text ++ blanks) = reading at gives
  generalize decode tree = outcome at gives
  cases gives with
  | fault fault => simp
  | value found =>
    simp only [Except.ok.injEq, Prod.mk.injEq, and_assoc, exists_and_left, exists_eq_left',
      Option.some.injEq]
    exact and_iff_left blank

/-- Every document that is decoded spells a value. -/
theorem spelled (reads : Reads reader decode) (decoded : Json.decode reader document = .ok value) :
    ∃ tree, Spelled tree document ∧ decode tree = some value := by
  obtain ⟨blanks, ran, blank⟩ := decode_eq_ok_iff.mp decoded
  obtain ⟨shorter, read⟩ := eq_of_run ran
  obtain ⟨tree, text, spells, same⟩ := reads.begins read
  have spelled : Spelled tree document := ⟨text, blanks, spells, blank, same⟩
  exact ⟨tree, spelled, (reads.decode_iff spelled).mp decoded⟩

end Reads

end DeployGate.Json
