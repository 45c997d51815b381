import DeployGate.Plan.Response
import Mathlib.Data.List.DropRight
import Mathlib.Data.List.Forall2

/-!
# Warning lines

The warnings of a response are one text, of which the lines that matter are shown. Nothing but blank
characters is lost on the way, and the lines do not depend on how line ends are written.

## Main result

`warningLines_lossless`: every line is solid, all that is not blank is in the lines and in order, a
text after another one adds its lines to those of the other, and the lines on lines of their own are
the same lines again.
-/

namespace DeployGate.Text

/-! ### Pieces -/

theorem pieces_eq_splitOn (text : List Char) : pieces text = text.splitOn '\n' := by
  induction text with
  | nil => rfl
  | cons c text ih => simp [pieces, ih, List.splitOn_cons_eq_if_modifyHead]

theorem pieces_append_newline (text more : List Char) :
    pieces (text ++ '\n' :: more) = pieces text ++ pieces more := by
  simp only [pieces_eq_splitOn, List.splitOn_append_cons_self]

theorem newline_not_mem_piece {text piece : List Char} (inside : piece ∈ pieces text) :
    '\n' ∉ piece := by
  induction text generalizing piece with
  | nil =>
    simp only [pieces, List.mem_singleton] at inside
    simp [inside]
  | cons c text ih =>
    simp only [pieces] at inside
    split at inside
    · rcases List.mem_cons.mp inside with rfl | inside
      · simp
      · exact ih inside
    · next other =>
      -- only the first piece gets the character, which is no line feed
      cases whole : pieces text with
      | nil => simp [whole] at inside
      | cons first others =>
        rw [whole, List.modifyHead_cons, List.mem_cons] at inside
        rcases inside with rfl | inside
        · have kept : '\n' ∉ first := ih (by simp [whole])
          simp [kept, Ne.symm other]
        · exact ih (by simp [whole, inside])

/-! ### Trimming -/

/-- A line that is worth showing: something is in it, and nothing blank at its ends. -/
structure Solid (line : List Char) : Prop where
  not_empty : line ≠ []
  starts : ∀ c ∈ line.head?, isBlank c = false
  ends : ∀ c ∈ line.getLast?, isBlank c = false
  single : '\n' ∉ line

theorem trim_eq (text : List Char) : trim text = (text.dropWhile isBlank).rdropWhile isBlank := rfl

theorem head_trim {text : List Char} : ∀ c ∈ (trim text).head?, isBlank c = false := by
  intro c first
  -- what is left at the front after the blanks behind it are dropped was there before
  have kept : c ∈ (text.dropWhile isBlank).head? := by
    obtain ⟨rest, cut⟩ := List.rdropWhile_prefix isBlank (text.dropWhile isBlank)
    rw [← cut, ← trim_eq, List.head?_append]
    simp [Option.mem_def.mp first]
  have solid := List.head?_dropWhile_not isBlank text
  simpa [Option.mem_def.mp kept] using solid

theorem getLast_trim {text : List Char} : ∀ c ∈ (trim text).getLast?, isBlank c = false := by
  intro c last
  have present : trim text ≠ [] := by
    intro empty
    simp [empty] at last
  have solid := List.rdropWhile_last_not isBlank (text.dropWhile isBlank) present
  rw [List.getLast?_eq_some_getLast present, Option.mem_some] at last
  rw [← last]
  exact Bool.eq_false_iff.mpr solid

theorem trim_subset (text : List Char) : trim text ⊆ text :=
  List.Subset.trans (List.rdropWhile_prefix isBlank _).subset (List.dropWhile_subset isBlank)

theorem trim_eq_self {text : List Char} (starts : ∀ c ∈ text.head?, isBlank c = false)
    (ends : ∀ c ∈ text.getLast?, isBlank c = false) : trim text = text := by
  have front : text.dropWhile isBlank = text := by
    cases text with
    | nil => rfl
    | cons c text => exact List.dropWhile_cons_of_neg (by simp [starts c rfl])
  rw [trim_eq, front, List.rdropWhile_eq_self_iff]
  intro present
  simp [ends _ (List.getLast?_eq_some_getLast present)]

/-- A blank character at the end is no part of what is trimmed. -/
theorem trim_append_blank {c : Char} (blank : isBlank c = true) (text : List Char) :
    trim (text ++ [c]) = trim text := by
  simp only [trim_eq, List.dropWhile_append]
  split
  · next empty => simp [List.isEmpty_iff.mp empty, blank]
  · rw [List.rdropWhile_concat_pos _ _ _ blank]

/-- Trimming loses blank characters alone. -/
theorem filter_trim (text : List Char) :
    (trim text).filter (!isBlank ·) = text.filter (!isBlank ·) := by
  have front (text : List Char) :
      (text.dropWhile isBlank).filter (!isBlank ·) = text.filter (!isBlank ·) := by
    induction text with
    | nil => rfl
    | cons c text ih =>
      by_cases blank : isBlank c = true
      · rw [List.dropWhile_cons_of_pos blank, ih, List.filter_cons_of_neg (by simp [blank])]
      · rw [List.dropWhile_cons_of_neg blank]
  rw [trim, List.filter_reverse, front, List.filter_reverse, List.reverse_reverse, front]

/-! ### Lines -/

theorem solidLines_append_newline (text more : List Char) :
    solidLines (text ++ '\n' :: more) = solidLines text ++ solidLines more := by
  simp only [solidLines, pieces_append_newline, List.map_append, List.filter_append]

theorem solid_of_mem_solidLines {text line : List Char} (inside : line ∈ solidLines text) :
    Solid line := by
  obtain ⟨trimmed, present⟩ := List.mem_filter.mp inside
  obtain ⟨piece, piece_mem, rfl⟩ := List.mem_map.mp trimmed
  constructor
  · simpa using present
  · exact head_trim
  · exact getLast_trim
  · exact fun newline => newline_not_mem_piece piece_mem (trim_subset piece newline)

theorem solidLines_of_solid {line : List Char} (solid : Solid line) : solidLines line = [line] := by
  have whole : pieces line = [line] := by
    rw [pieces_eq_splitOn, List.splitOn_eq_singleton solid.single]
  simp [solidLines, whole, trim_eq_self solid.starts solid.ends, solid.not_empty]

/-- Solid lines, each on a line of its own, are the lines of the text. -/
theorem solidLines_intercalate {lines : List (List Char)} (solid : ∀ line ∈ lines, Solid line) :
    solidLines (['\n'].intercalate lines) = lines := by
  induction lines with
  | nil => simp [solidLines, pieces, trim]
  | cons line lines ih =>
    rw [List.forall_mem_cons] at solid
    cases lines with
    | nil => rw [List.intercalate_singleton, solidLines_of_solid solid.1]
    | cons next lines =>
      rw [List.intercalate_cons_cons, List.append_assoc, List.singleton_append,
        solidLines_append_newline, solidLines_of_solid solid.1, ih solid.2, List.singleton_append]

/-- The line feeds between the pieces are blank too. -/
theorem filter_flatten_pieces (text : List Char) :
    (pieces text).flatten.filter (!isBlank ·) = text.filter (!isBlank ·) := by
  induction text with
  | nil => rfl
  | cons c text ih =>
    simp only [pieces]
    split
    · next newline =>
      have blank : isBlank c = true := by rw [newline]; decide
      rw [List.flatten_cons, List.nil_append, ih, List.filter_cons_of_neg (by simp [blank])]
    · cases whole : pieces text with
      | nil => simp [pieces_eq_splitOn] at whole
      | cons first others =>
        rw [whole] at ih
        simp only [List.modifyHead_cons, List.flatten_cons, List.cons_append] at ih ⊢
        simp only [List.filter_cons, ih]

/-- The lines lose blank characters alone. -/
theorem filter_flatten_solidLines (text : List Char) :
    (solidLines text).flatten.filter (!isBlank ·) = text.filter (!isBlank ·) := by
  rw [← filter_flatten_pieces text, solidLines]
  induction pieces text with
  | nil => rfl
  | cons piece pieces ih =>
    rw [List.map_cons, List.flatten_cons, List.filter_append, ← ih, ← filter_trim piece]
    -- a line that is left out would add nothing
    by_cases empty : trim piece = []
    · simp [empty]
    · simp [empty]

/-! ### Line ends -/

/-- Some line feeds of the first text, or all or none, are a carriage return and a line feed in the
second one. -/
inductive Returned : List Char → List Char → Prop
  | nil : Returned [] []
  | same (c : Char) {text text' : List Char} : Returned text text' →
    Returned (c :: text) (c :: text')
  | newline {text text' : List Char} : Returned text text' →
    Returned ('\n' :: text) ('\r' :: '\n' :: text')

theorem Returned.refl (text : List Char) : Returned text text := by
  induction text with
  | nil => exact .nil
  | cons c text ih => exact .same c ih

/-- A piece is the same as before, or it ends with one carriage return more. -/
theorem Returned.pieces {text text' : List Char} (returned : Returned text text') :
    List.Forall₂ (fun piece piece' => piece' = piece ∨ piece' = piece ++ ['\r'])
      (pieces text) (pieces text') := by
  induction returned with
  | nil => exact .cons (.inl rfl) .nil
  | newline _ ih => exact .cons (.inr rfl) ih
  | same c _ ih =>
    simp only [Text.pieces]
    split
    · exact .cons (.inl rfl) ih
    · -- the character comes in front of the first piece of either
      generalize Text.pieces _ = before at ih
      generalize Text.pieces _ = after at ih
      cases ih with
      | nil => exact .nil
      | cons first others =>
        refine .cons ?_ others
        rcases first with rfl | rfl
        · exact .inl rfl
        · exact .inr rfl

theorem Returned.solidLines_eq {text text' : List Char} (returned : Returned text text') :
    solidLines text' = solidLines text := by
  have trimmed : (Text.pieces text).map trim = (Text.pieces text').map trim := by
    rw [← List.forall₂_eq_eq_eq, List.forall₂_map_left_iff, List.forall₂_map_right_iff]
    refine returned.pieces.imp fun piece piece' same => ?_
    rcases same with rfl | rfl
    · rfl
    · rw [trim_append_blank (by decide)]
  rw [solidLines, solidLines, trimmed]

end DeployGate.Text

namespace DeployGate.Plan

open Text (Returned Solid isBlank solidLines)

theorem toList_warningLines (response : Response) :
    response.warningLines.map String.toList = solidLines response.warnings.toList := by
  rw [Response.warningLines, List.map_map]
  exact List.map_id'' (fun _ => String.toList_ofList) _

/-- The lines of a response depend on its warnings alone. -/
theorem warningLines_eq {response : Response} {lines : List String}
    (same : solidLines response.warnings.toList = lines.map String.toList) :
    response.warningLines = lines := by
  rw [Response.warningLines, same, List.map_map]
  exact List.map_id'' (fun _ => String.ofList_toList) _

/-- Every warning line is solid. Without their blank characters, the lines one after the other are
the warnings. Warnings that are put together with a line feed have the lines of both, it does not
matter which line feeds come with a carriage return, and the lines can be read back from a text in
which each is on a line of its own. -/
theorem warningLines_lossless (response : Response) :
    (∀ line ∈ response.warningLines, Solid line.toList) ∧
    (response.warningLines.flatMap String.toList).filter (!isBlank ·)
      = response.warnings.toList.filter (!isBlank ·) ∧
    (∀ before after : String,
      { response with warnings := before ++ "\n" ++ after }.warningLines
        = { response with warnings := before }.warningLines
          ++ { response with warnings := after }.warningLines) ∧
    (∀ warnings : String, Returned response.warnings.toList warnings.toList →
      { response with warnings }.warningLines = response.warningLines) ∧
    { response with warnings := "\n".intercalate response.warningLines }.warningLines
      = response.warningLines := by
  have lines := toList_warningLines response
  have solid : ∀ line ∈ response.warningLines, Solid line.toList := fun line inside =>
    Text.solid_of_mem_solidLines (lines ▸ List.mem_map_of_mem inside)
  refine ⟨solid, ?_, fun before after => ?_, fun warnings returned => ?_, ?_⟩
  · rw [List.flatMap_def, lines, Text.filter_flatten_solidLines]
  · apply warningLines_eq
    rw [List.map_append, toList_warningLines, toList_warningLines, String.toList_append,
      String.toList_append, List.append_assoc]
    exact Text.solidLines_append_newline before.toList after.toList
  · apply warningLines_eq
    rw [returned.solidLines_eq, lines]
  · apply warningLines_eq
    rw [String.toList_intercalate]
    exact Text.solidLines_intercalate (List.forall_mem_map.mpr solid)

/-- Two lines between blank ones, with ideographic spaces and a carriage return that no line feed
follows. The second text has a carriage return in front of its first line feed, and not in front of
its second one. -/
theorem warningLines_lossless_spaced :
    let more := "\u3000 two * \u3000\n\r\n\u2028warnings\r"
    let warnings := "*\n" ++ more
    let returned := "*\r\n" ++ more
    let response : Response := { warnings }
    Returned warnings.toList returned.toList ∧ response.warningLines = ["*", "two *", "warnings"] ∧
      { response with warnings := returned }.warningLines = ["*", "two *", "warnings"] ∧
      Solid "two *".toList := by
  intro more warnings returned response
  have lines : response.warningLines = ["*", "two *", "warnings"] := by decide
  have spelled : Returned warnings.toList returned.toList := by
    rw [String.toList_append, String.toList_append]
    exact .same '*' (.newline (.refl more.toList))
  obtain ⟨solid, -, -, same, -⟩ := warningLines_lossless response
  exact ⟨spelled, lines, (same returned spelled).trans lines, solid "two *" (by simp [lines])⟩

end DeployGate.Plan
