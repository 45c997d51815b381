import DeployGate.Proofs.Json.Recovery
import DeployGate.Proofs.Json.Rendering

/-!
# The indented form

The indented form of a value is a document that spells the value: strings are spelled with their
escapes, whatever characters they hold, and new lines and columns are blanks. So it is decoded as
the value, whatever blanks follow it.

## Main results

`Value.Integral.spells_indented`: inside any number of lists and objects, the indented form spells
the tree of the value. `Value.Integral.decode_indented`: a canonical value is decoded from it,
if no more lists and objects are open in it than may be.
-/

namespace DeployGate.Json

/-! ### Strings -/

/-- However a character is written, it stands for its code units. -/
theorem Letters.written (c : Char) {units : List Nat} {text : List Char}
    (letters : Letters units text) : Letters (codeUnits c ++ units) (writeChar c ++ text) := by
  have writes := writes_writeChar c
  generalize writeChar c = written at writes ⊢
  cases writes with
  | short stands => exact .short stands letters
  | control control =>
    -- a control character is one code unit
    have alone : codeUnits c = [c.toNat] := if_pos (by omega)
    rw [alone]
    exact .hex (hexNumber?_control control) letters
  | plain noQuote noEscape visible => exact .plain noQuote noEscape visible letters

theorem letters_writeChar (text : String) :
    Letters (unitsOfText text) (text.toList.flatMap writeChar) := by
  rw [unitsOfText]
  induction text.toList with
  | nil => exact .nil
  | cons c cs ih =>
    rw [List.flatMap_cons, List.flatMap_cons]
    exact ih.written c

theorem spells_writeString (text : String) :
    Spells (.value (.string (unitsOfText text))) (writeString text) :=
  .string (letters_writeChar text)

theorem spells_writtenMember (key : String) {tree : Tree} {text : List Char}
    (spells : Spells (.value tree) text) :
    Spells (.member (unitsOfText key) tree) (writeString key ++ ':' :: text) := by
  have member := Spells.member (letters_writeChar key) (.entry spells)
  rwa [writeString, List.cons_append, List.append_assoc]

/-! ### Integers -/

theorem whole_of_cons {c : Char} {digits : List Char} (opening : c.isDigit = true)
    (numeric : ∀ d ∈ digits, d.isDigit = true) (leading : c = '0' → digits = []) :
    Whole (c :: digits) := by
  by_cases zero : c = '0'
  · rw [zero, leading zero]
    exact .zero
  · exact .digits zero ⟨List.cons_ne_nil c digits, List.forall_mem_cons.mpr ⟨opening, numeric⟩⟩

theorem magnitude_toDigits (n : Nat) : Magnitude (Nat.toDigits 10 n) := by
  obtain ⟨c, digits, spelled, opening, numeric, leading⟩ := toDigits_eq_cons n
  have parts := Magnitude.parts (whole_of_cons opening numeric leading) .none .none
  rwa [List.append_nil, List.append_nil, ← spelled] at parts

theorem numeral_render (value : Int) (lower upper) :
    Numeral (Number.integer value lower upper).render := by
  cases value with
  | ofNat n =>
    rw [render_ofNat]
    exact .positive (magnitude_toDigits n)
  | negSucc n =>
    rw [render_negSucc]
    exact .negative (magnitude_toDigits (n + 1))

/-! ### New lines -/

theorem Spells.blanks {phrase : Phrase} {blanks text : List Char}
    (blank : ∀ c ∈ blanks, isBlank c = true) (spells : Spells phrase text) :
    Spells phrase (blanks ++ text) := by
  induction blanks with
  | nil => exact spells
  | cons c blanks ih =>
    rw [List.forall_mem_cons] at blank
    exact .blank blank.1 (ih blank.2)

theorem Spells.onNewLine {phrase : Phrase} {text : List Char} (depth : Nat)
    (spells : Spells phrase text) : Spells phrase (Value.newLine depth ++ text) := by
  refine spells.blanks (List.forall_mem_cons.mpr ⟨rfl, fun c inside => ?_⟩)
  rw [List.eq_of_mem_replicate inside]
  rfl

/-! ### Trees of values -/

namespace Value

mutual

/-- The tree of a value, with its members in their order. -/
def toTree : Value → Tree
  | null => .null
  | bool value => .bool value
  | number value => .number value.render
  | string value => .string (unitsOfText value)
  | array elements => .array (elementTrees elements)
  | object members => .object (memberTrees members)

def elementTrees : List Value → List Tree
  | [] => []
  | element :: rest => element.toTree :: elementTrees rest

def memberTrees : List (String × Value) → List (List Nat × Tree)
  | [] => []
  | (key, value) :: rest => (unitsOfText key, value.toTree) :: memberTrees rest

end

theorem elementTrees_eq_map (elements : List Value) :
    elementTrees elements = elements.map toTree := by
  induction elements with
  | nil => rfl
  | cons element elements ih => rw [elementTrees, ih, List.map_cons]

theorem memberTrees_eq_map (members : List (String × Value)) :
    memberTrees members = members.map fun member => (unitsOfText member.1, member.2.toTree) := by
  induction members with
  | nil => rfl
  | cons member members ih => rw [memberTrees, ih, List.map_cons]

mutual

theorem depth_toTree (value : Value) : value.toTree.depth = value.depth := by
  cases value with
  | null | bool | number | string => rfl
  | array elements => rw [toTree, Tree.depth, depth, depth_elementTrees]
  | object members => rw [toTree, Tree.depth, depth, depth_memberTrees]

theorem depth_elementTrees (elements : List Value) :
    Tree.depthElements (elementTrees elements) = depthElements elements := by
  cases elements with
  | nil => rfl
  | cons element rest =>
    rw [elementTrees, Tree.depthElements, depthElements, depth_toTree, depth_elementTrees]

theorem depth_memberTrees (members : List (String × Value)) :
    Tree.depthMembers (memberTrees members) = depthMembers members := by
  cases members with
  | nil => rfl
  | cons member rest =>
    rw [memberTrees, Tree.depthMembers, depthMembers, depth_toTree, depth_memberTrees]

end

/-! ### The indented form -/

/-- The elements behind the first one are spelled when each of them is. -/
theorem spells_indentedElements {elements : List Value} (depth : Nat)
    (each : ∀ element ∈ elements, Spells (.value element.toTree) (element.indented (depth + 1))) :
    Spells (.elements (elementTrees elements)) (indentedElements depth elements) := by
  induction elements with
  | nil => exact .onNewLine depth .closeArray
  | cons element elements ih =>
    rw [List.forall_mem_cons] at each
    exact .element (each.1.onNewLine (depth + 1)) (ih each.2)

theorem spells_indentedMember {value : Value} (key : String) (depth : Nat)
    (spells : Spells (.value value.toTree) (value.indented depth)) :
    Spells (.member (unitsOfText key) value.toTree)
      (newLine depth ++ (writeString key ++ ':' :: ' ' :: value.indented depth)) :=
  .onNewLine depth (spells_writtenMember key (.blank rfl spells))

theorem spells_indentedMembers {members : List (String × Value)} (depth : Nat)
    (each : ∀ member ∈ members, Spells (.value member.2.toTree) (member.2.indented (depth + 1))) :
    Spells (.members (memberTrees members)) (indentedMembers depth members) := by
  induction members with
  | nil => exact .onNewLine depth .closeObject
  | cons member members ih =>
    rw [List.forall_mem_cons] at each
    have spells := (spells_indentedMember member.1 (depth + 1) each.1).nextMember (ih each.2)
    simpa [indentedMembers, memberTrees] using spells

namespace Integral

variable {value : Value}

/-- However deep inside a document it stands, the indented form spells the value. -/
theorem spells_indented (integral : value.Integral) (depth : Nat) :
    Spells (.value value.toTree) (value.indented depth) := by
  -- the parts of a list or an object stand one level further in
  induction integral generalizing depth with
  | null =>
    rw [indented]
    exact .null
  | bool value =>
    rw [indented]
    exact .bool value
  | integer value lower upper =>
    rw [indented]
    exact .number (numeral_render value lower upper)
  | string text =>
    rw [indented]
    exact spells_writeString text
  | @array elements _ ih =>
    cases elements with
    | nil =>
      rw [indented]
      exact .emptyArray .closeArray
    | cons first rest =>
      have each := List.forall_mem_cons.mp fun element inside => ih element inside (depth + 1)
      rw [indented]
      exact .array (each.1.onNewLine (depth + 1)) (spells_indentedElements depth each.2)
  | @object members _ ih =>
    cases members with
    | nil =>
      rw [indented]
      exact .emptyObject .closeObject
    | cons first rest =>
      have each := List.forall_mem_cons.mp fun member inside => ih member inside (depth + 1)
      have spells := (spells_indentedMember first.1 (depth + 1) each.1).object
        (spells_indentedMembers depth each.2)
      simpa [indented, toTree, memberTrees] using spells

theorem renderedAs_toTree (integral : value.Integral) : value.RenderedAs value.toTree := by
  induction integral with
  | null => exact .null
  | bool value => exact .bool value
  | integer value lower upper => exact .integer value lower upper
  | string text => exact .string text
  | @array elements _ ih =>
    rw [toTree, elementTrees_eq_map]
    refine .array (List.length_map _).symm fun index element tree given found => ?_
    rw [List.getElem?_map, given] at found
    cases found
    exact ih element (List.mem_of_getElem? given)
  | @object members _ ih =>
    rw [toTree, memberTrees_eq_map]
    refine .object (.refl _) (by rw [List.map_map]; rfl) fun index entry member given found => ?_
    rw [List.getElem?_map, given] at found
    cases found
    exact ih entry (List.mem_of_getElem? given)

variable {blanks : List Char}

theorem spelled_indented (integral : value.Integral) (blank : ∀ c ∈ blanks, isBlank c = true) :
    Spelled value.toTree (String.ofList (value.indented 0 ++ blanks)) :=
  ⟨_, blanks, integral.spells_indented 0, blank, String.toList_ofList⟩

theorem decode_indented (integral : value.Integral) (canonical : value.Canonical) {depth : Nat}
    (shallow : value.depth ≤ depth) (blank : ∀ c ∈ blanks, isBlank c = true) :
    decode (readDatum depth) (String.ofList (value.indented 0 ++ blanks))
      = .ok ⟨value, canonical⟩ := by
  rw [(Reads.datum depth).decode_iff (integral.spelled_indented blank)]
  exact integral.renderedAs_toTree.decodeDatum canonical (by rwa [depth_toTree])

end Integral

end Value

end DeployGate.Json
