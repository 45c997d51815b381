import DeployGate.Json.Canonical
import DeployGate.Proofs.Json.Faults

/-!
# Places of faults

A reader of a list, an object or a record leaves an end of its text or finds a fault in it if the
readers of the parts do. So the place that is told when a document cannot be decoded lies in the
document: it is the line and the column of one of its bytes, or of its end.
-/

namespace DeployGate.Json

variable {α σ : Type} {text : List Char}

/-! ### Lists -/

/-- What is left when the step has been taken. -/
def ListStep.left : ListStep text → List Char
  | close rest _ => rest
  | element rest => rest.val

theorem stays_nextElement (first : Bool) (text : List Char) :
    Stays ListStep.left text (nextElement first text) := by
  rw [nextElement]
  split
  next => exact .next List.nil_suffix
  next c rest skipped =>
    have suffix := tail_suffix_of_skipBlank skipped
    split
    · exact suffix
    · split
      · exact List.suffix_rfl
      · split
        · split
          next => exact .next List.nil_suffix
          next after skipped' => exact .next ((suffix_of_skipBlank skipped').trans suffix)
          next => exact suffix
        · exact .next (suffix_of_skipBlank skipped)

theorem stays_readElements {item : Reader α} (stays : item.Stays) (first : Bool)
    (text : List Char) : Stays Found.rest text (readElements item first text) := by
  -- by the cases of the reader: the other elements are read of what the first one leaves
  fun_induction readElements item first text with
  | case1 first text fault next => exact (stays_nextElement first text).error next
  | case2 first text rest shorter next => exact (stays_nextElement first text).ok next
  | case3 first text rest le next fault read =>
    exact ((stays rest).error read).trans ((stays_nextElement first text).ok next)
  | case4 first text rest le next value after shorter read fault others ih =>
    have suffix := ((stays rest).ok read).trans ((stays_nextElement first text).ok next)
    exact (ih.trans suffix).error others
  | case5 first text rest le next value after shorter read values last shorter' others ih =>
    have suffix := ((stays rest).ok read).trans ((stays_nextElement first text).ok next)
    exact (ih.trans suffix).ok others

theorem stays_readList {item : Option (Reader α)} (stays : ∀ reader ∈ item, reader.Stays) :
    (readList item).Stays := by
  refine .afterBlank fun text => ?_
  split
  next rest =>
    cases item with
    | none => exact .next List.suffix_rfl
    | some item => exact (stays_readElements (stays item rfl) true rest).cons.map fun _ => rfl
  next => exact within_mismatch _ _

theorem stays_closeList : closeList.Stays := by
  refine .afterBlank fun text => ?_
  split
  next => exact .next List.suffix_rfl
  next rest => exact List.suffix_cons _ rest
  next rest =>
    have suffix := (skipBlank_suffix rest).trans (List.suffix_cons ',' rest)
    split
    next after skipped => exact .next (skipped ▸ suffix)
    next => exact .next suffix
  next => exact .next List.suffix_rfl

/-! ### Objects -/

theorem stays_afterColon {reader : Reader α} (stays : reader.Stays) :
    (afterColon reader).Stays := by
  refine .afterBlank fun text => ?_
  split
  next => exact .next List.suffix_rfl
  next rest => exact (stays rest).cons.map fun _ => rfl
  next => exact .next List.suffix_rfl

theorem settle_suffix (text : List Char) : settle text <:+ text := by
  rw [settle]
  split
  next skipped => exact tail_suffix_of_skipBlank skipped
  next => exact skipBlank_suffix text

/-- Every reader of a value that a key asks for stays in its text. -/
def MemberFold.Stays (member : MemberFold σ) : Prop :=
  ∀ state key reader, member state key = .ok reader → Reader.Stays reader

section

variable {member : MemberFold σ} (stays : MemberFold.Stays member)

include stays

/-- A key and its value leave an end of the text, or there is a fault in them. -/
theorem stays_memberValue {state : σ} {key : String} {afterKey : List Char} {shorter}
    {reader : Reader σ} (quoted : readQuoted text = .ok ⟨key, afterKey, shorter⟩)
    (known : member state key = .ok reader) :
    Stays Found.rest text (afterColon reader afterKey) :=
  (stays_afterColon (stays state key reader known) afterKey).trans
    ((stays_readQuoted text).ok quoted)

theorem stays_readMembers (state : σ) (text : List Char) :
    Stays Found.rest text (readMembers member state text) := by
  -- by the cases of the reader: a key, its value, and what may follow behind blanks
  fun_induction readMembers member state text with
  | case1 state text fault quoted => exact (stays_readQuoted text).error quoted
  -- a member that is refused by its key is blamed behind the brace, if that is all that follows
  | case2 state text key afterKey shorter quoted cause refused =>
    exact .here ((settle_suffix afterKey).trans ((stays_readQuoted text).ok quoted))
  | case3 state text key afterKey shorter quoted reader known fault read =>
    exact (stays_memberValue stays quoted known).error read
  | case4 => exact .next List.nil_suffix
  | case5 state text key afterKey shorter quoted reader known value after shorter' read rest
      skipped =>
    have suffix := (stays_memberValue stays quoted known).ok read
    exact (tail_suffix_of_skipBlank skipped).trans suffix
  | case6 => exact .next List.nil_suffix
  | case7 state text key afterKey shorter quoted reader known value after shorter' read rest skipped
      _ inKey skipped' _ ih =>
    have suffix := (stays_memberValue stays quoted known).ok read
    have rest := (tail_suffix_of_skipBlank skipped).trans suffix
    exact (ih.trans ((tail_suffix_of_skipBlank skipped').trans rest)).map fun _ => rfl
  | case8 state text key afterKey shorter quoted reader known value after shorter' read rest skipped
      _ last skipped' =>
    have suffix := (stays_memberValue stays quoted known).ok read
    have rest := (tail_suffix_of_skipBlank skipped).trans suffix
    exact .next ((suffix_of_skipBlank skipped').trans rest)
  | case9 state text key afterKey shorter quoted reader known value after shorter' read rest
      skipped =>
    have suffix := (stays_memberValue stays quoted known).ok read
    have rest := (tail_suffix_of_skipBlank skipped).trans suffix
    exact .next ((skipBlank_suffix _).trans rest)
  | case10 state text key afterKey shorter quoted reader known value after shorter' read =>
    have suffix := (stays_memberValue stays quoted known).ok read
    exact .next ((skipBlank_suffix after).trans suffix)

theorem stays_readObject (state : σ) : (readObject member state).Stays := by
  refine .afterBlank fun text => ?_
  split
  next => exact .next List.suffix_rfl
  next rest => exact List.suffix_cons _ rest
  next inKey => exact (stays_readMembers stays state inKey).cons.map fun _ => rfl
  next => exact .next List.suffix_rfl

end

/-! ### Records -/

namespace Keys

/-- The readers of the values of all keys stay in their texts. -/
def Stay : Keys βs → Prop
  | nil => True
  | cons key keys => key.read.Stays ∧ keys.Stay

theorem stays_member? {keys : Keys βs} (stay : keys.Stay) {slots : Slots βs} {name : String}
    {reader : Reader (Slots βs)} (known : keys.member? slots name = some (.ok reader)) :
    reader.Stays := by
  induction keys with
  | nil => cases known
  | cons key keys ih =>
    obtain ⟨slot, slots⟩ := slots
    by_cases same : key.name = name
    · cases slot with
      | some value => simp [member?, same] at known
      | none =>
        simp only [member?, same, if_true] at known
        cases known
        exact stay.1.map _
    · simp only [member?, same, if_false, Option.map_eq_some_iff] at known
      obtain ⟨result, found, filled⟩ := known
      cases result with
      | error cause => cases filled
      | ok inner =>
        cases filled
        exact (ih stay.2 found).map _

theorem stays_readRow {keys : Keys βs} (stay : keys.Stay) (expected : String) (index : Nat)
    (text : List Char) : Stays Found.rest text (keys.readRow expected index text) := by
  induction keys generalizing index text with
  | nil => exact (stays_closeList text).map fun _ => rfl
  | cons key keys ih =>
    have step := stays_nextElement (index == 0) text
    rw [readRow]
    split
    next next => exact step.error next
    next rest shorter next =>
      split
      · exact .here (step.ok next)
      · exact (ih stay.2 index text).map fun _ => rfl
    next rest le next =>
      have value := (stay.1 rest).trans (step.ok next)
      split
      next read => exact value.error read
      next read => exact ((ih stay.2 (index + 1) _).trans (value.ok read)).map fun _ => rfl

end Keys

theorem Record.stays_member (record : Record α) (stay : record.keys.Stay) :
    MemberFold.Stays record.member := by
  intro slots name reader asked
  rw [member] at asked
  split at asked
  next known => exact Keys.stays_member? stay (known.trans (congrArg some asked))
  next =>
    split at asked
    · cases asked
    · cases asked
      exact stays_skipValue.map _

theorem stays_readRecord (name : String) {record : Option (Record α)}
    (stay : ∀ inner ∈ record, inner.keys.Stay) : (readRecord name record).Stays := by
  refine .afterBlank fun text => ?_
  split
  next rest =>
    cases record with
    | none => exact .next List.suffix_rfl
    | some record =>
      exact (Keys.stays_readRow (stay record rfl) _ 0 rest).cons.map fun _ => rfl
  next rest =>
    cases record with
    | none => exact .next List.suffix_rfl
    | some record =>
      have object := stays_readObject (record.stays_member (stay record rfl)) record.keys.empty
      have members : Stays Found.rest ('\x7b' :: rest) _ := (object rest).cons
      simp only
      split
      next read => exact members.error read
      next slots after shorter read =>
        have suffix := members.ok read
        split
        · -- a key that is missing is missed behind the object
          exact .here suffix
        · exact suffix
  next => exact within_mismatch _ _

/-! ### Untyped values -/

theorem stays_memberValues {item : Reader Datum} (stays : item.Stays) :
    MemberFold.Stays (memberValues item) := by
  rintro members key reader ⟨⟩
  exact stays.map _

theorem stays_readDatumWithin {item : Option (Reader Datum)}
    (stays : ∀ reader ∈ item, reader.Stays) : (readDatumWithin item).Stays := by
  refine .afterBlank fun text => ?_
  split
  next => exact .next List.suffix_rfl
  next rest => exact stays_readWord _ _ _ rest
  next rest => exact stays_readWord _ _ _ rest
  next rest => exact stays_readWord _ _ _ rest
  next rest => exact (stays_readQuoted rest).cons.map fun _ => rfl
  next rest =>
    cases item with
    | none => exact .next List.suffix_rfl
    | some item => exact (stays_readElements (stays item rfl) true rest).cons.map fun _ => rfl
  next rest =>
    cases item with
    | none => exact .next List.suffix_rfl
    | some item =>
      have object := stays_readObject (stays_memberValues (stays item rfl)) .empty
      exact (object rest).cons.map fun _ => rfl
  next =>
    split
    · exact (stays_readNumber _).map fun _ => rfl
    · exact .next List.suffix_rfl

theorem stays_readDatum (depth : Nat) : (readDatum depth).Stays := by
  induction depth with
  | zero => exact stays_readDatumWithin (by simp)
  | succ depth ih => exact stays_readDatumWithin (by simpa using ih)

theorem stays_readMembersOf {item : Option (Reader Datum)} (stays : ∀ reader ∈ item, reader.Stays) :
    (readMembersOf item).Stays := by
  refine .afterBlank fun text => ?_
  split
  next rest =>
    cases item with
    | none => exact .next List.suffix_rfl
    | some item =>
      have object := stays_readObject (stays_memberValues (stays item rfl)) .empty
      exact (object rest).cons.map fun _ => rfl
  next => exact within_mismatch _ _

/-! ### Documents -/

theorem within_readAll {reader : Reader α} (stays : reader.Stays) {document : List Char}
    {fault : Fault} (failed : readAll reader document = .error fault) : fault.Within document := by
  have whole := stays document
  rw [readAll] at failed
  split at failed
  next read =>
    cases failed
    exact whole.error read
  next found read =>
    split at failed
    · cases failed
    · cases failed
      exact .next ((skipBlank_suffix found.rest).trans (whole.ok read))

/-! ### Places -/

theorem byteCount_toList (document : String) :
    Text.byteCount document.toList = document.utf8ByteSize := by
  have bytes : document.toByteArray
      = (document.toList.flatMap String.utf8EncodeChar).toByteArray := by
    rw [← String.utf8Encode_toList, List.utf8Encode]
  rw [← String.size_toByteArray, bytes, List.size_toByteArray]
  induction document.toList with
  | nil => rfl
  | cons c text ih =>
    rw [byteCount_cons, List.flatMap_cons, List.length_append, String.length_utf8EncodeChar, ih]

/-- The place is that of the byte with the offset, or of the end of the document. Lines end with a
line feed, and the bytes of a line count its columns. -/
structure Place.IsAt (place : Place) (document : String) (offset : Nat) : Prop where
  inside : offset ≤ document.utf8ByteSize
  line : place.line = 1 + (document.toUTF8.data.toList.take offset).count 10
  column : ∃ last : List UInt8, 10 ∉ last ∧ place.column = last.length ∧
    (document.toUTF8.data.toList.take offset = last ∨
      ∃ earlier, document.toUTF8.data.toList.take offset = earlier ++ 10 :: last)

/-- A column counts the bytes behind the last line feed. -/
theorem Place.column_after (bytes : List UInt8) :
    ∃ last : List UInt8, 10 ∉ last ∧ (Place.after bytes).column = last.length ∧
      (bytes = last ∨ ∃ earlier, bytes = earlier ++ 10 :: last) := by
  -- the last line is what stands behind every line feed, looked at from the end
  let last := (bytes.reverse.takeWhile (· ≠ 10)).reverse
  have split : bytes = (bytes.reverse.dropWhile (· ≠ 10)).reverse ++ last := by
    rw [← List.reverse_append, List.takeWhile_append_dropWhile, List.reverse_reverse]
  refine ⟨last, ?_, ?_, ?_⟩
  · intro inside
    have other : (10 : UInt8) ∈ bytes.reverse.takeWhile (· ≠ 10) := List.mem_reverse.mp inside
    have differ := List.all_eq_true.mp List.all_takeWhile 10 other
    simp at differ
  · rw [List.length_reverse]
    rfl
  · cases left : bytes.reverse.dropWhile (· ≠ 10) with
    | nil =>
      rw [left] at split
      exact .inl split
    | cons byte earlier =>
      have feed : byte = 10 := by
        have stops := List.head?_dropWhile_not (· ≠ (10 : UInt8)) bytes.reverse
        rw [left] at stops
        simpa using stops
      rw [left, feed, List.reverse_cons, List.append_assoc] at split
      exact .inr ⟨earlier.reverse, split⟩

theorem Fault.isAt_place (fault : Fault) (document : String) :
    (fault.place document).IsAt document (fault.offset document) where
  inside := Nat.min_le_left _ _
  line := Nat.add_comm _ 1
  column := Place.column_after _

/-- A fault points at most to the end of the document, without being held back there unless nothing
is left to be read. -/
theorem Fault.Within.offset_eq {fault : Fault} {document : String}
    (within : fault.Within document.toList) :
    ∃ consumed, document.toList = consumed ++ fault.rest ∧
      fault.offset document
        = Text.byteCount consumed + if fault.rest = [] then 0 else fault.ahead := by
  obtain ⟨consumed, same⟩ := within.suffix
  have size := byteCount_toList document
  rw [← same, byteCount_append] at size
  refine ⟨consumed, same.symm, ?_⟩
  rw [Fault.offset, ← size]
  split
  -- at the end of the document a fault on the next byte is blamed on the end itself
  next ended =>
    have nothing : Text.byteCount fault.rest = 0 := by rw [ended]; rfl
    omega
  next more =>
    have ahead := within.ahead.resolve_right more
    omega

/-- The defect of a document is the fault that its reading ends with. The place is counted from what
had been read then. -/
theorem decode_error_isAt {reader : Reader α} (stays : reader.Stays) {document : String}
    {defect : Defect} (failed : decode reader document = .error defect) :
    ∃ fault consumed, readAll reader document.toList = .error fault ∧
      defect.cause = fault.cause ∧ document.toList = consumed ++ fault.rest ∧ fault.ahead ≤ 4 ∧
        defect.place.IsAt document
          (Text.byteCount consumed + if fault.rest = [] then 0 else fault.ahead) := by
  rw [decode] at failed
  cases read : readAll reader document.toList with
  | ok value => simp [read, Except.mapError] at failed
  | error fault =>
    obtain rfl : ⟨fault.cause, fault.place document⟩ = defect := by
      simpa [read, Except.mapError] using failed
    have within := within_readAll stays read
    obtain ⟨consumed, same, offset⟩ := within.offset_eq
    have isAt := fault.isAt_place document
    rw [offset] at isAt
    exact ⟨fault, consumed, rfl, rfl, same, within.near, isAt⟩

end DeployGate.Json
