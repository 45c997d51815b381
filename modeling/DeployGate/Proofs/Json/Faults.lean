import DeployGate.Proofs.Json.Skipping

/-!
# Where faults lie

Wherever reading fails, what was still to be read is an end of the text that the reader was given,
and the bytes that the fault points ahead are there to be pointed at, unless the text has ended.
Wherever it succeeds, what is left is such an end as well. Both are told together for every reader,
as the next reader goes on with what the last one has left.
-/

namespace DeployGate.Json

variable {α β σ : Type} {text rest whole : List Char}

/-! ### Faults in a text -/

/-- The fault lies in the text: it was found at an end of the text, and points at most to the end of
that, or nothing was left. It never points far. -/
structure Fault.Within (fault : Fault) (text : List Char) : Prop where
  suffix : fault.rest <:+ text
  ahead : fault.ahead ≤ Text.byteCount fault.rest ∨ fault.rest = []
  near : fault.ahead ≤ 4

theorem byteCount_cons (c : Char) (text : List Char) :
    Text.byteCount (c :: text) = c.utf8Size + Text.byteCount text :=
  rfl

theorem byteCount_append (text rest : List Char) :
    Text.byteCount (text ++ rest) = Text.byteCount text + Text.byteCount rest := by
  induction text with
  | nil => simp [Text.byteCount]
  | cons c text ih => rw [List.cons_append, byteCount_cons, ih, byteCount_cons, Nat.add_assoc]

namespace Fault.Within

variable {fault : Fault} {cause : Cause}

theorem here (suffix : rest <:+ text) : (Fault.here cause rest).Within text :=
  ⟨suffix, .inl (Nat.zero_le _), Nat.zero_le 4⟩

theorem next (suffix : rest <:+ text) : (Fault.next cause rest).Within text := by
  have near : 1 ≤ 4 := by decide
  refine ⟨suffix, ?_, near⟩
  cases rest with
  | nil => exact .inr rfl
  | cons c rest => exact .inl (Nat.le_add_right_of_le c.utf8Size_pos)

theorem trans (within : fault.Within text) (suffix : text <:+ whole) : fault.Within whole :=
  ⟨within.suffix.trans suffix, within.ahead, within.near⟩

end Fault.Within

/-- A reading of the text leaves an end of it, or finds a fault in it. -/
def Stays (left : α → List Char) (text : List Char) : Except Fault α → Prop
  | .ok value => left value <:+ text
  | .error fault => fault.Within text

namespace Stays

variable {left : α → List Char} {left' : β → List Char} {reading : Except Fault α} {c : Char}

theorem ok {value : α} (stays : Stays left text reading) (read : reading = .ok value) :
    left value <:+ text := by
  rw [read] at stays
  exact stays

theorem error {fault : Fault} (stays : Stays left text reading) (read : reading = .error fault) :
    fault.Within text := by
  rw [read] at stays
  exact stays

theorem trans (stays : Stays left text reading) (suffix : text <:+ whole) :
    Stays left whole reading := by
  cases reading with
  | ok value => exact List.IsSuffix.trans stays suffix
  | error fault => exact Fault.Within.trans stays suffix

theorem cons (stays : Stays left text reading) : Stays left (c :: text) reading :=
  stays.trans (List.suffix_cons c text)

theorem map {f : α → β} (stays : Stays left text reading)
    (same : ∀ value, left' (f value) = left value) : Stays left' text (reading.map f) := by
  cases reading with
  | ok value =>
    change left' (f value) <:+ text
    rw [same]
    exact stays
  | error fault => exact stays

end Stays

/-- Whatever the text, the reader leaves an end of it or finds a fault in it. -/
def Reader.Stays (reader : Reader α) : Prop := ∀ text, Json.Stays Found.rest text (reader text)

theorem skipBlank_suffix (text : List Char) : skipBlank text <:+ text := List.dropWhile_suffix _

theorem suffix_of_skipBlank (skipped : skipBlank text = rest) : rest <:+ text :=
  skipped ▸ skipBlank_suffix text

theorem tail_suffix_of_skipBlank {c : Char} (skipped : skipBlank text = c :: rest) :
    rest <:+ text :=
  (List.suffix_cons c rest).trans (suffix_of_skipBlank skipped)

namespace Reader.Stays

variable {reader : Reader α}

theorem map (f : α → β) (stays : reader.Stays) : (reader.map f).Stays :=
  fun text => (stays text).map fun _ => rfl

theorem afterBlank (stays : reader.Stays) : (afterBlank reader).Stays := by
  intro text
  have solid := (stays (skipBlank text)).trans (skipBlank_suffix text)
  exact solid.map fun _ => rfl

end Reader.Stays

/-! ### Words -/

theorem stays_dropWord (word text : List Char) : Stays id text (dropWord word text) := by
  fun_induction dropWord word text with
  | case1 text => exact List.suffix_rfl
  | case2 => exact .here List.suffix_rfl
  | case3 word c rest ih => exact ih.cons
  | case4 => exact .next List.suffix_rfl

theorem stays_readWord (first : Char) (word : String) (value : α) (text : List Char) :
    Stays Found.rest (first :: text) (readWord first word value text) := by
  rw [readWord]
  split
  next dropped => exact ((stays_dropWord _ text).ok dropped).trans (List.suffix_cons first text)
  next dropped => exact ((stays_dropWord _ text).error dropped).trans (List.suffix_cons first text)

/-! ### Strings -/

theorem within_brokenHex (text : List Char) : (brokenHex text).Within text := by
  rw [brokenHex]
  split
  next => exact .here (List.nil_suffix)
  next enough =>
    -- the four bytes that were taken are there, whether or not they end between two characters
    refine ⟨List.suffix_rfl, .inl ?_, Nat.le_refl 4⟩
    have split := byteCount_append (text.take 4) (text.drop 4)
    rw [List.take_append_drop] at split
    change 4 ≤ Text.byteCount text
    omega

theorem stays_readHex (text : List Char) : Stays Found.rest text (readHex text) := by
  rw [readHex.eq_def]
  split
  next a b c d rest =>
    split
    next => exact ⟨[a, b, c, d], rfl⟩
    next => exact within_brokenHex _
  next => exact within_brokenHex text

theorem stays_readLowSurrogate (high : Nat) (text : List Char) :
    Stays Found.rest text (readLowSurrogate high text) := by
  rw [readLowSurrogate.eq_def]
  split
  next => exact .here List.suffix_rfl
  next => exact .here List.nil_suffix
  next rest =>
    have stays : Stays Found.rest ('\\' :: 'u' :: rest) (readHex rest) :=
      (stays_readHex rest).cons.cons
    split
    next read => exact stays.error read
    next low after shorter read =>
      have suffix := stays.ok read
      split
      · exact suffix
      · -- a half that is none is blamed behind its digits
        exact .here suffix
  next rest _ _ => exact .next (List.suffix_cons _ rest)
  next => exact .next List.suffix_rfl

theorem stays_readEscape (text : List Char) : Stays Found.rest text (readEscape text) := by
  rw [readEscape.eq_def]
  split
  next => exact .here List.suffix_rfl
  next rest =>
    have stays : Stays Found.rest ('u' :: rest) (readHex rest) := (stays_readHex rest).cons
    split
    next read => exact stays.error read
    next unit after shorter read =>
      have suffix := stays.ok read
      split
      · exact .here suffix
      · split
        · exact ((stays_readLowSurrogate unit after).trans suffix).map fun _ => rfl
        · exact suffix
  next c rest _ =>
    split
    next => exact List.suffix_cons c rest
    next => exact .next List.suffix_rfl

theorem stays_readString (text : List Char) : Stays Found.rest text (readString text) := by
  -- by the cases of the reader: it goes on with what an escape or a character leaves
  fun_induction readString text with
  | case1 => exact .here List.suffix_rfl
  | case2 rest => exact List.suffix_cons _ rest
  | case3 rest fault read => exact (stays_readEscape rest).cons.error read
  | case4 rest c after shorter escaped fault read ih =>
    exact (ih.trans ((stays_readEscape rest).ok escaped)).cons.error read
  | case5 rest c after shorter escaped cs last shorter' read ih =>
    exact (ih.trans ((stays_readEscape rest).ok escaped)).cons.ok read
  | case6 c rest => exact .next List.suffix_rfl
  | case7 c rest _ _ _ fault read ih => exact ih.cons.error read
  | case8 c rest _ _ _ cs last shorter read ih => exact ih.cons.ok read

theorem stays_readQuoted : readQuoted.Stays := Reader.Stays.map String.ofList stays_readString

theorem stays_skipString (text : List Char) : Stays Found.rest text (skipString text) := by
  fun_induction skipString text with
  | case1 => exact .here List.suffix_rfl
  | case2 rest => exact List.suffix_cons _ rest
  | case3 => exact .here List.nil_suffix
  | case4 rest fault read => exact (stays_readHex rest).cons.cons.error read
  | case5 rest unit after shorter read ih =>
    exact (ih.trans ((stays_readHex rest).ok read)).cons.cons.map fun _ => rfl
  | case6 c rest _ _ ih => exact ih.cons.cons.map fun _ => rfl
  | case7 c rest => exact .next (List.suffix_cons _ _)
  -- unlike a reader, what skips a string blames the byte in front of a control character
  | case8 => exact .here List.suffix_rfl
  | case9 c rest _ _ _ _ _ ih => exact ih.cons.map fun _ => rfl

/-! ### Numbers -/

theorem dropDigits_suffix (text : List Char) : dropDigits text <:+ text := List.dropWhile_suffix _

theorem exponentSign_suffix (text : List Char) : (exponentSign text).2.val <:+ text := by
  rw [exponentSign.eq_def]
  split
  · exact List.suffix_cons _ _
  · exact List.suffix_cons _ _
  · exact List.suffix_rfl

theorem afterExceeding_suffix {limit value : Nat}
    (exceeds : afterExceeding limit value text = some rest) : rest <:+ text := by
  fun_induction afterExceeding limit value text with
  | case1 => cases exceeds
  | case2 =>
    cases exceeds
    exact List.suffix_cons _ rest
  | case3 value c text _ _ _ ih => exact (ih exceeds).trans (List.suffix_cons c text)
  | case4 => cases exceeds

theorem stays_readExponent (word : UInt64) (text : List Char) :
    Stays (fun found : Int × Remainder text => found.2.val) text (readExponent word text) := by
  have suffix := exponentSign_suffix text
  rw [readExponent]
  generalize exponentSign text = signed at suffix
  obtain ⟨down, digits, shorter⟩ := signed
  simp only at suffix ⊢
  split
  next => exact .here List.nil_suffix
  next c _ =>
    split
    next => exact .next suffix
    next =>
      split
      next rest exceeds =>
        -- the exponent is refused behind the digit with which it is too large
        have exceeds : afterExceeding 0x7fffffff 0 digits = some rest := by
          split at exceeds
          · cases exceeds
          · exact exceeds
        exact .here ((afterExceeding_suffix exceeds).trans suffix)
      next => exact (dropDigits_suffix digits).trans suffix

theorem stays_readOptionalExponent (word : UInt64) (text : List Char) :
    Stays (fun found : Int × Remainder text => found.2.val) text
      (readOptionalExponent word text) := by
  rw [readOptionalExponent]
  split
  · exact ((stays_readExponent word text.tail).trans (List.tail_suffix text)).map fun _ => rfl
  · exact List.suffix_rfl

theorem stays_readScaled (negative : Bool) (word : UInt64) (exponent : Int) (text : List Char) :
    Stays (fun found : Number × Remainder text => found.2.val) text
      (readScaled negative word exponent text) := by
  have stays := stays_readOptionalExponent word text
  rw [readScaled]
  split
  next read => exact stays.error read
  next shift rest read =>
    have suffix := stays.ok read
    split
    · exact suffix
    · exact .here suffix

theorem stays_readFraction (negative : Bool) (whole text : List Char) :
    Stays (fun found : Number × Remainder text => found.2.val) text
      (readFraction negative whole text) := by
  rw [readFraction.eq_def]
  generalize absorb 0 whole = absorbed
  obtain ⟨word, spare⟩ := absorbed
  simp only
  split
  next rest =>
    have suffix := (dropDigits_suffix rest).trans (List.suffix_cons '.' rest)
    split
    · exact .next suffix
    · exact ((stays_readScaled negative _ _ _).trans suffix).map fun _ => rfl
  next =>
    split
    · exact stays_readScaled negative word _ _
    · exact List.suffix_rfl

theorem stays_readMagnitude (negative : Bool) (text : List Char) :
    Stays Found.rest text (readMagnitude negative text) := by
  rw [readMagnitude.eq_def]
  split
  next => exact .here List.suffix_rfl
  next c rest =>
    have suffix := (dropDigits_suffix rest).trans (List.suffix_cons c rest)
    split
    · exact .next List.suffix_rfl
    · split
      · exact .next (List.suffix_cons c rest)
      · exact ((stays_readFraction negative _ _).trans suffix).map fun _ => rfl

theorem stays_readNumber : readNumber.Stays := by
  intro text
  rw [readNumber.eq_def]
  split
  next rest => exact (stays_readMagnitude true rest).cons.map fun _ => rfl
  next => exact stays_readMagnitude false text

theorem stays_skipFraction (text : List Char) : Stays Subtype.val text (skipFraction text) := by
  rw [skipFraction.eq_def]
  split
  next rest =>
    have suffix := (dropDigits_suffix rest).trans (List.suffix_cons '.' rest)
    split
    · exact .next suffix
    · exact suffix
  next => exact List.suffix_rfl

theorem stays_skipExponent (text : List Char) : Stays Subtype.val text (skipExponent text) := by
  have suffix := (exponentSign_suffix text.tail).trans (List.tail_suffix text)
  rw [skipExponent]
  generalize exponentSign text.tail = signed at suffix
  obtain ⟨down, digits, shorter⟩ := signed
  simp only at suffix ⊢
  split
  · split
    · exact .next suffix
    · exact (dropDigits_suffix digits).trans suffix
  · exact List.suffix_rfl

theorem stays_skipMagnitude (text : List Char) : Stays Found.rest text (skipMagnitude text) := by
  rw [skipMagnitude.eq_def]
  split
  next => exact .here List.suffix_rfl
  next c rest =>
    split
    · exact .next List.suffix_rfl
    · split
      · exact .next (List.suffix_cons c rest)
      · -- the exponent is looked for in what the fraction leaves
        have suffix := (dropDigits_suffix rest).trans (List.suffix_cons c rest)
        have fraction := (stays_skipFraction (dropDigits rest)).trans suffix
        cases skipped : skipFraction (dropDigits rest) with
        | error fault => exact fraction.error skipped
        | ok after =>
          have exponent := (stays_skipExponent after.val).trans (fraction.ok skipped)
          simp only [bind, Except.bind]
          cases skipped' : skipExponent after.val with
          | error fault => exact exponent.error skipped'
          | ok last => exact exponent.ok skipped'

theorem stays_skipNumber : skipNumber.Stays := by
  intro text
  rw [skipNumber.eq_def]
  split
  next rest => exact (stays_skipMagnitude rest).cons.map fun _ => rfl
  next => exact stays_skipMagnitude text

/-! ### Scalars -/

theorem within_mismatch_word (letters expected : String) (found : Unexpected) (text : List Char) :
    (mismatch.word expected letters found text).Within text := by
  have stays := stays_dropWord letters.toList text
  rw [mismatch.word]
  split
  next read => exact .here (stays.ok read)
  next read => exact stays.error read

/-- A value of another type is refused behind it, or in front of it where it has parts. -/
theorem within_mismatch (expected : String) (text : List Char) :
    (mismatch expected text).Within text := by
  rw [mismatch.eq_def]
  split
  next => exact .next List.suffix_rfl
  next rest => exact (within_mismatch_word _ _ _ rest).trans (List.suffix_cons _ rest)
  next rest => exact (within_mismatch_word _ _ _ rest).trans (List.suffix_cons _ rest)
  next rest => exact (within_mismatch_word _ _ _ rest).trans (List.suffix_cons _ rest)
  next rest =>
    have stays : Stays Found.rest ('"' :: rest) (readQuoted rest) := (stays_readQuoted rest).cons
    split
    next read => exact .here (stays.ok read)
    next read => exact stays.error read
  -- nothing of a list or an object is read before it is refused
  next => exact .here List.suffix_rfl
  next => exact .here List.suffix_rfl
  next =>
    split
    · split
      next read => exact .here ((stays_readNumber text).ok read)
      next read => exact (stays_readNumber text).error read
    · exact .next List.suffix_rfl

theorem stays_readText : readText.Stays := by
  refine .afterBlank fun text => ?_
  split
  next rest => exact (stays_readQuoted rest).cons.map fun _ => rfl
  next => exact within_mismatch _ _

theorem stays_readNullable {reader : Reader α} (stays : reader.Stays) :
    (readNullable reader).Stays := by
  refine .afterBlank fun text => ?_
  split
  next rest => exact stays_readWord _ _ _ rest
  next => exact (stays text).map fun _ => rfl

theorem stays_readUnsigned : readUnsigned.Stays := by
  refine .afterBlank fun text => ?_
  have stays := stays_readNumber text
  split
  · split
    next read => exact stays.error read
    next read =>
      have suffix := stays.ok read
      split
      · exact .here suffix
      · exact suffix
    next read => exact .here (stays.ok read)
  · exact within_mismatch _ _

/-! ### Skipping -/

theorem stays_skipScalar : skipScalar.Stays := by
  intro text
  rw [skipScalar.eq_def]
  split
  next rest => exact stays_readWord _ _ _ rest
  next rest => exact stays_readWord _ _ _ rest
  next rest => exact stays_readWord _ _ _ rest
  next rest => exact (stays_skipString rest).cons.map fun _ => rfl
  next =>
    split
    · exact stays_skipNumber text
    · exact .next List.suffix_rfl

/-- Skipping leaves an end of the text or finds a fault in it, whatever is open around the text. -/
structure SkipStays (text : List Char) : Prop where
  nested : ∀ nest, Stays id text (leftNested nest text)
  after : ∀ nest, Stays id text (leftAfter nest text)
  member : ∀ nest, Stays id text (leftMember nest text)

section

variable (shorter : ∀ rest : List Char, rest.length < text.length → SkipStays rest)

include shorter

theorem stays_leftNested (nest : List Bracket) : Stays id text (leftNested nest text) := by
  have after (rest : List Char) (lt : rest.length < text.length) (suffix : rest <:+ text) :
      Stays id text (leftAfter nest rest) :=
    ((shorter rest lt).after nest).trans suffix
  rw [leftNested_eq]
  split
  next => exact .next List.nil_suffix
  next rest skipped =>
    have lt := length_lt_of_skipBlank skipped
    have suffix := tail_suffix_of_skipBlank skipped
    split
    next => exact .next List.nil_suffix
    next last skipped' =>
      have lt' := length_lt_of_skipBlank skipped'
      exact after last (by omega) ((tail_suffix_of_skipBlank skipped').trans suffix)
    next => exact ((shorter rest lt).nested _).trans suffix
  next rest skipped =>
    have lt := length_lt_of_skipBlank skipped
    have suffix := tail_suffix_of_skipBlank skipped
    split
    next last skipped' =>
      have lt' := length_lt_of_skipBlank skipped'
      exact after last (by omega) ((tail_suffix_of_skipBlank skipped').trans suffix)
    next => exact ((shorter rest lt).member nest).trans suffix
  next c rest _ _ skipped =>
    -- behind a scalar comes what is still open around it
    have scalar := (stays_skipScalar (c :: rest)).trans (suffix_of_skipBlank skipped)
    rw [Reader.run]
    cases read : skipScalar (c :: rest) with
    | error fault => exact scalar.error read
    | ok found =>
      have lt := length_lt_of_skipBlank skipped
      have lt' := found.shorter
      rw [List.length_cons] at lt'
      exact after found.rest (by omega) (scalar.ok read)

theorem stays_leftAfter (nest : List Bracket) : Stays id text (leftAfter nest text) := by
  cases nest with
  | nil =>
    rw [leftAfter_nil]
    exact List.suffix_rfl
  | cons bracket nest =>
    cases bracket with
    | list =>
      rw [leftAfter_list]
      split
      next => exact .next List.nil_suffix
      next rest skipped =>
        have lt := length_lt_of_skipBlank skipped
        exact ((shorter rest lt).nested _).trans (tail_suffix_of_skipBlank skipped)
      next rest skipped =>
        have lt := length_lt_of_skipBlank skipped
        exact ((shorter rest lt).after nest).trans (tail_suffix_of_skipBlank skipped)
      next => exact .next (skipBlank_suffix text)
    | object =>
      rw [leftAfter_object]
      split
      next => exact .next List.nil_suffix
      next rest skipped =>
        have lt := length_lt_of_skipBlank skipped
        exact ((shorter rest lt).member nest).trans (tail_suffix_of_skipBlank skipped)
      next rest skipped =>
        have lt := length_lt_of_skipBlank skipped
        exact ((shorter rest lt).after nest).trans (tail_suffix_of_skipBlank skipped)
      next => exact .next (skipBlank_suffix text)

theorem stays_leftMember (nest : List Bracket) : Stays id text (leftMember nest text) := by
  rw [leftMember_eq]
  split
  next => exact .next List.nil_suffix
  next rest skipped =>
    have key := (stays_skipString rest).trans (tail_suffix_of_skipBlank skipped)
    rw [Reader.run]
    cases read : skipString rest with
    | error fault => exact key.error read
    | ok found =>
      have suffix := key.ok read
      change Stays id text (leftEntry nest found.rest)
      rw [leftEntry]
      split
      next => exact .next List.nil_suffix
      next value skipped' =>
        have lt := length_lt_of_skipBlank skipped
        have lt' := found.shorter
        have lt'' := length_lt_of_skipBlank skipped'
        have value' := (shorter value (by omega)).nested (.object :: nest)
        exact value'.trans ((tail_suffix_of_skipBlank skipped').trans suffix)
      next => exact .next ((skipBlank_suffix _).trans suffix)
  next => exact .next (skipBlank_suffix text)

end

theorem skipStays (text : List Char) : SkipStays text := by
  -- whatever a round skips is shorter than what was left for it
  induction size : text.length using Nat.strongRecOn generalizing text with
  | ind size ih =>
    subst size
    have shorter (rest : List Char) (lt : rest.length < text.length) : SkipStays rest :=
      ih _ lt rest rfl
    exact ⟨stays_leftNested shorter, stays_leftAfter shorter, stays_leftMember shorter⟩

theorem stays_skipValue : skipValue.Stays := by
  intro text
  have left := (skipStays text).nested []
  rw [leftNested] at left
  rw [skipValue]
  cases read : skipNested [] text with
  | error fault => exact left.error (by rw [read]; rfl)
  | ok found => exact left.ok (by rw [read]; rfl)

end DeployGate.Json
