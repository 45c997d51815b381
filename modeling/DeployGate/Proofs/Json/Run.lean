import DeployGate.Json.Record

/-!
# Runs of readers

What a reader gives, without the proof that something was consumed. In this form what a reader does
is an equation between plain values, and what its parts do can be put into it.
-/

namespace DeployGate.Json

variable {α β σ : Type}

theorem map_eq_ok_iff {f : α → β} {reading : Except Fault α} {value : β} :
    reading.map f = .ok value ↔ ∃ found, reading = .ok found ∧ f found = value := by
  cases reading <;> simp [Except.map]

/-- The value that a reader gives and what it leaves, or its fault. -/
def Reader.run (reader : Reader α) (text : List Char) : Except Fault (α × List Char) :=
  (reader text).map fun found => (found.value, found.rest)

@[simp]
theorem run_map (f : α → β) (reader : Reader α) (text : List Char) :
    (reader.map f).run text = (reader.run text).map (Prod.map f id) := by
  rw [Reader.run, Reader.run, Reader.map]
  cases reader text <;> rfl

@[simp]
theorem run_afterBlank (reader : Reader α) (text : List Char) :
    (afterBlank reader).run text = reader.run (skipBlank text) := by
  rw [Reader.run, Reader.run, afterBlank]
  cases reader (skipBlank text) <;> rfl

theorem eq_of_run {reader : Reader α} {text rest : List Char} {value : α}
    (ran : reader.run text = .ok (value, rest)) :
    ∃ shorter, reader text = .ok ⟨value, rest, shorter⟩ := by
  rw [Reader.run] at ran
  cases read : reader text with
  | error fault => simp [read, Except.map] at ran
  | ok found =>
    obtain ⟨rfl, rfl⟩ : found.value = value ∧ found.rest = rest := by
      simpa [read, Except.map] using ran
    exact ⟨found.shorter, rfl⟩

theorem eq_of_run_error {reader : Reader α} {text : List Char} {fault : Fault}
    (ran : reader.run text = .error fault) : reader text = .error fault := by
  rw [Reader.run] at ran
  cases read : reader text with
  | error found => simpa [read, Except.map] using ran
  | ok found => simp [read, Except.map] at ran

/-- One more character in front changes neither the value nor what is left. -/
theorem map_later (found : Except Fault (Found α text)) :
    (found.map (Found.later (c := c))).map (fun found => (found.value, found.rest))
      = found.map fun found => (found.value, found.rest) := by
  cases found <;> rfl

/-! ### Blank characters -/

theorem skipBlank_cons {c : Char} (text : List Char) (solid : isBlank c = false) :
    skipBlank (c :: text) = c :: text :=
  List.dropWhile_cons_of_neg (by simp [solid])

/-! ### Words -/

theorem dropWord_append (word rest : List Char) : dropWord word (word ++ rest) = .ok rest := by
  induction word with
  | nil => rfl
  | cons letter word ih => rw [List.cons_append, dropWord, if_pos rfl, ih]

theorem run_readWord (first : Char) (word : String) (value : α) (rest : List Char) :
    (readWord first word value (word.toList ++ rest)).map (fun found => (found.value, found.rest))
      = .ok (value, rest) := by
  have dropped : dropWord word.toList (word.toList ++ rest) = .ok rest := dropWord_append _ rest
  rw [readWord]
  split
  next after left =>
    cases dropped.symm.trans left
    rfl
  next fault left => cases dropped.symm.trans left

/-- What does not begin like `null` is left to the reader. -/
theorem run_readNullable (reader : Reader α) {c : Char} (text : List Char)
    (solid : isBlank c = false) (other : c ≠ 'n') :
    (readNullable reader).run (c :: text) = (reader.run (c :: text)).map (Prod.map some id) := by
  rw [readNullable, run_afterBlank, skipBlank_cons text solid, Reader.run, Reader.run]
  simp only [List.cons.injEq, other, false_and, imp_self, implies_true]
  cases reader (c :: text) <;> rfl

/-! ### Numbers -/

/-- A number begins with no character but its sign and the digits. -/
theorem ne_of_number {c d : Char} (opening : c = '-' ∨ c.isDigit = true)
    (other : d ≠ '-' ∧ d.isDigit = false) : c ≠ d := by
  rintro rfl
  rcases opening with rfl | numeric
  · exact other.1 rfl
  · cases numeric.symm.trans other.2

theorem solid_of_number {c : Char} (opening : c = '-' ∨ c.isDigit = true) : isBlank c = false := by
  have space := ne_of_number opening (d := ' ') (by decide)
  have line := ne_of_number opening (d := '\n') (by decide)
  have tab := ne_of_number opening (d := '\t') (by decide)
  have carriage := ne_of_number opening (d := '\r') (by decide)
  simp [isBlank, space, line, tab, carriage]

theorem startsNumber_cons {c : Char} (text : List Char) (opening : c = '-' ∨ c.isDigit = true) :
    startsNumber (c :: text) = true := by
  rcases opening with rfl | numeric
  · rfl
  · rw [startsNumber.eq_def]
    split
    next => rfl
    next same =>
      cases same
      exact numeric
    next same => cases same

/-! ### Lists -/

section

variable {text rest after : List Char} {c : Char}

theorem nextElement_close (first : Bool) (skipped : skipBlank text = ']' :: rest) :
    ∃ shorter, nextElement first text = .ok (.close rest shorter) := by
  rw [nextElement]
  split
  next skipped' => cases skipped.symm.trans skipped'
  next skipped' =>
    cases skipped.symm.trans skipped'
    exact ⟨length_lt_of_skipBlank skipped, rfl⟩

theorem nextElement_first (skipped : skipBlank text = c :: rest) (unclosed : c ≠ ']') :
    nextElement true text = .ok (.element (.all text)) := by
  rw [nextElement]
  split
  next skipped' => cases skipped.symm.trans skipped'
  next skipped' =>
    cases skipped.symm.trans skipped'
    rw [if_neg unclosed, if_pos rfl]

theorem nextElement_comma (skipped : skipBlank text = ',' :: rest)
    (skipped' : skipBlank rest = c :: after) (unclosed : c ≠ ']') :
    ∃ le, nextElement false text = .ok (.element ⟨rest, le⟩) := by
  rw [nextElement]
  split
  next skipped'' => cases skipped.symm.trans skipped''
  next skipped'' =>
    cases skipped.symm.trans skipped''
    rw [if_neg (by decide), if_neg (by decide), if_pos rfl]
    simp only [skipped', List.cons.injEq, unclosed, false_and, imp_self, implies_true]
    exact ⟨Nat.le_of_lt (length_lt_of_skipBlank skipped), rfl⟩

end

theorem run_readElements (item : Reader α) (first : Bool) (text : List Char) :
    Reader.run (readElements item first) text =
      match nextElement first text with
      | .error fault => .error fault
      | .ok (.close rest _) => .ok ([], rest)
      | .ok (.element rest) =>
        (item.run rest).bind fun (value, after) =>
          (Reader.run (readElements item false) after).map (Prod.map (value :: ·) id) := by
  rw [Reader.run, readElements]
  cases nextElement first text with
  | error fault => rfl
  | ok step =>
    cases step with
    | close rest shorter => rfl
    | element rest =>
      simp only [Reader.run]
      cases item rest with
      | error fault => rfl
      | ok found =>
        simp only [Except.map, Except.bind]
        cases readElements item false found.rest <;> rfl

theorem run_readList_some (item : Reader α) (text : List Char) :
    (readList (some item)).run ('[' :: text) = Reader.run (readElements item true) text := by
  rw [readList, run_afterBlank, skipBlank_cons text rfl]
  exact map_later _

theorem run_readList_none (text : List Char) :
    (readList (α := α) none).run ('[' :: text) = .error (.next .tooDeep ('[' :: text)) := by
  rw [readList, run_afterBlank, skipBlank_cons text rfl]
  rfl

/-! ### Objects -/

theorem run_afterColon (reader : Reader α) (text : List Char) :
    (afterColon reader).run (':' :: text) = reader.run text := by
  rw [afterColon, run_afterBlank, skipBlank_cons text rfl]
  exact map_later _

theorem run_readObject_nil (member : MemberFold σ) (state : σ) (rest : List Char) :
    (readObject member state).run ('\x7d' :: rest) = .ok (state, rest) := by
  rw [readObject, run_afterBlank, skipBlank_cons rest rfl]
  rfl

theorem run_readObject_cons (member : MemberFold σ) (state : σ) (inKey : List Char) :
    (readObject member state).run ('"' :: inKey)
      = Reader.run (readMembers member state) inKey := by
  rw [readObject, run_afterBlank, skipBlank_cons inKey rfl]
  exact map_later _

/-- What follows the value of a member: the end of the object, or a comma and the next key. -/
def runAfterMember (member : MemberFold σ) (state : σ) (text : List Char) :
    Except Fault (σ × List Char) :=
  match skipBlank text with
  | [] => .error (.next .endInObject [])
  | '\x7d' :: rest => .ok (state, rest)
  | ',' :: rest =>
    match skipBlank rest with
    | [] => .error (.next .endInValue [])
    | '"' :: inKey => Reader.run (readMembers member state) inKey
    | '\x7d' :: after => .error (.next .trailingComma ('\x7d' :: after))
    | other => .error (.next .keyNotString other)
  | other => .error (.next .noCommaInObject other)

theorem run_readMembers (member : MemberFold σ) (state : σ) (text : List Char) :
    Reader.run (readMembers member state) text =
      (readQuoted.run text).bind fun (key, afterKey) =>
        match member state key with
        | .error cause => .error (.here cause (settle afterKey))
        | .ok reader =>
          ((afterColon reader).run afterKey).bind fun (next, afterValue) =>
            runAfterMember member next afterValue := by
  rw [Reader.run, readMembers, Reader.run]
  cases readQuoted text with
  | error fault => rfl
  | ok found =>
    have quoted : (Except.ok (ε := Fault) found).map (fun found => (found.value, found.rest))
        = .ok (found.value, found.rest) := rfl
    rw [quoted]
    simp only [Except.bind]
    cases member state found.value with
    | error cause => rfl
    | ok reader =>
      simp only
      rw [Reader.run]
      cases afterColon reader found.rest with
      | error fault => rfl
      | ok found' =>
        refine Eq.trans ?_ (rfl : runAfterMember member found'.value found'.rest = _)
        rw [runAfterMember]
        simp only
        split
        next skipped => simp only [skipped]; rfl
        next rest skipped => simp only [skipped]; rfl
        next rest skipped =>
          simp only [skipped]
          split
          next skipped' => simp only [skipped']; rfl
          next inKey skipped' =>
            simp only [skipped', Reader.run]
            cases readMembers member found'.value inKey <;> rfl
          next after skipped' => simp only [skipped']; rfl
          next noNil noQuote noBrace =>
            split
            next skipped' => exact absurd skipped' noNil
            next skipped' => exact absurd skipped' (noQuote _)
            next skipped' => exact absurd skipped' (noBrace _)
            next => rfl
        next noNil noBrace noComma =>
          split
          next skipped => exact absurd skipped noNil
          next skipped => exact absurd skipped (noBrace _)
          next skipped => exact absurd skipped (noComma _)
          next => rfl

section

variable {member : MemberFold σ} {state next : σ} {key : String} {reader : Reader σ}
  {text afterKey rest : List Char}

/-- With the last member an object ends. -/
theorem run_readMembers_last (quoted : readQuoted.run text = .ok (key, afterKey))
    (known : member state key = .ok reader)
    (read : (afterColon reader).run afterKey = .ok (next, '\x7d' :: rest)) :
    Reader.run (readMembers member state) text = .ok (next, rest) := by
  rw [run_readMembers, quoted]
  simp only [Except.bind, known, read]
  rfl

theorem run_readMembers_next (quoted : readQuoted.run text = .ok (key, afterKey))
    (known : member state key = .ok reader)
    (read : (afterColon reader).run afterKey = .ok (next, ',' :: '"' :: rest)) :
    Reader.run (readMembers member state) text = Reader.run (readMembers member next) rest := by
  rw [run_readMembers, quoted]
  simp only [Except.bind, known, read]
  rfl

theorem run_readMembers_error {fault : Fault} (quoted : readQuoted.run text = .ok (key, afterKey))
    (known : member state key = .ok reader)
    (refused : (afterColon reader).run afterKey = .error fault) :
    Reader.run (readMembers member state) text = .error fault := by
  rw [run_readMembers, quoted]
  simp only [Except.bind, known, refused]

end

/-! ### Records -/

theorem run_readRecord_list (name : String) (record : Record α) (text : List Char) :
    (readRecord name (some record)).run ('[' :: text) =
      (Reader.run (record.keys.readRow ("struct " ++ name ++ " with "
        ++ toString record.keys.names.length ++ " elements") 0) text).map
          (Prod.map record.build id) := by
  rw [readRecord, run_afterBlank, skipBlank_cons text rfl, Reader.run, Reader.run]
  simp only
  cases record.keys.readRow _ 0 text <;> rfl

theorem run_readRecord_object (name : String) (record : Record α) (text : List Char) :
    (readRecord name (some record)).run ('\x7b' :: text) =
      ((readObject record.member record.keys.empty).run text).bind fun (slots, after) =>
        match record.keys.finish slots with
        | .error key => .error (.here (.missingField key) after)
        | .ok row => .ok (record.build row, after) := by
  rw [readRecord, run_afterBlank, skipBlank_cons text rfl, Reader.run, Reader.run]
  simp only
  cases readObject record.member record.keys.empty text with
  | error fault => rfl
  | ok found =>
    simp only [Except.map, Except.bind]
    cases record.keys.finish found.value <;> rfl

theorem run_readRecord_none (name : String) (text : List Char) :
    (readRecord (α := α) name none).run ('\x7b' :: text)
      = .error (.next .tooDeep ('\x7b' :: text)) := by
  rw [readRecord, run_afterBlank, skipBlank_cons text rfl]
  rfl

/-! ### Documents -/

section

variable {reader : Reader α} {document : String}

theorem decode_of_run {value : α} (ran : reader.run document.toList = .ok (value, [])) :
    decode reader document = .ok value := by
  obtain ⟨shorter, read⟩ := eq_of_run ran
  rw [decode, readAll, read]
  rfl

theorem decode_of_run_error {fault : Fault} (ran : reader.run document.toList = .error fault) :
    decode reader document = .error ⟨fault.cause, fault.place document⟩ := by
  rw [decode, readAll, eq_of_run_error ran]
  rfl

end

end DeployGate.Json
