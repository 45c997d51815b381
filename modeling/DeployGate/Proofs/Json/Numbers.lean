import DeployGate.Proofs.Json.Strings

/-!
# Reading numbers

What a number is read as depends on its literal alone, as long as what follows the literal is no
part of a number. Where its value does not matter a number is skipped, whatever its size.
-/

namespace DeployGate.Json

variable {α : Type} {text rest : List Char}

/-! ### Parts of a number -/

theorem Digits.head (digits : Digits text) : ∃ c more, text = c :: more ∧ c.isDigit = true := by
  cases text with
  | nil => exact absurd rfl digits.1
  | cons c more => exact ⟨c, more, rfl, digits.2 c List.mem_cons_self⟩

theorem digits_takeDigits (some : takeDigits text ≠ []) : Digits (takeDigits text) :=
  ⟨some, List.all_eq_true.mp List.all_takeWhile⟩

theorem takeDigits_append_dropDigits (text : List Char) :
    takeDigits text ++ dropDigits text = text :=
  List.takeWhile_append_dropWhile

theorem Exponent.noDigit (exponent : Exponent text) (delimited : Delimited rest) :
    NoDigit (text ++ rest) := by
  cases exponent with
  | none => exact delimited.noDigit
  | @digits mark sign digits marked =>
    rintro _ ⟨⟩
    rcases marked with rfl | rfl <;> rfl

theorem Fraction.noDigit (fraction : Fraction text) (stops : NoDigit rest) :
    NoDigit (text ++ rest) := by
  cases fraction with
  | none => exact stops
  | digits digits =>
    rintro _ ⟨⟩
    rfl

/-- An exponent stands where one is looked for. -/
theorem Exponent.startsExponent_append (exponent : Exponent text) (delimited : Delimited rest) :
    startsExponent (text ++ rest) = !text.isEmpty := by
  cases exponent with
  | none => exact startsExponent_eq_false delimited
  | @digits mark sign digits marked => rcases marked with rfl | rfl <;> rfl

/-- No point follows the digits in front of an exponent. -/
theorem Exponent.no_point (exponent : Exponent text) (delimited : Delimited rest) :
    ∀ more, text ++ rest ≠ '.' :: more := by
  cases exponent with
  | none =>
    rintro more rfl
    exact (delimited '.' rfl).2.1 rfl
  | @digits mark sign digits marked =>
    intro more same
    rcases marked with rfl | rfl <;> cases same

theorem exponentSign_append {sign : List Char} (signed : sign = [] ∨ sign = ['+'] ∨ sign = ['-'])
    (digits : Digits text) (rest : List Char) :
    ∃ shorter, exponentSign (sign ++ (text ++ rest))
      = (decide (sign = ['-']), ⟨text ++ rest, shorter⟩) := by
  obtain ⟨c, more, rfl, numeric⟩ := digits.head
  have noPlus : c ≠ '+' := by
    rintro rfl
    cases numeric
  have noMinus : c ≠ '-' := by
    rintro rfl
    cases numeric
  rcases signed with rfl | rfl | rfl
  · refine ⟨by simp, ?_⟩
    simp only [List.nil_append, List.cons_append]
    rw [exponentSign]
    · rfl
    · simp [noPlus]
    · simp [noMinus]
  · exact ⟨by simp, rfl⟩
  · exact ⟨by simp, rfl⟩

/-! ### Reading -/

/-- A value and what is left, without the proof that this is an end of the text. -/
def leaving (reading : Except Fault (α × Remainder text)) : Except Fault (α × List Char) :=
  reading.map fun found => (found.1, found.2.val)

theorem leaving_widen {whole : List Char} (reading : Except Fault (α × Remainder text))
    (le : text.length ≤ whole.length) :
    leaving (reading.map fun found => (found.1, found.2.widen le)) = leaving reading := by
  cases reading <;> rfl

theorem afterExceeding_append (limit value : Nat) (numeric : ∀ c ∈ text, c.isDigit = true)
    (stops : NoDigit rest) :
    afterExceeding limit value (text ++ rest)
      = (afterExceeding limit value text).map (· ++ rest) := by
  induction text generalizing value with
  | nil =>
    cases rest with
    | nil => rfl
    | cons c rest => simp [afterExceeding, stops c rfl]
  | cons c text ih =>
    rw [List.forall_mem_cons] at numeric
    rw [List.cons_append, afterExceeding, afterExceeding, if_pos numeric.1, if_pos numeric.1]
    simp only
    split
    · rfl
    · exact ih _ numeric.2

/-- The digits with which an exponent is too large, unless it points down or belongs to a zero. -/
def exceeding (word : UInt64) (sign digits : List Char) : Option (List Char) :=
  if decide (sign = ['-']) || word = 0 then none else afterExceeding 0x7fffffff 0 digits

theorem leaving_readExponent (word : UInt64) {sign : List Char}
    (signed : sign = [] ∨ sign = ['+'] ∨ sign = ['-']) (digits : Digits text)
    (stops : NoDigit rest) :
    leaving (readExponent word (sign ++ (text ++ rest))) =
      match exceeding word sign text with
      | some more => .error (.here .numberOutOfRange (more ++ rest))
      | none =>
        .ok (if decide (sign = ['-']) then -(digitsValue text : Int) else digitsValue text,
          rest) := by
  obtain ⟨shorter, split⟩ := exponentSign_append signed digits rest
  obtain ⟨c, more, spelled, numeric⟩ := digits.head
  have first : (text ++ rest).head? = some c := by rw [spelled]; rfl
  rw [readExponent, split]
  simp only [first, numeric, takeDigits_append digits.2 stops, dropDigits_append digits.2 stops,
    afterExceeding_append 0x7fffffff 0 digits.2 stops, exceeding]
  by_cases unlimited : (decide (sign = ['-']) || decide (word = 0)) = true
  · simp only [unlimited, if_true]
    rfl
  · simp only [unlimited]
    cases afterExceeding 0x7fffffff 0 text <;> rfl

theorem gives_readExponent (word : UInt64) {sign : List Char}
    (signed : sign = [] ∨ sign = ['+'] ∨ sign = ['-']) (digits : Digits text) :
    ∃ outcome, ∀ rest, Delimited rest →
      Gives rest (leaving (readExponent word (sign ++ (text ++ rest)))) outcome := by
  have read {rest : List Char} (delimited : Delimited rest) :=
    leaving_readExponent word signed digits delimited.noDigit
  cases exceeded : exceeding word sign text with
  | none =>
    let size : Int := digitsValue text
    refine ⟨some (if decide (sign = ['-']) then -size else size), fun rest delimited => ?_⟩
    rw [read delimited, exceeded]
    exact .value _
  | some more =>
    refine ⟨none, fun rest delimited => ?_⟩
    rw [read delimited, exceeded]
    exact .fault _

/-- An exponent is read as the same number, or refused, whatever follows it. -/
theorem gives_readOptionalExponent (word : UInt64) (exponent : Exponent text) :
    ∃ outcome, ∀ rest, Delimited rest →
      Gives rest (leaving (readOptionalExponent word (text ++ rest))) outcome := by
  have starts {rest : List Char} (delimited : Delimited rest) :=
    exponent.startsExponent_append delimited
  cases exponent with
  | none =>
    refine ⟨some 0, fun rest delimited => ?_⟩
    rw [readOptionalExponent, if_neg (by rw [starts delimited]; decide)]
    exact .value 0
  | @digits mark sign digits marked signed numeric =>
    obtain ⟨outcome, gives⟩ := gives_readExponent word signed numeric
    refine ⟨outcome, fun rest delimited => ?_⟩
    rw [readOptionalExponent, if_pos (by rw [starts delimited]; rfl), leaving_widen,
      List.cons_append, List.tail_cons, List.append_assoc]
    exact gives rest delimited

theorem leaving_readScaled (negative : Bool) (word : UInt64) (exponent : Int) (text : List Char) :
    leaving (readScaled negative word exponent text) =
      (leaving (readOptionalExponent word text)).bind fun (shift, rest) =>
        match Number.ofScaled negative word (exponent + shift) with
        | some number => .ok (number, rest)
        | none => .error (.here .numberOutOfRange rest) := by
  rw [readScaled]
  cases readOptionalExponent word text with
  | error fault => rfl
  | ok found =>
    simp only [leaving, Except.map, Except.bind]
    cases Number.ofScaled negative word (exponent + found.1) <;> rfl

theorem gives_readScaled (negative : Bool) (word : UInt64) (exponent : Int)
    (spelled : Exponent text) :
    ∃ outcome, ∀ rest, Delimited rest →
      Gives rest (leaving (readScaled negative word exponent (text ++ rest))) outcome := by
  obtain ⟨outcome, gives⟩ := gives_readOptionalExponent word spelled
  refine ⟨outcome.bind fun shift => Number.ofScaled negative word (exponent + shift),
    fun rest delimited => ?_⟩
  rw [leaving_readScaled]
  have read := gives rest delimited
  generalize leaving (readOptionalExponent word (text ++ rest)) = reading at read
  cases read with
  | fault fault => exact .fault fault
  | value shift =>
    simp only [Except.bind, Option.bind_some]
    cases Number.ofScaled negative word (exponent + shift) with
    | none => exact .fault _
    | some number => exact .value number

/-- A number whose digits before the point are not followed by a point. -/
theorem leaving_readFraction (negative : Bool) (whole : List Char)
    (noPoint : ∀ more, text ≠ '.' :: more) :
    leaving (readFraction negative whole text) =
      if startsExponent text || !(absorb 0 whole).2.isEmpty then
        leaving (readScaled negative (absorb 0 whole).1 (absorb 0 whole).2.length text)
      else .ok (.ofWord negative (absorb 0 whole).1, text) := by
  rw [readFraction.eq_def]
  generalize absorb 0 whole = absorbed
  obtain ⟨word, spare⟩ := absorbed
  simp only
  split <;> rfl

theorem leaving_readFraction_point (negative : Bool) (whole : List Char) {digits : List Char}
    (numeric : Digits digits) (stops : NoDigit rest) :
    leaving (readFraction negative whole ('.' :: (digits ++ rest))) =
      leaving (readScaled negative (absorb (absorb 0 whole).1 digits).1
        ((absorb 0 whole).2.length
          - (digits.length - (absorb (absorb 0 whole).1 digits).2.length : Nat)) rest) := by
  rw [readFraction]
  simp only [takeDigits_append numeric.2 stops]
  rw [if_neg (by simp [numeric.1]), leaving_widen, dropDigits_append numeric.2 stops]

/-- What follows the digits before the point. -/
theorem gives_readFraction (negative : Bool) (whole : List Char) {fraction exponent : List Char}
    (fractional : Fraction fraction) (exponential : Exponent exponent) :
    ∃ outcome, ∀ rest, Delimited rest →
      Gives rest (leaving (readFraction negative whole (fraction ++ (exponent ++ rest))))
        outcome := by
  cases fractional with
  | none =>
    have read {rest : List Char} (delimited : Delimited rest) :=
      leaving_readFraction negative whole (exponential.no_point delimited)
    -- without a point the number is a word, unless it has an exponent or too many digits
    by_cases scaled : (!exponent.isEmpty || !(absorb 0 whole).2.isEmpty) = true
    · obtain ⟨outcome, gives⟩ := gives_readScaled negative (absorb 0 whole).1
        (absorb 0 whole).2.length exponential
      refine ⟨outcome, fun rest delimited => ?_⟩
      rw [List.nil_append, read delimited, exponential.startsExponent_append delimited,
        if_pos scaled]
      exact gives rest delimited
    · have integral : exponent = [] := by simp at scaled; exact scaled.1
      refine ⟨some (.ofWord negative (absorb 0 whole).1), fun rest delimited => ?_⟩
      rw [List.nil_append, read delimited, exponential.startsExponent_append delimited,
        if_neg scaled, integral]
      exact .value _
  | @digits digits numeric =>
    obtain ⟨outcome, gives⟩ := gives_readScaled negative (absorb (absorb 0 whole).1 digits).1
      ((absorb 0 whole).2.length
        - (digits.length - (absorb (absorb 0 whole).1 digits).2.length : Nat)) exponential
    refine ⟨outcome, fun rest delimited => ?_⟩
    rw [List.cons_append,
      leaving_readFraction_point negative whole numeric (exponential.noDigit delimited)]
    exact gives rest delimited

theorem Whole.parts {whole : List Char} (spelled : Whole whole) (stops : NoDigit rest) :
    ∃ c digits, whole = c :: digits ∧ c.isDigit = true ∧ (∀ c ∈ digits, c.isDigit = true) ∧
      (c = '0' && (digits ++ rest).head?.any Char.isDigit) = false := by
  cases spelled with
  | zero =>
    refine ⟨'0', [], rfl, rfl, by simp, ?_⟩
    cases rest with
    | nil => rfl
    | cons c rest => simpa using stops c rfl
  | @digits c digits nonzero numeric =>
    have := List.forall_mem_cons.mp numeric.2
    exact ⟨c, digits, rfl, this.1, this.2, by simp [nonzero]⟩

theorem run_readMagnitude_cons (negative : Bool) {c : Char} (numeric : c.isDigit = true)
    (unpadded : (c = '0' && text.head?.any Char.isDigit) = false) :
    Reader.run (readMagnitude negative) (c :: text)
      = leaving (readFraction negative (c :: takeDigits text) (dropDigits text)) := by
  rw [Reader.run, readMagnitude, if_neg (by simp [numeric]), if_neg (by rw [unpadded]; decide)]
  cases readFraction negative (c :: takeDigits text) (dropDigits text) <;> rfl

theorem gives_readMagnitude (negative : Bool) (magnitude : Magnitude text) :
    ∃ outcome, ∀ rest, Delimited rest →
      Gives rest (Reader.run (readMagnitude negative) (text ++ rest)) outcome := by
  cases magnitude with
  | @parts whole fraction exponent wholly fractional exponential =>
    obtain ⟨outcome, gives⟩ := gives_readFraction negative whole fractional exponential
    refine ⟨outcome, fun rest delimited => ?_⟩
    have stops : NoDigit (fraction ++ (exponent ++ rest)) :=
      fractional.noDigit (exponential.noDigit delimited)
    obtain ⟨c, digits, rfl, numeric, further, unpadded⟩ := wholly.parts stops
    rw [List.append_assoc, List.append_assoc, List.cons_append,
      run_readMagnitude_cons negative numeric unpadded, takeDigits_append further stops,
      dropDigits_append further stops]
    exact gives rest delimited

theorem Magnitude.head (magnitude : Magnitude text) :
    ∃ c more, text = c :: more ∧ c.isDigit = true := by
  cases magnitude with
  | @parts whole fraction exponent wholly =>
    have stops : NoDigit [] := by simp [NoDigit]
    obtain ⟨c, digits, rfl, numeric, -⟩ := wholly.parts stops
    exact ⟨c, _, rfl, numeric⟩

/-- A number is read as the same number, or refused, whatever follows it. -/
theorem gives_readNumber (numeral : Numeral text) :
    ∃ outcome, ∀ rest, Delimited rest → Gives rest (readNumber.run (text ++ rest)) outcome := by
  cases numeral with
  | positive magnitude =>
    obtain ⟨outcome, gives⟩ := gives_readMagnitude false magnitude
    refine ⟨outcome, fun rest delimited => ?_⟩
    have read := gives rest delimited
    obtain ⟨c, more, rfl, numeric⟩ := magnitude.head
    rw [List.cons_append] at read ⊢
    rw [Reader.run, readNumber]
    · exact read
    · rintro _ ⟨⟩
      cases numeric
  | @negative text magnitude =>
    obtain ⟨outcome, gives⟩ := gives_readMagnitude true magnitude
    refine ⟨outcome, fun rest delimited => ?_⟩
    rw [List.cons_append, Reader.run, readNumber, map_later]
    exact gives rest delimited

/-! ### Skipping -/

theorem skipFraction_append {fraction : List Char} (fractional : Fraction fraction)
    (stops : NoDigit rest) (noPoint : ∀ more, rest ≠ '.' :: more) :
    (skipFraction (fraction ++ rest)).map (·.val) = .ok rest := by
  cases fractional with
  | none =>
    rw [List.nil_append, skipFraction]
    · rfl
    · exact noPoint
  | @digits digits numeric =>
    rw [List.cons_append, skipFraction,
      if_neg (by simp [takeDigits_append numeric.2 stops, numeric.1])]
    simp [Except.map, dropDigits_append numeric.2 stops]

theorem skipExponent_eq (starts : startsExponent text = true) :
    (skipExponent text).map (·.val) =
      if (takeDigits (exponentSign text.tail).2.val).isEmpty then
        .error (.next .malformedNumber (exponentSign text.tail).2.val)
      else .ok (dropDigits (exponentSign text.tail).2.val) := by
  rw [skipExponent, if_pos starts]
  generalize exponentSign text.tail = signed
  obtain ⟨down, digits, shorter⟩ := signed
  simp only
  split <;> rfl

theorem skipExponent_append (exponent : Exponent text) (delimited : Delimited rest) :
    (skipExponent (text ++ rest)).map (·.val) = .ok rest := by
  have starts := exponent.startsExponent_append delimited
  cases exponent with
  | none =>
    rw [skipExponent, if_neg (by rw [starts]; decide)]
    rfl
  | @digits mark sign digits marked signed numeric =>
    obtain ⟨shorter, split⟩ := exponentSign_append signed numeric rest
    rw [skipExponent_eq starts, List.cons_append, List.tail_cons, List.append_assoc, split]
    simp only [takeDigits_append numeric.2 delimited.noDigit,
      dropDigits_append numeric.2 delimited.noDigit]
    rw [if_neg (by simp [numeric.1])]

theorem run_skipMagnitude_cons {c : Char} (numeric : c.isDigit = true)
    (unpadded : (c = '0' && text.head?.any Char.isDigit) = false) :
    Reader.run skipMagnitude (c :: text) =
      ((skipFraction (dropDigits text)).map (·.val)).bind fun fraction =>
        ((skipExponent fraction).map (·.val)).map fun last => ((), last) := by
  rw [Reader.run, skipMagnitude, if_neg (by simp [numeric]), if_neg (by rw [unpadded]; decide)]
  cases skipFraction (dropDigits text) with
  | error fault => rfl
  | ok fraction =>
    simp only [bind, Except.bind, Except.map]
    cases skipExponent fraction.val <;> rfl

theorem run_skipMagnitude (magnitude : Magnitude text) (delimited : Delimited rest) :
    Reader.run skipMagnitude (text ++ rest) = .ok ((), rest) := by
  cases magnitude with
  | @parts whole fraction exponent wholly fractional exponential =>
    have exponentStops := exponential.noDigit delimited
    have stops : NoDigit (fraction ++ (exponent ++ rest)) := fractional.noDigit exponentStops
    obtain ⟨c, digits, rfl, numeric, further, unpadded⟩ := wholly.parts stops
    rw [List.append_assoc, List.append_assoc, List.cons_append,
      run_skipMagnitude_cons numeric unpadded, dropDigits_append further stops,
      skipFraction_append fractional exponentStops (exponential.no_point delimited)]
    rw [Except.bind, skipExponent_append exponential delimited]
    rfl

theorem run_skipNumber (numeral : Numeral text) (delimited : Delimited rest) :
    skipNumber.run (text ++ rest) = .ok ((), rest) := by
  cases numeral with
  | positive magnitude =>
    have read := run_skipMagnitude magnitude delimited
    obtain ⟨c, more, rfl, numeric⟩ := magnitude.head
    rw [List.cons_append] at read ⊢
    rw [Reader.run, skipNumber]
    · exact read
    · rintro _ ⟨⟩
      cases numeric
  | @negative text magnitude =>
    rw [List.cons_append, Reader.run, skipNumber, map_later]
    exact run_skipMagnitude magnitude delimited

/-! ### What is read is a number -/

theorem whole_takeDigits {c : Char} (numeric : c.isDigit = true)
    (unpadded : ¬ (c = '0' && text.head?.any Char.isDigit) = true) :
    Whole (c :: takeDigits text) := by
  by_cases zero : c = '0'
  · subst zero
    cases text with
    | nil => exact .zero
    | cons d text =>
      simp at unpadded
      rw [takeDigits, List.takeWhile_cons_of_neg (by simp [unpadded])]
      exact .zero
  · refine .digits zero ⟨by simp, ?_⟩
    rw [List.forall_mem_cons]
    exact ⟨numeric, List.all_eq_true.mp List.all_takeWhile⟩

theorem exponentSign_spells (text : List Char) :
    ∃ sign, (sign = [] ∨ sign = ['+'] ∨ sign = ['-']) ∧
      text = sign ++ (exponentSign text).2.val := by
  rw [exponentSign.eq_def]
  split
  · exact ⟨['+'], .inr (.inl rfl), rfl⟩
  · exact ⟨['-'], .inr (.inr rfl), rfl⟩
  · exact ⟨[], .inl rfl, rfl⟩

theorem exponent_of_digits (starts : startsExponent text = true)
    (numeric : takeDigits (exponentSign text.tail).2.val ≠ []) :
    ∃ exponent, Exponent exponent ∧
      text = exponent ++ dropDigits (exponentSign text.tail).2.val := by
  obtain ⟨sign, signed, spelled⟩ := exponentSign_spells text.tail
  have marked : ∃ mark, (mark = 'e' ∨ mark = 'E') ∧ text = mark :: text.tail := by
    rw [startsExponent.eq_def] at starts
    split at starts
    · exact ⟨'e', .inl rfl, rfl⟩
    · exact ⟨'E', .inr rfl, rfl⟩
    · cases starts
  obtain ⟨mark, marked, begins⟩ := marked
  refine ⟨_, .digits marked signed (digits_takeDigits numeric), ?_⟩
  rw [List.cons_append, List.append_assoc, takeDigits_append_dropDigits, ← spelled, ← begins]

theorem exponent_of_readExponent {word : UInt64} {found : Int × Remainder text.tail}
    (starts : startsExponent text = true) (read : readExponent word text.tail = .ok found) :
    ∃ exponent, Exponent exponent ∧ text = exponent ++ found.2.val := by
  have spells := exponent_of_digits starts
  rw [readExponent] at read
  generalize exponentSign text.tail = signed at read spells
  obtain ⟨down, digits, shorter⟩ := signed
  simp only at read spells
  split at read
  · cases read
  next c first =>
    split at read
    · cases read
    next numeric =>
      have begins : takeDigits digits ≠ [] := by
        obtain ⟨more, rfl⟩ : ∃ more, digits = c :: more := List.head?_eq_some_iff.mp first
        rw [takeDigits, List.takeWhile_cons_of_pos (by simpa using numeric)]
        simp
      split at read
      · cases read
      · cases read
        exact spells begins

theorem exponent_of_readScaled {negative : Bool} {word : UInt64} {exponent : Int}
    {found : Number × Remainder text} (read : readScaled negative word exponent text = .ok found) :
    ∃ exponent, Exponent exponent ∧ text = exponent ++ found.2.val := by
  rw [readScaled] at read
  cases shifted : readOptionalExponent word text with
  | error fault => simp [shifted] at read
  | ok shift =>
    have left : shift.2 = found.2 := by
      simp only [shifted] at read
      split at read <;> cases read
      rfl
    rw [readOptionalExponent] at shifted
    split at shifted
    next starts =>
      obtain ⟨found, read, rfl⟩ := map_eq_ok_iff.mp shifted
      rw [← left]
      exact exponent_of_readExponent starts read
    next =>
      cases shifted
      rw [← left]
      exact ⟨[], .none, rfl⟩

theorem parts_of_readFraction {negative : Bool} {whole : List Char}
    {found : Number × Remainder text}
    (read : readFraction negative whole text = .ok found) :
    ∃ fraction exponent, Fraction fraction ∧ Exponent exponent ∧
      text = fraction ++ (exponent ++ found.2.val) := by
  rw [readFraction] at read
  generalize absorb 0 whole = absorbed at read
  obtain ⟨word, spare⟩ := absorbed
  simp only at read
  split at read
  next digits =>
    split at read
    · cases read
    next numeric =>
      obtain ⟨last, scaled, rfl⟩ := map_eq_ok_iff.mp read
      obtain ⟨exponent, exponential, left⟩ := exponent_of_readScaled scaled
      refine ⟨_, exponent, .digits (digits_takeDigits (by simpa using numeric)), exponential, ?_⟩
      have parts := takeDigits_append_dropDigits digits
      rw [left] at parts
      rw [List.cons_append]
      exact congrArg ('.' :: ·) parts.symm
  next =>
    split at read
    · obtain ⟨exponent, exponential, left⟩ := exponent_of_readScaled read
      exact ⟨[], exponent, .none, exponential, left⟩
    · cases read
      exact ⟨[], [], .none, .none, rfl⟩

/-- Digits in front of a fraction and an exponent make a number. -/
theorem magnitude_of_parts {c : Char} {fraction exponent : List Char} (numeric : c.isDigit = true)
    (unpadded : ¬ (c = '0' && text.head?.any Char.isDigit) = true)
    (fractional : Fraction fraction) (exponential : Exponent exponent)
    (left : dropDigits text = fraction ++ (exponent ++ rest)) :
    ∃ magnitude, Magnitude magnitude ∧ c :: text = magnitude ++ rest := by
  refine ⟨_, .parts (whole_takeDigits numeric unpadded) fractional exponential, ?_⟩
  have parts := takeDigits_append_dropDigits text
  rw [left] at parts
  simp [parts]

theorem magnitude_of_readMagnitude {negative : Bool} {found : Found Number text}
    (read : readMagnitude negative text = .ok found) :
    ∃ magnitude, Magnitude magnitude ∧ text = magnitude ++ found.rest := by
  rw [readMagnitude.eq_def] at read
  split at read
  · cases read
  next c text =>
    split at read
    · cases read
    next numeric =>
      split at read
      · cases read
      next unpadded =>
        obtain ⟨last, fractioned, rfl⟩ := map_eq_ok_iff.mp read
        obtain ⟨fraction, exponent, fractional, exponential, left⟩ :=
          parts_of_readFraction fractioned
        exact magnitude_of_parts (by simpa using numeric) unpadded fractional exponential left

theorem numeral_of_readNumber {found : Found Number text} (read : readNumber text = .ok found) :
    ∃ literal, Numeral literal ∧ text = literal ++ found.rest := by
  rw [readNumber.eq_def] at read
  split at read
  · obtain ⟨last, unsigned, rfl⟩ := map_eq_ok_iff.mp read
    obtain ⟨literal, magnitude, left⟩ := magnitude_of_readMagnitude unsigned
    exact ⟨_, .negative magnitude, congrArg ('-' :: ·) left⟩
  · obtain ⟨literal, magnitude, left⟩ := magnitude_of_readMagnitude read
    exact ⟨literal, .positive magnitude, left⟩

theorem fraction_of_skipFraction {left : Remainder text} (skipped : skipFraction text = .ok left) :
    ∃ fraction, Fraction fraction ∧ text = fraction ++ left.val := by
  rw [skipFraction.eq_def] at skipped
  split at skipped
  next digits =>
    split at skipped
    · cases skipped
    next numeric =>
      cases skipped
      refine ⟨_, .digits (digits_takeDigits (by simpa using numeric)), ?_⟩
      simp [takeDigits_append_dropDigits]
  next =>
    cases skipped
    exact ⟨[], .none, rfl⟩

theorem exponent_of_skipExponent {left : Remainder text} (skipped : skipExponent text = .ok left) :
    ∃ exponent, Exponent exponent ∧ text = exponent ++ left.val := by
  by_cases starts : startsExponent text = true
  · have read := skipExponent_eq starts
    rw [skipped] at read
    split at read
    · cases read
    next numeric =>
      have last : left.val = dropDigits (exponentSign text.tail).2.val := Except.ok.inj read
      rw [last]
      exact exponent_of_digits starts (by simpa using numeric)
  · rw [skipExponent, if_neg starts] at skipped
    cases skipped
    exact ⟨[], .none, rfl⟩

theorem magnitude_of_skipMagnitude {found : Found Unit text}
    (read : skipMagnitude text = .ok found) :
    ∃ magnitude, Magnitude magnitude ∧ text = magnitude ++ found.rest := by
  rw [skipMagnitude.eq_def] at read
  split at read
  · cases read
  next c text =>
    split at read
    · cases read
    next numeric =>
      split at read
      · cases read
      next unpadded =>
        cases skipped : skipFraction (dropDigits text) with
        | error fault => simp [skipped, bind, Except.bind] at read
        | ok after =>
          cases skipped' : skipExponent after.val with
          | error fault => simp [skipped, skipped', bind, Except.bind] at read
          | ok last =>
            obtain ⟨fraction, fractional, left⟩ := fraction_of_skipFraction skipped
            obtain ⟨exponent, exponential, left'⟩ := exponent_of_skipExponent skipped'
            simp only [skipped, skipped', bind, Except.bind, Except.ok.injEq] at read
            subst read
            rw [left'] at left
            exact magnitude_of_parts (by simpa using numeric) unpadded fractional exponential left

theorem numeral_of_skipNumber {found : Found Unit text} (read : skipNumber text = .ok found) :
    ∃ literal, Numeral literal ∧ text = literal ++ found.rest := by
  rw [skipNumber.eq_def] at read
  split at read
  · obtain ⟨last, unsigned, rfl⟩ := map_eq_ok_iff.mp read
    obtain ⟨literal, magnitude, left⟩ := magnitude_of_skipMagnitude unsigned
    exact ⟨_, .negative magnitude, congrArg ('-' :: ·) left⟩
  · obtain ⟨literal, magnitude, left⟩ := magnitude_of_skipMagnitude read
    exact ⟨literal, .positive magnitude, left⟩

end DeployGate.Json
