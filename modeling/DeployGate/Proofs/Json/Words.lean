import DeployGate.Proofs.Json.Rendering

/-!
# Numbers that are words

Which literals are read as a 64-bit word: those of digits alone whose value is below `2 ^ 64`. A
word is gathered digit by digit, and a digit with which it would overflow makes the number a
binary64 number, as a point or an exponent does. Each word has one literal, which is the one that is
written.
-/

namespace DeployGate.Json

variable {text literal digits : List Char}

/-! ### Literals of digits -/

/-- The marks of a sign, a fraction and an exponent. -/
def marks : List Char := ['-', '.', 'e', 'E']

/-- The literal has no sign, no fraction and no exponent, and its value is that of the word. -/
structure IsWord (literal : List Char) (word : UInt64) : Prop where
  unmarked : ∀ mark ∈ marks, mark ∉ literal
  value : Nat.ofDigitChars 10 literal 0 = word.toNat

/-- The literal has no sign, no fraction and no exponent, and its value is below `2 ^ 64`. -/
def FitsWord (literal : List Char) : Prop :=
  (∀ mark ∈ marks, mark ∉ literal) ∧ Nat.ofDigitChars 10 literal 0 < UInt64.size

theorem fitsWord_iff : FitsWord literal ↔ ∃ word, IsWord literal word := by
  constructor
  · rintro ⟨unmarked, fits⟩
    exact ⟨_, unmarked, (UInt64.toNat_ofNat_of_lt' fits).symm⟩
  · rintro ⟨word, unmarked, value⟩
    rw [FitsWord, value]
    exact ⟨unmarked, word.toNat_lt⟩

theorem not_isDigit_of_mem_marks {mark : Char} (inside : mark ∈ marks) : mark.isDigit = false := by
  simp only [marks, List.mem_cons, List.not_mem_nil, or_false] at inside
  rcases inside with rfl | rfl | rfl | rfl <;> rfl

theorem unmarked_of_digits (numeric : ∀ c ∈ text, c.isDigit = true) :
    ∀ mark ∈ marks, mark ∉ text := by
  intro mark inside found
  cases (numeric mark found).symm.trans (not_isDigit_of_mem_marks inside)

theorem Whole.numeric (whole : Whole text) : ∀ c ∈ text, c.isDigit = true := by
  cases whole with
  | zero => simp
  | digits _ digits => exact digits.2

theorem Numeral.whole (numeral : Numeral literal) (unmarked : ∀ mark ∈ marks, mark ∉ literal) :
    Whole literal := by
  simp only [marks, List.forall_mem_cons] at unmarked
  obtain ⟨unsigned, noPoint, noLower, noUpper, -⟩ := unmarked
  cases numeral with
  | negative => exact absurd List.mem_cons_self unsigned
  | positive magnitude =>
    cases magnitude with
    | parts whole fractional exponential =>
      cases fractional with
      | digits => exact absurd (by simp) noPoint
      | none =>
        cases exponential with
        | none => simpa using whole
        | digits marked =>
          rcases marked with rfl | rfl
          · exact absurd (by simp) noLower
          · exact absurd (by simp) noUpper

theorem digitChar_digitValue {c : Char} (numeric : c.isDigit = true) :
    digitValue c < 10 ∧ Nat.digitChar (digitValue c) = c := by
  have range : 48 ≤ c.toNat ∧ c.toNat ≤ 57 := Char.isDigit_iff_toNat.mp numeric
  have small : digitValue c < 10 := by
    rw [digitValue]
    omega
  refine ⟨small, Char.toNat_inj.mp ?_⟩
  rw [Nat.toNat_digitChar_of_lt_ten small, digitValue]
  omega

/-- More digits behind those of a number are the digits of the number that they make of it. -/
theorem toDigits_append_digits {n : Nat} (positive : 0 < n)
    (numeric : ∀ c ∈ digits, c.isDigit = true) :
    Nat.toDigits 10 n ++ digits = Nat.toDigits 10 (Nat.ofDigitChars 10 digits n) := by
  -- the number of the digits so far is what the next digit is put behind
  induction digits generalizing n with
  | nil => simp
  | cons c digits ih =>
    rw [List.forall_mem_cons] at numeric
    obtain ⟨small, same⟩ := digitChar_digitValue numeric.1
    have one : Nat.toDigits 10 (digitValue c) = [c] := by rw [Nat.toDigits_of_lt_base small, same]
    have longer := Nat.toDigits_append_toDigits (by decide : 1 < 10) positive small
    rw [one] at longer
    rw [Nat.ofDigitChars_cons, List.append_cons, longer]
    exact ih (by omega) numeric.2

/-- A literal of digits is the one of its value. -/
theorem Whole.eq_toDigits (whole : Whole text) :
    text = Nat.toDigits 10 (Nat.ofDigitChars 10 text 0) := by
  cases whole with
  | zero => decide
  | @digits c digits nonzero numeric =>
    have numeric := List.forall_mem_cons.mp numeric.2
    obtain ⟨small, same⟩ := digitChar_digitValue numeric.1
    -- no zero stands in front of other digits, so the first digit counts
    have positive : 0 < digitValue c := by
      refine Nat.pos_of_ne_zero fun zero => nonzero ?_
      rw [← same, zero]
      rfl
    have longer := toDigits_append_digits positive numeric.2
    rw [Nat.toDigits_of_lt_base small, same] at longer
    rw [Nat.ofDigitChars_cons]
    simpa [digitValue] using longer

theorem whole_toDigits (n : Nat) : Whole (Nat.toDigits 10 n) := by
  obtain ⟨c, digits, spelled, numeric, further, alone⟩ := toDigits_eq_cons n
  rw [spelled]
  by_cases zero : c = '0'
  · rw [alone zero, zero]
    exact .zero
  · exact .digits zero ⟨by simp, List.forall_mem_cons.mpr ⟨numeric, further⟩⟩

theorem numeral_toDigits (n : Nat) : Numeral (Nat.toDigits 10 n) := by
  have magnitude := Magnitude.parts (whole_toDigits n) .none .none
  rw [List.append_nil, List.append_nil] at magnitude
  exact .positive magnitude

/-- The literal of a word is the one that is written of it. -/
theorem isWord_iff (numeral : Numeral literal) {word : UInt64} :
    IsWord literal word ↔ literal = (toString word.toNat).toList := by
  rw [Nat.toString_eq_repr, Nat.toList_repr]
  constructor
  · rintro ⟨unmarked, value⟩
    rw [← value]
    exact (numeral.whole unmarked).eq_toDigits
  · rintro rfl
    exact ⟨unmarked_of_digits (whole_toDigits _).numeric, Nat.ofDigitChars_ten_toDigits⟩

/-! ### Reading -/

/-- Digits are all taken in only where their number fits a word. -/
theorem lt_of_absorb {word : UInt64} (all : (absorb word digits).2 = []) :
    Nat.ofDigitChars 10 digits word.toNat < UInt64.size := by
  induction digits generalizing word with
  | nil => exact word.toNat_lt
  | cons digit digits ih =>
    rw [absorb] at all
    split at all
    next small =>
      have fits := ih all
      rwa [UInt64.toNat_ofNat_of_lt' small] at fits
    next => cases all

theorem ofScaled_ne_integer {negative : Bool} {word : UInt64} {exponent value : Int} {lower upper} :
    Number.ofScaled negative word exponent ≠ some (.integer value lower upper) := by
  rw [Number.ofScaled]
  cases Number.scale word exponent <;> simp [Number.ofFloat]

theorem readScaled_ne_integer {negative : Bool} {word : UInt64} {exponent value : Int}
    {lower upper} {rest : List Char} :
    leaving (readScaled negative word exponent text) ≠ .ok (.integer value lower upper, rest) := by
  rw [leaving_readScaled]
  cases leaving (readOptionalExponent word text) with
  | error fault => simp [Except.bind]
  | ok found =>
    simp only [Except.bind]
    cases scaled : Number.ofScaled negative word (exponent + found.1) with
    | none => simp
    | some number =>
      simp only [ne_eq, Except.ok.injEq, Prod.mk.injEq, not_and]
      rintro rfl
      exact absurd scaled ofScaled_ne_integer

/-- A number with a fraction or an exponent, or of too many digits, is no integer. -/
theorem integer_of_readFraction {negative : Bool} {whole fraction exponent : List Char}
    (fractional : Fraction fraction) (exponential : Exponent exponent) {value : Int} {lower upper}
    {rest : List Char} (read : leaving (readFraction negative whole (fraction ++ exponent))
      = .ok (.integer value lower upper, rest)) :
    fraction = [] ∧ exponent = [] ∧ Nat.ofDigitChars 10 whole 0 < UInt64.size ∧
      .integer value lower upper
        = Number.ofWord negative (UInt64.ofNat (Nat.ofDigitChars 10 whole 0)) := by
  cases fractional with
  | digits numeric =>
    -- whatever its value, a number with a point is scaled and so a binary64 number
    have stops := exponential.noDigit delimited_nil
    rw [List.append_nil] at stops
    rw [List.cons_append, leaving_readFraction_point negative whole numeric stops] at read
    exact absurd read readScaled_ne_integer
  | none =>
    have noPoint := exponential.no_point delimited_nil
    have starts := exponential.startsExponent_append delimited_nil
    rw [List.append_nil] at noPoint starts
    rw [List.nil_append, leaving_readFraction negative whole noPoint] at read
    split at read
    · exact absurd read readScaled_ne_integer
    next unscaled =>
      simp only [starts, Bool.or_eq_true, Bool.not_eq_true', not_or, Bool.not_eq_false,
        List.isEmpty_iff] at unscaled
      obtain ⟨integral, all⟩ := unscaled
      have fits := lt_of_absorb all
      rw [absorb_eq 0 fits] at read
      exact ⟨rfl, integral, fits, (congrArg Prod.fst (Except.ok.inj read)).symm⟩

theorem integer_of_readMagnitude {negative : Bool} (magnitude : Magnitude text) {value : Int}
    {lower upper} {rest : List Char} (read : Reader.run (readMagnitude negative) text
      = .ok (.integer value lower upper, rest)) :
    Whole text ∧ Nat.ofDigitChars 10 text 0 < UInt64.size ∧
      .integer value lower upper
        = Number.ofWord negative (UInt64.ofNat (Nat.ofDigitChars 10 text 0)) := by
  cases magnitude with
  | @parts whole fraction exponent wholly fractional exponential =>
    have stops := fractional.noDigit (exponential.noDigit delimited_nil)
    rw [List.append_nil] at stops
    obtain ⟨c, digits, rfl, numeric, further, unpadded⟩ := wholly.parts stops
    rw [List.cons_append, run_readMagnitude_cons negative numeric unpadded,
      takeDigits_append further stops, dropDigits_append further stops] at read
    obtain ⟨rfl, rfl, fits, same⟩ := integer_of_readFraction fractional exponential read
    simp only [List.append_nil] at wholly fits same ⊢
    exact ⟨wholly, fits, same⟩

theorem run_readNumber_of_digit {c : Char} (numeric : c.isDigit = true) (text : List Char) :
    readNumber.run (c :: text) = Reader.run (readMagnitude false) (c :: text) := by
  rw [Reader.run, readNumber]
  · rfl
  · rintro _ ⟨⟩
    cases numeric

/-- Of the integers only those without a sign are not negative, as `-0` is a binary64 number. -/
theorem isWord_of_numberOf (numeral : Numeral literal) {value : Int} {lower upper}
    (read : numberOf literal = some (.integer value lower upper)) (nonnegative : ¬ value < 0) :
    IsWord literal (UInt64.ofNat value.toNat) := by
  have ran : ∃ rest, readNumber.run literal = .ok (.integer value lower upper, rest) := by
    rw [numberOf] at read
    split at read
    next ran =>
      cases read
      exact ⟨_, ran⟩
    next => cases read
  obtain ⟨rest, ran⟩ := ran
  cases numeral with
  | positive magnitude =>
    obtain ⟨c, more, rfl, numeric⟩ := magnitude.head
    rw [run_readNumber_of_digit numeric] at ran
    obtain ⟨whole, fits, same⟩ := integer_of_readMagnitude magnitude ran
    refine ⟨unmarked_of_digits whole.numeric, ?_⟩
    simp only [Number.ofWord, Bool.false_eq_true, if_false, Number.integer.injEq] at same
    rw [same, Int.toNat_natCast, UInt64.ofNat_toNat, UInt64.toNat_ofNat_of_lt' fits]
  | negative magnitude =>
    rw [Reader.run, readNumber, map_later] at ran
    obtain ⟨-, -, same⟩ := integer_of_readMagnitude magnitude ran
    rw [Number.ofWord, if_pos rfl] at same
    split at same
    · cases same
    · -- the word is not zero, so the integer is negative
      obtain rfl := (Number.integer.inj same)
      omega

/-- A literal is read as a word exactly when it is the word's. -/
theorem decodeUnsigned_eq_some_iff (numeral : Numeral literal) {word : UInt64} :
    decodeUnsigned (.number literal) = some word ↔ IsWord literal word := by
  constructor
  · intro decoded
    rw [decodeUnsigned] at decoded
    split at decoded
    next value lower upper read =>
      split at decoded
      · cases decoded
      next nonnegative =>
        cases decoded
        exact isWord_of_numberOf numeral read nonnegative
    next => cases decoded
  · intro isWord
    rw [(isWord_iff numeral).mp isWord]
    exact decodeUnsigned_toNat word

end DeployGate.Json
