import DeployGate.Json.Write
import DeployGate.Proofs.Json.Run
import Mathlib.Tactic.SplitIfs

/-!
# Reading written scalars

Strings, integers and words are read as what was written, whatever follows a string or a word, and
whatever follows an integer that cannot be a part of a number.
-/

namespace DeployGate.Json

/-! ### Strings -/

section

variable {c : Char} {text after : List Char}

theorem run_readString_cons (text : List Char) (noQuote : c ≠ '"') (noEscape : c ≠ '\\')
    (visible : isControl c = false) :
    Reader.run readString (c :: text)
      = (Reader.run readString text).map (Prod.map (c :: ·) id) := by
  rw [Reader.run, Reader.run, readString]
  · rw [if_neg (by simp [visible])]
    cases readString text <;> rfl
  · exact noQuote
  · exact noEscape

theorem run_readString_escape (escaped : Reader.run readEscape text = .ok (c, after)) :
    Reader.run readString ('\\' :: text)
      = (Reader.run readString after).map (Prod.map (c :: ·) id) := by
  obtain ⟨shorter, escaped⟩ := eq_of_run escaped
  rw [Reader.run, Reader.run, readString]
  simp only [escaped]
  cases readString after <;> rfl

theorem run_readEscape_short {letter : Char} (text : List Char)
    (short : shortEscape? letter = some c) :
    Reader.run readEscape (letter :: text) = .ok (c, text) := by
  have notUnicode : letter ≠ 'u' := by
    rintro rfl
    cases short
  rw [Reader.run, readEscape]
  · simp only [short]
    rfl
  · exact notUnicode

theorem hexDigit?_digitChar :
    ∀ digit < 16, Text.hexDigit? (Nat.digitChar digit) = some digit := by
  decide

/-- Two hexadecimal digits are enough for a control character. -/
theorem hexNumber?_control (control : c.toNat < 0x20) :
    hexNumber? '0' '0' (Nat.digitChar (c.toNat / 16)) (Nat.digitChar (c.toNat % 16))
      = some c.toNat := by
  -- the first two digits add nothing
  have zero : Text.hexDigit? '0' = some 0 := by decide
  have high := hexDigit?_digitChar (c.toNat / 16) (by omega)
  have low := hexDigit?_digitChar (c.toNat % 16) (by omega)
  simp only [hexNumber?, List.foldlM_cons, List.foldlM_nil, zero, high, low, Option.map_some,
    Option.bind_eq_bind, Option.bind_some, Option.pure_def, Option.some.injEq]
  omega

theorem run_readEscape_control (text : List Char) (control : c.toNat < 0x20) :
    Reader.run readEscape
      ('u' :: '0' :: '0' :: Nat.digitChar (c.toNat / 16) :: Nat.digitChar (c.toNat % 16) :: text)
        = .ok (c, text) := by
  have number := hexNumber?_control control
  have noLow : isLowSurrogate c.toNat = false := by simp [isLowSurrogate]; omega
  have noHigh : isHighSurrogate c.toNat = false := by simp [isHighSurrogate]; omega
  rw [Reader.run, readEscape]
  simp only [readHex, number, noLow, noHigh, Bool.false_eq_true, if_false, Except.map,
    Char.ofNat_toNat]

/-- The ways to write a character: a short escape, two hexadecimal digits, or itself. -/
inductive Writes (c : Char) : List Char → Prop
  | short {letter : Char} : shortEscape? letter = some c → Writes c ['\\', letter]
  | control : c.toNat < 0x20 →
    Writes c
      ['\\', 'u', '0', '0', Nat.digitChar (c.toNat / 16), Nat.digitChar (c.toNat % 16)]
  | plain : c ≠ '"' → c ≠ '\\' → isControl c = false → Writes c [c]

theorem writes_writeChar (c : Char) : Writes c (writeChar c) := by
  have short (letter : Char) (stands : shortEscape? letter = some c) :
      Writes c ['\\', letter] := .short stands
  -- one case for each way to write a character, in the order of the writer
  rw [writeChar]
  split_ifs with quote escape backspace feed line carriage tab control
  · exact short '"' (by rw [quote]; rfl)
  · exact short '\\' (by rw [escape]; rfl)
  · exact short 'b' (backspace ▸ rfl)
  · exact short 'f' (feed ▸ rfl)
  · exact short 'n' (line ▸ rfl)
  · exact short 'r' (carriage ▸ rfl)
  · exact short 't' (tab ▸ rfl)
  · exact .control control
  · exact .plain quote escape (by simpa [isControl] using control)

theorem run_readString_writeChar (c : Char) (text : List Char) :
    Reader.run readString (writeChar c ++ text)
      = (Reader.run readString text).map (Prod.map (c :: ·) id) := by
  have writes := writes_writeChar c
  generalize writeChar c = written at writes ⊢
  cases writes with
  | short stands => exact run_readString_escape (run_readEscape_short text stands)
  | control control => exact run_readString_escape (run_readEscape_control text control)
  | plain noQuote noEscape visible => exact run_readString_cons text noQuote noEscape visible

end

theorem run_readString (cs rest : List Char) :
    Reader.run readString (cs.flatMap writeChar ++ '"' :: rest) = .ok (cs, rest) := by
  induction cs with
  | nil =>
    rw [List.flatMap_nil, List.nil_append, Reader.run, readString]
    rfl
  | cons c cs ih =>
    rw [List.flatMap_cons, List.append_assoc, run_readString_writeChar, ih]
    rfl

theorem run_readQuoted (text : String) (rest : List Char) :
    readQuoted.run (text.toList.flatMap writeChar ++ '"' :: rest) = .ok (text, rest) := by
  rw [readQuoted, run_map, run_readString, Except.map, Prod.map, String.ofList_toList]
  rfl

theorem run_readText (text : String) (rest : List Char) :
    readText.run (writeString text ++ rest) = .ok (text, rest) := by
  rw [readText, run_afterBlank, writeString, List.cons_append, skipBlank_cons _ rfl,
    List.append_assoc]
  exact (map_later _).trans (run_readQuoted text rest)

/-! ### Integers -/

/-- What can follow a number without being a part of it. -/
def Delimited (rest : List Char) : Prop :=
  ∀ c ∈ rest.head?, c.isDigit = false ∧ c ≠ '.' ∧ c ≠ 'e' ∧ c ≠ 'E'

theorem delimited_nil : Delimited [] := by simp [Delimited]

section

variable {digits rest : List Char} {n : Nat}

/-- The text does not begin with a digit. -/
def NoDigit (rest : List Char) : Prop := ∀ c ∈ rest.head?, c.isDigit = false

theorem Delimited.noDigit (delimited : Delimited rest) : NoDigit rest :=
  fun c first => (delimited c first).1

theorem takeDigits_append (numeric : ∀ c ∈ digits, c.isDigit = true) (stops : NoDigit rest) :
    takeDigits (digits ++ rest) = digits := by
  rw [takeDigits, List.takeWhile_append_of_pos numeric]
  cases rest with
  | nil => simp
  | cons c rest => rw [List.takeWhile_cons_of_neg (by simp [stops c rfl]), List.append_nil]

theorem dropDigits_append (numeric : ∀ c ∈ digits, c.isDigit = true) (stops : NoDigit rest) :
    dropDigits (digits ++ rest) = rest := by
  rw [dropDigits, List.dropWhile_append_of_pos numeric]
  cases rest with
  | nil => rfl
  | cons c rest => exact List.dropWhile_cons_of_neg (by simp [stops c rfl])

theorem le_ofDigitChars (digits : List Char) (n : Nat) : n ≤ Nat.ofDigitChars 10 digits n := by
  rw [Nat.ofDigitChars_eq_ofDigitChars_zero]
  have : 0 < 10 ^ digits.length := Nat.pow_pos (by decide)
  exact Nat.le_trans (Nat.le_mul_of_pos_left n this) (Nat.le_add_right _ _)

/-- Digits whose number fits a word are all taken in. -/
theorem absorb_eq (word : UInt64)
    (fits : Nat.ofDigitChars 10 digits word.toNat < UInt64.size) :
    absorb word digits = (UInt64.ofNat (Nat.ofDigitChars 10 digits word.toNat), []) := by
  induction digits generalizing word with
  | nil => simp [absorb]
  | cons digit digits ih =>
    rw [Nat.ofDigitChars_cons] at fits ⊢
    -- a number that fits has no beginning that does not
    have next : 10 * word.toNat + digitValue digit < UInt64.size :=
      Nat.lt_of_le_of_lt (le_ofDigitChars digits _) fits
    have small : (UInt64.ofNat (10 * word.toNat + digitValue digit)).toNat
        = 10 * word.toNat + digitValue digit := UInt64.toNat_ofNat_of_lt' next
    rw [absorb, if_pos next, ih]
    · rw [small]
      rfl
    · rw [small]
      exact fits

/-- No zero stands before another digit. -/
theorem head_toDigits_ne_zero (positive : 0 < n) : (Nat.toDigits 10 n).head? ≠ some '0' := by
  -- the digits of `n` begin with those of `n / 10`, if there are any
  induction n using Nat.strongRecOn with
  | ind n ih =>
    by_cases small : n < 10
    · rw [Nat.toDigits_of_lt_base small]
      simp only [List.head?_cons, ne_eq, Option.some.injEq, Nat.digitChar_eq_zero]
      omega
    · rw [Nat.toDigits_of_base_le (by decide) (by omega), List.head?_append,
        List.head?_eq_some_head Nat.toDigits_ne_nil, Option.some_or,
        ← List.head?_eq_some_head Nat.toDigits_ne_nil]
      exact ih (n / 10) (by omega) (by omega)

theorem startsExponent_eq_false (delimited : Delimited rest) : startsExponent rest = false := by
  cases rest with
  | nil => rfl
  | cons c rest =>
    obtain ⟨-, -, noLower, noUpper⟩ := delimited c rfl
    simp [startsExponent, noLower, noUpper]

theorem readFraction_eq (negative : Bool) (fits : Nat.ofDigitChars 10 digits 0 < UInt64.size)
    (delimited : Delimited rest) :
    readFraction negative digits rest
      = .ok (.ofWord negative (UInt64.ofNat (Nat.ofDigitChars 10 digits 0)), .all rest) := by
  have integral : startsExponent rest = false := startsExponent_eq_false delimited
  rw [readFraction, absorb_eq 0 fits]
  cases rest with
  | nil => rfl
  | cons c rest => simp [integral, (delimited c rfl).2.1]

/-- A number is spelled by a digit and more digits, but for a leading zero, which stands alone. -/
theorem toDigits_eq_cons (n : Nat) :
    ∃ c digits, Nat.toDigits 10 n = c :: digits ∧ c.isDigit = true ∧
      (∀ d ∈ digits, d.isDigit = true) ∧ (c = '0' → digits = []) := by
  have numeric : ∀ c ∈ Nat.toDigits 10 n, c.isDigit = true := fun c inside =>
    Nat.isDigit_of_mem_toDigits (by decide) (by decide) inside
  cases spelled : Nat.toDigits 10 n with
  | nil => exact absurd spelled Nat.toDigits_ne_nil
  | cons c digits =>
    rw [spelled, List.forall_mem_cons] at numeric
    refine ⟨c, digits, rfl, numeric.1, numeric.2, ?_⟩
    rintro rfl
    -- only zero itself begins with a zero
    rcases Nat.eq_zero_or_pos n with rfl | positive
    · cases spelled
      rfl
    · have head := head_toDigits_ne_zero positive
      rw [spelled, List.head?_cons] at head
      exact absurd rfl head

/-- The decimal digits of a word are read as that word. -/
theorem run_readMagnitude (negative : Bool) (fits : n < UInt64.size) (delimited : Delimited rest) :
    Reader.run (readMagnitude negative) (Nat.toDigits 10 n ++ rest)
      = .ok (.ofWord negative (UInt64.ofNat n), rest) := by
  have number := Nat.ofDigitChars_ten_toDigits (n := n)
  obtain ⟨c, digits, spelled, opening, numeric, leading⟩ := toDigits_eq_cons n
  rw [spelled] at number ⊢
  have unpadded : (decide (c = '0') && (digits ++ rest).head?.any Char.isDigit) = false := by
    by_cases zero : c = '0'
    · rw [leading zero]
      cases rest with
      | nil => simp
      | cons d rest => simp [(delimited d rfl).1]
    · simp [zero]
  have dropped : dropDigits (digits ++ rest) = rest := dropDigits_append numeric delimited.noDigit
  rw [List.cons_append, Reader.run, readMagnitude, if_neg (by simp [opening]),
    if_neg (by rw [unpadded]; decide), takeDigits_append numeric delimited.noDigit,
    readFraction_eq negative (by rwa [number]) (by rwa [dropped]), number]
  simp [Except.map, Remainder.all, dropped]

theorem render_ofNat (n : Nat) (lower upper) :
    (Number.integer (Int.ofNat n) lower upper).render = Nat.toDigits 10 n := by
  rw [Number.render]
  exact Nat.toList_repr

theorem render_negSucc (n : Nat) (lower upper) :
    (Number.integer (Int.negSucc n) lower upper).render = '-' :: Nat.toDigits 10 (n + 1) := by
  rw [Number.render, ← Nat.toList_repr]
  simp [toString, Int.repr]

/-- The rendering of an integer begins with its sign or with a digit. -/
theorem head_render (value : Int) (lower upper) :
    ∃ c text, (Number.integer value lower upper).render = c :: text ∧
      (c = '-' ∨ c.isDigit = true) := by
  cases value with
  | ofNat n =>
    obtain ⟨c, digits, spelled, numeric, -⟩ := toDigits_eq_cons n
    exact ⟨c, digits, (render_ofNat n lower upper).trans spelled, .inr numeric⟩
  | negSucc n => exact ⟨_, _, render_negSucc n lower upper, .inl rfl⟩

/-- An integer that a word holds is read as itself. -/
theorem run_readNumber (value : Int) (lower upper) (delimited : Delimited rest) :
    readNumber.run ((Number.integer value lower upper).render ++ rest)
      = .ok (.integer value lower upper, rest) := by
  have size : UInt64.size = 0x10000000000000000 := rfl
  cases value with
  | ofNat n =>
    have small : n < UInt64.size := Int.ofNat_lt.mp upper
    obtain ⟨c, digits, spelled, opening, -⟩ := toDigits_eq_cons n
    have magnitude := run_readMagnitude false small delimited
    rw [spelled] at magnitude
    rw [render_ofNat, spelled, List.cons_append, Reader.run, readNumber]
    · refine magnitude.trans ?_
      simp [Number.ofWord, UInt64.toNat_ofNat_of_lt' small]
    · -- a digit is no sign
      rintro _ ⟨⟩
      cases opening
  | negSucc n =>
    have magnitude := run_readMagnitude (n := n + 1) true (by omega) delimited
    rw [render_negSucc, List.cons_append, Reader.run, readNumber]
    refine (map_later _).trans (magnitude.trans ?_)
    have word : (UInt64.ofNat (n + 1)).toNat = n + 1 := UInt64.toNat_ofNat_of_lt' (by omega)
    simp only [Number.ofWord, if_true, word]
    -- the word is not zero, nor beyond the least integer of 64 bits
    rw [dif_neg (by omega)]
    rfl

end

end DeployGate.Json
