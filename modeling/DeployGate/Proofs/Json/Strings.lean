import DeployGate.Proofs.Json.Grammar
import DeployGate.Proofs.Json.Scalars

/-!
# Reading strings

A string is read as the text that its code units are the UTF-16 form of, and refused if there is no
such text. Where its value does not matter it is skipped, whatever its code units are.
-/

namespace DeployGate.Json

variable {α β : Type}

/-! ### Outcomes -/

/-- A reading that gives the value of the outcome and leaves the rest, or else fails. -/
inductive Gives (rest : List Char) : Except Fault (α × List Char) → Option α → Prop
  | value (value : α) : Gives rest (.ok (value, rest)) (some value)
  | fault (fault : Fault) : Gives rest (.error fault) none

namespace Gives

variable {rest : List Char} {reading : Except Fault (α × List Char)} {outcome : Option α}

theorem map (f : α → β) (gives : Gives rest reading outcome) :
    Gives rest (reading.map (Prod.map f id)) (outcome.map f) := by
  cases gives with
  | value value => exact .value (f value)
  | fault fault => exact .fault fault

theorem of_error (fails : ∃ fault, reading = .error fault) : Gives rest reading none := by
  obtain ⟨fault, rfl⟩ := fails
  exact .fault fault

end Gives

/-! ### UTF-16 -/

/-- No character is one half of a surrogate pair. -/
theorem not_surrogate (c : Char) :
    isLowSurrogate c.toNat = false ∧ isHighSurrogate c.toNat = false := by
  have valid : c.toNat < 0xD800 ∨ 0xDFFF < c.toNat ∧ c.toNat < 0x110000 := c.valid
  simp only [isLowSurrogate, isHighSurrogate, Bool.and_eq_false_iff, decide_eq_false_iff_not]
  omega

theorem not_low_of_high {unit : Nat} (high : isHighSurrogate unit = true) :
    isLowSurrogate unit = false := by
  simp only [isHighSurrogate, Bool.and_eq_true, decide_eq_true_eq] at high
  simp only [isLowSurrogate, Bool.and_eq_false_iff, decide_eq_false_iff_not]
  omega

section

variable {unit low : Nat} {units : List Nat}

theorem charsOfUnits_low (first : isLowSurrogate unit = true) :
    charsOfUnits (unit :: units) = none := by
  rw [charsOfUnits.eq_def]
  simp [first]

theorem charsOfUnits_single (noLow : isLowSurrogate unit = false)
    (noHigh : isHighSurrogate unit = false) :
    charsOfUnits (unit :: units) = (charsOfUnits units).map (Char.ofNat unit :: ·) := by
  rw [charsOfUnits.eq_def]
  simp [noLow, noHigh]

theorem charsOfUnits_pair (high : isHighSurrogate unit = true)
    (second : isLowSurrogate low = true) :
    charsOfUnits (unit :: low :: units)
      = (charsOfUnits units).map (joinSurrogates unit low :: ·) := by
  rw [charsOfUnits.eq_def]
  simp [not_low_of_high high, high, second]

theorem charsOfUnits_alone (high : isHighSurrogate unit = true)
    (alone : ∀ low ∈ units.head?, isLowSurrogate low = false) :
    charsOfUnits (unit :: units) = none := by
  rw [charsOfUnits.eq_def]
  cases units with
  | nil => simp [high]
  | cons low units => simp [high, alone low rfl]

end

theorem charsOfUnits_codeUnits (c : Char) (units : List Nat) :
    charsOfUnits (codeUnits c ++ units) = (charsOfUnits units).map (c :: ·) := by
  rw [codeUnits]
  split
  next small =>
    obtain ⟨noLow, noHigh⟩ := not_surrogate c
    rw [List.cons_append, List.nil_append, charsOfUnits_single noLow noHigh, Char.ofNat_toNat]
  next large =>
    have valid : c.toNat < 0xD800 ∨ 0xDFFF < c.toNat ∧ c.toNat < 0x110000 := c.valid
    have high : isHighSurrogate (0xD800 + (c.toNat - 0x10000) / 0x400) = true := by
      simp only [isHighSurrogate, Bool.and_eq_true, decide_eq_true_eq]
      omega
    have low : isLowSurrogate (0xDC00 + (c.toNat - 0x10000) % 0x400) = true := by
      simp only [isLowSurrogate, Bool.and_eq_true, decide_eq_true_eq]
      omega
    have number : 0x10000 + (0xD800 + (c.toNat - 0x10000) / 0x400 - 0xD800) * 0x400
        + (0xDC00 + (c.toNat - 0x10000) % 0x400 - 0xDC00) = c.toNat := by omega
    rw [List.cons_append, List.cons_append, List.nil_append, charsOfUnits_pair high low,
      joinSurrogates, number, Char.ofNat_toNat]

theorem textOfUnits_unitsOfText (text : String) : textOfUnits (unitsOfText text) = some text := by
  have chars (cs : List Char) : charsOfUnits (cs.flatMap codeUnits) = some cs := by
    induction cs with
    | nil => rfl
    | cons c cs ih => rw [List.flatMap_cons, charsOfUnits_codeUnits, ih, Option.map_some]
  rw [textOfUnits, unitsOfText, chars, Option.map_some, String.ofList_toList]

/-- The character stands for itself in a string. -/
def isPlain (c : Char) : Bool := c != '"' && c != '\\' && !isControl c

theorem letters_self (text : String) (plain : text.toList.all isPlain = true) :
    Letters (unitsOfText text) text.toList := by
  rw [unitsOfText]
  generalize text.toList = cs at plain
  induction cs with
  | nil => exact .nil
  | cons c cs ih =>
    simp only [List.all_cons, isPlain, Bool.and_eq_true, bne_iff_ne, Bool.not_eq_true'] at plain
    obtain ⟨⟨⟨noQuote, noEscape⟩, visible⟩, plain⟩ := plain
    exact .plain noQuote noEscape visible (ih plain)

theorem Spells.ofText (text : String) (plain : text.toList.all isPlain = true) :
    Spells (.value (.string (unitsOfText text))) ('"' :: (text.toList ++ ['"'])) :=
  .string (letters_self text plain)

theorem Spells.named (name : String) {tree : Tree} {text : List Char}
    (plain : name.toList.all isPlain = true) (spells : Spells (.value tree) text) :
    Spells (.member (unitsOfText name) tree) ('"' :: (name.toList ++ '"' :: ':' :: text)) :=
  .member (letters_self name plain) (.entry spells)

/-- The UTF-16 form of a character does not begin with the second half of a pair. -/
theorem head_codeUnits (c : Char) (units : List Nat) :
    ∀ unit ∈ (codeUnits c ++ units).head?, isLowSurrogate unit = false := by
  rw [codeUnits]
  split
  next =>
    rintro _ ⟨⟩
    exact (not_surrogate c).1
  next large =>
    have valid : c.toNat < 0xD800 ∨ 0xDFFF < c.toNat ∧ c.toNat < 0x110000 := c.valid
    rintro _ ⟨⟩
    simp only [isLowSurrogate, Bool.and_eq_false_iff, decide_eq_false_iff_not]
    omega

/-! ### Escapes -/

section

variable {a b c d : Char} {unit high : Nat} {text rest : List Char}

theorem run_readEscape_hex (number : hexNumber? a b c d = some unit) (text : List Char) :
    Reader.run readEscape ('u' :: a :: b :: c :: d :: text) =
      if isLowSurrogate unit then .error (.here .loneSurrogate text)
      else if isHighSurrogate unit then Reader.run (readLowSurrogate unit) text
      else .ok (Char.ofNat unit, text) := by
  rw [Reader.run, readEscape]
  simp only [readHex, number]
  split
  · rfl
  · split
    · rw [Reader.run]
      cases readLowSurrogate unit text <;> rfl
    · rfl

theorem run_readLowSurrogate_hex (number : hexNumber? a b c d = some unit) (text : List Char) :
    Reader.run (readLowSurrogate high) ('\\' :: 'u' :: a :: b :: c :: d :: text) =
      if isLowSurrogate unit then .ok (joinSurrogates high unit, text)
      else .error (.here .loneSurrogate text) := by
  rw [Reader.run, readLowSurrogate]
  simp only [readHex, number]
  by_cases low : isLowSurrogate unit = true <;> simp [low, Except.map]

/-- Only another escape completes a surrogate pair. -/
theorem run_readLowSurrogate_other (high : Nat) (other : ∀ rest, text ≠ '\\' :: 'u' :: rest) :
    ∃ fault, Reader.run (readLowSurrogate high) text = .error fault := by
  rw [Reader.run, readLowSurrogate.eq_def]
  split
  · exact ⟨_, rfl⟩
  · exact ⟨_, rfl⟩
  · exact absurd rfl (other _)
  · exact ⟨_, rfl⟩
  · exact ⟨_, rfl⟩

theorem run_readString_refused {fault : Fault}
    (refused : Reader.run readEscape text = .error fault) :
    Reader.run readString ('\\' :: text) = .error fault := by
  rw [Reader.run, readString, eq_of_run_error refused]
  rfl

end

theorem shortEscape?_ne {letter c : Char} (short : shortEscape? letter = some c) :
    letter ≠ 'u' := by
  rintro rfl
  cases short

/-! ### Strings -/

section

variable {units : List Nat} {text : List Char}

/-- After the first half of a surrogate pair, nothing but an escape of a second half is read. -/
theorem gives_readString_high {a b c d : Char} {unit : Nat} {rest : List Char}
    (number : hexNumber? a b c d = some unit) (high : isHighSurrogate unit = true)
    (letters : Letters units text)
    (further : ∀ {units' : List Nat} {text' : List Char}, text'.length < text.length →
      Letters units' text' →
        Gives rest (Reader.run readString (text' ++ '"' :: rest)) (charsOfUnits units')) :
    Gives rest (Reader.run readString ('\\' :: 'u' :: a :: b :: c :: d :: (text ++ '"' :: rest)))
      (charsOfUnits (unit :: units)) := by
  have read := run_readEscape_hex number (text ++ '"' :: rest)
  rw [if_neg (by simp [not_low_of_high high]), if_pos high] at read
  -- without a second half both fail, the reader at once and the text in the end
  have alone (other : ∀ after, text ++ '"' :: rest ≠ '\\' :: 'u' :: after)
      (first : ∀ low ∈ units.head?, isLowSurrogate low = false) :
      Gives rest (Reader.run readString ('\\' :: 'u' :: a :: b :: c :: d :: (text ++ '"' :: rest)))
        (charsOfUnits (unit :: units)) := by
    obtain ⟨fault, refused⟩ := run_readLowSurrogate_other unit other
    rw [charsOfUnits_alone high first]
    exact .of_error ⟨fault, run_readString_refused (read.trans refused)⟩
  cases letters with
  | nil => exact alone (by simp) (by simp)
  | @plain c units text _ noEscape => exact alone (by simp [noEscape]) (head_codeUnits c units)
  | @short letter c units text short =>
    refine alone ?_ (head_codeUnits c units)
    simp [shortEscape?_ne short]
  | @hex a' b' c' d' low units text number' letters =>
    simp only [List.cons_append] at read ⊢
    rw [run_readLowSurrogate_hex number'] at read
    by_cases second : isLowSurrogate low = true
    · rw [if_pos second] at read
      rw [run_readString_escape read, charsOfUnits_pair high second]
      exact (further (by simp only [List.length_cons]; omega) letters).map _
    · rw [if_neg second] at read
      rw [run_readString_refused read, charsOfUnits_alone high (by simpa using second)]
      exact .fault _

theorem gives_readString (letters : Letters units text) (rest : List Char) :
    Gives rest (Reader.run readString (text ++ '"' :: rest)) (charsOfUnits units) := by
  -- a surrogate pair takes two escapes at a time, so the induction is on the length
  induction size : text.length using Nat.strongRecOn generalizing units text with
  | ind size ih =>
    subst size
    cases letters with
    | nil =>
      rw [List.nil_append, Reader.run, readString]
      exact .value []
    | @plain c units text noQuote noEscape visible letters =>
      rw [List.cons_append, run_readString_cons _ noQuote noEscape visible, charsOfUnits_codeUnits]
      exact (ih text.length (by simp) letters rfl).map _
    | @short letter c units text short letters =>
      rw [List.cons_append, List.cons_append,
        run_readString_escape (run_readEscape_short _ short), charsOfUnits_codeUnits]
      exact (ih text.length (by simp only [List.length_cons]; omega) letters rfl).map _
    | @hex a b c d unit units text number letters =>
      -- also for the letters behind a second escape
      have further {units' : List Nat} {text' : List Char} (shorter : text'.length ≤ text.length)
          (letters' : Letters units' text') :
          Gives rest (Reader.run readString (text' ++ '"' :: rest)) (charsOfUnits units') :=
        ih text'.length (by simp only [List.length_cons]; omega) letters' rfl
      simp only [List.cons_append]
      by_cases high : isHighSurrogate unit = true
      · exact gives_readString_high number high letters
          fun shorter => further (Nat.le_of_lt shorter)
      have read := run_readEscape_hex number (text ++ '"' :: rest)
      by_cases low : isLowSurrogate unit = true
      · rw [if_pos low] at read
        rw [run_readString_refused read, charsOfUnits_low low]
        exact .fault _
      · rw [if_neg low, if_neg high] at read
        rw [run_readString_escape read,
          charsOfUnits_single (by simpa using low) (by simpa using high)]
        exact (further (Nat.le_refl _) letters).map _

theorem gives_readQuoted (letters : Letters units text) (rest : List Char) :
    Gives rest (readQuoted.run (text ++ '"' :: rest)) (textOfUnits units) := by
  rw [readQuoted, run_map]
  exact (gives_readString letters rest).map String.ofList

theorem run_skipString (letters : Letters units text) (rest : List Char) :
    Reader.run skipString (text ++ '"' :: rest) = .ok ((), rest) := by
  induction letters with
  | nil =>
    rw [List.nil_append, Reader.run, skipString]
    rfl
  | @plain c units text noQuote noEscape visible _ ih =>
    rw [List.cons_append, Reader.run, skipString]
    · rw [if_neg (by simp [visible])]
      exact (map_later _).trans ih
    · exact noQuote
    all_goals simp [noEscape]
  | @short letter c units text short _ ih =>
    rw [List.cons_append, List.cons_append, Reader.run, skipString]
    · rw [if_pos (by simp [short])]
      obtain ⟨shorter, skipped⟩ := eq_of_run ih
      rw [skipped]
      rfl
    · exact shortEscape?_ne short
  | @hex a b c d unit units text number _ ih =>
    obtain ⟨shorter, skipped⟩ := eq_of_run ih
    simp only [List.cons_append]
    rw [Reader.run, skipString]
    simp only [readHex, number, skipped]
    rfl

end

/-! ### What is read is a string -/

theorem hexNumber?_of_readHex {text : List Char} {found : Found Nat text}
    (read : readHex text = .ok found) :
    ∃ a b c d, hexNumber? a b c d = some found.value ∧ text = a :: b :: c :: d :: found.rest := by
  rw [readHex.eq_def] at read
  split at read
  next a b c d rest =>
    split at read
    next number =>
      cases read
      exact ⟨a, b, c, d, number, rfl⟩
    next => cases read
  next => cases read

section

variable {text rest letters : List Char} {units : List Nat}

theorem letters_of_readLowSurrogate {high : Nat} {found : Found Char text}
    (read : readLowSurrogate high text = .ok found) (further : Letters units letters)
    (left : found.rest = letters ++ rest) :
    ∃ units' letters', Letters units' letters' ∧ text = letters' ++ rest := by
  rw [readLowSurrogate.eq_def] at read
  split at read
  case h_3 text =>
    cases hex : readHex text with
    | error fault => simp [hex] at read
    | ok unit =>
      obtain ⟨a, b, c, d, number, same⟩ := hexNumber?_of_readHex hex
      simp only [hex] at read
      split at read
      · obtain rfl := Except.ok.inj read
        exact ⟨_, _, .hex number further, by simp [same, ← left]⟩
      · cases read
  all_goals cases read

/-- What an escape and the letters after it leave is also left by letters. -/
theorem letters_of_readEscape {found : Found Char text} (read : readEscape text = .ok found)
    (further : Letters units letters) (left : found.rest = letters ++ rest) :
    ∃ units' letters', Letters units' letters' ∧ '\\' :: text = letters' ++ rest := by
  rw [readEscape.eq_def] at read
  split at read
  · cases read
  next text =>
    cases hex : readHex text with
    | error fault => simp [hex] at read
    | ok unit =>
      obtain ⟨a, b, c, d, number, same⟩ := hexNumber?_of_readHex hex
      simp only [hex] at read
      split at read
      · cases read
      · split at read
        · obtain ⟨low, second, rfl⟩ := map_eq_ok_iff.mp read
          obtain ⟨units', letters', further, rest⟩ :=
            letters_of_readLowSurrogate second further left
          exact ⟨_, _, .hex number further, by simp [same, rest]⟩
        · cases read
          exact ⟨_, _, .hex number further, by simp [same, ← left]⟩
  next c text _ =>
    split at read
    next escaped short =>
      cases read
      exact ⟨_, _, .short short further, by simp [← left]⟩
    next => cases read

end

theorem letters_of_readString {text : List Char} {found : Found (List Char) text}
    (read : readString text = .ok found) :
    ∃ units letters, Letters units letters ∧ text = letters ++ '"' :: found.rest := by
  fun_induction readString text with
  | case2 text =>
    cases read
    exact ⟨[], [], .nil, rfl⟩
  | case5 text c after shorter escaped cs last shorter' more ih =>
    obtain ⟨units, letters, further, left⟩ := ih more
    cases read
    exact letters_of_readEscape escaped further left
  | case8 c text noQuote noEscape visible cs last shorter more ih =>
    obtain ⟨units, letters, further, left⟩ := ih more
    cases read
    exact ⟨_, _, .plain noQuote noEscape (by simpa using visible) further, congrArg (c :: ·) left⟩
  | _ => cases read

theorem letters_of_skipString {text : List Char} {found : Found Unit text}
    (read : skipString text = .ok found) :
    ∃ units letters, Letters units letters ∧ text = letters ++ '"' :: found.rest := by
  fun_induction skipString text with
  | case2 text =>
    cases read
    exact ⟨[], [], .nil, rfl⟩
  | case5 text unit after shorter hex ih =>
    obtain ⟨a, b, c, d, number, same⟩ := hexNumber?_of_readHex hex
    obtain ⟨last, more, rfl⟩ := map_eq_ok_iff.mp read
    obtain ⟨units, letters, further, left⟩ := ih more
    exact ⟨_, _, .hex number further, by simp [same, left]⟩
  | case6 letter text _ short ih =>
    obtain ⟨c, short⟩ := Option.isSome_iff_exists.mp short
    obtain ⟨last, more, rfl⟩ := map_eq_ok_iff.mp read
    obtain ⟨units, letters, further, left⟩ := ih more
    exact ⟨_, _, .short short further, by simp [left]⟩
  | case9 c text noQuote alone _ noEscape visible ih =>
    obtain ⟨last, more, rfl⟩ := map_eq_ok_iff.mp read
    obtain ⟨units, letters, further, left⟩ := ih more
    have plain : c ≠ '\\' := by
      rintro rfl
      cases text with
      | nil => exact alone rfl rfl
      | cons d text => exact noEscape d text rfl rfl
    exact ⟨_, _, .plain noQuote plain (by simpa using visible) further, by simp [left]⟩
  | _ => cases read

end DeployGate.Json
