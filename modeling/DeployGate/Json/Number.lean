import DeployGate.Decimal.Shortest
import DeployGate.Json.Reader

/-!
# Numbers

A number without fraction and exponent is kept exactly when a 64-bit word holds it. Every other
number, and `-0`, becomes a binary64 number: its digits are gathered into a word as long as they
fit, and the word is scaled by a power of ten.
-/

namespace DeployGate.Json

inductive Number
  | integer (value : Int)
      (lower : -0x8000000000000000 ≤ value) (upper : value < 0x10000000000000000)
  -- A finite binary64 number, by its bits.
  | float (bits : UInt64)
  deriving DecidableEq, Repr

namespace Number

def ofFloat (value : Float) : Number := float value.toBits

/-- Floats are positional from `0.00001` to below `1e+16`, an integral one with one decimal. -/
def layout : Decimal.Layout := ⟨-5, 15, ['.', '0'], ['+']⟩

def render : Number → List Char
  | integer value _ _ => (toString value).toList
  | float bits =>
    (if bits.toNat < 0x8000000000000000 then [] else ['-'])
      ++ layout.render (Decimal.Binary.ofBits bits).shortest

def toUnexpected : Number → Unexpected
  | integer value _ _ => .integer value
  | float bits => .float (String.ofList (float bits).render)

/-- A signed word: an integer, or a float for `-0` and below the least 64-bit integer. -/
def ofWord (negative : Bool) (word : UInt64) : Number :=
  if negative then
    if h : word.toNat = 0 ∨ 0x8000000000000000 < word.toNat then ofFloat (-word.toFloat)
    else integer (-word.toNat) (by omega) (by omega)
  else integer word.toNat (by omega) (by have := word.toNat_lt; omega)

/-- A float divided by a power of ten, in steps that a binary64 number can hold. -/
def scaleDown (value : Float) (places : Nat) : Float :=
  if places ≤ 308 then value / Float.ofScientific 1 false places
  else if value == 0 then value
  else scaleDown (value / Float.ofScientific 1 false 308) (places - 308)
termination_by places

def scale (word : UInt64) : Int → Option Float
  | .negSucc places => some (scaleDown word.toFloat (places + 1))
  | .ofNat places =>
    if places ≤ 308 then
      let scaled := word.toFloat * Float.ofScientific 1 false places
      if scaled.isInf then none else some scaled
    else if word = 0 then some 0 else none

def ofScaled (negative : Bool) (word : UInt64) (exponent : Int) : Option Number :=
  (scale word exponent).map fun size => ofFloat (if negative then -size else size)

end Number

def digitValue (c : Char) : Nat := c.toNat - 48

def takeDigits (text : List Char) : List Char := text.takeWhile Char.isDigit

def dropDigits (text : List Char) : List Char := text.dropWhile Char.isDigit

theorem length_dropDigits_le (text : List Char) : (dropDigits text).length ≤ text.length :=
  (List.dropWhile_suffix Char.isDigit).sublist.length_le

/-- A word takes in digits until one no longer fits; the digits left out are given back. -/
def absorb (word : UInt64) : List Char → UInt64 × List Char
  | [] => (word, [])
  | digit :: digits =>
    let next := 10 * word.toNat + digitValue digit
    if next < UInt64.size then absorb (UInt64.ofNat next) digits else (word, digit :: digits)

/-- What follows the digit with which the digits at the start of a text exceed a limit. -/
def afterExceeding (limit value : Nat) : List Char → Option (List Char)
  | [] => none
  | c :: rest =>
    if c.isDigit then
      let next := 10 * value + digitValue c
      if limit < next then some rest else afterExceeding limit next rest
    else none

def digitsValue (digits : List Char) : Nat :=
  digits.foldl (fun value digit => 10 * value + digitValue digit) 0

/-- Whether an exponent points down, and what follows its optional sign. -/
def exponentSign (text : List Char) : Bool × Remainder text :=
  match text with
  | '+' :: _ => (false, .tail)
  | '-' :: _ => (true, .tail)
  | rest => (false, .all rest)

/-- The digits of an exponent. The exponent of a number other than zero is refused as soon as it
exceeds 31 bits. -/
def readExponent (word : UInt64) (text : List Char) : Except Fault (Int × Remainder text) :=
  let (down, ⟨digits, shorter⟩) := exponentSign text
  match digits.head? with
  | none => .error (.here .endInValue [])
  | some c =>
    if !c.isDigit then .error (.next .malformedNumber digits)
    else
      match if down || word = 0 then none else afterExceeding 0x7fffffff 0 digits with
      | some rest => .error (.here .numberOutOfRange rest)
      | none =>
        let size : Int := digitsValue (takeDigits digits)
        .ok (if down then -size else size,
          ⟨dropDigits digits, Nat.le_trans (length_dropDigits_le digits) shorter⟩)

def startsExponent : List Char → Bool
  | 'e' :: _ => true
  | 'E' :: _ => true
  | _ => false

def readOptionalExponent (word : UInt64) (text : List Char) :
    Except Fault (Int × Remainder text) :=
  if startsExponent text then
    (readExponent word text.tail).map fun shift => (shift.1, shift.2.widen (by simp))
  else .ok (0, .all text)

/-- The float whose digits are read, when only an exponent can follow. -/
def readScaled (negative : Bool) (word : UInt64) (exponent : Int) (text : List Char) :
    Except Fault (Number × Remainder text) :=
  match readOptionalExponent word text with
  | .error fault => .error fault
  | .ok (shift, rest) =>
    match Number.ofScaled negative word (exponent + shift) with
    | some number => .ok (number, rest)
    | none => .error (.here .numberOutOfRange rest.val)

/-- The number whose digits before the point are read. Digits that do not fit the word count as
zeros; those of a fraction are dropped. -/
def readFraction (negative : Bool) (whole text : List Char) :
    Except Fault (Number × Remainder text) :=
  let (word, spare) := absorb 0 whole
  match text with
  | '.' :: rest =>
    let digits := takeDigits rest
    let after := dropDigits rest
    if digits.isEmpty then
      .error (.next (if after.isEmpty then .endInValue else .malformedNumber) after)
    else
      let (word, unread) := absorb word digits
      let exponent : Int := (spare.length : Int) - (digits.length - unread.length : Nat)
      (readScaled negative word exponent after).map fun found =>
        (found.1, found.2.widen (Nat.le_trans (length_dropDigits_le rest) (by simp)))
  | text =>
    if startsExponent text || !spare.isEmpty then readScaled negative word spare.length text
    else .ok (.ofWord negative word, .all text)

/-- A number after its sign. No zero stands before another digit. -/
def readMagnitude (negative : Bool) (text : List Char) : Except Fault (Found Number text) :=
  match text with
  | [] => .error (.here .endInValue [])
  | c :: rest =>
    if !c.isDigit then .error (.next .malformedNumber (c :: rest))
    else if c = '0' && rest.head?.any Char.isDigit then .error (.next .malformedNumber rest)
    else
      (readFraction negative (c :: takeDigits rest) (dropDigits rest)).map fun found =>
        ⟨found.1, found.2.val, by
          have := found.2.property
          have := length_dropDigits_le rest
          simp only [List.length_cons]
          omega⟩

def startsNumber : List Char → Bool
  | '-' :: _ => true
  | c :: _ => c.isDigit
  | [] => false

def readNumber : Reader Number
  | '-' :: rest => (readMagnitude true rest).map Found.later
  | text => readMagnitude false text

def skipFraction (text : List Char) : Except Fault (Remainder text) :=
  match text with
  | '.' :: rest =>
    if (takeDigits rest).isEmpty then .error (.next .malformedNumber (dropDigits rest))
    else .ok ⟨dropDigits rest, Nat.le_trans (length_dropDigits_le rest) (by simp)⟩
  | text => .ok (.all text)

def skipExponent (text : List Char) : Except Fault (Remainder text) :=
  if startsExponent text then
    let (_, ⟨digits, shorter⟩) := exponentSign text.tail
    if (takeDigits digits).isEmpty then .error (.next .malformedNumber digits)
    else
      .ok ⟨dropDigits digits, Nat.le_trans (length_dropDigits_le digits)
        (Nat.le_trans shorter (by simp))⟩
  else .ok (.all text)

/-- Drops a number after its sign, whatever its size. -/
def skipMagnitude (text : List Char) : Except Fault (Found Unit text) :=
  match text with
  | [] => .error (.here .malformedNumber [])
  | c :: rest =>
    if !c.isDigit then .error (.next .malformedNumber (c :: rest))
    else if c = '0' && rest.head?.any Char.isDigit then .error (.next .malformedNumber rest)
    else do
      let ⟨fraction, shorter⟩ ← skipFraction (dropDigits rest)
      let ⟨last, shorter'⟩ ← skipExponent fraction
      .ok ⟨(), last, by
        have := length_dropDigits_le rest
        simp only [List.length_cons]
        omega⟩

def skipNumber : Reader Unit
  | '-' :: rest => (skipMagnitude rest).map Found.later
  | text => skipMagnitude text

end DeployGate.Json
