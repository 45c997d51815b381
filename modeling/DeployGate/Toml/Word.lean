import DeployGate.Toml.Item

/-!
# Words

Numbers, dates, times and truth values are words: a value of one of these kinds never stands next to
another letter, digit or sign, so the longest run of such characters is the value.
-/

namespace DeployGate.Toml

def isWordChar (c : Char) : Bool :=
  c.isAlphanum || c = '+' || c = '-' || c = '_' || c = '.' || c = ':'

def isHexDigit (c : Char) : Bool :=
  c.isDigit || ('a' ≤ c && c ≤ 'f') || ('A' ≤ c && c ≤ 'F')

def hexValue (c : Char) : Nat :=
  if c.isDigit then c.toNat - 48 else if 'a' ≤ c then c.toNat - 87 else c.toNat - 55

/-- Digits to which single underscores between them are no harm. -/
def joinDigits (isDigit : Char → Bool) : List Char → Option (List Char)
  | [] => none
  | [c] => if isDigit c then some [c] else none
  | c :: '_' :: rest => if isDigit c then (joinDigits isDigit rest).map (c :: ·) else none
  | c :: d :: rest => if isDigit c then (joinDigits isDigit (d :: rest)).map (c :: ·) else none

def digitsValue (base : Nat) (digits : List Char) : Nat :=
  digits.foldl (fun value digit => base * value + hexValue digit) 0

def splitSign : List Char → Bool × List Char
  | '+' :: rest => (false, rest)
  | '-' :: rest => (true, rest)
  | rest => (false, rest)

/-- Decimal digits with underscores of which the first is not `0` unless it is the only one. -/
def decimalDigits? (word : List Char) : Option (List Char) :=
  if word.length ≠ 1 ∧ word.head? = some '0' then none else joinDigits Char.isDigit word

def prefixed? (isDigit : Char → Bool) (base : Nat) (word : List Char) : Option Int := do
  let value := digitsValue base (← joinDigits isDigit word)
  if value < 0x8000000000000000 then some value else none

def integer? (word : List Char) : Option Int :=
  match word with
  | '0' :: 'x' :: rest => prefixed? isHexDigit 16 rest
  | '0' :: 'o' :: rest => prefixed? (fun c => '0' ≤ c && c ≤ '7') 8 rest
  | '0' :: 'b' :: rest => prefixed? (fun c => c = '0' || c = '1') 2 rest
  | _ => do
    let (negative, digits) := splitSign word
    let size : Int := digitsValue 10 (← decimalDigits? digits)
    let value := if negative then -size else size
    if -0x8000000000000000 ≤ value ∧ value < 0x8000000000000000 then some value else none

/-- From here on a decimal rounds to infinity. -/
def infinityFrom : Nat := Nat.pow 2 1024 - Nat.pow 2 970

/-- The decimal `digits · 10^exponent` rounds to infinity. -/
def isInfinite (digits : List Char) (exponent : Int) : Bool :=
  let digits := digits.dropWhile (· = '0')
  let position := digits.length + exponent
  let size := digitsValue 10 digits
  if digits.isEmpty || position < 309 then false
  else if 309 < position then true
  else infinityFrom * Nat.pow 10 (-exponent).toNat ≤ size * Nat.pow 10 exponent.toNat

/-- A float. One that is too large is refused, unless it is negative. -/
def isFloat (word : List Char) : Bool :=
  let (negative, unsigned) := splitSign word
  if unsigned = ['i', 'n', 'f'] || unsigned = ['n', 'a', 'n'] then true
  else
    let isMark := fun c => c = 'e' || c = 'E'
    let mantissa := unsigned.takeWhile (!isMark ·)
    let marked := unsigned.dropWhile (!isMark ·)
    let whole := mantissa.takeWhile (· ≠ '.')
    let pointed := mantissa.dropWhile (· ≠ '.')
    let (down, power) := splitSign (marked.drop 1)
    let part (present : List Char) (digits : List Char) : Option (List Char) :=
      if present.isEmpty then some [] else joinDigits Char.isDigit digits
    match decimalDigits? whole, part pointed (pointed.drop 1), part marked power with
    | some whole, some fraction, some power =>
      let size : Int := digitsValue 10 power
      let exponent := (if down then -size else size) - fraction.length
      !(pointed.isEmpty && marked.isEmpty)
        && (negative || !isInfinite (whole ++ fraction) exponent)
    | _, _, _ => false

/-- A number of two digits within bounds, and the rest. -/
def twoDigits? (low high : Nat) : List Char → Option (List Char)
  | a :: b :: rest =>
    let value := digitsValue 10 [a, b]
    if a.isDigit && b.isDigit && low ≤ value && value ≤ high then some rest else none
  | _ => none

def daysIn (year month : Nat) : Nat :=
  if month = 2 then
    if year % 4 = 0 ∧ (year % 100 ≠ 0 ∨ year % 400 = 0) then 29 else 28
  else if month = 4 ∨ month = 6 ∨ month = 9 ∨ month = 11 then 30
  else 31

def afterDate? : List Char → Option (List Char)
  | a :: b :: c :: d :: '-' :: m :: n :: '-' :: rest =>
    let year := digitsValue 10 [a, b, c, d]
    let month := digitsValue 10 [m, n]
    if [a, b, c, d, m, n].all Char.isDigit && 1 ≤ month && month ≤ 12 then
      twoDigits? 1 (daysIn year month) rest
    else none
  | _ => none

def afterMinute? (text : List Char) : Option (List Char) :=
  match twoDigits? 0 23 text with
  | some (':' :: rest) => twoDigits? 0 59 rest
  | _ => none

def afterTime? (text : List Char) : Option (List Char) :=
  match afterMinute? text with
  | some (':' :: rest) =>
    match twoDigits? 0 60 rest with
    | some ('.' :: fraction) =>
      if (fraction.takeWhile Char.isDigit).isEmpty then none
      else some (fraction.dropWhile Char.isDigit)
    | result => result
  | _ => none

/-- A time with an optional offset, and nothing after it. -/
def isOffsetTime (text : List Char) : Bool :=
  match afterTime? text with
  | some [] | some ['Z'] | some ['z'] => true
  | some ('+' :: offset) | some ('-' :: offset) => afterMinute? offset == some []
  | _ => false

/-- A date, a time, or both with a letter between them. -/
def isDatetime (word : List Char) : Bool :=
  afterTime? word == some [] ||
    match afterDate? word with
    | some [] => true
    | some ('T' :: time) | some ('t' :: time) => isOffsetTime time
    | _ => false

def isDate (word : List Char) : Bool := afterDate? word == some []

def scalar? (word : List Char) : Option Scalar :=
  if word = ['t', 'r', 'u', 'e'] then some (.boolean true)
  else if word = ['f', 'a', 'l', 's', 'e'] then some (.boolean false)
  else if isDatetime word then some (.datetime (String.ofList word))
  else
    match integer? word with
    | some value => some (.integer value)
    | none => if isFloat word then some (.float (String.ofList word)) else none

end DeployGate.Toml
