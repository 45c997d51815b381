/-!
# The shortest decimal of a binary64 number

A positive finite binary64 number is `m · 2^q`. The reals that round to it form an interval, whose
ends belong to it iff `m` is even. Going through the powers of ten from coarse to fine, the first
one with a multiple in that interval gives the shortest decimal: of the two multiples next to the
number the nearer is taken, and the even one when both are equally near.
-/

namespace DeployGate.Decimal

/-- The size of a finite binary64 number: `significand · 2^exponent`. -/
structure Binary where
  significand : Nat
  exponent : Int
  -- The next smaller number is only half as far away as the next larger one.
  narrowBelow : Bool
  deriving DecidableEq, Repr

/-- The number of fractions that a significand can have. -/
def fractions : Nat := 0x10000000000000

/-- The size that the 63 bits after the sign stand for, infinities and NaN apart. -/
def Binary.ofBits (bits : UInt64) : Binary :=
  let fraction : Nat := bits.toNat % fractions
  let biased : Nat := bits.toNat / fractions % 0x800
  if biased = 0 then ⟨fraction, -1074, false⟩
  else ⟨fraction + fractions, (biased : Int) - 1075, fraction = 0 && biased ≠ 1⟩

/-- The number `digits · 10^exponent`. -/
structure Scientific where
  digits : Nat
  exponent : Int
  deriving DecidableEq, Repr

/-- The multiple of `10^k` that stands for the number, when one next to it rounds to it. All sizes
are compared as multiples of a quarter of the number's last binary place. -/
def Binary.onGrid (b : Binary) (k : Int) : Option Scientific :=
  let binary := b.exponent - 2
  let quarter := Nat.pow 2 binary.toNat * Nat.pow 10 (-k).toNat
  let step := Nat.pow 2 (-binary).toNat * Nat.pow 10 k.toNat
  let size := 4 * b.significand * quarter
  let low := (4 * b.significand - if b.narrowBelow then 1 else 2) * quarter
  let high := (4 * b.significand + 2) * quarter
  let closed := b.significand % 2 == 0
  let rounds (n : Nat) : Bool :=
    if closed then low ≤ n * step && n * step ≤ high else low < n * step && n * step < high
  let below := size / step
  let toBelow := size - below * step
  let toAbove := (below + 1) * step - size
  match rounds below, rounds (below + 1) with
  | false, false => none
  | true, false => some ⟨below, k⟩
  | false, true => some ⟨below + 1, k⟩
  | true, true =>
    if toBelow < toAbove || (toBelow == toAbove && below % 2 == 0) then some ⟨below, k⟩
    else some ⟨below + 1, k⟩

/-- The first hit on `count` grids from `10^k` downwards. -/
def Binary.firstOnGrid (b : Binary) : Nat → Int → Option Scientific
  | 0, _ => none
  | count + 1, k => (b.onGrid k).or (b.firstOnGrid count (k - 1))

/-- The shortest decimal that rounds to the number. No binary64 number reaches `10^309`, and the
grid of `10^(-324)` has a point in every interval. -/
def Binary.shortest (b : Binary) : Scientific :=
  if b.significand = 0 then ⟨0, 0⟩ else (b.firstOnGrid 634 309).getD ⟨0, 0⟩

/-- How a decimal is laid out. The positions count from the first digit: `1.5` has position `0`. -/
structure Layout where
  -- The least and greatest positions written without an exponent.
  positionalFrom : Int
  positionalTo : Int
  -- Written after an integer in positional notation.
  integerTail : List Char
  -- Written before a non-negative exponent.
  exponentSign : List Char

def Layout.render (layout : Layout) (number : Scientific) : List Char :=
  let digits := Nat.toDigits 10 number.digits
  let position := number.exponent + digits.length - 1
  if layout.positionalFrom ≤ position ∧ position ≤ layout.positionalTo then
    if 0 ≤ number.exponent then
      digits ++ List.replicate number.exponent.toNat '0' ++ layout.integerTail
    else if 0 ≤ position then
      digits.take (position.toNat + 1) ++ '.' :: digits.drop (position.toNat + 1)
    else
      '0' :: '.' :: List.replicate (-position - 1).toNat '0' ++ digits
  else
    let mantissa := digits.take 1 ++ (if digits.length = 1 then [] else '.' :: digits.drop 1)
    let sign := if position < 0 then ['-'] else layout.exponentSign
    mantissa ++ 'e' :: sign ++ Nat.toDigits 10 position.natAbs

end DeployGate.Decimal
