import RoutineLoader.Text.Ascii

/-!
# The ranges of numbers

Documents may hold numbers of any size. An integer is kept in a signed word of 64 bits. A reader
that keeps other numbers as double floats refuses those that round to infinity; `Decimal.isFinite`
is that test, in whole numbers and without building a power of ten that is much longer than the
number's own text.

A reader that works in one unsigned word keeps a decimal as `significand · 10 ^ exponent` and takes
digits up as long as the significand fits the word. From the first digit that does not fit, the
digits before the point only count for the exponent (`takeWhole`), those behind it for nothing
(`takeFraction`). To get a double float it rounds the significand and the power of ten, each on its
own, and then their product, so near the largest float `Scaled.isFinite` may differ from
`Decimal.isFinite` of the same digits. No digit is lost as long as they all fit
(`significand_of_push?`).
-/

namespace RoutineLoader.Decimal

/-- The least magnitude that a signed word of 64 bits does not hold: two to the power of 63. -/
def wordBound : Nat :=
  0x8000000000000000

/-- The least integer that rounds to infinity among the double floats. -/
def overflowBound : Nat :=
  Nat.pow 2 1024 - Nat.pow 2 970

/-- Whether `digits · 10 ^ exponent` rounds to a finite double float. -/
def isFinite (digits : Nat) (exponent : Int) : Bool :=
  let length : Int := (toString digits).length + exponent
  if digits = 0 ∨ length ≤ 308 then true
  else if 310 < length then false
  else if exponent < 0 then digits < overflowBound * Nat.pow 10 exponent.natAbs
  else digits * Nat.pow 10 exponent.natAbs < overflowBound

/-! ## Significands of one word -/

/-- The least magnitude that an unsigned word of 64 bits does not hold: two to the power of 64. -/
def unsignedBound : Nat :=
  0x10000000000000000

/-- The natural number with at most 53 binary digits before its zeros that is nearest to `n`; of
two that are, the one with an even last digit. -/
def roundToDouble (n : Nat) : Nat :=
  let unit := Nat.pow 2 (n.log2 - 52)
  let quotient := n / unit
  let rest := n % unit
  if unit < 2 * rest ∨ (unit = 2 * rest ∧ quotient % 2 = 1) then (quotient + 1) * unit
  else quotient * unit

/-- The number `significand · 10 ^ exponent`. -/
structure Scaled where
  significand : Nat
  exponent : Int
  deriving DecidableEq, Inhabited

namespace Scaled

/-- The number with one more digit at the end of its significand, if that fits the word. -/
def push? (n : Scaled) (digit : Char) : Option Scaled :=
  let significand := n.significand * 10 + (Text.digitValue? digit).getD 0
  if significand < unsignedBound then some { n with significand } else none

/-- Takes up digits before the point. -/
def takeWhole (n : Scaled) : List Char → Scaled
  | [] => n
  | digit :: digits =>
    match n.push? digit with
    | some n => n.takeWhole digits
    | none => { n with exponent := n.exponent + (digits.length + 1) }

/-- Takes up digits behind the point. -/
def takeFraction (n : Scaled) : List Char → Scaled
  | [] => n
  | digit :: digits =>
    match n.push? digit with
    | some m => { m with exponent := m.exponent - 1 }.takeFraction digits
    | none => n

/-- The decimal with these digits before and behind the point. -/
def ofDigits (whole fraction : List Char) (exponent : Int) : Scaled :=
  (Scaled.mk 0 exponent |>.takeWhole whole).takeFraction fraction

/-- Whether the rounded significand times the rounded power of ten rounds to a finite double float.
The power must be finite itself. -/
def isFinite (n : Scaled) : Bool :=
  if n.significand = 0 ∨ n.exponent < 0 then true
  else if 308 < n.exponent then false
  else
    roundToDouble n.significand * roundToDouble (Nat.pow 10 n.exponent.natAbs) < overflowBound

end Scaled

end RoutineLoader.Decimal
