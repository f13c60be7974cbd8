import Abacus.Number.Binary64

/-!
# Shortest decimals

The decimal written for a number is the roundest one that reads back as the number: among the
decimals that round to it, those that are multiples of the greatest power of ten, and of these the
one nearest to the number. A decimal half-way between two such multiples goes to the one farther from
zero. Decimals are written in positional notation whatever their size.
-/

namespace Abacus.Number

/-- The open interval of the reals that round to an encoding, and the number itself, in quarters of a
unit. Its ends belong to it when `closed` holds. -/
structure Cell where
  low : Nat
  value : Nat
  high : Nat
  closed : Bool

def Cell.ofCode (code : Nat) : Cell :=
  let exponent := code / binade
  let gap := 1 <<< (exponent - 1)
  let value := 4 * units code
  -- the spacing above a power of two is twice the spacing below it
  { low := value - if code % binade = 0 && 1 < exponent then gap else 2 * gap
    value := value
    high := value + 2 * gap
    closed := code % 2 == 0 }

def Cell.contains (c : Cell) (x : Nat) : Bool :=
  if c.closed then c.low ≤ x && x ≤ c.high else c.low < x && x < c.high

def Cell.scale (c : Cell) (n : Nat) : Cell :=
  { c with low := c.low * n, value := c.value * n, high := c.high * n }

structure Decimal where
  digits : Nat
  exponent : Int
  deriving DecidableEq, Repr

def Cell.multiple? (c : Cell) (exponent : Int) : Option Decimal :=
  let grid := 4 * one * Nat.pow 10 exponent.toNat
  let c := c.scale (Nat.pow 10 (- exponent).toNat)
  let down := c.value / grid
  let rest := c.value % grid
  let hasDown := c.contains (down * grid)
  let hasUp := c.contains ((down + 1) * grid)
  if hasUp && (!hasDown || grid ≤ 2 * rest) then some ⟨down + 1, exponent⟩
  else if hasDown then some ⟨down, exponent⟩
  else none

def exponentAbove (code : Nat) : Int :=
  -- 30103 / 100000 is a little more than the logarithm of two to the base ten
  (((units code).log2 : Int) - 1074) * 30103 / 100000 + 2

def Decimal.shortest (code : Nat) : Decimal :=
  let cell := Cell.ofCode code
  let top := exponentAbove code
  ((List.range 21).findSome? fun i : Nat => cell.multiple? (top - i)).getD ⟨0, 0⟩

def Decimal.render (d : Decimal) : String :=
  let digits := Nat.toDigits 10 d.digits
  if 0 ≤ d.exponent then String.ofList (digits ++ List.replicate d.exponent.toNat '0')
  else
    let places := d.exponent.natAbs
    let padded := List.replicate (places + 1 - digits.length) '0' ++ digits
    String.ofList (padded.take (padded.length - places) ++ '.' :: padded.drop (padded.length - places))

end Abacus.Number

namespace Abacus.Binary64

open Number

def signText (x : Binary64) : String := if x.negative then "-" else ""

def plainText (x : Binary64) : String :=
  if x.isNaN then "NaN"
  else if x.isInfinite then x.signText ++ "inf"
  else if x.isZero then x.signText ++ "0"
  else x.signText ++ (Decimal.shortest x.code).render

/-- Whole numbers below `10 ^ 16` are written with one place, so that they look unlike integers; other
numbers have their shortest decimal. -/
def text (x : Binary64) : String :=
  if x.isNaN then "nan"
  else if x.isIntegral && Number.units x.code / one < 10000000000000000 then
    s!"{x.signText}{Number.units x.code / one}.0"
  else x.plainText

end Abacus.Binary64
