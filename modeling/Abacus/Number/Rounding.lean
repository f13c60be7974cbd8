/-!
# Rounding to a binary grid

Every finite number of the binary64 format is a whole multiple of `2 ^ -1074`, its *units*. The
encodings of the numbers that are not negative, read as natural numbers, are in the order of the
numbers: below `2 ^ 53` an encoding is its own number of units, and from there on the spacing doubles
at every multiple of `2 ^ 52`. Rounding a quotient of natural numbers takes its nearest grid point,
and of two equally near ones the even one.
-/

namespace Abacus.Number

def roundHalfEven (num den : Nat) : Nat :=
  let q := num / den
  let r := num % den
  if den < 2 * r || (2 * r == den && q % 2 == 1) then q + 1 else q

def binade : Nat := 0x10000000000000

def infinityCode : Nat := 0x7FF0000000000000

def units (code : Nat) : Nat :=
  let exponent := code / binade
  if exponent = 0 then code else (binade + code % binade) <<< (exponent - 1)

def nearest (num den : Nat) : Nat :=
  -- the quotient keeps 53 binary digits; below `2 ^ 53` units all digits are kept
  let dropped := (num / den).log2 - 52
  Nat.min (dropped * binade + roundHalfEven num (den <<< dropped)) infinityCode

def one : Nat := 1 <<< 1074

/-- The greatest number whose square is at most `n`, by Newton's iteration from above. -/
def isqrt (n : Nat) : Nat :=
  if n = 0 then 0 else go n (1 <<< (n.log2 / 2 + 1))
where
  go (n guess : Nat) : Nat :=
    let next := (guess + n / guess) / 2
    if next < guess then go n next else guess
  termination_by guess

end Abacus.Number
