import Abacus.Number.Binary64

/-!
# Arithmetic of binary64 numbers

Each operation computes the exact result in integers and rounds it once. An operand that is no number
is the result, the left one first; an operation without a result yields `Binary64.invalid`.
-/

namespace Abacus.Binary64

open Number

def add (x y : Binary64) : Binary64 :=
  if x.isNaN then x
  else if y.isNaN then y
  else if x.isInfinite then
    if y.isInfinite && x.negative != y.negative then invalid else x
  else if y.isInfinite then y
  else
    let total := x.units + y.units
    if total = 0 then zero (x.negative && y.negative)
    else ofCode (total < 0) (nearest total.natAbs 1)

def sub (x y : Binary64) : Binary64 := if y.isNaN && !x.isNaN then y else x.add y.neg

def mul (x y : Binary64) : Binary64 :=
  if x.isNaN then x
  else if y.isNaN then y
  else
    let negative := x.negative != y.negative
    if x.isInfinite || y.isInfinite then
      if x.isZero || y.isZero then invalid else infinity negative
    else ofCode negative (nearest (Number.units x.code * Number.units y.code) one)

def div (x y : Binary64) : Binary64 :=
  if x.isNaN then x
  else if y.isNaN then y
  else
    let negative := x.negative != y.negative
    if x.isInfinite then if y.isInfinite then invalid else infinity negative
    else if y.isInfinite then zero negative
    else if y.isZero then if x.isZero then invalid else infinity negative
    else ofCode negative (nearest (Number.units x.code * one) (Number.units y.code))

def rem (x y : Binary64) : Binary64 :=
  if x.isNaN then x
  else if y.isNaN then y
  else if x.isInfinite || y.isZero then invalid
  else if y.isInfinite then x
  else ofCode x.negative (nearest (Number.units x.code % Number.units y.code) 1)

def sqrt (x : Binary64) : Binary64 :=
  if x.isNaN || x.isZero then x
  else if x.negative then invalid
  else if x.isInfinite then x
  else
    let square := Number.units x.code * one
    let root := isqrt square
    ofCode false (nearest (2 * root + if root * root = square then 0 else 1) 2)

/-- Powers with a real exponent. Anything to the power of zero is one, and so is any power of one. -/
def pow (x y : Binary64) : Binary64 :=
  if y.isZero || x == ofNat 1 then ofNat 1
  else if x.isNaN then x
  else if y.isNaN then y
  else
    let power := Float.pow (Float.ofBits x.bits) (Float.ofBits y.bits)
    if power.isNaN then invalid else ⟨power.toBits⟩

end Abacus.Binary64
