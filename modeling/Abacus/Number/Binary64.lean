import Abacus.Number.Rounding

/-!
# Binary64 numbers

A number is its 64 bits: a sign and an encoding below `2 ^ 63`. The encodings above infinity's are
no numbers (NaN); their sign is kept, because the total order tells it. Comparison by value and the
total order are both orders of integers, read off the bits.
-/

namespace Abacus

structure Binary64 where
  bits : UInt64
  deriving DecidableEq, Repr, Inhabited

namespace Binary64

open Number

def signBit : UInt64 := 0x8000000000000000

def negative (x : Binary64) : Bool := signBit ≤ x.bits

def code (x : Binary64) : Nat := (x.bits % signBit).toNat

def ofCode (negative : Bool) (code : Nat) : Binary64 :=
  ⟨if negative then UInt64.ofNat code + signBit else UInt64.ofNat code⟩

def isNaN (x : Binary64) : Bool := infinityCode < x.code

def isInfinite (x : Binary64) : Bool := x.code == infinityCode

def isFinite (x : Binary64) : Bool := x.code < infinityCode

def isZero (x : Binary64) : Bool := x.code == 0

def invalid : Binary64 := ⟨0xFFF8000000000000⟩

def infinity (negative : Bool) : Binary64 := ofCode negative infinityCode

def zero (negative : Bool) : Binary64 := ofCode negative 0

def units (x : Binary64) : Int :=
  if x.negative then - (Number.units x.code : Int) else Number.units x.code

/-- Orders the numbers by value; both zeros have the key 0. -/
def key (x : Binary64) : Int :=
  if x.negative then - (x.code : Int) else x.code

/-- Orders all encodings: the zeros by sign, and NaN beyond the infinities on the side of its sign. -/
def totalKey (x : Binary64) : Int :=
  if x.negative then - (x.code : Int) - 1 else x.code

def lt (x y : Binary64) : Bool := !x.isNaN && !y.isNaN && x.key < y.key

def eq (x y : Binary64) : Bool := !x.isNaN && !y.isNaN && x.key == y.key

def compare? (x y : Binary64) : Option Ordering :=
  if x.isNaN || y.isNaN then none else some (compare x.key y.key)

def neg (x : Binary64) : Binary64 := ⟨x.bits + signBit⟩

def abs (x : Binary64) : Binary64 := ⟨x.bits % signBit⟩

def ofInt (n : Int) : Binary64 := ofCode (n < 0) (nearest (n.natAbs * one) 1)

def ofNat (n : Nat) : Binary64 := ofCode false (nearest (n * one) 1)

def ofDecimal (digits places : Nat) : Binary64 := ofCode false (nearest (digits * one) (Nat.pow 10 places))

def isIntegral (x : Binary64) : Bool := x.isFinite && Number.units x.code % one == 0

def floor (x : Binary64) : Int := x.units.fdiv one

def ceil (x : Binary64) : Int := - (- x.units).fdiv one

/-- The integer nearest to a finite number; a half goes to the even neighbour. -/
def round (x : Binary64) : Int :=
  let n := roundHalfEven (Number.units x.code) one
  if x.negative then - (n : Int) else n

end Binary64

end Abacus
