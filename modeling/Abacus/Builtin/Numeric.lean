import Abacus.Builtin.Arguments

/-!
# Numeric functions

Roots, powers, absolute values and rounding to integers.
-/

namespace Abacus.Builtin

open Number

def callSqrt (args : List Value) : Except Fault Value := do
  let x ← sqrt.number (← sqrt.one args)
  if x.lt (.zero false) then .error .rootOfNegative else return .float x.sqrt

def callPow (args : List Value) : Except Fault Value := do
  let (base, exponent) ← pow.two args
  BinaryOp.pow.apply base exponent

def callAbs (args : List Value) : Except Fault Value := do
  match ← abs.one args with
  | .int n =>
    match integer? n.toInt.natAbs with
    | some i => return .int i
    | none => .error .absOverflow
  | .float x => return .float x.abs
  | v => .error (.notNumber abs v.ty)

def rounded (b : Builtin) (toInteger : Binary64 → Int) (args : List Value) : Except Fault Value := do
  match ← b.one args with
  | .int n => return .int n
  | v =>
    let x ← b.number v
    match if x.isFinite then integer? (toInteger x) else none with
    | some i => return .int i
    | none => .error (.notInteger b x)

end Abacus.Builtin
