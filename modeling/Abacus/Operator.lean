import Abacus.Fault
import Abacus.Number.Arithmetic
import Abacus.Number.Integer

/-!
# Operators

Operators work on evaluated operands. Arithmetic of two integers is exact and fails when the result is
out of range; division and mixed operands go through the binary64 numbers of the operands. The
vectorized operators work element by element: two arrays are paired by index, and a scalar is combined
with every element.
-/

namespace Abacus

open Number

namespace BinaryOp

def unsupported (op : BinaryOp) (left right : Value) : Fault := .unsupported op left.ty right.ty

def integer (op : BinaryOp) (n : Int) : Except Fault Value :=
  match integer? n with
  | some i => .ok (.int i)
  | none => .error (.overflow op)

def floating (op : BinaryOp) (f : Binary64 → Binary64 → Except Fault Value) (left right : Value) :
    Except Fault Value :=
  match left.number?, right.number? with
  | some x, some y => f x y
  | _, _ => .error (op.unsupported left right)

def maxRepeat : Nat := 0x10000000

def copies (s : String) (n : Nat) : String :=
  if n = 0 then ""
  else
    let half := copies s (n / 2)
    if n % 2 = 0 then half ++ half else half ++ half ++ s
termination_by n

def repeated (s : String) (count : Int64) : Except Fault Value :=
  -- a negative count makes the empty text
  let n := count.toInt.toNat
  if s.utf8ByteSize * n ≤ maxRepeat then .ok (.text (if s.isEmpty then "" else copies s n))
  else .error .repeatTooLong

def plus (left right : Value) : Except Fault Value :=
  match left, right with
  | .int a, .int b => add.integer (a.toInt + b.toInt)
  | .text s, .text t => .ok (.text (s ++ t))
  | l, r => add.floating (fun x y => .ok (.float (x.add y))) l r

def minus (left right : Value) : Except Fault Value :=
  match left, right with
  | .int a, .int b => sub.integer (a.toInt - b.toInt)
  | l, r => sub.floating (fun x y => .ok (.float (x.sub y))) l r

def times (left right : Value) : Except Fault Value :=
  match left, right with
  | .int a, .int b => mul.integer (a.toInt * b.toInt)
  | .text s, .int n => repeated s n
  | .int n, .text s => repeated s n
  | l, r => mul.floating (fun x y => .ok (.float (x.mul y))) l r

def divide (left right : Value) : Except Fault Value :=
  div.floating (fun x y => if y.isZero then .error .divisionByZero else .ok (.float (x.div y)))
    left right

def floored (x y : Binary64) : Binary64 :=
  let r := x.rem y
  if !r.isZero && r.lt (.zero false) != y.lt (.zero false) then r.add y else r

def modulo (left right : Value) : Except Fault Value :=
  match left, right with
  | .int a, .int b =>
    if b = 0 then .error .moduloByZero
    else
      -- the quotient has to be in range, too, which leaves out the least integer over -1
      match integer? (a.toInt.tdiv b.toInt) with
      | none => .error (.overflow mod)
      | some _ => mod.integer (a.toInt.fmod b.toInt)
  | l, r =>
    mod.floating (fun x y => if y.isZero then .error .moduloByZero else .ok (.float (floored x y))) l r

/-- A power of two integers. A base beyond -1, 0 and 1 leaves the range before its 64th power. -/
def power (base exponent : Int) : Except Fault Value :=
  if base = 1 then .ok (.int 1)
  else if base = 0 then .ok (.int (if exponent = 0 then 1 else 0))
  else if base = -1 then .ok (.int (if exponent % 2 = 0 then 1 else -1))
  else if exponent < 64 then pow.integer (Int.pow base exponent.toNat)
  else .error (.overflow pow)

def raise (left right : Value) : Except Fault Value :=
  let real := pow.floating fun x y => .ok (.float (x.pow y))
  match left, right with
  | .int a, .int b => if 0 ≤ b.toInt then power a.toInt b.toInt else real left right
  | l, r => real l r

def order (op : BinaryOp) (left right : Value) : Except Fault (Option Ordering) :=
  match left, right with
  | .int a, .int b => .ok (some (compare a.toInt b.toInt))
  | .text s, .text t => .ok (some (compare s t))
  | l, r =>
    match l.number?, r.number? with
    | some x, some y => .ok (x.compare? y)
    | _, _ => .error (op.unsupported l r)

/-- Whether an operator accepts an order. Nothing is accepted without one. -/
def accepts (op : BinaryOp) (order : Option Ordering) : Bool :=
  match op, order with
  | lt, some .lt => true
  | gt, some .gt => true
  | le, some .lt | le, some .eq => true
  | ge, some .gt | ge, some .eq => true
  | _, _ => false

def logical (op : BinaryOp) (f : Bool → Bool → Bool) (left right : Value) : Except Fault Value :=
  match left, right with
  | .bool a, .bool b => .ok (.bool (f a b))
  | l, r => .error (op.unsupported l r)

def scalar (op : BinaryOp) (left right : Value) : Except Fault Value :=
  match op with
  | add => plus left right
  | sub => minus left right
  | mul => times left right
  | div => divide left right
  | mod => modulo left right
  | pow => raise left right
  | eq => .ok (.bool (left.same right))
  | ne => .ok (.bool (!left.same right))
  | lt | gt | le | ge => (op.order left right).map fun o => .bool (op.accepts o)
  | and => logical and (· && ·) left right
  | or => logical or (· || ·) left right

mutual

def spread (op : BinaryOp) (left : Value) : Value → Except Fault Value
  | .array rs => (spreadAll op left rs).map .array
  | right => op.scalar left right

def spreadAll (op : BinaryOp) (left : Value) : List Value → Except Fault (List Value)
  | [] => .ok []
  | r :: rs => do
    let v ← spread op left r
    let vs ← spreadAll op left rs
    return v :: vs

end

mutual

def elementwise (op : BinaryOp) : Value → Value → Except Fault Value
  | .array ls, .array rs =>
    if ls.length = rs.length then (pairwise op ls rs).map .array
    else .error (.lengthMismatch op ls.length rs.length)
  | .array ls, right => (onEach op ls right).map .array
  | left, right => spread op left right

def pairwise (op : BinaryOp) : List Value → List Value → Except Fault (List Value)
  | l :: ls, r :: rs => do
    let v ← elementwise op l r
    let vs ← pairwise op ls rs
    return v :: vs
  | _, _ => .ok []

def onEach (op : BinaryOp) : List Value → Value → Except Fault (List Value)
  | [], _ => .ok []
  | l :: ls, right => do
    let v ← elementwise op l right
    let vs ← onEach op ls right
    return v :: vs

end

def apply (op : BinaryOp) (left right : Value) : Except Fault Value :=
  if op.isVectorized then op.elementwise left right
  else if left.isArray || right.isArray then .error (op.unsupported left right)
  else op.scalar left right

end BinaryOp

def UnaryOp.apply (op : UnaryOp) (operand : Value) : Except Fault Value :=
  match op, operand with
  | neg, .int n =>
    match integer? (- n.toInt) with
    | some i => .ok (.int i)
    | none => .error .negationOverflow
  | neg, .float x => .ok (.float x.neg)
  | neg, v => .error (.notNegatable v.ty)
  | not, v => .ok (.bool (!v.isTruthy))

/-- The most elements of an array: it takes less than 2 ^ 63 bytes, and each element takes 40. -/
def Value.maxElements : Nat := 0x7FFFFFFFFFFFFFFF / 40

def Value.interval (first last : Int64) : Option Value :=
  let n := (last.toInt - first.toInt).toNat
  if n ≤ maxElements then
    some (.array ((List.range n).map fun i : Nat => .int (Int64.ofInt (first.toInt + i))))
  else .none

end Abacus
