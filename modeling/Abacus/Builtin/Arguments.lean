import Abacus.Operator

/-!
# Arguments of built-in functions

Each function checks its own arguments: how many there are first, then what they are, from left to
right.
-/

namespace Abacus.Builtin

def one (b : Builtin) : List Value → Except Fault Value
  | [v] => .ok v
  | args => .error (.wrongArity b 1 args.length)

def two (b : Builtin) : List Value → Except Fault (Value × Value)
  | [v, w] => .ok (v, w)
  | args => .error (.wrongArity b 2 args.length)

def number (b : Builtin) (v : Value) : Except Fault Binary64 :=
  match v.number? with
  | some x => .ok x
  | none => .error (.notNumber b v.ty)

def elements (b : Builtin) (args : List Value) : Except Fault (List Value) := do
  match ← b.one args with
  | .array vs => return vs
  | v => .error (.notArray b v.ty)

def numbers (b : Builtin) (args : List Value) : Except Fault (List Binary64) := do
  (← b.elements args).mapM b.number

end Abacus.Builtin
