import Abacus.Builtin.Arguments

/-!
# Statistics

Functions of one array of numbers. Sums of numbers start from the negative zero, which changes no
number it is added to; the sum of an array starts from the integer zero and stays an integer as long
as only integers are added.
-/

namespace Abacus.Builtin

def callSum (args : List Value) : Except Fault Value := do
  (← sum.elements args).foldlM
    (fun total v => do
      let _ ← sum.number v
      BinaryOp.add.apply total v)
    (.int 0)

def total (xs : List Binary64) : Binary64 := xs.foldl Binary64.add (.zero true)

def average (xs : List Binary64) : Binary64 := (total xs).div (.ofNat xs.length)

def callMean (args : List Value) : Except Fault Value := do
  match ← mean.numbers args with
  | [] => .error (.noData mean)
  | xs => return .float (average xs)

def sampleVariance? (xs : List Binary64) : Option Binary64 :=
  if xs.length < 2 then none
  else
    let m := average xs
    some ((total (xs.map fun x => (x.sub m).mul (x.sub m))).div (.ofNat (xs.length - 1)))

def callVariance (args : List Value) : Except Fault Value := do
  return match sampleVariance? (← variance.numbers args) with
    | some v => .float v
    | none => .int 0

def callStdev (args : List Value) : Except Fault Value := do
  return match sampleVariance? (← stdev.numbers args) with
    | some v => .float v.sqrt
    | none => .int 0

/-- The element in the middle of the elements in the total order of their numbers, or the average of
the two in the middle. Elements with the same number keep their order. -/
def callMedian (args : List Value) : Except Fault Value := do
  match ← median.elements args with
  | [] => .error (.noData median)
  | vs =>
    let keyed ← vs.mapM fun v => do return (← median.number v, v)
    let sorted := (keyed.mergeSort fun a b => a.1.totalKey ≤ b.1.totalKey).toArray
    let mid := sorted.size / 2
    if sorted.size % 2 = 1 then return (sorted.getD mid default).2
    else
      let pair := (sorted.getD (mid - 1) default).1.add (sorted.getD mid default).1
      return .float (pair.div (.ofNat 2))

/-- The first candidate that none of those after it beats: each one has to beat the best so far. -/
def best (op : BinaryOp) (first : Value) (rest : List Value) : Except Fault Value :=
  rest.foldlM
    (fun best candidate => do
      return if (← op.apply candidate best).isTruthy then candidate else best)
    first

def extreme (b : Builtin) (op : BinaryOp) (args : List Value) : Except Fault Value :=
  match args with
  | [] => .error (.noArguments b)
  | [.array []] => .error (.emptySequence b)
  | [.array (v :: vs)] => best op v vs
  | [v] => .error (.notSeveral b v.ty)
  | v :: vs => best op v vs

end Abacus.Builtin
