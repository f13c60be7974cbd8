/-!
# Built-in functions

The functions that every program starts with. Three of them have a second, one-letter name.
-/

namespace Abacus

inductive Builtin where
  | sqrt | pow | abs | floor | ceil | round
  | sum | mean | median | mode | stdev | variance | min | max
  | len | print | range
  deriving DecidableEq, Repr, Inhabited

namespace Builtin

def name : Builtin → String
  | sqrt => "sqrt" | pow => "pow" | abs => "abs" | floor => "floor" | ceil => "ceil"
  | round => "round" | sum => "sum" | mean => "mean" | median => "median" | mode => "mode"
  | stdev => "stdev" | variance => "variance" | min => "min" | max => "max" | len => "len"
  | print => "print" | range => "range"

def all : List Builtin :=
  [sqrt, pow, abs, floor, ceil, round, sum, mean, median, mode, stdev, variance, min, max, len,
    print, range]

def bindings : List (String × Builtin) :=
  all.map (fun b => (b.name, b)) ++ [("μ", mean), ("σ", stdev), ("Σ", sum)]

end Builtin

end Abacus
