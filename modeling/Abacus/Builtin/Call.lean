import Abacus.Builtin.Mode
import Abacus.Builtin.Numeric
import Abacus.Builtin.Statistics
import Abacus.Text.Cluster

/-!
# Calling built-in functions

Only `print` has an effect: it writes a line to the sink.
-/

namespace Abacus.Builtin

def callLen (args : List Value) : Except Fault Value := do
  match ← len.one args with
  | .array vs => return .int (Int64.ofNat vs.length)
  | .text s => return .int (Int64.ofNat (Text.Cluster.count s.toList))
  | v => .error (.noLength v.ty)

def callRange (args : List Value) : Except Fault (Option Value) :=
  match args with
  | [.int last] => .ok (Value.interval 0 last)
  | [.int first, .int last] => .ok (Value.interval first last)
  | [_] | [_, _] => .error (.rangeTypes (args.map Value.ty))
  | _ => .error (.rangeArity args.length)

def compute (b : Builtin) (args : List Value) : Except Fault Value :=
  match b with
  | sqrt => callSqrt args
  | pow => callPow args
  | abs => callAbs args
  | floor => rounded floor Binary64.floor args
  | ceil => rounded ceil Binary64.ceil args
  | round => rounded round Binary64.round args
  | sum => callSum args
  | mean => callMean args
  | median => callMedian args
  | mode => callMode args
  | stdev => callStdev args
  | variance => callVariance args
  | min => extreme min .lt args
  | max => extreme max .gt args
  | len => callLen args
  | range | print => .ok .none

def printed (args : List Value) : String := " ".intercalate (args.map Value.render)

/-- Calls a function. The result is missing if there is no room for it. -/
def call (b : Builtin) (args : List Value) (sink : Sink) : Except Fault (Option Value) × Sink :=
  if b = print then
    match sink.printLine (printed args) with
    | (none, sink) => (.ok (some .none), sink)
    | (some e, sink) => (.error (.sink e), sink)
  else if b = range then (callRange args, sink)
  else ((b.compute args).map some, sink)

end Abacus.Builtin
