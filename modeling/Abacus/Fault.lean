import Abacus.Sink
import Abacus.SyntaxError
import Abacus.Value

/-!
# Faults

A fault is why an operation has no result. It becomes an error when the position of the expression
that failed is known. Every error is reported by its kind, its message and its position.
-/

namespace Abacus

inductive ErrorKind where
  | grammar | name | type | value | aggregation | recursion | output
  deriving DecidableEq, Repr

def ErrorKind.title : ErrorKind → String
  | grammar => "SyntaxError"
  | name => "NameError"
  | type => "TypeError"
  | value => "ValueError"
  | aggregation => "AggregationError"
  | recursion => "RecursionError"
  | output => "IOError"

inductive Fault where
  | undefined (name : String)
  | unsupported (op : BinaryOp) (left right : Ty)
  | notNegatable (found : Ty)
  | notBounds (first last : Ty)
  | notCallable (name : String) (found : Ty)
  | notIterable (found : Ty)
  | wrongArguments (name : String) (expected given : Nat)
  | tooDeep (limit : Nat) (name : String)
  | overflow (op : BinaryOp)
  | negationOverflow
  | lengthMismatch (op : BinaryOp) (left right : Nat)
  | divisionByZero
  | moduloByZero
  | repeatTooLong
  | wrongArity (b : Builtin) (expected given : Nat)
  | notNumber (b : Builtin) (found : Ty)
  | notArray (b : Builtin) (found : Ty)
  | notInteger (b : Builtin) (x : Binary64)
  | rootOfNegative
  | absOverflow
  | noData (b : Builtin)
  | noMode (tied : Nat)
  | noArguments (b : Builtin)
  | notSeveral (b : Builtin) (found : Ty)
  | emptySequence (b : Builtin)
  | noLength (found : Ty)
  | rangeTypes (found : List Ty)
  | rangeArity (given : Nat)
  | sink (e : SinkError)
  deriving DecidableEq, Repr

namespace Fault

def kind : Fault → ErrorKind
  | undefined _ => .name
  | unsupported .. | notNegatable _ | notBounds .. | notCallable .. | notIterable _
  | wrongArguments .. | wrongArity .. | notNumber .. | notArray .. | noArguments _ | notSeveral ..
  | noLength _ | rangeTypes _ | rangeArity _ => .type
  | overflow _ | negationOverflow | lengthMismatch .. | divisionByZero | moduloByZero
  | repeatTooLong | notInteger .. | rootOfNegative | absOverflow | noData _ | emptySequence _ =>
    .value
  | noMode _ => .aggregation
  | tooDeep .. => .recursion
  | sink _ => .output

def plural (n : Nat) : String := if n = 1 then "" else "s"

def message : Fault → String
  | undefined name => s!"name '{name}' is not defined"
  | unsupported op left right =>
    s!"unsupported operand types for {op.spelling}: '{left.name}' and '{right.name}'"
  | notNegatable found => s!"bad operand type for unary -: '{found.name}'"
  | notBounds first last => s!"range bounds must be integers, found '{first.name}' and '{last.name}'"
  | notCallable name found => s!"'{name}' is not callable (found '{found.name}')"
  | notIterable found => s!"'for' expects an array, found '{found.name}'"
  | wrongArguments name expected given =>
    s!"{name}() takes {expected} argument{plural expected} but {given} were given"
  | tooDeep limit name => s!"maximum call depth of {limit} exceeded in {name}()"
  | overflow op => s!"integer overflow in '{op.spelling}'"
  | negationOverflow => "integer overflow in unary '-'"
  | lengthMismatch op left right =>
    s!"arrays must have the same length for '{op.spelling}' ({left} vs {right})"
  | divisionByZero => "division by zero"
  | moduloByZero => "modulo by zero"
  | repeatTooLong => "repeated string is too long"
  | wrongArity b expected given =>
    s!"{b.name}() takes exactly {expected} argument{plural expected} ({given} given)"
  | notNumber b found => s!"{b.name}() expects a number, found '{found.name}'"
  | notArray b found => s!"{b.name}() expects an array, found '{found.name}'"
  | notInteger b x => s!"{b.name}() cannot convert {x.text} to an integer"
  | rootOfNegative => "math domain error in sqrt()"
  | absOverflow => "integer overflow in abs()"
  | noData b => s!"{b.name}() requires at least one data point"
  | noMode tied => s!"no unique mode; found {tied} equally common values"
  | noArguments b => s!"{b.name}() expects at least 1 argument (0 given)"
  | notSeveral b found => s!"{b.name}() expects an array or several values, found '{found.name}'"
  | emptySequence b => s!"{b.name}() arg is an empty sequence"
  | noLength found => s!"object of type '{found.name}' has no len()"
  | rangeTypes found =>
    "range() expects integers, found " ++ " and ".intercalate (found.map fun t => s!"'{t.name}'")
  | rangeArity given => s!"range() takes 1 or 2 arguments ({given} given)"
  | sink e => e.message

end Fault

structure RuntimeError where
  fault : Fault
  pos : Position
  deriving DecidableEq, Repr

structure Report where
  kind : ErrorKind
  message : String
  pos : Option Position
  deriving DecidableEq, Repr

def Report.text (r : Report) : String :=
  match r.pos with
  | some p => s!"{r.kind.title}: {r.message} ({p.render})"
  | none => s!"{r.kind.title}: {r.message}"

def SyntaxError.report (e : SyntaxError) : Report := ⟨.grammar, e.cause.message, some e.pos⟩

def Fault.report (f : Fault) : Report := ⟨f.kind, f.message, none⟩

def RuntimeError.report (e : RuntimeError) : Report := ⟨e.fault.kind, e.fault.message, some e.pos⟩

end Abacus
