import Std.Data.HashMap
import Abacus.Builtin.Arguments

/-!
# The most common value

The elements of an array are counted in classes, which are kept in the order in which they are first
seen. Scalars fall into a class by a key, so that counting them takes one look-up; a float that is an
integer has the key of the integer. What is no number is in a class of its own each time, and arrays
and functions join the first class of their like that they are equal to.
-/

namespace Abacus.Builtin

open Number

inductive ModeKey where
  | none
  | bool (b : Bool)
  | int (n : Int64)
  | float (bits : UInt64)
  | text (s : String)
  deriving DecidableEq, Hashable

def wholeNumber? (x : Binary64) : Option Int64 :=
  if x.isIntegral then integer? x.floor else none

def ModeKey.of? : Value → Option ModeKey
  | .none => some .none
  | .bool b => some (.bool b)
  | .int n => some (.int n)
  | .text s => some (.text s)
  | .float x =>
    if x.isNaN then Option.none
    else match wholeNumber? x with
      | some n => some (.int n)
      | Option.none => some (.float x.bits)
  | .array _ | .function _ | .builtin _ => Option.none

/-- The classes seen so far with their first members and sizes, the class of each key, and the classes
without a key. -/
structure Tally where
  classes : Array (Value × Nat)
  keyed : Std.HashMap ModeKey Nat
  others : Array Nat

namespace Tally

def empty : Tally := ⟨#[], ∅, #[]⟩

def other? (classes : Array (Value × Nat)) (others : Array Nat) (v : Value) : Option Nat :=
  others.find? fun i => (classes.getD i default).1.same v

def enlarge (classes : Array (Value × Nat)) (i : Nat) : Array (Value × Nat) :=
  classes.modify i fun (v, n) => (v, n + 1)

def add (t : Tally) (v : Value) : Tally :=
  let ⟨classes, keyed, others⟩ := t
  let fresh := classes.size
  match ModeKey.of? v with
  | some key =>
    match keyed[key]? with
    | some i => ⟨enlarge classes i, keyed, others⟩
    | none => ⟨classes.push (v, 1), keyed.insert key fresh, others⟩
  | none =>
    match v with
    | .float _ => ⟨classes.push (v, 1), keyed, others⟩
    | _ =>
      match other? classes others v with
      | some i => ⟨enlarge classes i, keyed, others⟩
      | none => ⟨classes.push (v, 1), keyed, others.push fresh⟩

end Tally

def largest (classes : List (Value × Nat)) : Except Fault Value :=
  let size := classes.foldl (fun n c => Nat.max n c.2) 0
  match classes.filter (·.2 = size) with
  | [(v, _)] => .ok v
  | tied => .error (.noMode tied.length)

def callMode (args : List Value) : Except Fault Value := do
  match ← mode.elements args with
  | [] => .error (.noData mode)
  | vs => largest (vs.foldl Tally.add .empty).classes.toList

end Abacus.Builtin
