import Abacus.Builtin
import Abacus.Number.Decimal
import Abacus.Program.Equality
import Abacus.Text.Quoted

/-!
# Values

Expressions evaluate to values, which are dynamically typed. `none` is the result of a call that ends
without a `return`. A function keeps its parameter names and its body and nothing of the place where
it was declared.
-/

namespace Abacus

structure Function where
  name : String
  params : List String
  body : List Stmt
  deriving Inhabited

inductive Value where
  | none
  | int (n : Int64)
  | float (x : Binary64)
  | text (s : String)
  | bool (b : Bool)
  | array (elements : List Value)
  | function (f : Function)
  | builtin (b : Builtin)
  deriving Inhabited

inductive Ty where
  | none | int | float | text | bool | array | function | builtin
  deriving DecidableEq, Repr, Inhabited

def Ty.name : Ty → String
  | none => "none"
  | int => "int"
  | float => "float"
  | text => "string"
  | bool => "bool"
  | array => "array"
  | function => "function"
  | builtin => "builtin"

def Literal.value : Literal → Value
  | int n => .int n
  | float x => .float x
  | text s => .text s
  | bool b => .bool b

def Function.same (f g : Function) : Bool :=
  f.name == g.name && f.params == g.params && Stmt.sameAll f.body g.body

namespace Value

def ty : Value → Ty
  | none => .none
  | int _ => .int
  | float _ => .float
  | text _ => .text
  | bool _ => .bool
  | array _ => .array
  | function _ => .function
  | builtin _ => .builtin

def isArray : Value → Bool
  | array _ => true
  | _ => false

def isTruthy : Value → Bool
  | none => false
  | int n => n != 0
  | float x => !x.isZero
  | text s => !s.isEmpty
  | bool b => b
  | array vs => !vs.isEmpty
  | function _ | builtin _ => true

def number? : Value → Option Binary64
  | int n => some (.ofInt n.toInt)
  | float x => some x
  | _ => .none

mutual

/-- Equality as the language has it: integers and floats are compared by their numbers, and what is no
number differs from itself. -/
def same : Value → Value → Bool
  | none, none => true
  | int m, int n => m == n
  | text s, text t => s == t
  | bool a, bool b => a == b
  | array vs, array ws => sameAll vs ws
  | function f, function g => f.same g
  | builtin a, builtin b => a == b
  | v, w =>
    match v.number?, w.number? with
    | some x, some y => x.eq y
    | _, _ => false

def sameAll : List Value → List Value → Bool
  | [], [] => true
  | v :: vs, w :: ws => same v w && sameAll vs ws
  | _, _ => false

end

mutual

/-- The text of a value. The text of an element has quotes around a string, so that its ends are
visible. -/
def renderAs (element : Bool) : Value → String
  | none => "none"
  | int n => toString n.toInt
  | float x => x.text
  | text s => if element then Text.Quoted.render s else s
  | bool b => if b then "true" else "false"
  | array vs => "[" ++ ", ".intercalate (renderElements vs) ++ "]"
  | function f => s!"<function {f.name}>"
  | builtin b => s!"<builtin {b.name}>"

def renderElements : List Value → List String
  | [] => []
  | v :: vs => renderAs true v :: renderElements vs

end

def render (v : Value) : String := v.renderAs false

end Value

end Abacus
