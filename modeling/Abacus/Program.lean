import Abacus.Number.Binary64
import Abacus.Text.Position

/-!
# Programs

A program is a list of statements. Every expression carries the position it is reported at. Type
annotations are kept as written and mean nothing.
-/

namespace Abacus

inductive UnaryOp where
  | neg | not
  deriving DecidableEq, Repr, Inhabited

def UnaryOp.spelling : UnaryOp → String
  | neg => "-"
  | not => "not"

inductive BinaryOp where
  | add | sub | mul | div | mod | pow
  | eq | ne | lt | gt | le | ge
  | and | or
  deriving DecidableEq, Repr, Inhabited

def BinaryOp.spelling : BinaryOp → String
  | add => "+" | sub => "-" | mul => "*" | div => "/" | mod => "%" | pow => "**"
  | eq => "==" | ne => "!=" | lt => "<" | gt => ">" | le => "<=" | ge => ">="
  | and => "and" | or => "or"

/-- The operators that work element by element on arrays. -/
def BinaryOp.isVectorized : BinaryOp → Bool
  | add | sub | mul | div | pow => true
  | _ => false

inductive Literal where
  | int (n : Int64)
  | float (x : Binary64)
  | text (s : String)
  | bool (b : Bool)
  deriving DecidableEq, Repr, Inhabited

inductive Expr where
  | literal (pos : Position) (value : Literal)
  | var (pos : Position) (name : String)
  | unary (pos : Position) (op : UnaryOp) (operand : Expr)
  | binary (pos : Position) (op : BinaryOp) (left right : Expr)
  | range (pos : Position) (first last : Expr)
  | call (pos : Position) (callee : String) (args : List Expr)
  | array (pos : Position) (elements : List Expr)
  deriving Repr, Inhabited

def Expr.pos : Expr → Position
  | literal pos _ | var pos _ | unary pos _ _ | binary pos _ _ _ | range pos _ _ | call pos _ _
  | array pos _ => pos

structure Param where
  name : String
  type : Option String
  deriving DecidableEq, Repr, Inhabited

inductive Stmt where
  | declare (name : String) (type : Option String) (value : Expr)
  | define (name : String) (params : List Param) (type : Option String) (body : List Stmt)
  | ifThen (cond : Expr) (body : List Stmt)
  | ifElse (cond : Expr) (yes no : List Stmt)
  | forEach (name : String) (values : Expr) (body : List Stmt)
  | loop (cond : Expr) (body : List Stmt)
  | ret (value : Expr)
  | assign (name : String) (value : Expr)
  | expr (value : Expr)
  deriving Repr, Inhabited

abbrev Program := List Stmt

end Abacus
