import Abacus.Program
import Abacus.Token

/-!
# Writing programs as tokens

The printer writes each node as the grammar has it, and parentheses only around an operand that is too
loose for its place. On the left of an operator its own level is tight enough and on the right the
next one; `**` takes signs on its left and its own level on its right; a range takes sums on either
side, and a sign takes anything but an operator between operands.
-/

namespace Abacus

def Token.item (t : Token) : Token.Kind × Token.Payload := (t.kind, t.payload)

namespace Printer

abbrev Item := Token.Kind × Token.Payload

def symbol (k : Token.Kind) : Item := (k, .lexeme (k.spelling?.getD ""))

def word (name : String) : Item := (.ident, .lexeme name)

def constant : Literal → Item
  | .int n => (.int, .int n)
  | .float x => (.float, .float x)
  | .text s => (.string, .text s)
  | .bool b => (.bool, .bool b)

def sign : UnaryOp → Token.Kind
  | .neg => .minus
  | .not => .kwNot

def operator : BinaryOp → Token.Kind
  | .or => .kwOr
  | .and => .kwAnd
  | .eq => .equalEqual
  | .ne => .bangEqual
  | .lt => .less
  | .gt => .greater
  | .le => .lessEqual
  | .ge => .greaterEqual
  | .add => .plus
  | .sub => .minus
  | .mul => .star
  | .div => .slash
  | .mod => .percent
  | .pow => .starStar

/-- How tight an operator is; ranges are of level 5, and everything with no operator between operands
is of level 9. -/
def opLevel : BinaryOp → Nat
  | .or => 1
  | .and => 2
  | .eq | .ne => 3
  | .lt | .gt | .le | .ge => 4
  | .add | .sub => 6
  | .mul | .div | .mod => 7
  | .pow => 8

def level : Expr → Nat
  | .binary _ op _ _ => opLevel op
  | .range _ _ _ => 5
  | _ => 9

def leftLevel (op : BinaryOp) : Nat := if op = .pow then 9 else opLevel op

def rightLevel (op : BinaryOp) : Nat := if op = .pow then 8 else opLevel op + 1

/-- An operand in its place, where only levels from `least` on go without parentheses. -/
def operand (least : Nat) (e : Expr) (items : List Item) : List Item :=
  if level e < least then symbol .leftParen :: items ++ [symbol .rightParen] else items

mutual

def expr : Expr → List Item
  | .literal _ v => [constant v]
  | .var _ name => [word name]
  | .unary _ op e => symbol (sign op) :: operand 9 e (expr e)
  | .binary _ op l r =>
    operand (leftLevel op) l (expr l) ++ symbol (operator op) :: operand (rightLevel op) r (expr r)
  | .range _ l r => operand 6 l (expr l) ++ symbol .dotDot :: operand 6 r (expr r)
  | .call _ name args => word name :: symbol .leftParen :: listed args ++ [symbol .rightParen]
  | .array _ es => symbol .leftBracket :: listed es ++ [symbol .rightBracket]

def listed : List Expr → List Item
  | [] => []
  | e :: es => expr e ++ following es

def following : List Expr → List Item
  | [] => []
  | e :: es => symbol .comma :: expr e ++ following es

end

def typeKind (name : String) : Token.Kind :=
  if (Token.Kind.ofWord name).isTypeName then Token.Kind.ofWord name else .ident

def typing : Option String → List Item
  | none => []
  | some name => [symbol .colon, (typeKind name, .lexeme name)]

def param (p : Param) : List Item := word p.name :: typing p.type

def params : List Param → List Item
  | [] => []
  | [p] => param p
  | p :: ps => param p ++ symbol .comma :: params ps

def head (name : String) (ps : List Param) (type : Option String) : List Item :=
  word name :: symbol .leftParen :: params ps ++ symbol .rightParen :: typing type
    ++ [symbol .arrow]

def ended (items : List Item) : List Item := items ++ [symbol .semicolon]

def braces (items : List Item) : List Item := symbol .leftBrace :: items ++ [symbol .rightBrace]

/-- The body of a function. In the short form a body that only returns is written as what it
returns. -/
def body (short : Bool) (ss : List Stmt) (items : List Item) : List Item :=
  match short, ss with
  | true, [.ret e] => ended (expr e)
  | _, _ => braces items

mutual

def stmt (short : Bool) : Stmt → List Item
  | .declare name type e =>
    symbol .kwVar :: word name :: typing type ++ symbol .equal :: ended (expr e)
  | .define name ps type ss => head name ps type ++ body short ss (stmts short ss)
  | .ifThen c ss => symbol .question :: expr c ++ braces (stmts short ss)
  | .ifElse c yes no =>
    symbol .question :: expr c ++ braces (stmts short yes)
      ++ symbol .kwOtherwise :: braces (stmts short no)
  | .forEach name e ss =>
    symbol .kwFor :: word name :: symbol .kwIn :: expr e ++ braces (stmts short ss)
  | .loop c ss => symbol .kwWhile :: expr c ++ braces (stmts short ss)
  | .ret e => symbol .kwReturn :: ended (expr e)
  | .assign name e => word name :: symbol .equal :: ended (expr e)
  | .expr e => ended (expr e)

def stmts (short : Bool) : List Stmt → List Item
  | [] => []
  | s :: ss => stmt short s ++ stmts short ss

end

-- The equations of the printer are derived here, once for all the proofs that print.
attribute [grind =] expr listed following stmt stmts

end Printer

mutual

def Expr.unplaced : Expr → Expr
  | .literal _ v => .literal .start v
  | .var _ name => .var .start name
  | .unary _ op e => .unary .start op e.unplaced
  | .binary _ op l r => .binary .start op l.unplaced r.unplaced
  | .range _ l r => .range .start l.unplaced r.unplaced
  | .call _ name args => .call .start name (Expr.unplacedAll args)
  | .array _ es => .array .start (Expr.unplacedAll es)

def Expr.unplacedAll : List Expr → List Expr
  | [] => []
  | e :: es => e.unplaced :: Expr.unplacedAll es

end

mutual

def Stmt.unplaced : Stmt → Stmt
  | .declare name type e => .declare name type e.unplaced
  | .define name ps type body => .define name ps type (Stmt.unplacedAll body)
  | .ifThen c body => .ifThen c.unplaced (Stmt.unplacedAll body)
  | .ifElse c yes no => .ifElse c.unplaced (Stmt.unplacedAll yes) (Stmt.unplacedAll no)
  | .forEach name e body => .forEach name e.unplaced (Stmt.unplacedAll body)
  | .loop c body => .loop c.unplaced (Stmt.unplacedAll body)
  | .ret e => .ret e.unplaced
  | .assign name e => .assign name e.unplaced
  | .expr e => .expr e.unplaced

def Stmt.unplacedAll : List Stmt → List Stmt
  | [] => []
  | s :: ss => s.unplaced :: Stmt.unplacedAll ss

end

attribute [grind =] Expr.unplaced Expr.unplacedAll Stmt.unplaced Stmt.unplacedAll

mutual

/-- Whether a statement returns out of itself: a `return` stands in it that is in no function
declared there. -/
def Stmt.returns : Stmt → Bool
  | .ret _ => true
  | .ifThen _ body => Stmt.anyReturns body
  | .ifElse _ yes no => Stmt.anyReturns yes || Stmt.anyReturns no
  | .forEach _ _ body => Stmt.anyReturns body
  | .loop _ body => Stmt.anyReturns body
  | .define .. | .declare .. | .assign .. | .expr _ => false

def Stmt.anyReturns : List Stmt → Bool
  | [] => false
  | s :: ss => s.returns || Stmt.anyReturns ss

end

end Abacus
