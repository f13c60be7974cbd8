import Abacus.Program
import Abacus.Token

/-!
# The grammar of programs

Each predicate holds of a list of tokens and of what the grammar derives it to be. An expression has a
level: levels 1 to 8 are those of the operators with two operands, from the loosest `or` to the
tightest `**`, and level 9 is that of the operands between them. The expression of an operator is
reported where its left operand is, and a group where the expression in it is.
-/

namespace Abacus.Grammar

inductive LeftOp : Nat → Token.Kind → BinaryOp → Prop
  | or : LeftOp 1 .kwOr .or
  | and : LeftOp 2 .kwAnd .and
  | eq : LeftOp 3 .equalEqual .eq
  | ne : LeftOp 3 .bangEqual .ne
  | lt : LeftOp 4 .less .lt
  | gt : LeftOp 4 .greater .gt
  | le : LeftOp 4 .lessEqual .le
  | ge : LeftOp 4 .greaterEqual .ge
  | add : LeftOp 6 .plus .add
  | sub : LeftOp 6 .minus .sub
  | mul : LeftOp 7 .star .mul
  | div : LeftOp 7 .slash .div
  | mod : LeftOp 7 .percent .mod

inductive Sign : Token.Kind → UnaryOp → Prop
  | neg : Sign .minus .neg
  | not : Sign .kwNot .not

inductive Carries : Token.Payload → Literal → Prop
  | int (n : Int64) : Carries (.int n) (.int n)
  | float (x : Binary64) : Carries (.float x) (.float x)
  | text (s : String) : Carries (.text s) (.text s)
  | bool (b : Bool) : Carries (.bool b) (.bool b)

inductive Named : List Token → Position → String → Prop
  | name {t : Token} : t.kind = .ident → Named [t] t.pos t.spelling
  | group {l r : Token} {ts : List Token} {pos : Position} {name : String} :
      l.kind = .leftParen → Named ts pos name → r.kind = .rightParen →
      Named (l :: ts ++ [r]) pos name

mutual

inductive Primary : List Token → Expr → Prop
  | literal {t : Token} {v : Literal} :
      t.kind.isLiteral → Carries t.payload v → Primary [t] (.literal t.pos v)
  | name {t : Token} : t.kind = .ident → Primary [t] (.var t.pos t.spelling)
  | array {l : Token} {ts : List Token} {es : List Expr} :
      l.kind = .leftBracket → Elements ts es → Primary (l :: ts) (.array l.pos es)
  | group {l r : Token} {ts : List Token} {e : Expr} :
      l.kind = .leftParen → Level 1 ts e → r.kind = .rightParen → Primary (l :: ts ++ [r]) e

inductive Callable : List Token → Expr → Prop
  | primary {ts : List Token} {e : Expr} : Primary ts e → Callable ts e
  | emptyCall {l r : Token} {ns : List Token} {pos : Position} {name : String} :
      Named ns pos name → l.kind = .leftParen → r.kind = .rightParen →
      Callable (ns ++ [l, r]) (.call pos name [])
  | call {l r : Token} {ns ts : List Token} {pos : Position} {name : String} {es : List Expr} :
      Named ns pos name → l.kind = .leftParen → Listed ts es → r.kind = .rightParen →
      Callable (ns ++ l :: ts ++ [r]) (.call pos name es)

inductive Operand : List Token → Expr → Prop
  | callable {ts : List Token} {e : Expr} : Callable ts e → Operand ts e
  | sign {t : Token} {ts : List Token} {op : UnaryOp} {e : Expr} :
      Sign t.kind op → Operand ts e → Operand (t :: ts) (.unary t.pos op e)

inductive Level : Nat → List Token → Expr → Prop
  | operand {ts : List Token} {e : Expr} : Operand ts e → Level 9 ts e
  | tighter {n : Nat} {ts : List Token} {e : Expr} : n ≤ 8 → Level (n + 1) ts e → Level n ts e
  | left {n : Nat} {t : Token} {op : BinaryOp} {ls rs : List Token} {l r : Expr} :
      LeftOp n t.kind op → Level n ls l → Level (n + 1) rs r →
      Level n (ls ++ t :: rs) (.binary l.pos op l r)
  | range {t : Token} {ls rs : List Token} {l r : Expr} :
      t.kind = .dotDot → Level 6 ls l → Level 6 rs r → Level 5 (ls ++ t :: rs) (.range l.pos l r)
  | power {t : Token} {ls rs : List Token} {l r : Expr} :
      t.kind = .starStar → Operand ls l → Level 8 rs r →
      Level 8 (ls ++ t :: rs) (.binary l.pos .pow l r)

/-- The elements of an array and its closing bracket, before which a comma may stand. -/
inductive Elements : List Token → List Expr → Prop
  | close {r : Token} : r.kind = .rightBracket → Elements [r] []
  | last {r : Token} {ts : List Token} {e : Expr} :
      Level 1 ts e → r.kind = .rightBracket → Elements (ts ++ [r]) [e]
  | more {c : Token} {ts us : List Token} {e : Expr} {es : List Expr} :
      Level 1 ts e → c.kind = .comma → Elements us es → Elements (ts ++ c :: us) (e :: es)

inductive Listed : List Token → List Expr → Prop
  | one {ts : List Token} {e : Expr} : Level 1 ts e → Listed ts [e]
  | more {c : Token} {ts us : List Token} {e : Expr} {es : List Expr} :
      Level 1 ts e → c.kind = .comma → Listed us es → Listed (ts ++ c :: us) (e :: es)

end

inductive Annotated : List Token → Option String → Prop
  | none : Annotated [] none
  | some {c t : Token} :
      c.kind = .colon → t.kind.isTypeName ∨ t.kind = .ident → Annotated [c, t] (some t.spelling)

inductive Params : List Token → List Param → Prop
  | one {t : Token} {ts : List Token} {type : Option String} :
      t.kind = .ident → Annotated ts type → Params (t :: ts) [⟨t.spelling, type⟩]
  | more {t c : Token} {ts us : List Token} {type : Option String} {ps : List Param} :
      t.kind = .ident → Annotated ts type → c.kind = .comma → Params us ps →
      Params (t :: ts ++ c :: us) (⟨t.spelling, type⟩ :: ps)

inductive ParamList : List Token → List Param → Prop
  | empty {l r : Token} : l.kind = .leftParen → r.kind = .rightParen → ParamList [l, r] []
  | params {l r : Token} {ts : List Token} {ps : List Param} :
      l.kind = .leftParen → Params ts ps → r.kind = .rightParen → ParamList (l :: ts ++ [r]) ps

inductive Head : List Token → String → List Param → Option String → Prop
  | mk {t a : Token} {ps ts : List Token} {params : List Param} {type : Option String} :
      t.kind = .ident → ParamList ps params → Annotated ts type → a.kind = .arrow →
      Head (t :: ps ++ ts ++ [a]) t.spelling params type

mutual

/-- A statement; `inside` says whether it stands in the body of a function. -/
inductive Statement : Bool → List Token → Stmt → Prop
  | declare {inside : Bool} {k t q s : Token} {ts es : List Token} {type : Option String} {e : Expr} :
      k.kind = .kwVar → t.kind = .ident → Annotated ts type → q.kind = .equal → Level 1 es e →
      s.kind = .semicolon →
      Statement inside (k :: t :: ts ++ q :: es ++ [s]) (.declare t.spelling type e)
  | ifThen {inside : Bool} {k : Token} {es bs : List Token} {e : Expr} {body : List Stmt} :
      k.kind = .question → Level 1 es e → Block inside bs body →
      Statement inside (k :: es ++ bs) (.ifThen e body)
  | ifElse {inside : Bool} {k o : Token} {es bs cs : List Token} {e : Expr} {yes no : List Stmt} :
      k.kind = .question → Level 1 es e → Block inside bs yes → o.kind = .kwOtherwise →
      Block inside cs no → Statement inside (k :: es ++ bs ++ o :: cs) (.ifElse e yes no)
  | forEach {inside : Bool} {k t i : Token} {es bs : List Token} {e : Expr} {body : List Stmt} :
      k.kind = .kwFor → t.kind = .ident → i.kind = .kwIn → Level 1 es e → Block inside bs body →
      Statement inside (k :: t :: i :: es ++ bs) (.forEach t.spelling e body)
  | loop {inside : Bool} {k : Token} {es bs : List Token} {e : Expr} {body : List Stmt} :
      k.kind = .kwWhile → Level 1 es e → Block inside bs body →
      Statement inside (k :: es ++ bs) (.loop e body)
  | ret {k s : Token} {es : List Token} {e : Expr} :
      k.kind = .kwReturn → Level 1 es e → s.kind = .semicolon →
      Statement true (k :: es ++ [s]) (.ret e)
  | define {inside : Bool} {hs bs : List Token} {name : String} {params : List Param}
      {type : Option String} {body : List Stmt} :
      Head hs name params type → Block true bs body →
      Statement inside (hs ++ bs) (.define name params type body)
  | defineExpr {inside : Bool} {s : Token} {hs es : List Token} {name : String} {params : List Param}
      {type : Option String} {e : Expr} :
      Head hs name params type → Level 1 es e → s.kind = .semicolon →
      Statement inside (hs ++ es ++ [s]) (.define name params type [.ret e])
  | assign {inside : Bool} {t q s : Token} {es : List Token} {e : Expr} :
      t.kind = .ident → q.kind = .equal → Level 1 es e → s.kind = .semicolon →
      Statement inside (t :: q :: es ++ [s]) (.assign t.spelling e)
  | expr {inside : Bool} {s : Token} {es : List Token} {e : Expr} :
      Level 1 es e → s.kind = .semicolon → Statement inside (es ++ [s]) (.expr e)

inductive Block : Bool → List Token → List Stmt → Prop
  | braces {inside : Bool} {l r : Token} {ts : List Token} {ss : List Stmt} :
      l.kind = .leftBrace → Statements inside ts ss → r.kind = .rightBrace →
      Block inside (l :: ts ++ [r]) ss

inductive Statements : Bool → List Token → List Stmt → Prop
  | nil {inside : Bool} : Statements inside [] []
  | cons {inside : Bool} {ts us : List Token} {s : Stmt} {ss : List Stmt} :
      Statement inside ts s → Statements inside us ss → Statements inside (ts ++ us) (s :: ss)

end

end Abacus.Grammar
