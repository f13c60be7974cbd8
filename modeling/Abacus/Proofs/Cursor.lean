import Abacus.Program.Parser

/-!
# Reading with a cursor

Programs can be read without looking at the rest of the tokens as a list: a cursor moves over all of
them, and beside it stands the number of function bodies that are being read. Expressions are read by
climbing from a lowest level of precedence. Nothing here makes reading end: the cursor stands still at
an end token, and loops go on until a token stops them. So loops and calls spend a budget, and a walk
that has spent it gives nothing.
-/

namespace Abacus

def Connective.operandLevel (link : Connective) : Nat :=
  if link = .op .pow then link.level else link.level + 1

structure Cursor where
  index : Nat
  depth : Nat
  deriving DecidableEq, Repr

/-- A way of reading from a cursor. Also after an error the cursor is where it was left. -/
abbrev Walk (α : Type) := ExceptT SyntaxError (StateT Cursor Option) α

namespace Walk

open Abacus.Parser (connective? unaryOp? literal?)

def cut {α : Type} : Walk α := fun _ => none

/-- The token at an index. Past the end of the list it is the last token if that is an end token, and
otherwise an end token of no place. -/
def tokenAt (ts : List Token) (i : Nat) : Token :=
  (ts[i]?.or (ts.getLast?.filter (·.kind = .eof))).getD (Token.eof ⟨0, 0⟩)

section Steps

variable (ts : List Token)

def peek : Walk Token := do
  return tokenAt ts (← get).index

def advance : Walk Token := do
  let t ← peek ts
  if t.kind ≠ .eof then modify fun c => { c with index := c.index + 1 }
  return t

def check (kind : Token.Kind) : Walk Bool := do
  return (← peek ts).kind = kind

def expect (kind : Token.Kind) (place : SyntaxError.Place) : Walk Token := do
  let t ← peek ts
  if t.kind = kind then advance ts else throw ⟨.expected kind place t, t.pos⟩

def annotation : Walk (Option String) := do
  if ← check ts .colon then
    discard (advance ts)
    let t ← peek ts
    if t.kind.isTypeName || t.kind = .ident then
      discard (advance ts)
      return some t.spelling
    else throw ⟨.expectedType t, t.pos⟩
  else return none

end Steps

mutual

def climb (ts : List Token) : Nat → Nat → Walk Expr
  | 0, _ => cut
  | budget + 1, level => do
    let left ← operand ts budget
    climbFrom ts budget level left

def climbFrom (ts : List Token) : Nat → Nat → Expr → Walk Expr
  | 0, _, _ => cut
  | budget + 1, level, left => do
    match connective? (← peek ts).kind with
    | none => return left
    | some link =>
      if link.level < level then return left
      else
        let t ← advance ts
        let right ← climb ts budget link.operandLevel
        let next ← peek ts
        if link = .range ∧ connective? next.kind = some .range then
          throw ⟨.chained t.kind, next.pos⟩
        else climbFrom ts budget level (link.join left right)

def operand (ts : List Token) : Nat → Walk Expr
  | 0 => cut
  | budget + 1 => do
    let t ← peek ts
    match unaryOp? t.kind with
    | none => callable ts budget
    | some op =>
      discard (advance ts)
      let e ← operand ts budget
      return .unary t.pos op e

def callable (ts : List Token) : Nat → Walk Expr
  | 0 => cut
  | budget + 1 => do
    let e ← primary ts budget
    calls ts budget e

def calls (ts : List Token) : Nat → Expr → Walk Expr
  | 0, _ => cut
  | budget + 1, e => do
    if ← check ts .leftParen then
      match e with
      | .var pos name =>
        discard (advance ts)
        let args ← if ← check ts .rightParen then pure [] else arguments ts budget []
        discard (expect ts .rightParen .argumentsEnd)
        calls ts budget (.call pos name args)
      | _ => throw ⟨.calleeNotNamed, (← peek ts).pos⟩
    else return e

def arguments (ts : List Token) : Nat → List Expr → Walk (List Expr)
  | 0, _ => cut
  | budget + 1, done => do
    let e ← climb ts budget 0
    if ← check ts .comma then
      discard (advance ts)
      arguments ts budget (e :: done)
    else return (e :: done).reverse

def elements (ts : List Token) : Nat → List Expr → Walk (List Expr)
  | 0, _ => cut
  | budget + 1, done => do
    if ← check ts .rightBracket then return done.reverse
    else
      let e ← climb ts budget 0
      if ← check ts .comma then
        discard (advance ts)
        elements ts budget (e :: done)
      else return (e :: done).reverse

def primary (ts : List Token) : Nat → Walk Expr
  | 0 => cut
  | budget + 1 => do
    let t ← peek ts
    if t.kind.isLiteral then
      discard (advance ts)
      match literal? t.payload with
      | some value => return .literal t.pos value
      | none => throw ⟨.malformedLiteral, t.pos⟩
    else if t.kind = .ident then
      discard (advance ts)
      return .var t.pos t.spelling
    else if t.kind = .leftBracket then
      discard (advance ts)
      let es ← elements ts budget []
      discard (expect ts .rightBracket .arrayEnd)
      return .array t.pos es
    else if t.kind = .leftParen then
      discard (advance ts)
      let e ← climb ts budget 0
      discard (expect ts .rightParen .groupEnd)
      return e
    else throw ⟨.expectedExpression t, t.pos⟩

end

def scan (ts : List Token) : Nat → Nat → Walk Unit
  | 0, _ => cut
  | budget + 1, depth => do
    let t ← advance ts
    if t.kind = .leftParen then scan ts budget (depth + 1)
    else if t.kind = .rightParen then
      if depth - 1 = 0 then return () else scan ts budget (depth - 1)
    else if t.kind = .eof then return ()
    else scan ts budget depth

def parameters (ts : List Token) : Nat → List Param → Walk (List Param)
  | 0, _ => cut
  | budget + 1, done => do
    let name ← expect ts .ident .parameterName
    let type ← annotation ts
    if ← check ts .comma then
      discard (advance ts)
      parameters ts budget (⟨name.spelling, type⟩ :: done)
    else return (⟨name.spelling, type⟩ :: done).reverse

section Parts

variable (ts : List Token) (budget : Nat)

/-- Looks past a name and a group of parentheses, and perhaps a colon and a token, for an arrow. The
cursor goes back to where it was. -/
def isFunction : Walk Bool := do
  let saved := (← get).index
  discard (advance ts)
  scan ts budget 0
  if ← check ts .colon then
    discard (advance ts)
    discard (advance ts)
  let found ← check ts .arrow
  modify fun c => { c with index := saved }
  return found

def head : Walk (String × List Param × Option String) := do
  let name ← expect ts .ident .functionName
  discard (expect ts .leftParen .parameterList)
  let params ← if ← check ts .rightParen then pure [] else parameters ts budget []
  discard (expect ts .rightParen .parametersEnd)
  let type ← annotation ts
  discard (expect ts .arrow .functionBody)
  return (name.spelling, params, type)

def expr : Walk Expr := climb ts budget 0

def closed (place : SyntaxError.Place) : Walk Expr := do
  let e ← expr ts budget
  discard (expect ts .semicolon place)
  return e

def declaration : Walk Stmt := do
  discard (advance ts)
  let name ← expect ts .ident .variableName
  let type ← annotation ts
  discard (expect ts .equal .variableValue)
  let value ← closed ts budget .variableEnd
  return .declare name.spelling type value

def assignment : Walk Stmt := do
  let name ← expect ts .ident .assignmentTarget
  discard (expect ts .equal .assignmentValue)
  let value ← closed ts budget .assignmentEnd
  return .assign name.spelling value

def expression : Walk Stmt := do
  let e ← closed ts budget .expressionEnd
  return .expr e

def returned : Walk Stmt := do
  let t ← advance ts
  if (← get).depth = 0 then throw ⟨.returnOutside, t.pos⟩
  else
    let value ← closed ts budget .returnEnd
    return .ret value

end Parts

/-- A walk over a body. The depth is one more there, and goes back after it, also after an error. -/
def deeper {α : Type} (w : Walk α) : Walk α := fun c => do
  let (result, after) ← w { c with depth := c.depth + 1 }
  some (result, { after with depth := after.depth - 1 })

mutual

def statement (ts : List Token) : Nat → Walk Stmt
  | 0 => cut
  | budget + 1 => do
    match (← peek ts).kind with
    | .kwVar => declaration ts budget
    | .question => conditional ts budget
    | .kwFor => forLoop ts budget
    | .kwWhile => whileLoop ts budget
    | .kwReturn => returned ts budget
    | .ident =>
      let next := tokenAt ts ((← get).index + 1)
      if next.kind = .leftParen then
        if ← isFunction ts budget then function ts budget else expression ts budget
      else if next.kind = .equal then assignment ts budget
      else expression ts budget
    | _ => expression ts budget

def conditional (ts : List Token) : Nat → Walk Stmt
  | 0 => cut
  | budget + 1 => do
    discard (advance ts)
    let cond ← expr ts budget
    let yes ← block ts budget
    if ← check ts .kwOtherwise then
      discard (advance ts)
      let no ← block ts budget
      return .ifElse cond yes no
    else return .ifThen cond yes

def forLoop (ts : List Token) : Nat → Walk Stmt
  | 0 => cut
  | budget + 1 => do
    discard (advance ts)
    let name ← expect ts .ident .loopVariable
    discard (expect ts .kwIn .loopValues)
    let values ← expr ts budget
    let body ← block ts budget
    return .forEach name.spelling values body

def whileLoop (ts : List Token) : Nat → Walk Stmt
  | 0 => cut
  | budget + 1 => do
    discard (advance ts)
    let cond ← expr ts budget
    let body ← block ts budget
    return .loop cond body

def function (ts : List Token) : Nat → Walk Stmt
  | 0 => cut
  | budget + 1 => do
    let (name, params, type) ← head ts budget
    let body ← deeper (body ts budget)
    return .define name params type body

def body (ts : List Token) : Nat → Walk (List Stmt)
  | 0 => cut
  | budget + 1 => do
    if ← check ts .leftBrace then block ts budget
    else
      let value ← closed ts budget .functionEnd
      return [.ret value]

def block (ts : List Token) : Nat → Walk (List Stmt)
  | 0 => cut
  | budget + 1 => do
    discard (expect ts .leftBrace .blockStart)
    let ss ← statements ts budget []
    discard (expect ts .rightBrace .blockEnd)
    return ss

def statements (ts : List Token) : Nat → List Stmt → Walk (List Stmt)
  | 0, _ => cut
  | budget + 1, done => do
    if (← check ts .rightBrace) || (← check ts .eof) then return done.reverse
    else
      let s ← statement ts budget
      statements ts budget (s :: done)

end

def program (ts : List Token) : Nat → List Stmt → Walk Program
  | 0, _ => cut
  | budget + 1, done => do
    if ← check ts .eof then return done.reverse
    else
      let s ← statement ts budget
      program ts budget (s :: done)

def parse (ts : List Token) (budget : Nat) : Option (Except SyntaxError Program) :=
  (program ts budget [] ⟨0, 0⟩).map Prod.fst

end Walk

end Abacus
