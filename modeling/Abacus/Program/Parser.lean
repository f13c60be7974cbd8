import Abacus.Program.Chain
import Abacus.SyntaxError

/-!
# Reading programs from tokens

A list of tokens is read up to its first end token, or up to its end. Each reader consumes at least
one token or fails, and its result says so, which is why reading ends. `stop` is the position of the
end token, where everything that is missing is reported.
-/

namespace Abacus.Parser

/-- What was read from `origin`, and the tokens after it. -/
structure Reading (origin : List Token) (α : Type) where
  value : α
  rest : List Token
  shorter : rest.length < origin.length

def connective? : Token.Kind → Option Connective
  | .plus => some (.op .add)
  | .minus => some (.op .sub)
  | .star => some (.op .mul)
  | .slash => some (.op .div)
  | .percent => some (.op .mod)
  | .starStar => some (.op .pow)
  | .equalEqual => some (.op .eq)
  | .bangEqual => some (.op .ne)
  | .less => some (.op .lt)
  | .greater => some (.op .gt)
  | .lessEqual => some (.op .le)
  | .greaterEqual => some (.op .ge)
  | .kwAnd => some (.op .and)
  | .kwOr => some (.op .or)
  | .dotDot => some .range
  | _ => none

def unaryOp? : Token.Kind → Option UnaryOp
  | .minus => some .neg
  | .kwNot => some .not
  | _ => none

def literal? : Token.Payload → Option Literal
  | .int n => some (.int n)
  | .float x => some (.float x)
  | .text s => some (.text s)
  | .bool b => some (.bool b)
  | .lexeme _ | .none => none

/-- Whether a range may not follow in this chain: one has been read, and no looser connective since. -/
def afterLink (ranged : Bool) (link : Connective) : Bool :=
  if link = .range then true else ranged && Connective.range.level < link.level

def peek (stop : Position) : List Token → Token
  | [] => Token.eof stop
  | t :: _ => t

def accept? (kind : Token.Kind) (ts : List Token) :
    Option { rest : List Token // rest.length < ts.length } :=
  match ts with
  | [] => none
  | t :: rest => if t.kind = kind then some ⟨rest, by simp⟩ else none

def expect (stop : Position) (kind : Token.Kind) (place : SyntaxError.Place) (origin ts : List Token)
    (h : ts.length ≤ origin.length) : Except SyntaxError (Reading origin Token) :=
  match ts with
  | [] => .error ⟨.expected kind place (Token.eof stop), stop⟩
  | t :: rest =>
    if t.kind = kind then .ok ⟨t, rest, by grind⟩ else .error ⟨.expected kind place t, t.pos⟩

def annotation (stop : Position) (origin ts : List Token) (h : ts.length < origin.length) :
    Except SyntaxError (Reading origin (Option String)) :=
  match accept? .colon ts with
  | none => .ok ⟨none, ts, h⟩
  | some ⟨[], _⟩ => .error ⟨.expectedType (Token.eof stop), stop⟩
  | some ⟨t :: rest, _⟩ =>
    if t.kind.isTypeName || t.kind = .ident then .ok ⟨some t.spelling, rest, by grind⟩
    else .error ⟨.expectedType t, t.pos⟩

mutual

def primary (stop : Position) (ts : List Token) : Except SyntaxError (Reading ts Expr) :=
  match ts with
  | [] => .error ⟨.expectedExpression (Token.eof stop), stop⟩
  | t :: rest =>
    if t.kind.isLiteral then
      match literal? t.payload with
      | some value => .ok ⟨.literal t.pos value, rest, by simp⟩
      | none => .error ⟨.malformedLiteral, t.pos⟩
    else if t.kind = .ident then .ok ⟨.var t.pos t.spelling, rest, by simp⟩
    else if t.kind = .leftBracket then do
      let ⟨es, rest, h⟩ ← elements stop [] (t :: rest) rest (by simp)
      return ⟨.array t.pos es, rest, h⟩
    else if t.kind = .leftParen then do
      let ⟨e, rest', _⟩ ← expr stop rest
      let ⟨_, rest'', h⟩ ← expect stop .rightParen .groupEnd (t :: rest) rest' (by grind)
      return ⟨e, rest'', h⟩
    else .error ⟨.expectedExpression t, t.pos⟩
termination_by 8 * ts.length
decreasing_by all_goals grind

/-- The elements of an array after `done`, which is in reverse, and the closing bracket. A comma may
stand before the bracket. -/
def elements (stop : Position) (done : List Expr) (origin ts : List Token)
    (h : ts.length < origin.length) : Except SyntaxError (Reading origin (List Expr)) :=
  match accept? .rightBracket ts with
  | some ⟨rest, _⟩ => .ok ⟨done.reverse, rest, by grind⟩
  | none => do
    let ⟨e, rest, _⟩ ← expr stop ts
    match accept? .comma rest with
    | some ⟨rest, _⟩ => elements stop (e :: done) origin rest (by grind)
    | none =>
      let ⟨_, rest, h⟩ ← expect stop .rightBracket .arrayEnd origin rest (by grind)
      return ⟨(e :: done).reverse, rest, h⟩
termination_by 8 * ts.length + 4
decreasing_by all_goals grind

def arguments (stop : Position) (done : List Expr) (origin ts : List Token)
    (h : ts.length < origin.length) : Except SyntaxError (Reading origin (List Expr)) := do
  let ⟨e, rest, _⟩ ← expr stop ts
  match accept? .comma rest with
  | some ⟨rest, _⟩ => arguments stop (e :: done) origin rest (by grind)
  | none =>
    let ⟨_, rest, h⟩ ← expect stop .rightParen .argumentsEnd origin rest (by grind)
    return ⟨(e :: done).reverse, rest, h⟩
termination_by 8 * ts.length + 4
decreasing_by all_goals grind

def callable (stop : Position) (ts : List Token) : Except SyntaxError (Reading ts Expr) := do
  let ⟨e, rest, h⟩ ← primary stop ts
  match accept? .leftParen rest with
  | none => return ⟨e, rest, h⟩
  | some ⟨inner, _⟩ =>
    match e with
    | .var pos name =>
      let ⟨args, rest, h⟩ ←
        match accept? .rightParen inner with
        | some ⟨rest, _⟩ => .ok ⟨[], rest, by grind⟩
        | none => arguments stop [] ts inner (by grind)
      match accept? .leftParen rest with
      | none => return ⟨.call pos name args, rest, h⟩
      | some _ => .error ⟨.calleeNotNamed, (peek stop rest).pos⟩
    | _ => .error ⟨.calleeNotNamed, (peek stop rest).pos⟩
termination_by 8 * ts.length + 1
decreasing_by all_goals grind

def operand (stop : Position) (ops : List (Position × UnaryOp)) (origin ts : List Token)
    (h : ts.length ≤ origin.length) : Except SyntaxError (Reading origin Expr) :=
  match ts with
  | [] => .error ⟨.expectedExpression (Token.eof stop), stop⟩
  | t :: rest =>
    match unaryOp? t.kind with
    | some op => operand stop ((t.pos, op) :: ops) origin rest (by grind)
    | none => do
      let ⟨e, rest, _⟩ ← callable stop (t :: rest)
      return ⟨ops.foldl (fun e (pos, op) => .unary pos op e) e, rest, by grind⟩
termination_by 8 * ts.length + 2
decreasing_by all_goals grind

def links (stop : Position) (ranged : Bool) (done : List (Connective × Expr))
    (origin ts : List Token) (h : ts.length < origin.length) :
    Except SyntaxError (Reading origin (List (Connective × Expr))) :=
  match ts with
  | [] => .ok ⟨done.reverse, [], h⟩
  | t :: rest =>
    match connective? t.kind with
    | none => .ok ⟨done.reverse, t :: rest, h⟩
    | some link =>
      if link = .range ∧ ranged then .error ⟨.chained t.kind, t.pos⟩
      else do
        let ⟨e, rest', _⟩ ← operand stop [] rest rest (Nat.le_refl _)
        links stop (afterLink ranged link) ((link, e) :: done) origin rest' (by grind)
termination_by 8 * ts.length
decreasing_by all_goals grind

def expr (stop : Position) (ts : List Token) : Except SyntaxError (Reading ts Expr) := do
  let ⟨first, rest, h⟩ ← operand stop [] ts ts (Nat.le_refl _)
  let ⟨rest, after, h⟩ ← links stop false [] ts rest h
  return ⟨Chain.tree ⟨first, rest⟩, after, h⟩
termination_by 8 * ts.length + 3
decreasing_by all_goals grind

end

def afterGroup (depth : Nat) : List Token → List Token
  | [] => []
  | t :: rest =>
    if t.kind = .leftParen then afterGroup (depth + 1) rest
    else if t.kind = .rightParen then
      if depth ≤ 1 then rest else afterGroup (depth - 1) rest
    else afterGroup depth rest

/-- Whether the tokens after a name are the head of a function: a group of parentheses, perhaps a
colon and a token, and an arrow. -/
def isHead (ts : List Token) : Bool :=
  let after := afterGroup 0 ts
  let after := match accept? .colon after with
    | some ⟨rest, _⟩ => rest.tail
    | none => after
  (accept? .arrow after).isSome

def parameters (stop : Position) (done : List Param) (origin ts : List Token)
    (h : ts.length < origin.length) : Except SyntaxError (Reading origin (List Param)) := do
  let ⟨name, rest, h₁⟩ ← expect stop .ident .parameterName ts ts (Nat.le_refl _)
  let ⟨type, rest, _⟩ ← annotation stop ts rest h₁
  match accept? .comma rest with
  | some ⟨rest, _⟩ => parameters stop (⟨name.spelling, type⟩ :: done) origin rest (by grind)
  | none =>
    let ⟨_, rest, h⟩ ← expect stop .rightParen .parametersEnd origin rest (by grind)
    return ⟨(⟨name.spelling, type⟩ :: done).reverse, rest, h⟩
termination_by ts.length
decreasing_by all_goals grind

def head (stop : Position) (ts : List Token) :
    Except SyntaxError (Reading ts (String × List Param × Option String)) := do
  let ⟨name, rest, _⟩ ← expect stop .ident .functionName ts ts (Nat.le_refl _)
  let ⟨_, rest, h⟩ ← expect stop .leftParen .parameterList ts rest (by grind)
  let ⟨params, rest, h⟩ ←
    match accept? .rightParen rest with
    | some ⟨rest, _⟩ => .ok ⟨[], rest, by grind⟩
    | none => parameters stop [] ts rest h
  let ⟨type, rest, _⟩ ← annotation stop ts rest h
  let ⟨_, rest, h⟩ ← expect stop .arrow .functionBody ts rest (by grind)
  return ⟨(name.spelling, params, type), rest, h⟩

def closed (stop : Position) (place : SyntaxError.Place) (origin ts : List Token)
    (h : ts.length ≤ origin.length) : Except SyntaxError (Reading origin Expr) := do
  let ⟨e, rest, _⟩ ← expr stop ts
  let ⟨_, rest, h⟩ ← expect stop .semicolon place origin rest (by grind)
  return ⟨e, rest, h⟩

def declaration (stop : Position) (origin ts : List Token) (h : ts.length < origin.length) :
    Except SyntaxError (Reading origin Stmt) := do
  let ⟨name, rest, h⟩ ← expect stop .ident .variableName origin ts (by grind)
  let ⟨type, rest, _⟩ ← annotation stop origin rest h
  let ⟨_, rest, _⟩ ← expect stop .equal .variableValue origin rest (by grind)
  let ⟨value, rest, h⟩ ← closed stop .variableEnd origin rest (by grind)
  return ⟨.declare name.spelling type value, rest, h⟩

def assignment (stop : Position) (ts : List Token) : Except SyntaxError (Reading ts Stmt) := do
  let ⟨name, rest, _⟩ ← expect stop .ident .assignmentTarget ts ts (Nat.le_refl _)
  let ⟨_, rest, _⟩ ← expect stop .equal .assignmentValue ts rest (by grind)
  let ⟨value, rest, h⟩ ← closed stop .assignmentEnd ts rest (by grind)
  return ⟨.assign name.spelling value, rest, h⟩

def condition (stop : Position) (origin ts : List Token) (h : ts.length < origin.length) :
    Except SyntaxError (Reading origin Expr) := do
  let ⟨e, rest, _⟩ ← expr stop ts
  let ⟨_, rest, h⟩ ← expect stop .leftBrace .blockStart origin rest (by grind)
  return ⟨e, rest, h⟩

def traversal (stop : Position) (origin ts : List Token) (h : ts.length < origin.length) :
    Except SyntaxError (Reading origin (String × Expr)) := do
  let ⟨name, rest, _⟩ ← expect stop .ident .loopVariable origin ts (by grind)
  let ⟨_, rest, h⟩ ← expect stop .kwIn .loopValues origin rest (by grind)
  let ⟨values, rest, h⟩ ← condition stop origin rest h
  return ⟨(name.spelling, values), rest, h⟩

def expression (stop : Position) (ts : List Token) : Except SyntaxError (Reading ts Stmt) := do
  let ⟨e, rest, h⟩ ← closed stop .expressionEnd ts ts (Nat.le_refl _)
  return ⟨.expr e, rest, h⟩

def returned (stop : Position) (origin ts : List Token) (h : ts.length < origin.length) :
    Except SyntaxError (Reading origin Stmt) := do
  let ⟨value, rest, h⟩ ← closed stop .returnEnd origin ts (by grind)
  return ⟨.ret value, rest, h⟩

mutual

def statement (stop : Position) (inside : Bool) (ts : List Token) :
    Except SyntaxError (Reading ts Stmt) :=
  match ts with
  | [] => expression stop []
  | t :: rest =>
    match t.kind with
    | .kwVar => declaration stop (t :: rest) rest (by simp)
    | .question => conditional stop inside (t :: rest) rest (by simp)
    | .kwFor => forLoop stop inside (t :: rest) rest (by simp)
    | .kwWhile => whileLoop stop inside (t :: rest) rest (by simp)
    | .kwReturn =>
      if inside then returned stop (t :: rest) rest (by simp) else .error ⟨.returnOutside, t.pos⟩
    | .ident =>
      if (peek stop rest).kind = .leftParen ∧ isHead rest then function stop (t :: rest)
      else if (peek stop rest).kind = .equal then assignment stop (t :: rest)
      else expression stop (t :: rest)
    | _ => expression stop (t :: rest)
termination_by 8 * ts.length + 4
decreasing_by all_goals grind

def conditional (stop : Position) (inside : Bool) (origin ts : List Token)
    (h : ts.length < origin.length) : Except SyntaxError (Reading origin Stmt) := do
  let ⟨cond, rest, h⟩ ← condition stop origin ts h
  let ⟨yes, rest, h⟩ ← block stop inside [] origin rest h
  match accept? .kwOtherwise rest with
  | none => return ⟨.ifThen cond yes, rest, h⟩
  | some ⟨rest, _⟩ =>
    let ⟨_, rest, h⟩ ← expect stop .leftBrace .blockStart origin rest (by grind)
    let ⟨no, rest, h⟩ ← block stop inside [] origin rest h
    return ⟨.ifElse cond yes no, rest, h⟩
termination_by 8 * origin.length
decreasing_by all_goals grind

def forLoop (stop : Position) (inside : Bool) (origin ts : List Token)
    (h : ts.length < origin.length) : Except SyntaxError (Reading origin Stmt) := do
  let ⟨(name, values), rest, h⟩ ← traversal stop origin ts h
  let ⟨body, rest, h⟩ ← block stop inside [] origin rest h
  return ⟨.forEach name values body, rest, h⟩
termination_by 8 * origin.length
decreasing_by all_goals grind

def whileLoop (stop : Position) (inside : Bool) (origin ts : List Token)
    (h : ts.length < origin.length) : Except SyntaxError (Reading origin Stmt) := do
  let ⟨cond, rest, h⟩ ← condition stop origin ts h
  let ⟨body, rest, h⟩ ← block stop inside [] origin rest h
  return ⟨.loop cond body, rest, h⟩
termination_by 8 * origin.length
decreasing_by all_goals grind

def function (stop : Position) (ts : List Token) : Except SyntaxError (Reading ts Stmt) := do
  let ⟨(name, params, type), rest, h⟩ ← head stop ts
  match accept? .leftBrace rest with
  | some ⟨rest, _⟩ =>
    let ⟨body, rest, h⟩ ← block stop true [] ts rest (by grind)
    return ⟨.define name params type body, rest, h⟩
  | none =>
    let ⟨value, rest, h⟩ ← closed stop .functionEnd ts rest (by grind)
    return ⟨.define name params type [.ret value], rest, h⟩
termination_by 8 * ts.length
decreasing_by all_goals grind

def block (stop : Position) (inside : Bool) (done : List Stmt) (origin ts : List Token)
    (h : ts.length < origin.length) : Except SyntaxError (Reading origin (List Stmt)) :=
  match accept? .rightBrace ts with
  | some ⟨rest, _⟩ => .ok ⟨done.reverse, rest, by grind⟩
  | none =>
    match ts with
    | [] => .error ⟨.expected .rightBrace .blockEnd (Token.eof stop), stop⟩
    | t :: rest => do
      let ⟨s, rest, _⟩ ← statement stop inside (t :: rest)
      block stop inside (s :: done) origin rest (by grind)
termination_by 8 * ts.length + 5
decreasing_by all_goals grind

end

def statements (stop : Position) (done : List Stmt) (ts : List Token) :
    Except SyntaxError Program :=
  match ts with
  | [] => .ok done.reverse
  | t :: rest => do
    let ⟨s, rest, _⟩ ← statement stop false (t :: rest)
    statements stop (s :: done) rest
termination_by ts.length
decreasing_by assumption

/-- The tokens before the first end token, and its position; `⟨0, 0⟩` when there is none. -/
def upToEnd (ts : List Token) : List Token × Position :=
  (ts.takeWhile (·.kind ≠ .eof), ((ts.find? (·.kind = .eof)).map Token.pos).getD ⟨0, 0⟩)

end Abacus.Parser

namespace Abacus.Program

def parse (ts : List Token) : Except SyntaxError Program :=
  let (ts, stop) := Parser.upToEnd ts
  Parser.statements stop [] ts

end Abacus.Program
