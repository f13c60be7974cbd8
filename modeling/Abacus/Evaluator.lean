import Abacus.Evaluator.Action

/-!
# Evaluation

Expressions are evaluated and statements executed in order, operands from left to right and all of
them. Evaluation follows the program text; only calls of functions and rounds of `while` loops can go
on without end, and these spend a budget. A call limits how many function bodies may be executed at
once.
-/

namespace Abacus

inductive Flow where
  | normal (v : Value)
  | returned (v : Value)
  deriving Inhabited

def Flow.value : Flow → Value
  | normal v | returned v => v

abbrev Caller := Position → Function → List Value → Action Value

def callValue (call : Caller) (pos : Position) (name : String) (callee : Value)
    (args : List Value) : Action Value :=
  match callee with
  | .function f => call pos f args
  | .builtin b => Action.callBuiltin pos b args
  | v => Action.fail pos (.notCallable name v.ty)

def Value.bounds (first last : Value) : Except Fault (Option Value) :=
  match first, last with
  | .int m, .int n => .ok (interval m n)
  | v, w => .error (.notBounds v.ty w.ty)

mutual

def Expr.eval (call : Caller) : Expr → Action Value
  | .literal _ v => pure v.value
  | .var pos name => Action.lookup pos name
  | .unary pos op e => do
    let v ← Expr.eval call e
    Action.check pos (op.apply v)
  | .binary pos op l r => do
    let v ← Expr.eval call l
    let w ← Expr.eval call r
    Action.check pos (op.apply v w)
  | .range pos l r => do
    let v ← Expr.eval call l
    let w ← Expr.eval call r
    Action.attempt pos (v.bounds w)
  | .call pos name args => do
    let callee ← Action.lookup pos name
    let vs ← Expr.evalAll call args []
    callValue call pos name callee vs
  | .array _ es => do
    let vs ← Expr.evalAll call es []
    return .array vs

def Expr.evalAll (call : Caller) : List Expr → List Value → Action (List Value)
  | [], done => pure done.reverse
  | e :: es, done => do
    let v ← Expr.eval call e
    Expr.evalAll call es (v :: done)

end

def iterate (name : String) (body : Action Flow) : List Value → Action Flow
  | [] => pure (.normal .none)
  | v :: vs => fun s =>
    match body { s with scopes := s.scopes.push (Frame.empty.insert name v) } with
    | (result, s) =>
      -- the frame of a round goes away however the round ends
      let s := { s with scopes := s.scopes.pop }
      match result with
      | .done (.normal _) => iterate name body vs s
      | .done (.returned v) => (.done (.returned v), s)
      | .failed e => (.failed e, s)
      | .crashed => (.crashed, s)
      | .cut => (.cut, s)

def repeatWhile (cond : Action Value) (body : Action Flow) : Nat → Action Flow
  | 0 => fun s => (.cut, s)
  | budget + 1 => do
    let v ← cond
    if v.isTruthy then
      match ← body with
      | .normal _ => repeatWhile cond body budget
      | .returned v => return .returned v
    else return .normal .none

mutual

def Stmt.exec (budget : Nat) (call : Caller) : Stmt → Action Flow
  | .declare name _ e => do
    let v ← e.eval call
    Action.declare name v (.normal v)
  | .define name params _ body =>
    Action.declare name (.function ⟨name, params.map Param.name, body⟩) (.normal .none)
  | .ifThen c body => do
    let v ← c.eval call
    if v.isTruthy then Stmt.execAll budget call body .none else return .normal .none
  | .ifElse c yes no => do
    let v ← c.eval call
    if v.isTruthy then Stmt.execAll budget call yes .none else Stmt.execAll budget call no .none
  | .forEach name e body => do
    match ← e.eval call with
    | .array vs => iterate name (Stmt.execAll budget call body .none) vs
    | v => Action.fail e.pos (.notIterable v.ty)
  | .loop c body => repeatWhile (c.eval call) (Stmt.execAll budget call body .none) budget
  | .ret e => do
    let v ← e.eval call
    return .returned v
  | .assign name e => do
    let v ← e.eval call
    Action.assign name v (.normal v)
  | .expr e => do
    let v ← e.eval call
    return .normal v

def Stmt.execAll (budget : Nat) (call : Caller) : List Stmt → Value → Action Flow
  | [], last => pure (.normal last)
  | s :: ss, _ => do
    match ← Stmt.exec budget call s with
    | .normal v => Stmt.execAll budget call ss v
    | .returned v => return .returned v

end

/-- Calls a function, of which at most `limit` may be executed at once. The caller's local frames are
hidden from the body and come back after it. -/
def callFunction (limit : Nat) : Nat → Caller
  | 0 => fun _ _ _ s => (.cut, s)
  | budget + 1 => fun pos f args s =>
    if args.length ≠ f.params.length then
      (.failed ⟨.wrongArguments f.name f.params.length args.length, pos⟩, s)
    else if limit ≤ s.depth then (.failed ⟨.tooDeep limit f.name, pos⟩, s)
    else
      match Stmt.execAll budget (callFunction limit budget) f.body .none
          (s.enter (.ofArguments f.params args)) with
      | (result, inner) =>
        let s := inner.leave s
        match result with
        | .done (.returned v) => (.done v, s)
        | .done (.normal _) => (.done .none, s)
        | .failed e => (.failed e, s)
        | .crashed => (.crashed, s)
        | .cut => (.cut, s)

/-- Runs a program. Its value is that of the last statement, or the one that a `return` outside any
function ends it with. -/
def Program.run (limit budget : Nat) (p : Program) : Action Value := do
  return (← Stmt.execAll budget (callFunction limit budget) p .none).value

end Abacus
