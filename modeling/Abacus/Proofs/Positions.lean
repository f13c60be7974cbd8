import Abacus.Proofs.Preservation

/-!
# Positions of errors

An operation and a call fail without a position. An expression attaches its own position to the errors
that come out of it without one, so the innermost expression is first. Here evaluation is written in
this way and shown to be the evaluation that is told the position beforehand: none of its errors leaves
an expression without a position, and none gets another one further out.
-/

namespace Abacus

structure Failure where
  fault : Fault
  pos : Option Position

namespace Failure

def orPosition (pos : Position) (e : Failure) : Failure := { e with pos := e.pos.or (some pos) }

def ofError (e : RuntimeError) : Failure := ⟨e.fault, some e.pos⟩

end Failure

def Result.placed : Result α → Result (Except Failure α)
  | .done a => .done (.ok a)
  | .failed e => .done (.error (.ofError e))
  | .crashed => .crashed
  | .cut => .cut

abbrev Late := ExceptT Failure Action

namespace Late

def placed (m : Action α) : Late α := fun s =>
  let out := m s
  (out.1.placed, out.2)

def orPosition (pos : Position) (m : Late α) : Late α := m.adapt (Failure.orPosition pos)

def raise (fault : Fault) : Late α := throw ⟨fault, none⟩

def cut : Late α := fun s => (.cut, s)

def check : Except Fault α → Late α
  | .ok a => pure a
  | .error fault => raise fault

def attempt : Except Fault (Option α) → Late α
  | .ok (some a) => pure a
  | .ok none => fun s => (.crashed, s)
  | .error fault => raise fault

def lookup (name : String) : Late Value := fun s =>
  match s.scopes.get? name with
  | some v => (.done (.ok v), s)
  | none => (.done (.error ⟨.undefined name, none⟩), s)

def declare (name : String) (v : Value) (result : α) : Late α := placed (Action.declare name v result)

def assign (name : String) (v : Value) (result : α) : Late α := placed (Action.assign name v result)

def within (f : Frame) (m : Late α) : Late α := fun s =>
  let out := m { s with scopes := s.scopes.push f }
  (out.1, { out.2 with scopes := out.2.scopes.pop })

def inside (f : Frame) (m : Late α) : Late α := fun s =>
  let out := m (s.enter f)
  (out.1, out.2.leave s)

def callBuiltin (b : Builtin) (args : List Value) : Late Value := fun s =>
  let (result, sink) := b.call args s.sink
  attempt result { s with sink }

abbrev Caller := Function → List Value → Late Value

def callValue (call : Late.Caller) (name : String) (callee : Value) (args : List Value) : Late Value :=
  match callee with
  | .function f => call f args
  | .builtin b => callBuiltin b args
  | v => raise (.notCallable name v.ty)

mutual

def eval (call : Late.Caller) : Expr → Late Value
  | .literal pos v => orPosition pos (pure v.value)
  | .var pos name => orPosition pos (lookup name)
  | .unary pos op e => orPosition pos do
    let v ← eval call e
    check (op.apply v)
  | .binary pos op l r => orPosition pos do
    let v ← eval call l
    let w ← eval call r
    check (op.apply v w)
  | .range pos l r => orPosition pos do
    let v ← eval call l
    let w ← eval call r
    attempt (v.bounds w)
  | .call pos name args => orPosition pos do
    let callee ← lookup name
    let vs ← evalAll call args []
    callValue call name callee vs
  | .array pos es => orPosition pos do
    let vs ← evalAll call es []
    return .array vs

def evalAll (call : Late.Caller) : List Expr → List Value → Late (List Value)
  | [], done => pure done.reverse
  | e :: es, done => do
    let v ← eval call e
    evalAll call es (v :: done)

end

def iterate (name : String) (body : Late Flow) : List Value → Late Flow
  | [] => pure (.normal .none)
  | v :: vs => do
    match ← within (Frame.empty.insert name v) body with
    | .normal _ => iterate name body vs
    | .returned v => return .returned v

def repeatWhile (cond : Late Value) (body : Late Flow) : Nat → Late Flow
  | 0 => cut
  | budget + 1 => do
    let v ← cond
    if v.isTruthy then
      match ← body with
      | .normal _ => repeatWhile cond body budget
      | .returned v => return .returned v
    else return .normal .none

mutual

def exec (budget : Nat) (call : Late.Caller) : Stmt → Late Flow
  | .declare name _ e => do
    let v ← eval call e
    declare name v (.normal v)
  | .define name params _ body =>
    declare name (.function ⟨name, params.map Param.name, body⟩) (.normal .none)
  | .ifThen c body => do
    let v ← eval call c
    if v.isTruthy then execAll budget call body .none else return .normal .none
  | .ifElse c yes no => do
    let v ← eval call c
    if v.isTruthy then execAll budget call yes .none else execAll budget call no .none
  | .forEach name e body => do
    match ← eval call e with
    | .array vs => iterate name (execAll budget call body .none) vs
    | v => orPosition e.pos (raise (.notIterable v.ty))
  | .loop c body => repeatWhile (eval call c) (execAll budget call body .none) budget
  | .ret e => do
    let v ← eval call e
    return .returned v
  | .assign name e => do
    let v ← eval call e
    assign name v (.normal v)
  | .expr e => do
    let v ← eval call e
    return .normal v

def execAll (budget : Nat) (call : Late.Caller) : List Stmt → Value → Late Flow
  | [], last => pure (.normal last)
  | s :: ss, _ => do
    match ← exec budget call s with
    | .normal v => execAll budget call ss v
    | .returned v => return .returned v

end

def callFunction (limit : Nat) : Nat → Late.Caller
  | 0 => fun _ _ => cut
  | budget + 1 => fun f args s =>
    if args.length ≠ f.params.length then
      raise (.wrongArguments f.name f.params.length args.length) s
    else if limit ≤ s.depth then raise (.tooDeep limit f.name) s
    else
      let body : Late Value := do
        match ← inside (.ofArguments f.params args)
            (execAll budget (callFunction limit budget) f.body .none) with
        | .returned v => return v
        | .normal _ => return .none
      body s

def run (limit budget : Nat) (p : Program) : Late Value := do
  return (← execAll budget (callFunction limit budget) p .none).value

section Placing

variable {pos : Position}

theorem bind_apply (m : Late α) (f : α → Late β) (s : State) :
    (m >>= f) s = match m s with
      | (.done (.ok a), t) => f a t
      | (.done (.error e), t) => (.done (.error e), t)
      | (.failed e, t) => (.failed e, t)
      | (.crashed, t) => (.crashed, t)
      | (.cut, t) => (.cut, t) := by
  change Action.bind m (ExceptT.bindCont f) s = _
  rw [Action.bind]
  rcases m s with ⟨(_ | _) | _ | _ | _, t⟩ <;> rfl

theorem orPosition_apply (m : Late α) (s : State) :
    orPosition pos m s = match m s with
      | (.done (.ok a), t) => (.done (.ok a), t)
      | (.done (.error e), t) => (.done (.error (e.orPosition pos)), t)
      | (.failed e, t) => (.failed e, t)
      | (.crashed, t) => (.crashed, t)
      | (.cut, t) => (.cut, t) := by
  change Action.bind m _ s = _
  rw [Action.bind]
  rcases m s with ⟨(_ | _) | _ | _ | _, t⟩ <;> rfl

@[simp]
theorem placed_pure (a : α) : placed (pure a) = pure a := rfl

@[simp]
theorem placed_bind (m : Action α) (f : α → Action β) :
    placed (m >>= f) = placed m >>= fun a => placed (f a) := by
  funext s
  rw [bind_apply]
  change ((Action.bind m f s).1.placed, (Action.bind m f s).2) = _
  rw [Action.bind, placed]
  rcases m s with ⟨_ | _ | _ | _, t⟩ <;> rfl

@[simp]
theorem orPosition_bind (m : Late α) (f : α → Late β) :
    orPosition pos (m >>= f) = orPosition pos m >>= fun a => orPosition pos (f a) := by
  funext s
  rw [bind_apply, orPosition_apply, bind_apply, orPosition_apply]
  rcases m s with ⟨(_ | _) | _ | _ | _, t⟩ <;> simp only [orPosition_apply]

@[simp]
theorem orPosition_pure (a : α) : orPosition pos (pure a) = pure a := rfl

@[simp]
theorem orPosition_placed (m : Action α) : orPosition pos (placed m) = placed m := by
  funext s
  rw [orPosition_apply, placed]
  rcases m s with ⟨_ | _ | _ | _, t⟩ <;> rfl

@[simp]
theorem orPosition_check (result : Except Fault α) :
    orPosition pos (check result) = placed (Action.check pos result) := by
  cases result <;> rfl

@[simp]
theorem orPosition_attempt (result : Except Fault (Option α)) :
    orPosition pos (attempt result) = placed (Action.attempt pos result) := by
  rcases result with fault | (_ | a) <;> rfl

@[simp]
theorem orPosition_lookup (name : String) :
    orPosition pos (lookup name) = placed (Action.lookup pos name) := by
  funext s
  rw [orPosition_apply, lookup, placed, Action.lookup]
  cases s.scopes.get? name <;> rfl

@[simp]
theorem orPosition_callBuiltin (b : Builtin) (args : List Value) :
    orPosition pos (callBuiltin b args) = placed (Action.callBuiltin pos b args) := by
  funext s
  rw [orPosition_apply, callBuiltin, placed, Action.callBuiltin]
  rcases b.call args s.sink with ⟨result, sink⟩
  have h : orPosition pos (attempt result) { s with sink }
      = placed (Action.attempt pos result) { s with sink } := by rw [orPosition_attempt]
  rw [orPosition_apply, placed] at h
  exact h

theorem within_placed (f : Frame) (m : Action α) : within f (placed m) = placed (m.within f) := rfl

end Placing

section Evaluation

variable {call : Abacus.Caller} {late : Late.Caller}

/-- The calls of one evaluation are those of the other, before the position of the caller is attached. -/
def Places (call : Abacus.Caller) (late : Late.Caller) : Prop :=
  ∀ pos f args, orPosition pos (late f args) = placed (call pos f args)

theorem orPosition_callValue (h : Places call late) (pos : Position) (name : String) (callee : Value)
    (args : List Value) :
    orPosition pos (callValue late name callee args) =
      placed (Abacus.callValue call pos name callee args) := by
  cases callee with
  | function f => exact h pos f args
  | builtin b => exact orPosition_callBuiltin b args
  | _ => rfl

mutual

theorem eval_eq (h : Places call late) : ∀ e : Expr, eval late e = placed (e.eval call)
  | .literal pos v => by rw [eval, Expr.eval, orPosition_pure, placed_pure]
  | .var pos name => by rw [eval, Expr.eval, orPosition_lookup]
  | .unary pos op e => by
    rw [eval, Expr.eval]
    simp [eval_eq h e]
  | .binary pos op l r => by
    rw [eval, Expr.eval]
    simp [eval_eq h l, eval_eq h r]
  | .range pos l r => by
    rw [eval, Expr.eval]
    simp [eval_eq h l, eval_eq h r]
  | .call pos name args => by
    rw [eval, Expr.eval]
    simp [evalAll_eq h args, orPosition_callValue h]
  | .array pos es => by
    rw [eval, Expr.eval]
    simp [evalAll_eq h es]

theorem evalAll_eq (h : Places call late) :
    ∀ (es : List Expr) (done : List Value), evalAll late es done = placed (Expr.evalAll call es done)
  | [], done => by rw [evalAll, Expr.evalAll, placed_pure]
  | e :: es, done => by
    rw [evalAll, Expr.evalAll, eval_eq h e, placed_bind]
    exact congrArg _ (funext fun v => evalAll_eq h es (v :: done))

end

theorem iterate_placed (name : String) (body : Action Flow) (vs : List Value) :
    iterate name (placed body) vs = placed (Abacus.iterate name body vs) := by
  induction vs with
  | nil => rfl
  | cons v vs ih =>
    rw [iterate, iterate_cons, within_placed, placed_bind]
    refine congrArg _ (funext fun flow => ?_)
    cases flow with
    | normal w => exact ih
    | returned w => rfl

theorem repeatWhile_placed (cond : Action Value) (body : Action Flow) (budget : Nat) :
    repeatWhile (placed cond) (placed body) budget = placed (Abacus.repeatWhile cond body budget) := by
  induction budget with
  | zero => rfl
  | succ budget ih =>
    rw [repeatWhile, Abacus.repeatWhile, placed_bind]
    refine congrArg _ (funext fun v => ?_)
    split
    · rw [placed_bind]
      refine congrArg _ (funext fun flow => ?_)
      cases flow with
      | normal w => exact ih
      | returned w => rfl
    · rfl

mutual

theorem exec_eq (h : Places call late) (budget : Nat) :
    ∀ st : Stmt, exec budget late st = placed (st.exec budget call)
  | .declare name _ e => by
    rw [exec, Stmt.exec, eval_eq h e, placed_bind]
    rfl
  | .define name params _ body => by
    rw [exec, Stmt.exec]
    rfl
  | .ifThen c body => by
    rw [exec, Stmt.exec, eval_eq h c, placed_bind]
    refine congrArg _ (funext fun v => ?_)
    split
    · exact execAll_eq h budget body .none
    · rfl
  | .ifElse c yes no => by
    rw [exec, Stmt.exec, eval_eq h c, placed_bind]
    refine congrArg _ (funext fun v => ?_)
    split
    · exact execAll_eq h budget yes .none
    · exact execAll_eq h budget no .none
  | .forEach name e body => by
    rw [exec, Stmt.exec, eval_eq h e, placed_bind]
    refine congrArg _ (funext fun v => ?_)
    rw [execAll_eq h budget body .none]
    cases v with
    | array vs => exact iterate_placed name _ vs
    | _ => rfl
  | .loop c body => by
    rw [exec, Stmt.exec, eval_eq h c, execAll_eq h budget body .none]
    exact repeatWhile_placed _ _ budget
  | .ret e => by
    rw [exec, Stmt.exec, eval_eq h e, placed_bind]
    rfl
  | .assign name e => by
    rw [exec, Stmt.exec, eval_eq h e, placed_bind]
    rfl
  | .expr e => by
    rw [exec, Stmt.exec, eval_eq h e, placed_bind]
    rfl

theorem execAll_eq (h : Places call late) (budget : Nat) :
    ∀ (ss : List Stmt) (last : Value),
      execAll budget late ss last = placed (Stmt.execAll budget call ss last)
  | [], last => by
    rw [execAll, Stmt.execAll]
    rfl
  | st :: ss, last => by
    rw [execAll, Stmt.execAll, exec_eq h budget st, placed_bind]
    refine congrArg _ (funext fun flow => ?_)
    cases flow with
    | normal v => exact execAll_eq h budget ss v
    | returned v => rfl

end

/-- The body of a function attaches positions to all its errors, so the expression that calls it
attaches its own only to the refusal of the call. -/
theorem callFunction_places (limit budget : Nat) :
    Places (Abacus.callFunction limit budget) (callFunction limit budget) := by
  induction budget with
  | zero => exact fun pos f args => rfl
  | succ budget ih =>
    intro pos f args
    funext s
    rw [placed, callFunction_succ, orPosition_apply, callFunction]
    dsimp only
    by_cases hargs : args.length ≠ f.params.length
    · rw [if_pos hargs, if_pos hargs]
      rfl
    rw [if_neg hargs, if_neg hargs]
    by_cases hdeep : limit ≤ s.depth
    · rw [if_pos hdeep, if_pos hdeep]
      rfl
    -- the errors of the body have positions already, so the caller attaches none
    rw [if_neg hdeep, if_neg hdeep, execAll_eq ih, bind_apply, inside, placed]
    dsimp only
    rcases Stmt.execAll budget (Abacus.callFunction limit budget) f.body .none
      (s.enter (.ofArguments f.params args)) with ⟨(_ | _) | _ | _ | _, t⟩ <;> rfl

/-- Attaching positions on the way out gives the same results, errors and states. -/
theorem run_eq (limit budget : Nat) (p : Program) :
    run limit budget p = placed (p.run limit budget) := by
  rw [run, execAll_eq (callFunction_places limit budget), Program.run, placed_bind]
  rfl

/-- An error that leaves a program has a position, the one it has where the position is known beforehand. -/
theorem run_failed_iff {limit budget : Nat} {p : Program} {s t : State} {e : Failure} :
    run limit budget p s = (.done (.error e), t) ↔
      ∃ err, e = .ofError err ∧ p.run limit budget s = (.failed err, t) := by
  rw [run_eq, placed]
  rcases p.run limit budget s with ⟨_ | err | _ | _, u⟩
  · simp [Result.placed]
  · constructor
    · rintro ⟨⟩
      exact ⟨err, rfl, rfl⟩
    · rintro ⟨_, rfl, ⟨⟩⟩
      rfl
  · simp [Result.placed]
  · simp [Result.placed]

end Evaluation

end Late

end Abacus
