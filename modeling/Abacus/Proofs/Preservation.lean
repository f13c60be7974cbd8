import Abacus.Evaluator
import Abacus.Proofs.Binding

/-!
# What evaluation preserves

A relation between the state before and the state after is kept by evaluation if the elementary steps
keep it. Expressions only write output by themselves; statements also declare and assign names and
execute the rounds of a loop in a frame of their own. Between the two stands the call of a function:
what its body keeps decides what the expression around it keeps.
-/

namespace Abacus

def Action.Keeps (R : State → State → Prop) (m : Action α) : Prop := ∀ s, R s (m s).2

def Caller.Keeps (R : State → State → Prop) (call : Caller) : Prop :=
  ∀ pos f args, (call pos f args).Keeps R

/-- What an expression does to the state without calling a function is related. -/
structure Quiet (R : State → State → Prop) : Prop where
  refl : ∀ s, R s s
  trans : ∀ {s t u}, R s t → R t u → R s u
  output : ∀ s (b : Builtin) args, R s { s with sink := (b.call args s.sink).2 }

structure Stable (R : State → State → Prop) : Prop extends Quiet R where
  declare : ∀ s name v, R s { s with scopes := s.scopes.insert name v }
  assign : ∀ s name v, R s { s with scopes := s.scopes.assign name v }
  round : ∀ {s t f}, R { s with scopes := s.scopes.push f } t → R s { t with scopes := t.scopes.pop }

inductive Stop where
  | error (e : RuntimeError)
  | crash

def Stop.result : Stop → Result α
  | error e => .failed e
  | crash => .crashed

variable {R B : State → State → Prop}

namespace Action

theorem Keeps.bind (hR : Quiet R) {m : Action α} {f : α → Action β} (hm : m.Keeps R)
    (hf : ∀ a, (f a).Keeps R) : (m >>= f).Keeps R := by
  intro s
  have h := hm s
  change R s (Action.bind m f s).2
  rw [Action.bind]
  rcases hout : m s with ⟨result, t⟩
  rw [hout] at h
  cases result with
  | done a => exact hR.trans h (hf a t)
  | failed e => exact h
  | crashed => exact h
  | cut => exact h

theorem bind_eq_stopped {m : Action α} {f : α → Action β} {s t : State} (stop : Stop)
    (h : (m >>= f) s = (stop.result, t)) :
    m s = (stop.result, t) ∨ ∃ a u, m s = (.done a, u) ∧ f a u = (stop.result, t) := by
  change Action.bind m f s = _ at h
  rw [Action.bind] at h
  rcases hout : m s with ⟨result, u⟩
  rw [hout] at h
  cases result with
  | done a => exact .inr ⟨a, u, rfl, h⟩
  | failed e =>
    cases stop with
    | error e' =>
      cases h
      exact .inl rfl
    | crash => cases h
  | crashed =>
    cases stop with
    | error e' => cases h
    | crash =>
      cases h
      exact .inl rfl
  | cut => cases stop <;> cases h

theorem bind_eq_failed {m : Action α} {f : α → Action β} {s t : State} {e : RuntimeError}
    (h : (m >>= f) s = (.failed e, t)) :
    m s = (.failed e, t) ∨ ∃ a u, m s = (.done a, u) ∧ f a u = (.failed e, t) :=
  bind_eq_stopped (.error e) h

theorem bind_eq_done {m : Action α} {f : α → Action β} {s t : State} {b : β}
    (h : (m >>= f) s = (.done b, t)) : ∃ a u, m s = (.done a, u) ∧ f a u = (.done b, t) := by
  change Action.bind m f s = _ at h
  rw [Action.bind] at h
  rcases hout : m s with ⟨result, u⟩
  rw [hout] at h
  cases result with
  | done a => exact ⟨a, u, rfl, h⟩
  | failed e => cases h
  | crashed => cases h
  | cut => cases h

/-- A chain that fails, though its second action cannot, leaves the state as the first left it. -/
theorem Keeps.of_failed {m : Action α} {f : α → Action β} (hm : m.Keeps R)
    (hf : ∀ a u, ∃ b, (f a u).1 = .done b) {s : State} {e : RuntimeError}
    (h : ((m >>= f) s).1 = .failed e) : R s ((m >>= f) s).2 := by
  rcases bind_eq_failed (Prod.ext h rfl) with hms | ⟨a, u, -, hfu⟩
  · have hR := hm s
    rw [hms] at hR
    exact hR
  · obtain ⟨b, hb⟩ := hf a u
    rw [hfu] at hb
    cases hb

theorem keeps_pure (hR : Quiet R) (a : α) : (pure a : Action α).Keeps R := hR.refl

theorem keeps_fail (hR : Quiet R) (pos : Position) (fault : Fault) :
    (fail pos fault : Action α).Keeps R := hR.refl

theorem keeps_check (hR : Quiet R) (pos : Position) (result : Except Fault α) :
    (check pos result).Keeps R := by
  cases result with
  | ok a => exact hR.refl
  | error fault => exact hR.refl

theorem attempt_state (pos : Position) (result : Except Fault (Option α)) (s : State) :
    (attempt pos result s).2 = s := by
  cases result with
  | ok made => cases made <;> rfl
  | error fault => rfl

theorem keeps_attempt (hR : Quiet R) (pos : Position) (result : Except Fault (Option α)) :
    (attempt pos result).Keeps R := by
  intro s
  rw [attempt_state]
  exact hR.refl s

theorem keeps_lookup (hR : Quiet R) (pos : Position) (name : String) : (lookup pos name).Keeps R := by
  intro s
  rw [lookup]
  cases s.scopes.get? name with
  | some v => exact hR.refl s
  | none => exact hR.refl s

theorem keeps_callBuiltin (hR : Quiet R) (pos : Position) (b : Builtin) (args : List Value) :
    (callBuiltin pos b args).Keeps R := by
  intro s
  rw [callBuiltin]
  exact hR.trans (hR.output s b args) (keeps_attempt hR pos _ _)

end Action

open Abacus.Action

theorem callValue_keeps (hR : Quiet R) {call : Caller} (hcall : call.Keeps R) (pos : Position)
    (name : String) (callee : Value) (args : List Value) :
    (callValue call pos name callee args).Keeps R := by
  unfold callValue
  split
  · exact hcall pos _ args
  · exact keeps_callBuiltin hR pos _ args
  · exact keeps_fail hR pos _

mutual

theorem Expr.eval_keeps (hR : Quiet R) {call : Caller} (hcall : call.Keeps R) :
    ∀ e : Expr, (e.eval call).Keeps R
  | .literal _ v => keeps_pure hR v.value
  | .var pos name => keeps_lookup hR pos name
  | .unary pos op e => by
    rw [Expr.eval]
    exact (Expr.eval_keeps hR hcall e).bind hR fun v => keeps_check hR pos _
  | .binary pos op l r => by
    rw [Expr.eval]
    refine (Expr.eval_keeps hR hcall l).bind hR fun v => ?_
    exact (Expr.eval_keeps hR hcall r).bind hR fun w => keeps_check hR pos _
  | .range pos l r => by
    rw [Expr.eval]
    refine (Expr.eval_keeps hR hcall l).bind hR fun v => ?_
    exact (Expr.eval_keeps hR hcall r).bind hR fun w => keeps_attempt hR pos _
  | .call pos name args => by
    rw [Expr.eval]
    refine (keeps_lookup hR pos name).bind hR fun callee => ?_
    exact (Expr.evalAll_keeps hR hcall args []).bind hR fun vs =>
      callValue_keeps hR hcall pos name callee vs
  | .array _ es => by
    rw [Expr.eval]
    exact (Expr.evalAll_keeps hR hcall es []).bind hR fun vs => keeps_pure hR _

theorem Expr.evalAll_keeps (hR : Quiet R) {call : Caller} (hcall : call.Keeps R) :
    ∀ (es : List Expr) (done : List Value), (Expr.evalAll call es done).Keeps R
  | [], done => by
    rw [Expr.evalAll]
    exact keeps_pure hR _
  | e :: es, done => by
    rw [Expr.evalAll]
    exact (Expr.eval_keeps hR hcall e).bind hR fun v => Expr.evalAll_keeps hR hcall es (v :: done)

end

def Action.within (f : Frame) (m : Action α) : Action α := fun s =>
  let out := m { s with scopes := s.scopes.push f }
  (out.1, { out.2 with scopes := out.2.scopes.pop })

theorem iterate_cons (name : String) (body : Action Flow) (v : Value) (vs : List Value) :
    iterate name body (v :: vs) = (do
      match ← body.within (Frame.empty.insert name v) with
      | .normal _ => iterate name body vs
      | .returned v => return .returned v) := by
  funext s
  change _ = Action.bind _ _ s
  rw [iterate, Action.bind, Action.within]
  dsimp only
  rcases body { s with scopes := s.scopes.push (Frame.empty.insert name v) } with
    ⟨(_ | _) | _ | _ | _, t⟩ <;> rfl

theorem Action.Keeps.within (hB : Stable B) {m : Action α} (hm : m.Keeps B) (f : Frame) :
    (m.within f).Keeps B := fun _ => hB.round (hm _)

theorem iterate_keeps_of_within (hR : Quiet R) {body : Action Flow}
    (hround : ∀ f, (body.within f).Keeps R) (name : String) (vs : List Value) :
    (iterate name body vs).Keeps R := by
  induction vs with
  | nil => exact keeps_pure hR _
  | cons v vs ih =>
    rw [iterate_cons]
    refine (hround _).bind hR fun flow => ?_
    cases flow with
    | normal _ => exact ih
    | returned v => exact keeps_pure hR _

theorem iterate_keeps (hB : Stable B) {body : Action Flow} (hbody : body.Keeps B) (name : String)
    (vs : List Value) : (iterate name body vs).Keeps B :=
  iterate_keeps_of_within hB.toQuiet (fun f => hbody.within hB f) name vs

theorem repeatWhile_keeps (hB : Quiet B) {cond : Action Value} {body : Action Flow}
    (hcond : cond.Keeps B) (hbody : body.Keeps B) (rounds : Nat) :
    (repeatWhile cond body rounds).Keeps B := by
  induction rounds with
  | zero => exact hB.refl
  | succ rounds ih =>
    rw [repeatWhile]
    refine hcond.bind hB fun v => ?_
    split
    · refine hbody.bind hB fun flow => ?_
      cases flow with
      | normal _ => exact ih
      | returned v => exact keeps_pure hB _
    · exact keeps_pure hB _

mutual

theorem Stmt.exec_keeps (hB : Stable B) {call : Caller} (hcall : call.Keeps B) (rounds : Nat) :
    ∀ st : Stmt, (st.exec rounds call).Keeps B
  | .declare name _ e => by
    rw [Stmt.exec]
    exact (e.eval_keeps hB.toQuiet hcall).bind hB.toQuiet fun v s => hB.declare s name v
  | .define name params _ body => by
    rw [Stmt.exec]
    exact fun s => hB.declare s name _
  | .ifThen c body => by
    rw [Stmt.exec]
    refine (c.eval_keeps hB.toQuiet hcall).bind hB.toQuiet fun v => ?_
    split
    · exact Stmt.execAll_keeps hB hcall rounds body .none
    · exact keeps_pure hB.toQuiet _
  | .ifElse c yes no => by
    rw [Stmt.exec]
    refine (c.eval_keeps hB.toQuiet hcall).bind hB.toQuiet fun v => ?_
    split
    · exact Stmt.execAll_keeps hB hcall rounds yes .none
    · exact Stmt.execAll_keeps hB hcall rounds no .none
  | .forEach name e body => by
    rw [Stmt.exec]
    refine (e.eval_keeps hB.toQuiet hcall).bind hB.toQuiet fun v => ?_
    split
    · exact iterate_keeps hB (Stmt.execAll_keeps hB hcall rounds body .none) name _
    · exact keeps_fail hB.toQuiet _ _
  | .loop c body => by
    rw [Stmt.exec]
    exact repeatWhile_keeps hB.toQuiet (c.eval_keeps hB.toQuiet hcall)
      (Stmt.execAll_keeps hB hcall rounds body .none) rounds
  | .ret e => by
    rw [Stmt.exec]
    exact (e.eval_keeps hB.toQuiet hcall).bind hB.toQuiet fun v => keeps_pure hB.toQuiet _
  | .assign name e => by
    rw [Stmt.exec]
    exact (e.eval_keeps hB.toQuiet hcall).bind hB.toQuiet fun v s => hB.assign s name v
  | .expr e => by
    rw [Stmt.exec]
    exact (e.eval_keeps hB.toQuiet hcall).bind hB.toQuiet fun v => keeps_pure hB.toQuiet _

theorem Stmt.execAll_keeps (hB : Stable B) {call : Caller} (hcall : call.Keeps B) (rounds : Nat) :
    ∀ (ss : List Stmt) (last : Value), (Stmt.execAll rounds call ss last).Keeps B
  | [], last => by
    rw [Stmt.execAll]
    exact keeps_pure hB.toQuiet _
  | st :: ss, last => by
    rw [Stmt.execAll]
    refine (Stmt.exec_keeps hB hcall rounds st).bind hB.toQuiet fun flow => ?_
    cases flow with
    | normal v => exact Stmt.execAll_keeps hB hcall rounds ss v
    | returned v => exact keeps_pure hB.toQuiet _

end

def Result.ofBody : Result Flow → Result Value
  | .done (.returned v) => .done v
  | .done (.normal _) => .done .none
  | .failed e => .failed e
  | .crashed => .crashed
  | .cut => .cut

theorem callFunction_succ (limit budget : Nat) (pos : Position) (f : Function) (args : List Value)
    (s : State) :
    callFunction limit (budget + 1) pos f args s =
      if args.length ≠ f.params.length then
        (.failed ⟨.wrongArguments f.name f.params.length args.length, pos⟩, s)
      else if limit ≤ s.depth then (.failed ⟨.tooDeep limit f.name, pos⟩, s)
      else
        let out := Stmt.execAll budget (callFunction limit budget) f.body .none
          (s.enter (.ofArguments f.params args))
        (out.1.ofBody, out.2.leave s) := by
  rw [callFunction]
  dsimp only
  rcases Stmt.execAll budget (callFunction limit budget) f.body .none
    (s.enter (.ofArguments f.params args)) with ⟨(_ | _) | _ | _ | _, inner⟩ <;> rfl

/-- A call keeps `R` if `R` is at least as strong as what statements keep, and if what they keep
inside a body gives `R` around it. -/
theorem callFunction_keeps (hR : Quiet R) (hB : Stable B) (hRB : ∀ {s t}, R s t → B s t)
    (hleave : ∀ {s t f}, B (s.enter f) t → R s (t.leave s)) (limit budget : Nat) :
    (callFunction limit budget).Keeps R := by
  induction budget with
  | zero => exact fun pos f args s => hR.refl s
  | succ budget ih =>
    intro pos f args s
    rw [callFunction_succ]
    split
    · exact hR.refl s
    split
    · exact hR.refl s
    -- the body keeps `B` because the calls inside it keep `R`
    have hcall : (callFunction limit budget).Keeps B := fun pos f args s => hRB (ih pos f args s)
    exact hleave (Stmt.execAll_keeps hB hcall budget f.body .none _)

end Abacus
