import Abacus.Proofs.Preservation

/-!
# Two runs side by side

The same program is evaluated from two related states, the second time with at least the budget of the
first. Unless the first run is lost, both end with one result and in related states. What relates the
states is left open; it is asked only that the elementary steps agree on related states and relate
what comes out of them. A run is lost when its budget is spent, or when it ends in an error that the
other run is not held to.
-/

namespace Abacus

def Result.Lost (lost : RuntimeError → Prop) : Result α → Prop
  | .done _ => False
  | .failed e => lost e
  | .crashed => False
  | .cut => True

/-- Unless the first action is lost, the second has its result and leaves a related state. -/
def Action.Mirrored (S : State → State → Prop) (lost : RuntimeError → Prop) (m n : Action α) : Prop :=
  ∀ s t, S s t → (m s).1.Lost lost ∨ ((m s).1 = (n t).1 ∧ S (m s).2 (n t).2)

def Caller.Mirrored (S : State → State → Prop) (lost : RuntimeError → Prop) (call call' : Caller) :
    Prop :=
  ∀ pos f args, Action.Mirrored S lost (call pos f args) (call' pos f args)

/-- Callers related by `R` have bodies related by `S`, and are related again after them. -/
structure Encloses (R S : State → State → Prop) : Prop where
  depth : ∀ {s t}, R s t → s.depth = t.depth
  enter : ∀ {s t}, R s t → ∀ f, S (s.enter f) (t.enter f)
  leave : ∀ {s t s' t'}, R s t → S s' t' → R (s'.leave s) (t'.leave t)

structure Mirror (S : State → State → Prop) (lost : RuntimeError → Prop) : Prop extends
    Encloses S S where
  lookup : ∀ {s t}, S s t → ∀ name, s.scopes.get? name = t.scopes.get? name
  builtin : ∀ pos b args,
    Action.Mirrored S lost (Action.callBuiltin pos b args) (Action.callBuiltin pos b args)
  declare : ∀ {s t}, S s t → ∀ name v,
    S { s with scopes := s.scopes.insert name v } { t with scopes := t.scopes.insert name v }
  assign : ∀ {s t}, S s t → ∀ name v,
    S { s with scopes := s.scopes.assign name v } { t with scopes := t.scopes.assign name v }
  push : ∀ {s t}, S s t → ∀ f,
    S { s with scopes := s.scopes.push f } { t with scopes := t.scopes.push f }
  pop : ∀ {s t}, S s t → S { s with scopes := s.scopes.pop } { t with scopes := t.scopes.pop }

variable {R S : State → State → Prop} {lost : RuntimeError → Prop}

namespace Action

theorem Mirrored.bind {m n : Action α} {f g : α → Action β} (hmn : Mirrored S lost m n)
    (hfg : ∀ a, Mirrored S lost (f a) (g a)) : Mirrored S lost (m >>= f) (n >>= g) := by
  intro s t hst
  have h := hmn s t hst
  change (Action.bind m f s).1.Lost lost ∨
    ((Action.bind m f s).1 = (Action.bind n g t).1 ∧ S (Action.bind m f s).2 (Action.bind n g t).2)
  rw [Action.bind, Action.bind]
  rcases hm : m s with ⟨result, s'⟩
  rcases hn : n t with ⟨result', t'⟩
  rw [hm, hn] at h
  cases result with
  | done a =>
    obtain ⟨rfl, hS⟩ := h.resolve_left id
    exact hfg a s' t' hS
  | failed e =>
    rcases h with h | ⟨rfl, hS⟩
    · exact .inl h
    · exact .inr ⟨rfl, hS⟩
  | crashed =>
    obtain ⟨rfl, hS⟩ := h.resolve_left id
    exact .inr ⟨rfl, hS⟩
  | cut => exact .inl trivial

theorem mirrored_pure (a : α) : Mirrored S lost (pure a) (pure a) :=
  fun _ _ h => .inr ⟨rfl, h⟩

theorem mirrored_fail (pos : Position) (fault : Fault) :
    Mirrored S lost (fail pos fault : Action α) (fail pos fault) :=
  fun _ _ h => .inr ⟨rfl, h⟩

theorem mirrored_check (pos : Position) (result : Except Fault α) :
    Mirrored S lost (check pos result) (check pos result) := by
  intro s t h
  cases result with
  | ok a => exact .inr ⟨rfl, h⟩
  | error fault => exact .inr ⟨rfl, h⟩

theorem mirrored_attempt (pos : Position) (result : Except Fault (Option α)) :
    Mirrored S lost (attempt pos result) (attempt pos result) := by
  intro s t h
  cases result with
  | ok made =>
    cases made with
    | some a => exact .inr ⟨rfl, h⟩
    | none => exact .inr ⟨rfl, h⟩
  | error fault => exact .inr ⟨rfl, h⟩

theorem mirrored_lookup (hS : Mirror S lost) (pos : Position) (name : String) :
    Mirrored S lost (lookup pos name) (lookup pos name) := by
  intro s t h
  rw [lookup, lookup, hS.lookup h name]
  cases t.scopes.get? name with
  | some v => exact .inr ⟨rfl, h⟩
  | none => exact .inr ⟨rfl, h⟩

theorem mirrored_declare (hS : Mirror S lost) (name : String) (v : Value) (result : α) :
    Mirrored S lost (declare name v result) (declare name v result) :=
  fun _ _ h => .inr ⟨rfl, hS.declare h name v⟩

theorem mirrored_assign (hS : Mirror S lost) (name : String) (v : Value) (result : α) :
    Mirrored S lost (assign name v result) (assign name v result) :=
  fun _ _ h => .inr ⟨rfl, hS.assign h name v⟩

theorem Mirrored.within (hS : Mirror S lost) {m n : Action α} (hmn : Mirrored S lost m n) (f : Frame) :
    Mirrored S lost (m.within f) (n.within f) := by
  intro s t h
  rcases hmn _ _ (hS.push h f) with hlost | ⟨hresult, hstate⟩
  · exact .inl hlost
  · exact .inr ⟨hresult, hS.pop hstate⟩

end Action

open Abacus.Action

variable {call call' : Caller}

theorem callValue_mirrored (hS : Mirror S lost) (hcall : call.Mirrored S lost call') (pos : Position)
    (name : String) (callee : Value) (args : List Value) :
    Mirrored S lost (callValue call pos name callee args) (callValue call' pos name callee args) := by
  unfold callValue
  split
  · exact hcall pos _ args
  · exact hS.builtin pos _ args
  · exact mirrored_fail pos _

mutual

theorem Expr.eval_mirrored (hS : Mirror S lost) (hcall : call.Mirrored S lost call') :
    ∀ e : Expr, Mirrored S lost (e.eval call) (e.eval call')
  | .literal _ v => mirrored_pure v.value
  | .var pos name => mirrored_lookup hS pos name
  | .unary pos op e => by
    rw [Expr.eval, Expr.eval]
    exact (Expr.eval_mirrored hS hcall e).bind fun v => mirrored_check pos _
  | .binary pos op l r => by
    rw [Expr.eval, Expr.eval]
    refine (Expr.eval_mirrored hS hcall l).bind fun v => ?_
    exact (Expr.eval_mirrored hS hcall r).bind fun w => mirrored_check pos _
  | .range pos l r => by
    rw [Expr.eval, Expr.eval]
    refine (Expr.eval_mirrored hS hcall l).bind fun v => ?_
    exact (Expr.eval_mirrored hS hcall r).bind fun w => mirrored_attempt pos _
  | .call pos name args => by
    rw [Expr.eval, Expr.eval]
    refine (mirrored_lookup hS pos name).bind fun callee => ?_
    exact (Expr.evalAll_mirrored hS hcall args []).bind fun vs =>
      callValue_mirrored hS hcall pos name callee vs
  | .array _ es => by
    rw [Expr.eval, Expr.eval]
    exact (Expr.evalAll_mirrored hS hcall es []).bind fun vs => mirrored_pure _

theorem Expr.evalAll_mirrored (hS : Mirror S lost) (hcall : call.Mirrored S lost call') :
    ∀ (es : List Expr) (done : List Value),
      Mirrored S lost (Expr.evalAll call es done) (Expr.evalAll call' es done)
  | [], done => by
    rw [Expr.evalAll, Expr.evalAll]
    exact mirrored_pure _
  | e :: es, done => by
    rw [Expr.evalAll, Expr.evalAll]
    exact (Expr.eval_mirrored hS hcall e).bind fun v => Expr.evalAll_mirrored hS hcall es (v :: done)

end

theorem iterate_mirrored (hS : Mirror S lost) {body body' : Action Flow}
    (hbody : Mirrored S lost body body') (name : String) (vs : List Value) :
    Mirrored S lost (iterate name body vs) (iterate name body' vs) := by
  induction vs with
  | nil => exact mirrored_pure _
  | cons v vs ih =>
    rw [iterate_cons, iterate_cons]
    refine (hbody.within hS _).bind fun flow => ?_
    cases flow with
    | normal _ => exact ih
    | returned v => exact mirrored_pure _

theorem repeatWhile_mirrored {cond cond' : Action Value} {body body' : Action Flow}
    (hcond : Mirrored S lost cond cond') (hbody : Mirrored S lost body body') {rounds rounds' : Nat}
    (hle : rounds ≤ rounds') :
    Mirrored S lost (repeatWhile cond body rounds) (repeatWhile cond' body' rounds') := by
  induction rounds generalizing rounds' with
  | zero => exact fun _ _ _ => .inl trivial
  | succ rounds ih =>
    obtain ⟨more, rfl⟩ := Nat.exists_eq_add_of_le hle
    rw [Nat.add_right_comm, repeatWhile, repeatWhile]
    refine hcond.bind fun v => ?_
    split
    · refine hbody.bind fun flow => ?_
      cases flow with
      | normal _ => exact ih (Nat.le_add_right rounds more)
      | returned v => exact mirrored_pure _
    · exact mirrored_pure _

mutual

theorem Stmt.exec_mirrored (hS : Mirror S lost) (hcall : call.Mirrored S lost call')
    {rounds rounds' : Nat} (hle : rounds ≤ rounds') :
    ∀ st : Stmt, Mirrored S lost (st.exec rounds call) (st.exec rounds' call')
  | .declare name _ e => by
    rw [Stmt.exec, Stmt.exec]
    exact (e.eval_mirrored hS hcall).bind fun v => mirrored_declare hS name v _
  | .define name params _ body => by
    rw [Stmt.exec, Stmt.exec]
    exact mirrored_declare hS name _ _
  | .ifThen c body => by
    rw [Stmt.exec, Stmt.exec]
    refine (c.eval_mirrored hS hcall).bind fun v => ?_
    split
    · exact Stmt.execAll_mirrored hS hcall hle body .none
    · exact mirrored_pure _
  | .ifElse c yes no => by
    rw [Stmt.exec, Stmt.exec]
    refine (c.eval_mirrored hS hcall).bind fun v => ?_
    split
    · exact Stmt.execAll_mirrored hS hcall hle yes .none
    · exact Stmt.execAll_mirrored hS hcall hle no .none
  | .forEach name e body => by
    rw [Stmt.exec, Stmt.exec]
    refine (e.eval_mirrored hS hcall).bind fun v => ?_
    split
    · exact iterate_mirrored hS (Stmt.execAll_mirrored hS hcall hle body .none) name _
    · exact mirrored_fail _ _
  | .loop c body => by
    rw [Stmt.exec, Stmt.exec]
    exact repeatWhile_mirrored (c.eval_mirrored hS hcall)
      (Stmt.execAll_mirrored hS hcall hle body .none) hle
  | .ret e => by
    rw [Stmt.exec, Stmt.exec]
    exact (e.eval_mirrored hS hcall).bind fun v => mirrored_pure _
  | .assign name e => by
    rw [Stmt.exec, Stmt.exec]
    exact (e.eval_mirrored hS hcall).bind fun v => mirrored_assign hS name v _
  | .expr e => by
    rw [Stmt.exec, Stmt.exec]
    exact (e.eval_mirrored hS hcall).bind fun v => mirrored_pure _

theorem Stmt.execAll_mirrored (hS : Mirror S lost) (hcall : call.Mirrored S lost call')
    {rounds rounds' : Nat} (hle : rounds ≤ rounds') :
    ∀ (ss : List Stmt) (last : Value),
      Mirrored S lost (Stmt.execAll rounds call ss last) (Stmt.execAll rounds' call' ss last)
  | [], last => by
    rw [Stmt.execAll, Stmt.execAll]
    exact mirrored_pure _
  | st :: ss, last => by
    rw [Stmt.execAll, Stmt.execAll]
    refine (Stmt.exec_mirrored hS hcall hle st).bind fun flow => ?_
    cases flow with
    | normal v => exact Stmt.execAll_mirrored hS hcall hle ss v
    | returned v => exact mirrored_pure _

end

theorem Result.lost_ofBody {result : Result Flow} (h : result.Lost lost) : result.ofBody.Lost lost := by
  cases result with
  | done flow => exact h.elim
  | failed e => exact h
  | crashed => exact h
  | cut => trivial

/-- A lower limit is noticed only in the error it raises. -/
theorem callFunction_succ_mirrored (hR : Encloses R S) {limit limit' budget budget' : Nat}
    (hlimit : limit ≤ limit')
    (hdeep : limit = limit' ∨ ∀ name pos, lost ⟨.tooDeep limit name, pos⟩)
    (hbody : ∀ ss, Mirrored S lost (Stmt.execAll budget (callFunction limit budget) ss .none)
      (Stmt.execAll budget' (callFunction limit' budget') ss .none)) :
    (callFunction limit (budget + 1)).Mirrored R lost (callFunction limit' (budget' + 1)) := by
  intro pos f args s t h
  rw [callFunction_succ, callFunction_succ, ← hR.depth h]
  by_cases hargs : args.length ≠ f.params.length
  · rw [if_pos hargs, if_pos hargs]
    exact .inr ⟨rfl, h⟩
  rw [if_neg hargs, if_neg hargs]
  by_cases hlow : limit ≤ s.depth
  · rw [if_pos hlow]
    rcases hdeep with rfl | hdeep
    · rw [if_pos hlow]
      exact .inr ⟨rfl, h⟩
    · exact .inl (hdeep f.name pos)
  · have hlow' : ¬ limit' ≤ s.depth := fun h => hlow (Nat.le_trans hlimit h)
    rw [if_neg hlow, if_neg hlow']
    rcases hbody f.body _ _ (hR.enter h (.ofArguments f.params args)) with hlost | ⟨hresult, hstate⟩
    · exact .inl (Result.lost_ofBody hlost)
    · exact .inr ⟨congrArg Result.ofBody hresult, hR.leave h hstate⟩

theorem callFunction_mirrored (hS : Mirror S lost) (hR : Encloses R S) {limit limit' : Nat}
    (hlimit : limit ≤ limit')
    (hdeep : limit = limit' ∨ ∀ name pos, lost ⟨.tooDeep limit name, pos⟩) {budget budget' : Nat}
    (hle : budget ≤ budget') :
    (callFunction limit budget).Mirrored R lost (callFunction limit' budget') := by
  -- the callers inside a body are related by `S`, whatever relates the outermost ones
  induction budget generalizing budget' R with
  | zero => exact fun _ _ _ _ _ _ => .inl trivial
  | succ budget ih =>
    obtain ⟨more, rfl⟩ := Nat.exists_eq_add_of_le hle
    rw [Nat.add_right_comm]
    have hle' : budget ≤ budget + more := Nat.le_add_right budget more
    exact callFunction_succ_mirrored hR hlimit hdeep fun ss =>
      Stmt.execAll_mirrored hS (ih hS.toEncloses hle') hle' ss .none

end Abacus
