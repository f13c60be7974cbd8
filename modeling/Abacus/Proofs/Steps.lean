import Abacus.Proofs.Propagation

/-!
# Induction along a run

Besides beginning other points, a point takes steps of its own: it looks names up, applies operators
and built-in functions, binds names and refuses what it cannot do. These steps are listed once, with
what is known when they are taken. A property that all of them have, and that goes through chains of
actions, frames and function bodies, holds of every job at the point where it begins.
-/

namespace Abacus

open Abacus.Action

def Action.inside (f : Frame) (m : Action Flow) : Action Value := fun s =>
  let out := m (s.enter f)
  (out.1.ofBody, out.2.leave s)

theorem Action.inside_eq {m : Action Flow} {f : Frame} {s t : State} {result : Result Flow}
    (h : m (s.enter f) = (result, t)) : m.inside f s = (result.ofBody, t.leave s) := by
  rw [inside, h]

/-- The steps that a point takes by itself, each with the state in which it is taken. -/
inductive Own (limit : Nat) : Point → {α : Type} → Action α → State → Prop
  | name {active pos name s} : Own limit ⟨active, .expr (.var pos name), s⟩ (lookup pos name) s
  | unary {active pos op e s v t} : Job.Ends limit (.expr e) s (.done (.normal v)) t →
      Own limit ⟨active, .expr (.unary pos op e), s⟩ (check pos (op.apply v)) t
  | binary {active pos op l r s v t w u} : Job.Ends limit (.expr l) s (.done (.normal v)) t →
      Job.Ends limit (.expr r) t (.done (.normal w)) u →
      Own limit ⟨active, .expr (.binary pos op l r), s⟩ (check pos (op.apply v w)) u
  | range {active pos l r s v t w u} : Job.Ends limit (.expr l) s (.done (.normal v)) t →
      Job.Ends limit (.expr r) t (.done (.normal w)) u →
      Own limit ⟨active, .expr (.range pos l r), s⟩ (attempt pos (v.bounds w)) u
  | callee {active pos name args s} :
      Own limit ⟨active, .expr (.call pos name args), s⟩ (lookup pos name) s
  | builtin {active pos name args s b vs t} : s.scopes.get? name = some (.builtin b) →
      Job.Ends limit (.exprs args []) s (.done (.normal (.array vs))) t →
      Own limit ⟨active, .expr (.call pos name args), s⟩ (callBuiltin pos b vs) t
  | notCallable {active pos name args s v vs t} : s.scopes.get? name = some v →
      (∀ f, v ≠ .function f) → (∀ b, v ≠ .builtin b) →
      Job.Ends limit (.exprs args []) s (.done (.normal (.array vs))) t →
      Own limit ⟨active, .expr (.call pos name args), s⟩
        (fail pos (.notCallable name v.ty) : Action Value) t
  | wrongArguments {active pos f args s} : args.length ≠ f.params.length →
      Own limit ⟨active, .call pos f args, s⟩
        (fail pos (.wrongArguments f.name f.params.length args.length) : Action Value) s
  | tooDeep {active pos f args s} : args.length = f.params.length → limit ≤ s.depth →
      Own limit ⟨active, .call pos f args, s⟩ (fail pos (.tooDeep limit f.name) : Action Value) s
  | declare {active name type e s v t} : Job.Ends limit (.expr e) s (.done (.normal v)) t →
      Own limit ⟨active, .stmt (.declare name type e), s⟩ (declare name v (Flow.normal v)) t
  | define {active name params type body s} :
      Own limit ⟨active, .stmt (.define name params type body), s⟩
        (declare name (.function ⟨name, params.map Param.name, body⟩) (Flow.normal .none)) s
  | assign {active name e s v t} : Job.Ends limit (.expr e) s (.done (.normal v)) t →
      Own limit ⟨active, .stmt (.assign name e), s⟩ (Action.assign name v (Flow.normal v)) t
  | notIterable {active name e body s v t} : Job.Ends limit (.expr e) s (.done (.normal v)) t →
      (∀ vs, v ≠ .array vs) →
      Own limit ⟨active, .stmt (.forEach name e body), s⟩
        (fail e.pos (.notIterable v.ty) : Action Flow) t

/-- A property of actions that a point takes from a state on, which holds all along a run. -/
structure Along (limit : Nat) (E : Point → {α : Type} → Action α → State → Prop) : Prop where
  own : ∀ {p : Point} {α : Type} {m : Action α} {s : State}, Own limit p m s → E p m s
  starts : ∀ {p q : Point} {α : Type} {m : Action α}, Starts limit p q → E q m q.state →
    E p m q.state
  done : ∀ {p : Point} {α : Type} {s : State} (a : α), E p (pure a : Action α) s
  cut : ∀ {p : Point} {α : Type} {s : State}, E p (fun s => (.cut, s) : Action α) s
  bind : ∀ {p : Point} {α β : Type} {m : Action α} {f : α → Action β} {s : State}, E p m s →
    (∀ a t, m s = (.done a, t) → E p (f a) t) → E p (m >>= f) s
  within : ∀ {p : Point} {α : Type} {m : Action α} {s : State} {frame : Frame},
    E p m { s with scopes := s.scopes.push frame } → E p (m.within frame) s
  inside : ∀ {p : Point} {m : Action Flow} {s : State} {frame : Frame},
    E p m (s.enter frame) → E p (m.inside frame) s
  congr : ∀ {p : Point} {α : Type} {m n : Action α} {s : State},
    (∀ sink, m { s with sink } = n { s with sink }) → E p m s → E p n s

section Failure

variable {limit : Nat} {Q : Point → Stop → Prop} {p : Point} {s : State}

/-- If the action stops in `s`, with an error or in a crash, then `Q` holds of `p` and that. -/
def Blames (Q : Point → Stop → Prop) (p : Point) (m : Action α) (s : State) : Prop :=
  ∀ stop t, m s = (stop.result, t) → Q p stop

theorem Blames.bind {m : Action α} {f : α → Action β} (hm : Blames Q p m s)
    (hf : ∀ a t, m s = (.done a, t) → Blames Q p (f a) t) : Blames Q p (m >>= f) s := by
  intro stop u hrun
  rcases bind_eq_stopped stop hrun with hstopped | ⟨a, t, hdone, hstopped⟩
  · exact hm stop u hstopped
  · exact hf a t hdone stop u hstopped

theorem Blames.within {m : Action α} {frame : Frame}
    (hm : Blames Q p m { s with scopes := s.scopes.push frame }) : Blames Q p (m.within frame) s := by
  intro stop t hrun
  have hstopped : (m { s with scopes := s.scopes.push frame }).1 = stop.result :=
    congrArg Prod.fst hrun
  exact hm stop _ (Prod.ext hstopped rfl)

theorem Result.stopped_of_ofBody {result : Result Flow} {stop : Stop}
    (h : result.ofBody = stop.result) : result = stop.result := by
  cases result with
  | done flow => cases flow <;> cases stop <;> cases h
  | failed e =>
    cases stop with
    | error e' => exact congrArg Result.failed (Result.failed.inj h)
    | crash => cases h
  | crashed =>
    cases stop with
    | error e => cases h
    | crash => rfl
  | cut => cases stop <;> cases h

theorem Blames.inside {m : Action Flow} {frame : Frame} (hm : Blames Q p m (s.enter frame)) :
    Blames Q p (m.inside frame) s := by
  intro stop t hrun
  have hstopped := Result.stopped_of_ofBody (congrArg Prod.fst hrun)
  exact hm stop _ (Prod.ext hstopped rfl)

theorem blames_pure (a : α) : Blames Q p (pure a : Action α) s := by
  intro stop t hrun
  cases stop <;> cases hrun

theorem blames_declare (name : String) (v : Value) (a : α) : Blames Q p (declare name v a) s := by
  intro stop t hrun
  cases stop <;> cases hrun

theorem blames_assign (name : String) (v : Value) (a : α) :
    Blames Q p (Action.assign name v a) s := by
  intro stop t hrun
  cases stop <;> cases hrun

theorem blames_fail {pos : Position} {fault : Fault} (h : Q p (.error ⟨fault, pos⟩)) :
    Blames Q p (fail pos fault : Action α) s := by
  intro stop t hrun
  rw [error_of_fail hrun]
  exact h

/-- What is known of an end when a point comes to it by itself, and is passed on to the points around,
is known of every end without a value. -/
theorem blames_along
    (hown : ∀ {p : Point} {α : Type} {m : Action α} {s : State}, Own limit p m s → Blames Q p m s)
    (hstarts : ∀ {p q : Point} {stop : Stop}, Starts limit p q → Q q stop → Q p stop) :
    Along limit (fun p {_} m s => Blames Q p m s) where
  own := hown
  starts h hq stop t hrun := hstarts h (hq stop t hrun)
  done := blames_pure
  cut stop t hrun := by cases stop <;> cases hrun
  bind := Blames.bind
  within := Blames.within
  inside := Blames.inside
  congr := by
    intro p α m n s hmn hm stop t hrun
    exact hm stop t ((hmn s.sink).trans hrun)

end Failure

section Ends

variable {limit budget : Nat} {s t : State}

theorem Job.ends_expr {x : Expr} {v : Value}
    (h : x.eval (callFunction limit budget) s = (.done v, t)) :
    (Job.expr x).Ends limit s (.done (.normal v)) t :=
  ends_of_done (run_expr_done.mpr h)

theorem Job.ends_exprs {xs : List Expr} {done vs : List Value}
    (h : Expr.evalAll (callFunction limit budget) xs done s = (.done vs, t)) :
    (Job.exprs xs done).Ends limit s (.done (.normal (.array vs))) t :=
  ends_of_done (run_exprs_done.mpr h)

end Ends

section Induction

variable {limit budget : Nat} {E : Point → {α : Type} → Action α → State → Prop}

def CallsAlong (limit budget : Nat) (E : Point → {α : Type} → Action α → State → Prop) : Prop :=
  ∀ active pos f args s, E ⟨active, .call pos f args, s⟩ (callFunction limit budget pos f args) s

mutual

theorem Expr.eval_along (hE : Along limit E) (hcall : CallsAlong limit budget E)
    (active : List Function) :
    ∀ (x : Expr) (s : State), E ⟨active, .expr x, s⟩ (x.eval (callFunction limit budget)) s
  | .literal _ v, s => hE.done v.value
  | .var pos name, s => hE.own .name
  | .unary pos op x, s => by
    rw [Expr.eval]
    refine hE.bind (hE.starts .operand (Expr.eval_along hE hcall active x s)) fun v t hv => ?_
    exact hE.own (.unary (Job.ends_expr hv))
  | .binary pos op l r, s => by
    rw [Expr.eval]
    refine hE.bind (hE.starts .left (Expr.eval_along hE hcall active l s)) fun v t hv => ?_
    have hl := Job.ends_expr hv
    refine hE.bind (hE.starts (.right hl) (Expr.eval_along hE hcall active r t)) fun w u hw => ?_
    exact hE.own (.binary hl (Job.ends_expr hw))
  | .range pos l r, s => by
    rw [Expr.eval]
    refine hE.bind (hE.starts .lower (Expr.eval_along hE hcall active l s)) fun v t hv => ?_
    have hl := Job.ends_expr hv
    refine hE.bind (hE.starts (.upper hl) (Expr.eval_along hE hcall active r t)) fun w u hw => ?_
    exact hE.own (.range hl (Job.ends_expr hw))
  | .call pos name args, s => by
    rw [Expr.eval]
    refine hE.bind (hE.own .callee) fun callee t hlookup => ?_
    obtain ⟨hcallee, rfl⟩ := bound_of_lookup hlookup
    have hargs := Expr.evalAll_along hE hcall active args [] s
    refine hE.bind (hE.starts (.arguments hcallee) hargs) fun vs t hvs => ?_
    have hends := Job.ends_exprs hvs
    unfold callValue
    split
    · exact hE.starts (.call hcallee hends) (hcall active pos _ vs t)
    · exact hE.own (.builtin hcallee hends)
    · rename_i hfunction hbuiltin
      exact hE.own (.notCallable hcallee hfunction hbuiltin hends)
  | .array pos xs, s => by
    rw [Expr.eval]
    refine hE.bind (hE.starts .elements (Expr.evalAll_along hE hcall active xs [] s)) fun vs t _ => ?_
    exact hE.done _

theorem Expr.evalAll_along (hE : Along limit E) (hcall : CallsAlong limit budget E)
    (active : List Function) :
    ∀ (xs : List Expr) (done : List Value) (s : State),
      E ⟨active, .exprs xs done, s⟩ (Expr.evalAll (callFunction limit budget) xs done) s
  | [], done, s => by
    rw [Expr.evalAll]
    exact hE.done _
  | x :: xs, done, s => by
    rw [Expr.evalAll]
    refine hE.bind (hE.starts .head (Expr.eval_along hE hcall active x s)) fun v t hv => ?_
    exact hE.starts (.tail (Job.ends_expr hv)) (Expr.evalAll_along hE hcall active xs (v :: done) t)

end

def BodyAlong (limit budget : Nat) (E : Point → {α : Type} → Action α → State → Prop)
    (active : List Function) (body : List Stmt) : Prop :=
  ∀ s, E ⟨active, .block body .none, s⟩
    (Stmt.execAll budget (callFunction limit budget) body .none) s

theorem iterate_along (hE : Along limit E) {active : List Function} {body : List Stmt}
    (hbody : BodyAlong limit budget E active body) (name : String) (vs : List Value) (s : State) :
    E ⟨active, .rounds name body vs, s⟩
      (iterate name (Stmt.execAll budget (callFunction limit budget) body .none) vs) s := by
  induction vs generalizing s with
  | nil => exact hE.done _
  | cons v vs ih =>
    rw [iterate_cons]
    refine hE.bind (hE.within (hE.starts .round (hbody _))) fun flow t hround => ?_
    cases flow with
    | normal w =>
      obtain ⟨u, hdone, rfl⟩ := done_of_within hround
      exact hE.starts (.nextRound (Job.ends_of_done hdone)) (ih _)
    | returned w => exact hE.done _

theorem repeatWhile_along (hE : Along limit E) {active : List Function} {c : Expr} {body : List Stmt}
    (hcall : CallsAlong limit budget E) (hbody : BodyAlong limit budget E active body) (rounds : Nat)
    (s : State) :
    E ⟨active, .stmt (.loop c body), s⟩
      (repeatWhile (c.eval (callFunction limit budget))
        (Stmt.execAll budget (callFunction limit budget) body .none) rounds) s := by
  induction rounds generalizing s with
  | zero => exact hE.cut
  | succ rounds ih =>
    rw [repeatWhile]
    refine hE.bind (hE.starts (.subject rfl) (c.eval_along hE hcall active s)) fun v t hv => ?_
    have hcond := Job.ends_expr hv
    split
    · rename_i htruth
      have hbranch : Stmt.branch? (.loop c body) v.isTruthy = some body := by
        rw [htruth]
        rfl
      refine hE.bind (hE.starts (.branch rfl hcond hbranch) (hbody t)) fun flow u hflow => ?_
      cases flow with
      | normal w =>
        -- the rounds that are left are the same loop, begun in another state
        exact hE.starts (.again hcond htruth (Job.ends_of_done hflow)) (ih u)
      | returned w => exact hE.done _
    · exact hE.done _

theorem branch_along (hE : Along limit E) {active : List Function} {st : Stmt} {c : Expr}
    {body : List Stmt} {v : Value} {s t : State} (hbody : BodyAlong limit budget E active body)
    (hc : st.subject? = some c) (hv : c.eval (callFunction limit budget) s = (.done v, t))
    (hbranch : st.branch? v.isTruthy = some body) :
    E ⟨active, .stmt st, s⟩ (Stmt.execAll budget (callFunction limit budget) body .none) t :=
  hE.starts (.branch hc (Job.ends_expr hv) hbranch) (hbody t)

mutual

theorem Stmt.exec_along (hE : Along limit E) (hcall : CallsAlong limit budget E)
    (active : List Function) :
    ∀ (st : Stmt) (s : State), E ⟨active, .stmt st, s⟩ (st.exec budget (callFunction limit budget)) s
  | .declare name _ x, s => by
    rw [Stmt.exec]
    refine hE.bind (hE.starts (.subject rfl) (x.eval_along hE hcall active s)) fun v t hv => ?_
    exact hE.own (.declare (Job.ends_expr hv))
  | .define name params _ body, s => by
    rw [Stmt.exec]
    exact hE.own .define
  | .ifThen c body, s => by
    rw [Stmt.exec]
    refine hE.bind (hE.starts (.subject rfl) (c.eval_along hE hcall active s)) fun v t hv => ?_
    split
    · rename_i htruth
      refine branch_along hE (Stmt.execAll_along hE hcall active body .none) rfl hv ?_
      rw [htruth]
      rfl
    · exact hE.done _
  | .ifElse c yes no, s => by
    rw [Stmt.exec]
    refine hE.bind (hE.starts (.subject rfl) (c.eval_along hE hcall active s)) fun v t hv => ?_
    split
    · rename_i htruth
      refine branch_along hE (Stmt.execAll_along hE hcall active yes .none) rfl hv ?_
      rw [htruth]
      rfl
    · rename_i hfalse
      refine branch_along hE (Stmt.execAll_along hE hcall active no .none) rfl hv ?_
      rw [Bool.not_eq_true] at hfalse
      rw [hfalse]
      rfl
  | .forEach name x body, s => by
    rw [Stmt.exec]
    refine hE.bind (hE.starts (.subject rfl) (x.eval_along hE hcall active s)) fun v t hv => ?_
    have hvalues := Job.ends_expr hv
    split
    · have hbody := Stmt.execAll_along hE hcall active body .none
      exact hE.starts (.traverse hvalues) (iterate_along hE hbody name _ t)
    · rename_i harray
      exact hE.own (.notIterable hvalues harray)
  | .loop c body, s => by
    rw [Stmt.exec]
    exact repeatWhile_along hE hcall (Stmt.execAll_along hE hcall active body .none) budget s
  | .ret x, s => by
    rw [Stmt.exec]
    refine hE.bind (hE.starts (.subject rfl) (x.eval_along hE hcall active s)) fun v t _ => ?_
    exact hE.done _
  | .assign name x, s => by
    rw [Stmt.exec]
    refine hE.bind (hE.starts (.subject rfl) (x.eval_along hE hcall active s)) fun v t hv => ?_
    exact hE.own (.assign (Job.ends_expr hv))
  | .expr x, s => by
    rw [Stmt.exec]
    refine hE.bind (hE.starts (.subject rfl) (x.eval_along hE hcall active s)) fun v t _ => ?_
    exact hE.done _

theorem Stmt.execAll_along (hE : Along limit E) (hcall : CallsAlong limit budget E)
    (active : List Function) :
    ∀ (ss : List Stmt) (last : Value) (s : State),
      E ⟨active, .block ss last, s⟩ (Stmt.execAll budget (callFunction limit budget) ss last) s
  | [], last, s => by
    rw [Stmt.execAll]
    exact hE.done _
  | st :: ss, last, s => by
    rw [Stmt.execAll]
    refine hE.bind (hE.starts .statement (Stmt.exec_along hE hcall active st s)) fun flow t hflow => ?_
    cases flow with
    | normal v =>
      exact hE.starts (.rest (Job.ends_of_done hflow)) (Stmt.execAll_along hE hcall active ss v t)
    | returned v => exact hE.done _

end

theorem callFunction_along (hE : Along limit E) (budget : Nat) : CallsAlong limit budget E := by
  induction budget with
  | zero =>
    intro active pos f args s
    exact hE.cut
  | succ budget ih =>
    intro active pos f args s
    by_cases hargs : args.length = f.params.length
    · by_cases hdeep : limit ≤ s.depth
      · refine hE.congr (fun sink => ?_) (hE.own (.tooDeep hargs hdeep))
        rw [callFunction_succ, if_neg (fun h => h hargs), if_pos hdeep]
        rfl
      · -- the calls inside the body have the smaller budget
        have hbody := Stmt.execAll_along hE ih (f :: active) f.body .none
          (s.enter (.ofArguments f.params args))
        have henter : Starts limit ⟨active, .call pos f args, s⟩
            ⟨f :: active, .block f.body .none, s.enter (.ofArguments f.params args)⟩ :=
          .enter hargs (Nat.not_le.mp hdeep)
        refine hE.congr (fun sink => ?_) (hE.inside (hE.starts henter hbody))
        rw [callFunction_succ, if_neg (fun h => h hargs), if_neg hdeep]
        rfl
    · refine hE.congr (fun sink => ?_) (hE.own (.wrongArguments hargs))
      rw [callFunction_succ, if_pos hargs]
      rfl

theorem Along.program (hE : Along limit E) (budget : Nat) (p : Program) (s : State) :
    E (p.start s) (p.run limit budget) s := by
  have hcall := callFunction_along hE budget
  exact hE.bind (Stmt.execAll_along hE hcall [] p .none s) fun flow t _ => hE.done flow.value

end Induction

end Abacus
