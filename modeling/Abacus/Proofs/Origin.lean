import Abacus.Proofs.CallDepth

/-!
# Where errors and crashes come from

An expression raises an error when its own step fails: its name is not bound, its operator or its
built-in function has no result for the values, its bounds are no integers, or its call is refused. A
`for` loop raises one for the expression it goes through. Every error of a run is raised at a point of
the run and reported at the position of that expression, and after it no more is done than to give the
frames around that point back. A crash comes from an expression that builds a range, with `..` or with
`range`, for which there is no room.
-/

namespace Abacus

open Abacus.Action

/-- The own step of an expression that is evaluated in `s` fails, and leaves the state `t`. A call looks
its function up before its arguments; every other step comes when all parts have their values. -/
inductive Expr.Raises (limit : Nat) (s : State) : Expr → Fault → State → Prop
  | name {pos name} : s.scopes.get? name = none →
      Raises limit s (.var pos name) (.undefined name) s
  | unary {pos op x v t fault} : Job.Ends limit (.expr x) s (.done (.normal v)) t →
      op.apply v = .error fault → Raises limit s (.unary pos op x) fault t
  | binary {pos op l r v t w u fault} : Job.Ends limit (.expr l) s (.done (.normal v)) t →
      Job.Ends limit (.expr r) t (.done (.normal w)) u → op.apply v w = .error fault →
      Raises limit s (.binary pos op l r) fault u
  | range {pos l r v t w u fault} : Job.Ends limit (.expr l) s (.done (.normal v)) t →
      Job.Ends limit (.expr r) t (.done (.normal w)) u → v.bounds w = .error fault →
      Raises limit s (.range pos l r) fault u
  | callee {pos name args} : s.scopes.get? name = none →
      Raises limit s (.call pos name args) (.undefined name) s
  | builtin {pos name args b vs t fault sink} : s.scopes.get? name = some (.builtin b) →
      Job.Ends limit (.exprs args []) s (.done (.normal (.array vs))) t →
      b.call vs t.sink = (.error fault, sink) →
      Raises limit s (.call pos name args) fault { t with sink }
  | notCallable {pos name args v vs t} : s.scopes.get? name = some v →
      (∀ f, v ≠ .function f) → (∀ b, v ≠ .builtin b) →
      Job.Ends limit (.exprs args []) s (.done (.normal (.array vs))) t →
      Raises limit s (.call pos name args) (.notCallable name v.ty) t
  | refused {pos name args f vs t fault} : s.scopes.get? name = some (.function f) →
      Job.Ends limit (.exprs args []) s (.done (.normal (.array vs))) t →
      Refusal limit f vs t fault → Raises limit s (.call pos name args) fault t

inductive Raises (limit : Nat) : Point → Expr → Fault → State → Prop
  | expr {active x s fault t} : x.Raises limit s fault t →
      Raises limit ⟨active, .expr x, s⟩ x fault t
  | values {active name x body s v t} : Job.Ends limit (.expr x) s (.done (.normal v)) t →
      (∀ vs, v ≠ .array vs) →
      Raises limit ⟨active, .stmt (.forEach name x body), s⟩ x (.notIterable v.ty) t

/-- The own step of an expression that is evaluated in `s` is to build a range that there is no room for.
It leaves the state `t`. -/
inductive Expr.Exhausts (limit : Nat) (s : State) : Expr → State → Prop
  | range {pos l r m t n u} : Job.Ends limit (.expr l) s (.done (.normal (.int m))) t →
      Job.Ends limit (.expr r) t (.done (.normal (.int n))) u →
      (Value.maxElements : Int) < n.toInt - m.toInt → Exhausts limit s (.range pos l r) u
  | builtin {pos name args vs m n t} : s.scopes.get? name = some (.builtin .range) →
      Job.Ends limit (.exprs args []) s (.done (.normal (.array vs))) t → Builtin.Asks vs m n →
      (Value.maxElements : Int) < n.toInt - m.toInt → Exhausts limit s (.call pos name args) t

section Upward

variable {limit : Nat} {s t u : State} {p q : Point} {x : Expr} {fault : Fault} {e : RuntimeError}

open Job

theorem Expr.Raises.ends (h : x.Raises limit s fault t) :
    (Job.expr x).Ends limit s (.failed ⟨fault, x.pos⟩) t := by
  cases h with
  | @name pos name hunbound =>
    have key : (Expr.var pos name).eval (callFunction limit 0) s = (.failed ⟨.undefined name, pos⟩, s) := by
      rw [Expr.eval]
      exact lookup_of_unbound hunbound
    exact stops_expr (.error _) key
  | unary hx hfault =>
    obtain ⟨-, budget, hv⟩ := hx
    apply stops_expr (.error _)
    rw [Expr.eval, bind_of_done (run_expr_done.mp hv), hfault]
    rfl
  | binary hl hr hfault | range hl hr hfault =>
    obtain ⟨budget, hv, hw⟩ := hl.and hr
    apply stops_expr (.error _)
    rw [Expr.eval, bind_of_done (run_expr_done.mp hv),
      bind_of_done (run_expr_done.mp hw), hfault]
    rfl
  | @callee pos name args hunbound =>
    have key : (Expr.call pos name args).eval (callFunction limit 0) s =
        (.failed ⟨.undefined name, pos⟩, s) := by
      rw [Expr.eval]
      exact bind_of_failed (lookup_of_unbound hunbound)
    exact stops_expr (.error _) key
  | builtin hcallee hargs hcall =>
    obtain ⟨-, budget, hvs⟩ := hargs
    apply stops_expr (.error _)
    rw [Expr.eval, bind_of_done (lookup_of_bound hcallee),
      bind_of_done (run_exprs_done.mp hvs), callValue, callBuiltin, hcall]
    rfl
  | @notCallable pos name args v vs t hcallee hfunction hbuiltin hargs =>
    obtain ⟨-, budget, hvs⟩ := hargs
    apply stops_expr (.error _)
    rw [Expr.eval, bind_of_done (lookup_of_bound hcallee),
      bind_of_done (run_exprs_done.mp hvs)]
    cases v with
    | function f => exact absurd rfl (hfunction f)
    | builtin b => exact absurd rfl (hbuiltin b)
    | _ => rfl
  | @refused pos name args f vs t fault hcallee hargs hrefusal =>
    have hstarts : Starts limit ⟨[], .expr (.call pos name args), s⟩ ⟨[], .call pos f vs, t⟩ :=
      .call hcallee hargs
    exact hstarts.ends (hrefusal.ends pos)

theorem Raises.ends (h : Raises limit q x fault u) :
    q.job.Ends limit q.state (.failed ⟨fault, x.pos⟩) u := by
  cases h with
  | expr hx => exact hx.ends
  | @values active name x body s v t hx harray =>
    obtain ⟨-, budget, hv⟩ := hx
    apply ends_of_failed
    rw [Job.run, Stmt.exec, bind_of_done (run_expr_done.mp hv)]
    cases v with
    | array vs => exact absurd rfl (harray vs)
    | _ => rfl

theorem Expr.Exhausts.ends (h : x.Exhausts limit s t) : (Job.expr x).Ends limit s .crashed t := by
  cases h with
  | range hl hr hlarge =>
    obtain ⟨budget, hv, hw⟩ := hl.and hr
    have hnone := Value.bounds_eq_none_iff.mpr ⟨_, _, rfl, rfl, hlarge⟩
    apply stops_expr .crash
    rw [Expr.eval, bind_of_done (run_expr_done.mp hv),
      bind_of_done (run_expr_done.mp hw), hnone]
    rfl
  | @builtin pos name args vs m n t hcallee hargs hasks hlarge =>
    obtain ⟨-, budget, hvs⟩ := hargs
    have hrange := Builtin.callRange_eq_none_iff.mpr ⟨m, n, hasks, hlarge⟩
    have hnone : Builtin.range.call vs t.sink = _ := Builtin.call_eq_none_iff.mpr ⟨rfl, hrange, rfl⟩
    apply stops_expr .crash
    rw [Expr.eval, bind_of_done (lookup_of_bound hcallee),
      bind_of_done (run_exprs_done.mp hvs), callValue, callBuiltin, hnone]
    rfl

/-- An error that leaves `q` in the state `u` leaves a point that reaches `q` in the state `t`. -/
inductive Unwinds (limit : Nat) (q : Point) (u : State) : Point → State → Prop
  | here : Unwinds limit q u q u
  | out {p r t} : Starts limit p r → Unwinds limit q u r t → Unwinds limit q u p (p.unwind r t)

theorem Reaches.unwinds (h : Reaches limit p q) (u : State) : ∃ t, Unwinds limit q u p t := by
  induction h using Relation.ReflTransGen.head_induction_on with
  | refl => exact ⟨u, .here⟩
  | head hstarts _ ih =>
    obtain ⟨t, hunwinds⟩ := ih
    exact ⟨_, .out hstarts hunwinds⟩

theorem Unwinds.ends (h : Unwinds limit q u p t) (hq : q.job.Ends limit q.state (.failed e) u) :
    p.job.Ends limit p.state (.failed e) t := by
  induction h with
  | here => exact hq
  | out hstarts _ ih => exact hstarts.ends ih

end Upward

section Downward

variable {limit : Nat} {p q : Point} {s : State} {stop : Stop}

/-- An error or a crash that comes from a point reached from `p`. If `p` is itself a call that is refused,
then the error is raised by the expression that makes the call. -/
inductive Traced (limit : Nat) : Point → Stop → Prop
  | raised {p q x fault u} : Reaches limit p q → Raises limit q x fault u →
      Traced limit p (.error ⟨fault, x.pos⟩)
  | refused {active pos f args s fault} : Refusal limit f args s fault →
      Traced limit ⟨active, .call pos f args, s⟩ (.error ⟨fault, pos⟩)
  | exhausted {p active x s t} : Reaches limit p ⟨active, .expr x, s⟩ → x.Exhausts limit s t →
      Traced limit p .crash

theorem Traced.of_starts (h : Starts limit p q) (hq : Traced limit q stop) : Traced limit p stop := by
  cases hq with
  | raised hreaches hraises => exact .raised (.head h hreaches) hraises
  | refused hrefusal =>
    -- nothing but the expression that makes a call begins it
    cases h with
    | call hcallee hargs => exact .raised .refl (.expr (.refused hcallee hargs hrefusal))
  | exhausted hreaches hexhausts => exact .exhausted (.head h hreaches) hexhausts

theorem traced_own {m : Action α} (h : Own limit p m s) : Blames (Traced limit) p m s := by
  intro stop t hrun
  cases h with
  | name =>
    obtain ⟨hunbound, rfl⟩ := unbound_of_lookup hrun
    exact .raised .refl (.expr (.name hunbound))
  | unary hx =>
    obtain ⟨fault, hfault, rfl⟩ := error_of_check hrun
    exact .raised .refl (.expr (.unary hx hfault))
  | binary hl hr =>
    obtain ⟨fault, hfault, rfl⟩ := error_of_check hrun
    exact .raised .refl (.expr (.binary hl hr hfault))
  | range hl hr =>
    rcases stop_of_attempt hrun with ⟨fault, hfault, rfl⟩ | ⟨hnone, rfl⟩
    · exact .raised .refl (.expr (.range hl hr hfault))
    · obtain ⟨m, n, rfl, rfl, hlarge⟩ := Value.bounds_eq_none_iff.mp hnone
      exact .exhausted .refl (.range hl hr hlarge)
  | callee =>
    obtain ⟨hunbound, rfl⟩ := unbound_of_lookup hrun
    exact .raised .refl (.expr (.callee hunbound))
  | builtin hcallee hargs =>
    obtain ⟨sink, ⟨fault, hcall, rfl⟩ | ⟨hnone, rfl⟩⟩ := stop_of_callBuiltin hrun
    · exact .raised .refl (.expr (.builtin hcallee hargs hcall))
    · obtain ⟨rfl, hnone, -⟩ := Builtin.call_eq_none_iff.mp hnone
      obtain ⟨m, n, hasks, hlarge⟩ := Builtin.callRange_eq_none_iff.mp hnone
      exact .exhausted .refl (.builtin hcallee hargs hasks hlarge)
  | notCallable hcallee hfunction hbuiltin hargs =>
    obtain rfl := error_of_fail hrun
    exact .raised .refl (.expr (.notCallable hcallee hfunction hbuiltin hargs))
  | wrongArguments hargs =>
    obtain rfl := error_of_fail hrun
    exact .refused (.arity hargs)
  | tooDeep hargs hdeep =>
    obtain rfl := error_of_fail hrun
    exact .refused (.depth hargs hdeep)
  | notIterable hx harray =>
    obtain rfl := error_of_fail hrun
    exact .raised .refl (.values hx harray)
  | declare | define => exact blames_declare _ _ _ stop t hrun
  | assign => exact blames_assign _ _ _ stop t hrun

theorem traced_along (limit : Nat) : Along limit (fun p {_} m s => Blames (Traced limit) p m s) :=
  blames_along traced_own Traced.of_starts

end Downward

section Occurrence

def Expr.parts : Expr → List Expr
  | literal .. | var .. => []
  | unary _ _ x => [x]
  | binary _ _ l r | range _ l r => [l, r]
  | call _ _ xs | array _ xs => xs

def Stmt.blocks : Stmt → List (List Stmt)
  | ifThen _ body | forEach _ _ body | loop _ body => [body]
  | ifElse _ yes no => [yes, no]
  | declare .. | define .. | ret _ | assign .. | expr _ => []

inductive Stmt.In (code : List Stmt) : Stmt → Prop
  | here {st} : st ∈ code → Stmt.In code st
  | inner {outer block st} : Stmt.In code outer → block ∈ outer.blocks → st ∈ block → Stmt.In code st

inductive Expr.In (code : List Stmt) : Expr → Prop
  | subject {st x} : Stmt.In code st → st.subject? = some x → Expr.In code x
  | part {x y} : Expr.In code x → y ∈ x.parts → Expr.In code y

def Job.In (code : List Stmt) : Job → Prop
  | expr x => x.In code
  | exprs xs _ => ∀ x ∈ xs, x.In code
  | call .. => True
  | stmt st => st.In code
  | block ss _ | rounds _ ss _ => ∀ st ∈ ss, st.In code

def Point.code (p : Program) (q : Point) : List Stmt :=
  match q.active with
  | [] => p
  | f :: _ => f.body

variable {limit : Nat} {p : Program} {q r : Point} {s : State}

theorem Stmt.mem_blocks_of_branch? {st : Stmt} {truth : Bool} {body : List Stmt}
    (h : st.branch? truth = some body) : body ∈ st.blocks := by
  cases st <;> cases truth <;> simp_all [Stmt.branch?, Stmt.blocks]

theorem Starts.inCode (h : Starts limit q r) (hq : q.job.In (q.code p)) : r.job.In (r.code p) := by
  cases h with
  | operand | left | right | lower | upper => exact .part hq (by simp [Expr.parts])
  | elements | arguments => exact fun x hx => .part hq hx
  | call => trivial
  | head => exact hq _ List.mem_cons_self
  | tail => exact fun x hx => hq x (List.mem_cons_of_mem _ hx)
  | enter => exact fun st hst => .here hst
  | subject hx => exact .subject hq hx
  | branch _ _ hbranch => exact fun st hst => .inner hq (Stmt.mem_blocks_of_branch? hbranch) hst
  | traverse => exact fun st hst => .inner hq (by simp [Stmt.blocks]) hst
  | again | round | nextRound => exact hq
  | statement => exact hq _ List.mem_cons_self
  | rest => exact fun st hst => hq st (List.mem_cons_of_mem _ hst)

theorem Reaches.inCode (h : Reaches limit (p.start s) q) : q.job.In (q.code p) := by
  induction h with
  | refl => exact fun st hst => .here hst
  | tail _ hstarts ih => exact hstarts.inCode ih

theorem Raises.inCode {x : Expr} {fault : Fault} {u : State} {code : List Stmt}
    (h : Raises limit q x fault u) (hq : q.job.In code) : x.In code := by
  cases h with
  | expr => exact hq
  | values => exact .subject hq rfl

theorem Starts.active (h : Starts limit q r) :
    r.active = q.active ∨ ∃ pos f args, q.job = .call pos f args ∧ r.active = f :: q.active := by
  cases h with
  | enter => exact .inr ⟨_, _, _, rfl, rfl⟩
  | _ => exact .inl rfl

theorem Reaches.called {f : Function} {rest : List Function} (h : Reaches limit (p.start s) q)
    (hactive : q.active = f :: rest) :
    ∃ pos args t, Reaches limit (p.start s) ⟨rest, .call pos f args, t⟩ ∧
      Reaches limit ⟨rest, .call pos f args, t⟩ q := by
  induction h with
  | refl => cases hactive
  | @tail q r hreaches hstarts ih =>
    rcases hstarts.active with hsame | ⟨pos, g, args, hjob, hentered⟩
    · obtain ⟨pos, args, t, hcall, hinner⟩ := ih (hsame.symm.trans hactive)
      exact ⟨pos, args, t, hcall, .tail hinner hstarts⟩
    · obtain ⟨rfl, rfl⟩ := List.cons.inj (hentered.symm.trans hactive)
      obtain ⟨active, job, t⟩ := q
      cases hjob
      exact ⟨pos, args, t, hreaches, .single hstarts⟩

end Occurrence

section Order

variable {limit : Nat} {p q r : Point} {s t : State} {e : RuntimeError}

def Job.GoesOn : Job → Job → Prop
  | exprs .., exprs .. | block .., block .. | rounds .., rounds .. | stmt _, stmt _ => True
  | _, _ => False

theorem Starts.last (hq : Starts limit p q) (hfails : q.job.Fails limit q.state e)
    (hr : Starts limit p r) (hrest : p.job.GoesOn r.job) : r = q := by
  cases hr with
  | tail hdone =>
    cases hq with
    | head => exact absurd hfails hdone.not_fails
    | tail hdone' =>
      obtain ⟨hvalue, rfl⟩ := hdone.eq hdone'
      cases hvalue
      rfl
  | rest hdone =>
    cases hq with
    | statement => exact absurd hfails hdone.not_fails
    | rest hdone' =>
      obtain ⟨hvalue, rfl⟩ := hdone.eq hdone'
      cases hvalue
      rfl
  | nextRound hdone =>
    cases hq with
    | round => exact absurd hfails hdone.not_fails
    | nextRound hdone' =>
      obtain ⟨-, rfl⟩ := hdone.eq hdone'
      rfl
  | again hcond htruth hbody =>
    -- the condition held and the body came to its end, so what failed is a later round
    cases hq with
    | subject hx =>
      cases hx
      exact absurd hfails hcond.not_fails
    | branch hx hcond' hbranch =>
      cases hx
      obtain ⟨hvalue, rfl⟩ := hcond.eq hcond'
      cases hvalue
      rw [htruth] at hbranch
      cases hbranch
      exact absurd hfails hbody.not_fails
    | again hcond' _ hbody' =>
      obtain ⟨-, rfl⟩ := hcond.eq hcond'
      obtain ⟨-, rfl⟩ := hbody.eq hbody'
      rfl
  | _ => exact hrest.elim

end Order

namespace Program

variable {p : Program} {s t : State} {limit : Nat} {e : RuntimeError}

theorem traced_of_ends (h : p.Ends limit s (.failed e) t) :
    ∃ q x fault u, Reaches limit (p.start s) q ∧ Raises limit q x fault u ∧ e = ⟨fault, x.pos⟩ := by
  obtain ⟨-, budget, hrun⟩ := h
  have htraced := (traced_along limit).program budget p s (.error e) t hrun
  generalize hstart : p.start s = start at htraced
  cases htraced with
  | raised hreaches hraises => exact ⟨_, _, _, _, hreaches, hraises, rfl⟩
  | refused => cases hstart

def Exhausts (limit : Nat) (p : Program) (s : State) : Prop :=
  ∃ active x u v, Reaches limit (p.start s) ⟨active, .expr x, u⟩ ∧ x.Exhausts limit u v

theorem crashes_iff : (∃ t, p.Ends limit s .crashed t) ↔ p.Exhausts limit s := by
  constructor
  · rintro ⟨t, -, budget, hrun⟩
    have htraced := (traced_along limit).program budget p s .crash t hrun
    cases htraced with
    | exhausted hreaches hexhausts => exact ⟨_, _, _, _, hreaches, hexhausts⟩
  · rintro ⟨active, x, u, v, hreaches, hexhausts⟩
    obtain ⟨t, hends⟩ := hreaches.stops .crash ⟨v, hexhausts.ends⟩
    exact ⟨t, (ends_stopped_iff .crash).mpr hends⟩

/-- A run fails just if it reaches an expression whose own step fails. The error is reported at the
position of that expression, and the run ends as that step left it, less the frames of the rounds and
bodies around it. The expression is in the program, or in the body of a function that was called and
is being executed. Everything around it ends with the same error, and nothing goes on. -/
theorem errors_surface (limit : Nat) (p : Program) (s : State) :
    (∀ e t, p.Ends limit s (.failed e) t ↔
      ∃ q x u, Reaches limit (p.start s) q ∧ Raises limit q x e.fault u ∧
        Unwinds limit q u (p.start s) t ∧ e.report.pos = some x.pos) ∧
    ∀ q x fault u, Reaches limit (p.start s) q → Raises limit q x fault u →
      x.In (q.code p) ∧
      (∀ f rest, q.active = f :: rest → ∃ pos args t,
        Reaches limit (p.start s) ⟨rest, .call pos f args, t⟩ ∧
        Reaches limit ⟨rest, .call pos f args, t⟩ q) ∧
      ∀ r, Reaches limit r q →
        r.job.Fails limit r.state ⟨fault, x.pos⟩ ∧
        ∀ r' r'', Starts limit r r' → Reaches limit r' q → Starts limit r r'' →
          r.job.GoesOn r''.job → r'' = r' := by
  refine ⟨fun e t => ?_, fun q x fault u hreaches hraises => ⟨?_, ?_, fun r hr => ⟨?_, ?_⟩⟩⟩
  · constructor
    · intro h
      obtain ⟨q, x, fault, u, hreaches, hraises, rfl⟩ := traced_of_ends h
      obtain ⟨t', hunwinds⟩ := hreaches.unwinds u
      -- the run ends in one state only, which is the one that unwinding leads to
      obtain ⟨-, rfl⟩ := (ends_failed_iff.mp h).eq (hunwinds.ends hraises.ends)
      exact ⟨q, x, u, hreaches, hraises, hunwinds, rfl⟩
    · intro h
      obtain ⟨q, x, u, -, hraises, hunwinds, hpos⟩ := h
      have he : e = ⟨e.fault, x.pos⟩ := congrArg (RuntimeError.mk e.fault) (Option.some.inj hpos)
      rw [he]
      exact ends_failed_iff.mpr (hunwinds.ends hraises.ends)
  · exact hraises.inCode hreaches.inCode
  · intro f rest
    exact hreaches.called
  · exact hr.fails ⟨u, hraises.ends⟩
  · intro r' r'' hr' hinner
    exact hr'.last (hinner.fails ⟨u, hraises.ends⟩)

end Program

end Abacus
