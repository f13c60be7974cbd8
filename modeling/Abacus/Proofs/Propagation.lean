import Abacus.Proofs.Points

/-!
# Errors and crashes go outwards

Nothing is caught: if a job that another one begins ends with an error or in a crash, then so does the
other, and with the same error. Nothing is done on the way out but that the frames of rounds and of
function bodies go away. A loop and a call spend some of the budget before what they begin, so the outer
job needs a larger budget than the inner one.
-/

namespace Abacus

namespace Stop

theorem result_ne_cut (stop : Stop) : (stop.result : Result α) ≠ .cut := by
  intro h
  cases stop <;> cases h

theorem ofBody_result (stop : Stop) : (stop.result : Result Flow).ofBody = stop.result := by
  cases stop <;> rfl

end Stop

namespace Action

variable {m : Action α} {f : α → Action β} {s t : State}

theorem bind_of_done {a : α} (h : m s = (.done a, t)) : (m >>= f) s = f a t := by
  change Action.bind m f s = _
  rw [Action.bind, h]

theorem bind_of_stopped (stop : Stop) (h : m s = (stop.result, t)) :
    (m >>= f) s = (stop.result, t) := by
  change Action.bind m f s = _
  rw [Action.bind, h]
  cases stop <;> rfl

theorem bind_of_failed {e : RuntimeError} (h : m s = (.failed e, t)) :
    (m >>= f) s = (.failed e, t) :=
  bind_of_stopped (.error e) h

theorem bind_of_crashed (h : m s = (.crashed, t)) : (m >>= f) s = (.crashed, t) :=
  bind_of_stopped .crash h

theorem bind_of_cut (h : m s = (.cut, t)) : (m >>= f) s = (.cut, t) := by
  change Action.bind m f s = _
  rw [Action.bind, h]

theorem bind_stops {result : Result α} (h : ∀ a, result ≠ .done a) (f : α → Action β) :
    ∃ stopped : Result β, ∀ {m : Action α} {s t : State}, m s = (result, t) →
      (m >>= f) s = (stopped, t) := by
  cases result with
  | done a => exact absurd rfl (h a)
  | failed e => exact ⟨.failed e, bind_of_failed⟩
  | crashed => exact ⟨.crashed, bind_of_crashed⟩
  | cut => exact ⟨.cut, bind_of_cut⟩

theorem bind_pure_eq_done {g : α → β} (hg : Function.Injective g) {a : α} :
    (m >>= fun a => pure (g a)) s = (.done (g a), t) ↔ m s = (.done a, t) := by
  constructor
  · intro h
    obtain ⟨b, u, hm, hpure⟩ := bind_eq_done h
    obtain ⟨hvalue, rfl⟩ := Prod.mk.inj hpure
    rw [hm, hg (Result.done.inj hvalue)]
  · intro h
    rw [bind_of_done h]
    rfl

theorem bind_pure_eq_stopped {g : α → β} {stop : Stop} :
    (m >>= fun a => pure (g a)) s = (stop.result, t) ↔ m s = (stop.result, t) := by
  constructor
  · intro h
    rcases bind_eq_stopped stop h with hm | ⟨a, u, -, hpure⟩
    · exact hm
    · cases stop <;> cases hpure
  · exact bind_of_stopped stop

theorem lookup_of_bound {pos : Position} {name : String} {v : Value}
    (h : s.scopes.get? name = some v) : lookup pos name s = (.done v, s) := by
  rw [lookup, h]

theorem bound_of_lookup {pos : Position} {name : String} {v : Value}
    (h : lookup pos name s = (.done v, t)) : s.scopes.get? name = some v ∧ s = t := by
  rw [lookup] at h
  split at h
  · rename_i w hbound
    cases h
    exact ⟨hbound, rfl⟩
  · cases h

theorem lookup_of_unbound {pos : Position} {name : String} (h : s.scopes.get? name = none) :
    lookup pos name s = (.failed ⟨.undefined name, pos⟩, s) := by
  rw [lookup, h]

theorem error_of_fail {pos : Position} {fault : Fault} {stop : Stop}
    (h : (fail pos fault : Action α) s = (stop.result, t)) : stop = .error ⟨fault, pos⟩ := by
  cases stop with
  | error e =>
    cases h
    rfl
  | crash => cases h

theorem unbound_of_lookup {pos : Position} {name : String} {stop : Stop}
    (h : lookup pos name s = (stop.result, t)) :
    s.scopes.get? name = none ∧ stop = .error ⟨.undefined name, pos⟩ := by
  rw [lookup] at h
  split at h
  · cases stop <;> cases h
  · rename_i hunbound
    exact ⟨hunbound, error_of_fail h⟩

theorem error_of_check {pos : Position} {result : Except Fault α} {stop : Stop}
    (h : check pos result s = (stop.result, t)) :
    ∃ fault, result = .error fault ∧ stop = .error ⟨fault, pos⟩ := by
  cases result with
  | ok a => cases stop <;> cases h
  | error fault => exact ⟨fault, rfl, error_of_fail h⟩

theorem stop_of_attempt {pos : Position} {result : Except Fault (Option α)} {stop : Stop}
    (h : attempt pos result s = (stop.result, t)) :
    (∃ fault, result = .error fault ∧ stop = .error ⟨fault, pos⟩) ∨
      result = .ok none ∧ stop = .crash := by
  cases result with
  | ok made =>
    cases made with
    | some a => cases stop <;> cases h
    | none =>
      cases stop with
      | error e => cases h
      | crash => exact .inr ⟨rfl, rfl⟩
  | error fault => exact .inl ⟨fault, rfl, error_of_fail h⟩

theorem stop_of_callBuiltin {pos : Position} {b : Builtin} {args : List Value} {stop : Stop}
    (h : callBuiltin pos b args s = (stop.result, t)) :
    ∃ sink, (∃ fault, b.call args s.sink = (.error fault, sink) ∧ stop = .error ⟨fault, pos⟩) ∨
      b.call args s.sink = (.ok none, sink) ∧ stop = .crash := by
  rcases hcall : b.call args s.sink with ⟨result, sink⟩
  rw [callBuiltin, hcall] at h
  rcases stop_of_attempt h with ⟨fault, rfl, hstop⟩ | ⟨rfl, hstop⟩
  · exact ⟨sink, .inl ⟨fault, rfl, hstop⟩⟩
  · exact ⟨sink, .inr ⟨rfl, hstop⟩⟩

theorem within_eq {frame : Frame} {result : Result α}
    (h : m { s with scopes := s.scopes.push frame } = (result, t)) :
    m.within frame s = (result, { t with scopes := t.scopes.pop }) := by
  rw [within, h]

theorem done_of_within {frame : Frame} {a : α} (h : m.within frame s = (.done a, t)) :
    ∃ u, m { s with scopes := s.scopes.push frame } = (.done a, u) ∧
      t = { u with scopes := u.scopes.pop } := by
  obtain ⟨hresult, hstate⟩ := Prod.mk.inj h
  exact ⟨_, Prod.ext hresult rfl, hstate.symm⟩

end Action

open Abacus.Action

namespace Job

variable {limit budget : Nat} {s t : State} {stop : Stop} {e : RuntimeError}

theorem run_expr_done {x : Expr} {v : Value} :
    (expr x).run limit budget s = (.done (.normal v), t) ↔
      x.eval (callFunction limit budget) s = (.done v, t) :=
  bind_pure_eq_done fun _ _ h => Flow.normal.inj h

theorem run_exprs_done {xs : List Expr} {done vs : List Value} :
    (exprs xs done).run limit budget s = (.done (.normal (.array vs)), t) ↔
      Expr.evalAll (callFunction limit budget) xs done s = (.done vs, t) :=
  bind_pure_eq_done fun _ _ h => Value.array.inj (Flow.normal.inj h)

theorem run_expr_stopped {x : Expr} :
    (expr x).run limit budget s = (stop.result, t) ↔
      x.eval (callFunction limit budget) s = (stop.result, t) :=
  bind_pure_eq_stopped

theorem run_exprs_stopped {xs : List Expr} {done : List Value} :
    (exprs xs done).run limit budget s = (stop.result, t) ↔
      Expr.evalAll (callFunction limit budget) xs done s = (stop.result, t) :=
  bind_pure_eq_stopped

theorem run_call_stopped {pos : Position} {f : Function} {args : List Value} :
    (call pos f args).run limit budget s = (stop.result, t) ↔
      callFunction limit budget pos f args s = (stop.result, t) :=
  bind_pure_eq_stopped

theorem Ends.and {job job' : Job} {s' t' : State} {result result' : Result Flow}
    (h : job.Ends limit s result t) (h' : job'.Ends limit s' result' t') :
    ∃ budget, job.run limit budget s = (result, t) ∧ job'.run limit budget s' = (result', t') := by
  obtain ⟨hcut, budget, hrun⟩ := h
  obtain ⟨hcut', budget', hrun'⟩ := h'
  refine ⟨max budget budget', ?_, ?_⟩
  · exact run_mono (Nat.le_max_left budget budget') hcut hrun
  · exact run_mono (Nat.le_max_right budget budget') hcut' hrun'

theorem ends_of_done {job : Job} {flow : Flow} (h : job.run limit budget s = (.done flow, t)) :
    job.Ends limit s (.done flow) t :=
  ⟨by simp, budget, h⟩

theorem ends_of_stopped {job : Job} (h : job.run limit budget s = (stop.result, t)) :
    job.Ends limit s stop.result t :=
  ⟨stop.result_ne_cut, budget, h⟩

theorem ends_of_failed {job : Job} (h : job.run limit budget s = (.failed e, t)) :
    job.Ends limit s (.failed e) t :=
  ⟨by simp, budget, h⟩

theorem stops_expr (stop : Stop) {x : Expr}
    (h : x.eval (callFunction limit budget) s = (stop.result, t)) :
    (expr x).Ends limit s stop.result t :=
  ends_of_stopped (run_expr_stopped.mpr h)

/-- A job ends in one way only. -/
theorem Ends.eq {job : Job} {t' : State} {result result' : Result Flow}
    (h : job.Ends limit s result t) (h' : job.Ends limit s result' t') : result = result' ∧ t = t' := by
  obtain ⟨budget, hrun, hrun'⟩ := h.and h'
  exact Prod.mk.inj (hrun.symm.trans hrun')

def Fails (limit : Nat) (job : Job) (s : State) (e : RuntimeError) : Prop :=
  ∃ t, job.Ends limit s (.failed e) t

theorem Ends.not_fails {job : Job} {flow : Flow} (h : job.Ends limit s (.done flow) t) :
    ¬ job.Fails limit s e := by
  intro hfails
  obtain ⟨u, hends⟩ := hfails
  cases (h.eq hends).1

end Job

/-- The state that `p` is left in if `q`, which it begins, ends with an error in the state `t`: the frame
of a round goes away, and a caller has its own frames again. -/
def Point.unwind (p q : Point) (t : State) : State :=
  match p.job, q.job with
  | .call .., _ => t.leave p.state
  | .rounds .., .block .. => { t with scopes := t.scopes.pop }
  | _, _ => t

section Upward

variable {limit : Nat} {s : State} {stop : Stop} {e : RuntimeError}

open Job

theorem ends_of_subject {st : Stmt} {x : Expr} {t : State} (hx : st.subject? = some x)
    (h : (Job.expr x).Ends limit s stop.result t) : (Job.stmt st).Ends limit s stop.result t := by
  obtain ⟨hcut, budget, hrun⟩ := h
  -- a loop spends one unit of the budget before its condition
  have hstopped := run_expr_stopped.mp (run_mono (Nat.le_succ budget) hcut hrun)
  have key : (Job.stmt st).run limit (budget + 1) s = (stop.result, t) := by
    cases st with
    | define => cases hx
    | loop c body =>
      cases hx
      rw [Job.run, Stmt.exec, repeatWhile]
      exact bind_of_stopped stop hstopped
    | declare | ifThen | ifElse | forEach | ret | assign | expr =>
      cases hx
      rw [Job.run, Stmt.exec]
      exact bind_of_stopped stop hstopped
  exact ends_of_stopped key

theorem exec_of_branch {call : Caller} {rounds : Nat} {st : Stmt} {c : Expr} {body : List Stmt}
    {v : Value} {t : State} (hc : st.subject? = some c) (hv : c.eval call s = (.done v, t))
    (hbranch : st.branch? v.isTruthy = some body) (hloop : ∀ c body, st ≠ .loop c body) :
    st.exec rounds call s = Stmt.execAll rounds call body .none t := by
  cases st with
  | ifThen =>
    cases hc
    cases htruth : v.isTruthy with
    | false => simp [htruth, Stmt.branch?] at hbranch
    | true =>
      simp only [htruth, Stmt.branch?, Option.some.injEq] at hbranch
      rw [Stmt.exec, bind_of_done hv, if_pos htruth, hbranch]
  | ifElse c yes no =>
    cases hc
    simp only [Stmt.branch?, Option.some.injEq] at hbranch
    rw [Stmt.exec, bind_of_done hv]
    by_cases htruth : v.isTruthy
    · rw [if_pos htruth] at hbranch ⊢
      rw [hbranch]
    · rw [if_neg htruth] at hbranch ⊢
      rw [hbranch]
  | loop c body => exact absurd rfl (hloop c body)
  | declare | define | forEach | ret | assign | expr => simp [Stmt.branch?] at hbranch

theorem loop_of_branch {c d : Expr} {body block : List Stmt} {truth : Bool}
    (hc : (Stmt.loop d block).subject? = some c)
    (hbranch : (Stmt.loop d block).branch? truth = some body) :
    d = c ∧ block = body ∧ truth = true := by
  cases hc
  cases truth with
  | false => cases hbranch
  | true =>
    cases hbranch
    exact ⟨rfl, rfl, rfl⟩

theorem ends_of_branch {st : Stmt} {c : Expr} {body : List Stmt} {v : Value} {t u : State}
    (hc : st.subject? = some c) (hends : (Job.expr c).Ends limit s (.done (.normal v)) t)
    (hbranch : st.branch? v.isTruthy = some body)
    (hbody : (Job.block body .none).Ends limit t stop.result u) :
    (Job.stmt st).Ends limit s stop.result u := by
  obtain ⟨budget, hcond, hblock⟩ := hends.and hbody
  have hdone := run_expr_done.mp (run_mono (Nat.le_succ budget) hends.1 hcond)
  have hstopped := run_mono (Nat.le_succ budget) hbody.1 hblock
  have key : (Job.stmt st).run limit (budget + 1) s = (stop.result, u) := by
    by_cases hloop : ∃ d block, st = .loop d block
    · obtain ⟨d, block, rfl⟩ := hloop
      obtain ⟨rfl, rfl, htruth⟩ := loop_of_branch hc hbranch
      rw [Job.run, Stmt.exec, repeatWhile, bind_of_done hdone, if_pos htruth]
      exact bind_of_stopped stop hstopped
    · have hother : ∀ d block, st ≠ .loop d block := fun d block h => hloop ⟨d, block, h⟩
      rw [Job.run, exec_of_branch hc hdone hbranch hother]
      exact hstopped
  exact ends_of_stopped key

theorem ends_of_again {c : Expr} {body : List Stmt} {v w : Value} {t t' u : State}
    (hcond : (Job.expr c).Ends limit s (.done (.normal v)) t) (htruth : v.isTruthy)
    (hbody : (Job.block body .none).Ends limit t (.done (.normal w)) u)
    (h : (Job.stmt (.loop c body)).Ends limit u stop.result t') :
    (Job.stmt (.loop c body)).Ends limit s stop.result t' := by
  obtain ⟨-, rounds, hloop⟩ := h
  obtain ⟨enough, hc, hb⟩ := hcond.and hbody
  have hle : rounds ≤ max rounds enough + 1 := by omega
  have hle' : enough ≤ max rounds enough + 1 := by omega
  have hdone := run_expr_done.mp (run_mono hle' hcond.1 hc)
  have hnormal := run_mono hle' hbody.1 hb
  -- the rounds that are left go by the budget of the whole run, which is larger
  have hS := mirror_eq fun _ => False
  have hcall : (callFunction limit rounds).Mirrored Eq (fun _ => False)
      (callFunction limit (max rounds enough + 1)) :=
    callFunction_mirrored_eq (Nat.le_refl limit) (.inl rfl) hle
  have hrest := (repeatWhile_mirrored (c.eval_mirrored hS hcall)
    (Stmt.execAll_mirrored hS hcall hle body .none) (Nat.le_max_left rounds enough)).eq hloop
    (Result.not_lost stop.result_ne_cut fun _ _ => id)
  have key : (Job.stmt (.loop c body)).run limit (max rounds enough + 1) s = (stop.result, t') := by
    rw [Job.run, Stmt.exec, repeatWhile, bind_of_done hdone, if_pos htruth]
    rw [Job.run] at hnormal
    rw [bind_of_done hnormal]
    exact hrest
  exact ends_of_stopped key

theorem ends_of_enter {pos : Position} {f : Function} {args : List Value} {t : State}
    (hargs : args.length = f.params.length) (hlow : s.depth < limit)
    (h : (Job.block f.body .none).Ends limit (s.enter (.ofArguments f.params args)) stop.result t) :
    (Job.call pos f args).Ends limit s stop.result (t.leave s) := by
  obtain ⟨-, budget, hbody⟩ := h
  have key : callFunction limit (budget + 1) pos f args s = (stop.result, t.leave s) := by
    rw [callFunction_succ, if_neg (fun h => h hargs), if_neg (Nat.not_le.mpr hlow)]
    rw [Job.run] at hbody
    rw [hbody]
    exact congrArg (·, t.leave s) stop.ofBody_result
  exact ends_of_stopped (run_call_stopped.mpr key)

/-- An error or a crash inside of a job is one of the job. -/
theorem Starts.stops {p q : Point} {t : State} (h : Starts limit p q) (stop : Stop)
    (hq : q.job.Ends limit q.state stop.result t) :
    p.job.Ends limit p.state stop.result (p.unwind q t) := by
  obtain ⟨hcut, budget, hrun⟩ := hq
  cases h with
  | operand | left | lower =>
    apply ends_of_stopped
    rw [run_expr_stopped, Expr.eval]
    exact bind_of_stopped stop (run_expr_stopped.mp hrun)
  | right hends | upper hends =>
    -- one budget for what was done before and for what stops
    obtain ⟨budget, hdone, hstopped⟩ := hends.and ⟨hcut, budget, hrun⟩
    apply ends_of_stopped
    rw [run_expr_stopped, Expr.eval, bind_of_done (run_expr_done.mp hdone)]
    exact bind_of_stopped stop (run_expr_stopped.mp hstopped)
  | elements =>
    apply ends_of_stopped
    rw [run_expr_stopped, Expr.eval]
    exact bind_of_stopped stop (run_exprs_stopped.mp hrun)
  | arguments hcallee =>
    apply ends_of_stopped
    rw [run_expr_stopped, Expr.eval, bind_of_done (lookup_of_bound hcallee)]
    exact bind_of_stopped stop (run_exprs_stopped.mp hrun)
  | call hcallee hends =>
    obtain ⟨budget, hdone, hstopped⟩ := hends.and ⟨hcut, budget, hrun⟩
    apply ends_of_stopped
    rw [run_expr_stopped, Expr.eval, bind_of_done (lookup_of_bound hcallee),
      bind_of_done (run_exprs_done.mp hdone)]
    exact run_call_stopped.mp hstopped
  | head =>
    apply ends_of_stopped
    rw [run_exprs_stopped, Expr.evalAll]
    exact bind_of_stopped stop (run_expr_stopped.mp hrun)
  | tail hends =>
    obtain ⟨budget, hdone, hstopped⟩ := hends.and ⟨hcut, budget, hrun⟩
    apply ends_of_stopped
    rw [run_exprs_stopped, Expr.evalAll, bind_of_done (run_expr_done.mp hdone)]
    exact run_exprs_stopped.mp hstopped
  | enter hargs hlow => exact ends_of_enter hargs hlow ⟨hcut, budget, hrun⟩
  | subject hx => exact ends_of_subject hx ⟨hcut, budget, hrun⟩
  | branch hc hends hbranch => exact ends_of_branch hc hends hbranch ⟨hcut, budget, hrun⟩
  | again hcond htruth hbody => exact ends_of_again hcond htruth hbody ⟨hcut, budget, hrun⟩
  | traverse hends =>
    obtain ⟨budget, hdone, hstopped⟩ := hends.and ⟨hcut, budget, hrun⟩
    apply ends_of_stopped
    rw [Job.run, Stmt.exec, bind_of_done (run_expr_done.mp hdone)]
    exact hstopped
  | round =>
    apply ends_of_stopped
    rw [Job.run, iterate_cons]
    exact bind_of_stopped stop (within_eq hrun)
  | nextRound hends =>
    obtain ⟨budget, hdone, hstopped⟩ := hends.and ⟨hcut, budget, hrun⟩
    rw [Job.run] at hdone
    apply ends_of_stopped
    rw [Job.run, iterate_cons, bind_of_done (within_eq hdone)]
    exact hstopped
  | statement =>
    apply ends_of_stopped
    rw [Job.run, Stmt.execAll]
    exact bind_of_stopped stop hrun
  | rest hends =>
    obtain ⟨budget, hdone, hstopped⟩ := hends.and ⟨hcut, budget, hrun⟩
    rw [Job.run] at hdone
    apply ends_of_stopped
    rw [Job.run, Stmt.execAll, bind_of_done hdone]
    exact hstopped

theorem Starts.ends {p q : Point} {t : State} (h : Starts limit p q)
    (hq : q.job.Ends limit q.state (.failed e) t) :
    p.job.Ends limit p.state (.failed e) (p.unwind q t) :=
  h.stops (.error e) hq

theorem Reaches.stops {p q : Point} (h : Reaches limit p q) (stop : Stop)
    (hq : ∃ t, q.job.Ends limit q.state stop.result t) :
    ∃ t, p.job.Ends limit p.state stop.result t := by
  induction h using Relation.ReflTransGen.head_induction_on with
  | refl => exact hq
  | head hstarts _ ih =>
    obtain ⟨t, hends⟩ := ih
    exact ⟨_, hstarts.stops stop hends⟩

theorem Reaches.fails {p q : Point} (h : Reaches limit p q) (hq : q.job.Fails limit q.state e) :
    p.job.Fails limit p.state e :=
  h.stops (.error e) hq

end Upward

end Abacus
