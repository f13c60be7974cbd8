import Abacus.Proofs.Truncation

/-!
# What is printed stays

Everything that is done after a line was printed only adds to the output. So a run that gets to a call
of `print` shows its line, and it is not silent. This also holds of a run without end: with a budget that
is large enough to get to the call, the line is there.
-/

namespace Abacus

open Abacus.Action

namespace Sink

def Shows (text : ByteArray) (s : Sink) : Prop := ∃ more, s.written = text ++ more

theorem Shows.of_grows {s t : Sink} {text : ByteArray} (h : s.Shows text) (hgrows : s.Grows t) :
    t.Shows text := by
  obtain ⟨more, hs⟩ := h
  obtain ⟨more', ht⟩ := hgrows
  exact ⟨more ++ more', by rw [ht, hs, ByteArray.append_assoc]⟩

theorem continues_call (s : Sink) (b : Builtin) (args : List Value) :
    s.Continues (b.call args s).2 := by
  by_cases hb : b = .print
  · have hline := s.continues_printLine (Builtin.printed args)
    rw [Builtin.call, if_pos hb]
    rcases hprint : s.printLine (Builtin.printed args) with ⟨_ | e, t⟩
    · rw [hprint] at hline
      exact hline
    · rw [hprint] at hline
      exact hline
  · obtain ⟨result, hcall⟩ := Builtin.call_eq_of_ne_print hb args
    rw [hcall]
    exact .refl s

end Sink

def State.Onward (s t : State) : Prop := s.sink.Continues t.sink

theorem State.onward_stable : Stable State.Onward where
  refl s := .refl s.sink
  trans := Sink.Continues.trans
  output s b args := s.sink.continues_call b args
  declare s _ _ := .refl s.sink
  assign s _ _ := .refl s.sink
  round h := h

section Onward

variable {limit budget rounds : Nat} {s t : State} {text : ByteArray}

theorem callFunction_onward (limit budget : Nat) : (callFunction limit budget).Keeps State.Onward :=
  callFunction_keeps State.onward_stable.toQuiet State.onward_stable id id limit budget

theorem Expr.eval_onward (x : Expr) : (x.eval (callFunction limit budget)).Keeps State.Onward :=
  x.eval_keeps State.onward_stable.toQuiet (callFunction_onward limit budget)

theorem Expr.evalAll_onward (xs : List Expr) (done : List Value) :
    (Expr.evalAll (callFunction limit budget) xs done).Keeps State.Onward :=
  Expr.evalAll_keeps State.onward_stable.toQuiet (callFunction_onward limit budget) xs done

theorem Stmt.execAll_onward (ss : List Stmt) (last : Value) :
    (Stmt.execAll rounds (callFunction limit budget) ss last).Keeps State.Onward :=
  Stmt.execAll_keeps State.onward_stable (callFunction_onward limit budget) rounds ss last

theorem iterate_onward (name : String) (body : List Stmt) (vs : List Value) :
    (iterate name (Stmt.execAll rounds (callFunction limit budget) body .none) vs).Keeps
      State.Onward :=
  iterate_keeps State.onward_stable (Stmt.execAll_onward body .none) name vs

theorem Job.run_onward (job : Job) : (job.run limit budget).Keeps State.Onward := by
  have hquiet := State.onward_stable.toQuiet
  cases job with
  | expr x => exact x.eval_onward.bind hquiet fun v => keeps_pure hquiet _
  | exprs xs done => exact (Expr.evalAll_onward xs done).bind hquiet fun vs => keeps_pure hquiet _
  | call pos f args =>
    exact (callFunction_onward limit budget pos f args).bind hquiet fun v => keeps_pure hquiet _
  | stmt st => exact st.exec_keeps State.onward_stable (callFunction_onward limit budget) budget
  | block ss last => exact Stmt.execAll_onward ss last
  | rounds name body vs => exact iterate_onward name body vs

theorem Job.Ends.onward {job : Job} {result : Result Flow} (h : job.Ends limit s result t) :
    s.Onward t := by
  obtain ⟨-, budget, hrun⟩ := h
  have honward : s.Onward (job.run limit budget s).2 := job.run_onward s
  rw [hrun] at honward
  exact honward

theorem Starts.onward {p q : Point} (h : Starts limit p q) : p.state.Onward q.state := by
  cases h with
  | operand | left | lower | elements | arguments | head | enter | subject | round | statement =>
    exact .refl _
  | right hends | upper hends | call _ hends | tail hends | branch _ hends _ | traverse hends
  | nextRound hends | rest hends => exact hends.onward
  | again hcond _ hbody => exact hcond.onward.trans hbody.onward

theorem Reaches.onward {p q : Point} (h : Reaches limit p q) : p.state.Onward q.state := by
  induction h with
  | refl => exact .refl _
  | tail _ hstarts ih => exact ih.trans hstarts.onward

theorem map_state (m : Action α) (g : α → β) : ((m >>= fun a => pure (g a)) s).2 = (m s).2 := by
  change (Action.bind m _ s).2 = _
  rw [Action.bind]
  rcases m s with ⟨_ | _ | _ | _, t⟩ <;> rfl

theorem shows_bind {m : Action α} {f : α → Action β} (h : (m s).2.sink.Shows text)
    (hf : ∀ a, (f a).Keeps State.Onward) : ((m >>= f) s).2.sink.Shows text := by
  change (Action.bind m f s).2.sink.Shows text
  rw [Action.bind]
  rcases hm : m s with ⟨result, t⟩
  rw [hm] at h
  cases result with
  | done a => exact h.of_grows (hf a t).grows
  | failed e => exact h
  | crashed => exact h
  | cut => exact h

end Onward

/-- A job, but a loop goes on for some rounds only. -/
def Job.within (limit rounds budget : Nat) : Job → Action Flow
  | stmt (.loop c body) =>
    repeatWhile (c.eval (callFunction limit budget))
      (Stmt.execAll budget (callFunction limit budget) body .none) rounds
  | job => job.run limit budget

/-- A run that begins at the point shows a text as soon as its budget is large enough. -/
def Point.Shows (limit : Nat) (p : Point) (text : ByteArray) : Prop :=
  ∃ enough, ∀ rounds budget, enough ≤ rounds → enough ≤ budget →
    (p.job.within limit rounds budget p.state).2.sink.Shows text

section Upward

variable {limit rounds budget : Nat} {s t : State} {text : ByteArray} {p q : Point}

open Job

theorem Job.within_self (job : Job) : job.within limit budget budget = job.run limit budget := by
  cases job with
  | stmt st => cases st <;> rfl
  | _ => rfl

theorem within_expr_state (x : Expr) :
    ((Job.expr x).within limit rounds budget s).2 = (x.eval (callFunction limit budget) s).2 :=
  map_state _ _

theorem within_exprs_state (xs : List Expr) (done : List Value) :
    ((Job.exprs xs done).within limit rounds budget s).2 =
      (Expr.evalAll (callFunction limit budget) xs done s).2 :=
  map_state _ _

theorem within_call_state (pos : Position) (f : Function) (args : List Value) :
    ((Job.call pos f args).within limit rounds budget s).2 =
      (callFunction limit budget pos f args s).2 :=
  map_state _ _

theorem within_block (ss : List Stmt) (last : Value) :
    (Job.block ss last).within limit rounds budget =
      Stmt.execAll budget (callFunction limit budget) ss last := rfl

theorem within_rounds (name : String) (body : List Stmt) (vs : List Value) :
    (Job.rounds name body vs).within limit rounds budget =
      iterate name (Stmt.execAll budget (callFunction limit budget) body .none) vs := rfl

/-- It is enough that `p` shows what `q` shows. A loop may have begun one round more. -/
theorem Point.Shows.inside (hq : q.Shows limit text)
    (h : ∀ rounds budget, (q.job.within limit rounds budget q.state).2.sink.Shows text →
      (p.job.within limit (rounds + 1) budget p.state).2.sink.Shows text) : p.Shows limit text := by
  obtain ⟨enough, hshown⟩ := hq
  refine ⟨enough + 1, fun rounds budget hrounds hbudget => ?_⟩
  cases rounds with
  | zero => exact absurd hrounds (Nat.not_succ_le_zero enough)
  | succ rounds =>
    exact h rounds budget (hshown rounds budget (Nat.le_of_succ_le_succ hrounds) (by omega))

theorem Point.Shows.after {P : Nat → Prop} (hq : q.Shows limit text)
    (hbefore : ∃ needed, ∀ budget, needed ≤ budget → P budget)
    (h : ∀ rounds budget, P budget → (q.job.within limit rounds budget q.state).2.sink.Shows text →
      (p.job.within limit (rounds + 1) budget p.state).2.sink.Shows text) : p.Shows limit text := by
  obtain ⟨enough, hshown⟩ := hq
  obtain ⟨needed, hbefore⟩ := hbefore
  refine ⟨max enough needed + 1, fun rounds budget hrounds hbudget => ?_⟩
  cases rounds with
  | zero => exact absurd hrounds (Nat.not_succ_le_zero _)
  | succ rounds =>
    exact h rounds budget (hbefore budget (by omega)) (hshown rounds budget (by omega) (by omega))

theorem Job.Ends.later {job : Job} {result : Result Flow} (h : job.Ends limit s result t) :
    ∃ needed, ∀ budget, needed ≤ budget → job.run limit budget s = (result, t) := by
  obtain ⟨hcut, needed, hrun⟩ := h
  exact ⟨needed, fun budget hle => run_mono hle hcut hrun⟩

theorem loop_onward (c : Expr) (body : List Stmt) :
    (repeatWhile (c.eval (callFunction limit budget))
      (Stmt.execAll budget (callFunction limit budget) body .none) rounds).Keeps State.Onward :=
  repeatWhile_keeps State.onward_stable.toQuiet c.eval_onward (Stmt.execAll_onward body .none) rounds

theorem pure_onward (a : α) : (pure a : Action α).Keeps State.Onward :=
  keeps_pure State.onward_stable.toQuiet a

theorem callValue_onward (pos : Position) (name : String) (callee : Value) (args : List Value) :
    (callValue (callFunction limit budget) pos name callee args).Keeps State.Onward :=
  callValue_keeps State.onward_stable.toQuiet (callFunction_onward limit budget) pos name callee args

theorem within_stmt {st : Stmt} (h : ∀ c body, st ≠ .loop c body) :
    (Job.stmt st).within limit rounds budget = st.exec budget (callFunction limit budget) := by
  cases st with
  | loop c body => exact absurd rfl (h c body)
  | _ => rfl

theorem onward_next {c : Expr} {body : List Stmt} (flow : Flow) :
    (match flow with
      | .normal _ => repeatWhile (c.eval (callFunction limit budget))
          (Stmt.execAll budget (callFunction limit budget) body .none) rounds
      | .returned v => pure (.returned v) : Action Flow).Keeps State.Onward := by
  cases flow with
  | normal w => exact loop_onward c body
  | returned w => exact pure_onward _

theorem shows_subject {st : Stmt} {x : Expr} (hx : st.subject? = some x)
    (h : (x.eval (callFunction limit budget) s).2.sink.Shows text) :
    ((Job.stmt st).within limit (rounds + 1) budget s).2.sink.Shows text := by
  cases st with
  | define => cases hx
  | loop c body =>
    cases hx
    rw [Job.within, repeatWhile]
    refine shows_bind h fun v => ?_
    split
    · exact (Stmt.execAll_onward body .none).bind State.onward_stable.toQuiet onward_next
    · exact pure_onward _
  | declare name type e =>
    cases hx
    rw [within_stmt (by simp), Stmt.exec]
    exact shows_bind h fun v s => .refl s.sink
  | assign name e =>
    cases hx
    rw [within_stmt (by simp), Stmt.exec]
    exact shows_bind h fun v s => .refl s.sink
  | ret e | expr e =>
    cases hx
    rw [within_stmt (by simp), Stmt.exec]
    exact shows_bind h fun v => pure_onward _
  | ifThen c body =>
    cases hx
    rw [within_stmt (by simp), Stmt.exec]
    refine shows_bind h fun v => ?_
    split
    · exact Stmt.execAll_onward body .none
    · exact pure_onward _
  | ifElse c yes no =>
    cases hx
    rw [within_stmt (by simp), Stmt.exec]
    refine shows_bind h fun v => ?_
    split
    · exact Stmt.execAll_onward yes .none
    · exact Stmt.execAll_onward no .none
  | forEach name e body =>
    cases hx
    rw [within_stmt (by simp), Stmt.exec]
    refine shows_bind h fun v => ?_
    split
    · exact iterate_onward name body _
    · exact keeps_fail State.onward_stable.toQuiet _ _

theorem shows_branch {st : Stmt} {c : Expr} {body : List Stmt} {v : Value}
    (hc : st.subject? = some c) (hcond : c.eval (callFunction limit budget) s = (.done v, t))
    (hbranch : st.branch? v.isTruthy = some body)
    (h : (Stmt.execAll budget (callFunction limit budget) body .none t).2.sink.Shows text) :
    ((Job.stmt st).within limit (rounds + 1) budget s).2.sink.Shows text := by
  by_cases hloop : ∃ d block, st = .loop d block
  · obtain ⟨d, block, rfl⟩ := hloop
    obtain ⟨rfl, rfl, htruth⟩ := loop_of_branch hc hbranch
    rw [Job.within, repeatWhile, bind_of_done hcond, if_pos htruth]
    exact shows_bind h onward_next
  · have hother : ∀ d block, st ≠ .loop d block := fun d block h => hloop ⟨d, block, h⟩
    rw [within_stmt hother, exec_of_branch hc hcond hbranch hother]
    exact h

theorem shows_again {c : Expr} {body : List Stmt} {v w : Value} {u : State}
    (hcond : c.eval (callFunction limit budget) s = (.done v, t)) (htruth : v.isTruthy)
    (hbody : Stmt.execAll budget (callFunction limit budget) body .none t = (.done (.normal w), u))
    (h : ((Job.stmt (.loop c body)).within limit rounds budget u).2.sink.Shows text) :
    ((Job.stmt (.loop c body)).within limit (rounds + 1) budget s).2.sink.Shows text := by
  rw [Job.within, repeatWhile, bind_of_done hcond, if_pos htruth, bind_of_done hbody]
  exact h

theorem Starts.shows (h : Starts limit p q) (hq : q.Shows limit text) : p.Shows limit text := by
  have hquiet := State.onward_stable.toQuiet
  cases h with
  | operand =>
    refine hq.inside fun rounds budget hshown => ?_
    rw [within_expr_state] at hshown ⊢
    rw [Expr.eval]
    exact shows_bind hshown fun v => keeps_check hquiet _ _
  | left =>
    refine hq.inside fun rounds budget hshown => ?_
    rw [within_expr_state] at hshown ⊢
    rw [Expr.eval]
    exact shows_bind hshown fun v => (Expr.eval_onward _).bind hquiet fun w => keeps_check hquiet _ _
  | right hends =>
    refine hq.after hends.later fun rounds budget hdone hshown => ?_
    rw [within_expr_state] at hshown ⊢
    rw [Expr.eval, bind_of_done (run_expr_done.mp hdone)]
    exact shows_bind hshown fun w => keeps_check hquiet _ _
  | lower =>
    refine hq.inside fun rounds budget hshown => ?_
    rw [within_expr_state] at hshown ⊢
    rw [Expr.eval]
    exact shows_bind hshown fun v => (Expr.eval_onward _).bind hquiet fun w => keeps_attempt hquiet _ _
  | upper hends =>
    refine hq.after hends.later fun rounds budget hdone hshown => ?_
    rw [within_expr_state] at hshown ⊢
    rw [Expr.eval, bind_of_done (run_expr_done.mp hdone)]
    exact shows_bind hshown fun w => keeps_attempt hquiet _ _
  | elements =>
    refine hq.inside fun rounds budget hshown => ?_
    rw [within_exprs_state] at hshown
    rw [within_expr_state, Expr.eval]
    exact shows_bind hshown fun vs => pure_onward _
  | arguments hcallee =>
    refine hq.inside fun rounds budget hshown => ?_
    rw [within_exprs_state] at hshown
    rw [within_expr_state, Expr.eval, bind_of_done (lookup_of_bound hcallee)]
    exact shows_bind hshown fun vs => callValue_onward _ _ _ vs
  | call hcallee hends =>
    refine hq.after hends.later fun rounds budget hdone hshown => ?_
    rw [within_call_state] at hshown
    rw [within_expr_state, Expr.eval, bind_of_done (lookup_of_bound hcallee),
      bind_of_done (run_exprs_done.mp hdone)]
    exact hshown
  | head =>
    refine hq.inside fun rounds budget hshown => ?_
    rw [within_expr_state] at hshown
    rw [within_exprs_state, Expr.evalAll]
    exact shows_bind hshown fun v => Expr.evalAll_onward _ _
  | tail hends =>
    refine hq.after hends.later fun rounds budget hdone hshown => ?_
    rw [within_exprs_state] at hshown ⊢
    rw [Expr.evalAll, bind_of_done (run_expr_done.mp hdone)]
    exact hshown
  | enter hargs hlow =>
    -- the call spends one of the budget for its body
    obtain ⟨enough, hq⟩ := hq
    refine ⟨enough + 1, fun rounds budget hrounds hbudget => ?_⟩
    cases budget with
    | zero => exact absurd hbudget (Nat.not_succ_le_zero enough)
    | succ budget =>
      have hshown := hq enough budget (Nat.le_refl enough) (Nat.le_of_succ_le_succ hbudget)
      rw [within_call_state, callFunction_succ, if_neg (fun h => h hargs),
        if_neg (Nat.not_le.mpr hlow)]
      exact hshown
  | subject hx =>
    refine hq.inside fun rounds budget hshown => ?_
    rw [within_expr_state] at hshown
    exact shows_subject hx hshown
  | branch hc hends hbranch =>
    exact hq.after hends.later fun rounds budget hdone hshown =>
      shows_branch hc (run_expr_done.mp hdone) hbranch hshown
  | again hcond htruth hbody =>
    obtain ⟨needed, hc, hb⟩ := hcond.and hbody
    refine hq.after ⟨needed, fun budget hle => And.intro (run_mono hle hcond.1 hc)
      (run_mono hle hbody.1 hb)⟩ fun rounds budget hdone hshown => ?_
    exact shows_again (run_expr_done.mp hdone.1) htruth hdone.2 hshown
  | traverse hends =>
    refine hq.after hends.later fun rounds budget hdone hshown => ?_
    rw [within_stmt (by simp), Stmt.exec, bind_of_done (run_expr_done.mp hdone)]
    exact hshown
  | round =>
    refine hq.inside fun rounds budget hshown => ?_
    rw [within_rounds, iterate_cons]
    · refine shows_bind hshown fun flow => ?_
      cases flow with
      | normal w => exact iterate_onward _ _ _
      | returned w => exact pure_onward _
  | nextRound hends =>
    refine hq.after hends.later fun rounds budget hdone hshown => ?_
    rw [Job.run] at hdone
    rw [within_rounds, iterate_cons, bind_of_done (within_eq hdone)]
    exact hshown
  | statement =>
    -- a statement of a block goes on for as many rounds as the budget has
    obtain ⟨enough, hq⟩ := hq
    refine ⟨enough, fun rounds budget hrounds hbudget => ?_⟩
    have hshown := hq budget budget hbudget hbudget
    rw [within_self, Job.run] at hshown
    rw [within_block, Stmt.execAll]
    refine shows_bind hshown fun flow => ?_
    cases flow with
    | normal v => exact Stmt.execAll_onward _ v
    | returned v => exact pure_onward _
  | rest hends =>
    refine hq.after hends.later fun rounds budget hdone hshown => ?_
    rw [Job.run] at hdone
    rw [within_block, Stmt.execAll, bind_of_done hdone]
    exact hshown

theorem Reaches.shows (h : Reaches limit p q) (hq : q.Shows limit text) : p.Shows limit text := by
  induction h using Relation.ReflTransGen.head_induction_on with
  | refl => exact hq
  | head hstarts _ ih => exact hstarts.shows ih

variable {pos : Position} {vs : List Value} {u : State}

theorem Prints.onward (h : Prints limit q pos vs u) : q.state.Onward u := by
  cases h with
  | call _ hends => exact hends.onward

theorem Prints.shows (h : Prints limit q pos vs u) (hu : u.sink.Reliable) :
    q.Shows limit (u.sink.written ++ Sink.lineBytes (Builtin.printed vs)) := by
  cases h with
  | call hcallee hends =>
    obtain ⟨needed, hdone⟩ := hends.later
    refine ⟨needed, fun rounds budget _ hbudget => ⟨.empty, ?_⟩⟩
    rw [within_expr_state, Expr.eval, bind_of_done (lookup_of_bound hcallee),
      bind_of_done (run_exprs_done.mp (hdone budget hbudget)), callValue, callBuiltin_print,
      hu.printLine, ByteArray.append_empty]

end Upward

namespace Program

variable {limit : Nat} {p : Program} {s u : State} {q : Point} {pos : Position} {vs : List Value}

/-- A line that a run prints is in its output, after all that was printed before it. -/
theorem output_shows (hs : s.sink.Reliable) (hreaches : Reaches limit (p.start s) q)
    (hprints : Prints limit q pos vs u) :
    ∃ before, u.sink.written = s.sink.written ++ before ∧
      ∃ enough, ∀ budget, enough ≤ budget → ∃ more, (p.run limit budget s).2.sink.written =
        s.sink.written ++ (before ++ Sink.lineBytes (Builtin.printed vs) ++ more) := by
  have honward : s.sink.Continues u.sink := hreaches.onward.trans hprints.onward
  obtain ⟨before, hbefore⟩ := honward.grows
  obtain ⟨enough, hshown⟩ := hreaches.shows (hprints.shows (honward.reliable hs))
  refine ⟨before, hbefore, enough, fun budget hbudget => ?_⟩
  obtain ⟨more, hmore⟩ := hshown budget budget hbudget hbudget
  refine ⟨more, ?_⟩
  rw [Program.run, map_state, ← ByteArray.append_assoc, ← ByteArray.append_assoc, ← hbefore]
  exact hmore

theorem output_nonempty (hs : s.sink.Reliable) (hreaches : Reaches limit (p.start s) q)
    (hprints : Prints limit q pos vs u) :
    ∃ enough, ∀ budget, enough ≤ budget → ∀ output,
      (p.run limit budget s).2.sink.written = s.sink.written ++ output → output ≠ .empty := by
  obtain ⟨before, -, enough, hshown⟩ := output_shows hs hreaches hprints
  refine ⟨enough, fun budget hbudget output houtput hempty => ?_⟩
  obtain ⟨more, hmore⟩ := hshown budget hbudget
  have hline := (ByteArray.append_right_inj _).mp (houtput.symm.trans hmore)
  have hsize := congrArg ByteArray.size (hempty.symm.trans hline)
  have hnonempty := Sink.lineBytes_nonempty (Builtin.printed vs)
  simp only [ByteArray.size_append, ByteArray.size_empty] at hsize
  omega

end Program

end Abacus
