import Abacus.Proofs.Origin
import Abacus.Session

/-!
# Programs without `while`

A run goes on without end only in a `while` loop or in ever deeper calls, and the limit on the depth
stops the calls. So a program without `while` comes to an end if no function that it can call has one. Its
functions are those that are bound when it starts, alone or in arrays, and those that it declares itself,
since no operation makes a function. The end is a value or an error, unless the program asks for a range
that there is no room for.
-/

namespace Abacus

mutual

/-- Whether a `while` loop stands in a statement, also inside of the functions declared there. -/
def Stmt.loops : Stmt → Bool
  | .loop .. => true
  | .define _ _ _ body => Stmt.anyLoops body
  | .ifThen _ body => Stmt.anyLoops body
  | .ifElse _ yes no => Stmt.anyLoops yes || Stmt.anyLoops no
  | .forEach _ _ body => Stmt.anyLoops body
  | .declare .. | .ret _ | .assign .. | .expr _ => false

def Stmt.anyLoops : List Stmt → Bool
  | [] => false
  | st :: ss => st.loops || Stmt.anyLoops ss

end

def Function.WhileFree (f : Function) : Prop := Stmt.anyLoops f.body = false

variable {P : Function → Prop}

namespace Frame

def All (P : Function → Prop) (f : Frame) : Prop := ∀ name v, f.get? name = some v → v.All P

theorem all_empty : Frame.empty.All P := by
  intro name v h
  cases h

theorem All.insert {f : Frame} (hf : f.All P) (name : String) {v : Value} (hv : v.All P) :
    (f.insert name v).All P := by
  intro other w h
  rw [get?_insert] at h
  split at h
  · cases h
    exact hv
  · exact hf other w h

theorem all_foldl {entries : List (String × Value)} (hentries : ∀ entry ∈ entries, entry.2.All P)
    {f : Frame} (hf : f.All P) :
    (entries.foldl (fun f (name, v) => f.insert name v) f).All P := by
  induction entries generalizing f with
  | nil => exact hf
  | cons entry rest ih =>
    obtain ⟨hentry, hrest⟩ := List.forall_mem_cons.mp hentries
    exact ih hrest (hf.insert entry.1 hentry)

theorem all_ofArguments (params : List String) {args : List Value} (hargs : ∀ v ∈ args, v.All P) :
    (ofArguments params args).All P :=
  all_foldl (fun _ h => hargs _ (List.of_mem_zip h).2) all_empty

end Frame

namespace Scopes

structure All (P : Function → Prop) (s : Scopes) : Prop where
  globals : s.globals.All P
  locals : ∀ f ∈ s.locals, f.All P

variable {s : Scopes}

theorem All.get? (hs : s.All P) {name : String} {v : Value} (h : s.get? name = some v) : v.All P := by
  rw [Scopes.get?, Option.or_eq_some_iff] at h
  rcases h with h | ⟨-, h⟩
  · obtain ⟨f, hf, hv⟩ := List.exists_of_findSome?_eq_some h
    exact hs.locals f hf name v hv
  · exact hs.globals name v h

theorem All.insert (hs : s.All P) (name : String) {v : Value} (hv : v.All P) :
    (s.insert name v).All P := by
  obtain ⟨globals, locals⟩ := s
  cases locals with
  | nil => exact ⟨hs.globals.insert name hv, hs.locals⟩
  | cons f fs =>
    obtain ⟨hf, hfs⟩ := List.forall_mem_cons.mp hs.locals
    exact ⟨hs.globals, List.forall_mem_cons.mpr ⟨hf.insert name hv, hfs⟩⟩

theorem all_update? {name : String} {v : Value} (hv : v.All P) {fs gs : List Frame}
    (hfs : ∀ f ∈ fs, f.All P) (h : update? name v fs = some gs) : ∀ f ∈ gs, f.All P := by
  induction fs generalizing gs with
  | nil => cases h
  | cons f fs ih =>
    obtain ⟨hf, hrest⟩ := List.forall_mem_cons.mp hfs
    rw [update?] at h
    split at h
    · cases h
      exact List.forall_mem_cons.mpr ⟨hf.insert name hv, hrest⟩
    · obtain ⟨gs', hgs, rfl⟩ := Option.map_eq_some_iff.mp h
      exact List.forall_mem_cons.mpr ⟨hf, ih hrest hgs⟩

theorem All.assign (hs : s.All P) (name : String) {v : Value} (hv : v.All P) :
    (s.assign name v).All P := by
  rcases s.assign_cases name v with ⟨fs, hfs, h⟩ | ⟨-, -, h⟩ | ⟨-, -, h⟩
  · rw [h]
    exact ⟨hs.globals, all_update? hv hs.locals hfs⟩
  · rw [h]
    exact ⟨hs.globals.insert name hv, hs.locals⟩
  · rw [h]
    exact hs.insert name hv

end Scopes

theorem Scopes.all_initial : Scopes.initial.All P := by
  have hentries : ∀ entry ∈ Builtin.bindings.map fun binding =>
      (binding.1, Value.builtin binding.2), entry.2.All P := by
    intro entry hentry
    obtain ⟨binding, -, rfl⟩ := List.mem_map.mp hentry
    exact Value.all_of_ne (by simp) (by simp)
  have hglobals := Frame.all_foldl hentries Frame.all_empty
  rw [List.foldl_map] at hglobals
  exact ⟨hglobals, by simp [initial]⟩

def Result.Settled (Q : α → Prop) : Result α → Prop
  | .done a => Q a
  | .failed _ | .crashed => True
  | .cut => False

namespace Action

/-- From a state that satisfies `I` the action comes to an end, and if that is a value it satisfies `Q`.
Then `I` holds after it. -/
def Settles (I : State → Prop) (Q : α → Prop) (m : Action α) : Prop :=
  ∀ s, I s → I (m s).2 ∧ (m s).1.Settled Q

variable {I : State → Prop} {Q : α → Prop} {Q' : β → Prop}

theorem Settles.bind {m : Action α} {f : α → Action β} (hm : m.Settles I Q)
    (hf : ∀ a, Q a → (f a).Settles I Q') : (m >>= f).Settles I Q' := by
  intro s hs
  obtain ⟨hI, hQ⟩ := hm s hs
  rcases hout : m s with ⟨result, t⟩
  rw [hout] at hI hQ
  cases result with
  | done a =>
    rw [bind_of_done hout]
    exact hf a hQ t hI
  | failed e =>
    rw [bind_of_failed hout]
    exact ⟨hI, trivial⟩
  | crashed =>
    rw [bind_of_crashed hout]
    exact ⟨hI, trivial⟩
  | cut => exact hQ.elim

theorem settles_pure {a : α} (h : Q a) : (pure a : Action α).Settles I Q := fun _ hs => ⟨hs, h⟩

theorem settles_fail (pos : Position) (fault : Fault) : (fail pos fault : Action α).Settles I Q :=
  fun _ hs => ⟨hs, trivial⟩

theorem settles_check (pos : Position) {result : Except Fault α} (h : Answers Q result) :
    (check pos result).Settles I Q := by
  cases result with
  | ok a => exact settles_pure h
  | error fault => exact settles_fail pos fault

theorem settles_attempt (pos : Position) {result : Except Fault (Option α)}
    (h : ∀ a, result = .ok (some a) → Q a) : (attempt pos result).Settles I Q := by
  cases result with
  | ok made =>
    cases made with
    | some a => exact settles_pure (h a rfl)
    | none => exact fun _ hs => ⟨hs, trivial⟩
  | error fault => exact settles_fail pos fault

end Action

open Abacus.Action

section Evaluation

variable {d : Nat} {call : Caller}

structure Tame (P : Function → Prop) (d : Nat) (s : State) : Prop where
  scopes : s.scopes.All P
  depth : s.depth = d

def Caller.Settles (P : Function → Prop) (d : Nat) (call : Caller) : Prop :=
  ∀ pos f args, P f → (∀ v ∈ args, v.All P) →
    (call pos f args).Settles (Tame P d) (Value.All P)

theorem settles_lookup (pos : Position) (name : String) :
    (lookup pos name).Settles (Tame P d) (Value.All P) := by
  intro s hs
  rw [lookup]
  cases h : s.scopes.get? name with
  | none => exact ⟨hs, trivial⟩
  | some v => exact ⟨hs, hs.scopes.get? h⟩

theorem settles_callBuiltin (pos : Position) (b : Builtin) {args : List Value}
    (hargs : ∀ v ∈ args, v.All P) : (callBuiltin pos b args).Settles (Tame P d) (Value.All P) := by
  intro s hs
  rw [callBuiltin]
  rcases h : b.call args s.sink with ⟨result, sink⟩
  have hall : ∀ v, result = .ok (some v) → v.All P := by
    rintro v rfl
    exact Builtin.call_all h hargs
  exact settles_attempt pos hall _ ⟨hs.scopes, hs.depth⟩

theorem settles_declare (name : String) {v : Value} (hv : v.All P) {Q : α → Prop} {result : α}
    (h : Q result) : (declare name v result).Settles (Tame P d) Q :=
  fun _ hs => ⟨⟨hs.scopes.insert name hv, hs.depth⟩, h⟩

theorem settles_assign (name : String) {v : Value} (hv : v.All P) {Q : α → Prop} {result : α}
    (h : Q result) : (Action.assign name v result).Settles (Tame P d) Q :=
  fun _ hs => ⟨⟨hs.scopes.assign name hv, hs.depth⟩, h⟩

theorem Action.Settles.within {Q : α → Prop} {m : Action α} (hm : m.Settles (Tame P d) Q) {f : Frame}
    (hf : f.All P) : (m.within f).Settles (Tame P d) Q := by
  intro s hs
  have hpush : Tame P d { s with scopes := s.scopes.push f } :=
    ⟨⟨hs.scopes.globals, List.forall_mem_cons.mpr ⟨hf, hs.scopes.locals⟩⟩, hs.depth⟩
  obtain ⟨hI, hQ⟩ := hm _ hpush
  refine ⟨⟨⟨hI.scopes.globals, fun g hg => ?_⟩, hI.depth⟩, hQ⟩
  exact hI.scopes.locals g (List.mem_of_mem_tail hg)

theorem callValue_settles (hcall : call.Settles P d) (pos : Position) (name : String) {callee : Value}
    (hcallee : callee.All P) {args : List Value} (hargs : ∀ v ∈ args, v.All P) :
    (callValue call pos name callee args).Settles (Tame P d) (Value.All P) := by
  unfold callValue
  split
  · exact hcall pos _ args (Value.all_function.mp hcallee) hargs
  · exact settles_callBuiltin pos _ hargs
  · exact settles_fail pos _

mutual

theorem Expr.eval_settles (hcall : call.Settles P d) :
    ∀ e : Expr, (e.eval call).Settles (Tame P d) (Value.All P)
  | .literal _ v => settles_pure (Value.all_literal v)
  | .var pos name => settles_lookup pos name
  | .unary pos op e => by
    rw [Expr.eval]
    exact (Expr.eval_settles hcall e).bind fun v _ => settles_check pos (op.apply_answers v)
  | .binary pos op l r => by
    rw [Expr.eval]
    refine (Expr.eval_settles hcall l).bind fun v _ => ?_
    exact (Expr.eval_settles hcall r).bind fun w _ => settles_check pos (op.apply_answers v w)
  | .range pos l r => by
    rw [Expr.eval]
    refine (Expr.eval_settles hcall l).bind fun v _ => ?_
    refine (Expr.eval_settles hcall r).bind fun w _ => settles_attempt pos fun made hmade => ?_
    exact (v.bounds_answers w).ok hmade made rfl
  | .call pos name args => by
    rw [Expr.eval]
    refine (settles_lookup pos name).bind fun callee hcallee => ?_
    refine (Expr.evalAll_settles hcall args [] (by simp)).bind fun vs hvs => ?_
    exact callValue_settles hcall pos name hcallee hvs
  | .array _ es => by
    rw [Expr.eval]
    refine (Expr.evalAll_settles hcall es [] (by simp)).bind fun vs hvs => ?_
    exact settles_pure (Value.all_array.mpr hvs)

theorem Expr.evalAll_settles (hcall : call.Settles P d) :
    ∀ (es : List Expr) (done : List Value), (∀ v ∈ done, v.All P) →
      (Expr.evalAll call es done).Settles (Tame P d) fun vs => ∀ v ∈ vs, v.All P
  | [], done, hdone => by
    rw [Expr.evalAll]
    exact settles_pure fun v hv => hdone v (List.mem_reverse.mp hv)
  | e :: es, done, hdone => by
    rw [Expr.evalAll]
    refine (Expr.eval_settles hcall e).bind fun v hv => ?_
    exact Expr.evalAll_settles hcall es (v :: done) (List.forall_mem_cons.mpr ⟨hv, hdone⟩)

end

def Flow.All (P : Function → Prop) (flow : Flow) : Prop := flow.value.All P

theorem iterate_settles {body : Action Flow} (hbody : body.Settles (Tame P d) (Flow.All P))
    (name : String) {vs : List Value} (hvs : ∀ v ∈ vs, v.All P) :
    (iterate name body vs).Settles (Tame P d) (Flow.All P) := by
  induction vs with
  | nil => exact settles_pure Value.all_none
  | cons v vs ih =>
    obtain ⟨hv, hrest⟩ := List.forall_mem_cons.mp hvs
    rw [iterate_cons]
    refine (hbody.within (Frame.all_empty.insert name hv)).bind fun flow hflow => ?_
    cases flow with
    | normal w => exact ih hrest
    | returned w => exact settles_pure hflow

mutual

theorem Stmt.exec_settles (hcall : call.Settles Function.WhileFree d) (rounds : Nat) :
    ∀ st : Stmt, st.loops = false →
      (st.exec rounds call).Settles (Tame Function.WhileFree d) (Flow.All Function.WhileFree)
  | .declare name _ e, _ => by
    rw [Stmt.exec]
    exact (e.eval_settles hcall).bind fun v hv => settles_declare name hv hv
  | .define name params _ body, hst => by
    rw [Stmt.exec]
    exact settles_declare name (Value.all_function.mpr hst) Value.all_none
  | .ifThen c body, hst => by
    rw [Stmt.exec]
    refine (c.eval_settles hcall).bind fun v _ => ?_
    split
    · exact Stmt.execAll_settles hcall rounds body Value.all_none hst
    · exact settles_pure Value.all_none
  | .ifElse c yes no, hst => by
    rw [Stmt.loops, Bool.or_eq_false_iff] at hst
    rw [Stmt.exec]
    refine (c.eval_settles hcall).bind fun v _ => ?_
    split
    · exact Stmt.execAll_settles hcall rounds yes Value.all_none hst.1
    · exact Stmt.execAll_settles hcall rounds no Value.all_none hst.2
  | .forEach name e body, hst => by
    rw [Stmt.exec]
    refine (e.eval_settles hcall).bind fun v hv => ?_
    split
    · have hbody := Stmt.execAll_settles hcall rounds body Value.all_none hst
      exact iterate_settles hbody name (Value.all_array.mp hv)
    · exact settles_fail _ _
  | .ret e, _ => by
    rw [Stmt.exec]
    exact (e.eval_settles hcall).bind fun v hv => settles_pure hv
  | .assign name e, _ => by
    rw [Stmt.exec]
    exact (e.eval_settles hcall).bind fun v hv => settles_assign name hv hv
  | .expr e, _ => by
    rw [Stmt.exec]
    exact (e.eval_settles hcall).bind fun v hv => settles_pure hv

theorem Stmt.execAll_settles (hcall : call.Settles Function.WhileFree d) (rounds : Nat) :
    ∀ (ss : List Stmt) {last : Value}, last.All Function.WhileFree → Stmt.anyLoops ss = false →
      (Stmt.execAll rounds call ss last).Settles (Tame Function.WhileFree d)
        (Flow.All Function.WhileFree)
  | [], last, hlast, _ => by
    rw [Stmt.execAll]
    exact settles_pure hlast
  | st :: ss, last, _, hss => by
    rw [Stmt.anyLoops, Bool.or_eq_false_iff] at hss
    rw [Stmt.execAll]
    refine (Stmt.exec_settles hcall rounds st hss.1).bind fun flow hflow => ?_
    cases flow with
    | normal v => exact Stmt.execAll_settles hcall rounds ss hflow hss.2
    | returned v => exact settles_pure hflow

end

theorem Result.Settled.ofBody {result : Result Flow} (h : result.Settled (Flow.All P)) :
    result.ofBody.Settled (Value.All P) := by
  cases result with
  | done flow =>
    cases flow with
    | normal v => exact Value.all_none
    | returned v => exact h
  | failed e => trivial
  | crashed => trivial
  | cut => exact h

/-- A budget of one more than the calls that the limit leaves is enough: the depth grows with every
call for which it is spent. -/
theorem callFunction_settles (limit : Nat) {budget : Nat} (h : limit - d < budget) :
    (callFunction limit budget).Settles Function.WhileFree d := by
  induction budget generalizing d with
  | zero => exact absurd h (Nat.not_lt_zero _)
  | succ budget ih =>
    intro pos f args hf hargs s hs
    rw [callFunction_succ]
    split
    · exact ⟨hs, trivial⟩
    split
    · exact ⟨hs, trivial⟩
    have hdepth := hs.depth
    have hleft : limit - (d + 1) < budget := by omega
    have henter : Tame Function.WhileFree (d + 1) (s.enter (.ofArguments f.params args)) :=
      ⟨⟨hs.scopes.globals, List.forall_mem_singleton.mpr (Frame.all_ofArguments f.params hargs)⟩,
        congrArg (· + 1) hdepth⟩
    obtain ⟨ht, hbody⟩ :=
      Stmt.execAll_settles (ih hleft) budget f.body Value.all_none hf _ henter
    refine ⟨⟨⟨ht.scopes.globals, hs.scopes.locals⟩, ?_⟩, hbody.ofBody⟩
    change _ - 1 = d
    rw [ht.depth, Nat.add_sub_cancel]

end Evaluation

namespace Program

theorem run_settles (limit : Nat) {budget d : Nat} (h : limit - d < budget) {p : Program}
    (hp : Stmt.anyLoops p = false) :
    (p.run limit budget).Settles (Tame Function.WhileFree d) (Value.All Function.WhileFree) := by
  have hcall := callFunction_settles limit h
  refine (Stmt.execAll_settles hcall budget p Value.all_none hp).bind fun flow hflow => ?_
  exact settles_pure hflow

theorem whileFree_ends {p : Program} (hp : Stmt.anyLoops p = false) {s : State}
    (hs : s.scopes.All Function.WhileFree) (limit : Nat) :
    ∃ result t, p.Ends limit s result t ∧
      ∀ budget, limit - s.depth < budget → p.run limit budget s = (result, t) := by
  have hlow : limit - s.depth < limit - s.depth + 1 := Nat.lt_succ_self _
  rcases hrun : p.run limit (limit - s.depth + 1) s with ⟨result, t⟩
  have hcut : result ≠ .cut := by
    have hsettled := (run_settles limit hlow hp s ⟨hs, rfl⟩).2
    rw [hrun] at hsettled
    intro hcut
    rw [hcut] at hsettled
    exact hsettled
  exact ⟨result, t, ⟨hcut, _, hrun⟩, fun budget hbudget => run_mono hbudget hcut hrun⟩

/-- A program without `while` comes to one end in every state in which no function with a `while` is
bound, whatever budget above the number of nested calls left it gets. The end is a value or an error
just if the run reaches no range that there is no room for, and else a crash. -/
theorem whileFree_answers_iff {p : Program} (hp : Stmt.anyLoops p = false) {s : State}
    (hs : s.scopes.All Function.WhileFree) (limit : Nat) :
    ∃ result t, p.Ends limit s result t ∧
      (∀ budget, limit - s.depth < budget → p.run limit budget s = (result, t)) ∧
      ((∃ v, result = .done v) ∨ (∃ e, result = .failed e) ↔ ¬ p.Exhausts limit s) ∧
      (result = .crashed ↔ p.Exhausts limit s) := by
  obtain ⟨result, t, hends, hall⟩ := whileFree_ends hp hs limit
  have hcrash : result = .crashed ↔ p.Exhausts limit s := by
    rw [← crashes_iff]
    constructor
    · rintro rfl
      exact ⟨t, hends⟩
    · rintro ⟨u, hcrashes⟩
      exact (hcrashes.eq hends).1
  refine ⟨result, t, hends, hall, ?_, hcrash⟩
  rw [← hcrash]
  cases result with
  | done v => simp
  | failed e => simp
  | crashed => simp
  | cut => exact absurd rfl hends.1

/-- A function in an array of the state is bound by a loop, calls what it is given with that itself,
and so on to the limit. -/
theorem whileFree_answers_iff_selfCall :
    let f : Function := ⟨"f", ["g"], [.ret (.call ⟨1, 1⟩ "g" [.var ⟨1, 3⟩ "g"])]⟩
    let p : Program := [.forEach "h" (.var ⟨2, 10⟩ "fs") [.expr (.call ⟨2, 15⟩ "h" [.var ⟨2, 17⟩ "h"])]]
    let s : State := ⟨⟨⟨[("fs", .array [.function f])]⟩, []⟩, 0, .unlimited⟩
    Stmt.anyLoops p = false ∧ s.scopes.All Function.WhileFree ∧ ¬ p.Exhausts 3 s ∧
      ∃ t, p.Ends 3 s (.failed ⟨.tooDeep 3 "f", ⟨1, 1⟩⟩) t ∧
        ∀ budget, 3 < budget → p.run 3 budget s = (.failed ⟨.tooDeep 3 "f", ⟨1, 1⟩⟩, t) := by
  intro f p s
  have hs : s.scopes.All Function.WhileFree := by
    refine ⟨fun name v hv => ?_, by simp [s]⟩
    by_cases hname : name = "fs"
    · subst hname
      cases hv
      exact Value.all_array.mpr (List.forall_mem_singleton.mpr (Value.all_function.mpr rfl))
    · have hunbound : (name == "fs") = false := by simpa using hname
      simp [s, Frame.get?, List.lookup_cons, hunbound] at hv
  obtain ⟨result, t, hends, hall, hanswers, -⟩ := whileFree_answers_iff (p := p) rfl hs 3
  have hfour : p.run 3 4 s = (.failed ⟨.tooDeep 3 "f", ⟨1, 1⟩⟩, _) := rfl
  obtain ⟨rfl, -⟩ := Prod.mk.inj ((hall 4 (by decide)).symm.trans hfour)
  exact ⟨rfl, hs, hanswers.mp (.inr ⟨_, rfl⟩), t, hends, hall⟩

/-- A text that asks for a range of `2 ^ 63 - 1` integers. It has no `while`, and in a new session it ends
neither with a value nor with an error. -/
theorem whileFree_crashes_large :
    let p : Program := [.expr (.range ⟨1, 1⟩ (.literal ⟨1, 1⟩ (.int 0))
      (.literal ⟨1, 4⟩ (.int 9223372036854775807)))]
    (Token.tokenize "0..9223372036854775807;" >>= parse) = .ok p ∧ Stmt.anyLoops p = false ∧
    ∀ limit sink, let s := (Session.start limit sink).state
      s.scopes.All Function.WhileFree ∧ p.Exhausts limit s ∧
        ¬ ∃ result t, p.Ends limit s result t ∧ ((∃ v, result = .done v) ∨ ∃ e, result = .failed e) := by
  intro p
  have read : (Token.tokenize "0..9223372036854775807;" >>= parse) = .ok p := by
    with_unfolding_all rfl
  refine ⟨read, rfl, fun limit sink => ?_⟩
  intro s
  refine ⟨Scopes.all_initial, ?_⟩
  have literal (pos : Position) (n : Int64) :
      (Job.expr (.literal pos (.int n))).Ends limit s (.done (.normal (.int n))) s :=
    ⟨by simp, 0, rfl⟩
  have hexhausts : p.Exhausts limit s :=
    ⟨[], _, s, s, .tail (.single .statement) (.subject rfl),
      .range (literal _ 0) (literal _ 9223372036854775807) (by decide)⟩
  refine ⟨hexhausts, ?_⟩
  rintro ⟨result, t, hends, hanswers⟩
  obtain ⟨u, hcrashes⟩ := crashes_iff.mpr hexhausts
  obtain ⟨rfl, -⟩ := hends.eq hcrashes
  simp at hanswers

end Program

end Abacus
