import Abacus.Proofs.Frames
import Abacus.Proofs.Simulation
import Mathlib.Logic.Relation

/-!
# The points of a run

A run evaluates the parts of a program one inside another. A point of the run is where the evaluation
of a part begins: the part, the state, and the functions whose bodies are being executed, the innermost
first. What begins inside of what is said by rules, which speak of how the parts before it end. Points
are therefore there also in a run that never ends.
-/

namespace Abacus

/-- What is evaluated by itself: an expression, the rest of a list of expressions, a call of a function,
a statement, the rest of a block or the rest of the rounds of a loop. -/
inductive Job where
  | expr (e : Expr)
  | exprs (es : List Expr) (done : List Value)
  | call (pos : Position) (f : Function) (args : List Value)
  | stmt (st : Stmt)
  | block (ss : List Stmt) (last : Value)
  | rounds (name : String) (body : List Stmt) (vs : List Value)

/-- Evaluates a job. The values of several expressions are given back as an array. -/
def Job.run (limit budget : Nat) : Job → Action Flow
  | expr e => do return .normal (← e.eval (callFunction limit budget))
  | exprs es done => do return .normal (.array (← Expr.evalAll (callFunction limit budget) es done))
  | call pos f args => do return .normal (← callFunction limit budget pos f args)
  | stmt st => st.exec budget (callFunction limit budget)
  | block ss last => Stmt.execAll budget (callFunction limit budget) ss last
  | rounds name body vs =>
    iterate name (Stmt.execAll budget (callFunction limit budget) body .none) vs

def Job.Ends (limit : Nat) (job : Job) (s : State) (result : Result Flow) (t : State) : Prop :=
  result ≠ .cut ∧ ∃ budget, job.run limit budget s = (result, t)

def Stmt.subject? : Stmt → Option Expr
  | declare _ _ e | ifThen e _ | ifElse e _ _ | forEach _ e _ | loop e _ | ret e | assign _ e | expr e =>
    some e
  | define .. => none

def Stmt.branch? : Stmt → Bool → Option (List Stmt)
  | ifThen _ body, true | loop _ body, true => some body
  | ifElse _ yes no, truth => some (if truth then yes else no)
  | _, _ => none

structure Point where
  active : List Function
  job : Job
  state : State

inductive Starts (limit : Nat) : Point → Point → Prop
  | operand {active pos op e s} :
      Starts limit ⟨active, .expr (.unary pos op e), s⟩ ⟨active, .expr e, s⟩
  | left {active pos op l r s} :
      Starts limit ⟨active, .expr (.binary pos op l r), s⟩ ⟨active, .expr l, s⟩
  | right {active pos op l r s v t} : Job.Ends limit (.expr l) s (.done (.normal v)) t →
      Starts limit ⟨active, .expr (.binary pos op l r), s⟩ ⟨active, .expr r, t⟩
  | lower {active pos l r s} :
      Starts limit ⟨active, .expr (.range pos l r), s⟩ ⟨active, .expr l, s⟩
  | upper {active pos l r s v t} : Job.Ends limit (.expr l) s (.done (.normal v)) t →
      Starts limit ⟨active, .expr (.range pos l r), s⟩ ⟨active, .expr r, t⟩
  | elements {active pos es s} :
      Starts limit ⟨active, .expr (.array pos es), s⟩ ⟨active, .exprs es [], s⟩
  | arguments {active pos name args s callee} : s.scopes.get? name = some callee →
      Starts limit ⟨active, .expr (.call pos name args), s⟩ ⟨active, .exprs args [], s⟩
  | call {active pos name args s f vs t} : s.scopes.get? name = some (.function f) →
      Job.Ends limit (.exprs args []) s (.done (.normal (.array vs))) t →
      Starts limit ⟨active, .expr (.call pos name args), s⟩ ⟨active, .call pos f vs, t⟩
  | head {active e es done s} :
      Starts limit ⟨active, .exprs (e :: es) done, s⟩ ⟨active, .expr e, s⟩
  | tail {active e es done s v t} : Job.Ends limit (.expr e) s (.done (.normal v)) t →
      Starts limit ⟨active, .exprs (e :: es) done, s⟩ ⟨active, .exprs es (v :: done), t⟩
  | enter {active pos f args s} : args.length = f.params.length → s.depth < limit →
      Starts limit ⟨active, .call pos f args, s⟩
        ⟨f :: active, .block f.body .none, s.enter (.ofArguments f.params args)⟩
  | subject {active st e s} : st.subject? = some e →
      Starts limit ⟨active, .stmt st, s⟩ ⟨active, .expr e, s⟩
  | branch {active st c body s v t} : st.subject? = some c →
      Job.Ends limit (.expr c) s (.done (.normal v)) t → st.branch? v.isTruthy = some body →
      Starts limit ⟨active, .stmt st, s⟩ ⟨active, .block body .none, t⟩
  | again {active c body s v t w u} : Job.Ends limit (.expr c) s (.done (.normal v)) t →
      v.isTruthy → Job.Ends limit (.block body .none) t (.done (.normal w)) u →
      Starts limit ⟨active, .stmt (.loop c body), s⟩ ⟨active, .stmt (.loop c body), u⟩
  | traverse {active name e body s vs t} :
      Job.Ends limit (.expr e) s (.done (.normal (.array vs))) t →
      Starts limit ⟨active, .stmt (.forEach name e body), s⟩ ⟨active, .rounds name body vs, t⟩
  | round {active name body v vs s} :
      Starts limit ⟨active, .rounds name body (v :: vs), s⟩
        ⟨active, .block body .none, { s with scopes := s.scopes.push (Frame.empty.insert name v) }⟩
  | nextRound {active name body v vs s w t} :
      Job.Ends limit (.block body .none)
        { s with scopes := s.scopes.push (Frame.empty.insert name v) } (.done (.normal w)) t →
      Starts limit ⟨active, .rounds name body (v :: vs), s⟩
        ⟨active, .rounds name body vs, { t with scopes := t.scopes.pop }⟩
  | statement {active st ss last s} :
      Starts limit ⟨active, .block (st :: ss) last, s⟩ ⟨active, .stmt st, s⟩
  | rest {active st ss last s v t} : Job.Ends limit (.stmt st) s (.done (.normal v)) t →
      Starts limit ⟨active, .block (st :: ss) last, s⟩ ⟨active, .block ss v, t⟩

def Reaches (limit : Nat) : Point → Point → Prop := Relation.ReflTransGen (Starts limit)

def Program.start (p : Program) (s : State) : Point := ⟨[], .block p .none, s⟩

section Budget

theorem mirror_eq (lost : RuntimeError → Prop) : Mirror Eq lost where
  depth h := congrArg State.depth h
  enter h f := congrArg (State.enter · f) h
  leave h h' := by rw [h, h']
  lookup h name := by rw [h]
  builtin pos b args s t h := .inr (by simp [h])
  declare h name v := by rw [h]
  assign h name v := by rw [h]
  push h f := by rw [h]
  pop h := by rw [h]

variable {lost : RuntimeError → Prop} {limit limit' budget budget' : Nat}

theorem callFunction_mirrored_eq (hlimit : limit ≤ limit')
    (hdeep : limit = limit' ∨ ∀ name pos, lost ⟨.tooDeep limit name, pos⟩) (hle : budget ≤ budget') :
    (callFunction limit budget).Mirrored Eq lost (callFunction limit' budget') :=
  callFunction_mirrored (mirror_eq lost) (mirror_eq lost).toEncloses hlimit hdeep hle

theorem Job.run_mirrored (hlimit : limit ≤ limit')
    (hdeep : limit = limit' ∨ ∀ name pos, lost ⟨.tooDeep limit name, pos⟩) (hle : budget ≤ budget')
    (job : Job) : Action.Mirrored Eq lost (job.run limit budget) (job.run limit' budget') := by
  have hS := mirror_eq lost
  have hcall := callFunction_mirrored_eq hlimit hdeep hle
  cases job with
  | expr e => exact (e.eval_mirrored hS hcall).bind fun v => Action.mirrored_pure _
  | exprs es done =>
    exact (Expr.evalAll_mirrored hS hcall es done).bind fun vs => Action.mirrored_pure _
  | call pos f args => exact (hcall pos f args).bind fun v => Action.mirrored_pure _
  | stmt st => exact st.exec_mirrored hS hcall hle
  | block ss last => exact Stmt.execAll_mirrored hS hcall hle ss last
  | rounds name body vs =>
    exact iterate_mirrored hS (Stmt.execAll_mirrored hS hcall hle body .none) name vs

theorem Action.Mirrored.eq {m n : Action α} (h : Mirrored Eq lost m n) {s t : State} {result : Result α}
    (hrun : m s = (result, t)) (hkept : ¬ result.Lost lost) : n s = (result, t) := by
  have hside := h s s rfl
  rw [hrun] at hside
  obtain ⟨hresult, hstate⟩ := hside.resolve_left hkept
  exact Prod.ext hresult.symm hstate.symm

theorem Result.not_lost {result : Result α} (hcut : result ≠ .cut)
    (herror : ∀ e, result = .failed e → ¬ lost e) : ¬ result.Lost lost := by
  cases result with
  | done a => exact id
  | failed e => exact herror e rfl
  | crashed => exact id
  | cut => exact (hcut rfl).elim

theorem Job.run_mono {job : Job} {s t : State} {result : Result Flow} (hle : budget ≤ budget')
    (hcut : result ≠ .cut) (hrun : job.run limit budget s = (result, t)) :
    job.run limit budget' s = (result, t) := by
  have hkept : ¬ result.Lost fun _ => False := Result.not_lost hcut fun _ _ => id
  exact (job.run_mirrored (Nat.le_refl limit) (.inl rfl) hle).eq hrun hkept

end Budget

section Depth

variable {limit : Nat}

theorem Job.run_balanced (limit budget : Nat) (job : Job) :
    (job.run limit budget).Keeps State.Balanced := by
  have hquiet := State.balanced_stable.toQuiet
  have hcall := callFunction_balanced limit budget
  cases job with
  | expr e => exact (e.eval_keeps hquiet hcall).bind hquiet fun v => Action.keeps_pure hquiet _
  | exprs es done =>
    exact (Expr.evalAll_keeps hquiet hcall es done).bind hquiet fun vs => Action.keeps_pure hquiet _
  | call pos f args => exact (hcall pos f args).bind hquiet fun v => Action.keeps_pure hquiet _
  | stmt st => exact st.exec_balanced limit budget budget
  | block ss last => exact Stmt.execAll_balanced limit budget budget ss last
  | rounds name body vs =>
    exact iterate_keeps State.balanced_stable (Stmt.execAll_balanced limit budget budget body .none) name vs

theorem Job.Ends.depth {job : Job} {s t : State} {result : Result Flow}
    (h : job.Ends limit s result t) : t.depth = s.depth := by
  obtain ⟨-, budget, hrun⟩ := h
  have hdepth := (job.run_balanced limit budget s).depth
  rw [hrun] at hdepth
  exact hdepth

/-- The depth counts the bodies that are being executed, which the limit bounds. -/
structure Point.Counted (limit : Nat) (p : Point) : Prop where
  depth : p.state.depth = p.active.length
  bound : p.active.length ≤ limit

theorem Starts.counted {p q : Point} (h : Starts limit p q) (hp : p.Counted limit) :
    q.Counted limit := by
  obtain ⟨hdepth, hbound⟩ := hp
  cases h with
  | operand | left | lower | elements | arguments | head | subject | round | statement =>
    exact ⟨hdepth, hbound⟩
  | right hends | upper hends | call _ hends | tail hends | branch _ hends _ | traverse hends
  | nextRound hends | rest hends => exact ⟨hends.depth.trans hdepth, hbound⟩
  | again hcond _ hbody => exact ⟨(hbody.depth.trans hcond.depth).trans hdepth, hbound⟩
  | enter _ hlow =>
    dsimp only at hdepth
    refine ⟨congrArg (· + 1) hdepth, ?_⟩
    rw [hdepth] at hlow
    exact hlow

theorem Reaches.counted {p q : Point} (h : Reaches limit p q) (hp : p.Counted limit) :
    q.Counted limit := by
  induction h with
  | refl => exact hp
  | tail _ hstep ih => exact hstep.counted ih

end Depth

end Abacus
