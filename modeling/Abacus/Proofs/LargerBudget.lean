import Abacus.Proofs.Cursor
import Mathlib.Tactic.SplitIfs

/-!
# A larger budget

What a walk gives with a budget it gives with every larger one. So the budget only decides whether a
walk is followed to its end.
-/

namespace Abacus.Walk

open Abacus.Parser (connective? unaryOp?)

section Covers

variable {α β : Type} {w w' : Walk α} {v v' : α → Walk β}

def Covers (w w' : Walk α) : Prop := ∀ c x, w c = some x → w' c = some x

theorem Covers.refl (w : Walk α) : Covers w w := fun _ _ h => h

theorem covers_cut (w : Walk α) : Covers cut w := fun _ _ h => by cases h

theorem Covers.bind (hw : Covers w w') (hv : ∀ a, Covers (v a) (v' a)) :
    Covers (w >>= v) (w' >>= v') := by
  intro c x h
  simp only [Bind.bind, ExceptT.bind, ExceptT.mk, StateT.bind] at h ⊢
  rcases hc : w c with _ | ⟨e | a, after⟩ <;> rw [hc] at h
  · cases h
  · rw [hw c _ hc]
    exact h
  · rw [hw c _ hc]
    exact hv a after x h

theorem Covers.then (hv : ∀ a, Covers (v a) (v' a)) : Covers (w >>= v) (w >>= v') :=
  .bind (.refl w) hv

theorem Covers.ite {b : Prop} [Decidable b] {u u' : Walk α} (hw : Covers w w') (hu : Covers u u') :
    Covers (if b then w else u) (if b then w' else u') := by
  split_ifs
  · exact hw
  · exact hu

theorem covers_of_le {w : Nat → Walk α} (h : ∀ n, Covers (w n) (w (n + 1))) {n m : Nat}
    (hnm : n ≤ m) : Covers (w n) (w m) := by
  induction hnm with
  | refl => exact .refl _
  | step _ ih => exact fun c x hx => h _ c x (ih c x hx)

theorem Covers.deeper (hw : Covers w w') : Covers (deeper w) (deeper w') := by
  intro c x h
  simp only [Walk.deeper] at h ⊢
  rcases hc : w { c with depth := c.depth + 1 } with _ | p <;> rw [hc] at h
  · cases h
  · rw [hw _ _ hc]
    exact h

end Covers

section Expressions

variable {ts : List Token}

/-- The walks over expressions with a budget, beside those with one more. -/
structure ExpressionsCovered (ts : List Token) (n : Nat) : Prop where
  climb : ∀ level, Covers (climb ts n level) (climb ts (n + 1) level)
  climbFrom : ∀ level left, Covers (climbFrom ts n level left) (climbFrom ts (n + 1) level left)
  operand : Covers (operand ts n) (operand ts (n + 1))
  callable : Covers (callable ts n) (callable ts (n + 1))
  calls : ∀ e, Covers (calls ts n e) (calls ts (n + 1) e)
  arguments : ∀ done, Covers (arguments ts n done) (arguments ts (n + 1) done)
  elements : ∀ done, Covers (elements ts n done) (elements ts (n + 1) done)
  primary : Covers (primary ts n) (primary ts (n + 1))

theorem expressions_covered (n : Nat) : ExpressionsCovered ts n := by
  induction n with
  | zero =>
    exact ⟨fun _ => covers_cut _, fun _ _ => covers_cut _, covers_cut _, covers_cut _,
      fun _ => covers_cut _, fun _ => covers_cut _, fun _ => covers_cut _, covers_cut _⟩
  | succ n ih =>
    constructor
    case climb =>
      intro level
      rw [climb, climb]
      exact ih.operand.bind fun left => ih.climbFrom level left
    case climbFrom =>
      intro level left
      rw [climbFrom, climbFrom]
      refine .then fun next => ?_
      rcases connective? next.kind with _ | link
      · exact .refl _
      refine .ite (.refl _) (.then fun t => (ih.climb _).bind fun right => .then fun next => ?_)
      exact .ite (.refl _) (ih.climbFrom level _)
    case operand =>
      rw [operand, operand]
      refine .then fun t => ?_
      rcases unaryOp? t.kind with _ | op
      · exact ih.callable
      · exact .then fun _ => ih.operand.bind fun _ => .refl _
    case callable =>
      rw [callable, callable]
      exact ih.primary.bind fun e => ih.calls e
    case calls =>
      intro e
      rw [calls.eq_def, calls.eq_def]
      refine .then fun found => .ite ?_ (.refl _)
      cases e with
      | var pos name =>
        refine .then fun _ => .then fun found => .ite ?_ ?_
        · exact .then fun args => .then fun _ => ih.calls _
        · exact (ih.arguments []).bind fun args => .then fun _ => ih.calls _
      | _ => exact .refl _
    case arguments =>
      intro done
      rw [arguments, arguments]
      refine (ih.climb 0).bind fun e => .then fun found => .ite ?_ (.refl _)
      exact .then fun _ => ih.arguments _
    case elements =>
      intro done
      rw [elements, elements]
      refine .then fun found => .ite (.refl _) ?_
      refine (ih.climb 0).bind fun e => .then fun found => .ite ?_ (.refl _)
      exact .then fun _ => ih.elements _
    case primary =>
      rw [primary, primary]
      refine .then fun t => .ite (.refl _) (.ite (.refl _) (.ite ?_ (.ite ?_ (.refl _))))
      · exact .then fun _ => (ih.elements []).bind fun _ => .refl _
      · exact .then fun _ => (ih.climb 0).bind fun _ => .refl _

end Expressions

section Statements

variable {ts : List Token}

theorem covers_scan (n depth : Nat) : Covers (scan ts n depth) (scan ts (n + 1) depth) := by
  induction n generalizing depth with
  | zero => exact covers_cut _
  | succ n ih =>
    rw [scan, scan]
    refine .then fun t => .ite (ih _) (.ite (.ite (.refl _) (ih _)) (.ite (.refl _) (ih _)))

theorem covers_parameters (n : Nat) (done : List Param) :
    Covers (parameters ts n done) (parameters ts (n + 1) done) := by
  induction n generalizing done with
  | zero => exact covers_cut _
  | succ n ih =>
    rw [parameters, parameters]
    exact .then fun _ => .then fun _ => .then fun _ => .ite (.then fun _ => ih _) (.refl _)

theorem covers_isFunction (n : Nat) : Covers (isFunction ts n) (isFunction ts (n + 1)) :=
  .then fun _ => .then fun _ => (covers_scan n 0).bind fun _ => .refl _

theorem covers_head (n : Nat) : Covers (head ts n) (head ts (n + 1)) :=
  .then fun _ => .then fun _ => .then fun _ =>
    .ite (.refl _) ((covers_parameters n []).bind fun _ => .refl _)

theorem covers_expr (n : Nat) : Covers (expr ts n) (expr ts (n + 1)) := (expressions_covered n).climb 0

theorem covers_closed (n : Nat) (place : SyntaxError.Place) :
    Covers (closed ts n place) (closed ts (n + 1) place) :=
  (covers_expr n).bind fun _ => .refl _

theorem covers_declaration (n : Nat) : Covers (declaration ts n) (declaration ts (n + 1)) :=
  .then fun _ => .then fun _ => .then fun _ => .then fun _ => (covers_closed n _).bind fun _ => .refl _

theorem covers_assignment (n : Nat) : Covers (assignment ts n) (assignment ts (n + 1)) :=
  .then fun _ => .then fun _ => (covers_closed n _).bind fun _ => .refl _

theorem covers_expression (n : Nat) : Covers (expression ts n) (expression ts (n + 1)) :=
  (covers_closed n _).bind fun _ => .refl _

theorem covers_returned (n : Nat) : Covers (returned ts n) (returned ts (n + 1)) :=
  .then fun _ => .then fun _ => .ite (.refl _) ((covers_closed n _).bind fun _ => .refl _)

structure StatementsCovered (ts : List Token) (n : Nat) : Prop where
  statement : Covers (statement ts n) (statement ts (n + 1))
  conditional : Covers (conditional ts n) (conditional ts (n + 1))
  forLoop : Covers (forLoop ts n) (forLoop ts (n + 1))
  whileLoop : Covers (whileLoop ts n) (whileLoop ts (n + 1))
  function : Covers (function ts n) (function ts (n + 1))
  body : Covers (body ts n) (body ts (n + 1))
  block : Covers (block ts n) (block ts (n + 1))
  statements : ∀ done, Covers (statements ts n done) (statements ts (n + 1) done)

theorem statements_covered (n : Nat) : StatementsCovered ts n := by
  induction n with
  | zero =>
    exact ⟨covers_cut _, covers_cut _, covers_cut _, covers_cut _, covers_cut _, covers_cut _,
      covers_cut _, fun _ => covers_cut _⟩
  | succ n ih =>
    constructor
    case statement =>
      rw [statement, statement]
      refine .then fun t => ?_
      cases t.kind with
      | kwVar => exact covers_declaration n
      | question => exact ih.conditional
      | kwFor => exact ih.forLoop
      | kwWhile => exact ih.whileLoop
      | kwReturn => exact covers_returned n
      | ident =>
        refine .then fun c => .ite ?_ (.ite (covers_assignment n) (covers_expression n))
        exact (covers_isFunction n).bind fun found => .ite ih.function (covers_expression n)
      | _ => exact covers_expression n
    case conditional =>
      rw [conditional, conditional]
      refine .then fun _ => (covers_expr n).bind fun cond => ih.block.bind fun yes => ?_
      exact .then fun found => .ite (.then fun _ => ih.block.bind fun no => .refl _) (.refl _)
    case forLoop =>
      rw [forLoop, forLoop]
      refine .then fun _ => .then fun name => .then fun _ => (covers_expr n).bind fun values => ?_
      exact ih.block.bind fun body => .refl _
    case whileLoop =>
      rw [whileLoop, whileLoop]
      exact .then fun _ => (covers_expr n).bind fun cond => ih.block.bind fun body => .refl _
    case function =>
      rw [function, function]
      exact (covers_head n).bind fun signature => ih.body.deeper.bind fun body => .refl _
    case body =>
      rw [body, body]
      exact .then fun found => .ite ih.block ((covers_closed n _).bind fun value => .refl _)
    case block =>
      rw [block, block]
      exact .then fun _ => (ih.statements []).bind fun ss => .refl _
    case statements =>
      intro done
      rw [statements, statements]
      refine .then fun found => .then fun ended => .ite (.refl _) ?_
      exact ih.statement.bind fun s => ih.statements _

theorem covers_program (n : Nat) (done : List Stmt) :
    Covers (program ts n done) (program ts (n + 1) done) := by
  induction n generalizing done with
  | zero => exact covers_cut _
  | succ n ih =>
    rw [program, program]
    refine .then fun ended => .ite (.refl _) ?_
    exact (statements_covered n).statement.bind fun s => ih _

end Statements

end Abacus.Walk
