import Abacus.Proofs.Rounding
import Abacus.Value

/-!
# Equality is symmetric and fails on itself only for NaN

Equality goes through arrays and through the bodies of functions, down to the literals, and compares
numbers at the ends. A float that is no number differs from everything, itself included. Nothing else
differs from itself: a value equals itself exactly when no NaN occurs in it, however deep it stands in
arrays or in the body of a function.
-/

namespace Abacus

section Occurrence

def Literal.isNaN : Literal → Bool
  | float x => x.isNaN
  | _ => false

mutual

def Expr.hasNaN : Expr → Bool
  | .literal _ v => v.isNaN
  | .var .. => false
  | .unary _ _ e => Expr.hasNaN e
  | .binary _ _ l r | .range _ l r => Expr.hasNaN l || Expr.hasNaN r
  | .call _ _ es | .array _ es => Expr.anyNaN es

def Expr.anyNaN : List Expr → Bool
  | [] => false
  | e :: es => Expr.hasNaN e || Expr.anyNaN es

end

mutual

def Stmt.hasNaN : Stmt → Bool
  | .declare _ _ e | .ret e | .assign _ e | .expr e => e.hasNaN
  | .define _ _ _ body => Stmt.anyNaN body
  | .ifThen c body | .forEach _ c body | .loop c body => c.hasNaN || Stmt.anyNaN body
  | .ifElse c yes no => c.hasNaN || Stmt.anyNaN yes || Stmt.anyNaN no

def Stmt.anyNaN : List Stmt → Bool
  | [] => false
  | s :: ss => Stmt.hasNaN s || Stmt.anyNaN ss

end

mutual

/-- Whether NaN occurs in a value: as a number, or as a literal in the body of a function. -/
def Value.hasNaN : Value → Bool
  | .float x => x.isNaN
  | .array vs => Value.anyNaN vs
  | .function f => Stmt.anyNaN f.body
  | .none | .int _ | .text _ | .bool _ | .builtin _ => false

def Value.anyNaN : List Value → Bool
  | [] => false
  | v :: vs => Value.hasNaN v || Value.anyNaN vs

end

end Occurrence

section Reflexivity

theorem Binary64.eq_self (x : Binary64) : x.eq x = !x.isNaN := by
  rw [Binary64.eq, beq_self_eq_true, Bool.and_true, Bool.and_self]

theorem Literal.same_self (v : Literal) : v.same v = !v.isNaN := by
  cases v with
  | float x => exact x.eq_self
  | int | text | bool => simp [Literal.same, Literal.isNaN]

mutual

theorem Expr.same_self : ∀ e : Expr, e.same e = !e.hasNaN
  | .literal _ v => by simp [Expr.same, Expr.hasNaN, v.same_self]
  | .var .. => by simp [Expr.same, Expr.hasNaN]
  | .unary _ _ e => by simp [Expr.same, Expr.hasNaN, Expr.same_self e]
  | .binary _ _ l r | .range _ l r => by
    simp [Expr.same, Expr.hasNaN, Expr.same_self l, Expr.same_self r]
  | .call _ _ es | .array _ es => by simp [Expr.same, Expr.hasNaN, Expr.sameAll_self es]

theorem Expr.sameAll_self : ∀ es : List Expr, Expr.sameAll es es = !Expr.anyNaN es
  | [] => rfl
  | e :: es => by simp [Expr.sameAll, Expr.anyNaN, Expr.same_self e, Expr.sameAll_self es]

end

mutual

theorem Stmt.same_self : ∀ s : Stmt, s.same s = !s.hasNaN
  | .declare _ _ e | .ret e | .assign _ e | .expr e => by simp [Stmt.same, Stmt.hasNaN, e.same_self]
  | .define _ _ _ body => by simp [Stmt.same, Stmt.hasNaN, Stmt.sameAll_self body]
  | .ifThen c body | .forEach _ c body | .loop c body => by
    simp [Stmt.same, Stmt.hasNaN, c.same_self, Stmt.sameAll_self body]
  | .ifElse c yes no => by
    simp [Stmt.same, Stmt.hasNaN, c.same_self, Stmt.sameAll_self yes, Stmt.sameAll_self no]

theorem Stmt.sameAll_self : ∀ ss : List Stmt, Stmt.sameAll ss ss = !Stmt.anyNaN ss
  | [] => rfl
  | s :: ss => by simp [Stmt.sameAll, Stmt.anyNaN, Stmt.same_self s, Stmt.sameAll_self ss]

end

mutual

theorem Value.same_self : ∀ v : Value, v.same v = !v.hasNaN
  | .none => rfl
  | .int _ | .text _ | .bool _ | .builtin _ => by simp [Value.same, Value.hasNaN]
  | .float x => by simp [Value.same, Value.number?, Value.hasNaN, x.eq_self]
  | .array vs => by simp [Value.same, Value.hasNaN, Value.sameAll_self vs]
  | .function f => by simp [Value.same, Function.same, Value.hasNaN, Stmt.sameAll_self f.body]

theorem Value.sameAll_self : ∀ vs : List Value, Value.sameAll vs vs = !Value.anyNaN vs
  | [] => rfl
  | v :: vs => by simp [Value.sameAll, Value.anyNaN, Value.same_self v, Value.sameAll_self vs]

end

end Reflexivity

section Symmetry

theorem Literal.same_comm (v w : Literal) : v.same w = w.same v := by
  cases v with
  | int m =>
    cases w with
    | int n => exact Bool.beq_comm
    | _ => rfl
  | float x =>
    cases w with
    | float y => exact x.eq_swap y
    | _ => rfl
  | text s =>
    cases w with
    | text t => exact Bool.beq_comm
    | _ => rfl
  | bool a =>
    cases w with
    | bool b => exact Bool.beq_comm
    | _ => rfl

mutual

theorem Expr.same_comm : ∀ e e' : Expr, e.same e' = e'.same e
  | .literal p v, e' => by
    cases e' with
    | literal q w => rw [Expr.same, Expr.same, Bool.beq_comm (a := p), v.same_comm w]
    | _ => rfl
  | .var p m, e' => by
    cases e' with
    | var q n => rw [Expr.same, Expr.same, Bool.beq_comm (a := p), Bool.beq_comm (a := m)]
    | _ => rfl
  | .unary p o e, e' => by
    cases e' with
    | unary q o' f =>
      rw [Expr.same, Expr.same, Bool.beq_comm (a := p), Bool.beq_comm (a := o), Expr.same_comm e f]
    | _ => rfl
  | .binary p o l r, e' => by
    cases e' with
    | binary q o' l' r' =>
      rw [Expr.same, Expr.same, Bool.beq_comm (a := p), Bool.beq_comm (a := o),
        Expr.same_comm l l', Expr.same_comm r r']
    | _ => rfl
  | .range p l r, e' => by
    cases e' with
    | range q l' r' =>
      rw [Expr.same, Expr.same, Bool.beq_comm (a := p), Expr.same_comm l l', Expr.same_comm r r']
    | _ => rfl
  | .call p n es, e' => by
    cases e' with
    | call q n' es' =>
      rw [Expr.same, Expr.same, Bool.beq_comm (a := p), Bool.beq_comm (a := n),
        Expr.sameAll_comm es es']
    | _ => rfl
  | .array p es, e' => by
    cases e' with
    | array q es' => rw [Expr.same, Expr.same, Bool.beq_comm (a := p), Expr.sameAll_comm es es']
    | _ => rfl

theorem Expr.sameAll_comm : ∀ es es' : List Expr, Expr.sameAll es es' = Expr.sameAll es' es
  | [], [] | [], _ :: _ | _ :: _, [] => rfl
  | e :: es, e' :: es' => by
    rw [Expr.sameAll, Expr.sameAll, Expr.same_comm e e', Expr.sameAll_comm es es']

end

mutual

theorem Stmt.same_comm : ∀ s s' : Stmt, s.same s' = s'.same s
  | .declare n t e, s' => by
    cases s' with
    | declare n' t' e' =>
      rw [Stmt.same, Stmt.same, Bool.beq_comm (a := n), Bool.beq_comm (a := t), e.same_comm e']
    | _ => rfl
  | .define n ps t body, s' => by
    cases s' with
    | define n' ps' t' body' =>
      rw [Stmt.same, Stmt.same, Bool.beq_comm (a := n), Bool.beq_comm (a := ps),
        Bool.beq_comm (a := t), Stmt.sameAll_comm body body']
    | _ => rfl
  | .ifThen c body, s' => by
    cases s' with
    | ifThen c' body' => rw [Stmt.same, Stmt.same, c.same_comm c', Stmt.sameAll_comm body body']
    | _ => rfl
  | .ifElse c yes no, s' => by
    cases s' with
    | ifElse c' yes' no' =>
      rw [Stmt.same, Stmt.same, c.same_comm c', Stmt.sameAll_comm yes yes',
        Stmt.sameAll_comm no no']
    | _ => rfl
  | .forEach n e body, s' => by
    cases s' with
    | forEach n' e' body' =>
      rw [Stmt.same, Stmt.same, Bool.beq_comm (a := n), e.same_comm e',
        Stmt.sameAll_comm body body']
    | _ => rfl
  | .loop c body, s' => by
    cases s' with
    | loop c' body' => rw [Stmt.same, Stmt.same, c.same_comm c', Stmt.sameAll_comm body body']
    | _ => rfl
  | .ret e, s' => by
    cases s' with
    | ret e' => rw [Stmt.same, Stmt.same, e.same_comm e']
    | _ => rfl
  | .assign n e, s' => by
    cases s' with
    | assign n' e' => rw [Stmt.same, Stmt.same, Bool.beq_comm (a := n), e.same_comm e']
    | _ => rfl
  | .expr e, s' => by
    cases s' with
    | expr e' => rw [Stmt.same, Stmt.same, e.same_comm e']
    | _ => rfl

theorem Stmt.sameAll_comm : ∀ ss ss' : List Stmt, Stmt.sameAll ss ss' = Stmt.sameAll ss' ss
  | [], [] | [], _ :: _ | _ :: _, [] => rfl
  | s :: ss, s' :: ss' => by
    rw [Stmt.sameAll, Stmt.sameAll, Stmt.same_comm s s', Stmt.sameAll_comm ss ss']

end

theorem Function.same_comm (f g : Function) : f.same g = g.same f := by
  rw [Function.same, Function.same, Bool.beq_comm (a := f.name), Bool.beq_comm (a := f.params),
    Stmt.sameAll_comm f.body]

theorem Value.same_numbers_comm (n : Int64) (x : Binary64) :
    (Value.int n).same (.float x) = (Value.float x).same (.int n) := by
  simp only [Value.same, Value.number?]
  exact Binary64.eq_swap _ _

mutual

theorem Value.same_comm : ∀ v w : Value, v.same w = w.same v
  | .none, w => by
    cases w <;> rfl
  | .int m, w => by
    cases w with
    | int n => rw [Value.same, Value.same, Bool.beq_comm]
    | float y => exact Value.same_numbers_comm m y
    | _ => rfl
  | .float x, w => by
    cases w with
    | int n => exact (Value.same_numbers_comm n x).symm
    | float y => exact x.eq_swap y
    | _ => rfl
  | .text s, w => by
    cases w with
    | text t => rw [Value.same, Value.same, Bool.beq_comm]
    | _ => rfl
  | .bool a, w => by
    cases w with
    | bool b => rw [Value.same, Value.same, Bool.beq_comm]
    | _ => rfl
  | .array vs, w => by
    cases w with
    | array ws => rw [Value.same, Value.same, Value.sameAll_comm vs ws]
    | _ => rfl
  | .function f, w => by
    cases w with
    | function g => rw [Value.same, Value.same, f.same_comm g]
    | _ => rfl
  | .builtin a, w => by
    cases w with
    | builtin b => rw [Value.same, Value.same, Bool.beq_comm]
    | _ => rfl

theorem Value.sameAll_comm : ∀ vs ws : List Value, Value.sameAll vs ws = Value.sameAll ws vs
  | [], [] | [], _ :: _ | _ :: _, [] => rfl
  | v :: vs, w :: ws => by
    rw [Value.sameAll, Value.sameAll, Value.same_comm v w, Value.sameAll_comm vs ws]

end

end Symmetry

theorem Value.same_symmetric (v w : Value) :
    (v.same w = true ↔ w.same v = true) ∧ (v.same v = true ↔ v.hasNaN = false) := by
  rw [v.same_comm w, v.same_self, Bool.not_eq_true']
  exact ⟨Iff.rfl, Iff.rfl⟩

end Abacus
