import Abacus.Program

/-!
# Equality of programs

Two programs are equal when they are built alike, positions and annotations included. Literals are
compared by value, so a float that is no number differs from itself and the two zeros are equal.
-/

namespace Abacus

def Literal.same : Literal → Literal → Bool
  | int m, int n => m == n
  | float x, float y => x.eq y
  | text s, text t => s == t
  | bool a, bool b => a == b
  | _, _ => false

mutual

def Expr.same : Expr → Expr → Bool
  | .literal p v, .literal q w => p == q && v.same w
  | .var p m, .var q n => p == q && m == n
  | .unary p o e, .unary q o' e' => p == q && o == o' && Expr.same e e'
  | .binary p o l r, .binary q o' l' r' => p == q && o == o' && Expr.same l l' && Expr.same r r'
  | .range p l r, .range q l' r' => p == q && Expr.same l l' && Expr.same r r'
  | .call p n es, .call q n' es' => p == q && n == n' && Expr.sameAll es es'
  | .array p es, .array q es' => p == q && Expr.sameAll es es'
  | _, _ => false

def Expr.sameAll : List Expr → List Expr → Bool
  | [], [] => true
  | e :: es, e' :: es' => Expr.same e e' && Expr.sameAll es es'
  | _, _ => false

end

mutual

def Stmt.same : Stmt → Stmt → Bool
  | .declare n t e, .declare n' t' e' => n == n' && t == t' && e.same e'
  | .define n ps t b, .define n' ps' t' b' => n == n' && ps == ps' && t == t' && Stmt.sameAll b b'
  | .ifThen c b, .ifThen c' b' => c.same c' && Stmt.sameAll b b'
  | .ifElse c y n, .ifElse c' y' n' => c.same c' && Stmt.sameAll y y' && Stmt.sameAll n n'
  | .forEach n e b, .forEach n' e' b' => n == n' && e.same e' && Stmt.sameAll b b'
  | .loop c b, .loop c' b' => c.same c' && Stmt.sameAll b b'
  | .ret e, .ret e' => e.same e'
  | .assign n e, .assign n' e' => n == n' && e.same e'
  | .expr e, .expr e' => e.same e'
  | _, _ => false

def Stmt.sameAll : List Stmt → List Stmt → Bool
  | [], [] => true
  | s :: ss, s' :: ss' => Stmt.same s s' && Stmt.sameAll ss ss'
  | _, _ => false

end

end Abacus
