import Abacus.Program

/-!
# Chains of operators

An expression without its parentheses is a chain: operands joined by connectives. The connectives
have eight levels of precedence, and a chain has one tree for them. It is found level by level: the
chain is cut at the connectives of the loosest level, the pieces between them are trees of the
tighter levels, and they are joined from the left, at the tightest level from the right.
-/

namespace Abacus

inductive Connective where
  | op (op : BinaryOp)
  | range
  deriving DecidableEq, Repr, Inhabited

namespace Connective

def level : Connective → Nat
  | op .or => 1
  | op .and => 2
  | op .eq | op .ne => 3
  | op .lt | op .le | op .gt | op .ge => 4
  | range => 5
  | op .add | op .sub => 6
  | op .mul | op .div | op .mod => 7
  | op .pow => 8

def join (c : Connective) (left right : Expr) : Expr :=
  match c with
  | op o => .binary left.pos o left right
  | range => .range left.pos left right

end Connective

structure Chain where
  first : Expr
  rest : List (Connective × Expr)

namespace Chain

def split (level : Nat) (c : Chain) : Chain × List (Connective × Chain) :=
  let (piece, pieces) := c.rest.foldr
    (fun (link, e) (piece, pieces) =>
      if link.level = level then ([], (link, ⟨e, piece⟩) :: pieces)
      else ((link, e) :: piece, pieces))
    (([] : List (Connective × Expr)), ([] : List (Connective × Chain)))
  (⟨c.first, piece⟩, pieces)

def joinLeft (first : Expr) (rest : List (Connective × Expr)) : Expr :=
  rest.foldl (fun left (link, right) => link.join left right) first

def joinRight (first : Expr) (rest : List (Connective × Expr)) : Expr :=
  let tail := rest.foldr
    (fun (link, e) tail => some (link, (tail.elim e fun (next, right) => next.join e right)))
    (none : Option (Connective × Expr))
  tail.elim first fun (link, right) => link.join first right

/-- The tree of a chain whose connectives are of the tightest `n` levels. -/
def treeOf : Nat → Chain → Expr
  | 0, c => c.first
  | n + 1, c =>
    let (first, pieces) := c.split (8 - n)
    let pieces := pieces.map fun (link, piece) => (link, treeOf n piece)
    if n = 0 then joinRight (treeOf n first) pieces else joinLeft (treeOf n first) pieces

def tree (c : Chain) : Expr := treeOf 8 c

end Chain

end Abacus
