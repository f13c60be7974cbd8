import Abacus.Proofs.Printer
import Abacus.Proofs.ProgramReading

/-!
# Reading what was printed

What the printer writes is derived by the grammar, wherever its tokens stand, and the derived program
is the printed one up to positions. An expression is derived at its own level; an operand that is
looser than its place is in parentheses, which are of the tightest level. Since the readers take
exactly what the grammar derives, printed programs are read back.
-/

namespace Abacus

open Grammar Printer

namespace Printer

theorem kind_eq {t : Token} {i : Item} (h : t.item = i) : t.kind = i.1 := congrArg Prod.fst h

theorem spelling_eq {t : Token} {i : Item} {name : String} (h : t.item = i)
    (hi : i.2 = .lexeme name) : t.spelling = name := by
  have hp : t.payload = .lexeme name := (congrArg Prod.snd h).trans hi
  simp only [Token.spelling, hp]

section Cut

variable {ts : List Token} {i j : Item} {xs ys : List Item}

theorem cut_cons (h : ts.map Token.item = i :: ys) :
    ∃ t vs, ts = t :: vs ∧ t.item = i ∧ vs.map Token.item = ys :=
  List.map_eq_cons_iff.1 h

theorem cut_word {name : String} (h : ts.map Token.item = word name :: ys) :
    ∃ t vs, ts = t :: vs ∧ t.kind = .ident ∧ name = t.spelling ∧ vs.map Token.item = ys := by
  obtain ⟨t, vs, rfl, ht, hvs⟩ := cut_cons h
  exact ⟨t, vs, rfl, kind_eq ht, (spelling_eq ht rfl).symm, hvs⟩

theorem cut_append (h : ts.map Token.item = xs ++ ys) :
    ∃ us vs, ts = us ++ vs ∧ us.map Token.item = xs ∧ vs.map Token.item = ys :=
  List.map_eq_append_iff.1 h

theorem cut_snoc (h : ts.map Token.item = xs ++ [j]) :
    ∃ us t, ts = us ++ [t] ∧ us.map Token.item = xs ∧ t.item = j := by
  obtain ⟨us, vs, rfl, hus, hvs⟩ := cut_append h
  obtain ⟨t, ws, rfl, ht, hws⟩ := cut_cons hvs
  obtain rfl := List.map_eq_nil_iff.1 hws
  exact ⟨us, t, rfl, hus, ht⟩

theorem cut_between (h : ts.map Token.item = i :: xs ++ [j]) :
    ∃ l us r, ts = l :: us ++ [r] ∧ l.item = i ∧ us.map Token.item = xs ∧ r.item = j := by
  obtain ⟨l, vs, rfl, hl, hvs⟩ := cut_cons h
  obtain ⟨us, r, rfl, hus, hr⟩ := cut_snoc hvs
  exact ⟨l, us, r, rfl, hl, hus, hr⟩

end Cut

end Printer

namespace Grammar

theorem Level.loosen {n m : Nat} {ts : List Token} {e : Expr} (hnm : n ≤ m) (hm : m ≤ 9)
    (h : Level m ts e) : Level n ts e := by
  obtain ⟨k, rfl⟩ := Nat.exists_eq_add_of_le hnm
  induction k with
  | zero => exact h
  | succ k ih => exact ih (by omega) (by omega) (.tighter (by omega) h)

theorem Level.operand_of_nine {ts : List Token} {e : Expr} (h : Level 9 ts e) : Operand ts e := by
  cases h with
  | operand h => exact h
  | tighter hn _ => omega
  | left hop _ _ =>
    have := hop.level_cases
    omega

theorem Primary.level {n : Nat} {ts : List Token} {e : Expr} (hn : n ≤ 9) (h : Primary ts e) :
    Level n ts e :=
  .loosen hn (Nat.le_refl 9) (.operand (.callable (.primary h)))

theorem Listed.elements {ts : List Token} {es : List Expr} {r : Token} (h : Listed ts es)
    (hr : r.kind = .rightBracket) : Elements (ts ++ [r]) es := by
  induction es generalizing ts with
  | nil => cases h
  | cons e es ih =>
    cases h with
    | one he => exact .last he hr
    | more he hc hes =>
      rw [List.append_assoc, List.cons_append]
      exact .more he hc (ih hes)

end Grammar

namespace Printer

/-- Tokens that print as an expression are derived to be it, up to positions. -/
def Derived (e : Expr) (n : Nat) (items : List Item) : Prop :=
  ∀ ts : List Token, ts.map Token.item = items → ∃ e', Level n ts e' ∧ e'.unplaced = e.unplaced

theorem opLevel_le (op : BinaryOp) : 1 ≤ opLevel op ∧ opLevel op ≤ 9 := by
  cases op <;> decide

theorem level_le (e : Expr) : 1 ≤ level e ∧ level e ≤ 9 := by
  cases e with
  | binary _ op _ _ => exact opLevel_le op
  | _ => simp [level]

theorem derived_operand {e : Expr} {n : Nat} (hn : n ≤ 9) (h : Derived e (level e) (expr e)) :
    Derived e n (operand n e (expr e)) := by
  intro ts hts
  rw [operand] at hts
  split at hts
  · obtain ⟨l, vs, r, rfl, hl, hvs, hr⟩ := cut_between hts
    obtain ⟨e', he, heq⟩ := h vs hvs
    have hgroup : Primary (l :: vs ++ [r]) e' :=
      .group (kind_eq hl) (he.loosen (level_le e).1 (level_le e).2) (kind_eq hr)
    exact ⟨e', hgroup.level hn, heq⟩
  · rename_i hle
    obtain ⟨e', he, heq⟩ := h ts hts
    exact ⟨e', he.loosen (Nat.le_of_not_lt hle) (level_le e).2, heq⟩

theorem carries_constant {t : Token} {v : Literal} (h : t.item = constant v) :
    t.kind.isLiteral ∧ Carries t.payload v := by
  obtain ⟨kind, payload, pos⟩ := t
  cases v <;> cases h <;> exact ⟨rfl, by constructor⟩

theorem sign_spec (op : UnaryOp) : Sign (sign op) op := by
  cases op <;> constructor

theorem operator_spec {op : BinaryOp} (h : op ≠ .pow) : LeftOp (opLevel op) (operator op) op := by
  cases op <;> first | contradiction | constructor

theorem derived_binary (pos : Position) (op : BinaryOp) {l r : Expr}
    (hl : Derived l (level l) (expr l)) (hr : Derived r (level r) (expr r)) :
    Derived (.binary pos op l r) (opLevel op) (expr (.binary pos op l r)) := by
  intro ts hts
  rw [expr] at hts
  obtain ⟨ls, us, rfl, hls, hus⟩ := cut_append hts
  obtain ⟨t, rs, rfl, ht, hrs⟩ := cut_cons hus
  by_cases hop : op = .pow
  · subst hop
    obtain ⟨l', hl', hleq⟩ := derived_operand (Nat.le_refl 9) hl ls hls
    obtain ⟨r', hr', hreq⟩ := derived_operand (by decide) hr rs hrs
    refine ⟨_, .power (kind_eq ht) hl'.operand_of_nine hr', ?_⟩
    rw [Expr.unplaced, Expr.unplaced, hleq, hreq]
  · -- on the right the next level is derived, which keeps the chain nested to the left
    have hleft : leftLevel op = opLevel op := if_neg hop
    have hright : rightLevel op = opLevel op + 1 := if_neg hop
    have hspec : LeftOp (opLevel op) t.kind op := kind_eq ht ▸ operator_spec hop
    have hlevel := hspec.level_cases
    rw [hleft] at hls
    rw [hright] at hrs
    obtain ⟨l', hl', hleq⟩ := derived_operand (by omega) hl ls hls
    obtain ⟨r', hr', hreq⟩ := derived_operand (by omega) hr rs hrs
    refine ⟨_, .left hspec hl' hr', ?_⟩
    rw [Expr.unplaced, Expr.unplaced, hleq, hreq]

theorem derived_range (pos : Position) {l r : Expr} (hl : Derived l (level l) (expr l))
    (hr : Derived r (level r) (expr r)) : Derived (.range pos l r) 5 (expr (.range pos l r)) := by
  intro ts hts
  rw [expr] at hts
  obtain ⟨ls, us, rfl, hls, hus⟩ := cut_append hts
  obtain ⟨t, rs, rfl, ht, hrs⟩ := cut_cons hus
  obtain ⟨l', hl', hleq⟩ := derived_operand (by decide) hl ls hls
  obtain ⟨r', hr', hreq⟩ := derived_operand (by decide) hr rs hrs
  refine ⟨_, .range (kind_eq ht) hl' hr', ?_⟩
  rw [Expr.unplaced, Expr.unplaced, hleq, hreq]

theorem derived_unary (pos : Position) (op : UnaryOp) {e : Expr} (h : Derived e (level e) (expr e)) :
    Derived (.unary pos op e) 9 (expr (.unary pos op e)) := by
  intro ts hts
  rw [expr] at hts
  obtain ⟨t, us, rfl, ht, hus⟩ := cut_cons hts
  obtain ⟨e', he, heq⟩ := derived_operand (Nat.le_refl 9) h us hus
  have hsign : Sign t.kind op := kind_eq ht ▸ sign_spec op
  refine ⟨_, .operand (.sign hsign he.operand_of_nine), ?_⟩
  rw [Expr.unplaced, Expr.unplaced, heq]

theorem derived_literal (pos : Position) (v : Literal) :
    Derived (.literal pos v) 9 (expr (.literal pos v)) := by
  intro ts hts
  rw [expr] at hts
  obtain ⟨t, us, rfl, ht, hus⟩ := cut_cons hts
  obtain rfl := List.map_eq_nil_iff.1 hus
  obtain ⟨hkind, hcarries⟩ := carries_constant ht
  exact ⟨_, (Primary.literal hkind hcarries).level (Nat.le_refl 9), rfl⟩

theorem derived_var (pos : Position) (name : String) :
    Derived (.var pos name) 9 (expr (.var pos name)) := by
  intro ts hts
  rw [expr] at hts
  obtain ⟨t, us, rfl, ht, rfl, hus⟩ := cut_word hts
  obtain rfl := List.map_eq_nil_iff.1 hus
  exact ⟨_, (Primary.name ht).level (Nat.le_refl 9), rfl⟩

def DerivedList (es : List Expr) : Prop :=
  ∀ ts : List Token, ts.map Token.item = listed es →
    (es = [] ∧ ts = []) ∨ ∃ es', Listed ts es' ∧ Expr.unplacedAll es' = Expr.unplacedAll es

theorem derived_call (pos : Position) (name : String) {args : List Expr} (h : DerivedList args) :
    Derived (.call pos name args) 9 (expr (.call pos name args)) := by
  intro ts hts
  rw [expr] at hts
  obtain ⟨t, us, rfl, ht, rfl, hus⟩ := cut_word hts
  obtain ⟨l, vs, r, rfl, hl, hvs, hr⟩ := cut_between hus
  rcases h vs hvs with ⟨rfl, rfl⟩ | ⟨args', hargs, heq⟩
  · exact ⟨_, .operand (.callable (.emptyCall (.name ht) (kind_eq hl) (kind_eq hr))), rfl⟩
  · refine ⟨_, .operand (.callable (.call (.name ht) (kind_eq hl) hargs (kind_eq hr))), ?_⟩
    rw [Expr.unplaced, Expr.unplaced, heq]

theorem derived_array (pos : Position) {es : List Expr} (h : DerivedList es) :
    Derived (.array pos es) 9 (expr (.array pos es)) := by
  intro ts hts
  rw [expr] at hts
  obtain ⟨l, vs, r, rfl, hl, hvs, hr⟩ := cut_between hts
  rcases h vs hvs with ⟨rfl, rfl⟩ | ⟨es', hes, heq⟩
  · exact ⟨_, (Primary.array (kind_eq hl) (.close (kind_eq hr))).level (Nat.le_refl 9), rfl⟩
  · have helements := hes.elements (kind_eq hr)
    refine ⟨_, (Primary.array (kind_eq hl) helements).level (Nat.le_refl 9), ?_⟩
    rw [Expr.unplaced, Expr.unplaced, heq]

theorem derivedList_cons {e : Expr} {es : List Expr} (he : Derived e (level e) (expr e))
    (hes : DerivedList es) : DerivedList (e :: es) := by
  intro ts hts
  rw [listed] at hts
  obtain ⟨us, vs, rfl, hus, hvs⟩ := cut_append hts
  obtain ⟨e', hlevel, heq⟩ := he us hus
  have hone : Level 1 us e' := hlevel.loosen (level_le e).1 (level_le e).2
  cases es with
  | nil =>
    obtain rfl := List.map_eq_nil_iff.1 hvs
    refine .inr ⟨[e'], ?_, ?_⟩
    · rw [List.append_nil]
      exact .one hone
    · simp only [Expr.unplacedAll, heq]
  | cons e₂ es =>
    rw [following] at hvs
    obtain ⟨c, ws, rfl, hc, hws⟩ := cut_cons hvs
    rcases hes ws hws with ⟨hnil, -⟩ | ⟨es', hlisted, heqs⟩
    · cases hnil
    · refine .inr ⟨e' :: es', .more hone (kind_eq hc) hlisted, ?_⟩
      rw [Expr.unplacedAll, Expr.unplacedAll, heq, heqs]

mutual

theorem derived_expr : ∀ e : Expr, Derived e (level e) (expr e)
  | .literal pos v => derived_literal pos v
  | .var pos name => derived_var pos name
  | .unary pos op e => derived_unary pos op (derived_expr e)
  | .binary pos op l r => derived_binary pos op (derived_expr l) (derived_expr r)
  | .range pos l r => derived_range pos (derived_expr l) (derived_expr r)
  | .call pos name args => derived_call pos name (derived_exprs args)
  | .array pos es => derived_array pos (derived_exprs es)

theorem derived_exprs : ∀ es : List Expr, DerivedList es
  | [] => fun _ hts => .inl ⟨rfl, List.map_eq_nil_iff.1 hts⟩
  | e :: es => derivedList_cons (derived_expr e) (derived_exprs es)

end

theorem derived_whole {e : Expr} {ts : List Token} (hts : ts.map Token.item = expr e) :
    ∃ e', Level 1 ts e' ∧ e'.unplaced = e.unplaced := by
  obtain ⟨e', he, heq⟩ := derived_expr e ts hts
  exact ⟨e', he.loosen (level_le e).1 (level_le e).2, heq⟩

theorem derived_ended {e : Expr} {ts : List Token} (hts : ts.map Token.item = ended (expr e)) :
    ∃ us z e', ts = us ++ [z] ∧ Level 1 us e' ∧ z.kind = .semicolon ∧ e'.unplaced = e.unplaced := by
  obtain ⟨us, z, rfl, hus, hz⟩ := cut_snoc hts
  obtain ⟨e', he, heq⟩ := derived_whole hus
  exact ⟨us, z, e', rfl, he, kind_eq hz, heq⟩

theorem typeKind_spec (name : String) :
    (typeKind name).isTypeName = true ∨ typeKind name = .ident := by
  rw [typeKind]
  split
  · rename_i h
    exact .inl h
  · exact .inr rfl

theorem annotated {type : Option String} {ts : List Token}
    (hts : ts.map Token.item = typing type) : Annotated ts type := by
  cases type with
  | none =>
    obtain rfl := List.map_eq_nil_iff.1 hts
    exact .none
  | some name =>
    obtain ⟨c, us, rfl, hc, hus⟩ := cut_cons hts
    obtain ⟨t, vs, rfl, ht, hvs⟩ := cut_cons hus
    obtain rfl := List.map_eq_nil_iff.1 hvs
    have hname : t.spelling = name := spelling_eq ht rfl
    have hkind : t.kind.isTypeName = true ∨ t.kind = .ident := by
      rw [kind_eq ht]
      exact typeKind_spec name
    rw [← hname]
    exact .some (kind_eq hc) hkind

theorem params_spec {p : Param} {ps : List Param} {ts : List Token}
    (hts : ts.map Token.item = params (p :: ps)) : Params ts (p :: ps) := by
  induction ps generalizing p ts with
  | nil =>
    obtain ⟨name, type⟩ := p
    rw [params, param] at hts
    obtain ⟨t, us, rfl, ht, rfl, hus⟩ := cut_word hts
    exact .one ht (annotated hus)
  | cons q qs ih =>
    obtain ⟨name, type⟩ := p
    rw [params, param] at hts
    · obtain ⟨vs, ws, rfl, hvs, hws⟩ := cut_append hts
      obtain ⟨t, us, rfl, ht, rfl, hus⟩ := cut_word hvs
      obtain ⟨c, xs, rfl, hc, hxs⟩ := cut_cons hws
      exact .more ht (annotated hus) (kind_eq hc) (ih hxs)
    · simp

theorem paramList_spec {ps : List Param} {l r : Token} {ts : List Token}
    (hl : l.item = symbol .leftParen) (hts : ts.map Token.item = params ps)
    (hr : r.item = symbol .rightParen) : ParamList (l :: ts ++ [r]) ps := by
  cases ps with
  | nil =>
    obtain rfl := List.map_eq_nil_iff.1 hts
    exact .empty (kind_eq hl) (kind_eq hr)
  | cons p ps => exact .params (kind_eq hl) (params_spec hts) (kind_eq hr)

theorem head_spec {name : String} {ps : List Param} {type : Option String} {ts : List Token}
    (hts : ts.map Token.item = head name ps type) : Head ts name ps type := by
  rw [head] at hts
  obtain ⟨us, a, rfl, hus, ha⟩ := cut_snoc hts
  obtain ⟨vs, ws, rfl, hvs, hws⟩ := cut_append hus
  obtain ⟨t, xs, rfl, ht, rfl, hxs⟩ := cut_word hvs
  obtain ⟨l, ys, rfl, hl, hys⟩ := cut_cons hxs
  obtain ⟨r, zs, rfl, hr, hzs⟩ := cut_cons hws
  have hhead := Head.mk ht (paramList_spec hl hys hr) (annotated hzs) (kind_eq ha)
  simpa using hhead

def DerivedStmt (short : Bool) (s : Stmt) : Prop :=
  ∀ (inside : Bool) (ts : List Token), inside = true ∨ s.returns = false →
    ts.map Token.item = stmt short s → ∃ s', Statement inside ts s' ∧ s'.unplaced = s.unplaced

def DerivedStmts (short : Bool) (ss : List Stmt) : Prop :=
  ∀ (inside : Bool) (ts : List Token), inside = true ∨ Stmt.anyReturns ss = false →
    ts.map Token.item = stmts short ss →
      ∃ ss', Statements inside ts ss' ∧ Stmt.unplacedAll ss' = Stmt.unplacedAll ss

theorem DerivedStmts.block {short inside : Bool} {ss : List Stmt} {ts : List Token}
    (h : DerivedStmts short ss) (hret : inside = true ∨ Stmt.anyReturns ss = false)
    (hts : ts.map Token.item = braces (stmts short ss)) :
    ∃ ss', Block inside ts ss' ∧ Stmt.unplacedAll ss' = Stmt.unplacedAll ss := by
  obtain ⟨l, us, r, rfl, hl, hus, hr⟩ := cut_between hts
  obtain ⟨ss', hss, heq⟩ := h inside us hret hus
  exact ⟨ss', .braces (kind_eq hl) hss (kind_eq hr), heq⟩

variable {short : Bool}

theorem derived_declare (name : String) (type : Option String) (e : Expr) :
    DerivedStmt short (.declare name type e) := by
  intro inside ts _ hts
  rw [stmt] at hts
  obtain ⟨us, vs, rfl, hus, hvs⟩ := cut_append hts
  obtain ⟨k, ws, rfl, hk, hws⟩ := cut_cons hus
  obtain ⟨t, as, rfl, ht, rfl, has⟩ := cut_word hws
  obtain ⟨q, xs, rfl, hq, hxs⟩ := cut_cons hvs
  obtain ⟨es, z, e', rfl, he, hz, heq⟩ := derived_ended hxs
  have hdeclare : Statement inside (k :: t :: as ++ q :: es ++ [z]) (.declare t.spelling type e') :=
    .declare (kind_eq hk) ht (annotated has) (kind_eq hq) he hz
  refine ⟨.declare t.spelling type e', by simpa using hdeclare, ?_⟩
  rw [Stmt.unplaced, Stmt.unplaced, heq]

theorem derived_assign (name : String) (e : Expr) : DerivedStmt short (.assign name e) := by
  intro inside ts _ hts
  rw [stmt] at hts
  obtain ⟨t, us, rfl, ht, rfl, hus⟩ := cut_word hts
  obtain ⟨q, vs, rfl, hq, hvs⟩ := cut_cons hus
  obtain ⟨es, z, e', rfl, he, hz, heq⟩ := derived_ended hvs
  refine ⟨.assign t.spelling e', .assign ht (kind_eq hq) he hz, ?_⟩
  rw [Stmt.unplaced, Stmt.unplaced, heq]

theorem derived_ret (e : Expr) : DerivedStmt short (.ret e) := by
  intro inside ts hret hts
  -- outside a function the statement itself would be the `return` that is ruled out
  obtain rfl : inside = true := hret.resolve_right (by simp [Stmt.returns])
  rw [stmt] at hts
  obtain ⟨k, us, rfl, hk, hus⟩ := cut_cons hts
  obtain ⟨es, z, e', rfl, he, hz, heq⟩ := derived_ended hus
  refine ⟨.ret e', .ret (kind_eq hk) he hz, ?_⟩
  rw [Stmt.unplaced, Stmt.unplaced, heq]

theorem derived_exprStmt (e : Expr) : DerivedStmt short (.expr e) := by
  intro inside ts _ hts
  rw [stmt] at hts
  obtain ⟨es, z, e', rfl, he, hz, heq⟩ := derived_ended hts
  refine ⟨.expr e', .expr he hz, ?_⟩
  rw [Stmt.unplaced, Stmt.unplaced, heq]

theorem derived_ifThen (c : Expr) {body : List Stmt} (h : DerivedStmts short body) :
    DerivedStmt short (.ifThen c body) := by
  intro inside ts hret hts
  rw [stmt] at hts
  obtain ⟨us, bs, rfl, hus, hbs⟩ := cut_append hts
  obtain ⟨k, es, rfl, hk, hes⟩ := cut_cons hus
  obtain ⟨c', hc, hceq⟩ := derived_whole hes
  obtain ⟨body', hbody, heq⟩ := h.block hret hbs
  refine ⟨.ifThen c' body', .ifThen (kind_eq hk) hc hbody, ?_⟩
  rw [Stmt.unplaced, Stmt.unplaced, hceq, heq]

theorem derived_ifElse (c : Expr) {yes no : List Stmt} (hyes : DerivedStmts short yes)
    (hno : DerivedStmts short no) : DerivedStmt short (.ifElse c yes no) := by
  intro inside ts hret hts
  rw [stmt] at hts
  obtain ⟨us, vs, rfl, hus, hvs⟩ := cut_append hts
  obtain ⟨ws, bs, rfl, hws, hbs⟩ := cut_append hus
  obtain ⟨k, es, rfl, hk, hes⟩ := cut_cons hws
  obtain ⟨o, cs, rfl, ho, hcs⟩ := cut_cons hvs
  rw [Stmt.returns, Bool.or_eq_false_iff] at hret
  obtain ⟨c', hc, hceq⟩ := derived_whole hes
  obtain ⟨yes', hblock, heq⟩ := hyes.block (hret.imp_right And.left) hbs
  obtain ⟨no', hblock', heq'⟩ := hno.block (hret.imp_right And.right) hcs
  refine ⟨.ifElse c' yes' no', .ifElse (kind_eq hk) hc hblock (kind_eq ho) hblock', ?_⟩
  rw [Stmt.unplaced, Stmt.unplaced, hceq, heq, heq']

theorem derived_loop (c : Expr) {body : List Stmt} (h : DerivedStmts short body) :
    DerivedStmt short (.loop c body) := by
  intro inside ts hret hts
  rw [stmt] at hts
  obtain ⟨us, bs, rfl, hus, hbs⟩ := cut_append hts
  obtain ⟨k, es, rfl, hk, hes⟩ := cut_cons hus
  obtain ⟨c', hc, hceq⟩ := derived_whole hes
  obtain ⟨body', hbody, heq⟩ := h.block hret hbs
  refine ⟨.loop c' body', .loop (kind_eq hk) hc hbody, ?_⟩
  rw [Stmt.unplaced, Stmt.unplaced, hceq, heq]

theorem derived_forEach (name : String) (e : Expr) {body : List Stmt} (h : DerivedStmts short body) :
    DerivedStmt short (.forEach name e body) := by
  intro inside ts hret hts
  rw [stmt] at hts
  obtain ⟨us, bs, rfl, hus, hbs⟩ := cut_append hts
  obtain ⟨k, vs, rfl, hk, hvs⟩ := cut_cons hus
  obtain ⟨t, ws, rfl, ht, rfl, hws⟩ := cut_word hvs
  obtain ⟨i, es, rfl, hi, hes⟩ := cut_cons hws
  obtain ⟨e', he, heeq⟩ := derived_whole hes
  obtain ⟨body', hbody, heq⟩ := h.block hret hbs
  refine ⟨.forEach t.spelling e' body', .forEach (kind_eq hk) ht (kind_eq hi) he hbody, ?_⟩
  rw [Stmt.unplaced, Stmt.unplaced, heeq, heq]

theorem derived_define (name : String) (ps : List Param) (type : Option String) {ss : List Stmt}
    (h : DerivedStmts short ss) : DerivedStmt short (.define name ps type ss) := by
  intro inside ts _ hts
  rw [stmt] at hts
  obtain ⟨hs, bs, rfl, hhs, hbs⟩ := cut_append hts
  unfold body at hbs
  split at hbs
  · obtain ⟨es, z, e', rfl, he, hz, heq⟩ := derived_ended hbs
    refine ⟨.define name ps type [.ret e'], ?_, ?_⟩
    · rw [← List.append_assoc]
      exact .defineExpr (head_spec hhs) he hz
    · simp only [Stmt.unplaced, Stmt.unplacedAll, heq]
  · obtain ⟨ss', hblock, heq⟩ := h.block (.inl rfl) hbs
    refine ⟨.define name ps type ss', .define (head_spec hhs) hblock, ?_⟩
    rw [Stmt.unplaced, Stmt.unplaced, heq]

theorem derivedStmts_cons {s : Stmt} {ss : List Stmt} (hs : DerivedStmt short s)
    (hss : DerivedStmts short ss) : DerivedStmts short (s :: ss) := by
  intro inside ts hret hts
  rw [stmts] at hts
  obtain ⟨us, vs, rfl, hus, hvs⟩ := cut_append hts
  rw [Stmt.anyReturns, Bool.or_eq_false_iff] at hret
  obtain ⟨s', hstmt, heq⟩ := hs inside us (hret.imp_right And.left) hus
  obtain ⟨ss', hstmts, heqs⟩ := hss inside vs (hret.imp_right And.right) hvs
  refine ⟨s' :: ss', .cons hstmt hstmts, ?_⟩
  rw [Stmt.unplacedAll, Stmt.unplacedAll, heq, heqs]

mutual

theorem derived_stmt : ∀ s : Stmt, DerivedStmt short s
  | .declare name type e => derived_declare name type e
  | .define name ps type ss => derived_define name ps type (derived_stmts ss)
  | .ifThen c body => derived_ifThen c (derived_stmts body)
  | .ifElse c yes no => derived_ifElse c (derived_stmts yes) (derived_stmts no)
  | .forEach name e body => derived_forEach name e (derived_stmts body)
  | .loop c body => derived_loop c (derived_stmts body)
  | .ret e => derived_ret e
  | .assign name e => derived_assign name e
  | .expr e => derived_exprStmt e

theorem derived_stmts : ∀ ss : List Stmt, DerivedStmts short ss
  | [] => fun _ ts _ hts => by
    obtain rfl : ts = [] := List.map_eq_nil_iff.1 hts
    exact ⟨[], .nil, rfl⟩
  | s :: ss => derivedStmts_cons (derived_stmt s) (derived_stmts ss)

end

def NoEnd (items : List Item) : Prop := ∀ i ∈ items, i.1 ≠ .eof

@[simp] theorem noEnd_nil : NoEnd [] := by simp [NoEnd]

@[simp] theorem noEnd_cons {i : Item} {xs : List Item} :
    NoEnd (i :: xs) ↔ i.1 ≠ .eof ∧ NoEnd xs := by
  simp [NoEnd]

@[simp] theorem noEnd_append {xs ys : List Item} : NoEnd (xs ++ ys) ↔ NoEnd xs ∧ NoEnd ys := by
  simp [NoEnd, or_imp, forall_and]

theorem noEnd_operand {items : List Item} (h : NoEnd items) (n : Nat) (e : Expr) :
    NoEnd (operand n e items) := by
  rw [operand]
  split
  · simp [symbol, h]
  · exact h

theorem operator_ne_eof (op : BinaryOp) : operator op ≠ .eof := by
  cases op <;> decide

theorem sign_ne_eof (op : UnaryOp) : sign op ≠ .eof := by
  cases op <;> decide

theorem constant_ne_eof (v : Literal) : (constant v).1 ≠ .eof := by
  cases v <;> simp [constant]

mutual

theorem noEnd_expr : ∀ e : Expr, NoEnd (expr e)
  | .literal _ v => by simp [expr, constant_ne_eof]
  | .var _ name => by simp [expr, word]
  | .unary _ op e => by
    simp [expr, symbol, sign_ne_eof, noEnd_operand (noEnd_expr e)]
  | .binary _ op l r => by
    simp [expr, symbol, operator_ne_eof, noEnd_operand (noEnd_expr l), noEnd_operand (noEnd_expr r)]
  | .range _ l r => by
    simp [expr, symbol, noEnd_operand (noEnd_expr l), noEnd_operand (noEnd_expr r)]
  | .call _ name args => by simp [expr, word, symbol, noEnd_listed args]
  | .array _ es => by simp [expr, symbol, noEnd_listed es]

theorem noEnd_listed : ∀ es : List Expr, NoEnd (listed es)
  | [] => noEnd_nil
  | e :: es => by simp [listed, noEnd_expr e, noEnd_following es]

theorem noEnd_following : ∀ es : List Expr, NoEnd (following es)
  | [] => noEnd_nil
  | e :: es => by simp [following, symbol, noEnd_expr e, noEnd_following es]

end

theorem noEnd_typing (type : Option String) : NoEnd (typing type) := by
  cases type with
  | none => exact noEnd_nil
  | some name =>
    have hkind : typeKind name ≠ .eof := by
      intro h
      have := typeKind_spec name
      simp [h, Token.Kind.isTypeName] at this
    simp [typing, symbol, hkind]

theorem noEnd_params (ps : List Param) : NoEnd (params ps) := by
  induction ps with
  | nil => exact noEnd_nil
  | cons p ps ih =>
    cases ps with
    | nil => simp [params, param, word, noEnd_typing]
    | cons q qs =>
      rw [params]
      · simp [param, word, symbol, noEnd_typing, ih]
      · simp

mutual

theorem noEnd_stmt : ∀ s : Stmt, NoEnd (stmt short s)
  | .declare name type e => by simp [stmt, symbol, word, ended, noEnd_typing, noEnd_expr]
  | .define name ps type ss => by
    have hbody : NoEnd (body short ss (stmts short ss)) := by
      unfold body
      split
      · simp [ended, symbol, noEnd_expr]
      · simp [braces, symbol, noEnd_stmts ss]
    simp [stmt, head, symbol, word, noEnd_params, noEnd_typing, hbody]
  | .ifThen c ss => by simp [stmt, symbol, braces, noEnd_expr, noEnd_stmts ss]
  | .ifElse c yes no => by
    simp [stmt, symbol, braces, noEnd_expr, noEnd_stmts yes, noEnd_stmts no]
  | .forEach name e ss => by simp [stmt, symbol, word, braces, noEnd_expr, noEnd_stmts ss]
  | .loop c ss => by simp [stmt, symbol, braces, noEnd_expr, noEnd_stmts ss]
  | .ret e => by simp [stmt, symbol, ended, noEnd_expr]
  | .assign name e => by simp [stmt, symbol, word, ended, noEnd_expr]
  | .expr e => by simp [stmt, symbol, ended, noEnd_expr]

theorem noEnd_stmts : ∀ ss : List Stmt, NoEnd (stmts short ss)
  | [] => noEnd_nil
  | s :: ss => by simp [stmts, noEnd_stmt s, noEnd_stmts ss]

end

theorem kind_ne_eof {ss : List Stmt} {ts : List Token} (hts : ts.map Token.item = stmts short ss)
    {t : Token} (ht : t ∈ ts) : t.kind ≠ .eof := by
  have hitem : t.item ∈ stmts short ss := hts ▸ List.mem_map_of_mem ht
  exact noEnd_stmts ss t.item hitem

end Printer

/-- A program is read back from its printed form, up to positions, if no `return` stands outside a
function. The tokens may stand anywhere, and bodies that only return may be in the short form. -/
theorem Program.parse_printed (short : Bool) (p : Program) (h : Stmt.anyReturns p = false)
    (ts : List Token) (hts : ts.map Token.item = Printer.stmts short p) (stop : Position) :
    ∃ p', Program.parse (ts ++ [Token.eof stop]) = .ok p' ∧
      Stmt.unplacedAll p' = Stmt.unplacedAll p := by
  obtain ⟨p', hderived, heq⟩ := derived_stmts p false ts (.inr h) hts
  refine ⟨p', ?_, heq⟩
  have hall : ∀ t ∈ ts, decide (t.kind ≠ .eof) = true := fun t ht => by
    simpa using kind_ne_eof hts ht
  have htake : (ts ++ [Token.eof stop]).takeWhile (·.kind ≠ .eof) = ts := by
    rw [List.takeWhile_append_of_pos hall]
    simp [Token.eof]
  rw [Program.parse, Parser.upToEnd, htake]
  exact Parser.statements_eq_ok.2 ⟨p', rfl, hderived⟩

/-- Differences nest to the right, a range is negated, a power has a power on its right, and both
blocks of a conditional are empty. -/
theorem Program.parse_printed_nested :
    let at0 : Position := .start
    let one : Expr := .literal at0 (.int 1)
    let p : Program := [
      .define "f" [⟨"x", some "int"⟩] none
        [.ret (.binary at0 .sub (.var at0 "x") (.binary at0 .sub one one))],
      .ifElse (.unary at0 .not (.range at0 one (.var at0 "f"))) [] [],
      .expr (.binary at0 .pow (.unary at0 .neg one) (.binary at0 .pow one (.call at0 "f" [one])))]
    let ts : List Token := (Printer.stmts true p).map fun i => ⟨i.1, i.2, at0⟩
    Stmt.anyReturns p = false ∧ ∃ p', Program.parse (ts ++ [Token.eof at0]) = .ok p' ∧
      Stmt.unplacedAll p' = Stmt.unplacedAll p := by
  intro at0 one p ts
  have hreturns : Stmt.anyReturns p = false := by decide
  have hts : ts.map Token.item = Printer.stmts true p := by
    simp only [ts, List.map_map]
    exact List.map_id _
  exact ⟨hreturns, Program.parse_printed true p hreturns ts hts at0⟩

end Abacus
