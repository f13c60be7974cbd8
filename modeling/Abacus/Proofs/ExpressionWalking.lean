import Abacus.Fault
import Abacus.Proofs.Climbing
import Abacus.Proofs.ExpressionReading

/-!
# Walking over expressions

A walk and a reader of the remaining tokens agree: where the reader gives a value and leaves some
tokens, the walk gives the same value and stands where these tokens begin, and where the reader fails,
the walk fails with the same report. In both cases the walk ends, and leaves the depth as it was. The
readers of expressions call each other in a circle through `expr`, and so do the walks; what carries the
proof around the circle is that the reader of an expression has used up a token before it comes back.
-/

namespace Abacus.Walk

open Abacus.Parser (connective? unaryOp? literal? accept? Reading climbed)
open Abacus.Grammar (ahead)

def seen (ts : List Token) (i : Nat) : List Token := (ts.drop i).takeWhile (·.kind ≠ .eof)

/-- From an index some tokens are seen, and the end token after them is at `fin`. -/
structure Sees (ts : List Token) (fin i : Nat) (us : List Token) : Prop where
  seen_eq : seen ts i = us
  ends : i + us.length = fin

def stopAt (ts : List Token) (fin : Nat) : Position := (tokenAt ts fin).pos

/-- A walk from a cursor ends and does what a reader says. An end token is described in one way whatever
it carries, so that errors are compared as they are reported. -/
def Agrees {α : Type} (ts : List Token) (fin : Nat) (c : Cursor) (w : Walk α)
    (p : Except SyntaxError (α × List Token)) : Prop :=
  match p with
  | .ok (a, rest) => ∃ j, w c = some (.ok a, ⟨j, c.depth⟩) ∧ Sees ts fin j rest
  | .error e => ∃ e' j, w c = some (.error e', ⟨j, c.depth⟩) ∧ e'.report = e.report

section Tokens

variable {ts us : List Token} {fin i : Nat} {t : Token}

theorem tokenAt_of_getElem? (h : ts[i]? = some t) : tokenAt ts i = t := by
  rw [tokenAt, h]
  rfl

theorem kind_of_getElem?_none (h : ts[i]? = none) : (tokenAt ts i).kind = .eof := by
  rw [tokenAt, h, Option.none_or]
  rcases hl : ts.getLast?.filter (·.kind = .eof) with _ | t
  · rw [hl]
    rfl
  · rw [hl]
    simpa using (Option.filter_eq_some_iff.mp hl).2

theorem seen_cons (h : ts[i]? = some t) (ht : t.kind ≠ .eof) : seen ts i = t :: seen ts (i + 1) := by
  obtain ⟨hi, rfl⟩ := List.getElem?_eq_some_iff.mp h
  rw [seen, List.drop_eq_getElem_cons hi, List.takeWhile_cons, if_pos (by simpa using ht)]
  rfl

theorem seen_nil (h : (tokenAt ts i).kind = .eof) : seen ts i = [] := by
  rcases hi : ts[i]? with _ | t
  · rw [seen, List.drop_eq_nil_of_le (List.getElem?_eq_none_iff.mp hi)]
    rfl
  · obtain ⟨hlt, rfl⟩ := List.getElem?_eq_some_iff.mp hi
    rw [tokenAt_of_getElem? hi] at h
    rw [seen, List.drop_eq_getElem_cons hlt, List.takeWhile_cons, if_neg (by simpa using h)]

theorem seen_cases (ts : List Token) (i : Nat) :
    ((tokenAt ts i).kind = .eof ∧ seen ts i = []) ∨
      (ts[i]? = some (tokenAt ts i) ∧ (tokenAt ts i).kind ≠ .eof ∧
        seen ts i = tokenAt ts i :: seen ts (i + 1)) := by
  rcases hi : ts[i]? with _ | t
  · exact .inl ⟨kind_of_getElem?_none hi, seen_nil (kind_of_getElem?_none hi)⟩
  · have ht := tokenAt_of_getElem? hi
    rcases Classical.em (t.kind = .eof) with h | h
    · exact .inl ⟨ht ▸ h, seen_nil (ht ▸ h)⟩
    · exact .inr ⟨ht ▸ rfl, ht ▸ h, ht ▸ seen_cons hi h⟩

theorem Sees.of_nil (h : Sees ts fin i []) : (tokenAt ts i).kind = .eof ∧ i = fin := by
  rcases seen_cases ts i with ⟨hk, -⟩ | ⟨-, -, hs⟩
  · exact ⟨hk, h.ends⟩
  · rw [h.seen_eq] at hs
    cases hs

theorem Sees.of_cons (h : Sees ts fin i (t :: us)) :
    tokenAt ts i = t ∧ t.kind ≠ .eof ∧ Sees ts fin (i + 1) us := by
  rcases seen_cases ts i with ⟨-, hs⟩ | ⟨-, hk, hs⟩
  · rw [h.seen_eq] at hs
    cases hs
  · rw [h.seen_eq] at hs
    injection hs with ht hus
    have hends := h.ends
    rw [List.length_cons] at hends
    exact ⟨ht.symm, ht ▸ hk, hus.symm, by omega⟩

theorem Sees.peek (h : Sees ts fin i us) :
    (tokenAt ts i).kind = (Parser.peek (stopAt ts fin) us).kind ∧
      (tokenAt ts i).pos = (Parser.peek (stopAt ts fin) us).pos ∧
      (tokenAt ts i).describe = (Parser.peek (stopAt ts fin) us).describe := by
  cases us with
  | nil =>
    obtain ⟨hk, rfl⟩ := h.of_nil
    refine ⟨hk, rfl, ?_⟩
    rw [Token.describe, hk]
    rfl
  | cons t us =>
    rw [h.of_cons.1]
    exact ⟨rfl, rfl, rfl⟩

theorem Sees.report (h : Sees ts fin i us) (cause : Token → SyntaxError.Cause)
    (hcause : ∀ t t' : Token, t.describe = t'.describe → (cause t).message = (cause t').message) :
    SyntaxError.report ⟨cause (tokenAt ts i), (tokenAt ts i).pos⟩ =
      SyntaxError.report ⟨cause (Parser.peek (stopAt ts fin) us),
        (Parser.peek (stopAt ts fin) us).pos⟩ := by
  obtain ⟨-, hpos, hdescribe⟩ := h.peek
  rw [SyntaxError.report, SyntaxError.report, hcause _ _ hdescribe, hpos]

theorem Sees.connective (h : Sees ts fin i us) :
    connective? (tokenAt ts i).kind = (ahead us).bind connective? := by
  cases us with
  | nil =>
    rw [h.of_nil.1]
    rfl
  | cons t us =>
    rw [h.of_cons.1]
    rfl

end Tokens

section Steps

variable {α β : Type} {ts us : List Token} {fin i d : Nat} {c c' : Cursor} {t : Token} {k : Token.Kind}

theorem bind_ok {w : Walk α} {v : α → Walk β} {a : α} (h : w c = some (.ok a, c')) :
    (w >>= v) c = v a c' := by
  simp only [bind, ExceptT.bind, ExceptT.mk, StateT.bind, h, Option.bind, ExceptT.bindCont]

theorem bind_error {w : Walk α} {v : α → Walk β} {e : SyntaxError} (h : w c = some (.error e, c')) :
    (w >>= v) c = some (.error e, c') := by
  simp only [bind, ExceptT.bind, ExceptT.mk, StateT.bind, h, Option.bind, ExceptT.bindCont]
  rfl

theorem get_eq : (get : Walk Cursor) c = some (.ok c, c) := rfl

theorem peek_eq : peek ts ⟨i, d⟩ = some (.ok (tokenAt ts i), ⟨i, d⟩) := rfl

theorem check_eq (hk : k ≠ .eof) (h : Sees ts fin i us) :
    check ts k ⟨i, d⟩ = some (.ok (accept? k us).isSome, ⟨i, d⟩) := by
  have hcheck : check ts k ⟨i, d⟩ = some (.ok (decide ((tokenAt ts i).kind = k)), ⟨i, d⟩) := rfl
  rw [hcheck]
  cases us with
  | nil => simp [h.of_nil.1, hk.symm, accept?]
  | cons t us =>
    rw [h.of_cons.1]
    by_cases ht : t.kind = k <;> simp [accept?, ht]

theorem advance_eq (h : Sees ts fin i (t :: us)) :
    advance ts ⟨i, d⟩ = some (.ok t, ⟨i + 1, d⟩) := by
  obtain ⟨ht, hk, -⟩ := h.of_cons
  rw [advance, bind_ok peek_eq, ht, if_pos hk]
  rfl

theorem discard_bind {w : Walk α} {v : Unit → Walk β} : (discard w >>= v) = w >>= fun _ => v () := by
  simp [discard, map_const]

theorem Agrees.of_eq {w w' : Walk α} {p : Except SyntaxError (α × List Token)}
    (h : Agrees ts fin c' w' p) (hw : w c = w' c') (hd : c'.depth = c.depth) :
    Agrees ts fin c w p := by
  unfold Agrees at h ⊢
  rw [hw, ← hd]
  exact h

theorem Agrees.pure (a : α) (h : Sees ts fin i us) :
    Agrees ts fin ⟨i, d⟩ (pure a) (.ok (a, us)) :=
  ⟨i, rfl, h⟩

theorem Agrees.throw {e e' : SyntaxError} (h : e'.report = e.report) :
    Agrees ts fin c (throw e' : Walk α) (.error e) :=
  ⟨e', c.index, rfl, h⟩

theorem map_of_bind {γ δ : Type} (p : Except SyntaxError γ) (f : γ → Except SyntaxError δ)
    (g : δ → β) : (p >>= f).map g = p >>= fun r => (f r).map g := by
  cases p <;> rfl

theorem Agrees.bind {γ : Type} {g : γ → α × List Token} {w : Walk α} {v : α → Walk β}
    {p : Except SyntaxError γ} {f : γ → Except SyntaxError (β × List Token)}
    (hw : Agrees ts fin c w (p.map g))
    (hv : ∀ r j, p = .ok r → Sees ts fin j (g r).2 →
      Agrees ts fin ⟨j, c.depth⟩ (v (g r).1) (f r)) :
    Agrees ts fin c (w >>= v) (p >>= f) := by
  rcases p with e | r
  · obtain ⟨e', j, h, hreport⟩ := hw
    exact ⟨e', j, bind_error h, hreport⟩
  · obtain ⟨j, h, hj⟩ := hw
    have hr := hv r j rfl hj
    simp only [Agrees] at hr ⊢
    rw [bind_ok h]
    exact hr

theorem Agrees.bind_pairs {w : Walk α} {v : α → Walk β} {p : Except SyntaxError (α × List Token)}
    {f : α × List Token → Except SyntaxError (β × List Token)} (hw : Agrees ts fin c w p)
    (hv : ∀ q j, p = .ok q → Sees ts fin j q.2 → Agrees ts fin ⟨j, c.depth⟩ (v q.1) (f q)) :
    Agrees ts fin c (w >>= v) (p >>= f) := by
  have hmap : p.map id = p := by cases p <;> rfl
  exact .bind (g := id) (hmap.symm ▸ hw) hv

theorem Agrees.map {w : Walk α} {p : Except SyntaxError (α × List Token)} (hw : Agrees ts fin c w p)
    (f : α → β) : Agrees ts fin c (w >>= fun a => return f a) (p.map fun q => (f q.1, q.2)) := by
  rcases p with e | q
  · obtain ⟨e', j, h, hreport⟩ := hw
    exact ⟨e', j, bind_error h, hreport⟩
  · obtain ⟨j, h, hj⟩ := hw
    exact ⟨j, bind_ok h, hj⟩

variable {origin origin' : List Token}

theorem Agrees.reads {w : Walk α} {v : α → Walk β} {p : Except SyntaxError (Reading origin α)}
    {f : Reading origin α → Except SyntaxError (Reading origin' β)}
    (hw : Agrees ts fin c w (p.map Reading.out))
    (hv : ∀ a rest h j, p = .ok ⟨a, rest, h⟩ → Sees ts fin j rest →
      Agrees ts fin ⟨j, c.depth⟩ (v a) ((f ⟨a, rest, h⟩).map Reading.out)) :
    Agrees ts fin c (w >>= v) ((p >>= f).map Reading.out) := by
  rw [map_of_bind]
  exact hw.bind fun r j hr hj => hv r.value r.rest r.shorter j hr hj

theorem Agrees.after {w : Walk α} {v : α → Walk β} {p : Except SyntaxError (β × List Token)} {a : α}
    (hw : w c = some (.ok a, c')) (hd : c'.depth = c.depth) (h : Agrees ts fin c' (v a) p) :
    Agrees ts fin c (w >>= v) p :=
  h.of_eq (bind_ok hw) hd

theorem agrees_advance {v : Token → Walk β} {p : Except SyntaxError (β × List Token)}
    (h : Sees ts fin i (t :: us)) (hv : Agrees ts fin ⟨i + 1, d⟩ (v t) p) :
    Agrees ts fin ⟨i, d⟩ (advance ts >>= v) p :=
  .after (advance_eq h) rfl hv

theorem agrees_check {yes no : Walk α} {p : Except SyntaxError (α × List Token)} (hk : k ≠ .eof)
    (h : Sees ts fin i us) (hno : accept? k us = none → Agrees ts fin ⟨i, d⟩ no p)
    (hyes : ∀ t rest, us = t :: rest → t.kind = k → Agrees ts fin ⟨i, d⟩ yes p) :
    Agrees ts fin ⟨i, d⟩ (do if ← check ts k then yes else no) p := by
  refine .after (check_eq hk h) rfl ?_
  rcases ha : accept? k us with _ | ⟨rest, hlt⟩
  · exact hno ha
  · obtain ⟨t, rfl, ht⟩ := Parser.eq_cons_of_accept? ha
    exact hyes t rest rfl ht

theorem agrees_accept {yes no : Walk α} {p : Except SyntaxError (α × List Token)} (hk : k ≠ .eof)
    (h : Sees ts fin i us) (hno : accept? k us = none → Agrees ts fin ⟨i, d⟩ no p)
    (hyes : ∀ t rest, us = t :: rest → t.kind = k → Sees ts fin (i + 1) rest →
      Agrees ts fin ⟨i + 1, d⟩ yes p) :
    Agrees ts fin ⟨i, d⟩ (do if ← check ts k then do let _ ← advance ts; yes else no) p :=
  agrees_check hk h hno fun t rest hus ht =>
    agrees_advance (hus ▸ h) (hyes t rest hus ht (hus ▸ h).of_cons.2.2)

theorem expect_eq {place : SyntaxError.Place} (h : Sees ts fin i (t :: us)) (ht : t.kind = k) :
    expect ts k place ⟨i, d⟩ = some (.ok t, ⟨i + 1, d⟩) := by
  rw [expect, bind_ok peek_eq, h.of_cons.1, if_pos ht, advance_eq h]

theorem agrees_expect {place : SyntaxError.Place} (hk : k ≠ .eof) (h : Sees ts fin i us)
    {hle : us.length ≤ origin.length} :
    Agrees ts fin ⟨i, d⟩ (expect ts k place)
      ((Parser.expect (stopAt ts fin) k place origin us hle).map Reading.out) := by
  cases us with
  | nil =>
    have ht : (tokenAt ts i).kind ≠ k := fun he => hk (he.symm.trans h.of_nil.1)
    have hreport := h.report (.expected k place) fun t t' ht =>
      congrArg (fun found => s!"expected {k.title} {place.phrase}, found {found}") ht
    rw [Parser.expect]
    refine (Agrees.throw hreport).of_eq ?_ rfl
    rw [expect, bind_ok peek_eq, if_neg ht]
  | cons t us =>
    obtain ⟨ht, -, hus⟩ := h.of_cons
    rw [Parser.expect]
    split_ifs with hkind
    · exact (Agrees.pure t hus).of_eq (expect_eq h hkind) rfl
    · refine (Agrees.throw rfl).of_eq ?_ rfl
      rw [expect, bind_ok peek_eq, ht, if_neg hkind]

def closing (ts : List Token) (k : Token.Kind) (place : SyntaxError.Place) (w : Walk α) : Walk α := do
  let a ← w
  discard (expect ts k place)
  return a

variable {place : SyntaxError.Place}

theorem closing_pure (a : α) :
    closing ts k place (pure a) = expect ts k place >>= fun _ => pure a := by
  rw [closing, pure_bind, discard_bind]

theorem closing_bind (w : Walk α) (v : α → Walk β) :
    closing ts k place (w >>= v) = w >>= fun a => closing ts k place (v a) :=
  bind_assoc w v _

theorem closing_ite {b : Prop} [Decidable b] (yes no : Walk α) :
    closing ts k place (if b then yes else no) =
      if b then closing ts k place yes else closing ts k place no :=
  apply_ite (closing ts k place) b yes no

theorem bind_closing (w : Walk α) (v : α → Walk β) :
    closing ts k place w >>= v = w >>= fun a => expect ts k place >>= fun _ => v a := by
  simp only [closing, discard_bind, bind_assoc, pure_bind]

end Steps

section Expressions

variable {ts us origin : List Token} {fin i d n budget : Nat}

/-- Walking over an expression agrees with reading it, wherever its tokens are seen, if the budget
suffices for them. -/
def Walks (ts : List Token) (fin d : Nat) (us : List Token) : Prop :=
  ∀ i budget, 8 * us.length + 4 ≤ budget → Sees ts fin i us →
    Agrees ts fin ⟨i, d⟩ (climb ts budget 0) ((Parser.expr (stopAt ts fin) us).map Reading.out)

theorem agrees_elements (hshort : ∀ vs : List Token, vs.length ≤ n → Walks ts fin d vs)
    {done : List Expr} {h : us.length < origin.length} (hn : us.length ≤ n)
    (hbudget : 8 * us.length + 5 ≤ budget) (hs : Sees ts fin i us) :
    Agrees ts fin ⟨i, d⟩ (closing ts .rightBracket .arrayEnd (elements ts budget done))
      ((Parser.elements (stopAt ts fin) done origin us h).map Reading.out) := by
  induction hk : us.length using Nat.strongRecOn generalizing done us i budget with
  | ind k ih =>
    obtain ⟨budget, rfl⟩ := Nat.exists_eq_add_one_of_ne_zero (show budget ≠ 0 by omega)
    rw [Parser.elements, elements]
    simp only [closing_bind, closing_ite, closing_pure, discard_bind]
    refine agrees_check (by decide) hs (fun ha => ?_) fun t rest hus ht => ?_
    · simp only [ha]
      refine (hshort us hn i budget (by omega) hs).reads fun e rest hlt j _ hj => ?_
      refine agrees_accept (by decide) hj (fun hc => ?_) fun c after hrest hck hafter => ?_
      · simp only [hc]
        exact (agrees_expect (by decide) hj).reads fun _ _ _ _ _ hj' => .pure _ hj'
      · subst hrest
        simp only [Parser.accept?_cons hck]
        rw [List.length_cons] at hlt
        exact ih after.length (by omega) (by omega) (by omega) hafter rfl
    · subst hus
      simp only [Parser.accept?_cons ht]
      exact .after (expect_eq hs ht) rfl (.pure _ hs.of_cons.2.2)

theorem agrees_arguments (hshort : ∀ vs : List Token, vs.length ≤ n → Walks ts fin d vs)
    {done : List Expr} {h : us.length < origin.length} (hn : us.length ≤ n)
    (hbudget : 8 * us.length + 5 ≤ budget) (hs : Sees ts fin i us) :
    Agrees ts fin ⟨i, d⟩ (closing ts .rightParen .argumentsEnd (arguments ts budget done))
      ((Parser.arguments (stopAt ts fin) done origin us h).map Reading.out) := by
  induction hk : us.length using Nat.strongRecOn generalizing done us i budget with
  | ind k ih =>
    obtain ⟨budget, rfl⟩ := Nat.exists_eq_add_one_of_ne_zero (show budget ≠ 0 by omega)
    rw [Parser.arguments, arguments]
    simp only [closing_bind, closing_ite, closing_pure, discard_bind]
    refine (hshort us hn i budget (by omega) hs).reads fun e rest hlt j _ hj => ?_
    refine agrees_accept (by decide) hj (fun hc => ?_) fun c after hrest hck hafter => ?_
    · simp only [hc]
      exact (agrees_expect (by decide) hj).reads fun _ _ _ _ _ hj' => .pure _ hj'
    · subst hrest
      simp only [Parser.accept?_cons hck]
      rw [List.length_cons] at hlt
      exact ih after.length (by omega) (by omega) (by omega) hafter rfl

theorem agrees_primary (hshort : ∀ vs : List Token, vs.length < n → Walks ts fin d vs)
    (hn : us.length ≤ n) (hbudget : 8 * us.length + 1 ≤ budget) (hs : Sees ts fin i us) :
    Agrees ts fin ⟨i, d⟩ (primary ts budget)
      ((Parser.primary (stopAt ts fin) us).map Reading.out) := by
  obtain ⟨budget, rfl⟩ := Nat.exists_eq_add_one_of_ne_zero (show budget ≠ 0 by omega)
  rw [primary]
  refine .after peek_eq rfl ?_
  cases us with
  | nil =>
    rw [Parser.primary]
    have hreport := hs.report .expectedExpression fun t t' ht =>
      congrArg (fun found => s!"expected expression, found {found}") ht
    simp only [hs.of_nil.1, Token.Kind.isLiteral, reduceCtorEq, if_false]
    exact .throw hreport
  | cons t us =>
    rw [Parser.primary, hs.of_cons.1]
    simp only [discard_bind]
    have hus := hs.of_cons.2.2
    have hlt : us.length < n := hn
    rw [List.length_cons] at hbudget
    split_ifs with hlit hid hb hp
    · refine agrees_advance hs ?_
      rcases literal? t.payload with _ | v
      · exact .throw rfl
      · exact .pure _ hus
    · exact agrees_advance hs (.pure _ hus)
    · refine agrees_advance hs ?_
      rw [← bind_closing]
      exact (agrees_elements (n := us.length) (fun vs hvs => hshort vs (by omega)) (Nat.le_refl _)
        (by omega) hus).reads fun _ _ _ _ _ hj => .pure _ hj
    · refine agrees_advance hs ?_
      refine (hshort us hlt _ budget (by omega) hus).reads fun e rest hrest j _ hj => ?_
      exact (agrees_expect (by decide) hj).reads fun _ _ _ _ _ hj' => .pure _ hj'
    · exact .throw rfl

theorem agrees_uncalled {e : Expr} {p : Except SyntaxError (Expr × List Token)}
    (he : ∀ pos name, e ≠ .var pos name) (hbudget : 0 < budget) (hs : Sees ts fin i us)
    (hno : accept? .leftParen us = none → p = .ok (e, us))
    (hyes : ∀ t rest, us = t :: rest → t.kind = .leftParen → p = .error ⟨.calleeNotNamed, t.pos⟩) :
    Agrees ts fin ⟨i, d⟩ (calls ts budget e) p := by
  obtain ⟨budget, rfl⟩ := Nat.exists_eq_add_one_of_ne_zero (Nat.ne_of_gt hbudget)
  rw [calls.eq_def]
  refine agrees_check (by decide) hs (fun ha => ?_) fun t rest hus ht => ?_
  · rw [hno ha]
    exact .pure _ hs
  · rw [hyes t rest hus ht]
    subst hus
    split
    · exact absurd rfl (he _ _)
    · refine .after peek_eq rfl (.throw ?_)
      rw [hs.of_cons.1]

theorem agrees_called {pos : Position} {name : String} {args : List Expr}
    {h : us.length < origin.length} (hbudget : 0 < budget) (hs : Sees ts fin i us) :
    Agrees ts fin ⟨i, d⟩ (calls ts budget (.call pos name args))
      (Except.map Reading.out (match accept? .leftParen us with
        | none => (pure ⟨.call pos name args, us, h⟩ : Except SyntaxError (Reading origin Expr))
        | some _ => .error ⟨.calleeNotNamed, (Parser.peek (stopAt ts fin) us).pos⟩)) := by
  refine agrees_uncalled (by simp) hbudget hs (fun ha => ?_) fun t rest hus ht => ?_
  · rw [ha]
    rfl
  · subst hus
    rw [Parser.accept?_cons ht]
    rfl

theorem agrees_callable (hshort : ∀ vs : List Token, vs.length < n → Walks ts fin d vs)
    (hn : us.length ≤ n) (hbudget : 8 * us.length + 2 ≤ budget) (hs : Sees ts fin i us) :
    Agrees ts fin ⟨i, d⟩ (callable ts budget)
      ((Parser.callable (stopAt ts fin) us).map Reading.out) := by
  obtain ⟨budget, rfl⟩ := Nat.exists_eq_add_one_of_ne_zero (show budget ≠ 0 by omega)
  rw [callable, Parser.callable]
  refine (agrees_primary hshort hn (by omega) hs).reads fun e rest hlt j _ hj => ?_
  rcases Classical.em (∃ pos name, e = .var pos name) with ⟨pos, name, rfl⟩ | he
  · obtain ⟨budget, rfl⟩ := Nat.exists_eq_add_one_of_ne_zero (show budget ≠ 0 by omega)
    rw [calls.eq_def]
    simp only [discard_bind, pure_bind]
    refine agrees_check (by decide) hj (fun ha => ?_) fun l inner hrest hl => ?_
    · simp only [ha]
      exact .pure _ hj
    subst hrest
    simp only [Parser.accept?_cons hl]
    rw [List.length_cons] at hlt
    have hinner := hj.of_cons.2.2
    refine agrees_advance hj ?_
    refine agrees_check (by decide) hinner (fun hb => ?_) fun r after hafter hr => ?_
    · simp only [hb]
      rw [← bind_closing]
      exact (agrees_arguments (n := inner.length) (fun vs hvs => hshort vs (by omega))
        (Nat.le_refl _) (by omega) hinner).reads fun _ _ _ _ _ hk => agrees_called (by omega) hk
    · subst hafter
      simp only [Parser.accept?_cons hr]
      exact .after (expect_eq hinner hr) rfl (agrees_called (by omega) hinner.of_cons.2.2)
  · have he' : ∀ pos name, e ≠ .var pos name := fun pos name h => he ⟨pos, name, h⟩
    refine agrees_uncalled he' (by omega) hj (fun ha => ?_) fun t us hrest ht => ?_
    · simp only [ha]
      rfl
    · subst hrest
      simp only [Parser.accept?_cons ht]
      cases e with
      | var pos name => exact absurd rfl (he' pos name)
      | _ => rfl

theorem operand_out {stop : Position} (ops : List (Position × UnaryOp))
    {h : us.length ≤ origin.length} :
    (Parser.operand stop ops origin us h).map Reading.out =
      ((Parser.operand stop [] us us (Nat.le_refl _)).map Reading.out).map fun p =>
        (ops.foldl (fun e (pos, op) => .unary pos op e) p.1, p.2) := by
  induction us generalizing ops origin with
  | nil =>
    rw [Parser.operand, Parser.operand]
    rfl
  | cons t us ih =>
    rw [Parser.operand, Parser.operand]
    rcases unaryOp? t.kind with _ | op
    · simp only
      rcases Parser.callable stop (t :: us) with e | r <;> rfl
    · simp only
      rw [ih ((t.pos, op) :: ops), ih [(t.pos, op)]]
      rcases Parser.operand stop [] us us (Nat.le_refl _) with e | r <;> rfl

theorem agrees_operand (hshort : ∀ vs : List Token, vs.length < n → Walks ts fin d vs)
    (hn : us.length ≤ n) (hbudget : 8 * us.length + 3 ≤ budget) (hs : Sees ts fin i us) :
    Agrees ts fin ⟨i, d⟩ (operand ts budget)
      ((Parser.operand (stopAt ts fin) [] us us (Nat.le_refl _)).map Reading.out) := by
  induction us generalizing i budget with
  | nil =>
    obtain ⟨budget, rfl⟩ := Nat.exists_eq_add_one_of_ne_zero (show budget ≠ 0 by omega)
    have hcallable := agrees_callable hshort hn (Nat.le_of_succ_le_succ hbudget) hs
    rw [Parser.callable, Parser.primary] at hcallable
    rw [operand, Parser.operand]
    refine .after peek_eq rfl ?_
    rw [hs.of_nil.1]
    exact hcallable
  | cons t us ih =>
    obtain ⟨budget, rfl⟩ := Nat.exists_eq_add_one_of_ne_zero (show budget ≠ 0 by omega)
    rw [operand, Parser.operand]
    refine .after peek_eq rfl ?_
    rw [hs.of_cons.1]
    rcases unaryOp? t.kind with _ | op
    · have hcallable := agrees_callable hshort hn (Nat.le_of_succ_le_succ hbudget) hs
      simp only
      rcases hc : Parser.callable (stopAt ts fin) (t :: us) with e | r <;> rw [hc] at hcallable <;>
        exact hcallable
    · simp only [discard_bind]
      rw [operand_out [(t.pos, op)]]
      rw [List.length_cons] at hbudget
      refine agrees_advance hs ?_
      exact (ih (Nat.le_of_succ_le hn) (by omega) hs.of_cons.2.2).map _

theorem agrees_climbFrom {m : Nat} {left : Expr}
    (hshort : ∀ vs : List Token, vs.length < n → Walks ts fin d vs) (hn : us.length ≤ n)
    (hbudget : 8 * us.length + 1 ≤ budget) (hs : Sees ts fin i us) :
    Agrees ts fin ⟨i, d⟩ (climbFrom ts budget m left) (climbed (stopAt ts fin) m left us) := by
  induction hk : us.length using Nat.strongRecOn generalizing us i m left budget with
  | ind k ih =>
    obtain ⟨budget, rfl⟩ := Nat.exists_eq_add_one_of_ne_zero (show budget ≠ 0 by omega)
    rw [climbFrom]
    refine .after peek_eq rfl ?_
    rcases Parser.looser_or m us with hloose | ⟨t, vs, link, rfl, ht, hm⟩
    · rw [Parser.climbed_looser hloose, hs.connective]
      rcases hl : (ahead us).bind connective? with _ | link
      · exact .pure left hs
      · simp only [if_pos (hloose link hl)]
        exact .pure left hs
    · rw [List.length_cons] at hk hn hbudget
      obtain ⟨more, rfl⟩ := Nat.exists_eq_add_one_of_ne_zero (show budget ≠ 0 by omega)
      rw [Parser.climbed_cons ht hm, hs.of_cons.1]
      simp only [ht]
      rw [if_neg (Nat.not_lt_of_le hm), climb]
      refine .after (advance_eq hs) rfl ?_
      simp only [bind_assoc]
      -- the operand has used up a token, so what is linked to it and what goes on after it are shorter
      refine .bind (agrees_operand hshort (by omega) (by omega) hs.of_cons.2.2) fun r j _ hj => ?_
      have hr := r.shorter
      refine .bind_pairs (ih r.rest.length (by omega) (by omega) (by omega) hj rfl)
        fun p j' hp hj' => ?_
      have hlen := Parser.length_of_climbed hp
      refine .after peek_eq rfl ?_
      rw [hj'.connective]
      split_ifs with hchain
      · refine .throw ?_
        have hkind : t.kind = .dotDot := Grammar.kind_of_range (hchain.1 ▸ ht)
        rw [SyntaxError.report, SyntaxError.report, hkind, hj'.peek.2.1]
      · exact ih p.2.length (by omega) (by omega) (by omega) hj' rfl

/-- The walk over an expression agrees with the reader, from every list of tokens. -/
theorem walks_expr (us : List Token) : Walks ts fin d us := by
  induction hk : us.length using Nat.strongRecOn generalizing us with
  | ind k ih =>
    have hshort : ∀ vs : List Token, vs.length < us.length → Walks ts fin d vs :=
      fun vs hvs => ih vs.length (hk ▸ hvs) vs rfl
    intro i budget hbudget hs
    obtain ⟨budget, rfl⟩ := Nat.exists_eq_add_one_of_ne_zero (show budget ≠ 0 by omega)
    rw [climb, Parser.expr_out]
    refine .bind (agrees_operand hshort (Nat.le_refl _) (by omega) hs) fun r j _ hj => ?_
    have hr := r.shorter
    exact agrees_climbFrom hshort (Nat.le_of_lt hr) (by omega) hj

end Expressions

end Abacus.Walk
