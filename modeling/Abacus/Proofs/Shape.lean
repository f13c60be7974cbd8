import Abacus.Program.Parser
import Abacus.Proofs.Grammar
import Mathlib.Tactic.SplitIfs

/-!
# The shape of expressions

What can be seen of an expression without reading it: how it starts, that no sign of a statement
stands in it, and that its parentheses are balanced. This is what the look ahead for the head of a
function relies on.
-/

namespace Abacus.Grammar

open Abacus.Parser (afterGroup)

def canOpen (k : Token.Kind) : Bool :=
  k.isLiteral || k = .ident || k = .leftBracket || k = .leftParen

def canBegin (k : Token.Kind) : Bool := canOpen k || k = .minus || k = .kwNot

def StartsWith (p : Token.Kind → Bool) (ts : List Token) : Prop := ∃ t us, ts = t :: us ∧ p t.kind

theorem StartsWith.append {p : Token.Kind → Bool} {ts : List Token} (h : StartsWith p ts)
    (us : List Token) : StartsWith p (ts ++ us) := by
  obtain ⟨t, rest, rfl, ht⟩ := h
  exact ⟨t, rest ++ us, rfl, ht⟩

theorem startsWith_cons {p : Token.Kind → Bool} {t : Token} {k : Token.Kind} (ht : t.kind = k)
    (hk : p k) (us : List Token) : StartsWith p (t :: us) :=
  ⟨t, us, rfl, ht ▸ hk⟩

theorem Named.opens {ts : List Token} {pos : Position} {name : String} (h : Named ts pos name) :
    StartsWith canOpen ts := by
  cases h with
  | name ht => exact startsWith_cons ht rfl _
  | group hl _ _ => exact startsWith_cons hl rfl _

theorem Primary.opens {ts : List Token} {e : Expr} (h : Primary ts e) : StartsWith canOpen ts := by
  cases h with
  | literal ht _ => exact startsWith_cons rfl (by simp [canOpen, ht]) _
  | name ht => exact startsWith_cons ht rfl _
  | array hl _ => exact startsWith_cons hl rfl _
  | group hl _ _ => exact startsWith_cons hl rfl _

theorem Callable.opens {ts : List Token} {e : Expr} (h : Callable ts e) : StartsWith canOpen ts := by
  cases h with
  | primary hp => exact hp.opens
  | emptyCall hn _ _ => exact hn.opens.append _
  | call hn _ _ _ => exact (hn.opens.append _).append _

theorem Operand.begins {ts : List Token} {e : Expr} (h : Operand ts e) : StartsWith canBegin ts := by
  cases h with
  | callable hc =>
    obtain ⟨t, us, rfl, ht⟩ := hc.opens
    exact startsWith_cons rfl (by simp [canBegin, ht]) us
  | @sign t _ _ _ hs _ =>
    generalize hk : t.kind = k at hs
    cases hs <;> exact startsWith_cons hk rfl _

theorem Level.begins {n : Nat} {ts : List Token} {e : Expr} :
    Level n ts e → StartsWith canBegin ts
  | .operand h => h.begins
  | .tighter _ h => h.begins
  | .left _ hl _ => hl.begins.append _
  | .range _ hl _ => hl.begins.append _
  | .power _ hl _ => hl.begins.append _

theorem Listed.begins {ts : List Token} {es : List Expr} (h : Listed ts es) :
    StartsWith canBegin ts := by
  cases h with
  | one h => exact h.begins
  | more h _ _ => exact h.begins.append _

def ahead (ts : List Token) : Option Token.Kind := ts.head?.map Token.kind

@[simp]
theorem ahead_cons (t : Token) (ts : List Token) : ahead (t :: ts) = some t.kind := rfl

theorem StartsWith.ahead_ne {p : Token.Kind → Bool} {used : List Token} (h : StartsWith p used)
    {k : Token.Kind} (hk : p k = false) (rest : List Token) : ahead (used ++ rest) ≠ some k := by
  obtain ⟨t, us, rfl, ht⟩ := h
  rw [List.cons_append, ahead_cons, ne_eq, Option.some.injEq]
  intro he
  rw [he, hk] at ht
  cases ht

theorem Level.ahead_ne {m : Nat} {used : List Token} {e : Expr} (h : Level m used e)
    {k : Token.Kind} (hk : canBegin k = false) (rest : List Token) :
    ahead (used ++ rest) ≠ some k :=
  h.begins.ahead_ne hk rest

/-- The number of open parentheses after some tokens; `none` when one is closed that is not open. -/
def depthAfter : Nat → List Token → Option Nat
  | d, [] => some d
  | d, t :: ts =>
    if t.kind = .leftParen then depthAfter (d + 1) ts
    else if t.kind = .rightParen then
      if d = 0 then none else depthAfter (d - 1) ts
    else depthAfter d ts

theorem depthAfter_append (d : Nat) (ts us : List Token) :
    depthAfter d (ts ++ us) = (depthAfter d ts).bind (depthAfter · us) := by
  induction ts generalizing d with
  | nil => rfl
  | cons t ts ih =>
    simp only [List.cons_append, depthAfter, ih]
    split_ifs <;> rfl

/-- Whether a token of a kind can stand in an expression and in no head of a statement. -/
def isPlain (k : Token.Kind) : Bool := k ≠ .equal && k ≠ .colon && k ≠ .arrow

/-- Tokens with balanced parentheses and without the signs of statements. -/
structure Enclosed (ts : List Token) : Prop where
  plain : ∀ t ∈ ts, isPlain t.kind
  balanced : ∀ d, depthAfter d ts = some d

theorem Enclosed.token {t : Token} (h : isPlain t.kind) (hl : t.kind ≠ .leftParen)
    (hr : t.kind ≠ .rightParen) : Enclosed [t] :=
  ⟨by simpa using h, fun d => by simp [depthAfter, hl, hr]⟩

theorem Enclosed.nil : Enclosed [] := ⟨by simp, fun _ => rfl⟩

theorem Enclosed.append {ts us : List Token} (h : Enclosed ts) (h' : Enclosed us) :
    Enclosed (ts ++ us) := by
  refine ⟨fun t ht => ?_, fun d => ?_⟩
  · rcases List.mem_append.1 ht with ht | ht
    · exact h.plain t ht
    · exact h'.plain t ht
  · rw [depthAfter_append, h.balanced, Option.bind_some, h'.balanced]

theorem Enclosed.cons {t : Token} {ts : List Token} (h : Enclosed [t]) (h' : Enclosed ts) :
    Enclosed (t :: ts) :=
  h.append h'

theorem Enclosed.group {l r : Token} {ts : List Token} (hl : l.kind = .leftParen) (h : Enclosed ts)
    (hr : r.kind = .rightParen) : Enclosed (l :: ts ++ [r]) := by
  refine ⟨fun t ht => ?_, fun d => ?_⟩
  · simp only [List.cons_append, List.mem_cons, List.mem_append, List.not_mem_nil, or_false] at ht
    rcases ht with rfl | ht | rfl
    · rw [hl]; rfl
    · exact h.plain t ht
    · rw [hr]; rfl
  · simp [depthAfter, depthAfter_append, h.balanced, hl, hr]

theorem Enclosed.of_kind {t : Token} {k : Token.Kind} (h : t.kind = k)
    (hk : (isPlain k && k ≠ .leftParen && k ≠ .rightParen) = true) : Enclosed [t] := by
  simp only [Bool.and_eq_true, decide_eq_true_eq] at hk
  subst h
  exact .token hk.1.1 hk.1.2 hk.2

theorem LeftOp.enclosed {n : Nat} {t : Token} {op : BinaryOp} (h : LeftOp n t.kind op) :
    Enclosed [t] := by
  generalize hk : t.kind = k at h
  cases h <;> exact .of_kind hk rfl

theorem Sign.enclosed {t : Token} {op : UnaryOp} (h : Sign t.kind op) : Enclosed [t] := by
  generalize hk : t.kind = k at h
  cases h <;> exact .of_kind hk rfl

theorem enclosed_literal {t : Token} (h : t.kind.isLiteral) : Enclosed [t] := by
  generalize hk : t.kind = k at h
  cases k <;> first | exact .of_kind hk rfl | cases h

theorem Named.enclosed {ts : List Token} {pos : Position} {name : String} (h : Named ts pos name) :
    Enclosed ts := by
  induction h with
  | name ht => exact .of_kind ht rfl
  | group hl _ hr ih => exact .group hl ih hr

mutual

theorem Primary.enclosed {ts : List Token} {e : Expr} : Primary ts e → Enclosed ts
  | .literal ht _ => enclosed_literal ht
  | .name ht => .of_kind ht rfl
  | .array hl h => .cons (.of_kind hl rfl) h.enclosed
  | .group hl h hr => .group hl h.enclosed hr

theorem Callable.enclosed {ts : List Token} {e : Expr} : Callable ts e → Enclosed ts
  | .primary h => h.enclosed
  | .emptyCall hn hl hr => .append hn.enclosed (Enclosed.group hl .nil hr)
  | .call hn hl h hr => by
    rw [List.append_assoc]
    exact .append hn.enclosed (.group hl h.enclosed hr)

theorem Operand.enclosed {ts : List Token} {e : Expr} : Operand ts e → Enclosed ts
  | .callable h => h.enclosed
  | .sign hs h => .cons hs.enclosed h.enclosed

theorem Level.enclosed {n : Nat} {ts : List Token} {e : Expr} : Level n ts e → Enclosed ts
  | .operand h => h.enclosed
  | .tighter _ h => h.enclosed
  | .left hop hl hr => .append hl.enclosed (.cons hop.enclosed hr.enclosed)
  | .range ht hl hr => .append hl.enclosed (.cons (.of_kind ht rfl) hr.enclosed)
  | .power ht hl hr => .append hl.enclosed (.cons (.of_kind ht rfl) hr.enclosed)

theorem Elements.enclosed {ts : List Token} {es : List Expr} : Elements ts es → Enclosed ts
  | .close hr => .of_kind hr rfl
  | .last h hr => .append h.enclosed (.of_kind hr rfl)
  | .more h hc hs => .append h.enclosed (.cons (.of_kind hc rfl) hs.enclosed)

theorem Listed.enclosed {ts : List Token} {es : List Expr} : Listed ts es → Enclosed ts
  | .one h => h.enclosed
  | .more h hc hs => .append h.enclosed (.cons (.of_kind hc rfl) hs.enclosed)

end

theorem afterGroup_of_depthAfter {ts : List Token} {d : Nat} (h : depthAfter (d + 1) ts = some 0) :
    ∃ us, (∀ t ∈ us, t ∈ ts) ∧ ∀ rest, afterGroup (d + 1) (ts ++ rest) = us ++ rest := by
  induction ts generalizing d with
  | nil => simp [depthAfter] at h
  | cons t ts ih =>
    have step : ∀ {m}, depthAfter (m + 1) ts = some 0 →
        (∀ rest, afterGroup (d + 1) (t :: ts ++ rest) = afterGroup (m + 1) (ts ++ rest)) →
        ∃ us, (∀ x ∈ us, x ∈ t :: ts) ∧ ∀ rest, afterGroup (d + 1) (t :: ts ++ rest) = us ++ rest := by
      intro m hd ha
      obtain ⟨us, hus, hrest⟩ := ih hd
      exact ⟨us, fun x hx => .tail t (hus x hx), fun rest => (ha rest).trans (hrest rest)⟩
    by_cases hl : t.kind = .leftParen
    · exact step (m := d + 1) (by simpa [depthAfter, hl] using h) fun rest => by
        simp [afterGroup, hl]
    · by_cases hr : t.kind = .rightParen
      · cases d with
        | zero =>
          exact ⟨ts, fun x hx => .tail t hx, fun rest => by simp [afterGroup, hr]⟩
        | succ d =>
          exact step (m := d) (by simpa [depthAfter, hr] using h) fun rest => by
            simp [afterGroup, hr]
      · exact step (m := d) (by simpa [depthAfter, hl, hr] using h) fun rest => by
          simp [afterGroup, hl, hr]

end Abacus.Grammar
