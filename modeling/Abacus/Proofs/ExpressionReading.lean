import Abacus.Proofs.Precedence
import Abacus.Proofs.Shape

/-!
# Reading expressions

Each reader takes from the front of a list of tokens what the grammar derives, and only that. A reader
that looks at the token after its result goes on as long as it can, so the grammar has to be joined by
a condition on what is left. The readers call each other in a circle through `expr`; the circle is
closed by an induction on the number of tokens, with the exactness of `expr` on shorter lists as the
only hypothesis.
-/

namespace Abacus.Parser

open Grammar

section Reads

variable {α β : Type} {origin origin' rest rest' : List Token} {a : α} {b : β}

def Reads (p : Except SyntaxError (Reading origin α)) (a : α) (rest : List Token) : Prop :=
  ∃ h, p = .ok ⟨a, rest, h⟩

theorem reads_ok {a' : α} {h : rest.length < origin.length} :
    Reads (.ok ⟨a, rest, h⟩ : Except SyntaxError (Reading origin α)) a' rest' ↔
      a = a' ∧ rest = rest' := by
  constructor
  · rintro ⟨_, he⟩
    injection he with he
    injection he with ha hr
    exact ⟨ha, hr⟩
  · rintro ⟨rfl, rfl⟩
    exact ⟨h, rfl⟩

theorem reads_pure {a' : α} {h : rest.length < origin.length} :
    Reads (pure ⟨a, rest, h⟩ : Except SyntaxError (Reading origin α)) a' rest' ↔
      a = a' ∧ rest = rest' :=
  reads_ok

theorem not_reads_error {e : SyntaxError} :
    ¬ Reads (.error e : Except SyntaxError (Reading origin α)) a rest := by
  rintro ⟨_, h⟩
  cases h

theorem Reads.of_bind {p : Except SyntaxError (Reading origin α)}
    {f : Reading origin α → Except SyntaxError (Reading origin' β)} (h : Reads (p >>= f) b rest) :
    ∃ a rest' h, Reads p a rest' ∧ Reads (f ⟨a, rest', h⟩) b rest := by
  obtain ⟨h, hp⟩ := h
  cases p with
  | error e => cases hp
  | ok r => exact ⟨r.value, r.rest, r.shorter, ⟨r.shorter, rfl⟩, h, hp⟩

theorem Reads.bind {p : Except SyntaxError (Reading origin α)}
    {f : Reading origin α → Except SyntaxError (Reading origin' β)} (hp : Reads p a rest')
    (hf : ∀ h, Reads (f ⟨a, rest', h⟩) b rest) : Reads (p >>= f) b rest := by
  obtain ⟨h, rfl⟩ := hp
  exact hf h

end Reads

theorem accept?_cons {k : Token.Kind} {t : Token} (h : t.kind = k) (ts : List Token) :
    accept? k (t :: ts) = some ⟨ts, Nat.lt_succ_self ts.length⟩ :=
  if_pos h

theorem accept?_eq_none {k : Token.Kind} {ts : List Token} (h : ahead ts ≠ some k) :
    accept? k ts = none := by
  cases ts with
  | nil => rfl
  | cons t ts =>
    rw [ahead_cons, ne_eq, Option.some.injEq] at h
    simp [accept?, h]

theorem ahead_of_accept? {k : Token.Kind} {ts : List Token} (h : accept? k ts = none) :
    ahead ts ≠ some k := by
  cases ts with
  | nil => simp [ahead]
  | cons t ts =>
    rintro he
    rw [ahead_cons, Option.some.injEq] at he
    rw [accept?_cons he] at h
    cases h

theorem eq_cons_of_accept? {k : Token.Kind} {ts rest : List Token} {h : rest.length < ts.length}
    (ha : accept? k ts = some ⟨rest, h⟩) : ∃ t, ts = t :: rest ∧ t.kind = k := by
  cases ts with
  | nil => cases ha
  | cons t ts =>
    by_cases hk : t.kind = k
    · rw [accept?_cons hk] at ha
      cases ha
      exact ⟨t, rfl, hk⟩
    · rw [accept?_eq_none (by simpa using hk)] at ha
      cases ha

theorem reads_expect {stop : Position} {k : Token.Kind} {place : SyntaxError.Place}
    {origin ts rest : List Token} {h : ts.length ≤ origin.length} {t : Token} :
    Reads (expect stop k place origin ts h) t rest ↔ ts = t :: rest ∧ t.kind = k := by
  cases ts with
  | nil => simp [expect, not_reads_error]
  | cons t' ts =>
    by_cases hk : t'.kind = k
    · simp only [expect, hk, if_true, reads_ok, List.cons.injEq]
      constructor
      · rintro ⟨rfl, rfl⟩
        exact ⟨⟨rfl, rfl⟩, hk⟩
      · rintro ⟨h, -⟩
        exact h
    · simp only [expect, hk, if_false, not_reads_error, List.cons.injEq, false_iff]
      rintro ⟨⟨rfl, -⟩, h⟩
      exact hk h

/-- What may follow an expression that cannot be longer. -/
def Stops (rest : List Token) : Prop :=
  ahead rest ≠ some .leftParen ∧ (ahead rest).bind connective? = none

/-- The reader of expressions takes exactly an expression, and one that cannot be longer. -/
def Exact (stop : Position) (ts : List Token) : Prop :=
  ∀ e rest, Reads (expr stop ts) e rest ↔
    ∃ used, ts = used ++ rest ∧ Level 1 used e ∧ Stops rest

theorem Exact.reads {stop : Position} {used rest : List Token} {e : Expr}
    (h : Exact stop (used ++ rest)) (he : Level 1 used e) (hs : Stops rest) :
    Reads (expr stop (used ++ rest)) e rest :=
  (h e rest).2 ⟨used, rfl, he, hs⟩

theorem literal?_eq_some {p : Token.Payload} {v : Literal} : literal? p = some v ↔ Carries p v := by
  constructor
  · intro h
    cases p <;> simp only [literal?, Option.some.injEq, reduceCtorEq] at h <;> subst h <;> constructor
  · intro h
    cases h <;> rfl

theorem unaryOp?_eq_some {k : Token.Kind} {op : UnaryOp} : unaryOp? k = some op ↔ Sign k op := by
  constructor
  · intro h
    cases k <;> simp only [unaryOp?, Option.some.injEq, reduceCtorEq] at h <;> subst h <;> constructor
  · intro h
    cases h <;> rfl

theorem unaryOp?_of_opens {k : Token.Kind} (h : canOpen k) : unaryOp? k = none := by
  cases k <;> first | rfl | cases h

section Readers

variable {stop : Position} {n : Nat}

theorem stops_cons {t : Token} (rest : List Token) (hl : t.kind ≠ .leftParen)
    (hc : connective? t.kind = none) : Stops (t :: rest) :=
  ⟨by simpa using hl, by simpa using hc⟩

theorem stops_of_kind {t : Token} {k : Token.Kind} (h : t.kind = k)
    (hk : (k ≠ .leftParen && (connective? k).isNone) = true) (rest : List Token) :
    Stops (t :: rest) := by
  subst h
  simp only [Bool.and_eq_true, decide_eq_true_eq, Option.isNone_iff_eq_none] at hk
  exact stops_cons rest hk.1 hk.2

theorem reads_elements (hshort : ∀ us : List Token, us.length ≤ n → Exact stop us)
    {origin ts rest : List Token} {done es : List Expr} {h : ts.length < origin.length}
    (hn : ts.length ≤ n) :
    Reads (elements stop done origin ts h) es rest ↔
      ∃ used new, ts = used ++ rest ∧ es = done.reverse ++ new ∧ Elements used new := by
  induction hk : ts.length using Nat.strongRecOn generalizing done ts with
  | ind k ih =>
    rw [elements]
    constructor
    · intro hr
      rcases ha : accept? .rightBracket ts with _ | ⟨us, hus⟩
      · rw [ha] at hr
        obtain ⟨e, mid, _, he, hnext⟩ := hr.of_bind
        obtain ⟨used, rfl, hl, -⟩ := (hshort ts hn e mid).1 he
        rcases hc : accept? .comma mid with _ | ⟨us, hus⟩
        · simp only [hc] at hnext
          obtain ⟨r, _, _, hb, hend⟩ := hnext.of_bind
          obtain ⟨rfl, hrk⟩ := reads_expect.1 hb
          obtain ⟨rfl, rfl⟩ := reads_pure.1 hend
          exact ⟨used ++ [r], [e], by simp, by simp, .last hl hrk⟩
        · simp only [hc] at hnext
          obtain ⟨c, rfl, hck⟩ := eq_cons_of_accept? hc
          simp only [List.length_append, List.length_cons] at hn hk
          obtain ⟨used', new, rfl, rfl, hel⟩ := (ih us.length (by omega) (by omega) rfl).1 hnext
          exact ⟨used ++ c :: used', e :: new, by simp, by simp, .more hl hck hel⟩
      · rw [ha] at hr
        obtain ⟨r, rfl, hrk⟩ := eq_cons_of_accept? ha
        obtain ⟨rfl, rfl⟩ := reads_ok.1 hr
        exact ⟨[r], [], rfl, by simp, .close hrk⟩
    · rintro ⟨used, new, hts, rfl, hel⟩
      cases hel with
      | @close r hr =>
        subst hts
        simp only [List.cons_append, List.nil_append, accept?_cons hr]
        exact reads_ok.2 ⟨by simp, rfl⟩
      | @last r us e he hr =>
        rw [List.append_assoc] at hts
        have ha : accept? .rightBracket ts = none := accept?_eq_none (hts ▸ he.ahead_ne rfl _)
        have hc : accept? .comma ([r] ++ rest) = none := accept?_eq_none (by simp [hr])
        simp only [ha]
        refine .bind ((hshort ts hn e _).2 ⟨us, hts, he, stops_of_kind hr rfl _⟩) fun _ => ?_
        simp only [hc]
        exact .bind (reads_expect.2 ⟨rfl, hr⟩) fun _ => reads_pure.2 ⟨by simp, rfl⟩
      | @more c us vs e new he hck hel =>
        rw [List.append_assoc] at hts
        have ha : accept? .rightBracket ts = none := accept?_eq_none (hts ▸ he.ahead_ne rfl _)
        have hlen : ts.length = us.length + (vs ++ rest).length + 1 := by
          simp [hts]
          omega
        simp only [ha]
        refine .bind ((hshort ts hn e _).2 ⟨us, hts, he, stops_of_kind hck rfl _⟩) fun _ => ?_
        simp only [List.cons_append, accept?_cons hck]
        exact (ih _ (by omega) (by omega) rfl).2 ⟨vs, new, rfl, by simp, hel⟩

theorem reads_arguments (hshort : ∀ us : List Token, us.length ≤ n → Exact stop us)
    {origin ts rest : List Token} {done es : List Expr} {h : ts.length < origin.length}
    (hn : ts.length ≤ n) :
    Reads (arguments stop done origin ts h) es rest ↔
      ∃ used r new, ts = used ++ r :: rest ∧ r.kind = .rightParen ∧ es = done.reverse ++ new ∧
        Listed used new := by
  induction hk : ts.length using Nat.strongRecOn generalizing done ts with
  | ind k ih =>
    rw [arguments]
    constructor
    · intro hr
      obtain ⟨e, mid, _, he, hnext⟩ := hr.of_bind
      obtain ⟨used, rfl, hl, -⟩ := (hshort ts hn e mid).1 he
      rcases hc : accept? .comma mid with _ | ⟨us, hus⟩
      · simp only [hc] at hnext
        obtain ⟨r, _, _, hb, hend⟩ := hnext.of_bind
        obtain ⟨rfl, hrk⟩ := reads_expect.1 hb
        obtain ⟨rfl, rfl⟩ := reads_pure.1 hend
        exact ⟨used, r, [e], rfl, hrk, by simp, .one hl⟩
      · simp only [hc] at hnext
        obtain ⟨c, rfl, hck⟩ := eq_cons_of_accept? hc
        simp only [List.length_append, List.length_cons] at hn hk
        obtain ⟨used', r, new, rfl, hrk, rfl, hls⟩ := (ih us.length (by omega) (by omega) rfl).1 hnext
        exact ⟨used ++ c :: used', r, e :: new, by simp, hrk, by simp, .more hl hck hls⟩
    · rintro ⟨used, r, new, hts, hrk, rfl, hls⟩
      cases hls with
      | @one us e he =>
        have hc : accept? .comma (r :: rest) = none := accept?_eq_none (by simp [hrk])
        refine .bind ((hshort ts hn e _).2 ⟨used, hts, he, stops_of_kind hrk rfl _⟩) fun _ => ?_
        simp only [hc]
        exact .bind (reads_expect.2 ⟨rfl, hrk⟩) fun _ => reads_pure.2 ⟨by simp, rfl⟩
      | @more c us vs e new he hck hls =>
        rw [List.append_assoc] at hts
        have hlen : ts.length = us.length + (vs ++ r :: rest).length + 1 := by
          simp [hts]
          omega
        refine .bind ((hshort ts hn e _).2 ⟨us, hts, he, stops_of_kind hck rfl _⟩) fun _ => ?_
        simp only [List.cons_append, accept?_cons hck]
        exact (ih _ (by omega) (by omega) rfl).2 ⟨vs, r, new, rfl, hrk, by simp, hls⟩

theorem reads_primary (hshort : ∀ us : List Token, us.length < n → Exact stop us)
    {ts rest : List Token} {e : Expr} (hn : ts.length ≤ n) :
    Reads (primary stop ts) e rest ↔ ∃ used, ts = used ++ rest ∧ Primary used e := by
  constructor
  · intro hr
    cases ts with
    | nil =>
      rw [primary] at hr
      exact absurd hr not_reads_error
    | cons t us =>
      have hus : us.length < n := hn
      rw [primary] at hr
      by_cases hlit : t.kind.isLiteral
      · simp only [hlit, if_true] at hr
        rcases hv : literal? t.payload with _ | v
        · simp only [hv] at hr
          exact absurd hr not_reads_error
        · simp only [hv] at hr
          obtain ⟨rfl, rfl⟩ := reads_ok.1 hr
          exact ⟨[t], rfl, .literal hlit (literal?_eq_some.1 hv)⟩
      by_cases hid : t.kind = .ident
      · simp only [hid, Token.Kind.isLiteral, if_true] at hr
        obtain ⟨rfl, rfl⟩ := reads_ok.1 hr
        exact ⟨[t], rfl, .name hid⟩
      by_cases hb : t.kind = .leftBracket
      · simp only [hb, Token.Kind.isLiteral, if_true] at hr
        obtain ⟨es, _, _, hel, hend⟩ := hr.of_bind
        obtain ⟨rfl, rfl⟩ := reads_pure.1 hend
        obtain ⟨used, new, rfl, rfl, hel⟩ := (reads_elements (n := us.length)
          (fun vs hvs => hshort vs (by omega)) (Nat.le_refl _)).1 hel
        exact ⟨t :: used, rfl, .array hb hel⟩
      by_cases hp : t.kind = .leftParen
      · simp only [hp, Token.Kind.isLiteral, if_true] at hr
        obtain ⟨e', mid, _, he, hnext⟩ := hr.of_bind
        obtain ⟨r, rest', _, hx, hend⟩ := hnext.of_bind
        obtain ⟨rfl, hrk⟩ := reads_expect.1 hx
        obtain ⟨rfl, rfl⟩ := reads_pure.1 hend
        obtain ⟨used, rfl, hl, -⟩ := (hshort us hus e' _).1 he
        exact ⟨t :: used ++ [r], by simp, .group hp hl hrk⟩
      · simp only [hlit, hid, hb, hp, if_false] at hr
        exact absurd hr not_reads_error
  · rintro ⟨used, rfl, h⟩
    cases h with
    | @literal t v ht hv =>
      rw [List.cons_append, primary]
      simp only [ht, if_true, literal?_eq_some.2 hv]
      exact reads_ok.2 ⟨rfl, rfl⟩
    | @name t ht =>
      rw [List.cons_append, primary]
      simp only [ht, Token.Kind.isLiteral, if_true]
      exact reads_ok.2 ⟨rfl, rfl⟩
    | @array l us es hl hel =>
      have hus : (us ++ rest).length < n := Nat.lt_of_lt_of_le (by simp) hn
      rw [List.cons_append, primary]
      simp only [hl, Token.Kind.isLiteral, if_true]
      refine .bind ((reads_elements (n := (us ++ rest).length) (fun vs hvs => hshort vs (by omega))
        (Nat.le_refl _)).2 ⟨us, es, rfl, rfl, hel⟩) fun _ => reads_pure.2 ⟨rfl, rfl⟩
    | @group l r us e hl h hr =>
      have hus : (us ++ r :: rest).length < n := Nat.lt_of_lt_of_le (by simp) hn
      rw [List.append_assoc, List.cons_append, primary]
      simp only [hl, Token.Kind.isLiteral, if_true]
      refine .bind ((hshort _ hus).reads h (stops_of_kind hr rfl _)) fun _ => ?_
      exact .bind (reads_expect.2 ⟨rfl, hr⟩) fun _ => reads_pure.2 ⟨rfl, rfl⟩

theorem reads_uncalled {origin after rest : List Token} {e e' : Expr} {err : SyntaxError}
    {h : after.length < origin.length} :
    Reads (match accept? .leftParen after with
      | none => (pure ⟨e', after, h⟩ : Except SyntaxError (Reading origin Expr))
      | some _ => .error err) e rest ↔
      e' = e ∧ after = rest ∧ ahead rest ≠ some .leftParen := by
  rcases ha : accept? .leftParen after with _ | ⟨us, hus⟩
  · have hne := ahead_of_accept? ha
    constructor
    · intro hr
      obtain ⟨rfl, rfl⟩ := reads_pure.1 hr
      exact ⟨rfl, rfl, hne⟩
    · rintro ⟨rfl, rfl, -⟩
      exact reads_pure.2 ⟨rfl, rfl⟩
  · refine iff_of_false not_reads_error ?_
    rintro ⟨-, rfl, hne⟩
    rw [accept?_eq_none hne] at ha
    cases ha

theorem reads_callable (hshort : ∀ us : List Token, us.length < n → Exact stop us)
    {ts rest : List Token} {e : Expr} (hn : ts.length ≤ n) :
    Reads (callable stop ts) e rest ↔
      ∃ used, ts = used ++ rest ∧ Callable used e ∧ ahead rest ≠ some .leftParen := by
  rw [callable]
  constructor
  · intro hr
    obtain ⟨c, mid, hmid, hp, hnext⟩ := hr.of_bind
    obtain ⟨ns, hts, hc⟩ := (reads_primary hshort hn).1 hp
    rcases ha : accept? .leftParen mid with _ | ⟨inner, hinner⟩
    · simp only [ha] at hnext
      obtain ⟨rfl, rfl⟩ := reads_pure.1 hnext
      exact ⟨ns, hts, .primary hc, ahead_of_accept? ha⟩
    · simp only [ha] at hnext
      obtain ⟨l, rfl, hl⟩ := eq_cons_of_accept? ha
      cases c with
      | var pos name =>
        have hname := hc.named rfl
        rcases hb : accept? .rightParen inner with _ | ⟨after, hafter⟩
        · simp only [hb] at hnext
          obtain ⟨args, after, _, hargs, hlast⟩ := hnext.of_bind
          obtain ⟨rfl, rfl, hstop⟩ := reads_uncalled.1 hlast
          obtain ⟨used, r, new, rfl, hrk, rfl, hls⟩ := (reads_arguments (n := inner.length)
            (fun vs hvs => hshort vs (by omega)) (Nat.le_refl _)).1 hargs
          exact ⟨ns ++ l :: used ++ [r], by simp [hts], .call hname hl hls hrk, hstop⟩
        · simp only [hb] at hnext
          obtain ⟨args, _, _, hargs, hlast⟩ := hnext.of_bind
          obtain ⟨rfl, rfl⟩ := reads_ok.1 hargs
          obtain ⟨rfl, rfl, hstop⟩ := reads_uncalled.1 hlast
          obtain ⟨r, rfl, hrk⟩ := eq_cons_of_accept? hb
          exact ⟨ns ++ [l, r], by simp [hts], .emptyCall hname hl hrk, hstop⟩
      | _ => exact absurd hnext not_reads_error
  · rintro ⟨used, hts, h, hstop⟩
    cases h with
    | primary hp =>
      refine .bind ((reads_primary hshort hn).2 ⟨used, hts, hp⟩) fun _ => ?_
      simp only [accept?_eq_none hstop]
      exact reads_pure.2 ⟨rfl, rfl⟩
    | @emptyCall l r ns pos name hname hl hr =>
      rw [List.append_assoc] at hts
      refine .bind ((reads_primary hshort hn).2 ⟨ns, hts, hname.primary⟩) fun _ => ?_
      simp only [List.cons_append, List.nil_append, accept?_cons hl, accept?_cons hr]
      exact .bind (reads_ok.2 ⟨rfl, rfl⟩) fun _ => reads_uncalled.2 ⟨rfl, rfl, hstop⟩
    | @call l r ns us pos name es hname hl hls hr =>
      have hts' : ts = ns ++ l :: (us ++ r :: rest) := by simpa using hts
      have hlen : (us ++ r :: rest).length < n := Nat.lt_of_lt_of_le (by simp [hts']; omega) hn
      have hne : accept? .rightParen (us ++ r :: rest) = none :=
        accept?_eq_none (hls.begins.ahead_ne rfl _)
      refine .bind ((reads_primary hshort hn).2 ⟨ns, hts', hname.primary⟩) fun _ => ?_
      simp only [accept?_cons hl, hne]
      exact .bind ((reads_arguments (n := (us ++ r :: rest).length)
        (fun vs hvs => hshort vs (by omega)) (Nat.le_refl _)).2 ⟨us, r, es, rfl, hr, rfl, hls⟩)
        fun _ => reads_uncalled.2 ⟨rfl, rfl, hstop⟩

theorem reads_operand (hshort : ∀ us : List Token, us.length < n → Exact stop us)
    {origin ts rest : List Token} {ops : List (Position × UnaryOp)} {e : Expr}
    {h : ts.length ≤ origin.length} (hn : ts.length ≤ n) :
    Reads (operand stop ops origin ts h) e rest ↔
      ∃ used e', ts = used ++ rest ∧ e = ops.foldl (fun e (pos, op) => .unary pos op e) e' ∧
        Operand used e' ∧ ahead rest ≠ some .leftParen := by
  induction ts generalizing ops with
  | nil =>
    rw [operand]
    refine iff_of_false not_reads_error ?_
    rintro ⟨used, e', hts, -, ho, -⟩
    obtain ⟨t, us, rfl, -⟩ := ho.begins
    cases hts
  | cons t us ih =>
    rw [operand]
    have hus : us.length ≤ n := Nat.le_of_succ_le hn
    rcases ht : unaryOp? t.kind with _ | op
    · simp only
      constructor
      · intro hr
        obtain ⟨e', mid, _, hc, hend⟩ := hr.of_bind
        obtain ⟨rfl, rfl⟩ := reads_pure.1 hend
        obtain ⟨used, hts, hc, hstop⟩ := (reads_callable hshort hn).1 hc
        exact ⟨used, e', hts, rfl, .callable hc, hstop⟩
      · rintro ⟨used, e', hts, rfl, ho, hstop⟩
        cases ho with
        | callable hc =>
          exact .bind ((reads_callable hshort hn).2 ⟨used, hts, hc, hstop⟩) fun _ =>
            reads_pure.2 ⟨rfl, rfl⟩
        | sign hs _ =>
          rw [List.cons_append, List.cons.injEq] at hts
          rw [hts.1, unaryOp?_eq_some.2 hs] at ht
          cases ht
    · simp only
      rw [ih hus]
      constructor
      · rintro ⟨used, e', rfl, rfl, ho, hstop⟩
        exact ⟨t :: used, .unary t.pos op e', rfl, rfl, .sign (unaryOp?_eq_some.1 ht) ho, hstop⟩
      · rintro ⟨used, e', hts, rfl, ho, hstop⟩
        cases ho with
        | callable hc =>
          obtain ⟨t', vs, rfl, ht'⟩ := hc.opens
          rw [List.cons_append, List.cons.injEq] at hts
          rw [hts.1, unaryOp?_of_opens ht'] at ht
          cases ht
        | @sign t' vs op' e' hs ho =>
          rw [List.cons_append, List.cons.injEq] at hts
          obtain ⟨rfl, rfl⟩ := hts
          rw [unaryOp?_eq_some.2 hs] at ht
          cases ht
          exact ⟨vs, e', rfl, rfl, ho, hstop⟩

theorem reads_operand_nil (hshort : ∀ us : List Token, us.length < n → Exact stop us)
    {origin ts rest : List Token} {e : Expr} {h : ts.length ≤ origin.length} (hn : ts.length ≤ n) :
    Reads (operand stop [] origin ts h) e rest ↔
      ∃ used, ts = used ++ rest ∧ Operand used e ∧ ahead rest ≠ some .leftParen := by
  rw [reads_operand hshort hn]
  constructor
  · rintro ⟨used, e', hts, rfl, ho, hstop⟩
    exact ⟨used, hts, ho, hstop⟩
  · rintro ⟨used, hts, ho, hstop⟩
    exact ⟨used, e, hts, rfl, ho, hstop⟩

theorem Linked.ahead_ne {used rest : List Token} {links : List (Connective × Expr)}
    (h : Linked used links) (hr : ahead rest ≠ some .leftParen) :
    ahead (used ++ rest) ≠ some .leftParen := by
  cases h with
  | nil => exact hr
  | cons hk _ _ =>
    rw [List.cons_append, List.cons_append, ahead_cons, ne_eq, Option.some.injEq]
    intro he
    rw [he] at hk
    cases hk

theorem reads_links (hshort : ∀ us : List Token, us.length < n → Exact stop us)
    {origin ts rest : List Token} {ranged : Bool} {done all : List (Connective × Expr)}
    {h : ts.length < origin.length} (hn : ts.length ≤ n) (hts : ahead ts ≠ some .leftParen) :
    Reads (links stop ranged done origin ts h) all rest ↔
      ∃ used new, ts = used ++ rest ∧ all = done.reverse ++ new ∧ Linked used new ∧
        Unchained ranged new ∧ Stops rest := by
  induction hk : ts.length using Nat.strongRecOn generalizing ranged done ts with
  | ind k ih =>
    cases ts with
    | nil =>
      rw [links, reads_ok]
      constructor
      · rintro ⟨rfl, rfl⟩
        exact ⟨[], [], rfl, by simp, .nil, trivial, hts, rfl⟩
      · rintro ⟨used, new, hu, rfl, hl, -, -⟩
        obtain ⟨rfl, rfl⟩ := List.append_eq_nil_iff.1 hu.symm
        cases hl
        exact ⟨by simp, rfl⟩
    | cons t us =>
      have hus : us.length ≤ n := Nat.le_of_succ_le hn
      rw [links]
      rcases ht : connective? t.kind with _ | link
      · simp only [reads_ok]
        constructor
        · rintro ⟨rfl, rfl⟩
          exact ⟨[], [], rfl, by simp, .nil, trivial, hts, by simp [ht]⟩
        · rintro ⟨used, new, hu, rfl, hl, -, -⟩
          cases hl with
          | nil => exact ⟨by simp, hu⟩
          | cons hlink _ _ =>
            rw [List.cons_append, List.cons_append, List.cons.injEq] at hu
            rw [hu.1, hlink] at ht
            cases ht
      · simp only
        by_cases hranged : link = .range ∧ ranged
        · -- a second range is an error of the reader and not `Unchained`
          rw [if_pos hranged]
          refine iff_of_false not_reads_error ?_
          rintro ⟨used, new, hu, -, hl, hunchained, hstop⟩
          cases hl with
          | nil =>
            rw [List.nil_append] at hu
            subst hu
            simp [Stops, ht] at hstop
          | cons hlink _ _ =>
            rw [List.cons_append, List.cons_append, List.cons.injEq] at hu
            rw [← hu.1, ht, Option.some.injEq] at hlink
            subst hlink
            exact hunchained.1 hranged
        · rw [if_neg hranged]
          constructor
          · intro hr
            -- the operand after the connective, and then the links that are left
            obtain ⟨e, mid, _, hread, hnext⟩ := hr.of_bind
            obtain ⟨os, rfl, ho, hmid⟩ := (reads_operand_nil hshort hus).1 hread
            have hlt : mid.length < k := by
              simp only [List.length_cons, List.length_append] at hk
              omega
            obtain ⟨used, new, rfl, rfl, hl, hu, hstop⟩ :=
              (ih _ hlt (by omega) hmid rfl).1 hnext
            exact ⟨t :: os ++ used, (link, e) :: new, by simp, by simp, .cons ht ho hl,
              ⟨hranged, hu⟩, hstop⟩
          · rintro ⟨used, new, hu, rfl, hl, hunchained, hstop⟩
            cases hl with
            | nil =>
              rw [List.nil_append] at hu
              subst hu
              simp [Stops, ht] at hstop
            | @cons t' os vs link' e new hlink ho hl =>
              rw [List.cons_append, List.cons_append, List.cons.injEq, List.append_assoc] at hu
              obtain ⟨rfl, hos⟩ := hu
              rw [ht, Option.some.injEq] at hlink
              subst hlink
              have hmid := Linked.ahead_ne hl hstop.1
              have hlt : (vs ++ rest).length < k := by
                simp only [List.length_cons, hos, List.length_append] at hk ⊢
                omega
              refine .bind ((reads_operand_nil hshort hus).2 ⟨os, hos, ho, hmid⟩) fun _ => ?_
              exact (ih _ hlt (by omega) hmid rfl).2 ⟨vs, new, rfl, by simp, hl, hunchained.2, hstop⟩

theorem exact_of_shorter {ts : List Token}
    (hshort : ∀ us : List Token, us.length < ts.length → Exact stop us) : Exact stop ts := by
  intro e rest
  rw [expr]
  constructor
  · intro hr
    obtain ⟨first, mid, hmid, hread, hnext⟩ := hr.of_bind
    obtain ⟨all, after, _, hlinks, hend⟩ := hnext.of_bind
    obtain ⟨rfl, rfl⟩ := reads_pure.1 hend
    obtain ⟨os, hos, ho, hparen⟩ := (reads_operand_nil hshort (Nat.le_refl _)).1 hread
    obtain ⟨used, new, rfl, rfl, hl, hu, hstop⟩ :=
      (reads_links hshort (Nat.le_of_lt hmid) hparen).1 hlinks
    exact ⟨os ++ used, by simp [hos], level_one_iff.2 ⟨os, _, used, _, rfl, ho, hl, hu, rfl⟩, hstop⟩
  · rintro ⟨used, hts, h, hstop⟩
    obtain ⟨os, first, ls, links, rfl, ho, hl, hu, rfl⟩ := level_one_iff.1 h
    rw [List.append_assoc] at hts
    have hmid := Linked.ahead_ne hl hstop.1
    refine .bind ((reads_operand_nil hshort (Nat.le_refl _)).2 ⟨os, hts, ho, hmid⟩) fun hlt => ?_
    exact .bind ((reads_links hshort (Nat.le_of_lt hlt) hmid).2 ⟨ls, links, rfl, rfl, hl, hu, hstop⟩)
      fun _ => reads_pure.2 ⟨rfl, rfl⟩

/-- The reader of expressions is exact on every list of tokens. -/
theorem exact_expr (ts : List Token) : Exact stop ts := by
  induction hk : ts.length using Nat.strongRecOn generalizing ts with
  | ind k ih => exact exact_of_shorter fun us hus => ih us.length (hk ▸ hus) us rfl

end Readers

end Abacus.Parser
