import Abacus.Proofs.ExpressionReading

/-!
# Reading programs

The readers of statements take exactly what the grammar derives. A statement that starts with a name
and a parenthesis is a function or an expression; the look ahead over one group of parentheses tells
them apart, since the parameters of a function hold no parentheses and an expression holds no colon
and no arrow. A conditional is the only statement that may be longer than the grammar asks, when
`otherwise` follows it.
-/

namespace Abacus.Parser

open Grammar

section Parts

variable {stop : Position}

theorem reads_annotated {origin ts rest : List Token} {type : Option String}
    {h : ts.length < origin.length} :
    Reads ( annotation stop origin ts h) type rest ↔
      ∃ used, ts = used ++ rest ∧ Annotated used type ∧ (type = none → ahead rest ≠ some .colon) := by
  rw [ annotation]
  constructor
  · intro hr
    rcases ha : accept? .colon ts with _ | ⟨us, hus⟩
    · simp only [ha] at hr
      obtain ⟨rfl, rfl⟩ := reads_ok.1 hr
      exact ⟨[], rfl, .none, fun _ => ahead_of_accept? ha⟩
    · obtain ⟨c, rfl, hc⟩ := eq_cons_of_accept? ha
      cases us with
      | nil =>
        simp only [ha] at hr
        exact absurd hr not_reads_error
      | cons t us =>
        simp only [ha] at hr
        by_cases ht : t.kind.isTypeName || t.kind = .ident
        · rw [if_pos ht] at hr
          obtain ⟨rfl, rfl⟩ := reads_ok.1 hr
          exact ⟨[c, t], rfl, .some hc (by simpa using ht), by simp⟩
        · rw [if_neg ht] at hr
          exact absurd hr not_reads_error
  · rintro ⟨used, rfl, ha, hnone⟩
    cases ha with
    | none =>
      simp only [List.nil_append, accept?_eq_none (hnone rfl)]
      exact reads_ok.2 ⟨rfl, rfl⟩
    | @some c t hc ht =>
      simp only [List.cons_append, List.nil_append, accept?_cons hc]
      rw [if_pos (by simpa using ht)]
      exact reads_ok.2 ⟨rfl, rfl⟩

theorem reads_parameters {origin ts rest : List Token} {done ps : List Param}
    {h : ts.length < origin.length} :
    Reads (parameters stop done origin ts h) ps rest ↔
      ∃ used r new, ts = used ++ r :: rest ∧ r.kind = .rightParen ∧ ps = done.reverse ++ new ∧
        Params used new := by
  induction hk : ts.length using Nat.strongRecOn generalizing done ts with
  | ind k ih =>
    rw [parameters]
    constructor
    · intro hr
      obtain ⟨t, _, _, hname, hnext⟩ := hr.of_bind
      obtain ⟨rfl, ht⟩ := reads_expect.1 hname
      obtain ⟨type, mid, _, hread, hlast⟩ := hnext.of_bind
      obtain ⟨used, rfl, hann, -⟩ := reads_annotated.1 hread
      rcases hc : accept? .comma mid with _ | ⟨us, hus⟩
      · simp only [hc] at hlast
        obtain ⟨r, _, _, hb, hend⟩ := hlast.of_bind
        obtain ⟨rfl, hrk⟩ := reads_expect.1 hb
        obtain ⟨rfl, rfl⟩ := reads_pure.1 hend
        exact ⟨t :: used, r, [⟨t.spelling, type⟩], rfl, hrk, by simp, .one ht hann⟩
      · simp only [hc] at hlast
        obtain ⟨c, rfl, hck⟩ := eq_cons_of_accept? hc
        simp only [List.length_append, List.length_cons] at hk
        obtain ⟨used', r, new, rfl, hrk, rfl, hps⟩ := (ih us.length (by omega) rfl).1 hlast
        exact ⟨t :: used ++ c :: used', r, ⟨t.spelling, type⟩ :: new, by simp, hrk, by simp,
          .more ht hann hck hps⟩
    · rintro ⟨used, r, new, hts, hrk, rfl, hps⟩
      cases hps with
      | @one t us type ht hann =>
        subst hts
        have hc : accept? .comma (r :: rest) = none := accept?_eq_none (by simp [hrk])
        refine .bind (reads_expect.2 ⟨rfl, ht⟩) fun _ => ?_
        refine .bind (reads_annotated.2 ⟨us, rfl, hann, fun _ => by simp [hrk]⟩) fun _ => ?_
        simp only [hc]
        exact .bind (reads_expect.2 ⟨rfl, hrk⟩) fun _ => reads_pure.2 ⟨by simp, rfl⟩
      | @more t c us vs type new ht hann hck hps =>
        simp only [List.cons_append, List.append_assoc] at hts
        subst hts
        simp only [List.length_cons, List.length_append] at hk
        refine .bind (reads_expect.2 ⟨rfl, ht⟩) fun _ => ?_
        refine .bind (reads_annotated.2 ⟨us, rfl, hann, fun _ => by simp [hck]⟩) fun _ => ?_
        simp only [accept?_cons hck]
        exact (ih _ (by simp; omega) rfl).2 ⟨vs, r, new, rfl, hrk, by simp, hps⟩

theorem reads_headEnd {origin ts rest : List Token} {name : String} {params : List Param}
    {head : String × List Param × Option String} {h : ts.length < origin.length}
    (hle : ∀ r : Reading origin (Option String), r.rest.length ≤ origin.length) :
    Reads ( annotation stop origin ts h >>= fun r =>
      expect stop .arrow .functionBody origin r.rest (hle r) >>= fun r' =>
        pure ⟨(name, params, r.value), r'.rest, r'.shorter⟩) head rest ↔
      ∃ used a type, ts = used ++ a :: rest ∧ Annotated used type ∧ a.kind = .arrow ∧
        head = (name, params, type) := by
  constructor
  · intro hr
    obtain ⟨type, mid, _, hread, hnext⟩ := hr.of_bind
    obtain ⟨used, rfl, hann, -⟩ := reads_annotated.1 hread
    obtain ⟨a, _, _, harrow, hend⟩ := hnext.of_bind
    obtain ⟨rfl, ha⟩ := reads_expect.1 harrow
    obtain ⟨rfl, rfl⟩ := reads_pure.1 hend
    exact ⟨used, a, type, rfl, hann, ha, rfl⟩
  · rintro ⟨used, a, type, rfl, hann, ha, rfl⟩
    refine .bind (reads_annotated.2 ⟨used, rfl, hann, fun _ => by simp [ha]⟩) fun _ => ?_
    exact .bind (reads_expect.2 ⟨rfl, ha⟩) fun _ => reads_pure.2 ⟨rfl, rfl⟩

theorem reads_head {ts rest : List Token} {name : String} {params : List Param}
    {type : Option String} :
    Reads (head stop ts) (name, params, type) rest ↔
      ∃ used, ts = used ++ rest ∧ Head used name params type := by
  rw [head]
  constructor
  · intro hr
    obtain ⟨t, _, _, hname, hnext⟩ := hr.of_bind
    obtain ⟨rfl, ht⟩ := reads_expect.1 hname
    obtain ⟨l, us, _, hparen, hlist⟩ := hnext.of_bind
    obtain ⟨rfl, hl⟩ := reads_expect.1 hparen
    rcases hb : accept? .rightParen us with _ | ⟨after, hafter⟩
    · simp only [hb] at hlist
      obtain ⟨ps, mid, _, hread, hend⟩ := hlist.of_bind
      obtain ⟨used, r, new, rfl, hrk, rfl, hps⟩ := reads_parameters.1 hread
      obtain ⟨as, a, type, rfl, hann, ha, he⟩ := (reads_headEnd _).1 hend
      cases he
      exact ⟨t :: (l :: used ++ [r]) ++ as ++ [a], by simp, .mk ht (.params hl hps hrk) hann ha⟩
    · simp only [hb] at hlist
      obtain ⟨ps, mid, _, hread, hend⟩ := hlist.of_bind
      obtain ⟨rfl, rfl⟩ := reads_ok.1 hread
      obtain ⟨r, rfl, hrk⟩ := eq_cons_of_accept? hb
      obtain ⟨as, a, type, rfl, hann, ha, he⟩ := (reads_headEnd _).1 hend
      cases he
      exact ⟨t :: [l, r] ++ as ++ [a], by simp, .mk ht (.empty hl hrk) hann ha⟩
  · rintro ⟨used, hts, hhead⟩
    cases hhead with
    | @mk t a ps as _ _ ht hps hann ha =>
      cases hps with
      | @empty l r hl hr =>
        simp only [List.cons_append, List.nil_append, List.append_assoc] at hts
        subst hts
        refine .bind (reads_expect.2 ⟨rfl, ht⟩) fun _ => .bind (reads_expect.2 ⟨rfl, hl⟩) fun _ => ?_
        simp only [accept?_cons hr]
        exact .bind (reads_ok.2 ⟨rfl, rfl⟩) fun _ =>
          (reads_headEnd _).2 ⟨as, a, type, rfl, hann, ha, rfl⟩
      | @params l r us _ hl hus hr =>
        simp only [List.cons_append, List.nil_append, List.append_assoc] at hts
        subst hts
        have hne : accept? .rightParen (us ++ r :: (as ++ a :: rest)) = none := by
          cases hus with
          | one hi _ => exact accept?_eq_none (by simp [hi])
          | more hi _ _ _ => exact accept?_eq_none (by simp [hi])
        refine .bind (reads_expect.2 ⟨rfl, ht⟩) fun _ => .bind (reads_expect.2 ⟨rfl, hl⟩) fun _ => ?_
        simp only [hne]
        exact .bind (reads_parameters.2 ⟨us, r, params, rfl, hr, rfl, hus⟩) fun _ =>
          (reads_headEnd _).2 ⟨as, a, type, rfl, hann, ha, rfl⟩

theorem reads_ended {k : Token.Kind} (hk : (k ≠ .leftParen && (connective? k).isNone) = true)
    {place : SyntaxError.Place} {origin ts rest : List Token} {e : Expr}
    {hle : ∀ r : Reading ts Expr, r.rest.length ≤ origin.length}
    {hlt : ∀ (_ : Reading ts Expr) (c : Reading origin Token), c.rest.length < origin.length} :
    Reads (expr stop ts >>= fun r => expect stop k place origin r.rest (hle r) >>= fun c =>
        (pure ⟨r.value, c.rest, hlt r c⟩ : Except SyntaxError (Reading origin Expr))) e rest ↔
      ∃ used t, ts = used ++ t :: rest ∧ Level 1 used e ∧ t.kind = k := by
  constructor
  · intro hr
    obtain ⟨e', mid, _, hread, hnext⟩ := hr.of_bind
    obtain ⟨used, rfl, he, -⟩ := (exact_expr ts e' mid).1 hread
    obtain ⟨t, _, _, hlast, hend⟩ := hnext.of_bind
    obtain ⟨rfl, ht⟩ := reads_expect.1 hlast
    obtain ⟨rfl, rfl⟩ := reads_pure.1 hend
    exact ⟨used, t, rfl, he, ht⟩
  · rintro ⟨used, t, rfl, he, ht⟩
    refine .bind ((exact_expr _).reads he (stops_of_kind ht hk _)) fun _ => ?_
    exact .bind (reads_expect.2 ⟨rfl, ht⟩) fun _ => reads_pure.2 ⟨rfl, rfl⟩

theorem reads_closed {place : SyntaxError.Place} {origin ts rest : List Token} {e : Expr}
    {h : ts.length ≤ origin.length} :
    Reads (closed stop place origin ts h) e rest ↔
      ∃ used s, ts = used ++ s :: rest ∧ Level 1 used e ∧ s.kind = .semicolon :=
  reads_ended rfl

theorem reads_condition {origin ts rest : List Token} {e : Expr} {h : ts.length < origin.length} :
    Reads (condition stop origin ts h) e rest ↔
      ∃ used l, ts = used ++ l :: rest ∧ Level 1 used e ∧ l.kind = .leftBrace :=
  reads_ended rfl

theorem reads_traversal {origin ts rest : List Token} {name : String} {e : Expr}
    {h : ts.length < origin.length} :
    Reads (traversal stop origin ts h) (name, e) rest ↔
      ∃ t i used l, ts = t :: i :: used ++ l :: rest ∧ t.kind = .ident ∧ i.kind = .kwIn ∧
        Level 1 used e ∧ l.kind = .leftBrace ∧ name = t.spelling := by
  rw [traversal]
  constructor
  · intro hr
    obtain ⟨t, _, _, hname, hnext⟩ := hr.of_bind
    obtain ⟨rfl, ht⟩ := reads_expect.1 hname
    obtain ⟨i, _, _, hin, hvalues⟩ := hnext.of_bind
    obtain ⟨rfl, hi⟩ := reads_expect.1 hin
    obtain ⟨e', _, _, hcond, hend⟩ := hvalues.of_bind
    obtain ⟨used, l, rfl, he, hl⟩ := reads_condition.1 hcond
    obtain ⟨hpair, rfl⟩ := reads_pure.1 hend
    cases hpair
    exact ⟨t, i, used, l, rfl, ht, hi, he, hl, rfl⟩
  · rintro ⟨t, i, used, l, rfl, ht, hi, he, hl, rfl⟩
    refine .bind (reads_expect.2 ⟨rfl, ht⟩) fun _ => .bind (reads_expect.2 ⟨rfl, hi⟩) fun _ => ?_
    exact .bind (reads_condition.2 ⟨used, l, rfl, he, hl⟩) fun _ => reads_pure.2 ⟨rfl, rfl⟩

theorem reads_declaration {origin ts rest : List Token} {s : Stmt} {h : ts.length < origin.length} :
    Reads (declaration stop origin ts h) s rest ↔
      ∃ t as q es z type e, ts = t :: (as ++ q :: (es ++ z :: rest)) ∧ t.kind = .ident ∧
        Annotated as type ∧ q.kind = .equal ∧ Level 1 es e ∧ z.kind = .semicolon ∧
        s = .declare t.spelling type e := by
  rw [declaration]
  constructor
  · intro hr
    obtain ⟨t, _, _, hname, hnext⟩ := hr.of_bind
    obtain ⟨rfl, ht⟩ := reads_expect.1 hname
    obtain ⟨type, _, _, hread, hequal⟩ := hnext.of_bind
    obtain ⟨as, rfl, hann, -⟩ := reads_annotated.1 hread
    obtain ⟨q, _, _, hequal, hvalue⟩ := hequal.of_bind
    obtain ⟨rfl, hq⟩ := reads_expect.1 hequal
    obtain ⟨e, _, _, hclosed, hend⟩ := hvalue.of_bind
    obtain ⟨es, z, rfl, he, hz⟩ := reads_closed.1 hclosed
    obtain ⟨rfl, rfl⟩ := reads_pure.1 hend
    exact ⟨t, as, q, es, z, type, e, rfl, ht, hann, hq, he, hz, rfl⟩
  · rintro ⟨t, as, q, es, z, type, e, rfl, ht, hann, hq, he, hz, rfl⟩
    refine .bind (reads_expect.2 ⟨rfl, ht⟩) fun _ => ?_
    refine .bind (reads_annotated.2 ⟨as, rfl, hann, fun _ => by simp [hq]⟩) fun _ => ?_
    refine .bind (reads_expect.2 ⟨rfl, hq⟩) fun _ => ?_
    exact .bind (reads_closed.2 ⟨es, z, rfl, he, hz⟩) fun _ => reads_pure.2 ⟨rfl, rfl⟩

theorem reads_assignment {ts rest : List Token} {s : Stmt} :
    Reads (assignment stop ts) s rest ↔
      ∃ t q es z e, ts = t :: q :: (es ++ z :: rest) ∧ t.kind = .ident ∧ q.kind = .equal ∧
        Level 1 es e ∧ z.kind = .semicolon ∧ s = .assign t.spelling e := by
  rw [assignment]
  constructor
  · intro hr
    obtain ⟨t, _, _, hname, hnext⟩ := hr.of_bind
    obtain ⟨rfl, ht⟩ := reads_expect.1 hname
    obtain ⟨q, _, _, hequal, hvalue⟩ := hnext.of_bind
    obtain ⟨rfl, hq⟩ := reads_expect.1 hequal
    obtain ⟨e, _, _, hclosed, hend⟩ := hvalue.of_bind
    obtain ⟨es, z, rfl, he, hz⟩ := reads_closed.1 hclosed
    obtain ⟨rfl, rfl⟩ := reads_pure.1 hend
    exact ⟨t, q, es, z, e, rfl, ht, hq, he, hz, rfl⟩
  · rintro ⟨t, q, es, z, e, rfl, ht, hq, he, hz, rfl⟩
    refine .bind (reads_expect.2 ⟨rfl, ht⟩) fun _ => .bind (reads_expect.2 ⟨rfl, hq⟩) fun _ => ?_
    exact .bind (reads_closed.2 ⟨es, z, rfl, he, hz⟩) fun _ => reads_pure.2 ⟨rfl, rfl⟩

theorem reads_closed_as (f : Expr → Stmt) {place : SyntaxError.Place}
    {origin ts rest : List Token} {s : Stmt} {h : ts.length ≤ origin.length} :
    Reads (closed stop place origin ts h >>= fun r =>
        (pure ⟨f r.value, r.rest, r.shorter⟩ : Except SyntaxError (Reading origin Stmt))) s rest ↔
      ∃ es z e, ts = es ++ z :: rest ∧ Level 1 es e ∧ z.kind = .semicolon ∧ s = f e := by
  constructor
  · intro hr
    obtain ⟨e, _, _, hclosed, hend⟩ := hr.of_bind
    obtain ⟨es, z, rfl, he, hz⟩ := reads_closed.1 hclosed
    obtain ⟨rfl, rfl⟩ := reads_pure.1 hend
    exact ⟨es, z, e, rfl, he, hz, rfl⟩
  · rintro ⟨es, z, e, rfl, he, hz, rfl⟩
    exact .bind (reads_closed.2 ⟨es, z, rfl, he, hz⟩) fun _ => reads_pure.2 ⟨rfl, rfl⟩

theorem reads_expression {ts rest : List Token} {s : Stmt} :
    Reads (expression stop ts) s rest ↔
      ∃ es z e, ts = es ++ z :: rest ∧ Level 1 es e ∧ z.kind = .semicolon ∧ s = .expr e :=
  reads_closed_as .expr

theorem reads_returned {origin ts rest : List Token} {s : Stmt} {h : ts.length < origin.length} :
    Reads (returned stop origin ts h) s rest ↔
      ∃ es z e, ts = es ++ z :: rest ∧ Level 1 es e ∧ z.kind = .semicolon ∧ s = .ret e :=
  reads_closed_as .ret

end Parts

section LookAhead

theorem afterGroup_append {us : List Token}
    (h : ∀ t ∈ us, t.kind ≠ .leftParen ∧ t.kind ≠ .rightParen) (d : Nat) (rest : List Token) :
    afterGroup d (us ++ rest) = afterGroup d rest := by
  induction us with
  | nil => rfl
  | cons t us ih =>
    obtain ⟨hl, hr⟩ := h t (by simp)
    rw [List.cons_append, afterGroup, if_neg hl, if_neg hr]
    exact ih fun x hx => h x (by simp [hx])

theorem Annotated.no_parens {ts : List Token} {type : Option String} (h : Annotated ts type) :
    ∀ t ∈ ts, t.kind ≠ .leftParen ∧ t.kind ≠ .rightParen := by
  cases h with
  | none => simp
  | @some c t hc ht =>
    have htype : t.kind ≠ .leftParen ∧ t.kind ≠ .rightParen := by
      rcases ht with ht | ht
      · constructor <;> rintro he <;> rw [he] at ht <;> cases ht
      · simp [ht]
    simpa [hc] using htype

theorem Params.no_parens {ts : List Token} {ps : List Param} (h : Params ts ps) :
    ∀ t ∈ ts, t.kind ≠ .leftParen ∧ t.kind ≠ .rightParen := by
  induction h with
  | one ht hann => exact List.forall_mem_cons.2 ⟨by simp [ht], Annotated.no_parens hann⟩
  | more ht hann hc _ ih =>
    refine List.forall_mem_append.2 ⟨?_, ?_⟩
    · exact List.forall_mem_cons.2 ⟨by simp [ht], Annotated.no_parens hann⟩
    · exact List.forall_mem_cons.2 ⟨by simp [hc], ih⟩

theorem afterGroup_paramList {us : List Token} {params : List Param} (h : ParamList us params)
    (rest : List Token) : afterGroup 0 (us ++ rest) = rest := by
  cases h with
  | empty hl hr => simp [afterGroup, hl, hr]
  | params hl hps hr =>
    rw [List.append_assoc, List.cons_append, afterGroup, if_pos hl,
      afterGroup_append (Params.no_parens hps)]
    simp [afterGroup, hr]

theorem isSome_accept? {k : Token.Kind} {ts : List Token} :
    (accept? k ts).isSome ↔ ahead ts = some k := by
  cases ts with
  | nil => simp [accept?, ahead]
  | cons t ts => simp [accept?]

theorem isHead_iff {ts : List Token} :
    isHead ts ↔ ahead (afterGroup 0 ts) = some .arrow ∨
      ∃ c us, afterGroup 0 ts = c :: us ∧ c.kind = .colon ∧ ahead us.tail = some .arrow := by
  rw [isHead]
  generalize afterGroup 0 ts = after
  rcases hc : accept? .colon after with _ | ⟨us, hus⟩
  · have hne := ahead_of_accept? hc
    simp only [isSome_accept?]
    refine ⟨.inl, ?_⟩
    rintro (h | ⟨c, us, rfl, hk, -⟩)
    · exact h
    · exact absurd (congrArg some hk) hne
  · obtain ⟨c, rfl, hk⟩ := eq_cons_of_accept? hc
    simp only [isSome_accept?]
    refine ⟨fun h => .inr ⟨c, us, rfl, hk, h⟩, ?_⟩
    rintro (h | ⟨c', us', heq, -, h⟩)
    · rw [ahead_cons, hk] at h
      cases h
    · cases heq
      exact h

theorem isHead_of_head {t : Token} {us : List Token} {name : String} {params : List Param}
    {type : Option String} (h : Head (t :: us) name params type) (rest : List Token) :
    t.kind = .ident ∧ ahead (us ++ rest) = some .leftParen ∧ isHead (us ++ rest) := by
  generalize hts : t :: us = ts at h
  cases h with
  | @mk t' a ps as _ _ ht hps hann ha =>
    rw [List.cons_append, List.cons_append, List.cons.injEq] at hts
    obtain ⟨rfl, rfl⟩ := hts
    refine ⟨ht, ?_, ?_⟩
    · cases hps with
      | empty hl _ => simp [hl]
      | params hl _ _ => simp [hl]
    · rw [isHead_iff, List.append_assoc, List.append_assoc, afterGroup_paramList hps]
      cases hann with
      | none => exact .inl (by simp [ha])
      | @some c t hc _ => exact .inr ⟨c, t :: a :: rest, rfl, hc, by simp [ha]⟩

/-- The look ahead never takes an expression for the head of a function. -/
theorem not_isHead_of_level {n : Nat} {t s : Token} {us rest : List Token} {e : Expr}
    (h : Level n (t :: us) e) (ht : t.kind = .ident) (hs : s.kind = .semicolon)
    (hparen : ahead (us ++ s :: rest) = some .leftParen) : ¬ isHead (us ++ s :: rest) := by
  have henc := h.enclosed
  cases us with
  | nil => simp [hs] at hparen
  | cons l vs =>
    have hl : l.kind = .leftParen := by simpa using hparen
    -- the group is closed before the semicolon, and nothing after it is a sign of a function
    have hdepth : depthAfter 1 vs = some 0 := by simpa [depthAfter, ht, hl] using henc.balanced 0
    obtain ⟨ws, hws, hafter⟩ := afterGroup_of_depthAfter hdepth
    have hplain : ∀ x ∈ ws ++ [s], isPlain x.kind := by
      refine List.forall_mem_append.2 ⟨fun x hx => henc.plain x (by simp [hws x hx]), ?_⟩
      simp [hs, isPlain]
    have hgroup : afterGroup 0 (l :: vs ++ s :: rest) = ws ++ [s] ++ rest := by
      rw [List.cons_append, afterGroup, if_pos hl, hafter]
      simp
    rw [isHead_iff, hgroup]
    obtain ⟨x, xs, hx⟩ : ∃ x xs, ws ++ [s] = x :: xs := List.exists_cons_of_ne_nil (by simp)
    have hxp := hplain x (by simp [hx])
    rw [hx]
    rintro (ha | ⟨c, vs', heq, hc, -⟩)
    · rw [List.cons_append, ahead_cons, Option.some.injEq] at ha
      rw [ha] at hxp
      cases hxp
    · rw [List.cons_append, List.cons.injEq] at heq
      rw [heq.1, hc] at hxp
      cases hxp

end LookAhead

section Statements

variable {stop : Position}

/-- What may follow a statement that cannot be longer. -/
def Ends : Stmt → List Token → Prop
  | .ifThen _ _, rest => ahead rest ≠ some .kwOtherwise
  | _, _ => True

theorem ends_of_ahead {rest : List Token} (h : ahead rest ≠ some .kwOtherwise) (s : Stmt) :
    Ends s rest := by
  cases s <;> first | exact h | trivial

def ExactStatement (stop : Position) (ts : List Token) : Prop :=
  ∀ inside s rest, Reads (statement stop inside ts) s rest ↔
    ∃ used, ts = used ++ rest ∧ Statement inside used s ∧ Ends s rest

theorem Statement.ahead_ne {inside : Bool} {used : List Token} {s : Stmt}
    (h : Statement inside used s) {k : Token.Kind} (hk : k = .rightBrace ∨ k = .kwOtherwise)
    (rest : List Token) : ahead (used ++ rest) ≠ some k := by
  have hbegin : canBegin k = false := by rcases hk with rfl | rfl <;> rfl
  have hne : ∀ {t : Token} {us : List Token} {k' : Token.Kind}, t.kind = k' → k' ≠ k →
      ahead (t :: us) ≠ some k := by
    intro t us k' ht hne he
    rw [ahead_cons, Option.some.injEq, ht] at he
    exact hne he
  cases h with
  | declare h => exact hne h (by rcases hk with rfl | rfl <;> simp)
  | ifThen h => exact hne h (by rcases hk with rfl | rfl <;> simp)
  | ifElse h => exact hne h (by rcases hk with rfl | rfl <;> simp)
  | forEach h => exact hne h (by rcases hk with rfl | rfl <;> simp)
  | loop h => exact hne h (by rcases hk with rfl | rfl <;> simp)
  | ret h => exact hne h (by rcases hk with rfl | rfl <;> simp)
  | define h =>
    cases h with
    | mk h => exact hne h (by rcases hk with rfl | rfl <;> simp)
  | defineExpr h =>
    cases h with
    | mk h => exact hne h (by rcases hk with rfl | rfl <;> simp)
  | assign h => exact hne h (by rcases hk with rfl | rfl <;> simp)
  | expr h =>
    rw [List.append_assoc]
    exact h.ahead_ne hbegin _

theorem Statements.ahead_ne {inside : Bool} {used : List Token} {ss : List Stmt}
    (h : Statements inside used ss) {rest : List Token} (hr : ahead rest ≠ some .kwOtherwise) :
    ahead (used ++ rest) ≠ some .kwOtherwise := by
  cases h with
  | nil => exact hr
  | cons hs _ =>
    rw [List.append_assoc]
    exact Statement.ahead_ne hs (.inr rfl) _

theorem reads_block {n : Nat} (hshort : ∀ us : List Token, us.length ≤ n → ExactStatement stop us)
    {inside : Bool} {origin ts rest : List Token} {done ss : List Stmt}
    {h : ts.length < origin.length} (hn : ts.length ≤ n) :
    Reads (block stop inside done origin ts h) ss rest ↔
      ∃ used r new, ts = used ++ r :: rest ∧ r.kind = .rightBrace ∧ ss = done.reverse ++ new ∧
        Statements inside used new := by
  induction hk : ts.length using Nat.strongRecOn generalizing done ts with
  | ind k ih =>
    rw [block.eq_def]
    constructor
    · intro hr
      rcases ha : accept? .rightBrace ts with _ | ⟨us, hus⟩
      · rw [ha] at hr
        cases ts with
        | nil => exact absurd hr not_reads_error
        | cons t us =>
          obtain ⟨s, mid, hmid, hread, hnext⟩ := hr.of_bind
          obtain ⟨used, hts, hs, -⟩ := (hshort _ hn inside s mid).1 hread
          obtain ⟨used', r, new, rfl, hrk, rfl, hss⟩ :=
            (ih mid.length (by omega) (by omega) rfl).1 hnext
          exact ⟨used ++ used', r, s :: new, by simp [hts], hrk, by simp, .cons hs hss⟩
      · rw [ha] at hr
        obtain ⟨r, rfl, hrk⟩ := eq_cons_of_accept? ha
        obtain ⟨rfl, rfl⟩ := reads_ok.1 hr
        exact ⟨[], r, [], rfl, hrk, by simp, .nil⟩
    · rintro ⟨used, r, new, hts, hrk, rfl, hss⟩
      cases hss with
      | nil =>
        subst hts
        simp only [List.nil_append, accept?_cons hrk]
        exact reads_ok.2 ⟨by simp, rfl⟩
      | @cons _ us vs s new hs hss =>
        rw [List.append_assoc] at hts
        have ha : accept? .rightBrace ts = none :=
          accept?_eq_none (hts ▸ Statement.ahead_ne hs (.inl rfl) _)
        have hends : Ends s (vs ++ r :: rest) :=
          ends_of_ahead (Statements.ahead_ne hss (by simp [hrk])) s
        have hread := (hshort ts hn inside s _).2 ⟨us, hts, hs, hends⟩
        have hlen : (vs ++ r :: rest).length < ts.length := hread.choose
        simp only [ha]
        cases ts with
        | nil => simp at hlen
        | cons t ts =>
          refine .bind hread fun _ => ?_
          exact (ih _ (hk ▸ hlen) (Nat.le_of_lt (Nat.lt_of_lt_of_le hlen hn)) rfl).2
            ⟨vs, r, new, rfl, hrk, by simp, hss⟩

section Compound

variable {n : Nat} (hshort : ∀ us : List Token, us.length < n → ExactStatement stop us)

include hshort

theorem reads_body {inside : Bool} {origin ts rest : List Token} {ss : List Stmt}
    {h : ts.length < origin.length} (hn : ts.length < n) :
    Reads (block stop inside [] origin ts h) ss rest ↔
      ∃ used r, ts = used ++ r :: rest ∧ r.kind = .rightBrace ∧ Statements inside used ss := by
  rw [reads_block (n := ts.length) (fun us hus => hshort us (by omega)) (Nat.le_refl _)]
  constructor
  · rintro ⟨used, r, new, hts, hr, rfl, hss⟩
    exact ⟨used, r, hts, hr, hss⟩
  · rintro ⟨used, r, hts, hr, hss⟩
    exact ⟨used, r, ss, hts, hr, rfl, hss⟩

theorem reads_whileLoop {inside : Bool} {origin ts rest : List Token} {s : Stmt}
    {h : ts.length < origin.length} (hn : ts.length < n) :
    Reads (whileLoop stop inside origin ts h) s rest ↔
      ∃ es bs e body, ts = es ++ (bs ++ rest) ∧ Level 1 es e ∧ Block inside bs body ∧
        s = .loop e body := by
  rw [whileLoop]
  constructor
  · intro hr
    obtain ⟨e, _, _, hcond, hnext⟩ := hr.of_bind
    obtain ⟨es, l, rfl, he, hl⟩ := reads_condition.1 hcond
    obtain ⟨body, _, _, hbody, hend⟩ := hnext.of_bind
    obtain ⟨us, r, rfl, hr', hss⟩ := (reads_body hshort (by simp at hn; omega)).1 hbody
    obtain ⟨rfl, rfl⟩ := reads_pure.1 hend
    exact ⟨es, l :: us ++ [r], e, body, by simp, he, .braces hl hss hr', rfl⟩
  · rintro ⟨es, bs, e, body, hts, he, hb, rfl⟩
    cases hb with
    | @braces _ l r us _ hl hss hr' =>
      simp only [List.cons_append, List.append_assoc, List.nil_append] at hts
      subst hts
      refine .bind (reads_condition.2 ⟨es, l, rfl, he, hl⟩) fun _ => ?_
      exact .bind ((reads_body hshort (by simp at hn ⊢; omega)).2 ⟨us, r, rfl, hr', hss⟩) fun _ =>
        reads_pure.2 ⟨rfl, rfl⟩

theorem reads_forLoop {inside : Bool} {origin ts rest : List Token} {s : Stmt}
    {h : ts.length < origin.length} (hn : ts.length < n) :
    Reads (forLoop stop inside origin ts h) s rest ↔
      ∃ t i es bs e body, ts = t :: i :: (es ++ (bs ++ rest)) ∧ t.kind = .ident ∧ i.kind = .kwIn ∧
        Level 1 es e ∧ Block inside bs body ∧ s = .forEach t.spelling e body := by
  rw [forLoop]
  constructor
  · intro hr
    obtain ⟨⟨name, e⟩, _, _, htrav, hnext⟩ := hr.of_bind
    obtain ⟨t, i, es, l, rfl, ht, hi, he, hl, rfl⟩ := reads_traversal.1 htrav
    obtain ⟨body, _, _, hbody, hend⟩ := hnext.of_bind
    obtain ⟨us, r, rfl, hr', hss⟩ := (reads_body hshort (by simp at hn; omega)).1 hbody
    obtain ⟨rfl, rfl⟩ := reads_pure.1 hend
    exact ⟨t, i, es, l :: us ++ [r], e, body, by simp, ht, hi, he, .braces hl hss hr', rfl⟩
  · rintro ⟨t, i, es, bs, e, body, hts, ht, hi, he, hb, rfl⟩
    cases hb with
    | @braces _ l r us _ hl hss hr' =>
      simp only [List.cons_append, List.append_assoc, List.nil_append] at hts
      subst hts
      refine .bind (reads_traversal.2 ⟨t, i, es, l, rfl, ht, hi, he, hl, rfl⟩) fun _ => ?_
      exact .bind ((reads_body hshort (by simp at hn ⊢; omega)).2 ⟨us, r, rfl, hr', hss⟩) fun _ =>
        reads_pure.2 ⟨rfl, rfl⟩

theorem reads_conditional {inside : Bool} {origin ts rest : List Token} {s : Stmt}
    {h : ts.length < origin.length} (hn : ts.length < n) :
    Reads (conditional stop inside origin ts h) s rest ↔
      ∃ es bs e yes, Level 1 es e ∧ Block inside bs yes ∧
        ((ts = es ++ (bs ++ rest) ∧ s = .ifThen e yes ∧ ahead rest ≠ some .kwOtherwise) ∨
          ∃ o cs no, ts = es ++ (bs ++ o :: (cs ++ rest)) ∧ o.kind = .kwOtherwise ∧
            Block inside cs no ∧ s = .ifElse e yes no) := by
  rw [conditional]
  constructor
  · intro hr
    obtain ⟨e, _, _, hcond, hnext⟩ := hr.of_bind
    obtain ⟨es, l, rfl, he, hl⟩ := reads_condition.1 hcond
    obtain ⟨yes, mid, _, hbody, hlast⟩ := hnext.of_bind
    obtain ⟨us, r, rfl, hr', hss⟩ := (reads_body hshort (by simp at hn; omega)).1 hbody
    refine ⟨es, l :: us ++ [r], e, yes, he, .braces hl hss hr', ?_⟩
    rcases ho : accept? .kwOtherwise mid with _ | ⟨vs, hvs⟩
    · simp only [ho] at hlast
      obtain ⟨rfl, rfl⟩ := reads_pure.1 hlast
      exact .inl ⟨by simp, rfl, ahead_of_accept? ho⟩
    · simp only [ho] at hlast
      obtain ⟨o, rfl, hok⟩ := eq_cons_of_accept? ho
      obtain ⟨l', _, _, hbrace, helse⟩ := hlast.of_bind
      obtain ⟨rfl, hl'⟩ := reads_expect.1 hbrace
      obtain ⟨no, _, _, hbody', hend⟩ := helse.of_bind
      obtain ⟨us', r', rfl, hr'', hss'⟩ := (reads_body hshort (by simp at hn ⊢; omega)).1 hbody'
      obtain ⟨rfl, rfl⟩ := reads_pure.1 hend
      exact .inr ⟨o, l' :: us' ++ [r'], no, by simp, hok, .braces hl' hss' hr'', rfl⟩
  · rintro ⟨es, bs, e, yes, he, hb, hcase⟩
    cases hb with
    | @braces _ l r us _ hl hss hr' =>
      rcases hcase with ⟨hts, rfl, hne⟩ | ⟨o, cs, no, hts, ho, hc, rfl⟩
      · simp only [List.cons_append, List.append_assoc, List.nil_append] at hts
        subst hts
        refine .bind (reads_condition.2 ⟨es, l, rfl, he, hl⟩) fun _ => ?_
        refine .bind ((reads_body hshort (by simp at hn ⊢; omega)).2 ⟨us, r, rfl, hr', hss⟩) fun _ => ?_
        simp only [accept?_eq_none hne]
        exact reads_pure.2 ⟨rfl, rfl⟩
      · cases hc with
        | @braces _ l' r' us' _ hl' hss' hr'' =>
          simp only [List.cons_append, List.append_assoc, List.nil_append] at hts
          subst hts
          refine .bind (reads_condition.2 ⟨es, l, rfl, he, hl⟩) fun _ => ?_
          refine .bind ((reads_body hshort (by simp at hn ⊢; omega)).2 ⟨us, r, rfl, hr', hss⟩)
            fun _ => ?_
          simp only [accept?_cons ho]
          refine .bind (reads_expect.2 ⟨rfl, hl'⟩) fun _ => ?_
          exact .bind ((reads_body hshort (by simp at hn ⊢; omega)).2 ⟨us', r', rfl, hr'', hss'⟩)
            fun _ => reads_pure.2 ⟨rfl, rfl⟩

theorem reads_function {ts rest : List Token} {s : Stmt} (hn : ts.length ≤ n) :
    Reads (function stop ts) s rest ↔
      ∃ hs name params type, Head hs name params type ∧
        ((∃ bs body, ts = hs ++ (bs ++ rest) ∧ Block true bs body ∧
            s = .define name params type body) ∨
          ∃ es z e, ts = hs ++ (es ++ z :: rest) ∧ Level 1 es e ∧ z.kind = .semicolon ∧
            s = .define name params type [.ret e]) := by
  rw [function]
  constructor
  · intro hr
    obtain ⟨⟨name, params, type⟩, mid, hmid, hhead, hnext⟩ := hr.of_bind
    obtain ⟨hs, hts, hhead⟩ := reads_head.1 hhead
    refine ⟨hs, name, params, type, hhead, ?_⟩
    rcases hb : accept? .leftBrace mid with _ | ⟨us, hus⟩
    · simp only [hb] at hnext
      obtain ⟨e, _, _, hclosed, hend⟩ := hnext.of_bind
      obtain ⟨es, z, rfl, he, hz⟩ := reads_closed.1 hclosed
      obtain ⟨rfl, rfl⟩ := reads_pure.1 hend
      exact .inr ⟨es, z, e, hts, he, hz, rfl⟩
    · simp only [hb] at hnext
      obtain ⟨l, rfl, hl⟩ := eq_cons_of_accept? hb
      obtain ⟨body, _, _, hbody, hend⟩ := hnext.of_bind
      obtain ⟨vs, r, rfl, hr', hss⟩ := (reads_body hshort (by omega)).1 hbody
      obtain ⟨rfl, rfl⟩ := reads_pure.1 hend
      exact .inl ⟨l :: vs ++ [r], body, by simp [hts], .braces hl hss hr', rfl⟩
  · rintro ⟨hs, name, params, type, hhead, hcase⟩
    rcases hcase with ⟨bs, body, hts, hb, rfl⟩ | ⟨es, z, e, hts, he, hz, rfl⟩
    · cases hb with
      | @braces _ l r us _ hl hss hr' =>
        have hlen : (us ++ r :: rest).length < n := by
          simp [hts] at hn ⊢
          omega
        refine .bind (reads_head.2 ⟨hs, hts, hhead⟩) fun _ => ?_
        simp only [List.cons_append, List.append_assoc, List.nil_append, accept?_cons hl]
        exact .bind ((reads_body hshort hlen).2 ⟨us, r, rfl, hr', hss⟩) fun _ =>
          reads_pure.2 ⟨rfl, rfl⟩
    · have hne : accept? .leftBrace (es ++ z :: rest) = none := accept?_eq_none (he.ahead_ne rfl _)
      refine .bind (reads_head.2 ⟨hs, hts, hhead⟩) fun _ => ?_
      simp only [hne]
      exact .bind (reads_closed.2 ⟨es, z, rfl, he, hz⟩) fun _ => reads_pure.2 ⟨rfl, rfl⟩

end Compound

theorem peek_kind (stop : Position) (ts : List Token) {k : Token.Kind} (hk : k ≠ .eof) :
    (peek stop ts).kind = k ↔ ahead ts = some k := by
  cases ts with
  | nil => simpa [peek, ahead, Token.eof] using hk.symm
  | cons t ts => simp [peek]

theorem statement_ident {inside : Bool} {t : Token} (ht : t.kind = .ident) (us : List Token) :
    statement stop inside (t :: us) =
      if ahead us = some .leftParen ∧ isHead us then function stop (t :: us)
      else if ahead us = some .equal then assignment stop (t :: us)
      else expression stop (t :: us) := by
  rw [statement]
  have hparen := peek_kind stop us (k := .leftParen) (by decide)
  have hequal := peek_kind stop us (k := .equal) (by decide)
  simp only [ht, hparen, hequal]

theorem statement_of_canBegin {inside : Bool} {t : Token} (h : canBegin t.kind)
    (ht : t.kind ≠ .ident) (us : List Token) :
    statement stop inside (t :: us) = expression stop (t :: us) := by
  rw [statement]
  split
  all_goals simp_all [canBegin, canOpen, Token.Kind.isLiteral]

theorem statement_sound {n : Nat}
    (hshort : ∀ us : List Token, us.length < n → ExactStatement stop us) {inside : Bool}
    {ts rest : List Token} {s : Stmt} (hn : ts.length ≤ n)
    (hr : Reads (statement stop inside ts) s rest) :
    ∃ used, ts = used ++ rest ∧ Statement inside used s ∧ Ends s rest := by
  have hexpr : Reads (expression stop ts) s rest →
      ∃ used, ts = used ++ rest ∧ Statement inside used s ∧ Ends s rest := by
    intro h
    obtain ⟨es, z, e, rfl, he, hz, rfl⟩ := reads_expression.1 h
    exact ⟨es ++ [z], by simp, .expr he hz, trivial⟩
  cases ts with
  | nil =>
    rw [statement] at hr
    exact hexpr hr
  | cons t us =>
    have hus : us.length < n := hn
    rw [statement] at hr
    split at hr
    case h_1 ht =>
      obtain ⟨k, as, q, es, z, type, e, rfl, hk, hann, hq, he, hz, rfl⟩ := reads_declaration.1 hr
      exact ⟨t :: k :: as ++ q :: es ++ [z], by simp, .declare ht hk hann hq he hz, trivial⟩
    case h_2 ht =>
      obtain ⟨es, bs, e, yes, he, hb, hcase⟩ := (reads_conditional hshort hus).1 hr
      rcases hcase with ⟨rfl, rfl, hne⟩ | ⟨o, cs, no, rfl, ho, hc, rfl⟩
      · exact ⟨t :: es ++ bs, by simp, .ifThen ht he hb, hne⟩
      · exact ⟨t :: es ++ bs ++ o :: cs, by simp, .ifElse ht he hb ho hc, trivial⟩
    case h_3 ht =>
      obtain ⟨k, i, es, bs, e, body, rfl, hk, hi, he, hb, rfl⟩ := (reads_forLoop hshort hus).1 hr
      exact ⟨t :: k :: i :: es ++ bs, by simp, .forEach ht hk hi he hb, trivial⟩
    case h_4 ht =>
      obtain ⟨es, bs, e, body, rfl, he, hb, rfl⟩ := (reads_whileLoop hshort hus).1 hr
      exact ⟨t :: es ++ bs, by simp, .loop ht he hb, trivial⟩
    case h_5 ht =>
      cases inside with
      | false => exact absurd hr not_reads_error
      | true =>
        rw [if_pos rfl] at hr
        obtain ⟨es, z, e, rfl, he, hz, rfl⟩ := reads_returned.1 hr
        exact ⟨t :: es ++ [z], by simp, .ret ht he hz, trivial⟩
    case h_6 ht =>
      split at hr
      · obtain ⟨hs, name, params, type, hhead, hcase⟩ := (reads_function hshort hn).1 hr
        rcases hcase with ⟨bs, body, hts, hb, rfl⟩ | ⟨es, z, e, hts, he, hz, rfl⟩
        · exact ⟨hs ++ bs, by simp [hts], .define hhead hb, trivial⟩
        · exact ⟨hs ++ es ++ [z], by simp [hts], .defineExpr hhead he hz, trivial⟩
      · split at hr
        · obtain ⟨k, q, es, z, e, hts, hk, hq, he, hz, rfl⟩ := reads_assignment.1 hr
          exact ⟨k :: q :: es ++ [z], by simp [hts], .assign hk hq he hz, trivial⟩
        · exact hexpr hr
    case h_7 => exact hexpr hr

theorem reads_statement_head {inside : Bool} {hs us rest : List Token} {name : String}
    {params : List Param} {type : Option String} {s : Stmt} (hhead : Head hs name params type)
    (hr : Reads (function stop (hs ++ us)) s rest) :
    Reads (statement stop inside (hs ++ us)) s rest := by
  obtain ⟨t, vs, rfl⟩ : ∃ t vs, hs = t :: vs := by
    cases hhead with
    | mk => exact ⟨_, _, rfl⟩
  obtain ⟨ht, hparen, hhead⟩ := isHead_of_head hhead us
  rw [List.cons_append] at hr ⊢
  rw [statement_ident ht, if_pos ⟨hparen, hhead⟩]
  exact hr

theorem reads_statement_expr {inside : Bool} {es rest : List Token} {z : Token} {e : Expr}
    (he : Level 1 es e) (hz : z.kind = .semicolon) :
    Reads (statement stop inside (es ++ z :: rest)) (.expr e) rest := by
  have hr : Reads (expression stop (es ++ z :: rest)) (.expr e) rest :=
    reads_expression.2 ⟨es, z, e, rfl, he, hz, rfl⟩
  obtain ⟨t, us, rfl, ht⟩ := he.begins
  rw [List.cons_append] at hr ⊢
  by_cases hid : t.kind = .ident
  · have hequal : ahead (us ++ z :: rest) ≠ some .equal := by
      cases us with
      | nil => simp [hz]
      | cons u us =>
        have hu := he.enclosed.plain u (by simp)
        rw [List.cons_append, ahead_cons, ne_eq, Option.some.injEq]
        intro hk
        rw [hk] at hu
        cases hu
    rw [statement_ident hid, if_neg fun h => not_isHead_of_level he hid hz h.1 h.2, if_neg hequal]
    exact hr
  · rw [statement_of_canBegin ht hid]
    exact hr

theorem statement_complete {n : Nat}
    (hshort : ∀ us : List Token, us.length < n → ExactStatement stop us) {inside : Bool}
    {ts used rest : List Token} {s : Stmt} (hn : ts.length ≤ n) (hts : ts = used ++ rest)
    (hs : Statement inside used s) (hends : Ends s rest) :
    Reads (statement stop inside ts) s rest := by
  cases hs with
  | @declare _ k t q z as es type e hk ht hann hq he hz =>
    simp only [List.cons_append, List.append_assoc, List.nil_append] at hts
    subst hts
    rw [statement]
    simp only [hk]
    exact reads_declaration.2 ⟨t, as, q, es, z, type, e, rfl, ht, hann, hq, he, hz, rfl⟩
  | @ifThen _ k es bs e body hk he hb =>
    simp only [List.cons_append, List.append_assoc] at hts
    subst hts
    rw [statement]
    simp only [hk]
    exact (reads_conditional hshort hn).2 ⟨es, bs, e, body, he, hb, .inl ⟨rfl, rfl, hends⟩⟩
  | @ifElse _ k o es bs cs e yes no hk he hb ho hc =>
    simp only [List.cons_append, List.append_assoc] at hts
    subst hts
    rw [statement]
    simp only [hk]
    exact (reads_conditional hshort hn).2
      ⟨es, bs, e, yes, he, hb, .inr ⟨o, cs, no, rfl, ho, hc, rfl⟩⟩
  | @forEach _ k t i es bs e body hk ht hi he hb =>
    simp only [List.cons_append, List.append_assoc] at hts
    subst hts
    rw [statement]
    simp only [hk]
    exact (reads_forLoop hshort hn).2 ⟨t, i, es, bs, e, body, rfl, ht, hi, he, hb, rfl⟩
  | @loop _ k es bs e body hk he hb =>
    simp only [List.cons_append, List.append_assoc] at hts
    subst hts
    rw [statement]
    simp only [hk]
    exact (reads_whileLoop hshort hn).2 ⟨es, bs, e, body, rfl, he, hb, rfl⟩
  | @ret k z es e hk he hz =>
    simp only [List.cons_append, List.append_assoc, List.nil_append] at hts
    subst hts
    rw [statement]
    simp only [hk, if_true]
    exact reads_returned.2 ⟨es, z, e, rfl, he, hz, rfl⟩
  | @define _ hs bs name params type body hhead hb =>
    rw [List.append_assoc] at hts
    subst hts
    exact reads_statement_head hhead ((reads_function hshort hn).2
      ⟨hs, name, params, type, hhead, .inl ⟨bs, body, rfl, hb, rfl⟩⟩)
  | @defineExpr _ z hs es name params type e hhead he hz =>
    simp only [List.append_assoc, List.cons_append, List.nil_append] at hts
    subst hts
    exact reads_statement_head hhead ((reads_function hshort hn).2
      ⟨hs, name, params, type, hhead, .inr ⟨es, z, e, rfl, he, hz, rfl⟩⟩)
  | @assign _ t q z es e ht hq he hz =>
    simp only [List.cons_append, List.append_assoc, List.nil_append] at hts
    subst hts
    rw [statement_ident ht, if_neg (by simp [hq]), if_pos (by simp [hq])]
    exact reads_assignment.2 ⟨t, q, es, z, e, rfl, ht, hq, he, hz, rfl⟩
  | @expr _ z es e he hz =>
    rw [List.append_assoc] at hts
    subst hts
    exact reads_statement_expr he hz

/-- The reader of statements is exact on every list of tokens. -/
theorem exact_statement (ts : List Token) : ExactStatement stop ts := by
  induction hk : ts.length using Nat.strongRecOn generalizing ts with
  | ind k ih =>
    have hshort : ∀ us : List Token, us.length < ts.length → ExactStatement stop us :=
      fun us hus => ih us.length (hk ▸ hus) us rfl
    intro inside s rest
    constructor
    · exact statement_sound hshort (Nat.le_refl _)
    · rintro ⟨used, hts, hs, hends⟩
      exact statement_complete hshort (Nat.le_refl _) hts hs hends

theorem statements_eq_ok {ts : List Token} {done p : List Stmt} :
    statements stop done ts = .ok p ↔ ∃ new, p = done.reverse ++ new ∧ Statements false ts new := by
  induction hk : ts.length using Nat.strongRecOn generalizing done ts with
  | ind k ih =>
    have hnil : statements stop done [] = .ok p ↔
        ∃ new, p = done.reverse ++ new ∧ new = [] := by
      rw [statements, Except.ok.injEq]
      constructor
      · rintro rfl
        exact ⟨[], by simp, rfl⟩
      · rintro ⟨_, rfl, rfl⟩
        simp
    constructor
    · intro hr
      cases ts with
      | nil =>
        obtain ⟨new, rfl, rfl⟩ := hnil.1 hr
        exact ⟨[], rfl, .nil⟩
      | cons t us =>
        rw [statements] at hr
        cases hs : statement stop false (t :: us) with
        | error e =>
          rw [hs] at hr
          cases hr
        | ok r =>
          obtain ⟨s, mid, hmid⟩ := r
          rw [hs] at hr
          obtain ⟨used, hts, hs, -⟩ := (exact_statement _ false s mid).1 ⟨hmid, hs⟩
          obtain ⟨new, rfl, hss⟩ := (ih mid.length (hk ▸ hmid) rfl).1 hr
          exact ⟨s :: new, by simp, hts ▸ .cons hs hss⟩
    · rintro ⟨new, rfl, hss⟩
      cases hss with
      | nil => exact hnil.2 ⟨[], rfl, rfl⟩
      | @cons _ us vs s new hs hss =>
        have hends : Ends s vs := by
          -- no statement starts with the tokens that would make this one longer
          have hne := Statements.ahead_ne hss (by simp [ahead] : ahead [] ≠ some .kwOtherwise)
          exact ends_of_ahead (by simpa using hne) s
        obtain ⟨hlen, hread⟩ := (exact_statement (us ++ vs) false s vs).2 ⟨us, rfl, hs, hends⟩
        have hnext : statements stop (s :: done) vs = .ok (done.reverse ++ s :: new) :=
          (ih vs.length (hk ▸ hlen) rfl).2 ⟨new, by simp, hss⟩
        generalize us ++ vs = ts at hlen hread
        cases ts with
        | nil => simp at hlen
        | cons t ts =>
          rw [statements, hread]
          exact hnext

end Statements

end Abacus.Parser

namespace Abacus.Program

/-- A list of tokens is read as a program exactly when the tokens before its first end token, all of
them if it has none, are derived to be that program by the grammar. -/
theorem parse_eq_ok_iff (ts : List Token) (p : Program) :
    parse ts = .ok p ↔ Grammar.Statements false (ts.takeWhile (·.kind ≠ .eof)) p := by
  rw [parse, Parser.upToEnd, Parser.statements_eq_ok]
  simp

end Abacus.Program
