import Abacus.Proofs.ExpressionWalking

/-!
# Walking over programs

The walks over statements agree with their readers, inside of functions and outside. A walk over a block
goes on as long as there are statements, and it comes to an end since each of them uses up a token. The
look ahead for a function stops at the end of a group of parentheses or at the end token, and the cursor
goes back. The depth is one more in the body of a function and is the same as before behind it.
-/

namespace Abacus.Walk

open Abacus.Parser (accept? Reading)

section Parts

variable {ts us origin : List Token} {fin i d budget : Nat}

theorem agrees_annotated (hs : Sees ts fin i us) {h : us.length < origin.length} :
    Agrees ts fin ⟨i, d⟩ ( annotation ts)
      (( Parser.annotation (stopAt ts fin) origin us h).map Reading.out) := by
  rw [ annotation, Parser.annotation]
  simp only [discard_bind]
  refine agrees_accept (by decide) hs (fun ha => ?_) fun c rest hus hc hrest => ?_
  · simp only [ha]
    exact .pure _ hs
  · subst hus
    simp only [Parser.accept?_cons hc]
    refine .after peek_eq rfl ?_
    cases rest with
    | nil =>
      have hreport := hrest.report .expectedType fun t t' ht =>
        congrArg (fun found => s!"expected type name, found {found}") ht
      rw [if_neg (by simp [hrest.of_nil.1, Token.Kind.isTypeName])]
      exact .throw hreport
    | cons t rest =>
      rw [hrest.of_cons.1]
      simp only
      split_ifs with ht
      · exact agrees_advance hrest (.pure _ hrest.of_cons.2.2)
      · exact .throw rfl

theorem agrees_parameters {done : List Param} {h : us.length < origin.length}
    (hbudget : us.length < budget) (hs : Sees ts fin i us) :
    Agrees ts fin ⟨i, d⟩ (closing ts .rightParen .parametersEnd (parameters ts budget done))
      ((Parser.parameters (stopAt ts fin) done origin us h).map Reading.out) := by
  induction hk : us.length using Nat.strongRecOn generalizing done us i budget with
  | ind k ih =>
    obtain ⟨budget, rfl⟩ := Nat.exists_eq_add_one_of_ne_zero (show budget ≠ 0 by omega)
    rw [Parser.parameters, parameters]
    simp only [closing_bind, closing_ite, closing_pure, discard_bind]
    refine (agrees_expect (by decide) hs).reads fun name rest _ j _ hj => ?_
    refine (agrees_annotated hj).reads fun type rest hlt j _ hj => ?_
    refine agrees_accept (by decide) hj (fun hc => ?_) fun c after hrest hc hafter => ?_
    · simp only [hc]
      exact (agrees_expect (by decide) hj).reads fun _ _ _ _ _ hj' => .pure _ hj'
    · subst hrest
      simp only [Parser.accept?_cons hc]
      rw [List.length_cons] at hlt
      exact ih after.length (by omega) (by omega) hafter rfl

theorem agrees_head (hbudget : us.length ≤ budget) (hs : Sees ts fin i us) :
    Agrees ts fin ⟨i, d⟩ (head ts budget) ((Parser.head (stopAt ts fin) us).map Reading.out) := by
  rw [head, Parser.head]
  simp only [discard_bind, pure_bind]
  refine (agrees_expect (by decide) hs).reads fun name rest _ j _ hj => ?_
  refine (agrees_expect (by decide) hj).reads fun _ rest hlt j _ hj => ?_
  refine agrees_check (by decide) hj (fun hb => ?_) fun r after hafter hr => ?_
  · simp only [hb]
    rw [← bind_closing]
    refine (agrees_parameters (by omega) hj).reads fun params rest _ j _ hj => ?_
    refine (agrees_annotated hj).reads fun type rest _ j _ hj => ?_
    exact (agrees_expect (by decide) hj).reads fun _ _ _ _ _ hj => .pure _ hj
  · subst hafter
    simp only [Parser.accept?_cons hr]
    refine .after (expect_eq hj hr) rfl ?_
    refine (agrees_annotated hj.of_cons.2.2).reads fun type rest _ j _ hj => ?_
    exact (agrees_expect (by decide) hj).reads fun _ _ _ _ _ hj => .pure _ hj

theorem agrees_closed {place : SyntaxError.Place} {h : us.length ≤ origin.length}
    (hbudget : 8 * us.length + 4 ≤ budget) (hs : Sees ts fin i us) :
    Agrees ts fin ⟨i, d⟩ (closed ts budget place)
      ((Parser.closed (stopAt ts fin) place origin us h).map Reading.out) := by
  rw [closed, Parser.closed]
  simp only [discard_bind]
  refine (walks_expr us i budget hbudget hs).reads fun e rest _ j _ hj => ?_
  exact (agrees_expect (by decide) hj).reads fun _ _ _ _ _ hj => .pure _ hj

theorem agrees_declaration {t : Token} {h : us.length < origin.length}
    (hbudget : 8 * origin.length + 4 ≤ budget) (hs : Sees ts fin i (t :: us)) :
    Agrees ts fin ⟨i, d⟩ (declaration ts budget)
      ((Parser.declaration (stopAt ts fin) origin us h).map Reading.out) := by
  rw [declaration, Parser.declaration]
  simp only [discard_bind]
  refine agrees_advance hs ?_
  refine (agrees_expect (by decide) hs.of_cons.2.2).reads fun name rest _ j _ hj => ?_
  refine (agrees_annotated hj).reads fun type rest _ j _ hj => ?_
  refine (agrees_expect (by decide) hj).reads fun _ rest hlt j _ hj => ?_
  exact (agrees_closed (by omega) hj).reads fun _ _ _ _ _ hj => .pure _ hj

theorem agrees_assignment (hbudget : 8 * us.length + 4 ≤ budget) (hs : Sees ts fin i us) :
    Agrees ts fin ⟨i, d⟩ (assignment ts budget)
      ((Parser.assignment (stopAt ts fin) us).map Reading.out) := by
  rw [assignment, Parser.assignment]
  simp only [discard_bind]
  refine (agrees_expect (by decide) hs).reads fun name rest _ j _ hj => ?_
  refine (agrees_expect (by decide) hj).reads fun _ rest hlt j _ hj => ?_
  exact (agrees_closed (by omega) hj).reads fun _ _ _ _ _ hj => .pure _ hj

theorem agrees_expression (hbudget : 8 * us.length + 4 ≤ budget) (hs : Sees ts fin i us) :
    Agrees ts fin ⟨i, d⟩ (expression ts budget)
      ((Parser.expression (stopAt ts fin) us).map Reading.out) := by
  rw [expression, Parser.expression]
  exact (agrees_closed hbudget hs).reads fun _ _ _ _ _ hj => .pure _ hj

theorem agrees_returned {t : Token} {h : us.length < origin.length}
    (hbudget : 8 * origin.length + 4 ≤ budget) (hs : Sees ts fin i (t :: us)) :
    Agrees ts fin ⟨i, d⟩ (returned ts budget)
      (Except.map Reading.out (if decide (0 < d) then Parser.returned (stopAt ts fin) origin us h
        else .error ⟨.returnOutside, t.pos⟩)) := by
  rw [returned, Parser.returned]
  refine .after (advance_eq hs) rfl (.after rfl rfl ?_)
  rcases Nat.eq_zero_or_pos d with hd | hd
  · rw [if_pos hd, if_neg (by simp [hd])]
    exact .throw rfl
  · rw [if_neg (Nat.ne_of_gt hd), if_pos (by simpa using hd)]
    exact (agrees_closed (by omega) hs.of_cons.2.2).reads fun _ _ _ _ _ hj => .pure _ hj

end Parts

section LookAhead

variable {ts us : List Token} {fin i d budget : Nat}

theorem advance_tail (hs : Sees ts fin i us) :
    ∃ j, advance ts ⟨i, d⟩ = some (.ok (tokenAt ts i), ⟨j, d⟩) ∧ Sees ts fin j us.tail := by
  cases us with
  | nil =>
    refine ⟨i, ?_, hs⟩
    rw [advance, bind_ok peek_eq, if_neg (by simp [hs.of_nil.1])]
    rfl
  | cons t us =>
    rw [hs.of_cons.1]
    exact ⟨i + 1, advance_eq hs, hs.of_cons.2.2⟩

theorem scan_eq (depth : Nat) (hbudget : us.length < budget) (hs : Sees ts fin i us) :
    ∃ j, scan ts budget depth ⟨i, d⟩ = some (.ok (), ⟨j, d⟩) ∧
      Sees ts fin j (Parser.afterGroup depth us) := by
  induction us generalizing i depth budget with
  | nil =>
    obtain ⟨budget, rfl⟩ := Nat.exists_eq_add_one_of_ne_zero (show budget ≠ 0 by omega)
    obtain ⟨j, hadvance, hj⟩ := advance_tail (d := d) hs
    refine ⟨j, ?_, hj⟩
    rw [scan, bind_ok hadvance, hs.of_nil.1]
    rfl
  | cons t us ih =>
    obtain ⟨budget, rfl⟩ := Nat.exists_eq_add_one_of_ne_zero (show budget ≠ 0 by omega)
    rw [List.length_cons] at hbudget
    obtain ⟨ht, hk, hus⟩ := hs.of_cons
    rw [scan, bind_ok (advance_eq hs), Parser.afterGroup]
    simp only [Nat.sub_eq_zero_iff_le]
    split_ifs
    · exact ih _ (by omega) hus
    · exact ⟨i + 1, rfl, hus⟩
    · exact ih _ (by omega) hus
    · exact ih _ (by omega) hus

/-- The look ahead ends at every cursor, and leaves it where it was. -/
theorem isFunction_eq (hbudget : us.length < budget) (hs : Sees ts fin i us) :
    isFunction ts budget ⟨i, d⟩ = some (.ok (Parser.isHead us.tail), ⟨i, d⟩) := by
  rw [isFunction]
  simp only [discard_bind]
  have hlen : us.tail.length ≤ us.length := by simp
  obtain ⟨j, hadvance, hj⟩ := advance_tail (d := d) hs
  obtain ⟨k, hscan, hk⟩ := scan_eq (d := d) 0 (Nat.lt_of_le_of_lt hlen hbudget) hj
  rw [bind_ok get_eq, bind_ok hadvance, bind_ok hscan, bind_ok (check_eq (by decide) hk), Parser.isHead]
  rcases ha : accept? .colon (Parser.afterGroup 0 us.tail) with _ | ⟨rest, hrest⟩
  · simp only
    rw [if_neg (by simp), bind_ok (check_eq (by decide) hk)]
    rfl
  · obtain ⟨t, hafter, ht⟩ := Parser.eq_cons_of_accept? ha
    rw [hafter] at hk
    obtain ⟨l, hnext, hl⟩ := advance_tail (d := d) hk.of_cons.2.2
    simp only
    rw [Option.isSome_some, if_pos rfl, bind_ok (advance_eq hk), bind_ok hnext,
      bind_ok (check_eq (by decide) hl)]
    rfl

end LookAhead

section Statements

variable {ts us origin : List Token} {fin i d n budget : Nat}

theorem check_eof (hs : Sees ts fin i us) :
    check ts .eof ⟨i, d⟩ = some (.ok us.isEmpty, ⟨i, d⟩) := by
  have hcheck : check ts .eof ⟨i, d⟩ = some (.ok (decide ((tokenAt ts i).kind = .eof)), ⟨i, d⟩) := rfl
  rw [hcheck]
  cases us with
  | nil => simp [hs.of_nil.1]
  | cons t us => simp [hs.of_cons.1, hs.of_cons.2.1]

/-- Walking over a statement agrees with reading it, inside of functions and outside, if the budget
suffices. -/
def Performs (ts : List Token) (fin : Nat) (us : List Token) : Prop :=
  ∀ i d budget, 8 * us.length + 5 ≤ budget → Sees ts fin i us →
    Agrees ts fin ⟨i, d⟩ (statement ts budget)
      ((Parser.statement (stopAt ts fin) (decide (0 < d)) us).map Reading.out)

theorem agrees_block (hshort : ∀ vs : List Token, vs.length ≤ n → Performs ts fin vs)
    {done : List Stmt} {h : us.length < origin.length} (hn : us.length ≤ n)
    (hbudget : 8 * us.length + 6 ≤ budget) (hs : Sees ts fin i us) :
    Agrees ts fin ⟨i, d⟩ (closing ts .rightBrace .blockEnd (statements ts budget done))
      ((Parser.block (stopAt ts fin) (decide (0 < d)) done origin us h).map Reading.out) := by
  induction hk : us.length using Nat.strongRecOn generalizing done us i budget with
  | ind k ih =>
    obtain ⟨budget, rfl⟩ := Nat.exists_eq_add_one_of_ne_zero (show budget ≠ 0 by omega)
    rw [Parser.block.eq_def, statements]
    simp only [closing_bind, closing_ite, closing_pure]
    refine .after (check_eq (by decide) hs) rfl (.after (check_eof hs) rfl ?_)
    rcases ha : accept? .rightBrace us with _ | ⟨rest, hrest⟩
    · cases us with
      | nil =>
        simp only [List.isEmpty_nil, Bool.or_true, if_true]
        -- the block ends without a brace, which the walk finds out when it expects one
        show Agrees ts fin ⟨i, d⟩ _ ((Parser.expect (stopAt ts fin) .rightBrace .blockEnd origin []
          (Nat.zero_le _) >>= fun r => .ok ⟨done.reverse, r.rest, r.shorter⟩).map Reading.out)
        exact (agrees_expect (by decide) hs).reads fun _ _ _ _ _ hj => .pure _ hj
      | cons t us =>
        simp only [Option.isSome_none, List.isEmpty_cons, Bool.or_self, Bool.false_eq_true, if_false]
        refine (hshort _ hn i d budget (by omega) hs).reads fun s rest hlt j _ hj => ?_
        exact ih rest.length (hk ▸ hlt) (Nat.le_trans (Nat.le_of_lt hlt) hn)
          (show 8 * rest.length + 6 ≤ budget by omega) hj rfl
    · obtain ⟨t, rfl, ht⟩ := Parser.eq_cons_of_accept? ha
      simp only [Option.isSome_some, Bool.true_or, if_true]
      exact .after (expect_eq hs ht) rfl (.pure _ hs.of_cons.2.2)

theorem block_eq : block ts (budget + 1) = expect ts .leftBrace .blockStart >>= fun _ =>
    closing ts .rightBrace .blockEnd (statements ts budget []) := by
  rw [block, discard_bind]
  rfl

section Compound

variable (hshort : ∀ vs : List Token, vs.length < n → Performs ts fin vs) (hn : origin.length ≤ n)
include hshort hn

theorem agrees_braces {h : us.length < origin.length} (hbudget : 8 * origin.length ≤ budget + 2)
    (hs : Sees ts fin i us) :
    Agrees ts fin ⟨i, d⟩ (closing ts .rightBrace .blockEnd (statements ts budget []))
      ((Parser.block (stopAt ts fin) (decide (0 < d)) [] origin us h).map Reading.out) :=
  agrees_block (n := us.length) (fun vs hvs => hshort vs (by omega)) (Nat.le_refl _)
    (by omega) hs

variable {t : Token} {h : us.length < origin.length} (hbudget : 8 * origin.length + 4 ≤ budget)
  (hs : Sees ts fin i (t :: us))
include hbudget hs

theorem agrees_conditional :
    Agrees ts fin ⟨i, d⟩ (conditional ts budget)
      ((Parser.conditional (stopAt ts fin) (decide (0 < d)) origin us h).map Reading.out) := by
  obtain ⟨budget, rfl⟩ : ∃ b, budget = b + 2 := ⟨budget - 2, by omega⟩
  rw [conditional, Parser.conditional, Parser.condition]
  simp only [discard_bind, block_eq, bind_assoc, pure_bind]
  refine agrees_advance hs ?_
  refine (walks_expr us _ _ (by omega) hs.of_cons.2.2).reads fun cond rest _ j _ hj => ?_
  refine (agrees_expect (by decide) hj).reads fun _ rest _ j _ hj => ?_
  refine (agrees_braces hshort hn (by omega) hj).reads fun yes rest _ j _ hj => ?_
  refine agrees_accept (by decide) hj (fun ha => ?_) fun o after hrest ho hafter => ?_
  · simp only [ha]
    exact .pure _ hj
  · subst hrest
    simp only [Parser.accept?_cons ho]
    refine (agrees_expect (by decide) hafter).reads fun _ rest _ j _ hj => ?_
    exact (agrees_braces hshort hn (by omega) hj).reads fun _ _ _ _ _ hj => .pure _ hj

theorem agrees_forLoop :
    Agrees ts fin ⟨i, d⟩ (forLoop ts budget)
      ((Parser.forLoop (stopAt ts fin) (decide (0 < d)) origin us h).map Reading.out) := by
  obtain ⟨budget, rfl⟩ : ∃ b, budget = b + 2 := ⟨budget - 2, by omega⟩
  rw [forLoop, Parser.forLoop]
  simp only [Parser.traversal, Parser.condition, discard_bind, block_eq, bind_assoc, pure_bind]
  refine agrees_advance hs ?_
  refine (agrees_expect (by decide) hs.of_cons.2.2).reads fun name rest _ j _ hj => ?_
  refine (agrees_expect (by decide) hj).reads fun _ rest _ j _ hj => ?_
  refine (walks_expr rest _ _ (by omega) hj).reads fun values rest _ j _ hj => ?_
  refine (agrees_expect (by decide) hj).reads fun _ rest _ j _ hj => ?_
  exact (agrees_braces hshort hn (by omega) hj).reads fun _ _ _ _ _ hj => .pure _ hj

theorem agrees_whileLoop :
    Agrees ts fin ⟨i, d⟩ (whileLoop ts budget)
      ((Parser.whileLoop (stopAt ts fin) (decide (0 < d)) origin us h).map Reading.out) := by
  obtain ⟨budget, rfl⟩ : ∃ b, budget = b + 2 := ⟨budget - 2, by omega⟩
  rw [whileLoop, Parser.whileLoop, Parser.condition]
  simp only [discard_bind, block_eq, bind_assoc, pure_bind]
  refine agrees_advance hs ?_
  refine (walks_expr us _ _ (by omega) hs.of_cons.2.2).reads fun cond rest _ j _ hj => ?_
  refine (agrees_expect (by decide) hj).reads fun _ rest _ j _ hj => ?_
  exact (agrees_braces hshort hn (by omega) hj).reads fun _ _ _ _ _ hj => .pure _ hj

end Compound

theorem Agrees.deeper {α : Type} {w : Walk α} {p : Except SyntaxError (α × List Token)}
    (h : Agrees ts fin ⟨i, d + 1⟩ w p) :
    Agrees ts fin ⟨i, d⟩ (deeper w) p := by
  rcases p with e | q
  · obtain ⟨e', j, hw, hreport⟩ := h
    exact ⟨e', j, by simp [Walk.deeper, hw], hreport⟩
  · obtain ⟨j, hw, hj⟩ := h
    exact ⟨j, by simp [Walk.deeper, hw], hj⟩

theorem agrees_function (hshort : ∀ vs : List Token, vs.length < n → Performs ts fin vs)
    (hn : us.length ≤ n) (hbudget : 8 * us.length + 4 ≤ budget) (hs : Sees ts fin i us) :
    Agrees ts fin ⟨i, d⟩ (function ts budget)
      ((Parser.function (stopAt ts fin) us).map Reading.out) := by
  obtain ⟨budget, rfl⟩ : ∃ b, budget = b + 2 := ⟨budget - 2, by omega⟩
  rw [function, Parser.function]
  refine (agrees_head (by omega) hs).reads fun signature rest hlt j _ hj => ?_
  obtain ⟨name, params, type⟩ := signature
  rcases ha : accept? .leftBrace rest with _ | ⟨after, hafter⟩
  · have hbody : Agrees ts fin ⟨j, d + 1⟩ (body ts (budget + 1))
        (((Parser.closed (stopAt ts fin) .functionEnd us rest (Nat.le_of_lt hlt)).map
          Reading.out).map fun q => ([.ret q.1], q.2)) := by
      rw [body]
      refine .after (check_eq (by decide) hj) rfl ?_
      rw [ha]
      exact (agrees_closed (by omega) hj).map _
    have hdefine := hbody.deeper.map (Stmt.define name params type)
    simp only [ha]
    rcases hc : Parser.closed (stopAt ts fin) .functionEnd us rest (Nat.le_of_lt hlt) with e | r <;>
      rw [hc] at hdefine <;> exact hdefine
  · obtain ⟨t, rfl, ht⟩ := Parser.eq_cons_of_accept? ha
    have hbody : Agrees ts fin ⟨j, d + 1⟩ (body ts (budget + 1))
        ((Parser.block (stopAt ts fin) true [] us after (Nat.lt_trans hafter hlt)).map
          Reading.out) := by
      rw [body]
      refine .after (check_eq (by decide) hj) rfl ?_
      obtain ⟨budget, rfl⟩ := Nat.exists_eq_add_one_of_ne_zero (show budget ≠ 0 by omega)
      rw [ha, Option.isSome_some, if_pos rfl, block_eq]
      refine .after (expect_eq hj ht) rfl ?_
      exact agrees_braces (d := d + 1) hshort hn (by omega) hj.of_cons.2.2
    have hdefine := hbody.deeper.map (Stmt.define name params type)
    simp only [ha]
    rcases hb : Parser.block (stopAt ts fin) true [] us after (Nat.lt_trans hafter hlt) with e | r <;>
      rw [hb] at hdefine <;> exact hdefine

theorem performs_statement (us : List Token) : Performs ts fin us := by
  induction hk : us.length using Nat.strongRecOn generalizing us with
  | ind k ih =>
    have hshort : ∀ vs : List Token, vs.length < us.length → Performs ts fin vs :=
      fun vs hvs => ih vs.length (hk ▸ hvs) vs rfl
    intro i d budget hbudget hs
    obtain ⟨budget, rfl⟩ := Nat.exists_eq_add_one_of_ne_zero (show budget ≠ 0 by omega)
    have hless : 8 * us.length + 4 ≤ budget := Nat.le_of_succ_le_succ hbudget
    rw [statement]
    refine .after peek_eq rfl ?_
    cases us with
    | nil =>
      rw [hs.of_nil.1, Parser.statement]
      exact agrees_expression hless hs
    | cons t us =>
      have hn : (t :: us).length ≤ (t :: us).length := Nat.le_refl _
      rw [hs.of_cons.1, Parser.statement]
      cases ht : t.kind with
      | kwVar => exact agrees_declaration hless hs
      | question => exact agrees_conditional hshort hn hless hs
      | kwFor => exact agrees_forLoop hshort hn hless hs
      | kwWhile => exact agrees_whileLoop hshort hn hless hs
      | kwReturn => exact agrees_returned hless hs
      | ident =>
        refine .after get_eq rfl ?_
        simp only
        rw [hs.of_cons.2.2.peek.1]
        by_cases hparen : (Parser.peek (stopAt ts fin) us).kind = .leftParen
        · rw [if_pos hparen]
          refine .after (isFunction_eq (by omega) hs) rfl ?_
          cases hhead : Parser.isHead us with
          | true =>
            rw [List.tail_cons, hhead, if_pos rfl, if_pos ⟨hparen, rfl⟩]
            exact agrees_function hshort hn hless hs
          | false =>
            rw [List.tail_cons, hhead, if_neg (by simp), if_neg (by simp), if_neg (by simp [hparen])]
            exact agrees_expression hless hs
        · rw [if_neg hparen]
          simp only [hparen, false_and, if_false]
          split_ifs
          · exact agrees_assignment hless hs
          · exact agrees_expression hless hs
      | _ => exact agrees_expression hless hs

theorem agrees_program {done : List Stmt} (hbudget : 8 * us.length + 6 ≤ budget)
    (hs : Sees ts fin i us) :
    Agrees ts fin ⟨i, 0⟩ (program ts budget done)
      ((Parser.statements (stopAt ts fin) done us).map fun p => (p, [])) := by
  induction hk : us.length using Nat.strongRecOn generalizing done us i budget with
  | ind k ih =>
    obtain ⟨budget, rfl⟩ := Nat.exists_eq_add_one_of_ne_zero (show budget ≠ 0 by omega)
    rw [program]
    refine .after (check_eof hs) rfl ?_
    cases us with
    | nil =>
      rw [Parser.statements]
      exact .pure _ hs
    | cons t us =>
      rw [Parser.statements]
      simp only [List.isEmpty_cons, Bool.false_eq_true, if_false]
      rw [map_of_bind]
      refine .bind (performs_statement (t :: us) i 0 budget (by omega) hs) fun r j _ hj => ?_
      have hr := r.shorter
      exact ih r.rest.length (hk ▸ hr) (by omega) hj rfl

end Statements

end Abacus.Walk
