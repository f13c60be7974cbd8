import Abacus.Proofs.ExpressionReading
import Abacus.Proofs.Layout
import Abacus.Session

/-!
# The stage of an error

A text is read whole before anything of it is run. Each reader leaves an end of the tokens it was
given and reports an error at one of them or at the end token. Errors of a run are never of the kind
of reading errors, so a session that reports such an error has run nothing.
-/

namespace Abacus

namespace Parser

section Placed

variable {α β : Type} {stop : Position} {origin origin' ts us : List Token}

/-- A reader leaves an end of the tokens, or it reports an error at one of them or at `stop`. -/
def Placed (stop : Position) (ts : List Token) : Except SyntaxError (Reading origin α) → Prop
  | .ok r => r.rest <:+ ts
  | .error e => e.pos = stop ∨ ∃ t ∈ ts, e.pos = t.pos

theorem Placed.of_suffix {p : Except SyntaxError (Reading origin α)} (h : Placed stop us p)
    (shorter : us <:+ ts) : Placed stop ts p := by
  cases p with
  | ok r => exact h.trans shorter
  | error e =>
    obtain atStop | ⟨t, mem, here⟩ := h
    · exact .inl atStop
    · exact .inr ⟨t, shorter.subset mem, here⟩

theorem Placed.bind {p : Except SyntaxError (Reading origin α)}
    {f : Reading origin α → Except SyntaxError (Reading origin' β)} (h : Placed stop ts p)
    (hf : ∀ r : Reading origin α, Placed stop r.rest (f r)) : Placed stop ts (p >>= f) := by
  cases p with
  | ok r => exact (hf r).of_suffix h
  | error e => exact h

theorem placed_here (t : Token) (rest : List Token) (cause : SyntaxError.Cause) :
    Placed stop (t :: rest) (.error ⟨cause, t.pos⟩ : Except SyntaxError (Reading origin α)) :=
  .inr ⟨t, List.mem_cons_self, rfl⟩

theorem placed_peek (rest : List Token) (cause : SyntaxError.Cause) :
    Placed stop rest
      (.error ⟨cause, (peek stop rest).pos⟩ : Except SyntaxError (Reading origin α)) := by
  cases rest with
  | nil => exact .inl rfl
  | cons t rest => exact placed_here t rest cause

theorem placed_uncalled (e : Expr) (rest : List Token) (h : rest.length < ts.length) :
    Placed stop rest
      (match accept? .leftParen rest with
      | none => .ok ⟨e, rest, h⟩
      | some _ => .error ⟨.calleeNotNamed, (peek stop rest).pos⟩ :
        Except SyntaxError (Reading ts Expr)) := by
  split
  · exact List.suffix_rfl
  · exact placed_peek rest _

theorem suffix_of_accept? {kind : Token.Kind} {rest : List Token} {h : rest.length < ts.length}
    (accepted : accept? kind ts = some ⟨rest, h⟩) : rest <:+ ts := by
  obtain ⟨t, rfl, -⟩ := eq_cons_of_accept? accepted
  exact List.suffix_cons t rest

end Placed

section Readers

variable (stop : Position)

theorem expect_placed (kind : Token.Kind) (place : SyntaxError.Place) (origin ts : List Token)
    (h : ts.length ≤ origin.length) : Placed stop ts (expect stop kind place origin ts h) := by
  unfold expect
  split
  · exact .inl rfl
  · split
    · exact List.suffix_cons _ _
    · exact placed_here _ _ _

theorem annotation_placed (origin ts : List Token) (h : ts.length < origin.length) :
    Placed stop ts ( annotation stop origin ts h) := by
  unfold annotation
  split
  · exact List.suffix_rfl
  · exact .inl rfl
  · rename_i t rest _ accepted
    split
    · exact (List.suffix_cons t rest).trans (suffix_of_accept? accepted)
    · exact (placed_here t rest _).of_suffix (suffix_of_accept? accepted)

mutual

theorem primary_placed (ts : List Token) : Placed stop ts (primary stop ts) := by
  rw [primary.eq_def]
  split
  · exact .inl rfl
  rename_i t rest
  split_ifs
  · split
    · exact List.suffix_cons t rest
    · exact placed_here t rest _
  · exact List.suffix_cons t rest
  · have inner := elements_placed [] (t :: rest) rest (by simp)
    refine Placed.of_suffix ?_ (List.suffix_cons t rest)
    exact inner.bind fun r => List.suffix_rfl
  · refine Placed.of_suffix ?_ (List.suffix_cons t rest)
    refine (expr_placed rest).bind fun r => ?_
    exact (expect_placed stop _ _ _ _ _).bind fun r => List.suffix_rfl
  · exact placed_here t rest _
termination_by 8 * ts.length
decreasing_by all_goals grind

theorem elements_placed (done : List Expr) (origin ts : List Token) (h : ts.length < origin.length) :
    Placed stop ts (elements stop done origin ts h) := by
  rw [elements.eq_def]
  split
  · rename_i accepted
    exact suffix_of_accept? accepted
  · refine (expr_placed ts).bind fun r => ?_
    have shorter := r.shorter
    dsimp only
    split
    · rename_i rest _ accepted
      exact (elements_placed _ _ rest _).of_suffix (suffix_of_accept? accepted)
    · exact (expect_placed stop _ _ _ _ _).bind fun r => List.suffix_rfl
termination_by 8 * ts.length + 4
decreasing_by all_goals grind

theorem arguments_placed (done : List Expr) (origin ts : List Token) (h : ts.length < origin.length) :
    Placed stop ts (arguments stop done origin ts h) := by
  rw [arguments.eq_def]
  refine (expr_placed ts).bind fun r => ?_
  have shorter := r.shorter
  dsimp only
  split
  · rename_i rest _ accepted
    exact (arguments_placed _ _ rest _).of_suffix (suffix_of_accept? accepted)
  · exact (expect_placed stop _ _ _ _ _).bind fun r => List.suffix_rfl
termination_by 8 * ts.length + 4
decreasing_by all_goals grind

theorem callable_placed (ts : List Token) : Placed stop ts (callable stop ts) := by
  rw [callable.eq_def]
  refine (primary_placed ts).bind fun r => ?_
  have shorter := r.shorter
  dsimp only
  split
  · exact List.suffix_rfl
  rename_i inner _ opened
  split
  · refine Placed.of_suffix ?_ (suffix_of_accept? opened)
    split
    · rename_i accepted
      exact (placed_uncalled _ _ _).of_suffix (suffix_of_accept? accepted)
    · exact (arguments_placed [] ts inner _).bind fun r => placed_uncalled _ r.rest r.shorter
  · exact placed_peek _ _
termination_by 8 * ts.length + 1
decreasing_by all_goals grind

theorem operand_placed (ops : List (Position × UnaryOp)) (origin ts : List Token)
    (h : ts.length ≤ origin.length) : Placed stop ts (operand stop ops origin ts h) := by
  rw [operand.eq_def]
  cases ts with
  | nil => exact .inl rfl
  | cons t rest =>
    dsimp only
    split
    · exact (operand_placed _ _ rest _).of_suffix (List.suffix_cons t rest)
    · exact (callable_placed (t :: rest)).bind fun r => List.suffix_rfl
termination_by 8 * ts.length + 2
decreasing_by all_goals grind

theorem links_placed (ranged : Bool) (done : List (Connective × Expr)) (origin ts : List Token)
    (h : ts.length < origin.length) : Placed stop ts (links stop ranged done origin ts h) := by
  rw [links.eq_def]
  cases ts with
  | nil => exact List.suffix_rfl
  | cons t rest =>
    dsimp only
    split
    · exact List.suffix_rfl
    split_ifs
    · exact placed_here t rest _
    · refine Placed.of_suffix ?_ (List.suffix_cons t rest)
      refine (operand_placed [] rest rest (Nat.le_refl _)).bind fun r => ?_
      have shorter := r.shorter
      exact links_placed _ _ _ r.rest _
termination_by 8 * ts.length
decreasing_by all_goals grind

theorem expr_placed (ts : List Token) : Placed stop ts (expr stop ts) := by
  rw [expr.eq_def]
  refine (operand_placed [] ts ts (Nat.le_refl _)).bind fun r => ?_
  have shorter := r.shorter
  exact (links_placed false [] ts r.rest r.shorter).bind fun r => List.suffix_rfl
termination_by 8 * ts.length + 3
decreasing_by all_goals grind

end

theorem parameters_placed (done : List Param) (origin ts : List Token)
    (h : ts.length < origin.length) : Placed stop ts (parameters stop done origin ts h) := by
  rw [parameters.eq_def]
  refine (expect_placed stop _ _ _ _ _).bind fun name => ?_
  refine (annotation_placed stop _ _ _).bind fun type => ?_
  have shorter := type.shorter
  dsimp only
  split
  · rename_i rest _ accepted
    exact (parameters_placed _ _ rest _).of_suffix (suffix_of_accept? accepted)
  · exact (expect_placed stop _ _ _ _ _).bind fun r => List.suffix_rfl
termination_by ts.length
decreasing_by all_goals grind

theorem headEnd_placed (name : String) (params : List Param) (origin ts : List Token)
    (h : ts.length < origin.length) : Placed stop ts
      ( annotation stop origin ts h >>= fun type =>
        expect stop .arrow .functionBody origin type.rest (Nat.le_of_lt type.shorter) >>= fun r =>
          pure ⟨(name, params, type.value), r.rest, r.shorter⟩ :
        Except SyntaxError (Reading origin (String × List Param × Option String))) := by
  refine (annotation_placed stop _ _ _).bind fun type => ?_
  exact (expect_placed stop _ _ _ _ _).bind fun r => List.suffix_rfl

theorem head_placed (ts : List Token) : Placed stop ts (head stop ts) := by
  unfold head
  refine (expect_placed stop _ _ _ _ _).bind fun name => ?_
  refine (expect_placed stop _ _ _ _ _).bind fun opened => ?_
  dsimp only
  split
  · rename_i accepted
    exact (headEnd_placed stop _ _ _ _ _).of_suffix (suffix_of_accept? accepted)
  · exact (parameters_placed stop _ _ _ _).bind fun params => headEnd_placed stop _ _ _ _ _

theorem closed_placed (place : SyntaxError.Place) (origin ts : List Token)
    (h : ts.length ≤ origin.length) : Placed stop ts (closed stop place origin ts h) := by
  refine (expr_placed stop ts).bind fun e => ?_
  exact (expect_placed stop _ _ _ _ _).bind fun r => List.suffix_rfl

theorem declaration_placed (origin ts : List Token) (h : ts.length < origin.length) :
    Placed stop ts (declaration stop origin ts h) := by
  refine (expect_placed stop _ _ _ _ _).bind fun name => ?_
  refine (annotation_placed stop _ _ _).bind fun type => ?_
  refine (expect_placed stop _ _ _ _ _).bind fun equal => ?_
  exact (closed_placed stop _ _ _ _).bind fun r => List.suffix_rfl

theorem assignment_placed (ts : List Token) : Placed stop ts (assignment stop ts) := by
  refine (expect_placed stop _ _ _ _ _).bind fun name => ?_
  refine (expect_placed stop _ _ _ _ _).bind fun equal => ?_
  exact (closed_placed stop _ _ _ _).bind fun r => List.suffix_rfl

theorem condition_placed (origin ts : List Token) (h : ts.length < origin.length) :
    Placed stop ts (condition stop origin ts h) := by
  refine (expr_placed stop ts).bind fun e => ?_
  exact (expect_placed stop _ _ _ _ _).bind fun r => List.suffix_rfl

theorem traversal_placed (origin ts : List Token) (h : ts.length < origin.length) :
    Placed stop ts (traversal stop origin ts h) := by
  refine (expect_placed stop _ _ _ _ _).bind fun name => ?_
  refine (expect_placed stop _ _ _ _ _).bind fun isIn => ?_
  exact (condition_placed stop _ _ _).bind fun r => List.suffix_rfl

theorem expression_placed (ts : List Token) : Placed stop ts (expression stop ts) :=
  (closed_placed stop _ _ _ _).bind fun _ => List.suffix_rfl

theorem returned_placed (origin ts : List Token) (h : ts.length < origin.length) :
    Placed stop ts (returned stop origin ts h) :=
  (closed_placed stop _ _ _ _).bind fun _ => List.suffix_rfl

mutual

theorem statement_placed (inside : Bool) (ts : List Token) :
    Placed stop ts (statement stop inside ts) := by
  rw [statement.eq_def]
  cases ts with
  | nil => exact expression_placed stop []
  | cons t rest =>
    have shorter : rest <:+ t :: rest := List.suffix_cons t rest
    dsimp only
    split
    · exact (declaration_placed stop _ rest _).of_suffix shorter
    · exact (conditional_placed inside _ rest _).of_suffix shorter
    · exact (forLoop_placed inside _ rest _).of_suffix shorter
    · exact (whileLoop_placed inside _ rest _).of_suffix shorter
    · split_ifs
      · exact (returned_placed stop _ rest _).of_suffix shorter
      · exact placed_here t rest _
    · split_ifs
      · exact function_placed (t :: rest)
      · exact assignment_placed stop (t :: rest)
      · exact expression_placed stop (t :: rest)
    · exact expression_placed stop (t :: rest)
termination_by 8 * ts.length + 4
decreasing_by all_goals grind

theorem conditional_placed (inside : Bool) (origin ts : List Token) (h : ts.length < origin.length) :
    Placed stop ts (conditional stop inside origin ts h) := by
  rw [conditional.eq_def]
  refine (condition_placed stop _ _ _).bind fun cond => ?_
  have shorter := cond.shorter
  refine (block_placed inside [] origin cond.rest _).bind fun yes => ?_
  have shorter := yes.shorter
  dsimp only
  split
  · exact List.suffix_rfl
  · rename_i accepted
    refine Placed.of_suffix ?_ (suffix_of_accept? accepted)
    refine (expect_placed stop _ _ _ _ _).bind fun opened => ?_
    have shorter := opened.shorter
    exact (block_placed inside [] origin opened.rest _).bind fun no => List.suffix_rfl
termination_by 8 * origin.length
decreasing_by all_goals grind

theorem forLoop_placed (inside : Bool) (origin ts : List Token) (h : ts.length < origin.length) :
    Placed stop ts (forLoop stop inside origin ts h) := by
  rw [forLoop.eq_def]
  refine (traversal_placed stop _ _ _).bind fun values => ?_
  have shorter := values.shorter
  exact (block_placed inside [] origin values.rest _).bind fun body => List.suffix_rfl
termination_by 8 * origin.length
decreasing_by all_goals grind

theorem whileLoop_placed (inside : Bool) (origin ts : List Token) (h : ts.length < origin.length) :
    Placed stop ts (whileLoop stop inside origin ts h) := by
  rw [whileLoop.eq_def]
  refine (condition_placed stop _ _ _).bind fun cond => ?_
  have shorter := cond.shorter
  exact (block_placed inside [] origin cond.rest _).bind fun body => List.suffix_rfl
termination_by 8 * origin.length
decreasing_by all_goals grind

theorem function_placed (ts : List Token) : Placed stop ts (function stop ts) := by
  rw [function.eq_def]
  refine (head_placed stop ts).bind fun head => ?_
  have shorter := head.shorter
  dsimp only
  split
  · rename_i rest _ accepted
    refine Placed.of_suffix ?_ (suffix_of_accept? accepted)
    exact (block_placed true [] ts rest _).bind fun body => List.suffix_rfl
  · exact (closed_placed stop _ _ _ _).bind fun value => List.suffix_rfl
termination_by 8 * ts.length
decreasing_by all_goals grind

theorem block_placed (inside : Bool) (done : List Stmt) (origin ts : List Token)
    (h : ts.length < origin.length) : Placed stop ts (block stop inside done origin ts h) := by
  rw [block.eq_def]
  split
  · rename_i accepted
    exact suffix_of_accept? accepted
  · cases ts with
    | nil => exact .inl rfl
    | cons t rest =>
      refine (statement_placed inside (t :: rest)).bind fun s => ?_
      have shorter := s.shorter
      exact block_placed inside _ origin s.rest _
termination_by 8 * ts.length + 5
decreasing_by all_goals grind

end

theorem statements_error {done : List Stmt} {ts : List Token} {e : SyntaxError}
    (h : statements stop done ts = .error e) : e.pos = stop ∨ ∃ t ∈ ts, e.pos = t.pos := by
  cases ts with
  | nil =>
    rw [statements] at h
    cases h
  | cons t rest =>
    rw [statements] at h
    have placed := statement_placed stop false (t :: rest)
    cases read : statement stop false (t :: rest) with
    | error e' =>
      rw [read] at h placed
      cases h
      exact placed
    | ok r =>
      rw [read] at h placed
      have shorter := r.shorter
      obtain atStop | ⟨u, mem, here⟩ := statements_error h
      · exact .inl atStop
      · exact .inr ⟨u, placed.subset mem, here⟩
termination_by ts.length
decreasing_by all_goals grind

end Readers

/-- Where an error about a list of tokens is reported: at a token that has no end token before it, or
at no line when there is no end token. -/
def Reported (ts : List Token) (pos : Position) : Prop :=
  (∃ before t after, ts = before ++ t :: after ∧ (∀ u ∈ before, u.kind ≠ .eof) ∧ pos = t.pos) ∨
    ((∀ t ∈ ts, t.kind ≠ .eof) ∧ pos = ⟨0, 0⟩)

theorem reported_of_mem {ts : List Token} {t : Token} (h : t ∈ ts.takeWhile (·.kind ≠ .eof)) :
    Reported ts t.pos := by
  have whole := List.takeWhile_append_dropWhile (p := fun u : Token => u.kind ≠ .eof) (l := ts)
  have free : ∀ u ∈ ts.takeWhile (·.kind ≠ .eof), u.kind ≠ .eof := by
    intro u mem
    simpa using List.mem_takeWhile_imp mem
  obtain ⟨before, after, split⟩ := List.append_of_mem h
  rw [split] at whole free
  refine .inl ⟨before, t, after ++ ts.dropWhile (·.kind ≠ .eof), ?_, ?_, rfl⟩
  · simpa using whole.symm
  · intro u mem
    exact free u (List.mem_append_left _ mem)

theorem reported_stop (ts : List Token) : Reported ts (upToEnd ts).2 := by
  rw [upToEnd]
  cases found : ts.find? (·.kind = .eof) with
  | none =>
    refine .inr ⟨?_, rfl⟩
    simpa using List.find?_eq_none.mp found
  | some t =>
    obtain ⟨-, before, after, split, free⟩ := List.find?_eq_some_iff_append.mp found
    exact .inl ⟨before, t, after, split, by simpa using free, rfl⟩

theorem reported_of_parse {ts : List Token} {e : SyntaxError} (h : Program.parse ts = .error e) :
    Reported ts e.pos := by
  obtain atStop | ⟨t, mem, here⟩ := statements_error _ h
  · rw [atStop]
    exact reported_stop ts
  · rw [here]
    exact reported_of_mem mem

end Parser

theorem Fault.kind_ne_grammar (f : Fault) : f.kind ≠ .grammar := by
  cases f <;> simp [kind]

namespace Token

theorem position_of_tokenize [Text.Alphabet] {source : String} {e : SyntaxError} (h : tokenize source = .error e) :
    ∃ before after, source.toList = before ++ after ∧ e.pos = .after before := by
  have accounts := Lexer.read_accounts .start [] source.toList (laid_nil _) (Nat.zero_le _) rfl rfl rfl
  rw [tokenize] at h
  rw [h] at accounts
  obtain ⟨_, reached, -, here, -⟩ := accounts
  exact ⟨_, _, (List.take_append_drop reached source.toList).symm, here⟩

end Token

namespace Session

/-- The text is refused by the reader of tokens or by the reader of programs. -/
def Unreadable (source : String) : Prop :=
  (∃ e, Token.tokenize source = .error e) ∨
    ∃ ts e, Token.tokenize source = .ok ts ∧ Program.parse ts = .error e

/-- The answer is an error of the kind that reading has. -/
def Answer.IsGrammar (a : Answer) : Prop := ∃ r ∈ a.report?, r.kind = .grammar

theorem isGrammar_refused (e : SyntaxError) : (Answer.refused e).IsGrammar := ⟨e.report, rfl, rfl⟩

theorem not_isGrammar_run (budget : Nat) (s : Session) (p : Program) :
    ¬ (s.run budget p).1.IsGrammar := by
  unfold run
  generalize p.run s.limit budget s.state = ended
  intro ⟨r, reported, isGrammar⟩
  cases h : ended.1 with
  | done v =>
    simp [h, Answer.ofResult, Answer.report?] at reported
  | failed e =>
    simp only [h, Answer.ofResult, Answer.report?, Option.mem_some_iff] at reported
    rw [← reported] at isGrammar
    exact e.fault.kind_ne_grammar isGrammar
  | crashed =>
    simp [h, Answer.ofResult, Answer.report?] at reported
  | cut =>
    simp [h, Answer.ofResult, Answer.report?] at reported

theorem execute_cases (budget : Nat) (s : Session) (source : String) :
    (Unreadable source ∧ ∃ e, s.execute budget source = (.refused e, s)) ∨
      (¬ Unreadable source ∧ ∃ p, s.execute budget source = s.run budget p) := by
  unfold execute Unreadable
  cases read : Token.tokenize source with
  | error e => exact .inl ⟨.inl ⟨e, rfl⟩, e, rfl⟩
  | ok ts =>
    cases parsed : Program.parse ts with
    | error e =>
      refine .inl ⟨.inr ⟨ts, e, rfl, parsed⟩, e, ?_⟩
      simp [bind, Except.bind, parsed]
    | ok p =>
      refine .inr ⟨?_, p, ?_⟩
      · simp [parsed]
      · simp [bind, Except.bind, parsed]

end Session

/-- Errors of reading are of one kind and have a position in what was read, errors of a run are of
other kinds, and a session answers with an error of reading exactly if the text is refused. Then it is
as it was before. -/
theorem errors_by_stage :
    (∀ source e, Token.tokenize source = .error e → e.report.kind = .grammar ∧
      ∃ before after, source.toList = before ++ after ∧ e.report.pos = some (.after before)) ∧
    (∀ ts e, Program.parse ts = .error e → e.report.kind = .grammar ∧
      ∃ pos, e.report.pos = some pos ∧ Parser.Reported ts pos) ∧
    (∀ limit budget (p : Program) (s s' : State) e,
      p.run limit budget s = (.failed e, s') → e.report.kind ≠ .grammar) ∧
    (∀ budget (s : Session) source,
      ((s.execute budget source).1.IsGrammar ↔ Session.Unreadable source) ∧
      ((s.execute budget source).1.IsGrammar → (s.execute budget source).2 = s)) := by
  refine ⟨?_, ?_, ?_, ?_⟩
  · intro source e h
    obtain ⟨before, after, split, here⟩ := Token.position_of_tokenize h
    exact ⟨rfl, before, after, split, congrArg some here⟩
  · intro ts e h
    exact ⟨rfl, e.pos, rfl, Parser.reported_of_parse h⟩
  · intro limit budget p s s' e _
    exact e.fault.kind_ne_grammar
  · intro budget s source
    obtain ⟨unreadable, e, ended⟩ | ⟨readable, p, ended⟩ := s.execute_cases budget source
    · rw [ended]
      exact ⟨⟨fun _ => unreadable, fun _ => Session.isGrammar_refused e⟩, fun _ => rfl⟩
    · rw [ended]
      have other := Session.not_isGrammar_run budget s p
      exact ⟨⟨fun h => absurd h other, fun h => absurd h readable⟩, fun h => absurd h other⟩

end Abacus
