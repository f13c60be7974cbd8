import Abacus.Proofs.ProgramReading
import Abacus.Proofs.Spelling

/-!
# Joining texts at a newline

A text that spells a program can be continued on a new line. Its last token closes a statement, so no
string is open at its end, and a newline ends a comment there. The tokens of what follows are those it
has by itself, further down. The grammar asks for no positions, and statements that follow each other
are statements again, so the program of both texts is one program after the other.
-/

namespace Abacus

def Position.down (lines : Nat) (p : Position) : Position := ⟨p.line + lines, p.column⟩

theorem Position.advance_down (lines : Nat) (p : Position) (text : List Char) :
    (p.down lines).advance text = (p.advance text).down lines := by
  induction text generalizing p with
  | nil => rfl
  | cons c text ih =>
    have step : (p.down lines).step c = (p.step c).down lines := by
      simp only [Position.step, Position.down]
      split
      · simp only [Position.mk.injEq, and_true]
        omega
      · rfl
    rw [advance_cons, advance_cons, step, ih]

theorem Position.after_newline (before : List Char) :
    Position.after (before ++ ['\n']) = Position.start.down (1 + before.count '\n') := by
  simp [Position.after, Position.start, Position.down]
  omega

section Moving

variable (f : Position → Position)

def Token.moved (t : Token) : Token := { t with pos := f t.pos }

mutual

def Expr.moved : Expr → Expr
  | .literal pos v => .literal (f pos) v
  | .var pos name => .var (f pos) name
  | .unary pos op e => .unary (f pos) op e.moved
  | .binary pos op l r => .binary (f pos) op l.moved r.moved
  | .range pos l r => .range (f pos) l.moved r.moved
  | .call pos name args => .call (f pos) name (Expr.movedAll args)
  | .array pos es => .array (f pos) (Expr.movedAll es)

def Expr.movedAll : List Expr → List Expr
  | [] => []
  | e :: es => e.moved :: Expr.movedAll es

end

mutual

def Stmt.moved : Stmt → Stmt
  | .declare name type e => .declare name type (e.moved f)
  | .define name ps type body => .define name ps type (Stmt.movedAll body)
  | .ifThen c body => .ifThen (c.moved f) (Stmt.movedAll body)
  | .ifElse c yes no => .ifElse (c.moved f) (Stmt.movedAll yes) (Stmt.movedAll no)
  | .forEach name e body => .forEach name (e.moved f) (Stmt.movedAll body)
  | .loop c body => .loop (c.moved f) (Stmt.movedAll body)
  | .ret e => .ret (e.moved f)
  | .assign name e => .assign name (e.moved f)
  | .expr e => .expr (e.moved f)

def Stmt.movedAll : List Stmt → List Stmt
  | [] => []
  | s :: ss => s.moved :: Stmt.movedAll ss

end

@[simp] theorem Expr.moved_pos (e : Expr) : (e.moved f).pos = f e.pos := by
  cases e <;> rfl

end Moving

namespace Grammar

section Moving

variable (f : Position → Position)

theorem Named.moved {ts : List Token} {pos : Position} {name : String} (h : Named ts pos name) :
    Named (ts.map (Token.moved f)) (f pos) name := by
  induction h with
  | @name t ht => exact .name (t := t.moved f) ht
  | group hl _ hr ih =>
    rw [List.map_append]
    exact .group hl ih hr

mutual

theorem Primary.moved {ts : List Token} {e : Expr} :
    Primary ts e → Primary (ts.map (Token.moved f)) (e.moved f)
  | .literal (t := t) ht hv => .literal (t := t.moved f) ht hv
  | .name (t := t) ht => .name (t := t.moved f) ht
  | .array (l := l) hl hes => .array (l := l.moved f) hl hes.moved
  | .group hl he hr => by
    rw [List.map_append]
    exact .group hl he.moved hr

theorem Callable.moved {ts : List Token} {e : Expr} :
    Callable ts e → Callable (ts.map (Token.moved f)) (e.moved f)
  | .primary h => .primary h.moved
  | .emptyCall hn hl hr => by
    rw [List.map_append]
    exact .emptyCall (hn.moved f) hl hr
  | .call hn hl hes hr => by
    rw [List.map_append, List.map_append]
    exact .call (hn.moved f) hl hes.moved hr

theorem Operand.moved {ts : List Token} {e : Expr} :
    Operand ts e → Operand (ts.map (Token.moved f)) (e.moved f)
  | .callable h => .callable h.moved
  | .sign (t := t) hs h => .sign (t := t.moved f) hs h.moved

theorem Level.moved {n : Nat} {ts : List Token} {e : Expr} :
    Level n ts e → Level n (ts.map (Token.moved f)) (e.moved f)
  | .operand h => .operand h.moved
  | .tighter hn h => .tighter hn h.moved
  | .left (t := t) (l := l) hop hl hr => by
    have here := Level.left (t := t.moved f) hop hl.moved hr.moved
    rw [l.moved_pos] at here
    rwa [List.map_append]
  | .range (t := t) (l := l) ht hl hr => by
    have here := Level.range (t := t.moved f) ht hl.moved hr.moved
    rw [l.moved_pos] at here
    rwa [List.map_append]
  | .power (t := t) (l := l) ht hl hr => by
    have here := Level.power (t := t.moved f) ht hl.moved hr.moved
    rw [l.moved_pos] at here
    rwa [List.map_append]

theorem Elements.moved {ts : List Token} {es : List Expr} :
    Elements ts es → Elements (ts.map (Token.moved f)) (Expr.movedAll f es)
  | .close (r := r) hr => .close (r := r.moved f) hr
  | .last he hr => by
    rw [List.map_append]
    exact .last he.moved hr
  | .more he hc hes => by
    rw [List.map_append]
    exact .more he.moved hc hes.moved

theorem Listed.moved {ts : List Token} {es : List Expr} :
    Listed ts es → Listed (ts.map (Token.moved f)) (Expr.movedAll f es)
  | .one he => .one he.moved
  | .more he hc hes => by
    rw [List.map_append]
    exact .more he.moved hc hes.moved

end

theorem Annotated.moved {ts : List Token} {type : Option String} (h : Annotated ts type) :
    Annotated (ts.map (Token.moved f)) type := by
  cases h with
  | none => exact .none
  | @some c t hc ht => exact .some (c := c.moved f) (t := t.moved f) hc ht

theorem Params.moved {ts : List Token} {ps : List Param} (h : Params ts ps) :
    Params (ts.map (Token.moved f)) ps := by
  induction h with
  | @one t _ _ ht hty => exact .one (t := t.moved f) ht (hty.moved f)
  | @more t _ _ _ _ _ ht hty hc _ ih =>
    rw [List.map_append]
    exact .more (t := t.moved f) ht (hty.moved f) hc ih

theorem ParamList.moved {ts : List Token} {ps : List Param} (h : ParamList ts ps) :
    ParamList (ts.map (Token.moved f)) ps := by
  cases h with
  | @empty l r hl hr => exact .empty (l := l.moved f) (r := r.moved f) hl hr
  | params hl hps hr =>
    rw [List.map_append]
    exact .params hl (hps.moved f) hr

theorem Head.moved {ts : List Token} {name : String} {ps : List Param} {type : Option String}
    (h : Head ts name ps type) : Head (ts.map (Token.moved f)) name ps type := by
  cases h with
  | @mk t _ _ _ _ _ ht hps hty ha =>
    rw [List.map_append, List.map_append]
    exact .mk (t := t.moved f) ht (hps.moved f) (hty.moved f) ha

mutual

theorem Statement.moved {inside : Bool} {ts : List Token} {s : Stmt} :
    Statement inside ts s → Statement inside (ts.map (Token.moved f)) (s.moved f)
  | .declare (t := t) hk ht hty hq he hs => by
    rw [List.map_append, List.map_append]
    exact .declare (t := t.moved f) hk ht (hty.moved f) hq (he.moved f) hs
  | .ifThen hk he hb => by
    rw [List.map_append]
    exact .ifThen hk (he.moved f) hb.moved
  | .ifElse hk he hyes ho hno => by
    rw [List.map_append, List.map_append]
    exact .ifElse hk (he.moved f) hyes.moved ho hno.moved
  | .forEach (t := t) hk ht hi he hb => by
    rw [List.map_append]
    exact .forEach (t := t.moved f) hk ht hi (he.moved f) hb.moved
  | .loop hk he hb => by
    rw [List.map_append]
    exact .loop hk (he.moved f) hb.moved
  | .ret hk he hs => by
    rw [List.map_append]
    exact .ret hk (he.moved f) hs
  | .define hh hb => by
    rw [List.map_append]
    exact .define (hh.moved f) hb.moved
  | .defineExpr hh he hs => by
    rw [List.map_append, List.map_append]
    exact .defineExpr (hh.moved f) (he.moved f) hs
  | .assign (t := t) ht hq he hs => by
    rw [List.map_append]
    exact .assign (t := t.moved f) ht hq (he.moved f) hs
  | .expr he hs => by
    rw [List.map_append]
    exact .expr (he.moved f) hs

theorem Block.moved {inside : Bool} {ts : List Token} {ss : List Stmt} :
    Block inside ts ss → Block inside (ts.map (Token.moved f)) (Stmt.movedAll f ss)
  | .braces hl hss hr => by
    rw [List.map_append]
    exact .braces hl hss.moved hr

theorem Statements.moved {inside : Bool} {ts : List Token} {ss : List Stmt} :
    Statements inside ts ss → Statements inside (ts.map (Token.moved f)) (Stmt.movedAll f ss)
  | .nil => .nil
  | .cons hs hss => by
    rw [List.map_append]
    exact .cons hs.moved hss.moved

end

end Moving

theorem Statements.append {inside : Bool} {ts us : List Token} {ss rs : List Stmt} :
    Statements inside ts ss → Statements inside us rs → Statements inside (ts ++ us) (ss ++ rs)
  | .nil, hrs => hrs
  | .cons hs hss, hrs => by
    rw [List.append_assoc]
    exact .cons hs (hss.append hrs)

def Closes (ts : List Token) : Prop :=
  ∃ t ∈ ts.getLast?, t.kind = .semicolon ∨ t.kind = .rightBrace

theorem closes_concat {t : Token} (h : t.kind = .semicolon ∨ t.kind = .rightBrace) (ts : List Token) :
    Closes (ts ++ [t]) :=
  ⟨t, List.getLast?_concat, h⟩

theorem Closes.append {us : List Token} (h : Closes us) (ts : List Token) : Closes (ts ++ us) := by
  obtain ⟨t, last, kind⟩ := h
  refine ⟨t, ?_, kind⟩
  rw [List.getLast?_append, Option.mem_def.mp last]
  rfl

theorem Block.closes {inside : Bool} {ts : List Token} {ss : List Stmt} (h : Block inside ts ss) :
    Closes ts := by
  cases h with
  | braces _ _ hr => exact closes_concat (.inr hr) _

theorem Statement.closes {inside : Bool} {ts : List Token} {s : Stmt} (h : Statement inside ts s) :
    Closes ts := by
  cases h with
  | declare _ _ _ _ _ hs | ret _ _ hs | defineExpr _ _ hs | assign _ _ _ hs | expr _ hs =>
    exact closes_concat (.inl hs) _
  | ifThen _ _ hb | forEach _ _ _ _ hb | loop _ _ hb | define _ hb => exact hb.closes.append _
  | @ifElse _ _ o _ _ _ _ _ _ _ _ _ _ hno => exact (hno.closes.append [o]).append _

theorem Statements.closes {inside : Bool} {ts : List Token} {ss : List Stmt} :
    Statements inside ts ss → ts = [] ∨ Closes ts
  | .nil => .inl rfl
  | @Statements.cons _ ts _ _ _ hs hss => by
    obtain rfl | closes := hss.closes
    · rw [List.append_nil]
      exact .inr hs.closes
    · exact .inr (closes.append ts)

end Grammar

namespace Token.Lexer

variable [Text.Alphabet]

theorem read_down (lines : Nat) (before : List Token) {pos : Position} {done tokens : List Token}
    {source : List Char} (ok : read pos done source = .ok tokens) :
    read (pos.down lines) (done.map (Token.moved (Position.down lines)) ++ before) source
      = .ok (before.reverse ++ tokens.map (Token.moved (Position.down lines))) := by
  fun_induction read pos done source with
  | case1 pos done =>
    cases ok
    rw [read.eq_def]
    simp [Token.eof, Token.moved]
  | case2 => cases ok
  | case3 pos done c rest p cut _ kind payload item ih =>
    obtain ⟨nonempty, whole⟩ := next_cuts cut
    have reads := next_reads cut
    rw [← whole, read_piece reads, item]
    dsimp only
    rw [Position.advance_down]
    exact ih ok
  | case4 pos done c rest p cut _ item ih =>
    obtain ⟨nonempty, whole⟩ := next_cuts cut
    have reads := next_reads cut
    rw [← whole, read_piece reads, item]
    dsimp only
    rw [Position.advance_down]
    exact ih ok

/-- A text whose last token is no string is read up to its end also when a newline follows. -/
theorem read_newline {pos stop : Position} {done tokens : List Token} {source : List Char}
    (ok : read pos done source = .ok (tokens ++ [Token.eof stop]))
    (closed : ∀ t ∈ tokens.getLast?, t.kind ≠ .string) (more : List Char) :
    read pos done (source ++ '\n' :: more)
      = read (pos.advance (source ++ ['\n'])) tokens.reverse more := by
  fun_induction read pos done source with
  | case1 pos done =>
    have newline : Skipped ['\n'] more := .blank more (by decide)
    have isDone : done = tokens.reverse := by
      rw [Except.ok.injEq, List.reverse_cons] at ok
      rw [← (List.append_inj_left' ok rfl), List.reverse_reverse]
    rw [isDone]
    exact read_skipped newline pos tokens.reverse
  | case2 => cases ok
  | case3 pos done c rest p cut _ kind payload item ih =>
    obtain ⟨nonempty, whole⟩ := next_cuts cut
    have reads := next_reads cut
    simp only [Piece.Reads, item] at reads
    have clear : Clear ('\n' :: more) := by
      intro c head
      cases head
      decide
    -- a string at the end of the text would be the last token
    have notLast : kind = .string → p.rest ≠ [] := by
      intro isString isLast
      rw [isLast, read.eq_def] at ok
      simp only [Except.ok.injEq, List.reverse_cons] at ok
      have isLast := List.append_inj_left' ok rfl
      rw [← isLast] at closed
      exact closed ⟨kind, payload, pos⟩ List.getLast?_concat isString
    rw [← whole, List.append_assoc, read_spelled (reads.append clear notLast), ih ok,
      List.append_assoc, Position.advance_append pos p.text]
  | case4 pos done c rest p cut _ item ih =>
    obtain ⟨nonempty, whole⟩ := next_cuts cut
    have reads := next_reads cut
    simp only [Piece.Reads, item] at reads
    rw [← whole, List.append_assoc, read_skipped (reads.append_newline more), ih ok,
      List.append_assoc, Position.advance_append pos p.text]

end Token.Lexer

namespace Program

theorem tokenize_ended [Text.Alphabet] {source : String} {tokens : List Token} (ok : Token.tokenize source = .ok tokens) :
    ∃ ts, tokens = ts ++ [Token.eof (.after source.toList)] ∧ ∀ t ∈ ts, t.kind ≠ .eof := by
  have accounts := Token.Lexer.read_accounts .start [] source.toList (Token.laid_nil _)
    (Nat.zero_le _) rfl rfl rfl
  rw [Token.tokenize] at ok
  rw [ok] at accounts
  obtain ⟨cells, rfl, ends, -⟩ := accounts
  refine ⟨cells.map Prod.snd, rfl, ?_⟩
  intro t mem
  obtain ⟨cell, isCell, rfl⟩ := List.mem_map.mp mem
  exact ends cell isCell

theorem parse_ended {ts : List Token} (ends : ∀ t ∈ ts, t.kind ≠ .eof) (stop : Position)
    (p : Program) : parse (ts ++ [Token.eof stop]) = .ok p ↔ Grammar.Statements false ts p := by
  have upTo : (ts ++ [Token.eof stop]).takeWhile (·.kind ≠ .eof) = ts := by
    rw [List.takeWhile_append_of_pos (by simpa using ends)]
    simp [Token.eof]
  rw [parse, Parser.upToEnd, upTo, Parser.statements_eq_ok]
  simp

theorem exists_derived [Text.Alphabet] {source : String} {p : Program}
    (ok : Token.tokenize source >>= parse = .ok p) :
    ∃ ts, Token.tokenize source = .ok (ts ++ [Token.eof (.after source.toList)]) ∧
      (∀ t ∈ ts, t.kind ≠ .eof) ∧ Grammar.Statements false ts p := by
  cases read : Token.tokenize source with
  | error e =>
    rw [read] at ok
    cases ok
  | ok tokens =>
    rw [read] at ok
    obtain ⟨ts, rfl, ends⟩ := tokenize_ended read
    exact ⟨ts, rfl, ends, (parse_ended ends _ p).mp ok⟩

/-- Two texts that spell programs, joined by a newline, spell the one program after the other. The
expressions of the second are as many lines further down as the first has, in the same columns. -/
theorem parse_joined {s₁ s₂ : String} {p₁ p₂ : Program}
    (first : Token.tokenize s₁ >>= parse = .ok p₁) (second : Token.tokenize s₂ >>= parse = .ok p₂) :
    Token.tokenize (s₁ ++ "\n" ++ s₂) >>= parse
      = .ok (p₁ ++ Stmt.movedAll (Position.down (1 + s₁.toList.count '\n')) p₂) := by
  obtain ⟨ts₁, read₁, ends₁, derived₁⟩ := exists_derived first
  obtain ⟨ts₂, read₂, ends₂, derived₂⟩ := exists_derived second
  have closed : ∀ t ∈ ts₁.getLast?, t.kind ≠ .string := by
    intro t last isString
    obtain rfl | ⟨t', last', closes⟩ := derived₁.closes
    · cases last
    · cases Option.mem_unique last last'
      rw [isString] at closes
      rcases closes with closes | closes <;> cases closes
  have text : (s₁ ++ "\n" ++ s₂).toList = s₁.toList ++ '\n' :: s₂.toList := by simp
  generalize lines : 1 + s₁.toList.count '\n' = k
  have below : Position.start.advance (s₁.toList ++ ['\n']) = Position.start.down k := by
    rw [Position.advance_start, Position.after_newline, lines]
  have joined : Token.tokenize (s₁ ++ "\n" ++ s₂) = .ok
      ((ts₁ ++ ts₂.map (Token.moved (.down k))) ++ [Token.eof ((Position.after s₂.toList).down k)]) := by
    have down := Token.Lexer.read_down k ts₁.reverse read₂
    rw [Token.tokenize, text, Token.Lexer.read_newline read₁ closed, below]
    rw [List.map_nil, List.nil_append] at down
    rw [down]
    simp [Token.eof, Token.moved]
  have ends : ∀ t ∈ ts₁ ++ ts₂.map (Token.moved (.down k)), t.kind ≠ .eof := by
    intro t mem
    obtain mem | mem := List.mem_append.mp mem
    · exact ends₁ t mem
    · obtain ⟨t', mem', rfl⟩ := List.mem_map.mp mem
      exact ends₂ t' mem'
  rw [joined]
  exact (parse_ended ends _ _).mpr (derived₁.append (derived₂.moved _))

/-- The first text has two lines and ends in a comment with an open quote, the second in a sign that
means nothing. -/
theorem parse_joined_comment :
    let s₁ := "f(x) => x;\n// \""
    let s₂ := "print(f(1)); !"
    let p₁ : Program := [.define "f" [⟨"x", none⟩] none [.ret (.var ⟨1, 9⟩ "x")]]
    let p₂ : Program := [.expr (.call ⟨1, 1⟩ "print" [.call ⟨1, 7⟩ "f" [.literal ⟨1, 9⟩ (.int 1)]])]
    Token.tokenize s₁ >>= parse = .ok p₁ ∧ Token.tokenize s₂ >>= parse = .ok p₂ ∧
      Token.tokenize (s₁ ++ "\n" ++ s₂) >>= parse = .ok (p₁ ++
        [.expr (.call ⟨3, 1⟩ "print" [.call ⟨3, 7⟩ "f" [.literal ⟨3, 9⟩ (.int 1)]])]) := by
  intro s₁ s₂ p₁ p₂
  let ts₁ : List Token := [⟨.ident, .lexeme "f", ⟨1, 1⟩⟩, ⟨.leftParen, .lexeme "(", ⟨1, 2⟩⟩,
    ⟨.ident, .lexeme "x", ⟨1, 3⟩⟩, ⟨.rightParen, .lexeme ")", ⟨1, 4⟩⟩, ⟨.arrow, .lexeme "=>", ⟨1, 6⟩⟩,
    ⟨.ident, .lexeme "x", ⟨1, 9⟩⟩, ⟨.semicolon, .lexeme ";", ⟨1, 10⟩⟩, .eof ⟨2, 5⟩]
  let ts₂ : List Token := [⟨.ident, .lexeme "print", ⟨1, 1⟩⟩, ⟨.leftParen, .lexeme "(", ⟨1, 6⟩⟩,
    ⟨.ident, .lexeme "f", ⟨1, 7⟩⟩, ⟨.leftParen, .lexeme "(", ⟨1, 8⟩⟩, ⟨.int, .int 1, ⟨1, 9⟩⟩,
    ⟨.rightParen, .lexeme ")", ⟨1, 10⟩⟩, ⟨.rightParen, .lexeme ")", ⟨1, 11⟩⟩,
    ⟨.semicolon, .lexeme ";", ⟨1, 12⟩⟩, .eof ⟨1, 15⟩]
  have read₁ : Token.tokenize s₁ = .ok ts₁ := by decide +kernel
  have read₂ : Token.tokenize s₂ = .ok ts₂ := by decide +kernel
  have first : Token.tokenize s₁ >>= parse = .ok p₁ := by
    rw [read₁]
    with_unfolding_all rfl
  have second : Token.tokenize s₂ >>= parse = .ok p₂ := by
    rw [read₂]
    with_unfolding_all rfl
  have lines : 1 + s₁.toList.count '\n' = 2 := by decide
  have joined := parse_joined first second
  rw [lines] at joined
  exact ⟨first, second, joined⟩

end Program

end Abacus
