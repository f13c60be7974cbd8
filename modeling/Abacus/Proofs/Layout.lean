import Abacus.Text.Identifier
import Abacus.Token.Lexer
import Mathlib.Data.List.Chain
import Mathlib.Data.List.TakeWhile
import Mathlib.Data.Nat.Digits.Defs

/-!
# The layout of a text

A text is laid out as tokens with skipped text between them. What spells a token and what is skipped
is said here without the reader: by the characters of a piece and the characters that follow it. The
main result says that the tokens of every text are laid out in it from end to end, and that a text
without tokens is laid out up to the position of its error, where no token stands.
-/

namespace Abacus

namespace Position

def after (before : List Char) : Position :=
  ⟨1 + before.count '\n', 1 + (before.reverse.takeWhile (· ≠ '\n')).length⟩

theorem after_concat (before : List Char) (c : Char) :
    after (before ++ [c]) = (after before).step c := by
  by_cases newline : c = '\n'
  · simp [after, step, newline]
    omega
  · simp [after, step, newline]
    omega

theorem advance_start (before : List Char) : start.advance before = after before := by
  induction before using List.reverseRecOn with
  | nil => rfl
  | append_singleton before c ih =>
    rw [advance_append, ih, after_concat]
    rfl

theorem after_append (before text : List Char) :
    after (before ++ text) = (after before).advance text := by
  rw [← advance_start, ← advance_start, advance_append]

end Position

namespace Token

open Text (Alphabet)

def decimal (digits : List Char) : Nat :=
  Nat.ofDigits 10 (digits.reverse.map fun c => c.toNat - '0'.toNat)

def Ends (class? : Char → Bool) (rest : List Char) : Prop := ∀ c ∈ rest.head?, class? c = false

def StartsFraction (rest : List Char) : Prop :=
  ∃ more, rest = '.' :: more ∧ more.head? ≠ some '.'

/-- The text after an opening quote, up to the first unescaped `quote` or to the end of the input, and
the string it writes. -/
inductive Unquotes (quote : Char) : List Char → List Char → List Char → Prop
  | closed (rest) : Unquotes quote [quote] [] rest
  | unclosed : Unquotes quote [] [] []
  | cut : Unquotes quote ['\\'] [] []
  | newline {text content rest} : Unquotes quote text content rest →
      Unquotes quote ('\\' :: 'n' :: text) ('\n' :: content) rest
  | tab {text content rest} : Unquotes quote text content rest →
      Unquotes quote ('\\' :: 't' :: text) ('\t' :: content) rest
  | escaped {c text content rest} : c ≠ 'n' → c ≠ 't' → Unquotes quote text content rest →
      Unquotes quote ('\\' :: c :: text) (c :: content) rest
  | plain {c text content rest} : c ≠ quote → c ≠ '\\' → Unquotes quote text content rest →
      Unquotes quote (c :: text) (c :: content) rest

structure Word [Alphabet] (text rest : List Char) : Prop where
  starts : ∃ c ∈ text.head?, Alphabet.isStart c
  continues : ∀ c ∈ text, Alphabet.isContinue c
  ends : Ends Alphabet.isContinue rest

structure Digits (text : List Char) : Prop where
  nonempty : text ≠ []
  digits : ∀ c ∈ text, c.isDigit

/-- `text`, followed by `rest`, spells a token of the kind with the payload. -/
inductive Spelled [Alphabet] : List Char → Kind → Payload → List Char → Prop
  | symbol {text rest kind} : kind ∉ Kind.keywords → kind.spelling? = some (String.ofList text) →
      (∀ c ∈ rest.head?, ∀ longer ∉ Kind.keywords,
        longer.spelling? ≠ some (String.ofList (text ++ [c]))) →
      (text = ['/'] → rest.head? ≠ some '/') →
      Spelled text kind (.lexeme (String.ofList text)) rest
  | keyword {text rest kind} : Word text rest → kind ∈ Kind.keywords →
      kind.spelling? = some (String.ofList text) →
      Spelled text kind (.lexeme (String.ofList text)) rest
  | bool {text rest} (b : Bool) : Word text rest → String.ofList text = (if b then "true" else "false") →
      Spelled text .bool (.bool b) rest
  | ident {text rest} : Word text rest →
      (∀ kind ∈ Kind.keywords, kind.spelling? ≠ some (String.ofList text)) →
      String.ofList text ≠ "true" → String.ofList text ≠ "false" →
      Spelled text .ident (.lexeme (String.ofList text)) rest
  | int {text rest} {n : Int64} : Digits text → Ends Char.isDigit rest → ¬ StartsFraction rest →
      n.toInt = decimal text → Spelled text .int (.int n) rest
  | float {whole places rest} : Digits whole → (∀ c ∈ places, c.isDigit) → Ends Char.isDigit rest →
      StartsFraction ('.' :: places ++ rest) →
      Spelled (whole ++ '.' :: places) .float
        (.float (Binary64.ofDecimal (decimal (whole ++ places)) places.length)) rest
  | string {quote text content rest} : quote = '"' ∨ quote = '\'' → Unquotes quote text content rest →
      Spelled (quote :: text) .string (.text (String.ofList content)) rest

inductive Skipped : List Char → List Char → Prop
  | blank {c} (rest) : c ∈ [' ', '\t', '\r', '\n'] → Skipped [c] rest
  | comment {body rest} : '\n' ∉ body → (∀ c ∈ rest.head?, c = '\n') → Skipped ('/' :: '/' :: body) rest
  | bang {rest} : rest.head? ≠ some '=' → Skipped ['!'] rest
  | point {rest} : rest.head? ≠ some '.' → Skipped ['.'] rest

inductive Gap : List Char → List Char → Prop
  | nil (rest) : Gap [] rest
  | cons {piece gap rest} : Skipped piece (gap ++ rest) → Gap gap rest → Gap (piece ++ gap) rest

/-- Why no token and no skipped text stands at the start of a text. -/
inductive Refused [Alphabet] : List Char → SyntaxError.Cause → Prop
  | character {c rest} : (∀ text kind payload rest, ¬ Spelled (c :: text) kind payload rest) →
      (∀ text rest, ¬ Skipped (c :: text) rest) → Refused (c :: rest) (.unexpectedCharacter c)
  | integer {digits rest} : Digits digits → Ends Char.isDigit rest → ¬ StartsFraction rest →
      Number.maxInteger < decimal digits →
      Refused (digits ++ rest) (.integerTooLarge (String.ofList digits))

/-- An interval of a text, by the number of code points before its ends. -/
structure Span where
  start : Nat
  stop : Nat

def Span.text (source : List Char) (s : Span) : List Char := (source.take s.stop).drop s.start

def Span.Follows (source : List Char) (s t : Span) : Prop :=
  s.stop ≤ t.start ∧ Gap (Span.text source ⟨s.stop, t.start⟩) (source.drop t.start)

structure Stands [Alphabet] (source : List Char) (span : Span) (token : Token) : Prop where
  nonempty : span.start < span.stop
  placed : token.pos = .after (source.take span.start)
  spelled : Spelled (span.text source) token.kind token.payload (source.drop span.stop)

/-- The tokens that stand in the first `reached` code points of a text, each with its interval. -/
structure Laid [Alphabet] (source : List Char) (cells : List (Span × Token)) (reached : Nat) : Prop where
  stands : ∀ cell ∈ cells, Stands source cell.1 cell.2
  gaps : List.IsChain (Span.Follows source) (⟨0, 0⟩ :: cells.map Prod.fst ++ [⟨reached, reached⟩])

theorem ends_dropWhile (class? : Char → Bool) (source : List Char) :
    Ends class? (source.dropWhile class?) := by
  intro c head
  have stopped := List.head?_dropWhile_not class? source
  rw [Option.mem_def.mp head] at stopped
  exact stopped

namespace Lexer

theorem digitsValue_eq_decimal (digits : List Char) : digitsValue digits = decimal digits := by
  induction digits using List.reverseRecOn with
  | nil => rfl
  | append_singleton digits c ih =>
    have value : digitsValue (digits ++ [c]) = digitsValue digits * 10 + (c.toNat - '0'.toNat) := by
      simp [digitsValue]
    rw [value, ih]
    simp [decimal, Nat.ofDigits_cons]
    omega

theorem unquotes_unescape {quote : Char} {text content rest : List Char} (c : Char)
    (unquotes : Unquotes quote text content rest) :
    Unquotes quote ('\\' :: c :: text) (unescape c :: content) rest := by
  unfold unescape
  split
  · exact .newline unquotes
  · exact .tab unquotes
  · exact .escaped ‹_› ‹_› unquotes

theorem readString_unquotes (quote : Char) (content text source : List Char) :
    ∃ more added, readString quote content text source
        = ⟨text.reverse ++ more, some (.string, .text (String.ofList (content.reverse ++ added))),
          (readString quote content text source).rest⟩
      ∧ Unquotes quote more added (readString quote content text source).rest := by
  fun_induction readString quote content text source with
  | case1 content text => exact ⟨[], [], by simp, .unclosed⟩
  | case2 content text rest => exact ⟨[quote], [], by simp, .closed rest⟩
  | case3 content text other => exact ⟨['\\'], [], by simp, .cut⟩
  | case4 content text e rest other ih =>
    obtain ⟨more, added, read, unquotes⟩ := ih
    refine ⟨'\\' :: e :: more, unescape e :: added, ?_, ?_⟩
    · rw [read]; simp
    · exact unquotes_unescape e unquotes
  | case5 content text c rest other plain ih =>
    obtain ⟨more, added, read, unquotes⟩ := ih
    refine ⟨c :: more, c :: added, ?_, .plain other plain unquotes⟩
    rw [read]; simp

theorem readNumber_of_fraction {source more : List Char}
    (point : source.dropWhile Char.isDigit = '.' :: more) (single : more.head? ≠ some '.') :
    readNumber source = .ok ⟨source.takeWhile Char.isDigit ++ '.' :: more.takeWhile Char.isDigit,
      some (.float, .float (Binary64.ofDecimal
        (digitsValue (source.takeWhile Char.isDigit ++ more.takeWhile Char.isDigit))
        (more.takeWhile Char.isDigit).length)), more.dropWhile Char.isDigit⟩ := by
  simp only [readNumber, point]
  cases more with
  | nil => rfl
  | cons c more =>
    split
    · simp_all
    · simp_all
    · simp_all

theorem readNumber_of_integer {source : List Char}
    (whole : ¬ StartsFraction (source.dropWhile Char.isDigit)) :
    readNumber source =
      match Number.integer? (digitsValue (source.takeWhile Char.isDigit)) with
      | some n => .ok ⟨source.takeWhile Char.isDigit, some (.int, .int n), source.dropWhile Char.isDigit⟩
      | none => .error (.integerTooLarge (String.ofList (source.takeWhile Char.isDigit))) := by
  simp only [readNumber]
  split
  · rfl
  · rename_i more notTwo point
    exact absurd ⟨more, point, fun two => by cases more <;> simp_all⟩ whole
  · rfl

theorem digits_takeWhile {c : Char} {rest : List Char} (digit : c.isDigit) :
    Digits ((c :: rest).takeWhile Char.isDigit) :=
  ⟨by simp [digit], fun _ => List.mem_takeWhile_imp⟩

def Lone (c : Char) (rest : List Char) : Prop :=
  ∀ d ∈ rest.head?, pair? c d = none ∧ ¬ (c = '/' ∧ d = '/')

theorem single?_spelling {c : Char} {kind : Kind} (h : single? c = some kind) :
    kind ∉ Kind.keywords ∧ kind.spelling? = some (String.ofList [c]) := by
  unfold single? at h
  split at h <;> cases h <;> decide

theorem pair?_spelling {c d : Char} {kind : Kind} (h : pair? c d = some kind) :
    kind ∉ Kind.keywords ∧ kind.spelling? = some (String.ofList [c, d]) := by
  unfold pair? at h
  split at h <;> cases h <;> decide

theorem spelling_symbol {kind : Kind} {text : List Char} (symbol : kind ∉ Kind.keywords)
    (spelling : kind.spelling? = some (String.ofList text)) :
    (∃ c, text = [c] ∧ single? c = some kind) ∨ ∃ c d, text = [c, d] ∧ pair? c d = some kind := by
  have letters : kind.spelling?.map String.toList = some text := by
    rw [spelling]
    simp
  cases kind <;> simp [Kind.keywords, Kind.spelling?] at symbol letters <;> subst letters <;>
    first | exact .inl ⟨_, rfl, rfl⟩ | exact .inr ⟨_, _, rfl, rfl⟩

theorem spelling_pair_of_none {c d : Char} {kind : Kind} (symbol : kind ∉ Kind.keywords)
    (none : pair? c d = none) : kind.spelling? ≠ some (String.ofList [c, d]) := by
  intro spelling
  obtain ⟨c', single, -⟩ | ⟨c', d', pair, some⟩ := spelling_symbol symbol spelling
  · cases single
  · cases pair
    rw [none] at some
    cases some

theorem skipped_of_isFiller {c : Char} {rest : List Char} (lone : Lone c rest)
    (filler : isFiller c) : Skipped [c] rest := by
  unfold isFiller at filler
  split at filler
  · exact .blank rest (by decide)
  · exact .blank rest (by decide)
  · exact .blank rest (by decide)
  · exact .blank rest (by decide)
  · refine .bang fun equal => ?_
    exact absurd (lone '=' equal).1 (by decide)
  · refine .point fun point => ?_
    exact absurd (lone '.' point).1 (by decide)
  · cases filler

section Reading

variable [Alphabet]

def Piece.Reads (p : Piece) : Prop :=
  match p.item with
  | some (kind, payload) => Spelled p.text kind payload p.rest
  | none => Skipped p.text p.rest

theorem readString_reads {quote : Char} (isQuote : quote = '"' ∨ quote = '\'') (source : List Char) :
    (readString quote [] [quote] source).Reads := by
  obtain ⟨more, added, read, unquotes⟩ := readString_unquotes quote [] [quote] source
  rw [read]
  exact .string isQuote unquotes

theorem readNumber_reads {c : Char} {rest : List Char} {p : Piece} (digit : c.isDigit)
    (h : readNumber (c :: rest) = .ok p) : p.Reads := by
  by_cases fraction : StartsFraction ((c :: rest).dropWhile Char.isDigit)
  · obtain ⟨more, point, single⟩ := fraction
    rw [readNumber_of_fraction point single, digitsValue_eq_decimal] at h
    cases h
    refine .float (digits_takeWhile digit) (fun _ => List.mem_takeWhile_imp) (ends_dropWhile _ _) ?_
    exact ⟨more, by simp, single⟩
  · rw [readNumber_of_integer fraction] at h
    split at h
    · rename_i n value
      cases h
      have exact := Number.toInt_of_integer? value
      rw [digitsValue_eq_decimal] at exact
      exact .int (digits_takeWhile digit) (ends_dropWhile _ _) fraction exact
    · cases h

theorem readNumber_refused {c : Char} {rest : List Char} {cause : SyntaxError.Cause}
    (digit : c.isDigit) (h : readNumber (c :: rest) = .error cause) : Refused (c :: rest) cause := by
  have split := List.takeWhile_append_dropWhile (p := Char.isDigit) (l := c :: rest)
  by_cases fraction : StartsFraction ((c :: rest).dropWhile Char.isDigit)
  · obtain ⟨more, point, single⟩ := fraction
    rw [readNumber_of_fraction point single] at h
    cases h
  · rw [readNumber_of_integer fraction] at h
    split at h
    · cases h
    · rename_i outside
      cases h
      rw [Number.integer?_eq_none_iff, digitsValue_eq_decimal] at outside
      have large : Number.maxInteger < decimal ((c :: rest).takeWhile Char.isDigit) := by
        have low : Number.minInteger ≤ 0 := by decide
        omega
      have refused := Refused.integer (digits_takeWhile digit) (ends_dropWhile _ _) fraction large
      rwa [split] at refused

theorem readWord_reads {c : Char} {rest : List Char} (start : Alphabet.isStart c) :
    (readWord (c :: rest)).Reads := by
  have word : Word ((c :: rest).takeWhile Alphabet.isContinue)
      ((c :: rest).dropWhile Alphabet.isContinue) := by
    refine ⟨⟨c, ?_, start⟩, fun _ => List.mem_takeWhile_imp, ends_dropWhile _ _⟩
    simp [Alphabet.continues start]
  simp only [Piece.Reads, readWord, wordItem]
  split_ifs with isTrue isFalse
  · exact .bool true word isTrue
  · exact .bool false word isFalse
  · unfold Kind.ofWord
    cases found : Kind.keywords.find? fun k => k.spelling? == some (String.ofList
        ((c :: rest).takeWhile Alphabet.isContinue)) with
    | some kind =>
      have spelled := List.find?_some found
      exact .keyword word (List.mem_of_find?_eq_some found) (by simpa using spelled)
    | none =>
      have unspelled := List.find?_eq_none.mp found
      refine .ident word (fun kind keyword => ?_) isTrue isFalse
      simpa using unspelled kind keyword

theorem nextSingle_reads {c : Char} {rest : List Char} {p : Piece} (lone : Lone c rest)
    (h : nextSingle c rest = .ok p) : p.Reads := by
  unfold nextSingle at h
  split at h
  · rename_i kind single
    cases h
    obtain ⟨symbol, spelling⟩ := single?_spelling single
    refine .symbol symbol spelling ?_ ?_
    · intro d head longer symbol'
      exact spelling_pair_of_none symbol' (lone d head).1
    · intro slash head
      exact (lone '/' head).2 ⟨List.singleton_inj.mp slash, rfl⟩
  split_ifs at h with filler quote digit start
  · cases h
    exact skipped_of_isFiller lone filler
  · cases h
    exact readString_reads quote rest
  · exact readNumber_reads digit h
  · cases h
    exact readWord_reads start

theorem next_reads {c : Char} {rest : List Char} {p : Piece} (h : next c rest = .ok p) : p.Reads := by
  -- a comment goes before a symbol of two characters, and such a symbol before one of one character
  unfold next at h
  split at h
  · exact nextSingle_reads (by simp [Lone]) h
  rename_i d rest
  split_ifs at h with slashes
  · cases h
    obtain ⟨rfl, rfl⟩ := slashes
    refine .comment ?_ ?_
    · intro newline
      simpa using List.mem_takeWhile_imp newline
    · intro c head
      simpa using ends_dropWhile _ rest c head
  split at h
  · rename_i kind pair
    cases h
    obtain ⟨symbol, spelling⟩ := pair?_spelling pair
    refine .symbol symbol spelling ?_ ?_
    · intro e head longer symbol' spelling'
      obtain ⟨_, short, -⟩ | ⟨_, _, short, -⟩ := spelling_symbol symbol' spelling' <;> cases short
    · intro slash
      cases slash
  · rename_i none
    refine nextSingle_reads (fun e head => ?_) h
    cases head
    exact ⟨none, slashes⟩

def Opens (c : Char) : Prop :=
  (single? c).isSome ∨ isFiller c ∨ (c = '"' ∨ c = '\'') ∨ c.isDigit ∨ Alphabet.isStart c

theorem opens_of_pair? {c d : Char} (pair : (pair? c d).isSome) : Opens c := by
  unfold pair? at pair
  split at pair <;> simp at pair <;> simp [Opens, single?, isFiller]

theorem opens_of_word {c : Char} {text rest : List Char} (word : Word (c :: text) rest) : Opens c := by
  obtain ⟨first, head, start⟩ := word.starts
  cases head
  exact .inr (.inr (.inr (.inr start)))

theorem opens_of_digits {c : Char} {text : List Char} (digits : Digits (c :: text)) : Opens c :=
  .inr (.inr (.inr (.inl (digits.digits c List.mem_cons_self))))

theorem opens_of_spelled {c : Char} {text rest : List Char} {kind : Kind} {payload : Payload}
    (spelled : Spelled (c :: text) kind payload rest) : Opens c := by
  generalize first : c :: text = whole at spelled
  cases spelled with
  | symbol symbol spelling =>
    obtain ⟨c', single, some⟩ | ⟨c', d, pair, some⟩ := spelling_symbol symbol spelling
    · cases first.trans single
      exact .inl (Option.isSome_of_eq_some some)
    · cases first.trans pair
      exact opens_of_pair? (Option.isSome_of_eq_some some)
  | keyword word | bool _ word | ident word =>
    subst first
    exact opens_of_word word
  | int digits =>
    subst first
    exact opens_of_digits digits
  | @float digits places _ whole =>
    cases digits with
    | nil => exact absurd rfl whole.nonempty
    | cons d digits =>
      cases first
      exact opens_of_digits whole
  | string quote =>
    cases first
    exact .inr (.inr (.inl quote))

theorem opens_of_skipped {c : Char} {text rest : List Char} (skipped : Skipped (c :: text) rest) :
    Opens c := by
  cases skipped with
  | blank _ blank =>
    have filler : isFiller c := by
      simp only [List.mem_cons, List.not_mem_nil, or_false] at blank
      rcases blank with rfl | rfl | rfl | rfl <;> rfl
    exact .inr (.inl filler)
  | comment => exact .inl (by decide)
  | bang => exact .inr (.inl (by decide))
  | point => exact .inr (.inl (by decide))

theorem nextSingle_refused {c : Char} {rest : List Char} {cause : SyntaxError.Cause}
    (h : nextSingle c rest = .error cause) : Refused (c :: rest) cause := by
  unfold nextSingle at h
  split at h
  · cases h
  rename_i single
  split_ifs at h with filler quote digit start
  · exact readNumber_refused digit h
  · cases h
    have closed : ¬ Opens c := by simp [Opens, single, filler, quote, digit, start]
    exact .character (fun _ _ _ _ spelled => closed (opens_of_spelled spelled))
      (fun _ _ skipped => closed (opens_of_skipped skipped))

theorem next_refused {c : Char} {rest : List Char} {cause : SyntaxError.Cause}
    (h : next c rest = .error cause) : Refused (c :: rest) cause := by
  unfold next at h
  split at h
  · exact nextSingle_refused h
  split_ifs at h
  split at h
  · cases h
  · exact nextSingle_refused h

end Reading

end Lexer

theorem Spelled.kind_ne_eof [Alphabet] {text rest : List Char} {kind : Kind} {payload : Payload}
    (spelled : Spelled text kind payload rest) : kind ≠ .eof := by
  rintro rfl
  cases spelled with
  | symbol _ spelling => cases spelling
  | keyword _ _ spelling => cases spelling

theorem Gap.concat {gap piece rest : List Char} (h : Gap gap (piece ++ rest))
    (skipped : Skipped piece rest) : Gap (gap ++ piece) rest := by
  -- what follows the gap stays the same in the induction
  generalize following : piece ++ rest = after at h
  induction h with
  | nil =>
    have single : Gap (piece ++ []) rest := .cons skipped (.nil rest)
    simpa using single
  | cons first _ ih =>
    subst following
    rw [List.append_assoc]
    refine .cons ?_ (ih rfl)
    simpa using first

section Steps

variable {source text rest : List Char} {reached : Nat}

theorem take_of_drop_eq (here : source.drop reached = text ++ rest) :
    source.take (reached + text.length) = source.take reached ++ text := by
  rw [List.take_add, here]
  simp

theorem drop_of_drop_eq (here : source.drop reached = text ++ rest) :
    source.drop (reached + text.length) = rest := by
  rw [← List.drop_drop, here]
  simp

theorem length_take_of_drop_eq (here : source.drop reached = text ++ rest) (nonempty : text ≠ []) :
    (source.take reached).length = reached := by
  have length := congrArg List.length here
  have positive := List.length_pos_iff.mpr nonempty
  simp at length ⊢
  omega

theorem Span.text_of_drop_eq (here : source.drop reached = text ++ rest) (nonempty : text ≠ [])
    {start : Nat} (before : start ≤ reached) :
    Span.text source ⟨start, reached + text.length⟩ = Span.text source ⟨start, reached⟩ ++ text := by
  have length := length_take_of_drop_eq here nonempty
  simp only [Span.text, take_of_drop_eq here]
  rw [List.drop_append_of_le_length (by omega)]

theorem Span.text_self (source : List Char) (i : Nat) : Span.text source ⟨i, i⟩ = [] := by
  simp [Span.text]

variable [Alphabet]

theorem stands_of_drop_eq (here : source.drop reached = text ++ rest) (nonempty : text ≠ [])
    {kind : Kind} {payload : Payload} (spelled : Spelled text kind payload rest) :
    Stands source ⟨reached, reached + text.length⟩ ⟨kind, payload, .after (source.take reached)⟩ where
  nonempty := Nat.lt_add_of_pos_right (List.length_pos_iff.mpr nonempty)
  placed := rfl
  spelled := by
    dsimp only
    rw [Span.text_of_drop_eq here nonempty le_rfl, Span.text_self, drop_of_drop_eq here]
    exact spelled

variable {cells : List (Span × Token)}

theorem Laid.skip (laid : Laid source cells reached) (here : source.drop reached = text ++ rest)
    (nonempty : text ≠ []) (skipped : Skipped text rest) :
    Laid source cells (reached + text.length) := by
  obtain ⟨stands, gaps⟩ := laid
  refine ⟨stands, ?_⟩
  -- only the last gap grows
  rw [List.isChain_append] at gaps ⊢
  refine ⟨gaps.1, .singleton _, ?_⟩
  intro last isLast next isNext
  cases isNext
  obtain ⟨order, gap⟩ := gaps.2.2 last isLast _ rfl
  refine ⟨Nat.le_add_right_of_le order, ?_⟩
  rw [Span.text_of_drop_eq here nonempty order, drop_of_drop_eq here]
  rw [here] at gap
  exact gap.concat skipped

theorem Laid.token (laid : Laid source cells reached) (here : source.drop reached = text ++ rest)
    (nonempty : text ≠ []) {kind : Kind} {payload : Payload} (spelled : Spelled text kind payload rest) :
    Laid source
      (cells ++ [(⟨reached, reached + text.length⟩, ⟨kind, payload, .after (source.take reached)⟩)])
      (reached + text.length) := by
  refine ⟨fun cell member => ?_, ?_⟩
  · obtain old | new := List.mem_append.mp member
    · exact laid.stands cell old
    · rw [List.mem_singleton.mp new]
      exact stands_of_drop_eq here nonempty spelled
  · -- the last gap ends where the token starts, and an empty one follows the token
    have gaps := laid.gaps
    rw [List.isChain_append] at gaps
    simp only [List.map_append, List.map_cons, List.map_nil]
    rw [← List.cons_append, List.append_assoc, List.isChain_append]
    refine ⟨gaps.1, ?_, ?_⟩
    · refine .cons_cons ⟨le_rfl, ?_⟩ (.singleton _)
      rw [Span.text_self]
      exact .nil _
    · intro last isLast next isNext
      cases isNext
      exact gaps.2.2 last isLast ⟨reached, reached⟩ rfl

end Steps

section Accounts

variable [Alphabet]

def Accounts (source : List Char) : Except SyntaxError (List Token) → Prop
  | .ok tokens => ∃ cells : List (Span × Token),
      tokens = cells.map Prod.snd ++ [Token.eof (.after source)] ∧
      (∀ cell ∈ cells, cell.2.kind ≠ .eof) ∧ Laid source cells source.length
  | .error e => ∃ cells reached, reached < source.length ∧ e.pos = .after (source.take reached) ∧
      Laid source cells reached ∧ Refused (source.drop reached) e.cause

theorem laid_nil (source : List Char) : Laid source [] 0 where
  stands := by simp
  gaps := .cons_cons ⟨le_rfl, Span.text_self source 0 ▸ .nil _⟩ (.singleton _)

/-- The invariant of the reading loop: what has been read is laid out up to where the rest starts. -/
theorem Lexer.read_accounts {source : List Char} (pos : Position) (done : List Token)
    (rest : List Char) {reached : Nat} {cells : List (Span × Token)}
    (laid : Laid source cells reached) (bound : reached ≤ source.length)
    (here : source.drop reached = rest) (isPos : pos = .after (source.take reached))
    (isDone : done = (cells.map Prod.snd).reverse) : Accounts source (read pos done rest) := by
  have length : source.length - reached = rest.length := by
    rw [← here, List.length_drop]
  fun_induction read pos done rest generalizing reached cells with
  | case1 pos done =>
    have whole : reached = source.length := by
      simp only [List.length_nil] at length
      omega
    subst whole
    refine ⟨cells, ?_, fun cell member => (laid.stands cell member).spelled.kind_ne_eof, laid⟩
    simp [isPos, isDone]
  | case2 pos done c rest cause failed =>
    have inside : reached < source.length := by
      simp only [List.length_cons] at length
      omega
    exact ⟨cells, reached, inside, isPos, laid, here ▸ next_refused failed⟩
  | case3 pos done c rest p cut _ kind payload item ih =>
    obtain ⟨nonempty, whole⟩ := next_cuts cut
    have reads := next_reads cut
    simp only [Piece.Reads, item] at reads
    rw [← whole] at here length
    rw [List.length_append] at length
    refine ih (laid.token here nonempty reads) (by omega) (drop_of_drop_eq here) ?_ ?_ (by omega)
    · rw [take_of_drop_eq here, Position.after_append, isPos]
    · simp [isDone, isPos]
  | case4 pos done c rest p cut _ item ih =>
    obtain ⟨nonempty, whole⟩ := next_cuts cut
    have reads := next_reads cut
    simp only [Piece.Reads, item] at reads
    rw [← whole] at here length
    rw [List.length_append] at length
    refine ih (laid.skip here nonempty reads) (by omega) (drop_of_drop_eq here) ?_ isDone (by omega)
    rw [take_of_drop_eq here, Position.after_append, isPos]

end Accounts

/-- The tokens of a text account for all of it, and the error of a text for all before its position. -/
theorem tokenize_accounts (source : String) : Accounts source.toList (tokenize source) :=
  Lexer.read_accounts .start [] source.toList (laid_nil _) (Nat.zero_le _) rfl rfl rfl

end Token

end Abacus
