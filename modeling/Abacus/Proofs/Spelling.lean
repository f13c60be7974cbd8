import Abacus.Proofs.Layout

/-!
# Reading what is spelled

A piece of text that spells a token before some rest is cut off as that token, and skipped text is cut
off as skipped. With the lemmas on the layout of a text this makes the reader exact, piece by piece.
A piece stays what it is when a blank comes to stand where the text ended. Only a string that was not
closed would go on, so it is left out.
-/

namespace Abacus.Token

open Text (Alphabet specials)

/-- The characters that stand between tokens and in no token but a string. -/
def blanks : List Char := [' ', '\t', '\r', '\n']

namespace Lexer

section Runs

variable {class? : Char → Bool} {text rest : List Char}

theorem takeWhile_of_ends (all : ∀ c ∈ text, class? c) (ends : Ends class? rest) :
    (text ++ rest).takeWhile class? = text := by
  rw [List.takeWhile_append_of_pos all]
  cases rest with
  | nil => simp
  | cons c rest =>
    have stops : ¬ class? c := by simp [ends c rfl]
    rw [List.takeWhile_cons_of_neg stops, List.append_nil]

theorem dropWhile_of_ends (all : ∀ c ∈ text, class? c) (ends : Ends class? rest) :
    (text ++ rest).dropWhile class? = rest := by
  rw [List.dropWhile_append_of_pos all]
  cases rest with
  | nil => rfl
  | cons c rest =>
    have stops : ¬ class? c := by simp [ends c rfl]
    rw [List.dropWhile_cons_of_neg stops]

end Runs

section Ordinary

theorem single?_of_not_mem {c : Char} (h : c ∉ specials) : single? c = none := by
  unfold single?
  split
  all_goals first | rfl | exact absurd (by decide) h

theorem isFiller_of_not_mem {c : Char} (h : c ∉ specials) : isFiller c = false := by
  unfold isFiller
  split
  all_goals first | rfl | exact absurd (by decide) h

theorem pair?_of_not_mem {c : Char} (h : c ∉ specials) (d : Char) : pair? c d = none := by
  unfold pair?
  split
  all_goals first | rfl | exact absurd (by decide) h

theorem isDigit_special {c : Char} (h : c ∈ specials) : c.isDigit = false := by
  have all : specials.all (fun c => !c.isDigit) = true := by decide
  simpa using List.all_eq_true.mp all c h

theorem not_mem_of_isDigit {c : Char} (h : c.isDigit) : c ∉ specials := by
  intro mem
  rw [isDigit_special mem] at h
  cases h

theorem lone_of_not_mem {c : Char} (h : c ∉ specials) (rest : List Char) : Lone c rest := by
  intro d _
  refine ⟨pair?_of_not_mem h d, ?_⟩
  intro slashes
  exact h (slashes.1 ▸ by decide)

variable [Alphabet]

theorem next_of_lone {c : Char} {rest : List Char} (lone : Lone c rest) :
    next c rest = nextSingle c rest := by
  cases rest with
  | nil => rfl
  | cons d rest =>
    obtain ⟨pair, slashes⟩ := lone d rfl
    rw [next, if_neg slashes, pair]

theorem nextSingle_of_not_mem {c : Char} (h : c ∉ specials) (rest : List Char) :
    nextSingle c rest =
      if c = '"' ∨ c = '\'' then .ok (readString c [] [c] rest)
      else if c.isDigit then readNumber (c :: rest)
      else if Alphabet.isStart c then .ok (readWord (c :: rest))
      else .error (.unexpectedCharacter c) := by
  simp [nextSingle, single?_of_not_mem h, isFiller_of_not_mem h]

theorem next_quote {c : Char} (h : c = '"' ∨ c = '\'') (rest : List Char) :
    next c rest = .ok (readString c [] [c] rest) := by
  have free : c ∉ specials := by rcases h with rfl | rfl <;> decide
  rw [next_of_lone (lone_of_not_mem free rest), nextSingle_of_not_mem free, if_pos h]

theorem next_digit {c : Char} (h : c.isDigit) (rest : List Char) :
    next c rest = readNumber (c :: rest) := by
  have free := not_mem_of_isDigit h
  have quote : ¬ (c = '"' ∨ c = '\'') := by
    intro isQuote
    rcases isQuote with rfl | rfl <;> cases h
  rw [next_of_lone (lone_of_not_mem free rest), nextSingle_of_not_mem free, if_neg quote, if_pos h]

theorem next_start {c : Char} (h : Alphabet.isStart c) (rest : List Char) :
    next c rest = .ok (readWord (c :: rest)) := by
  have more := Alphabet.continues h
  have free : c ∉ specials := by
    intro mem
    rw [Alphabet.special mem] at more
    cases more
  have quote : ¬ (c = '"' ∨ c = '\'') := by
    intro isQuote
    rw [Alphabet.quote isQuote] at more
    cases more
  have digit : ¬ c.isDigit := by
    intro isDigit
    rw [Alphabet.digit isDigit] at h
    cases h
  rw [next_of_lone (lone_of_not_mem free rest), nextSingle_of_not_mem free, if_neg quote, if_neg digit,
    if_pos h]

end Ordinary

section Pieces

variable {text rest : List Char} {kind : Kind} {payload : Payload}

theorem wordItem_keyword {word : String} (keyword : kind ∈ Kind.keywords)
    (spelling : kind.spelling? = some word) : wordItem word = (kind, .lexeme word) := by
  simp only [Kind.keywords, List.mem_cons, List.not_mem_nil, or_false] at keyword
  rcases keyword with rfl | rfl | rfl | rfl | rfl | rfl | rfl | rfl | rfl | rfl | rfl | rfl | rfl | rfl
  all_goals
    simp only [Kind.spelling?, Option.some.injEq] at spelling
    subst spelling
    rfl

theorem wordItem_bool {word : String} {b : Bool} (spelling : word = if b then "true" else "false") :
    wordItem word = (.bool, .bool b) := by
  subst spelling
  cases b <;> rfl

theorem wordItem_ident {word : String} (free : ∀ kind ∈ Kind.keywords, kind.spelling? ≠ some word)
    (isTrue : word ≠ "true") (isFalse : word ≠ "false") : wordItem word = (.ident, .lexeme word) := by
  have unfound : Kind.keywords.find? (fun k => k.spelling? == some word) = none := by
    rw [List.find?_eq_none]
    intro kind keyword
    simpa using free kind keyword
  rw [wordItem, if_neg isTrue, if_neg isFalse, Kind.ofWord, unfound]
  rfl

theorem readString_escape {quote : Char} (other : '\\' ≠ quote) (done before : List Char) (c : Char)
    (source : List Char) : readString quote done before ('\\' :: c :: source)
      = readString quote (unescape c :: done) (c :: '\\' :: before) source := by
  rw [readString.eq_def]
  simp only [if_neg other, if_pos]

theorem unescape_other {c : Char} (n : c ≠ 'n') (t : c ≠ 't') : unescape c = c := by
  unfold unescape
  split
  · contradiction
  · contradiction
  · rfl

theorem readString_of_unquotes {quote : Char} (other : '\\' ≠ quote) {content : List Char}
    (unquotes : Unquotes quote text content rest) (done before : List Char) :
    readString quote done before (text ++ rest) =
      ⟨before.reverse ++ text, some (.string, .text (String.ofList (done.reverse ++ content))), rest⟩ := by
  induction unquotes generalizing done before with
  | closed rest =>
    rw [List.singleton_append, readString.eq_def]
    simp
  | unclosed => simp [readString]
  | cut =>
    rw [List.append_nil, readString.eq_def]
    simp [other]
  | newline _ ih | tab _ ih =>
    rw [List.cons_append, List.cons_append, readString_escape other, ih]
    simp [unescape]
  | escaped n t _ ih =>
    rw [List.cons_append, List.cons_append, readString_escape other, ih, unescape_other n t]
    simp
  | plain isOther plain _ ih =>
    rw [List.cons_append, readString.eq_def]
    simp only [if_neg isOther, if_neg plain]
    rw [ih]
    simp

variable [Alphabet]

/-- The piece is what is cut off where it stands. -/
def Piece.CutOff (p : Piece) : Prop := ∃ c more, p.text = c :: more ∧ next c (more ++ p.rest) = .ok p

theorem cutOff_symbol (symbol : kind ∉ Kind.keywords)
    (spelling : kind.spelling? = some (String.ofList text))
    (longest : ∀ c ∈ rest.head?, ∀ longer ∉ Kind.keywords,
      longer.spelling? ≠ some (String.ofList (text ++ [c])))
    (comment : text = ['/'] → rest.head? ≠ some '/') :
    Piece.CutOff ⟨text, some (kind, .lexeme (String.ofList text)), rest⟩ := by
  obtain ⟨c, rfl, single⟩ | ⟨c, d, rfl, pair⟩ := spelling_symbol symbol spelling
  · have lone : Lone c rest := by
      intro d head
      constructor
      · cases pair : pair? c d with
        | none => rfl
        | some longer =>
          obtain ⟨symbol', spelling'⟩ := pair?_spelling pair
          exact absurd spelling' (longest d head longer symbol')
      · intro slashes
        rw [slashes.2] at head
        exact comment (by rw [slashes.1]) head
    refine ⟨c, [], rfl, ?_⟩
    rw [List.nil_append, next_of_lone lone, nextSingle, single]
    rfl
  · have slashes : ¬ (c = '/' ∧ d = '/') := by
      intro slashes
      rw [slashes.1, slashes.2] at pair
      cases pair
    refine ⟨c, [d], rfl, ?_⟩
    rw [List.cons_append, List.nil_append, next, if_neg slashes, pair]
    rfl

theorem cutOff_word (word : Word text rest) (item : wordItem (String.ofList text) = (kind, payload)) :
    Piece.CutOff ⟨text, some (kind, payload), rest⟩ := by
  obtain ⟨c, head, start⟩ := word.starts
  obtain ⟨more, rfl⟩ : ∃ more, text = c :: more := ⟨_, List.eq_cons_of_mem_head? head⟩
  refine ⟨c, more, rfl, ?_⟩
  rw [next_start start, readWord, ← List.cons_append, takeWhile_of_ends word.continues word.ends,
    dropWhile_of_ends word.continues word.ends, item]

theorem cutOff_int {n : Int64} (digits : Digits text) (ends : Ends Char.isDigit rest)
    (whole : ¬ StartsFraction rest) (value : n.toInt = decimal text) :
    Piece.CutOff ⟨text, some (.int, .int n), rest⟩ := by
  obtain ⟨c, more, rfl⟩ := List.exists_cons_of_ne_nil digits.nonempty
  have taken := takeWhile_of_ends digits.digits ends
  have dropped := dropWhile_of_ends digits.digits ends
  refine ⟨c, more, rfl, ?_⟩
  rw [next_digit (digits.digits c List.mem_cons_self), ← List.cons_append,
    readNumber_of_integer (by rwa [dropped]), taken, dropped, digitsValue_eq_decimal, ← value,
    Number.integer?_toInt]

theorem cutOff_float {whole places : List Char} (digits : Digits whole)
    (more : ∀ c ∈ places, c.isDigit) (ends : Ends Char.isDigit rest)
    (point : StartsFraction ('.' :: places ++ rest)) :
    Piece.CutOff ⟨whole ++ '.' :: places, some (.float, .float
      (Binary64.ofDecimal (decimal (whole ++ places)) places.length)), rest⟩ := by
  obtain ⟨c, wholes, rfl⟩ := List.exists_cons_of_ne_nil digits.nonempty
  have stop : Ends Char.isDigit ('.' :: (places ++ rest)) := by
    intro d head
    cases head
    rfl
  have taken := takeWhile_of_ends digits.digits stop
  have dropped := dropWhile_of_ends digits.digits stop
  have single : (places ++ rest).head? ≠ some '.' := by
    obtain ⟨after, eq, single⟩ := point
    rw [List.cons_append, List.cons.injEq] at eq
    rwa [eq.2]
  refine ⟨c, wholes ++ '.' :: places, rfl, ?_⟩
  rw [next_digit (digits.digits c List.mem_cons_self), List.append_assoc, List.cons_append,
    ← List.cons_append, readNumber_of_fraction dropped single, taken, takeWhile_of_ends more ends,
    dropWhile_of_ends more ends, digitsValue_eq_decimal]

theorem cutOff_string {quote : Char} (isQuote : quote = '"' ∨ quote = '\'') {content : List Char}
    (unquotes : Unquotes quote text content rest) :
    Piece.CutOff ⟨quote :: text, some (.string, .text (String.ofList content)), rest⟩ := by
  have other : '\\' ≠ quote := by rcases isQuote with rfl | rfl <;> decide
  refine ⟨quote, text, rfl, ?_⟩
  rw [next_quote isQuote, readString_of_unquotes other unquotes]
  rfl

theorem cutOff_spelled (spelled : Spelled text kind payload rest) :
    Piece.CutOff ⟨text, some (kind, payload), rest⟩ := by
  cases spelled with
  | symbol symbol spelling longest comment => exact cutOff_symbol symbol spelling longest comment
  | keyword word keyword spelling => exact cutOff_word word (wordItem_keyword keyword spelling)
  | bool b word spelling => exact cutOff_word word (wordItem_bool spelling)
  | ident word free isTrue isFalse => exact cutOff_word word (wordItem_ident free isTrue isFalse)
  | int digits ends whole value => exact cutOff_int digits ends whole value
  | float digits more ends point => exact cutOff_float digits more ends point
  | string isQuote unquotes => exact cutOff_string isQuote unquotes

theorem cutOff_filler {c : Char} (lone : Lone c rest) (single : single? c = none)
    (filler : isFiller c) : Piece.CutOff ⟨[c], none, rest⟩ := by
  refine ⟨c, [], rfl, ?_⟩
  rw [List.nil_append, next_of_lone lone, nextSingle, single]
  exact if_pos filler

theorem cutOff_skipped (skipped : Skipped text rest) : Piece.CutOff ⟨text, none, rest⟩ := by
  cases skipped with
  | @blank c _ blank =>
    simp only [List.mem_cons, List.not_mem_nil, or_false] at blank
    rcases blank with rfl | rfl | rfl | rfl
    all_goals exact cutOff_filler (fun d _ => ⟨rfl, by simp⟩) rfl rfl
  | @comment body _ line ends =>
    have all : ∀ c ∈ body, decide (c ≠ '\n') := by
      intro c mem
      have other : c ≠ '\n' := fun newline => line (newline ▸ mem)
      simpa using other
    have stop : Ends (fun c => decide (c ≠ '\n')) rest := by
      intro c head
      simpa using ends c head
    refine ⟨'/', '/' :: body, rfl, ?_⟩
    rw [List.cons_append, next, if_pos ⟨rfl, rfl⟩, takeWhile_of_ends all stop,
      dropWhile_of_ends all stop]
    rfl
  | bang single =>
    refine cutOff_filler (fun d head => ⟨?_, by simp⟩) rfl rfl
    have other : d ≠ '=' := fun equal => single (equal ▸ head)
    unfold pair?
    split
    all_goals first | rfl | contradiction
  | point single =>
    refine cutOff_filler (fun d head => ⟨?_, by simp⟩) rfl rfl
    have other : d ≠ '.' := fun point => single (point ▸ head)
    unfold pair?
    split
    all_goals first | rfl | contradiction

theorem Piece.Reads.cutOff {p : Piece} (reads : p.Reads) : p.CutOff := by
  obtain ⟨text, item, rest⟩ := p
  cases item with
  | some item => exact cutOff_spelled reads
  | none => exact cutOff_skipped reads

theorem read_piece {p : Piece} (reads : p.Reads) (pos : Position) (done : List Token) :
    read pos done (p.text ++ p.rest) =
      match p.item with
      | some (kind, payload) => read (pos.advance p.text) (⟨kind, payload, pos⟩ :: done) p.rest
      | none => read (pos.advance p.text) done p.rest := by
  obtain ⟨c, more, eq, cut⟩ := reads.cutOff
  have whole : p.text ++ p.rest = c :: (more ++ p.rest) := by rw [eq, List.cons_append]
  rw [whole, read.eq_def]
  dsimp only
  split
  · rename_i failed
    rw [cut] at failed
    cases failed
  · rename_i ok
    rw [cut] at ok
    cases ok
    rfl

theorem read_spelled (spelled : Spelled text kind payload rest) (pos : Position) (done : List Token) :
    read pos done (text ++ rest) = read (pos.advance text) (⟨kind, payload, pos⟩ :: done) rest := by
  have reads : Piece.Reads ⟨text, some (kind, payload), rest⟩ := spelled
  exact read_piece reads pos done

theorem read_skipped (skipped : Skipped text rest) (pos : Position) (done : List Token) :
    read pos done (text ++ rest) = read (pos.advance text) done rest := by
  have reads : Piece.Reads ⟨text, none, rest⟩ := skipped
  exact read_piece reads pos done

theorem read_gap (gap : Gap text rest) (pos : Position) (done : List Token) :
    read pos done (text ++ rest) = read (pos.advance text) done rest := by
  induction gap generalizing pos with
  | nil rest => rfl
  | cons skipped _ ih =>
    rw [List.append_assoc, read_skipped skipped, ih, Position.advance_append]

end Pieces

end Lexer

section Blanks

variable {text rest more : List Char} {kind : Kind} {payload : Payload}

def Clear (rest : List Char) : Prop := ∀ c ∈ rest.head?, c ∈ blanks

theorem head?_append_of_clear (clear : Clear more) {c : Char} (h : c ∉ blanks) :
    (rest ++ more).head? = some c ↔ rest.head? = some c := by
  cases rest with
  | nil =>
    refine ⟨fun head => absurd (clear c head) h, fun none => ?_⟩
    cases none
  | cons d rest => rfl

theorem Ends.append {class? : Char → Bool} (ends : Ends class? rest) (clear : Clear more)
    (free : ∀ b ∈ blanks, class? b = false) : Ends class? (rest ++ more) := by
  intro c head
  cases rest with
  | nil => exact free c (clear c head)
  | cons d rest => exact ends c head

theorem startsFraction_append (clear : Clear more) :
    StartsFraction (rest ++ more) ↔ StartsFraction rest := by
  have point : '.' ∉ blanks := by decide
  cases rest with
  | nil =>
    constructor
    · intro fraction
      obtain ⟨after, eq, -⟩ := fraction
      rw [List.nil_append] at eq
      exact absurd (clear '.' (by rw [eq]; rfl)) point
    · intro fraction
      obtain ⟨after, eq, -⟩ := fraction
      cases eq
  | cons c rest =>
    have single : (rest ++ more).head? ≠ some '.' ↔ rest.head? ≠ some '.' :=
      not_congr (head?_append_of_clear clear point)
    constructor
    · intro fraction
      obtain ⟨after, eq, other⟩ := fraction
      rw [List.cons_append, List.cons.injEq] at eq
      rw [← eq.2] at other
      exact ⟨rest, by rw [eq.1], single.mp other⟩
    · intro fraction
      obtain ⟨after, eq, other⟩ := fraction
      rw [List.cons.injEq] at eq
      rw [← eq.2] at other
      exact ⟨rest ++ more, by rw [eq.1, List.cons_append], single.mpr other⟩

theorem single?_blank {b : Char} (blank : b ∈ blanks) : Lexer.single? b = none := by
  simp only [blanks, List.mem_cons, List.not_mem_nil, or_false] at blank
  rcases blank with rfl | rfl | rfl | rfl <;> rfl

theorem pair?_blank {b : Char} (blank : b ∈ blanks) (c : Char) : Lexer.pair? c b = none := by
  unfold Lexer.pair?
  split
  all_goals first | rfl | exact absurd blank (by decide)

theorem spelling_blank {b : Char} (blank : b ∈ blanks) (symbol : kind ∉ Kind.keywords) :
    kind.spelling? ≠ some (String.ofList (text ++ [b])) := by
  intro spelling
  obtain ⟨c, eq, single⟩ | ⟨c, d, eq, pair⟩ := Lexer.spelling_symbol symbol spelling
  · have last : b = c := by simpa using congrArg List.getLast? eq
    rw [← last, single?_blank blank] at single
    cases single
  · have last : b = d := by simpa using congrArg List.getLast? eq
    rw [← last, pair?_blank blank] at pair
    cases pair

theorem blank_special {b : Char} (blank : b ∈ blanks) : b ∈ specials := by
  simp only [blanks, List.mem_cons, List.not_mem_nil, or_false] at blank
  rcases blank with rfl | rfl | rfl | rfl <;> decide

theorem isDigit_blank (b : Char) (blank : b ∈ blanks) : b.isDigit = false :=
  Lexer.isDigit_special (blank_special blank)

/-- A string that does not reach to the end of the text has been closed. -/
theorem Unquotes.append {quote : Char} {content : List Char} (unquotes : Unquotes quote text content rest)
    (closed : rest ≠ []) (more : List Char) : Unquotes quote text content (rest ++ more) := by
  induction unquotes with
  | closed rest => exact .closed (rest ++ more)
  | unclosed => exact absurd rfl closed
  | cut => exact absurd rfl closed
  | newline _ ih => exact .newline (ih closed)
  | tab _ ih => exact .tab (ih closed)
  | escaped n t _ ih => exact .escaped n t (ih closed)
  | plain other plain _ ih => exact .plain other plain (ih closed)

theorem Skipped.append_newline (skipped : Skipped text rest) (more : List Char) :
    Skipped text (rest ++ '\n' :: more) := by
  have clear : Clear ('\n' :: more) := by
    intro c head
    cases head
    decide
  cases skipped with
  | blank _ blank => exact .blank _ blank
  | comment line ends =>
    refine .comment line ?_
    intro c head
    cases rest with
    | nil => exact (Option.some.inj head).symm
    | cons d rest => exact ends c head
  | bang single => exact .bang (mt (head?_append_of_clear clear (by decide)).mp single)
  | point single => exact .point (mt (head?_append_of_clear clear (by decide)).mp single)

variable [Alphabet]

theorem Word.append (word : Word text rest) (clear : Clear more) : Word text (rest ++ more) :=
  ⟨word.starts, word.continues, word.ends.append clear fun _ blank => Alphabet.special (blank_special blank)⟩

theorem Spelled.append (spelled : Spelled text kind payload rest) (clear : Clear more)
    (closed : kind = .string → rest ≠ []) : Spelled text kind payload (rest ++ more) := by
  cases spelled with
  | symbol symbol spelling longest comment =>
    refine .symbol symbol spelling ?_ ?_
    · intro c head longer symbol'
      cases rest with
      | nil => exact spelling_blank (clear c head) symbol'
      | cons d rest => exact longest c head longer symbol'
    · intro slash head
      exact comment slash ((head?_append_of_clear clear (by decide)).mp head)
  | keyword word keyword spelling => exact .keyword (word.append clear) keyword spelling
  | bool b word spelling => exact .bool b (word.append clear) spelling
  | ident word free isTrue isFalse => exact .ident (word.append clear) free isTrue isFalse
  | int digits ends whole value =>
    exact .int digits (ends.append clear isDigit_blank) (mt (startsFraction_append clear).mp whole) value
  | @float whole places _ digits more' ends point =>
    refine .float digits more' (ends.append clear isDigit_blank) ?_
    rw [← List.append_assoc]
    exact (startsFraction_append clear).mpr point
  | string isQuote unquotes => exact .string isQuote (unquotes.append (closed rfl) more)

end Blanks

end Abacus.Token
