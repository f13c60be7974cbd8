import Abacus.Proofs.Printer
import Abacus.Proofs.Spelling

/-!
# Writing tokens as text

A lexeme is one way to write a token, and it holds what makes it one: a word that is not taken, a
number that fits, a string with what has to be escaped in it. A script sets lexemes apart by blanks
and comments. The main result says that the tokens of a script are those of its lexemes.
-/

namespace Abacus.Token

open Text (Alphabet)

inductive Quote where
  | double | single

def Quote.char : Quote → Char
  | double => '"'
  | single => '\''

def Quote.escape (q : Quote) (c : Char) : List Char :=
  if c = '\\' ∨ c = q.char then ['\\', c] else [c]

inductive Lexeme [Alphabet] where
  | ident (first : Char) (more : List Char) (starts : Alphabet.isStart first)
      (continues : ∀ c ∈ more, Alphabet.isContinue c)
      (free : ∀ kind ∈ Kind.keywords, kind.spelling? ≠ some (String.ofList (first :: more)))
      (notTrue : String.ofList (first :: more) ≠ "true")
      (notFalse : String.ofList (first :: more) ≠ "false")
  | fixed (kind : Kind) (spelling : String) (spells : kind.spelling? = some spelling)
  | bool (b : Bool)
  /-- An integer in decimal, with any number of leading zeros. -/
  | int (digits : List Char) (isDigits : Digits digits) (fits : decimal digits < 2 ^ 63)
  | float (whole places : List Char) (isWhole : Digits whole) (isPlaces : ∀ c ∈ places, c.isDigit)
  | string (quote : Quote) (content : String)

namespace Lexeme

variable [Alphabet]

def text : Lexeme → List Char
  | ident first more .. => first :: more
  | fixed _ spelling _ => spelling.toList
  | bool b => (if b then "true" else "false").toList
  | int digits .. => digits
  | float whole places .. => whole ++ '.' :: places
  | string quote content => quote.char :: (content.toList.flatMap quote.escape ++ [quote.char])

def item : Lexeme → Kind × Payload
  | ident first more .. => (.ident, .lexeme (String.ofList (first :: more)))
  | fixed kind spelling _ => (kind, .lexeme spelling)
  | bool b => (.bool, .bool b)
  | int digits .. => (.int, .int (Int64.ofNat (decimal digits)))
  | float whole places .. =>
    (.float, .float (Binary64.ofDecimal (decimal (whole ++ places)) places.length))
  | string _ content => (.string, .text content)

end Lexeme

inductive Filler where
  | blank (c : Char) (isBlank : c ∈ blanks)
  | comment (body : List Char) (line : '\n' ∉ body)

def Filler.text : Filler → List Char
  | blank c _ => [c]
  | comment body _ => '/' :: '/' :: (body ++ ['\n'])

structure Separator where
  first : Char
  isBlank : first ∈ blanks
  more : List Filler

def Separator.text (s : Separator) : List Char := s.first :: s.more.flatMap Filler.text

/-- Lexemes and separators in turn, which start and end with either. -/
structure Script [Alphabet] where
  lead : Option Separator
  body : List (Lexeme × Separator)
  last : Option Lexeme

namespace Script

variable [Alphabet]

def text (s : Script) : List Char :=
  s.lead.elim [] Separator.text ++
    (s.body.flatMap (fun part => part.1.text ++ part.2.text) ++ s.last.elim [] Lexeme.text)

def lexemes (s : Script) : List Lexeme := s.body.map Prod.fst ++ s.last.toList

end Script

theorem unquotes_escape (quote : Quote) (content rest : List Char) :
    Unquotes quote.char (content.flatMap quote.escape ++ [quote.char]) content rest := by
  induction content with
  | nil => exact .closed rest
  | cons c content ih =>
    rw [List.flatMap_cons, List.append_assoc]
    by_cases special : c = '\\' ∨ c = quote.char
    · -- neither a backslash nor a quote is a letter of an escape
      have letters : c ≠ 'n' ∧ c ≠ 't' := by
        rcases special with rfl | rfl
        · decide
        · cases quote <;> decide
      rw [Quote.escape, if_pos special]
      exact .escaped letters.1 letters.2 ih
    · rw [Quote.escape, if_neg special]
      exact .plain (mt .inr special) (mt .inl special) ih

section Words

variable [Alphabet]

theorem word_alone {first : Char} {more : List Char} (starts : Alphabet.isStart first)
    (continues : ∀ c ∈ more, Alphabet.isContinue c) : Word (first :: more) [] where
  starts := ⟨first, rfl, starts⟩
  continues := by
    intro c mem
    obtain rfl | mem := List.mem_cons.mp mem
    · exact Alphabet.continues starts
    · exact continues c mem
  ends := by
    intro c head
    cases head

theorem word_letters {first : Char} {more : List Char} (letters : (first :: more).all Char.isAlpha) :
    Word (first :: more) [] := by
  rw [List.all_cons, Bool.and_eq_true, List.all_eq_true] at letters
  refine word_alone (Alphabet.letter letters.1) ?_
  intro c mem
  exact Alphabet.continues (Alphabet.letter (letters.2 c mem))

theorem word_keyword {kind : Kind} {spelling : String} (keyword : kind ∈ Kind.keywords)
    (spells : kind.spelling? = some spelling) : Word spelling.toList [] := by
  simp only [Kind.keywords, List.mem_cons, List.not_mem_nil, or_false] at keyword
  rcases keyword with rfl | rfl | rfl | rfl | rfl | rfl | rfl | rfl | rfl | rfl | rfl | rfl | rfl | rfl
  all_goals
    simp only [Kind.spelling?, Option.some.injEq] at spells
    subst spells
    exact word_letters (by decide)

theorem spelled_quoted (quote : Quote) (content : String) (rest : List Char) :
    Spelled (Lexeme.string quote content).text .string (.text content) rest := by
  have isQuote : quote.char = '"' ∨ quote.char = '\'' := by cases quote <;> decide
  have spelled := Spelled.string isQuote (unquotes_escape quote content.toList rest)
  rwa [String.ofList_toList] at spelled

theorem Lexeme.spelled_alone (l : Lexeme) : Spelled l.text l.item.1 l.item.2 [] := by
  cases l with
  | ident first more starts continues free notTrue notFalse =>
    exact .ident (word_alone starts continues) free notTrue notFalse
  | fixed kind spelling spells =>
    obtain ⟨text, rfl⟩ : ∃ text, spelling = String.ofList text := ⟨_, String.ofList_toList.symm⟩
    simp only [Lexeme.text, Lexeme.item, String.toList_ofList]
    by_cases keyword : kind ∈ Kind.keywords
    · have word := word_keyword keyword spells
      rw [String.toList_ofList] at word
      exact .keyword word keyword spells
    · refine .symbol keyword spells ?_ ?_
      · intro c head
        cases head
      · intro _ head
        cases head
  | bool b =>
    refine .bool b ?_ String.ofList_toList
    cases b <;> exact word_letters (by decide)
  | int digits isDigits fits =>
    refine .int isDigits ?_ ?_ ?_
    · intro c head
      cases head
    · intro fraction
      obtain ⟨_, eq, -⟩ := fraction
      cases eq
    · exact Int64.toInt_ofNat_of_lt fits
  | float whole places isWhole isPlaces =>
    refine .float isWhole isPlaces ?_ ?_
    · intro c head
      cases head
    · refine ⟨places, by simp, ?_⟩
      intro head
      exact absurd (isPlaces '.' (List.mem_of_mem_head? head)) (by decide)
  | string quote content => exact spelled_quoted quote content []

theorem Lexeme.spelled (l : Lexeme) {rest : List Char} (clear : Clear rest) :
    Spelled l.text l.item.1 l.item.2 rest := by
  have alone := l.spelled_alone
  cases l with
  | string quote content => exact spelled_quoted quote content rest
  | fixed kind spelling spells =>
    refine alone.append clear ?_
    intro isString
    rw [show kind = .string from isString] at spells
    cases spells
  | ident | bool | int | float =>
    refine alone.append clear ?_
    intro isString
    cases isString

end Words

theorem Filler.gap (f : Filler) (rest : List Char) : Gap f.text rest := by
  cases f with
  | blank c isBlank =>
    have skipped : Skipped [c] ([] ++ rest) := .blank _ isBlank
    exact .cons skipped (.nil rest)
  | comment body line =>
    have newline : Skipped ['\n'] ([] ++ rest) := .blank _ (by decide)
    have comment : Skipped ('/' :: '/' :: body) (['\n'] ++ rest) := by
      refine .comment line ?_
      intro c head
      exact (Option.some.inj head).symm
    exact .cons comment (.cons newline (.nil rest))

theorem Separator.clear (s : Separator) (rest : List Char) : Clear (s.text ++ rest) := by
  intro c head
  cases head
  exact s.isBlank

namespace Lexer

variable [Alphabet]

theorem read_fillers (fillers : List Filler) (pos : Position) (done : List Token) (rest : List Char) :
    read pos done (fillers.flatMap Filler.text ++ rest) =
      read (pos.advance (fillers.flatMap Filler.text)) done rest := by
  induction fillers generalizing pos with
  | nil => rfl
  | cons f fillers ih =>
    rw [List.flatMap_cons, List.append_assoc, read_gap (f.gap _), ih, Position.advance_append]

theorem read_separator (s : Separator) (pos : Position) (done : List Token) (rest : List Char) :
    read pos done (s.text ++ rest) = read (pos.advance s.text) done rest := by
  have first : Skipped [s.first] (s.more.flatMap Filler.text ++ rest) := .blank _ s.isBlank
  have split : s.text = [s.first] ++ s.more.flatMap Filler.text := rfl
  rw [split, List.append_assoc, read_skipped first, read_fillers, Position.advance_append]

/-- The run along a script: what has been read stays, and the lexemes that are left are added to it. -/
theorem read_script (body : List (Lexeme × Separator)) (last : Option Lexeme) (pos : Position)
    (done : List Token) :
    ∃ tokens, read pos done (Script.text ⟨none, body, last⟩) = .ok tokens ∧
      tokens.map Token.item = (done.map Token.item).reverse
        ++ ((Script.lexemes ⟨none, body, last⟩).map Lexeme.item ++ [(.eof, .none)]) := by
  induction body generalizing pos done with
  | nil =>
    cases last with
    | none => exact ⟨_, read.eq_def .., by simp [Script.lexemes, Token.item, Token.eof]⟩
    | some l =>
      have spelled : Spelled l.text l.item.1 l.item.2 [] := l.spelled_alone
      have text : Script.text ⟨none, [], some l⟩ = l.text ++ [] := by simp [Script.text]
      rw [text, read_spelled spelled, read.eq_def]
      exact ⟨_, rfl, by simp [Script.lexemes, Token.item, Token.eof]⟩
  | cons part body ih =>
    obtain ⟨l, s⟩ := part
    have text : Script.text ⟨none, (l, s) :: body, last⟩
        = l.text ++ (s.text ++ Script.text ⟨none, body, last⟩) := by
      simp [Script.text]
    rw [text, read_spelled (l.spelled (s.clear _)), read_separator]
    obtain ⟨tokens, ok, items⟩ := ih ((pos.advance l.text).advance s.text)
      (⟨l.item.1, l.item.2, pos⟩ :: done)
    refine ⟨tokens, ok, ?_⟩
    rw [items]
    simp [Script.lexemes, Token.item]

end Lexer

/-- The tokens of a script are those of its lexemes and one end token. -/
theorem tokenize_script (script : Script) :
    ∃ tokens, tokenize (String.ofList script.text) = .ok tokens ∧
      tokens.map Token.item = script.lexemes.map Lexeme.item ++ [(.eof, .none)] := by
  obtain ⟨lead, body, last⟩ := script
  rw [tokenize, String.toList_ofList]
  cases lead with
  | none => exact Lexer.read_script body last .start []
  | some s =>
    have text : Script.text ⟨some s, body, last⟩ = s.text ++ Script.text ⟨none, body, last⟩ := by
      simp [Script.text]
    rw [text, Lexer.read_separator]
    exact Lexer.read_script body last _ []

end Abacus.Token
