import Abacus.Number.Integer
import Abacus.SyntaxError
import Abacus.Text.Alphabet

/-!
# Reading tokens from a text

The text is cut into pieces from left to right. A piece is either a token or something between tokens:
a blank, a comment, or a lone `!` or `.`, which mean nothing. The pieces together are the whole text,
so a token's position is the start position moved over the pieces before it.
-/

namespace Abacus.Token.Lexer

open Text (Alphabet)

structure Piece where
  text : List Char
  item : Option (Kind × Payload)
  rest : List Char

def symbol (kind : Kind) (text rest : List Char) : Piece :=
  ⟨text, some (kind, .lexeme (String.ofList text)), rest⟩

def between (text rest : List Char) : Piece := ⟨text, none, rest⟩

def unescape : Char → Char
  | 'n' => '\n'
  | 't' => '\t'
  | c => c

/-- Reads up to the first unescaped `quote` or to the end. `content` and `text` hold, in reverse, the
characters of the string and the characters that spell it. -/
def readString (quote : Char) (content text : List Char) : List Char → Piece
  | [] => ⟨text.reverse, some (.string, .text (String.ofList content.reverse)), []⟩
  | c :: rest =>
    if c = quote then
      ⟨(c :: text).reverse, some (.string, .text (String.ofList content.reverse)), rest⟩
    else if c = '\\' then
      match rest with
      | [] => ⟨(c :: text).reverse, some (.string, .text (String.ofList content.reverse)), []⟩
      | e :: rest => readString quote (unescape e :: content) (e :: c :: text) rest
    else readString quote (c :: content) (c :: text) rest

def digitsValue (digits : List Char) : Nat :=
  digits.foldl (fun n c => n * 10 + (c.toNat - '0'.toNat)) 0

/-- A point belongs to a number unless another point follows it, so `3.` is a number and `1..5` holds
two. -/
def readNumber (source : List Char) : Except SyntaxError.Cause Piece :=
  let whole := source.takeWhile Char.isDigit
  let rest := source.dropWhile Char.isDigit
  let integer : Except SyntaxError.Cause Piece :=
    match Number.integer? (digitsValue whole) with
    | some n => .ok ⟨whole, some (.int, .int n), rest⟩
    | none => .error (.integerTooLarge (String.ofList whole))
  match rest with
  | '.' :: '.' :: _ => integer
  | '.' :: rest =>
    let places := rest.takeWhile Char.isDigit
    let value := Binary64.ofDecimal (digitsValue (whole ++ places)) places.length
    .ok ⟨whole ++ '.' :: places, some (.float, .float value), rest.dropWhile Char.isDigit⟩
  | _ => integer

def wordItem (word : String) : Kind × Payload :=
  if word = "true" then (.bool, .bool true)
  else if word = "false" then (.bool, .bool false)
  else (Kind.ofWord word, .lexeme word)

def readWord [Alphabet] (source : List Char) : Piece :=
  let word := source.takeWhile Alphabet.isContinue
  ⟨word, some (wordItem (String.ofList word)), source.dropWhile Alphabet.isContinue⟩

def pair? : Char → Char → Option Kind
  | '*', '*' => some .starStar
  | '=', '=' => some .equalEqual
  | '=', '>' => some .arrow
  | '!', '=' => some .bangEqual
  | '<', '=' => some .lessEqual
  | '>', '=' => some .greaterEqual
  | '.', '.' => some .dotDot
  | _, _ => none

def single? : Char → Option Kind
  | '(' => some .leftParen
  | ')' => some .rightParen
  | '\x7b' => some .leftBrace
  | '\x7d' => some .rightBrace
  | '[' => some .leftBracket
  | ']' => some .rightBracket
  | ',' => some .comma
  | ':' => some .colon
  | ';' => some .semicolon
  | '?' => some .question
  | '+' => some .plus
  | '-' => some .minus
  | '*' => some .star
  | '/' => some .slash
  | '%' => some .percent
  | '=' => some .equal
  | '<' => some .less
  | '>' => some .greater
  | _ => none

def isFiller : Char → Bool
  | ' ' | '\t' | '\n' | '\r' | '!' | '.' => true
  | _ => false

/-- Cuts off the first piece of a text that starts with `c` and with no symbol of two characters. -/
def nextSingle [Alphabet] (c : Char) (rest : List Char) : Except SyntaxError.Cause Piece :=
  match single? c with
  | some kind => .ok (symbol kind [c] rest)
  | none =>
    if isFiller c then .ok (between [c] rest)
    else if c = '"' ∨ c = '\'' then .ok (readString c [] [c] rest)
    else if c.isDigit then readNumber (c :: rest)
    else if Alphabet.isStart c then .ok (readWord (c :: rest))
    else .error (.unexpectedCharacter c)

def next [Alphabet] (c : Char) (rest : List Char) : Except SyntaxError.Cause Piece :=
  match rest with
  | [] => nextSingle c []
  | d :: rest =>
    if c = '/' ∧ d = '/' then
      .ok (between (c :: d :: rest.takeWhile (· ≠ '\n')) (rest.dropWhile (· ≠ '\n')))
    else
      match pair? c d with
      | some kind => .ok (symbol kind [c, d] rest)
      | none => nextSingle c (d :: rest)

theorem readString_append (quote : Char) (content text source : List Char) :
    (readString quote content text source).text ++ (readString quote content text source).rest
      = text.reverse ++ source := by
  fun_induction readString quote content text source <;> simp_all

theorem readString_text_length (quote : Char) (content text source : List Char) :
    text.length ≤ (readString quote content text source).text.length := by
  fun_induction readString quote content text source <;> simp_all <;> omega

/-- A piece that starts with `c` is not empty, and with what follows it is the text it was cut from. -/
def Piece.Cuts (p : Piece) (source : List Char) : Prop := p.text ≠ [] ∧ p.text ++ p.rest = source

theorem Piece.Cuts.rest_lt {p : Piece} {source : List Char} (h : p.Cuts source) :
    p.rest.length < source.length := by
  obtain ⟨nonempty, rfl⟩ := h
  have := List.length_pos_iff.mpr nonempty
  simp; omega

theorem readNumber_cuts {c : Char} {rest : List Char} {p : Piece} (digit : c.isDigit = true)
    (h : readNumber (c :: rest) = .ok p) : p.Cuts (c :: rest) := by
  have split := List.takeWhile_append_dropWhile (p := Char.isDigit) (l := c :: rest)
  simp only [readNumber] at h
  split at h
  · split at h <;> simp at h
    subst h
    exact ⟨by simp [digit], by simp⟩
  · rename_i places _ eq
    simp at h
    subst h
    refine ⟨by simp, ?_⟩
    rw [eq] at split
    simp only [List.append_assoc, List.cons_append, List.takeWhile_append_dropWhile]
    exact split
  · split at h <;> simp at h
    subst h
    exact ⟨by simp [digit], by simp⟩

section Words

variable [Alphabet]

theorem readWord_cuts {c : Char} {rest : List Char} (more : Alphabet.isContinue c = true) :
    (readWord (c :: rest)).Cuts (c :: rest) :=
  ⟨by simp [readWord, more], by simp [readWord]⟩

theorem nextSingle_cuts {c : Char} {rest : List Char} {p : Piece}
    (h : nextSingle c rest = .ok p) : p.Cuts (c :: rest) := by
  unfold nextSingle at h
  split at h
  · simp at h; subst h; simp [Piece.Cuts, symbol]
  · split at h
    · simp at h; subst h; simp [Piece.Cuts, between]
    · split at h
      · simp at h; subst h
        have := readString_text_length c [] [c] rest
        exact ⟨by intro e; simp [e] at this, by simpa using readString_append c [] [c] rest⟩
      · split at h
        · exact readNumber_cuts ‹_› h
        · split at h
          · simp at h; subst h; exact readWord_cuts (Alphabet.continues ‹_›)
          · simp at h

theorem next_cuts {c : Char} {rest : List Char} {p : Piece} (h : next c rest = .ok p) :
    p.Cuts (c :: rest) := by
  unfold next at h
  split at h
  · exact nextSingle_cuts h
  · split at h
    · simp at h; subst h; simp [Piece.Cuts, between]
    · split at h
      · simp at h; subst h; simp [Piece.Cuts, symbol]
      · exact nextSingle_cuts h

def read (pos : Position) (done : List Token) (source : List Char) :
    Except SyntaxError (List Token) :=
  match source with
  | [] => .ok (Token.eof pos :: done).reverse
  | c :: rest =>
    match h : next c rest with
    | .error cause => .error ⟨cause, pos⟩
    | .ok p =>
      have := (next_cuts h).rest_lt
      match p.item with
      | some (kind, payload) => read (pos.advance p.text) (⟨kind, payload, pos⟩ :: done) p.rest
      | none => read (pos.advance p.text) done p.rest
termination_by source.length
decreasing_by all_goals assumption

end Words

end Abacus.Token.Lexer

namespace Abacus.Token

def tokenize [Text.Alphabet] (source : String) : Except SyntaxError (List Token) :=
  Lexer.read .start [] source.toList

end Abacus.Token
