import Abacus.Proofs.Spelling
import Abacus.Text.Quoted

/-!
# Quoted texts are read back

A character of a quoted text stands as itself, behind a backslash with a mark of its own, or as its code
point between braces. Each form shows where it ends and which character it stands for, and none starts
with the quote that closes the text. So a quoted text has one reading, and it does not matter which
characters are escaped and which form is chosen, as long as the quote and the backslash never stand as
themselves.
-/

namespace Abacus.Text.Quoted

open Token.Lexer

variable {c d : Char} {cs ds s t : List Char}

section Hexadecimal

def digitValue (c : Char) : Nat := if c.isDigit then c.toNat - 48 else c.toNat - 87

def hexValue (digits : List Char) : Nat := digits.foldl (fun n c => 16 * n + digitValue c) 0

theorem digitValue_digitChar : ∀ n < 16, digitValue n.digitChar = n := by decide

theorem hexValue_toDigits (n : Nat) : hexValue (Nat.toDigits 16 n) = n := by
  induction n using Nat.strong_induction_on with
  | _ n ih =>
    rcases Nat.lt_or_ge n 16 with small | large
    · simp [Nat.toDigits_of_lt_base small, hexValue, digitValue_digitChar n small]
    · have lower := ih (n / 16) (by omega)
      have last := digitValue_digitChar (n % 16) (by omega)
      rw [hexValue] at lower
      rw [Nat.toDigits_of_base_le (by decide) large, hexValue, List.foldl_append, lower]
      simp only [List.foldl_cons, List.foldl_nil, last]
      omega

theorem ne_brace_of_mem_toDigits (n : Nat) : ∀ c ∈ Nat.toDigits 16 n, (c != '\x7d') = true := by
  induction n using Nat.strong_induction_on with
  | _ n ih =>
    rcases Nat.lt_or_ge n 16 with small | large
    · simp [Nat.toDigits_of_lt_base small, Nat.digitChar_ne]
    · rw [Nat.toDigits_of_base_le (by decide) large, List.forall_mem_append]
      exact ⟨ih (n / 16) (by omega), by simp [Nat.digitChar_ne]⟩

end Hexadecimal

section Characters

/-- The characters with a short escape, by the marks that stand for them behind a backslash. -/
def shortEscapes : List (Char × Char) :=
  [('0', '\x00'), ('t', '\t'), ('r', '\r'), ('n', '\n'), ('"', '"'), ('\\', '\\')]

inductive Escaped (c : Char) : List Char → Prop
  | short {mark : Char} : (mark, c) ∈ shortEscapes → Escaped c ['\\', mark]
  | code : Escaped c ('\\' :: 'u' :: '\x7b' :: Nat.toDigits 16 c.toNat ++ ['\x7d'])
  | raw : c ≠ '"' → c ≠ '\\' → Escaped c [c]

theorem escaped_escape (c : Char) : Escaped c (escape c) := by
  fun_cases escape c with
  | case1 | case2 | case3 | case4 | case5 | case6 => exact .short (by decide)
  | case7 => exact .code
  | case8 c _ _ _ _ quote backslash => exact .raw quote backslash

def readEscape : List Char → Option (Char × List Char)
  | 'u' :: s =>
    let digits := (s.drop 1).takeWhile (· != '\x7d')
    some (.ofNat (hexValue digits), ((s.drop 1).dropWhile (· != '\x7d')).drop 1)
  | mark :: s => (shortEscapes.lookup mark).map (·, s)
  | [] => none

/-- The first character of a quoted text whose opening quote was read, and what follows its form. There
is none where the text is closed. -/
def readChar : List Char → Option (Char × List Char)
  | '\\' :: s => readEscape s
  | '"' :: _ => none
  | c :: s => some (c, s)
  | [] => none

theorem readEscape_short : ∀ p ∈ shortEscapes, ∀ s, readEscape (p.1 :: s) = some (p.2, s) := by
  simp [shortEscapes, readEscape, List.lookup_cons]

theorem readEscape_code (c : Char) (s : List Char) :
    readEscape ('u' :: '\x7b' :: Nat.toDigits 16 c.toNat ++ '\x7d' :: s) = some (c, s) := by
  have digits := ne_brace_of_mem_toDigits c.toNat
  have ends : Token.Ends (· != '\x7d') ('\x7d' :: s) := by simp [Token.Ends]
  simp [readEscape, takeWhile_of_ends digits ends, dropWhile_of_ends digits ends, hexValue_toDigits]

theorem Escaped.read (h : Escaped c cs) (s : List Char) : readChar (cs ++ s) = some (c, s) := by
  cases h with
  | short mark => exact readEscape_short _ mark s
  | code =>
    have reads := readEscape_code c s
    simpa [readChar] using reads
  | raw quote backslash => simp [readChar]

theorem Escaped.append_inj (hc : Escaped c cs) (hd : Escaped d ds) (h : cs ++ s = ds ++ t) :
    c = d ∧ s = t := by
  have reads := hc.read s
  rw [h, hd.read t] at reads
  cases reads
  exact ⟨rfl, rfl⟩

end Characters

section Texts

variable {code : Char → List Char}

def encodeBy (code : Char → List Char) (text : List Char) : List Char :=
  '"' :: text.flatMap code ++ ['"']

theorem encode_eq_encodeBy (text : List Char) : encode text = encodeBy escape text := rfl

theorem Escaped.ne_quote (h : Escaped c cs) : cs ++ s ≠ '"' :: t := by
  intro eq
  have reads := h.read s
  rw [eq] at reads
  cases reads

theorem flatMap_append_inj (escaped : ∀ c, Escaped c (code c)) {a b : List Char}
    (h : a.flatMap code ++ '"' :: s = b.flatMap code ++ '"' :: t) : a = b ∧ s = t := by
  induction a generalizing b with
  | nil =>
    cases b with
    | nil => simpa using h
    | cons d b =>
      simp only [List.flatMap_cons, List.append_assoc] at h
      exact absurd h.symm (escaped d).ne_quote
  | cons c a ih =>
    cases b with
    | nil =>
      simp only [List.flatMap_cons, List.append_assoc] at h
      exact absurd h (escaped c).ne_quote
    | cons d b =>
      simp only [List.flatMap_cons, List.append_assoc] at h
      obtain ⟨rfl, rest⟩ := (escaped c).append_inj (escaped d) h
      obtain ⟨rfl, rfl⟩ := ih rest
      exact ⟨rfl, rfl⟩

theorem encodeBy_append_inj (escaped : ∀ c, Escaped c (code c)) {a b : List Char}
    (h : encodeBy code a ++ s = encodeBy code b ++ t) : a = b ∧ s = t := by
  simp only [encodeBy, List.cons_append, List.append_assoc, List.nil_append, List.cons.injEq,
    true_and] at h
  exact flatMap_append_inj escaped h

end Texts

end Abacus.Text.Quoted
