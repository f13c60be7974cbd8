import Abacus.Proofs.Quoting
import Abacus.Value

/-!
# The text of an array is read one way

The text of an array tells apart all arrays of data. The first character of an element shows its kind.
What follows an element is a comma or the closing bracket, which end a number, and the other elements
end by themselves. So an array is cut into its elements in one way, and each element is read in one way,
whatever stands in its strings.
-/

namespace Abacus.Value

open Token (Ends)
open Text.Quoted

variable {v w : Value} {vs ws : List Value} {s t : List Char} {code : Char → List Char}

/-- The values whose texts are read back: floats and functions are left out. -/
inductive Data : Value → Prop
  | none : Data .none
  | int (n : Int64) : Data (.int n)
  | bool (b : Bool) : Data (.bool b)
  | text (s : String) : Data (.text s)
  | array {vs : List Value} : (∀ v ∈ vs, Data v) → Data (.array vs)

section Spelling

mutual

def spellBy (code : Char → List Char) : Value → List Char
  | text s => encodeBy code s.toList
  | array vs => '[' :: spellElements code [] vs
  | v => v.render.toList

def spellElements (code : Char → List Char) (separator : List Char) : List Value → List Char
  | [] => [']']
  | v :: vs => separator ++ (spellBy code v ++ spellElements code [',', ' '] vs)

end

theorem spellElements_cons_eq (h : ∀ v ∈ vs, (v.renderAs true).toList = v.spellBy escape)
    (hv : (v.renderAs true).toList = v.spellBy escape) (separator : List Char) :
    spellElements escape separator (v :: vs) =
      separator ++ ((", ".intercalate (renderElements (v :: vs))).toList ++ [']']) := by
  induction vs generalizing v separator with
  | nil => simp [spellElements, renderElements, hv]
  | cons w ws ih =>
    obtain ⟨hw, hws⟩ := List.forall_mem_cons.mp h
    rw [spellElements, ih hws hw]
    simp [renderElements, hv, String.toList_intercalate]

theorem Data.toList_renderAs (h : Data v) : (v.renderAs true).toList = v.spellBy escape := by
  induction h with
  | none | int | bool => rfl
  | text s => simp [renderAs, spellBy, Text.Quoted.render, encode_eq_encodeBy]
  | @array vs _ ih =>
    cases vs with
    | nil => rfl
    | cons v vs =>
      obtain ⟨hv, hvs⟩ := List.forall_mem_cons.mp ih
      simp [renderAs, spellBy, spellElements_cons_eq hvs hv]

theorem toList_render_array (h : ∀ v ∈ vs, Data v) :
    (array vs).render.toList = (array vs).spellBy escape := by
  have element : (array vs).render = (array vs).renderAs true := by simp only [render, renderAs]
  rw [element, (Data.array h).toList_renderAs]

end Spelling

section Kinds

def isNumeral (c : Char) : Bool := c.isDigit || c == '-'

theorem isNumeral_repr (i : Int) : ∀ c ∈ i.repr.toList, isNumeral c := by
  have digits : ∀ n : Nat, ∀ c ∈ n.repr.toList, isNumeral c := by
    intro n c hc
    rw [Nat.toList_repr] at hc
    simp [isNumeral, Nat.isDigit_of_mem_toDigits (by decide) (by decide) hc]
  cases i with
  | ofNat n => exact digits n
  | negSucc n =>
    change ∀ c ∈ ("-" ++ (n + 1).repr).toList, isNumeral c
    simpa [isNumeral] using digits (n + 1)

theorem toList_repr_ne_nil (i : Int) : i.repr.toList ≠ [] := by
  cases i with
  | ofNat n =>
    change n.repr.toList ≠ []
    simp [Nat.toList_repr, Nat.toDigits_ne_nil]
  | negSucc n =>
    change ("-" ++ (n + 1).repr).toList ≠ []
    simp

/-- The integer that a text writes in digits, after a minus sign or without one. -/
def numeral : List Char → Int
  | '-' :: digits => -Nat.ofDigitChars 10 digits 0
  | digits => Nat.ofDigitChars 10 digits 0

theorem numeral_repr (i : Int) : numeral i.repr.toList = i := by
  have value (n : Nat) : Nat.ofDigitChars 10 (Nat.toDigits 10 n) 0 = n :=
    Nat.ofDigitChars_toDigits (by decide) (by decide)
  cases i with
  | ofNat n =>
    change numeral n.repr.toList = n
    rw [Nat.toList_repr]
    unfold numeral
    split
    · rename_i digits minus
      have digit : '-'.isDigit = true :=
        Nat.isDigit_of_mem_toDigits (by decide) (by decide) (minus ▸ List.mem_cons_self)
      cases digit
    · rw [value]
  | negSucc n =>
    change numeral ("-" ++ (n + 1).repr).toList = Int.negSucc n
    rw [String.toList_append, Nat.toList_repr]
    change -((Nat.ofDigitChars 10 (Nat.toDigits 10 (n + 1)) 0 : Nat) : Int) = Int.negSucc n
    rw [value]
    rfl

def kindOf? (c : Char) : Option Ty :=
  if isNumeral c then some .int else
    match c with
    | 'n' => some .none
    | 't' | 'f' => some .bool
    | '"' => some .text
    | '[' => some .array
    | _ => Option.none

theorem Data.kindOf?_head (h : Data v) (code : Char → List Char) (s : List Char) :
    (v.spellBy code ++ s).head?.bind kindOf? = some v.ty := by
  cases h with
  | none | text | array => rfl
  | bool b => cases b <;> rfl
  | int n =>
    change (n.toInt.repr.toList ++ s).head?.bind kindOf? = some .int
    cases digits : n.toInt.repr.toList with
    | nil => exact absurd digits (toList_repr_ne_nil _)
    | cons c cs =>
      have numeral : isNumeral c := isNumeral_repr n.toInt c (by simp [digits])
      exact if_pos numeral

theorem Data.ty_eq (hv : Data v) (hw : Data w) (h : v.spellBy code ++ s = w.spellBy code ++ t) :
    v.ty = w.ty := by
  have kind := hv.kindOf?_head code s
  rw [h, hw.kindOf?_head] at kind
  exact (Option.some.inj kind).symm

theorem Data.ne_bracket (h : Data v) : v.spellBy code ++ s ≠ ']' :: t := by
  intro eq
  have kind := h.kindOf?_head code s
  rw [eq] at kind
  cases kind

end Kinds

section Elements

theorem ends_spellElements (code : Char → List Char) (vs : List Value) (s : List Char) :
    Ends isNumeral (spellElements code [',', ' '] vs ++ s) := by
  cases vs with
  | nil => simp [spellElements, Ends, isNumeral]
  | cons v vs => simp [spellElements, Ends, isNumeral]

theorem int_append_inj {m n : Int64} (hs : Ends isNumeral s) (ht : Ends isNumeral t)
    (h : m.toInt.repr.toList ++ s = n.toInt.repr.toList ++ t) : m = n ∧ s = t := by
  have text := congrArg (List.takeWhile isNumeral) h
  have rest := congrArg (List.dropWhile isNumeral) h
  rw [Token.Lexer.takeWhile_of_ends (isNumeral_repr _) hs,
    Token.Lexer.takeWhile_of_ends (isNumeral_repr _) ht] at text
  rw [Token.Lexer.dropWhile_of_ends (isNumeral_repr _) hs,
    Token.Lexer.dropWhile_of_ends (isNumeral_repr _) ht] at rest
  have value := congrArg numeral text
  rw [numeral_repr, numeral_repr, Int64.toInt_inj] at value
  exact ⟨value, rest⟩

/-- The text of an element is read in one way before any rest that does not go on with a number. -/
def ReadOnce (code : Char → List Char) (v : Value) : Prop :=
  ∀ ⦃w : Value⦄ ⦃s t : List Char⦄, Data w → Ends isNumeral s → Ends isNumeral t →
    v.spellBy code ++ s = w.spellBy code ++ t → v = w ∧ s = t

theorem cons_ne_bracket {separator : List Char} (hsep : separator.head? ≠ some ']') (h : Data v) :
    spellElements code separator (v :: vs) ++ s ≠ ']' :: t := by
  cases separator with
  | nil =>
    rw [spellElements, List.nil_append, List.append_assoc]
    exact h.ne_bracket
  | cons c cs =>
    intro eq
    injection eq with first
    exact hsep (congrArg some first)

theorem spellElements_append_inj {separator : List Char} (hsep : separator.head? ≠ some ']')
    (once : ∀ v ∈ vs, ReadOnce code v) (hvs : ∀ v ∈ vs, Data v) (hws : ∀ w ∈ ws, Data w)
    (h : spellElements code separator vs ++ s = spellElements code separator ws ++ t) :
    vs = ws ∧ s = t := by
  induction vs generalizing ws separator with
  | nil =>
    cases ws with
    | nil => simpa [spellElements] using h
    | cons w ws => exact absurd h.symm (cons_ne_bracket hsep (hws w List.mem_cons_self))
  | cons v vs ih =>
    cases ws with
    | nil => exact absurd h (cons_ne_bracket hsep (hvs v List.mem_cons_self))
    | cons w ws =>
      simp only [spellElements, List.append_assoc, List.append_cancel_left_eq] at h
      obtain ⟨onceV, onceVs⟩ := List.forall_mem_cons.mp once
      obtain ⟨hw, hws'⟩ := List.forall_mem_cons.mp hws
      obtain ⟨rfl, rest⟩ := onceV hw (ends_spellElements _ _ _) (ends_spellElements _ _ _) h
      have comma : [',', ' '].head? ≠ some ']' := by decide
      obtain ⟨rfl, rfl⟩ := ih comma onceVs (List.forall_mem_cons.mp hvs).2 hws' rest
      exact ⟨rfl, rfl⟩

theorem Data.readOnce (escaped : ∀ c, Escaped c (code c)) (h : Data v) : ReadOnce code v := by
  intro w s t hw hs ht eq
  -- The first characters show one kind, so only texts of that kind are left to compare.
  have kind := h.ty_eq hw eq
  induction h generalizing w s t with
  | none =>
    cases hw with
    | none => exact ⟨rfl, List.append_cancel_left eq⟩
    | int | bool | text | array => cases kind
  | int n =>
    cases hw with
    | int m =>
      obtain ⟨rfl, rest⟩ := int_append_inj hs ht eq
      exact ⟨rfl, rest⟩
    | none | bool | text | array => cases kind
  | bool b =>
    cases hw with
    | bool a =>
      cases a <;> cases b
      case true.true | false.false => exact ⟨rfl, List.append_cancel_left eq⟩
      case true.false | false.true => cases eq
    | none | int | text | array => cases kind
  | text a =>
    cases hw with
    | text b =>
      obtain ⟨same, rest⟩ := encodeBy_append_inj escaped eq
      exact ⟨congrArg Value.text (String.toList_inj.mp same), rest⟩
    | none | int | bool | array => cases kind
  | array members ih =>
    cases hw with
    | array members' =>
      have once : ∀ v ∈ _, ReadOnce code v := fun v hv w s t hw hs ht eq =>
        ih v hv hw hs ht eq ((members v hv).ty_eq hw eq)
      simp only [spellBy, List.cons_append, List.cons.injEq, true_and] at eq
      obtain ⟨rfl, rest⟩ := spellElements_append_inj (by decide) once members members' eq
      exact ⟨rfl, rest⟩
    | none | int | bool | text => cases kind

theorem spellBy_array_inj (escaped : ∀ c, Escaped c (code c)) (hvs : ∀ v ∈ vs, Data v)
    (hws : ∀ w ∈ ws, Data w) (h : (array vs).spellBy code = (array ws).spellBy code) : vs = ws := by
  have ends : Ends isNumeral [] := by simp [Ends]
  have h' : (array vs).spellBy code ++ [] = (array ws).spellBy code ++ [] := by rw [h]
  obtain ⟨same, -⟩ := (Data.array hvs).readOnce escaped (.array hws) ends ends h'
  exact Value.array.inj same

end Elements

/-- Arrays of data with one text are one array, and this does not depend on which characters of strings
are escaped. -/
theorem render_unambiguous (hvs : ∀ v ∈ vs, Data v) (hws : ∀ w ∈ ws, Data w) :
    ((array vs).render = (array ws).render → vs = ws) ∧
      ∀ code, (∀ c, Escaped c (code c)) →
        (array vs).spellBy code = (array ws).spellBy code → vs = ws := by
  constructor
  · intro eq
    apply spellBy_array_inj escaped_escape hvs hws
    rw [← toList_render_array hvs, ← toList_render_array hws, eq]
  · intro code escaped eq
    exact spellBy_array_inj escaped hvs hws eq

theorem render_unambiguous_quotes :
    (array [int (-1), array [none, bool true], text "a", text "b"]).render ≠
      (array [int (-1), array [none, bool true], text "a\", \"b"]).render ∧
    (array [text "a", text "b"]).spellBy
        (fun c => '\\' :: 'u' :: '\x7b' :: Nat.toDigits 16 c.toNat ++ ['\x7d']) ≠
      (array [text "a\", \"b"]).spellBy
        (fun c => '\\' :: 'u' :: '\x7b' :: Nat.toDigits 16 c.toNat ++ ['\x7d']) := by
  have nested : Data (array [none, bool true]) := .array (by simp [Data.none, Data.bool])
  constructor
  · intro eq
    have same := (render_unambiguous (by simp [Data.int, nested, Data.text])
      (by simp [Data.int, nested, Data.text])).1 eq
    exact absurd (congrArg List.length same) (by decide)
  · intro eq
    have same := (render_unambiguous (by simp [Data.text]) (by simp [Data.text])).2 _
      (fun _ => .code) eq
    exact absurd (congrArg List.length same) (by decide)

end Abacus.Value
