/-!
# Positions in a source text

Lines and columns count from 1, and columns count code points. A position moves along the text one
character at a time, so the position of a piece of text is fixed by what stands before it.
-/

namespace Abacus

structure Position where
  line : Nat
  column : Nat
  deriving DecidableEq, Repr, Inhabited

namespace Position

def start : Position := ⟨1, 1⟩

def step (p : Position) (c : Char) : Position :=
  if c = '\n' then ⟨p.line + 1, 1⟩ else ⟨p.line, p.column + 1⟩

def advance (p : Position) (text : List Char) : Position := text.foldl step p

@[simp] theorem advance_cons (p : Position) (c : Char) (text : List Char) :
    p.advance (c :: text) = (p.step c).advance text := rfl

theorem advance_append (p : Position) (s t : List Char) :
    p.advance (s ++ t) = (p.advance s).advance t := by
  simp [advance]

def render (p : Position) : String := s!"line {p.line}, column {p.column}"

end Position

end Abacus
