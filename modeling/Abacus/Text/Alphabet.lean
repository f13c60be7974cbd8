/-!
# The characters of words

A word starts with a character of one class and goes on with characters of another. What reading needs
to know of the two classes is stated here with them, so nothing that is shown about reading depends on
which characters outside ASCII they hold.
-/

namespace Abacus.Text

/-- Blanks and the characters of operators and delimiters. -/
def specials : List Char := "()\x7b\x7d[],:;?+-*/%=<> \t\n\r!.".toList

class Alphabet where
  isStart : Char → Bool
  isContinue : Char → Bool
  continues {c : Char} : isStart c → isContinue c
  letter {c : Char} : c.isAlpha → isStart c
  digit {c : Char} : c.isDigit → isStart c = false
  special {c : Char} : c ∈ specials → isContinue c = false
  quote {c : Char} : c = '"' ∨ c = '\'' → isContinue c = false

end Abacus.Text
