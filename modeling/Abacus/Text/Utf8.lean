/-!
# Texts cut at a byte

Output is a sequence of bytes and may end in the middle of a character. Such an end is shown as one
replacement character.
-/

namespace Abacus.Text

def replacement : Char := '\uFFFD'

/-- Decodes bytes that are a text but for an unfinished last character, of at most three bytes. -/
def decodeCut (bytes : ByteArray) : String :=
  match String.fromUTF8? bytes with
  | some text => text
  | none =>
    let cut := [1, 2, 3].findSome? fun n => String.fromUTF8? (bytes.extract 0 (bytes.size - n))
    cut.getD "" ++ replacement.toString

end Abacus.Text
