import Abacus.Text.Printable

/-!
# Quoted texts

A quoted text stands between double quotes. The quote, the backslash and the usual control characters
have short escapes, and every other hidden character or mark is written by its code point in
hexadecimal, so that the written form shows exactly which characters it holds.
-/

namespace Abacus.Text.Quoted

def escape (c : Char) : List Char :=
  match c with
  | '\x00' => ['\\', '0']
  | '\t' => ['\\', 't']
  | '\r' => ['\\', 'r']
  | '\n' => ['\\', 'n']
  | '"' => ['\\', '"']
  | '\\' => ['\\', '\\']
  | c =>
    if isMark c || isHidden c then '\\' :: 'u' :: '\x7b' :: Nat.toDigits 16 c.toNat ++ ['\x7d']
    else [c]

def encode (text : List Char) : List Char := '"' :: text.flatMap escape ++ ['"']

def render (text : String) : String := String.ofList (encode text.toList)

end Abacus.Text.Quoted
