import Abacus.Number.Decimal
import Abacus.Text.Position
import Abacus.Text.Quoted

/-!
# Tokens

A token has a kind, a payload and the position where it starts. Literals carry their decoded value
and every other token its spelling. Kind and payload are independent, so that a list of tokens can be
put together by hand; a reader of tokens has to say what it makes of a pair that does not fit.
-/

namespace Abacus

namespace Token

inductive Kind where
  | int | float | string | bool | ident | eof
  | kwVar | kwFor | kwIn | kwWhile | question | kwOtherwise | kwReturn
  | typeInt | typeFloat | typeString | typeBool | typeArray
  | leftParen | rightParen | leftBrace | rightBrace | leftBracket | rightBracket
  | comma | colon | semicolon | arrow | equal
  | plus | minus | star | slash | percent | starStar | dotDot
  | less | greater | lessEqual | greaterEqual | equalEqual | bangEqual
  | kwAnd | kwOr | kwNot
  deriving DecidableEq, Repr, Inhabited

namespace Kind

/-- The one spelling of a keyword or symbol; the other kinds have none. -/
def spelling? : Kind → Option String
  | int | float | string | bool | ident | eof => none
  | kwVar => "var" | kwFor => "for" | kwIn => "in" | kwWhile => "while"
  | question => "?" | kwOtherwise => "otherwise" | kwReturn => "return"
  | typeInt => "int" | typeFloat => "float" | typeString => "string" | typeBool => "bool"
  | typeArray => "array"
  | leftParen => "(" | rightParen => ")" | leftBrace => "\x7b" | rightBrace => "\x7d"
  | leftBracket => "[" | rightBracket => "]"
  | comma => "," | colon => ":" | semicolon => ";" | arrow => "=>" | equal => "="
  | plus => "+" | minus => "-" | star => "*" | slash => "/" | percent => "%" | starStar => "**"
  | dotDot => ".." | less => "<" | greater => ">" | lessEqual => "<=" | greaterEqual => ">="
  | equalEqual => "==" | bangEqual => "!=" | kwAnd => "and" | kwOr => "or" | kwNot => "not"

def title : Kind → String
  | int => "integer"
  | float => "float"
  | string => "string"
  | bool => "boolean"
  | ident => "identifier"
  | eof => "end of file"
  | kind => "'" ++ kind.spelling?.getD "" ++ "'"

def isLiteral : Kind → Bool
  | int | float | string | bool => true
  | _ => false

def isTypeName : Kind → Bool
  | typeInt | typeFloat | typeString | typeBool | typeArray => true
  | _ => false

def keywords : List Kind :=
  [kwVar, kwFor, kwIn, kwWhile, kwOtherwise, kwReturn, kwAnd, kwOr, kwNot,
    typeInt, typeFloat, typeString, typeBool, typeArray]

def ofWord (word : String) : Kind :=
  (keywords.find? fun k => k.spelling? == some word).getD ident

end Kind

inductive Payload where
  | int (n : Int64)
  | float (x : Binary64)
  | text (s : String)
  | bool (b : Bool)
  | lexeme (s : String)
  | none
  deriving DecidableEq, Repr, Inhabited

def Payload.render : Payload → String
  | int n => toString n.toInt
  | float x => x.plainText
  | text s => Text.Quoted.render s
  | bool b => if b then "true" else "false"
  | lexeme s => s
  | none => "<eof>"

end Token

structure Token where
  kind : Token.Kind
  payload : Token.Payload
  pos : Position
  deriving DecidableEq, Repr, Inhabited

namespace Token

/-- The spelling that a token carries, empty for one that carries a value. -/
def spelling (t : Token) : String :=
  match t.payload with
  | .lexeme s => s
  | _ => ""

def describe (t : Token) : String :=
  match t.kind, t.payload with
  | .ident, .lexeme name => s!"identifier '{name}'"
  | kind, payload => if kind.isLiteral then s!"{kind.title} {payload.render}" else kind.title

def eof (pos : Position) : Token := ⟨.eof, .none, pos⟩

end Token

end Abacus
