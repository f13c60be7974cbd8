import Abacus.Repl

/-!
# The command line

Arguments are read from left to right. The limit of nested calls can be given before the command and
after it, once at each place; after it counts more. Without a command the default script is run.
-/

namespace Abacus.CommandLine

open Repl (Output Transcript)

inductive Command where
  | version
  | help
  | script (limit : Nat)
  | run (limit : Nat) (file : String)
  | repl (limit : Nat)
  | misuse
  deriving DecidableEq, Repr

/-- A limit is written in decimal, with or without a plus sign, and has 64 bits. -/
def limit? (text : List Char) : Option Nat :=
  let digits := match text with
    | '+' :: rest => rest
    | text => text
  let n := Token.Lexer.digitsValue digits
  if digits ≠ [] ∧ digits.all Char.isDigit ∧ n < 0x10000000000000000 then some n else none

def limitFlag : List Char := "--max-depth".toList

def isFlag : List Char → Bool
  | '-' :: _ :: _ => true
  | _ => false

inductive Item where
  | limit (n : Nat)
  | flag (text : List Char)
  | operand (text : List Char)
  | separator
  | bad
  deriving DecidableEq, Repr

def limitItem (value : List Char) : Item :=
  match limit? value with
  | some n => .limit n
  | none => .bad

def item (arg : List Char) : Item :=
  if (limitFlag ++ ['=']).isPrefixOf arg then limitItem (arg.drop (limitFlag.length + 1))
  else if arg = limitFlag then .bad
  else if isFlag arg then .flag arg
  else .operand arg

/-- The items of the arguments. The value of the limit must not look like a flag, and all that follows
a separator are operands. -/
def items : List (List Char) → List Item
  | [] => []
  | [arg] => if arg = ['-', '-'] then [.separator] else [item arg]
  | arg :: next :: rest =>
    if arg = ['-', '-'] then .separator :: .operand next :: rest.map .operand
    else if arg = limitFlag then
      if isFlag next then [.bad] else limitItem next :: items rest
    else item arg :: items (next :: rest)

def operands (limit : Option Nat) (done : List (List Char)) :
    List Item → Option (Option Nat × List (List Char))
  | [] => some (limit, done.reverse)
  | .limit n :: rest => if limit.isSome then none else operands (some n) done rest
  | .separator :: rest => operands limit done rest
  | .operand text :: rest => operands limit (text :: done) rest
  | .flag _ :: _ | .bad :: _ => none

def command (name : List Char) (limit : Nat) (operands : List (List Char)) : Command :=
  match String.ofList name, operands with
  | "version", [] => .version
  | "repl", [] => .repl limit
  | "run", [c :: file] | "init", [c :: file] => .run limit (String.ofList (c :: file))
  | _, _ => .misuse

/-- A flag is read letter by letter after one dash, so the first letter decides. -/
def flagCommand : List Char → Command
  | '-' :: 'v' :: _ | '-' :: 'V' :: _ => .version
  | '-' :: 'h' :: _ => .help
  | text =>
    if text = "--version".toList then .version
    else if text = "--help".toList then .help
    else .misuse

def commandOf (limit : Option Nat) : List Item → Command
  | [] => .script (limit.getD Session.defaultLimit)
  | .limit n :: rest => if limit.isSome then .misuse else commandOf (some n) rest
  | .flag text :: _ => flagCommand text
  | .separator :: rest => if rest.isEmpty then commandOf limit [] else .misuse
  | .bad :: _ => .misuse
  | .operand name :: rest =>
    match operands none [] rest with
    | some (inner, operands) =>
      command name ((inner.or limit).getD Session.defaultLimit) operands
    | none => .misuse

def parse (args : List String) : Command := commandOf none (items (args.map String.toList))

def defaultScript : String := "index.shark"

def versionText : String := "shark 0.1.0\n"

def usage : String :=
  "Usage: shark [--max-depth <N>] [run <FILE> | repl | version]\n"

def missingScript : String :=
  "Error: no 'index.shark' in the current directory; try 'shark run <file>' or 'shark --help'\n"

def runFile (limit : Nat) (name : String) : Option String → Transcript
  | none => ⟨⟨"", s!"Error: File '{name}' not found\n"⟩, 1⟩
  | some source =>
    let (output, answer) := Repl.runText limit Session.budget source
    ⟨output, Repl.exitCode answer⟩

structure Directory where
  contains : String → Bool
  read? : String → Option ByteArray

def Directory.text? (d : Directory) (name : String) : Option String := d.read? name >>= String.fromUTF8?

def transcript (args : List String) (files : Directory) (input : ByteArray) : Transcript :=
  match parse args with
  | .version => ⟨⟨versionText, ""⟩, 0⟩
  | .help => ⟨⟨usage, ""⟩, 0⟩
  | .misuse => ⟨⟨"", usage⟩, 2⟩
  | .repl limit => Repl.ofInput limit Session.budget input
  | .run limit file => runFile limit file (files.text? file)
  | .script limit =>
    if files.contains defaultScript then runFile limit defaultScript (files.text? defaultScript)
    else ⟨⟨"", missingScript⟩, 1⟩

end Abacus.CommandLine
