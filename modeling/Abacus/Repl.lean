import Abacus.Session
import Abacus.Text.Blank

/-!
# The interactive loop

Lines are gathered into chunks. A chunk is complete when its last line is blank or ends in a semicolon
or a closing brace, and then it is run by itself, in a session of its own. The line `exit` ends the
loop when no chunk is pending, and a chunk that crashes ends the whole program.
-/

namespace Abacus.Repl

structure Output where
  stdout : String
  stderr : String
  deriving DecidableEq, Repr

def Output.append (a b : Output) : Output := ⟨a.stdout ++ b.stdout, a.stderr ++ b.stderr⟩

def isComplete (line : List Char) : Bool :=
  match (Text.trim line).getLast? with
  | none => true
  | some c => c == ';' || c == '\x7d'

def prompt (chunk : String) : String := if chunk.isEmpty then ">>> " else "... "

def crashText : String := "capacity overflow\n"

def complaint : Session.Answer → String
  | .crashed => crashText
  | answer =>
    match answer.report? with
    | some r => s!"Error: {r.text}\n"
    | none => ""

def exitCode : Session.Answer → Nat
  | .value _ | .cut => 0
  | .refused _ | .failed _ => 1
  | .crashed => 101

def runText (limit budget : Nat) (source : String) : Output × Session.Answer :=
  let before := Session.start limit .unlimited
  let (answer, after) := before.execute budget source
  (⟨after.printedSince before, complaint answer⟩, answer)

inductive Move where
  | exit
  | pending (chunk : String)
  | ran (output : Output)
  | crashed (output : Output)
  deriving DecidableEq, Repr

/-- Takes a line when `chunk` is pending; no chunk is the empty text. -/
def step (limit budget : Nat) (chunk line : String) : Move :=
  if chunk.isEmpty && Text.trim line.toList == "exit".toList then .exit
  else
    let chunk := chunk ++ line ++ "\n"
    if !isComplete line.toList then .pending chunk
    else if (Text.trim chunk.toList).isEmpty then .ran ⟨"", ""⟩
    else
      match runText limit budget chunk with
      | (output, .crashed) => .crashed output
      | (output, _) => .ran output

structure Transcript where
  output : Output
  exitCode : Nat
  deriving DecidableEq, Repr

def Transcript.prepend (o : Output) (t : Transcript) : Transcript := { t with output := o.append t.output }

def unreadable : String := "Error: stream did not contain valid UTF-8\n"

def transcript (limit budget : Nat) (chunk : String) : List (Option String) → Transcript
  | [] => ⟨⟨prompt chunk ++ "\n", ""⟩, 0⟩
  | none :: _ => ⟨⟨prompt chunk, unreadable⟩, 1⟩
  | some line :: rest =>
    match step limit budget chunk line with
    | .exit => ⟨⟨prompt chunk ++ "\n", ""⟩, 0⟩
    | .pending next => (transcript limit budget next rest).prepend ⟨prompt chunk, ""⟩
    | .ran output => (transcript limit budget "" rest).prepend (Output.append ⟨prompt chunk, ""⟩ output)
    | .crashed output => ⟨Output.append ⟨prompt chunk, ""⟩ output, exitCode .crashed⟩

/-- The line that ends at a newline, of which `line` is in reverse. A carriage return before the
newline belongs to the newline. -/
def endLine : List UInt8 → List UInt8
  | 13 :: line => line.reverse
  | line => line.reverse

/-- The lines of the input after `line`, which is in reverse. What follows the last newline is a line
unless it is empty. -/
def splitLines (line : List UInt8) : List UInt8 → List (List UInt8)
  | [] => if line.isEmpty then [] else [line.reverse]
  | b :: rest => if b = 10 then endLine line :: splitLines [] rest else splitLines (b :: line) rest

def decodeLine (line : List UInt8) : Option String := String.fromUTF8? line.toByteArray

def ofInput (limit budget : Nat) (input : ByteArray) : Transcript :=
  transcript limit budget "" ((splitLines [] input.data.toList).map decodeLine)

end Abacus.Repl
