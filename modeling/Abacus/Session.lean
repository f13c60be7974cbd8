import Abacus.Evaluator
import Abacus.Program.Parser
import Abacus.Text.Identifier
import Abacus.Text.Utf8
import Abacus.Token.Lexer

/-!
# Sessions

A session runs programs one after the other. What one of them binds and prints stays for the next
ones, also when it fails.
-/

namespace Abacus

structure Session where
  limit : Nat
  state : State

namespace Session

def defaultLimit : Nat := 1000

def start (limit : Nat) (sink : Sink) : Session := ⟨limit, ⟨.initial, 0, sink⟩⟩

/-- More rounds and nested calls than any machine executes. -/
def budget : Nat := 0x4000000000000000

/-- How a program ends: with a value, refused before it is run, with an error, in a crash, or cut off
because the budget is spent. -/
inductive Answer where
  | value (v : Value)
  | refused (e : SyntaxError)
  | failed (e : RuntimeError)
  | crashed
  | cut
  deriving Inhabited

def Answer.ofResult : Result Value → Answer
  | .done v => value v
  | .failed e => failed e
  | .crashed => crashed
  | .cut => cut

def Answer.report? : Answer → Option Report
  | value _ | crashed | cut => none
  | refused e => some e.report
  | failed e => some e.report

def run (budget : Nat) (s : Session) (p : Program) : Answer × Session :=
  let (result, state) := p.run s.limit budget s.state
  (.ofResult result, { s with state })

def execute (budget : Nat) (s : Session) (source : String) : Answer × Session :=
  match Token.tokenize source >>= Program.parse with
  | .error e => (.refused e, s)
  | .ok p => s.run budget p

theorem execute_of_parse {source : String} {p : Program}
    (h : Token.tokenize source >>= Program.parse = .ok p) (budget : Nat) (s : Session) :
    s.execute budget source = s.run budget p := by
  rw [execute, h]

def callBuiltin (s : Session) (b : Builtin) (args : List Value) :
    Except Fault (Option Value) × Session :=
  let (result, sink) := b.call args s.state.sink
  (result, { s with state := { s.state with sink } })

def lookup (s : Session) (name : String) : Option Value := s.state.scopes.get? name

def output (s : Session) : ByteArray := s.state.sink.written

def printedSince (s before : Session) : String :=
  Text.decodeCut (s.output.extract before.output.size s.output.size)

end Session

end Abacus
