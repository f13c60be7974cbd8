/-!
# Output sinks

A sink takes bytes in order. It may take only so many in all; a write that does not fit leaves what
fits and fails. A line is written as its text and a newline, each in as many attempts as it takes, and
then the sink is flushed, which may fail by itself.
-/

namespace Abacus

inductive SinkError where
  | full
  | stalled
  | notFlushed
  deriving DecidableEq, Repr

def SinkError.message : SinkError → String
  | full => "sink full"
  | stalled => "failed to write whole buffer"
  | notFlushed => "flush failed"

/-- A full sink refuses a write, or it stalls: it takes nothing and does not say why. -/
structure Sink where
  written : ByteArray
  capacity : Option Nat
  stalls : Bool
  flushes : Bool

namespace Sink

def unlimited : Sink := ⟨.empty, none, false, true⟩

/-- One attempt to write. A sink takes what fits and says how much that is; a full one takes nothing
or refuses. -/
def offer (s : Sink) (bytes : ByteArray) : Except SinkError Nat × Sink :=
  match s.capacity with
  | none => (.ok bytes.size, { s with written := s.written ++ bytes })
  | some capacity =>
    let taken := min bytes.size (capacity - s.written.size)
    if taken = 0 then (if s.stalls then .ok 0 else .error .full, s)
    else (.ok taken, { s with written := s.written ++ bytes.extract 0 taken })

def writeAll (s : Sink) (bytes : ByteArray) : Option SinkError × Sink :=
  if bytes.size = 0 then (none, s)
  else
    match s.offer bytes with
    | (.error e, s) => (some e, s)
    | (.ok 0, s) => (some .stalled, s)
    | (.ok (n + 1), s) => s.writeAll (bytes.extract (n + 1) bytes.size)
termination_by bytes.size
decreasing_by
  rw [ByteArray.size_extract]
  omega

def printLine (s : Sink) (line : String) : Option SinkError × Sink :=
  match s.writeAll line.toUTF8 with
  | (some e, s) => (some e, s)
  | (none, s) =>
    match s.writeAll "\n".toUTF8 with
    | (some e, s) => (some e, s)
    | (none, s) => (if s.flushes then none else some .notFlushed, s)

end Sink

end Abacus
