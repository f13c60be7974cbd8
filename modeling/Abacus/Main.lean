import Abacus.CommandLine

/-!
# The program

Reads the arguments and does what they say; the only module that reads files and streams.
-/

namespace Abacus.Main

open Repl (Output Transcript)

def write (o : Output) : IO Unit := do
  let out ← IO.getStdout
  out.putStr o.stdout
  out.flush
  (← IO.getStderr).putStr o.stderr

def finish (t : Transcript) : IO UInt32 := do
  write t.output
  return t.exitCode.toUInt32

def readBytes (name : String) : IO (Option ByteArray) := do
  try return some (← IO.FS.readBinFile name) catch _ => return none

def opens (name : String) : IO Bool := do
  try
    let _ ← IO.FS.Handle.mk name .read
    return true
  catch _ => return false

/-- The line of the input after `line`, which is in reverse; `none` at the end of the input. -/
partial def readLine (input : IO.FS.Stream) (line : List UInt8) : IO (Option (List UInt8)) := do
  match (← input.read 1).toList with
  | [] => return if line.isEmpty then none else some line.reverse
  | b :: _ => if b = 10 then return some (Repl.endLine line) else readLine input (b :: line)

partial def repl (limit : Nat) (chunk : String) : IO UInt32 := do
  write ⟨Repl.prompt chunk, ""⟩
  match (← readLine (← IO.getStdin) []).map Repl.decodeLine with
  | none => finish ⟨⟨"\n", ""⟩, 0⟩
  | some none => finish ⟨⟨"", Repl.unreadable⟩, 1⟩
  | some (some line) =>
    match Repl.step limit Session.budget chunk line with
    | .exit => finish ⟨⟨"\n", ""⟩, 0⟩
    | .pending next => repl limit next
    | .ran output =>
      write output
      repl limit ""
    | .crashed output => finish ⟨output, Repl.exitCode .crashed⟩

end Abacus.Main

open Abacus in
def main (args : List String) : IO UInt32 := do
  match CommandLine.parse args with
  | .repl limit => Main.repl limit ""
  | command =>
    let name := match command with
      | .run _ file => file
      | _ => CommandLine.defaultScript
    let present ← Main.opens name
    let bytes ← Main.readBytes name
    Main.finish (CommandLine.transcript args ⟨fun _ => present, fun _ => bytes⟩ .empty)
