import Abacus.Builtin.Call
import Abacus.Scope

/-!
# Actions

An action is a step of a run: it takes a state to a result and a new state. The result is a value or an
error. There is none when the run crashes because it has no room for a value, and when it is cut off
because its budget is used up. Whatever the result, the state shows what was done until then.
-/

namespace Abacus

structure State where
  scopes : Scopes
  depth : Nat
  sink : Sink

namespace State

def enter (s : State) (f : Frame) : State :=
  { s with scopes := s.scopes.enter f, depth := s.depth + 1 }

def leave (s caller : State) : State :=
  { s with scopes := s.scopes.leave caller.scopes, depth := s.depth - 1 }

end State

inductive Result (α : Type) where
  | done (a : α)
  | failed (e : RuntimeError)
  | crashed
  | cut
  deriving Inhabited

def Action (α : Type) : Type := State → Result α × State

namespace Action

@[always_inline, inline]
protected def pure (a : α) : Action α := fun s => (.done a, s)

@[always_inline, inline]
protected def bind (m : Action α) (f : α → Action β) : Action β := fun s =>
  match m s with
  | (.done a, s) => f a s
  | (.failed e, s) => (.failed e, s)
  | (.crashed, s) => (.crashed, s)
  | (.cut, s) => (.cut, s)

instance : Monad Action where
  pure := Action.pure
  bind := Action.bind

@[inline]
def fail (pos : Position) (fault : Fault) : Action α := fun s => (.failed ⟨fault, pos⟩, s)

@[inline]
def check (pos : Position) : Except Fault α → Action α
  | .ok a => fun s => (.done a, s)
  | .error fault => fail pos fault

/-- The result of an operation that may find no room for its value. -/
def attempt (pos : Position) : Except Fault (Option α) → Action α
  | .ok (some a) => fun s => (.done a, s)
  | .ok none => fun s => (.crashed, s)
  | .error fault => fail pos fault

def lookup (pos : Position) (name : String) : Action Value := fun s =>
  match s.scopes.get? name with
  | some v => (.done v, s)
  | none => (.failed ⟨.undefined name, pos⟩, s)

def declare (name : String) (v : Value) (result : α) : Action α := fun s =>
  (.done result, { s with scopes := s.scopes.insert name v })

def assign (name : String) (v : Value) (result : α) : Action α := fun s =>
  (.done result, { s with scopes := s.scopes.assign name v })

def callBuiltin (pos : Position) (b : Builtin) (args : List Value) : Action Value := fun s =>
  let (result, sink) := b.call args s.sink
  attempt pos result { s with sink }

end Action

end Abacus
