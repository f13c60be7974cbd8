import Abacus.Value

/-!
# Scopes

A frame binds names to values. The frames that are visible at a point of a run are the global one and
local ones, of which the innermost is first. A name is looked up from the innermost frame outwards.
-/

namespace Abacus

structure Frame where
  entries : List (String × Value)
  deriving Inhabited

namespace Frame

def empty : Frame := ⟨[]⟩

def get? (f : Frame) (name : String) : Option Value := f.entries.lookup name

def replace (name : String) (v : Value) : List (String × Value) → List (String × Value)
  | [] => [(name, v)]
  | (n, w) :: rest => if n = name then (n, v) :: rest else (n, w) :: replace name v rest

def insert (f : Frame) (name : String) (v : Value) : Frame := ⟨replace name v f.entries⟩

/-- Binds parameters to arguments in order, so that of two parameters of one name the later counts. -/
def ofArguments (params : List String) (args : List Value) : Frame :=
  (params.zip args).foldl (fun f (name, v) => f.insert name v) empty

end Frame

structure Scopes where
  globals : Frame
  locals : List Frame
  deriving Inhabited

namespace Scopes

def get? (s : Scopes) (name : String) : Option Value :=
  (s.locals.findSome? (·.get? name)).or (s.globals.get? name)

def insert (s : Scopes) (name : String) (v : Value) : Scopes :=
  match s.locals with
  | [] => { s with globals := s.globals.insert name v }
  | f :: fs => { s with locals := f.insert name v :: fs }

/-- The frames after the innermost one that binds the name binds it to `v`, if one does. -/
def update? (name : String) (v : Value) : List Frame → Option (List Frame)
  | [] => none
  | f :: fs =>
    if (f.get? name).isSome then some (f.insert name v :: fs)
    else (update? name v fs).map (f :: ·)

def assign (s : Scopes) (name : String) (v : Value) : Scopes :=
  match update? name v s.locals with
  | some fs => { s with locals := fs }
  | none =>
    if (s.globals.get? name).isSome then { s with globals := s.globals.insert name v }
    else s.insert name v

def push (s : Scopes) (f : Frame) : Scopes := { s with locals := f :: s.locals }

def pop (s : Scopes) : Scopes := { s with locals := s.locals.tail }

def enter (s : Scopes) (f : Frame) : Scopes := ⟨s.globals, [f]⟩

def leave (s caller : Scopes) : Scopes := ⟨s.globals, caller.locals⟩

def initial : Scopes :=
  ⟨Builtin.bindings.foldl (fun f (name, b) => f.insert name (.builtin b)) .empty, []⟩

end Scopes

end Abacus
