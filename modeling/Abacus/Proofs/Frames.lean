import Abacus.Session
import Abacus.Proofs.Preservation

/-!
# Frames

What an evaluation leaves of the frames it starts with, however it ends. An expression can only give
new values to globals: a function is called with the local frames hidden, and the names that its body
declares go away with its frame. A statement keeps the number of frames and unbinds no global; inside
a local frame it creates no global either. A session is therefore always between two programs in one
global frame, in which the names it started with are bound.
-/

namespace Abacus

namespace State

/-- The local frames are those of before, and the globals have the names of before. -/
structure Framed (s t : State) : Prop where
  locals : t.scopes.locals = s.scopes.locals
  depth : t.depth = s.depth
  globals : ∀ name, t.scopes.globals.Binds name ↔ s.scopes.globals.Binds name

/-- There are as many local frames as before, and no global is lost. One is created only where there
is no local frame. -/
structure Balanced (s t : State) : Prop where
  height : t.scopes.locals.length = s.scopes.locals.length
  depth : t.depth = s.depth
  kept : ∀ name, s.scopes.globals.Binds name → t.scopes.globals.Binds name
  created : ∀ name, t.scopes.globals.Binds name →
    s.scopes.globals.Binds name ∨ s.scopes.locals = []

theorem framed_quiet : Quiet Framed where
  refl _ := ⟨rfl, rfl, fun _ => .rfl⟩
  trans h h' := ⟨h'.locals.trans h.locals, h'.depth.trans h.depth,
    fun name => (h'.globals name).trans (h.globals name)⟩
  output _ _ _ := ⟨rfl, rfl, fun _ => .rfl⟩

theorem Framed.balanced {s t : State} (h : Framed s t) : Balanced s t where
  height := congrArg List.length h.locals
  depth := h.depth
  kept name := (h.globals name).2
  created name hn := .inl ((h.globals name).1 hn)

theorem Balanced.trans {s t u : State} (h : Balanced s t) (h' : Balanced t u) : Balanced s u where
  height := h'.height.trans h.height
  depth := h'.depth.trans h.depth
  kept name hn := h'.kept name (h.kept name hn)
  created name hn := by
    rcases h'.created name hn with ht | ht
    · exact h.created name ht
    · have hs := h.height
      rw [ht] at hs
      exact .inr (List.eq_nil_of_length_eq_zero hs.symm)

theorem balanced_declare (s : State) (name : String) (v : Value) :
    Balanced s { s with scopes := s.scopes.insert name v } := by
  obtain ⟨⟨globals, locals⟩, depth, sink⟩ := s
  cases locals with
  | nil => exact ⟨rfl, rfl, fun _ h => h.insert name v, fun _ _ => .inr rfl⟩
  | cons f fs => exact ⟨rfl, rfl, fun _ h => h, fun _ h => .inl h⟩

theorem balanced_assign (s : State) (name : String) (v : Value) :
    Balanced s { s with scopes := s.scopes.assign name v } := by
  rcases s.scopes.assign_cases name v with ⟨fs, hfs, h⟩ | ⟨-, hg, h⟩ | ⟨-, -, h⟩
  · rw [h]
    exact ⟨Scopes.length_update? hfs, rfl, fun _ h => h, fun _ h => .inl h⟩
  · rw [h]
    exact ⟨rfl, rfl, fun _ h => h.insert name v,
      fun _ h => .inl ((Frame.binds_insert_of_binds hg).1 h)⟩
  · rw [h]
    exact balanced_declare s name v

theorem Balanced.pop {s t : State} {f : Frame}
    (h : Balanced { s with scopes := s.scopes.push f } t) :
    Balanced s { t with scopes := t.scopes.pop } where
  height := by
    have hlen : t.scopes.locals.length = s.scopes.locals.length + 1 := h.height
    change t.scopes.locals.tail.length = _
    rw [List.length_tail, hlen, Nat.add_sub_cancel]
  depth := h.depth
  kept := h.kept
  created name hn := .inl ((h.created name hn).resolve_right (List.cons_ne_nil _ _))

theorem balanced_stable : Stable Balanced where
  refl s := (framed_quiet.refl s).balanced
  trans := Balanced.trans
  output s b args := (framed_quiet.output s b args).balanced
  declare := balanced_declare
  assign := balanced_assign
  round := Balanced.pop

theorem Balanced.leave {s t : State} {f : Frame} (h : Balanced (s.enter f) t) :
    Framed s (t.leave s) where
  locals := rfl
  depth := by
    have hd : t.depth = s.depth + 1 := h.depth
    change t.depth - 1 = s.depth
    rw [hd, Nat.add_sub_cancel]
  globals name :=
    ⟨fun hn => (h.created name hn).resolve_right (List.cons_ne_nil _ _), h.kept name⟩

end State

open State Abacus.Action

theorem callFunction_framed (limit budget : Nat) : (callFunction limit budget).Keeps Framed :=
  callFunction_keeps framed_quiet balanced_stable Framed.balanced Balanced.leave limit budget

theorem Expr.eval_framed (limit budget : Nat) (e : Expr) :
    (e.eval (callFunction limit budget)).Keeps Framed :=
  e.eval_keeps framed_quiet (callFunction_framed limit budget)

theorem callFunction_balanced (limit budget : Nat) : (callFunction limit budget).Keeps Balanced :=
  fun pos f args s => (callFunction_framed limit budget pos f args s).balanced

theorem Stmt.exec_balanced (limit budget rounds : Nat) (st : Stmt) :
    (st.exec rounds (callFunction limit budget)).Keeps Balanced :=
  st.exec_keeps balanced_stable (callFunction_balanced limit budget) rounds

theorem Stmt.execAll_balanced (limit budget rounds : Nat) (ss : List Stmt) (last : Value) :
    (Stmt.execAll rounds (callFunction limit budget) ss last).Keeps Balanced :=
  Stmt.execAll_keeps balanced_stable (callFunction_balanced limit budget) rounds ss last

theorem Program.run_balanced (limit budget : Nat) (p : Program) : (p.run limit budget).Keeps Balanced :=
  (Stmt.execAll_balanced limit budget budget p .none).bind balanced_stable.toQuiet fun _ =>
    keeps_pure balanced_stable.toQuiet _

/-- No call, and no initializer or right side that fails, creates or removes a global or changes a
local. -/
theorem evaluation_keeps_frames (limit budget rounds : Nat) (s : State) :
    (∀ e : Expr, Framed s (e.eval (callFunction limit budget) s).2) ∧
    (∀ pos f args, Framed s (callFunction limit budget pos f args s).2) ∧
    (∀ name type e err,
      ((Stmt.declare name type e).exec rounds (callFunction limit budget) s).1 = .failed err →
        Framed s ((Stmt.declare name type e).exec rounds (callFunction limit budget) s).2) ∧
    ∀ name e err, ((Stmt.assign name e).exec rounds (callFunction limit budget) s).1 = .failed err →
      Framed s ((Stmt.assign name e).exec rounds (callFunction limit budget) s).2 := by
  refine ⟨fun e => e.eval_framed limit budget s,
    fun pos f args => callFunction_framed limit budget pos f args s, ?_, ?_⟩
  · intro name type e err h
    rw [Stmt.exec] at h ⊢
    exact (e.eval_framed limit budget).of_failed (fun _ _ => ⟨_, rfl⟩) h
  · intro name e err h
    rw [Stmt.exec] at h ⊢
    exact (e.eval_framed limit budget).of_failed (fun _ _ => ⟨_, rfl⟩) h

namespace Session

inductive Step where
  | execute (budget : Nat) (source : String)
  | run (budget : Nat) (p : Program)
  | callBuiltin (b : Builtin) (args : List Value)

def take (s : Session) : Step → Session
  | .execute budget source => (s.execute budget source).2
  | .run budget p => (s.run budget p).2
  | .callBuiltin b args => (s.callBuiltin b args).2

def after (s : Session) (steps : List Step) : Session := steps.foldl take s

theorem run_balanced (s : Session) (budget : Nat) (p : Program) :
    Balanced s.state (s.run budget p).2.state :=
  p.run_balanced s.limit budget s.state

theorem take_balanced (s : Session) (step : Step) : Balanced s.state (s.take step).state := by
  cases step with
  | execute budget source =>
    rw [take, execute]
    split
    · exact balanced_stable.refl s.state
    · exact s.run_balanced budget _
  | run budget p => exact s.run_balanced budget p
  | callBuiltin b args => exact balanced_stable.output s.state b args

theorem take_limit (s : Session) (step : Step) : (s.take step).limit = s.limit := by
  cases step with
  | execute budget source =>
    rw [take, execute]
    split <;> rfl
  | run budget p => rfl
  | callBuiltin b args => rfl

theorem after_balanced (s : Session) (steps : List Step) :
    Balanced s.state (s.after steps).state := by
  induction steps generalizing s with
  | nil => exact balanced_stable.refl s.state
  | cons step steps ih => exact (s.take_balanced step).trans (ih (s.take step))

theorem after_limit (s : Session) (steps : List Step) : (s.after steps).limit = s.limit := by
  induction steps generalizing s with
  | nil => rfl
  | cons step steps ih => exact (ih (s.take step)).trans (s.take_limit step)

theorem start_binds (limit : Nat) (sink : Sink) {name : String}
    (h : name ∈ Builtin.bindings.map Prod.fst) :
    (start limit sink).state.scopes.globals.Binds name :=
  Frame.binds_foldl Value.builtin Builtin.bindings .empty (.inr h)

end Session

/-- How many frames there are, the global one included, and how many bodies are being executed. -/
def State.height (s : State) : Nat × Nat := (s.scopes.locals.length + 1, s.depth)

theorem State.Balanced.height_eq {s t : State} (h : Balanced s t) : t.height = s.height := by
  rw [State.height, State.height, h.height, h.depth]

/-- Frames and depth are restored on every way out. So a session stands in its one global frame after
each step, and loses none of its names. -/
theorem height_restored (limit : Nat) :
    (∀ (budget rounds : Nat) (s : State),
      (∀ st : Stmt, (st.exec rounds (callFunction limit budget) s).2.height = s.height) ∧
      (∀ ss last, (Stmt.execAll rounds (callFunction limit budget) ss last s).2.height = s.height) ∧
      ∀ e : Expr, (e.eval (callFunction limit budget) s).2.height = s.height) ∧
    ∀ (sink : Sink) (steps : List Session.Step) (step : Session.Step),
      let before := (Session.start limit sink).after steps
      let now := before.take step
      now.state.scopes.locals = [] ∧ now.state.depth = 0 ∧ now.limit = limit ∧
      (∀ name, before.state.scopes.globals.Binds name → now.state.scopes.globals.Binds name) ∧
      ∀ name ∈ Builtin.bindings.map Prod.fst, now.state.scopes.globals.Binds name := by
  refine ⟨fun budget rounds s => ⟨?_, ?_, ?_⟩, ?_⟩
  · exact fun st => (st.exec_balanced limit budget rounds s).height_eq
  · exact fun ss last => (Stmt.execAll_balanced limit budget rounds ss last s).height_eq
  · exact fun e => (e.eval_framed limit budget s).balanced.height_eq
  · intro sink steps step before now
    have hstep : Balanced before.state now.state := before.take_balanced step
    have hall : Balanced (Session.start limit sink).state now.state :=
      ((Session.start limit sink).after_balanced steps).trans hstep
    refine ⟨List.eq_nil_of_length_eq_zero hall.height, hall.depth, ?_, hstep.kept, ?_⟩
    · exact (before.take_limit step).trans ((Session.start limit sink).after_limit steps)
    · exact fun name hname => hall.kept name (Session.start_binds limit sink hname)

end Abacus
