import Abacus.Proofs.Simulation
import Mathlib.Data.List.Forall2

/-!
# Isolation of function bodies

A function sees the global frame and its own. Two callers that agree on the globals, the depth and the
output therefore see the same of a call, whatever their local frames hold. The runs of the body start
in states whose frames bind the same names to the same values, and every step keeps them so.
-/

namespace Abacus

namespace Scopes

structure Same (s t : Scopes) : Prop where
  globals : s.globals.Same t.globals
  locals : List.Forall₂ Frame.Same s.locals t.locals

theorem same_findSome? {fs gs : List Frame} (h : List.Forall₂ Frame.Same fs gs) (name : String) :
    fs.findSome? (·.get? name) = gs.findSome? (·.get? name) := by
  induction h with
  | nil => rfl
  | cons hfg _ ih => rw [List.findSome?_cons, List.findSome?_cons, hfg name, ih]

theorem Same.get? {s t : Scopes} (h : s.Same t) (name : String) : s.get? name = t.get? name := by
  rw [Scopes.get?, Scopes.get?, same_findSome? h.locals name, h.globals name]

theorem Same.insert {s t : Scopes} (h : s.Same t) (name : String) (v : Value) :
    (s.insert name v).Same (t.insert name v) := by
  obtain ⟨sg, sl⟩ := s
  obtain ⟨tg, tl⟩ := t
  obtain ⟨hglobals, hlocals⟩ := h
  cases hlocals with
  | nil => exact ⟨hglobals.insert name v, .nil⟩
  | cons hfg hrest => exact ⟨hglobals, .cons (hfg.insert name v) hrest⟩

theorem same_update? {fs gs : List Frame} (h : List.Forall₂ Frame.Same fs gs) (name : String)
    (v : Value) : Option.Rel (List.Forall₂ Frame.Same) (update? name v fs) (update? name v gs) := by
  induction h with
  | nil => exact .none
  | @cons f g fs gs hfg hrest ih =>
    rw [update?, update?, hfg name]
    by_cases hbound : (g.get? name).isSome
    · rw [if_pos hbound, if_pos hbound]
      exact .some (.cons (hfg.insert name v) hrest)
    · rw [if_neg hbound, if_neg hbound]
      generalize update? name v fs = fs', update? name v gs = gs' at ih ⊢
      cases ih with
      | none => exact .none
      | some hupdated => exact .some (.cons hfg hupdated)

theorem Same.assign {s t : Scopes} (h : s.Same t) (name : String) (v : Value) :
    (s.assign name v).Same (t.assign name v) := by
  rw [Scopes.assign, Scopes.assign]
  have hupdate := same_update? h.locals name v
  generalize update? name v s.locals = fs, update? name v t.locals = gs at hupdate ⊢
  cases hupdate with
  | some hlocals => exact ⟨h.globals, hlocals⟩
  | none =>
    dsimp only
    rw [h.globals name]
    split
    · exact ⟨h.globals.insert name v, h.locals⟩
    · exact h.insert name v

theorem Same.push {s t : Scopes} (h : s.Same t) (f : Frame) : (s.push f).Same (t.push f) :=
  ⟨h.globals, .cons (.refl f) h.locals⟩

theorem Same.pop {s t : Scopes} (h : s.Same t) : s.pop.Same t.pop := by
  obtain ⟨sg, sl⟩ := s
  obtain ⟨tg, tl⟩ := t
  obtain ⟨hglobals, hlocals⟩ := h
  cases hlocals with
  | nil => exact ⟨hglobals, .nil⟩
  | cons _ hrest => exact ⟨hglobals, hrest⟩

end Scopes

namespace State

/-- What a function can see of two callers is the same. -/
structure Alike (s t : State) : Prop where
  globals : s.scopes.globals.Same t.scopes.globals
  depth : s.depth = t.depth
  sink : s.sink = t.sink

theorem Alike.symm {s t : State} (h : Alike s t) : Alike t s :=
  ⟨h.globals.symm, h.depth.symm, h.sink.symm⟩

structure Same (s t : State) : Prop extends Alike s t where
  locals : List.Forall₂ Frame.Same s.scopes.locals t.scopes.locals

theorem Same.scopes {s t : State} (h : s.Same t) : s.scopes.Same t.scopes := ⟨h.globals, h.locals⟩

theorem Same.with {s t : State} (h : s.Same t) {u v : Scopes} (huv : u.Same v) :
    State.Same { s with scopes := u } { t with scopes := v } :=
  ⟨⟨huv.globals, h.depth, h.sink⟩, huv.locals⟩

theorem Alike.encloses : Encloses Alike Same where
  depth h := h.depth
  enter h f := ⟨⟨h.globals, congrArg (· + 1) h.depth, h.sink⟩, .cons (.refl f) .nil⟩
  leave _ h' := ⟨h'.globals, congrArg (· - 1) h'.depth, h'.sink⟩

theorem Same.callBuiltin (lost : RuntimeError → Prop) (pos : Position) (b : Builtin)
    (args : List Value) :
    Action.Mirrored Same lost (Action.callBuiltin pos b args) (Action.callBuiltin pos b args) := by
  intro s t h
  rw [Action.callBuiltin, Action.callBuiltin, h.sink]
  rcases b.call args t.sink with ⟨result, sink⟩
  exact Action.mirrored_attempt pos result _ _ ⟨⟨h.globals, h.depth, rfl⟩, h.locals⟩

theorem Same.mirror (lost : RuntimeError → Prop) : Mirror Same lost where
  depth h := h.depth
  enter h f := Alike.encloses.enter h.toAlike f
  leave h h' := ⟨Alike.encloses.leave h.toAlike h', h.locals⟩
  lookup h name := h.scopes.get? name
  builtin := Same.callBuiltin lost
  declare h name v := h.with (h.scopes.insert name v)
  assign h name v := h.with (h.scopes.assign name v)
  push h f := h.with (h.scopes.push f)
  pop h := h.with h.scopes.pop

end State

open State

theorem callFunction_alike (limit : Nat) {budget budget' : Nat} (hle : budget ≤ budget') :
    (callFunction limit budget).Mirrored Alike (fun _ => False) (callFunction limit budget') :=
  callFunction_mirrored (Same.mirror _) Alike.encloses (Nat.le_refl limit) (.inl rfl) hle

/-- A call comes to an end, with a value, an error or a crash, and in the state `t`. -/
def CallEnds (limit : Nat) (pos : Position) (f : Function) (args : List Value) (s : State)
    (result : Result Value) (t : State) : Prop :=
  result ≠ .cut ∧ ∃ budget, callFunction limit budget pos f args s = (result, t)

variable {limit : Nat} {pos : Position} {f : Function} {args : List Value}

theorem callFunction_of_alike {s t s' : State} {result : Result Value} {budget budget' : Nat}
    (h : Alike s t) (hcut : result ≠ .cut) (hs : callFunction limit budget pos f args s = (result, s'))
    (hle : budget ≤ budget') :
    ∃ t', callFunction limit budget' pos f args t = (result, t') ∧ Alike s' t' := by
  have hmirror := callFunction_alike limit hle pos f args s t h
  rw [hs] at hmirror
  rcases hmirror with hlost | ⟨hresult, hstate⟩
  · cases result with
    | done v => exact hlost.elim
    | failed e => exact hlost.elim
    | crashed => exact hlost.elim
    | cut => exact (hcut rfl).elim
  · exact ⟨(callFunction limit budget' pos f args t).2, Prod.ext hresult.symm rfl, hstate⟩

theorem CallEnds.alike {s t s' : State} {result : Result Value} (h : Alike s t)
    (hs : CallEnds limit pos f args s result s') :
    ∃ t', CallEnds limit pos f args t result t' ∧ Alike s' t' := by
  obtain ⟨hcut, budget, hrun⟩ := hs
  obtain ⟨t', ht, hstate⟩ := callFunction_of_alike h hcut hrun (Nat.le_refl budget)
  exact ⟨t', ⟨hcut, budget, ht⟩, hstate⟩

theorem CallEnds.eq_of_alike {s t s' t' : State} {result result' : Result Value} (h : Alike s t)
    (hs : CallEnds limit pos f args s result s') (ht : CallEnds limit pos f args t result' t') :
    result = result' ∧ Alike s' t' := by
  obtain ⟨hcut, budget, hrun⟩ := hs
  obtain ⟨hcut', budget', hrun'⟩ := ht
  -- the run with the smaller budget decides how the other one ends
  rcases Nat.le_total budget budget' with hle | hle
  · obtain ⟨u, hu, hstate⟩ := callFunction_of_alike h hcut hrun hle
    cases hu.symm.trans hrun'
    exact ⟨rfl, hstate⟩
  · obtain ⟨u, hu, hstate⟩ := callFunction_of_alike h.symm hcut' hrun' hle
    cases hu.symm.trans hrun
    exact ⟨rfl, hstate.symm⟩

/-- Functions cannot observe the locals of their caller: of two callers that differ in these alone, a
call ends for both or for neither, and then with one result, one output and the same globals. -/
theorem callFunction_isolated {s t : State} (h : Alike s t) (limit : Nat) (pos : Position)
    (f : Function) (args : List Value) :
    ((∃ result s', CallEnds limit pos f args s result s') ↔
      ∃ result t', CallEnds limit pos f args t result t') ∧
    ∀ result s' result' t', CallEnds limit pos f args s result s' →
      CallEnds limit pos f args t result' t' → result = result' ∧ Alike s' t' := by
  refine ⟨⟨?_, ?_⟩, fun _ _ _ _ hs ht => hs.eq_of_alike h ht⟩
  · rintro ⟨result, s', hs⟩
    obtain ⟨t', ht, -⟩ := hs.alike h
    exact ⟨result, t', ht⟩
  · rintro ⟨result, t', ht⟩
    obtain ⟨s', hs, -⟩ := ht.alike h.symm
    exact ⟨result, s', hs⟩

/-- The name that the body assigns is a local of the first caller and unbound for the second, and the
globals are in another order. -/
theorem callFunction_isolated_assignment :
    let f : Function := ⟨"f", [], [.assign "x" (.var ⟨1, 1⟩ "a"), .ret (.var ⟨1, 1⟩ "x")]⟩
    let s : State := ⟨⟨⟨[("a", .int 1), ("b", .int 2)]⟩, [⟨[("x", .int 5)]⟩]⟩, 0, .unlimited⟩
    let t : State := ⟨⟨⟨[("b", .int 2), ("a", .int 1)]⟩, []⟩, 0, .unlimited⟩
    ∃ s' t', CallEnds 1 ⟨1, 1⟩ f [] s (.done (.int 1)) s' ∧
      CallEnds 1 ⟨1, 1⟩ f [] t (.done (.int 1)) t' ∧ Alike s' t' := by
  intro f s t
  have hst : Alike s t := by
    refine ⟨fun name => ?_, rfl, rfl⟩
    by_cases ha : name = "a"
    · subst ha
      rfl
    · have ha' : (name == "a") = false := by simpa using ha
      simp only [s, t, Frame.get?, List.lookup_cons, ha', List.lookup_nil]
  have h := callFunction_isolated hst 1 ⟨1, 1⟩ f []
  have hs : CallEnds 1 ⟨1, 1⟩ f [] s (.done (.int 1)) s := ⟨by simp, 2, rfl⟩
  obtain ⟨result, t', ht⟩ := h.1.1 ⟨_, _, hs⟩
  obtain ⟨rfl, hstate⟩ := h.2 _ _ _ _ hs ht
  exact ⟨s, t', hs, ht, hstate⟩

end Abacus
