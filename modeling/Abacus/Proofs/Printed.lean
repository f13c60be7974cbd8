import Abacus.Proofs.CallDepth
import Abacus.Proofs.Sinks
import Abacus.Session

/-!
# Printed texts

A sink that takes everything and holds a text holds a text after every run, since lines are written to
it whole. A run is set beside itself: its states are those of before with a text in the sink, and the
elementary steps keep it so. What a session of its own prints is therefore a text, and it does not
depend on the budget unless the run is cut off.
-/

namespace Abacus

/-- A sink that takes everything, with a text in it. -/
structure Sink.Spelled (s : Sink) : Prop where
  unbounded : s.capacity = none
  text : ∃ text : String, s.written = text.toUTF8

theorem Sink.spelled_unlimited : Sink.unlimited.Spelled := ⟨rfl, "", rfl⟩

theorem Sink.Spelled.printLine {s : Sink} (h : s.Spelled) (line : String) :
    (s.printLine line).2.Spelled := by
  obtain ⟨hcapacity, text, htext⟩ := h
  have hwrite : s.write (Sink.lineBytes line) =
      (none, { s with written := s.written ++ Sink.lineBytes line }) := by
    rw [Sink.write, hcapacity]
  rw [Sink.printLine_eq, hwrite]
  refine ⟨hcapacity, text ++ (line ++ "\n"), ?_⟩
  rw [String.toUTF8_eq_toByteArray, String.toByteArray_append, htext, Sink.lineBytes]
  rfl

theorem Sink.Spelled.call {s : Sink} (h : s.Spelled) (b : Builtin) (args : List Value) :
    (b.call args s).2.Spelled := by
  have hprint := h.printLine (Builtin.printed args)
  by_cases hb : b = .print
  · rw [Builtin.call, if_pos hb]
    rcases hline : s.printLine (Builtin.printed args) with ⟨_ | e, sink⟩ <;> rw [hline] at hprint <;>
      exact hprint
  · obtain ⟨result, hcall⟩ := Builtin.call_eq_of_ne_print hb args
    rw [hcall]
    exact h

def State.Spelled (s t : State) : Prop := s = t ∧ s.sink.Spelled

theorem callBuiltin_spelled (pos : Position) (b : Builtin) (args : List Value) :
    Action.Mirrored State.Spelled (fun _ => False) (Action.callBuiltin pos b args)
      (Action.callBuiltin pos b args) := by
  rintro s _ ⟨rfl, hs⟩
  have hcall := hs.call b args
  refine .inr ⟨rfl, rfl, ?_⟩
  rw [Action.callBuiltin]
  rcases hout : b.call args s.sink with ⟨result, sink⟩
  rw [hout] at hcall
  rw [Action.attempt_state]
  exact hcall

theorem spelled_mirror : Mirror State.Spelled fun _ => False where
  depth h := h.1 ▸ rfl
  enter := by
    rintro s _ ⟨rfl, hs⟩ f
    exact ⟨rfl, hs⟩
  leave := by
    rintro s _ s' _ ⟨rfl, _⟩ ⟨rfl, hs'⟩
    exact ⟨rfl, hs'⟩
  lookup h _ := h.1 ▸ rfl
  builtin := callBuiltin_spelled
  declare := by
    rintro s _ ⟨rfl, hs⟩ name v
    exact ⟨rfl, hs⟩
  assign := by
    rintro s _ ⟨rfl, hs⟩ name v
    exact ⟨rfl, hs⟩
  push := by
    rintro s _ ⟨rfl, hs⟩ f
    exact ⟨rfl, hs⟩
  pop := by
    rintro s _ ⟨rfl, hs⟩
    exact ⟨rfl, hs⟩

theorem Program.run_spelled (limit budget : Nat) (p : Program) {s : State} (hs : s.sink.Spelled)
    (hcut : (p.run limit budget s).1 ≠ .cut) : (p.run limit budget s).2.sink.Spelled := by
  have hcall := callFunction_mirrored spelled_mirror spelled_mirror.toEncloses (Nat.le_refl limit)
    (.inl rfl) (Nat.le_refl budget)
  have hrun : Action.Mirrored State.Spelled (fun _ => False) (p.run limit budget)
      (p.run limit budget) :=
    (Stmt.execAll_mirrored spelled_mirror hcall (Nat.le_refl budget) p .none).bind fun _ =>
      Action.mirrored_pure _
  have hkept := Result.not_lost hcut fun _ _ => id
  exact ((hrun s s ⟨rfl, hs⟩).resolve_left hkept).2.2

namespace Session

variable {s s' : Session} {source : String} {budget budget' : Nat} {answer : Answer}

theorem ofResult_eq_cut {result : Result Value} : Answer.ofResult result = .cut ↔ result = .cut := by
  cases result <;> simp [Answer.ofResult]

theorem execute_mono (hle : budget ≤ budget') (hcut : answer ≠ .cut)
    (h : s.execute budget source = (answer, s')) : s.execute budget' source = (answer, s') := by
  rw [execute] at h ⊢
  cases hread : Token.tokenize source >>= Program.parse with
  | error e => simpa [hread] using h
  | ok p =>
    simp only [hread, run] at h ⊢
    obtain ⟨rfl, rfl⟩ := Prod.mk.inj h
    have hresult : (p.run s.limit budget s.state).1 ≠ .cut := fun he =>
      hcut (ofResult_eq_cut.mpr he)
    have hrun : p.run s.limit budget' s.state = p.run s.limit budget s.state :=
      Program.run_mono hle hresult rfl
    rw [hrun]

theorem execute_spelled (hs : s.state.sink.Spelled) (hcut : answer ≠ .cut)
    (h : s.execute budget source = (answer, s')) : s'.state.sink.Spelled := by
  rw [execute] at h
  cases hread : Token.tokenize source >>= Program.parse with
  | error e =>
    simp only [hread, Prod.mk.injEq] at h
    exact h.2 ▸ hs
  | ok p =>
    simp only [hread, run] at h
    obtain ⟨rfl, rfl⟩ := Prod.mk.inj h
    exact p.run_spelled s.limit budget hs fun he => hcut (ofResult_eq_cut.mpr he)

end Session

end Abacus
