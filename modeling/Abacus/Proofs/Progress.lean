import Abacus.Proofs.LargerBudget
import Abacus.Proofs.ProgramWalking

/-!
# Reading moves on and ends

From every cursor over every list of tokens the walks end. What is read is a token or more, and neither
an end token nor the end of the list is passed. So a list of tokens is always read to an answer, and it
is the one of the readers that use up a list.
-/

namespace Abacus.Walk

open Abacus.Parser (Reading)

def enough (ts : List Token) : Nat := 8 * (ts.length + 1)

/-- A walk from a cursor ends with every budget that is large enough. It leaves the depth as it was and
gives what a reader gives; errors are the same as they are reported. After a value the cursor is further
on, and has passed no end token. -/
def Ends {α : Type} (ts : List Token) (c : Cursor) (w : Nat → Walk α)
    (reader : (stop : Position) → (us : List Token) → Except SyntaxError (Reading us α)) : Prop :=
  ∃ result after, (∀ more, w (enough ts + more) c = some (result, after)) ∧
    after.depth = c.depth ∧
    result.mapError SyntaxError.report =
      ((reader (stopAt ts (c.index + (seen ts c.index).length)) (seen ts c.index)).map
        Reading.value).mapError SyntaxError.report ∧
    ∀ a, result = .ok a → c.index < after.index ∧
      ∀ i, c.index ≤ i → i < after.index → ∃ t, ts[i]? = some t ∧ t.kind ≠ .eof

theorem sees_seen (ts : List Token) (i : Nat) : Sees ts (i + (seen ts i).length) i (seen ts i) :=
  ⟨rfl, rfl⟩

theorem Sees.getElem? {ts us : List Token} {fin i j : Nat} (h : Sees ts fin i us) (hi : i ≤ j)
    (hj : j < fin) : ∃ t, ts[j]? = some t ∧ t.kind ≠ .eof := by
  induction us generalizing i with
  | nil =>
    have hends : i = fin := h.ends
    omega
  | cons t us ih =>
    rcases seen_cases ts i with ⟨-, hseen⟩ | ⟨hget, hkind, -⟩
    · cases h.seen_eq.symm.trans hseen
    · rcases Nat.eq_or_lt_of_le hi with rfl | hlt
      · exact ⟨_, hget, hkind⟩
      · exact ih h.of_cons.2.2 hlt

theorem length_seen_le (ts : List Token) (i : Nat) : (seen ts i).length ≤ ts.length :=
  Nat.le_trans (List.takeWhile_sublist _).length_le (by simp)

theorem Agrees.ends {α : Type} {ts : List Token} {c : Cursor} {w : Nat → Walk α}
    {reader : (stop : Position) → (us : List Token) → Except SyntaxError (Reading us α)}
    (hw : ∀ n, Covers (w n) (w (n + 1)))
    (h : Agrees ts (c.index + (seen ts c.index).length) c (w (enough ts))
      ((reader (stopAt ts (c.index + (seen ts c.index).length)) (seen ts c.index)).map Reading.out)) :
    Ends ts c w reader := by
  have hmore : ∀ x more, w (enough ts) c = some x → w (enough ts + more) c = some x :=
    fun x more hx => covers_of_le hw (Nat.le_add_right _ more) c x hx
  unfold Ends
  rcases hp : reader (stopAt ts (c.index + (seen ts c.index).length)) (seen ts c.index) with e | r <;>
    rw [hp] at h
  · obtain ⟨e', j, hw, hreport⟩ := h
    exact ⟨.error e', ⟨j, c.depth⟩, fun more => hmore _ more hw, rfl, congrArg Except.error hreport,
      fun _ ha => by cases ha⟩
  · obtain ⟨j, hw, hj⟩ := h
    have hends : j + r.rest.length = c.index + (seen ts c.index).length := hj.ends
    have hshorter := r.shorter
    refine ⟨.ok r.value, ⟨j, c.depth⟩, fun more => hmore _ more hw, rfl, rfl,
      fun _ _ => ⟨?_, fun i hi hlt => ?_⟩⟩
    · show c.index < j
      omega
    · have hij : i < j := hlt
      exact (sees_seen ts c.index).getElem? hi (by omega)

theorem upToEnd_eq (ts : List Token) :
    Parser.upToEnd ts = (seen ts 0, stopAt ts (0 + (seen ts 0).length)) := by
  refine Prod.ext rfl ?_
  simp only [Parser.upToEnd, stopAt, Nat.zero_add]
  rcases hf : ts.find? (·.kind = .eof) with _ | t
  · have hall : ∀ t ∈ ts, t.kind ≠ .eof := by simpa using hf
    have hseen : seen ts 0 = ts := by simpa [seen] using hall
    have hlast : ts.getLast?.filter (·.kind = .eof) = none :=
      Option.filter_eq_none_iff.mpr fun t ht => by simpa using hall t (List.mem_of_getLast? ht)
    rw [hf, hseen, tokenAt, hlast]
    simp [Token.eof]
  · obtain ⟨ht, before, after, rfl, hbefore⟩ := List.find?_eq_some_iff_append.mp hf
    have hseen : seen (before ++ t :: after) 0 = before := by
      rw [seen, List.drop_zero, List.takeWhile_append_of_pos (by simpa using hbefore),
        List.takeWhile_cons_of_neg (by simpa using ht), List.append_nil]
    have hget : (before ++ t :: after)[before.length]? = some t := by simp
    rw [hf, hseen, tokenAt_of_getElem? hget]
    rfl

theorem parse_ends (ts : List Token) :
    ∃ result, (∀ more, parse ts (enough ts + more) = some result) ∧
      result.mapError SyntaxError.report = (Program.parse ts).mapError SyntaxError.report := by
  have hbudget : 8 * (seen ts 0).length + 6 ≤ enough ts := by
    have := length_seen_le ts 0
    simp only [enough]
    omega
  have h : Agrees ts _ ⟨0, 0⟩ (program ts (enough ts) []) _ := agrees_program hbudget (sees_seen ts 0)
  have hmore : ∀ x more, program ts (enough ts) [] ⟨0, 0⟩ = some x →
      program ts (enough ts + more) [] ⟨0, 0⟩ = some x := fun x more hx =>
    covers_of_le (fun n => covers_program n []) (Nat.le_add_right _ more) _ x hx
  rw [Program.parse, upToEnd_eq]
  simp only [parse]
  rcases hp : Parser.statements (stopAt ts (0 + (seen ts 0).length)) [] (seen ts 0) with e | p <;>
    rw [hp] at h
  · obtain ⟨e', j, hw, hreport⟩ := h
    exact ⟨.error e', fun more => by rw [hmore _ more hw]; rfl, congrArg Except.error hreport⟩
  · obtain ⟨j, hw, -⟩ := h
    exact ⟨.ok p, fun more => by rw [hmore _ more hw]; rfl, rfl⟩

/-- Every walk ends and moves on, from every cursor. -/
theorem walks_progress (ts : List Token) :
    (∀ c : Cursor,
      Ends ts c (statement ts) (fun stop => Parser.statement stop (decide (0 < c.depth))) ∧
      Ends ts c (expr ts) Parser.expr ∧
      Ends ts c (function ts) Parser.function ∧
      ∀ more, isFunction ts (enough ts + more) c =
        some (.ok (Parser.isHead (seen ts c.index).tail), c)) ∧
    ∃ result, (∀ more, parse ts (enough ts + more) = some result) ∧
      result.mapError SyntaxError.report = (Program.parse ts).mapError SyntaxError.report := by
  refine ⟨fun c => ?_, parse_ends ts⟩
  have hs := sees_seen ts c.index
  have hbudget : 8 * (seen ts c.index).length + 8 ≤ enough ts := by
    have := length_seen_le ts c.index
    simp only [enough]
    omega
  refine ⟨?_, ?_, ?_, fun more => isFunction_eq (by omega) hs⟩
  · exact (performs_statement _ c.index c.depth _ (by omega) hs).ends
      fun n => (statements_covered n).statement
  · exact (walks_expr _ c.index _ (by omega) hs).ends covers_expr
  · exact (agrees_function (fun us _ => performs_statement us) (Nat.le_refl _) (by omega) hs).ends
      fun n => (statements_covered n).function

end Abacus.Walk
