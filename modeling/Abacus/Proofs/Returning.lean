import Abacus.Proofs.Printer
import Abacus.Proofs.ProgramReading
import Abacus.Proofs.Propagation
import Abacus.Text.Identifier
import Abacus.Token.Lexer
import Mathlib.Data.List.Basic

/-!
# Returning

A `return` ends the function that it stands in. The reader takes none that stands in no function, and a
statement without such a one never ends with a `return`: a call gives back a value, however its body
ends. So a program that was read is executed up to its last statement unless one of them fails.
-/

namespace Abacus

namespace Grammar

mutual

theorem Statement.returns_eq_false {ts : List Token} {st : Stmt} :
    Statement false ts st → st.returns = false
  | .declare .. => rfl
  | .ifThen _ _ hb => by
    rw [Stmt.returns]
    exact hb.anyReturns_eq_false
  | .ifElse _ _ hyes _ hno => by
    rw [Stmt.returns, hyes.anyReturns_eq_false, hno.anyReturns_eq_false]
    rfl
  | .forEach _ _ _ _ hb => by
    rw [Stmt.returns]
    exact hb.anyReturns_eq_false
  | .loop _ _ hb => by
    rw [Stmt.returns]
    exact hb.anyReturns_eq_false
  | .define .. => rfl
  | .defineExpr .. => rfl
  | .assign .. => rfl
  | .expr .. => rfl

theorem Block.anyReturns_eq_false {ts : List Token} {ss : List Stmt} :
    Block false ts ss → Stmt.anyReturns ss = false
  | .braces _ hss _ => hss.anyReturns_eq_false

theorem Statements.anyReturns_eq_false {ts : List Token} {ss : List Stmt} :
    Statements false ts ss → Stmt.anyReturns ss = false
  | .nil => rfl
  | .cons hs hss => by
    rw [Stmt.anyReturns, hs.returns_eq_false, hss.anyReturns_eq_false]
    rfl

end

end Grammar

theorem Stmt.anyReturns_eq_false_iff {ss : List Stmt} :
    Stmt.anyReturns ss = false ↔ ∀ st ∈ ss, st.returns = false := by
  induction ss with
  | nil => simp [Stmt.anyReturns]
  | cons st ss ih => simp [Stmt.anyReturns, ih]

theorem Program.anyReturns_of_parse {ts : List Token} {p : Program} (h : parse ts = .ok p) :
    Stmt.anyReturns p = false := by
  rw [parse, Parser.statements_eq_ok] at h
  obtain ⟨new, rfl, derived⟩ := h
  exact derived.anyReturns_eq_false

namespace Action

def Proceeds (m : Action Flow) : Prop := ∀ s v, (m s).1 ≠ .done (.returned v)

theorem proceeds_normal (v : Value) : (pure (.normal v) : Action Flow).Proceeds := by
  intro s w h
  cases h

theorem proceeds_fail (pos : Position) (fault : Fault) : (fail pos fault : Action Flow).Proceeds := by
  intro s w h
  cases h

theorem proceeds_bind {m : Action α} {f : α → Action Flow} (hf : ∀ a, (f a).Proceeds) :
    (m >>= f).Proceeds := by
  intro s w h
  obtain ⟨a, t, -, hreturned⟩ := bind_eq_done (Prod.ext h rfl)
  exact hf a t w (congrArg Prod.fst hreturned)

theorem Proceeds.bind {m : Action Flow} {f : Flow → Action Flow} (hm : m.Proceeds)
    (hf : ∀ v, (f (.normal v)).Proceeds) : (m >>= f).Proceeds := by
  intro s w h
  obtain ⟨flow, t, hflow, hreturned⟩ := bind_eq_done (Prod.ext h rfl)
  cases flow with
  | normal v => exact hf v t w (congrArg Prod.fst hreturned)
  | returned v => exact hm s v (congrArg Prod.fst hflow)

theorem Proceeds.within {m : Action Flow} (hm : m.Proceeds) (f : Frame) : (m.within f).Proceeds :=
  fun s v => hm { s with scopes := s.scopes.push f } v

end Action

open Abacus.Action

section Execution

variable {call : Caller} {rounds : Nat}

theorem iterate_proceeds {body : Action Flow} (hbody : body.Proceeds) (name : String)
    (vs : List Value) : (iterate name body vs).Proceeds := by
  induction vs with
  | nil => exact proceeds_normal .none
  | cons v vs ih =>
    rw [iterate_cons]
    exact (hbody.within _).bind fun _ => ih

theorem repeatWhile_proceeds (cond : Action Value) {body : Action Flow} (hbody : body.Proceeds)
    (rounds : Nat) : (repeatWhile cond body rounds).Proceeds := by
  induction rounds with
  | zero =>
    intro s v h
    cases h
  | succ rounds ih =>
    rw [repeatWhile]
    refine proceeds_bind fun v => ?_
    split
    · exact hbody.bind fun _ => ih
    · exact proceeds_normal .none

mutual

/-- A statement without a `return` outside of functions never ends with one, whatever is called. -/
theorem Stmt.exec_proceeds :
    ∀ st : Stmt, st.returns = false → (st.exec rounds call).Proceeds
  | .declare name _ e, _ => by
    rw [Stmt.exec]
    refine proceeds_bind fun v s w h => ?_
    cases h
  | .define name params _ body, _ => by
    rw [Stmt.exec]
    intro s w h
    cases h
  | .ifThen c body, hst => by
    rw [Stmt.exec]
    refine proceeds_bind fun v => ?_
    split
    · exact Stmt.execAll_proceeds body .none hst
    · exact proceeds_normal .none
  | .ifElse c yes no, hst => by
    rw [Stmt.returns, Bool.or_eq_false_iff] at hst
    rw [Stmt.exec]
    refine proceeds_bind fun v => ?_
    split
    · exact Stmt.execAll_proceeds yes .none hst.1
    · exact Stmt.execAll_proceeds no .none hst.2
  | .forEach name e body, hst => by
    rw [Stmt.exec]
    refine proceeds_bind fun v => ?_
    split
    · exact iterate_proceeds (Stmt.execAll_proceeds body .none hst) name _
    · exact proceeds_fail _ _
  | .loop c body, hst => by
    rw [Stmt.exec]
    exact repeatWhile_proceeds _ (Stmt.execAll_proceeds body .none hst) rounds
  | .assign name e, _ => by
    rw [Stmt.exec]
    refine proceeds_bind fun v s w h => ?_
    cases h
  | .expr e, _ => by
    rw [Stmt.exec]
    exact proceeds_bind fun v => proceeds_normal v

theorem Stmt.execAll_proceeds :
    ∀ (ss : List Stmt) (last : Value), Stmt.anyReturns ss = false →
      (Stmt.execAll rounds call ss last).Proceeds
  | [], last, _ => by
    rw [Stmt.execAll]
    exact proceeds_normal last
  | st :: ss, last, hss => by
    rw [Stmt.anyReturns, Bool.or_eq_false_iff] at hss
    rw [Stmt.execAll]
    exact (Stmt.exec_proceeds st hss.1).bind fun v => Stmt.execAll_proceeds ss v hss.2

end

def Stmt.valued (rounds : Nat) (call : Caller) (st : Stmt) : Action Value := do
  return (← st.exec rounds call).value

theorem Stmt.execAll_eq_foldlM {ss : List Stmt} (hss : Stmt.anyReturns ss = false) (last : Value) :
    (do return (← Stmt.execAll rounds call ss last).value) =
      ss.foldlM (fun _ st => st.valued rounds call) last := by
  induction ss generalizing last with
  | nil => rfl
  | cons st ss ih =>
    rw [Stmt.anyReturns, Bool.or_eq_false_iff] at hss
    rw [List.foldlM_cons, Stmt.execAll]
    funext s
    rcases hst : st.exec rounds call s with ⟨result, t⟩
    cases result with
    | done flow =>
      cases flow with
      | normal v =>
        have hvalue : st.valued rounds call s = (.done v, t) := bind_of_done hst
        rw [bind_of_done hvalue, ← ih hss.2 v]
        change Action.bind (Action.bind _ _) _ s = Action.bind _ _ t
        rw [Action.bind, Action.bind, hst, Action.bind]
      | returned v => exact absurd (congrArg Prod.fst hst) (st.exec_proceeds hss.1 s v)
    | failed e =>
      have hvalue : st.valued rounds call s = (.failed e, t) := bind_of_failed hst
      rw [bind_of_failed hvalue]
      exact bind_of_failed (bind_of_failed hst)
    | crashed =>
      have hvalue : st.valued rounds call s = (.crashed, t) := bind_of_crashed hst
      rw [bind_of_crashed hvalue]
      exact bind_of_crashed (bind_of_crashed hst)
    | cut =>
      have hvalue : st.valued rounds call s = (.cut, t) := bind_of_cut hst
      rw [bind_of_cut hvalue]
      exact bind_of_cut (bind_of_cut hst)

end Execution

namespace Program

/-- A program that was read has no `return` outside of its functions. None of its statements ends with
one, and a run executes them all in order, for the value of the last one, unless one of them fails. -/
theorem parsed_runs_through {ts : List Token} {p : Program} (h : parse ts = .ok p) :
    (∀ st ∈ p, st.returns = false) ∧
    (∀ st ∈ p, ∀ limit budget s v t,
      st.exec budget (callFunction limit budget) s ≠ (.done (.returned v), t)) ∧
    ∀ limit budget, p.run limit budget =
      p.foldlM (fun _ st => do return (← st.exec budget (callFunction limit budget)).value) .none := by
  have hreturns := anyReturns_of_parse h
  have hall := Stmt.anyReturns_eq_false_iff.mp hreturns
  refine ⟨hall, fun st hst limit budget s v t hexec => ?_, fun limit budget => ?_⟩
  · exact st.exec_proceeds (hall st hst) s v (congrArg Prod.fst hexec)
  · exact Stmt.execAll_eq_foldlM hreturns .none

/-- A function that returns out of a loop. The statement after its call is executed all the same. -/
theorem parsed_runs_through_loop :
    let source := "f(xs) => { for x in xs { ? x { return x; } } } f([0, 3]); 7;"
    let p : Program := [
      .define "f" [⟨"xs", none⟩] none
        [.forEach "x" (.var ⟨1, 21⟩ "xs") [.ifThen (.var ⟨1, 28⟩ "x") [.ret (.var ⟨1, 39⟩ "x")]]],
      .expr (.call ⟨1, 48⟩ "f"
        [.array ⟨1, 50⟩ [.literal ⟨1, 51⟩ (.int 0), .literal ⟨1, 54⟩ (.int 3)]]),
      .expr (.literal ⟨1, 59⟩ (.int 7))]
    let s : State := ⟨⟨.empty, []⟩, 0, .unlimited⟩
    ∃ ts, Token.tokenize source = .ok ts ∧ parse ts = .ok p ∧ (∀ st ∈ p, st.returns = false) ∧
      (∀ st ∈ p, ∀ limit budget s v t,
        st.exec budget (callFunction limit budget) s ≠ (.done (.returned v), t)) ∧
      p.run 1 2 = p.foldlM (fun _ st => do return (← st.exec 2 (callFunction 1 2)).value) .none ∧
      (p.run 1 2 s).1 = .done (.int 7) := by
  intro source p s
  let ts : List Token := [⟨.ident, .lexeme "f", ⟨1, 1⟩⟩, ⟨.leftParen, .lexeme "(", ⟨1, 2⟩⟩,
    ⟨.ident, .lexeme "xs", ⟨1, 3⟩⟩, ⟨.rightParen, .lexeme ")", ⟨1, 5⟩⟩, ⟨.arrow, .lexeme "=>", ⟨1, 7⟩⟩,
    ⟨.leftBrace, .lexeme "\x7b", ⟨1, 10⟩⟩, ⟨.kwFor, .lexeme "for", ⟨1, 12⟩⟩,
    ⟨.ident, .lexeme "x", ⟨1, 16⟩⟩, ⟨.kwIn, .lexeme "in", ⟨1, 18⟩⟩, ⟨.ident, .lexeme "xs", ⟨1, 21⟩⟩,
    ⟨.leftBrace, .lexeme "\x7b", ⟨1, 24⟩⟩, ⟨.question, .lexeme "?", ⟨1, 26⟩⟩,
    ⟨.ident, .lexeme "x", ⟨1, 28⟩⟩, ⟨.leftBrace, .lexeme "\x7b", ⟨1, 30⟩⟩,
    ⟨.kwReturn, .lexeme "return", ⟨1, 32⟩⟩, ⟨.ident, .lexeme "x", ⟨1, 39⟩⟩,
    ⟨.semicolon, .lexeme ";", ⟨1, 40⟩⟩, ⟨.rightBrace, .lexeme "\x7d", ⟨1, 42⟩⟩,
    ⟨.rightBrace, .lexeme "\x7d", ⟨1, 44⟩⟩, ⟨.rightBrace, .lexeme "\x7d", ⟨1, 46⟩⟩,
    ⟨.ident, .lexeme "f", ⟨1, 48⟩⟩, ⟨.leftParen, .lexeme "(", ⟨1, 49⟩⟩,
    ⟨.leftBracket, .lexeme "[", ⟨1, 50⟩⟩, ⟨.int, .int 0, ⟨1, 51⟩⟩, ⟨.comma, .lexeme ",", ⟨1, 52⟩⟩,
    ⟨.int, .int 3, ⟨1, 54⟩⟩, ⟨.rightBracket, .lexeme "]", ⟨1, 55⟩⟩, ⟨.rightParen, .lexeme ")", ⟨1, 56⟩⟩,
    ⟨.semicolon, .lexeme ";", ⟨1, 57⟩⟩, ⟨.int, .int 7, ⟨1, 59⟩⟩, ⟨.semicolon, .lexeme ";", ⟨1, 60⟩⟩,
    .eof ⟨1, 61⟩]
  have htokens : Token.tokenize source = .ok ts := by decide +kernel
  have hparses : parse ts = .ok p := by with_unfolding_all rfl
  obtain ⟨hreturns, hexec, hrun⟩ := parsed_runs_through hparses
  exact ⟨ts, htokens, hparses, hreturns, hexec, hrun 1 2, rfl⟩

end Program

end Abacus
