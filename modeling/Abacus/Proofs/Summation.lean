import Abacus.Builtin.Call
import Abacus.Proofs.Comparison

/-!
# The sum of an array

The sum goes through the elements once. As long as they are integers, the total is their exact sum;
from the first float on it is a float, which never leaves the range. So the sum stops at the first
element that is no number, or where the exact sum of integers first leaves the range, whichever comes
first. The first is a type error and the second a value error.
-/

namespace Abacus.Builtin

open Value BinaryOp

variable {vs : List Value} {v total : Value} {n : Int} {i : Nat}

def SumsTo (vs : List Value) (n : Int) : Prop :=
  ∃ ns : List Int64, vs = ns.map Value.int ∧ n = (ns.map Int64.toInt).sum

/-- The sum does not get past the `i`th element: it is no number, or the elements up to it are integers
whose sum is out of range. -/
def Stops (vs : List Value) (i : Nat) : Prop :=
  ∃ v, vs[i]? = some v ∧
    (v.isNumber = false ∨ ∃ n, SumsTo (vs.take (i + 1)) n ∧ ¬ Fits n)

theorem SumsTo.eq {m : Int} (hm : SumsTo vs m) (hn : SumsTo vs n) : m = n := by
  obtain ⟨ms, hms, rfl⟩ := hm
  obtain ⟨ns, hns, rfl⟩ := hn
  have same : ms = ns := List.map_injective_iff.mpr (fun _ _ => Value.int.inj) (hms.symm.trans hns)
  rw [same]

theorem sumsTo_append_iff :
    SumsTo (vs ++ [v]) n ↔ ∃ m k, SumsTo vs m ∧ v = .int k ∧ n = m + k.toInt := by
  constructor
  · rintro ⟨ns, ints, rfl⟩
    obtain ⟨ms, last, rfl, rfl, hlast⟩ := List.map_eq_append_iff.mp ints.symm
    obtain ⟨k, rfl, rfl⟩ := List.map_eq_singleton_iff.mp hlast
    exact ⟨_, k, ⟨ms, rfl, rfl⟩, rfl, by simp⟩
  · rintro ⟨m, k, ⟨ms, rfl, rfl⟩, rfl, rfl⟩
    exact ⟨ms ++ [k], by simp, by simp⟩

section Steps

def addNext (total v : Value) : Except Fault Value := do
  let _ ← sum.number v
  add.apply total v

theorem sum_eq_foldlM (vs : List Value) :
    sum.compute [.array vs] = vs.foldlM addNext (.int 0) := rfl

/-- The total of numbers that were all added. -/
inductive Totals : List Value → Value → Prop
  | integers {vs : List Value} {n : Int64} : SumsTo vs n.toInt → Totals vs (.int n)
  | numbers {vs : List Value} {x : Binary64} : (∀ n, ¬ SumsTo vs n) → Totals vs (.float x)

theorem addNext_of_not_number (h : v.isNumber = false) (total : Value) :
    FailsWith .type (addNext total v) := by
  refine ⟨.notNumber sum v.ty, ?_, rfl⟩
  cases v with
  | int | float => cases h
  | none | text | bool | array | function | builtin => rfl

theorem addNext_float (h : v.isNumber = true) (x : Binary64) :
    ∃ y, addNext (.float x) v = .ok (.float y) := by
  cases v with
  | int | float => exact ⟨_, rfl⟩
  | none | text | bool | array | function | builtin => cases h

theorem Totals.step (h : Totals vs total) (number : v.isNumber = true)
    (fits : ∀ n, SumsTo (vs ++ [v]) n → Fits n) :
    ∃ next, addNext total v = .ok next ∧ Totals (vs ++ [v]) next := by
  cases h with
  | numbers float =>
    obtain ⟨y, answer⟩ := addNext_float number _
    refine ⟨_, answer, .numbers fun n hn => ?_⟩
    obtain ⟨m, -, hm, -⟩ := sumsTo_append_iff.mp hn
    exact float m hm
  | @integers n sum =>
    cases v with
    | int k =>
      have sum' : SumsTo (vs ++ [.int k]) (n.toInt + k.toInt) :=
        sumsTo_append_iff.mpr ⟨_, k, sum, rfl, rfl⟩
      obtain ⟨i, hi, answer⟩ := (integer_exactly add _).fits (fits _ sum')
      exact ⟨_, answer, .integers (hi ▸ sum')⟩
    | float x =>
      refine ⟨_, rfl, .numbers fun m hm => ?_⟩
      obtain ⟨-, k, -, hk, -⟩ := sumsTo_append_iff.mp hm
      cases hk
    | none | text | bool | array | function | builtin => cases number

theorem Totals.overflow (h : Totals vs total) (sum : SumsTo (vs ++ [v]) n) (beyond : ¬ Fits n) :
    FailsWith .value (addNext total v) := by
  obtain ⟨m, k, hm, rfl, rfl⟩ := sumsTo_append_iff.mp sum
  cases h with
  | numbers float => exact absurd hm (float m)
  | integers hm' =>
    rw [hm.eq hm'] at beyond
    exact (integer_exactly add _).overflows beyond

end Steps

section Runs

theorem take_add_one_of_getElem? (h : vs[i]? = some v) : vs.take (i + 1) = vs.take i ++ [v] := by
  rw [List.take_add_one, h, Option.toList_some]

theorem foldlM_snoc (vs : List Value) (v : Value) :
    (vs ++ [v]).foldlM addNext (.int 0) =
      vs.foldlM addNext (.int 0) >>= fun total => addNext total v := by
  simp only [List.foldlM_append, List.foldlM_cons, List.foldlM_nil, bind_pure]

theorem exists_total (hi : i ≤ vs.length) (h : ∀ j < i, ¬ Stops vs j) :
    ∃ total, (vs.take i).foldlM addNext (.int 0) = .ok total ∧ Totals (vs.take i) total := by
  induction i with
  | zero => exact ⟨.int 0, rfl, .integers ⟨[], rfl, rfl⟩⟩
  | succ i ih =>
    obtain ⟨total, run, totals⟩ := ih (by omega) fun j hj => h j (by omega)
    have next : vs[i]? = some vs[i] := List.getElem?_eq_getElem hi
    have goes : ¬ Stops vs i := h i (by omega)
    have number : vs[i].isNumber = true := by
      by_contra none
      exact goes ⟨_, next, .inl (by simpa using none)⟩
    rw [take_add_one_of_getElem? next]
    have fits (n : Int) (sum : SumsTo (vs.take i ++ [vs[i]]) n) : Fits n := by
      by_contra beyond
      exact goes ⟨_, next, .inr ⟨n, take_add_one_of_getElem? next ▸ sum, beyond⟩⟩
    obtain ⟨total', answer, totals'⟩ := totals.step number fits
    refine ⟨total', ?_, totals'⟩
    rw [foldlM_snoc, run]
    exact answer

theorem sum_total (h : ∀ i, ¬ Stops vs i) :
    ∃ total, sum.compute [.array vs] = .ok total ∧ Totals vs total := by
  have all := exists_total le_rfl fun j (_ : j < vs.length) => h j
  rw [List.take_length] at all
  exact all

theorem sum_fails {kind : ErrorKind} (hv : vs[i]? = some v)
    (run : (vs.take i).foldlM addNext (.int 0) = .ok total)
    (fails : FailsWith kind (addNext total v)) : FailsWith kind (sum.compute [.array vs]) := by
  obtain ⟨f, answer, hkind⟩ := fails
  refine ⟨f, ?_, hkind⟩
  have upTo : (vs.take (i + 1)).foldlM addNext (.int 0) = .error f := by
    rw [take_add_one_of_getElem? hv, foldlM_snoc, run]
    exact answer
  rw [sum_eq_foldlM, ← List.take_append_drop (i + 1) vs, List.foldlM_append, upTo]
  rfl

end Runs

theorem sum_exact (vs : List Value) :
    ((∀ i, ¬ Stops vs i) →
      (∀ n, SumsTo vs n → ∃ k : Int64, k.toInt = n ∧ sum.compute [.array vs] = .ok (.int k)) ∧
      ((∀ n, ¬ SumsTo vs n) → ∃ x, sum.compute [.array vs] = .ok (.float x))) ∧
    ∀ i v, Stops vs i → (∀ j < i, ¬ Stops vs j) → vs[i]? = some v →
      (v.isNumber = false → FailsWith .type (sum.compute [.array vs])) ∧
      (v.isNumber = true → FailsWith .value (sum.compute [.array vs])) := by
  constructor
  · intro goes
    obtain ⟨total, answer, totals⟩ := sum_total goes
    constructor
    · intro n hn
      cases totals with
      | @integers k hk => exact ⟨k, hk.eq hn, answer⟩
      | numbers float => exact absurd hn (float n)
    · intro float
      cases totals with
      | @integers k hk => exact absurd hk (float _)
      | @numbers x _ => exact ⟨x, answer⟩
  · intro i v stops first hv
    have inside : i < vs.length := (List.getElem?_eq_some_iff.mp hv).1
    obtain ⟨total, run, totals⟩ := exists_total inside.le first
    constructor
    · intro none
      exact sum_fails hv run (addNext_of_not_number none total)
    · intro number
      obtain ⟨w, hw, none | ⟨n, sum, beyond⟩⟩ := stops
      · cases hv.symm.trans hw
        rw [number] at none
        cases none
      · rw [take_add_one_of_getElem? hv] at sum
        exact sum_fails hv run (totals.overflow sum beyond)

/-- The same two integers exceed the range, unless a float stands before them. -/
theorem sum_exact_mixed :
    (∃ x, sum.compute [.array [.float (.zero false), .int Int64.maxValue, .int 1]] =
      .ok (.float x)) ∧
    FailsWith .value (sum.compute [.array [.int Int64.maxValue, .int 1, .text "a"]]) := by
  constructor
  · have float (ws : List Value) (n : Int) : ¬ SumsTo (.float (.zero false) :: ws) n := by
      rintro ⟨ns, ints, -⟩
      cases ns <;> cases ints
    have goes (i : Nat) : ¬ Stops [.float (.zero false), .int Int64.maxValue, .int 1] i := by
      rintro ⟨v, hv, none | ⟨n, sum, -⟩⟩
      · have mem := List.mem_of_getElem? hv
        simp only [List.mem_cons, List.not_mem_nil, or_false] at mem
        rcases mem with rfl | rfl | rfl <;> cases none
      · exact float _ n sum
    exact ((sum_exact _).1 goes).2 (float _)
  · refine ((sum_exact _).2 1 (.int 1) ⟨.int 1, rfl, .inr ?_⟩ ?_ rfl).2 rfl
    · exact ⟨2 ^ 63, ⟨[Int64.maxValue, 1], rfl, by decide⟩, by decide⟩
    · intro j hj
      obtain rfl : j = 0 := by omega
      rintro ⟨v, hv, none | ⟨n, sum, beyond⟩⟩
      · cases hv
        cases none
      · rw [sum.eq ⟨[Int64.maxValue], rfl, rfl⟩] at beyond
        exact beyond (by decide)

end Abacus.Builtin
