import Abacus.Builtin.Call
import Abacus.Evaluator
import Abacus.Proofs.Broadcast

/-!
# Faults of operations

What an expression does besides calling a function never fails for the depth of the calls: operators
and built-in functions answer, and the output fails with a fault of its own. A built-in function may
give back a function, but only one that it was given. Only a range can find no room.
-/

namespace Abacus

theorem Answers.kind_ne_recursion {P : α → Prop} {f : Fault}
    (h : Answers P (.error f : Except Fault α)) : f.kind ≠ .recursion := by
  rcases h with h | h | h
  · rw [h]
    decide
  · rw [h]
    decide
  · rw [h]
    decide

variable {P : Function → Prop}

open Value

theorem UnaryOp.apply_answers (op : UnaryOp) (v : Value) : Answers (Value.All P) (op.apply v) := by
  unfold apply
  split
  · split
    · exact all_int _
    · exact .value_error rfl
  · exact all_float _
  · exact .type_error rfl
  · exact all_bool _

theorem Value.bounds_answers (first last : Value) :
    Answers (fun made => ∀ v ∈ made, v.All P) (first.bounds last) := by
  unfold bounds
  split
  · exact fun v hv => all_interval hv
  · exact .type_error rfl

namespace Value

theorem interval_eq_none_iff {first last : Int64} :
    interval first last = .none ↔ (maxElements : Int) < last.toInt - first.toInt := by
  rw [interval]
  split
  · constructor
    · intro h
      cases h
    · omega
  · constructor
    · omega
    · exact fun _ => rfl

theorem bounds_eq_none_iff {v w : Value} :
    v.bounds w = .ok .none ↔
      ∃ m n, v = .int m ∧ w = .int n ∧ (maxElements : Int) < n.toInt - m.toInt := by
  constructor
  · intro h
    unfold bounds at h
    split at h
    · exact ⟨_, _, rfl, rfl, interval_eq_none_iff.mp (Except.ok.inj h)⟩
    · cases h
  · rintro ⟨m, n, rfl, rfl, h⟩
    exact congrArg Except.ok (interval_eq_none_iff.mpr h)

end Value

namespace Builtin

section Arguments

theorem one_answers {b : Builtin} {args : List Value} (h : ∀ v ∈ args, v.All P) :
    Answers (Value.All P) (b.one args) := by
  unfold one
  split
  · exact h _ List.mem_cons_self
  · exact .type_error rfl

theorem two_answers (b : Builtin) (args : List Value) : Answers (fun _ => True) (b.two args) := by
  unfold two
  split
  · trivial
  · exact .type_error rfl

theorem number_answers (b : Builtin) (v : Value) : Answers (fun _ => True) (b.number v) := by
  unfold number
  split
  · trivial
  · exact .type_error rfl

theorem elements_answers {b : Builtin} {args : List Value} (h : ∀ v ∈ args, v.All P) :
    Answers (fun vs => ∀ v ∈ vs, v.All P) (b.elements args) := by
  refine (one_answers h).bind fun v hv => ?_
  split
  · exact all_array.mp hv
  · exact .type_error rfl

theorem one_answers_any (b : Builtin) (args : List Value) : Answers (fun _ => True) (b.one args) :=
  (one_answers (P := fun _ => True) fun _ _ _ _ => trivial).mono fun _ _ => trivial

theorem elements_answers_any (b : Builtin) (args : List Value) :
    Answers (fun _ => True) (b.elements args) :=
  (elements_answers (P := fun _ => True) fun _ _ _ _ => trivial).mono fun _ _ => trivial

theorem numbers_answers (b : Builtin) (args : List Value) :
    Answers (fun _ => True) (b.numbers args) := by
  refine (elements_answers_any b args).bind fun vs _ => ?_
  exact (Answers.mapM fun v _ => number_answers b v).mono fun _ _ => trivial

end Arguments

theorem sqrt_answers (args : List Value) : Answers (Value.All P) (callSqrt args) := by
  refine (one_answers_any sqrt args).bind fun v _ => ?_
  refine (number_answers sqrt v).bind fun x _ => ?_
  split
  · exact .value_error rfl
  · exact all_float _

theorem pow_answers (args : List Value) : Answers (Value.All P) (callPow args) := by
  refine (two_answers pow args).bind fun operands _ => ?_
  exact BinaryOp.apply_answers .pow operands.1 operands.2

theorem abs_answers (args : List Value) : Answers (Value.All P) (callAbs args) := by
  refine (one_answers_any abs args).bind fun v _ => ?_
  split
  · split
    · exact all_int _
    · exact .value_error rfl
  · exact all_float _
  · exact .type_error rfl

theorem rounded_answers (b : Builtin) (toInteger : Binary64 → Int) (args : List Value) :
    Answers (Value.All P) (rounded b toInteger args) := by
  refine (one_answers_any b args).bind fun v _ => ?_
  split
  · exact all_int _
  · refine (number_answers b _).bind fun x _ => ?_
    split
    · exact all_int _
    · exact .value_error rfl

theorem sum_answers (args : List Value) : Answers (Value.All P) (callSum args) := by
  refine (elements_answers_any sum args).bind fun vs _ => ?_
  refine Answers.foldlM (all_int 0) fun total v _ _ => ?_
  refine (number_answers sum v).bind fun _ _ => ?_
  exact BinaryOp.apply_answers .add total v

theorem mean_answers (args : List Value) : Answers (Value.All P) (callMean args) := by
  refine (numbers_answers mean args).bind fun xs _ => ?_
  split
  · exact .value_error rfl
  · exact all_float _

theorem variance_answers (args : List Value) : Answers (Value.All P) (callVariance args) := by
  refine (numbers_answers variance args).bind fun xs _ => ?_
  cases sampleVariance? xs with
  | some v => exact all_float _
  | none => exact all_int _

theorem stdev_answers (args : List Value) : Answers (Value.All P) (callStdev args) := by
  refine (numbers_answers stdev args).bind fun xs _ => ?_
  cases sampleVariance? xs with
  | some v => exact all_float _
  | none => exact all_int _

theorem all_getD {keyed : List (Binary64 × Value)} (h : ∀ pair ∈ keyed, pair.2.All P) (i : Nat) :
    (keyed.toArray.getD i default).2.All P := by
  rw [Array.getD_eq_getD_getElem?, List.getElem?_toArray]
  cases hi : keyed[i]? with
  | none => exact all_none
  | some pair => exact h pair (List.mem_of_getElem? hi)

theorem median_answers {args : List Value} (h : ∀ v ∈ args, v.All P) :
    Answers (Value.All P) (callMedian args) := by
  refine (elements_answers h).bind fun vs hvs => ?_
  split
  · exact .value_error rfl
  · have keyed : ∀ v ∈ vs, Answers (fun pair : Binary64 × Value => pair.2.All P)
        (do return (← median.number v, v)) :=
      fun v hv => (number_answers median v).bind fun _ _ => hvs v hv
    refine (Answers.mapM keyed).bind fun pairs hpairs => ?_
    dsimp only
    split
    · exact all_getD (fun pair hpair => hpairs pair (List.mem_mergeSort.mp hpair)) _
    · exact all_float _

theorem fst_enlarge {classes : Array (Value × Nat)} {i j : Nat} (h : j < classes.size)
    (h' : j < (Tally.enlarge classes i).size) : (Tally.enlarge classes i)[j].1 = classes[j].1 := by
  simp only [Tally.enlarge, Array.getElem_modify]
  split <;> rfl

/-- Counting brings no other members into the classes. -/
theorem all_tally {vs : List Value} {t : Tally} (ht : ∀ c ∈ t.classes, c.1.All P)
    (hvs : ∀ v ∈ vs, v.All P) : ∀ c ∈ (vs.foldl Tally.add t).classes, c.1.All P := by
  induction vs generalizing t with
  | nil => exact ht
  | cons v vs ih =>
    have hv : v.All P := hvs v List.mem_cons_self
    have pushed : ∀ c ∈ t.classes.push (v, 1), c.1.All P := by
      intro c hc
      rcases Array.mem_push.mp hc with hc | rfl
      · exact ht c hc
      · exact hv
    have enlarged : ∀ i, ∀ c ∈ Tally.enlarge t.classes i, c.1.All P := by
      intro i c hc
      obtain ⟨j, hj, rfl⟩ := Array.mem_iff_getElem.mp hc
      have bound : j < t.classes.size := by simpa [Tally.enlarge] using hj
      rw [fst_enlarge bound hj]
      exact ht _ (Array.getElem_mem bound)
    refine ih ?_ fun w hw => hvs w (List.mem_cons_of_mem v hw)
    unfold Tally.add
    dsimp only
    split
    · split
      · exact enlarged _
      · exact pushed
    · split
      · exact pushed
      · split
        · exact enlarged _
        · exact pushed

theorem mode_answers {args : List Value} (h : ∀ v ∈ args, v.All P) :
    Answers (Value.All P) (callMode args) := by
  refine (elements_answers h).bind fun vs hvs => ?_
  split
  · exact .value_error rfl
  · have classes : ∀ c ∈ (vs.foldl Tally.add .empty).classes, c.1.All P :=
      all_tally (fun c hc => absurd hc (Array.not_mem_empty c)) hvs
    unfold largest
    dsimp only
    split
    · rename_i v n hfilter
      have hmem : (v, n) ∈ (vs.foldl Tally.add .empty).classes.toList :=
        List.mem_of_mem_filter (hfilter ▸ List.mem_singleton_self _)
      exact classes _ (Array.mem_toList_iff.mp hmem)
    · exact .aggregation_error rfl

theorem best_answers (op : BinaryOp) {first : Value} {rest : List Value} (hfirst : first.All P)
    (hrest : ∀ v ∈ rest, v.All P) : Answers (Value.All P) (best op first rest) := by
  refine Answers.foldlM hfirst fun leader candidate hcandidate hleader => ?_
  refine (BinaryOp.apply_answers (P := P) op candidate leader).bind fun beats _ => ?_
  change Value.All P (if beats.isTruthy then candidate else leader)
  split
  · exact hrest candidate hcandidate
  · exact hleader

theorem extreme_answers (b : Builtin) (op : BinaryOp) {args : List Value} (h : ∀ v ∈ args, v.All P) :
    Answers (Value.All P) (extreme b op args) := by
  unfold extreme
  split
  · exact .type_error rfl
  · exact .value_error rfl
  · obtain ⟨hv, hvs⟩ := List.forall_mem_cons.mp (all_array.mp (h _ List.mem_cons_self))
    exact best_answers op hv hvs
  · exact .type_error rfl
  · obtain ⟨hv, hvs⟩ := List.forall_mem_cons.mp h
    exact best_answers op hv hvs

theorem len_answers (args : List Value) : Answers (Value.All P) (callLen args) := by
  refine (one_answers_any len args).bind fun v _ => ?_
  split
  · exact all_int _
  · exact all_int _
  · exact .type_error rfl

theorem range_answers (args : List Value) :
    Answers (fun made => ∀ v ∈ made, v.All P) (callRange args) := by
  unfold callRange
  split
  · exact fun v hv => all_interval hv
  · exact fun v hv => all_interval hv
  · exact .type_error rfl
  · exact .type_error rfl
  · exact .type_error rfl

theorem compute_answers (b : Builtin) {args : List Value} (h : ∀ v ∈ args, v.All P) :
    Answers (Value.All P) (b.compute args) := by
  cases b with
  | sqrt => exact sqrt_answers args
  | pow => exact pow_answers args
  | abs => exact abs_answers args
  | floor => exact rounded_answers floor _ args
  | ceil => exact rounded_answers ceil _ args
  | round => exact rounded_answers round _ args
  | sum => exact sum_answers args
  | mean => exact mean_answers args
  | median => exact median_answers h
  | mode => exact mode_answers h
  | stdev => exact stdev_answers args
  | variance => exact variance_answers args
  | min => exact extreme_answers min .lt h
  | max => exact extreme_answers max .gt h
  | len => exact len_answers args
  | range | print => exact all_none

theorem call_eq_of_ne_print {b : Builtin} (h : b ≠ print) (args : List Value) :
    ∃ result, ∀ sink, b.call args sink = (result, sink) := by
  by_cases hrange : b = range
  · exact ⟨_, fun sink => by rw [call, if_neg h, if_pos hrange]⟩
  · exact ⟨_, fun sink => by rw [call, if_neg h, if_neg hrange]⟩

theorem call_answers (b : Builtin) {args : List Value} (sink : Sink) (hb : b ≠ print)
    (h : ∀ v ∈ args, v.All P) : Answers (fun made => ∀ v ∈ made, v.All P) (b.call args sink).1 := by
  rw [call, if_neg hb]
  split
  · exact range_answers args
  · refine (compute_answers b h).map fun v hv => ?_
    rintro w ⟨⟩
    exact hv

theorem call_kind_ne_recursion {b : Builtin} {args : List Value} {sink sink' : Sink} {f : Fault}
    (h : b.call args sink = (.error f, sink')) : f.kind ≠ .recursion := by
  by_cases hb : b = print
  · rw [call, if_pos hb] at h
    split at h
    · cases h
    · cases h
      simp [Fault.kind]
  · have any : ∀ v ∈ args, v.All fun _ => True := fun _ _ _ _ => trivial
    have answers := call_answers b sink hb any
    rw [h] at answers
    exact answers.kind_ne_recursion

/-- A built-in function gives back no function that it was not given. -/
theorem call_all {b : Builtin} {args : List Value} {sink sink' : Sink} {v : Value}
    (h : b.call args sink = (.ok (some v), sink')) (hargs : ∀ v ∈ args, v.All P) : v.All P := by
  by_cases hb : b = print
  · rw [call, if_pos hb] at h
    split at h
    · cases h
      exact all_none
    · cases h
  · have answers := call_answers b sink hb hargs
    rw [h] at answers
    exact answers v rfl

/-- The bounds of the range that `range` is called for. -/
inductive Asks : List Value → Int64 → Int64 → Prop
  | last {n : Int64} : Asks [.int n] 0 n
  | both {m n : Int64} : Asks [.int m, .int n] m n

theorem callRange_eq_none_iff {args : List Value} :
    callRange args = .ok .none ↔
      ∃ m n, Asks args m n ∧ (maxElements : Int) < n.toInt - m.toInt := by
  constructor
  · intro h
    unfold callRange at h
    split at h
    · exact ⟨_, _, .last, interval_eq_none_iff.mp (Except.ok.inj h)⟩
    · exact ⟨_, _, .both, interval_eq_none_iff.mp (Except.ok.inj h)⟩
    · cases h
    · cases h
    · cases h
  · rintro ⟨m, n, asked, h⟩
    cases asked with
    | last => exact congrArg Except.ok (interval_eq_none_iff.mpr h)
    | both => exact congrArg Except.ok (interval_eq_none_iff.mpr h)

theorem call_eq_none_iff {b : Builtin} {args : List Value} {sink sink' : Sink} :
    b.call args sink = (.ok .none, sink') ↔
      b = range ∧ callRange args = .ok .none ∧ sink = sink' := by
  constructor
  · intro h
    rw [call] at h
    split at h
    · split at h <;> cases h
    · split at h
      · rename_i hrange
        obtain ⟨hnone, hsink⟩ := Prod.mk.inj h
        exact ⟨hrange, hnone, hsink⟩
      · cases hcompute : b.compute args <;> rw [hcompute] at h <;> cases h
  · rintro ⟨rfl, h, rfl⟩
    rw [call, if_neg (by decide), if_pos rfl, h]

end Builtin

end Abacus
