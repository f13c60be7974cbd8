import Abacus.Builtin.Call
import Abacus.Proofs.Comparison

/-!
# The least and the greatest value

The search goes through the candidates once and keeps the best one so far. A candidate that fails to
beat the best one so far may be in no order with it, so it is not enough that nothing later beats the
winner. What carries over is that every later best candidate beats the earlier ones: a candidate
that beats the winner would have beaten the best one so far, too.
-/

namespace Abacus.Builtin

open Value BinaryOp

variable {op : BinaryOp} {first c m : Value} {rest : List Value}

theorem beats_irrefl (hop : op ∈ [lt, gt]) (v : Value) : ¬ Beats op v v := by
  simp only [List.mem_cons, List.not_mem_nil, or_false] at hop
  rcases hop with rfl | rfl
  · exact fun h => (beats_lt_iff.mp h).irrefl
  · exact fun h => (beats_gt_iff.mp h).irrefl

theorem beats_trans (hop : op ∈ [lt, gt]) {u v w : Value} (huv : Beats op u v)
    (hvw : Beats op v w) : Beats op u w := by
  simp only [List.mem_cons, List.not_mem_nil, or_false] at hop
  rcases hop with rfl | rfl
  · exact beats_lt_iff.mpr ((beats_lt_iff.mp huv).trans (beats_lt_iff.mp hvw))
  · exact beats_gt_iff.mpr ((beats_gt_iff.mp hvw).trans (beats_gt_iff.mp huv))

/-- A search from `first` through `rest` ends with `m`. -/
structure Wins (op : BinaryOp) (first : Value) (rest : List Value) (m : Value) : Prop where
  mem : m ∈ first :: rest
  ahead : m = first ∨ Beats op m first
  unbeaten : ∀ e ∈ first :: rest, ¬ Beats op e m

namespace Wins

theorem nil (hop : op ∈ [lt, gt]) (first : Value) : Wins op first [] first := by
  refine ⟨List.mem_cons_self, .inl rfl, ?_⟩
  intro e he
  rw [List.mem_singleton.mp he]
  exact beats_irrefl hop first

theorem skip (hop : op ∈ [lt, gt]) (hc : ¬ Beats op c first) (h : Wins op first rest m) :
    Wins op first (c :: rest) m := by
  refine ⟨?_, h.ahead, ?_⟩
  · have := h.mem
    simp only [List.mem_cons] at this ⊢
    tauto
  · have beaten : ¬ Beats op c m := by
      intro beats
      rcases h.ahead with rfl | ahead
      · exact hc beats
      · exact hc (beats_trans hop beats ahead)
    intro e he
    simp only [List.mem_cons] at he
    rcases he with rfl | rfl | he
    · exact h.unbeaten _ List.mem_cons_self
    · exact beaten
    · exact h.unbeaten _ (List.mem_cons_of_mem _ he)

theorem take (hop : op ∈ [lt, gt]) (hc : Beats op c first) (h : Wins op c rest m) :
    Wins op first (c :: rest) m := by
  refine ⟨List.mem_cons_of_mem _ h.mem, .inr ?_, ?_⟩
  · rcases h.ahead with rfl | ahead
    · exact hc
    · exact beats_trans hop ahead hc
  · intro e he
    rcases List.mem_cons.mp he with rfl | he
    · exact fun beats => h.unbeaten c List.mem_cons_self (beats_trans hop hc beats)
    · exact h.unbeaten e he

end Wins

section Search

theorem best_cons (op : BinaryOp) (first c : Value) (rest : List Value) :
    best op first (c :: rest) =
      op.apply c first >>= fun v => best op (if v.isTruthy then c else first) rest := by
  rw [best, List.foldlM_cons, bind_assoc]
  rfl

theorem best_cons_of_ok {b : Bool} (h : op.apply c first = .ok (.bool b)) (rest : List Value) :
    best op first (c :: rest) = best op (if b then c else first) rest := by
  rw [best_cons, h]
  rfl

theorem mem_comparisons (hop : op ∈ [lt, gt]) : op ∈ [lt, gt, le, ge] := by
  simp only [List.mem_cons, List.not_mem_nil, or_false] at hop ⊢
  tauto

theorem apply_of_ordered (hop : op ∈ [lt, gt]) {l r : Value} (h : Ordered l r) :
    ∃ b, op.apply l r = .ok (.bool b) := by
  obtain ⟨o, ho⟩ := exists_compares h
  exact ⟨_, apply_of_compares (mem_comparisons hop) ho⟩

theorem best_of_ordered (hop : op ∈ [lt, gt]) (h : ∀ c ∈ rest, Ordered first c) :
    ∃ m, best op first rest = .ok m ∧ Wins op first rest m := by
  induction rest generalizing first with
  | nil => exact ⟨first, rfl, .nil hop first⟩
  | cons c rest ih =>
    obtain ⟨hc, hrest⟩ := List.forall_mem_cons.mp h
    obtain ⟨b, answer⟩ := apply_of_ordered hop hc.symm
    rw [best_cons_of_ok answer]
    cases b with
    | false =>
      obtain ⟨m, hm, wins⟩ := ih hrest
      refine ⟨m, hm, wins.skip hop ?_⟩
      rw [Beats, answer]
      simp
    | true =>
      obtain ⟨m, hm, wins⟩ := ih fun d hd => hc.symm.trans (hrest d hd)
      exact ⟨m, hm, wins.take hop answer⟩

theorem best_of_unordered (hop : op ∈ [lt, gt]) (h : ∃ c ∈ rest, ¬ Ordered first c) :
    FailsWith .type (best op first rest) := by
  induction rest generalizing first with
  | nil =>
    obtain ⟨c, hc, -⟩ := h
    cases hc
  | cons c rest ih =>
    by_cases hc : Ordered first c
    · obtain ⟨b, answer⟩ := apply_of_ordered hop hc.symm
      obtain ⟨d, hd, unordered⟩ := h
      have later : d ∈ rest := by
        rcases List.mem_cons.mp hd with rfl | hd
        · exact absurd hc unordered
        · exact hd
      rw [best_cons_of_ok answer]
      cases b with
      | false => exact ih ⟨d, later, unordered⟩
      | true => exact ih ⟨d, later, fun h => unordered (hc.trans h)⟩
    · obtain ⟨f, hf, kind⟩ :=
        apply_of_not_ordered (mem_comparisons hop) fun h => hc h.symm
      refine ⟨f, ?_, kind⟩
      rw [best_cons, hf]
      rfl

end Search

section Candidates

inductive Candidates : List Value → List Value → Prop
  | elements (vs : List Value) : Candidates [.array vs] vs
  | arguments {vs : List Value} : 2 ≤ vs.length → Candidates vs vs

def OneSort (vs : List Value) : Prop :=
  (∀ v ∈ vs, v.isNumber = true) ∨ (∀ v ∈ vs, v.isText = true)

theorem extreme_of_candidates {b : Builtin} {args : List Value}
    (h : Candidates args (first :: rest)) : extreme b op args = best op first rest := by
  cases h with
  | elements => rfl
  | arguments h =>
    cases rest with
    | nil => simp at h
    | cons c rest => simp [extreme]

theorem oneSort_iff (several : 2 ≤ (first :: rest).length) :
    OneSort (first :: rest) ↔ ∀ d ∈ rest, Ordered first d := by
  constructor
  · rintro (h | h)
    · obtain ⟨hfirst, h⟩ := List.forall_mem_cons.mp h
      exact fun d hd => .inl ⟨hfirst, h d hd⟩
    · obtain ⟨hfirst, h⟩ := List.forall_mem_cons.mp h
      exact fun d hd => .inr ⟨hfirst, h d hd⟩
  · intro h
    obtain ⟨c, hc⟩ := List.exists_mem_of_length_pos (Nat.succ_le_succ_iff.mp several)
    rcases h c hc with ⟨number, -⟩ | ⟨text, -⟩
    · exact .inl (List.forall_mem_cons.mpr ⟨number, fun d hd => (h d hd).isNumber number⟩)
    · exact .inr (List.forall_mem_cons.mpr ⟨text, fun d hd => (h d hd).isText text⟩)

inductive Searches : Builtin → BinaryOp → Prop
  | min : Searches min lt
  | max : Searches max gt

theorem Searches.compute_eq {b : Builtin} (h : Searches b op) (args : List Value) :
    op ∈ [lt, gt] ∧ b.compute args = extreme b op args := by
  cases h with
  | min => exact ⟨by simp, rfl⟩
  | max => exact ⟨by simp, rfl⟩

theorem extremes_unbeaten {b : Builtin} {op : BinaryOp} {args vs : List Value}
    (searches : Searches b op) (candidates : Candidates args vs) :
    (vs = [] → FailsWith .value (b.compute args)) ∧
      (∀ v, vs = [v] → b.compute args = .ok v) ∧
      (2 ≤ vs.length → OneSort vs → ∃ m, b.compute args = .ok m) ∧
      (2 ≤ vs.length → ¬ OneSort vs → FailsWith .type (b.compute args)) ∧
      ∀ m, b.compute args = .ok m → m ∈ vs ∧ ∀ e ∈ vs, op.apply e m ≠ .ok (.bool true) := by
  obtain ⟨hop, compute⟩ := searches.compute_eq args
  rw [compute]
  cases vs with
  | nil =>
    cases candidates with
    | elements =>
      refine ⟨fun _ => ⟨.emptySequence b, rfl, rfl⟩, by simp, by simp, by simp, ?_⟩
      intro m h
      cases h
    | arguments h => cases h
  | cons first rest =>
    rw [extreme_of_candidates candidates]
    refine ⟨by simp, ?_, ?_, ?_, ?_⟩
    · intro v h
      cases h
      rfl
    · intro several h
      obtain ⟨m, hm, -⟩ := best_of_ordered hop ((oneSort_iff several).mp h)
      exact ⟨m, hm⟩
    · intro several h
      rw [oneSort_iff several] at h
      push Not at h
      exact best_of_unordered hop h
    · intro m hm
      by_cases h : ∀ c ∈ rest, Ordered first c
      · obtain ⟨m', hm', wins⟩ := best_of_ordered hop h
        cases hm.symm.trans hm'
        exact ⟨wins.mem, wins.unbeaten⟩
      · -- two candidates without an order leave no result
        push Not at h
        obtain ⟨f, hf, -⟩ := best_of_unordered hop h
        cases hm.symm.trans hf

/-- A NaN at the front stays the best candidate, as it is in no order with the integers after it. -/
theorem extremes_unbeaten_nan :
    ∃ m, min.compute [.float ⟨0x7FF8000000000000⟩, .int 9007199254740993, .int 1] = .ok m ∧
      lt.apply (.int 1) m ≠ .ok (.bool true) := by
  have candidates :
      Candidates [.float ⟨0x7FF8000000000000⟩, .int 9007199254740993, .int 1] _ :=
    .arguments (by simp)
  obtain ⟨-, -, succeeds, -, unbeaten⟩ := extremes_unbeaten .min candidates
  obtain ⟨m, hm⟩ := succeeds (by simp) (.inl (by simp [isNumber]))
  exact ⟨m, hm, (unbeaten m hm).2 (.int 1) (by simp)⟩

end Candidates

end Abacus.Builtin
