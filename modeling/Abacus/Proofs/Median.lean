import Mathlib.Data.List.Sort
import Abacus.Builtin.Call
import Abacus.Proofs.Rounding

/-!
# The median of integers

The median sorts integers by their numbers, and integers that share a number keep the order in which
they stand in the array. Rounding is monotone, so the sorted array has the same numbers as the array
sorted by the integers themselves: the median has the number of the exact median. It is the exact
median in every order of the array if and only if no other element shares this number, and so for
all integers up to `2 ^ 53`.
-/

namespace Abacus.Builtin

section Sorting

variable {α β : Type} {key : α → Int} {xs ys : List α}

/-- The elements in the order of their keys. Elements with the same key keep their order. -/
def sortedBy (key : α → Int) (xs : List α) : List α := xs.mergeSort fun x y => key x ≤ key y

theorem perm_sortedBy (key : α → Int) (xs : List α) : (sortedBy key xs).Perm xs :=
  List.mergeSort_perm _ _

theorem pairwise_sortedBy (key : α → Int) (xs : List α) :
    (sortedBy key xs).Pairwise fun x y => key x ≤ key y := by
  have sorted : (sortedBy key xs).Pairwise fun x y => decide (key x ≤ key y) = true := by
    apply List.pairwise_mergeSort
    · intro x y z hxy hyz
      simp only [decide_eq_true_eq] at *
      omega
    · intro x y
      simp only [Bool.or_eq_true, decide_eq_true_eq]
      omega
  exact sorted.imp of_decide_eq_true

theorem map_sortedBy (f : β → α) (key : α → Int) (xs : List β) :
    sortedBy key (xs.map f) = (sortedBy (fun x => key (f x)) xs).map f := by
  symm
  apply List.map_mergeSort
  intro x _ y _
  rfl

theorem sortedBy_of_pairwise (h : (xs.map key).Pairwise (· ≤ ·)) : sortedBy key xs = xs := by
  apply List.mergeSort_of_pairwise
  exact (List.pairwise_map.mp h).imp decide_eq_true

theorem map_key_sortedBy (h : ys.Perm xs) (sorted : ys.Pairwise fun x y => key x ≤ key y) :
    (sortedBy key xs).map key = ys.map key := by
  have sorted' := List.pairwise_map.mpr (pairwise_sortedBy key xs)
  apply List.Perm.eq_of_pairwise _ sorted' (List.pairwise_map.mpr sorted)
  · exact ((perm_sortedBy key xs).trans h.symm).map key
  · intro x y _ _ hxy hyx
    exact le_antisymm hxy hyx

theorem sortedBy_eq_of_perm (injective : ∀ x y, key x = key y → x = y) (h : xs.Perm ys) :
    sortedBy key xs = sortedBy key ys := by
  apply List.Perm.eq_of_pairwise _ (pairwise_sortedBy key xs) (pairwise_sortedBy key ys)
  · exact (perm_sortedBy key xs).trans (h.trans (perm_sortedBy key ys).symm)
  · intro x y _ _ hxy hyx
    exact injective x y (le_antisymm hxy hyx)

/-- Two elements with the same key may change places in an order in which the keys grow. -/
theorem sortedBy_swapped (sorted : xs.Pairwise fun x y => key x ≤ key y) {i j : Nat}
    (hi : i < xs.length) (hj : j < xs.length) (h : key xs[i] = key xs[j]) :
    sortedBy key ((xs.set i xs[j]).set j xs[i]) = (xs.set i xs[j]).set j xs[i] := by
  have kept {k : Nat} (hk : k < xs.length) : (xs.map key).set k (key xs[k]) = xs.map key := by
    rw [← List.getElem_map key (h := by simpa using hk), List.set_getElem_self]
  have keys : ((xs.set i xs[j]).set j xs[i]).map key = xs.map key := by
    rw [List.map_set, List.map_set, ← h, kept hi, h, kept hj]
  exact sortedBy_of_pairwise (keys ▸ List.pairwise_map.mpr sorted)

theorem length_sortedBy (key : α → Int) (xs : List α) : (sortedBy key xs).length = xs.length :=
  List.length_mergeSort xs

end Sorting

section Numbers

variable {vs : List Value} {number : Value → Binary64}

theorem mapM_number (h : ∀ v ∈ vs, v.number? = some (number v)) :
    (vs.mapM fun v => do return (← median.number v, v)) = .ok (vs.map fun v => (number v, v)) := by
  induction vs with
  | nil => rfl
  | cons v vs ih =>
    obtain ⟨hv, hvs⟩ := List.forall_mem_cons.mp h
    have first : median.number v = .ok (number v) := by rw [Builtin.number, hv]
    rw [List.mapM_cons, ih hvs, first]
    rfl

def inOrder (number : Value → Binary64) (vs : List Value) : List (Binary64 × Value) :=
  (sortedBy (fun v => (number v).totalKey) vs).map fun v => (number v, v)

theorem median_of_numbers (h : ∀ v ∈ vs, v.number? = some (number v)) (nonempty : vs ≠ []) :
    median.compute [.array vs] =
      if vs.length % 2 = 1 then .ok ((inOrder number vs).getD (vs.length / 2) default).2
      else .ok (.float ((((inOrder number vs).getD (vs.length / 2 - 1) default).1.add
        ((inOrder number vs).getD (vs.length / 2) default).1).div (.ofNat 2))) := by
  cases vs with
  | nil => exact absurd rfl nonempty
  | cons v vs =>
    have keyed := mapM_number h
    have sorted := map_sortedBy (fun v => (number v, v)) (fun p => p.1.totalKey) (v :: vs)
    change ((v :: vs).mapM (fun v => do return (← median.number v, v)) >>= _) = _
    rw [sortedBy] at sorted
    rw [keyed, inOrder]
    simp only [bind, Except.bind, sorted, List.size_toArray, List.length_map, length_sortedBy,
      Array.getD_eq_getD_getElem?, List.getElem?_toArray, ← List.getD_eq_getElem?_getD]
    rfl

theorem exists_place (number : Value → Binary64) {i : Nat} (hi : i < vs.length) :
    ∃ v ∈ vs, (inOrder number vs).getD i default = (number v, v) ∧
      (sortedBy (fun v => (number v).totalKey) vs)[i]? = some v := by
  have inside : i < (sortedBy (fun v => (number v).totalKey) vs).length := by
    rw [length_sortedBy]
    exact hi
  refine ⟨_, ?_, ?_, List.getElem?_eq_getElem inside⟩
  · exact (perm_sortedBy _ vs).mem_iff.mp (List.getElem_mem inside)
  · rw [inOrder, List.getD_eq_getElem?_getD, List.getElem?_map, List.getElem?_eq_getElem inside]
    rfl

/-- An odd number of numbers has the element in the middle of their total order as its median. -/
theorem median_of_odd (h : ∀ v ∈ vs, v.number? = some (number v)) (odd : vs.length % 2 = 1) :
    median.compute [.array vs] =
      .ok ((sortedBy (fun v => (number v).totalKey) vs).getD (vs.length / 2) default) := by
  have nonempty : vs ≠ [] := by
    rintro rfl
    cases odd
  obtain ⟨v, -, place, sorted⟩ := exists_place number (show vs.length / 2 < vs.length by omega)
  rw [median_of_numbers h nonempty, if_pos odd, place, List.getD_eq_getElem?_getD, sorted]
  rfl

end Numbers

section Integers

variable {ms ns : List Int64}

def middle (ns : List Int64) : Int64 := (sortedBy Int64.toInt ns).getD (ns.length / 2) 0

def rank (n : Int64) : Int := (Binary64.ofInt n.toInt).totalKey

theorem rank_mono {m n : Int64} (h : m.toInt ≤ n.toInt) : rank m ≤ rank n :=
  Binary64.totalKey_ofInt_mono h

theorem middle_eq_of_perm (h : ms.Perm ns) : middle ms = middle ns := by
  rw [middle, middle, sortedBy_eq_of_perm (fun _ _ => Int64.toInt_inj.mp) h, h.length_eq]

theorem middle_of_pairwise (h : (ns.map Int64.toInt).Pairwise (· ≤ ·)) :
    middle ns = ns.getD (ns.length / 2) 0 := by
  rw [middle, sortedBy_of_pairwise h]

theorem half_lt (key : Int64 → Int) (odd : ns.length % 2 = 1) :
    ns.length / 2 < (sortedBy key ns).length := by
  rw [length_sortedBy]
  omega

theorem median_integers_of_odd (odd : ns.length % 2 = 1) :
    median.compute [.array (ns.map .int)] =
      .ok (.int ((sortedBy rank ns).getD (ns.length / 2) 0)) := by
  have numbers : ∀ v ∈ ns.map Value.int, v.number? = some (v.number?.getD default) := by
    intro v hv
    obtain ⟨n, -, rfl⟩ := List.mem_map.mp hv
    rfl
  have odd' : (ns.map Value.int).length % 2 = 1 := by
    rw [List.length_map]
    exact odd
  rw [median_of_odd numbers odd', map_sortedBy, List.length_map]
  change Except.ok (((sortedBy rank ns).map Value.int).getD (ns.length / 2) default) = _
  rw [List.getD_eq_getElem?_getD, List.getD_eq_getElem?_getD, List.getElem?_map,
    List.getElem?_eq_getElem (half_lt rank odd)]
  rfl

theorem getD_mem_sortedBy (key : Int64 → Int) (odd : ns.length % 2 = 1) :
    (sortedBy key ns).getD (ns.length / 2) 0 ∈ ns := by
  rw [List.getD_eq_getElem?_getD, List.getElem?_eq_getElem (half_lt key odd)]
  exact (perm_sortedBy key ns).mem_iff.mp (List.getElem_mem _)

theorem pairwise_rank (ns : List Int64) :
    (sortedBy Int64.toInt ns).Pairwise fun m n => rank m ≤ rank n :=
  (pairwise_sortedBy Int64.toInt ns).imp rank_mono

theorem rank_getD (ns : List Int64) (i : Nat) :
    rank ((sortedBy rank ns).getD i 0) = rank ((sortedBy Int64.toInt ns).getD i 0) := by
  have ranks : (sortedBy rank ns).map rank = (sortedBy Int64.toInt ns).map rank :=
    map_key_sortedBy (perm_sortedBy Int64.toInt ns) (pairwise_rank ns)
  rw [List.getD_eq_getElem?_getD, List.getD_eq_getElem?_getD, ← Option.getD_map rank,
    ← Option.getD_map rank, ← List.getElem?_map, ← List.getElem?_map, ranks]

theorem exists_order {n : Int64} (hn : n ∈ ns) (odd : ns.length % 2 = 1)
    (h : rank n = rank (middle ns)) :
    ∃ ms, ms.Perm ns ∧ (sortedBy rank ms).getD (ms.length / 2) 0 = n := by
  have perm := perm_sortedBy Int64.toInt ns
  have sorted := pairwise_rank ns
  have hi := half_lt Int64.toInt odd
  rw [middle, List.getD_eq_getElem?_getD, List.getElem?_eq_getElem hi, Option.getD_some] at h
  -- the integers in their order, with the middle one and the other one exchanged
  generalize sortedBy Int64.toInt ns = inOrder at *
  obtain ⟨j, hj, rfl⟩ := List.mem_iff_getElem.mp (perm.mem_iff.mpr hn)
  refine ⟨(inOrder.set (ns.length / 2) inOrder[j]).set j inOrder[ns.length / 2],
    (List.set_set_perm hi hj).trans perm, ?_⟩
  rw [sortedBy_swapped sorted hi hj h.symm, List.length_set, List.length_set, perm.length_eq,
    List.getD_eq_getElem?_getD, List.getElem?_set]
  by_cases place : j = ns.length / 2
  · simp [place, hi]
  · rw [if_neg place, List.getElem?_set_self hi, Option.getD_some]

theorem rank_eq_iff {m n : Int64} :
    rank m = rank n ↔ Binary64.ofInt m.toInt = Binary64.ofInt n.toInt :=
  ⟨Binary64.eq_of_totalKey_eq, congrArg Binary64.totalKey⟩

theorem median_near (odd : ns.length % 2 = 1) :
    ∃ r ∈ ns, median.compute [.array (ns.map .int)] = .ok (.int r) ∧
      Binary64.ofInt r.toInt = Binary64.ofInt (middle ns).toInt :=
  ⟨_, getD_mem_sortedBy rank odd, median_integers_of_odd odd,
    rank_eq_iff.mp (rank_getD ns (ns.length / 2))⟩

theorem median_exact_iff (odd : ns.length % 2 = 1) :
    (∀ ms : List Int64, ms.Perm ns →
        median.compute [.array (ms.map .int)] = .ok (.int (middle ns))) ↔
      ∀ n ∈ ns, Binary64.ofInt n.toInt = Binary64.ofInt (middle ns).toInt → n = middle ns := by
  constructor
  · intro exact n hn h
    obtain ⟨ms, perm, place⟩ := exists_order hn odd (rank_eq_iff.mpr h)
    have answer := exact ms perm
    rw [median_integers_of_odd (perm.length_eq ▸ odd), place] at answer
    cases answer
    rfl
  · intro alone ms perm
    have odd' : ms.length % 2 = 1 := perm.length_eq ▸ odd
    obtain ⟨r, hr, answer, near⟩ := median_near odd'
    rw [middle_eq_of_perm perm] at near
    rw [answer, alone r (perm.mem_iff.mp hr) near]

theorem median_integers (ns : List Int64) (odd : ns.length % 2 = 1) :
    (∃ r ∈ ns, median.compute [.array (ns.map .int)] = .ok (.int r) ∧
        Binary64.ofInt r.toInt = Binary64.ofInt (middle ns).toInt) ∧
      ((∀ ms : List Int64, ms.Perm ns →
          median.compute [.array (ms.map .int)] = .ok (.int (middle ns))) ↔
        ∀ n ∈ ns, Binary64.ofInt n.toInt = Binary64.ofInt (middle ns).toInt → n = middle ns) ∧
      ((∀ n ∈ ns, n.toInt.natAbs ≤ 2 ^ 53) → ∀ ms : List Int64, ms.Perm ns →
        median.compute [.array (ms.map .int)] = .ok (.int (middle ns))) := by
  refine ⟨median_near odd, median_exact_iff odd, ?_⟩
  intro small
  apply (median_exact_iff odd).mpr
  intro n hn h
  have middle_mem : middle ns ∈ ns := getD_mem_sortedBy Int64.toInt odd
  exact Int64.toInt_inj.mp (Binary64.ofInt_injective (Binary64.represents_of_le (small n hn))
    (Binary64.represents_of_le (small _ middle_mem)) h)

theorem median_integers_small :
    median.compute [.array [.int 9007199254740992, .int 7, .int (-9007199254740992)]] =
      .ok (.int 7) := by
  obtain ⟨-, -, small⟩ := median_integers [-9007199254740992, 7, 9007199254740992] rfl
  have answer := small (by simp) [9007199254740992, 7, -9007199254740992] (by decide)
  rw [middle_of_pairwise (by decide)] at answer
  exact answer

/-- `2 ^ 53 + 1` has the number of `2 ^ 53` and stands before it. -/
theorem median_integers_inexact :
    median.compute [.array [.int 0, .int 9007199254740993, .int 9007199254740992]] =
        .ok (.int 9007199254740993) ∧
      middle [0, 9007199254740993, 9007199254740992] = 9007199254740992 := by
  have odd : ([0, 9007199254740993, 9007199254740992] : List Int64).length % 2 = 1 := rfl
  have perm : [0, 9007199254740993, 9007199254740992].Perm
      ([0, 9007199254740992, 9007199254740993] : List Int64) := by decide
  constructor
  · have answer := median_integers_of_odd odd
    rw [sortedBy_of_pairwise (by decide +kernel)] at answer
    exact answer
  · rw [middle_eq_of_perm perm, middle_of_pairwise (by decide)]
    rfl

end Integers

end Abacus.Builtin
