import Abacus.Proofs.Comparison
import Abacus.Proofs.Median

/-!
# The median of numbers

The median is read off the numbers of the elements in their total order, which tells the zeros and
the encodings that are no numbers apart. So the sorted numbers do not depend on the order of the
array, and neither does the number of the median. Which of the elements with this number is the
median depends on it.
-/

namespace Abacus

namespace Binary64

open Number

/-- The total order of the format. Numbers are in the order of their values, and the negative zero
comes before the positive one. What is no number lies beyond the infinities, on the side of its sign,
the farther out the greater its encoding. -/
inductive Precedes (x y : Binary64) : Prop
  | less : x.lt y = true → Precedes x y
  | equal : x.eq y = true → (x.negative = true ∨ y.negative = false) → Precedes x y
  | negativeNaN : x.isNaN = true → x.negative = true →
    (y.isNaN = true → y.negative = true → y.code ≤ x.code) → Precedes x y
  | positiveNaN : y.isNaN = true → y.negative = false →
    (x.isNaN = true → x.negative = false → x.code ≤ y.code) → Precedes x y

variable {x y : Binary64}

theorem code_of_isNaN (h : x.isNaN = true) : infinityCode < x.code := of_decide_eq_true h

theorem code_of_number (h : x.isNaN = false) : x.code ≤ infinityCode :=
  not_lt.mp (of_decide_eq_false h)

theorem code_le_of_isNaN (h : x.isNaN = true) (farther : y.isNaN = true → y.code ≤ x.code) :
    y.code ≤ x.code := by
  cases nan : y.isNaN with
  | true => exact farther nan
  | false => exact (code_of_number nan).trans (code_of_isNaN h).le

theorem totalKey_of_negative (h : x.negative = true) : x.totalKey = - (x.code : Int) - 1 := if_pos h

theorem totalKey_of_positive (h : x.negative = false) : x.totalKey = x.code :=
  if_neg (by rw [h]; exact Bool.false_ne_true)

theorem Precedes.totalKey_le (h : x.Precedes y) : x.totalKey ≤ y.totalKey := by
  cases h with
  | less h =>
    have below : x.key < y.key := (lt_iff.mp h).2.2
    simp only [key, totalKey] at *
    split_ifs at * <;> omega
  | equal h sign =>
    have same : x.key = y.key := by simp_all [Binary64.eq]
    simp only [key, totalKey] at *
    split_ifs at * <;> simp_all
  | negativeNaN nan sign farther =>
    rw [totalKey_of_negative sign]
    cases other : y.negative with
    | false =>
      rw [totalKey_of_positive other]
      omega
    | true =>
      have codes : y.code ≤ x.code := code_le_of_isNaN nan fun nan' => farther nan' other
      rw [totalKey_of_negative other]
      omega
  | positiveNaN nan sign farther =>
    rw [totalKey_of_positive sign]
    cases other : x.negative with
    | true =>
      rw [totalKey_of_negative other]
      omega
    | false =>
      have codes : x.code ≤ y.code := code_le_of_isNaN nan fun nan' => farther nan' other
      rw [totalKey_of_positive other]
      omega

theorem precedes_of_numbers (hx : x.isNaN = false) (hy : y.isNaN = false)
    (h : x.totalKey ≤ y.totalKey) : x.Precedes y := by
  rcases (key_le_of_totalKey_le h).lt_or_eq with below | same
  · exact .less (lt_iff.mpr ⟨hx, hy, below⟩)
  · refine .equal ((eq_iff hy).mpr ⟨hx, same⟩) ?_
    cases sign : x.negative with
    | true => exact .inl rfl
    | false =>
      cases sign' : y.negative with
      | false => exact .inr rfl
      | true =>
        rw [totalKey_of_positive sign, totalKey_of_negative sign'] at h
        omega

theorem number_of_code_le (h : x.code ≤ y.code) (hy : y.isNaN = false) : x.isNaN = false :=
  decide_eq_false (not_lt.mpr (h.trans (code_of_number hy)))

theorem precedes_of_totalKey_le (h : x.totalKey ≤ y.totalKey) : x.Precedes y := by
  cases sign : x.negative <;> cases sign' : y.negative
  · have codes : x.code ≤ y.code := by
      rw [totalKey_of_positive sign, totalKey_of_positive sign'] at h
      omega
    cases nan : y.isNaN with
    | true => exact .positiveNaN nan sign' fun _ _ => codes
    | false => exact precedes_of_numbers (number_of_code_le codes nan) nan h
  · rw [totalKey_of_positive sign, totalKey_of_negative sign'] at h
    omega
  · cases nan : x.isNaN with
    | true => exact .negativeNaN nan sign fun _ negative => by simp [sign'] at negative
    | false =>
      cases nan' : y.isNaN with
      | true => exact .positiveNaN nan' sign' fun _ positive => by simp [sign] at positive
      | false => exact precedes_of_numbers nan nan' h
  · have codes : y.code ≤ x.code := by
      rw [totalKey_of_negative sign, totalKey_of_negative sign'] at h
      omega
    cases nan : x.isNaN with
    | true => exact .negativeNaN nan sign fun _ _ => codes
    | false => exact precedes_of_numbers nan (number_of_code_le codes nan) h

theorem precedes_iff : x.Precedes y ↔ x.totalKey ≤ y.totalKey :=
  ⟨Precedes.totalKey_le, precedes_of_totalKey_le⟩

end Binary64

namespace Builtin

open Binary64 Value

variable {vs ws : List Value}

section Numbers

def numberOf (v : Value) : Binary64 := v.number?.getD default

theorem number?_eq (h : ∀ v ∈ vs, v.isNumber = true) : ∀ v ∈ vs, v.number? = some (numberOf v) := by
  intro v hv
  have number := h v hv
  cases v with
  | int | float => rfl
  | none | text | bool | array | function | builtin => cases number

def sortedNumbers (vs : List Value) : List Binary64 := sortedBy totalKey (vs.map numberOf)

theorem pairwise_sortedNumbers (vs : List Value) : (sortedNumbers vs).Pairwise Precedes :=
  (pairwise_sortedBy totalKey _).imp precedes_iff.mpr

theorem perm_sortedNumbers (h : ∀ v ∈ vs, v.isNumber = true) :
    ((sortedNumbers vs).map some).Perm (vs.map number?) := by
  have numbers : vs.map number? = (vs.map numberOf).map some := by
    rw [List.map_map]
    exact List.map_congr_left (number?_eq h)
  rw [numbers]
  exact (perm_sortedBy totalKey _).map some

theorem sortedNumbers_eq_of_perm (h : ws.Perm vs) : sortedNumbers ws = sortedNumbers vs :=
  sortedBy_eq_of_perm (fun _ _ => eq_of_totalKey_eq) (h.map numberOf)

theorem sortedNumbers_getElem? {i : Nat} {v : Value}
    (h : (sortedBy (fun v => (numberOf v).totalKey) vs)[i]? = some v) :
    (sortedNumbers vs)[i]? = some (numberOf v) := by
  rw [sortedNumbers, map_sortedBy, List.getElem?_map, h]
  rfl

theorem median_odd (h : ∀ v ∈ vs, v.isNumber = true) (odd : vs.length % 2 = 1) :
    ∃ v ∈ vs, median.compute [.array vs] = .ok v ∧
      v.number? = (sortedNumbers vs)[(vs.length - 1) / 2]? := by
  have middle : (vs.length - 1) / 2 = vs.length / 2 := by omega
  have nonempty : vs ≠ [] := by
    rintro rfl
    cases odd
  obtain ⟨v, hv, place, sorted⟩ :=
    exists_place numberOf (show vs.length / 2 < vs.length by omega)
  refine ⟨v, hv, ?_, ?_⟩
  · rw [median_of_numbers (number?_eq h) nonempty, if_pos odd, place]
  · rw [middle, sortedNumbers_getElem? sorted, number?_eq h v hv]

theorem median_even (h : ∀ v ∈ vs, v.isNumber = true) (nonempty : vs ≠ [])
    (even : vs.length % 2 = 0) :
    ∃ x y, (sortedNumbers vs)[vs.length / 2 - 1]? = some x ∧
      (sortedNumbers vs)[vs.length / 2]? = some y ∧
      median.compute [.array vs] = .ok (.float ((x.add y).div (.ofNat 2))) := by
  have pos : 0 < vs.length := List.length_pos_iff.mpr nonempty
  obtain ⟨u, -, place, sorted⟩ :=
    exists_place numberOf (show vs.length / 2 - 1 < vs.length by omega)
  obtain ⟨v, -, place', sorted'⟩ :=
    exists_place numberOf (show vs.length / 2 < vs.length by omega)
  refine ⟨numberOf u, numberOf v, sortedNumbers_getElem? sorted, sortedNumbers_getElem? sorted', ?_⟩
  rw [median_of_numbers (number?_eq h) nonempty, if_neg (by omega), place, place']

theorem median_perm (h : ∀ v ∈ vs, v.isNumber = true) (nonempty : vs ≠ []) (perm : ws.Perm vs) :
    ∃ v w x, median.compute [.array vs] = .ok v ∧ median.compute [.array ws] = .ok w ∧
      v.number? = some x ∧ w.number? = some x := by
  have h' : ∀ v ∈ ws, v.isNumber = true := fun v hv => h v (perm.mem_iff.mp hv)
  have nonempty' : ws ≠ [] := fun empty => nonempty (List.nil_perm.mp (empty ▸ perm))
  have same := sortedNumbers_eq_of_perm perm
  have length := perm.length_eq
  rcases Nat.mod_two_eq_zero_or_one vs.length with even | odd
  · obtain ⟨x, y, hx, hy, answer⟩ := median_even h nonempty even
    obtain ⟨x', y', hx', hy', answer'⟩ := median_even h' nonempty' (by rw [length, even])
    rw [same, length] at hx' hy'
    cases hx.symm.trans hx'
    cases hy.symm.trans hy'
    exact ⟨_, _, _, answer, answer', rfl, rfl⟩
  · obtain ⟨v, hv, answer, number⟩ := median_odd h odd
    obtain ⟨w, -, answer', number'⟩ := median_odd h' (by rw [length, odd])
    rw [same, length, ← number] at number'
    exact ⟨v, w, numberOf v, answer, answer', number?_eq h v hv, number'.trans (number?_eq h v hv)⟩

end Numbers

section Refusal

theorem number_of_not_number {v : Value} (h : v.isNumber = false) :
    median.number v = .error (.notNumber median v.ty) := by
  cases v with
  | int | float => cases h
  | none | text | bool | array | function | builtin => rfl

theorem mapM_of_not_number (h : ∃ v ∈ vs, v.isNumber = false) :
    ∃ f, (vs.mapM fun v => do return (← median.number v, v)) = .error f ∧ f.kind = .type := by
  induction vs with
  | nil =>
    obtain ⟨v, hv, -⟩ := h
    cases hv
  | cons v vs ih =>
    rw [List.mapM_cons]
    cases number : v.isNumber with
    | false =>
      rw [number_of_not_number number]
      exact ⟨_, rfl, rfl⟩
    | true =>
      obtain ⟨w, hw, refused⟩ := h
      have later : w ∈ vs := by
        rcases List.mem_cons.mp hw with rfl | hw
        · rw [number] at refused
          cases refused
        · exact hw
      obtain ⟨f, hf, kind⟩ := ih ⟨w, later, refused⟩
      have first : v.number? = some (numberOf v) :=
        number?_eq (by simpa using number) v (List.mem_singleton_self v)
      rw [hf, Builtin.number, first]
      exact ⟨f, rfl, kind⟩

theorem median_refused (h : ∃ v ∈ vs, v.isNumber = false) :
    FailsWith .type (median.compute [.array vs]) := by
  obtain ⟨f, hf, kind⟩ := mapM_of_not_number h
  refine ⟨f, ?_, kind⟩
  cases vs with
  | nil => cases hf
  | cons v vs =>
    change ((v :: vs).mapM (fun v => do return (← median.number v, v)) >>= _) = _
    rw [hf]
    rfl

end Refusal

theorem median_order_statistic (vs : List Value) (nonempty : vs ≠ []) :
    ((∀ v ∈ vs, v.isNumber = true) →
        (∃ S : List Binary64, S.Pairwise Precedes ∧ (S.map some).Perm (vs.map number?) ∧
          (vs.length % 2 = 1 → ∃ v ∈ vs, median.compute [.array vs] = .ok v ∧
            v.number? = S[(vs.length - 1) / 2]?) ∧
          (vs.length % 2 = 0 → ∃ x y, S[vs.length / 2 - 1]? = some x ∧
            S[vs.length / 2]? = some y ∧
            median.compute [.array vs] = .ok (.float ((x.add y).div (.ofNat 2))))) ∧
        ∀ ws, ws.Perm vs →
          ∃ v w x, median.compute [.array vs] = .ok v ∧ median.compute [.array ws] = .ok w ∧
            v.number? = some x ∧ w.number? = some x) ∧
      ((∃ v ∈ vs, v.isNumber = false) →
        ∀ ws, ws.Perm vs → FailsWith .type (median.compute [.array ws])) := by
  refine ⟨fun h => ⟨⟨sortedNumbers vs, pairwise_sortedNumbers vs, perm_sortedNumbers h,
    median_odd h, median_even h nonempty⟩, fun ws => median_perm h nonempty⟩, ?_⟩
  rintro ⟨v, hv, refused⟩ ws perm
  exact median_refused ⟨v, perm.mem_iff.mpr hv, refused⟩

/-- `2 ^ 53` and `2 ^ 53 + 1` have the same number, and NaN is beyond it. -/
theorem median_order_statistic_rounded :
    ∃ v w x,
      median.compute [.array [.int 9007199254740992, .int 9007199254740993,
        .float ⟨0x7FF8000000000000⟩]] = .ok v ∧
      median.compute [.array [.int 9007199254740993, .int 9007199254740992,
        .float ⟨0x7FF8000000000000⟩]] = .ok w ∧ v.number? = some x ∧ w.number? = some x := by
  obtain ⟨numbers, -⟩ := median_order_statistic [.int 9007199254740992, .int 9007199254740993,
    .float ⟨0x7FF8000000000000⟩] (by simp)
  obtain ⟨-, orders⟩ := numbers (by simp [isNumber])
  exact orders _ (.swap _ _ _)

end Builtin

end Abacus
