import Mathlib.Data.Rat.Floor
import Mathlib.Tactic.Linarith
import Abacus.Operator

/-!
# Operators on integers

An operator on integers has an exact result, which need not be an integer of the language. Sums,
differences, products, powers and negations answer with the exact result whenever it is in range,
and with a value error otherwise. A remainder is always in range. It is the one of division toward
the floor, taken from the remainder of division toward zero, and it is refused for the one pair of
operands whose quotient leaves the range.
-/

namespace Abacus

open Number

def FailsWith (kind : ErrorKind) (answer : Except Fault Value) : Prop :=
  ∃ f, answer = .error f ∧ f.kind = kind

def Fits (n : Int) : Prop := -2 ^ 63 ≤ n ∧ n < 2 ^ 63

instance (n : Int) : Decidable (Fits n) := inferInstanceAs (Decidable (_ ∧ _))

/-- The answer is the integer `n` if it fits, and a value error otherwise. -/
structure Exactly (answer : Except Fault Value) (n : Int) : Prop where
  fits : Fits n → ∃ i : Int64, i.toInt = n ∧ answer = .ok (.int i)
  overflows : ¬ Fits n → FailsWith .value answer

theorem fits_toInt (i : Int64) : Fits i.toInt := ⟨i.le_toInt, i.toInt_lt⟩

theorem integer?_of_fits {n : Int} (h : Fits n) : ∃ i, integer? n = some i ∧ i.toInt = n := by
  have range : minInteger ≤ n ∧ n ≤ maxInteger := by
    simp only [Fits, minInteger, maxInteger] at h ⊢
    omega
  have some : integer? n = some (Int64.ofInt n) := if_pos range
  exact ⟨_, some, toInt_of_integer? some⟩

theorem integer?_of_not_fits {n : Int} (h : ¬ Fits n) : integer? n = none := by
  rw [integer?_eq_none_iff]
  simp only [Fits, minInteger, maxInteger] at h ⊢
  omega

section Exact

theorem exactly_of_toInt {answer : Except Fault Value} {i : Int64} {n : Int}
    (h : answer = .ok (.int i)) (hi : i.toInt = n) : Exactly answer n :=
  ⟨fun _ => ⟨i, hi, h⟩, fun h => absurd (hi ▸ fits_toInt i) h⟩

theorem UnaryOp.neg_exactly (n : Int64) : Exactly (UnaryOp.neg.apply (.int n)) (- n.toInt) := by
  constructor
  · intro h
    obtain ⟨i, hi, hn⟩ := integer?_of_fits h
    exact ⟨i, hn, by simp only [UnaryOp.apply, hi]⟩
  · intro h
    exact ⟨.negationOverflow, by simp only [UnaryOp.apply, integer?_of_not_fits h], rfl⟩

/-- Of a base beyond -1, 0 and 1 no power from the 64th on is in range. -/
theorem not_fits_pow {base : Int} {n : Nat} (hbase : 2 ≤ base.natAbs) (hn : 64 ≤ n) :
    ¬ Fits (base ^ n) := by
  have large : 2 ^ 64 ≤ (base ^ n).natAbs := by
    calc 2 ^ 64 ≤ 2 ^ n := Nat.pow_le_pow_right (by decide) hn
      _ ≤ base.natAbs ^ n := Nat.pow_le_pow_left hbase n
      _ = (base ^ n).natAbs := (Int.natAbs_pow base n).symm
  intro h
  simp only [Fits] at h
  omega

theorem neg_one_pow_toNat {n : Int} (h : 0 ≤ n) :
    (-1 : Int) ^ n.toNat = if n % 2 = 0 then 1 else -1 := by
  split
  · exact Even.neg_one_pow (Nat.even_iff.mpr (by omega))
  · exact Odd.neg_one_pow (Nat.odd_iff.mpr (by omega))

namespace BinaryOp

theorem integer_exactly (op : BinaryOp) (n : Int) : Exactly (op.integer n) n := by
  constructor
  · intro h
    obtain ⟨i, hi, hn⟩ := integer?_of_fits h
    exact ⟨i, hn, by rw [integer, hi]⟩
  · intro h
    exact ⟨.overflow op, by rw [integer, integer?_of_not_fits h], rfl⟩

/-- The bases -1, 0 and 1 have a power for every exponent. The other ones are out of range at every
exponent that is not tried. -/
theorem power_exactly (base : Int) {exponent : Int} (h : 0 ≤ exponent) :
    Exactly (power base exponent) (base ^ exponent.toNat) := by
  unfold power
  by_cases h1 : base = 1
  · rw [if_pos h1, h1, one_pow]
    exact exactly_of_toInt rfl rfl
  rw [if_neg h1]
  by_cases h0 : base = 0
  · rw [if_pos h0, h0]
    apply exactly_of_toInt rfl
    by_cases he : exponent = 0
    · simp [he]
    · rw [if_neg he, zero_pow (by omega)]
      rfl
  rw [if_neg h0]
  by_cases hneg : base = -1
  · rw [if_pos hneg, hneg, neg_one_pow_toNat h]
    apply exactly_of_toInt rfl
    split <;> rfl
  rw [if_neg hneg]
  by_cases small : exponent < 64
  · rw [if_pos small]
    exact integer_exactly pow _
  · rw [if_neg small]
    have beyond : ¬ Fits (base ^ exponent.toNat) := not_fits_pow (by omega) (by omega)
    exact ⟨fun fits => absurd fits beyond, fun _ => ⟨.overflow pow, rfl, rfl⟩⟩

theorem integers_exact (a b : Int64) :
    Exactly (add.apply (.int a) (.int b)) (a.toInt + b.toInt) ∧
      Exactly (sub.apply (.int a) (.int b)) (a.toInt - b.toInt) ∧
      Exactly (mul.apply (.int a) (.int b)) (a.toInt * b.toInt) ∧
      (0 ≤ b.toInt → Exactly (pow.apply (.int a) (.int b)) (a.toInt ^ b.toInt.toNat)) ∧
      Exactly (UnaryOp.neg.apply (.int a)) (- a.toInt) := by
  refine ⟨integer_exactly add _, integer_exactly sub _, integer_exactly mul _, ?_,
    UnaryOp.neg_exactly a⟩
  intro h
  have raised : pow.apply (.int a) (.int b) = power a.toInt b.toInt := if_pos h
  rw [raised]
  exact power_exactly a.toInt h

theorem integers_exact_least :
    pow.apply (.int (-2)) (.int 63) = .ok (.int Int64.minValue) ∧
      FailsWith .value (UnaryOp.neg.apply (.int Int64.minValue)) := by
  obtain ⟨-, -, -, power, -⟩ := integers_exact (-2) 63
  obtain ⟨-, -, -, -, negated⟩ := integers_exact Int64.minValue 0
  obtain ⟨i, hi, answer⟩ := (power (by decide)).fits (by decide)
  refine ⟨?_, negated.overflows (by decide)⟩
  rw [answer, Int64.toInt_inj.mp (hi.trans (by decide : _ = Int64.minValue.toInt))]

end BinaryOp

end Exact

section Remainder

theorem fmod_bounds (a : Int) {b : Int} (hb : b ≠ 0) :
    (0 ≤ a.fmod b ∧ a.fmod b < b) ∨ (b < a.fmod b ∧ a.fmod b ≤ 0) := by
  have low := Int.emod_nonneg a hb
  have high := Int.emod_lt a hb
  rw [Int.fmod_eq_emod]
  split
  · rename_i h
    rcases h with h | h
    · omega
    · rw [Int.emod_eq_zero_of_dvd h]
      omega
  · rename_i h
    have ne : a % b ≠ 0 := fun h' => h (.inr (Int.dvd_of_emod_eq_zero h'))
    omega

theorem fmod_eq_floor (a : Int) {b : Int} (hb : b ≠ 0) : a.fmod b = a - b * ⌊(a : ℚ) / b⌋ := by
  have quotient : ⌊(a : ℚ) / b⌋ = a.fdiv b := by
    have parts : (b * a.fdiv b + a.fmod b : ℚ) = a := mod_cast Int.mul_fdiv_add_fmod a b
    rw [Int.floor_eq_iff]
    rcases fmod_bounds a hb with ⟨low, high⟩ | ⟨low, high⟩
    · have pos : (0 : ℚ) < b := mod_cast low.trans_lt high
      have low' : (0 : ℚ) ≤ a.fmod b := mod_cast low
      have high' : (a.fmod b : ℚ) < b := mod_cast high
      rw [le_div_iff₀ pos, div_lt_iff₀ pos]
      constructor <;> linarith
    · have neg : (b : ℚ) < 0 := mod_cast low.trans_le high
      have low' : (b : ℚ) < a.fmod b := mod_cast low
      have high' : (a.fmod b : ℚ) ≤ 0 := mod_cast high
      rw [le_div_iff_of_neg neg, div_lt_iff_of_neg neg]
      constructor <;> linarith
  rw [quotient, Int.fmod_def]

theorem fmod_eq_corrected (a : Int) {b : Int} (hb : b ≠ 0) :
    a.fmod b = if a.tmod b ≠ 0 ∧ ¬ (a.tmod b < 0 ↔ b < 0) then a.tmod b + b else a.tmod b := by
  have low := Int.emod_nonneg a hb
  have high := Int.emod_lt a hb
  rw [Int.fmod_eq_emod, Int.tmod_eq_emod]
  by_cases h : b ∣ a
  · simp [h, Int.emod_eq_zero_of_dvd h]
  · have ne : a % b ≠ 0 := fun h' => h (Int.dvd_of_emod_eq_zero h')
    simp only [h, or_false]
    split_ifs <;> omega

theorem fits_tdiv_iff {a b : Int64} (hb : b.toInt ≠ 0) :
    Fits (a.toInt.tdiv b.toInt) ↔ ¬ (a = Int64.minValue ∧ b = -1) := by
  have range := fits_toInt a
  simp only [Fits] at range
  by_cases hneg : b = -1
  · -- over -1 the quotient is the negation, which leaves the range for the least integer only
    have quotient : a.toInt.tdiv b.toInt = - a.toInt := by
      rw [hneg]
      exact (Int.tdiv_neg a.toInt 1).trans (by rw [Int.tdiv_one])
    have least : a = Int64.minValue ↔ a.toInt = -2 ^ 63 := Int64.toInt_inj.symm
    rw [quotient, and_iff_left hneg, least]
    simp only [Fits]
    omega
  · refine iff_of_true ?_ fun h => hneg h.2
    by_cases hone : b.toInt = 1
    · rw [hone, Int.tdiv_one]
      exact fits_toInt a
    · have large : 2 ≤ b.toInt.natAbs := by
        have : b.toInt ≠ -1 := fun h => hneg (Int64.toInt_inj.mp h)
        omega
      have half : (a.toInt.tdiv b.toInt).natAbs ≤ a.toInt.natAbs / 2 := by
        rw [Int.natAbs_tdiv]
        exact Nat.div_le_div_left large (by decide)
      simp only [Fits]
      omega

/-- The remainder of division toward the floor: `m = a - b * ⌊a / b⌋`. It comes from the remainder
of division toward zero, moved by the divisor if the two are on different sides of zero. -/
structure Floored (a b m : Int) : Prop where
  floor : m = a - b * ⌊(a : ℚ) / b⌋
  sign : m = 0 ∨ m.sign = b.sign
  smaller : |m| < |b|
  quotient_fits : Fits (a.tdiv b)
  remainder_fits : Fits (a.tmod b)
  corrected : m = if a.tmod b ≠ 0 ∧ ¬ (a.tmod b < 0 ↔ b < 0) then a.tmod b + b else a.tmod b

theorem floored_fmod {a b : Int64} (hb : b.toInt ≠ 0) (hquotient : Fits (a.toInt.tdiv b.toInt)) :
    Floored a.toInt b.toInt (a.toInt.fmod b.toInt) := by
  have bounds := fmod_bounds a.toInt hb
  refine ⟨fmod_eq_floor _ hb, ?_, ?_, hquotient, ?_, fmod_eq_corrected _ hb⟩
  · rcases bounds with ⟨low, high⟩ | ⟨low, high⟩
    · rcases low.eq_or_lt with h | h
      · exact .inl h.symm
      · exact .inr (by rw [Int.sign_eq_one_of_pos h, Int.sign_eq_one_of_pos (h.trans high)])
    · rcases high.eq_or_lt with h | h
      · exact .inl h
      · exact .inr (by rw [Int.sign_eq_neg_one_of_neg h, Int.sign_eq_neg_one_of_neg (low.trans h)])
  · simp only [abs_lt, lt_abs]
    omega
  · have range := fits_toInt a
    have below : (a.toInt.tmod b.toInt).natAbs ≤ a.toInt.natAbs := by
      rw [Int.natAbs_tmod]
      exact Nat.mod_le _ _
    have inside : (a.toInt.tmod b.toInt).natAbs < b.toInt.natAbs := by
      rw [Int.natAbs_tmod]
      exact Nat.mod_lt _ (by omega)
    have range' := fits_toInt b
    simp only [Fits] at range range' ⊢
    omega

namespace BinaryOp

theorem modulo_of_fits {a b : Int64} (hb : b ≠ 0) (h : Fits (a.toInt.tdiv b.toInt)) :
    mod.apply (.int a) (.int b) = mod.integer (a.toInt.fmod b.toInt) := by
  obtain ⟨q, hq, -⟩ := integer?_of_fits h
  change (if b = 0 then _ else _) = _
  rw [if_neg hb, hq]

theorem modulo_of_not_fits {a b : Int64} (hb : b ≠ 0) (h : ¬ Fits (a.toInt.tdiv b.toInt)) :
    mod.apply (.int a) (.int b) = .error (.overflow mod) := by
  change (if b = 0 then _ else _) = _
  rw [if_neg hb, integer?_of_not_fits h]

theorem modulo_floored (a b : Int64) :
    (b ≠ 0 → ¬ (a = Int64.minValue ∧ b = -1) →
        ∃ m : Int64, mod.apply (.int a) (.int b) = .ok (.int m) ∧
          Floored a.toInt b.toInt m.toInt) ∧
      (a = Int64.minValue ∧ b = -1 → FailsWith .value (mod.apply (.int a) (.int b))) ∧
      (b = 0 → FailsWith .value (mod.apply (.int a) (.int b))) := by
  refine ⟨?_, ?_, ?_⟩
  · intro hb hpair
    have hb' : b.toInt ≠ 0 := fun h => hb (Int64.toInt_inj.mp h)
    have quotient := (fits_tdiv_iff hb').mpr hpair
    have floored := floored_fmod hb' quotient
    have fits : Fits (a.toInt.fmod b.toInt) := by
      have range := fits_toInt b
      have bounds := fmod_bounds a.toInt hb'
      simp only [Fits] at range ⊢
      omega
    obtain ⟨m, hm, answer⟩ := (integer_exactly mod _).fits fits
    exact ⟨m, (modulo_of_fits hb quotient).trans answer, hm ▸ floored⟩
  · rintro ⟨rfl, rfl⟩
    exact ⟨.overflow mod, modulo_of_not_fits (by decide) (by decide), rfl⟩
  · rintro rfl
    exact ⟨.moduloByZero, rfl, rfl⟩

theorem modulo_floored_signs :
    (∃ m : Int64, mod.apply (.int (-7)) (.int 3) = .ok (.int m) ∧ m.toInt = 2) ∧
      (∃ m : Int64, mod.apply (.int Int64.maxValue) (.int Int64.minValue) = .ok (.int m) ∧
        m.toInt = -1) := by
  constructor
  · obtain ⟨m, answer, floored⟩ := (modulo_floored (-7) 3).1 (by decide) (by decide)
    exact ⟨m, answer, floored.corrected.trans (by decide)⟩
  · obtain ⟨m, answer, floored⟩ :=
      (modulo_floored Int64.maxValue Int64.minValue).1 (by decide) (by decide)
    exact ⟨m, answer, floored.corrected.trans (by decide)⟩

theorem modulo_least_refused :
    mod.apply (.int Int64.minValue) (.int (-1)) = .error (.overflow mod) ∧
      Int64.minValue.toInt -
        (-1 : Int64).toInt * ⌊(Int64.minValue.toInt : ℚ) / (-1 : Int64).toInt⌋ = 0 := by
  refine ⟨modulo_of_not_fits (by decide) (by decide), ?_⟩
  rw [← fmod_eq_floor _ (by decide)]
  decide

end BinaryOp

end Remainder

end Abacus
