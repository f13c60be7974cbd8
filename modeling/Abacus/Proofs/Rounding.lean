import Mathlib.Tactic.Linarith
import Mathlib.Tactic.Positivity
import Mathlib.Tactic.Ring
import Abacus.Number.Binary64

/-!
# Rounding is monotone and keeps what it can represent

The encoding nearest to a quotient grows with the quotient: within one spacing because rounding to
the half-even integer does, and from one spacing to a wider one because the encodings of a spacing
end where those of the next one begin. A whole number of units that has an encoding rounds to it.
So the order of the integers is the order of their numbers, up to integers that share one, and the
integers from `-2 ^ 53` to `2 ^ 53` are kept.
-/

namespace Abacus.Number

section Nearest

theorem roundHalfEven_le (n d : Nat) : roundHalfEven n d ≤ n / d + 1 := by
  unfold roundHalfEven
  dsimp only
  split <;> omega

theorem le_roundHalfEven (n d : Nat) : n / d ≤ roundHalfEven n d := by
  unfold roundHalfEven
  dsimp only
  split <;> omega

theorem roundHalfEven_mul (q : Nat) {d : Nat} (hd : 0 < d) : roundHalfEven (q * d) d = q := by
  unfold roundHalfEven
  rw [Nat.mul_div_cancel q hd, Nat.mul_mod_left]
  simp only [Nat.mul_zero, Nat.not_lt_zero, decide_false, Bool.false_or, Bool.and_eq_true,
    beq_iff_eq]
  rw [if_neg fun h => hd.ne h.1]

theorem roundHalfEven_mono {m n : Nat} (d : Nat) (h : m ≤ n) :
    roundHalfEven m d ≤ roundHalfEven n d := by
  rcases (Nat.div_le_div_right h : m / d ≤ n / d).eq_or_lt with same | less
  · have hm := Nat.div_add_mod m d
    have hn := Nat.div_add_mod n d
    unfold roundHalfEven
    rw [same] at hm ⊢
    simp only [Bool.or_eq_true, Bool.and_eq_true, decide_eq_true_eq, beq_iff_eq]
    split_ifs <;> omega
  · calc roundHalfEven m d ≤ m / d + 1 := roundHalfEven_le m d
      _ ≤ n / d := less
      _ ≤ roundHalfEven n d := le_roundHalfEven n d

/-- The binary digits of a quotient beyond the 53 that are kept. -/
def dropped (num den : Nat) : Nat := (num / den).log2 - 52

variable {num den : Nat}

theorem nearest_eq (num den : Nat) :
    nearest num den =
      min (dropped num den * binade + roundHalfEven num (den * 2 ^ dropped num den))
        infinityCode := by
  rw [← Nat.shiftLeft_eq]
  rfl

theorem nearest_le (num den : Nat) : nearest num den ≤ infinityCode := by
  rw [nearest_eq]
  exact Nat.min_le_right _ _

theorem dropped_mono {num' : Nat} (h : num ≤ num') : dropped num den ≤ dropped num' den := by
  unfold dropped
  by_cases zero : num / den = 0
  · rw [zero, Nat.log2_zero]
    omega
  · have le : num / den ≤ num' / den := Nat.div_le_div_right h
    have : (num / den).log2 ≤ (num' / den).log2 := by
      have pos : 0 < num / den := Nat.pos_of_ne_zero zero
      rw [Nat.le_log2 (pos.trans_le le).ne']
      exact (Nat.log2_self_le zero).trans le
    omega

/-- The kept digits of a quotient are below the double of a binade, which rounding may reach. -/
theorem round_dropped_le (hden : 0 < den) :
    roundHalfEven num (den * 2 ^ dropped num den) ≤ 2 * binade := by
  have step : 0 < den * 2 ^ dropped num den := by positivity
  have below : num / den < 2 ^ (53 + dropped num den) := by
    apply Nat.lt_log2_self.trans_le
    exact Nat.pow_le_pow_right (by decide) (by unfold dropped; omega)
  have le : num ≤ 2 * binade * (den * 2 ^ dropped num den) := by
    have := (Nat.div_lt_iff_lt_mul hden).mp below
    calc num ≤ 2 ^ (53 + dropped num den) * den := this.le
      _ = 2 * binade * (den * 2 ^ dropped num den) := by
        rw [pow_add]
        simp only [binade]
        ring
  calc roundHalfEven num (den * 2 ^ dropped num den)
      ≤ roundHalfEven (2 * binade * (den * 2 ^ dropped num den)) (den * 2 ^ dropped num den) :=
        roundHalfEven_mono _ le
    _ = 2 * binade := roundHalfEven_mul _ step

theorem le_round_dropped (hden : 0 < den) (h : 0 < dropped num den) :
    binade ≤ roundHalfEven num (den * 2 ^ dropped num den) := by
  have step : 0 < den * 2 ^ dropped num den := by positivity
  have digits : (num / den).log2 = 52 + dropped num den := by
    unfold dropped at h ⊢
    omega
  have above : 2 ^ (52 + dropped num den) ≤ num / den := by
    rw [← digits]
    apply Nat.log2_self_le
    intro zero
    rw [zero, Nat.log2_zero] at digits
    omega
  have le : binade * (den * 2 ^ dropped num den) ≤ num := by
    calc binade * (den * 2 ^ dropped num den) = 2 ^ (52 + dropped num den) * den := by
          rw [pow_add]
          simp only [binade]
          ring
      _ ≤ num := (Nat.le_div_iff_mul_le hden).mp above
  calc binade = roundHalfEven (binade * (den * 2 ^ dropped num den)) (den * 2 ^ dropped num den) :=
        (roundHalfEven_mul _ step).symm
    _ ≤ roundHalfEven num (den * 2 ^ dropped num den) := roundHalfEven_mono _ le

theorem nearest_mono {num' : Nat} (hden : 0 < den) (h : num ≤ num') :
    nearest num den ≤ nearest num' den := by
  rw [nearest_eq, nearest_eq]
  apply min_le_min_right
  rcases (dropped_mono h : dropped num den ≤ dropped num' den).eq_or_lt with same | less
  · rw [same]
    exact Nat.add_le_add_left (roundHalfEven_mono _ h) _
  · -- the smaller quotient reaches at most the first encoding of the next spacing
    have high : roundHalfEven num (den * 2 ^ dropped num den) ≤ 2 * binade := round_dropped_le hden
    have low : binade ≤ roundHalfEven num' (den * 2 ^ dropped num' den) :=
      le_round_dropped hden (by omega)
    have steps : (dropped num den + 1) * binade ≤ dropped num' den * binade :=
      Nat.mul_le_mul_right binade less
    linarith

theorem units_eq (code : Nat) :
    units code =
      if code / binade = 0 then code else (binade + code % binade) * 2 ^ (code / binade - 1) := by
  rw [← Nat.shiftLeft_eq]
  rfl

theorem nearest_of_small {n : Nat} (h : n < 2 ^ 52) : nearest n 1 = n := by
  have none : dropped n 1 = 0 := by
    unfold dropped
    rw [Nat.div_one]
    by_cases zero : n = 0
    · rw [zero, Nat.log2_zero]
    · have := (Nat.log2_lt zero).mpr h
      omega
  have kept := roundHalfEven_mul n Nat.one_pos
  rw [mul_one] at kept
  rw [nearest_eq, none, pow_zero, mul_one, kept, zero_mul, zero_add]
  exact min_eq_left (by rw [infinityCode]; omega)

/-- A number of 53 digits followed by zeros loses none of its digits. -/
theorem nearest_scaled {n : Nat} (k : Nat) (low : 2 ^ 52 ≤ n) (high : n < 2 ^ 53) :
    nearest (n * 2 ^ k) 1 = min (k * binade + n) infinityCode := by
  have pos : 0 < 2 ^ k := Nat.two_pow_pos k
  have digits : (n * 2 ^ k).log2 = 52 + k := by
    rw [Nat.log2_eq_iff (Nat.mul_pos (by omega) pos).ne', add_right_comm, pow_add, pow_add]
    exact ⟨Nat.mul_le_mul_right _ low, Nat.mul_lt_mul_of_pos_right high pos⟩
  have kept : dropped (n * 2 ^ k) 1 = k := by
    unfold dropped
    rw [Nat.div_one, digits]
    omega
  rw [nearest_eq, kept, one_mul, roundHalfEven_mul _ pos]

theorem nearest_units {code : Nat} (h : code ≤ infinityCode) : nearest (units code) 1 = code := by
  have parts := Nat.div_add_mod code binade
  have low : code % binade < binade := Nat.mod_lt _ (by decide)
  rw [units_eq]
  split_ifs with small
  · apply nearest_of_small
    rw [small, mul_zero, zero_add] at parts
    exact parts ▸ low
  · have digits : 2 ^ 52 ≤ binade + code % binade ∧ binade + code % binade < 2 ^ 53 := by
      simp only [binade] at low ⊢
      omega
    have code_eq : (code / binade - 1) * binade + (binade + code % binade) = code := by
      have exponent : code / binade - 1 + 1 = code / binade :=
        Nat.sub_add_cancel (Nat.pos_of_ne_zero small)
      rw [← add_assoc, ← Nat.succ_mul, Nat.succ_eq_add_one, exponent, mul_comm]
      exact parts
    rw [nearest_scaled _ digits.1 digits.2, code_eq]
    exact min_eq_left h

theorem units_scaled {n : Nat} (k : Nat) (low : 2 ^ 52 ≤ n) (high : n < 2 ^ 53) :
    units (k * binade + n) = n * 2 ^ k := by
  obtain ⟨f, rfl⟩ := Nat.exists_eq_add_of_le low
  have fraction : f < binade := by
    simp only [binade]
    omega
  have code_eq : k * binade + (2 ^ 52 + f) = binade * (k + 1) + f := by
    simp only [binade]
    ring
  rw [code_eq, units_eq, Nat.mul_add_div (by decide), Nat.mul_add_mod, Nat.div_eq_of_lt fraction,
    Nat.mod_eq_of_lt fraction, if_neg (by omega), add_zero, Nat.add_sub_cancel]
  rfl

theorem one_eq : one = 2 ^ 1074 := by
  have shift (k : Nat) : 1 <<< k = 2 ^ k := Nat.one_shiftLeft k
  exact shift 1074

theorem exists_code_of_le {n : Nat} (h : n ≤ 2 ^ 53) :
    ∃ code < infinityCode, units code = n * one := by
  rcases Nat.eq_zero_or_pos n with zero | pos
  · exact ⟨0, by decide, by rw [zero, zero_mul]; rfl⟩
  rcases h.eq_or_lt with top | below
  · refine ⟨1075 * binade + 2 ^ 52, by decide, ?_⟩
    rw [units_scaled 1075 le_rfl (by decide), top, one_eq, ← pow_add, ← pow_add]
  · have digits : n.log2 ≤ 52 := Nat.lt_succ_iff.mp ((Nat.log2_lt pos.ne').mpr below)
    have low := Nat.mul_le_mul_right (2 ^ (52 - n.log2)) (Nat.log2_self_le pos.ne')
    have high := Nat.mul_lt_mul_of_pos_right (Nat.lt_log2_self (n := n))
      (Nat.two_pow_pos (52 - n.log2))
    rw [← pow_add, Nat.add_sub_cancel' digits] at low
    rw [← pow_add, add_right_comm, Nat.add_sub_cancel' digits] at high
    refine ⟨(1022 + n.log2) * binade + n * 2 ^ (52 - n.log2), ?_, ?_⟩
    · have := Nat.mul_le_mul_right binade (Nat.add_le_add_left digits 1022)
      simp only [binade, infinityCode] at this ⊢
      omega
    · have shift : 52 - n.log2 + (1022 + n.log2) = 1074 := by omega
      rw [units_scaled _ low high, mul_assoc, ← pow_add, shift, one_eq]

end Nearest

end Abacus.Number

namespace Abacus.Binary64

open Number

section Encoding

theorem toNat_signBit : signBit.toNat = 2 ^ 63 := rfl

theorem negative_iff (x : Binary64) : x.negative = true ↔ 2 ^ 63 ≤ x.bits.toNat := by
  rw [negative, decide_eq_true_eq, UInt64.le_iff_toNat_le, toNat_signBit]

theorem code_eq (x : Binary64) : x.code = x.bits.toNat % 2 ^ 63 := by
  rw [code, UInt64.toNat_mod, toNat_signBit]

theorem toNat_ofCode (negative : Bool) {code : Nat} (h : code < 2 ^ 63) :
    (ofCode negative code).bits.toNat = if negative then code + 2 ^ 63 else code := by
  have small : (UInt64.ofNat code).toNat = code := by
    rw [UInt64.toNat_ofNat']
    omega
  cases negative with
  | false => exact small
  | true =>
    change (UInt64.ofNat code + signBit).toNat = _
    rw [UInt64.toNat_add, small, toNat_signBit, if_pos rfl]
    omega

@[simp] theorem negative_ofCode (negative : Bool) {code : Nat} (h : code < 2 ^ 63) :
    (ofCode negative code).negative = negative := by
  rw [Bool.eq_iff_iff, negative_iff, toNat_ofCode negative h]
  cases negative with
  | false => simpa using h
  | true => simp

@[simp] theorem code_ofCode (negative : Bool) {code : Nat} (h : code < 2 ^ 63) :
    (ofCode negative code).code = code := by
  rw [code_eq, toNat_ofCode negative h]
  cases negative with
  | false => exact Nat.mod_eq_of_lt h
  | true =>
    rw [if_pos rfl, Nat.add_mod_right]
    exact Nat.mod_eq_of_lt h

theorem eq_of_parts {x y : Binary64} (hnegative : x.negative = y.negative)
    (hcode : x.code = y.code) : x = y := by
  have hx := x.bits.toNat_lt
  have hy := y.bits.toNat_lt
  have sides := negative_iff x
  rw [hnegative, negative_iff] at sides
  rw [code_eq, code_eq] at hcode
  have bits : x.bits.toNat = y.bits.toNat := by omega
  cases x
  cases y
  exact congrArg mk (UInt64.toNat_inj.mp bits)

theorem eq_of_totalKey_eq {x y : Binary64} (h : x.totalKey = y.totalKey) : x = y := by
  simp only [totalKey] at h
  by_cases hx : x.negative = true <;> by_cases hy : y.negative = true
  · rw [if_pos hx, if_pos hy] at h
    exact eq_of_parts (hx.trans hy.symm) (by omega)
  · rw [if_pos hx, if_neg hy] at h
    omega
  · rw [if_neg hx, if_pos hy] at h
    omega
  · rw [if_neg hx, if_neg hy] at h
    exact eq_of_parts (by rw [Bool.eq_false_of_not_eq_true hx, Bool.eq_false_of_not_eq_true hy])
      (by omega)

end Encoding

section Integers

theorem nearest_lt (n : Nat) : nearest (n * one) 1 < 2 ^ 63 :=
  (nearest_le _ _).trans_lt (by decide)

theorem negative_ofInt (n : Int) : (ofInt n).negative = decide (n < 0) :=
  negative_ofCode _ (nearest_lt n.natAbs)

theorem code_ofInt (n : Int) : (ofInt n).code = nearest (n.natAbs * one) 1 :=
  code_ofCode _ (nearest_lt n.natAbs)

theorem nearest_natAbs_mono {m n : Int} (h : m.natAbs ≤ n.natAbs) :
    (ofInt m).code ≤ (ofInt n).code := by
  rw [code_ofInt, code_ofInt]
  exact nearest_mono Nat.one_pos (Nat.mul_le_mul_right one h)

theorem totalKey_ofInt_mono {m n : Int} (h : m ≤ n) : (ofInt m).totalKey ≤ (ofInt n).totalKey := by
  simp only [totalKey, negative_ofInt, decide_eq_true_eq]
  split_ifs with hm hn hn
  · have := nearest_natAbs_mono (m := n) (n := m) (by omega)
    omega
  · omega
  · omega
  · have := nearest_natAbs_mono (m := m) (n := n) (by omega)
    omega

theorem key_eq_cases {x y : Binary64} (h : x.key = y.key) :
    x.code = y.code ∧ (x.negative = y.negative ∨ x.code = 0) := by
  simp only [key] at h
  cases hx : x.negative <;> cases hy : y.negative <;> simp [hx, hy] at h ⊢ <;> omega

theorem units_eq_of_key_eq {x y : Binary64} (h : x.key = y.key) : x.units = y.units := by
  obtain ⟨code, sign | zero⟩ := key_eq_cases h
  · rw [units, units, sign, code]
  · have none : Number.units 0 = 0 := rfl
    simp [units, ← code, zero, none]

def IsInt (x : Binary64) (n : Int) : Prop := x.isFinite = true ∧ x.units = n * one

instance (x : Binary64) (n : Int) : Decidable (x.IsInt n) := inferInstanceAs (Decidable (_ ∧ _))

def Represents (n : Int) : Prop := ∃ x : Binary64, x.IsInt n

theorem natAbs_units (x : Binary64) : x.units.natAbs = Number.units x.code := by
  unfold units
  split <;> simp

theorem one_pos : (0 : Int) < one := by decide

theorem IsInt.key_eq {x : Binary64} {n : Int} (hx : x.IsInt n) : (ofInt n).key = x.key := by
  obtain ⟨finite, h⟩ := hx
  have code : (ofInt n).code = x.code := by
    have magnitude : Number.units x.code = n.natAbs * one := by
      rw [← natAbs_units, h, Int.natAbs_mul, Int.natAbs_natCast]
    rw [code_ofInt, ← magnitude]
    exact nearest_units (of_decide_eq_true finite).le
  rcases lt_trichotomy n 0 with below | rfl | above
  · have sign : x.negative = true := by
      by_contra positive
      rw [units, if_neg positive] at h
      have := Int.mul_neg_of_neg_of_pos below one_pos
      omega
    rw [key, key, negative_ofInt, code, sign, decide_eq_true below]
  · -- zero has two numbers, which differ in their sign only
    have zero : x.code = 0 := by
      rw [← code, code_ofInt, Int.natAbs_zero, zero_mul]
      exact nearest_of_small (by decide)
    simp [key, code, zero]
  · have sign : x.negative = false := by
      by_contra negative
      rw [units, if_pos (by simpa using negative)] at h
      have := Int.mul_pos above one_pos
      omega
    rw [key, key, negative_ofInt, code, sign, decide_eq_false (by omega)]

theorem IsInt.of_key_eq {x y : Binary64} {n : Int} (hx : x.IsInt n) (h : x.key = y.key) :
    y.IsInt n := by
  constructor
  · rw [isFinite, ← (key_eq_cases h).1]
    exact hx.1
  · rw [← units_eq_of_key_eq h]
    exact hx.2

theorem Represents.isInt {x : Binary64} {n : Int} (hn : Represents n) (h : (ofInt n).key = x.key) :
    x.IsInt n := by
  obtain ⟨y, hy⟩ := hn
  exact hy.of_key_eq (hy.key_eq.symm.trans h)

theorem represents_of_le {n : Int} (h : n.natAbs ≤ 2 ^ 53) : Represents n := by
  obtain ⟨code, finite, units⟩ := exists_code_of_le h
  have range : code < 2 ^ 63 := finite.trans (by decide)
  refine ⟨ofCode (n < 0) code, ?_, ?_⟩
  · rw [isFinite, code_ofCode _ range]
    exact decide_eq_true finite
  · rw [Binary64.units, negative_ofCode _ range, code_ofCode _ range, units,
      Int.natCast_mul]
    split_ifs with below
    · rw [decide_eq_true_eq] at below
      rw [← neg_mul]
      congr 1
      omega
    · rw [decide_eq_true_eq] at below
      congr 1
      omega

theorem ofInt_injective {m n : Int} (hm : Represents m) (hn : Represents n)
    (h : ofInt m = ofInt n) : m = n := by
  have units := (hm.isInt rfl).2
  rw [h, (hn.isInt rfl).2] at units
  exact (Int.eq_of_mul_eq_mul_right one_pos.ne' units).symm

theorem isNaN_ofInt (n : Int) : (ofInt n).isNaN = false := by
  rw [isNaN, code_ofInt]
  exact decide_eq_false (nearest_le _ _).not_gt

theorem IsInt.isNaN_eq {x : Binary64} {n : Int} (h : x.IsInt n) : x.isNaN = false := by
  have finite := of_decide_eq_true h.1
  exact decide_eq_false finite.le.not_gt

theorem isInt_zero {x : Binary64} (h : x.code = 0) : x.IsInt 0 := by
  constructor
  · rw [isFinite, h]
    decide
  · rw [units, h]
    split <;> decide

theorem eq_iff {x y : Binary64} (hy : y.isNaN = false) :
    x.eq y = true ↔ x.isNaN = false ∧ x.key = y.key := by
  simp [Binary64.eq, hy]

theorem eq_swap (x y : Binary64) : x.eq y = y.eq x := by
  rw [Binary64.eq, Binary64.eq, Bool.and_comm (!x.isNaN), Bool.beq_comm]

/-- A number is an integer if it equals the one that the integer is rounded to, and none is lost. -/
theorem isInt_iff {x : Binary64} {n : Int} : x.IsInt n ↔ Represents n ∧ (ofInt n).eq x = true := by
  constructor
  · intro isInt
    refine ⟨⟨x, isInt⟩, ?_⟩
    exact (eq_iff isInt.isNaN_eq).mpr ⟨isNaN_ofInt n, isInt.key_eq⟩
  · rintro ⟨represents, equal⟩
    simp only [Binary64.eq, Bool.and_eq_true, beq_iff_eq] at equal
    exact represents.isInt equal.2

end Integers

end Abacus.Binary64
