/-!
# Integers of the language

Integers have 64 bits and do not wrap: an operation computes its exact result, which is an integer of
the language when it is in range.
-/

namespace Abacus.Number

def minInteger : Int := -0x8000000000000000

def maxInteger : Int := 0x7FFFFFFFFFFFFFFF

def integer? (n : Int) : Option Int64 :=
  if minInteger ≤ n ∧ n ≤ maxInteger then some (Int64.ofInt n) else none

theorem integer?_eq_none_iff {n : Int} : integer? n = none ↔ ¬ (minInteger ≤ n ∧ n ≤ maxInteger) := by
  simp [integer?]

theorem toInt_of_integer? {n : Int} {i : Int64} (h : integer? n = some i) : i.toInt = n := by
  unfold integer? at h
  split at h
  · rename_i range
    cases h
    rw [Int64.toInt_ofInt_of_le] <;> simp [minInteger, maxInteger] at range <;> omega
  · cases h

theorem integer?_toInt (i : Int64) : integer? i.toInt = some i := by
  have low := i.le_toInt
  have high := i.toInt_lt
  have range : minInteger ≤ i.toInt ∧ i.toInt ≤ maxInteger := by
    simp only [minInteger, maxInteger]; omega
  rw [integer?, if_pos range, Int64.ofInt_toInt]

end Abacus.Number
