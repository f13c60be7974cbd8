import Abacus.Proofs.Broadcast
import Abacus.Proofs.Rounding

/-!
# Operands that may change places

A product is the same whichever operand stands on the left, for operands of any nesting, and so is a
sum that joins no two texts. The paths into two operands are those into the operands in the other
order, so the first path without a result is the same one, and what fails there fails for the same kind
of reason. Two NaN are no exception except in which of them is the result.
-/

namespace Abacus

namespace Value

/-- The same value, up to which NaN stands in a place of NaN. -/
inductive Coincide : Value → Value → Prop
  | refl (v : Value) : Coincide v v
  | nan {x y : Binary64} : x.isNaN = true → y.isNaN = true → Coincide (.float x) (.float y)
  | array {vs ws : List Value} : List.Forall₂ Coincide vs ws → Coincide (.array vs) (.array ws)

def HoldsText (v : Value) : Prop := ∃ path s, v.follow path = some (.text s)

variable {l r : Value} {n : Nat}

theorem Joins.symm (h : Joins l r n) : Joins r l n := by
  cases h with
  | both hlen => exact hlen ▸ .both hlen.symm
  | left hr => exact .right hr
  | right hl => exact .left hl

theorem pairs_swap (h : Joins l r n) : pairs r l = (pairs l r).map Prod.swap := by
  cases h with
  | both _ => rw [pairs, pairs, List.zip_swap]
  | @left ls _ hr =>
    rw [pairs_left ls hr, pairs_right hr ls, List.map_map]
    rfl
  | @right _ rs hl =>
    rw [pairs_left rs hl, pairs_right hl rs, List.map_map]
    rfl

end Value

inductive Matches (R : α → α → Prop) : Except Fault α → Except Fault α → Prop
  | ok {a b : α} : R a b → Matches R (.ok a) (.ok b)
  | error {f g : Fault} : f.kind = g.kind → Matches R (.error f) (.error g)

namespace Matches

variable {R : α → α → Prop} {S : β → β → Prop}

theorem refl (hR : ∀ a, R a a) (m : Except Fault α) : Matches R m m := by
  cases m with
  | ok a => exact .ok (hR a)
  | error f => exact .error rfl

theorem bind {m m' : Except Fault α} {f f' : α → Except Fault β} (hm : Matches R m m')
    (hf : ∀ a b, R a b → Matches S (f a) (f' b)) : Matches S (m >>= f) (m' >>= f') := by
  cases hm with
  | ok hab => exact hf _ _ hab
  | error hkind => exact .error hkind

theorem map {m m' : Except Fault α} {f f' : α → β} (hm : Matches R m m')
    (hf : ∀ a b, R a b → S (f a) (f' b)) : Matches S (m.map f) (m'.map f') := by
  cases hm with
  | ok hab => exact .ok (hf _ _ hab)
  | error hkind => exact .error hkind

end Matches

namespace Binary64

open Number

section Numbers

variable {x y : Binary64}

theorem eq_of_infinite (hx : x.isInfinite = true) (hy : y.isInfinite = true)
    (sign : x.negative = y.negative) : x = y := by
  simp only [isInfinite, beq_iff_eq] at hx hy
  exact eq_of_parts sign (hx.trans hy.symm)

theorem add_comm_of_numbers (hx : x.isNaN = false) (hy : y.isNaN = false) :
    x.add y = y.add x := by
  simp only [add, hx, hy, Bool.false_eq_true, if_false]
  cases hxi : x.isInfinite <;> cases hyi : y.isInfinite
  · simp only [Bool.false_eq_true, if_false, Int.add_comm y.units, Bool.and_comm y.negative]
  · simp
  · simp
  · by_cases sign : x.negative = y.negative
    · simp [eq_of_infinite hxi hyi sign]
    · simp [sign, Ne.symm sign]

theorem mul_comm_of_numbers (hx : x.isNaN = false) (hy : y.isNaN = false) :
    x.mul y = y.mul x := by
  simp only [mul, hx, hy, Bool.false_eq_true, if_false, bne_comm (a := y.negative),
    Bool.or_comm y.isInfinite, Bool.or_comm y.isZero, Nat.mul_comm (Number.units y.code)]

theorem coincide_of_numbers {f : Binary64 → Binary64 → Binary64}
    (left : ∀ x y, x.isNaN = true → f x y = x)
    (right : ∀ x y, x.isNaN = false → y.isNaN = true → f x y = y)
    (numbers : ∀ x y, x.isNaN = false → y.isNaN = false → f x y = f y x) (x y : Binary64) :
    Value.Coincide (.float (f x y)) (.float (f y x)) := by
  cases hx : x.isNaN <;> cases hy : y.isNaN
  · rw [numbers x y hx hy]
    exact .refl _
  · rw [right x y hx hy, left y x hy]
    exact .refl _
  · rw [left x y hx, right y x hy hx]
    exact .refl _
  · rw [left x y hx, left y x hy]
    exact .nan hx hy

theorem add_coincide (x y : Binary64) : Value.Coincide (.float (x.add y)) (.float (y.add x)) := by
  apply coincide_of_numbers
  · intro x y hx
    rw [add, if_pos hx]
  · intro x y hx hy
    rw [add, if_neg (by simp [hx]), if_pos hy]
  · exact fun _ _ => add_comm_of_numbers

theorem mul_coincide (x y : Binary64) : Value.Coincide (.float (x.mul y)) (.float (y.mul x)) := by
  apply coincide_of_numbers
  · intro x y hx
    rw [mul, if_pos hx]
  · intro x y hx hy
    rw [mul, if_neg (by simp [hx]), if_pos hy]
  · exact fun _ _ => mul_comm_of_numbers

end Numbers

end Binary64

namespace BinaryOp

open Value

section Scalars

variable {l r : Value}

theorem floating_matches (op : BinaryOp) {f : Binary64 → Binary64 → Binary64}
    (hf : ∀ x y, Coincide (.float (f x y)) (.float (f y x))) (l r : Value) :
    Matches Coincide (op.floating (fun x y => .ok (.float (f x y))) l r)
      (op.floating (fun x y => .ok (.float (f x y))) r l) := by
  unfold floating
  cases l.number? with
  | none => cases r.number? <;> exact .error rfl
  | some x =>
    cases r.number? with
    | none => exact .error rfl
    | some y => exact .ok (hf x y)

theorem times_matches (l r : Value) : Matches Coincide (times l r) (times r l) := by
  fun_cases times l r with
  | case1 a b =>
    rw [times, Int.mul_comm]
    exact .refl .refl _
  | case2 s n => exact .refl .refl _
  | case3 n s => exact .refl .refl _
  | case4 l r ints textInt intText =>
    rw [times]
    · exact floating_matches mul Binary64.mul_coincide l r
    · exact fun a b hr hl => ints b a hl hr
    · exact fun s n hr hl => intText n s hl hr
    · exact fun n s hr hl => textInt s n hl hr

theorem plus_matches (h : ∀ s t, l = .text s → r ≠ .text t) :
    Matches Coincide (plus l r) (plus r l) := by
  fun_cases plus l r with
  | case1 a b =>
    rw [plus, Int.add_comm]
    exact .refl .refl _
  | case2 s t => exact absurd rfl (h s t rfl)
  | case3 l r ints =>
    rw [plus]
    · exact floating_matches add Binary64.add_coincide l r
    · exact fun a b hr hl => ints b a hl hr
    · exact fun s t hr hl => h t s hl hr

end Scalars

section Nesting

variable {op : BinaryOp} {l r : Value}

theorem each_matches {ps : List (Value × Value)}
    (h : ∀ p ∈ ps, Matches Coincide (op.elementwise p.1 p.2) (op.elementwise p.2 p.1)) :
    Matches (List.Forall₂ Coincide) (op.each ps) (op.each (ps.map Prod.swap)) := by
  induction ps with
  | nil => exact .ok .nil
  | cons p ps ih =>
    obtain ⟨hp, hps⟩ := List.forall_mem_cons.mp h
    rw [List.map_cons, each_cons, each_cons, Prod.fst_swap, Prod.snd_swap]
    refine hp.bind fun v w hvw => ?_
    refine (ih hps).bind fun vs ws hvws => ?_
    exact .ok (.cons hvw hvws)

theorem elementwise_matches
    (h : ∀ path a b, Meet l r path a b → a.isArray = false → b.isArray = false →
      Matches Coincide (op.scalar a b) (op.scalar b a)) :
    Matches Coincide (op.elementwise l r) (op.elementwise r l) := by
  induction hk : sizeOf l + sizeOf r using Nat.strongRecOn generalizing l r with
  | ind k ih =>
    rcases joins_cases l r with ⟨n, joins⟩ | ⟨ls, rs, rfl, rfl, hne⟩ | ⟨hl, hr⟩
    · rw [elementwise_joins op joins, elementwise_joins op joins.symm, pairs_swap joins]
      refine Matches.map ?_ fun vs ws => Coincide.array
      apply each_matches
      intro p hp
      apply ih _ (hk ▸ sizeOf_pairs hp) _ rfl
      intro path a b hab
      obtain ⟨i, hi⟩ := List.mem_iff_getElem?.mp hp
      exact h (i :: path) a b ((meet_cons joins).mpr ⟨_, _, hi, hab⟩)
    · rw [elementwise_lengths op hne, elementwise_lengths op hne.symm]
      exact .error rfl
    · rw [elementwise_scalars op hl hr, elementwise_scalars op hr hl]
      exact h [] l r (meet_nil.mpr ⟨rfl, rfl⟩) hl hr

end Nesting

theorem apply_symmetric (l r : Value) :
    Matches Coincide (mul.apply l r) (mul.apply r l) ∧
      (¬ (l.HoldsText ∧ r.HoldsText) → Matches Coincide (add.apply l r) (add.apply r l)) := by
  constructor
  · apply elementwise_matches
    intro path a b _ _ _
    exact times_matches a b
  · intro h
    apply elementwise_matches
    intro path a b hab _ _
    apply plus_matches
    rintro s t rfl rfl
    exact h ⟨⟨path, s, hab.1⟩, path, t, hab.2⟩

/-- Where two NaN meet, the left one is the result. -/
theorem apply_symmetric_nan :
    let l : Value := .float ⟨0x7FF8000000000000⟩
    let r : Value := .array [.array [.float ⟨0x3FF0000000000000⟩], .float ⟨0xFFF8000000000000⟩]
    ∃ v w, add.apply l r = .ok v ∧ add.apply r l = .ok w ∧ v.Coincide w ∧ v ≠ w := by
  intro l r
  have noText : ¬ (l.HoldsText ∧ r.HoldsText) := by
    rintro ⟨⟨path, s, h⟩, -⟩
    rw [follow_scalar rfl] at h
    simp [l] at h
  have left : add.apply l r = .ok (.array [.array [l], l]) := rfl
  have right : add.apply r l = .ok (.array [.array [l], .float ⟨0xFFF8000000000000⟩]) := rfl
  have both := (apply_symmetric l r).2 noText
  rw [left, right] at both
  cases both with
  | ok coincide => exact ⟨_, _, left, right, coincide, by simp [l]⟩

end BinaryOp

end Abacus
