import Abacus.Proofs.Answers
import Mathlib.Data.List.Lex

/-!
# Operators on nested arrays

Two operands are looked at along one path of indices: where an operand is no array, the rest of the
path does not move it, so a scalar meets every element below it. A vectorized operator has a result
when it has one at every path, and the result is built path by path. Otherwise the error is that of
the first path that fails when the operands are walked through from left to right, a node before what
is below it.
-/

namespace Abacus

namespace Value

/-- The value that a path of indices leads to. What is left of a path into a scalar is ignored. -/
def follow : Value → List Nat → Option Value
  | v, [] => some v
  | .array vs, i :: path => vs[i]?.bind fun v => v.follow path
  | v, _ :: _ => some v

def Meet (l r : Value) (path : List Nat) (a b : Value) : Prop :=
  l.follow path = some a ∧ r.follow path = some b

/-- Two values of which one is an array at least, and arrays of one length if both are, belong to an
array of `n` elements. -/
inductive Joins : Value → Value → Nat → Prop
  | both {ls rs : List Value} : rs.length = ls.length → Joins (.array ls) (.array rs) ls.length
  | left {ls : List Value} {r : Value} : r.isArray = false → Joins (.array ls) r ls.length
  | right {l : Value} {rs : List Value} : l.isArray = false → Joins l (.array rs) rs.length

def pairs : Value → Value → List (Value × Value)
  | .array ls, .array rs => ls.zip rs
  | .array ls, r => ls.map fun l => (l, r)
  | l, .array rs => rs.map fun r => (l, r)
  | _, _ => []

theorem ne_array {v : Value} (h : v.isArray = false) (vs : List Value) : v ≠ .array vs := by
  rintro rfl
  cases h

theorem follow_scalar {v : Value} (h : v.isArray = false) (path : List Nat) :
    v.follow path = some v := by
  cases path with
  | nil => rw [follow]
  | cons i path =>
    rw [follow]
    exact fun vs => ne_array h vs

theorem pairs_left (ls : List Value) {r : Value} (h : r.isArray = false) :
    pairs (.array ls) r = ls.map fun l => (l, r) := by
  rw [pairs]
  exact fun rs => ne_array h rs

theorem pairs_right {l : Value} (h : l.isArray = false) (rs : List Value) :
    pairs l (.array rs) = rs.map fun r => (l, r) := by
  rw [pairs]
  exact fun ls => ne_array h ls

theorem Meet.eq {l r a b a' b' : Value} {path : List Nat} (h : Meet l r path a b)
    (h' : Meet l r path a' b') : a = a' ∧ b = b' :=
  ⟨Option.some.inj (h.1.symm.trans h'.1), Option.some.inj (h.2.symm.trans h'.2)⟩

theorem meet_nil {l r a b : Value} : Meet l r [] a b ↔ a = l ∧ b = r := by
  simp only [Meet, follow, Option.some.injEq, eq_comm]

theorem meet_scalars {l r a b : Value} {path : List Nat} (hl : l.isArray = false)
    (hr : r.isArray = false) : Meet l r path a b ↔ a = l ∧ b = r := by
  simp only [Meet, follow_scalar hl, follow_scalar hr, Option.some.injEq, eq_comm]

theorem meet_cons {l r a b : Value} {n i : Nat} {path : List Nat} (h : Joins l r n) :
    Meet l r (i :: path) a b ↔ ∃ l' r', (pairs l r)[i]? = some (l', r') ∧ Meet l' r' path a b := by
  cases h with
  | @both ls rs _ =>
    simp only [Meet, follow, pairs, Option.bind_eq_some_iff, List.getElem?_zip_eq_some]
    constructor
    · rintro ⟨⟨l', hl, ha⟩, r', hr, hb⟩
      exact ⟨l', r', ⟨hl, hr⟩, ha, hb⟩
    · rintro ⟨l', r', ⟨hl, hr⟩, ha, hb⟩
      exact ⟨⟨l', hl, ha⟩, r', hr, hb⟩
  | @left ls _ hr =>
    simp only [Meet, follow, follow_scalar hr, pairs_left ls hr, Option.bind_eq_some_iff, List.getElem?_map,
      Option.map_eq_some_iff, Prod.mk.injEq]
    constructor
    · rintro ⟨⟨l', hl, ha⟩, hb⟩
      exact ⟨l', r, ⟨l', hl, rfl, rfl⟩, ha, (follow_scalar hr path).trans hb⟩
    · rintro ⟨_, _, ⟨l', hl, rfl, rfl⟩, ha, hb⟩
      exact ⟨⟨l', hl, ha⟩, (follow_scalar hr path).symm.trans hb⟩
  | @right _ rs hl =>
    simp only [Meet, follow, follow_scalar hl, pairs_right hl rs, Option.bind_eq_some_iff, List.getElem?_map,
      Option.map_eq_some_iff, Prod.mk.injEq]
    constructor
    · rintro ⟨ha, r', hr, hb⟩
      exact ⟨l, r', ⟨r', hr, rfl, rfl⟩, (follow_scalar hl path).trans ha, hb⟩
    · rintro ⟨_, _, ⟨r', hr, rfl, rfl⟩, ha, hb⟩
      exact ⟨(follow_scalar hl path).symm.trans ha, r', hr, hb⟩

theorem joins_cases (l r : Value) :
    (∃ n, Joins l r n) ∨ (∃ ls rs, l = .array ls ∧ r = .array rs ∧ ls.length ≠ rs.length) ∨
      (l.isArray = false ∧ r.isArray = false) := by
  cases hl : l.isArray with
  | false =>
    cases hr : r.isArray with
    | false => exact .inr (.inr ⟨rfl, rfl⟩)
    | true =>
      cases r <;> try cases hr
      exact .inl ⟨_, .right hl⟩
  | true =>
    cases l <;> try cases hl
    rename_i ls
    cases hr : r.isArray with
    | false => exact .inl ⟨_, .left hr⟩
    | true =>
      cases r <;> try cases hr
      rename_i rs
      by_cases hlen : rs.length = ls.length
      · exact .inl ⟨_, .both hlen⟩
      · exact .inr (.inl ⟨ls, rs, rfl, rfl, Ne.symm hlen⟩)

theorem Joins.length_pairs {l r : Value} {n : Nat} (h : Joins l r n) : (pairs l r).length = n := by
  cases h with
  | both hlen => simp [pairs, hlen]
  | left hr => simp [pairs_left _ hr]
  | right hl => simp [pairs_right hl]

theorem Joins.isArray {l r : Value} {n : Nat} (h : Joins l r n) : l.isArray = true ∨ r.isArray = true := by
  cases h with
  | both _ => exact .inl rfl
  | left _ => exact .inl rfl
  | right _ => exact .inr rfl

theorem sizeOf_pairs {l r a b : Value} (h : (a, b) ∈ pairs l r) :
    sizeOf a + sizeOf b < sizeOf l + sizeOf r := by
  unfold pairs at h
  split at h
  · rename_i ls rs
    have ha := List.sizeOf_lt_of_mem (List.of_mem_zip h).1
    have hb := List.sizeOf_lt_of_mem (List.of_mem_zip h).2
    simp only [Value.array.sizeOf_spec]
    omega
  · rename_i ls _ _
    obtain ⟨l', hl, he⟩ := List.mem_map.1 h
    cases he
    have ha := List.sizeOf_lt_of_mem hl
    simp only [Value.array.sizeOf_spec]
    omega
  · rename_i rs _
    obtain ⟨r', hr, he⟩ := List.mem_map.1 h
    cases he
    have hb := List.sizeOf_lt_of_mem hr
    simp only [Value.array.sizeOf_spec]
    omega
  · cases h

end Value

namespace BinaryOp

open Value

/-- An operator has no result at a node: two arrays have different lengths, or two scalars have no
result themselves. -/
inductive Refuses (op : BinaryOp) : Value → Value → Fault → Prop
  | lengths {ls rs : List Value} : ls.length ≠ rs.length →
      Refuses op (.array ls) (.array rs) (.lengthMismatch op ls.length rs.length)
  | scalars {a b : Value} {f : Fault} : a.isArray = false → b.isArray = false →
      op.scalar a b = .error f → Refuses op a b f

/-- What an operator makes of two values at a node, as far as it is seen there: an array of the length
of those it is made from, or the result of two scalars, which is no array. -/
inductive Gives (op : BinaryOp) : Value → Value → Value → Prop
  | array {a b : Value} {vs : List Value} : Joins a b vs.length → Gives op a b (.array vs)
  | scalar {a b v : Value} : a.isArray = false → b.isArray = false → op.scalar a b = .ok v →
      v.isArray = false → Gives op a b v

def FailsAt (op : BinaryOp) (l r : Value) (path : List Nat) (f : Fault) : Prop :=
  ∃ a b, Meet l r path a b ∧ op.Refuses a b f

theorem Refuses.eq {op : BinaryOp} {a b : Value} {f g : Fault} (hf : op.Refuses a b f)
    (hg : op.Refuses a b g) : f = g := by
  cases hf with
  | lengths _ =>
    cases hg with
    | lengths _ => rfl
    | scalars ha _ _ => cases ha
  | scalars ha _ hs =>
    cases hg with
    | lengths _ => cases ha
    | scalars _ _ hs' => exact Except.error.inj (hs.symm.trans hs')

theorem FailsAt.eq {op : BinaryOp} {l r : Value} {path : List Nat} {f g : Fault}
    (hf : op.FailsAt l r path f) (hg : op.FailsAt l r path g) : f = g := by
  obtain ⟨a, b, hab, hrefuse⟩ := hf
  obtain ⟨a', b', hab', hrefuse'⟩ := hg
  obtain ⟨rfl, rfl⟩ := hab.eq hab'
  exact hrefuse.eq hrefuse'

theorem not_refuses_of_joins {op : BinaryOp} {l r : Value} {n : Nat} (h : Joins l r n) (f : Fault) :
    ¬ op.Refuses l r f := by
  intro hf
  cases hf with
  | lengths hne =>
    cases h with
    | both hlen => exact hne hlen.symm
    | left hr => cases hr
    | right hl => cases hl
  | scalars ha hb _ =>
    rcases h.isArray with h | h
    · rw [h] at ha
      cases ha
    · rw [h] at hb
      cases hb

theorem failsAt_cons {op : BinaryOp} {l r : Value} {n i : Nat} {path : List Nat} {f : Fault}
    (h : Joins l r n) :
    op.FailsAt l r (i :: path) f ↔
      ∃ l' r', (pairs l r)[i]? = some (l', r') ∧ op.FailsAt l' r' path f := by
  simp only [FailsAt, meet_cons h]
  constructor
  · rintro ⟨a, b, ⟨l', r', hp, hab⟩, hf⟩
    exact ⟨l', r', hp, a, b, hab, hf⟩
  · rintro ⟨l', r', hp, a, b, hab, hf⟩
    exact ⟨a, b, ⟨l', r', hp, hab⟩, hf⟩

section Recursion

variable (op : BinaryOp)

theorem elementwise_of_scalar {l : Value} (h : l.isArray = false) (r : Value) :
    op.elementwise l r = op.spread l r := by
  rw [elementwise]
  · exact fun ls => ne_array h ls
  · exact fun ls rs hl => absurd hl (ne_array h ls)

theorem elementwise_scalars {l r : Value} (hl : l.isArray = false) (hr : r.isArray = false) :
    op.elementwise l r = op.scalar l r := by
  rw [elementwise_of_scalar op hl, spread]
  exact fun rs => ne_array hr rs

theorem elementwise_lengths {ls rs : List Value} (h : ls.length ≠ rs.length) :
    op.elementwise (.array ls) (.array rs) = .error (.lengthMismatch op ls.length rs.length) := by
  rw [elementwise, if_neg h]

def each (ps : List (Value × Value)) : Except Fault (List Value) :=
  ps.mapM fun p => op.elementwise p.1 p.2

theorem each_cons (l r : Value) (ps : List (Value × Value)) :
    op.each ((l, r) :: ps) = (do
      let v ← op.elementwise l r
      let vs ← op.each ps
      return v :: vs) :=
  List.mapM_cons

theorem pairwise_eq_each (ls rs : List Value) : op.pairwise ls rs = op.each (ls.zip rs) := by
  induction ls generalizing rs with
  | nil => rfl
  | cons l ls ih =>
    cases rs with
    | nil => rfl
    | cons r rs => rw [pairwise, ih, List.zip_cons_cons, each_cons]

theorem onEach_eq_each (ls : List Value) (r : Value) :
    op.onEach ls r = op.each (ls.map fun l => (l, r)) := by
  induction ls with
  | nil => rfl
  | cons l ls ih => rw [onEach, ih, List.map_cons, each_cons]

theorem spreadAll_eq_each {l : Value} (h : l.isArray = false) (rs : List Value) :
    op.spreadAll l rs = op.each (rs.map fun r => (l, r)) := by
  induction rs with
  | nil => rfl
  | cons r rs ih => rw [spreadAll, ih, List.map_cons, each_cons, elementwise_of_scalar op h]

theorem elementwise_joins {l r : Value} {n : Nat} (h : Joins l r n) :
    op.elementwise l r = (op.each (pairs l r)).map .array := by
  cases h with
  | both hlen => rw [elementwise, if_pos hlen.symm, pairwise_eq_each, pairs]
  | @left ls _ hr =>
    rw [elementwise, onEach_eq_each, pairs_left ls hr]
    exact fun rs => ne_array hr rs
  | @right _ rs hl =>
    rw [elementwise_of_scalar op hl, spread, spreadAll_eq_each op hl, pairs_right hl]

theorem each_eq_ok {ps : List (Value × Value)} {vs : List Value} (h : op.each ps = .ok vs) :
    vs.length = ps.length ∧ ∀ (i : Nat) (l r : Value), ps[i]? = some (l, r) →
      ∃ v, vs[i]? = some v ∧ op.elementwise l r = .ok v := by
  induction ps generalizing vs with
  | nil =>
    cases h
    exact ⟨rfl, fun i l r hi => by simp at hi⟩
  | cons p ps ih =>
    rw [each_cons] at h
    cases hp : op.elementwise p.1 p.2 with
    | error f =>
      rw [hp] at h
      cases h
    | ok v =>
      rw [hp] at h
      cases hps : op.each ps with
      | error f =>
        rw [hps] at h
        cases h
      | ok ws =>
        rw [hps] at h
        cases h
        obtain ⟨hlen, hall⟩ := ih hps
        refine ⟨congrArg (· + 1) hlen, fun i l r hi => ?_⟩
        cases i with
        | zero =>
          cases hi
          exact ⟨v, rfl, hp⟩
        | succ i => exact hall i l r hi

theorem each_eq_error {ps : List (Value × Value)} {f : Fault} (h : op.each ps = .error f) :
    ∃ (i : Nat) (l r : Value), ps[i]? = some (l, r) ∧ op.elementwise l r = .error f ∧
      ∀ j < i, ∀ l' r', ps[j]? = some (l', r') → ∃ v, op.elementwise l' r' = .ok v := by
  induction ps with
  | nil => cases h
  | cons p ps ih =>
    rw [each_cons] at h
    cases hp : op.elementwise p.1 p.2 with
    | error g =>
      rw [hp] at h
      cases h
      exact ⟨0, p.1, p.2, rfl, hp, fun j hj => absurd hj (Nat.not_lt_zero j)⟩
    | ok v =>
      rw [hp] at h
      cases hps : op.each ps with
      | ok ws =>
        rw [hps] at h
        cases h
      | error g =>
        rw [hps] at h
        cases h
        obtain ⟨i, l, r, hi, hf, hfirst⟩ := ih hps
        refine ⟨i + 1, l, r, hi, hf, fun j hj l' r' hget => ?_⟩
        cases j with
        | zero =>
          cases hget
          exact ⟨v, hp⟩
        | succ j => exact hfirst j (by omega) l' r' hget

end Recursion

def Before : List Nat → List Nat → Prop := List.Lex (· < ·)

/-- The first path in order at which an operator fails, and how. -/
def FailsFirst (op : BinaryOp) (l r : Value) (path : List Nat) (f : Fault) : Prop :=
  op.FailsAt l r path f ∧ ∀ other, Before other path → ∀ g, ¬ op.FailsAt l r other g

theorem FailsFirst.eq {op : BinaryOp} {l r : Value} {path path' : List Nat} {f g : Fault}
    (hf : op.FailsFirst l r path f) (hg : op.FailsFirst l r path' g) : f = g := by
  have hne : ¬ Before path path' := fun h => hg.2 path h f hf.1
  have hne' : ¬ Before path' path := fun h => hf.2 path' h g hg.1
  obtain rfl : path = path' := (List.Lex.trichotomous (· < ·)).trichotomous path path' hne hne'
  exact hf.1.eq hg.1

def Pointwise (op : BinaryOp) (l r : Value) : Except Fault Value → Prop
  | .ok v => (∀ path f, ¬ op.FailsAt l r path f) ∧
      (∀ path a b, Meet l r path a b → ∃ w, v.follow path = some w ∧ op.Gives a b w) ∧
      ∀ path w, v.follow path = some w → ∃ a b, Meet l r path a b
  | .error f => ∃ path, op.FailsFirst l r path f

theorem not_before_nil (path : List Nat) : ¬ Before path [] := List.not_lex_nil

theorem pointwise_scalars (op : BinaryOp) {l r : Value} (hl : l.isArray = false)
    (hr : r.isArray = false) : op.Pointwise l r (op.elementwise l r) := by
  have hanswer := op.scalar_answers l r
  rw [elementwise_scalars op hl hr]
  cases hs : op.scalar l r with
  | ok v =>
    rw [hs] at hanswer
    refine ⟨fun path f hf => ?_, fun path a b hab => ?_, fun path w hw => ⟨l, r, ?_⟩⟩
    · obtain ⟨a, b, hab, hf⟩ := hf
      obtain ⟨rfl, rfl⟩ := (meet_scalars hl hr).1 hab
      cases hf with
      | lengths _ => cases hl
      | scalars _ _ hf =>
        rw [hs] at hf
        cases hf
    · obtain ⟨rfl, rfl⟩ := (meet_scalars hl hr).1 hab
      exact ⟨v, follow_scalar hanswer path, .scalar hl hr hs hanswer⟩
    · exact (meet_scalars hl hr).2 ⟨rfl, rfl⟩
  | error f =>
    refine ⟨[], ⟨l, r, meet_nil.2 ⟨rfl, rfl⟩, .scalars hl hr hs⟩, fun other h => ?_⟩
    exact absurd h (not_before_nil other)

theorem not_failsAt_nil {op : BinaryOp} {l r : Value} {n : Nat} (h : Joins l r n) (f : Fault) :
    ¬ op.FailsAt l r [] f := by
  rintro ⟨a, b, hab, hf⟩
  obtain ⟨rfl, rfl⟩ := meet_nil.1 hab
  exact not_refuses_of_joins h f hf

theorem pointwise_joins_ok {op : BinaryOp} {l r : Value} {n : Nat} (h : Joins l r n)
    (ih : ∀ a b, (a, b) ∈ pairs l r → op.Pointwise a b (op.elementwise a b)) {vs : List Value}
    (hvs : op.each (pairs l r) = .ok vs) : op.Pointwise l r (.ok (.array vs)) := by
  obtain ⟨hlen, hall⟩ := each_eq_ok op hvs
  -- a path goes on in the pair at its first index
  have below : ∀ (i : Nat) (l' r' : Value), (pairs l r)[i]? = some (l', r') →
      ∃ v, vs[i]? = some v ∧ op.Pointwise l' r' (.ok v) := by
    intro i l' r' hi
    obtain ⟨v, hv, he⟩ := hall i l' r' hi
    have hp := ih l' r' (List.mem_of_getElem? hi)
    rw [he] at hp
    exact ⟨v, hv, hp⟩
  refine ⟨fun path f hf => ?_, fun path a b hab => ?_, fun path w hw => ?_⟩
  · cases path with
    | nil => exact not_failsAt_nil h f hf
    | cons i path =>
      obtain ⟨l', r', hi, hf⟩ := (failsAt_cons h).1 hf
      obtain ⟨v, -, hp⟩ := below i l' r' hi
      exact hp.1 path f hf
  · cases path with
    | nil =>
      obtain ⟨rfl, rfl⟩ := meet_nil.1 hab
      refine ⟨.array vs, rfl, .array ?_⟩
      rw [hlen, h.length_pairs]
      exact h
    | cons i path =>
      obtain ⟨l', r', hi, hab⟩ := (meet_cons h).1 hab
      obtain ⟨v, hv, hp⟩ := below i l' r' hi
      obtain ⟨w, hw, hgives⟩ := hp.2.1 path a b hab
      exact ⟨w, by rw [follow, hv, Option.bind_some, hw], hgives⟩
  · cases path with
    | nil => exact ⟨l, r, meet_nil.2 ⟨rfl, rfl⟩⟩
    | cons i path =>
      rw [follow, Option.bind_eq_some_iff] at hw
      obtain ⟨v, hv, hw⟩ := hw
      have hi : i < (pairs l r).length := hlen ▸ (List.getElem?_eq_some_iff.1 hv).1
      obtain ⟨v', hv', hp⟩ := below i _ _ (List.getElem?_eq_getElem hi)
      obtain rfl := Option.some.inj (hv.symm.trans hv')
      obtain ⟨a, b, hab⟩ := hp.2.2 path w hw
      exact ⟨a, b, (meet_cons h).2 ⟨_, _, List.getElem?_eq_getElem hi, hab⟩⟩

theorem pointwise_joins_error {op : BinaryOp} {l r : Value} {n : Nat} (h : Joins l r n)
    (ih : ∀ a b, (a, b) ∈ pairs l r → op.Pointwise a b (op.elementwise a b)) {f : Fault}
    (hf : op.each (pairs l r) = .error f) : op.Pointwise l r (.error f) := by
  obtain ⟨i, l', r', hi, he, hfirst⟩ := each_eq_error op hf
  have hp := ih l' r' (List.mem_of_getElem? hi)
  rw [he] at hp
  obtain ⟨path, hfail, hmin⟩ := hp
  refine ⟨i :: path, (failsAt_cons h).2 ⟨l', r', hi, hfail⟩, fun other hother g hg => ?_⟩
  -- an earlier path ends at this node, goes into an earlier pair, or is an earlier one in the same pair
  cases hother with
  | nil => exact not_failsAt_nil h g hg
  | @rel j other _ _ hj =>
    obtain ⟨a, b, hab, hg⟩ := (failsAt_cons h).1 hg
    obtain ⟨v, hv⟩ := hfirst j hj a b hab
    have hp := ih a b (List.mem_of_getElem? hab)
    rw [hv] at hp
    exact hp.1 other g hg
  | @cons _ other _ hother =>
    obtain ⟨a, b, hab, hg⟩ := (failsAt_cons h).1 hg
    cases hi.symm.trans hab
    exact hmin other hother g hg

theorem pointwise_elementwise (op : BinaryOp) (l r : Value) :
    op.Pointwise l r (op.elementwise l r) := by
  -- a scalar goes down unchanged beside an array, so only the size of both together gets smaller
  induction hk : sizeOf l + sizeOf r using Nat.strongRecOn generalizing l r with
  | ind k ih =>
    have below : ∀ a b, (a, b) ∈ pairs l r → op.Pointwise a b (op.elementwise a b) :=
      fun a b hab => ih _ (hk ▸ sizeOf_pairs hab) a b rfl
    rcases joins_cases l r with ⟨n, h⟩ | ⟨ls, rs, rfl, rfl, hne⟩ | ⟨hl, hr⟩
    · rw [elementwise_joins op h]
      cases hps : op.each (pairs l r) with
      | ok vs => exact pointwise_joins_ok h below hps
      | error f => exact pointwise_joins_error h below hps
    · rw [elementwise_lengths op hne]
      refine ⟨[], ⟨_, _, meet_nil.2 ⟨rfl, rfl⟩, .lengths hne⟩, fun other h => ?_⟩
      exact absurd h (not_before_nil other)
    · exact pointwise_scalars op hl hr

theorem pointwise_apply {op : BinaryOp} (h : op.isVectorized = true) (l r : Value) :
    op.Pointwise l r (op.apply l r) := by
  rw [apply, if_pos h]
  exact op.pointwise_elementwise l r

theorem not_failsAt_iff {op : BinaryOp} {l r : Value} :
    (∀ path f, ¬ op.FailsAt l r path f) ↔
      (∀ path ls rs, Meet l r path (.array ls) (.array rs) → ls.length = rs.length) ∧
      ∀ path a b, Meet l r path a b → a.isArray = false → b.isArray = false →
        ∃ v, op.scalar a b = .ok v := by
  constructor
  · intro h
    refine ⟨fun path ls rs hab => ?_, fun path a b hab ha hb => ?_⟩
    · by_contra hne
      exact h path _ ⟨_, _, hab, .lengths hne⟩
    · cases hs : op.scalar a b with
      | ok v => exact ⟨v, rfl⟩
      | error f => exact absurd ⟨a, b, hab, .scalars ha hb hs⟩ (h path f)
  · rintro ⟨hlengths, hscalars⟩ path f ⟨a, b, hab, hf⟩
    cases hf with
    | lengths hne => exact hne (hlengths path _ _ hab)
    | scalars ha hb hs =>
      obtain ⟨v, hv⟩ := hscalars path a b hab ha hb
      rw [hs] at hv
      cases hv

theorem apply_eq_ok_iff {op : BinaryOp} (h : op.isVectorized = true) (l r : Value) :
    (∃ v, op.apply l r = .ok v) ↔ ∀ path f, ¬ op.FailsAt l r path f := by
  have hp := op.pointwise_apply h l r
  cases ha : op.apply l r with
  | ok v =>
    rw [ha] at hp
    exact iff_of_true ⟨v, rfl⟩ hp.1
  | error f =>
    rw [ha] at hp
    obtain ⟨path, hfail, -⟩ := hp
    refine iff_of_false ?_ fun hall => hall path f hfail
    rintro ⟨v, hv⟩
    cases hv

theorem apply_eq_error_iff {op : BinaryOp} (h : op.isVectorized = true) (l r : Value) (f : Fault) :
    op.apply l r = .error f ↔ ∃ path, op.FailsFirst l r path f := by
  have hp := op.pointwise_apply h l r
  constructor
  · intro ha
    rw [ha] at hp
    exact hp
  · rintro ⟨path, hfirst⟩
    cases ha : op.apply l r with
    | ok v =>
      rw [ha] at hp
      exact absurd hfirst.1 (hp.1 path f)
    | error g =>
      rw [ha] at hp
      obtain ⟨path', hfirst'⟩ := hp
      rw [hfirst.eq hfirst']

theorem apply_array {op : BinaryOp} (h : op.isVectorized = false) {l r : Value}
    (harray : l.isArray = true ∨ r.isArray = true) :
    op.apply l r = .error (op.unsupported l r) := by
  have hcond : (l.isArray || r.isArray) = true := by simpa using harray
  rw [apply, h, if_neg Bool.false_ne_true, if_pos hcond]

theorem isVectorized_iff (op : BinaryOp) : op.isVectorized = true ↔ op ∈ [add, sub, mul, div, pow] := by
  cases op <;> decide

/-- The vectorized operators work path by path on operands of any nesting, and fail as the first path
does that fails. The other operators refuse arrays. -/
theorem apply_pathwise (op : BinaryOp) (l r : Value) :
    (op ∈ [add, sub, mul, div, pow] →
      ((∃ v, op.apply l r = .ok v) ↔
        (∀ path ls rs, Meet l r path (.array ls) (.array rs) → ls.length = rs.length) ∧
        ∀ path a b, Meet l r path a b → a.isArray = false → b.isArray = false →
          ∃ v, op.scalar a b = .ok v) ∧
      (∀ v, op.apply l r = .ok v →
        (∀ path a b, Meet l r path a b → ∃ w, v.follow path = some w ∧ op.Gives a b w) ∧
        ∀ path w, v.follow path = some w → ∃ a b, Meet l r path a b) ∧
      (∀ f, op.apply l r = .error f ↔ ∃ path, op.FailsFirst l r path f) ∧
      ∀ path ls rs f, Meet l r path (.array ls) (.array rs) → op.FailsAt l r path f →
        f.kind = .value) ∧
    (op ∉ [add, sub, mul, div, pow] → l.isArray = true ∨ r.isArray = true →
      ∃ f, op.apply l r = .error f ∧ f.kind = .type) := by
  rw [← isVectorized_iff]
  refine ⟨fun h => ⟨?_, fun v hv => ?_, apply_eq_error_iff h l r, ?_⟩, fun h harray => ?_⟩
  · rw [apply_eq_ok_iff h, not_failsAt_iff]
  · have hp := pointwise_apply h l r
    rw [hv] at hp
    exact hp.2
  · rintro path ls rs f hab ⟨a, b, hab', hf⟩
    obtain ⟨rfl, rfl⟩ := hab.eq hab'
    cases hf with
    | lengths _ => rfl
    | scalars ha _ _ => cases ha
  · exact ⟨_, apply_array (Bool.eq_false_iff.2 h) harray, rfl⟩

/-- A scalar meets an array on either side, and the second element of the second pair is the first
place without a result. -/
theorem apply_pathwise_nested :
    let l : Value := .array [.array [.int 1, .int 2], .int 3]
    let r : Value := .array [.int 10, .array [.int 20, .text "a"]]
    (∃ path, add.FailsFirst l r path (.unsupported add .int .text)) ∧
    (∃ w, (Value.array [.array [.int 11, .int 12], .int 13]).follow [0, 1] = some w ∧
      add.Gives (.int 2) (.int 10) w) ∧
    ∃ f, mod.apply l r = .error f ∧ f.kind = .type := by
  intro l r
  have hadd := (apply_pathwise add l r).1 (by decide)
  have hsum := (apply_pathwise add l (.int 10)).1 (by decide)
  have hmod := (apply_pathwise mod l r).2 (by decide) (.inl rfl)
  refine ⟨(hadd.2.2.1 _).1 rfl, ?_, hmod⟩
  exact (hsum.2.1 _ rfl).1 [0, 1] _ _ ⟨rfl, rfl⟩

theorem Refuses.answers {op : BinaryOp} {l r : Value} {f : Fault} (h : op.Refuses l r f)
    {P : α → Prop} : Answers P (.error f : Except Fault α) := by
  cases h with
  | lengths _ => exact .value_error rfl
  | scalars _ _ hs =>
    have hanswer := op.scalar_answers l r
    rw [hs] at hanswer
    exact hanswer

theorem exists_follow_of_holds {v : Value} {f : Function} (h : v.Holds f) :
    ∃ path, v.follow path = some (.function f) := by
  induction h with
  | function => exact ⟨[], rfl⟩
  | @element vs v f hv _ ih =>
    obtain ⟨path, hpath⟩ := ih
    obtain ⟨i, hi⟩ := List.mem_iff_getElem?.mp hv
    exact ⟨i :: path, by rw [follow, hi, Option.bind_some, hpath]⟩

theorem Gives.not_function {op : BinaryOp} {a b : Value} {f : Function} : ¬ op.Gives a b (.function f) := by
  intro h
  cases h with
  | scalar _ _ hs _ =>
    have hplain := op.scalar_plain a b
    rw [hs] at hplain
    exact hplain

theorem apply_answers {P : Function → Prop} (op : BinaryOp) (l r : Value) :
    Answers (Value.All P) (op.apply l r) := by
  cases h : op.isVectorized with
  | true =>
    have hp := pointwise_apply h l r
    cases ha : op.apply l r with
    | ok v =>
      rw [ha] at hp
      obtain ⟨-, hgives, hmeets⟩ := hp
      intro f hf
      obtain ⟨path, hpath⟩ := exists_follow_of_holds hf
      obtain ⟨a, b, hab⟩ := hmeets path _ hpath
      obtain ⟨w, hw, hgive⟩ := hgives path a b hab
      cases hw.symm.trans hpath
      exact absurd hgive Gives.not_function
    | error f =>
      rw [ha] at hp
      obtain ⟨path, ⟨a, b, -, hf⟩, -⟩ := hp
      exact hf.answers
  | false =>
    rw [apply, h, if_neg Bool.false_ne_true]
    split
    · exact .type_error rfl
    · exact (op.scalar_plain l r).mono fun _ => IsPlain.all

end BinaryOp

end Abacus
