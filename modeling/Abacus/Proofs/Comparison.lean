import Abacus.Proofs.IntegerRange
import Abacus.Proofs.Rounding

/-!
# Comparing values

Two numbers or two texts have an order, unless one of them is NaN. Integers are compared exactly, and
an integer is compared with a float by its number. Equality is computed apart from the comparisons,
but all of them read off the same order, and the order turns around with the operands.

The strict order is transitive, although it compares integers without rounding and floats with
rounded integers: rounding is monotone. To be neither below nor above is not transitive.
-/

namespace Abacus

namespace Binary64

theorem compare?_swap (x y : Binary64) : y.compare? x = (x.compare? y).map Ordering.swap := by
  rw [compare?, compare?, Bool.or_comm]
  split
  · rfl
  · exact congrArg some Std.OrientedCmp.eq_swap

theorem eq_eq_compare? (x y : Binary64) : x.eq y = (x.compare? y == some .eq) := by
  rw [Binary64.eq, compare?, Bool.eq_iff_iff]
  cases x.isNaN <;> cases y.isNaN <;> simp

theorem isNone_compare? (x y : Binary64) : (x.compare? y).isNone = (x.isNaN || y.isNaN) := by
  rw [compare?]
  split <;> simp_all

theorem lt_iff {x y : Binary64} :
    x.lt y = true ↔ x.isNaN = false ∧ y.isNaN = false ∧ x.key < y.key := by
  simp [lt, and_assoc]

theorem lt_iff_compare? {x y : Binary64} : x.lt y = true ↔ x.compare? y = some .lt := by
  rw [lt, compare?]
  cases x.isNaN <;> cases y.isNaN <;> simp [Int.compare_eq_lt]

theorem lt_trans {x y z : Binary64} (hxy : x.lt y = true) (hyz : y.lt z = true) :
    x.lt z = true := by
  obtain ⟨hx, -, hxy⟩ := lt_iff.mp hxy
  obtain ⟨-, hz, hyz⟩ := lt_iff.mp hyz
  exact lt_iff.mpr ⟨hx, hz, hxy.trans hyz⟩

theorem key_le_of_totalKey_le {x y : Binary64} (h : x.totalKey ≤ y.totalKey) : x.key ≤ y.key := by
  simp only [totalKey, key] at *
  split_ifs at * <;> omega

theorem key_ofInt_mono {m n : Int} (h : m ≤ n) : (ofInt m).key ≤ (ofInt n).key :=
  key_le_of_totalKey_le (totalKey_ofInt_mono h)

theorem not_lt_ofInt {m n : Int} (h : n ≤ m) : ¬ (ofInt m).lt (ofInt n) = true :=
  fun lt => (key_ofInt_mono h).not_gt (lt_iff.mp lt).2.2

theorem ofInt_lt_of_lt {m n : Int} {x : Binary64} (h : m ≤ n) (hn : (ofInt n).lt x = true) :
    (ofInt m).lt x = true := by
  obtain ⟨-, hx, below⟩ := lt_iff.mp hn
  exact lt_iff.mpr ⟨isNaN_ofInt m, hx, (key_ofInt_mono h).trans_lt below⟩

theorem lt_ofInt_of_lt {m n : Int} {x : Binary64} (hm : x.lt (ofInt m) = true) (h : m ≤ n) :
    x.lt (ofInt n) = true := by
  obtain ⟨hx, -, below⟩ := lt_iff.mp hm
  exact lt_iff.mpr ⟨hx, isNaN_ofInt n, below.trans_le (key_ofInt_mono h)⟩

end Binary64

namespace Value

variable {l r : Value}

def isNumber : Value → Bool
  | int _ | float _ => true
  | _ => false

def isText : Value → Bool
  | text _ => true
  | _ => false

def isNaN : Value → Bool
  | float x => x.isNaN
  | _ => false

def Ordered (l r : Value) : Prop :=
  (l.isNumber = true ∧ r.isNumber = true) ∨ (l.isText = true ∧ r.isText = true)

theorem isNumber_of_number? {v : Value} {x : Binary64} (h : v.number? = some x) :
    v.isNumber = true := by
  cases v with
  | int | float => rfl
  | none | text | bool | array | function | builtin => cases h

theorem isArray_of_isNumber {v : Value} (h : v.isNumber = true) : v.isArray = false := by
  cases v with
  | int | float => rfl
  | none | text | bool | array | function | builtin => cases h

theorem isArray_of_isText {v : Value} (h : v.isText = true) : v.isArray = false := by
  cases v with
  | text => rfl
  | none | int | float | bool | array | function | builtin => cases h

theorem Ordered.scalars (h : Ordered l r) : l.isArray = false ∧ r.isArray = false := by
  rcases h with ⟨hl, hr⟩ | ⟨hl, hr⟩
  · exact ⟨isArray_of_isNumber hl, isArray_of_isNumber hr⟩
  · exact ⟨isArray_of_isText hl, isArray_of_isText hr⟩

theorem Ordered.symm (h : Ordered l r) : Ordered r l :=
  h.imp And.symm And.symm

theorem isText_of_isNumber {v : Value} (h : v.isNumber = true) : v.isText = false := by
  cases v with
  | int | float => rfl
  | none | text | bool | array | function | builtin => cases h

theorem Ordered.isNumber (h : Ordered l r) (hl : l.isNumber = true) : r.isNumber = true := by
  rcases h with h | ⟨text, -⟩
  · exact h.2
  · rw [isText_of_isNumber hl] at text
    cases text

theorem Ordered.isText (h : Ordered l r) (hl : l.isText = true) : r.isText = true := by
  rcases h with ⟨number, -⟩ | h
  · rw [isText_of_isNumber number] at hl
    cases hl
  · exact h.2

theorem Ordered.trans {m : Value} (hlm : Ordered l m) (hmr : Ordered m r) : Ordered l r := by
  rcases hlm with ⟨hl, hm⟩ | ⟨hl, hm⟩
  · exact .inl ⟨hl, hmr.isNumber hm⟩
  · exact .inr ⟨hl, hmr.isText hm⟩

section Order

/-- How `l` compares with `r`; `none` if one of them is NaN. -/
structure Compares (l r : Value) (o : Option Ordering) : Prop where
  order_eq (op : BinaryOp) : op.order l r = .ok o
  order_swap (op : BinaryOp) : op.order r l = .ok (o.map Ordering.swap)
  same_eq : l.same r = (o == some .eq)
  isNone_eq : o.isNone = (l.isNaN || r.isNaN)

theorem compares_ints (a b : Int64) :
    Compares (.int a) (.int b) (some (compare a.toInt b.toInt)) := by
  have turned : compare b.toInt a.toInt = (compare a.toInt b.toInt).swap := Std.OrientedCmp.eq_swap
  refine ⟨fun _ => rfl, fun _ => ?_, ?_, rfl⟩
  · rw [BinaryOp.order, turned]
    rfl
  · rw [same, Bool.eq_iff_iff]
    simp [Int64.toInt_inj]

theorem compares_texts (s t : String) : Compares (.text s) (.text t) (some (compare s t)) := by
  have turned : compare t s = (compare s t).swap := Std.OrientedCmp.eq_swap
  refine ⟨fun _ => rfl, fun _ => ?_, ?_, rfl⟩
  · rw [BinaryOp.order, turned]
    rfl
  · rw [same, Bool.eq_iff_iff]
    simp

theorem compares_numbers {x y : Binary64} (order : ∀ op, BinaryOp.order op l r = .ok (x.compare? y))
    (order' : ∀ op, BinaryOp.order op r l = .ok (y.compare? x)) (same : l.same r = x.eq y)
    (hl : l.isNaN = x.isNaN) (hr : r.isNaN = y.isNaN) : Compares l r (x.compare? y) where
  order_eq := order
  order_swap op := by rw [order', Binary64.compare?_swap]
  same_eq := by rw [same, Binary64.eq_eq_compare?]
  isNone_eq := by rw [Binary64.isNone_compare?, hl, hr]

theorem exists_compares (h : Ordered l r) : ∃ o, Compares l r o := by
  rcases h with ⟨hl, hr⟩ | ⟨hl, hr⟩
  · cases l with
    | int a =>
      cases r with
      | int b => exact ⟨_, compares_ints a b⟩
      | float y =>
        exact ⟨_, compares_numbers (fun _ => rfl) (fun _ => rfl) (by simp [same, number?])
          (Binary64.isNaN_ofInt _).symm rfl⟩
      | none | text | bool | array | function | builtin => cases hr
    | float x =>
      cases r with
      | int b =>
        exact ⟨_, compares_numbers (fun _ => rfl) (fun _ => rfl) (by simp [same, number?]) rfl
          (Binary64.isNaN_ofInt _).symm⟩
      | float y =>
        exact ⟨_, compares_numbers (fun _ => rfl) (fun _ => rfl) (by simp [same, number?]) rfl rfl⟩
      | none | text | bool | array | function | builtin => cases hr
    | none | text | bool | array | function | builtin => cases hl
  · cases l with
    | text s =>
      cases r with
      | text t => exact ⟨_, compares_texts s t⟩
      | none | int | float | bool | array | function | builtin => cases hr
    | none | int | float | bool | array | function | builtin => cases hl

end Order

section Strict

/-- The strict order. Two integers may have the same number and be in this order. -/
inductive Below : Value → Value → Prop
  | texts {s t : String} : compare s t = .lt → Below (.text s) (.text t)
  | integers {a b : Int64} : a.toInt < b.toInt → Below (.int a) (.int b)
  | numbers {l r : Value} {x y : Binary64} :
    l.number? = some x → r.number? = some y → x.lt y = true → Below l r

theorem Below.irrefl {v : Value} (h : Below v v) : False := by
  cases h with
  | texts h => cases h.symm.trans Std.ReflCmp.compare_self
  | integers h => exact h.false
  | numbers hl hr h =>
    cases hl.symm.trans hr
    exact (Binary64.lt_iff.mp h).2.2.false

theorem Below.trans {u v w : Value} (huv : Below u v) (hvw : Below v w) : Below u w := by
  cases huv with
  | texts h =>
    cases hvw with
    | texts h' => exact .texts (Std.TransCmp.lt_trans h h')
    | numbers hv => cases hv
  | integers h =>
    cases hvw with
    | integers h' => exact .integers (h.trans h')
    | numbers hv hw h' =>
      cases hv
      exact .numbers rfl hw (Binary64.ofInt_lt_of_lt h.le h')
  | numbers hu hv h =>
    cases hvw with
    | texts => cases hv
    | integers h' =>
      cases hv
      exact .numbers hu rfl (Binary64.lt_ofInt_of_lt h h'.le)
    | numbers hv' hw h' =>
      cases hv.symm.trans hv'
      exact .numbers hu hw (Binary64.lt_trans h h')

end Strict

end Value

namespace BinaryOp

open Value

variable {op : BinaryOp} {l r : Value}

theorem order_of_not_ordered (op : BinaryOp) (h : ¬ Ordered l r) :
    op.order l r = .error (op.unsupported l r) := by
  unfold order
  split
  · exact absurd (.inl ⟨rfl, rfl⟩) h
  · exact absurd (.inr ⟨rfl, rfl⟩) h
  · split
    · rename_i hl hr
      exact absurd (.inl ⟨isNumber_of_number? hl, isNumber_of_number? hr⟩) h
    · rfl

theorem apply_comparison (h : op ∈ [lt, gt, le, ge]) (l r : Value) :
    op.apply l r = (op.order l r).map fun o => .bool (op.accepts o) := by
  have compares : op.isVectorized = false ∧
      op.scalar l r = (op.order l r).map fun o => .bool (op.accepts o) := by
    simp only [List.mem_cons, List.not_mem_nil, or_false] at h
    rcases h with rfl | rfl | rfl | rfl <;> exact ⟨rfl, rfl⟩
  rw [apply, compares.1, if_neg Bool.false_ne_true]
  split
  · rename_i array
    have unordered : ¬ Ordered l r := by
      intro h
      obtain ⟨hl, hr⟩ := h.scalars
      rw [hl, hr] at array
      cases array
    rw [order_of_not_ordered op unordered]
    rfl
  · exact compares.2

def rejected : BinaryOp → Ordering
  | lt | le => .gt
  | _ => .lt

def acceptsOrder (op : BinaryOp) (o : Ordering) : Bool :=
  match op with
  | lt => o == .lt
  | gt => o == .gt
  | le => o != .gt
  | ge => o != .lt
  | _ => false

theorem accepts_eq (h : op ∈ [lt, gt, le, ge]) (o : Option Ordering) :
    op.accepts o = op.acceptsOrder (o.getD op.rejected) := by
  simp only [List.mem_cons, List.not_mem_nil, or_false] at h
  rcases h with rfl | rfl | rfl | rfl <;> rcases o with _ | _ | _ | _ <;> rfl

/-- A comparison may as well put an order that it does not accept in the place of a missing one. -/
theorem apply_comparison_rejected (h : op ∈ [lt, gt, le, ge]) (l r : Value) :
    op.apply l r = do
      let o ← op.order l r
      return .bool (op.acceptsOrder (o.getD op.rejected)) := by
  rw [apply_comparison h]
  cases op.order l r with
  | ok o => exact congrArg (Except.ok ∘ Value.bool) (accepts_eq h o)
  | error e => rfl

theorem apply_of_compares {o : Option Ordering} (h : op ∈ [lt, gt, le, ge]) (ho : Compares l r o) :
    op.apply l r = .ok (.bool (op.accepts o)) := by
  rw [apply_comparison h, ho.order_eq]
  rfl

theorem apply_swap_of_compares {o : Option Ordering} (h : op ∈ [lt, gt, le, ge])
    (ho : Compares l r o) : op.apply r l = .ok (.bool (op.accepts (o.map Ordering.swap))) := by
  rw [apply_comparison h, ho.order_swap]
  rfl

theorem apply_of_not_ordered (h : op ∈ [lt, gt, le, ge]) (hlr : ¬ Ordered l r) :
    FailsWith .type (op.apply l r) := by
  refine ⟨op.unsupported l r, ?_, rfl⟩
  rw [apply_comparison h, order_of_not_ordered op hlr]
  rfl

theorem apply_eq_of_scalars (hl : l.isArray = false) (hr : r.isArray = false) :
    eq.apply l r = .ok (.bool (l.same r)) ∧ ne.apply l r = .ok (.bool (!l.same r)) := by
  simp [apply, isVectorized, hl, hr, scalar]

section Acceptance

variable (o : Option Ordering)

theorem gt_accepts : gt.accepts o = lt.accepts (o.map Ordering.swap) := by
  rcases o with _ | _ | _ | _ <;> rfl

theorem ge_accepts : ge.accepts o = le.accepts (o.map Ordering.swap) := by
  rcases o with _ | _ | _ | _ <;> rfl

theorem le_accepts : le.accepts o = (lt.accepts o || o == some .eq) := by
  rcases o with _ | _ | _ | _ <;> rfl

theorem ge_accepts_of_gt : ge.accepts o = (gt.accepts o || o == some .eq) := by
  rcases o with _ | _ | _ | _ <;> rfl

theorem count_accepts :
    [lt.accepts o, o == some .eq, gt.accepts o].count true = if o.isNone then 0 else 1 := by
  rcases o with _ | _ | _ | _ <;> rfl

end Acceptance

theorem apply_gt_eq (h : Ordered l r) : gt.apply l r = lt.apply r l := by
  obtain ⟨o, ho⟩ := exists_compares h
  rw [apply_of_compares (by simp) ho, apply_swap_of_compares (by simp) ho, gt_accepts]

theorem lt_order_iff : lt.order l r = .ok (some .lt) ↔ Below l r := by
  constructor
  · intro h
    unfold order at h
    split at h
    · exact .integers (Int.compare_eq_lt.mp (by simpa using h))
    · exact .texts (by simpa using h)
    · split at h
      · rename_i hl hr
        exact .numbers hl hr (Binary64.lt_iff_compare?.mpr (by simpa using h))
      · cases h
  · intro h
    cases h with
    | texts h => rw [order, h]
    | integers h => rw [order, Int.compare_eq_lt.mpr h]
    | numbers hl hr h =>
      unfold order
      split
      · cases hl
        cases hr
        rename_i a b
        have exact : a.toInt < b.toInt := by
          by_contra above
          exact Binary64.not_lt_ofInt (not_lt.mp above) h
        rw [Int.compare_eq_lt.mpr exact]
      · cases hl
      · rw [hl, hr]
        exact congrArg _ (Binary64.lt_iff_compare?.mp h)

def Beats (op : BinaryOp) (l r : Value) : Prop := op.apply l r = .ok (.bool true)

theorem beats_lt_iff : Beats lt l r ↔ Below l r := by
  rw [← lt_order_iff, Beats, apply_comparison (by simp)]
  cases lt.order l r with
  | error f => simp [Except.map]
  | ok o => rcases o with _ | _ | _ | _ <;> simp [Except.map, accepts]

theorem beats_gt_iff : Beats gt l r ↔ Below r l := by
  rw [← beats_lt_iff, Beats, Beats]
  by_cases h : Ordered l r
  · rw [apply_gt_eq h]
  · have left : FailsWith .type (gt.apply l r) := apply_of_not_ordered (by simp) h
    have right : FailsWith .type (lt.apply r l) :=
      apply_of_not_ordered (by simp) fun h' => h h'.symm
    obtain ⟨f, hf, -⟩ := left
    obtain ⟨g, hg, -⟩ := right
    simp [hf, hg]

theorem comparisons_consistent (l r : Value) :
    (Ordered l r → ∀ op ∈ [lt, gt, le, ge], ∃ b, op.apply l r = .ok (.bool b)) ∧
      (¬ Ordered l r → ∀ op ∈ [lt, gt, le, ge], FailsWith .type (op.apply l r)) ∧
      (Ordered l r →
        gt.apply l r = lt.apply r l ∧ ge.apply l r = le.apply r l ∧
          ∃ less equal greater : Bool,
            lt.apply l r = .ok (.bool less) ∧ eq.apply l r = .ok (.bool equal) ∧
            gt.apply l r = .ok (.bool greater) ∧ le.apply l r = .ok (.bool (less || equal)) ∧
            ge.apply l r = .ok (.bool (greater || equal)) ∧
            [less, equal, greater].count true = if l.isNaN || r.isNaN then 0 else 1) ∧
      (l.isArray = false → r.isArray = false →
        ∃ equal, eq.apply l r = .ok (.bool equal) ∧ ne.apply l r = .ok (.bool (!equal))) := by
  refine ⟨?_, fun h op hop => apply_of_not_ordered hop h, ?_, ?_⟩
  · intro h op hop
    obtain ⟨o, ho⟩ := exists_compares h
    exact ⟨_, apply_of_compares hop ho⟩
  · intro h
    obtain ⟨o, ho⟩ := exists_compares h
    have equal := (apply_eq_of_scalars h.scalars.1 h.scalars.2).1
    rw [ho.same_eq] at equal
    have less : lt.apply l r = .ok (.bool (lt.accepts o)) := apply_of_compares (by simp) ho
    have greater : gt.apply l r = .ok (.bool (gt.accepts o)) := apply_of_compares (by simp) ho
    refine ⟨apply_gt_eq h, ?_, _, _, _, less, equal, greater, ?_, ?_, ?_⟩
    · rw [apply_of_compares (by simp) ho, apply_swap_of_compares (by simp) ho, ge_accepts]
    · rw [apply_of_compares (by simp) ho, le_accepts]
    · rw [apply_of_compares (by simp) ho, ge_accepts_of_gt]
    · rw [count_accepts, ho.isNone_eq]
  · intro hl hr
    exact ⟨_, apply_eq_of_scalars hl hr⟩

/-- `2 ^ 53 + 1` equals the float `2 ^ 53` that it is rounded to, so it is not greater. -/
theorem comparisons_consistent_rounded :
    gt.apply (.int 9007199254740993) (.float ⟨0x4340000000000000⟩) = .ok (.bool false) ∧
      ge.apply (.int 9007199254740993) (.float ⟨0x4340000000000000⟩) = .ok (.bool true) := by
  obtain ⟨-, -, consistent, -⟩ :=
    comparisons_consistent (.int 9007199254740993) (.float ⟨0x4340000000000000⟩)
  obtain ⟨-, -, less, equal, greater, -, hequal, hgreater, -, hge, one⟩ :=
    consistent (.inl ⟨rfl, rfl⟩)
  have rounded : Value.same (.int 9007199254740993) (.float ⟨0x4340000000000000⟩) = true := by
    decide +kernel
  rw [(apply_eq_of_scalars rfl rfl).1, rounded] at hequal
  cases hequal
  cases greater with
  | false => exact ⟨hgreater, hge⟩
  | true => cases less <;> cases one

end BinaryOp

end Abacus
