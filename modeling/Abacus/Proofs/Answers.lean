import Abacus.Operator

/-!
# What operations answer

An operation fails with a type error, a value error or an aggregation error only, and the result of an
operator on two scalars is a number, a text or a truth value. So no operation makes a function: a result
holds only functions that the operands hold. All this is read off the operations once, so that no proof
about evaluation has to look into them.
-/

namespace Abacus

namespace Value

/-- The value is the function, or an array in which it can be reached. -/
inductive Holds : Value → Function → Prop
  | function {f : Function} : Holds (.function f) f
  | element {vs : List Value} {v : Value} {f : Function} : v ∈ vs → Holds v f → Holds (.array vs) f

def All (P : Function → Prop) (v : Value) : Prop := ∀ f, v.Holds f → P f

variable {P : Function → Prop}

theorem all_function {f : Function} : (Value.function f).All P ↔ P f := by
  constructor
  · intro h
    exact h f .function
  · intro h g hg
    cases hg
    exact h

theorem all_array {vs : List Value} : (Value.array vs).All P ↔ ∀ v ∈ vs, v.All P := by
  constructor
  · intro h v hv f hf
    exact h f (.element hv hf)
  · intro h f hf
    cases hf with
    | element hv hf => exact h _ hv f hf

theorem all_of_ne {v : Value} (hfunction : ∀ f, v ≠ .function f) (harray : ∀ vs, v ≠ .array vs) :
    v.All P := by
  intro f hf
  cases hf with
  | function => exact absurd rfl (hfunction f)
  | element => exact absurd rfl (harray _)

theorem all_none : Value.none.All P := all_of_ne (by simp) (by simp)

theorem all_int (n : Int64) : (Value.int n).All P := all_of_ne (by simp) (by simp)

theorem all_float (x : Binary64) : (Value.float x).All P := all_of_ne (by simp) (by simp)

theorem all_bool (b : Bool) : (Value.bool b).All P := all_of_ne (by simp) (by simp)

theorem all_literal (v : Literal) : v.value.All P := by
  cases v <;> exact all_of_ne (by simp [Literal.value]) (by simp [Literal.value])

theorem all_interval {first last : Int64} {v : Value} (hv : Value.interval first last = .some v) :
    v.All P := by
  rw [interval] at hv
  split at hv
  · cases hv
    refine all_array.mpr fun v hv => ?_
    obtain ⟨i, -, rfl⟩ := List.mem_map.mp hv
    exact all_int _
  · cases hv

end Value

/-- A result is a value that satisfies `P`, or a fault that an operation can have. -/
def Answers (P : α → Prop) : Except Fault α → Prop
  | .ok a => P a
  | .error f => f.kind = .type ∨ f.kind = .value ∨ f.kind = .aggregation

namespace Answers

variable {P : α → Prop} {Q : β → Prop}

theorem type_error {f : Fault} (h : f.kind = .type) : Answers P (.error f : Except Fault α) := .inl h

theorem value_error {f : Fault} (h : f.kind = .value) : Answers P (.error f : Except Fault α) :=
  .inr (.inl h)

theorem aggregation_error {f : Fault} (h : f.kind = .aggregation) :
    Answers P (.error f : Except Fault α) :=
  .inr (.inr h)

theorem ok {m : Except Fault α} {a : α} (hm : Answers P m) (h : m = .ok a) : P a := by
  rw [h] at hm
  exact hm

theorem bind {m : Except Fault α} {f : α → Except Fault β} (hm : Answers P m)
    (hf : ∀ a, P a → Answers Q (f a)) : Answers Q (m >>= f) := by
  cases m with
  | ok a => exact hf a hm
  | error e => exact hm

theorem mono {m : Except Fault α} {P' : α → Prop} (hm : Answers P m) (h : ∀ a, P a → P' a) :
    Answers P' m := by
  cases m with
  | ok a => exact h a hm
  | error e => exact hm

theorem map {m : Except Fault α} {f : α → β} (hm : Answers P m) (hf : ∀ a, P a → Q (f a)) :
    Answers Q (m.map f) := by
  cases m with
  | ok a => exact hf a hm
  | error e => exact hm

theorem mapM {f : α → Except Fault β} {as : List α} (hf : ∀ a ∈ as, Answers Q (f a)) :
    Answers (fun bs => ∀ b ∈ bs, Q b) (as.mapM f) := by
  induction as with
  | nil => exact fun b hb => absurd hb List.not_mem_nil
  | cons a as ih =>
    rw [List.mapM_cons]
    refine (hf a List.mem_cons_self).bind fun b hb => ?_
    refine (ih fun a' ha' => hf a' (List.mem_cons_of_mem a ha')).bind fun bs hbs => ?_
    exact List.forall_mem_cons.mpr ⟨hb, hbs⟩

theorem foldlM {f : β → α → Except Fault β} {as : List α} {b : β} (hb : Q b)
    (hf : ∀ b, ∀ a ∈ as, Q b → Answers Q (f b a)) : Answers Q (as.foldlM f b) := by
  induction as generalizing b with
  | nil => exact hb
  | cons a as ih =>
    rw [List.foldlM_cons]
    refine (hf b a List.mem_cons_self hb).bind fun b' hb' => ?_
    exact ih hb' fun b a' ha' => hf b a' (List.mem_cons_of_mem a ha')

end Answers

namespace BinaryOp

def IsScalar (v : Value) : Prop := v.isArray = false

def IsPlain : Value → Prop
  | .int _ | .float _ | .text _ | .bool _ => True
  | _ => False

theorem IsPlain.all {v : Value} {P : Function → Prop} (h : IsPlain v) : v.All P := by
  apply Value.all_of_ne
  · rintro f rfl
    exact h
  · rintro vs rfl
    exact h

theorem IsPlain.isScalar {v : Value} (h : IsPlain v) : IsScalar v := by
  cases v with
  | array vs => exact h.elim
  | none | int | float | text | bool | function | builtin => rfl

theorem integer_answers (op : BinaryOp) (n : Int) : Answers IsPlain (op.integer n) := by
  unfold integer
  split
  · trivial
  · exact .value_error rfl

theorem floating_answers (op : BinaryOp) {f : Binary64 → Binary64 → Except Fault Value}
    (hf : ∀ x y, Answers IsPlain (f x y)) (l r : Value) : Answers IsPlain (op.floating f l r) := by
  unfold floating
  split
  · exact hf _ _
  · exact .type_error rfl

theorem floating_float_answers (op : BinaryOp) (f : Binary64 → Binary64 → Binary64) (l r : Value) :
    Answers IsPlain (op.floating (fun x y => .ok (.float (f x y))) l r) := by
  apply floating_answers
  intro x y
  trivial

theorem repeated_answers (s : String) (count : Int64) : Answers IsPlain (repeated s count) := by
  unfold repeated
  dsimp only
  split
  · trivial
  · exact .value_error rfl

theorem plus_answers (l r : Value) : Answers IsPlain (plus l r) := by
  unfold plus
  split
  · exact integer_answers _ _
  · trivial
  · exact floating_float_answers _ _ _ _

theorem minus_answers (l r : Value) : Answers IsPlain (minus l r) := by
  unfold minus
  split
  · exact integer_answers _ _
  · exact floating_float_answers _ _ _ _

theorem times_answers (l r : Value) : Answers IsPlain (times l r) := by
  unfold times
  split
  · exact integer_answers _ _
  · exact repeated_answers _ _
  · exact repeated_answers _ _
  · exact floating_float_answers _ _ _ _

theorem divide_answers (l r : Value) : Answers IsPlain (divide l r) := by
  refine floating_answers _ (fun x y => ?_) l r
  split
  · exact .value_error rfl
  · trivial

theorem modulo_answers (l r : Value) : Answers IsPlain (modulo l r) := by
  unfold modulo
  split
  · split
    · exact .value_error rfl
    · split
      · exact .value_error rfl
      · exact integer_answers _ _
  · refine floating_answers _ (fun x y => ?_) _ _
    split
    · exact .value_error rfl
    · trivial

theorem power_answers (base exponent : Int) : Answers IsPlain (power base exponent) := by
  unfold power
  split
  · trivial
  split
  · trivial
  split
  · trivial
  split
  · exact integer_answers _ _
  · exact .value_error rfl

theorem raise_answers (l r : Value) : Answers IsPlain (raise l r) := by
  unfold raise
  split
  · split
    · exact power_answers _ _
    · exact floating_float_answers _ _ _ _
  · exact floating_float_answers _ _ _ _

theorem order_answers (op : BinaryOp) (l r : Value) : Answers (fun _ => True) (op.order l r) := by
  unfold order
  split
  · trivial
  · trivial
  · split
    · trivial
    · exact .type_error rfl

theorem logical_answers (op : BinaryOp) (f : Bool → Bool → Bool) (l r : Value) :
    Answers IsPlain (op.logical f l r) := by
  unfold logical
  split
  · trivial
  · exact .type_error rfl

theorem scalar_plain (op : BinaryOp) (l r : Value) : Answers IsPlain (op.scalar l r) := by
  have compared : ∀ o : BinaryOp,
      Answers IsPlain ((o.order l r).map fun order => .bool (o.accepts order)) :=
    fun o => (order_answers o l r).map fun _ _ => trivial
  cases op with
  | add => exact plus_answers l r
  | sub => exact minus_answers l r
  | mul => exact times_answers l r
  | div => exact divide_answers l r
  | mod => exact modulo_answers l r
  | pow => exact raise_answers l r
  | eq => trivial
  | ne => trivial
  | lt => exact compared lt
  | gt => exact compared gt
  | le => exact compared le
  | ge => exact compared ge
  | and => exact logical_answers and _ l r
  | or => exact logical_answers or _ l r

theorem scalar_answers (op : BinaryOp) (l r : Value) : Answers IsScalar (op.scalar l r) :=
  (op.scalar_plain l r).mono fun _ => IsPlain.isScalar

end BinaryOp

end Abacus
