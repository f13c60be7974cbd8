import Mathlib.Data.List.Basic
import Abacus.Builtin.Call
import Abacus.Proofs.Rounding

/-!
# Counting by keys

Counting compares each element with the first members of the classes one after the other. The mode
finds the class by a key instead, and it searches only the classes of arrays and functions. Keys
tell integers and floats apart by their values, while equality rounds an integer before it compares
it with a float. So the mode counts by equality without rounding. It counts by equality itself as
long as no integer stands beside the float that it is rounded to without being its value, and not
beyond that.
-/

namespace Abacus

open Number

/-- Equality without rounding: a float is an integer only if it has its value. -/
def Value.alike : Value → Value → Bool
  | .int n, .float x => decide (x.IsInt n.toInt)
  | .float x, .int n => decide (x.IsInt n.toInt)
  | v, w => v.same w

def Value.isCompound : Value → Bool
  | .array _ | .function _ | .builtin _ => true
  | _ => false

namespace Builtin

def countIn (equals : Value → Value → Bool) : List (Value × Nat) → Value → List (Value × Nat)
  | [], v => [(v, 1)]
  | (u, n) :: classes, v =>
    if equals u v then (u, n + 1) :: classes else (u, n) :: countIn equals classes v

/-- The mode by comparing each element with the classes one after the other. -/
def plainMode (equals : Value → Value → Bool) (vs : List Value) : Except Fault Value :=
  largest (vs.foldl (countIn equals) [])

section Keys

open Binary64

theorem wholeNumber?_eq_some_iff {x : Binary64} {n : Int64} :
    wholeNumber? x = some n ↔ x.IsInt n.toInt := by
  have whole : x.isIntegral = true ↔ x.isFinite = true ∧ (Number.one : Int) ∣ x.units := by
    rw [Binary64.isIntegral, Bool.and_eq_true, beq_iff_eq, ← Binary64.natAbs_units,
      ← Nat.dvd_iff_mod_eq_zero, Int.natCast_dvd]
  have pos := Binary64.one_pos
  rw [wholeNumber?, Binary64.floor]
  constructor
  · intro h
    split at h
    · rename_i integral
      obtain ⟨finite, dvd⟩ := whole.mp integral
      refine ⟨finite, ?_⟩
      rw [toInt_of_integer? h, Int.fdiv_mul_cancel dvd]
    · cases h
  · intro h
    rw [if_pos (whole.mpr ⟨h.1, h.2 ▸ Int.dvd_mul_left _ _⟩), h.2, Int.mul_fdiv_cancel _ pos.ne']
    exact integer?_toInt n

theorem of?_float_eq_int_iff {x : Binary64} {n : Int64} :
    ModeKey.of? (.float x) = some (.int n) ↔ x.IsInt n.toInt := by
  rw [← wholeNumber?_eq_some_iff]
  constructor
  · intro h
    rw [ModeKey.of?] at h
    split at h
    · cases h
    · split at h
      · rename_i m hm
        cases h
        exact hm
      · cases h
  · intro h
    have number := (wholeNumber?_eq_some_iff.mp h).isNaN_eq
    rw [ModeKey.of?, number, h]
    rfl

theorem of?_float_cases {x : Binary64} (h : x.isNaN = false) :
    (∃ n : Int64, x.IsInt n.toInt ∧ ModeKey.of? (.float x) = some (.int n)) ∨
      (∀ n : Int64, ¬ x.IsInt n.toInt) ∧ ModeKey.of? (.float x) = some (.float x.bits) := by
  cases hwhole : wholeNumber? x with
  | some n =>
    have isInt := wholeNumber?_eq_some_iff.mp hwhole
    exact .inl ⟨n, isInt, of?_float_eq_int_iff.mpr isInt⟩
  | none =>
    refine .inr ⟨fun n isInt => ?_, ?_⟩
    · rw [wholeNumber?_eq_some_iff.mpr isInt] at hwhole
      cases hwhole
    · rw [ModeKey.of?, h, hwhole]
      rfl

theorem of?_float_eq_iff {x y : Binary64} (hy : y.isNaN = false) :
    x.eq y = true ↔ ModeKey.of? (.float x) = ModeKey.of? (.float y) := by
  rw [eq_iff hy]
  constructor
  · rintro ⟨hx, hkey⟩
    rcases of?_float_cases hy with ⟨n, isInt, key⟩ | ⟨noInt, key⟩
    · rw [key, of?_float_eq_int_iff]
      exact isInt.of_key_eq hkey.symm
    · -- floats of different signs are equal only if they are zero, which is an integer
      obtain ⟨code, sign | zero⟩ := Binary64.key_eq_cases hkey
      · rw [Binary64.eq_of_parts sign code]
      · exact absurd (isInt_zero (code ▸ zero)) (noInt 0)
  · intro same
    rcases of?_float_cases hy with ⟨n, isInt, key⟩ | ⟨noInt, key⟩
    · have isInt' := of?_float_eq_int_iff.mp (same.trans key)
      exact ⟨isInt'.isNaN_eq, isInt'.key_eq.symm.trans isInt.key_eq⟩
    · have hx : x.isNaN = false := by
        by_contra nan
        rw [ModeKey.of?, if_pos (by simpa using nan), key] at same
        cases same
      rcases of?_float_cases hx with ⟨n, isInt, key'⟩ | ⟨-, key'⟩
      · rw [key', key] at same
        cases same
      · rw [key', key] at same
        cases x
        cases y
        cases same
        exact ⟨hx, rfl⟩

theorem of?_nan {x : Binary64} (h : x.isNaN = true) : ModeKey.of? (.float x) = none := by
  rw [ModeKey.of?, if_pos h]

theorem isNaN_of_key {x : Binary64} {key : ModeKey} (h : ModeKey.of? (.float x) = some key) :
    x.isNaN = false := by
  by_contra nan
  rw [of?_nan (by simpa using nan)] at h
  cases h

def isNumeric : ModeKey → Bool
  | .int _ | .float _ => true
  | _ => false

theorem isNumeric_of_key {x : Binary64} {key : ModeKey} (h : ModeKey.of? (.float x) = some key) :
    isNumeric key = true := by
  rcases of?_float_cases (isNaN_of_key h) with ⟨n, -, key'⟩ | ⟨-, key'⟩
  · cases h.symm.trans key'
    rfl
  · cases h.symm.trans key'
    rfl

theorem alike_float {x : Binary64} {key : ModeKey} (hx : ModeKey.of? (.float x) = some key)
    (u : Value) : u.alike (.float x) = true ↔ ModeKey.of? u = some key := by
  cases u with
  | float y =>
    rw [← hx, ← of?_float_eq_iff (isNaN_of_key hx)]
    simp [Value.alike, Value.same, Value.number?]
  | int n =>
    rw [Value.alike, decide_eq_true_eq, ← of?_float_eq_int_iff, hx, eq_comm]
    rfl
  | none | text | bool =>
    refine iff_of_false (by simp [Value.alike, Value.same, Value.number?]) fun h => ?_
    cases h
    exact absurd (isNumeric_of_key hx) Bool.false_ne_true
  | array | function | builtin => simp [Value.alike, Value.same, Value.number?, ModeKey.of?]

theorem alike_of_key {v : Value} {key : ModeKey} (hv : ModeKey.of? v = some key) (u : Value) :
    u.alike v = true ↔ ModeKey.of? u = some key := by
  cases v with
  | float x => exact alike_float hv u
  | array | function | builtin => cases hv
  | int n =>
    cases hv
    cases u with
    | float x => rw [Value.alike, decide_eq_true_eq, of?_float_eq_int_iff]
    | none | int | text | bool | array | function | builtin =>
      simp [Value.alike, Value.same, ModeKey.of?, Value.number?]
  | none | text | bool =>
    cases hv
    cases u with
    | float x =>
      refine iff_of_false (by simp [Value.alike, Value.same, Value.number?]) fun h => ?_
      exact absurd (isNumeric_of_key h) Bool.false_ne_true
    | none | int | text | bool | array | function | builtin =>
      simp [Value.alike, Value.same, ModeKey.of?, Value.number?]

theorem alike_nan {x : Binary64} (hx : x.isNaN = true) (u : Value) :
    u.alike (.float x) = false := by
  cases u with
  | int n =>
    have noInt : ¬ x.IsInt n.toInt := by
      intro isInt
      rw [isInt.isNaN_eq] at hx
      cases hx
    rw [Value.alike, decide_eq_false noInt]
  | float y => simp [Value.alike, Value.same, Value.number?, Binary64.eq, hx]
  | none | text | bool | array | function | builtin =>
    simp [Value.alike, Value.same, Value.number?]

theorem alike_compound {v : Value} (hv : v.isCompound = true) (u : Value) :
    u.alike v = (u.isCompound && u.same v) := by
  cases v with
  | array | function | builtin =>
    cases u <;> simp [Value.alike, Value.same, Value.number?, Value.isCompound]
  | none | int | float | text | bool => cases hv

theorem key_cases (v : Value) :
    (∃ key, ModeKey.of? v = some key) ∨ (∃ x : Binary64, v = .float x ∧ x.isNaN = true) ∨
      v.isCompound = true := by
  cases v with
  | none | int | text | bool => exact .inl ⟨_, rfl⟩
  | array | function | builtin => exact .inr (.inr rfl)
  | float x =>
    cases nan : x.isNaN with
    | true => exact .inr (.inl ⟨x, rfl, nan⟩)
    | false =>
      rcases of?_float_cases nan with ⟨n, -, key⟩ | ⟨-, key⟩
      · exact .inl ⟨_, key⟩
      · exact .inl ⟨_, key⟩

end Keys

section Plain

variable {equals : Value → Value → Bool} {classes : List (Value × Nat)} {v : Value}

theorem countIn_of_found {i : Nat}
    (h : (classes.map Prod.fst).findIdx? (fun u => equals u v) = some i) :
    countIn equals classes v = classes.modify i fun c => (c.1, c.2 + 1) := by
  induction classes generalizing i with
  | nil => cases h
  | cons c classes ih =>
    rw [List.map_cons, List.findIdx?_cons] at h
    rw [countIn]
    split at h
    · rename_i first
      cases h
      rw [if_pos first]
      rfl
    · rename_i first
      obtain ⟨j, hj, rfl⟩ := Option.map_eq_some_iff.mp h
      rw [if_neg first, ih hj]
      rfl

theorem countIn_of_new (h : (classes.map Prod.fst).findIdx? (fun u => equals u v) = none) :
    countIn equals classes v = classes ++ [(v, 1)] := by
  induction classes with
  | nil => rfl
  | cons c classes ih =>
    rw [List.map_cons, List.findIdx?_cons] at h
    rw [countIn]
    split at h
    · cases h
    · rename_i first
      rw [if_neg first, ih (Option.map_eq_none_iff.mp h)]
      rfl

theorem map_fst_modify (classes : List (Value × Nat)) (i : Nat) :
    (classes.modify i fun c => (c.1, c.2 + 1)).map Prod.fst = classes.map Prod.fst := by
  apply List.ext_getElem?
  intro j
  rw [List.getElem?_map, List.getElem?_map, List.getElem?_modify]
  cases classes[j]? with
  | none => rfl
  | some c => by_cases h : i = j <;> simp [h]

theorem countIn_congr {equals' : Value → Value → Bool}
    (h : ∀ u ∈ classes.map Prod.fst, equals u v = equals' u v) :
    countIn equals classes v = countIn equals' classes v := by
  induction classes with
  | nil => rfl
  | cons c classes ih =>
    obtain ⟨first, rest⟩ := List.forall_mem_cons.mp h
    rw [countIn, countIn, first, ih rest]

theorem mem_countIn {u : Value} (h : u ∈ (countIn equals classes v).map Prod.fst) :
    u = v ∨ u ∈ classes.map Prod.fst := by
  cases found : (classes.map Prod.fst).findIdx? (fun u => equals u v) with
  | some i =>
    rw [countIn_of_found found, map_fst_modify] at h
    exact .inr h
  | none =>
    rw [countIn_of_new found, List.map_append, List.mem_append] at h
    rcases h with h | h
    · exact .inr h
    · exact .inl (List.mem_singleton.mp h)

end Plain

section Tallying

/-- The classes of a tally, the class of each key, and the classes of arrays and functions. -/
structure Indexes (t : Tally) (classes : List (Value × Nat)) : Prop where
  classes_eq : t.classes.toList = classes
  keyed_eq : ∀ key, t.keyed[key]? =
    (classes.map Prod.fst).findIdx? fun u => decide (ModeKey.of? u = some key)
  others_eq : t.others.toList = (classes.map Prod.fst).findIdxs Value.isCompound

variable {t : Tally} {classes : List (Value × Nat)} {v : Value}

theorem indexes_empty : Indexes .empty [] := by
  refine ⟨rfl, fun key => ?_, rfl⟩
  exact Std.HashMap.getElem?_empty

theorem Indexes.enlarge (h : Indexes t classes) {i : Nat}
    (found : (classes.map Prod.fst).findIdx? (fun u => u.alike v) = some i) :
    Indexes ⟨Tally.enlarge t.classes i, t.keyed, t.others⟩ (countIn Value.alike classes v) := by
  rw [countIn_of_found found]
  refine ⟨?_, ?_, ?_⟩
  · rw [Tally.enlarge, Array.toList_modify, h.classes_eq]
  · rw [map_fst_modify]
    exact h.keyed_eq
  · rw [map_fst_modify]
    exact h.others_eq

theorem find?_findIdxs {α : Type} (p q : α → Bool) (f : Nat → α) (us : List α) (start : Nat)
    (h : ∀ j (hj : j < us.length), f (start + j) = us[j]) :
    (us.findIdxs p start).find? (fun i => q (f i)) =
      (us.findIdx? fun u => p u && q u).map (· + start) := by
  induction us generalizing start with
  | nil => rfl
  | cons u us ih =>
    have first : f start = u := h 0 (by simp)
    have rest := ih (start + 1) fun j hj => by
      rw [Nat.add_right_comm]
      exact h (j + 1) (by simpa using hj)
    have shift : ((fun i => i + start) ∘ fun i => i + 1) = fun i => i + (start + 1) := by
      funext i
      simp only [Function.comp]
      omega
    rw [List.findIdxs_cons, List.findIdx?_cons]
    cases p u with
    | false => simp [rest, shift]
    | true =>
      cases hq : q u with
      | false => simp [first, hq, rest, shift]
      | true => simp [first, hq]

theorem Indexes.other?_eq (h : Indexes t classes) (v : Value) :
    Tally.other? t.classes t.others v =
      (classes.map Prod.fst).findIdx? fun u => u.isCompound && u.same v := by
  have members (j : Nat) (hj : j < (classes.map Prod.fst).length) :
      (t.classes.getD (0 + j) default).1 = (classes.map Prod.fst)[j] := by
    have bound : j < classes.length := by simpa using hj
    rw [Nat.zero_add, Array.getD_eq_getD_getElem?, ← Array.getElem?_toList, h.classes_eq,
      List.getElem?_eq_getElem bound, Option.getD_some, List.getElem_map]
  have search := find?_findIdxs Value.isCompound (fun u => u.same v)
    (fun i => (t.classes.getD i default).1) (classes.map Prod.fst) 0 members
  rw [Tally.other?, ← Array.find?_toList, h.others_eq, search]
  simp

theorem Indexes.size_eq (h : Indexes t classes) :
    t.classes.size = (classes.map Prod.fst).length := by
  rw [← h.classes_eq, List.length_map, Array.length_toList]

theorem Indexes.push (h : Indexes t classes)
    (new : (classes.map Prod.fst).findIdx? (fun u => u.alike v) = none)
    {keyed : Std.HashMap ModeKey Nat} {others : Array Nat}
    (hkeyed : ∀ key, keyed[key]? =
      (classes.map Prod.fst ++ [v]).findIdx? fun u => decide (ModeKey.of? u = some key))
    (hothers : others.toList = (classes.map Prod.fst ++ [v]).findIdxs Value.isCompound) :
    Indexes ⟨t.classes.push (v, 1), keyed, others⟩ (countIn Value.alike classes v) := by
  rw [countIn_of_new new]
  refine ⟨?_, ?_, ?_⟩
  · rw [Array.toList_push, h.classes_eq]
  · rw [List.map_append]
    exact hkeyed
  · rw [List.map_append]
    exact hothers

theorem Indexes.keyed_append (h : Indexes t classes) (hv : ModeKey.of? v = none) (key : ModeKey) :
    t.keyed[key]? =
      (classes.map Prod.fst ++ [v]).findIdx? fun u => decide (ModeKey.of? u = some key) := by
  rw [h.keyed_eq, List.findIdx?_append, List.findIdx?_singleton, hv]
  simp

theorem Indexes.keyed_insert (h : Indexes t classes) {key : ModeKey} (hv : ModeKey.of? v = some key)
    (new : t.keyed[key]? = none) (key' : ModeKey) :
    (t.keyed.insert key t.classes.size)[key']? =
      (classes.map Prod.fst ++ [v]).findIdx? fun u => decide (ModeKey.of? u = some key') := by
  rw [Std.HashMap.getElem?_insert, List.findIdx?_append, List.findIdx?_singleton, hv, ← h.keyed_eq]
  by_cases same : key = key'
  · cases same
    simp [new, h.size_eq]
  · simp [same]

theorem Indexes.others_append (h : Indexes t classes) (hv : v.isCompound = false) :
    t.others.toList = (classes.map Prod.fst ++ [v]).findIdxs Value.isCompound := by
  rw [List.findIdxs_append, List.findIdxs_singleton, hv, h.others_eq]
  simp

theorem Indexes.others_push (h : Indexes t classes) (hv : v.isCompound = true) :
    (t.others.push t.classes.size).toList =
      (classes.map Prod.fst ++ [v]).findIdxs Value.isCompound := by
  rw [Array.toList_push, List.findIdxs_append, List.findIdxs_singleton, hv, h.others_eq,
    h.size_eq]
  simp

theorem isCompound_of_key {key : ModeKey} (h : ModeKey.of? v = some key) :
    v.isCompound = false := by
  cases v with
  | none | int | float | text | bool => rfl
  | array | function | builtin => cases h

theorem add_of_key {key : ModeKey} (h : ModeKey.of? v = some key) :
    t.add v =
      match t.keyed[key]? with
      | some i => ⟨Tally.enlarge t.classes i, t.keyed, t.others⟩
      | none => ⟨t.classes.push (v, 1), t.keyed.insert key t.classes.size, t.others⟩ := by
  unfold Tally.add
  cases found : t.keyed[key]? with
  | none => simp only [h, found]
  | some i => simp only [h, found]

theorem add_nan {x : Binary64} (h : x.isNaN = true) :
    t.add (.float x) = ⟨t.classes.push (.float x, 1), t.keyed, t.others⟩ := by
  unfold Tally.add
  rw [of?_nan h]

theorem of?_compound (h : v.isCompound = true) : ModeKey.of? v = none := by
  cases v with
  | array | function | builtin => rfl
  | none | int | float | text | bool => cases h

theorem add_compound (h : v.isCompound = true) :
    t.add v =
      match Tally.other? t.classes t.others v with
      | some i => ⟨Tally.enlarge t.classes i, t.keyed, t.others⟩
      | none => ⟨t.classes.push (v, 1), t.keyed, t.others.push t.classes.size⟩ := by
  unfold Tally.add
  cases v with
  | array | function | builtin => rfl
  | none | int | float | text | bool => cases h

theorem Indexes.add (h : Indexes t classes) (v : Value) :
    Indexes (t.add v) (countIn Value.alike classes v) := by
  -- in each case the place that the index gives is the one that the search in the list gives
  rcases key_cases v with ⟨key, hkey⟩ | ⟨x, rfl, nan⟩ | compound
  · have search : (classes.map Prod.fst).findIdx? (fun u => u.alike v) = t.keyed[key]? := by
      rw [h.keyed_eq]
      congr 1
      funext u
      rw [Bool.eq_iff_iff, decide_eq_true_eq]
      exact alike_of_key hkey u
    rw [add_of_key hkey]
    split
    · rename_i i found
      exact h.enlarge (search.trans found)
    · rename_i new
      exact h.push (search.trans new) (h.keyed_insert hkey new)
        (h.others_append (isCompound_of_key hkey))
  · have search : (classes.map Prod.fst).findIdx? (fun u => u.alike (.float x)) = none := by
      simp [alike_nan nan]
    rw [add_nan nan]
    exact h.push search (h.keyed_append (of?_nan nan)) (h.others_append rfl)
  · have search : (classes.map Prod.fst).findIdx? (fun u => u.alike v) =
        Tally.other? t.classes t.others v := by
      rw [h.other?_eq]
      congr 1
      funext u
      exact alike_compound compound u
    rw [add_compound compound]
    split
    · rename_i i found
      exact h.enlarge (search.trans found)
    · rename_i new
      exact h.push (search.trans new) (h.keyed_append (of?_compound compound))
        (h.others_push compound)

theorem Indexes.foldl (h : Indexes t classes) (vs : List Value) :
    Indexes (vs.foldl Tally.add t) (vs.foldl (countIn Value.alike) classes) := by
  induction vs generalizing t classes with
  | nil => exact h
  | cons v vs ih => exact ih (h.add v)

theorem mode_eq_plainMode {vs : List Value} (h : vs ≠ []) :
    mode.compute [.array vs] = plainMode Value.alike vs := by
  cases vs with
  | nil => exact absurd rfl h
  | cons v vs =>
    change largest ((v :: vs).foldl Tally.add .empty).classes.toList = _
    rw [plainMode, (indexes_empty.foldl (v :: vs)).classes_eq]

end Tallying

section Equality

open Binary64

theorem same_int_float (n : Int64) (x : Binary64) :
    (Value.int n).same (.float x) = (ofInt n.toInt).eq x := by
  simp [Value.same, Value.number?]

theorem same_float_int (n : Int64) (x : Binary64) :
    (Value.float x).same (.int n) = (ofInt n.toInt).eq x := by
  rw [← eq_swap]
  simp [Value.same, Value.number?]

variable {P : Value → Prop}

/-- An integer that is equal to a float is the value of one, as far as `P` holds of both. -/
def Unrounded (P : Value → Prop) : Prop :=
  ∀ n x, P (.int n) → P (.float x) → (Value.int n).same (.float x) = true → Represents n.toInt

theorem Unrounded.alike_eq_same (h : Unrounded P) {u v : Value} (hu : P u) (hv : P v) :
    u.alike v = u.same v := by
  rw [Bool.eq_iff_iff]
  cases u with
  | int n =>
    cases v with
    | float x =>
      have represents := h n x hu hv
      rw [Value.alike, decide_eq_true_eq, isInt_iff, ← same_int_float]
      exact ⟨And.right, fun equal => ⟨represents equal, equal⟩⟩
    | none | int | text | bool | array | function | builtin => rw [Value.alike] <;> simp
  | float x =>
    cases v with
    | int n =>
      have represents := h n x hv hu
      rw [Value.alike, decide_eq_true_eq, isInt_iff, same_float_int, ← same_int_float]
      exact ⟨And.right, fun equal => ⟨represents equal, equal⟩⟩
    | none | float | text | bool | array | function | builtin => rw [Value.alike] <;> simp
  | none | text | bool | array | function | builtin => rw [Value.alike] <;> simp

theorem foldl_countIn_congr {equals equals' : Value → Value → Bool}
    (h : ∀ {u v}, P u → P v → equals u v = equals' u v) {vs : List Value} (hvs : ∀ v ∈ vs, P v)
    {classes : List (Value × Nat)} (hclasses : ∀ u ∈ classes.map Prod.fst, P u) :
    vs.foldl (countIn equals) classes = vs.foldl (countIn equals') classes := by
  induction vs generalizing classes with
  | nil => rfl
  | cons v vs ih =>
    obtain ⟨hv, hrest⟩ := List.forall_mem_cons.mp hvs
    have step : countIn equals classes v = countIn equals' classes v :=
      countIn_congr fun u hu => h (hclasses u hu) hv
    rw [List.foldl_cons, List.foldl_cons, step]
    apply ih hrest
    intro u hu
    rcases mem_countIn hu with rfl | hu
    · exact hv
    · exact hclasses u hu

theorem Unrounded.mode_eq (h : Unrounded P) {vs : List Value} (nonempty : vs ≠ [])
    (hvs : ∀ v ∈ vs, P v) : mode.compute [.array vs] = plainMode Value.same vs := by
  rw [mode_eq_plainMode nonempty, plainMode, plainMode,
    foldl_countIn_congr h.alike_eq_same hvs fun u hu => absurd hu List.not_mem_nil]

/-- An integer that no float has as its value, beside the float that it is rounded to: two classes
of one member, or one class of two. -/
theorem mode_pair {n : Int64} {x : Binary64} (equal : (Value.int n).same (.float x) = true)
    (h : ¬ Represents n.toInt) :
    mode.compute [.array [.int n, .float x]] = .error (.noMode 2) ∧
      plainMode Value.same [.int n, .float x] = .ok (.int n) := by
  have differ : (Value.int n).alike (.float x) = false := by
    rw [Value.alike, decide_eq_false_iff_not, isInt_iff]
    exact fun both => h both.1
  constructor
  · rw [mode_eq_plainMode (List.cons_ne_nil _ _)]
    simp [plainMode, countIn, differ, largest]
  · simp [plainMode, countIn, equal, largest]

theorem unrounded_of_small (h : ∀ n, P (.int n) → n.toInt.natAbs ≤ 2 ^ 53) : Unrounded P :=
  fun n _ hn _ _ => represents_of_le (h n hn)

theorem mode_counts (P : Value → Prop) :
    (∀ vs : List Value, vs ≠ [] → mode.compute [.array vs] = plainMode Value.alike vs) ∧
      ((∀ vs : List Value, vs ≠ [] → (∀ v ∈ vs, P v) →
          mode.compute [.array vs] = plainMode Value.same vs) ↔ Unrounded P) ∧
      ((∀ n, P (.int n) → n.toInt.natAbs ≤ 2 ^ 53) → Unrounded P) := by
  refine ⟨fun vs => mode_eq_plainMode, ⟨?_, ?_⟩, unrounded_of_small⟩
  · intro agree n x hn hx equal
    by_contra h
    obtain ⟨keyed, plain⟩ := mode_pair equal h
    have both : ∀ v ∈ [Value.int n, .float x], P v := by simp [hn, hx]
    rw [agree _ (List.cons_ne_nil _ _) both, plain] at keyed
    cases keyed
  · intro h vs nonempty hvs
    exact h.mode_eq nonempty hvs

theorem mode_counts_small :
    mode.compute [.array [.float ⟨0x4340000000000000⟩, .int 9007199254740992]] =
      .ok (.float ⟨0x4340000000000000⟩) := by
  obtain ⟨-, agree, small⟩ :=
    mode_counts fun v => ∀ n, v = .int n → n.toInt.natAbs ≤ 2 ^ 53
  have equal : (Value.float ⟨0x4340000000000000⟩).same (.int 9007199254740992) = true := by
    decide +kernel
  rw [agree.mpr (small fun n h => h n rfl) _ (List.cons_ne_nil _ _) (by simp)]
  simp [plainMode, countIn, largest, equal]

/-- `2 ^ 53 + 1` is rounded to `2 ^ 53`. -/
theorem mode_counts_rounded :
    mode.compute [.array [.int 9007199254740993, .float ⟨0x4340000000000000⟩]] =
        .error (.noMode 2) ∧
      plainMode Value.same [.int 9007199254740993, .float ⟨0x4340000000000000⟩] =
        .ok (.int 9007199254740993) := by
  apply mode_pair
  · decide +kernel
  · intro represents
    have nearest : (ofInt 9007199254740993).IsInt 9007199254740993 := represents.isInt rfl
    exact absurd nearest (by decide +kernel)

end Equality

end Builtin

end Abacus
