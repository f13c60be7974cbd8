import Abacus.Scope

/-!
# Bindings

What the operations on scopes do to the names that are bound. A frame is seen through `get?` alone, so
two frames that bind the same names to the same values are not told apart. Declarations and
assignments never unbind a name, and only the innermost frame gets new ones.
-/

namespace Abacus

namespace Frame

theorem lookup_cons_ne {n other : String} (h : other ≠ n) (w : Value)
    (rest : List (String × Value)) : ((n, w) :: rest).lookup other = rest.lookup other := by
  rw [List.lookup_cons, beq_false_of_ne h]

theorem lookup_replace (entries : List (String × Value)) (name other : String) (v : Value) :
    (replace name v entries).lookup other = if other = name then some v else entries.lookup other := by
  by_cases h : other = name
  · subst h
    rw [if_pos rfl]
    induction entries with
    | nil => exact List.lookup_cons_self
    | cons entry rest ih =>
      obtain ⟨n, w⟩ := entry
      rw [replace]
      by_cases hn : n = other
      · rw [if_pos hn, hn, List.lookup_cons_self]
      · rw [if_neg hn, lookup_cons_ne (Ne.symm hn), ih]
  · rw [if_neg h]
    induction entries with
    | nil => exact lookup_cons_ne h v []
    | cons entry rest ih =>
      obtain ⟨n, w⟩ := entry
      rw [replace]
      by_cases hn : n = name
      · subst hn
        rw [if_pos rfl, lookup_cons_ne h, lookup_cons_ne h]
      · rw [if_neg hn, List.lookup_cons, List.lookup_cons, ih]

theorem get?_insert (f : Frame) (name other : String) (v : Value) :
    (f.insert name v).get? other = if other = name then some v else f.get? other :=
  lookup_replace f.entries name other v

def Binds (f : Frame) (name : String) : Prop := (f.get? name).isSome

theorem binds_insert {f : Frame} {name other : String} {v : Value} :
    (f.insert name v).Binds other ↔ other = name ∨ f.Binds other := by
  rw [Binds, get?_insert]
  by_cases h : other = name
  · simp [h]
  · simp [h, Binds]

theorem Binds.insert {f : Frame} {other : String} (h : f.Binds other) (name : String) (v : Value) :
    (f.insert name v).Binds other :=
  binds_insert.2 (.inr h)

theorem binds_insert_of_binds {f : Frame} {name other : String} {v : Value} (h : f.Binds name) :
    (f.insert name v).Binds other ↔ f.Binds other := by
  rw [binds_insert]
  constructor
  · rintro (rfl | h')
    · exact h
    · exact h'
  · exact .inr

theorem binds_foldl {name : String} (value : α → Value) (entries : List (String × α)) (f : Frame)
    (h : f.Binds name ∨ name ∈ entries.map Prod.fst) :
    (entries.foldl (fun f (name, a) => f.insert name (value a)) f).Binds name := by
  induction entries generalizing f with
  | nil => exact h.resolve_right List.not_mem_nil
  | cons entry rest ih =>
    rw [List.foldl_cons]
    refine ih _ ?_
    rcases h with h | h
    · exact .inl (h.insert entry.1 (value entry.2))
    · rw [List.map_cons, List.mem_cons] at h
      rcases h with h | h
      · exact .inl (binds_insert.2 (.inl h))
      · exact .inr h

def Same (f g : Frame) : Prop := ∀ name, f.get? name = g.get? name

theorem Same.refl (f : Frame) : f.Same f := fun _ => rfl

theorem Same.symm {f g : Frame} (h : f.Same g) : g.Same f := fun name => (h name).symm

theorem Same.insert {f g : Frame} (h : f.Same g) (name : String) (v : Value) :
    (f.insert name v).Same (g.insert name v) := by
  intro other
  rw [get?_insert, get?_insert, h other]

end Frame

namespace Scopes

theorem length_update? {name : String} {v : Value} {fs gs : List Frame}
    (h : update? name v fs = some gs) : gs.length = fs.length := by
  induction fs generalizing gs with
  | nil => cases h
  | cons f fs ih =>
    rw [update?] at h
    by_cases hf : (f.get? name).isSome
    · rw [if_pos hf, Option.some.injEq] at h
      subst h
      rfl
    · rw [if_neg hf, Option.map_eq_some_iff] at h
      obtain ⟨gs', hgs, rfl⟩ := h
      rw [List.length_cons, List.length_cons, ih hgs]

/-- An assignment gives a new value to a local, then to a global, or else it declares. -/
theorem assign_cases (s : Scopes) (name : String) (v : Value) :
    (∃ fs, update? name v s.locals = some fs ∧ s.assign name v = { s with locals := fs }) ∨
    (update? name v s.locals = none ∧ s.globals.Binds name ∧
      s.assign name v = { s with globals := s.globals.insert name v }) ∨
    (update? name v s.locals = none ∧ ¬ s.globals.Binds name ∧ s.assign name v = s.insert name v) := by
  rw [assign]
  cases hu : update? name v s.locals with
  | some fs => exact .inl ⟨fs, rfl, rfl⟩
  | none =>
    by_cases hg : s.globals.Binds name
    · exact .inr (.inl ⟨rfl, hg, if_pos hg⟩)
    · exact .inr (.inr ⟨rfl, hg, if_neg hg⟩)

end Scopes

end Abacus
