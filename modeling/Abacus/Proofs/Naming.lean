import Mathlib.Data.Set.Insert
import Abacus.Proofs.Points

/-!
# Where names are created

A statement creates names in the innermost frame only. They are the names that are declared or assigned
in the statement outside of its `for` loops and functions: a `for` loop executes its body in frames of
its own, and a function does so with the frames of its caller hidden, so what they create goes away with
their frames. A name that is only assigned is created if no frame binds it.
-/

namespace Abacus

def Frame.names (f : Frame) : Set String := {name | f.Binds name}

theorem Frame.names_insert (f : Frame) (name : String) (v : Value) :
    (f.insert name v).names = Insert.insert name f.names := by
  ext other
  exact binds_insert

theorem Frame.names_insert_of_binds {f : Frame} {name : String} (h : f.Binds name) (v : Value) :
    (f.insert name v).names = f.names := by
  rw [names_insert]
  exact Set.insert_eq_of_mem h

namespace Scopes

/-- The names that each frame binds, from the innermost frame to the global one. -/
def names (s : Scopes) : List (Set String) := (s.locals ++ [s.globals]).map Frame.names

theorem names_nil (globals : Frame) : names ⟨globals, []⟩ = [globals.names] := rfl

theorem names_push (s : Scopes) (f : Frame) : (s.push f).names = f.names :: s.names := rfl

theorem names_eq_cons (s : Scopes) : ∃ inner outer, s.names = inner :: outer := by
  obtain ⟨globals, locals⟩ := s
  cases locals with
  | nil => exact ⟨_, _, rfl⟩
  | cons f fs => exact ⟨_, _, rfl⟩

theorem names_pop {s : Scopes} {inner : Set String} {outer : List (Set String)}
    (h : s.names = inner :: outer) (nonempty : outer ≠ []) : s.pop.names = outer := by
  obtain ⟨globals, locals⟩ := s
  cases locals with
  | nil =>
    rw [names_nil, List.cons.injEq] at h
    exact absurd h.2.symm nonempty
  | cons f fs => exact (List.cons.inj h).2

theorem names_insert {s : Scopes} {inner : Set String} {outer : List (Set String)}
    (h : s.names = inner :: outer) (name : String) (v : Value) :
    (s.insert name v).names = Insert.insert name inner :: outer := by
  obtain ⟨globals, locals⟩ := s
  cases locals with
  | nil =>
    obtain ⟨rfl, rfl⟩ := List.cons.inj h
    exact congrArg (· :: []) (globals.names_insert name v)
  | cons f fs =>
    obtain ⟨rfl, rfl⟩ := List.cons.inj h
    exact congrArg (· :: _) (f.names_insert name v)

theorem names_update? {name : String} {v : Value} {fs gs : List Frame}
    (h : update? name v fs = some gs) : gs.map Frame.names = fs.map Frame.names := by
  induction fs generalizing gs with
  | nil => cases h
  | cons f fs ih =>
    rw [update?] at h
    by_cases hf : (f.get? name).isSome
    · rw [if_pos hf, Option.some.injEq] at h
      rw [← h, List.map_cons, List.map_cons, Frame.names_insert_of_binds hf]
    · rw [if_neg hf, Option.map_eq_some_iff] at h
      obtain ⟨gs', hgs, rfl⟩ := h
      rw [List.map_cons, List.map_cons, ih hgs]

theorem not_binds_of_update? {name : String} {v : Value} {fs : List Frame}
    (h : update? name v fs = none) : ∀ f ∈ fs, ¬ f.Binds name := by
  induction fs with
  | nil => simp
  | cons f fs ih =>
    rw [update?] at h
    by_cases hf : (f.get? name).isSome
    · rw [if_pos hf] at h
      cases h
    · rw [if_neg hf, Option.map_eq_none_iff] at h
      intro g hg
      rcases List.mem_cons.mp hg with rfl | hg
      · exact hf
      · exact ih h g hg

theorem names_assign (s : Scopes) (name : String) (v : Value) :
    (s.assign name v).names = s.names ∨
      (s.assign name v = s.insert name v ∧ ∀ names ∈ s.names, name ∉ names) := by
  rcases s.assign_cases name v with ⟨fs, hfs, h⟩ | ⟨-, hg, h⟩ | ⟨hu, hg, h⟩
  · left
    rw [h, names, names, List.map_append, List.map_append, names_update? hfs]
  · left
    rw [h, names, names, List.map_append, List.map_append, List.map_singleton, List.map_singleton,
      Frame.names_insert_of_binds hg]
  · right
    refine ⟨h, fun names hnames => ?_⟩
    obtain ⟨f, hf, rfl⟩ := List.mem_map.mp hnames
    rcases List.mem_append.mp hf with hf | hf
    · exact not_binds_of_update? hu f hf
    · rw [List.mem_singleton.mp hf]
      exact hg

end Scopes

namespace State

def SameNames (s t : State) : Prop := t.scopes.names = s.scopes.names

/-- The frames around the innermost one have the names of before. The innermost one loses none, and a
new one is among `declared`, or it is among `assigned` and was bound nowhere. -/
def Extends (declared assigned : Set String) (s t : State) : Prop :=
  ∃ inner inner' outer, s.scopes.names = inner :: outer ∧ t.scopes.names = inner' :: outer ∧
    inner ⊆ inner' ∧ ∀ name ∈ inner', name ∉ inner →
      name ∈ declared ∨ name ∈ assigned ∧ ∀ names ∈ s.scopes.names, name ∉ names

variable {declared assigned : Set String} {s t u : State}

theorem Framed.sameNames (h : Framed s t) : SameNames s t := by
  have globals : t.scopes.globals.names = s.scopes.globals.names := Set.ext h.globals
  rw [SameNames, Scopes.names, Scopes.names, h.locals, List.map_append, List.map_append,
    List.map_singleton, List.map_singleton, globals]

theorem SameNames.extends (h : SameNames s t) : Extends declared assigned s t := by
  obtain ⟨inner, outer, hs⟩ := s.scopes.names_eq_cons
  exact ⟨inner, inner, outer, hs, h.trans hs, Set.Subset.rfl, fun name hin hout => absurd hin hout⟩

theorem sameNames_quiet : Quiet SameNames where
  refl _ := rfl
  trans h h' := h'.trans h
  output _ _ _ := rfl

theorem Extends.trans (h : Extends declared assigned s t) (h' : Extends declared assigned t u) :
    Extends declared assigned s u := by
  obtain ⟨inner, inner', outer, hs, ht, kept, created⟩ := h
  obtain ⟨_, inner'', _, ht', hu, kept', created'⟩ := h'
  obtain ⟨rfl, rfl⟩ := List.cons.inj (ht.symm.trans ht')
  refine ⟨inner, inner'', outer, hs, hu, kept.trans kept', fun name hnew hold => ?_⟩
  by_cases hmid : name ∈ inner'
  · exact created name hmid hold
  rcases created' name hnew hmid with hdecl | ⟨hassign, unbound⟩
  · exact .inl hdecl
  · -- what is bound before is still bound in between
    refine .inr ⟨hassign, fun names hnames => ?_⟩
    rw [hs] at hnames
    rw [ht] at unbound
    rcases List.mem_cons.mp hnames with rfl | houter
    · exact hold
    · exact unbound names (List.mem_cons_of_mem _ houter)

theorem extends_quiet : Quiet (Extends declared assigned) where
  refl s := (sameNames_quiet.refl s).extends
  trans := Extends.trans
  output s b args := (sameNames_quiet.output s b args).extends

theorem extends_declare (s : State) {name : String} (hname : name ∈ declared) (v : Value) :
    Extends declared assigned s { s with scopes := s.scopes.insert name v } := by
  obtain ⟨inner, outer, hs⟩ := s.scopes.names_eq_cons
  refine ⟨inner, insert name inner, outer, hs, Scopes.names_insert hs name v, Set.subset_insert name inner,
    fun other hnew hold => .inl ?_⟩
  rw [(Set.mem_insert_iff.mp hnew).resolve_right hold]
  exact hname

theorem extends_assign (s : State) {name : String} (hname : name ∈ assigned) (v : Value) :
    Extends declared assigned s { s with scopes := s.scopes.assign name v } := by
  rcases s.scopes.names_assign name v with same | ⟨inserted, unbound⟩
  · exact SameNames.extends same
  · obtain ⟨inner, outer, hs⟩ := s.scopes.names_eq_cons
    have ht := Scopes.names_insert hs name v
    rw [← inserted] at ht
    refine ⟨inner, insert name inner, outer, hs, ht, Set.subset_insert name inner,
      fun other hnew hold => .inr ?_⟩
    rw [(Set.mem_insert_iff.mp hnew).resolve_right hold]
    exact ⟨hname, unbound⟩

theorem Extends.pop {f : Frame} (h : Extends declared assigned { s with scopes := s.scopes.push f } t) :
    SameNames s { t with scopes := t.scopes.pop } := by
  obtain ⟨inner, inner', outer, hs, ht, -, -⟩ := h
  obtain ⟨-, rfl⟩ := List.cons.inj ((s.scopes.names_push f).symm.trans hs)
  refine Scopes.names_pop ht ?_
  obtain ⟨inner, outer, hs⟩ := s.scopes.names_eq_cons
  rw [hs]
  exact List.cons_ne_nil _ _

theorem extends_stable : Stable (Extends Set.univ Set.univ) where
  toQuiet := extends_quiet
  declare s name v := extends_declare s (Set.mem_univ name) v
  assign s name v := extends_assign s (Set.mem_univ name) v
  round h := h.pop.extends

end State

namespace Stmt

/-- The second statement is the first one or stands in it outside of `for` loops and functions, so that
both are executed in one frame. -/
inductive Spans : Stmt → Stmt → Prop
  | self {st : Stmt} : Spans st st
  | branch {st inner sub : Stmt} {truth : Bool} {body : List Stmt} :
      st.branch? truth = some body → inner ∈ body → Spans inner sub → Spans st sub

def declares? : Stmt → Option String
  | declare name _ _ | define name _ _ _ => some name
  | _ => none

def assigns? : Stmt → Option String
  | assign name _ => some name
  | _ => none

def declared (st : Stmt) : Set String := {name | ∃ sub, st.Spans sub ∧ sub.declares? = some name}

def assigned (st : Stmt) : Set String := {name | ∃ sub, st.Spans sub ∧ sub.assigns? = some name}

theorem declared_branch {st inner : Stmt} {truth : Bool} {body : List Stmt}
    (h : st.branch? truth = some body) (hinner : inner ∈ body) : inner.declared ⊆ st.declared := by
  intro name hname
  obtain ⟨sub, hspans, hdeclares⟩ := hname
  exact ⟨sub, .branch h hinner hspans, hdeclares⟩

theorem assigned_branch {st inner : Stmt} {truth : Bool} {body : List Stmt}
    (h : st.branch? truth = some body) (hinner : inner ∈ body) : inner.assigned ⊆ st.assigned := by
  intro name hname
  obtain ⟨sub, hspans, hassigns⟩ := hname
  exact ⟨sub, .branch h hinner hspans, hassigns⟩

end Stmt

open State Abacus.Action

section Execution

variable {declared assigned : Set String} {call : Caller}

theorem Caller.Keeps.extends (hcall : call.Keeps SameNames) : call.Keeps (Extends declared assigned) :=
  fun pos f args s => (hcall pos f args s).extends

theorem Stmt.forEach_sameNames (hcall : call.Keeps SameNames) (rounds : Nat) (name : String) (e : Expr)
    (body : List Stmt) : ((Stmt.forEach name e body).exec rounds call).Keeps SameNames := by
  rw [Stmt.exec]
  refine (e.eval_keeps sameNames_quiet hcall).bind sameNames_quiet fun v => ?_
  split
  · have hbody := Stmt.execAll_keeps extends_stable hcall.extends rounds body .none
    exact iterate_keeps_of_within sameNames_quiet (fun f s => (hbody _).pop) name _
  · exact keeps_fail sameNames_quiet _ _

theorem Stmt.allowed_branch {st : Stmt} {truth : Bool} {body : List Stmt}
    (hst : st.declared ⊆ declared ∧ st.assigned ⊆ assigned) (h : st.branch? truth = some body) :
    ∀ inner ∈ body, inner.declared ⊆ declared ∧ inner.assigned ⊆ assigned := by
  intro inner hinner
  exact ⟨(Stmt.declared_branch h hinner).trans hst.1, (Stmt.assigned_branch h hinner).trans hst.2⟩

mutual

theorem Stmt.exec_extends (hcall : call.Keeps SameNames) (rounds : Nat) :
    ∀ st : Stmt, st.declared ⊆ declared ∧ st.assigned ⊆ assigned →
      (st.exec rounds call).Keeps (Extends declared assigned)
  | .declare name _ e, hst => by
    rw [Stmt.exec]
    refine (e.eval_keeps extends_quiet hcall.extends).bind extends_quiet fun v s => ?_
    exact extends_declare s (hst.1 ⟨_, .self, rfl⟩) v
  | .define name params _ body, hst => by
    rw [Stmt.exec]
    exact fun s => extends_declare s (hst.1 ⟨_, .self, rfl⟩) _
  | .ifThen c body, hst => by
    rw [Stmt.exec]
    refine (c.eval_keeps extends_quiet hcall.extends).bind extends_quiet fun v => ?_
    split
    · have hbody := Stmt.allowed_branch hst (rfl : Stmt.branch? (.ifThen c body) true = some body)
      exact Stmt.execAll_extends hcall rounds body .none hbody
    · exact keeps_pure extends_quiet _
  | .ifElse c yes no, hst => by
    rw [Stmt.exec]
    refine (c.eval_keeps extends_quiet hcall.extends).bind extends_quiet fun v => ?_
    split
    · have hyes := Stmt.allowed_branch hst (rfl : Stmt.branch? (.ifElse c yes no) true = some yes)
      exact Stmt.execAll_extends hcall rounds yes .none hyes
    · have hno := Stmt.allowed_branch hst (rfl : Stmt.branch? (.ifElse c yes no) false = some no)
      exact Stmt.execAll_extends hcall rounds no .none hno
  | .forEach name e body, _ => fun s => (Stmt.forEach_sameNames hcall rounds name e body s).extends
  | .loop c body, hst => by
    rw [Stmt.exec]
    have hbody := Stmt.allowed_branch hst (rfl : Stmt.branch? (.loop c body) true = some body)
    exact repeatWhile_keeps extends_quiet (c.eval_keeps extends_quiet hcall.extends)
      (Stmt.execAll_extends hcall rounds body .none hbody) rounds
  | .ret e, _ => by
    rw [Stmt.exec]
    refine (e.eval_keeps extends_quiet hcall.extends).bind extends_quiet fun v => ?_
    exact keeps_pure extends_quiet _
  | .assign name e, hst => by
    rw [Stmt.exec]
    refine (e.eval_keeps extends_quiet hcall.extends).bind extends_quiet fun v s => ?_
    exact extends_assign s (hst.2 ⟨_, .self, rfl⟩) v
  | .expr e, _ => by
    rw [Stmt.exec]
    refine (e.eval_keeps extends_quiet hcall.extends).bind extends_quiet fun v => ?_
    exact keeps_pure extends_quiet _

theorem Stmt.execAll_extends (hcall : call.Keeps SameNames) (rounds : Nat) :
    ∀ (ss : List Stmt) (last : Value),
      (∀ st ∈ ss, st.declared ⊆ declared ∧ st.assigned ⊆ assigned) →
      (Stmt.execAll rounds call ss last).Keeps (Extends declared assigned)
  | [], last, _ => by
    rw [Stmt.execAll]
    exact keeps_pure extends_quiet _
  | st :: ss, last, hss => by
    rw [Stmt.execAll]
    have hst := Stmt.exec_extends hcall rounds st (hss st List.mem_cons_self)
    refine hst.bind extends_quiet fun flow => ?_
    cases flow with
    | normal v =>
      exact Stmt.execAll_extends hcall rounds ss v fun st h => hss st (List.mem_cons_of_mem _ h)
    | returned v => exact keeps_pure extends_quiet _

end

end Execution

theorem callFunction_sameNames (limit budget : Nat) : (callFunction limit budget).Keeps SameNames :=
  fun pos f args s => (callFunction_framed limit budget pos f args s).sameNames

/-- However a statement ends, it has created names in the innermost frame only, and only those it
declares or assigns there; a `for` loop has created none. -/
theorem statement_creates (limit budget rounds : Nat) (st : Stmt) (s : State) :
    let t := (st.exec rounds (callFunction limit budget) s).2
    (∃ inner inner' outer, s.scopes.names = inner :: outer ∧ t.scopes.names = inner' :: outer ∧
      inner ⊆ inner' ∧ ∀ name ∈ inner', name ∉ inner →
        (name ∈ st.declared ∨ name ∈ st.assigned) ∧
        (name ∉ st.declared → ∀ names ∈ s.scopes.names, name ∉ names)) ∧
    ∀ name e body, st = .forEach name e body → t.scopes.names = s.scopes.names := by
  intro t
  have hcall := callFunction_sameNames limit budget
  constructor
  · have hst := st.exec_extends hcall rounds ⟨Set.Subset.rfl, Set.Subset.rfl⟩ s
    obtain ⟨inner, inner', outer, hs, ht, kept, created⟩ := hst
    refine ⟨inner, inner', outer, hs, ht, kept, fun name hnew hold => ?_⟩
    rcases created name hnew hold with hdecl | ⟨hassign, unbound⟩
    · exact ⟨.inl hdecl, fun hnot => absurd hdecl hnot⟩
    · exact ⟨.inr hassign, fun _ => unbound⟩
  · intro name e body hfor
    subst hfor
    exact Stmt.forEach_sameNames hcall rounds name e body s

end Abacus
