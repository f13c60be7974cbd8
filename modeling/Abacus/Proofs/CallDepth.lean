import Abacus.Proofs.Faults
import Abacus.Proofs.Steps

/-!
# The limit on the depth of calls

A call that is refused for its depth ends the whole run with its error, since errors go outwards, and a
run ends with such an error only if it reaches a refused call. Below the limit nothing depends on it.
-/

namespace Abacus

open Abacus.Action

inductive Refusal (limit : Nat) (f : Function) (args : List Value) (s : State) : Fault → Prop
  | arity : args.length ≠ f.params.length →
      Refusal limit f args s (.wrongArguments f.name f.params.length args.length)
  | depth : args.length = f.params.length → limit ≤ s.depth →
      Refusal limit f args s (.tooDeep limit f.name)

/-- A call with the right number of arguments that the limit refuses, and its error. -/
inductive Refuses (limit : Nat) : Point → RuntimeError → Prop
  | call {active pos f args s} : args.length = f.params.length → limit ≤ s.depth →
      Refuses limit ⟨active, .call pos f args, s⟩ ⟨.tooDeep limit f.name, pos⟩

def Meets (limit : Nat) (p : Point) (e : RuntimeError) : Prop :=
  ∃ q, Reaches limit p q ∧ Refuses limit q e

section Downward

variable {limit budget : Nat} {p q : Point} {s : State} {e : RuntimeError}

theorem Meets.of_starts (h : Starts limit p q) (hq : Meets limit q e) : Meets limit p e := by
  obtain ⟨r, hreaches, hrefuses⟩ := hq
  exact ⟨r, .head h hreaches, hrefuses⟩

theorem Refusal.ends {f : Function} {fault : Fault} {args : List Value} (h : Refusal limit f args s fault)
    (pos : Position) : (Job.call pos f args).Ends limit s (.failed ⟨fault, pos⟩) s := by
  have key : callFunction limit 1 pos f args s = (.failed ⟨fault, pos⟩, s) := by
    cases h with
    | arity hargs => rw [callFunction_succ, if_pos hargs]
    | depth hargs hdeep => rw [callFunction_succ, if_neg (fun h => h hargs), if_pos hdeep]
  exact Job.ends_of_failed (bind_of_failed key)

theorem Refuses.fails (h : Refuses limit q e) : q.job.Fails limit q.state e := by
  cases h with
  | @call active pos f args s hargs hdeep =>
    have hrefusal : Refusal limit f args s (.tooDeep limit f.name) := .depth hargs hdeep
    exact ⟨s, hrefusal.ends pos⟩

theorem Meets.fails (h : Meets limit p e) : p.job.Fails limit p.state e := by
  obtain ⟨q, hreaches, hrefuses⟩ := h
  exact hreaches.fails hrefuses.fails

/-- An error for the depth of the calls is explained by a call that `p` meets. -/
def Explained (limit : Nat) (p : Point) : Stop → Prop
  | .error e => e.fault.kind = .recursion → Meets limit p e
  | .crash => True

theorem Explained.of_starts {stop : Stop} (h : Starts limit p q) (hq : Explained limit q stop) :
    Explained limit p stop := by
  cases stop with
  | error e => exact fun hkind => (hq hkind).of_starts h
  | crash => trivial

theorem explained_of_ne {e : RuntimeError} (h : e.fault.kind ≠ .recursion) :
    Explained limit p (.error e) :=
  fun hkind => absurd hkind h

theorem explains_check {P : α → Prop} {result : Except Fault α} (h : Answers P result)
    (pos : Position) : Blames (Explained limit) p (check pos result) s := by
  intro stop t hrun
  obtain ⟨fault, rfl, rfl⟩ := error_of_check hrun
  exact explained_of_ne h.kind_ne_recursion

theorem explains_attempt {P : Option α → Prop} {result : Except Fault (Option α)}
    (h : Answers P result) (pos : Position) :
    Blames (Explained limit) p (attempt pos result) s := by
  intro stop t hrun
  rcases stop_of_attempt hrun with ⟨fault, rfl, rfl⟩ | ⟨-, rfl⟩
  · exact explained_of_ne h.kind_ne_recursion
  · trivial

theorem explains_lookup (pos : Position) (name : String) :
    Blames (Explained limit) p (lookup pos name) s := by
  intro stop t hrun
  obtain ⟨-, rfl⟩ := unbound_of_lookup hrun
  exact explained_of_ne (by simp [Fault.kind])

theorem explains_callBuiltin (pos : Position) (b : Builtin) (args : List Value) :
    Blames (Explained limit) p (callBuiltin pos b args) s := by
  intro stop t hrun
  obtain ⟨sink, ⟨fault, hfault, rfl⟩ | ⟨-, rfl⟩⟩ := stop_of_callBuiltin hrun
  · exact explained_of_ne (Builtin.call_kind_ne_recursion hfault)
  · trivial

theorem explains_own {m : Action α} (h : Own limit p m s) : Blames (Explained limit) p m s := by
  cases h with
  | name | callee => exact explains_lookup _ _
  | @unary _ pos op _ _ v =>
    exact explains_check (op.apply_answers (P := fun _ => True) v) pos
  | @binary _ pos op _ _ _ v _ w =>
    exact explains_check (op.apply_answers (P := fun _ => True) v w) pos
  | @range _ pos _ _ _ v _ w =>
    exact explains_attempt (v.bounds_answers (P := fun _ => True) w) pos
  | builtin => exact explains_callBuiltin _ _ _
  | notCallable | wrongArguments | notIterable =>
    exact blames_fail (explained_of_ne (by simp [Fault.kind]))
  | tooDeep hargs hdeep => exact blames_fail fun _ => ⟨_, .refl, .call hargs hdeep⟩
  | declare | define => exact blames_declare _ _ _
  | assign => exact blames_assign _ _ _

theorem explains_along (limit : Nat) : Along limit (fun p {_} m s => Blames (Explained limit) p m s) :=
  blames_along explains_own Explained.of_starts

end Downward

namespace Program

variable {p : Program} {s t : State} {limit limit' budget budget' : Nat} {result : Result Value}

/-- A program comes to an end, with a value, an error or a crash, and in the state `t`. -/
def Ends (limit : Nat) (p : Program) (s : State) (result : Result Value) (t : State) : Prop :=
  result ≠ .cut ∧ ∃ budget, p.run limit budget s = (result, t)

theorem run_mirrored {lost : RuntimeError → Prop} (hlimit : limit ≤ limit')
    (hdeep : limit = limit' ∨ ∀ name pos, lost ⟨.tooDeep limit name, pos⟩) (hle : budget ≤ budget')
    (p : Program) : Action.Mirrored Eq lost (p.run limit budget) (p.run limit' budget') :=
  (Job.run_mirrored hlimit hdeep hle (.block p .none)).bind fun _ => mirrored_pure _

theorem run_mono (hle : budget ≤ budget') (hcut : result ≠ .cut)
    (hrun : p.run limit budget s = (result, t)) : p.run limit budget' s = (result, t) := by
  have hkept : ¬ result.Lost fun _ => False := Result.not_lost hcut fun _ _ => id
  exact (run_mirrored (Nat.le_refl limit) (.inl rfl) hle p).eq hrun hkept

theorem Ends.eq {result' : Result Value} {t' : State} (h : p.Ends limit s result t)
    (h' : p.Ends limit s result' t') : result' = result ∧ t' = t := by
  obtain ⟨hcut, budget, hrun⟩ := h
  obtain ⟨hcut', budget', hrun'⟩ := h'
  have hmax := run_mono (Nat.le_max_left budget budget') hcut hrun
  have hmax' := run_mono (Nat.le_max_right budget budget') hcut' hrun'
  exact Prod.mk.inj (hmax'.symm.trans hmax)

theorem Ends.of_le (hlimit : limit ≤ limit') (h : p.Ends limit s result t)
    (hkind : ∀ e, result = .failed e → e.fault.kind ≠ .recursion) : p.Ends limit' s result t := by
  obtain ⟨hcut, budget, hrun⟩ := h
  have hmirror : Action.Mirrored Eq (fun e => e.fault.kind = .recursion) (p.run limit budget)
      (p.run limit' budget) :=
    run_mirrored hlimit (.inr fun _ _ => rfl) (Nat.le_refl budget) p
  exact ⟨hcut, budget, hmirror.eq hrun (Result.not_lost hcut hkind)⟩

theorem ends_stopped_iff (stop : Stop) :
    p.Ends limit s stop.result t ↔ (Job.block p .none).Ends limit s stop.result t := by
  constructor
  · intro h
    obtain ⟨-, budget, hrun⟩ := h
    exact Job.ends_of_stopped (bind_pure_eq_stopped.mp hrun)
  · intro h
    obtain ⟨-, budget, hrun⟩ := h
    exact ⟨stop.result_ne_cut, budget, bind_pure_eq_stopped.mpr hrun⟩

theorem ends_failed_iff {e : RuntimeError} :
    p.Ends limit s (.failed e) t ↔ (Job.block p .none).Ends limit s (.failed e) t :=
  ends_stopped_iff (.error e)

theorem fails_iff {e : RuntimeError} :
    (∃ t, p.Ends limit s (.failed e) t) ↔ (Job.block p .none).Fails limit s e :=
  exists_congr fun _ => ends_failed_iff

theorem meets_iff {e : RuntimeError} :
    (∃ t, p.Ends limit s (.failed e) t) ∧ e.fault.kind = .recursion ↔ Meets limit (p.start s) e := by
  rw [fails_iff]
  constructor
  · intro h
    obtain ⟨⟨t, -, budget, hrun⟩, hkind⟩ := h
    have hcall := callFunction_along (explains_along limit) budget
    exact Stmt.execAll_along (explains_along limit) hcall [] p .none s (.error e) t hrun hkind
  · intro h
    refine ⟨h.fails, ?_⟩
    obtain ⟨q, -, hrefuses⟩ := h
    cases hrefuses
    rfl

theorem start_counted (hs : s.depth = 0) : (p.start s).Counted limit :=
  ⟨hs, Nat.zero_le limit⟩

/-- The limit on the depth of calls is exact and otherwise invisible. -/
theorem limit_exact (p : Program) {s : State} (hs : s.depth = 0) :
    (∀ N M result t, N ≤ M → p.Ends N s result t →
      (∀ e, result = .failed e → e.fault.kind ≠ .recursion) →
      ∀ result' t', p.Ends M s result' t' ↔ result' = result ∧ t' = t) ∧
    (∀ N e, (∃ t, p.Ends N s (.failed e) t) ∧ e.fault.kind = .recursion ↔
      ∃ active pos f args u, Reaches N (p.start s) ⟨active, .call pos f args, u⟩ ∧
        args.length = f.params.length ∧ active.length = N ∧ e = ⟨.tooDeep N f.name, pos⟩) ∧
    ∀ N q, Reaches N (p.start s) q →
      q.state.depth = q.active.length ∧ q.active.length ≤ N ∧
      ∀ result t, q.job.Ends N q.state result t → t.depth = q.active.length := by
  refine ⟨?_, ?_, ?_⟩
  · intro N M result t hlimit hends hkind result' t'
    have hraised := hends.of_le hlimit hkind
    constructor
    · exact hraised.eq
    · intro h
      rw [h.1, h.2]
      exact hraised
  · intro N e
    rw [meets_iff]
    constructor
    · intro h
      obtain ⟨q, hreaches, hrefuses⟩ := h
      have hcounted := hreaches.counted (start_counted hs)
      cases hrefuses with
      | @call active pos f args u hargs hdeep =>
        have hactive : active.length = N := by
          have hdepth := hcounted.depth
          have hbound := hcounted.bound
          dsimp only at hdepth hbound
          omega
        exact ⟨active, pos, f, args, u, hreaches, hargs, hactive, rfl⟩
    · intro h
      obtain ⟨active, pos, f, args, u, hreaches, hargs, hactive, he⟩ := h
      have hdepth := (hreaches.counted (start_counted hs)).depth
      rw [he]
      exact ⟨_, hreaches, .call hargs (hactive.ge.trans hdepth.ge)⟩
  · intro N q hreaches
    have hcounted := hreaches.counted (start_counted hs)
    refine ⟨hcounted.depth, hcounted.bound, fun result t hends => ?_⟩
    rw [hends.depth]
    exact hcounted.depth

/-- A function that calls another one. A limit of two is enough for it, and a higher one changes
nothing. Under a limit of one the inner call is refused. -/
theorem limit_exact_nested :
    let p : Program := [.define "g" [] none [.ret (.literal ⟨1, 8⟩ (.int 7))],
      .define "f" [] none [.ret (.call ⟨2, 8⟩ "g" [])], .expr (.call ⟨3, 1⟩ "f" [])]
    let s : State := ⟨⟨.empty, []⟩, 0, .unlimited⟩
    s.depth = 0 ∧ (∃ t, p.Ends 2 s (.done (.int 7)) t ∧
      ∀ M, 2 ≤ M → ∀ result' t', p.Ends M s result' t' ↔ result' = .done (.int 7) ∧ t' = t) ∧
    ∃ active f args u, Reaches 1 (p.start s) ⟨active, .call ⟨2, 8⟩ f args, u⟩ ∧ f.name = "g" ∧
      active.length = 1 ∧ u.depth = 1 := by
  intro p s
  have hexact := limit_exact p (rfl : s.depth = 0)
  have htwo : p.Ends 2 s (.done (.int 7)) (p.run 2 3 s).2 := ⟨by simp, 3, rfl⟩
  have hone : p.Ends 1 s (.failed ⟨.tooDeep 1 "g", ⟨2, 8⟩⟩) (p.run 1 3 s).2 := ⟨by simp, 3, rfl⟩
  refine ⟨rfl, ⟨_, htwo, fun M hM => hexact.1 2 M _ _ hM htwo (by simp)⟩, ?_⟩
  obtain ⟨active, pos, f, args, u, hreaches, -, hactive, he⟩ := (hexact.2.1 1 _).mp ⟨⟨_, hone⟩, rfl⟩
  obtain ⟨hfault, hpos⟩ := RuntimeError.mk.inj he
  have hname : "g" = f.name := (Fault.tooDeep.inj hfault).2
  have hdepth := (hexact.2.2 1 _ hreaches).1
  rw [← hpos] at hreaches
  exact ⟨active, f, args, u, hreaches, hname.symm, hactive, hdepth.trans hactive⟩

end Program

end Abacus
