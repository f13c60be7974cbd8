import Abacus.Proofs.Faults
import Abacus.Proofs.Sinks
import Abacus.Proofs.Steps

/-!
# Sinks that fail

A sink that fails only cuts a run off. The run is set beside one of the same program whose sink takes
everything. As long as both sinks take what is printed the runs are equal; at the first line that the
failing sink does not take, its run ends with the error of the sink, and the other run has printed
that line and perhaps goes on. So the failing sink holds a beginning of what the other one holds.
-/

namespace Abacus

open Abacus.Action

namespace Sink

structure Beside (I : Sink → Sink → Prop) : Prop where
  reliable : ∀ {g k}, I g k → g.Reliable
  keeps : ∀ {g k k' line}, I g k → k.printLine line = (none, k') → I (g.printLine line).2 k'

end Sink

section Runs

variable {limit : Nat} {I : Sink → Sink → Prop} {p q : Point} {s : State}

/-- A call of `print` by the expression at a position: its arguments are `vs`, and it is made in the
state `u`. -/
inductive Prints (limit : Nat) : Point → Position → List Value → State → Prop
  | call {active pos name args s vs u} : s.scopes.get? name = some (.builtin .print) →
      Job.Ends limit (.exprs args []) s (.done (.normal (.array vs))) u →
      Prints limit ⟨active, .expr (.call pos name args), s⟩ pos vs u

/-- From `p` on a line is printed that the sink beside does not take. It is left as `k` then, and
`output` is what the reliable sink holds after the line or later. -/
inductive Breaks (limit : Nat) (I : Sink → Sink → Prop) (p : Point) (output : ByteArray) :
    RuntimeError → Sink → Prop
  | line {q pos vs u before k e more} : Reaches limit p q → Prints limit q pos vs u →
      I u.sink before → before.printLine (Builtin.printed vs) = (some e, k) →
      output = u.sink.written ++ Sink.lineBytes (Builtin.printed vs) ++ more →
      Breaks limit I p output ⟨.sink e, pos⟩ k

/-- The action prints only more, and beside another sink it does the same unless that sink breaks. -/
structure Follows (limit : Nat) (I : Sink → Sink → Prop) (p : Point) (m : Action α) (s : State) :
    Prop where
  grows : s.sink.Grows (m s).2.sink
  beside : ∀ k, I s.sink k →
    (∃ k', I (m s).2.sink k' ∧ m { s with sink := k } = ((m s).1, { (m s).2 with sink := k' })) ∨
    ∃ e t, m { s with sink := k } = (.failed e, t) ∧
      Breaks limit I p (m s).2.sink.written e t.sink

theorem Breaks.of_starts {output : ByteArray} {e : RuntimeError} {k : Sink} (h : Starts limit p q)
    (hq : Breaks limit I q output e k) : Breaks limit I p output e k := by
  cases hq with
  | line hreaches hprints hbeside hfails houtput =>
    exact .line (.head h hreaches) hprints hbeside hfails houtput

theorem Breaks.of_grows {g g' : Sink} {e : RuntimeError} {k : Sink}
    (h : Breaks limit I p g.written e k) (hgrows : g.Grows g') : Breaks limit I p g'.written e k := by
  obtain ⟨more, hmore⟩ := hgrows
  cases h with
  | line hreaches hprints hbeside hfails houtput =>
    rw [houtput, ByteArray.append_assoc] at hmore
    exact .line hreaches hprints hbeside hfails hmore

def Action.Silent (m : Action α) (s : State) : Prop :=
  ∀ k, m { s with sink := k } = ((m s).1, { (m s).2 with sink := k })

theorem Follows.of_silent {m : Action α} (h : m.Silent s) : Follows limit I p m s := by
  have hsink : (m s).2.sink = s.sink := congrArg (fun out => out.2.sink) (h s.sink)
  constructor
  · rw [hsink]
    exact .refl s.sink
  · intro k hk
    rw [← hsink] at hk
    exact .inl ⟨k, hk, h k⟩

theorem silent_lookup (pos : Position) (name : String) : (lookup pos name).Silent s := by
  intro k
  rw [lookup, lookup]
  dsimp only
  cases s.scopes.get? name <;> rfl

theorem silent_check (pos : Position) (result : Except Fault α) : (check pos result).Silent s := by
  intro k
  cases result <;> rfl

theorem silent_attempt (pos : Position) (result : Except Fault (Option α)) :
    (attempt pos result).Silent s := by
  intro k
  cases result with
  | ok made => cases made <;> rfl
  | error fault => rfl

theorem silent_callBuiltin {b : Builtin} (h : b ≠ .print) (pos : Position) (args : List Value) :
    (callBuiltin pos b args).Silent s := by
  intro k
  obtain ⟨result, hcall⟩ := Builtin.call_eq_of_ne_print h args
  rw [callBuiltin, callBuiltin, hcall, hcall]
  exact silent_attempt (s := s) pos result k

theorem callBuiltin_print (pos : Position) (vs : List Value) (s : State) :
    callBuiltin pos .print vs s =
      match s.sink.printLine (Builtin.printed vs) with
      | (none, sink) => (.done .none, { s with sink })
      | (some e, sink) => (.failed ⟨.sink e, pos⟩, { s with sink }) := by
  simp only [callBuiltin, Builtin.call, if_pos]
  rcases s.sink.printLine (Builtin.printed vs) with ⟨_ | e, sink⟩ <;> rfl

theorem follows_print (hI : Sink.Beside I) {pos : Position} {vs : List Value}
    (hprints : Prints limit p pos vs s) : Follows limit I p (callBuiltin pos .print vs) s := by
  constructor
  · have grows := (s.sink.continues_printLine (Builtin.printed vs)).grows
    rw [callBuiltin_print]
    rcases hline : s.sink.printLine (Builtin.printed vs) with ⟨_ | e, sink⟩
    · rw [hline] at grows
      exact grows
    · rw [hline] at grows
      exact grows
  · intro k hk
    have good := (hI.reliable hk).printLine (Builtin.printed vs)
    rw [callBuiltin_print, callBuiltin_print, good]
    rcases hline : k.printLine (Builtin.printed vs) with ⟨_ | e, k'⟩
    · have kept := hI.keeps hk hline
      rw [good] at kept
      exact .inl ⟨k', kept, rfl⟩
    · exact .inr ⟨_, _, rfl, .line .refl hprints hk hline ByteArray.append_empty.symm⟩

theorem follows_own (hI : Sink.Beside I) {m : Action α} (h : Own limit p m s) :
    Follows limit I p m s := by
  cases h with
  | name | callee => exact .of_silent (silent_lookup _ _)
  | unary | binary => exact .of_silent (silent_check _ _)
  | range => exact .of_silent (silent_attempt _ _)
  | @builtin _ pos _ _ _ b vs _ hcallee hends =>
    by_cases hprint : b = .print
    · subst hprint
      exact follows_print hI (.call hcallee hends)
    · exact .of_silent (silent_callBuiltin hprint pos vs)
  | notCallable | wrongArguments | tooDeep | declare | define | assign | notIterable =>
    exact .of_silent fun k => rfl

theorem Follows.bind {m : Action α} {f : α → Action β} (hm : Follows limit I p m s)
    (hf : ∀ a t, m s = (.done a, t) → Follows limit I p (f a) t) : Follows limit I p (m >>= f) s := by
  obtain ⟨grows, beside⟩ := hm
  rcases hrun : m s with ⟨result, t⟩
  rw [hrun] at grows beside
  by_cases hdone : ∃ a, result = .done a
  · obtain ⟨a, rfl⟩ := hdone
    have hnext := hf a t hrun
    constructor
    · rw [bind_of_done hrun]
      exact grows.trans hnext.grows
    · intro k hk
      rw [bind_of_done hrun]
      obtain ⟨k', hk', hrun'⟩ | ⟨e, u, hrun', hbreaks⟩ := beside k hk
      · rw [bind_of_done hrun']
        exact hnext.beside k' hk'
      · -- the first action broke, and the second one only prints more
        exact .inr ⟨e, u, bind_of_failed hrun', hbreaks.of_grows hnext.grows⟩
  · obtain ⟨stopped, hstops⟩ := bind_stops (fun a h => hdone ⟨a, h⟩) f
    constructor
    · rw [hstops hrun]
      exact grows
    · intro k hk
      rw [hstops hrun]
      obtain ⟨k', hk', hrun'⟩ | ⟨e, u, hrun', hbreaks⟩ := beside k hk
      · exact .inl ⟨k', hk', hstops hrun'⟩
      · exact .inr ⟨e, u, bind_of_failed hrun', hbreaks⟩

theorem follows_along (hI : Sink.Beside I) : Along limit (fun p {_} m s => Follows limit I p m s) where
  own := follows_own hI
  starts := by
    intro p q α m hstarts hq
    refine ⟨hq.grows, fun k hk => ?_⟩
    obtain same | ⟨e, t, hrun, hbreaks⟩ := hq.beside k hk
    · exact .inl same
    · exact .inr ⟨e, t, hrun, hbreaks.of_starts hstarts⟩
  done a := .of_silent fun k => rfl
  cut := .of_silent fun k => rfl
  bind := Follows.bind
  within := by
    intro p α m s frame hm
    refine ⟨hm.grows, fun k hk => ?_⟩
    obtain ⟨k', hk', hrun⟩ | ⟨e, t, hrun, hbreaks⟩ := hm.beside k hk
    · have hwithin : m.within frame { s with sink := k } = _ := within_eq hrun
      exact .inl ⟨k', hk', hwithin⟩
    · have hwithin : m.within frame { s with sink := k } = _ := within_eq hrun
      exact .inr ⟨e, _, hwithin, hbreaks⟩
  inside := by
    intro p m s frame hm
    refine ⟨hm.grows, fun k hk => ?_⟩
    obtain ⟨k', hk', hrun⟩ | ⟨e, t, hrun, hbreaks⟩ := hm.beside k hk
    · have hinside : m.inside frame { s with sink := k } = _ := inside_eq hrun
      exact .inl ⟨k', hk', hinside⟩
    · have hinside : m.inside frame { s with sink := k } = _ := inside_eq hrun
      exact .inr ⟨e, _, hinside, hbreaks⟩
  congr := by
    intro p α m n s hmn hm
    have hs : m s = n s := hmn s.sink
    refine ⟨hs ▸ hm.grows, fun k hk => ?_⟩
    rw [← hs, ← hmn k]
    exact hm.beside k hk

end Runs

namespace Sink

structure Limits (capacity : Nat) (stalls : Bool) (g k : Sink) : Prop where
  reliable : g.Reliable
  fits : g.written.size ≤ capacity
  written : k.written = g.written
  capacity : k.capacity = some capacity
  stalls : k.stalls = stalls
  flushes : k.flushes = true

theorem Limits.printLine {capacity : Nat} {stalls : Bool} {g k : Sink} (h : Limits capacity stalls g k)
    (line : String) :
    k.printLine line =
      if g.written.size + (lineBytes line).size ≤ capacity then
        (none, { k with written := g.written ++ lineBytes line })
      else
        (some (if stalls then .stalled else .full),
          { k with written := (g.written ++ lineBytes line).extract 0 capacity }) := by
  have fits := h.fits
  rw [← h.written] at fits ⊢
  by_cases hroom : k.written.size + (lineBytes line).size ≤ capacity
  · have taken := write_of_fits h.capacity (Nat.le_sub_of_add_le' hroom)
    rw [if_pos hroom, printLine_of_write taken]
    simp [h.flushes]
  · have hroom' : ¬ (lineBytes line).size ≤ capacity - k.written.size := by omega
    have cut := write_of_exceeds h.capacity hroom'
    rw [if_neg hroom, printLine_of_write cut, ByteArray.extract_append, extract_of_size_le fits,
      Nat.zero_sub, h.stalls]
    rfl

theorem limits_beside (capacity : Nat) (stalls : Bool) : Beside (Limits capacity stalls) where
  reliable h := h.reliable
  keeps := by
    intro g k k' line h hline
    rw [h.printLine] at hline
    rw [h.reliable.printLine]
    split at hline
    · rename_i hroom
      obtain ⟨-, rfl⟩ := Prod.mk.inj hline
      rw [← ByteArray.size_append] at hroom
      exact ⟨⟨h.reliable.capacity, h.reliable.flushes⟩, hroom, rfl, h.capacity, h.stalls, h.flushes⟩
    · cases hline

structure Unflushed (before : ByteArray) (g k : Sink) : Prop where
  reliable : g.Reliable
  nothing : g.written = before
  written : k.written = before
  capacity : k.capacity = none
  flushes : k.flushes = false

theorem Unflushed.printLine {before : ByteArray} {g k : Sink} (h : Unflushed before g k)
    (line : String) :
    k.printLine line = (some .notFlushed, { k with written := before ++ lineBytes line }) := by
  rw [printLine_of_write (write_of_unbounded h.capacity (lineBytes line)), h.written]
  simp [h.flushes]

theorem unflushed_beside (before : ByteArray) : Beside (Unflushed before) where
  reliable h := h.reliable
  keeps := by
    intro g k k' line h hline
    rw [h.printLine] at hline
    cases hline

end Sink

section Breaks

variable {limit : Nat} {p : Point} {output : ByteArray} {e : RuntimeError} {k : Sink}

theorem Breaks.of_limits {capacity : Nat} {stalls : Bool}
    (h : Breaks limit (Sink.Limits capacity stalls) p output e k) :
    e.fault = .sink (if stalls then .stalled else .full) ∧ capacity < output.size ∧
      k.written = output.extract 0 capacity := by
  cases h with
  | @line q pos vs u before _ _ more hreaches hprints hbeside hfails houtput =>
    rw [hbeside.printLine] at hfails
    split at hfails
    · cases hfails
    rename_i exceeds
    obtain ⟨hfault, rfl⟩ := Prod.mk.inj hfails
    have hlong : capacity < (u.sink.written ++ Sink.lineBytes (Builtin.printed vs)).size := by
      rw [ByteArray.size_append]
      omega
    refine ⟨?_, ?_, ?_⟩
    · rw [← Option.some.inj hfault]
    · rw [houtput, ByteArray.size_append]
      omega
    · rw [houtput, Sink.extract_append_of_le (Nat.le_of_lt hlong)]

end Breaks

structure Agree (a b : Result Value × State) : Prop where
  result : a.1 = b.1
  scopes : a.2.scopes = b.2.scopes
  depth : a.2.depth = b.2.depth
  written : a.2.sink.written = b.2.sink.written

namespace Program

variable (limit budget : Nat) (p : Program) {s : State} {k : Sink}

theorem run_follows {I : Sink → Sink → Prop} (hI : Sink.Beside I) (s : State) :
    Follows limit I (p.start s) (p.run limit budget) s :=
  (follows_along hI).program budget p s

theorem run_limited {capacity : Nat} {stalls : Bool} (h : Sink.Limits capacity stalls s.sink k) :
    let good := p.run limit budget s
    let bad := p.run limit budget { s with sink := k }
    (good.2.sink.written.size ≤ capacity → Agree bad good) ∧
    (capacity < good.2.sink.written.size →
      bad.2.sink.written = good.2.sink.written.extract 0 capacity ∧
      ∃ e, bad.1 = .failed e ∧ e.fault = .sink (if stalls then .stalled else .full)) := by
  intro good bad
  have follows := run_follows limit budget p (Sink.limits_beside capacity stalls) s
  obtain ⟨k', hk', hrun⟩ | ⟨e, t, hrun, hbreaks⟩ := follows.beside k h
  · have hbad : bad = (good.1, { good.2 with sink := k' }) := hrun
    refine ⟨fun _ => ?_, fun exceeds => absurd hk'.fits (Nat.not_le.mpr exceeds)⟩
    rw [hbad]
    exact ⟨rfl, rfl, rfl, hk'.written⟩
  · have hbad : bad = (.failed e, t) := hrun
    obtain ⟨hfault, exceeds, hwritten⟩ := hbreaks.of_limits
    refine ⟨fun fits => absurd fits (Nat.not_le.mpr exceeds), fun _ => ?_⟩
    rw [hbad]
    exact ⟨hwritten, e, rfl, hfault⟩

theorem run_unflushed {before : ByteArray} (h : Sink.Unflushed before s.sink k) :
    let good := p.run limit budget s
    let bad := p.run limit budget { s with sink := k }
    (good.2.sink.written = before → Agree bad good) ∧
    (good.2.sink.written ≠ before → ∃ q pos vs u more, Reaches limit (p.start s) q ∧
      Prints limit q pos vs u ∧ u.sink.written = before ∧
      good.2.sink.written = before ++ (Sink.lineBytes (Builtin.printed vs) ++ more) ∧
      bad.2.sink.written = before ++ Sink.lineBytes (Builtin.printed vs) ∧
      bad.1 = .failed ⟨.sink .notFlushed, pos⟩) := by
  intro good bad
  have follows := run_follows limit budget p (Sink.unflushed_beside before) s
  obtain ⟨k', hk', hrun⟩ | ⟨e, t, hrun, hbreaks⟩ := follows.beside k h
  · have hbad : bad = (good.1, { good.2 with sink := k' }) := hrun
    refine ⟨fun _ => ?_, fun printed => absurd hk'.nothing printed⟩
    rw [hbad]
    exact ⟨rfl, rfl, rfl, hk'.written.trans hk'.nothing.symm⟩
  · have hbad : bad = (.failed e, t) := hrun
    generalize hsink : t.sink = broken at hbreaks
    cases hbreaks with
    | @line q pos vs u beside _ err more hreaches hprints hbeside hfails houtput =>
      rw [hbeside.printLine] at hfails
      rw [hbeside.nothing, ByteArray.append_assoc] at houtput
      obtain ⟨herror, hwritten⟩ := Prod.mk.inj hfails
      refine ⟨fun nothing => ?_, fun _ => ?_⟩
      · -- a line is never empty
        have size := congrArg ByteArray.size (nothing.symm.trans houtput)
        have nonempty := Sink.lineBytes_nonempty (Builtin.printed vs)
        simp only [ByteArray.size_append] at size
        omega
      · refine ⟨q, pos, vs, u, more, hreaches, hprints, hbeside.nothing, houtput, ?_, ?_⟩
        · rw [hbad, hsink, ← hwritten]
        · rw [hbad, ← Option.some.inj herror]

/-- A sink that fails only cuts off what a run prints, whatever the budget of the run. If the room is
enough the run is as with a reliable sink, and otherwise it ends with an error of the sink, which holds
as much as there was room for. A sink that cannot be flushed lets the first line through. -/
theorem failing_sink_truncates (s : State) :
    let reliable := { s with sink := { s.sink with capacity := none, flushes := true } }
    let good := p.run limit budget reliable
    ∃ output, good.2.sink.written = s.sink.written ++ output ∧
      (∀ n, let capacity := some (s.sink.written.size + n)
        let bad := p.run limit budget { s with sink := { s.sink with capacity, flushes := true } }
        (output.size ≤ n → Agree bad good) ∧
        (n < output.size → bad.2.sink.written = s.sink.written ++ output.extract 0 n ∧
          ∃ e, bad.1 = .failed e ∧ e.report.kind = .output ∧
            e.fault = .sink (if s.sink.stalls then .stalled else .full))) ∧
      let bad := p.run limit budget
        { s with sink := { s.sink with capacity := none, flushes := false } }
      (output = .empty → Agree bad good) ∧
      (output ≠ .empty → ∃ q pos vs u more, Reaches limit (p.start reliable) q ∧
        Prints limit q pos vs u ∧ u.sink.written = s.sink.written ∧
        output = Sink.lineBytes (Builtin.printed vs) ++ more ∧
        bad.2.sink.written = s.sink.written ++ Sink.lineBytes (Builtin.printed vs) ∧
        ∃ e, bad.1 = .failed e ∧ e.report.kind = .output ∧ e = ⟨.sink .notFlushed, pos⟩) := by
  intro reliable good
  have isReliable : reliable.sink.Reliable := ⟨rfl, rfl⟩
  have follows := run_follows limit budget p (Sink.unflushed_beside .empty) reliable
  obtain ⟨output, grown⟩ := follows.grows
  have houtput : good.2.sink.written = s.sink.written ++ output := grown
  refine ⟨output, houtput, ?_, ?_⟩
  · intro n capacity bad
    have hlimits : Sink.Limits (s.sink.written.size + n) s.sink.stalls reliable.sink
        { s.sink with capacity, flushes := true } :=
      ⟨isReliable, Nat.le_add_right _ n, rfl, rfl, rfl, rfl⟩
    have hsize : good.2.sink.written.size = s.sink.written.size + output.size := by
      rw [houtput, ByteArray.size_append]
    obtain ⟨enough, short⟩ := run_limited limit budget p hlimits
    constructor
    · intro fits
      have hfits : good.2.sink.written.size ≤ s.sink.written.size + n := by omega
      exact enough hfits
    · intro exceeds
      have hexceeds : s.sink.written.size + n < good.2.sink.written.size := by omega
      obtain ⟨hwritten, e, hfails, hfault⟩ := short hexceeds
      refine ⟨?_, e, hfails, ?_, hfault⟩
      · rw [← Sink.extract_append_add, ← houtput]
        exact hwritten
      · rw [RuntimeError.report, hfault]
        rfl
  · intro bad
    have hunflushed : Sink.Unflushed s.sink.written reliable.sink
        { s.sink with capacity := none, flushes := false } :=
      ⟨isReliable, rfl, rfl, rfl, rfl⟩
    obtain ⟨silent, prints⟩ := run_unflushed limit budget p hunflushed
    constructor
    · intro hempty
      rw [hempty, ByteArray.append_empty] at houtput
      exact silent houtput
    · intro hsome
      have hprinted : good.2.sink.written ≠ s.sink.written := by
        rw [houtput]
        intro hsame
        exact hsome ((ByteArray.append_right_inj _).mp (hsame.trans ByteArray.append_empty.symm))
      obtain ⟨q, pos, vs, u, more, hreaches, hprints, hfirst, hline, hwritten, hfails⟩ :=
        prints hprinted
      refine ⟨q, pos, vs, u, more, hreaches, hprints, hfirst, ?_, hwritten, _, hfails, rfl, rfl⟩
      exact (ByteArray.append_right_inj _).mp (houtput.symm.trans hline)

/-- Of two lines that take five bytes a sink with room for four takes all but the last newline, and one
that cannot be flushed takes the first line. -/
theorem failing_sink_truncates_twoLines :
    let p : Program := [.expr (.call ⟨1, 1⟩ "print" [.literal ⟨1, 7⟩ (.text "ab")]),
      .expr (.call ⟨2, 1⟩ "print" [.literal ⟨2, 7⟩ (.text "c")])]
    let s : State := ⟨⟨⟨[("print", .builtin .print)]⟩, []⟩, 0, .unlimited⟩
    let cut := p.run 1 1 { s with sink := { s.sink with capacity := some 4 } }
    let unflushed := p.run 1 1 { s with sink := { s.sink with flushes := false } }
    (p.run 1 1 s).2.sink.written = "ab\nc\n".toUTF8 ∧
      cut.2.sink.written = "ab\nc".toUTF8 ∧ (∃ e, cut.1 = .failed e ∧ e.fault = .sink .full) ∧
      unflushed.2.sink.written = "ab\n".toUTF8 ∧ ∃ pos, unflushed.1 = .failed ⟨.sink .notFlushed, pos⟩ := by
  intro p s cut unflushed
  obtain ⟨output, houtput, hlimited, -, hunflushed⟩ := failing_sink_truncates 1 1 p s
  have hgood : (p.run 1 1 s).2.sink.written = "ab\nc\n".toUTF8 := by
    with_unfolding_all rfl
  have hempty : s.sink.written = .empty := rfl
  have hall : output = "ab\nc\n".toUTF8 := by
    rw [hempty, ByteArray.empty_append] at houtput
    exact houtput.symm.trans hgood
  have hexceeds : 4 < output.size := by
    rw [hall]
    decide
  obtain ⟨hwritten, e, hfails, -, hfault⟩ := (hlimited 4).2 hexceeds
  have hsome : output ≠ .empty := by
    rw [hall]
    decide
  obtain ⟨q, pos, vs, u, more, -, -, -, -, -, e', hfails', -, rfl⟩ := hunflushed hsome
  refine ⟨hgood, ?_, ⟨e, hfails, hfault⟩, ?_, pos, hfails'⟩
  · rw [hempty, ByteArray.empty_append, hall] at hwritten
    exact hwritten.trans (by decide)
  · with_unfolding_all rfl

end Program

end Abacus
