import Mathlib.Data.List.Forall2
import Mathlib.Data.Finset.Card
import Mathlib.Data.Finset.Dedup
import Abacus.Proofs.Counting

/-!
# The most common class

Scalars fall into classes by their keys, and a float that is no number is in a class of its own. The
elements of an array carry marks, so that such a float is told apart from the others. The marks move
along when the array is put in another order: the classes and their sizes stay, and only their first
members may change.
-/

namespace Abacus.Builtin

/-- The class of a scalar: its key, or its mark if it has no key. -/
inductive Tag where
  | key (k : ModeKey)
  | mark (i : Nat)
  deriving DecidableEq

def tag (p : Value × Nat) : Tag :=
  match ModeKey.of? p.1 with
  | some k => .key k
  | none => .mark p.2

def tags (vs : List Value) : List Tag := vs.zipIdx.map tag

def Leads (ts : List Tag) (t : Tag) : Prop :=
  t ∈ ts ∧ ∀ u ∈ ts, u ≠ t → ts.count u < ts.count t

instance (ts : List Tag) (t : Tag) : Decidable (Leads ts t) := inferInstanceAs (Decidable (_ ∧ _))

def leaders (ts : List Tag) : Finset Tag :=
  ts.toFinset.filter fun t => ∀ u ∈ ts, ts.count u ≤ ts.count t

section Tags

variable {p q : Value × Nat}

theorem tag_eq_key_iff {k : ModeKey} : tag p = .key k ↔ ModeKey.of? p.1 = some k := by
  rw [tag]
  split <;> simp_all

theorem tag_eq_mark_iff {i : Nat} : tag p = .mark i ↔ ModeKey.of? p.1 = none ∧ p.2 = i := by
  rw [tag]
  split <;> simp_all

theorem tag_eq_tag_iff :
    tag p = tag q ↔ (ModeKey.of? p.1 = none ∧ ModeKey.of? q.1 = none ∧ p.2 = q.2) ∨
      ∃ k, ModeKey.of? p.1 = some k ∧ ModeKey.of? q.1 = some k := by
  cases hq : ModeKey.of? q.1 with
  | none =>
    rw [tag_eq_mark_iff.mpr ⟨hq, rfl⟩, tag_eq_mark_iff]
    simp
  | some k =>
    rw [tag_eq_key_iff.mpr hq, tag_eq_key_iff]
    simp

theorem alike_iff_tag_eq (scalar : p.1.isCompound = false) (marks : q.2 ≠ p.2) :
    q.1.alike p.1 = true ↔ tag q = tag p := by
  rw [tag_eq_tag_iff]
  rcases key_cases p.1 with ⟨k, hk⟩ | ⟨x, hx, nan⟩ | compound
  · rw [alike_of_key hk]
    simp [hk]
  · rw [hx, alike_nan nan, of?_nan nan]
    simp [marks]
  · rw [compound] at scalar
    cases scalar

end Tags

section Counting

variable {equals : Value → Value → Bool} {v : Value} {us : List Tag} {t : Tag}
  {f : Tag → Value × Nat}

theorem countIn_map_of_mem (nodup : us.Nodup)
    (h : ∀ u ∈ us, (equals (f u).1 v = true ↔ u = t)) (ht : t ∈ us) :
    countIn equals (us.map f) v =
      us.map fun u => ((f u).1, (f u).2 + if u = t then 1 else 0) := by
  induction us with
  | nil => cases ht
  | cons u us ih =>
    obtain ⟨hu, hus⟩ := List.forall_mem_cons.mp h
    obtain ⟨new, nodup⟩ := List.nodup_cons.mp nodup
    rw [List.map_cons, List.map_cons, countIn]
    by_cases same : u = t
    · rw [if_pos (hu.mpr same), if_pos same]
      congr 1
      apply List.map_congr_left
      intro w hw
      have other : w ≠ t := fun hwt => new (same ▸ hwt ▸ hw)
      simp [other]
    · have later : t ∈ us := (List.mem_cons.mp ht).resolve_left fun h => same h.symm
      rw [if_neg (fun h => same (hu.mp h)), if_neg same, ih nodup hus later]
      rfl

theorem countIn_map_of_not_mem (h : ∀ u ∈ us, (equals (f u).1 v = true ↔ u = t)) (ht : t ∉ us) :
    countIn equals (us.map f) v = us.map f ++ [(v, 1)] := by
  apply countIn_of_new
  rw [List.findIdx?_eq_none_iff]
  intro w hw
  simp only [List.map_map, List.mem_map, Function.comp] at hw
  obtain ⟨u, hu, rfl⟩ := hw
  rw [Bool.eq_false_iff]
  intro equal
  exact ht ((h u hu).mp equal ▸ hu)

end Counting

section Classes

def entry (ps : List (Value × Nat)) (t : Tag) : Value × Nat :=
  (((ps.find? fun p => tag p = t).getD default).1, (ps.map tag).count t)

/-- The classes of marked elements in the order in which they are first seen. -/
structure Counted (ps : List (Value × Nat)) (us : List Tag) (classes : List (Value × Nat)) :
    Prop where
  nodup : us.Nodup
  mem_iff : ∀ t, t ∈ us ↔ t ∈ ps.map tag
  classes_eq : classes = us.map (entry ps)

variable {ps : List (Value × Nat)} {us : List Tag} {classes : List (Value × Nat)}
  {p : Value × Nat}

theorem find?_of_mem {t : Tag} (h : t ∈ ps.map tag) :
    ∃ q ∈ ps, tag q = t ∧ ps.find? (fun p => tag p = t) = some q := by
  cases found : ps.find? (fun p => tag p = t) with
  | none =>
    obtain ⟨q, hq, rfl⟩ := List.mem_map.mp h
    have absent := List.find?_eq_none.mp found q hq
    simp at absent
  | some q =>
    exact ⟨q, List.mem_of_find?_eq_some found, by simpa using List.find?_some found, rfl⟩

theorem entry_append_of_mem {t : Tag} (h : t ∈ ps.map tag) (p : Value × Nat) :
    entry (ps ++ [p]) t = ((entry ps t).1, (entry ps t).2 + if t = tag p then 1 else 0) := by
  obtain ⟨q, -, -, found⟩ := find?_of_mem h
  have one : [tag p].count t = if t = tag p then 1 else 0 := by
    simp only [List.count_singleton, beq_iff_eq, eq_comm (a := tag p)]
  simp only [entry, List.find?_append, found, Option.some_or, List.map_append, List.count_append,
    List.map_singleton, one]

theorem entry_append_of_not_mem (h : tag p ∉ ps.map tag) : entry (ps ++ [p]) (tag p) = (p.1, 1) := by
  have absent : ps.find? (fun q => tag q = tag p) = none := by
    rw [List.find?_eq_none]
    intro q hq same
    exact h (List.mem_map.mpr ⟨q, hq, by simpa using same⟩)
  simp [entry, List.find?_append, absent, List.count_eq_zero_of_not_mem h]

theorem Counted.step (h : Counted ps us classes) (scalar : p.1.isCompound = false)
    (new : p.2 ∉ ps.map Prod.snd) :
    ∃ us', Counted (ps ++ [p]) us' (countIn Value.alike classes p.1) := by
  have finds : ∀ u ∈ us, ((entry ps u).1.alike p.1 = true ↔ u = tag p) := by
    intro u hu
    obtain ⟨q, hq, rfl, found⟩ := find?_of_mem ((h.mem_iff u).mp hu)
    have marks : q.2 ≠ p.2 := fun same => new (same ▸ List.mem_map_of_mem hq)
    rw [entry, found]
    exact alike_iff_tag_eq scalar marks
  have kept : ∀ u ∈ us, entry (ps ++ [p]) u =
      ((entry ps u).1, (entry ps u).2 + if u = tag p then 1 else 0) :=
    fun u hu => entry_append_of_mem ((h.mem_iff u).mp hu) p
  rw [h.classes_eq]
  by_cases known : tag p ∈ us
  · refine ⟨us, h.nodup, fun t => ?_, ?_⟩
    · rw [h.mem_iff, List.map_append, List.mem_append, List.map_singleton, List.mem_singleton]
      exact ⟨.inl, fun ht => ht.elim id fun same => same ▸ (h.mem_iff _).mp known⟩
    · rw [countIn_map_of_mem h.nodup finds known]
      exact (List.map_congr_left kept).symm
  · refine ⟨us ++ [tag p], ?_, fun t => ?_, ?_⟩
    · rw [← List.concat_eq_append]
      exact h.nodup.concat known
    · rw [List.mem_append, h.mem_iff, List.map_append, List.mem_append, List.map_singleton]
    · rw [countIn_map_of_not_mem finds known, List.map_append, List.map_singleton,
        entry_append_of_not_mem fun ht => known ((h.mem_iff _).mpr ht)]
      congr 1
      apply List.map_congr_left
      intro u hu
      have other : u ≠ tag p := fun same => known (same ▸ hu)
      simp [kept u hu, other]

theorem exists_counted (distinct : (ps.map Prod.snd).Nodup)
    (scalars : ∀ p ∈ ps, p.1.isCompound = false) :
    ∃ us, Counted ps us ((ps.map Prod.fst).foldl (countIn Value.alike) []) := by
  induction ps using List.reverseRecOn with
  | nil => exact ⟨[], List.nodup_nil, by simp, rfl⟩
  | append_singleton ps p ih =>
    rw [List.map_append, List.map_singleton, List.nodup_append] at distinct
    obtain ⟨us, counted⟩ := ih distinct.1 fun q hq => scalars q (List.mem_append_left _ hq)
    rw [List.map_append, List.map_singleton, List.foldl_append]
    apply counted.step (scalars p (by simp))
    intro seen
    exact distinct.2.2 _ seen _ (List.mem_singleton_self _) rfl

end Classes

section Leading

variable {ps : List (Value × Nat)} {us ts : List Tag} {classes : List (Value × Nat)} {t : Tag}

theorem leads_iff : Leads ts t ↔ leaders ts = {t} := by
  have mem_leaders (u : Tag) : u ∈ leaders ts ↔ u ∈ ts ∧ ∀ w ∈ ts, ts.count w ≤ ts.count u := by
    simp [leaders]
  constructor
  · rintro ⟨ht, less⟩
    ext u
    rw [mem_leaders, Finset.mem_singleton]
    constructor
    · rintro ⟨hu, most⟩
      by_contra other
      exact absurd (most t ht) (less u hu other).not_ge
    · rintro rfl
      refine ⟨ht, fun w hw => ?_⟩
      by_cases same : w = u
      · rw [same]
      · exact (less w hw same).le
  · intro only
    obtain ⟨ht, most⟩ := (mem_leaders t).mp (only ▸ Finset.mem_singleton_self t)
    refine ⟨ht, fun u hu other => lt_of_le_of_ne (most u hu) fun same => other ?_⟩
    have leads : u ∈ leaders ts := (mem_leaders u).mpr ⟨hu, same ▸ most⟩
    rw [only] at leads
    exact Finset.mem_singleton.mp leads

theorem foldl_max_spec (classes : List (Value × Nat)) (n : Nat) :
    n ≤ classes.foldl (fun n c => Nat.max n c.2) n ∧
      (∀ c ∈ classes, c.2 ≤ classes.foldl (fun n c => Nat.max n c.2) n) ∧
      (classes.foldl (fun n c => Nat.max n c.2) n = n ∨
        ∃ c ∈ classes, c.2 = classes.foldl (fun n c => Nat.max n c.2) n) := by
  induction classes generalizing n with
  | nil => simp
  | cons c classes ih =>
    obtain ⟨start, bound, attained⟩ := ih (Nat.max n c.2)
    rw [List.foldl_cons]
    refine ⟨(Nat.le_max_left _ _).trans start, ?_, ?_⟩
    · exact List.forall_mem_cons.mpr ⟨(Nat.le_max_right _ _).trans start, bound⟩
    · rcases attained with same | ⟨d, hd, size⟩
      · rw [same]
        rcases Nat.le_total n c.2 with le | le
        · exact .inr ⟨c, List.mem_cons_self, (Nat.max_eq_right le).symm⟩
        · exact .inl (Nat.max_eq_left le)
      · exact .inr ⟨d, List.mem_cons_of_mem _ hd, size⟩

theorem Counted.size_eq_iff (h : Counted ps us classes) (ht : t ∈ us) :
    (entry ps t).2 = classes.foldl (fun n c => Nat.max n c.2) 0 ↔
      ∀ u ∈ ps.map tag, (ps.map tag).count u ≤ (ps.map tag).count t := by
  obtain ⟨-, bound, attained⟩ := foldl_max_spec classes 0
  generalize classes.foldl (fun n c => Nat.max n c.2) 0 = size at *
  have mem {u : Tag} (hu : u ∈ us) : entry ps u ∈ classes := h.classes_eq ▸ List.mem_map_of_mem hu
  constructor
  · intro most u hu
    calc (entry ps u).2 ≤ size := bound _ (mem ((h.mem_iff u).mpr hu))
      _ = (entry ps t).2 := most.symm
  · intro most
    apply le_antisymm (bound _ (mem ht))
    rcases attained with rfl | ⟨c, hc, rfl⟩
    · exact Nat.zero_le _
    · rw [h.classes_eq] at hc
      obtain ⟨u, hu, rfl⟩ := List.mem_map.mp hc
      exact most u ((h.mem_iff u).mp hu)

theorem Counted.largest_eq (h : Counted ps us classes) :
    ∃ winners : List Tag, winners.Nodup ∧ winners.toFinset = leaders (ps.map tag) ∧
      largest classes =
        match winners with
        | [t] => .ok (entry ps t).1
        | tied => .error (.noMode tied.length) := by
  refine ⟨us.filter fun t => (entry ps t).2 = classes.foldl (fun n c => Nat.max n c.2) 0,
    h.nodup.filter _, ?_, ?_⟩
  · ext t
    simp only [leaders, List.mem_toFinset, List.mem_filter, decide_eq_true_eq, Finset.mem_filter,
      ← h.mem_iff t]
    exact and_congr_right h.size_eq_iff
  · have filtered (size : Nat) : classes.filter (·.2 = size) =
        (us.filter fun t => (entry ps t).2 = size).map (entry ps) := by
      rw [h.classes_eq, List.filter_map]
      rfl
    rw [largest]
    simp only [filtered]
    rcases us.filter _ with _ | ⟨t, _ | ⟨u, rest⟩⟩
    · rfl
    · rfl
    · simp

theorem Counted.largest_of_leads (h : Counted ps us classes) (leads : Leads (ps.map tag) t) :
    largest classes = .ok (entry ps t).1 := by
  obtain ⟨winners, nodup, members, answer⟩ := h.largest_eq
  rw [leads_iff.mp leads] at members
  have single : winners = [t] := by
    have one : winners.length = 1 := by
      rw [← List.toFinset_card_of_nodup nodup, members, Finset.card_singleton]
    obtain ⟨u, rfl⟩ := List.length_eq_one_iff.mp one
    simpa using members
  rw [answer, single]

theorem Counted.largest_of_tied (h : Counted ps us classes) (tied : ∀ t, ¬ Leads (ps.map tag) t) :
    largest classes = .error (.noMode (leaders (ps.map tag)).card) := by
  obtain ⟨winners, nodup, members, answer⟩ := h.largest_eq
  rw [answer, ← members, List.toFinset_card_of_nodup nodup]
  split
  · rename_i t
    exact absurd (leads_iff.mpr (by simpa using members.symm)) (tied t)
  · rfl

end Leading

section Marked

variable {ps qs : List (Value × Nat)} {t : Tag}

/-- The elements are scalars, and no two of them have the same mark. -/
structure Marked (ps : List (Value × Nat)) : Prop where
  distinct : (ps.map Prod.snd).Nodup
  scalars : ∀ p ∈ ps, p.1.isCompound = false

theorem Marked.mode_eq_largest (h : Marked ps) (nonempty : ps ≠ []) :
    ∃ us classes, Counted ps us classes ∧
      mode.compute [.array (ps.map Prod.fst)] = largest classes := by
  obtain ⟨us, counted⟩ := exists_counted h.distinct h.scalars
  exact ⟨us, _, counted, mode_eq_plainMode (by simpa using nonempty)⟩

theorem Marked.mode_of_leads (h : Marked ps) (leads : Leads (ps.map tag) t) :
    ∃ p ∈ ps, tag p = t ∧ ps.find? (fun p => tag p = t) = some p ∧
      mode.compute [.array (ps.map Prod.fst)] = .ok p.1 := by
  have nonempty : ps ≠ [] := by
    rintro rfl
    cases leads.1
  obtain ⟨us, classes, counted, answer⟩ := h.mode_eq_largest nonempty
  obtain ⟨p, hp, htag, found⟩ := find?_of_mem leads.1
  refine ⟨p, hp, htag, found, ?_⟩
  rw [answer, counted.largest_of_leads leads, entry, found]
  rfl

theorem Marked.mode_of_tied (h : Marked ps) (nonempty : ps ≠ [])
    (tied : ∀ t, ¬ Leads (ps.map tag) t) :
    mode.compute [.array (ps.map Prod.fst)] = .error (.noMode (leaders (ps.map tag)).card) := by
  obtain ⟨us, classes, counted, answer⟩ := h.mode_eq_largest nonempty
  rw [answer, counted.largest_of_tied tied]

theorem Marked.perm (h : Marked ps) (perm : qs.Perm ps) : Marked qs :=
  ⟨(perm.map Prod.snd).nodup_iff.mpr h.distinct, fun p hp => h.scalars p (perm.mem_iff.mp hp)⟩

theorem leads_perm {ts us : List Tag} (perm : us.Perm ts) : Leads us t ↔ Leads ts t := by
  simp only [Leads, perm.mem_iff, perm.count_eq]

theorem leaders_perm {ts us : List Tag} (perm : us.Perm ts) : leaders us = leaders ts := by
  simp only [leaders, perm.mem_iff, perm.count_eq, List.toFinset_eq_of_perm _ _ perm]

theorem Marked.alike {p q : Value × Nat} (h : Marked ps) (hp : p ∈ ps) (hq : q ∈ ps)
    (same : tag p = tag q) :
    p.1 = q.1 ∨ ∃ key, ModeKey.of? p.1 = some key ∧ ModeKey.of? q.1 = some key := by
  rcases tag_eq_tag_iff.mp same with ⟨-, -, marks⟩ | keys
  · left
    rw [List.inj_on_of_nodup_map h.distinct hp hq marks]
  · exact .inr keys

/-- The order of the elements does not matter, except for which member of the class comes first. -/
theorem Marked.mode_perm (h : Marked ps) (nonempty : ps ≠ []) (perm : qs.Perm ps) :
    (∃ f, mode.compute [.array (ps.map Prod.fst)] = .error f ∧
        mode.compute [.array (qs.map Prod.fst)] = .error f) ∨
      ∃ v w, mode.compute [.array (ps.map Prod.fst)] = .ok v ∧
        mode.compute [.array (qs.map Prod.fst)] = .ok w ∧
        (v = w ∨ ∃ key, ModeKey.of? v = some key ∧ ModeKey.of? w = some key) := by
  have h' : Marked qs := h.perm perm
  have tags : (qs.map tag).Perm (ps.map tag) := perm.map tag
  by_cases leads : ∃ t, Leads (ps.map tag) t
  · obtain ⟨t, leads⟩ := leads
    obtain ⟨p, hp, ptag, -, answer⟩ := h.mode_of_leads leads
    obtain ⟨q, hq, qtag, -, answer'⟩ := h'.mode_of_leads ((leads_perm tags).mpr leads)
    exact .inr ⟨_, _, answer, answer',
      h.alike hp (perm.mem_iff.mp hq) (ptag.trans qtag.symm)⟩
  · push Not at leads
    have nonempty' : qs ≠ [] := fun empty => nonempty (List.nil_perm.mp (empty ▸ perm))
    refine .inl ⟨_, h.mode_of_tied nonempty leads, ?_⟩
    rw [h'.mode_of_tied nonempty' fun t => mt (leads_perm tags).mp (leads t), leaders_perm tags]

theorem marked_zipIdx {vs : List Value} (scalars : ∀ v ∈ vs, v.isCompound = false) :
    Marked vs.zipIdx := by
  constructor
  · rw [List.zipIdx_map_snd]
    exact List.nodup_range'
  · intro p hp
    exact scalars p.1 (List.fst_mem_of_mem_zipIdx hp)

end Marked

section Mode

variable {vs ws : List Value}

theorem exists_marks_of_perm (h : ws.Perm vs) :
    ∃ qs : List (Value × Nat), ws = qs.map Prod.fst ∧ qs.Perm vs.zipIdx := by
  have moved : Relation.Comp (fun us qs => us = qs.map Prod.fst) List.Perm ws vs.zipIdx := by
    rw [List.eq_map_comp_perm]
    change ws.Perm (vs.zipIdx.map Prod.fst)
    rw [List.zipIdx_map_fst]
    exact h
  exact moved

theorem tags_eq_iff {i j : Nat} (hi : i < vs.length) (hj : j < vs.length) :
    (tags vs)[i]? = (tags vs)[j]? ↔
      i = j ∨ ∃ key, ModeKey.of? vs[i] = some key ∧ ModeKey.of? vs[j] = some key := by
  have place {k : Nat} (hk : k < vs.length) : (tags vs)[k]? = some (tag (vs[k], k)) := by
    simp [tags, hk]
  rw [place hi, place hj, Option.some_inj, tag_eq_tag_iff]
  constructor
  · rintro (⟨-, -, same⟩ | keys)
    · exact .inl same
    · exact .inr keys
  · rintro (rfl | keys)
    · exact tag_eq_tag_iff.mp rfl
    · exact .inr keys

theorem mode_of_scalars (vs : List Value) (nonempty : vs ≠ [])
    (scalars : ∀ v ∈ vs, v.isCompound = false) :
    (∀ i j (hi : i < vs.length) (hj : j < vs.length), (tags vs)[i]? = (tags vs)[j]? ↔
        i = j ∨ ∃ key, ModeKey.of? vs[i] = some key ∧ ModeKey.of? vs[j] = some key) ∧
      (∀ v, mode.compute [.array vs] = .ok v ↔
        ∃ t, Leads (tags vs) t ∧ (vs.zipIdx.find? fun p => tag p = t).map Prod.fst = some v) ∧
      ((∀ t, ¬ Leads (tags vs) t) → ∃ f, mode.compute [.array vs] = .error f ∧
        f.kind = .aggregation ∧
        f.message = s!"no unique mode; found {(leaders (tags vs)).card} equally common values") ∧
      ∀ ws, ws.Perm vs →
        (∃ f, mode.compute [.array vs] = .error f ∧ mode.compute [.array ws] = .error f) ∨
          ∃ v w, mode.compute [.array vs] = .ok v ∧ mode.compute [.array ws] = .ok w ∧
            (v = w ∨ ∃ key, ModeKey.of? v = some key ∧ ModeKey.of? w = some key) := by
  have marked : Marked vs.zipIdx := marked_zipIdx scalars
  have unmark : vs.zipIdx.map Prod.fst = vs := List.zipIdx_map_fst 0 vs
  have nonempty' : vs.zipIdx ≠ [] := by simpa using nonempty
  have tied (h : ∀ t, ¬ Leads (tags vs) t) := marked.mode_of_tied nonempty' h
  rw [unmark] at tied
  refine ⟨fun i j hi hj => tags_eq_iff hi hj, fun v => ⟨?_, ?_⟩, ?_, ?_⟩
  · intro answer
    by_cases leads : ∃ t, Leads (tags vs) t
    · obtain ⟨t, leads⟩ := leads
      obtain ⟨p, -, -, found, answer'⟩ := marked.mode_of_leads leads
      rw [unmark, answer] at answer'
      cases answer'
      exact ⟨t, leads, by rw [found]; rfl⟩
    · push Not at leads
      cases answer.symm.trans (tied leads)
  · rintro ⟨t, leads, first⟩
    obtain ⟨p, -, -, found, answer⟩ := marked.mode_of_leads leads
    rw [found] at first
    cases first
    rw [unmark] at answer
    exact answer
  · exact fun h => ⟨_, tied h, rfl, rfl⟩
  · intro ws perm
    obtain ⟨qs, rfl, moved⟩ := exists_marks_of_perm perm
    have results := marked.mode_perm nonempty' moved
    rw [unmark] at results
    exact results

/-- An integer and its float are in one class, two NaNs with the same bits are not. -/
theorem mode_of_scalars_nan :
    mode.compute [.array [.float ⟨0x7FF8000000000000⟩, .int 1, .float ⟨0x7FF8000000000000⟩,
      .float ⟨0x3FF0000000000000⟩, .text "a"]] = .ok (.int 1) := by
  obtain ⟨-, succeeds, -, -⟩ := mode_of_scalars
    [.float ⟨0x7FF8000000000000⟩, .int 1, .float ⟨0x7FF8000000000000⟩,
      .float ⟨0x3FF0000000000000⟩, .text "a"] (by simp) (by simp [Value.isCompound])
  exact (succeeds (.int 1)).mpr ⟨.key (.int 1), by decide +kernel, rfl⟩

end Mode

end Abacus.Builtin
