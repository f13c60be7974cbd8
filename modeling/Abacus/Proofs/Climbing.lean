import Abacus.Proofs.Cursor
import Abacus.Proofs.Precedence
import Abacus.Proofs.Shape
import Mathlib.Data.List.TakeWhile

/-!
# Climbing the levels of precedence

The tree of a chain can be built from the left: the first connective takes as its right operand what
follows of a tighter level, and what it joins is the first operand of a shorter chain. So an expression
can be read without a list of its links. The links of a tighter level come first, and those that the
looser level adds are read from where they stop.
-/

namespace Abacus

namespace Connective

theorem operandLevel_cases (link : Connective) :
    (link.level = 8 ∧ link.operandLevel = 8) ∨
      (link.level ≤ 7 ∧ link.operandLevel = link.level + 1) := by
  cases link with
  | range => decide
  | op o => cases o <;> decide

theorem level_le_operandLevel (link : Connective) : link.level ≤ link.operandLevel := by
  rcases link.operandLevel_cases with ⟨_, h⟩ | ⟨_, h⟩ <;> omega

end Connective

namespace Chain

variable {level m k : Nat} {f e : Expr} {link : Connective} {ls rs : List (Connective × Expr)}

def untilLevel (level : Nat) (links : List (Connective × Expr)) : List (Connective × Expr) :=
  links.takeWhile (·.1.level ≠ level)

theorem split_fst (level : Nat) (f : Expr) (links : List (Connective × Expr)) :
    (split level ⟨f, links⟩).1 = ⟨f, untilLevel level links⟩ := by
  induction links generalizing f with
  | nil => rfl
  | cons l links ih =>
    by_cases hl : l.1.level = level
    · rw [split_cons_eq hl]
      simp [untilLevel, hl]
    · rw [split_cons_ne hl, ih]
      simp [untilLevel, hl]

theorem split_snd_append (h : ∀ l ∈ ls, l.1.level ≠ level) (f g : Expr) :
    (split level ⟨f, ls ++ rs⟩).2 = (split level ⟨g, rs⟩).2 := by
  induction ls generalizing f with
  | nil => rfl
  | cons l ls ih =>
    obtain ⟨hl, hls⟩ := List.forall_mem_cons.mp h
    rw [List.cons_append, split_cons_ne hl, ih hls]

theorem untilLevel_append (h : ∀ l ∈ ls, l.1.level ≠ level) :
    untilLevel level (ls ++ rs) = ls ++ untilLevel level rs :=
  List.takeWhile_append_of_pos (by simpa using h)

theorem treeOf_nil (n : Nat) (f : Expr) : treeOf n ⟨f, []⟩ = f := by
  induction n with
  | zero => rfl
  | succ n ih =>
    rw [treeOf, split_of_forall_ne (by simp)]
    simp [ih, joinLeft, joinRight]

theorem treeOf_level (hm : m ≤ 7) (c : Chain) :
    treeOf (9 - m) c = joinLeft (treeOf (9 - (m + 1)) (c.split m).1)
      ((c.split m).2.map fun p => (p.1, treeOf (9 - (m + 1)) p.2)) := by
  rw [show 9 - m = 9 - (m + 1) + 1 by omega, treeOf, show 8 - (9 - (m + 1)) = m by omega]
  exact if_neg (by omega)

theorem treeOf_first (hm : link.level ≤ 7) (hls : ∀ l ∈ ls, link.level < l.1.level)
    (hhead : ∀ l ∈ rs.head?, l.1.level = link.level) :
    treeOf (9 - link.level) ⟨f, (link, e) :: (ls ++ rs)⟩ =
      treeOf (9 - link.level) ⟨link.join f (treeOf (9 - (link.level + 1)) ⟨e, ls⟩), rs⟩ := by
  have hne : ∀ l ∈ ls, l.1.level ≠ link.level := fun l hl => Nat.ne_of_gt (hls l hl)
  have huntil : untilLevel link.level rs = [] := by
    cases rs with
    | nil => rfl
    | cons r rs => simp [untilLevel, hhead r rfl]
  rw [treeOf_level hm, treeOf_level hm, split_cons_eq rfl, split_fst, split_fst,
    untilLevel_append hne, huntil, List.append_nil, treeOf_nil, treeOf_nil,
    split_snd_append hne e (link.join f (treeOf (9 - (link.level + 1)) ⟨e, ls⟩))]
  rfl

/-- The first connective of a chain joins the first operand and what follows of a tighter level, also in
a chain that goes on with looser connectives. -/
theorem treeOf_climb (hlevel : m ≤ link.level) (hls : ∀ l ∈ ls, link.operandLevel ≤ l.1.level)
    (hrs : ∀ l ∈ rs, m ≤ l.1.level) (hhead : ∀ l ∈ rs.head?, l.1.level < link.operandLevel) :
    treeOf (9 - m) ⟨f, (link, e) :: (ls ++ rs)⟩ =
      treeOf (9 - m) ⟨link.join f (treeOf (9 - link.operandLevel) ⟨e, ls⟩), rs⟩ := by
  -- a looser level than that of the connective cuts both chains behind what is joined
  induction hd : link.level - m generalizing m rs with
  | zero =>
    obtain rfl : link.level = m := by omega
    rcases link.operandLevel_cases with ⟨h8, hk⟩ | ⟨h7, hk⟩
    · obtain rfl : rs = [] := by
        cases rs with
        | nil => rfl
        | cons r rs =>
          have := hrs r (by simp)
          have := hhead r rfl
          omega
      have hls8 : ∀ l ∈ ls, l.1.level = 8 := fun l hl => by
        have := hls l hl
        have := l.1.level_le
        omega
      have hall : ∀ l ∈ (link, e) :: ls, l.1.level = 8 := List.forall_mem_cons.mpr ⟨h8, hls8⟩
      rw [h8, hk, List.append_nil, treeOf_nil, treeOf_one hall, joinRight_cons, treeOf_one hls8]
    · rw [hk] at hls hhead ⊢
      refine treeOf_first h7 hls fun l hl => ?_
      have := hrs l (List.mem_of_mem_head? hl)
      have := hhead l hl
      omega
  | succ d ih =>
    have hm7 : m ≤ 7 := by
      have := link.level_le
      omega
    have hlink : link.level ≠ m := by omega
    have hne : ∀ l ∈ (link, e) :: ls, l.1.level ≠ m := by
      refine List.forall_mem_cons.mpr ⟨hlink, fun l hl => ?_⟩
      have := hls l hl
      have := link.level_le_operandLevel
      omega
    have hrs' : ∀ l ∈ untilLevel m rs, m + 1 ≤ l.1.level := fun l hl => by
      have := hrs l (List.takeWhile_subset _ hl)
      have : l.1.level ≠ m := by simpa using List.mem_takeWhile_imp hl
      omega
    have hhead' : ∀ l ∈ (untilLevel m rs).head?, l.1.level < link.operandLevel := by
      cases rs with
      | nil => simp [untilLevel]
      | cons r rs =>
        by_cases hr : r.1.level = m
        · simp [untilLevel, hr]
        · simpa [untilLevel, hr] using hhead
    rw [treeOf_level hm7, treeOf_level hm7, ← List.cons_append, split_fst, split_fst,
      untilLevel_append hne, split_snd_append hne f (link.join f _), List.cons_append,
      ih (by omega) hrs' hhead' (by omega)]

end Chain

theorem Grammar.kind_of_range {k : Token.Kind} (h : Parser.connective? k = some .range) :
    k = .dotDot := by
  rcases Grammar.connective_cases h with ⟨hk, -⟩ | ⟨-, h⟩ | ⟨_, h, -⟩
  · exact hk
  · cases h
  · cases h

namespace Parser

open Grammar (ahead kind_of_range level_eq_five_iff afterLink_of_lt afterLink_of_gt)

def Reading.out {origin : List Token} {α : Type} (r : Reading origin α) : α × List Token :=
  (r.value, r.rest)

/-- Whether what follows cannot be linked at a level, or at a tighter one. -/
def Looser (level : Nat) (ts : List Token) : Prop :=
  ∀ link, (ahead ts).bind connective? = some link → link.level < level

/-- The connectives of a level or tighter with their operands, and the tokens after them. -/
def linksAbove (stop : Position) (level : Nat) (ranged : Bool) (ts : List Token) :
    Except SyntaxError (List (Connective × Expr) × List Token) :=
  match ts with
  | [] => .ok ([], [])
  | t :: rest =>
    match connective? t.kind with
    | none => .ok ([], t :: rest)
    | some link =>
      if link.level < level then .ok ([], t :: rest)
      else if link = .range ∧ ranged then .error ⟨.chained t.kind, t.pos⟩
      else do
        let ⟨e, rest', _⟩ ← operand stop [] rest rest (Nat.le_refl _)
        let (ls, after) ← linksAbove stop level (afterLink ranged link) rest'
        return ((link, e) :: ls, after)
termination_by ts.length
decreasing_by grind

def climbed (stop : Position) (level : Nat) (left : Expr) (ts : List Token) :
    Except SyntaxError (Expr × List Token) :=
  (linksAbove stop level false ts).map fun p => (Chain.treeOf (9 - level) ⟨left, p.1⟩, p.2)

section Links

variable {stop : Position} {m k : Nat} {ranged : Bool} {ts : List Token}

theorem looser_cons {t : Token} :
    Looser m (t :: ts) ↔ ∀ link, connective? t.kind = some link → link.level < m := Iff.rfl

theorem looser_or (m : Nat) (ts : List Token) :
    Looser m ts ∨ ∃ t us link, ts = t :: us ∧ connective? t.kind = some link ∧ m ≤ link.level := by
  cases ts with
  | nil => exact .inl fun _ h => by cases h
  | cons t ts =>
    rcases Classical.em (Looser m (t :: ts)) with h | h
    · exact .inl h
    · simp only [looser_cons, not_forall, Nat.not_lt] at h
      obtain ⟨link, ht, hm⟩ := h
      exact .inr ⟨t, ts, link, rfl, ht, hm⟩

/-- Induction on the links of a level: nothing is linked at it, or what is proved holds after the
connective. -/
@[elab_as_elim]
theorem links_induction {motive : List Token → Prop} (m : Nat) (ts : List Token)
    (looser : ∀ ts, Looser m ts → motive ts)
    (linked : ∀ t ts link, connective? t.kind = some link → m ≤ link.level →
      (∀ us : List Token, us.length < ts.length → motive us) → motive (t :: ts)) : motive ts := by
  induction hn : ts.length using Nat.strongRecOn generalizing ts with
  | ind n ih =>
    rcases looser_or m ts with h | ⟨t, us, link, rfl, ht, hm⟩
    · exact looser ts h
    · rw [List.length_cons] at hn
      exact linked t us link ht hm fun vs hvs => ih vs.length (by omega) vs rfl

theorem linksAbove_looser (h : Looser m ts) : linksAbove stop m ranged ts = .ok ([], ts) := by
  cases ts with
  | nil => rw [linksAbove]
  | cons t ts =>
    rw [linksAbove]
    rcases ht : connective? t.kind with _ | link
    · rfl
    · exact if_pos (h link ht)

theorem linksAbove_cons {t : Token} {link : Connective} (ht : connective? t.kind = some link)
    (hm : m ≤ link.level) :
    linksAbove stop m ranged (t :: ts) =
      if link = .range ∧ ranged then .error ⟨.chained t.kind, t.pos⟩
      else operand stop [] ts ts (Nat.le_refl _) >>= fun r =>
        (linksAbove stop m (afterLink ranged link) r.rest).map fun p =>
          ((link, r.value) :: p.1, p.2) := by
  rw [linksAbove, ht]
  simp only [if_neg (Nat.not_lt_of_le hm)]
  rfl

theorem of_linksAbove {links : List (Connective × Expr)} {rest : List Token}
    (h : linksAbove stop m ranged ts = .ok (links, rest)) :
    rest.length ≤ ts.length ∧ Looser m rest ∧ (∀ l ∈ links, m ≤ l.1.level) ∧
      ∀ k, Looser k ts → ∀ l ∈ links.head?, l.1.level < k := by
  induction ts using links_induction m generalizing ranged links rest with
  | looser ts hm =>
    rw [linksAbove_looser hm] at h
    cases h
    exact ⟨Nat.le_refl _, hm, by simp, by simp⟩
  | linked t ts link ht hm ih =>
    rw [linksAbove_cons ht hm] at h
    split_ifs at h
    rcases ho : operand stop [] ts ts (Nat.le_refl _) with e | r <;> rw [ho] at h
    · cases h
    simp only [bind, Except.bind] at h
    rcases hl : linksAbove stop m (afterLink ranged link) r.rest with e | ⟨ls, after⟩ <;> rw [hl] at h
    · cases h
    cases h
    obtain ⟨hlen, hafter, hls, -⟩ := ih r.rest r.shorter hl
    have hshort : after.length ≤ (t :: ts).length := by
      have := r.shorter
      rw [List.length_cons]
      omega
    refine ⟨hshort, hafter, List.forall_mem_cons.mpr ⟨hm, hls⟩, fun k hk l hl => ?_⟩
    obtain rfl : (link, r.value) = l := by simpa using hl
    exact hk link ht

theorem linksAbove_begun (h : Looser 5 ts) :
    linksAbove stop m ranged ts = linksAbove stop m false ts := by
  rcases looser_or m ts with hm | ⟨t, us, link, rfl, ht, hm⟩
  · rw [linksAbove_looser hm, linksAbove_looser hm]
  · have h5 : link.level < 5 := h link ht
    have hrange : link ≠ .range := mt level_eq_five_iff.mpr (Nat.ne_of_lt h5)
    rw [linksAbove_cons ht hm, linksAbove_cons ht hm, afterLink_of_lt h5, afterLink_of_lt h5]
    simp [hrange]

theorem linksAbove_unranged (hm : 5 < m) :
    linksAbove stop m ranged ts = linksAbove stop m false ts := by
  induction ts using links_induction m with
  | looser ts h => rw [linksAbove_looser h, linksAbove_looser h]
  | linked t ts link ht hlevel ih =>
    have h5 : 5 < link.level := Nat.lt_of_lt_of_le hm hlevel
    have hrange : link ≠ .range := mt level_eq_five_iff.mpr (Nat.ne_of_gt h5)
    rw [linksAbove_cons ht hlevel, linksAbove_cons ht hlevel, afterLink_of_gt h5, afterLink_of_gt h5]
    simp only [hrange, false_and, if_false]
    congr 1
    funext r
    rw [ih r.rest r.shorter]

theorem linksAbove_split (hmk : m ≤ k) :
    linksAbove stop m ranged ts = linksAbove stop k ranged ts >>= fun p =>
      (linksAbove stop m (p.1.foldl (fun r l => afterLink r l.1) ranged) p.2).map
        fun q => (p.1 ++ q.1, q.2) := by
  induction ts using links_induction k generalizing ranged with
  | looser ts hk =>
    rw [linksAbove_looser hk]
    rcases hl : linksAbove stop m ranged ts with e | q <;> simp [bind, Except.bind, hl, Except.map]
  | linked t ts link ht hk ih =>
    rw [linksAbove_cons ht hk, linksAbove_cons ht (Nat.le_trans hmk hk)]
    split_ifs
    · rfl
    rw [bind_assoc]
    congr 1
    funext r
    rw [ih r.rest r.shorter]
    rcases linksAbove stop k (afterLink ranged link) r.rest with e | p
    · rfl
    simp only [bind, Except.bind, Except.map, List.foldl_cons]
    rcases linksAbove stop m _ p.2 with e | q <;> rfl

theorem foldl_afterLink {links : List (Connective × Expr)} (h : ∀ l ∈ links, 5 < l.1.level) :
    links.foldl (fun r l => afterLink r l.1) ranged = ranged := by
  induction links with
  | nil => rfl
  | cons l links ih =>
    obtain ⟨hl, hlinks⟩ := List.forall_mem_cons.mp h
    rw [List.foldl_cons, afterLink_of_gt hl, ih hlinks]

theorem linksAbove_operand (link : Connective) :
    linksAbove stop link.operandLevel (afterLink false link) ts =
      linksAbove stop link.operandLevel false ts := by
  rcases Nat.lt_or_ge link.level 5 with h5 | h5
  · rw [afterLink_of_lt h5]
  · refine linksAbove_unranged ?_
    rcases link.operandLevel_cases with ⟨_, _⟩ | ⟨_, _⟩ <;> omega

theorem linksAbove_rest {link : Connective} {links : List (Connective × Expr)}
    (hm : m ≤ link.level) (hloose : Looser link.operandLevel ts)
    (hlinks : ∀ l ∈ links, link.operandLevel ≤ l.1.level) :
    linksAbove stop m (links.foldl (fun r l => afterLink r l.1) (afterLink false link)) ts =
      if link = .range ∧ (ahead ts).bind connective? = some .range then
        .error ⟨.chained .dotDot, (peek stop ts).pos⟩
      else linksAbove stop m false ts := by
  rcases looser_or 5 ts with hts | ⟨t, us, next, rfl, ht, hnext⟩
  · rw [linksAbove_begun hts, if_neg]
    rintro ⟨-, hnext⟩
    exact absurd (hts _ hnext) (by decide)
  · have hlt : next.level < link.operandLevel := hloose next ht
    have hlink : 5 ≤ link.level ∧ 5 < link.operandLevel ∧ link.operandLevel ≤ link.level + 1 := by
      rcases link.operandLevel_cases with ⟨_, _⟩ | ⟨_, _⟩ <;> omega
    rw [foldl_afterLink fun l hl => Nat.lt_of_lt_of_le hlink.2.1 (hlinks l hl)]
    rcases Nat.eq_or_lt_of_le hlink.1 with h5 | h5
    · obtain rfl := level_eq_five_iff.mp h5.symm
      obtain rfl := level_eq_five_iff.mp (show next.level = 5 by omega)
      rw [linksAbove_cons ht hm, if_pos (by decide), if_pos ⟨rfl, ht⟩, kind_of_range ht]
      rfl
    · rw [afterLink_of_gt h5, if_neg]
      rintro ⟨rfl, -⟩
      exact absurd h5 (by decide)

theorem climbed_cons {t : Token} {link : Connective} {left : Expr}
    (ht : connective? t.kind = some link) (hm : m ≤ link.level) :
    climbed stop m left (t :: ts) = operand stop [] ts ts (Nat.le_refl _) >>= fun r =>
      climbed stop link.operandLevel r.value r.rest >>= fun p =>
        if link = .range ∧ (ahead p.2).bind connective? = some .range then
          .error ⟨.chained .dotDot, (peek stop p.2).pos⟩
        else climbed stop m (link.join left p.1) p.2 := by
  rw [climbed, linksAbove_cons ht hm, if_neg (by simp)]
  rcases operand stop [] ts ts (Nat.le_refl _) with e | r
  · rfl
  have hmk : m ≤ link.operandLevel := Nat.le_trans hm link.level_le_operandLevel
  simp only [bind, Except.bind]
  rw [linksAbove_split hmk, linksAbove_operand, climbed]
  rcases hl : linksAbove stop link.operandLevel false r.rest with e | ⟨ls, rest⟩
  · rfl
  obtain ⟨-, hloose, hls, -⟩ := of_linksAbove hl
  simp only [bind, Except.bind, Except.map]
  rw [linksAbove_rest hm hloose hls]
  split_ifs
  · rfl
  rw [climbed]
  rcases hr : linksAbove stop m false rest with e | ⟨rs, after⟩
  · rfl
  obtain ⟨-, -, hrs, hhead⟩ := of_linksAbove hr
  simp only [Except.map]
  rw [Chain.treeOf_climb hm hls hrs (hhead _ hloose)]

theorem climbed_looser (h : Looser m ts) (left : Expr) : climbed stop m left ts = .ok (left, ts) := by
  rw [climbed, linksAbove_looser h, Except.map, Chain.treeOf_nil]

theorem length_of_climbed {left e : Expr} {rest : List Token}
    (h : climbed stop m left ts = .ok (e, rest)) : rest.length ≤ ts.length := by
  rw [climbed] at h
  rcases hl : linksAbove stop m false ts with e' | ⟨ls, after⟩
  · rw [hl] at h
    cases h
  · rw [hl] at h
    cases h
    exact (of_linksAbove hl).1

theorem links_out {done : List (Connective × Expr)} {origin : List Token}
    {h : ts.length < origin.length} :
    (links stop ranged done origin ts h).map Reading.out =
      (linksAbove stop 0 ranged ts).map fun p => (done.reverse ++ p.1, p.2) := by
  induction hn : ts.length using Nat.strongRecOn generalizing ranged done ts with
  | ind n ih =>
    cases ts with
    | nil =>
      rw [links, linksAbove]
      simp [Except.map, Reading.out]
    | cons t ts =>
      rw [links, linksAbove]
      rcases connective? t.kind with _ | link
      · simp [Except.map, Reading.out]
      · simp only [Nat.not_lt_zero, if_false]
        split_ifs
        · rfl
        · rcases operand stop [] ts ts (Nat.le_refl _) with e | r
          · rfl
          · have hr := r.shorter
            simp only [List.length_cons] at hn
            simp only [bind, Except.bind]
            rw [ih r.rest.length (by omega) rfl]
            rcases linksAbove stop 0 (afterLink ranged link) r.rest with e | p
            · rfl
            · simp [Except.map, pure, Except.pure]

theorem expr_out :
    (expr stop ts).map Reading.out =
      operand stop [] ts ts (Nat.le_refl _) >>= fun r => climbed stop 0 r.value r.rest := by
  rw [expr]
  rcases operand stop [] ts ts (Nat.le_refl _) with e | r
  · rfl
  · have hlinks : (links stop false [] ts r.rest r.shorter).map Reading.out = _ := links_out
    simp only [bind, Except.bind, climbed]
    rcases hl : links stop false [] ts r.rest r.shorter with e | ⟨ls, rest, hrest⟩ <;>
      rcases hl' : linksAbove stop 0 false r.rest with e' | ⟨ls', rest'⟩ <;>
      rw [hl, hl'] at hlinks <;> cases hlinks
    · rfl
    · have hls : ∀ l ∈ ls, 0 < l.1.level := fun l _ => l.1.one_le_level
      have htree : Chain.tree ⟨r.value, ls⟩ = _ := (Chain.treeOf_tighter (Nat.zero_le 8) hls).symm
      simp only [Except.map, pure, Except.pure, Reading.out, htree]

end Links

end Parser

end Abacus
