import Abacus.Program.Parser
import Abacus.Proofs.Grammar

/-!
# Precedence

The levels of the grammar and the trees of chains say the same. A token list is an expression of a
level exactly when it is an operand followed by connectives and operands, all of this level or
tighter, with a looser connective between any two ranges, and the expression is the tree of that
chain. A chain is taken apart at its last connective of the loosest level, at the tightest level at
its first one.
-/

namespace Abacus

theorem Connective.level_le (c : Connective) : c.level ≤ 8 := by
  cases c with
  | range => decide
  | op o => cases o <;> decide

theorem Connective.one_le_level (c : Connective) : 1 ≤ c.level := by
  cases c with
  | range => decide
  | op o => cases o <;> decide

namespace Chain

theorem split_cons_eq {level : Nat} {f e : Expr} {link : Connective} {rest : List (Connective × Expr)}
    (h : link.level = level) :
    split level ⟨f, (link, e) :: rest⟩ =
      (⟨f, []⟩, (link, (split level ⟨e, rest⟩).1) :: (split level ⟨e, rest⟩).2) := by
  simp [split, h]

theorem split_cons_ne {level : Nat} {f e : Expr} {link : Connective} {rest : List (Connective × Expr)}
    (h : link.level ≠ level) :
    split level ⟨f, (link, e) :: rest⟩ =
      (⟨f, (link, e) :: (split level ⟨e, rest⟩).1.rest⟩, (split level ⟨e, rest⟩).2) := by
  simp [split, h]

theorem split_of_forall_ne {level : Nat} {f : Expr} {links : List (Connective × Expr)}
    (h : ∀ l ∈ links, l.1.level ≠ level) : split level ⟨f, links⟩ = (⟨f, links⟩, []) := by
  induction links generalizing f with
  | nil => rfl
  | cons l links ih =>
    have hl := h l (by simp)
    rw [split_cons_ne hl, ih fun x hx => h x (by simp [hx])]

theorem split_of_forall_eq {level : Nat} {f : Expr} {links : List (Connective × Expr)}
    (h : ∀ l ∈ links, l.1.level = level) :
    split level ⟨f, links⟩ = (⟨f, []⟩, links.map fun l => (l.1, ⟨l.2, []⟩)) := by
  induction links generalizing f with
  | nil => rfl
  | cons l links ih =>
    have hl := h l (by simp)
    rw [split_cons_eq hl, ih fun x hx => h x (by simp [hx])]
    rfl

theorem split_append {level : Nat} {f g : Expr} {link : Connective}
    {ls rs : List (Connective × Expr)} (h : link.level = level) (hrs : ∀ l ∈ rs, l.1.level ≠ level) :
    split level ⟨f, ls ++ (link, g) :: rs⟩ =
      ((split level ⟨f, ls⟩).1, (split level ⟨f, ls⟩).2 ++ [(link, ⟨g, rs⟩)]) := by
  induction ls generalizing f with
  | nil =>
    rw [List.nil_append, split_cons_eq h, split_of_forall_ne hrs]
    rfl
  | cons l ls ih =>
    obtain ⟨c, e⟩ := l
    rw [List.cons_append]
    by_cases hc : c.level = level
    · rw [split_cons_eq hc, split_cons_eq hc, ih]
      rfl
    · rw [split_cons_ne hc, split_cons_ne hc, ih]

theorem joinRight_cons (f e : Expr) (link : Connective) (rest : List (Connective × Expr)) :
    joinRight f ((link, e) :: rest) = link.join f (joinRight e rest) := rfl

theorem treeOf_tighter {n : Nat} (hn : n ≤ 8) {f : Expr} {links : List (Connective × Expr)}
    (h : ∀ l ∈ links, n < l.1.level) :
    treeOf (9 - n) ⟨f, links⟩ = treeOf (9 - (n + 1)) ⟨f, links⟩ := by
  have hne : ∀ l ∈ links, l.1.level ≠ 8 - (9 - (n + 1)) := fun l hl => by
    have := h l hl
    omega
  rw [show 9 - n = 9 - (n + 1) + 1 by omega, treeOf, split_of_forall_ne hne]
  simp [joinLeft, joinRight]

/-- The last connective of the loosest level is the root of the tree. -/
theorem treeOf_left {n : Nat} (hn : n ≤ 7) {f g : Expr} {link : Connective}
    {ls rs : List (Connective × Expr)} (h : link.level = n) (hrs : ∀ l ∈ rs, n < l.1.level) :
    treeOf (9 - n) ⟨f, ls ++ (link, g) :: rs⟩ =
      link.join (treeOf (9 - n) ⟨f, ls⟩) (treeOf (9 - (n + 1)) ⟨g, rs⟩) := by
  have hne : ∀ l ∈ rs, l.1.level ≠ 8 - (9 - (n + 1)) := fun l hl => by
    have := hrs l hl
    omega
  have hlevel : link.level = 8 - (9 - (n + 1)) := by omega
  have hpos : 8 - n ≠ 0 := by omega
  rw [show 9 - n = 9 - (n + 1) + 1 by omega, treeOf, treeOf, split_append hlevel hne]
  simp [hpos, joinLeft]

theorem treeOf_one {f : Expr} {links : List (Connective × Expr)} (h : ∀ l ∈ links, l.1.level = 8) :
    treeOf 1 ⟨f, links⟩ = joinRight f links := by
  rw [treeOf, split_of_forall_eq h]
  simp [treeOf, Function.comp_def]

end Chain

namespace Grammar

open Abacus.Parser (connective? afterLink)

theorem LeftOp.connective {n : Nat} {k : Token.Kind} {op : BinaryOp} (h : LeftOp n k op) :
    connective? k = some (.op op) ∧ Connective.level (.op op) = n := by
  cases h <;> exact ⟨rfl, rfl⟩

theorem LeftOp.level_cases {n : Nat} {k : Token.Kind} {op : BinaryOp} (h : LeftOp n k op) :
    1 ≤ n ∧ n ≤ 7 ∧ n ≠ 5 := by
  cases h <;> decide

theorem connective_cases {k : Token.Kind} {link : Connective} (h : connective? k = some link) :
    (k = .dotDot ∧ link = .range) ∨ (k = .starStar ∧ link = .op .pow) ∨
      ∃ op, link = .op op ∧ LeftOp link.level k op := by
  cases k <;> simp only [connective?, Option.some.injEq, reduceCtorEq] at h <;> subst h
  case dotDot => exact .inl ⟨rfl, rfl⟩
  case starStar => exact .inr (.inl ⟨rfl, rfl⟩)
  all_goals exact .inr (.inr ⟨_, rfl, by constructor⟩)

inductive Linked : List Token → List (Connective × Expr) → Prop
  | nil : Linked [] []
  | cons {t : Token} {os ts : List Token} {link : Connective} {e : Expr}
      {links : List (Connective × Expr)} :
      connective? t.kind = some link → Operand os e → Linked ts links →
      Linked (t :: os ++ ts) ((link, e) :: links)

theorem Linked.append {ts us : List Token} {ls rs : List (Connective × Expr)} (h : Linked ts ls)
    (h' : Linked us rs) : Linked (ts ++ us) (ls ++ rs) := by
  induction h with
  | nil => exact h'
  | cons hk ho _ ih =>
    rw [List.append_assoc]
    exact .cons hk ho ih

theorem Linked.of_append {ls rs : List (Connective × Expr)} {ts : List Token}
    (h : Linked ts (ls ++ rs)) : ∃ us vs, ts = us ++ vs ∧ Linked us ls ∧ Linked vs rs := by
  induction ls generalizing ts with
  | nil => exact ⟨[], ts, rfl, .nil, h⟩
  | cons l ls ih =>
    cases h with
    | cons hk ho hl =>
      obtain ⟨us, vs, rfl, hu, hv⟩ := ih hl
      exact ⟨_, vs, by rw [List.append_assoc], .cons hk ho hu, hv⟩

/-- No range follows another one, unless a looser connective stands between them. `ranged` says
whether one came before. -/
def Unchained : Bool → List (Connective × Expr) → Prop
  | _, [] => True
  | ranged, l :: links => ¬ (l.1 = .range ∧ ranged) ∧ Unchained (afterLink ranged l.1) links

theorem level_eq_five_iff {link : Connective} : link.level = 5 ↔ link = .range := by
  cases link with
  | range => simp [Connective.level]
  | op o => cases o <;> simp [Connective.level]

theorem afterLink_of_lt {link : Connective} (h : link.level < 5) (ranged : Bool) :
    afterLink ranged link = false := by
  have hr : link ≠ .range := mt level_eq_five_iff.2 (Nat.ne_of_lt h)
  have hl : ¬ Connective.range.level < link.level := Nat.not_lt_of_lt h
  simp [afterLink, hr, hl]

theorem afterLink_of_gt {link : Connective} (h : 5 < link.level) (ranged : Bool) :
    afterLink ranged link = ranged := by
  have hr : link ≠ .range := mt level_eq_five_iff.2 (Nat.ne_of_gt h)
  have hl : Connective.range.level < link.level := h
  simp [afterLink, hr, hl]

theorem unchained_of_gt {links : List (Connective × Expr)} (h : ∀ l ∈ links, 5 < l.1.level)
    (ranged : Bool) : Unchained ranged links := by
  induction links with
  | nil => trivial
  | cons l links ih =>
    obtain ⟨hl, hlinks⟩ := List.forall_mem_cons.1 h
    have hr : l.1 ≠ .range := mt level_eq_five_iff.2 (Nat.ne_of_gt hl)
    refine ⟨fun hrange => hr hrange.1, ?_⟩
    rw [afterLink_of_gt hl]
    exact ih hlinks

theorem unchained_append {ls rs : List (Connective × Expr)} {link : Connective} {e : Expr}
    (h : link.level < 5) (ranged : Bool) :
    Unchained ranged (ls ++ (link, e) :: rs) ↔ Unchained ranged ls ∧ Unchained false rs := by
  induction ls generalizing ranged with
  | nil =>
    have hr : link ≠ .range := mt level_eq_five_iff.2 (Nat.ne_of_lt h)
    simp [Unchained, afterLink_of_lt h, hr]
  | cons l ls ih => simp only [List.cons_append, Unchained, ih, and_assoc]

theorem not_unchained_true {ls rs : List (Connective × Expr)} {e : Expr}
    (hl : ∀ l ∈ ls, 5 ≤ l.1.level) : ¬ Unchained true (ls ++ (.range, e) :: rs) := by
  induction ls with
  | nil => simp [Unchained]
  | cons l ls ih =>
    intro h
    obtain ⟨hu, hs⟩ := h
    obtain ⟨h5, hls⟩ := List.forall_mem_cons.1 hl
    rcases Nat.eq_or_lt_of_le h5 with h5 | h5
    · exact hu ⟨level_eq_five_iff.1 h5.symm, rfl⟩
    · rw [afterLink_of_gt h5] at hs
      exact ih hls hs

theorem lt_of_unchained_range {ls rs : List (Connective × Expr)} {e : Expr}
    (hl : ∀ l ∈ ls, 5 ≤ l.1.level) (h : Unchained false (ls ++ (.range, e) :: rs)) :
    ∀ l ∈ ls, 5 < l.1.level := by
  induction ls with
  | nil => simp
  | cons l ls ih =>
    obtain ⟨-, hs⟩ := h
    obtain ⟨h5, hls⟩ := List.forall_mem_cons.1 hl
    rcases Nat.eq_or_lt_of_le h5 with h5 | h5
    · rw [level_eq_five_iff.1 h5.symm] at hs
      exact absurd hs (not_unchained_true hls)
    · rw [afterLink_of_gt h5] at hs
      exact List.forall_mem_cons.2 ⟨h5, ih hls hs⟩

theorem unchained_range {ls rs : List (Connective × Expr)} {e : Expr}
    (hl : ∀ l ∈ ls, 5 < l.1.level) (hr : ∀ l ∈ rs, 5 < l.1.level) :
    Unchained false (ls ++ (.range, e) :: rs) := by
  induction ls with
  | nil => exact ⟨by simp, unchained_of_gt hr _⟩
  | cons l ls ih =>
    obtain ⟨h5, hls⟩ := List.forall_mem_cons.1 hl
    refine ⟨by simp, ?_⟩
    rw [afterLink_of_gt h5]
    exact ih hls

theorem unchained_parts {n : Nat} (h5 : n ≠ 5) {ls rs : List (Connective × Expr)} {link : Connective}
    {e : Expr} (h : link.level = n) (hl : ∀ l ∈ ls, n ≤ l.1.level) (hr : ∀ l ∈ rs, n < l.1.level) :
    Unchained false (ls ++ (link, e) :: rs) ↔ Unchained false ls ∧ Unchained false rs := by
  rcases Nat.lt_or_gt_of_ne h5 with hlt | hgt
  · exact unchained_append (by omega) _
  · have hls : ∀ l ∈ ls, 5 < l.1.level := fun l hx => Nat.lt_of_lt_of_le hgt (hl l hx)
    have hrs : ∀ l ∈ rs, 5 < l.1.level := fun l hx => Nat.lt_trans hgt (hr l hx)
    have hall : ∀ l ∈ ls ++ (link, e) :: rs, 5 < l.1.level :=
      List.forall_mem_append.2 ⟨hls, List.forall_mem_cons.2 ⟨h ▸ hgt, hrs⟩⟩
    exact ⟨fun _ => ⟨unchained_of_gt hls _, unchained_of_gt hrs _⟩, fun _ => unchained_of_gt hall _⟩

/-- An operand, and connectives of a level or tighter with operands, joined to the tree of the chain. -/
def Chained (n : Nat) (ts : List Token) (e : Expr) : Prop :=
  ∃ os first ls links, ts = os ++ ls ∧ Operand os first ∧ Linked ls links ∧
    (∀ l ∈ links, n ≤ l.1.level) ∧ Unchained false links ∧ e = Chain.treeOf (9 - n) ⟨first, links⟩

theorem Chained.operand {ts : List Token} {e : Expr} (h : Operand ts e) : Chained 9 ts e :=
  ⟨ts, e, [], [], by simp, h, .nil, by simp, trivial, rfl⟩

theorem Chained.tighter {n : Nat} (hn : n ≤ 8) {ts : List Token} {e : Expr}
    (h : Chained (n + 1) ts e) : Chained n ts e := by
  obtain ⟨os, first, ls, links, rfl, ho, hl, hn', hu, rfl⟩ := h
  refine ⟨os, first, ls, links, rfl, ho, hl, fun l h => Nat.le_of_lt (hn' l h), hu, ?_⟩
  rw [Chain.treeOf_tighter hn hn']

theorem Chained.left {n : Nat} {t : Token} {op : BinaryOp} {ls rs : List Token} {l r : Expr}
    (hop : LeftOp n t.kind op) (hl : Chained n ls l) (hr : Chained (n + 1) rs r) :
    Chained n (ls ++ t :: rs) (.binary l.pos op l r) := by
  obtain ⟨os, f, us, links, rfl, ho, hu, hn, hc, rfl⟩ := hl
  obtain ⟨ps, g, vs, links', rfl, hp, hv, hn', hc', rfl⟩ := hr
  obtain ⟨hk, hlevel⟩ := hop.connective
  obtain ⟨h1, h7, h5⟩ := hop.level_cases
  refine ⟨os, f, us ++ (t :: ps ++ vs), links ++ (.op op, g) :: links', by simp, ho,
    hu.append (.cons hk hp hv), ?_, ?_, ?_⟩
  · have hright : ∀ x ∈ links', n ≤ x.1.level := fun x hx => Nat.le_of_lt (hn' x hx)
    exact List.forall_mem_append.2 ⟨hn, List.forall_mem_cons.2 ⟨Nat.le_of_eq hlevel.symm, hright⟩⟩
  · exact (unchained_parts h5 hlevel hn hn').2 ⟨hc, hc'⟩
  · rw [Chain.treeOf_left h7 hlevel hn']
    rfl

theorem Chained.range {t : Token} {ls rs : List Token} {l r : Expr} (ht : t.kind = .dotDot)
    (hl : Chained 6 ls l) (hr : Chained 6 rs r) : Chained 5 (ls ++ t :: rs) (.range l.pos l r) := by
  obtain ⟨os, f, us, links, rfl, ho, hu, hn, hc, rfl⟩ := hl
  obtain ⟨ps, g, vs, links', rfl, hp, hv, hn', hc', rfl⟩ := hr
  have hk : connective? t.kind = some .range := by rw [ht]; rfl
  refine ⟨os, f, us ++ (t :: ps ++ vs), links ++ (.range, g) :: links', by simp, ho,
    hu.append (.cons hk hp hv), ?_, unchained_range hn hn', ?_⟩
  · have hleft : ∀ x ∈ links, 5 ≤ x.1.level := fun x hx => Nat.le_of_lt (hn x hx)
    have hright : ∀ x ∈ links', 5 ≤ x.1.level := fun x hx => Nat.le_of_lt (hn' x hx)
    exact List.forall_mem_append.2 ⟨hleft, List.forall_mem_cons.2 ⟨Nat.le_refl 5, hright⟩⟩
  · rw [Chain.treeOf_left (n := 5) (by decide) rfl hn', Chain.treeOf_tighter (by decide) hn]
    rfl

theorem Chained.power {t : Token} {ls rs : List Token} {l r : Expr} (ht : t.kind = .starStar)
    (hl : Operand ls l) (hr : Chained 8 rs r) :
    Chained 8 (ls ++ t :: rs) (.binary l.pos .pow l r) := by
  obtain ⟨ps, g, vs, links, rfl, hp, hv, hn, hc, rfl⟩ := hr
  have hk : connective? t.kind = some (.op .pow) := by rw [ht]; rfl
  have hlinks : ∀ x ∈ ((.op .pow, g) :: links : List (Connective × Expr)), 8 ≤ x.1.level :=
    List.forall_mem_cons.2 ⟨Nat.le_refl 8, hn⟩
  have heq : ∀ x ∈ ((.op .pow, g) :: links : List (Connective × Expr)), x.1.level = 8 :=
    fun x hx => Nat.le_antisymm (Connective.level_le x.1) (hlinks x hx)
  refine ⟨ls, l, t :: ps ++ vs, (.op .pow, g) :: links, by simp, hl, .cons hk hp hv, hlinks,
    unchained_of_gt (fun x hx => Nat.lt_of_lt_of_le (by decide) (hlinks x hx)) _, ?_⟩
  rw [show 9 - 8 = 1 from rfl, Chain.treeOf_one heq, Chain.joinRight_cons,
    Chain.treeOf_one fun x hx => heq x (by simp [hx])]
  rfl

theorem Level.chained {n : Nat} {ts : List Token} {e : Expr} : Level n ts e → Chained n ts e
  | .operand h => .operand h
  | .tighter hn h => .tighter hn h.chained
  | .left hop hl hr => .left hop hl.chained hr.chained
  | .range ht hl hr => .range ht hl.chained hr.chained
  | .power ht hl hr => .power ht hl hr.chained

def Built (n : Nat) : Prop :=
  ∀ ⦃os ls : List Token⦄ ⦃first : Expr⦄ ⦃links : List (Connective × Expr)⦄,
    Operand os first → Linked ls links → (∀ l ∈ links, n ≤ l.1.level) → Unchained false links →
      Level n (os ++ ls) (Chain.treeOf (9 - n) ⟨first, links⟩)

theorem built_eight : Built 8 := by
  intro os ls first links ho hl hn hu
  have heq : ∀ x ∈ links, x.1.level = 8 := fun x hx =>
    Nat.le_antisymm (Connective.level_le x.1) (hn x hx)
  rw [Chain.treeOf_one heq]
  clear hn hu
  induction hl generalizing os first with
  | nil => simpa [Chain.joinRight] using Level.tighter (Nat.le_refl 8) (.operand ho)
  | @cons t os' ts link e links hk ho' _ ih =>
    have hlink : link.level = 8 := heq (link, e) (by simp)
    have hr := ih ho' fun x hx => heq x (by simp [hx])
    rw [Chain.joinRight_cons, List.cons_append]
    rcases connective_cases hk with ⟨-, rfl⟩ | ⟨ht, rfl⟩ | ⟨op, rfl, hop⟩
    · exact absurd hlink (by decide)
    · exact .power ht ho hr
    · have := hop.level_cases
      omega

theorem exists_last {links : List (Connective × Expr)} {n : Nat} (h : ∃ l ∈ links, l.1.level = n) :
    ∃ ls link g rs, links = ls ++ (link, g) :: rs ∧ link.level = n ∧ ∀ l ∈ rs, l.1.level ≠ n := by
  induction links with
  | nil => simp at h
  | cons l links ih =>
    by_cases hlater : ∃ x ∈ links, x.1.level = n
    · obtain ⟨ls, link, g, rs, rfl, hlink, hrs⟩ := ih hlater
      exact ⟨l :: ls, link, g, rs, rfl, hlink, hrs⟩
    · have hl : l.1.level = n := by simpa [hlater] using h
      exact ⟨[], l.1, l.2, links, rfl, hl, fun x hx he => hlater ⟨x, hx, he⟩⟩

theorem Linked.cut {n : Nat} {ts : List Token} {links : List (Connective × Expr)}
    (h : Linked ts links) (hn : ∀ l ∈ links, n ≤ l.1.level) (hlast : ∃ l ∈ links, l.1.level = n) :
    ∃ us t ps ws ls link g rs, ts = us ++ t :: (ps ++ ws) ∧ links = ls ++ (link, g) :: rs ∧
      Linked us ls ∧ connective? t.kind = some link ∧ link.level = n ∧ Operand ps g ∧ Linked ws rs ∧
      (∀ l ∈ ls, n ≤ l.1.level) ∧ ∀ l ∈ rs, n < l.1.level := by
  obtain ⟨ls, link, g, rs, rfl, hlink, hrs⟩ := exists_last hlast
  obtain ⟨us, vs, rfl, hus, hvs⟩ := h.of_append
  cases hvs with
  | @cons t ps ws _ _ _ hk hp hws =>
    exact ⟨us, t, ps, ws, ls, link, g, rs, rfl, rfl, hus, hk, hlink, hp, hws,
      fun l hx => hn l (by simp [hx]),
      fun l hx => Nat.lt_of_le_of_ne (hn l (by simp [hx])) (hrs l hx).symm⟩

theorem Built.loosen {n : Nat} (hn8 : n ≤ 8) (deeper : Built (n + 1)) {os ls : List Token}
    {first : Expr} {links : List (Connective × Expr)} (ho : Operand os first) (hl : Linked ls links)
    (hn : ∀ l ∈ links, n < l.1.level) (hu : Unchained false links) :
    Level n (os ++ ls) (Chain.treeOf (9 - n) ⟨first, links⟩) := by
  rw [Chain.treeOf_tighter hn8 hn]
  exact .tighter hn8 (deeper ho hl hn hu)

theorem built_left {n : Nat} (h1 : 1 ≤ n) (h7 : n ≤ 7) (h5 : n ≠ 5) (deeper : Built (n + 1)) :
    Built n := by
  intro os ls first links ho hl hn hu
  -- the chain on the left of the cut is of the same level and shorter
  induction hk : links.length using Nat.strongRecOn generalizing ls links with
  | ind k ih =>
    by_cases hlast : ∃ l ∈ links, l.1.level = n
    · obtain ⟨us, t, ps, ws, ls', link, g, rs, rfl, rfl, hus, ht, hlink, hp, hws, hls, hrs⟩ :=
        hl.cut hn hlast
      obtain ⟨hul, hur⟩ := (unchained_parts h5 hlink hls hrs).1 hu
      have left := ih ls'.length (by simp [← hk]) hus hls hul rfl
      have right := deeper hp hws hrs hur
      rw [Chain.treeOf_left h7 hlink hrs, ← List.append_assoc]
      rcases connective_cases ht with ⟨-, rfl⟩ | ⟨-, rfl⟩ | ⟨op, rfl, hop⟩
      · exact absurd hlink.symm h5
      · exact absurd (hlink.symm.trans rfl : n = 8) (by omega)
      · exact .left (hlink ▸ hop) left right
    · exact deeper.loosen (by omega) ho hl
        (fun l hx => Nat.lt_of_le_of_ne (hn l hx) fun he => hlast ⟨l, hx, he.symm⟩) hu

theorem built_five (deeper : Built 6) : Built 5 := by
  intro os ls first links ho hl hn hu
  by_cases hlast : ∃ l ∈ links, l.1.level = 5
  · obtain ⟨us, t, ps, ws, ls', link, g, rs, rfl, rfl, hus, ht, hlink, hp, hws, hls, hrs⟩ :=
      hl.cut hn hlast
    obtain rfl := level_eq_five_iff.1 hlink
    have hls' := lt_of_unchained_range hls hu
    have left := deeper ho hus hls' (unchained_of_gt hls' _)
    have right := deeper hp hws hrs (unchained_of_gt hrs _)
    rw [Chain.treeOf_left (n := 5) (by decide) rfl hrs, Chain.treeOf_tighter (by decide) hls',
      ← List.append_assoc]
    rcases connective_cases ht with ⟨hd, -⟩ | ⟨-, h⟩ | ⟨op, h, -⟩
    · exact .range hd left right
    · cases h
    · cases h
  · exact deeper.loosen (by omega) ho hl
      (fun l hx => Nat.lt_of_le_of_ne (hn l hx) fun he => hlast ⟨l, hx, he.symm⟩) hu

theorem built_one : Built 1 := by
  have h7 : Built 7 := built_left (by omega) (by omega) (by omega) built_eight
  have h6 : Built 6 := built_left (by omega) (by omega) (by omega) h7
  have h4 : Built 4 := built_left (by omega) (by omega) (by omega) (built_five h6)
  have h3 : Built 3 := built_left (by omega) (by omega) (by omega) h4
  have h2 : Built 2 := built_left (by omega) (by omega) (by omega) h3
  exact built_left (by omega) (by omega) (by omega) h2

/-- An expression is an operand and what is linked to it, and its tree is that of the chain. -/
theorem level_one_iff {ts : List Token} {e : Expr} :
    Level 1 ts e ↔ ∃ os first ls links, ts = os ++ ls ∧ Operand os first ∧ Linked ls links ∧
      Unchained false links ∧ e = Chain.tree ⟨first, links⟩ := by
  constructor
  · intro h
    obtain ⟨os, first, ls, links, rfl, ho, hl, -, hu, rfl⟩ := h.chained
    exact ⟨os, first, ls, links, rfl, ho, hl, hu, rfl⟩
  · rintro ⟨os, first, ls, links, rfl, ho, hl, hu, rfl⟩
    exact built_one ho hl (fun l _ => l.1.one_le_level) hu

theorem Operand.level_one {ts : List Token} {e : Expr} (h : Operand ts e) : Level 1 ts e :=
  level_one_iff.2 ⟨ts, e, [], [], by simp, h, .nil, trivial, rfl⟩

theorem Named.primary {ts : List Token} {pos : Position} {name : String} (h : Named ts pos name) :
    Primary ts (.var pos name) := by
  induction h with
  | name ht => exact .name ht
  | group hl _ hr ih => exact .group hl (Operand.callable (.primary ih)).level_one hr

mutual

theorem Primary.named {ts : List Token} {e : Expr} {pos : Position} {name : String} :
    Primary ts e → e = .var pos name → Named ts pos name
  | .literal _ _, he => by cases he
  | .name ht, he => by
    cases he
    exact .name ht
  | .array _ _, he => by cases he
  | .group hl h hr, he => .group hl (h.named he) hr

theorem Callable.named {ts : List Token} {e : Expr} {pos : Position} {name : String} :
    Callable ts e → e = .var pos name → Named ts pos name
  | .primary h, he => h.named he
  | .emptyCall _ _ _, he => by cases he
  | .call _ _ _ _, he => by cases he

theorem Operand.named {ts : List Token} {e : Expr} {pos : Position} {name : String} :
    Operand ts e → e = .var pos name → Named ts pos name
  | .callable h, he => h.named he
  | .sign _ _, he => by cases he

theorem Level.named {n : Nat} {ts : List Token} {e : Expr} {pos : Position} {name : String} :
    Level n ts e → e = .var pos name → Named ts pos name
  | .operand h, he => h.named he
  | .tighter _ h, he => h.named he
  | .left _ _ _, he => by cases he
  | .range _ _ _, he => by cases he
  | .power _ _ _, he => by cases he

end

end Grammar

end Abacus
