import Mathlib.Data.List.TakeWhile
import Mathlib.Logic.Relation
import Mathlib.Order.Interval.Set.Defs
import HoitF2fs.Segment.DiscardTree

/-!
# The blocks of the discard tree

What the tree of discard commands is for is the *set* of blocks that wait for their discard.  A
range that is queued adds its blocks to the set, and a block that is written is taken out of it;
how the commands are cut and merged on the way does not matter to anybody.

* `covered` — the set; `lens` — what `undiscard_blks` should be.
* `Dcc` — the tree with that counter; `fillBlks`, `updateBlks`, `punchBlks` are the statements that
  change the counter, next to the ones that change the tree.
* `fillLoop` — the loop of `__update_discard_tree_range` **without merging**: the gaps of the range
  become commands of their own.  `MergeStep` merges two neighbours, and `updateLoop_merges` says
  that the loop does nothing else on top.
* `discard_tree_exact` — the result.

The argument turns on the carried `prev_dc`: a front merge moves the start of the next command but
not its end, and the end is all that the next round reads.  So the gaps are those of the old tree,
whatever was merged before.
-/

namespace Hoit.Segment.DiscardUnion

open Relation

variable {cmds cmds' left rest : List DiscardCmd}

/-! ## The set and the counter -/

/-- The blocks that the commands cover. -/
def covered (cmds : List DiscardCmd) : Set ℕ := {b | ∃ dc ∈ cmds, dc.Covers b}

def lens (cmds : List DiscardCmd) : ℕ := (cmds.map DiscardCmd.len).sum

@[simp] lemma mem_covered {b : ℕ} : b ∈ covered cmds ↔ ∃ dc ∈ cmds, dc.Covers b := Iff.rfl

@[simp] lemma covered_nil : covered [] = ∅ := by
  ext b
  simp

@[simp] lemma covered_append (cmds cmds' : List DiscardCmd) :
    covered (cmds ++ cmds') = covered cmds ∪ covered cmds' := by
  ext b
  simp [or_and_right, exists_or]

@[simp] lemma covered_cons (dc : DiscardCmd) (cmds : List DiscardCmd) :
    covered (dc :: cmds) = {b | dc.Covers b} ∪ covered cmds := by
  ext b
  simp

@[simp] lemma lens_append (cmds cmds' : List DiscardCmd) :
    lens (cmds ++ cmds') = lens cmds + lens cmds' := by
  simp [lens]

@[simp] lemma lens_cons (dc : DiscardCmd) (cmds : List DiscardCmd) :
    lens (dc :: cmds) = dc.len + lens cmds := by
  simp [lens]

@[simp] lemma lens_nil : lens [] = 0 := rfl

@[simp] lemma lens_reverse (cmds : List DiscardCmd) : lens cmds.reverse = lens cmds := by
  simp [lens, List.sum_reverse]

/-- Commands that wait, apart from each other and in order. -/
structure PrepTree (cmds : List DiscardCmd) : Prop where
  apart : cmds.Pairwise fun a b => a.stop ≤ b.lstart
  pos : ∀ dc ∈ cmds, 0 < dc.len
  prep : ∀ dc ∈ cmds, dc.state = .prep

/-- `start - lstart` is the one of the device, for each command. -/
def OffsetsAre (off : ℕ → ℤ) (cmds : List DiscardCmd) : Prop :=
  ∀ dc ∈ cmds, (dc.start : ℤ) - dc.lstart = off dc.bdev

/-- `struct discard_cmd_control`, the tree and the counter of it. -/
structure Dcc where
  root : List DiscardCmd
  undiscardBlks : BitVec 32

def Dcc.Counted (dcc : Dcc) : Prop := dcc.undiscardBlks = BitVec.ofNat 32 (lens dcc.root)

/-! ## The counter in the source -/

/-- What one round of the loop does to `undiscard_blks`. -/
def fillBlks (bdev : ℕ) (left : List DiscardCmd) (next : Option DiscardCmd) (di : DiscardInfo)
    (blks : BitVec 32) : BitVec 32 :=
  if di.len = 0 then blks
  else
    let back := backMerge bdev di left
    let cur := back.elim di fun x => x.1.di
    let blks := if back.isSome then blks + BitVec.ofNat 32 di.len else blks
    let alone := if back.isSome then blks else blks + BitVec.ofNat 32 di.len
    match next with
    | some q =>
        if q.state = .prep ∧ q.bdev = bdev ∧ mergeable cur q.di then
          -- The command before the gap goes.
          if back.isSome then blks + BitVec.ofNat 32 cur.len - BitVec.ofNat 32 cur.len
          else blks + BitVec.ofNat 32 cur.len
        else alone
    | none => alone

/-- The loop of `__update_discard_tree_range`, for `undiscard_blks`. -/
def updateBlks (bdev lstart start len : ℕ) (left : List DiscardCmd) :
    List DiscardCmd → BitVec 32 → BitVec 32
  | [], blks =>
      match nextGap lstart start len left.head? none with
      | none => blks
      | some di => fillBlks bdev left none di blks
  | q :: rest, blks =>
      match nextGap lstart start len left.head? (some q) with
      | none => blks
      | some di =>
          updateBlks bdev lstart start len (fillGap bdev left (some q) di) rest
            (fillBlks bdev left (some q) di blks)

/-- `__update_discard_tree_range`. -/
def Dcc.updateRange (dcc : Dcc) (bdev lstart start len : ℕ) : Dcc where
  root := updateDiscardTreeRange bdev lstart start len dcc.root
  undiscardBlks :=
    updateBlks bdev lstart start len
      (dcc.root.takeWhile fun dc => dc.lstart ≤ lstart).reverse
      (dcc.root.dropWhile fun dc => dc.lstart ≤ lstart) dcc.undiscardBlks

/-- What `__punch_discard_cmd` does to `undiscard_blks`. -/
def punchBlks (blk : ℕ) (dc : DiscardCmd) (blks : BitVec 32) : BitVec 32 :=
  if dc.state = .done ∨ dc.len = 1 then blks - BitVec.ofNat 32 dc.len
  else
    let blks := blks - BitVec.ofNat 32 dc.len
    if dc.lstart < blk then
      let blks := blks + BitVec.ofNat 32 (blk - dc.lstart)
      if blk < dc.lstart + dc.len - 1 then
        blks + BitVec.ofNat 32 (dc.lstart + dc.len - 1 - blk)
      else blks
    else if blk < dc.lstart + dc.len - 1 then blks + BitVec.ofNat 32 (dc.len - 1)
    else blks

/-- `__punch_discard_cmd`, for the command that covers the block, if there is one. -/
def Dcc.punch (dcc : Dcc) (blk : ℕ) : Dcc where
  root := (replaceFirst (fun dc => decide (dc.Covers blk))
    (fun dc => some (punchDiscardCmd blk dc)) dcc.root).getD dcc.root
  undiscardBlks :=
    ((dcc.root.find? fun dc => decide (dc.Covers blk)).map fun dc =>
      punchBlks blk dc dcc.undiscardBlks).getD dcc.undiscardBlks

/-! ## Merging -/

/-- Two commands next to each other, of one device and not too long, and what they make. -/
structure Joins (a b c : DiscardCmd) : Prop where
  prepBack : a.state = .prep
  prepFront : b.state = .prep
  bdev : a.bdev = b.bdev
  mergeable : mergeable a.di b.di
  lstart_eq : c.lstart = a.lstart
  len_eq : c.len = a.len + b.len
  start_eq : c.start = a.start
  bdev_eq : c.bdev = a.bdev
  state_eq : c.state = .prep

inductive MergeStep : List DiscardCmd → List DiscardCmd → Prop where
  | join {a b c : DiscardCmd} (left rest : List DiscardCmd) (h : Joins a b c) :
      MergeStep (left ++ a :: b :: rest) (left ++ c :: rest)

/-- The commands can be merged into those. -/
abbrev Merges : List DiscardCmd → List DiscardCmd → Prop := ReflTransGen MergeStep

lemma Joins.covers {a b c : DiscardCmd} (h : Joins a b c) (x : ℕ) :
    c.Covers x ↔ a.Covers x ∨ b.Covers x := by
  have hnext : a.lstart + a.len = b.lstart := h.mergeable.1
  simp only [DiscardCmd.Covers, DiscardCmd.stop, h.lstart_eq, h.len_eq]
  omega

lemma Joins.stop_eq {a b c : DiscardCmd} (h : Joins a b c) : c.stop = b.stop := by
  have hnext : a.lstart + a.len = b.lstart := h.mergeable.1
  simp only [DiscardCmd.stop, h.lstart_eq, h.len_eq]
  omega

lemma MergeStep.covered (h : MergeStep cmds cmds') : covered cmds' = covered cmds := by
  cases h with
  | join left rest h =>
      ext x
      simp [h.covers, or_assoc]

lemma MergeStep.lens (h : MergeStep cmds cmds') : lens cmds' = lens cmds := by
  cases h with
  | join left rest h => simp [h.len_eq, Nat.add_assoc]

lemma MergeStep.prepTree (h : MergeStep cmds cmds') (ht : PrepTree cmds) : PrepTree cmds' := by
  cases h with
  | @join a b c left rest h =>
      obtain ⟨hl, hr, hlr⟩ := List.pairwise_append.mp ht.apart
      obtain ⟨har, hbr⟩ := List.pairwise_cons.mp hr
      obtain ⟨hbr, hrest⟩ := List.pairwise_cons.mp hbr
      refine ⟨List.pairwise_append.mpr ⟨hl, List.pairwise_cons.mpr ⟨?_, hrest⟩, ?_⟩, ?_, ?_⟩
      · intro x hx
        rw [h.stop_eq]
        exact hbr x hx
      · intro x hx y hy
        rcases List.mem_cons.mp hy with rfl | hy
        · rw [h.lstart_eq]
          exact hlr x hx a (by simp)
        · exact hlr x hx y (by simp [hy])
      · intro x hx
        rcases List.mem_append.mp hx with hx | hx
        · exact ht.pos x (by simp [hx])
        · rcases List.mem_cons.mp hx with rfl | hx
          · have ha := ht.pos a (by simp)
            have hlen := h.len_eq
            omega
          · exact ht.pos x (by simp [hx])
      · intro x hx
        rcases List.mem_append.mp hx with hx | hx
        · exact ht.prep x (by simp [hx])
        · rcases List.mem_cons.mp hx with rfl | hx
          · exact h.state_eq
          · exact ht.prep x (by simp [hx])

lemma MergeStep.offsets {off : ℕ → ℤ} (h : MergeStep cmds cmds') (ho : OffsetsAre off cmds) :
    OffsetsAre off cmds' := by
  cases h with
  | @join a b c left rest h =>
      intro x hx
      rcases List.mem_append.mp hx with hx | hx
      · exact ho x (by simp [hx])
      · rcases List.mem_cons.mp hx with rfl | hx
        · rw [h.start_eq, h.lstart_eq, h.bdev_eq]
          exact ho a (by simp)
        · exact ho x (by simp [hx])

/-- **Merging** keeps the blocks, the sum, the order and the offsets. -/
lemma Merges.keeps {off : ℕ → ℤ} (h : Merges cmds cmds') (ht : PrepTree cmds) :
    PrepTree cmds' ∧ covered cmds' = covered cmds ∧
      (OffsetsAre off cmds → OffsetsAre off cmds') := by
  induction h with
  | refl => exact ⟨ht, rfl, id⟩
  | tail _ hstep ih =>
      obtain ⟨ht', hcov, hoff⟩ := ih
      exact ⟨hstep.prepTree ht', hstep.covered.trans hcov, fun ho => hstep.offsets (hoff ho)⟩

/-! ## The gaps of a range -/

variable {bdev lstart start len : ℕ} {di : DiscardInfo} {prev next : Option DiscardCmd}

/-- A gap as a command of its own. -/
def gapCmd (bdev : ℕ) (di : DiscardInfo) : List DiscardCmd :=
  if di.len = 0 then [] else [⟨di.lstart, di.len, di.start, bdev, .prep, 0⟩]

/-- The loop of `__update_discard_tree_range` without merging. -/
def fillLoop (bdev lstart start len : ℕ) (prev : Option DiscardCmd) :
    List DiscardCmd → List DiscardCmd
  | [] =>
      match nextGap lstart start len prev none with
      | none => []
      | some di => gapCmd bdev di
  | q :: rest =>
      match nextGap lstart start len prev (some q) with
      | none => q :: rest
      | some di => gapCmd bdev di ++ q :: fillLoop bdev lstart start len (some q) rest

/-- A new command, within the range. -/
structure IsGap (bdev lstart start len : ℕ) (dc : DiscardCmd) : Prop where
  pos : 0 < dc.len
  low : lstart ≤ dc.lstart
  high : dc.stop ≤ lstart + len
  start_eq : dc.start = start + (dc.lstart - lstart)
  bdev_eq : dc.bdev = bdev
  state_eq : dc.state = .prep

/-- Of the previous command only the end is read. -/
lemma nextGap_congr {prev' : Option DiscardCmd}
    (h : prev.map DiscardCmd.stop = prev'.map DiscardCmd.stop) :
    nextGap lstart start len prev next = nextGap lstart start len prev' next := by
  cases prev with
  | none =>
      cases prev' with
      | none => rfl
      | some p' => simp at h
  | some p =>
      cases prev' with
      | none => simp at h
      | some p' =>
          have hstop : p.stop = p'.stop := by simpa using h
          simp only [nextGap, hstop]

/-- The loop is over when the range is. -/
lemma nextGap_none (h : nextGap lstart start len prev next = none) :
    ∃ p ∈ prev, lstart + len ≤ max p.stop lstart := by
  cases prev with
  | none => simp [nextGap] at h
  | some p =>
      refine ⟨p, rfl, ?_⟩
      by_contra hlt
      simp [nextGap, hlt] at h

/-- **Nothing is left out** between the two commands. -/
lemma nextGap_covers {b : ℕ} (hb : lstart ≤ b ∧ b < lstart + len) (hprev : ∀ p ∈ prev, p.stop ≤ b)
    (hnext : ∀ q ∈ next, b < q.lstart) :
    ∃ di, nextGap lstart start len prev next = some di ∧ di.lstart ≤ b ∧
      b < di.lstart + di.len := by
  cases prev with
  | none =>
      refine ⟨_, rfl, hb.1, ?_⟩
      cases next with
      | none => simpa using hb.2
      | some q =>
          have hq := hnext q rfl
          simp only [Option.elim_some]
          omega
  | some p =>
      have hp := hprev p rfl
      have hle : max p.stop lstart ≤ b := max_le hp hb.1
      refine ⟨_, if_neg (by omega), hle, ?_⟩
      cases next with
      | none =>
          simp only [Option.elim_none]
          omega
      | some q =>
          have hq := hnext q rfl
          simp only [Option.elim_some]
          split_ifs <;> omega

lemma gapCmd_covers (b : ℕ) :
    b ∈ covered (gapCmd bdev di) ↔ di.lstart ≤ b ∧ b < di.lstart + di.len := by
  unfold gapCmd
  split_ifs with hlen
  · simp only [covered_nil, Set.mem_empty_iff_false, false_iff]
    omega
  · simp [DiscardCmd.Covers, DiscardCmd.stop]

lemma mem_gapCmd {c : DiscardCmd} (h : c ∈ gapCmd bdev di) :
    di.len ≠ 0 ∧ c = ⟨di.lstart, di.len, di.start, bdev, .prep, 0⟩ := by
  unfold gapCmd at h
  split_ifs at h with hlen
  · simp at h
  · exact ⟨hlen, List.mem_singleton.mp h⟩

lemma gapCmd_pairwise : (gapCmd bdev di).Pairwise fun a b => a.stop ≤ b.lstart := by
  unfold gapCmd
  split_ifs
  · exact List.Pairwise.nil
  · exact List.pairwise_singleton _ _

/-- What the loop without merging makes of the commands behind `prev`. -/
structure FilledBehind (bdev lstart start len : ℕ) (prev : Option DiscardCmd)
    (rest out : List DiscardCmd) : Prop where
  kept : rest.Sublist out
  fresh : ∀ c ∈ out, c ∈ rest ∨ IsGap bdev lstart start len c
  apart : out.Pairwise fun a b => a.stop ≤ b.lstart
  behind : ∀ p ∈ prev, ∀ c ∈ out, p.stop ≤ c.lstart
  covers : ∀ b, lstart ≤ b → b < lstart + len → (∀ p ∈ prev, p.stop ≤ b) → b ∈ covered out

/-- The commands that one gap gives. -/
lemma gapCmd_isGap (hgap : nextGap lstart start len prev next = some di)
    (hprev : ∀ p ∈ prev, ∀ q ∈ next, p.stop ≤ q.lstart) (hnext : ∀ q ∈ next, lstart ≤ q.lstart) :
    ∀ c ∈ gapCmd bdev di, IsGap bdev lstart start len c ∧ (∀ p ∈ prev, p.stop ≤ c.lstart) ∧
      ∀ q ∈ next, c.stop ≤ q.lstart := by
  obtain ⟨h1, h2, h3, h4, h5⟩ := nextGap_spec hgap hprev hnext
  intro c hc
  obtain ⟨hpos, rfl⟩ := mem_gapCmd hc
  exact ⟨⟨Nat.pos_of_ne_zero hpos, h1, h2, h3, rfl, rfl⟩, h4, h5⟩

lemma fillLoop_spec (hapart : (prev.toList ++ rest).Pairwise fun a b => a.stop ≤ b.lstart)
    (hlow : ∀ q ∈ rest, lstart ≤ q.lstart) :
    FilledBehind bdev lstart start len prev rest (fillLoop bdev lstart start len prev rest) := by
  -- When the range is over there is nothing to cover.
  have hover : ∀ {prev next : Option DiscardCmd}, nextGap lstart start len prev next = none →
      ∀ b, lstart ≤ b → b < lstart + len → ¬ ∀ p ∈ prev, p.stop ≤ b := by
    intro prev next hgap b h1 h2 hp
    obtain ⟨p, hpmem, hend⟩ := nextGap_none hgap
    have hpb := hp p hpmem
    omega
  induction rest generalizing prev with
  | nil =>
      unfold fillLoop
      cases hgap : nextGap lstart start len prev none with
      | none =>
          exact ⟨List.Sublist.refl _, by simp, List.Pairwise.nil, by simp,
            fun b h1 h2 hp => absurd hp (hover hgap b h1 h2)⟩
      | some di =>
          have hgaps := @gapCmd_isGap bdev _ _ _ _ _ _ hgap (by simp) (by simp)
          refine ⟨List.nil_sublist _, fun c hc => Or.inr (hgaps c hc).1, gapCmd_pairwise,
            fun p hp c hc => (hgaps c hc).2.1 p hp, fun b h1 h2 hp => ?_⟩
          obtain ⟨di', hdi, hcov⟩ := 
            @nextGap_covers lstart start len prev none b ⟨h1, h2⟩ hp (by simp)
          obtain rfl := Option.some.inj (hgap.symm.trans hdi)
          exact (gapCmd_covers b).mpr hcov
  | cons q rest ih =>
      obtain ⟨-, hqr, hpq⟩ := List.pairwise_append.mp hapart
      have hprev : ∀ p ∈ prev, ∀ c ∈ q :: rest, p.stop ≤ c.lstart := fun p hp =>
        hpq p (by simpa using hp)
      unfold fillLoop
      cases hgap : nextGap lstart start len prev (some q) with
      | none =>
          exact ⟨List.Sublist.refl _, fun c hc => Or.inl hc, hqr, hprev,
            fun b h1 h2 hp => absurd hp (hover hgap b h1 h2)⟩
      | some di =>
          have hgaps := @gapCmd_isGap bdev _ _ _ _ _ _ hgap
            (fun p hp x hx => by obtain rfl := Option.some.inj hx; exact hprev p hp q (by simp))
            (fun x hx => by obtain rfl := Option.some.inj hx; exact hlow q (by simp))
          have hout := @ih (some q) hqr fun x hx => hlow x (by simp [hx])
          have hq : q.lstart ≤ q.stop := Nat.le_add_right _ _
          -- The next command and what comes behind it.
          have hqout : ∀ c ∈ q :: fillLoop bdev lstart start len (some q) rest, q.lstart ≤ c.lstart := by
            intro c hc
            rcases List.mem_cons.mp hc with rfl | hc
            · exact le_rfl
            · exact hq.trans (hout.behind q rfl c hc)
          constructor
          · exact (hout.kept.cons_cons q).trans (List.sublist_append_right _ _)
          · intro c hc
            rcases List.mem_append.mp hc with hc | hc
            · exact Or.inr (hgaps c hc).1
            · rcases List.mem_cons.mp hc with rfl | hc
              · exact Or.inl (by simp)
              · exact (hout.fresh c hc).imp_left (List.mem_cons_of_mem q)
          · refine List.pairwise_append.mpr
              ⟨gapCmd_pairwise, List.pairwise_cons.mpr ⟨hout.behind q rfl, hout.apart⟩, ?_⟩
            intro c hc x hx
            exact ((hgaps c hc).2.2 q rfl).trans (hqout x hx)
          · intro p hp c hc
            rcases List.mem_append.mp hc with hc | hc
            · exact (hgaps c hc).2.1 p hp
            · exact (hprev p hp q (by simp)).trans (hqout c hc)
          · intro b h1 h2 hp
            rw [covered_append, covered_cons]
            by_cases hbq : b < q.lstart
            · obtain ⟨di', hdi, hcov⟩ := @nextGap_covers lstart start len prev (some q) b ⟨h1, h2⟩
                hp (fun x hx => by obtain rfl := Option.some.inj hx; exact hbq)
              obtain rfl := Option.some.inj (hgap.symm.trans hdi)
              exact Or.inl ((gapCmd_covers b).mpr hcov)
            · by_cases hbs : b < q.stop
              · exact Or.inr (Or.inl ⟨not_lt.mp hbq, hbs⟩)
              · refine Or.inr (Or.inr (hout.covers b h1 h2 fun x hx => ?_))
                obtain rfl := Option.some.inj hx
                exact not_lt.mp hbs

/-! ## The loop with merging -/

/-- The command before the gap takes it in, if it can. -/
lemma backMerge_merges (hlen : di.len ≠ 0) :
    ∃ c tail, Merges (left.reverse ++ (gapCmd bdev di ++ rest)) (tail.reverse ++ c :: rest) ∧
      c.state = .prep ∧ c.bdev = bdev ∧
      (backMerge bdev di left).elim di (fun x => x.1.di) = c.di ∧
      ((backMerge bdev di left).elim left fun x => x.2) = tail ∧
      ((backMerge bdev di left).elim (⟨di.lstart, di.len, di.start, bdev, .prep, 0⟩ :: left)
        fun x => x.1 :: x.2) = c :: tail := by
  rw [gapCmd, if_neg hlen]
  cases left with
  | nil => exact ⟨_, [], ReflTransGen.refl, rfl, rfl, rfl, rfl, rfl⟩
  | cons p tail =>
      by_cases hmerge : p.state = .prep ∧ p.bdev = bdev ∧ mergeable p.di di
      · rw [backMerge, if_pos hmerge]
        obtain ⟨hstate, hdev, hnext⟩ := hmerge
        refine ⟨{ p with len := p.len + di.len }, tail, ?_, hstate, hdev, rfl, rfl, rfl⟩
        rw [List.reverse_cons, List.append_assoc]
        exact ReflTransGen.single (.join _ _ ⟨hstate, rfl, hdev, hnext, rfl, rfl, rfl, rfl, hstate⟩)
      · rw [backMerge, if_neg hmerge]
        exact ⟨_, p :: tail, ReflTransGen.refl, rfl, rfl, rfl, rfl, rfl⟩

/-- **One round**: the gap, merged with its neighbours or not. -/
lemma fillGap_merges :
    Merges (left.reverse ++ (gapCmd bdev di ++ (next.toList ++ rest)))
      ((fillGap bdev left next di).reverse ++ rest) := by
  unfold fillGap
  split_ifs with hlen
  · rw [gapCmd, if_pos hlen]
    cases next <;> simpa using ReflTransGen.refl
  · obtain ⟨c, tail, hmerges, hstate, hdev, hcur, htail, halone⟩ :=
      @backMerge_merges left (next.toList ++ rest) bdev di hlen
    simp only [hcur, htail, halone]
    cases next with
    | none => simpa using hmerges
    | some q =>
        have hkept : Merges (left.reverse ++ (gapCmd bdev di ++ ((some q).toList ++ rest)))
            (((some q).toList ++ c :: tail).reverse ++ rest) := by
          simpa using hmerges
        simp only []
        split_ifs with hmerge
        · obtain ⟨hqstate, hqdev, hnext⟩ := hmerge
          rw [List.reverse_cons, List.append_assoc]
          exact hmerges.tail (.join _ _ ⟨hstate, hqstate, hdev.trans hqdev.symm, hnext, rfl,
            Nat.add_comm _ _, rfl, hqdev.trans hdev.symm, hqstate⟩)
        · exact hkept

/-- The next round starts behind the next command, wherever that begins by now. -/
lemma fillGap_head {q : DiscardCmd} :
    (fillGap bdev left (some q) di).head?.map DiscardCmd.stop = some q.stop := by
  unfold fillGap
  split_ifs with hlen
  · rfl
  · simp only []
    generalize (backMerge bdev di left).elim di (fun x => x.1.di) = cur
    split_ifs with hmerge
    · have hnext : cur.lstart + cur.len = q.lstart := hmerge.2.2.1
      simp only [List.head?_cons, Option.map_some, DiscardCmd.stop, Option.some.injEq]
      omega
    · rfl

/-- **The loop merges the gaps, and does nothing else.** -/
lemma updateLoop_merges (hprev : left.head?.map DiscardCmd.stop = prev.map DiscardCmd.stop) :
    Merges (left.reverse ++ fillLoop bdev lstart start len prev rest)
      (updateLoop bdev lstart start len left rest) := by
  induction rest generalizing left prev with
  | nil =>
      unfold fillLoop updateLoop
      rw [nextGap_congr hprev]
      cases nextGap lstart start len prev none with
      | none => simpa using ReflTransGen.refl
      | some di => simpa using @fillGap_merges left [] bdev di none
  | cons q rest ih =>
      unfold fillLoop updateLoop
      rw [nextGap_congr hprev]
      cases nextGap lstart start len prev (some q) with
      | none => exact ReflTransGen.refl
      | some di =>
          exact fillGap_merges.trans
            (@ih (fillGap bdev left (some q) di) (some q) fillGap_head)

/-! ## The counter -/

/-- Each round counts the gap, once. -/
lemma fillBlks_eq (blks : BitVec 32) :
    fillBlks bdev left next di blks = blks + BitVec.ofNat 32 di.len := by
  unfold fillBlks
  split_ifs with hlen
  · simp [hlen]
  · cases hback : backMerge bdev di left with
    | none =>
        cases next with
        | none => rfl
        | some q =>
            simp only [Option.elim_none, Option.isSome_none, Bool.false_eq_true, if_false]
            split_ifs <;> rfl
    | some x =>
        cases next with
        | none => rfl
        | some q =>
            simp only [Option.elim_some, Option.isSome_some, if_true]
            split_ifs
            · exact BitVec.add_sub_cancel _ _
            · rfl

lemma gapCmd_lens : lens (gapCmd bdev di) = di.len := by
  unfold gapCmd
  split_ifs with hlen
  · rw [hlen, lens_nil]
  · simp

lemma Merges.lens (h : Merges cmds cmds') : lens cmds' = lens cmds := by
  induction h with
  | refl => rfl
  | tail _ hstep ih => exact hstep.lens.trans ih

lemma fillGap_lens : lens (fillGap bdev left next di) = lens left + di.len + lens next.toList := by
  have h := (@fillGap_merges left [] bdev di next).lens
  simp only [lens_append, lens_reverse, lens_nil, gapCmd_lens] at h
  omega

/-- `undiscard_blks` follows the loop. -/
lemma updateBlks_eq {blks : BitVec 32} (h : blks = BitVec.ofNat 32 (lens left + lens rest)) :
    updateBlks bdev lstart start len left rest blks
      = BitVec.ofNat 32 (lens (updateLoop bdev lstart start len left rest)) := by
  induction rest generalizing left blks with
  | nil =>
      unfold updateBlks updateLoop
      cases nextGap lstart start len left.head? none with
      | none => simpa using h
      | some di => simp [fillBlks_eq, fillGap_lens, h, BitVec.ofNat_add]
  | cons q rest ih =>
      unfold updateBlks updateLoop
      cases nextGap lstart start len left.head? (some q) with
      | none => simpa using h
      | some di =>
          refine ih ?_
          rw [fillBlks_eq, fillGap_lens, h, ← BitVec.ofNat_add]
          congr 1
          simp only [lens_cons, Option.toList_some, lens_nil]
          omega

/-! ## A range is queued -/

/-- What `__update_discard_tree_range` should do. -/
structure RangeAdded (bdev lstart start len : ℕ) (dcc dcc' : Dcc) : Prop where
  tree : PrepTree dcc'.root
  union : covered dcc'.root = covered dcc.root ∪ Set.Ico lstart (lstart + len)
  /-- The old commands and some new ones, each in a gap, have been merged. -/
  merges : ∃ filled, dcc.root.Sublist filled ∧ PrepTree filled ∧
    (∀ c ∈ filled, c ∈ dcc.root ∨ IsGap bdev lstart start len c) ∧ Merges filled dcc'.root
  offsets : ∀ off : ℕ → ℤ, OffsetsAre off dcc.root → (start : ℤ) - lstart = off bdev →
    OffsetsAre off dcc'.root
  counted : dcc.Counted → dcc'.Counted

/-- The tree with the gaps of the range as commands of their own. -/
def filled (bdev lstart start len : ℕ) (cmds : List DiscardCmd) : List DiscardCmd :=
  let before := cmds.takeWhile fun dc => dc.lstart ≤ lstart
  before ++ fillLoop bdev lstart start len before.reverse.head?
    (cmds.dropWhile fun dc => dc.lstart ≤ lstart)

/-- The commands before the range and the one that the loop starts with. -/
lemma filledBehind (h : PrepTree cmds) :
    FilledBehind bdev lstart start len (cmds.takeWhile fun dc => dc.lstart ≤ lstart).reverse.head?
      (cmds.dropWhile fun dc => dc.lstart ≤ lstart)
      (fillLoop bdev lstart start len
        (cmds.takeWhile fun dc => dc.lstart ≤ lstart).reverse.head?
        (cmds.dropWhile fun dc => dc.lstart ≤ lstart)) := by
  refine fillLoop_spec ?_ (lstart_le_of_dropWhile h.apart)
  have hsplit : cmds.takeWhile (fun dc => dc.lstart ≤ lstart) ++
      cmds.dropWhile (fun dc => dc.lstart ≤ lstart) = cmds := List.takeWhile_append_dropWhile
  have hapart := h.apart
  rw [← hsplit, List.pairwise_append] at hapart
  refine List.pairwise_append.mpr ⟨?_, hapart.2.1, fun p hp => hapart.2.2 p ?_⟩
  · cases (cmds.takeWhile fun dc => dc.lstart ≤ lstart).reverse.head? with
    | none => exact List.Pairwise.nil
    | some p => exact List.pairwise_singleton _ _
  · rw [← List.mem_reverse]
    exact List.mem_of_mem_head? (by simpa using hp)

lemma filled_spec (h : PrepTree cmds) :
    cmds.Sublist (filled bdev lstart start len cmds) ∧
      PrepTree (filled bdev lstart start len cmds) ∧
      (∀ c ∈ filled bdev lstart start len cmds, c ∈ cmds ∨ IsGap bdev lstart start len c) ∧
      ∀ b ∈ Set.Ico lstart (lstart + len), b ∈ covered (filled bdev lstart start len cmds) := by
  have hout := @filledBehind cmds bdev lstart start len h
  have hsplit : cmds.takeWhile (fun dc => dc.lstart ≤ lstart) ++
      cmds.dropWhile (fun dc => dc.lstart ≤ lstart) = cmds := List.takeWhile_append_dropWhile
  have hbefore : ∀ p ∈ cmds.takeWhile (fun dc => dc.lstart ≤ lstart), p.lstart ≤ lstart := by
    intro p hp
    simpa using List.mem_takeWhile_imp hp
  have hapart := h.apart
  unfold filled
  generalize cmds.takeWhile (fun dc => dc.lstart ≤ lstart) = before at *
  generalize cmds.dropWhile (fun dc => dc.lstart ≤ lstart) = rest at *
  obtain rfl := hsplit
  have hfresh : ∀ c ∈ before ++ fillLoop bdev lstart start len before.reverse.head? rest,
      c ∈ before ++ rest ∨ IsGap bdev lstart start len c := by
    intro c hc
    rcases List.mem_append.mp hc with hc | hc
    · exact Or.inl (List.mem_append_left _ hc)
    · exact (hout.fresh c hc).imp_left (List.mem_append_right _)
  refine ⟨(List.append_sublist_append_left _).mpr hout.kept, ⟨?_, ?_, ?_⟩, hfresh, ?_⟩
  · have hb := (List.pairwise_append.mp hapart).1
    refine List.pairwise_append.mpr ⟨hb, hout.apart, fun a ha c hc => ?_⟩
    exact @stop_le_of_head before.reverse _ (by rwa [List.reverse_reverse])
      (fun p hp => hout.behind p hp c hc) a (List.mem_reverse.mpr ha)
  · intro c hc
    rcases hfresh c hc with hc | hc
    · exact h.pos c hc
    · exact hc.pos
  · intro c hc
    rcases hfresh c hc with hc | hc
    · exact h.prep c hc
    · exact hc.state_eq
  · intro b hb
    rw [covered_append]
    by_cases hlast : ∀ p ∈ before.reverse.head?, p.stop ≤ b
    · exact Or.inr (hout.covers b hb.1 hb.2 hlast)
    · push Not at hlast
      obtain ⟨p, hp, hlt⟩ := hlast
      have hmem : p ∈ before := List.mem_reverse.mp (List.mem_of_mem_head? hp)
      exact Or.inl ⟨p, hmem, (hbefore p hmem).trans hb.1, hlt⟩

/-- **`__update_discard_tree_range`**: the blocks of the range are added, and the commands are
merged where they may be. -/
lemma updateRange_added {dcc : Dcc} (h : PrepTree dcc.root) :
    RangeAdded bdev lstart start len dcc (dcc.updateRange bdev lstart start len) := by
  obtain ⟨hsub, htree, hfresh, hrange⟩ := 
    @filled_spec dcc.root bdev lstart start len h
  have hmerges : Merges (filled bdev lstart start len dcc.root)
      (dcc.updateRange bdev lstart start len).root := by
    have hloop := @updateLoop_merges
      (dcc.root.takeWhile fun dc => dc.lstart ≤ lstart).reverse
      (dcc.root.dropWhile fun dc => dc.lstart ≤ lstart) bdev lstart start len _ rfl
    rwa [List.reverse_reverse] at hloop
  have hkeeps := fun off : ℕ → ℤ => @Merges.keeps _ _ off hmerges htree
  refine ⟨(hkeeps 0).1, ?_, ⟨_, hsub, htree, hfresh, hmerges⟩, ?_, ?_⟩
  · rw [(hkeeps 0).2.1]
    ext b
    constructor
    · rintro ⟨c, hc, hb⟩
      rcases hfresh c hc with hc | hc
      · exact Or.inl ⟨c, hc, hb⟩
      · exact Or.inr ⟨hc.low.trans hb.1, lt_of_lt_of_le hb.2 hc.high⟩
    · rintro (⟨c, hc, hb⟩ | hb)
      · exact ⟨c, hsub.subset hc, hb⟩
      · exact hrange b hb
  · intro off hoff hstart
    refine (hkeeps off).2.2 fun c hc => ?_
    rcases hfresh c hc with hc | hc
    · exact hoff c hc
    · have hlow := hc.low
      rw [hc.start_eq, hc.bdev_eq, ← hstart]
      omega
  · intro hcnt
    have hsplit : dcc.root.takeWhile (fun dc => dc.lstart ≤ lstart) ++
        dcc.root.dropWhile (fun dc => dc.lstart ≤ lstart) = dcc.root :=
      List.takeWhile_append_dropWhile
    refine updateBlks_eq ?_
    rw [lens_reverse, ← lens_append, hsplit]
    exact hcnt

/-! ## A block is written -/

variable {blk : ℕ} {dc : DiscardCmd}

/-- What `__punch_discard_cmd` should do. -/
structure BlockPunched (blk : ℕ) (dcc dcc' : Dcc) : Prop where
  tree : PrepTree dcc'.root
  union : covered dcc'.root = covered dcc.root \ {blk}
  offsets : ∀ off : ℕ → ℤ, OffsetsAre off dcc.root → OffsetsAre off dcc'.root
  counted : dcc.Counted → dcc'.Counted

lemma replaceFirst_append (rest : List DiscardCmd) {p : DiscardCmd → Bool}
    {f : DiscardCmd → Option (List DiscardCmd)} (hleft : ∀ a ∈ left, p a = false) (hdc : p dc = true) :
    replaceFirst p f (left ++ dc :: rest) = (f dc).map fun mid => left ++ (mid ++ rest) := by
  induction left with
  | nil => simp [replaceFirst, hdc]
  | cons a left ih =>
      have ha := hleft a (by simp)
      have hl := ih fun x hx => hleft x (by simp [hx])
      simp [replaceFirst, ha, hl, Option.map_map, Function.comp_def]

/-- A part of a command on one side of the block. -/
structure PartOf (blk : ℕ) (dc c : DiscardCmd) : Prop where
  pos : 0 < c.len
  state_eq : c.state = dc.state
  low : dc.lstart ≤ c.lstart
  high : c.stop ≤ dc.stop
  bdev_eq : c.bdev = dc.bdev
  offset : (c.start : ℤ) - c.lstart = dc.start - dc.lstart

/-- **What is left of a command** whose block is cut out: everything else. -/
lemma punchDiscardCmd_parts (hprep : dc.state = .prep) (hpos : 0 < dc.len) (hcov : dc.Covers blk) :
    (∀ c ∈ punchDiscardCmd blk dc, PartOf blk dc c) ∧
      ((punchDiscardCmd blk dc).Pairwise fun a b => a.stop ≤ b.lstart) ∧
      (∀ b, b ∈ covered (punchDiscardCmd blk dc) ↔ dc.Covers b ∧ b ≠ blk) ∧
      lens (punchDiscardCmd blk dc) + 1 = dc.len := by
  obtain ⟨hlow, hhigh⟩ := hcov
  simp only [DiscardCmd.stop] at hhigh
  have hdone : dc.state ≠ .done := by simp [hprep]
  unfold punchDiscardCmd
  split_ifs with h1 h2 h3 h4
  · have hone : dc.len = 1 := h1.resolve_left hdone
    refine ⟨by simp, List.Pairwise.nil, fun b => ?_, by simp [hone]⟩
    simp only [covered_nil, Set.mem_empty_iff_false, false_iff, DiscardCmd.Covers, DiscardCmd.stop]
    omega
  · -- The block is in the middle.
    refine ⟨?_, ?_, fun b => ?_, ?_⟩
    · intro c hc
      simp only [List.mem_cons, List.not_mem_nil, or_false] at hc
      rcases hc with rfl | rfl
      · constructor <;> simp only [DiscardCmd.stop] <;> omega
      · constructor <;> simp only [DiscardCmd.stop, hprep] <;> omega
    · simp only [List.pairwise_pair, DiscardCmd.stop]
      omega
    · simp only [mem_covered, List.mem_cons, List.not_mem_nil, or_false, exists_eq_or_imp,
        exists_eq_left, DiscardCmd.Covers, DiscardCmd.stop]
      omega
    · simp only [lens_cons, lens_nil]
      omega
  · -- It is the last one.
    refine ⟨?_, List.pairwise_singleton _ _, fun b => ?_, ?_⟩
    · intro c hc
      obtain rfl := List.mem_singleton.mp hc
      constructor <;> simp only [DiscardCmd.stop] <;> omega
    · simp only [mem_covered, List.mem_singleton, exists_eq_left, DiscardCmd.Covers,
        DiscardCmd.stop]
      omega
    · simp only [lens_cons, lens_nil]
      omega
  · -- It is the first one.
    refine ⟨?_, List.pairwise_singleton _ _, fun b => ?_, ?_⟩
    · intro c hc
      obtain rfl := List.mem_singleton.mp hc
      constructor <;> simp only [DiscardCmd.stop, hprep] <;> omega
    · simp only [mem_covered, List.mem_singleton, exists_eq_left, DiscardCmd.Covers,
        DiscardCmd.stop]
      omega
    · simp only [lens_cons, lens_nil]
      omega
  · exfalso
    simp only [not_or] at h1
    omega

/-- The statements of `__punch_discard_cmd` that change the counter agree with those that change
the command. -/
lemma punchBlks_eq (hcov : dc.Covers blk) (hpos : 0 < dc.len)
    (n : ℕ) : punchBlks blk dc (BitVec.ofNat 32 (dc.len + n))
      = BitVec.ofNat 32 (lens (punchDiscardCmd blk dc) + n) := by
  obtain ⟨hlow, hhigh⟩ := hcov
  simp only [DiscardCmd.stop] at hhigh
  have hless : BitVec.ofNat 32 (dc.len + n) - BitVec.ofNat 32 dc.len = BitVec.ofNat 32 n := by
    rw [Nat.add_comm, BitVec.ofNat_add]
    exact BitVec.add_sub_cancel _ _
  unfold punchBlks punchDiscardCmd
  split_ifs with h1 h2 h3 h4
  · simpa using hless
  · simp only [hless, ← BitVec.ofNat_add, lens_cons, lens_nil]
    congr 1
    omega
  · simp only [hless, ← BitVec.ofNat_add, lens_cons, lens_nil]
    congr 1
    omega
  · simp only [hless, ← BitVec.ofNat_add, lens_cons, lens_nil]
    congr 1
    omega
  · exfalso
    simp only [not_or] at h1
    omega

/-- The command that covers the block, or none. -/
lemma punch_cases (dcc : Dcc) (blk : ℕ) :
    ((∀ dc ∈ dcc.root, ¬ dc.Covers blk) ∧ dcc.punch blk = dcc) ∨
      ∃ left dc rest, dcc.root = left ++ dc :: rest ∧ dc.Covers blk ∧
        dcc.punch blk = ⟨left ++ (punchDiscardCmd blk dc ++ rest),
          punchBlks blk dc dcc.undiscardBlks⟩ := by
  cases hfind : dcc.root.find? fun dc => decide (dc.Covers blk) with
  | none =>
      have hnone : ∀ dc ∈ dcc.root, ¬ dc.Covers blk := by simpa using hfind
      have hroot : replaceFirst (fun dc => decide (dc.Covers blk))
          (fun dc => some (punchDiscardCmd blk dc)) dcc.root = some dcc.root := by
        generalize dcc.root = root at hnone
        induction root with
        | nil => rfl
        | cons dc root ih =>
            have hdc := hnone dc (by simp)
            simp [replaceFirst, hdc, ih fun x hx => hnone x (by simp [hx])]
      refine Or.inl ⟨hnone, ?_⟩
      simp [Dcc.punch, hfind, hroot]
  | some dc =>
      obtain ⟨hdc, left, rest, hroot, hleft⟩ := List.find?_eq_some_iff_append.mp hfind
      refine Or.inr ⟨left, dc, rest, hroot, by simpa using hdc, ?_⟩
      have hrep := replaceFirst_append rest (p := fun dc => decide (dc.Covers blk))
        (f := fun dc => some (punchDiscardCmd blk dc)) (fun a ha => by simpa using hleft a ha) hdc
      rw [← hroot] at hrep
      simp [Dcc.punch, hfind, hrep]

/-- **`__punch_discard_cmd`**: the block is gone, and nothing else is. -/
lemma punch_punched {dcc : Dcc} (h : PrepTree dcc.root) :
    BlockPunched blk dcc (dcc.punch blk) := by
  rcases punch_cases dcc blk with ⟨hnone, heq⟩ | ⟨left, dc, rest, hroot, hcov, heq⟩
  · rw [heq]
    refine ⟨h, ?_, fun _ => id, id⟩
    refine (Set.sdiff_singleton_eq_self ?_).symm
    rintro ⟨dc, hdc, hcov⟩
    exact hnone dc hdc hcov
  · have hprep := h.prep dc (by simp [hroot])
    have hpos := h.pos dc (by simp [hroot])
    obtain ⟨hparts, hpw, hcovers, hlens⟩ := punchDiscardCmd_parts hprep hpos hcov
    have hapart := h.apart
    rw [hroot, List.pairwise_append] at hapart
    obtain ⟨hl, hr, hlr⟩ := hapart
    obtain ⟨hdr, hr⟩ := List.pairwise_cons.mp hr
    -- Where a command of the new tree comes from.
    have hmem : ∀ c ∈ left ++ (punchDiscardCmd blk dc ++ rest),
        c ∈ dcc.root ∨ PartOf blk dc c := by
      intro c hc
      rw [hroot]
      rcases List.mem_append.mp hc with hc | hc
      · exact Or.inl (by simp [hc])
      · rcases List.mem_append.mp hc with hc | hc
        · exact Or.inr (hparts c hc)
        · exact Or.inl (by simp [hc])
    rw [heq]
    refine ⟨⟨?_, ?_, ?_⟩, ?_, ?_, ?_⟩
    · refine List.pairwise_append.mpr ⟨hl, List.pairwise_append.mpr ⟨hpw, hr, ?_⟩, ?_⟩
      · intro c hc x hx
        exact (hparts c hc).high.trans (hdr x hx)
      · intro a ha c hc
        rcases List.mem_append.mp hc with hc | hc
        · exact (hlr a ha dc (by simp)).trans (hparts c hc).low
        · exact hlr a ha c (by simp [hc])
    · intro c hc
      rcases hmem c hc with hc | hc
      · exact h.pos c hc
      · exact hc.pos
    · intro c hc
      rcases hmem c hc with hc | hc
      · exact h.prep c hc
      · exact hc.state_eq.trans hprep
    · -- The other commands are apart from the one that covers the block.
      have hother : ∀ x ∈ left ++ rest, ¬ x.Covers blk := by
        rintro x hx ⟨h1, h2⟩
        obtain ⟨h3, h4⟩ := hcov
        rcases List.mem_append.mp hx with hx | hx
        · have := hlr x hx dc (by simp)
          omega
        · have := hdr x hx
          omega
      ext b
      constructor
      · rintro ⟨c, hc, hb⟩
        rcases List.mem_append.mp hc with hc | hc
        · exact ⟨⟨c, by simp [hroot, hc], hb⟩, fun hbb => hother c (by simp [hc]) (hbb ▸ hb)⟩
        · rcases List.mem_append.mp hc with hc | hc
          · obtain ⟨hbdc, hne⟩ := (hcovers b).mp ⟨c, hc, hb⟩
            exact ⟨⟨dc, by simp [hroot], hbdc⟩, hne⟩
          · exact ⟨⟨c, by simp [hroot, hc], hb⟩, fun hbb => hother c (by simp [hc]) (hbb ▸ hb)⟩
      · rintro ⟨⟨c, hc, hb⟩, hne⟩
        rw [hroot] at hc
        rcases List.mem_append.mp hc with hc | hc
        · exact ⟨c, by simp [hc], hb⟩
        · rcases List.mem_cons.mp hc with rfl | hc
          · obtain ⟨c', hc', hb'⟩ := (hcovers b).mpr ⟨hb, hne⟩
            exact ⟨c', by simp [hc'], hb'⟩
          · exact ⟨c, by simp [hc], hb⟩
    · intro off hoff c hc
      rcases hmem c hc with hc | hc
      · exact hoff c hc
      · rw [hc.offset, hc.bdev_eq]
        exact hoff dc (by simp [hroot])
    · intro hcnt
      have hsum : lens dcc.root = dc.len + (lens left + lens rest) := by
        rw [hroot, lens_append, lens_cons]
        omega
      simp only [Dcc.Counted, hsum] at hcnt ⊢
      rw [hcnt, punchBlks_eq hcov hpos]
      simp only [lens_append]
      congr 1
      omega

/-! ## The result -/

/-- **The tree is exact**: queuing a range adds its blocks and writing a block takes it out, the
commands stay apart, in order and at the offset of their device, and `undiscard_blks` is the sum of
their lengths. -/
theorem discard_tree_exact {dcc : Dcc} (h : PrepTree dcc.root) :
    (∀ bdev lstart start len : ℕ, RangeAdded bdev lstart start len dcc
      (dcc.updateRange bdev lstart start len)) ∧
      ∀ blk : ℕ, BlockPunched blk dcc (dcc.punch blk) :=
  ⟨fun _ _ _ _ => updateRange_added h, fun _ => punch_punched h⟩

/-- Two commands of one device, with a gap between them. -/
def gappedTree : Dcc where
  root := [⟨10, 5, 110, 0, .prep, 0⟩, ⟨20, 5, 120, 0, .prep, 0⟩]
  undiscardBlks := 10

lemma gappedTree_prep : PrepTree gappedTree.root where
  apart := by simp [gappedTree, DiscardCmd.stop]
  pos := by simp [gappedTree]
  prep := by simp [gappedTree]

-- A range that ends in the second command and fills the gap.
example : (gappedTree.updateRange 0 12 112 10).root = [⟨10, 15, 110, 0, .prep, 0⟩] := by decide

theorem discard_tree_exact_gapped :
    RangeAdded 0 12 112 10 gappedTree (gappedTree.updateRange 0 12 112 10) ∧
      BlockPunched 22 gappedTree (gappedTree.punch 22) :=
  ⟨(discard_tree_exact gappedTree_prep).1 0 12 112 10, (discard_tree_exact gappedTree_prep).2 22⟩

end Hoit.Segment.DiscardUnion
