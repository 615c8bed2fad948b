import HoitF2fs.Node.FileMap

/-!
# Truncation, block by block

* `blockAt_cutTo`, `nidAt_cutTo` — what `CutTo` says of the single blocks and nodes.
* `SharesHole` — two blocks that the same missing node has below it.  **Where the offset is below a
  missing node, the truncation does not look at what else is below it**: it frees a node whose only
  blocks before the offset are of this kind.
* `truncate_blocks_exact` — **all blocks from the offset on are gone, and all nodes that are needed
  for no block before it; the rest is as it was, and the counts go down by what is gone**.
-/

namespace Hoit.Truncate

open NodePath Slots

variable {lay : AddrLayout} {t t₁ t' : FileTree} {s s₁ s' : Counters}
  {q i k a m r j n b first width : ℕ}

/-! ## Single blocks and nodes -/

/-- Node `n` is left when `m` direct nodes are. -/
def KeptAt (m : ℕ) (t : FileTree) (n first : ℕ) : Prop :=
  first < m ∧ ¬ (n = 2041 ∧ m < 3056 ∧ t.nidAt 2042 = none)

lemma leaf_cutTo (h : CutTo m t t') (hi : i < 1038362) :
    t'.leaf i = if i < m then t.leaf i else none := by
  rcases leaf_cases hi with hlt | ⟨q, k, hq, hk, rfl⟩ | ⟨a, k, ha, hk, rfl⟩
  · rw [leaf_direct hlt, leaf_direct hlt, h.direct i hlt]
  · have hiff : k < m - (2 + 1018 * q) ↔ 2 + 1018 * q + k < m := by omega
    rw [leaf_indirect hq hk, leaf_indirect hq hk, (h.indirect q hq).child k hk]
    simp only [hiff]
  · have hiff : k < m - 2038 - 1018 * a ↔ 2038 + (1018 * a + k) < m := by omega
    rw [leaf_dindirect hk, leaf_dindirect hk, (h.dindirect.child a ha).child k hk]
    simp only [hiff]

lemma blockAt_cutTo (h : CutTo m t t') (j : ℕ) : t'.blockAt lay j
    = if j < lay.addrsPerInode + 1018 * m then t.blockAt lay j else nullAddr := by
  by_cases hinode : j < lay.addrsPerInode
  · rw [blockAt_inode hinode, blockAt_inode hinode, h.addr, if_pos (by omega)]
  by_cases hend : lay.addrsPerInode + 1057052516 ≤ j
  · rw [blockAt_beyond hend, blockAt_beyond hend]
    split_ifs <;> rfl
  obtain ⟨i, r, hr, rfl⟩ : ∃ i r, r < 1018 ∧ j = lay.addrsPerInode + 1018 * i + r :=
    ⟨(j - lay.addrsPerInode) / 1018, (j - lay.addrsPerInode) % 1018, by omega, by omega⟩
  rw [blockAt_leaf (by omega) hr, blockAt_leaf (by omega) hr, leaf_cutTo h (by omega)]
  by_cases him : i < m
  · rw [if_pos him, if_pos (by omega)]
  · rw [if_neg him, if_neg (by omega)]
    rfl

lemma KeptTo.nid_eq {α : Type} {x x' : Option (IndexNode α)} (h : KeptTo k x x') :
    x'.map IndexNode.nid = if 0 < k then x.map IndexNode.nid else none := by
  split_ifs with hpos
  · exact h.nid hpos.ne'
  · rw [h.gone (by omega)]
    rfl

lemma KeptTo.child_nid {x x' : Option IndirectNode} (h : KeptTo k x x') (hi : i < 1018) :
    (childOf x' i).map DirectNode.nid
      = if i < k then (childOf x i).map DirectNode.nid else none := by
  rw [h.child i hi]
  split_ifs <;> rfl

lemma nidAt_cutTo (h : CutTo m t t') (hn : NodeOf n first width) :
    (KeptAt m t n first → t'.nidAt n = t.nidAt n) ∧
      (¬ KeptAt m t n first → t'.nidAt n = none) := by
  -- for the other nodes, it is only their place that counts
  have hplace : n ≠ 2041 → (t'.nidAt n = if first < m then t.nidAt n else none) →
      (KeptAt m t n first → t'.nidAt n = t.nidAt n) ∧
        (¬ KeptAt m t n first → t'.nidAt n = none) := by
    intro hne heq
    refine ⟨fun hkept => heq.trans (if_pos hkept.1), fun hkept => heq.trans (if_neg fun hlt => ?_)⟩
    exact hkept ⟨hlt, fun hdind => hne hdind.1⟩
  cases hn with
  | direct q hq =>
      refine hplace (by omega) ?_
      rw [nidAt_direct hq, nidAt_direct hq, h.direct first hq]
      split_ifs <;> rfl
  | indirect q hq =>
      refine hplace (by omega) ?_
      rw [nidAt_indirect hq, nidAt_indirect hq, (h.indirect q hq).nid_eq]
      simp only [Nat.sub_pos_iff_lt]
  | indirectChild q k hq hk =>
      refine hplace (by omega) ?_
      have hiff : k < m - (2 + 1018 * q) ↔ 2 + 1018 * q + k < m := by omega
      rw [nidAt_indirect_child hq hk, nidAt_indirect_child hq hk, (h.indirect q hq).child_nid hk]
      simp only [hiff]
  | dindirect =>
      have hgone : ¬ KeptAt m t 2041 2038 ↔ DindGone (m - 2038) t.dindirect := by
        rw [KeptAt, DindGone, ← Nat.mul_zero 1019, ← Nat.add_zero 2042,
          nidAt_dindirect_child (show 0 < 1018 by omega), Option.map_eq_none_iff]
        constructor
        · intro hnot
          by_cases hlt : 2038 < m
          · right
            by_contra hno
            exact hnot ⟨hlt, fun hall => hno ⟨by omega, hall.2.2⟩⟩
          · exact Or.inl (by omega)
        · rintro (hzero | ⟨hlt, hnone⟩) hkept
          · omega
          · exact hkept.2 ⟨rfl, by omega, hnone⟩
      rw [nidAt_dindirect, nidAt_dindirect]
      refine ⟨fun hkept => h.dindirect.nid fun hg => hgone.mpr hg hkept, fun hkept => ?_⟩
      rw [h.dindirect.gone (hgone.mp hkept)]
      rfl
  | dindirectChild a ha =>
      refine hplace (by omega) ?_
      have hiff : 0 < m - 2038 - 1018 * a ↔ 2038 + 1018 * a < m := by omega
      rw [nidAt_dindirect_child ha, nidAt_dindirect_child ha, (h.dindirect.child a ha).nid_eq]
      simp only [hiff]
  | dindirectGrandchild a k ha hk =>
      refine hplace (by omega) ?_
      have hiff : k < m - 2038 - 1018 * a ↔ 2038 + (1018 * a + k) < m := by omega
      rw [nidAt_dindirect_grandchild ha hk, nidAt_dindirect_grandchild ha hk,
        (h.dindirect.child a ha).child_nid hk]
      simp only [hiff]

/-! ## Missing nodes -/

/-- A missing node has both blocks below it. -/
def SharesHole (lay : AddrLayout) (t : FileTree) (b j : ℕ) : Prop :=
  ∃ h, h ≠ 0 ∧ t.nidAt h = none ∧ Below lay h b ∧ Below lay h j

/-- A block before block `b` is below node `n`, and it is not just missing together with `b`. -/
def Needed (lay : AddrLayout) (t : FileTree) (b n : ℕ) : Prop :=
  ∃ j < b, Below lay n j ∧ ¬ SharesHole lay t b j

/-- The first direct node below the uppermost missing node above direct node `m`. -/
def FileTree.holeStart (t : FileTree) (m : ℕ) : ℕ :=
  if m < 2 then m
  else if m < 2038 then
    if t.indirect ((m - 2) / 1018) = none then m - (m - 2) % 1018 else m
  else if t.dindirect = none then 2038
  else if childOf t.dindirect ((m - 2038) / 1018) = none then m - (m - 2038) % 1018
  else m

lemma holeStart_le_self : t.holeStart m ≤ m := by
  unfold FileTree.holeStart
  split_ifs <;> omega

/-- No missing node above starts before the uppermost one. -/
lemma holeStart_le (h : NodeOf n first width) (hnid : t.nidAt n = none) (hle : first ≤ m)
    (hlt : m < first + width) : t.holeStart m ≤ first := by
  have hself := holeStart_le_self (t := t) (m := m)
  cases h with
  | direct q hq => omega
  | indirect q hq =>
      rw [nidAt_indirect hq, Option.map_eq_none_iff] at hnid
      rw [FileTree.holeStart, if_neg (by omega), if_pos (by omega),
        show (m - 2) / 1018 = q by omega, if_pos hnid]
      omega
  | indirectChild q k hq hk => omega
  | dindirect =>
      rw [nidAt_dindirect, Option.map_eq_none_iff] at hnid
      rw [FileTree.holeStart, if_neg (by omega), if_neg (by omega), if_pos hnid]
  | dindirectChild a ha =>
      rw [nidAt_dindirect_child ha, Option.map_eq_none_iff] at hnid
      rw [FileTree.holeStart, if_neg (by omega), if_neg (by omega),
        show (m - 2038) / 1018 = a by omega, if_pos hnid]
      split_ifs <;> omega
  | dindirectGrandchild a k ha hk => omega

/-- The uppermost missing node. -/
lemma exists_hole (hm : m < 1038362) (hleaf : t.leaf m = none) :
    ∃ n width, NodeOf n (t.holeStart m) width ∧ t.nidAt n = none ∧
      m < t.holeStart m + width := by
  rcases leaf_cases hm with hlt | ⟨q, k, hq, hk, rfl⟩ | ⟨a, k, ha, hk, rfl⟩
  · rw [FileTree.holeStart, if_pos hlt]
    refine ⟨_, _, .direct m hlt, ?_, by omega⟩
    rw [nidAt_direct hlt, ← leaf_direct hlt, hleaf]
    rfl
  · rw [FileTree.holeStart, if_neg (by omega), if_pos (by omega),
      show (2 + 1018 * q + k - 2) / 1018 = q by omega]
    split_ifs with hnone
    · rw [show 2 + 1018 * q + k - (2 + 1018 * q + k - 2) % 1018 = 2 + 1018 * q by omega]
      refine ⟨_, _, .indirect q hq, ?_, by omega⟩
      rw [nidAt_indirect hq, hnone]
      rfl
    · refine ⟨_, _, .indirectChild q k hq hk, ?_, by omega⟩
      rw [nidAt_indirect_child hq hk, ← leaf_indirect hq hk, hleaf]
      rfl
  · rw [FileTree.holeStart, if_neg (by omega), if_neg (by omega),
      show (2038 + (1018 * a + k) - 2038) / 1018 = a by omega]
    split_ifs with hnone hchild
    · refine ⟨_, _, .dindirect, ?_, by omega⟩
      rw [nidAt_dindirect, hnone]
      rfl
    · rw [show 2038 + (1018 * a + k) - (2038 + (1018 * a + k) - 2038) % 1018 = 2038 + 1018 * a
        by omega]
      refine ⟨_, _, .dindirectChild a ha, ?_, by omega⟩
      rw [nidAt_dindirect_child ha, hchild]
      rfl
    · refine ⟨_, _, .dindirectGrandchild a k ha hk, ?_, by omega⟩
      rw [nidAt_dindirect_grandchild ha hk, ← leaf_dindirect hk, hleaf]
      rfl

/-! ## What is needed, and what is left -/

lemma sharesHole_iff (hm : m < 1038362) (hr : r < 1018) (hleaf : t.leaf m = none)
    (hj : j < lay.addrsPerInode + 1018 * m + r) :
    SharesHole lay t (lay.addrsPerInode + 1018 * m + r) j
      ↔ lay.addrsPerInode + 1018 * t.holeStart m ≤ j := by
  constructor
  · rintro ⟨h, h0, hnid, hb, hbelow⟩
    obtain ⟨first, width, hn⟩ := below_nodeOf hb h0
    rw [hn.below] at hb hbelow
    have hstart := holeStart_le hn hnid (show first ≤ m by omega) (by omega)
    omega
  · intro hstart
    obtain ⟨h, width, hn, hnid, hlt⟩ := exists_hole hm hleaf
    have hself := holeStart_le_self (t := t) (m := m)
    exact ⟨h, hn.ne_zero, hnid, hn.below.mpr (by omega), hn.below.mpr (by omega)⟩

lemma not_sharesHole (hr : r < 1018) (hleaf : t.leaf m ≠ none) :
    ¬ SharesHole lay t (lay.addrsPerInode + 1018 * m + r) j := by
  rintro ⟨h, h0, hnid, hb, -⟩
  obtain ⟨first, width, hn⟩ := below_nodeOf hb h0
  rw [hn.below] at hb
  exact hleaf (leaf_eq_none hn hnid (by omega) (by omega))

/-- In the inode no block is missing. -/
lemma not_sharesHole_inode (hb : b ≤ lay.addrsPerInode) (hj : j < b) : ¬ SharesHole lay t b j := by
  rintro ⟨h, h0, -, -, hbelow⟩
  obtain ⟨first, width, hn⟩ := below_nodeOf hbelow h0
  rw [hn.below] at hbelow
  omega

lemma needed_hole (hm : m < 1038362) (hr : r < 1018) (hleaf : t.leaf m = none)
    (hn : NodeOf n first width) :
    Needed lay t (lay.addrsPerInode + 1018 * m + r) n ↔ first < t.holeStart m := by
  have hself := holeStart_le_self (t := t) (m := m)
  have hwidth := hn.width_pos
  constructor
  · rintro ⟨j, hj, hbelow, hnot⟩
    rw [hn.below] at hbelow
    rw [sharesHole_iff hm hr hleaf hj] at hnot
    omega
  · intro hlt
    refine ⟨lay.addrsPerInode + 1018 * first, by omega, hn.below.mpr (by omega), ?_⟩
    rw [sharesHole_iff hm hr hleaf (by omega)]
    omega

lemma needed_of_not_hole (hnot : ∀ j < b, ¬ SharesHole lay t b j) (hn : NodeOf n first width) :
    Needed lay t b n ↔ lay.addrsPerInode + 1018 * first < b := by
  have hwidth := hn.width_pos
  constructor
  · rintro ⟨j, hj, hbelow, -⟩
    rw [hn.below] at hbelow
    omega
  · intro hlt
    exact ⟨_, hlt, hn.below.mpr (by omega), hnot _ hlt⟩

/-- What is left is what is before the hole: the node is not below the hole, since it is there, and
if it is above the hole, it has something else before it. -/
lemma keptAt_hole (hm : m < 1038362) (hn : NodeOf n first width) (hnid : t.nidAt n ≠ none) :
    KeptAt m t n first ↔ first < t.holeStart m := by
  have hself := holeStart_le_self (t := t) (m := m)
  constructor
  · rintro ⟨hlt, hdind⟩
    by_contra hge
    -- the node is above direct node `m`, or below the hole
    rcases leaf_cases hm with hdirect | ⟨q, k, hq, hk, rfl⟩ | ⟨a, k, ha, hk, rfl⟩
    · rw [FileTree.holeStart, if_pos hdirect] at hge
      exact hge hlt
    · rw [FileTree.holeStart, if_neg (by omega), if_pos (by omega),
        show (2 + 1018 * q + k - 2) / 1018 = q by omega] at hge
      split_ifs at hge with hnone
      · cases hn with
        | direct q' hq' => omega
        | indirect q' hq' =>
            obtain rfl : q' = q := by omega
            rw [nidAt_indirect hq', hnone] at hnid
            exact hnid rfl
        | indirectChild q' k' hq' hk' =>
            obtain rfl : q' = q := by omega
            rw [nidAt_indirect_child hq' hk', hnone] at hnid
            exact hnid rfl
        | dindirect => omega
        | dindirectChild a' ha' => omega
        | dindirectGrandchild a' k' ha' hk' => omega
      · exact hge hlt
    · rw [FileTree.holeStart, if_neg (by omega), if_neg (by omega),
        show (2038 + (1018 * a + k) - 2038) / 1018 = a by omega] at hge
      split_ifs at hge with hnone hchild
      · cases hn with
        | direct q' hq' => omega
        | indirect q' hq' => omega
        | indirectChild q' k' hq' hk' => omega
        | dindirect =>
            rw [nidAt_dindirect, hnone] at hnid
            exact hnid rfl
        | dindirectChild a' ha' =>
            rw [nidAt_dindirect_child ha', hnone] at hnid
            exact hnid rfl
        | dindirectGrandchild a' k' ha' hk' =>
            rw [nidAt_dindirect_grandchild ha' hk', hnone] at hnid
            exact hnid rfl
      · cases hn with
        | direct q' hq' => omega
        | indirect q' hq' => omega
        | indirectChild q' k' hq' hk' => omega
        | dindirect =>
            obtain rfl : a = 0 := by omega
            refine hdind ⟨rfl, by omega, ?_⟩
            have hat := nidAt_dindirect_child (t := t) ha
            rw [hchild] at hat
            exact hat
        | dindirectChild a' ha' =>
            obtain rfl : a' = a := by omega
            rw [nidAt_dindirect_child ha', hchild] at hnid
            exact hnid rfl
        | dindirectGrandchild a' k' ha' hk' =>
            obtain rfl : a' = a := by omega
            rw [nidAt_dindirect_grandchild ha' hk', hchild] at hnid
            exact hnid rfl
      · exact hge hlt
  · intro hlt
    refine ⟨by omega, ?_⟩
    rintro ⟨rfl, hm2, hnone⟩
    obtain rfl := hn.first_dindirect
    have hstart := holeStart_le (t := t) (m := m) (.dindirectChild 0 (by omega)) hnone (by omega)
      (by omega)
    omega

/-- With a direct node at the offset there is no hole. -/
lemma keptAt_leaf (hleaf : t.leaf i ≠ none) (hi : m = i ∨ m = i + 1) (hn : NodeOf n first width) :
    KeptAt m t n first ↔ first < m := by
  refine ⟨fun h => h.1, fun hlt => ⟨hlt, ?_⟩⟩
  rintro ⟨rfl, hm2, hnone⟩
  obtain rfl := hn.first_dindirect
  exact hleaf (leaf_eq_none (.dindirectChild 0 (by omega)) hnone (by omega) (by omega))

/-! ## Up to `f2fs_truncate_inode_blocks` -/

/-- The blocks in the dnode of the offset are gone, and `m` direct nodes are to be left. -/
structure Prepared (lay : AddrLayout) (b m : ℕ) (t : FileTree) (s : Counters) (t₁ : FileTree)
    (s₁ : Counters) : Prop where
  cleared : ∃ stop, Cleared lay b stop t s t₁ s₁ ∧
    (∀ j, b ≤ j → j < lay.addrsPerInode + 1018 * m → j < stop)
  behind : ∀ j, lay.addrsPerInode + 1018 * m ≤ j → j < b → t.blockAt lay j = nullAddr
  kept : ∀ n first width, NodeOf n first width → t.nidAt n ≠ none →
    (KeptAt m t n first ↔ Needed lay t b n)

/-- The offset is in the inode. -/
lemma prepared_inode (hb : b < lay.addrsPerInode) (t : FileTree) (s : Counters) :
    Prepared lay b 0 t s
      { t with addr := (f2fsTruncateDataBlocksRange t.addr b (lay.addrsPerInode - b) s).1 }
      (f2fsTruncateDataBlocksRange t.addr b (lay.addrsPerInode - b) s).2 := by
  refine ⟨⟨_, cleared_inode hb.le le_rfl t s, fun j _ hj => hj⟩, fun j hj hjb => by omega, ?_⟩
  intro n first width hn _
  rw [needed_of_not_hole (fun j hj => not_sharesHole_inode hb.le hj) hn]
  exact ⟨fun h => absurd h.1 (Nat.not_lt_zero _), fun h => by omega⟩

/-- The offset is in a direct node, behind its first block. -/
lemma prepared_leaf {p : Path} {d : DirectNode} (hm : m < 1038362) (hr : r < 1018) (hr0 : r ≠ 0)
    (hp : LeafPath lay m r p) (hleaf : t.leaf m = some d) (s : Counters) :
    Prepared lay (lay.addrsPerInode + 1018 * m + r) (m + 1) t s
      (t.setDnodeAddr p (f2fsTruncateDataBlocksRange d.addr r (1018 - r) s).1)
      (f2fsTruncateDataBlocksRange d.addr r (1018 - r) s).2 := by
  refine ⟨⟨_, cleared_leaf hm (show r + (1018 - r) ≤ 1018 by omega) hp hleaf s,
    fun j _ hj => by omega⟩, fun j hj hjb => by omega, ?_⟩
  intro n first width hn _
  have hne : t.leaf m ≠ none := by
    rw [hleaf]
    exact Option.some_ne_none d
  rw [keptAt_leaf hne (Or.inr rfl) hn, needed_of_not_hole (fun _ _ => not_sharesHole hr hne) hn]
  omega

/-- The offset is the first block of a direct node. -/
lemma prepared_start (hleaf : t.leaf m ≠ none) (s : Counters) :
    Prepared lay (lay.addrsPerInode + 1018 * m + 0) m t s t s := by
  refine ⟨⟨_, Cleared.refl _ t s, fun j hj hjm => by omega⟩, fun j hj hjb => by omega,
    fun n first width hn _ => ?_⟩
  rw [keptAt_leaf hleaf (Or.inl rfl) hn,
    needed_of_not_hole (fun _ _ => not_sharesHole (by omega) hleaf) hn]
  omega

/-- The offset is in a direct node that is missing. -/
lemma prepared_hole (hm : m < 1038362) (hr : r < 1018) (hleaf : t.leaf m = none) (s : Counters) :
    Prepared lay (lay.addrsPerInode + 1018 * m + r) m t s t s := by
  refine ⟨⟨_, Cleared.refl _ t s, fun j hj hjm => by omega⟩, fun j hj hjb => ?_,
    fun n first width hn hnid => ?_⟩
  · obtain ⟨r', rfl⟩ := Nat.exists_eq_add_of_le hj
    rw [blockAt_leaf hm (by omega), hleaf]
    rfl
  · rw [keptAt_hole hm hn hnid, needed_hole hm hr hleaf hn]

/-! ## The truncation -/

/-- The ids of the nodes that one tree has and the other does not. -/
def lostNids (t t' : FileTree) : Multiset ℕ :=
  ∑ n ∈ Finset.range 1039384 with t'.nidAt n = none, idOf (t.nidAt n)

/-- Block `b` and all behind it are gone, and with them the nodes that are not needed. -/
structure TruncatedAt (lay : AddrLayout) (b : ℕ) (t t' : FileTree) (s s' : Counters) : Prop where
  beyond : ∀ j, b ≤ j → t'.blockAt lay j = nullAddr
  before : ∀ j < b, t'.blockAt lay j = t.blockAt lay j
  kept : ∀ n, Needed lay t b n → t'.nidAt n = t.nidAt n
  gone : ∀ n, ¬ Needed lay t b n → t'.nidAt n = none
  frees : Frees (t.mapped lay (Set.Ici b), lostNids t t') s s'

lemma nidAt_beyond (hn : n = 0 ∨ 1039384 ≤ n) : t.nidAt n = none := if_pos hn

lemma truncated_of_prepared (hprep : Prepared lay b m t s t₁ s₁) (hcut : CutTo m t₁ t')
    (hfreed : Freed t₁ s₁ t' s') : TruncatedAt lay b t t' s s' := by
  obtain ⟨⟨stop, hcleared, hstop⟩, hbehind, hkeep⟩ := hprep
  have hblock : ∀ j, t'.blockAt lay j = if j < b then t.blockAt lay j else nullAddr := by
    intro j
    rw [blockAt_cutTo hcut, hcleared.blockAt]
    by_cases hj : j < lay.addrsPerInode + 1018 * m
    · rw [if_pos hj]
      by_cases hb : j < b
      · rw [if_pos hb, if_neg (by omega)]
      · rw [if_neg hb, if_pos ⟨not_lt.mp hb, hstop j (not_lt.mp hb) hj⟩]
    · rw [if_neg hj]
      split_ifs with hb
      · exact (hbehind j (not_lt.mp hj) hb).symm
      · rfl
  have hnid : ∀ n, (Needed lay t b n → t'.nidAt n = t.nidAt n) ∧
      (¬ Needed lay t b n → t'.nidAt n = none) := by
    intro n
    by_cases hrange : n = 0 ∨ 1039384 ≤ n
    · rw [nidAt_beyond hrange, nidAt_beyond hrange]
      exact ⟨fun _ => rfl, fun _ => rfl⟩
    · obtain ⟨first, width, hn⟩ := exists_nodeOf (fun h => hrange (Or.inl h))
        (not_le.mp fun h => hrange (Or.inr h))
      obtain ⟨hkept, hgone⟩ := nidAt_cutTo hcut hn
      rw [hcleared.nidAt] at hkept
      by_cases hnone : t.nidAt n = none
      · rw [hnone] at hkept ⊢
        have hboth : t'.nidAt n = none := by
          by_cases h : KeptAt m t₁ n first
          · exact hkept h
          · exact hgone h
        exact ⟨fun _ => hboth, fun _ => hboth⟩
      · have hat : KeptAt m t₁ n first ↔ KeptAt m t n first := by
          unfold KeptAt
          rw [hcleared.nidAt]
        rw [hat] at hkept hgone
        rw [← hkeep n first width hn hnone]
        exact ⟨hkept, hgone⟩
  refine ⟨fun j hj => (hblock j).trans (if_neg (by omega)),
    fun j hj => (hblock j).trans (if_pos hj), fun n => (hnid n).1, fun n => (hnid n).2, ?_⟩
  obtain ⟨k, hk, hblocks⟩ := hcleared.frees
  obtain ⟨⟨data, nids⟩, hc, hcontent⟩ := hfreed
  rw [nodesContent_eq, nodesContent_eq, Prod.mk_add_mk, Prod.mk.injEq] at hcontent
  obtain ⟨hfst, hsnd⟩ := hcontent
  -- the data blocks
  have hdata : t.mapped lay (Set.Ici b) = k + data := by
    have hlost := @blocks_lost lay t t' (Set.Ici b)
      (fun j hj => (hblock j).trans (if_neg (not_lt.mpr hj)))
      (fun j hj => (hblock j).trans (if_pos (not_le.mp hj)))
    have hsum : t₁.blocks lay = data + t'.blocks lay := by
      rw [blocks_eq, blocks_eq, hcut.addr, hfst]
      omega
    omega
  -- the nodes
  have hnodes : lostNids t t' = nids := by
    simp only [hcleared.nidAt] at hsnd
    have hleft : ∑ n ∈ Finset.range 1039384, idOf (t'.nidAt n)
        = ∑ n ∈ Finset.range 1039384 with ¬ t'.nidAt n = none, idOf (t.nidAt n) := by
      rw [Finset.sum_filter]
      refine Finset.sum_congr rfl fun n _ => ?_
      by_cases hneeded : Needed lay t b n
      · rw [(hnid n).1 hneeded]
        split_ifs with hnone
        · rw [hnone]
          rfl
        · rfl
      · rw [(hnid n).2 hneeded, if_neg (not_not.mpr rfl)]
        rfl
    rw [hleft, ← Finset.sum_filter_add_sum_filter_not _ fun n => t'.nidAt n = none] at hsnd
    exact add_right_cancel hsnd
  rw [hdata, hnodes]
  have hboth := hk.add hc
  rw [Prod.mk_add_mk, zero_add] at hboth
  exact hboth

/-- Behind `max_file_blocks` there is nothing to do. -/
lemma truncatedAt_beyond (hb : maxFileBlocks ≤ b)
    (hmax : ∀ j, maxFileBlocks ≤ j → t.blockAt lay j = nullAddr) (s : Counters) :
    TruncatedAt lay b t t s s := by
  have hlay := @addrsPerInode_le lay
  have hmaxeq : maxFileBlocks = 1057052516 := rfl
  have hneeded : ∀ n, t.nidAt n ≠ none → Needed lay t b n := by
    intro n hnid
    obtain ⟨first, width, hn⟩ := exists_nodeOf (fun h => hnid (nidAt_beyond (Or.inl h)))
      (not_le.mp fun h => hnid (nidAt_beyond (Or.inr h)))
    have hfirst : first ≤ 1038361 := by
      cases hn <;> omega
    by_cases hend : lay.addrsPerInode + 1057052516 ≤ b
    · refine (needed_of_not_hole ?_ hn).mpr (by omega)
      rintro j hj ⟨h, -, -, ⟨p, hp, -⟩, -⟩
      rw [getNodePath_eq_none hend] at hp
      exact absurd hp (by simp)
    · -- the offset is in the last direct node, or in its place
      obtain ⟨r, hr, rfl⟩ : ∃ r, r < 1018 ∧ b = lay.addrsPerInode + 1018 * 1038361 + r :=
        ⟨b - (lay.addrsPerInode + 1018 * 1038361), by omega, by omega⟩
      by_cases hleaf : t.leaf 1038361 = none
      · rw [needed_hole (by omega) hr hleaf hn, ← keptAt_hole (by omega) hn hnid]
        refine ⟨lt_of_le_of_ne hfirst ?_, fun h => absurd h.2.1 (by omega)⟩
        rintro rfl
        generalize hm : 1038361 = m at hn
        cases hn with
        | dindirectGrandchild a k ha hk =>
            rw [hm, leaf_dindirect hk] at hleaf
            rw [nidAt_dindirect_grandchild ha hk, hleaf] at hnid
            exact hnid rfl
        | _ => omega
      · exact (needed_of_not_hole (fun _ _ => not_sharesHole hr hleaf) hn).mpr (by omega)
  have hlost : lostNids t t = 0 := by
    refine Finset.sum_eq_zero fun n hn => ?_
    rw [(Finset.mem_filter.mp hn).2]
    rfl
  have hmapped : t.mapped lay (Set.Ici b) = 0 := by
    have hsame := @blocks_lost lay t t (Set.Ici b)
      (fun j hj => hmax j (hb.trans hj)) (fun _ _ => rfl)
    omega
  refine ⟨fun j hj => hmax j (hb.trans hj), fun _ _ => rfl, fun _ _ => rfl, fun n hn => ?_, ?_⟩
  · by_contra hnid
    exact hn (hneeded n hnid)
  · rw [hmapped, hlost]
    exact Frees.refl s

lemma truncated_of_inodeBlocks (hprep : Prepared lay b m t s t₁ s₁)
    (h : TruncatedFrom lay m r t₁ s₁) :
    TruncatedAt lay b t (f2fsTruncateInodeBlocks lay t₁ s₁ (lay.addrsPerInode + 1018 * m + r)).2.1
      s (f2fsTruncateInodeBlocks lay t₁ s₁ (lay.addrsPerInode + 1018 * m + r)).2.2 := by
  obtain ⟨t', s', heq, hcut, hfreed⟩ := h
  rw [heq]
  exact truncated_of_prepared hprep hcut hfreed

/-- **The truncation is exact**, for an offset that is a `loff_t`, in a file without blocks behind
`s_maxbytes`. -/
theorem truncate_blocks_exact (lay : AddrLayout) (t : FileTree) (s : Counters) (start : ℕ)
    (pageErr : ℤ) (hstart : start < 2 ^ 63)
    (hmax : ∀ j, maxFileBlocks ≤ j → t.blockAt lay j = nullAddr)
    (hok : (f2fsTruncateBlocks lay t s start pageErr).1 = 0) :
    TruncatedAt lay ((start + 4095) / 4096) t (f2fsTruncateBlocks lay t s start pageErr).2.1 s
      (f2fsTruncateBlocks lay t s start pageErr).2.2 := by
  have halign : f2fsBlkAlign start = (start + 4095) / 4096 := by
    rw [f2fsBlkAlign, Nat.mod_eq_of_lt (by omega)]
  have hlay := @addrsPerInode_le lay
  have hmaxeq : maxFileBlocks = 1057052516 := rfl
  unfold f2fsTruncateBlocks at hok ⊢
  rw [halign] at hok ⊢
  generalize (start + 4095) / 4096 = b at hok ⊢
  dsimp only at hok ⊢
  generalize hx : (ite (maxFileBlocks ≤ b) _ _) = x at hok ⊢
  have hzero : x.1 = 0 := by
    by_contra hne
    rw [if_neg hne] at hok
    exact hne hok
  rw [if_pos hzero]
  show TruncatedAt lay b t x.2.1 s x.2.2
  by_cases hbig : maxFileBlocks ≤ b
  · rw [if_pos hbig] at hx
    rw [← hx]
    exact truncatedAt_beyond hbig hmax s
  rw [if_neg hbig] at hx
  by_cases hinode : b < lay.addrsPerInode
  · have hd : b + (lay.addrsPerInode - b) = lay.addrsPerInode + 1018 * 0 + 0 := by omega
    have hdnode : t.dnodeAddr ⟨0, [b], [0]⟩ = some t.addr := rfl
    rw [(PathOf.inode b hinode).getNodePath] at hx
    dsimp only at hx
    rw [hdnode] at hx
    dsimp only at hx
    rw [if_pos (Or.inr rfl)] at hx
    have hcall : f2fsTruncateInodeBlocks lay
        { t with addr := (f2fsTruncateDataBlocksRange t.addr b (lay.addrsPerInode - b) s).1 }
        (f2fsTruncateDataBlocksRange t.addr b (lay.addrsPerInode - b) s).2
        (lay.addrsPerInode + 1018 * 0 + 0) = x := by
      rw [← hd]
      exact hx
    rw [← hcall]
    exact truncated_of_inodeBlocks (prepared_inode hinode t s)
      (f2fsTruncateInodeBlocks_spec lay _ _ (by omega) (by omega) (Or.inl rfl))
  obtain ⟨m, r, hr, rfl⟩ : ∃ m r, r < 1018 ∧ b = lay.addrsPerInode + 1018 * m + r :=
    ⟨(b - lay.addrsPerInode) / 1018, (b - lay.addrsPerInode) % 1018, by omega, by omega⟩
  have hm : m < 1038362 := by omega
  obtain ⟨p, hp⟩ := exists_leafPath lay hm hr
  rw [hp.path] at hx
  dsimp only at hx
  rw [hp.addr t, hp.ofs] at hx
  cases hleaf : t.leaf m with
  | none =>
      rw [hleaf] at hx
      rw [← hx]
      exact truncated_of_inodeBlocks (prepared_hole hm hr hleaf s)
        (f2fsTruncateInodeBlocks_spec lay t s hm hr (Or.inr hleaf))
  | some d =>
      rw [hleaf] at hx
      dsimp only [Option.map_some] at hx
      by_cases hr0 : r = 0
      · subst hr0
        rw [if_neg (fun h => h.elim (fun hne => hne rfl) hp.level)] at hx
        rw [← hx]
        exact truncated_of_inodeBlocks (prepared_start (by rw [hleaf]; simp) s)
          (f2fsTruncateInodeBlocks_spec lay t s hm hr (Or.inl rfl))
      · have hcount : addrsPerPage lay p.level = 1018 := if_neg hp.level
        rw [if_pos (Or.inl hr0), hcount, show lay.addrsPerInode + 1018 * m + r + (1018 - r)
          = lay.addrsPerInode + 1018 * (m + 1) + 0 by omega] at hx
        by_cases hlast : m + 1 < 1038362
        · rw [← hx]
          exact truncated_of_inodeBlocks (prepared_leaf hm hr hr0 hp hleaf s)
            (f2fsTruncateInodeBlocks_spec lay _ _ hlast (by omega) (Or.inl rfl))
        · -- there is no node behind the last one, and the call fails
          have hnone : getNodePath lay (lay.addrsPerInode + 1018 * (m + 1) + 0) = none :=
            getNodePath_eq_none (by omega)
          rw [f2fsTruncateInodeBlocks, hnone] at hx
          rw [← hx] at hzero
          exact absurd (show e2big = 0 from hzero) (by decide)

/-- A file with blocks in the inode and in a direct node, and an indirect node without children. -/
def holeyFile : FileTree where
  addr := fun j => if j < 20 then 5000#32 else nullAddr
  direct := fun q => if q = 0 then some ⟨7, fun r => if r < 3 then 6000#32 else nullAddr⟩ else none
  indirect := fun q => if q = 0 then some ⟨9, fun _ => none⟩ else none
  dindirect := none

/-- The offset is below the indirect node, which is freed: it has no children. -/
theorem truncate_blocks_exact_hole :
    (f2fsTruncateBlocks plainLayout holeyFile ⟨100, 10, 0⟩ (2964 * 4096) 0).2.2.freed = (0, {9}) ∧
      TruncatedAt plainLayout 2964 holeyFile
        (f2fsTruncateBlocks plainLayout holeyFile ⟨100, 10, 0⟩ (2964 * 4096) 0).2.1 ⟨100, 10, 0⟩
        (f2fsTruncateBlocks plainLayout holeyFile ⟨100, 10, 0⟩ (2964 * 4096) 0).2.2 := by
  refine ⟨by decide +kernel, ?_⟩
  refine truncate_blocks_exact plainLayout holeyFile ⟨100, 10, 0⟩ (2964 * 4096) 0 (by decide)
    (fun j hj => ?_) (by decide +kernel)
  have hmax : maxFileBlocks = 1057052516 := rfl
  have hd : plainLayout.addrsPerInode = 923 := rfl
  by_cases hend : plainLayout.addrsPerInode + 1057052516 ≤ j
  · exact blockAt_beyond hend
  · obtain ⟨m, r, hr, rfl⟩ : ∃ m r, r < 1018 ∧ j = plainLayout.addrsPerInode + 1018 * m + r :=
      ⟨(j - plainLayout.addrsPerInode) / 1018, (j - plainLayout.addrsPerInode) % 1018, by omega,
        by omega⟩
    rw [blockAt_leaf (by omega) hr, FileTree.leaf, if_neg (by omega), if_neg (by omega)]
    rfl

end Hoit.Truncate
