import HoitF2fs.Node.TruncateNodes

/-!
# What a truncation does to the tree

`f2fs_truncate_inode_blocks` is called with the first block of a direct node, or with a block whose
direct node is missing, so that it never cuts a direct node.

* `truncateSlots_spec` — the loop cuts the node in the slot where it starts, and frees the nodes in
  the slots behind.
* `CutTo` — the tree afterwards: **the direct nodes are numbered through, and those from one of them
  on are gone**, as are the nodes that have no others.
* `f2fsTruncateInodeBlocks_spec` — the whole function.
-/

namespace Hoit.Truncate

open NodePath Slots

variable {c : Cursor} {t t' : FileTree} {s s' : Counters} {ofs q i k m : ℕ}

/-! ## The tree -/

/-- What there is below the inode. -/
def FileTree.nodesContent (t : FileTree) : Content :=
  total directContent 2 t.direct + total indirectContent 2 t.indirect
    + dindirectContent t.dindirect

/-- What is left when the node in a slot of the inode is cut. -/
def FileTree.cutSlot (t : FileTree) (slot ofs : ℕ) : FileTree :=
  if slot < nodeInd1Block then
    let q := slot - nodeDir1Block
    { t with direct := Function.update t.direct q (if ofs = 0 then none else t.direct q) }
  else if slot < nodeDindBlock then
    let q := slot - nodeInd1Block
    { t with indirect := Function.update t.indirect q (cutNode ofs (t.indirect q)) }
  else { t with dindirect := cutNode ofs t.dindirect }

/-- The slots from one on, of which the first is cut. -/
def FileTree.cutSlots : (rounds : ℕ) → FileTree → (slot ofs : ℕ) → FileTree
  | 0, t, _, _ => t
  | rounds + 1, t, slot, ofs => (t.cutSlot slot ofs).cutSlots rounds (slot + 1) 0

lemma cutNode_eq (ofs : ℕ) {α : Type} (n : Option (IndexNode α)) :
    (if ofs = 0 then none else n.map (IndexNode.cut ofs)) = cutNode ofs n := rfl

/-- One slot changes, and the account says how. -/
lemma total_cut {β : Type} {f : β → Content} {n : ℕ} {g : ℕ → β} {x : β} {a : Content}
    (hq : q < n) (h : f (g q) = a + f x) : total f n g = a + total f n (Function.update g q x) := by
  have hupdate := total_update (f := f) (c := g) hq x
  rw [h] at hupdate
  refine add_right_cancel (b := f x) ?_
  rw [hupdate]
  abel

lemma truncateSlot_spec {nofs : ℤ} (hnofs : 0 ≤ nofs) (hlo : nodeDir1Block ≤ c.offset0)
    (hhi : c.offset0 ≤ nodeDindBlock) (hofs : c.offset1 ≤ nidsPerBlock)
    (hclean : c.offset0 < nodeInd1Block →
      c.offset1 = 0 ∨ c.tree.direct (c.offset0 - nodeDir1Block) = none) :
    ∃ cnt a, (truncateSlot c nofs).2
        = { c with tree := c.tree.cutSlot c.offset0 c.offset1, cnt := cnt } ∧
      0 ≤ (truncateSlot c nofs).1 ∧ Frees a c.cnt cnt ∧
      c.tree.nodesContent = a + (c.tree.cutSlot c.offset0 c.offset1).nodesContent := by
  have hd : nodeDir1Block = 924 := rfl
  have hd2 : nodeDir2Block = 925 := rfl
  have hi : nodeInd1Block = 926 := rfl
  have hi2 : nodeInd2Block = 927 := rfl
  have hdi : nodeDindBlock = 928 := rfl
  unfold truncateSlot FileTree.cutSlot
  dsimp only
  by_cases hdir : c.offset0 < nodeInd1Block
  · rw [if_pos (by omega), if_pos hdir]
    obtain ⟨hret, hfrees⟩ := truncateDnode_spec c.cnt (c.tree.direct (c.offset0 - nodeDir1Block))
    refine ⟨_, _, rfl, hret ▸ zero_le_one, hfrees, ?_⟩
    have hslot : directContent (c.tree.direct (c.offset0 - nodeDir1Block))
        = directContent (c.tree.direct (c.offset0 - nodeDir1Block)) + directContent
          (if c.offset1 = 0 then none else c.tree.direct (c.offset0 - nodeDir1Block)) := by
      split_ifs with hzero
      · exact (add_zero _).symm
      · rw [(hclean hdir).resolve_left hzero]
        exact (add_zero _).symm
    have htotal := total_cut (n := 2) (by omega) hslot
    rw [FileTree.nodesContent, htotal, FileTree.nodesContent]
    abel
  · rw [if_neg (by omega), if_neg hdir]
    by_cases hind : c.offset0 < nodeDindBlock
    · rw [if_pos (by omega), if_pos hind]
      obtain ⟨hret, hnode, a, hfrees, hcontent⟩ :=
        truncateNodes2_spec hofs c.cnt (c.tree.indirect (c.offset0 - nodeInd1Block))
      rw [hnode, cutNode_eq]
      have hpos : 0 ≤ (truncateNodes2 c.cnt c.offset1
          (c.tree.indirect (c.offset0 - nodeInd1Block))).1 := by
        rw [hret]
        split_ifs <;> positivity
      refine ⟨_, a, rfl, hpos, hfrees, ?_⟩
      have htotal := total_cut (n := 2) (by omega) hcontent
      rw [FileTree.nodesContent, htotal, FileTree.nodesContent]
      abel
    · rw [if_neg (by omega), if_neg hind]
      obtain ⟨hpos, hnode, a, hfrees, hcontent⟩ :=
        truncateNodes3_spec hofs c.cnt hnofs c.tree.dindirect
      rw [hnode, cutNode_eq]
      refine ⟨_, a, rfl, hpos.le, hfrees, ?_⟩
      rw [FileTree.nodesContent, hcontent, FileTree.nodesContent]
      abel

lemma truncateSlots_spec : ∀ (rounds : ℕ) {c : Cursor} {nofs err : ℤ}, 0 ≤ nofs → 0 ≤ err →
    nodeDir1Block ≤ c.offset0 → c.offset0 + rounds = nodeDindBlock + 1 →
    c.offset1 ≤ nidsPerBlock →
    (c.offset0 < nodeInd1Block →
      c.offset1 = 0 ∨ c.tree.direct (c.offset0 - nodeDir1Block) = none) →
    0 ≤ (truncateSlots rounds c nofs err).1 ∧
      (truncateSlots rounds c nofs err).2.tree = c.tree.cutSlots rounds c.offset0 c.offset1 ∧
      ∃ a, Frees a c.cnt (truncateSlots rounds c nofs err).2.cnt ∧
        c.tree.nodesContent
          = a + (c.tree.cutSlots rounds c.offset0 c.offset1).nodesContent
  | 0, c, nofs, err, _, herr, _, _, _, _ =>
      ⟨herr, rfl, 0, Frees.refl c.cnt, (zero_add _).symm⟩
  | rounds + 1, c, nofs, err, hnofs, _, hlo, hrounds, hofs, hclean => by
      obtain ⟨cnt, a, hc, hret, hfrees, hcontent⟩ :=
        truncateSlot_spec hnofs hlo (by omega) hofs hclean
      have hnot : ¬ ((truncateSlot c nofs).1 < 0 ∧ (truncateSlot c nofs).1 ≠ enoent) :=
        fun h => absurd hret (not_le.mpr h.1)
      have hrest := truncateSlots_spec rounds
        (c := ⟨c.tree.cutSlot c.offset0 c.offset1, cnt, c.offset0 + 1, 0⟩)
        (add_nonneg hnofs hret) hret (by dsimp only; omega) (by dsimp only; omega)
        (Nat.zero_le _) (fun _ => Or.inl rfl)
      rw [truncateSlots, if_neg hnot, hc]
      obtain ⟨herr, htree, b, hfrees', hcontent'⟩ := hrest
      refine ⟨herr, htree, a + b, hfrees.add hfrees', ?_⟩
      rw [hcontent, hcontent', add_assoc]
      rfl

/-! ## The slots of the inode, after the loop -/

lemma cutNode_zero {α : Type} (n : Option (IndexNode α)) : cutNode 0 n = none := rfl

lemma cutSlots_addr : ∀ (rounds : ℕ) (t : FileTree) (slot ofs : ℕ),
    (t.cutSlots rounds slot ofs).addr = t.addr
  | 0, _, _, _ => rfl
  | rounds + 1, t, slot, ofs => by
      rw [FileTree.cutSlots, cutSlots_addr rounds, FileTree.cutSlot]
      dsimp only
      split_ifs <;> rfl

lemma cutSlots_direct (t : FileTree) {slot : ℕ} (hlo : nodeDir1Block ≤ slot)
    (hhi : slot ≤ nodeDindBlock) (ofs : ℕ) (hq : q < 2) :
    (t.cutSlots (nodeDindBlock + 1 - slot) slot ofs).direct q
      = if nodeDir1Block + q < slot then t.direct q
        else if nodeDir1Block + q = slot ∧ ofs ≠ 0 then t.direct q else none := by
  have hd : nodeDir1Block = 924 := rfl
  have hdi : nodeDindBlock = 928 := rfl
  rw [hd] at hlo
  rw [hdi] at hhi
  interval_cases slot <;> interval_cases q <;>
    simp [FileTree.cutSlots, FileTree.cutSlot, hd, hdi, nodeInd1Block, defAddrsPerInode]

lemma cutSlots_indirect (t : FileTree) {slot : ℕ} (hlo : nodeDir1Block ≤ slot)
    (hhi : slot ≤ nodeDindBlock) (ofs : ℕ) (hq : q < 2) :
    (t.cutSlots (nodeDindBlock + 1 - slot) slot ofs).indirect q
      = if nodeInd1Block + q < slot then t.indirect q
        else cutNode (if nodeInd1Block + q = slot then ofs else 0) (t.indirect q) := by
  have hd : nodeDir1Block = 924 := rfl
  have hdi : nodeDindBlock = 928 := rfl
  rw [hd] at hlo
  rw [hdi] at hhi
  interval_cases slot <;> interval_cases q <;>
    simp [FileTree.cutSlots, FileTree.cutSlot, hd, hdi, nodeInd1Block, defAddrsPerInode,
      cutNode_zero]

lemma cutSlots_dindirect (t : FileTree) {slot : ℕ} (hlo : nodeDir1Block ≤ slot)
    (hhi : slot ≤ nodeDindBlock) (ofs : ℕ) :
    (t.cutSlots (nodeDindBlock + 1 - slot) slot ofs).dindirect
      = cutNode (if slot = nodeDindBlock then ofs else 0) t.dindirect := by
  have hd : nodeDir1Block = 924 := rfl
  have hdi : nodeDindBlock = 928 := rfl
  rw [hd] at hlo
  rw [hdi] at hhi
  interval_cases slot <;>
    simp [FileTree.cutSlots, FileTree.cutSlot, hd, hdi, nodeInd1Block, defAddrsPerInode]

/-! ## Direct nodes, numbered through -/

/-- What a slot of a node has. -/
def childOf {α : Type} (n : Option (IndexNode α)) (i : ℕ) : Option α := n.bind fun n => n.child i

/-- The direct nodes of a file, in the order of their blocks. -/
def FileTree.leaf (t : FileTree) (m : ℕ) : Option DirectNode :=
  if m < 2 then t.direct m
  else if m < 2038 then childOf (t.indirect ((m - 2) / 1018)) ((m - 2) % 1018)
  else childOf (childOf t.dindirect ((m - 2038) / 1018)) ((m - 2038) % 1018)

lemma leaf_direct (hq : q < 2) : t.leaf q = t.direct q := if_pos hq

lemma leaf_indirect (hq : q < 2) (hk : k < 1018) :
    t.leaf (2 + 1018 * q + k) = childOf (t.indirect q) k := by
  rw [FileTree.leaf, if_neg (by omega), if_pos (by omega),
    show (2 + 1018 * q + k - 2) / 1018 = q by omega,
    show (2 + 1018 * q + k - 2) % 1018 = k by omega]

lemma leaf_dindirect {a : ℕ} (hk : k < 1018) :
    t.leaf (2038 + (1018 * a + k)) = childOf (childOf t.dindirect a) k := by
  rw [FileTree.leaf, if_neg (by omega), if_neg (by omega),
    show (2038 + (1018 * a + k) - 2038) / 1018 = a by omega,
    show (2038 + (1018 * a + k) - 2038) % 1018 = k by omega]

/-- The places of a direct node. -/
lemma leaf_cases (hm : m < 1038362) : m < 2 ∨
    (∃ q k, q < 2 ∧ k < 1018 ∧ m = 2 + 1018 * q + k) ∨
      ∃ a k, a < 1018 ∧ k < 1018 ∧ m = 2038 + (1018 * a + k) := by
  by_cases hdirect : m < 2
  · exact Or.inl hdirect
  · by_cases hindirect : m < 2038
    · exact Or.inr (Or.inl ⟨(m - 2) / 1018, (m - 2) % 1018, by omega, by omega, by omega⟩)
    · exact Or.inr (Or.inr ⟨(m - 2038) / 1018, (m - 2038) % 1018, by omega, by omega, by omega⟩)

/-- `k` of the children of a node are left, and the node, unless there are none. -/
structure KeptTo {α : Type} (k : ℕ) (n n' : Option (IndexNode α)) : Prop where
  gone : k = 0 → n' = none
  nid : k ≠ 0 → n'.map IndexNode.nid = n.map IndexNode.nid
  child : ∀ i < 1018, childOf n' i = if i < k then childOf n i else none

/-- Nothing is left of the double indirect node: either it has no direct nodes left, or these would
have to be below a first child that it does not have. -/
def DindGone (k : ℕ) (n : Option DindirectNode) : Prop :=
  k = 0 ∨ k < 1018 ∧ childOf n 0 = none

/-- `k` of the direct nodes below the double indirect node are left. -/
structure DindKeptTo (k : ℕ) (n n' : Option DindirectNode) : Prop where
  gone : DindGone k n → n' = none
  nid : ¬ DindGone k n → n'.map IndexNode.nid = n.map IndexNode.nid
  child : ∀ i < 1018, KeptTo (k - 1018 * i) (childOf n i) (childOf n' i)

/-- `m` of the direct nodes of a file are left. -/
structure CutTo (m : ℕ) (t t' : FileTree) : Prop where
  addr : t'.addr = t.addr
  direct : ∀ q < 2, t'.direct q = if q < m then t.direct q else none
  indirect : ∀ q < 2, KeptTo (m - (2 + 1018 * q)) (t.indirect q) (t'.indirect q)
  dindirect : DindKeptTo (m - 2038) t.dindirect t'.dindirect

lemma keptTo_zero {α : Type} (n : Option (IndexNode α)) : KeptTo 0 n none where
  gone := fun _ => rfl
  nid := fun h => absurd rfl h
  child := fun _ _ => rfl

lemma keptTo_none {α : Type} (k : ℕ) : KeptTo k (none : Option (IndexNode α)) none where
  gone := fun _ => rfl
  nid := fun _ => rfl
  child := fun i _ => by split_ifs <;> rfl

lemma keptTo_all {α : Type} (hk : 1018 ≤ k) (n : Option (IndexNode α)) : KeptTo k n n where
  gone := by omega
  nid := fun _ => rfl
  child := fun i hi => (if_pos (by omega)).symm

lemma keptTo_cutNode {α : Type} (k : ℕ) (n : Option (IndexNode α)) : KeptTo k n (cutNode k n) := by
  by_cases hk : k = 0
  · rw [hk]
    exact keptTo_zero n
  · rw [cutNode, if_neg hk]
    cases n with
    | none => exact keptTo_none k
    | some n =>
        refine ⟨fun h => absurd h hk, fun _ => rfl, fun i hi => ?_⟩
        show emptied none k (nidsPerBlock - k) n.child i = if i < k then n.child i else none
        have hN := nidsPerBlock_eq
        unfold emptied
        by_cases hik : i < k
        · rw [if_neg (by omega), if_pos hik]
        · rw [if_pos (by omega), if_neg hik]

lemma dindKeptTo_zero (n : Option DindirectNode) : DindKeptTo 0 n none where
  gone := fun _ => rfl
  nid := fun h => absurd (Or.inl rfl) h
  child := fun i _ => by
    rw [Nat.zero_sub]
    exact keptTo_zero _

/-! ## The node in which the truncation starts -/

/-- Nodes were freed, and the tree has lost them. -/
def Freed (t : FileTree) (s : Counters) (t' : FileTree) (s' : Counters) : Prop :=
  ∃ a, Frees a s s' ∧ t.nodesContent = a + t'.nodesContent

lemma Freed.refl (t : FileTree) (s : Counters) : Freed t s t s :=
  ⟨0, Frees.refl s, (zero_add _).symm⟩

lemma Freed.trans {t'' : FileTree} {s'' : Counters} (h : Freed t s t' s')
    (h' : Freed t' s' t'' s'') : Freed t s t'' s'' := by
  obtain ⟨a, ha, hcontent⟩ := h
  obtain ⟨b, hb, hcontent'⟩ := h'
  refine ⟨a + b, ha.add hb, ?_⟩
  rw [hcontent, hcontent', add_assoc]

lemma cutIndirect_spec (hne : ofs ≠ 0) (hofs : ofs ≤ nidsPerBlock) (s : Counters)
    (n : IndirectNode) :
    (cutIndirect s ofs n).1 = n.cut ofs ∧ ∃ a, Frees a s (cutIndirect s ofs n).2 ∧
      indirectContent (some n) = a + indirectContent (some (n.cut ofs)) := by
  obtain ⟨hchild, a, hfrees, hcontent⟩ := freeDirects_spec hofs s n
  unfold cutIndirect
  dsimp only
  rw [if_neg hne, hchild]
  exact ⟨rfl, a, hfrees, hcontent⟩

/-- An indirect node of the inode is cut. -/
lemma truncatePartialNodes_indirect {n : IndirectNode} (ofs2 : ℕ)
    (hq : c.offset0 = nodeInd1Block + q) (hq2 : q < 2) (hne : c.offset1 ≠ 0)
    (hofs : c.offset1 ≤ nidsPerBlock) (hn : c.tree.indirect q = some n) :
    ∃ s', truncatePartialNodes c ofs2 2
        = ⟨{ c.tree with indirect := Function.update c.tree.indirect q (some (n.cut c.offset1)) },
          s', c.offset0 + 1, 0⟩ ∧
      Freed c.tree c.cnt
        { c.tree with indirect := Function.update c.tree.indirect q (some (n.cut c.offset1)) }
        s' := by
  obtain ⟨hnode, a, hfrees, hcontent⟩ := cutIndirect_spec hne hofs c.cnt n
  have hslot : c.offset0 - nodeInd1Block = q := by omega
  refine ⟨(cutIndirect c.cnt c.offset1 n).2, ?_, a, hfrees, ?_⟩
  · simp only [truncatePartialNodes, hslot, hn, hnode]
  · rw [← hn] at hcontent
    have htotal := total_cut (n := 2) hq2 hcontent
    rw [FileTree.nodesContent, htotal, FileTree.nodesContent]
    abel

/-- An indirect node of the double indirect node is cut. -/
lemma truncatePartialNodes_dindirect {n : DindirectNode} {m : IndirectNode}
    (hlt : c.offset1 < nidsPerBlock) (hne : ofs ≠ 0) (hofs : ofs ≤ nidsPerBlock)
    (hn : c.tree.dindirect = some n) (hm : n.child c.offset1 = some m) :
    ∃ s', truncatePartialNodes c ofs 3
        = ⟨{ c.tree with dindirect := some (n.set c.offset1 (some (m.cut ofs))) }, s', c.offset0,
          c.offset1 + 1⟩ ∧
      Freed c.tree c.cnt
        { c.tree with dindirect := some (n.set c.offset1 (some (m.cut ofs))) } s' := by
  obtain ⟨hnode, a, hfrees, hcontent⟩ := cutIndirect_spec hne hofs c.cnt m
  refine ⟨(cutIndirect c.cnt ofs m).2, ?_, a, hfrees, ?_⟩
  · simp only [truncatePartialNodes, hn, hm, hnode]
  · rw [← hm] at hcontent
    have htotal := total_cut (n := nidsPerBlock) hlt hcontent
    rw [FileTree.nodesContent, hn, dindirectContent_some, htotal, FileTree.nodesContent,
      dindirectContent_some, IndexNode.set]
    abel

/-! ## The tree afterwards -/

lemma cutTo_direct (hq : q < 2) (hclean : ofs = 0 ∨ t.direct q = none) :
    CutTo q t (t.cutSlots (nodeDindBlock + 1 - (nodeDir1Block + q)) (nodeDir1Block + q) ofs) := by
  have hd : nodeDir1Block = 924 := rfl
  have hi : nodeInd1Block = 926 := rfl
  have hdi : nodeDindBlock = 928 := rfl
  refine ⟨cutSlots_addr .., fun i hi2 => ?_, fun i hi2 => ?_, ?_⟩
  · rw [cutSlots_direct t (by omega) (by omega) ofs hi2]
    by_cases hiq : i < q
    · rw [if_pos (by omega), if_pos hiq]
    · rw [if_neg (by omega), if_neg hiq]
      split_ifs with hof
      · obtain rfl : i = q := by omega
        exact hclean.resolve_left hof.2
      · rfl
  · rw [cutSlots_indirect t (by omega) (by omega) ofs hi2, if_neg (by omega), if_neg (by omega),
      cutNode_zero, show q - (2 + 1018 * i) = 0 by omega]
    exact keptTo_zero _
  · rw [cutSlots_dindirect t (by omega) (by omega), if_neg (by omega), cutNode_zero,
      show q - 2038 = 0 by omega]
    exact dindKeptTo_zero _

/-- The loop starts at an indirect node, or behind one that is cut already. -/
lemma cutTo_indirect {t₁ : FileTree} {slot : ℕ} (hq : q < 2) (hk : k < 1018)
    (haddr : t₁.addr = t.addr) (hdirect : t₁.direct = t.direct)
    (hother : ∀ i, i ≠ q → t₁.indirect i = t.indirect i) (hslot : slot = nodeInd1Block + q ∨
      slot = nodeInd1Block + q + 1 ∧ ofs = 0)
    (hcut : (if slot = nodeInd1Block + q then cutNode ofs (t₁.indirect q) else t₁.indirect q)
      = cutNode k (t.indirect q)) :
    CutTo (2 + 1018 * q + k) t (t₁.cutSlots (nodeDindBlock + 1 - slot) slot ofs) := by
  have hd : nodeDir1Block = 924 := rfl
  have hi : nodeInd1Block = 926 := rfl
  have hdi : nodeDindBlock = 928 := rfl
  refine ⟨(cutSlots_addr ..).trans haddr, fun i hi2 => ?_, fun i hi2 => ?_, ?_⟩
  · rw [cutSlots_direct t₁ (by omega) (by omega) ofs hi2, if_pos (by omega), if_pos (by omega),
      hdirect]
  · rw [cutSlots_indirect t₁ (by omega) (by omega) ofs hi2]
    rcases Nat.lt_trichotomy i q with hlt | rfl | hgt
    · rw [if_pos (by omega), hother i (by omega)]
      exact keptTo_all (by omega) _
    · rw [show 2 + 1018 * i + k - (2 + 1018 * i) = k by omega]
      rcases hslot with rfl | ⟨rfl, rfl⟩
      · rw [if_pos rfl] at hcut
        rw [if_neg (by omega), if_pos rfl, hcut]
        exact keptTo_cutNode k _
      · rw [if_neg (by omega)] at hcut
        rw [if_pos (by omega), hcut]
        exact keptTo_cutNode k _
    · rw [if_neg (by omega), show 2 + 1018 * q + k - (2 + 1018 * i) = 0 by omega]
      by_cases hat : nodeInd1Block + i = slot
      · rw [if_pos hat, (hslot.resolve_left (by omega)).2, cutNode_zero]
        exact keptTo_zero _
      · rw [if_neg hat, cutNode_zero]
        exact keptTo_zero _
  · have hzero : (if slot = nodeDindBlock then ofs else 0) = 0 := by
      split_ifs with hat
      · exact (hslot.resolve_left (by omega)).2
      · rfl
    rw [cutSlots_dindirect t₁ (by omega) (by omega), hzero, cutNode_zero,
      show 2 + 1018 * q + k - 2038 = 0 by omega]
    exact dindKeptTo_zero _

lemma cutTo_dindirect {t₁ : FileTree} (haddr : t₁.addr = t.addr) (hdirect : t₁.direct = t.direct)
    (hindirect : t₁.indirect = t.indirect) (hcut : DindKeptTo k t.dindirect
      (cutNode ofs t₁.dindirect)) :
    CutTo (2038 + k) t (t₁.cutSlots (nodeDindBlock + 1 - nodeDindBlock) nodeDindBlock ofs) := by
  have hd : nodeDir1Block = 924 := rfl
  have hi : nodeInd1Block = 926 := rfl
  have hdi : nodeDindBlock = 928 := rfl
  refine ⟨(cutSlots_addr ..).trans haddr, fun i hi2 => ?_, fun i hi2 => ?_, ?_⟩
  · rw [cutSlots_direct t₁ (by omega) (by omega) ofs hi2, if_pos (by omega), if_pos (by omega),
      hdirect]
  · rw [cutSlots_indirect t₁ (by omega) (by omega) ofs hi2, if_pos (by omega), hindirect]
    exact keptTo_all (by omega) _
  · rw [cutSlots_dindirect t₁ (by omega) (by omega), if_pos rfl, Nat.add_sub_cancel_left]
    exact hcut

/-- The double indirect node is cut where its direct nodes end, or where they are missing. -/
lemma dindKeptTo_cut {a : ℕ} {n : Option DindirectNode} (hk : k < 1018)
    (hclean : k = 0 ∨ childOf n a = none) : DindKeptTo (1018 * a + k) n (cutNode a n) where
  gone := by
    intro hgone
    have ha : a = 0 := by
      rcases hgone with h | ⟨h, -⟩
      · omega
      · omega
    rw [ha, cutNode_zero]
  nid := by
    intro hgone
    refine (keptTo_cutNode a n).nid ?_
    rintro rfl
    refine hgone ?_
    rcases hclean with rfl | hnone
    · exact Or.inl rfl
    · exact Or.inr ⟨by omega, hnone⟩
  child := by
    intro i hi
    rw [(keptTo_cutNode a n).child i hi]
    rcases Nat.lt_trichotomy i a with hlt | rfl | hgt
    · rw [if_pos hlt]
      exact keptTo_all (by omega) _
    · rw [if_neg (lt_irrefl i), Nat.add_sub_cancel_left]
      rcases hclean with rfl | hnone
      · exact keptTo_zero _
      · rw [hnone]
        exact keptTo_none k
    · rw [if_neg (by omega), show 1018 * a + k - 1018 * i = 0 by omega]
      exact keptTo_zero _

/-- One of its children is cut, and the double indirect node itself behind it. -/
lemma dindKeptTo_cutChild {a : ℕ} {n : DindirectNode} {m : IndirectNode} (hk : k ≠ 0)
    (hk2 : k < 1018) (hm : n.child a = some m) : DindKeptTo (1018 * a + k) (some n)
      (cutNode (a + 1) (some (n.set a (some (m.cut k))))) where
  gone := by
    rintro (h | ⟨h, hnone⟩)
    · omega
    · obtain rfl : a = 0 := by omega
      have hchild : childOf (some n) 0 = some m := hm
      rw [hchild] at hnone
      exact absurd hnone (by simp)
  nid := fun _ => (keptTo_cutNode (a + 1) _).nid (Nat.succ_ne_zero a)
  child := by
    intro i hi
    rw [(keptTo_cutNode (a + 1) _).child i hi]
    show KeptTo (1018 * a + k - 1018 * i) (n.child i)
      (if i < a + 1 then Function.update n.child a (some (m.cut k)) i else none)
    rcases Nat.lt_trichotomy i a with hlt | rfl | hgt
    · rw [if_pos (by omega), Function.update_of_ne hlt.ne]
      exact keptTo_all (by omega) _
    · rw [if_pos (by omega), Function.update_self, Nat.add_sub_cancel_left, hm]
      have hcut := keptTo_cutNode k (some m)
      rw [cutNode, if_neg hk] at hcut
      exact hcut
    · rw [if_neg (by omega), show 1018 * a + k - 1018 * i = 0 by omega]
      exact keptTo_zero _

/-! ## The whole function -/

/-- Up to the loop, the nodes on the path have been cut. -/
lemma f2fsTruncateInodeBlocks_of_cursor {lay : AddrLayout} {b : ℕ} {p : Path}
    (hp : getNodePath lay b = some p) (hnofs : 0 ≤ firstNofs p)
    (hcursor : (if 2 ≤ p.level ∧ p.offset.getD (p.level - 1) 0 ≠ 0 then
        truncatePartialNodes ⟨t, s, p.offset.getD 0 0, p.offset.getD 1 0⟩ (p.offset.getD 2 0)
          p.level
      else ⟨t, s, p.offset.getD 0 0, p.offset.getD 1 0⟩) = c)
    (hfreed : Freed t s c.tree c.cnt) (hlo : nodeDir1Block ≤ c.offset0)
    (hhi : c.offset0 ≤ nodeDindBlock) (hofs : c.offset1 ≤ nidsPerBlock)
    (hclean : c.offset0 < nodeInd1Block →
      c.offset1 = 0 ∨ c.tree.direct (c.offset0 - nodeDir1Block) = none) :
    ∃ s', f2fsTruncateInodeBlocks lay t s b = (0, c.tree.cutSlots (nodeDindBlock + 1 - c.offset0)
        c.offset0 c.offset1, s') ∧
      Freed t s (c.tree.cutSlots (nodeDindBlock + 1 - c.offset0) c.offset0 c.offset1) s' := by
  obtain ⟨herr, htree, hrest⟩ := truncateSlots_spec (nodeDindBlock + 1 - c.offset0) hnofs le_rfl hlo
    (by omega) hofs hclean
  refine ⟨_, ?_, hfreed.trans hrest⟩
  rw [f2fsTruncateInodeBlocks, hp]
  dsimp only
  rw [hcursor, htree]
  have hzero : (if 0 < (truncateSlots (nodeDindBlock + 1 - c.offset0) c (firstNofs p) 0).1 then 0
      else (truncateSlots (nodeDindBlock + 1 - c.offset0) c (firstNofs p) 0).1) = 0 := by
    split_ifs with hpos
    · rfl
    · exact le_antisymm (not_lt.mp hpos) herr
  rw [hzero]

/-- What is claimed of the call for a block of the direct node `m`, or of its place. -/
def TruncatedFrom (lay : AddrLayout) (m r : ℕ) (t : FileTree) (s : Counters) : Prop :=
  ∃ t' s', f2fsTruncateInodeBlocks lay t s (lay.addrsPerInode + 1018 * m + r) = (0, t', s') ∧
    CutTo m t t' ∧ Freed t s t' s'

variable {lay : AddrLayout} {r : ℕ}

lemma truncatedFrom_direct (hq : q < 2) (hr : r < 1018) (hclean : r = 0 ∨ t.leaf q = none) :
    TruncatedFrom lay q r t s := by
  have hd : nodeDir1Block = 924 := rfl
  have hdi : nodeDindBlock = 928 := rfl
  have hp := (PathOf.direct (d := lay.addrsPerInode) q r hq hr).getNodePath
  rw [leaf_direct hq] at hclean
  obtain ⟨s', heq, hfreed⟩ := f2fsTruncateInodeBlocks_of_cursor (t := t) (s := s)
    (c := ⟨t, s, nodeDir1Block + q, r⟩) hp (by show (0 : ℤ) ≤ ((1 + q : ℕ) : ℤ); positivity) rfl
    (Freed.refl t s) (Nat.le_add_right _ _) (by dsimp only; omega)
    (by dsimp only; rw [nidsPerBlock_eq]; omega)
    (fun _ => hclean.imp id fun h => by
      dsimp only
      rw [Nat.add_sub_cancel_left]
      exact h)
  exact ⟨_, s', heq, cutTo_direct hq hclean, hfreed⟩

lemma truncatedFrom_indirect (hq : q < 2) (hk : k < 1018) (hr : r < 1018) :
    TruncatedFrom lay (2 + 1018 * q + k) r t s := by
  have hd : nodeDir1Block = 924 := rfl
  have hi : nodeInd1Block = 926 := rfl
  have hdi : nodeDindBlock = 928 := rfl
  have hblock : lay.addrsPerInode + 2036 + 1018 * (1018 * q + k) + r
      = lay.addrsPerInode + 1018 * (2 + 1018 * q + k) + r := by omega
  have hp := (PathOf.indirect (d := lay.addrsPerInode) q k r hq hk hr).getNodePath
  rw [hblock] at hp
  have hnofs : 0 ≤ firstNofs ⟨2, [926 + q, k, r], [0, 3 + 1019 * q, 4 + 1019 * q + k]⟩ := by
    show (0 : ℤ) ≤ if k = 0 then ((3 + 1019 * q : ℕ) : ℤ) else (3 + 1019 * q : ℕ) + (1 + 1018)
    split_ifs <;> positivity
  by_cases hpartial : k ≠ 0 ∧ t.indirect q ≠ none
  · -- the node of the path is there, and some of it is left
    obtain ⟨hne, hsome⟩ := hpartial
    obtain ⟨n, hn⟩ := Option.ne_none_iff_exists'.mp hsome
    obtain ⟨s₁, hcut, hfreed₁⟩ := truncatePartialNodes_indirect (c := ⟨t, s, 926 + q, k⟩)
      r rfl hq hne (by rw [nidsPerBlock_eq]; exact hk.le) hn
    obtain ⟨s', heq, hfreed⟩ := f2fsTruncateInodeBlocks_of_cursor hp hnofs
      ((if_pos ⟨le_rfl, hne⟩).trans hcut) hfreed₁ (by dsimp only; omega) (by dsimp only; omega)
      (Nat.zero_le _) (fun _ => Or.inl rfl)
    refine ⟨_, s', heq, cutTo_indirect hq hk rfl rfl (fun i hiq => Function.update_of_ne hiq ..)
      (Or.inr ⟨by dsimp only; omega, rfl⟩) ?_, hfreed⟩
    dsimp only
    rw [if_neg (by omega), Function.update_self, hn, cutNode, if_neg hne]
    rfl
  · -- the loop does all of the work
    have hcursor : (if 2 ≤ 2 ∧ k ≠ 0 then
          truncatePartialNodes ⟨t, s, 926 + q, k⟩ r 2 else ⟨t, s, 926 + q, k⟩)
        = (⟨t, s, 926 + q, k⟩ : Cursor) := by
      split_ifs with hne
      · have hnone : t.indirect q = none := by
          by_contra hsome
          exact hpartial ⟨hne.2, hsome⟩
        simp only [truncatePartialNodes, hi, Nat.add_sub_cancel_left, hnone]
      · rfl
    obtain ⟨s', heq, hfreed⟩ := f2fsTruncateInodeBlocks_of_cursor hp hnofs hcursor
      (Freed.refl t s) (by dsimp only; omega) (by dsimp only; omega)
      (by dsimp only; rw [nidsPerBlock_eq]; omega) (fun h => by dsimp only at h; omega)
    exact ⟨_, s', heq, cutTo_indirect hq hk rfl rfl (fun _ _ => rfl) (Or.inl rfl)
      (if_pos rfl), hfreed⟩

lemma truncatedFrom_dindirect {a : ℕ} (ha : a < 1018) (hk : k < 1018) (hr : r < 1018) :
    TruncatedFrom lay (2038 + (1018 * a + k)) r t s := by
  have hd : nodeDir1Block = 924 := rfl
  have hi : nodeInd1Block = 926 := rfl
  have hdi : nodeDindBlock = 928 := rfl
  have hblock : lay.addrsPerInode + 2074684 + 1018 * (1018 * a + k) + r
      = lay.addrsPerInode + 1018 * (2038 + (1018 * a + k)) + r := by omega
  have hp := (PathOf.dindirect (d := lay.addrsPerInode) a k r ha hk hr).getNodePath
  rw [hblock] at hp
  have hnofs : (0 : ℤ) ≤ 5 + 2 * nidsPerBlock := by positivity
  by_cases hpartial : k ≠ 0 ∧ childOf t.dindirect a ≠ none
  · obtain ⟨hne, hsome⟩ := hpartial
    obtain ⟨m, hm⟩ := Option.ne_none_iff_exists'.mp hsome
    obtain ⟨n, hn, hnm⟩ := Option.bind_eq_some_iff.mp hm
    obtain ⟨s₁, hcut, hfreed₁⟩ := truncatePartialNodes_dindirect (c := ⟨t, s, 928, a⟩) ha hne
      (by rw [nidsPerBlock_eq]; exact hk.le) hn hnm
    obtain ⟨s', heq, hfreed⟩ := f2fsTruncateInodeBlocks_of_cursor hp hnofs
      ((if_pos ⟨show 2 ≤ 3 by decide, hne⟩).trans hcut) hfreed₁ (by dsimp only; omega) (by dsimp only; omega)
      (by dsimp only; rw [nidsPerBlock_eq]; omega) (fun h => by dsimp only at h; omega)
    exact ⟨_, s', heq, cutTo_dindirect rfl rfl rfl (hn ▸ dindKeptTo_cutChild hne hk hnm), hfreed⟩
  · have hclean : k = 0 ∨ childOf t.dindirect a = none := by
      by_contra hnot
      exact hpartial (not_or.mp hnot)
    have hcursor : (if 2 ≤ 3 ∧ k ≠ 0 then
          truncatePartialNodes ⟨t, s, 928, a⟩ k 3 else ⟨t, s, 928, a⟩)
        = (⟨t, s, 928, a⟩ : Cursor) := by
      split_ifs with hne
      · have hnone := hclean.resolve_left hne.2
        cases hn : t.dindirect with
        | none => simp only [truncatePartialNodes, hn]
        | some n =>
            have hchild : n.child a = none := by
              rw [hn] at hnone
              exact hnone
            simp only [truncatePartialNodes, hn, hchild]
      · rfl
    obtain ⟨s', heq, hfreed⟩ := f2fsTruncateInodeBlocks_of_cursor hp hnofs hcursor
      (Freed.refl t s) (by dsimp only; omega) (by dsimp only; omega)
      (by dsimp only; rw [nidsPerBlock_eq]; omega) (fun h => by dsimp only at h; omega)
    exact ⟨_, s', heq, cutTo_dindirect rfl rfl rfl (dindKeptTo_cut hk hclean), hfreed⟩

/-- **`f2fs_truncate_inode_blocks` leaves the direct nodes before the one of its block.** -/
theorem f2fsTruncateInodeBlocks_spec (lay : AddrLayout) (t : FileTree) (s : Counters)
    (hm : m < 1038362) (hr : r < 1018) (hclean : r = 0 ∨ t.leaf m = none) :
    TruncatedFrom lay m r t s := by
  rcases leaf_cases hm with hdirect | ⟨q, k, hq, hk, rfl⟩ | ⟨a, k, ha, hk, rfl⟩
  · exact truncatedFrom_direct hdirect hr hclean
  · exact truncatedFrom_indirect hq hk hr
  · exact truncatedFrom_dindirect ha hk hr

end Hoit.Truncate
