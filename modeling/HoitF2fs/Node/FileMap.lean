import HoitF2fs.Node.TruncateTree

/-!
# The blocks and the nodes of a file

* `FileTree.blockAt` — the address of a block, by its index in the file.
* `FileTree.nidAt` — the id of a node, by its number in the file.
* `NodeOf` — the nodes by their kinds, with the direct nodes that are below them.
* `blockCount_sum`, `nodesContent_eq` — **what the tree has is what these two maps have**.
* `Cleared` — blocks of a dnode are given up: the maps afterwards, and the counts.
-/

namespace Hoit.Truncate

open NodePath Slots

variable {lay : AddrLayout} {t t' : FileTree} {s s' : Counters}
  {q i k a m r j n b stop first width : ℕ}

/-! ## Blocks -/

/-- The address of block `j`, which is `NULL_ADDR` where there is no node. -/
def FileTree.blockAt (t : FileTree) (lay : AddrLayout) (j : ℕ) : BitVec 32 :=
  match getNodePath lay j with
  | none => nullAddr
  | some p =>
      match t.dnodeAddr p with
      | none => nullAddr
      | some addr => addr p.ofsInNode

/-- The addresses in a direct node. -/
def leafAddr (d : Option DirectNode) (r : ℕ) : BitVec 32 :=
  match d with
  | none => nullAddr
  | some d => d.addr r

lemma blockAt_inode (hj : j < lay.addrsPerInode) : t.blockAt lay j = t.addr j := by
  rw [FileTree.blockAt, (PathOf.inode j hj).getNodePath]
  rfl

lemma blockAt_beyond (hj : lay.addrsPerInode + 1057052516 ≤ j) : t.blockAt lay j = nullAddr := by
  rw [FileTree.blockAt, getNodePath_eq_none hj]

/-! ## Nodes -/

/-- The id of node `n`.  The inode, whose number is 0, is not asked for. -/
def FileTree.nidAt (t : FileTree) (n : ℕ) : Option ℕ :=
  if n = 0 ∨ 1039384 ≤ n then none
  else if n < 3 then (t.direct (n - 1)).map DirectNode.nid
  else if n < 2041 then
    let m := t.indirect ((n - 3) / 1019)
    let i := (n - 3) % 1019
    if i = 0 then m.map IndexNode.nid else (childOf m (i - 1)).map DirectNode.nid
  else if n = 2041 then t.dindirect.map IndexNode.nid
  else
    let m := childOf t.dindirect ((n - 2042) / 1019)
    let i := (n - 2042) % 1019
    if i = 0 then m.map IndexNode.nid else (childOf m (i - 1)).map DirectNode.nid

lemma nidAt_direct (hq : q < 2) : t.nidAt (1 + q) = (t.direct q).map DirectNode.nid := by
  rw [FileTree.nidAt, if_neg (by omega), if_pos (by omega), Nat.add_sub_cancel_left]

lemma nidAt_indirect (hq : q < 2) :
    t.nidAt (3 + 1019 * q) = (t.indirect q).map IndexNode.nid := by
  rw [FileTree.nidAt, if_neg (by omega), if_neg (by omega), if_pos (by omega)]
  dsimp only
  rw [if_pos (by omega), show (3 + 1019 * q - 3) / 1019 = q by omega]

lemma nidAt_indirect_child (hq : q < 2) (hk : k < 1018) :
    t.nidAt (4 + 1019 * q + k) = (childOf (t.indirect q) k).map DirectNode.nid := by
  rw [FileTree.nidAt, if_neg (by omega), if_neg (by omega), if_pos (by omega)]
  dsimp only
  rw [if_neg (by omega), show (4 + 1019 * q + k - 3) / 1019 = q by omega,
    show (4 + 1019 * q + k - 3) % 1019 - 1 = k by omega]

lemma nidAt_dindirect : t.nidAt 2041 = t.dindirect.map IndexNode.nid := rfl

lemma nidAt_dindirect_child (ha : a < 1018) :
    t.nidAt (2042 + 1019 * a) = (childOf t.dindirect a).map IndexNode.nid := by
  rw [FileTree.nidAt, if_neg (by omega), if_neg (by omega), if_neg (by omega), if_neg (by omega)]
  dsimp only
  rw [if_pos (by omega), show (2042 + 1019 * a - 2042) / 1019 = a by omega]

lemma nidAt_dindirect_grandchild (ha : a < 1018) (hk : k < 1018) :
    t.nidAt (2043 + 1019 * a + k)
      = (childOf (childOf t.dindirect a) k).map DirectNode.nid := by
  rw [FileTree.nidAt, if_neg (by omega), if_neg (by omega), if_neg (by omega), if_neg (by omega)]
  dsimp only
  rw [if_neg (by omega), show (2043 + 1019 * a + k - 2042) / 1019 = a by omega,
    show (2043 + 1019 * a + k - 2042) % 1019 - 1 = k by omega]

/-- Node `n` has `width` direct nodes at or below it, and `first` before these. -/
inductive NodeOf : (n first width : ℕ) → Prop where
  | direct (q : ℕ) (hq : q < 2) : NodeOf (1 + q) q 1
  | indirect (q : ℕ) (hq : q < 2) : NodeOf (3 + 1019 * q) (2 + 1018 * q) 1018
  | indirectChild (q k : ℕ) (hq : q < 2) (hk : k < 1018) :
      NodeOf (4 + 1019 * q + k) (2 + 1018 * q + k) 1
  | dindirect : NodeOf 2041 2038 1036324
  | dindirectChild (a : ℕ) (ha : a < 1018) : NodeOf (2042 + 1019 * a) (2038 + 1018 * a) 1018
  | dindirectGrandchild (a k : ℕ) (ha : a < 1018) (hk : k < 1018) :
      NodeOf (2043 + 1019 * a + k) (2038 + (1018 * a + k)) 1

lemma exists_nodeOf (h0 : n ≠ 0) (hn : n < 1039384) : ∃ first width, NodeOf n first width := by
  rcases Nat.lt_or_ge n 3 with h | h
  · obtain ⟨q, rfl⟩ := Nat.exists_eq_add_of_le (show 1 ≤ n by omega)
    exact ⟨_, _, NodeOf.direct q (by omega)⟩
  rcases Nat.lt_or_ge n 2041 with h' | h'
  · obtain ⟨q, i, hi, rfl⟩ : ∃ q i, i < 1019 ∧ n = 3 + 1019 * q + i :=
      ⟨(n - 3) / 1019, (n - 3) % 1019, by omega, by omega⟩
    cases i with
    | zero => exact ⟨_, _, NodeOf.indirect q (by omega)⟩
    | succ i =>
        rw [show 3 + 1019 * q + (i + 1) = 4 + 1019 * q + i by omega]
        exact ⟨_, _, NodeOf.indirectChild q i (by omega) (by omega)⟩
  rcases Nat.lt_or_ge 2041 n with h'' | h''
  · obtain ⟨a, i, hi, rfl⟩ : ∃ a i, i < 1019 ∧ n = 2042 + 1019 * a + i :=
      ⟨(n - 2042) / 1019, (n - 2042) % 1019, by omega, by omega⟩
    cases i with
    | zero => exact ⟨_, _, NodeOf.dindirectChild a (by omega)⟩
    | succ i =>
        rw [show 2042 + 1019 * a + (i + 1) = 2043 + 1019 * a + i by omega]
        exact ⟨_, _, NodeOf.dindirectGrandchild a i (by omega) (by omega)⟩
  · obtain rfl : n = 2041 := le_antisymm h'' h'
    exact ⟨_, _, NodeOf.dindirect⟩

lemma NodeOf.below (h : NodeOf n first width) : Below lay n j ↔
    lay.addrsPerInode + 1018 * first ≤ j ∧ j < lay.addrsPerInode + 1018 * (first + width) := by
  cases h with
  | direct q hq => exact (below_direct hq).trans (by omega)
  | indirect q hq => exact (below_indirect hq).trans (by omega)
  | indirectChild q k hq hk => exact (below_indirect_child hq hk).trans (by omega)
  | dindirect => exact below_dindirect.trans (by omega)
  | dindirectChild a ha => exact (below_dindirect_child ha).trans (by omega)
  | dindirectGrandchild a k ha hk =>
      exact (below_dindirect_grandchild ha hk).trans (by omega)

/-! ## What they have -/

/-- The blocks in a direct node. -/
def leafBlocks (d : Option DirectNode) : ℕ := ∑ r ∈ Finset.range 1018, blockCount (leafAddr d r)

/-- An id, if there is one. -/
def idOf : Option ℕ → Multiset ℕ
  | none => 0
  | some nid => {nid}

lemma directContent_eq (d : Option DirectNode) :
    directContent d = (leafBlocks d, idOf (d.map DirectNode.nid)) := by
  cases d with
  | none =>
      have hzero : leafBlocks none = 0 := Finset.sum_eq_zero fun _ _ => if_pos rfl
      rw [hzero]
      rfl
  | some d =>
      rw [directContent_some, dataContent]
      refine Prod.ext (Nat.add_zero _) (zero_add _)

lemma childOf_some {α : Type} (n : IndexNode α) (i : ℕ) : childOf (some n) i = n.child i := rfl

/-- The children of a node, and the node. -/
lemma total_add_id {β : Type} {f : β → Content} {blocks : β → ℕ} {ids : β → Multiset ℕ}
    (hf : ∀ x, f x = (blocks x, ids x)) (k nid : ℕ) (c : ℕ → β) :
    total f k c + (0, {nid}) = (∑ i ∈ Finset.range k, blocks (c i),
      {nid} + ∑ i ∈ Finset.range k, ids (c i)) := by
  have htotal : total f k c
      = (∑ i ∈ Finset.range k, blocks (c i), ∑ i ∈ Finset.range k, ids (c i)) := by
    unfold total
    simp only [hf]
    exact Prod.ext Prod.fst_sum Prod.snd_sum
  rw [htotal, Prod.mk_add_mk, add_zero]
  exact Prod.ext rfl (add_comm _ _)

lemma indirectContent_eq (n : Option IndirectNode) :
    indirectContent n = (∑ k ∈ Finset.range 1018, leafBlocks (childOf n k),
      idOf (n.map IndexNode.nid)
        + ∑ k ∈ Finset.range 1018, idOf ((childOf n k).map DirectNode.nid)) := by
  cases n with
  | none =>
      have hblocks : ∑ k ∈ Finset.range 1018, leafBlocks (childOf (none : Option IndirectNode) k)
          = 0 := Finset.sum_eq_zero fun _ _ => Finset.sum_eq_zero fun _ _ => if_pos rfl
      have hids : ∑ k ∈ Finset.range 1018,
          idOf ((childOf (none : Option IndirectNode) k).map DirectNode.nid) = 0 :=
        Finset.sum_eq_zero fun _ _ => rfl
      rw [hblocks, hids, add_zero]
      rfl
  | some n =>
      simp only [childOf_some]
      exact total_add_id directContent_eq nidsPerBlock n.nid n.child

lemma dindirectContent_eq (n : Option DindirectNode) :
    dindirectContent n
      = (∑ a ∈ Finset.range 1018, ∑ k ∈ Finset.range 1018, leafBlocks (childOf (childOf n a) k),
        idOf (n.map IndexNode.nid) + ∑ a ∈ Finset.range 1018,
          (idOf ((childOf n a).map IndexNode.nid) + ∑ k ∈ Finset.range 1018,
            idOf ((childOf (childOf n a) k).map DirectNode.nid))) := by
  cases n with
  | none =>
      have hblocks : ∑ a ∈ Finset.range 1018, ∑ k ∈ Finset.range 1018,
          leafBlocks (childOf (childOf (none : Option DindirectNode) a) k) = 0 :=
        Finset.sum_eq_zero fun _ _ => Finset.sum_eq_zero fun _ _ =>
          Finset.sum_eq_zero fun _ _ => if_pos rfl
      have hids : ∑ a ∈ Finset.range 1018,
          (idOf ((childOf (none : Option DindirectNode) a).map IndexNode.nid)
            + ∑ k ∈ Finset.range 1018,
              idOf ((childOf (childOf (none : Option DindirectNode) a) k).map DirectNode.nid)) = 0 :=
        Finset.sum_eq_zero fun _ _ => (zero_add _).trans (Finset.sum_eq_zero fun _ _ => rfl)
      rw [hblocks, hids, add_zero]
      rfl
  | some n =>
      simp only [childOf_some]
      exact total_add_id indirectContent_eq nidsPerBlock n.nid n.child

/-- The direct nodes, by the nodes above them. -/
lemma sum_leaves (g : ℕ → ℕ) : ∑ i ∈ Finset.range 1038362, g i
    = ∑ q ∈ Finset.range 2, g q
      + ∑ q ∈ Finset.range 2, ∑ k ∈ Finset.range 1018, g (2 + 1018 * q + k)
      + ∑ a ∈ Finset.range 1018, ∑ k ∈ Finset.range 1018, g (2038 + (1018 * a + k)) := by
  have hind : ∀ q r, 2 + (1018 * q + r) = 2 + 1018 * q + r := fun q r => by omega
  have hdind : ∀ a r, 2 + 2 * 1018 + (1018 * a + r) = 2038 + (1018 * a + r) := fun a r => by omega
  rw [show 1038362 = 2 + 2 * 1018 + 1018 * 1018 by omega, Finset.sum_range_add,
    Finset.sum_range_add, sum_range_mul, sum_range_mul]
  simp only [hind, hdind]

/-- A node with ids, and its children. -/
lemma sum_row (g : ℕ → Multiset ℕ) (first k : ℕ) : ∑ r ∈ Finset.range (k + 1), g (first + r)
    = g first + ∑ r ∈ Finset.range k, g (first + 1 + r) := by
  rw [Finset.sum_range_succ', add_comm]
  refine congrArg _ (Finset.sum_congr rfl fun r _ => congrArg g ?_)
  omega

/-- All nodes, by the nodes above them. -/
lemma sum_nodes (g : ℕ → Multiset ℕ) : ∑ n ∈ Finset.range 1039384, g n
    = g 0 + ∑ q ∈ Finset.range 2, g (1 + q)
      + ∑ q ∈ Finset.range 2, (g (3 + 1019 * q) + ∑ k ∈ Finset.range 1018, g (4 + 1019 * q + k))
      + (g 2041 + ∑ a ∈ Finset.range 1018,
        (g (2042 + 1019 * a) + ∑ k ∈ Finset.range 1018, g (2043 + 1019 * a + k))) := by
  have hind : ∀ q, ∑ r ∈ Finset.range 1019, g (1 + 2 + (1019 * q + r))
      = g (3 + 1019 * q) + ∑ k ∈ Finset.range 1018, g (4 + 1019 * q + k) := by
    intro q
    have hrow := sum_row g (3 + 1019 * q) 1018
    rw [show 3 + 1019 * q + 1 = 4 + 1019 * q by omega] at hrow
    rw [← hrow]
    exact Finset.sum_congr rfl fun r _ => congrArg g (by omega)
  have hdind : ∀ a, ∑ r ∈ Finset.range 1019, g (1 + 2 + 2 * 1019 + 1 + (1019 * a + r))
      = g (2042 + 1019 * a) + ∑ k ∈ Finset.range 1018, g (2043 + 1019 * a + k) := by
    intro a
    have hrow := sum_row g (2042 + 1019 * a) 1018
    rw [show 2042 + 1019 * a + 1 = 2043 + 1019 * a by omega] at hrow
    rw [← hrow]
    exact Finset.sum_congr rfl fun r _ => congrArg g (by omega)
  have hfirst : g (1 + 2 + 2 * 1019 + 0) = g 2041 := congrArg g (by omega)
  rw [show 1039384 = 1 + 2 + 2 * 1019 + 1 + 1018 * 1019 by omega, Finset.sum_range_add,
    Finset.sum_range_add, Finset.sum_range_add, Finset.sum_range_add, sum_range_mul, sum_range_mul,
    Finset.sum_range_one, Finset.sum_range_one, hfirst]
  simp only [hind, hdind]
  rw [add_assoc _ (g 2041)]

/-- **What the tree has, by block and by node.** -/
lemma nodesContent_eq (t : FileTree) : t.nodesContent
    = (∑ i ∈ Finset.range 1038362, leafBlocks (t.leaf i),
      ∑ n ∈ Finset.range 1039384, idOf (t.nidAt n)) := by
  rw [FileTree.nodesContent, dindirectContent_eq, total, total, sum_leaves, sum_nodes]
  simp only [directContent_eq, indirectContent_eq]
  have hdirect : ∑ q ∈ Finset.range 2, leafBlocks (t.leaf q)
      = ∑ q ∈ Finset.range 2, leafBlocks (t.direct q) :=
    Finset.sum_congr rfl fun q hq => by rw [leaf_direct (Finset.mem_range.mp hq)]
  have hindirect : ∑ q ∈ Finset.range 2, ∑ k ∈ Finset.range 1018,
        leafBlocks (t.leaf (2 + 1018 * q + k))
      = ∑ q ∈ Finset.range 2, ∑ k ∈ Finset.range 1018, leafBlocks (childOf (t.indirect q) k) :=
    Finset.sum_congr rfl fun q hq => Finset.sum_congr rfl fun k hk => by
      rw [leaf_indirect (Finset.mem_range.mp hq) (Finset.mem_range.mp hk)]
  have hdindirect : ∑ a ∈ Finset.range 1018, ∑ k ∈ Finset.range 1018,
        leafBlocks (t.leaf (2038 + (1018 * a + k)))
      = ∑ a ∈ Finset.range 1018, ∑ k ∈ Finset.range 1018,
        leafBlocks (childOf (childOf t.dindirect a) k) :=
    Finset.sum_congr rfl fun a _ => Finset.sum_congr rfl fun k hk => by
      rw [leaf_dindirect (Finset.mem_range.mp hk)]
  have hids1 : ∑ q ∈ Finset.range 2, idOf (t.nidAt (1 + q))
      = ∑ q ∈ Finset.range 2, idOf ((t.direct q).map DirectNode.nid) :=
    Finset.sum_congr rfl fun q hq => by rw [nidAt_direct (Finset.mem_range.mp hq)]
  have hids2 : ∑ q ∈ Finset.range 2, (idOf (t.nidAt (3 + 1019 * q))
        + ∑ k ∈ Finset.range 1018, idOf (t.nidAt (4 + 1019 * q + k)))
      = ∑ q ∈ Finset.range 2, (idOf ((t.indirect q).map IndexNode.nid)
        + ∑ k ∈ Finset.range 1018, idOf ((childOf (t.indirect q) k).map DirectNode.nid)) :=
    Finset.sum_congr rfl fun q hq => by
      have hq := Finset.mem_range.mp hq
      rw [nidAt_indirect hq]
      exact congrArg _ (Finset.sum_congr rfl fun k hk => by
        rw [nidAt_indirect_child hq (Finset.mem_range.mp hk)])
  have hids3 : ∑ a ∈ Finset.range 1018, (idOf (t.nidAt (2042 + 1019 * a))
        + ∑ k ∈ Finset.range 1018, idOf (t.nidAt (2043 + 1019 * a + k)))
      = ∑ a ∈ Finset.range 1018, (idOf ((childOf t.dindirect a).map IndexNode.nid)
        + ∑ k ∈ Finset.range 1018,
          idOf ((childOf (childOf t.dindirect a) k).map DirectNode.nid)) :=
    Finset.sum_congr rfl fun a ha => by
      have ha := Finset.mem_range.mp ha
      rw [nidAt_dindirect_child ha]
      exact congrArg _ (Finset.sum_congr rfl fun k hk => by
        rw [nidAt_dindirect_grandchild ha (Finset.mem_range.mp hk)])
  have hzero : idOf (t.nidAt 0) = 0 := rfl
  rw [hdirect, hindirect, hdindirect, hids1, hids2, hids3, hzero, zero_add, nidAt_dindirect]
  refine Prod.ext ?_ ?_
  · rw [Prod.fst_add, Prod.fst_add, Prod.fst_sum, Prod.fst_sum]
  · rw [Prod.snd_add, Prod.snd_add, Prod.snd_sum, Prod.snd_sum]

/-! ## The path to a direct node -/

/-- Only the addresses in direct node `m` are others. -/
structure LeafSet (m : ℕ) (addr : ℕ → BitVec 32) (t t' : FileTree) : Prop where
  inode : t'.addr = t.addr
  leaf : ∀ i < 1038362,
    t'.leaf i = if i = m then (t.leaf m).map (DirectNode.withAddr addr) else t.leaf i
  nidAt : ∀ n, t'.nidAt n = t.nidAt n

/-- A path that ends in slot `r` of direct node `m`. -/
structure LeafPath (lay : AddrLayout) (m r : ℕ) (p : Path) : Prop where
  path : getNodePath lay (lay.addrsPerInode + 1018 * m + r) = some p
  level : p.level ≠ 0
  ofs : p.ofsInNode = r
  addr : ∀ t : FileTree, t.dnodeAddr p = (t.leaf m).map DirectNode.addr
  set : ∀ (t : FileTree) addr, LeafSet m addr t (t.setDnodeAddr p addr)

lemma nidAt_congr (hdirect : ∀ q, (t'.direct q).map DirectNode.nid
      = (t.direct q).map DirectNode.nid)
    (hindirect : ∀ q, (t'.indirect q).map IndexNode.nid = (t.indirect q).map IndexNode.nid)
    (hchild : ∀ q k, (childOf (t'.indirect q) k).map DirectNode.nid
      = (childOf (t.indirect q) k).map DirectNode.nid)
    (hdindirect : t'.dindirect.map IndexNode.nid = t.dindirect.map IndexNode.nid)
    (hdchild : ∀ a, (childOf t'.dindirect a).map IndexNode.nid
      = (childOf t.dindirect a).map IndexNode.nid)
    (hgrandchild : ∀ a k, (childOf (childOf t'.dindirect a) k).map DirectNode.nid
      = (childOf (childOf t.dindirect a) k).map DirectNode.nid) (n : ℕ) :
    t'.nidAt n = t.nidAt n := by
  unfold FileTree.nidAt
  simp only [hdirect, hindirect, hchild, hdindirect, hdchild, hgrandchild]

lemma withAddr_nid (addr : ℕ → BitVec 32) (d : Option DirectNode) :
    (d.map (DirectNode.withAddr addr)).map DirectNode.nid = d.map DirectNode.nid := by
  cases d <;> rfl

lemma leafPath_direct (hq : q < 2) (hr : r < 1018) :
    LeafPath lay q r ⟨1, [924 + q, r], [0, 1 + q]⟩ := by
  have hd : nodeDir1Block = 924 := rfl
  have hslot : 924 + q - nodeDir1Block = q := by omega
  refine ⟨(PathOf.direct q r hq hr).getNodePath, one_ne_zero, rfl, fun t => ?_, fun t addr => ?_⟩
  · rw [leaf_direct hq]
    show (t.direct (924 + q - nodeDir1Block)).map DirectNode.addr = _
    rw [hslot]
  · show LeafSet q addr t { t with
      direct := Function.update t.direct (924 + q - nodeDir1Block)
        ((t.direct (924 + q - nodeDir1Block)).map (DirectNode.withAddr addr)) }
    rw [hslot]
    refine ⟨rfl, fun i hi => ?_, nidAt_congr (fun i => ?_) (fun _ => rfl) (fun _ _ => rfl) rfl
      (fun _ => rfl) (fun _ _ => rfl)⟩
    · unfold FileTree.leaf
      dsimp only
      by_cases hiq : i = q
      · rw [hiq, if_pos hq, if_pos rfl, if_pos hq, Function.update_self]
      · rw [if_neg hiq, Function.update_of_ne hiq]
    · dsimp only
      by_cases hiq : i = q
      · rw [hiq, Function.update_self, withAddr_nid]
      · rw [Function.update_of_ne hiq]

/-- One child of a node is another one. -/
def mapChild {α : Type} (k : ℕ) (f : α → α) (n : IndexNode α) : IndexNode α :=
  n.set k ((n.child k).map f)

lemma childOf_mapChild {α : Type} (k : ℕ) (f : α → α) (n : Option (IndexNode α)) (i : ℕ) :
    childOf (n.map (mapChild k f)) i = if i = k then (childOf n k).map f else childOf n i := by
  cases n with
  | none => split_ifs <;> rfl
  | some n =>
      show Function.update n.child k ((n.child k).map f) i = _
      by_cases hik : i = k
      · rw [hik, Function.update_self, if_pos rfl]
        rfl
      · rw [Function.update_of_ne hik, if_neg hik]
        rfl

lemma mapChild_nid {α : Type} (k : ℕ) (f : α → α) (n : Option (IndexNode α)) :
    (n.map (mapChild k f)).map IndexNode.nid = n.map IndexNode.nid := by
  cases n <;> rfl

/-- Neither do the ids of the children change. -/
lemma childOf_mapChild_nid {α : Type} (f : α → α) (nid : α → ℕ) (hf : ∀ x, nid (f x) = nid x)
    (k : ℕ) (n : Option (IndexNode α)) (i : ℕ) :
    (childOf (n.map (mapChild k f)) i).map nid = (childOf n i).map nid := by
  rw [childOf_mapChild]
  split_ifs with hik
  · rw [hik]
    cases childOf n k with
    | none => rfl
    | some x => exact congrArg some (hf x)
  · rfl

lemma leafPath_indirect (hq : q < 2) (hk : k < 1018) (hr : r < 1018) :
    LeafPath lay (2 + 1018 * q + k) r ⟨2, [926 + q, k, r], [0, 3 + 1019 * q, 4 + 1019 * q + k]⟩ := by
  have hi : nodeInd1Block = 926 := rfl
  have hslot : 926 + q - nodeInd1Block = q := by omega
  have hp := (PathOf.indirect (d := lay.addrsPerInode) q k r hq hk hr).getNodePath
  rw [show lay.addrsPerInode + 2036 + 1018 * (1018 * q + k) + r
    = lay.addrsPerInode + 1018 * (2 + 1018 * q + k) + r by omega] at hp
  refine ⟨hp, two_ne_zero, rfl, fun t => ?_, fun t addr => ?_⟩
  · rw [leaf_indirect hq hk]
    show ((t.indirect (926 + q - nodeInd1Block)).bind fun n => (n.child k).map DirectNode.addr) = _
    rw [hslot]
    cases t.indirect q <;> rfl
  · show LeafSet (2 + 1018 * q + k) addr t { t with
      indirect := Function.update t.indirect (926 + q - nodeInd1Block)
        ((t.indirect (926 + q - nodeInd1Block)).map (mapChild k (DirectNode.withAddr addr))) }
    rw [hslot]
    have hat : ∀ i, (Function.update t.indirect q ((t.indirect q).map
        (mapChild k (DirectNode.withAddr addr)))) i
        = if i = q then (t.indirect q).map (mapChild k (DirectNode.withAddr addr))
          else t.indirect i := fun i => Function.update_apply ..
    refine ⟨rfl, fun i hi => ?_, nidAt_congr (fun _ => rfl) (fun i => ?_) (fun i c => ?_) rfl
      (fun _ => rfl) (fun _ _ => rfl)⟩
    · rcases leaf_cases hi with hlt | ⟨q', k', hq', hk', rfl⟩ | ⟨a', k', ha', hk', rfl⟩
      · rw [leaf_direct hlt, leaf_direct hlt, if_neg (by omega)]
      · rw [leaf_indirect hq' hk', leaf_indirect hq hk, leaf_indirect hq' hk']
        dsimp only
        rw [hat]
        by_cases hqq : q' = q
        · rw [if_pos hqq, childOf_mapChild, hqq]
          by_cases hkk : k' = k
          · rw [if_pos hkk, if_pos (by rw [hkk])]
          · rw [if_neg hkk, if_neg (by omega)]
        · rw [if_neg hqq, if_neg (by omega)]
      · rw [leaf_dindirect hk', leaf_dindirect hk', if_neg (by omega)]
    · dsimp only
      rw [hat]
      split_ifs with hiq
      · rw [hiq, mapChild_nid]
      · rfl
    · dsimp only
      rw [hat]
      split_ifs with hiq
      · rw [hiq]
        exact childOf_mapChild_nid (DirectNode.withAddr addr) DirectNode.nid (fun _ => rfl) k _ c
      · rfl

lemma leafPath_dindirect (ha : a < 1018) (hk : k < 1018) (hr : r < 1018) :
    LeafPath lay (2038 + (1018 * a + k)) r
      ⟨3, [928, a, k, r], [0, 2041, 2042 + 1019 * a, 2043 + 1019 * a + k]⟩ := by
  have hp := (PathOf.dindirect (d := lay.addrsPerInode) a k r ha hk hr).getNodePath
  rw [show lay.addrsPerInode + 2074684 + 1018 * (1018 * a + k) + r
    = lay.addrsPerInode + 1018 * (2038 + (1018 * a + k)) + r by omega] at hp
  refine ⟨hp, three_ne_zero, rfl, fun t => ?_, fun t addr => ?_⟩
  · rw [leaf_dindirect hk]
    show (t.dindirect.bind fun n => (n.child a).bind fun m => (m.child k).map DirectNode.addr) = _
    cases t.dindirect with
    | none => rfl
    | some n =>
        rw [childOf_some]
        show ((n.child a).bind fun m => (m.child k).map DirectNode.addr) = _
        cases n.child a <;> rfl
  · show LeafSet (2038 + (1018 * a + k)) addr t { t with
      dindirect := t.dindirect.map (mapChild a (mapChild k (DirectNode.withAddr addr))) }
    refine ⟨rfl, fun i hi => ?_, nidAt_congr (fun _ => rfl) (fun _ => rfl) (fun _ _ => rfl)
      (mapChild_nid ..) (fun i => ?_) (fun i c => ?_)⟩
    · rcases leaf_cases hi with hlt | ⟨q', k', hq', hk', rfl⟩ | ⟨a', k', ha', hk', rfl⟩
      · rw [leaf_direct hlt, leaf_direct hlt, if_neg (by omega)]
      · rw [leaf_indirect hq' hk', leaf_indirect hq' hk', if_neg (by omega)]
      · rw [leaf_dindirect hk', leaf_dindirect hk, leaf_dindirect hk']
        dsimp only
        rw [childOf_mapChild]
        by_cases haa : a' = a
        · rw [if_pos haa, childOf_mapChild, haa]
          by_cases hkk : k' = k
          · rw [if_pos hkk, if_pos (by rw [hkk])]
          · rw [if_neg hkk, if_neg (by omega)]
        · rw [if_neg haa, if_neg (by omega)]
    · exact childOf_mapChild_nid (mapChild k _) IndexNode.nid (fun _ => rfl) a _ i
    · dsimp only
      rw [childOf_mapChild]
      split_ifs with hia
      · rw [hia]
        exact childOf_mapChild_nid (DirectNode.withAddr addr) DirectNode.nid (fun _ => rfl) k _ c
      · rfl

lemma exists_leafPath (lay : AddrLayout) (hm : m < 1038362) (hr : r < 1018) : ∃ p, LeafPath lay m r p := by
  rcases leaf_cases hm with hdirect | ⟨q, k, hq, hk, rfl⟩ | ⟨a, k, ha, hk, rfl⟩
  · exact ⟨_, leafPath_direct hdirect hr⟩
  · exact ⟨_, leafPath_indirect hq hk hr⟩
  · exact ⟨_, leafPath_dindirect ha hk hr⟩

lemma blockAt_leaf (hm : m < 1038362) (hr : r < 1018) :
    t.blockAt lay (lay.addrsPerInode + 1018 * m + r) = leafAddr (t.leaf m) r := by
  obtain ⟨p, hp⟩ := exists_leafPath lay hm hr
  rw [FileTree.blockAt, hp.path]
  dsimp only
  rw [hp.addr t, hp.ofs]
  cases t.leaf m <;> rfl

/-- **All blocks of the file: those of the inode, and those of the direct nodes.** -/
lemma blockCount_sum (lay : AddrLayout) (t : FileTree) :
    ∑ j ∈ Finset.range (lay.addrsPerInode + 1057052516), blockCount (t.blockAt lay j)
      = total blockCount lay.addrsPerInode t.addr
        + ∑ i ∈ Finset.range 1038362, leafBlocks (t.leaf i) := by
  rw [Finset.sum_range_add, show 1057052516 = 1038362 * 1018 by omega, sum_range_mul]
  refine congrArg₂ (· + ·) (Finset.sum_congr rfl fun j hj => ?_)
    (Finset.sum_congr rfl fun i hi => Finset.sum_congr rfl fun r hr => ?_)
  · rw [blockAt_inode (Finset.mem_range.mp hj)]
  · rw [← Nat.add_assoc, blockAt_leaf (Finset.mem_range.mp hi) (Finset.mem_range.mp hr)]

/-! ## Below a node -/

lemma NodeOf.width_pos (h : NodeOf n first width) : 0 < width := by
  cases h <;> decide

lemma NodeOf.ne_zero (h : NodeOf n first width) : n ≠ 0 := by
  cases h <;> omega

lemma NodeOf.first_dindirect (h : NodeOf 2041 first width) : first = 2038 := by
  generalize hn : 2041 = n at h
  cases h with
  | dindirect => rfl
  | _ => omega

lemma below_nodeOf (h : Below lay n b) (h0 : n ≠ 0) : ∃ first width, NodeOf n first width := by
  obtain ⟨p, hp, hmem⟩ := below_iff.mp h
  refine exists_nodeOf h0 ?_
  cases hp with
  | inode b hb => simp at hmem; omega
  | direct q r hq hr => simp at hmem; omega
  | indirect q k r hq hk hr => simp at hmem; omega
  | dindirect a k r ha hk hr => simp at hmem; omega

/-- A missing node has no direct nodes below it. -/
lemma leaf_eq_none (h : NodeOf n first width) (hnid : t.nidAt n = none) (hle : first ≤ m)
    (hlt : m < first + width) : t.leaf m = none := by
  cases h with
  | direct q hq =>
      obtain rfl : m = first := by omega
      rw [nidAt_direct hq, Option.map_eq_none_iff] at hnid
      rw [leaf_direct hq, hnid]
  | indirect q hq =>
      obtain ⟨k, rfl⟩ := Nat.exists_eq_add_of_le hle
      rw [nidAt_indirect hq, Option.map_eq_none_iff] at hnid
      rw [leaf_indirect hq (by omega), hnid]
      rfl
  | indirectChild q k hq hk =>
      obtain rfl : m = 2 + 1018 * q + k := by omega
      rw [nidAt_indirect_child hq hk, Option.map_eq_none_iff] at hnid
      rw [leaf_indirect hq hk, hnid]
  | dindirect =>
      obtain ⟨a, k, hk, rfl⟩ : ∃ a k, k < 1018 ∧ m = 2038 + (1018 * a + k) :=
        ⟨(m - 2038) / 1018, (m - 2038) % 1018, by omega, by omega⟩
      rw [nidAt_dindirect, Option.map_eq_none_iff] at hnid
      rw [leaf_dindirect hk, hnid]
      rfl
  | dindirectChild a ha =>
      obtain ⟨k, rfl⟩ := Nat.exists_eq_add_of_le hle
      rw [nidAt_dindirect_child ha, Option.map_eq_none_iff] at hnid
      rw [Nat.add_assoc, leaf_dindirect (by omega), hnid]
      rfl
  | dindirectGrandchild a k ha hk =>
      obtain rfl : m = 2038 + (1018 * a + k) := by omega
      rw [nidAt_dindirect_grandchild ha hk, Option.map_eq_none_iff] at hnid
      rw [leaf_dindirect hk, hnid]

/-! ## Blocks that are cleared -/

/-- The blocks of a file. -/
def FileTree.blocks (t : FileTree) (lay : AddrLayout) : ℕ :=
  ∑ j ∈ Finset.range (lay.addrsPerInode + 1057052516), blockCount (t.blockAt lay j)

lemma blocks_eq (lay : AddrLayout) (t : FileTree) : t.blocks lay
    = total blockCount lay.addrsPerInode t.addr
      + ∑ i ∈ Finset.range 1038362, leafBlocks (t.leaf i) := blockCount_sum lay t

/-- The blocks from `b` up to `stop` are gone, and the nodes are still there. -/
structure Cleared (lay : AddrLayout) (b stop : ℕ) (t : FileTree) (s : Counters) (t' : FileTree)
    (s' : Counters) : Prop where
  nidAt : ∀ n, t'.nidAt n = t.nidAt n
  blockAt : ∀ j, t'.blockAt lay j = if b ≤ j ∧ j < stop then nullAddr else t.blockAt lay j
  frees : ∃ k, Frees (k, 0) s s' ∧ t.blocks lay = k + t'.blocks lay

lemma cleared_inode (hle : b ≤ stop) (hstop : stop ≤ lay.addrsPerInode) (t : FileTree)
    (s : Counters) : Cleared lay b stop t s
      { t with addr := (f2fsTruncateDataBlocksRange t.addr b (stop - b) s).1 }
      (f2fsTruncateDataBlocksRange t.addr b (stop - b) s).2 := by
  obtain ⟨haddr, k, hk, htotal⟩ := f2fsTruncateDataBlocksRange_spec t.addr
    (show b + (stop - b) ≤ lay.addrsPerInode by omega) s
  have hleaf : ∀ (addr : ℕ → BitVec 32) (i : ℕ), ({ t with addr := addr } : FileTree).leaf i
      = t.leaf i := fun _ _ => rfl
  refine ⟨fun _ => rfl, fun j => ?_, ⟨k, hk, ?_⟩⟩
  · by_cases hinode : j < lay.addrsPerInode
    · rw [blockAt_inode hinode, blockAt_inode hinode]
      dsimp only
      rw [haddr, emptied, Nat.add_sub_cancel' hle]
    · rw [if_neg (by omega)]
      by_cases hend : lay.addrsPerInode + 1057052516 ≤ j
      · rw [blockAt_beyond hend, blockAt_beyond hend]
      · obtain ⟨i, r, hr, rfl⟩ : ∃ i r, r < 1018 ∧ j = lay.addrsPerInode + 1018 * i + r :=
          ⟨(j - lay.addrsPerInode) / 1018, (j - lay.addrsPerInode) % 1018, by omega, by omega⟩
        rw [blockAt_leaf (by omega) hr, blockAt_leaf (by omega) hr, hleaf]
  · rw [blocks_eq, blocks_eq, htotal, haddr, Nat.add_assoc]
    simp only [hleaf]

/-- Slots of a direct node are cleared. -/
lemma cleared_leaf {p : Path} {d : DirectNode} {count : ℕ} (hm : m < 1038362)
    (hcount : r + count ≤ 1018) (hp : LeafPath lay m r p) (hleaf : t.leaf m = some d)
    (s : Counters) : Cleared lay (lay.addrsPerInode + 1018 * m + r)
      (lay.addrsPerInode + 1018 * m + r + count) t s
      (t.setDnodeAddr p (f2fsTruncateDataBlocksRange d.addr r count s).1)
      (f2fsTruncateDataBlocksRange d.addr r count s).2 := by
  obtain ⟨haddr, k, hk, htotal⟩ := f2fsTruncateDataBlocksRange_spec d.addr hcount s
  rw [haddr]
  have hset := hp.set t (emptied nullAddr r count d.addr)
  have hself : (t.setDnodeAddr p (emptied nullAddr r count d.addr)).leaf m
      = some (d.withAddr (emptied nullAddr r count d.addr)) := by
    rw [hset.leaf m hm, if_pos rfl, hleaf]
    rfl
  refine ⟨hset.nidAt, fun j => ?_, ⟨k, hk, ?_⟩⟩
  · by_cases hinode : j < lay.addrsPerInode
    · rw [blockAt_inode hinode, blockAt_inode hinode, hset.inode, if_neg (by omega)]
    by_cases hend : lay.addrsPerInode + 1057052516 ≤ j
    · rw [blockAt_beyond hend, blockAt_beyond hend, if_neg (by omega)]
    obtain ⟨i, r', hr', rfl⟩ : ∃ i r', r' < 1018 ∧ j = lay.addrsPerInode + 1018 * i + r' :=
      ⟨(j - lay.addrsPerInode) / 1018, (j - lay.addrsPerInode) % 1018, by omega, by omega⟩
    rw [blockAt_leaf (by omega) hr', blockAt_leaf (by omega) hr']
    by_cases him : i = m
    · rw [him, hself, hleaf]
      show (if r ≤ r' ∧ r' < r + count then nullAddr else d.addr r') = _
      have hiff : (r ≤ r' ∧ r' < r + count) ↔ (lay.addrsPerInode + 1018 * m + r
          ≤ lay.addrsPerInode + 1018 * m + r' ∧ lay.addrsPerInode + 1018 * m + r'
          < lay.addrsPerInode + 1018 * m + r + count) := by omega
      simp only [hiff]
      rfl
    · rw [hset.leaf i (by omega), if_neg him, if_neg (by omega)]
  · rw [blocks_eq, blocks_eq, hset.inode]
    have hone : leafBlocks (t.leaf m) = k
        + leafBlocks ((t.setDnodeAddr p (emptied nullAddr r count d.addr)).leaf m) := by
      rw [hself, hleaf]
      exact htotal
    have hrest : ∀ i ∈ (Finset.range 1038362).erase m, leafBlocks
        ((t.setDnodeAddr p (emptied nullAddr r count d.addr)).leaf i)
        = leafBlocks (t.leaf i) := by
      intro i hi
      obtain ⟨him, hi⟩ := Finset.mem_erase.mp hi
      rw [hset.leaf i (Finset.mem_range.mp hi), if_neg him]
    have hmem : m ∈ Finset.range 1038362 := Finset.mem_range.mpr hm
    rw [← Finset.add_sum_erase _ _ hmem, ← Finset.add_sum_erase _ _ hmem,
      Finset.sum_congr rfl hrest, hone]
    omega

lemma Cleared.refl (b : ℕ) (t : FileTree) (s : Counters) : Cleared lay b b t s t s :=
  ⟨fun _ => rfl, fun j => (if_neg (by omega)).symm, ⟨0, Frees.refl s, (zero_add _).symm⟩⟩

/-- How many of some blocks are mapped. -/
noncomputable def FileTree.mapped (t : FileTree) (lay : AddrLayout) (P : Set ℕ) : ℕ :=
  {j ∈ P | t.blockAt lay j ≠ nullAddr}.ncard

open Classical in
lemma mapped_eq (t : FileTree) (lay : AddrLayout) (P : Set ℕ) : t.mapped lay P
    = ∑ j ∈ Finset.range (lay.addrsPerInode + 1057052516),
      if j ∈ P then blockCount (t.blockAt lay j) else 0 := by
  have hset : {j ∈ P | t.blockAt lay j ≠ nullAddr}
      = ((Finset.range (lay.addrsPerInode + 1057052516)).filter
        fun j => j ∈ P ∧ t.blockAt lay j ≠ nullAddr : Set ℕ) := by
    ext j
    rw [Finset.mem_coe, Finset.mem_filter, Finset.mem_range]
    refine ⟨fun h => ⟨?_, h⟩, fun h => h.2⟩
    by_contra hend
    exact h.2 (blockAt_beyond (not_lt.mp hend))
  rw [FileTree.mapped, hset, Set.ncard_coe_finset, Finset.card_filter]
  refine Finset.sum_congr rfl fun j _ => ?_
  unfold blockCount
  by_cases hP : j ∈ P
  · by_cases hnull : t.blockAt lay j = nullAddr
    · rw [if_neg (fun h => h.2 hnull), if_pos hP, if_pos hnull]
    · rw [if_pos ⟨hP, hnull⟩, if_pos hP, if_neg hnull]
  · rw [if_neg (fun h => hP h.1), if_neg hP]

/-- The blocks that are missing afterwards are those that were mapped before. -/
lemma blocks_lost (P : Set ℕ) (hgone : ∀ j ∈ P, t'.blockAt lay j = nullAddr)
    (hkept : ∀ j, j ∉ P → t'.blockAt lay j = t.blockAt lay j) :
    t.blocks lay = t.mapped lay P + t'.blocks lay := by
  classical
  rw [mapped_eq, FileTree.blocks, FileTree.blocks, ← Finset.sum_add_distrib]
  refine Finset.sum_congr rfl fun j _ => ?_
  by_cases hP : j ∈ P
  · rw [if_pos hP, hgone j hP]
    rfl
  · rw [if_neg hP, hkept j hP, Nat.zero_add]

end Hoit.Truncate
