import HoitF2fs.Lib.Slots
import HoitF2fs.Node.Truncate

/-!
# What a truncation does to single nodes

* `Frees` — from one state of the counts to the next, so much was freed, and the counts went down by
  as much.  A node is a block as well.
* `content` — how many data blocks there are below a node, and which nodes.
* `truncateDnode_spec`, `truncateNodes2_spec`, `truncateNodes3_spec` — **a node is cut**: what it has
  behind the slot is freed, and the node itself if the slot is the first one.
-/

namespace Hoit.Truncate

open NodePath Slots

variable {s s' s'' : Counters} {a b : Content} {ofs : ℕ}

/-! ## The account -/

structure Frees (m : Content) (s s' : Counters) : Prop where
  freed : s'.freed = s.freed + m
  nodes : s'.totalValidNodeCount = s.totalValidNodeCount - BitVec.ofNat 32 m.2.card
  blocks : s'.totalValidBlockCount
    = s.totalValidBlockCount - BitVec.ofNat 32 (m.1 + m.2.card)

lemma Frees.refl (s : Counters) : Frees 0 s s := ⟨by simp, by simp, by simp⟩

lemma Frees.add (h : Frees a s s') (h' : Frees b s' s'') : Frees (a + b) s s'' where
  freed := by rw [h'.freed, h.freed, add_assoc]
  nodes := by
    rw [h'.nodes, h.nodes, Prod.snd_add, Multiset.card_add, BitVec.ofNat_add]
    grind
  blocks := by
    have hsum : (a + b).1 + (a + b).2.card = (a.1 + a.2.card) + (b.1 + b.2.card) := by
      rw [Prod.fst_add, Prod.snd_add, Multiset.card_add]
      omega
    rw [h'.blocks, h.blocks, hsum, BitVec.ofNat_add (a.1 + a.2.card)]
    grind

lemma frees_ledger : Ledger Frees := ⟨Frees.refl, Frees.add⟩

lemma truncateNode_frees (s : Counters) (nid : ℕ) : Frees (0, {nid}) s (truncateNode s nid) :=
  ⟨rfl, rfl, rfl⟩

/-! ## Data blocks -/

/-- A slot with an address has a block. -/
def blockCount (x : BitVec 32) : ℕ := if x = nullAddr then 0 else 1

/-- The loop of `f2fs_truncate_data_blocks_range` counts what it frees. -/
structure Counted (m : ℕ) (x x' : ℕ × Counters) : Prop where
  nrFree : x'.1 = x.1 + m
  freed : x'.2.freed = x.2.freed + (m, 0)
  nodes : x'.2.totalValidNodeCount = x.2.totalValidNodeCount
  blocks : x'.2.totalValidBlockCount = x.2.totalValidBlockCount

lemma counted_ledger : Ledger Counted where
  zero := fun _ => ⟨rfl, by simp, rfl, rfl⟩
  add := by
    intro a b x x' x'' h h'
    refine ⟨by rw [h'.nrFree, h.nrFree, Nat.add_assoc], ?_, h'.nodes.trans h.nodes,
      h'.blocks.trans h.blocks⟩
    rw [h'.freed, h.freed, add_assoc]
    rfl

lemma clearAddr_spec (x : (ℕ → BitVec 32) × ℕ × Counters) (i : ℕ) :
    (clearAddr x i).1 = Function.update x.1 i nullAddr ∧
      Counted (blockCount (x.1 i)) x.2 (clearAddr x i).2 := by
  unfold clearAddr blockCount
  split_ifs with h
  · exact ⟨(Function.update_eq_self_iff.mpr h.symm).symm, counted_ledger.zero x.2⟩
  · exact ⟨rfl, rfl, rfl, rfl, rfl⟩

/-- **The slots are cleared, and what they had is freed.** -/
lemma f2fsTruncateDataBlocksRange_spec (addr : ℕ → BitVec 32) {count n : ℕ} (hn : ofs + count ≤ n)
    (s : Counters) :
    (f2fsTruncateDataBlocksRange addr ofs count s).1 = emptied nullAddr ofs count addr ∧
      ∃ m, Frees (m, 0) s (f2fsTruncateDataBlocksRange addr ofs count s).2 ∧
        total blockCount n addr = m + total blockCount n (emptied nullAddr ofs count addr) := by
  obtain ⟨haddr, m, hm, htotal⟩ := foldl_emptied (f := blockCount) (c := addr) counted_ledger
    (show blockCount nullAddr = 0 from if_pos rfl) clearAddr_spec hn (0, s)
  refine ⟨haddr, m, ?_, htotal⟩
  have hfree : ((List.range' ofs count).foldl clearAddr (addr, 0, s)).2.1 = m :=
    hm.nrFree.trans (Nat.zero_add m)
  unfold f2fsTruncateDataBlocksRange
  dsimp only
  rw [hfree]
  split_ifs with hzero
  · exact ⟨hm.freed, by rw [hm.nodes]; simp, by rw [hm.blocks, hzero]; simp⟩
  · refine ⟨hm.freed, ?_, ?_⟩
    · rw [decValidBlockCount, hm.nodes]
      simp
    · rw [decValidBlockCount, hm.blocks]
      simp

/-! ## What is below a node -/

/-- The first slots of a direct node, or of the inode. -/
def dataContent (n : ℕ) (addr : ℕ → BitVec 32) : Content := (total blockCount n addr, 0)

def DirectNode.content (d : DirectNode) : Content := dataContent addrsPerBlock d.addr + (0, {d.nid})

/-- A slot without a node has nothing. -/
def slotContent {α : Type} (f : α → Content) : Option α → Content
  | none => 0
  | some x => f x

def IndexNode.content {α : Type} (f : α → Content) (n : IndexNode α) : Content :=
  total (slotContent f) nidsPerBlock n.child + (0, {n.nid})

def directContent : Option DirectNode → Content := slotContent DirectNode.content

lemma directContent_some (d : DirectNode) :
    directContent (some d) = dataContent addrsPerBlock d.addr + (0, {d.nid}) := rfl

def indirectContent : Option IndirectNode → Content :=
  slotContent (IndexNode.content DirectNode.content)

def dindirectContent : Option DindirectNode → Content :=
  slotContent (IndexNode.content (IndexNode.content DirectNode.content))

lemma indirectContent_some (n : IndirectNode) :
    indirectContent (some n) = total directContent nidsPerBlock n.child + (0, {n.nid}) := rfl

lemma dindirectContent_some (n : DindirectNode) :
    dindirectContent (some n) = total indirectContent nidsPerBlock n.child + (0, {n.nid}) := rfl

/-- A node with only its first slots. -/
def IndexNode.cut {α : Type} (ofs : ℕ) (n : IndexNode α) : IndexNode α :=
  { n with child := emptied none ofs (nidsPerBlock - ofs) n.child }

/-- What is left of a node that is cut: nothing, if it is cut at its first slot. -/
def cutNode {α : Type} (ofs : ℕ) (n : Option (IndexNode α)) : Option (IndexNode α) :=
  if ofs = 0 then none else n.map (IndexNode.cut ofs)

/-! ## Cutting -/

lemma truncateDnode_spec (s : Counters) (d : Option DirectNode) :
    (truncateDnode s d).1 = 1 ∧ Frees (directContent d) s (truncateDnode s d).2 := by
  cases d with
  | none => exact ⟨rfl, Frees.refl s⟩
  | some d =>
      obtain ⟨-, m, hm, htotal⟩ := f2fsTruncateDataBlocksRange_spec d.addr
        (show 0 + addrsPerBlock ≤ addrsPerBlock by omega) s
      have hempty : total blockCount addrsPerBlock (emptied nullAddr 0 addrsPerBlock d.addr) = 0 :=
        total_empty (if_pos rfl) fun i hi => if_pos ⟨Nat.zero_le i, by omega⟩
      rw [hempty, Nat.add_zero] at htotal
      refine ⟨rfl, ?_⟩
      rw [directContent_some, dataContent, htotal]
      exact hm.add (truncateNode_frees _ d.nid)

lemma freeDirect_spec (x : (ℕ → Option DirectNode) × Counters) (i : ℕ) :
    (freeDirect x i).1 = Function.update x.1 i none ∧
      Frees (directContent (x.1 i)) x.2 (freeDirect x i).2 := by
  unfold freeDirect
  cases h : x.1 i with
  | none => exact ⟨(Function.update_eq_self_iff.mpr h.symm).symm, Frees.refl x.2⟩
  | some d => exact ⟨rfl, (truncateDnode_spec x.2 (some d)).2⟩

/-- The direct nodes behind a slot are freed. -/
lemma freeDirects_spec (hofs : ofs ≤ nidsPerBlock) (s : Counters) (n : IndirectNode) :
    ((slotsFrom ofs).foldl freeDirect (n.child, s)).1 = (n.cut ofs).child ∧
      ∃ m, Frees m s ((slotsFrom ofs).foldl freeDirect (n.child, s)).2 ∧
        indirectContent (some n) = m + indirectContent (some (n.cut ofs)) := by
  obtain ⟨hchild, m, hm, htotal⟩ := foldl_emptied (f := directContent) (c := n.child)
    frees_ledger rfl freeDirect_spec (show ofs + (nidsPerBlock - ofs) ≤ nidsPerBlock by omega) s
  refine ⟨hchild, m, hm, ?_⟩
  rw [indirectContent_some, indirectContent_some, htotal, add_assoc, IndexNode.cut]

/-- With all of its slots empty, a node is only itself. -/
lemma total_cut_zero {α : Type} (f : α → Content) (n : IndexNode α) :
    total (slotContent f) nidsPerBlock (n.cut 0).child = 0 :=
  total_empty rfl fun i hi => if_pos ⟨Nat.zero_le i, by omega⟩

lemma truncateNodes2_spec (hofs : ofs ≤ nidsPerBlock) (s : Counters) (n : Option IndirectNode) :
    (truncateNodes2 s ofs n).1 = (if n = none ∨ ofs = 0 then (nidsPerBlock : ℤ) + 1
        else ((nidsPerBlock - ofs : ℕ) : ℤ)) ∧
      (truncateNodes2 s ofs n).2.1 = n.map (IndexNode.cut ofs) ∧
      ∃ m, Frees m s (truncateNodes2 s ofs n).2.2 ∧
        indirectContent n = m + indirectContent (cutNode ofs n) := by
  cases n with
  | none =>
      refine ⟨rfl, rfl, 0, Frees.refl s, ?_⟩
      unfold cutNode
      split_ifs <;> rfl
  | some n =>
      obtain ⟨hchild, m, hm, hcontent⟩ := freeDirects_spec hofs s n
      have hlen : ((slotsFrom ofs).length : ℤ) = ((nidsPerBlock - ofs : ℕ) : ℤ) := by
        rw [slotsFrom, List.length_range']
      unfold truncateNodes2
      dsimp only
      rw [hlen, hchild]
      by_cases hzero : ofs = 0
      · rw [if_pos hzero, if_pos (Or.inr hzero), cutNode, if_pos hzero]
        subst hzero
        refine ⟨rfl, rfl, m + (0, {n.nid}), hm.add (truncateNode_frees _ n.nid), ?_⟩
        rw [indirectContent_some (n.cut 0), directContent, total_cut_zero, zero_add] at hcontent
        exact hcontent.trans (add_zero _).symm
      · rw [if_neg hzero, if_neg (by simp [hzero]), cutNode, if_neg hzero]
        exact ⟨rfl, rfl, m, hm, hcontent⟩

/-- `child_nofs` does not go down. -/
lemma freeIndirect_spec (x : (ℕ → Option IndirectNode) × ℤ × Counters) (i : ℕ) :
    (freeIndirect x i).1 = Function.update x.1 i none ∧
      x.2.1 ≤ (freeIndirect x i).2.1 ∧
        Frees (indirectContent (x.1 i)) x.2.2 (freeIndirect x i).2.2 := by
  unfold freeIndirect
  cases h : x.1 i with
  | none =>
      refine ⟨(Function.update_eq_self_iff.mpr h.symm).symm, ?_, Frees.refl x.2.2⟩
      show x.2.1 ≤ x.2.1 + (nidsPerBlock + 1)
      omega
  | some n =>
      obtain ⟨hret, -, m, hm, hcontent⟩ := truncateNodes2_spec (Nat.zero_le _) x.2.2 (some n)
      rw [if_pos (Or.inr rfl)] at hret
      dsimp only
      rw [if_pos hret, hret]
      refine ⟨rfl, by show x.2.1 ≤ x.2.1 + _; omega, ?_⟩
      have hzero : indirectContent (cutNode 0 (some n)) = 0 := rfl
      rw [hzero, add_zero] at hcontent
      rw [hcontent]
      exact hm

lemma truncateNodes3_spec (hofs : ofs ≤ nidsPerBlock) (s : Counters) {nofs : ℤ} (hnofs : 0 ≤ nofs)
    (n : Option DindirectNode) :
    0 < (truncateNodes3 s nofs ofs n).1 ∧
      (truncateNodes3 s nofs ofs n).2.1 = n.map (IndexNode.cut ofs) ∧
      ∃ m, Frees m s (truncateNodes3 s nofs ofs n).2.2 ∧
        dindirectContent n = m + dindirectContent (cutNode ofs n) := by
  cases n with
  | none =>
      refine ⟨by show (0 : ℤ) < nidsPerBlock + 1; omega, rfl, 0, Frees.refl s, ?_⟩
      unfold cutNode
      split_ifs <;> rfl
  | some n =>
      have hR : Ledger fun (m : Content) (x x' : ℤ × Counters) =>
          x.1 ≤ x'.1 ∧ Frees m x.2 x'.2 :=
        ⟨fun x => ⟨le_refl _, Frees.refl x.2⟩,
          fun h h' => ⟨h.1.trans h'.1, h.2.add h'.2⟩⟩
      obtain ⟨hchild, m, ⟨hle, hm⟩, htotal⟩ := foldl_emptied (f := indirectContent) (c := n.child)
        hR rfl freeIndirect_spec (show ofs + (nidsPerBlock - ofs) ≤ nidsPerBlock by omega)
        (nofs + ofs * (nidsPerBlock + 1) + 1, s)
      have hcontent : dindirectContent (some n) = m + dindirectContent (some (n.cut ofs)) := by
        rw [dindirectContent_some, dindirectContent_some, htotal, add_assoc, IndexNode.cut]
      have hpos : 0 < nofs + ofs * (nidsPerBlock + 1) + 1 := by positivity
      have hchild' : ((slotsFrom ofs).foldl freeIndirect
          (n.child, nofs + ofs * (nidsPerBlock + 1) + 1, s)).1 = (n.cut ofs).child := hchild
      unfold truncateNodes3
      dsimp only
      rw [hchild']
      by_cases hzero : ofs = 0
      · rw [if_pos hzero, cutNode, if_pos hzero]
        refine ⟨?_, rfl, m + (0, {n.nid}), hm.add (truncateNode_frees _ n.nid), ?_⟩
        · exact lt_of_lt_of_le hpos (hle.trans (by exact le_add_of_nonneg_right one_pos.le))
        · subst hzero
          rw [hcontent, dindirectContent_some (n.cut 0), indirectContent, total_cut_zero, zero_add]
          exact (add_zero _).symm
      · rw [if_neg hzero, cutNode, if_neg hzero]
        exact ⟨lt_of_lt_of_le hpos hle, rfl, m, hm, hcontent⟩

end Hoit.Truncate
