import HoitF2fs.Node.NodePath
import HoitF2fs.Nvm.Dio
import Mathlib.Data.Set.Card

/-!
# The owners of the blocks

The address slots of all files, and what has to go with them: the valid bits of the blocks, the nodes
that the slots lie in, and the block counts.

* `Slot`, `Blocks` — a block of a file, and the files.
* `truncateSlot`, `reserveSlot`, `moveSlot` — the three things that are done to a slot.
* `Wf` — **every valid block has one owner**, every address lies in a node that is there, and the
  counts are those of the addresses and nodes.

Each of the operations keeps `Wf`.  Moving an address from one slot to another does not touch the
valid bits, so it is one step: between clearing the one slot and setting the other the block has no
owner.
-/

namespace Hoit.BlockExchange

open NodePath

/-- A block of a file. -/
structure Slot where
  ino : ℕ
  index : ℕ
deriving DecidableEq

/-- What does not change while blocks are moved, and what is not decided here: which calls fail. -/
structure FsEnv (V : Type) where
  lay : ℕ → AddrLayout
  /-- `ckpt_valid_map`. -/
  ckptValid : BitVec 32 → Bool
  /-- `test_opt(sbi, LFS)`. -/
  lfs : Bool
  /-- A page of zeroes. -/
  zeroPage : V
  /-- The `n`-th call that can fail does.  The number is how many nodes it allocates before that. -/
  fault : ℕ → Option ℕ
  /-- The node of a block cannot be read when what was taken out is put back. -/
  lostNode : Slot → Bool

/-- The files of a file system, without their inline data. -/
structure Blocks (V : Type) where
  addr : Slot → BitVec 32
  /-- The nodes that have an id in their parent, by inode and number. -/
  nodes : Finset (ℕ × ℕ)
  /-- `cur_valid_map`, for blocks with data. -/
  validMap : BitVec 32 → Bool
  /-- `i_blocks`, in blocks, without the inode's own. -/
  iBlocks : ℕ → ℤ
  totalValidBlockCount : ℤ
  content : BitVec 32 → V
  /-- The dirty pages. -/
  pages : Slot → Option V
  iSize : ℕ → ℕ
  /-- How many calls that can fail there have been. -/
  calls : ℕ

variable {V : Type}

namespace Blocks

def hasNode (st : Blocks V) (ino n : ℕ) : Bool := decide ((ino, n) ∈ st.nodes)

/-- `f2fs_update_data_blkaddr`. -/
def setAddr (st : Blocks V) (x : Slot) (a : BitVec 32) : Blocks V :=
  { st with addr := Function.update st.addr x a }

/-- `f2fs_invalidate_blocks`. -/
def invalidateBlocks (st : Blocks V) (a : BitVec 32) : Blocks V :=
  if a = newAddr then st else { st with validMap := Function.update st.validMap a false }

/-- `f2fs_i_blocks_write`. -/
def iBlocksWrite (st : Blocks V) (ino : ℕ) (d : ℤ) : Blocks V :=
  { st with iBlocks := Function.update st.iBlocks ino (st.iBlocks ino + d) }

/-- `inc_valid_block_count` and `dec_valid_block_count`. -/
def addValidBlockCount (st : Blocks V) (ino : ℕ) (d : ℤ) : Blocks V :=
  { st.iBlocksWrite ino d with totalValidBlockCount := st.totalValidBlockCount + d }

/-- `f2fs_truncate_data_blocks_range` with a count of 1. -/
def truncateSlot (st : Blocks V) (x : Slot) : Blocks V :=
  if st.addr x = nullAddr then st
  else ((st.setAddr x nullAddr).invalidateBlocks (st.addr x)).addValidBlockCount x.ino (-1)

/-- `f2fs_reserve_new_block`, when it does not fail. -/
def reserveSlot (st : Blocks V) (x : Slot) : Blocks V :=
  (st.addValidBlockCount x.ino 1).setAddr x newAddr

/-- The address of `x` goes to `y`. -/
def moveSlot (st : Blocks V) (x y : Slot) : Blocks V :=
  (((st.setAddr x nullAddr).iBlocksWrite x.ino (-1)).iBlocksWrite y.ino 1).setAddr y (st.addr x)

/-- A node gets an id in its parent, if it has none. -/
def newNode (st : Blocks V) (ino n : ℕ) : Blocks V :=
  if (ino, n) ∈ st.nodes then st
  else { st with nodes := insert (ino, n) st.nodes }.addValidBlockCount ino 1

/-- The first `k` nodes of a path, the inode apart. -/
def newNodes (st : Blocks V) (ino : ℕ) (p : Path) (k : ℕ) : Blocks V :=
  (List.range' 1 k).foldl (fun st i => st.newNode ino (p.noffset.getD i 0)) st

/-- All nodes on the way to a block are there. -/
def Reached (st : Blocks V) (E : FsEnv V) (x : Slot) : Prop :=
  ∃ p, getNodePath (E.lay x.ino) x.index = some p ∧
    lookupHole false (st.hasNode x.ino) p x.index = none

/-- The blocks and nodes of the inodes with `P`. -/
noncomputable def blockCount (st : Blocks V) (P : ℕ → Prop) [DecidablePred P] : ℤ :=
  {x : Slot | P x.ino ∧ st.addr x ≠ nullAddr}.ncard + (st.nodes.filter fun n => P n.1).card

end Blocks

open Blocks

/-- **Every valid block has one owner, and the counts are right.** -/
structure Wf (E : FsEnv V) (st : Blocks V) : Prop where
  finite : {x | st.addr x ≠ nullAddr}.Finite
  owner : ∀ x y, IsValidBlkaddr (st.addr x) → st.addr x = st.addr y → x = y
  valid : ∀ a, st.validMap a = true ↔ IsValidBlkaddr a ∧ ∃ x, st.addr x = a
  reached : ∀ x, st.addr x ≠ nullAddr → st.Reached E x
  iBlocks : ∀ ino, st.iBlocks ino = st.blockCount (· = ino)
  total : st.totalValidBlockCount = st.blockCount fun _ => True

/-! ## Counting -/

section Counting

variable {st st' : Blocks V} {P : ℕ → Prop} [DecidablePred P] {x : Slot} {a : BitVec 32}

omit [DecidablePred P] in
lemma mapped_finite (h : {x | st.addr x ≠ nullAddr}.Finite) :
    {x : Slot | P x.ino ∧ st.addr x ≠ nullAddr}.Finite :=
  h.subset fun _ hx => hx.2

/-- A slot that is cleared. -/
lemma blockCount_clear (hfin : {x | st.addr x ≠ nullAddr}.Finite) (hx : st.addr x ≠ nullAddr)
    (haddr : st'.addr = Function.update st.addr x nullAddr) (hnodes : st'.nodes = st.nodes) :
    st'.blockCount P = st.blockCount P - if P x.ino then 1 else 0 := by
  have hset : {y : Slot | P y.ino ∧ st'.addr y ≠ nullAddr} =
      {y : Slot | P y.ino ∧ st.addr y ≠ nullAddr} \ {x} := by
    ext y
    rw [haddr]
    by_cases hy : y = x
    · subst hy
      simp
    · simp [hy]
  rw [blockCount, blockCount, hset, hnodes]
  split_ifs with hP
  · have hcard := Set.ncard_sdiff_singleton_add_one (s := {y : Slot | P y.ino ∧ st.addr y ≠ nullAddr})
      ⟨hP, hx⟩ (mapped_finite hfin)
    omega
  · rw [Set.sdiff_singleton_eq_self fun hmem => hP hmem.1]
    omega

/-- A slot that is set. -/
lemma blockCount_set (hfin : {x | st.addr x ≠ nullAddr}.Finite) (hx : st.addr x = nullAddr)
    (ha : a ≠ nullAddr) (haddr : st'.addr = Function.update st.addr x a)
    (hnodes : st'.nodes = st.nodes) :
    st'.blockCount P = st.blockCount P + if P x.ino then 1 else 0 := by
  have hfin' : {y | st'.addr y ≠ nullAddr}.Finite := by
    refine (hfin.insert x).subset fun y hy => ?_
    rw [Set.mem_ofPred_eq, haddr] at hy
    by_cases hyx : y = x
    · exact Or.inl hyx
    · rw [Function.update_of_ne hyx] at hy
      exact Or.inr hy
  have hback : st.addr = Function.update st'.addr x nullAddr := by
    rw [haddr, Function.update_idem, ← hx, Function.update_eq_self]
  have hclear := blockCount_clear (P := P) hfin' (by rw [haddr, Function.update_self]; exact ha)
    hback hnodes.symm
  omega

/-- A node that is allocated. -/
lemma blockCount_newNode {ino n : ℕ} (hn : (ino, n) ∉ st.nodes) (haddr : st'.addr = st.addr)
    (hnodes : st'.nodes = insert (ino, n) st.nodes) :
    st'.blockCount P = st.blockCount P + if P ino then 1 else 0 := by
  rw [blockCount, blockCount, haddr, hnodes, Finset.filter_insert]
  split_ifs with hP
  · rw [Finset.card_insert_of_notMem fun hmem => hn (Finset.mem_filter.mp hmem).1]
    omega
  · omega

lemma blockCount_congr (haddr : st'.addr = st.addr) (hnodes : st'.nodes = st.nodes) :
    st'.blockCount P = st.blockCount P := by
  rw [blockCount, blockCount, haddr, hnodes]

end Counting

/-! ## What keeps the owners -/

section Owners

variable {E : FsEnv V} {st st' : Blocks V} {x y : Slot} {a : BitVec 32} {ino n : ℕ}

lemma Reached.congr (h : st.Reached E x) (hnodes : st.nodes ⊆ st'.nodes) : st'.Reached E x := by
  obtain ⟨p, hp, hlook⟩ := h
  refine ⟨p, hp, ?_⟩
  rw [lookupHole, if_neg (by simp), List.find?_eq_none] at hlook ⊢
  intro i hi
  have hi := hlook i hi
  simp only [hasNode, Bool.not_eq_true', decide_eq_false_iff_not, not_not] at hi ⊢
  exact hnodes hi

/-- What the other operations do does not matter. -/
lemma Wf.congr (h : Wf E st) (haddr : st'.addr = st.addr) (hnodes : st'.nodes = st.nodes)
    (hvalid : st'.validMap = st.validMap) (hblocks : st'.iBlocks = st.iBlocks)
    (htotal : st'.totalValidBlockCount = st.totalValidBlockCount) : Wf E st' := by
  refine ⟨haddr ▸ h.finite, haddr ▸ h.owner, fun a => ?_, fun x hx => ?_, fun ino => ?_, ?_⟩
  · rw [hvalid, haddr]
    exact h.valid a
  · rw [haddr] at hx
    exact Reached.congr (h.reached x hx) hnodes.ge
  · rw [hblocks, blockCount_congr haddr hnodes, h.iBlocks]
  · rw [htotal, blockCount_congr haddr hnodes, h.total]

lemma update_finite (h : {x | st.addr x ≠ nullAddr}.Finite) (x : Slot) (a : BitVec 32) :
    {y | Function.update st.addr x a y ≠ nullAddr}.Finite := by
  refine (h.insert x).subset fun y hy => ?_
  by_cases hyx : y = x
  · exact Or.inl hyx
  · rw [Set.mem_ofPred_eq, Function.update_of_ne hyx] at hy
    exact Or.inr hy

/-! ### A block is released -/

@[simp] lemma invalidateBlocks_addr : (st.invalidateBlocks a).addr = st.addr := by
  rw [invalidateBlocks]
  split_ifs <;> rfl

@[simp] lemma invalidateBlocks_nodes : (st.invalidateBlocks a).nodes = st.nodes := by
  rw [invalidateBlocks]
  split_ifs <;> rfl

@[simp] lemma invalidateBlocks_iBlocks : (st.invalidateBlocks a).iBlocks = st.iBlocks := by
  rw [invalidateBlocks]
  split_ifs <;> rfl

@[simp] lemma invalidateBlocks_total :
    (st.invalidateBlocks a).totalValidBlockCount = st.totalValidBlockCount := by
  rw [invalidateBlocks]
  split_ifs <;> rfl

@[simp] lemma invalidateBlocks_content : (st.invalidateBlocks a).content = st.content := by
  rw [invalidateBlocks]
  split_ifs <;> rfl

@[simp] lemma invalidateBlocks_pages : (st.invalidateBlocks a).pages = st.pages := by
  rw [invalidateBlocks]
  split_ifs <;> rfl

lemma invalidateBlocks_validMap {b : BitVec 32} : (st.invalidateBlocks a).validMap b = true ↔
    st.validMap b = true ∧ (b = a → b = newAddr) := by
  rw [invalidateBlocks]
  split_ifs with hnew
  · exact ⟨fun h => ⟨h, fun hba => hba.trans hnew⟩, fun h => h.1⟩
  · by_cases hb : b = a
    · simp [hb, hnew]
    · simp [hb]

lemma truncateSlot_addr (st : Blocks V) (x : Slot) :
    (st.truncateSlot x).addr = Function.update st.addr x nullAddr := by
  rw [Blocks.truncateSlot]
  split_ifs with hx
  · rw [← hx, Function.update_eq_self]
  · simp [addValidBlockCount, iBlocksWrite, setAddr]

@[simp] lemma truncateSlot_nodes : (st.truncateSlot x).nodes = st.nodes := by
  rw [Blocks.truncateSlot]
  split_ifs <;> simp [addValidBlockCount, iBlocksWrite, setAddr]

@[simp] lemma truncateSlot_content : (st.truncateSlot x).content = st.content := by
  rw [Blocks.truncateSlot]
  split_ifs <;> simp [addValidBlockCount, iBlocksWrite, setAddr]

@[simp] lemma truncateSlot_pages : (st.truncateSlot x).pages = st.pages := by
  rw [Blocks.truncateSlot]
  split_ifs <;> simp [addValidBlockCount, iBlocksWrite, setAddr]

/-- An address that is still there after a slot has been cleared. -/
lemma cleared_ne {f : Slot → BitVec 32} (hy : Function.update f x nullAddr y ≠ nullAddr) :
    y ≠ x ∧ Function.update f x nullAddr y = f y := by
  have hyx : y ≠ x := by
    rintro rfl
    rw [Function.update_self] at hy
    exact hy rfl
  exact ⟨hyx, Function.update_of_ne hyx _ _⟩

/-- **A block that is released has no owner any more.** -/
lemma Wf.truncateSlot (h : Wf E st) (x : Slot) : Wf E (st.truncateSlot x) := by
  by_cases hx : st.addr x = nullAddr
  · rw [Blocks.truncateSlot, if_pos hx]
    exact h
  · have haddr := truncateSlot_addr st x
    refine ⟨?_, fun y z hy hyz => ?_, fun a => ?_, fun y hy => ?_, fun ino => ?_, ?_⟩
    · rw [haddr]
      exact update_finite h.finite x nullAddr
    · rw [haddr] at hy hyz
      have hz : Function.update st.addr x nullAddr z ≠ nullAddr := hyz ▸ hy.1
      have hold := (cleared_ne hy.1).2
      rw [hold, (cleared_ne hz).2] at hyz
      rw [hold] at hy
      exact h.owner y z hy hyz
    · have hmap : (st.truncateSlot x).validMap a = true ↔
          st.validMap a = true ∧ (a = st.addr x → a = newAddr) := by
        rw [Blocks.truncateSlot, if_neg hx]
        exact invalidateBlocks_validMap
      rw [hmap, h.valid, haddr]
      constructor
      · rintro ⟨⟨hvalid, y, rfl⟩, hne⟩
        refine ⟨hvalid, y, Function.update_of_ne (fun heq => ?_) _ _⟩
        exact hvalid.2 (hne (heq ▸ rfl))
      · rintro ⟨hvalid, y, rfl⟩
        obtain ⟨hyx, hy⟩ := cleared_ne hvalid.1
        rw [hy] at hvalid ⊢
        exact ⟨⟨hvalid, y, rfl⟩, fun heq => absurd (h.owner y x hvalid heq) hyx⟩
    · rw [haddr] at hy
      have hold := (cleared_ne hy).2
      exact Reached.congr (h.reached y (hold ▸ hy)) truncateSlot_nodes.ge
    · rw [blockCount_clear h.finite hx haddr truncateSlot_nodes, ← h.iBlocks,
        Blocks.truncateSlot, if_neg hx]
      simp only [addValidBlockCount, iBlocksWrite, invalidateBlocks_iBlocks, setAddr,
        Function.update_apply, eq_comm (a := ino)]
      split_ifs with hino
      · rw [hino]
        rfl
      · exact (Int.sub_zero _).symm
    · rw [blockCount_clear h.finite hx haddr truncateSlot_nodes, ← h.total,
        Blocks.truncateSlot, if_neg hx, if_pos trivial]
      simp [addValidBlockCount, iBlocksWrite, setAddr]
      rfl

/-! ### A block is reserved -/

/-- **A slot that is reserved has no block yet.** -/
lemma Wf.reserveSlot (h : Wf E st) (hx : st.addr x = nullAddr) (hreach : st.Reached E x) :
    Wf E (st.reserveSlot x) := by
  have haddr : (st.reserveSlot x).addr = Function.update st.addr x newAddr := rfl
  have hnew : newAddr ≠ nullAddr := by decide
  have hold : ∀ {y : Slot}, IsValidBlkaddr (Function.update st.addr x newAddr y) →
      Function.update st.addr x newAddr y = st.addr y := by
    intro y hy
    refine Function.update_of_ne (fun heq => ?_) _ _
    rw [heq, Function.update_self] at hy
    exact hy.2 rfl
  refine ⟨?_, fun y z hy hyz => ?_, fun a => ?_, fun y hy => ?_, fun ino => ?_, ?_⟩
  · rw [haddr]
    exact update_finite h.finite x newAddr
  · rw [haddr] at hy hyz
    have hz : IsValidBlkaddr (Function.update st.addr x newAddr z) := hyz ▸ hy
    have hsame := hold hy
    rw [hsame, hold hz] at hyz
    rw [hsame] at hy
    exact h.owner y z hy hyz
  · show st.validMap a = true ↔ _
    rw [h.valid, haddr]
    constructor
    · rintro ⟨hvalid, y, rfl⟩
      refine ⟨hvalid, y, Function.update_of_ne (fun heq => ?_) _ _⟩
      rw [heq, hx] at hvalid
      exact hvalid.1 rfl
    · rintro ⟨hvalid, y, rfl⟩
      have hsame := hold hvalid
      rw [hsame] at hvalid ⊢
      exact ⟨hvalid, y, rfl⟩
  · by_cases hyx : y = x
    · subst hyx
      exact Reached.congr hreach (Finset.Subset.refl _)
    · rw [haddr, Function.update_of_ne hyx] at hy
      exact Reached.congr (h.reached y hy) (Finset.Subset.refl _)
  · rw [blockCount_set h.finite hx hnew haddr rfl, ← h.iBlocks]
    simp only [Blocks.reserveSlot, addValidBlockCount, iBlocksWrite, setAddr,
      Function.update_apply, eq_comm (a := ino)]
    split_ifs with hino
    · rw [hino]
    · exact (Int.add_zero _).symm
  · rw [blockCount_set h.finite hx hnew haddr rfl, ← h.total, if_pos trivial]
    rfl

/-! ### A block changes its slot -/

lemma moveSlot_addr (st : Blocks V) (x y z : Slot) : (st.moveSlot x y).addr z =
    if z = y then st.addr x else if z = x then nullAddr else st.addr z := by
  simp only [Blocks.moveSlot, setAddr, iBlocksWrite, Function.update_apply]

/-- **A block that is moved has its new slot as its owner.** -/
lemma Wf.moveSlot (h : Wf E st) (hx : IsValidBlkaddr (st.addr x)) (hy : st.addr y = nullAddr)
    (hreach : st.Reached E y) : Wf E (st.moveSlot x y) := by
  have hne : x ≠ y := by
    rintro rfl
    exact hx.1 hy
  have haddr := moveSlot_addr st x y
  -- where an address has been before
  have hback : ∀ z, IsValidBlkaddr ((st.moveSlot x y).addr z) →
      st.addr (if z = y then x else z) = (st.moveSlot x y).addr z ∧ z ≠ x := by
    intro z hz
    rw [haddr] at hz ⊢
    split_ifs at hz ⊢ with hzy hzx
    · exact ⟨rfl, hzy ▸ hne.symm⟩
    · exact absurd rfl hz.1
    · exact ⟨rfl, hzx⟩
  set mid : Blocks V := (st.setAddr x nullAddr).iBlocksWrite x.ino (-1) with hmid
  have hmidfin : {z | mid.addr z ≠ nullAddr}.Finite := update_finite h.finite x nullAddr
  have hmidy : mid.addr y = nullAddr := (Function.update_of_ne hne.symm _ _).trans hy
  have hcount : ∀ (P : ℕ → Prop) [DecidablePred P], (st.moveSlot x y).blockCount P =
      st.blockCount P - (if P x.ino then 1 else 0) + if P y.ino then 1 else 0 := by
    intro P _
    have hclear : mid.blockCount P = _ := blockCount_clear h.finite hx.1 rfl rfl
    have hset : (st.moveSlot x y).blockCount P = _ := blockCount_set hmidfin hmidy hx.1 rfl rfl
    rw [hset, hclear]
  refine ⟨?_, fun z w hz hzw => ?_, fun a => ?_, fun z hz => ?_, fun ino => ?_, ?_⟩
  · exact update_finite hmidfin y (st.addr x)
  · obtain ⟨hz', hzx⟩ := hback z hz
    obtain ⟨hw', hwx⟩ := hback w (hzw ▸ hz)
    have heq := h.owner _ _ (hz' ▸ hz) (hz'.trans (hzw.trans hw'.symm))
    split_ifs at heq with hzy hwy hwy
    · rw [hzy, hwy]
    · exact absurd heq.symm hwx
    · exact absurd heq hzx
    · exact heq
  · show st.validMap a = true ↔ _
    rw [h.valid]
    constructor
    · rintro ⟨hvalid, z, rfl⟩
      by_cases hzx : z = x
      · exact ⟨hvalid, y, by rw [haddr, if_pos rfl, hzx]⟩
      · refine ⟨hvalid, z, ?_⟩
        rw [haddr, if_neg hzx, if_neg]
        rintro rfl
        exact hvalid.1 hy
    · rintro ⟨hvalid, z, rfl⟩
      exact ⟨hvalid, _, (hback z hvalid).1⟩
  · by_cases hzy : z = y
    · subst hzy
      exact Reached.congr hreach (Finset.Subset.refl _)
    · refine Reached.congr (h.reached z ?_) (Finset.Subset.refl _)
      rw [haddr, if_neg hzy] at hz
      split_ifs at hz
      · exact absurd rfl hz
      · exact hz
  · rw [hcount, ← h.iBlocks]
    simp only [Blocks.moveSlot, iBlocksWrite, setAddr, Function.update_apply]
    split_ifs <;> grind
  · rw [hcount, ← h.total]
    simp [Blocks.moveSlot, iBlocksWrite, setAddr]

/-! ### A node is allocated -/

lemma newNode_fields (st : Blocks V) (ino n : ℕ) : (st.newNode ino n).addr = st.addr ∧
    (st.newNode ino n).content = st.content ∧ (st.newNode ino n).pages = st.pages ∧
    st.nodes ⊆ (st.newNode ino n).nodes := by
  rw [newNode]
  split_ifs
  · exact ⟨rfl, rfl, rfl, Finset.Subset.refl _⟩
  · exact ⟨rfl, rfl, rfl, Finset.subset_insert _ _⟩

lemma mem_newNode (ino n : ℕ) : (ino, n) ∈ (st.newNode ino n).nodes := by
  rw [newNode]
  split_ifs with h
  · exact h
  · exact Finset.mem_insert_self _ _

lemma Wf.newNode (h : Wf E st) (ino n : ℕ) : Wf E (st.newNode ino n) := by
  by_cases hn : (ino, n) ∈ st.nodes
  · rw [Blocks.newNode, if_pos hn]
    exact h
  · have haddr := (newNode_fields st ino n).1
    have hnodes : (st.newNode ino n).nodes = insert (ino, n) st.nodes := by
      rw [Blocks.newNode, if_neg hn]
      rfl
    have hvalid : (st.newNode ino n).validMap = st.validMap := by
      rw [Blocks.newNode, if_neg hn]
      rfl
    refine ⟨haddr ▸ h.finite, haddr ▸ h.owner, fun a => ?_, fun x hx => ?_, fun j => ?_, ?_⟩
    · rw [hvalid, haddr]
      exact h.valid a
    · rw [haddr] at hx
      exact Reached.congr (h.reached x hx) (newNode_fields st ino n).2.2.2
    · rw [blockCount_newNode hn haddr hnodes, ← h.iBlocks, Blocks.newNode, if_neg hn]
      simp only [addValidBlockCount, iBlocksWrite, Function.update_apply, eq_comm (a := j)]
      split_ifs with hj
      · rw [hj]
      · exact (Int.add_zero _).symm
    · rw [blockCount_newNode hn haddr hnodes, ← h.total, if_pos trivial, Blocks.newNode, if_neg hn]
      rfl

/-- What allocating the nodes of a path leaves as it is. -/
structure SameFiles (st st' : Blocks V) : Prop where
  addr : st'.addr = st.addr
  content : st'.content = st.content
  pages : st'.pages = st.pages
  nodes : st.nodes ⊆ st'.nodes

lemma SameFiles.refl (st : Blocks V) : SameFiles st st := ⟨rfl, rfl, rfl, Finset.Subset.refl _⟩

lemma SameFiles.trans {st'' : Blocks V} (h : SameFiles st st') (h' : SameFiles st' st'') :
    SameFiles st st'' :=
  ⟨h'.addr.trans h.addr, h'.content.trans h.content, h'.pages.trans h.pages, h.nodes.trans h'.nodes⟩

lemma newNodes_spec (h : Wf E st) (p : Path) (k : ℕ) :
    Wf E (st.newNodes ino p k) ∧ SameFiles st (st.newNodes ino p k) ∧
      ∀ i, 0 < i → i ≤ k → (ino, p.noffset.getD i 0) ∈ (st.newNodes ino p k).nodes := by
  induction k with
  | zero => exact ⟨h, SameFiles.refl st, fun i hi hik => by omega⟩
  | succ k ih =>
      obtain ⟨hwf, hsame, hmem⟩ := ih
      have hstep : st.newNodes ino p (k + 1)
          = (st.newNodes ino p k).newNode ino (p.noffset.getD (1 + k) 0) := by
        rw [Blocks.newNodes, List.range'_concat, List.foldl_concat]
        simp [Blocks.newNodes]
      rw [hstep]
      obtain ⟨haddr, hcontent, hpages, hnodes⟩ :=
        newNode_fields (st.newNodes ino p k) ino (p.noffset.getD (1 + k) 0)
      refine ⟨hwf.newNode _ _, hsame.trans ⟨haddr, hcontent, hpages, hnodes⟩, fun i hi hik => ?_⟩
      rcases Nat.lt_succ_iff_lt_or_eq.mp (Nat.lt_succ_of_le hik) with hlt | rfl
      · exact hnodes (hmem i hi (by omega))
      · rw [Nat.add_comm 1 k]
        exact mem_newNode _ _

end Owners

end Hoit.BlockExchange
