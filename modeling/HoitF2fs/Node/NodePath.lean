import HoitF2fs.Lib.Word32

/-!
# Where a block of a file lies in its node tree

An inode holds the addresses of the first blocks of its file, and the ids of two direct nodes, two
indirect nodes and one double indirect node.  The nodes of a file are numbered through, and three
functions and a predicate know this numbering, each in its own arithmetic.

* `getNodePath` — from a block to the slots (`offset`) and the node numbers (`noffset`) on the way
  to its address.
* `isDnode` — whether a number is that of a node with addresses.
* `startBidxOfNode` — from the number of such a node to the first block below it.
* `f2fsGetNextPageOffset` — where to go on when a node on the way is missing.

The last two compute in `unsigned int`, with the operations of `HoitF2fs.Lib.Word32`, so that **the
absence of overflow is something to prove**.

`getNodePath_cases` describes every path by the level, and by the distance from the first block of
that level.  What the four functions have to do with each other follows from it by arithmetic.
-/

namespace Hoit.NodePath

open Word32

/-! ## The constants of the on-disk format -/

def defAddrsPerInode : ℕ := 923

/-- `ADDRS_PER_BLOCK`. -/
def addrsPerBlock : ℕ := 1018

/-- `NIDS_PER_BLOCK`. -/
def nidsPerBlock : ℕ := 1018

def nodeDir1Block : ℕ := defAddrsPerInode + 1
def nodeDir2Block : ℕ := defAddrsPerInode + 2
def nodeInd1Block : ℕ := defAddrsPerInode + 3
def nodeInd2Block : ℕ := defAddrsPerInode + 4
def nodeDindBlock : ℕ := defAddrsPerInode + 5

/-- `XATTR_NODE_OFFSET`. -/
def xattrNodeOffset : ℕ := 2 ^ 29 - 1

/-- How many of its address slots an inode gives to extra attributes and to inline xattrs. -/
structure AddrLayout where
  extraIsize : ℕ
  inlineXattrSize : ℕ
  fits : extraIsize + inlineXattrSize ≤ 923

/-- `ADDRS_PER_INODE`. -/
def AddrLayout.addrsPerInode (lay : AddrLayout) : ℕ :=
  defAddrsPerInode - lay.extraIsize - lay.inlineXattrSize

/-! ## The four functions -/

/-- The elements of the arrays `offset` and `noffset` that `get_node_path` sets, up to `level`. -/
structure Path where
  level : ℕ
  offset : List ℕ
  noffset : List ℕ
deriving DecidableEq

/-- `noffset[level]`. -/
def Path.nodeOfs (p : Path) : ℕ := p.noffset.getD p.level 0

/-- `offset[level]`. -/
def Path.ofsInNode (p : Path) : ℕ := p.offset.getD p.level 0

variable (lay : AddrLayout)

/-- `get_node_path`; `none` is `-E2BIG`. -/
def getNodePath (block : ℕ) : Option Path :=
  let directIndex := lay.addrsPerInode
  let directBlks := addrsPerBlock
  let dptrsPerBlk := nidsPerBlock
  let indirectBlks := addrsPerBlock * nidsPerBlock
  let dindirectBlks := indirectBlks * nidsPerBlock
  if block < directIndex then some ⟨0, [block], [0]⟩
  else
    let block := block - directIndex
    if block < directBlks then some ⟨1, [nodeDir1Block, block], [0, 1]⟩
    else
      let block := block - directBlks
      if block < directBlks then some ⟨1, [nodeDir2Block, block], [0, 2]⟩
      else
        let block := block - directBlks
        if block < indirectBlks then
          some ⟨2, [nodeInd1Block, block / directBlks, block % directBlks],
            [0, 3, 4 + block / directBlks]⟩
        else
          let block := block - indirectBlks
          if block < indirectBlks then
            some ⟨2, [nodeInd2Block, block / directBlks, block % directBlks],
              [0, 4 + dptrsPerBlk, 5 + dptrsPerBlk + block / directBlks]⟩
          else
            let block := block - indirectBlks
            if block < dindirectBlks then
              some ⟨3, [nodeDindBlock, block / indirectBlks, block / directBlks % dptrsPerBlk,
                  block % directBlks],
                [0, 5 + dptrsPerBlk * 2,
                  6 + dptrsPerBlk * 2 + block / indirectBlks * (dptrsPerBlk + 1),
                  7 + dptrsPerBlk * 2 + block / indirectBlks * (dptrsPerBlk + 1)
                    + block / directBlks % dptrsPerBlk]⟩
            else none

/-- `IS_DNODE`, on the number of the node. -/
def isDnode (ofs : ℕ) : Bool :=
  if ofs = xattrNodeOffset then true
  else if ofs = 3 ∨ ofs = 4 + nidsPerBlock ∨ ofs = 5 + 2 * nidsPerBlock then false
  else if 6 + 2 * nidsPerBlock ≤ ofs then
    (ofs - (6 + 2 * nidsPerBlock)) % (nidsPerBlock + 1) != 0
  else true

/-- The variable `bidx` of `f2fs_start_bidx_of_node`, for a node other than the inode. -/
def bidxOfNode (nodeOfs : ℕ) : ℕ :=
  let indirectBlks := 2 * nidsPerBlock + 4
  if nodeOfs ≤ 2 then sub32 nodeOfs 1
  else if nodeOfs ≤ indirectBlks then
    let dec := sub32 nodeOfs 4 / (nidsPerBlock + 1)
    sub32 (sub32 nodeOfs 2) dec
  else
    let dec := sub32 (sub32 nodeOfs indirectBlks) 3 / (nidsPerBlock + 1)
    sub32 (sub32 nodeOfs 5) dec

/-- `f2fs_start_bidx_of_node`. -/
def startBidxOfNode (nodeOfs : ℕ) : ℕ :=
  if nodeOfs = 0 then 0
  else (mul32 (bidxOfNode nodeOfs) addrsPerBlock + lay.addrsPerInode) % 2 ^ 32

/-- `skipped_unit` after `k` rounds of its loop. -/
def skippedUnit : ℕ → ℕ
  | 0 => addrsPerBlock
  | k + 1 => mul32 (skippedUnit k) nidsPerBlock

/-- The variable `base`: the first block of a level. -/
def baseOfLevel : ℕ → ℕ
  | 1 => lay.addrsPerInode
  | 2 => 2 * addrsPerBlock + lay.addrsPerInode
  | 3 => 2 * (addrsPerBlock * nidsPerBlock) + 2 * addrsPerBlock + lay.addrsPerInode
  -- `f2fs_bug_on`; `get_node_path` gives no other level
  | _ => 0

/-- `f2fs_get_next_page_offset`. -/
def f2fsGetNextPageOffset (curLevel maxLevel pgofs : ℕ) : ℕ :=
  if maxLevel = 0 then pgofs + 1
  else
    let base := baseOfLevel lay maxLevel
    let skippedUnit := skippedUnit (maxLevel - curLevel)
    ((pgofs - base) / skippedUnit + 1) * skippedUnit + base

/-- `ADDRS_PER_PAGE`, for the dnode at the end of a path of this level. -/
def addrsPerPage (level : ℕ) : ℕ :=
  if level = 0 then lay.addrsPerInode else addrsPerBlock

/-! ## Lookups that fail -/

/-- Where `f2fs_get_dnode_of_data` fails with `-ENOENT` (`dn->cur_level`): at the first node of the
path that its parent has no id for, or at the inode, when the file has inline data. -/
def lookupHole (hasInlineData : Bool) (present : ℕ → Bool) (p : Path) (index : ℕ) : Option ℕ :=
  if hasInlineData = true ∧ index ≠ 0 then some 0
  else (List.range' 1 p.level).find? fun i => !present (p.noffset.getD i 0)

/-- Block `j` lies below node `n`. -/
def Below (n j : ℕ) : Prop :=
  ∃ p, getNodePath lay j = some p ∧ n ∈ p.noffset

/-! ## What a path looks like -/

variable {lay} {b j n i : ℕ} {p : Path}

lemma addrsPerInode_le : lay.addrsPerInode ≤ 923 :=
  (Nat.sub_le _ _).trans (Nat.sub_le _ _)

/-- **The paths, by their level.**  Below the inode, the digits of the path are the place of its
first node among the nodes of its kind, and the slots of the nodes. -/
inductive PathOf (d : ℕ) : ℕ → Path → Prop where
  | inode (b : ℕ) (h : b < d) : PathOf d b ⟨0, [b], [0]⟩
  | direct (q r : ℕ) (hq : q < 2) (hr : r < 1018) :
      PathOf d (d + 1018 * q + r) ⟨1, [924 + q, r], [0, 1 + q]⟩
  | indirect (q k r : ℕ) (hq : q < 2) (hk : k < 1018) (hr : r < 1018) :
      PathOf d (d + 2036 + 1018 * (1018 * q + k) + r)
        ⟨2, [926 + q, k, r], [0, 3 + 1019 * q, 4 + 1019 * q + k]⟩
  | dindirect (a k r : ℕ) (ha : a < 1018) (hk : k < 1018) (hr : r < 1018) :
      PathOf d (d + 2074684 + 1018 * (1018 * a + k) + r)
        ⟨3, [928, a, k, r], [0, 2041, 2042 + 1019 * a, 2043 + 1019 * a + k]⟩

lemma addrsPerBlock_eq : addrsPerBlock = 1018 := rfl

lemma nidsPerBlock_eq : nidsPerBlock = 1018 := rfl

lemma indirectBlks_eq : addrsPerBlock * nidsPerBlock = 1036324 := rfl

lemma dindirectBlks_eq : addrsPerBlock * nidsPerBlock * nidsPerBlock = 1054977832 := rfl

lemma digit_div {k r : ℕ} (hr : r < 1018) : (1018 * k + r) / addrsPerBlock = k := by
  rw [addrsPerBlock_eq]
  omega

lemma digit_mod {k r : ℕ} (hr : r < 1018) : (1018 * k + r) % addrsPerBlock = r := by
  rw [addrsPerBlock_eq]
  omega

lemma PathOf.getNodePath (h : PathOf lay.addrsPerInode b p) : getNodePath lay b = some p := by
  have hA := addrsPerBlock_eq
  have hI := indirectBlks_eq
  unfold NodePath.getNodePath
  simp only []
  generalize lay.addrsPerInode = d at h ⊢
  cases h with
  | inode b h => rw [if_pos h]
  | direct q r hq hr =>
      rw [if_neg (by omega)]
      interval_cases q
      · rw [if_pos (by omega), show d + 1018 * 0 + r - d = r by omega]
        rfl
      · rw [if_neg (by omega), if_pos (by omega),
          show d + 1018 * 1 + r - d - addrsPerBlock = r by omega]
        rfl
  | indirect q k r hq hk hr =>
      rw [if_neg (by omega), if_neg (by omega), if_neg (by omega)]
      interval_cases q
      · rw [if_pos (by omega), show d + 2036 + 1018 * (1018 * 0 + k) + r - d - addrsPerBlock
          - addrsPerBlock = 1018 * k + r by omega, digit_div hr, digit_mod hr]
        simp [nodeInd1Block, defAddrsPerInode]
      · rw [if_neg (by omega), if_pos (by omega), show d + 2036 + 1018 * (1018 * 1 + k) + r - d
          - addrsPerBlock - addrsPerBlock - addrsPerBlock * nidsPerBlock = 1018 * k + r by omega,
          digit_div hr, digit_mod hr]
        simp [nodeInd2Block, defAddrsPerInode, nidsPerBlock]
  | dindirect a k r ha hk hr =>
      have hD := dindirectBlks_eq
      have hda : (1018 * (1018 * a + k) + r) / (addrsPerBlock * nidsPerBlock) = a := by
        rw [indirectBlks_eq]
        omega
      have hdk : (1018 * a + k) % nidsPerBlock = k := by
        rw [nidsPerBlock_eq]
        omega
      rw [if_neg (by omega), if_neg (by omega), if_neg (by omega), if_neg (by omega),
        if_neg (by omega), show d + 2074684 + 1018 * (1018 * a + k) + r - d - addrsPerBlock
          - addrsPerBlock - addrsPerBlock * nidsPerBlock - addrsPerBlock * nidsPerBlock
          = 1018 * (1018 * a + k) + r by omega,
        if_pos (by omega), hda, digit_div hr, hdk, digit_mod hr]
      simp [nodeDindBlock, defAddrsPerInode, nidsPerBlock]
      omega

/-- Every block below the last one has its path. -/
lemma exists_pathOf {d : ℕ} (h : b < d + 1057052516) : ∃ p, PathOf d b p := by
  rcases Nat.lt_or_ge b d with h0 | h0
  · exact ⟨_, .inode b h0⟩
  obtain ⟨x, rfl⟩ := Nat.exists_eq_add_of_le h0
  obtain ⟨y, r, hr, rfl⟩ : ∃ y r, r < 1018 ∧ x = 1018 * y + r :=
    ⟨x / 1018, x % 1018, by omega, by omega⟩
  rcases Nat.lt_or_ge y 2 with h1 | h1
  · have hpath := PathOf.direct (d := d) y r h1 hr
    rw [Nat.add_assoc] at hpath
    exact ⟨_, hpath⟩
  obtain ⟨z, rfl⟩ := Nat.exists_eq_add_of_le h1
  rcases Nat.lt_or_ge z 2036 with h2 | h2
  · obtain ⟨q, k, hk, rfl⟩ : ∃ q k, k < 1018 ∧ z = 1018 * q + k :=
      ⟨z / 1018, z % 1018, by omega, by omega⟩
    have hpath := PathOf.indirect (d := d) q k r (by omega) hk hr
    exact ⟨_, (show d + 2036 + 1018 * (1018 * q + k) + r = d + (1018 * (2 + (1018 * q + k)) + r)
      by omega) ▸ hpath⟩
  · obtain ⟨w, rfl⟩ := Nat.exists_eq_add_of_le h2
    obtain ⟨a, k, hk, rfl⟩ : ∃ a k, k < 1018 ∧ w = 1018 * a + k :=
      ⟨w / 1018, w % 1018, by omega, by omega⟩
    have hpath := PathOf.dindirect (d := d) a k r (by omega) hk hr
    exact ⟨_, (show d + 2074684 + 1018 * (1018 * a + k) + r
      = d + (1018 * (2 + (2036 + (1018 * a + k))) + r) by omega) ▸ hpath⟩

/-- The other blocks are rejected. -/
lemma getNodePath_eq_none (h : lay.addrsPerInode + 1057052516 ≤ b) : getNodePath lay b = none := by
  have hA := addrsPerBlock_eq
  have hI := indirectBlks_eq
  have hD := dindirectBlks_eq
  unfold getNodePath
  simp only []
  rw [if_neg (by omega), if_neg (by omega), if_neg (by omega), if_neg (by omega),
    if_neg (by omega), if_neg (by omega)]

lemma getNodePath_eq_some_iff : getNodePath lay b = some p ↔ PathOf lay.addrsPerInode b p := by
  refine ⟨fun h => ?_, PathOf.getNodePath⟩
  rcases Nat.lt_or_ge b (lay.addrsPerInode + 1057052516) with hlt | hge
  · obtain ⟨p', hp'⟩ := exists_pathOf hlt
    have heq : p' = p := Option.some.inj (hp'.getNodePath.symm.trans h)
    exact heq ▸ hp'
  · rw [getNodePath_eq_none hge] at h
    exact absurd h (by simp)

/-! ## Numbers of nodes with addresses -/

lemma isDnode_eq (h : n < xattrNodeOffset) : isDnode n = true ↔
    n ≠ 3 ∧ n ≠ 1022 ∧ n ≠ 2041 ∧ (2042 ≤ n → (n - 2042) % 1019 ≠ 0) := by
  have hN := nidsPerBlock_eq
  unfold isDnode
  rw [if_neg (by omega), hN]
  split_ifs with h1 h2
  · simp only [false_iff]
    omega
  · simp only [bne_iff_ne, ne_eq]
    omega
  · simp only [true_iff]
    omega

lemma isDnode_eq_false (h : n < xattrNodeOffset)
    (hn : n = 3 ∨ n = 1022 ∨ n = 2041 ∨ 2042 ≤ n ∧ (n - 2042) % 1019 = 0) :
    isDnode n = false := by
  rw [← Bool.not_eq_true, isDnode_eq h]
  omega

/-- What `get_node_path` gives lies within 32 bits, leads through nodes without addresses, and ends
at one with addresses. -/
structure LeadsToDnode (p : Path) : Prop where
  offset_length : p.offset.length = p.level + 1
  noffset_length : p.noffset.length = p.level + 1
  offset_lt : ∀ v ∈ p.offset, v < 2 ^ 31
  noffset_lt : ∀ v ∈ p.noffset, v < 2 ^ 29 - 1
  dnode : isDnode p.nodeOfs = true
  inner : ∀ i, 0 < i → i < p.level → isDnode (p.noffset.getD i 0) = false

lemma PathOf.leadsToDnode (hd : lay.addrsPerInode ≤ 923) (h : PathOf lay.addrsPerInode b p) :
    LeadsToDnode p := by
  have hX : xattrNodeOffset = 536870911 := rfl
  generalize lay.addrsPerInode = d at hd h
  cases h with
  | inode b h =>
      refine ⟨rfl, rfl, ?_, by simp, ?_, fun i h0 h1 => absurd h1 (by simp)⟩
      · simp
        omega
      · show isDnode 0 = true
        exact (isDnode_eq (by omega)).mpr (by omega)
  | direct q r hq hr =>
      refine ⟨rfl, rfl, ?_, ?_, ?_, fun i h0 h1 => absurd h1 (by simp; omega)⟩
      · simp
        omega
      · simp
        omega
      · show isDnode (1 + q) = true
        exact (isDnode_eq (by omega)).mpr (by omega)
  | indirect q k r hq hk hr =>
      refine ⟨rfl, rfl, ?_, ?_, ?_, fun i h0 h1 => ?_⟩
      · simp
        omega
      · simp
        omega
      · show isDnode (4 + 1019 * q + k) = true
        exact (isDnode_eq (by omega)).mpr (by omega)
      · obtain rfl : i = 1 := by
          simp only at h1
          omega
        exact isDnode_eq_false (by simp; omega) (by simp; omega)
  | dindirect a k r ha hk hr =>
      refine ⟨rfl, rfl, ?_, ?_, ?_, fun i h0 h1 => ?_⟩
      · simp
        omega
      · simp
        omega
      · show isDnode (2043 + 1019 * a + k) = true
        exact (isDnode_eq (by omega)).mpr (by omega)
      · obtain rfl | rfl : i = 1 ∨ i = 2 := by
          simp only at h1
          omega
        · exact isDnode_eq_false (by simp [hX]) (by simp)
        · exact isDnode_eq_false (by simp; omega) (by simp)

/-! ## From a node back to its first block -/

/-- `f2fs_start_bidx_of_node` inverts `get_node_path`, and neither its product nor its sum
overflows. -/
structure StartsAt (lay : AddrLayout) (p : Path) (b : ℕ) : Prop where
  mul_lt : 0 < p.level → bidxOfNode p.nodeOfs * addrsPerBlock < 2 ^ 32
  add_lt : 0 < p.level → bidxOfNode p.nodeOfs * addrsPerBlock + lay.addrsPerInode < 2 ^ 32
  start : startBidxOfNode lay p.nodeOfs + p.ofsInNode = b

lemma bidxOfNode_direct {q : ℕ} (hq : q < 2) : bidxOfNode (1 + q) = q := by
  unfold bidxOfNode
  rw [if_pos (by omega), sub32_eq (Nat.add_comm 1 q) (by omega)]

lemma bidxOfNode_indirect {q k : ℕ} (hq : q < 2) (hk : k < 1018) :
    bidxOfNode (4 + 1019 * q + k) = 2 + 1018 * q + k := by
  have h4 : sub32 (4 + 1019 * q + k) 4 = 1019 * q + k := sub32_eq (by omega) (by omega)
  have h2 : sub32 (4 + 1019 * q + k) 2 = 2 + 1019 * q + k := sub32_eq (by omega) (by omega)
  have hdec : (1019 * q + k) / (1018 + 1) = q := by omega
  unfold bidxOfNode
  simp only []
  rw [nidsPerBlock_eq, if_neg (by omega), if_pos (by omega), h4, h2, hdec]
  exact sub32_eq (by omega) (by omega)

lemma bidxOfNode_dindirect {a k : ℕ} (ha : a < 1018) (hk : k < 1018) :
    bidxOfNode (2043 + 1019 * a + k) = 2038 + 1018 * a + k := by
  have h5 : sub32 (2043 + 1019 * a + k) 5 = 2038 + 1019 * a + k := sub32_eq (by omega) (by omega)
  have hI : sub32 (2043 + 1019 * a + k) (2 * 1018 + 4) = 3 + 1019 * a + k :=
    sub32_eq (by omega) (by omega)
  have h3 : sub32 (3 + 1019 * a + k) 3 = 1019 * a + k := sub32_eq (by omega) (by omega)
  have hdec : (1019 * a + k) / (1018 + 1) = a := by omega
  unfold bidxOfNode
  simp only []
  rw [nidsPerBlock_eq, if_neg (by omega), if_neg (by omega), h5, hI, h3, hdec]
  exact sub32_eq (by omega) (by omega)

/-- The way back, for a node other than the inode. -/
lemma startsAt_of_bidx {v r : ℕ} (hn : p.nodeOfs = n) (hr : p.ofsInNode = r) (hne : n ≠ 0)
    (hbidx : bidxOfNode n = v) (hb : v * 1018 + lay.addrsPerInode + r = b)
    (hlt : v * 1018 + lay.addrsPerInode < 2 ^ 32) : StartsAt lay p b := by
  have hstart : startBidxOfNode lay n = v * 1018 + lay.addrsPerInode := by
    rw [startBidxOfNode, if_neg hne, hbidx, mul32, addrsPerBlock_eq]
    omega
  have hmul : bidxOfNode p.nodeOfs * addrsPerBlock = v * 1018 := by
    rw [hn, hbidx, addrsPerBlock_eq]
  refine ⟨fun _ => ?_, fun _ => ?_, ?_⟩
  · omega
  · omega
  · rw [hn, hr, hstart, hb]

lemma PathOf.startsAt (h : PathOf lay.addrsPerInode b p) : StartsAt lay p b := by
  have hd := @addrsPerInode_le lay
  generalize hdef : lay.addrsPerInode = d at h hd
  cases h with
  | inode b h =>
      exact ⟨fun h0 => absurd h0 (by simp), fun h0 => absurd h0 (by simp),
        by simp [startBidxOfNode, Path.nodeOfs, Path.ofsInNode]⟩
  | direct q r hq hr =>
      exact startsAt_of_bidx (n := 1 + q) (r := r) rfl rfl (by omega) (bidxOfNode_direct hq)
        (by omega) (by omega)
  | indirect q k r hq hk hr =>
      exact startsAt_of_bidx (n := 4 + 1019 * q + k) (r := r) rfl rfl (by omega)
        (bidxOfNode_indirect hq hk) (by omega) (by omega)
  | dindirect a k r ha hk hr =>
      exact startsAt_of_bidx (n := 2043 + 1019 * a + k) (r := r) rfl rfl (by omega)
        (bidxOfNode_dindirect ha hk) (by omega) (by omega)

/-- No two blocks have the same slot of the same node. -/
lemma StartsAt.inj {b' : ℕ} {p' : Path} (h : StartsAt lay p b) (h' : StartsAt lay p' b')
    (hn : p.nodeOfs = p'.nodeOfs) (hs : p.ofsInNode = p'.ofsInNode) : b = b' := by
  rw [← h.start, ← h'.start, hn, hs]

/-! ## Behind a missing node -/

/-- `f2fs_get_next_page_offset`, for a node that is missing at `cur_level` on the path of `b`: the
first block after `b` that is not below the node, computed without overflow. -/
structure NextExact (lay : AddrLayout) (p : Path) (cur b : ℕ) : Prop where
  mul_lt : ∀ k < p.level - cur, skippedUnit k * nidsPerBlock < 2 ^ 32
  least : IsLeast {j | b < j ∧ ¬ Below lay (p.noffset.getD cur 0) j}
    (f2fsGetNextPageOffset lay cur p.level b)

lemma skippedUnit_zero : skippedUnit 0 = 1018 := rfl

lemma skippedUnit_one : skippedUnit 1 = 1036324 := by decide

lemma skippedUnit_two : skippedUnit 2 = 1054977832 := by decide

lemma skippedUnit_mul_lt {k : ℕ} (hk : k < 2) : skippedUnit k * nidsPerBlock < 2 ^ 32 := by
  interval_cases k <;> decide

lemma below_iff : Below lay n j ↔ ∃ p, PathOf lay.addrsPerInode j p ∧ n ∈ p.noffset := by
  simp only [Below, getNodePath_eq_some_iff]

lemma below_direct {q : ℕ} (hq : q < 2) :
    Below lay (1 + q) j ↔
      lay.addrsPerInode + 1018 * q ≤ j ∧ j < lay.addrsPerInode + 1018 * q + 1018 := by
  rw [below_iff]
  generalize lay.addrsPerInode = d
  constructor
  · rintro ⟨p, hp, hmem⟩
    cases hp <;> simp at hmem <;> omega
  · rintro ⟨hle, hlt⟩
    obtain ⟨r, rfl⟩ := Nat.exists_eq_add_of_le hle
    exact ⟨_, .direct q r hq (by omega), by simp⟩

/-- Below an indirect node of the inode. -/
lemma below_indirect {q : ℕ} (hq : q < 2) :
    Below lay (3 + 1019 * q) j ↔ lay.addrsPerInode + 2036 + 1036324 * q ≤ j
      ∧ j < lay.addrsPerInode + 2036 + 1036324 * q + 1036324 := by
  rw [below_iff]
  generalize lay.addrsPerInode = d
  constructor
  · rintro ⟨p, hp, hmem⟩
    cases hp <;> simp at hmem <;> omega
  · rintro ⟨hle, hlt⟩
    obtain ⟨x, rfl⟩ := Nat.exists_eq_add_of_le hle
    obtain ⟨k, r, hr, rfl⟩ : ∃ k r, r < 1018 ∧ x = 1018 * k + r :=
      ⟨x / 1018, x % 1018, by omega, by omega⟩
    have hpath := PathOf.indirect (d := d) q k r hq (by omega) hr
    exact ⟨_, (show d + 2036 + 1018 * (1018 * q + k) + r
      = d + 2036 + 1036324 * q + (1018 * k + r) by omega) ▸ hpath, by simp⟩

/-- Below a direct node of such a node. -/
lemma below_indirect_child {q k : ℕ} (hq : q < 2) (hk : k < 1018) :
    Below lay (4 + 1019 * q + k) j ↔
      lay.addrsPerInode + 2036 + 1018 * (1018 * q + k) ≤ j
        ∧ j < lay.addrsPerInode + 2036 + 1018 * (1018 * q + k) + 1018 := by
  rw [below_iff]
  generalize lay.addrsPerInode = d
  constructor
  · rintro ⟨p, hp, hmem⟩
    cases hp <;> simp at hmem <;> omega
  · rintro ⟨hle, hlt⟩
    obtain ⟨r, rfl⟩ := Nat.exists_eq_add_of_le hle
    exact ⟨_, .indirect q k r hq hk (by omega), by simp⟩

/-- Below the double indirect node. -/
lemma below_dindirect :
    Below lay 2041 j ↔ lay.addrsPerInode + 2074684 ≤ j
      ∧ j < lay.addrsPerInode + 2074684 + 1054977832 := by
  rw [below_iff]
  generalize lay.addrsPerInode = d
  constructor
  · rintro ⟨p, hp, hmem⟩
    cases hp <;> simp at hmem <;> omega
  · rintro ⟨hle, hlt⟩
    obtain ⟨x, rfl⟩ := Nat.exists_eq_add_of_le hle
    obtain ⟨y, r, hr, rfl⟩ : ∃ y r, r < 1018 ∧ x = 1018 * y + r :=
      ⟨x / 1018, x % 1018, by omega, by omega⟩
    obtain ⟨a, k, hk, rfl⟩ : ∃ a k, k < 1018 ∧ y = 1018 * a + k :=
      ⟨y / 1018, y % 1018, by omega, by omega⟩
    have hpath := PathOf.dindirect (d := d) a k r (by omega) hk hr
    rw [Nat.add_assoc] at hpath
    exact ⟨_, hpath, by simp⟩

/-- Below an indirect node of the double indirect node. -/
lemma below_dindirect_child {a : ℕ} (ha : a < 1018) :
    Below lay (2042 + 1019 * a) j ↔ lay.addrsPerInode + 2074684 + 1036324 * a ≤ j
      ∧ j < lay.addrsPerInode + 2074684 + 1036324 * a + 1036324 := by
  rw [below_iff]
  generalize lay.addrsPerInode = d
  constructor
  · rintro ⟨p, hp, hmem⟩
    cases hp <;> simp at hmem <;> omega
  · rintro ⟨hle, hlt⟩
    obtain ⟨x, rfl⟩ := Nat.exists_eq_add_of_le hle
    obtain ⟨k, r, hr, rfl⟩ : ∃ k r, r < 1018 ∧ x = 1018 * k + r :=
      ⟨x / 1018, x % 1018, by omega, by omega⟩
    have hpath := PathOf.dindirect (d := d) a k r ha (by omega) hr
    exact ⟨_, (show d + 2074684 + 1018 * (1018 * a + k) + r
      = d + 2074684 + 1036324 * a + (1018 * k + r) by omega) ▸ hpath, by simp⟩

/-- Below a direct node of such a node. -/
lemma below_dindirect_grandchild {a k : ℕ} (ha : a < 1018) (hk : k < 1018) :
    Below lay (2043 + 1019 * a + k) j ↔
      lay.addrsPerInode + 2074684 + 1018 * (1018 * a + k) ≤ j
        ∧ j < lay.addrsPerInode + 2074684 + 1018 * (1018 * a + k) + 1018 := by
  rw [below_iff]
  generalize lay.addrsPerInode = d
  constructor
  · rintro ⟨p, hp, hmem⟩
    cases hp <;> simp at hmem <;> omega
  · rintro ⟨hle, hlt⟩
    obtain ⟨r, rfl⟩ := Nat.exists_eq_add_of_le hle
    exact ⟨_, .dindirect a k r ha hk (by omega), by simp⟩

/-- The node that is missing has the blocks of an interval below it, and the function finds the end
of the interval. -/
lemma nextExact_of_below {first len base cur : ℕ}
    (hbelow : ∀ {j}, Below lay n j ↔ first ≤ j ∧ j < first + len)
    (hn : p.noffset.getD cur 0 = n) (hpos : 0 < cur) (hcur : cur ≤ p.level) (hlevel : p.level ≤ 3)
    (hbase : baseOfLevel lay p.level = base) (hunit : skippedUnit (p.level - cur) = len)
    (hb : first ≤ b ∧ b < first + len) (hnext : ((b - base) / len + 1) * len + base = first + len) :
    NextExact lay p cur b := by
  have heq : f2fsGetNextPageOffset lay cur p.level b = first + len := by
    rw [f2fsGetNextPageOffset, if_neg (by omega)]
    simp only [hbase, hunit, hnext]
  refine ⟨fun k hk => skippedUnit_mul_lt (by omega), ?_⟩
  rw [heq, hn]
  refine ⟨⟨hb.2, fun h => absurd (hbelow.mp h).2 (lt_irrefl _)⟩, fun j ⟨hj, hnot⟩ => ?_⟩
  by_contra hbefore
  exact hnot (hbelow.mpr ⟨hb.1.trans hj.le, not_le.mp hbefore⟩)

lemma PathOf.nextExact {cur : ℕ} (h : PathOf lay.addrsPerInode b p) (hpos : 0 < cur)
    (hcur : cur ≤ p.level) : NextExact lay p cur b := by
  generalize hd : lay.addrsPerInode = d at h
  have hbase2 : baseOfLevel lay 2 = d + 2036 := by
    simp only [baseOfLevel, addrsPerBlock_eq, hd]
    omega
  have hbase3 : baseOfLevel lay 3 = d + 2074684 := by
    simp only [baseOfLevel, addrsPerBlock_eq, nidsPerBlock_eq, hd]
    omega
  cases h with
  | inode b h => exact absurd hcur (by simp; omega)
  | direct q r hq hr =>
      obtain rfl : cur = 1 := le_antisymm hcur hpos
      exact nextExact_of_below (below_direct hq) rfl (by simp) (by simp) (by simp) hd
        skippedUnit_zero (by omega) (by omega)
  | indirect q k r hq hk hr =>
      obtain rfl | rfl : cur = 1 ∨ cur = 2 := by
        simp only at hcur
        omega
      · exact nextExact_of_below (below_indirect hq) rfl (by simp) (by simp) (by simp) hbase2
          skippedUnit_one (by omega) (by omega)
      · exact nextExact_of_below (below_indirect_child hq hk) rfl (by simp) (by simp) (by simp)
          hbase2 skippedUnit_zero (by omega) (by omega)
  | dindirect a k r ha hk hr =>
      obtain rfl | rfl | rfl : cur = 1 ∨ cur = 2 ∨ cur = 3 := by
        simp only at hcur
        omega
      · exact nextExact_of_below below_dindirect rfl (by simp) (by simp) (by simp) hbase3
          skippedUnit_two (by omega) (by omega)
      · exact nextExact_of_below (below_dindirect_child ha) rfl (by simp) (by simp) (by simp)
          hbase3 skippedUnit_one (by omega) (by omega)
      · exact nextExact_of_below (below_dindirect_grandchild ha hk) rfl (by simp) (by simp)
          (by simp) hbase3 skippedUnit_zero (by omega) (by omega)

lemma lookupHole_level {present : ℕ → Bool} {cur : ℕ}
    (h : lookupHole false present p b = some cur) : 0 < cur ∧ cur ≤ p.level := by
  rw [lookupHole, if_neg (by simp)] at h
  have hmem := List.mem_of_find?_eq_some h
  rw [List.mem_range'_1] at hmem
  omega

/-! ## The blocks of one dnode -/

/-- The block `k` places further on in the same dnode. -/
lemma PathOf.add {d k : ℕ} (h : PathOf d b p)
    (hk : p.ofsInNode + k < if p.level = 0 then d else addrsPerBlock) :
    ∃ p', PathOf d (b + k) p' ∧ p'.level = p.level ∧ p'.noffset = p.noffset ∧
      p'.ofsInNode = p.ofsInNode + k := by
  have hA := addrsPerBlock_eq
  cases h with
  | inode b h =>
      simp only [Path.ofsInNode, if_true] at hk
      exact ⟨_, .inode (b + k) hk, rfl, rfl, rfl⟩
  | direct q r hq hr =>
      rw [if_neg (by simp), hA] at hk
      rw [Nat.add_assoc]
      exact ⟨_, .direct q (r + k) hq hk, rfl, rfl, rfl⟩
  | indirect q c r hq hc hr =>
      rw [if_neg (by simp), hA] at hk
      rw [Nat.add_assoc]
      exact ⟨_, .indirect q c (r + k) hq hc hk, rfl, rfl, rfl⟩
  | dindirect a c r ha hc hr =>
      rw [if_neg (by simp), hA] at hk
      rw [Nat.add_assoc]
      exact ⟨_, .dindirect a c (r + k) ha hc hk, rfl, rfl, rfl⟩

lemma PathOf.ofs_lt {d : ℕ} (h : PathOf d b p) :
    p.ofsInNode < if p.level = 0 then d else addrsPerBlock := by
  have hA := addrsPerBlock_eq
  cases h with
  | inode b h => simpa [Path.ofsInNode] using h
  | direct q r hq hr =>
      rw [if_neg (by simp), hA]
      exact hr
  | indirect q c r hq hc hr =>
      rw [if_neg (by simp), hA]
      exact hr
  | dindirect a c r ha hc hr =>
      rw [if_neg (by simp), hA]
      exact hr

/-- The numbers of the nodes below the inode. -/
lemma PathOf.noffset_ne_zero {d i : ℕ} (h : PathOf d b p) (hpos : 0 < i) (hle : i ≤ p.level) :
    p.noffset.getD i 0 ≠ 0 := by
  cases h with
  | inode b h => exact absurd hle (by simp; omega)
  | direct q r hq hr =>
      obtain rfl : i = 1 := le_antisymm hle hpos
      simp
  | indirect q c r hq hc hr =>
      obtain rfl | rfl : i = 1 ∨ i = 2 := by
        simp only at hle
        omega
      · simp
      · simp
  | dindirect a c r ha hc hr =>
      obtain rfl | rfl | rfl : i = 1 ∨ i = 2 ∨ i = 3 := by
        simp only at hle
        omega
      · simp
      · simp
      · simp

lemma PathOf.mem_noffset {d n : ℕ} (h : PathOf d b p) (hmem : n ∈ p.noffset) (hn : n ≠ 0) :
    ∃ i, 0 < i ∧ i ≤ p.level ∧ p.noffset.getD i 0 = n := by
  cases h with
  | inode b h => exact absurd hmem (by simpa using hn)
  | direct q r hq hr =>
      obtain rfl : n = 1 + q := by simpa [hn] using hmem
      exact ⟨1, by decide, le_rfl, rfl⟩
  | indirect q c r hq hc hr =>
      obtain rfl | rfl : n = 3 + 1019 * q ∨ n = 4 + 1019 * q + c := by simpa [hn] using hmem
      · exact ⟨1, by decide, by simp, rfl⟩
      · exact ⟨2, by decide, le_rfl, rfl⟩
  | dindirect a c r ha hc hr =>
      obtain rfl | rfl | rfl : n = 2041 ∨ n = 2042 + 1019 * a ∨ n = 2043 + 1019 * a + c := by
        simpa [hn] using hmem
      · exact ⟨1, by decide, by simp, rfl⟩
      · exact ⟨2, by decide, by simp, rfl⟩
      · exact ⟨3, by decide, le_rfl, rfl⟩

/-- `max_file_blocks` fits in 32 bits. -/
lemma lt_of_path (h : getNodePath lay b = some p) : b < 2 ^ 31 := by
  have hlay := @addrsPerInode_le lay
  by_contra hge
  rw [getNodePath_eq_none (by omega)] at h
  exact absurd h (by simp)

lemma lookupHole_false {present : ℕ → Bool} {p' : Path} {b' : ℕ} (hlevel : p'.level = p.level)
    (hnoffset : p'.noffset = p.noffset) :
    lookupHole false present p' b' = lookupHole false present p b := by
  simp only [lookupHole, Bool.false_eq_true, false_and, if_false, hlevel, hnoffset]

/-! ## The numbering -/

/-- What the three functions and the predicate have to say about block `b`, whose path is `p`. -/
structure Consistent (lay : AddrLayout) (b : ℕ) (p : Path) : Prop where
  leads : LeadsToDnode p
  starts : StartsAt lay p b
  distinct : ∀ b' p', getNodePath lay b' = some p' → p'.nodeOfs = p.nodeOfs →
    p'.ofsInNode = p.ofsInNode → b' = b
  /-- The one product of two `int`s. -/
  indirect_lt : addrsPerBlock * nidsPerBlock < 2 ^ 31

/-- **Node addressing is consistent**, and a lookup that fails at a missing node is followed by the
first block that is not below this node. -/
theorem node_addressing_consistent (lay : AddrLayout) (b : ℕ) (p : Path)
    (h : getNodePath lay b = some p) :
    Consistent lay b p ∧
      ∀ present cur, lookupHole false present p b = some cur → NextExact lay p cur b := by
  have hpath := getNodePath_eq_some_iff.mp h
  have hlt : addrsPerBlock * nidsPerBlock < 2 ^ 31 := by decide
  refine ⟨⟨hpath.leadsToDnode addrsPerInode_le, hpath.startsAt, ?_, hlt⟩, ?_⟩
  · intro b' p' h' hn hs
    exact (getNodePath_eq_some_iff.mp h').startsAt.inj hpath.startsAt hn hs
  · intro present cur hole
    obtain ⟨hpos, hcur⟩ := lookupHole_level hole
    exact hpath.nextExact hpos hcur

/-- An inode without extra attributes and inline xattrs. -/
def plainLayout : AddrLayout := ⟨0, 0, by decide⟩

/-- In a file with inline data the lookup fails at the inode, and from the third level on
`skipped_unit` overflows: `f2fs_precache_extents` gets there in two strides. -/
theorem inline_data_overflows :
    ¬ ∀ (lay : AddrLayout) (b : ℕ) (p : Path) (hasInlineData : Bool) (present : ℕ → Bool)
      (cur : ℕ), getNodePath lay b = some p → lookupHole hasInlineData present p b = some cur →
        NextExact lay p cur b := by
  intro hall
  have hpath : getNodePath plainLayout 1054980791
      = some ⟨3, [928, 1016, 0, 0], [0, 2041, 1037346, 1037347]⟩ := by decide +kernel
  have hnext := hall plainLayout _ _ true (fun _ => true) 0 hpath rfl
  exact absurd (hnext.mul_lt 2 (by simp)) (by decide +kernel)

theorem node_addressing_consistent_indirect :
    ∃ p, getNodePath ⟨9, 50, by decide⟩ 5000 = some p ∧ Consistent ⟨9, 50, by decide⟩ 5000 p ∧
      ∀ present cur, lookupHole false present p 5000 = some cur →
        NextExact ⟨9, 50, by decide⟩ p cur 5000 := by
  have hpath : getNodePath ⟨9, 50, by decide⟩ 5000
      = some ⟨2, [926, 2, 64], [0, 3, 6]⟩ := by decide +kernel
  exact ⟨_, hpath, node_addressing_consistent _ 5000 _ hpath⟩

end Hoit.NodePath
