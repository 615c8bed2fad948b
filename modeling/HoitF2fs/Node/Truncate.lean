import HoitF2fs.Node.NodePath
import HoitF2fs.Nvm.Dio

/-!
# Truncation

The blocks of a file from some offset on are given up, and with them the nodes that only lead to
these.  `f2fs_truncate_blocks` clears what is left of the direct node in which it starts; for the
rest, `f2fs_truncate_inode_blocks` goes through the five ids of the inode, after it has cut the
indirect node in which it starts.

**The model.**
* `FileTree` — the inode and the nodes below it, each with its id.  A slot with id 0 has no node.
* `Counters` — the two counts that go down, and, as a ghost, what was freed.
* `truncateNodes2`, `truncateNodes3` — `truncate_nodes` with a depth of 2 and of 3.
* `f2fsTruncateBlocks` — for a file without inline data.  How `truncate_partial_data_page` ends is
  part of the call.

A node whose id is not 0 can be read, so that the branches for other errors of reads are left out.
What is only read ahead is left out as well.
-/

namespace Hoit.Truncate

open NodePath

def enoent : ℤ := -2

def e2big : ℤ := -7

/-! ## The nodes of a file -/

/-- A direct node. -/
structure DirectNode where
  nid : ℕ
  addr : ℕ → BitVec 32

/-- A node with ids of nodes. -/
structure IndexNode (α : Type) where
  nid : ℕ
  child : ℕ → Option α

abbrev IndirectNode := IndexNode DirectNode

abbrev DindirectNode := IndexNode IndirectNode

/-- The inode, with two direct nodes, two indirect ones and a double indirect one. -/
structure FileTree where
  addr : ℕ → BitVec 32
  direct : ℕ → Option DirectNode
  indirect : ℕ → Option IndirectNode
  dindirect : Option DindirectNode

/-- The addresses in the dnode at the end of a path, which `f2fs_get_dnode_of_data` finds. -/
def FileTree.dnodeAddr (t : FileTree) (p : Path) : Option (ℕ → BitVec 32) :=
  let offset := fun i => p.offset.getD i 0
  match p.level with
  | 0 => some t.addr
  | 1 => (t.direct (offset 0 - nodeDir1Block)).map DirectNode.addr
  | 2 => (t.indirect (offset 0 - nodeInd1Block)).bind fun n =>
      (n.child (offset 1)).map DirectNode.addr
  | _ => t.dindirect.bind fun n => (n.child (offset 1)).bind fun m =>
      (m.child (offset 2)).map DirectNode.addr

def DirectNode.withAddr (addr : ℕ → BitVec 32) (d : DirectNode) : DirectNode :=
  { d with addr := addr }

/-- A slot of the node gets something else. -/
def IndexNode.set {α : Type} (n : IndexNode α) (i : ℕ) (c : Option α) : IndexNode α :=
  { n with child := Function.update n.child i c }

/-- The dnode at the end of a path gets other addresses. -/
def FileTree.setDnodeAddr (t : FileTree) (p : Path) (addr : ℕ → BitVec 32) : FileTree :=
  let offset := fun i => p.offset.getD i 0
  match p.level with
  | 0 => { t with addr := addr }
  | 1 =>
      let q := offset 0 - nodeDir1Block
      { t with direct :=
          Function.update t.direct q ((t.direct q).map (DirectNode.withAddr addr)) }
  | 2 =>
      let q := offset 0 - nodeInd1Block
      { t with indirect := Function.update t.indirect q ((t.indirect q).map fun n =>
          n.set (offset 1) ((n.child (offset 1)).map (DirectNode.withAddr addr))) }
  | _ =>
      { t with dindirect := t.dindirect.map fun n =>
          n.set (offset 1) ((n.child (offset 1)).map fun m =>
            m.set (offset 2) ((m.child (offset 2)).map (DirectNode.withAddr addr))) }

/-! ## The counts -/

/-- What is freed: so many data blocks, and nodes by their ids. -/
abbrev Content := ℕ × Multiset ℕ

structure Counters where
  totalValidBlockCount : BitVec 32
  totalValidNodeCount : BitVec 32
  /-- What `f2fs_invalidate_blocks` was called for. -/
  freed : Content

def decValidBlockCount (s : Counters) (count : ℕ) : Counters :=
  { s with totalValidBlockCount := s.totalValidBlockCount - BitVec.ofNat 32 count }

def decValidNodeCount (s : Counters) : Counters :=
  { s with
    totalValidNodeCount := s.totalValidNodeCount - 1
    totalValidBlockCount := s.totalValidBlockCount - 1 }

/-- `truncate_node`. -/
def truncateNode (s : Counters) (nid : ℕ) : Counters :=
  decValidNodeCount { s with freed := s.freed + (0, {nid}) }

/-- The loop body of `f2fs_truncate_data_blocks_range`, with `nr_free`. -/
def clearAddr (x : (ℕ → BitVec 32) × ℕ × Counters) (i : ℕ) : (ℕ → BitVec 32) × ℕ × Counters :=
  if x.1 i = nullAddr then x
  else (Function.update x.1 i nullAddr, x.2.1 + 1,
    { x.2.2 with freed := x.2.2.freed + (1, 0) })

/-- `f2fs_truncate_data_blocks_range`. -/
def f2fsTruncateDataBlocksRange (addr : ℕ → BitVec 32) (ofs count : ℕ) (s : Counters) :
    (ℕ → BitVec 32) × Counters :=
  let x := (List.range' ofs count).foldl clearAddr (addr, 0, s)
  (x.1, if x.2.1 = 0 then x.2.2 else decValidBlockCount x.2.2 x.2.1)

/-! ## Whole nodes -/

def truncateDnode (s : Counters) : Option DirectNode → ℤ × Counters
  | none => (1, s)
  | some d =>
      (1, truncateNode (f2fsTruncateDataBlocksRange d.addr 0 addrsPerBlock s).2 d.nid)

/-- The loop body of `truncate_nodes` at depth 2, and of `truncate_partial_nodes`. -/
def freeDirect (x : (ℕ → Option DirectNode) × Counters) (i : ℕ) :
    (ℕ → Option DirectNode) × Counters :=
  match x.1 i with
  | none => x
  | some d => (Function.update x.1 i none, (truncateDnode x.2 (some d)).2)

/-- The slots that the loops over the ids of a node go through. -/
def slotsFrom (ofs : ℕ) : List ℕ := List.range' ofs (nidsPerBlock - ofs)

/-- `truncate_nodes` with a depth of 2: what it returns, and the node. -/
def truncateNodes2 (s : Counters) (ofs : ℕ) : Option IndirectNode →
    ℤ × Option IndirectNode × Counters
  | none => (nidsPerBlock + 1, none, s)
  | some n =>
      let x := (slotsFrom ofs).foldl freeDirect (n.child, s)
      let freed : ℤ := (slotsFrom ofs).length
      let n' := { n with child := x.1 }
      if ofs = 0 then (freed + 1, some n', truncateNode x.2 n.nid) else (freed, some n', x.2)

/-- The loop body of `truncate_nodes` at depth 3, with `child_nofs`. -/
def freeIndirect (x : (ℕ → Option IndirectNode) × ℤ × Counters) (i : ℕ) :
    (ℕ → Option IndirectNode) × ℤ × Counters :=
  match x.1 i with
  | none => (x.1, x.2.1 + (nidsPerBlock + 1), x.2.2)
  | some m =>
      let y := truncateNodes2 x.2.2 0 (some m)
      if y.1 = nidsPerBlock + 1 then (Function.update x.1 i none, x.2.1 + y.1, y.2.2)
      else (Function.update x.1 i y.2.1, x.2.1, y.2.2)

/-- `truncate_nodes` with a depth of 3. -/
def truncateNodes3 (s : Counters) (nofs : ℤ) (ofs : ℕ) : Option DindirectNode →
    ℤ × Option DindirectNode × Counters
  | none => (nidsPerBlock + 1, none, s)
  | some n =>
      let childNofs := nofs + ofs * (nidsPerBlock + 1) + 1
      let x := (slotsFrom ofs).foldl freeIndirect (n.child, childNofs, s)
      let n' := { n with child := x.1 }
      if ofs = 0 then (x.2.1 + 1, some n', truncateNode x.2.2 n.nid)
      else (x.2.1, some n', x.2.2)

/-! ## From the inode -/

/-- The tree and the counts, and the slots where `f2fs_truncate_inode_blocks` is: `offset[0]` in the
inode, and `offset[1]` below it. -/
structure Cursor where
  tree : FileTree
  cnt : Counters
  offset0 : ℕ
  offset1 : ℕ

/-- The loop of `truncate_partial_nodes` over the node of the path, which is cut at `ofs`. -/
def cutIndirect (s : Counters) (ofs : ℕ) (n : IndirectNode) : IndirectNode × Counters :=
  let x := (slotsFrom ofs).foldl freeDirect (n.child, s)
  ({ n with child := x.1 }, if ofs = 0 then truncateNode x.2 n.nid else x.2)

/-- `truncate_partial_nodes`, with `offset[2]`.  It returns 0, 1 or `-ENOENT`, and its caller goes
on with each of them. -/
def truncatePartialNodes (c : Cursor) (offset2 : ℕ) : (depth : ℕ) → Cursor
  | 2 =>
      let q := c.offset0 - nodeInd1Block
      match c.tree.indirect q with
      | none => c
      | some n =>
          let x := cutIndirect c.cnt c.offset1 n
          { tree := { c.tree with indirect := Function.update c.tree.indirect q (some x.1) }
            cnt := x.2
            offset0 := c.offset0 + 1
            offset1 := 0 }
  | _ =>
      match c.tree.dindirect with
      | none => c
      | some n =>
          match n.child c.offset1 with
          | none => c
          | some m =>
              let x := cutIndirect c.cnt offset2 m
              { c with
                tree := { c.tree with dindirect := some (n.set c.offset1 (some x.1)) }
                cnt := x.2
                offset1 := c.offset1 + 1 }

/-- The body of the loop of `f2fs_truncate_inode_blocks`, up to the check of `err`. -/
def truncateSlot (c : Cursor) (nofs : ℤ) : ℤ × Cursor :=
  if c.offset0 = nodeDir1Block ∨ c.offset0 = nodeDir2Block then
    let q := c.offset0 - nodeDir1Block
    let x := truncateDnode c.cnt (c.tree.direct q)
    let d := if c.offset1 = 0 then none else c.tree.direct q
    (x.1, { c with
      tree := { c.tree with direct := Function.update c.tree.direct q d }
      cnt := x.2 })
  else if c.offset0 = nodeInd1Block ∨ c.offset0 = nodeInd2Block then
    let q := c.offset0 - nodeInd1Block
    let x := truncateNodes2 c.cnt c.offset1 (c.tree.indirect q)
    let n := if c.offset1 = 0 then none else x.2.1
    (x.1, { c with
      tree := { c.tree with indirect := Function.update c.tree.indirect q n }
      cnt := x.2.2 })
  else
    let x := truncateNodes3 c.cnt nofs c.offset1 c.tree.dindirect
    (x.1, { c with
      tree := { c.tree with dindirect := if c.offset1 = 0 then none else x.2.1 }
      cnt := x.2.2 })

/-- The loop, which ends after `NODE_DIND_BLOCK`. -/
def truncateSlots : (rounds : ℕ) → Cursor → (nofs err : ℤ) → ℤ × Cursor
  | 0, c, _, err => (err, c)
  | rounds + 1, c, nofs, _ =>
      let x := truncateSlot c nofs
      if x.1 < 0 ∧ x.1 ≠ enoent then x
      else
        truncateSlots rounds { x.2 with offset0 := x.2.offset0 + 1, offset1 := 0 } (nofs + x.1) x.1

variable (lay : AddrLayout)

/-- `nofs` before the loop. -/
def firstNofs (p : Path) : ℤ :=
  match p.level with
  | 0 | 1 => p.noffset.getD 1 0
  | 2 =>
      if p.offset.getD 1 0 = 0 then p.noffset.getD 1 0
      else p.noffset.getD 1 0 + (1 + nidsPerBlock)
  | _ => 5 + 2 * nidsPerBlock

/-- `f2fs_truncate_inode_blocks`. -/
def f2fsTruncateInodeBlocks (t : FileTree) (s : Counters) (blk : ℕ) :
    ℤ × FileTree × Counters :=
  match getNodePath lay blk with
  | none => (e2big, t, s)
  | some p =>
      let offset := fun i => p.offset.getD i 0
      let c : Cursor := ⟨t, s, offset 0, offset 1⟩
      let c₁ := if 2 ≤ p.level ∧ offset (p.level - 1) ≠ 0 then
        truncatePartialNodes c (offset 2) p.level else c
      let x := truncateSlots (nodeDindBlock + 1 - c₁.offset0) c₁ (firstNofs p) 0
      (if 0 < x.1 then 0 else x.1, x.2.tree, x.2.cnt)

/-- `F2FS_BLK_ALIGN`, in 64 bits. -/
def f2fsBlkAlign (x : ℕ) : ℕ := ((x + 4095) % 2 ^ 64) / 4096

/-- `max_file_blocks`. -/
def maxFileBlocks : ℕ :=
  addrsPerBlock * 2 + addrsPerBlock * nidsPerBlock * 2 + addrsPerBlock * nidsPerBlock * nidsPerBlock

/-- `f2fs_truncate_blocks`, where `truncate_partial_data_page` returns `pageErr`. -/
def f2fsTruncateBlocks (t : FileTree) (s : Counters) (start : ℕ) (pageErr : ℤ) :
    ℤ × FileTree × Counters :=
  let freeFrom := f2fsBlkAlign start
  let x :=
    if maxFileBlocks ≤ freeFrom then (0, t, s)
    else
      match getNodePath lay freeFrom with
      | none => (e2big, t, s)
      | some p =>
          match t.dnodeAddr p with
          | none => f2fsTruncateInodeBlocks lay t s freeFrom
          | some addr =>
              let count := addrsPerPage lay p.level - p.ofsInNode
              if p.ofsInNode ≠ 0 ∨ p.level = 0 then
                let y := f2fsTruncateDataBlocksRange addr p.ofsInNode count s
                f2fsTruncateInodeBlocks lay (t.setDnodeAddr p y.1) y.2 (freeFrom + count)
              else f2fsTruncateInodeBlocks lay t s freeFrom
  if x.1 = 0 then (pageErr, x.2) else x

end Hoit.Truncate
