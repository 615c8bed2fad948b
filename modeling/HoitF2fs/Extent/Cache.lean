import HoitF2fs.Lib.Transition

/-!
# The extent cache

For each inode a tree of extents — runs of file offsets with consecutive block addresses — is kept in
memory, with the largest one beside it and a pointer to the node that was used last.  All nodes are
on one list, the one used longest ago first.

**The model.**
* `ExtentTree` — the nodes in the order of the tree.  A node has a number, which stands for its
  address: the pointer to a node stays good while its extent changes.
* `f2fsUpdateExtentTreeRange` — the nodes that a range meets are trimmed, split or released
  (`invalidateNodes`), and then the range is merged with a neighbour or inserted.
* `f2fsLookupExtentTree` — the largest extent, the node used last, and then the tree.
* `ExtentCache`, `extentStep` — all the trees of a file system, and the calls.

Offsets and lengths are numbers, as the end of every extent fits in 32 bits; block addresses wrap.
Whether memory was there for a new node, and whether a lock was free, is an argument.

`recorded` is what has been said last about each offset of a file.
-/

namespace Hoit.Extent

open Transition

structure ExtentInfo where
  fofs : ℕ
  len : ℕ
  blk : BitVec 32
deriving DecidableEq

/-- The first offset after an extent. -/
def ExtentInfo.stop (ei : ExtentInfo) : ℕ := ei.fofs + ei.len

def ExtentInfo.has (ei : ExtentInfo) (ofs : ℕ) : Bool := decide (ei.fofs ≤ ofs) && decide (ofs < ei.stop)

/-- The block of an offset. -/
def ExtentInfo.addr (ei : ExtentInfo) (ofs : ℕ) : BitVec 32 :=
  ei.blk + BitVec.ofNat 32 (ofs - ei.fofs)

structure ExtentNode where
  id : ℕ
  ei : ExtentInfo
deriving DecidableEq

structure ExtentTree where
  nodes : List ExtentNode
  cachedEn : Option ℕ
  largest : ExtentInfo
  nodeCnt : ℤ

/-- `F2FS_MIN_EXTENT_LEN`. -/
def minExtentLen : ℕ := 64

/-- `__is_extent_mergeable`. -/
def isExtentMergeable (back front : ExtentInfo) : Bool :=
  back.stop == front.fofs && back.blk + BitVec.ofNat 32 back.len == front.blk

/-! ## One node -/

/-- What is kept of a tree beside its nodes, and what all trees share. -/
structure Work where
  cachedEn : Option ℕ
  largest : ExtentInfo
  nodeCnt : ℤ
  totalExtNode : ℤ
  /-- `extent_list`, by inode and node. -/
  extentList : List (ℕ × ℕ)
  nextNode : ℕ

namespace Work

/-- `__try_update_largest_extent`. -/
def tryUpdateLargest (w : Work) (ei : ExtentInfo) : Work :=
  if w.largest.len < ei.len then { w with largest := ei } else w

/-- `__attach_extent_node`; the node gets the next number. -/
def attach (w : Work) (ino : ℕ) : Work :=
  { w with
    nodeCnt := w.nodeCnt + 1
    totalExtNode := w.totalExtNode + 1
    extentList := w.extentList ++ [(ino, w.nextNode)]
    nextNode := w.nextNode + 1
    cachedEn := some w.nextNode }

/-- `__release_extent_node`. -/
def release (w : Work) (ino id : ℕ) : Work :=
  { w with
    nodeCnt := w.nodeCnt - 1
    totalExtNode := w.totalExtNode - 1
    extentList := w.extentList.erase (ino, id)
    cachedEn := if w.cachedEn = some id then none else w.cachedEn }

/-- The node was used. -/
def touch (w : Work) (ino id : ℕ) : Work :=
  { w with
    extentList := w.extentList.erase (ino, id) ++ [(ino, id)]
    cachedEn := some id }

/-- `__drop_largest_extent`. -/
def dropLargest (w : Work) (fofs len : ℕ) : Work :=
  if fofs < w.largest.stop ∧ w.largest.fofs < fofs + len then
    { w with largest := { w.largest with len := 0 } }
  else w

/-- `__free_extent_tree`. -/
def freeNodes (w : Work) (ino : ℕ) (nodes : List ExtentNode) : Work :=
  nodes.foldl (fun w n => w.release ino n.id) w

end Work

/-! ## A range -/

/-- The left part of an extent that is cut at `pos`. -/
def ExtentInfo.cutLeft (ei : ExtentInfo) (pos : ℕ) : ExtentInfo := { ei with len := pos - ei.fofs }

/-- The right part of an extent that is cut at `pos`. -/
def ExtentInfo.cutRight (ei : ExtentInfo) (pos : ℕ) : ExtentInfo where
  fofs := pos
  len := ei.stop - pos
  blk := ei.blk + BitVec.ofNat 32 (pos - ei.fofs)

/-- Where the walk over the tree stands: the nodes before `en`, those from it on, whether `prev_en`
is the node before, and the length of the last extent that was met. -/
structure Walk where
  before : List ExtentNode
  rest : List ExtentNode
  prev : Bool
  deiLen : ℕ
  w : Work

/-- The loop of `f2fs_update_extent_tree_range` over the nodes that meet `pos ≤ offset < stop`.
After a right part the loop ends, as that part starts at `stop`. -/
def invalidateNodes (ino pos stop : ℕ) (alloc : Bool) :
    List ExtentNode → List ExtentNode → Bool → ℕ → Work → Walk
  | before, [], prev, deiLen, w => ⟨before, [], prev, deiLen, w⟩
  | before, en :: rest, prev, deiLen, w =>
      if en.ei.fofs < stop then
        let left := decide (en.ei.fofs < pos) && decide (minExtentLen ≤ pos - en.ei.fofs)
        let right := decide (stop < en.ei.stop) && decide (minExtentLen ≤ en.ei.stop - stop)
        let cutL : ExtentNode := { en with ei := en.ei.cutLeft pos }
        let cutR := en.ei.cutRight stop
        if left then
          if right && alloc then
            let w₁ := (w.attach ino).tryUpdateLargest cutR
            ⟨before ++ [cutL], ⟨w.nextNode, cutR⟩ :: rest, true, en.ei.len,
              w₁.tryUpdateLargest cutL.ei⟩
          else
            invalidateNodes ino pos stop alloc (before ++ [cutL]) rest true en.ei.len
              (w.tryUpdateLargest cutL.ei)
        else if right then
          ⟨before, { en with ei := cutR } :: rest, prev, en.ei.len, w.tryUpdateLargest cutR⟩
        else
          invalidateNodes ino pos stop alloc before rest prev en.ei.len (w.release ino en.id)
      else ⟨before, en :: rest, prev, deiLen, w⟩

/-- `__lookup_rb_tree_fast`. -/
def lookupFast (nodes : List ExtentNode) (cachedEn : Option ℕ) (ofs : ℕ) : Option ExtentNode :=
  cachedEn.bind fun id => nodes.find? fun n => n.id == id && n.ei.has ofs

/-- `f2fs_lookup_rb_tree_ret`: the nodes before the one that is found or that follows, and the nodes
from there on. -/
def lookupRet (nodes : List ExtentNode) (cachedEn : Option ℕ) (ofs : ℕ) :
    List ExtentNode × List ExtentNode :=
  match lookupFast nodes cachedEn ofs with
  | some en => (nodes.takeWhile fun n => n.id != en.id, nodes.dropWhile fun n => n.id != en.id)
  | none =>
      (nodes.takeWhile fun n => decide (n.ei.stop ≤ ofs),
        nodes.dropWhile fun n => decide (n.ei.stop ≤ ofs))

/-- Whether the lookup gives the node before: not in the middle of an extent. -/
def knowsPrev (rest : List ExtentNode) (ofs : ℕ) : Bool :=
  match rest with
  | [] => true
  | en :: _ => decide (ofs ≤ en.ei.fofs)

/-- The node before, if it is known and the range goes on from it. -/
def mergeBack (x : Walk) (ei : ExtentInfo) : Option ExtentNode :=
  (if x.prev then x.before.getLast? else none).filter fun n => isExtentMergeable n.ei ei

/-- The node after, if it goes on from the range. -/
def mergeFront (rest : List ExtentNode) (ei : ExtentInfo) : Option ExtentNode :=
  rest.head?.filter fun n => isExtentMergeable ei n.ei

/-- An extent and one that goes on from it. -/
def ExtentInfo.join (back front : ExtentInfo) : ExtentInfo := { back with len := back.len + front.len }

/-- `__try_merge_extent_node`, and otherwise `__insert_extent_tree`: the nodes, and the rest.  A node
merged with both neighbours stays in the place of the one after. -/
def mergeOrInsert (ino : ℕ) (ei : ExtentInfo) (alloc : Bool) (x : Walk) : List ExtentNode × Work :=
  match mergeBack x ei with
  | some prev =>
      let merged := prev.ei.join ei
      match mergeFront x.rest merged with
      | some next =>
          (x.before.dropLast ++ ⟨next.id, merged.join next.ei⟩ :: x.rest.tail,
            ((x.w.release ino prev.id).tryUpdateLargest (merged.join next.ei)).touch ino next.id)
      | none =>
          (x.before.dropLast ++ ⟨prev.id, merged⟩ :: x.rest,
            (x.w.tryUpdateLargest merged).touch ino prev.id)
  | none =>
      match mergeFront x.rest ei with
      | some next =>
          (x.before ++ ⟨next.id, ei.join next.ei⟩ :: x.rest.tail,
            (x.w.tryUpdateLargest (ei.join next.ei)).touch ino next.id)
      | none =>
          if alloc then
            (x.before ++ ⟨x.w.nextNode, ei⟩ :: x.rest, (x.w.attach ino).tryUpdateLargest ei)
          else (x.before ++ x.rest, x.w)

/-- `f2fs_update_extent_tree_range`, under the lock of the tree and unless `FI_NO_EXTENT` is set: the
nodes, the rest, and whether the flag is set now. -/
def updateRange (ino : ℕ) (nodes : List ExtentNode) (w : Work) (fofs : ℕ) (blkaddr : BitVec 32)
    (len : ℕ) (alloc₁ alloc₂ : Bool) : List ExtentNode × Work × Bool :=
  let w₁ := w.dropLargest fofs len
  let found := lookupRet nodes w.cachedEn fofs
  let x := invalidateNodes ino fofs (fofs + len) alloc₁ found.1 found.2 (knowsPrev found.2 fofs) 0 w₁
  if blkaddr = 0 then (x.before ++ x.rest, x.w, false)
  else
    let y := mergeOrInsert ino ⟨fofs, len, blkaddr⟩ alloc₂ x
    -- give up extent_cache, if split and small updates happen
    if 1 ≤ x.deiLen ∧ w.largest.len < minExtentLen ∧ y.2.largest.len < minExtentLen then
      ([], (y.2.dropLargest 0 (2 ^ 32 - 1)).freeNodes ino y.1, true)
    else (y.1, y.2, false)

/-! ## All trees -/

/-- What was said last about an offset. -/
inductive Recorded where
  | unknown
  | removed
  | at (blk : BitVec 32)
deriving DecidableEq

/-- What an update of a range says. -/
def recordRange (recd : ℕ → Recorded) (fofs len : ℕ) (blkaddr : BitVec 32) : ℕ → Recorded := fun ofs =>
  if fofs ≤ ofs ∧ ofs < fofs + len then
    if blkaddr = 0 then .removed else .at (blkaddr + BitVec.ofNat 32 (ofs - fofs))
  else recd ofs

/-- `struct f2fs_inode_info`, as far as the cache is concerned. -/
structure InodeExt where
  /-- In memory. -/
  live : Bool
  /-- `extent_tree` is set. -/
  hasTree : Bool
  /-- `FI_NO_EXTENT`. -/
  noExtent : Bool

structure ExtentCache where
  /-- `extent_tree_root`. -/
  trees : ℕ → Option ExtentTree
  inodes : ℕ → InodeExt
  zombieList : List ℕ
  totalExtNode : ℤ
  extentList : List (ℕ × ℕ)
  nextNode : ℕ
  recorded : ℕ → ℕ → Recorded

namespace ExtentCache

def work (c : ExtentCache) (t : ExtentTree) : Work where
  cachedEn := t.cachedEn
  largest := t.largest
  nodeCnt := t.nodeCnt
  totalExtNode := c.totalExtNode
  extentList := c.extentList
  nextNode := c.nextNode

/-- What was done to one tree. -/
def setTree (c : ExtentCache) (ino : ℕ) (nodes : List ExtentNode) (w : Work) : ExtentCache :=
  { c with
    trees := Function.update c.trees ino (some ⟨nodes, w.cachedEn, w.largest, w.nodeCnt⟩)
    totalExtNode := w.totalExtNode
    extentList := w.extentList
    nextNode := w.nextNode }

/-- `__grab_extent_tree`. -/
def grabExtentTree (c : ExtentCache) (ino : ℕ) : ExtentCache :=
  match c.trees ino with
  | some _ => { c with zombieList := c.zombieList.erase ino }
  | none => { c with trees := Function.update c.trees ino (some ⟨[], none, ⟨0, 0, 0⟩, 0⟩) }

/-- What has been recorded becomes the addresses of an extent. -/
def record (c : ExtentCache) (ino : ℕ) (ei : ExtentInfo) : ExtentCache :=
  { c with
    recorded := Function.update c.recorded ino fun ofs =>
      if ei.has ofs then .at (ei.addr ofs) else c.recorded ino ofs }

/-- `f2fs_init_extent_tree`, for an inode that comes into memory; `may` is
`f2fs_may_extent_tree`. -/
def f2fsInitExtentTree (c : ExtentCache) (ino : ℕ) (may : Bool) (iExt : Option ExtentInfo)
    (alloc : Bool) : ExtentCache :=
  if may then
    let c₁ := { c.grabExtentTree ino with
      inodes := Function.update c.inodes ino ⟨true, true, false⟩ }
    match iExt, c₁.trees ino with
    | some ei, some t =>
        if ei.len = 0 ∨ t.nodeCnt ≠ 0 ∨ alloc = false then c₁
        else c₁.setTree ino [⟨c₁.nextNode, ei⟩] { (c₁.work t).attach ino with largest := ei }
    | _, _ => c₁
  else { c with inodes := Function.update c.inodes ino ⟨true, false, true⟩ }

/-- `f2fs_update_extent_tree_range`. -/
def f2fsUpdateExtentTreeRange (c : ExtentCache) (ino fofs : ℕ) (blkaddr : BitVec 32) (len : ℕ)
    (alloc₁ alloc₂ : Bool) : ExtentCache :=
  match c.trees ino with
  | some t =>
      if (c.inodes ino).hasTree = false ∨ (c.inodes ino).noExtent then c
      else
        let x := updateRange ino t.nodes (c.work t) fofs blkaddr len alloc₁ alloc₂
        { c.setTree ino x.1 x.2.1 with
          inodes := Function.update c.inodes ino { c.inodes ino with noExtent := x.2.2 } }
  | none => c

/-- `f2fs_lookup_extent_tree`: the extent, and the cache with the node that was used. -/
def f2fsLookupExtentTree (c : ExtentCache) (ino pgofs : ℕ) : Option (ExtentInfo × ExtentCache) :=
  match c.trees ino with
  | some t =>
      if t.largest.has pgofs then some (t.largest, c)
      else
        let en := (lookupFast t.nodes t.cachedEn pgofs).or (t.nodes.find? fun n => n.ei.has pgofs)
        en.map fun en => (en.ei, c.setTree ino t.nodes ((c.work t).touch ino en.id))
  | none => none

/-- `__free_extent_tree` on the tree of an inode. -/
def freeTree (c : ExtentCache) (ino : ℕ) : ExtentCache :=
  match c.trees ino with
  | some t => c.setTree ino [] ((c.work t).freeNodes ino t.nodes)
  | none => c

/-- `f2fs_destroy_extent_node`. -/
def f2fsDestroyExtentNode (c : ExtentCache) (ino : ℕ) : ExtentCache :=
  if (c.inodes ino).hasTree then c.freeTree ino else c

/-- `f2fs_drop_extent_tree`. -/
def f2fsDropExtentTree (c : ExtentCache) (ino : ℕ) : ExtentCache :=
  match c.trees ino with
  | some t =>
      if (c.inodes ino).hasTree = false ∨ (c.inodes ino).noExtent then c
      else
        { c.setTree ino [] (((c.work t).freeNodes ino t.nodes).dropLargest 0 (2 ^ 32 - 1)) with
          inodes := Function.update c.inodes ino { c.inodes ino with noExtent := true } }
  | none => c

/-- A tree without nodes leaves the radix tree. -/
def deleteTree (c : ExtentCache) (ino : ℕ) : ExtentCache :=
  { c with trees := Function.update c.trees ino none }

/-- `f2fs_destroy_extent_tree`, for an inode that leaves memory; `keep` is whether it has links and
is not bad. -/
def f2fsDestroyExtentTree (c : ExtentCache) (ino : ℕ) (keep : Bool) : ExtentCache :=
  let c₁ := match c.trees ino with
    | some t =>
        if (c.inodes ino).hasTree = false then c
        else if keep && t.nodeCnt != 0 then { c with zombieList := c.zombieList ++ [ino] }
        else (c.freeTree ino).deleteTree ino
    | none => c
  { c₁ with inodes := Function.update c₁.inodes ino ⟨false, false, false⟩ }

/-- The first loop of `f2fs_shrink_extent_tree`: trees without an inode, and how much is left. -/
def shrinkZombies (c : ExtentCache) (left : ℤ) : List ℕ → ExtentCache × ℤ
  | [] => (c, left)
  | ino :: zombies =>
      let freed : ℤ := ((c.trees ino).elim 0 fun t => t.nodes.length) + 1
      let c₁ := { (c.freeTree ino).deleteTree ino with zombieList := c.zombieList.erase ino }
      if left - freed ≤ 0 then (c₁, left - freed) else shrinkZombies c₁ (left - freed) zombies

/-- The second loop: the nodes used longest ago; `locks` tells which trees can be locked. -/
def shrinkNodes (c : ExtentCache) : List Bool → ExtentCache
  | [] => c
  | lock :: locks =>
      match c.extentList with
      | [] => c
      | (ino, id) :: _ =>
          match c.trees ino with
          | some t =>
              if lock then
                shrinkNodes (c.setTree ino (t.nodes.filter fun n => n.id != id)
                  ((c.work t).release ino id)) locks
              else
                shrinkNodes { c with extentList := c.extentList.erase (ino, id) ++ [(ino, id)] } locks
          | none => c

/-- `f2fs_shrink_extent_tree`; `lock₁` and `lock₂` are whether `extent_tree_lock` was free. -/
def f2fsShrinkExtentTree (c : ExtentCache) (nrShrink : ℕ) (lock₁ lock₂ : Bool) (locks : ℕ → Bool) :
    ExtentCache :=
  let x := if c.zombieList = [] then (c, (nrShrink : ℤ))
    else if lock₁ then c.shrinkZombies nrShrink c.zombieList
    else (c, 0)
  if lock₂ then x.1.shrinkNodes ((List.range x.2.toNat).map locks) else x.1

end ExtentCache

/-! ## Steps -/

inductive ExtentStep where
  | init (ino : ℕ) (may : Bool) (iExt : Option ExtentInfo) (alloc : Bool)
  | update (ino fofs : ℕ) (blkaddr : BitVec 32) (len : ℕ) (alloc₁ alloc₂ : Bool)
  | lookup (ino pgofs : ℕ)
  | shrink (nrShrink : ℕ) (lock₁ lock₂ : Bool) (locks : ℕ → Bool)
  | destroyNode (ino : ℕ)
  | drop (ino : ℕ)
  | destroyTree (ino : ℕ) (keep : Bool)

/-- One call; an inode comes into memory before anything else is done with it.  Nothing is known
about the offsets of an inode that is gone for good. -/
def extentStep (c : ExtentCache) : ExtentStep → Option ExtentCache
  | .init ino may iExt alloc =>
      if (c.inodes ino).live then none
      else
        let c₁ := match iExt with
          | some ei => c.record ino ei
          | none => c
        some (c₁.f2fsInitExtentTree ino may iExt alloc)
  | .update ino fofs blkaddr len alloc₁ alloc₂ =>
      if (c.inodes ino).live then
        let c₁ := { c with
          recorded :=
            Function.update c.recorded ino (recordRange (c.recorded ino) fofs len blkaddr) }
        some (c₁.f2fsUpdateExtentTreeRange ino fofs blkaddr len alloc₁ alloc₂)
      else none
  | .lookup ino pgofs =>
      if (c.inodes ino).live && (c.inodes ino).hasTree then
        some ((c.f2fsLookupExtentTree ino pgofs).elim c Prod.snd)
      else none
  | .shrink nrShrink lock₁ lock₂ locks => some (c.f2fsShrinkExtentTree nrShrink lock₁ lock₂ locks)
  | .destroyNode ino =>
      if (c.inodes ino).live then some (c.f2fsDestroyExtentNode ino) else none
  | .drop ino => if (c.inodes ino).live then some (c.f2fsDropExtentTree ino) else none
  | .destroyTree ino keep =>
      if (c.inodes ino).live then
        let c₁ := c.f2fsDestroyExtentTree ino keep
        some (if keep then c₁
          else { c₁ with recorded := Function.update c₁.recorded ino fun _ => .unknown })
      else none

/-- `f2fs_init_extent_cache_info`. -/
def emptyCache : ExtentCache where
  trees := fun _ => none
  inodes := fun _ => ⟨false, false, false⟩
  zombieList := []
  totalExtNode := 0
  extentList := []
  nextNode := 0
  recorded := fun _ _ => .unknown

end Hoit.Extent
