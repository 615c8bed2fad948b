import HoitF2fs.Recovery.Replay

/-!
# Roll-forward recovery

`f2fs_recover_fsync_data` walks the chain of warm node blocks that were written after the last
checkpoint, twice.  `find_fsync_dnodes` collects the inodes that were fsynced, with the last
fsync-marked block of each; `recover_data` replays the data indices of every node block of such an
inode up to that block, and gives the inode its name.

* `PorImage` — what is on the device: the node blocks, the checkpoint's version, where the chain
  starts.  `RecoveryEnv` — the outcomes of what is outside: reading pages, reserving blocks.
* `LinkState` — the names in directories, and the links of inodes.  `recoverDentry` takes a name
  away from another inode, which is evicted, with all its indices, when that was its last link and
  nothing holds it (`iput`).
* `findFsyncDnodes`, `doRecoverData`, `recoverData`, `f2fsRecoverFsyncData` — the two passes.  Both
  stop at a block that `f2fs_is_valid_meta_blkaddr` refuses.

What they should do, and when they do, is said in `HoitF2fs.Recovery.Recovered`.
-/

namespace Hoit

open Transition

/-! ## Node blocks -/

/-- A block read as a node block: its footer, and its data indices. -/
structure NodeBlock where
  nid : ℕ
  ino : ℕ
  ofs : ℕ
  cpVer : BitVec 64
  nextBlkaddr : BitVec 32
  fsync : Bool
  dent : Bool
  /-- For an inode: `F2FS_INLINE_DATA` in `i_inline`, `S_ISDIR` of `i_mode`, `i_pino`, and
  `i_name` up to `i_namelen`. -/
  inlineData : Bool
  isDir : Bool
  pino : ℕ
  name : List (BitVec 8)
  addrs : ℕ → BitVec 32

/-- `IS_INODE`. -/
def NodeBlock.isInode (n : NodeBlock) : Bool := n.nid == n.ino

/-- `XATTR_NODE_OFFSET`, with `OFFSET_BIT_SHIFT` 3 taken off again. -/
def xattrNodeOffset : ℕ := 2 ^ 29 - 1

/-- `f2fs_has_xattr_block`. -/
def NodeBlock.hasXattrBlock (n : NodeBlock) : Bool := n.ofs == xattrNodeOffset

def nidsPerBlock : ℕ := 1018

def addrsPerBlock : ℕ := 1018

def defAddrsPerInode : ℕ := 923

structure PorImage where
  node : BitVec 32 → NodeBlock
  ckptVer : BitVec 64
  ckptCrc : BitVec 64
  /-- `CP_NOCRC_RECOVERY_FLAG`. -/
  nocrcRecovery : Bool
  /-- `CP_CRC_RECOVERY_FLAG`. -/
  crcRecovery : Bool
  /-- `NEXT_FREE_BLKADDR` of the warm node segment. -/
  nextFreeBlkaddr : BitVec 32
  /-- `user_block_count - valid_user_blocks`. -/
  freeBlocks : ℕ
  /-- The addresses of an inode that its extra attributes and inline xattrs take. -/
  reservedAddrs : ℕ → ℕ

/-- `is_recoverable_dnode`. -/
def PorImage.isRecoverableDnode (img : PorImage) (blkaddr : BitVec 32) : Bool :=
  let cpVer := img.ckptVer
  if img.nocrcRecovery then cpVer <<< 32 == (img.node blkaddr).cpVer <<< 32
  else if img.crcRecovery then cpVer ||| (img.ckptCrc <<< 32) == (img.node blkaddr).cpVer
  else cpVer == (img.node blkaddr).cpVer

/-- `ADDRS_PER_INODE`. -/
def PorImage.addrsPerInode (img : PorImage) (ino : ℕ) : ℕ := defAddrsPerInode - img.reservedAddrs ino

/-- `ADDRS_PER_PAGE`. -/
def PorImage.addrsPerPage (img : PorImage) (n : NodeBlock) : ℕ :=
  if n.isInode then img.addrsPerInode n.ino else addrsPerBlock

/-- `f2fs_start_bidx_of_node`. -/
def PorImage.startBidxOfNode (img : PorImage) (nodeOfs ino : ℕ) : ℕ :=
  let indirectBlks := 2 * nidsPerBlock + 4
  if nodeOfs = 0 then 0
  else
    let bidx :=
      if nodeOfs ≤ 2 then nodeOfs - 1
      else if nodeOfs ≤ indirectBlks then nodeOfs - 2 - (nodeOfs - 4) / (nidsPerBlock + 1)
      else nodeOfs - 5 - (nodeOfs - indirectBlks - 3) / (nidsPerBlock + 1)
    bidx * addrsPerBlock + img.addrsPerInode ino

/-- What recovery cannot decide by itself, by the node block (and the index in it) at hand. -/
structure RecoveryEnv where
  /-- `f2fs_iget_retry` and the quota calls, on an inode that exists. -/
  addInode : ℕ → Bool
  /-- `recover_dentry`, as far as it is not said here: reading the directory, quota, orphans. -/
  recoverDentry : BitVec 32 → Bool
  recoverXattr : BitVec 32 → Bool
  /-- `f2fs_truncate_blocks`. -/
  truncateBlocks : BitVec 32 → Bool
  /-- `f2fs_get_dnode_of_data` with `ALLOC_NODE`. -/
  getDnode : BitVec 32 → Bool
  /-- `f2fs_reserve_new_block`. -/
  reserve : BitVec 32 → ℕ → Bool
  prev : BitVec 32 → ℕ → PrevLookup
  /-- An inode that the mount itself holds, such as the root. -/
  held : ℕ → Bool
  /-- `f2fs_truncate` in `f2fs_evict_inode`; that it fails is not reported. -/
  evict : ℕ → Bool
  writeCheckpoint : Bool

inductive RecoverErr where
  | einval
  | enoent
  /-- Any error that is passed on. -/
  | failed
  /-- `recover_data` has no check against a looped chain. -/
  | endless
deriving DecidableEq

/-! ## Names and links -/

/-- The directories and inodes, as far as recovery looks at them beside the indices. -/
structure LinkState where
  /-- `__f2fs_find_entry`: the inode that a directory has under a name. -/
  dentry : ℕ → List (BitVec 8) → Option ℕ
  /-- `i_nlink`. -/
  nlink : ℕ → BitVec 32
  /-- `S_ISDIR` of `i_mode`. -/
  isDir : ℕ → Bool
  /-- `dir_list`: directories that are held until the end. -/
  dirList : List ℕ

namespace LinkState

variable (x : LinkState) (dir : ℕ) (name : List (BitVec 8)) (ino : ℕ)

/-- The links of a new inode page: `i_links` is 1, whatever the node block says. -/
def newInode (n : NodeBlock) : LinkState :=
  { x with
    nlink := Function.update x.nlink n.ino 1
    isDir := Function.update x.isDir n.ino n.isDir }

/-- `recover_inode`: the mode is that of the node block, the links are not. -/
def recoverInode (n : NodeBlock) : LinkState :=
  if n.isInode then { x with isDir := Function.update x.isDir n.ino n.isDir } else x

def dropLink : LinkState := { x with nlink := Function.update x.nlink ino (x.nlink ino - 1) }

/-- `f2fs_drop_nlink`: a directory has a second link of its own, and its parent has one. -/
def dropNlink : LinkState :=
  if x.isDir ino then ((x.dropLink dir).dropLink ino).dropLink ino else x.dropLink ino

def setEntry (e : Option ℕ) : LinkState :=
  { x with dentry := Function.update x.dentry dir (Function.update (x.dentry dir) name e) }

/-- `f2fs_delete_entry`. -/
def deleteEntry : LinkState := (x.setEntry dir name none).dropNlink dir ino

/-- `f2fs_add_dentry` of an inode that is neither new nor linked once more: no count changes. -/
def addDentry : LinkState := x.setEntry dir name (some ino)

/-- `add_fsync_inode` on `dir_list`. -/
def addDir : LinkState :=
  if dir ∈ x.dirList then x else { x with dirList := x.dirList ++ [dir] }

end LinkState

variable (l : Layout) (img : PorImage) (env : RecoveryEnv)

/-- `iput` of an inode, whose other holders are told by `held`. -/
def iput (held : ℕ → Bool) (links : LinkState) (fs : RecoverFs) (ino : ℕ) : RecoverFs :=
  if links.nlink ino = 0 ∧ held ino = false ∧ env.evict ino = true then evictInode fs ino else fs

/-! ## The first pass -/

/-- `struct fsync_inode_entry`. -/
structure FsyncInodeEntry where
  ino : ℕ
  blkaddr : BitVec 32
  lastDentry : BitVec 32
deriving DecidableEq

/-- `get_fsync_inode`. -/
def getFsyncInode (head : List FsyncInodeEntry) (ino : ℕ) : Option FsyncInodeEntry :=
  head.find? fun e => e.ino == ino

/-- What either pass changes.  `visited` is a ghost. -/
structure RecoverState where
  fs : RecoverFs
  links : LinkState
  inodeList : List FsyncInodeEntry
  visited : List (BitVec 32)

/-- Both lists are empty at the start. -/
def RecoverState.start (fs : RecoverFs) (links : LinkState) : RecoverState :=
  ⟨fs, { links with dirList := [] }, [], []⟩

/-- `f2fs_recover_inode_page`: a new inode page, without indices and without inline data. -/
def recoverInodePage (fs : RecoverFs) (links : LinkState) (n : NodeBlock) :
    Except RecoverErr (RecoverFs × LinkState) :=
  if fs.hasInode n.ino then .error .einval
  else
    .ok
      ({ fs with
        addr := fun s => if s.ino = n.ino then nullAddr else fs.addr s
        hasInlineData := Function.update fs.hasInlineData n.ino false
        hasInode := Function.update fs.hasInode n.ino true },
        links.newInode n)

/-- `add_fsync_inode`. -/
def addFsyncInode (fs : RecoverFs) (head : List FsyncInodeEntry) (ino : ℕ) :
    Except RecoverErr (List FsyncInodeEntry) :=
  if !fs.hasInode ino then .error .enoent
  else if env.addInode ino then .ok (head ++ [⟨ino, 0, 0⟩])
  else .error .failed

/-- The entry of the inode learns of a fsync-marked block. -/
def markEntry (head : List FsyncInodeEntry) (n : NodeBlock) (blkaddr : BitVec 32) :
    List FsyncInodeEntry :=
  head.map fun e =>
    if e.ino = n.ino then
      { e with
        blkaddr := blkaddr
        lastDentry := if n.isInode && n.dent then blkaddr else e.lastDentry }
    else e

/-- One round of `find_fsync_dnodes`, up to the label `next`. -/
def findDnode (checkOnly : Bool) (st : RecoverState) (blkaddr : BitVec 32) :
    Except RecoverErr RecoverState :=
  let n := img.node blkaddr
  let visited := st.visited ++ [blkaddr]
  if !n.fsync then .ok { st with visited := visited }
  else if (getFsyncInode st.inodeList n.ino).isSome then
    .ok { st with inodeList := markEntry st.inodeList n blkaddr, visited := visited }
  else do
    let (fs, links) ←
      if !checkOnly && n.isInode && n.dent then recoverInodePage st.fs st.links n
      else pure (st.fs, st.links)
    match addFsyncInode env fs st.inodeList n.ino with
    | .ok head => pure ⟨fs, links, markEntry head n blkaddr, visited⟩
    -- `CP | dnode(F) | inode(DF)`: the inode may still come.
    | .error .enoent => pure ⟨fs, links, st.inodeList, visited⟩
    | .error e => throw e

/-- `find_fsync_dnodes`; the fuel is what is left until `loop_cnt` reaches `free_blocks`. -/
def findFsyncDnodes (checkOnly : Bool) :
    ℕ → RecoverState → BitVec 32 → Except RecoverErr RecoverState
  | fuel, st, blkaddr =>
      if !f2fsIsValidPorBlkaddr l blkaddr.toNat then .ok st
      else if !img.isRecoverableDnode blkaddr then .ok st
      else
        match findDnode img env checkOnly st blkaddr with
        | .error e => .error e
        | .ok st' =>
            match fuel with
            | 0 => .error .einval
            | fuel + 1 =>
                if blkaddr = (img.node blkaddr).nextBlkaddr then .error .einval
                else findFsyncDnodes checkOnly fuel st' (img.node blkaddr).nextBlkaddr

/-! ## The second pass -/

/-- `f2fs_recover_inline_data`; `true` when the node block has no data indices. -/
def recoverInlineData (fs : RecoverFs) (n : NodeBlock) (blkaddr : BitVec 32) : RecoverFs × Bool :=
  if fs.hasInlineData n.ino && n.isInode && n.inlineData then (setInlineData fs n.ino true, true)
  else if fs.hasInlineData n.ino then (setInlineData fs n.ino false, false)
  else if n.isInode && n.inlineData then
    if env.truncateBlocks blkaddr then (setInlineData (truncateBlocks fs n.ino) n.ino true, true)
    else (fs, false)
  else (fs, false)

/-- The loop of `do_recover_data`. -/
def recoverIndices (fs : RecoverFs) (blkaddr : BitVec 32) : Option RecoverFs :=
  let n := img.node blkaddr
  let start := img.startBidxOfNode n.ofs n.ino
  exec (fun fs i => recoverIndex l fs ⟨n.ino, start + i⟩ (n.addrs i) (env.reserve blkaddr i)
    (env.prev blkaddr i)) fs (List.range (img.addrsPerPage n))

def doRecoverData (fs : RecoverFs) (blkaddr : BitVec 32) : Option RecoverFs :=
  let n := img.node blkaddr
  if !n.isInode && n.hasXattrBlock then
    if env.recoverXattr blkaddr then some fs else none
  else
    match recoverInlineData env fs n blkaddr with
    | (fs, true) => some fs
    | (fs, false) => if env.getDnode blkaddr then recoverIndices l img env fs blkaddr else none

/-- `del_fsync_inode`. -/
def delFsyncInode (head : List FsyncInodeEntry) (ino : ℕ) : List FsyncInodeEntry :=
  head.eraseP fun e => e.ino == ino

/-- An inode is held by the mount, as a directory, or because it is still to be recovered. -/
def RecoverState.holds (st : RecoverState) (ino : ℕ) : Bool :=
  env.held ino || st.links.dirList.contains ino || (getFsyncInode st.inodeList ino).isSome

/-- `F2FS_NAME_LEN`. -/
def f2fsNameLen : ℕ := 255

/-- `recover_dentry`; `none` is an error. -/
def recoverDentry (st : RecoverState) (blkaddr : BitVec 32) : Option RecoverState :=
  let n := img.node blkaddr
  if ¬ (n.pino ∈ st.links.dirList ∨ st.fs.hasInode n.pino = true) then none
  else if f2fsNameLen < n.name.length ∨ env.recoverDentry blkaddr = false then none
  else
    let st := { st with links := st.links.addDir n.pino }
    match st.links.dentry n.pino n.name with
    | none => some { st with links := st.links.addDentry n.pino n.name n.ino }
    | some e =>
        if e = n.ino then some st
        else if st.fs.hasInode e = false then none
        else
          -- The name is another inode's.
          let st := { st with links := st.links.deleteEntry n.pino n.name e }
          some { st with
            fs := iput env (st.holds env) st.links st.fs e
            links := st.links.addDentry n.pino n.name n.ino }

/-- One round of `recover_data`, up to the label `next`. -/
def recoverDnode (st : RecoverState) (blkaddr : BitVec 32) : Except RecoverErr RecoverState :=
  let n := img.node blkaddr
  let visited := st.visited ++ [blkaddr]
  match getFsyncInode st.inodeList n.ino with
  | none => .ok { st with visited := visited }
  | some entry =>
      let st := { st with links := st.links.recoverInode n }
      match if entry.lastDentry = blkaddr then recoverDentry img env st blkaddr else some st with
      | none => .error .failed
      | some st =>
          match doRecoverData l img env st.fs blkaddr with
          | none => .error .failed
          | some fs =>
              let st := { st with fs := fs, visited := visited }
              if entry.blkaddr = blkaddr then
                let st := { st with inodeList := delFsyncInode st.inodeList n.ino }
                .ok { st with fs := iput env (st.holds env) st.links st.fs n.ino }
              else .ok st

/-- `recover_data`. -/
def recoverData : ℕ → RecoverState → BitVec 32 → Except RecoverErr RecoverState
  | 0, _, _ => .error .endless
  | fuel + 1, st, blkaddr =>
      if !f2fsIsValidPorBlkaddr l blkaddr.toNat then .ok st
      else if !img.isRecoverableDnode blkaddr then .ok st
      else
        match recoverDnode l img env st blkaddr with
        | .error e => .error e
        | .ok st' => recoverData fuel st' (img.node blkaddr).nextBlkaddr

/-- What `f2fs_recover_fsync_data` leaves behind. -/
structure RecoverResult where
  ret : ℕ
  fs : RecoverFs
  /-- `inode_list` after the passes, before it is destroyed. -/
  inodeList : List FsyncInodeEntry
  visitedFind : List (BitVec 32)
  /-- `none` when the second pass is not needed. -/
  visitedRecover : Option (List (BitVec 32))

/-- `destroy_fsync_dnodes`, on `inode_list` and then on `dir_list`. -/
def RecoverState.destroyLists (st : RecoverState) : RecoverFs :=
  let held := fun ino => env.held ino || st.links.dirList.contains ino
  let fs := (st.inodeList.map (·.ino)).foldl (iput env held st.links) st.fs
  st.links.dirList.foldl (iput env env.held st.links) fs

def f2fsRecoverFsyncData (checkOnly : Bool) (fs : RecoverFs) (links : LinkState) :
    Except RecoverErr RecoverResult :=
  match findFsyncDnodes l img env checkOnly (img.freeBlocks - 1) (.start fs links)
      img.nextFreeBlkaddr with
  | .error e => .error e
  | .ok st =>
      if st.inodeList.isEmpty then .ok ⟨0, st.fs, st.inodeList, st.visited, none⟩
      else if checkOnly then .ok ⟨1, st.destroyLists env, st.inodeList, st.visited, none⟩
      else
        match recoverData l img env (img.freeBlocks + 1) { st with visited := [] }
            img.nextFreeBlkaddr with
        | .error e => .error e
        | .ok st' =>
            if env.writeCheckpoint then
              .ok ⟨0, st'.destroyLists env, st'.inodeList, st.visited, some st'.visited⟩
            else .error .failed

variable {l img env} {st : RecoverState} {b : BitVec 32}

/-- The errors of a round are passed on. -/
lemma recoverDnode_error {e : RecoverErr} (h : recoverDnode l img env st b = .error e) :
    e = .failed := by
  unfold recoverDnode at h
  cases hget : getFsyncInode st.inodeList (img.node b).ino with
  | none => simp [hget] at h
  | some entry =>
      simp only [hget] at h
      split at h
      · exact (Except.error.inj h).symm
      · split at h
        · exact (Except.error.inj h).symm
        · split at h <;> exact absurd h (by simp)

end Hoit
