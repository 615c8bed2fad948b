import HoitF2fs.Lib.Bitmap
import HoitF2fs.Node.NatTable

/-!
# Free node ids

A node id is free when the NAT has no address for it.  There may be too many of them to keep, so
that the node manager keeps some in a list, remembers which of the NAT blocks it has scanned with a
bitmap of free nids for each of these, and keeps a count of all of them, `available_nids`, from
which `f2fs_alloc_nid` tells whether there is any use in scanning on.

**The model.**
* `FreeNids` — the list, in which a nid is free or preallocated, the bitmaps and the counts;
  `NodeManager` has the NAT beside it.
* `buildFreeNids` — the bitmaps of the scanned blocks, then eight more blocks, and the journal.
* `f2fsAllocNid`, `f2fsAllocNidDone`, `f2fsAllocNidFailed`.  The loop of `f2fs_alloc_nid` is given a
  number of rounds and has no result when it needs more.
* `f2fsFlushNatEntries` — the flush of `HoitF2fs.Node.NatTable`, with what it does to free nids.
* `f2fsRecoverInodePage`, `f2fsRecoverXattrData` — roll-forward.
* `f2fsBuildNodeManager` — the mount.
* `nidStep` — the calls, with what their callers promise.  A call is one step, so that the test of
  `build_lock` in `f2fs_alloc_nid` finds it free.  Whether there is memory is part of the call.

A nid in the list is in the state that the callers of `__remove_free_nid` and `__move_free_nid` say,
by the promises of `nidStep`, so that the checks on it are left out.
-/

namespace Hoit.FreeNid

variable (g : NatGeometry)

/-- `FREE_NID_PAGES`. -/
def freeNidPages : ℕ := 8

/-- `MAX_FREE_NIDS`. -/
def maxFreeNids : ℕ := natEntryPerBlock * freeNidPages

/-- `F2FS_RESERVED_NODE_NUM`: nid 0, and the inodes of the node and of the meta mapping. -/
def reservedNodeNum : ℕ := 3

/-- `enum nid_state`. -/
inductive NidState where
  | freeNid
  | preallocNid
deriving DecidableEq

/-- What `struct f2fs_nm_info` has about free nids. -/
structure FreeNids where
  freeNidRoot : ℕ → Option NidState
  freeNidList : List ℕ
  nidCnt : NidState → ℕ
  /-- For each NAT block, the free nids in it. -/
  freeNidBitmap : ℕ → ℕ → Bool
  /-- The NAT blocks that were scanned. -/
  natBlockBitmap : ℕ → Bool
  freeNidCount : ℕ → ℕ
  nextScanNid : ℕ
  availableNids : BitVec 32

/-- `struct f2fs_nm_info`. -/
structure NodeManager where
  nat : NatState
  free : FreeNids

/-! ## The list -/

/-- `__insert_free_nid`, with no result if the nid is in the tree already. -/
def insertFreeNid (f : FreeNids) (nid : ℕ) (state : NidState) : Option FreeNids :=
  if (f.freeNidRoot nid).isSome then none
  else some
    { f with
      freeNidRoot := Function.update f.freeNidRoot nid (some state)
      nidCnt := Function.update f.nidCnt state (f.nidCnt state + 1)
      freeNidList := if state = .freeNid then f.freeNidList ++ [nid] else f.freeNidList }

/-- `__remove_free_nid`. -/
def innerRemoveFreeNid (f : FreeNids) (nid : ℕ) (state : NidState) : FreeNids :=
  { f with
    nidCnt := Function.update f.nidCnt state (f.nidCnt state - 1)
    freeNidList := if state = .freeNid then f.freeNidList.erase nid else f.freeNidList
    freeNidRoot := Function.update f.freeNidRoot nid none }

/-- `__move_free_nid`. -/
def moveFreeNid (f : FreeNids) (nid : ℕ) (orgState dstState : NidState) : FreeNids :=
  let cnt := Function.update f.nidCnt orgState (f.nidCnt orgState - 1)
  { f with
    freeNidRoot := Function.update f.freeNidRoot nid (some dstState)
    nidCnt := Function.update cnt dstState (cnt dstState + 1)
    freeNidList :=
      match dstState with
      | .preallocNid => f.freeNidList.erase nid
      | .freeNid => f.freeNidList ++ [nid] }

/-- `update_free_nid_bitmap`. -/
def updateFreeNidBitmap (f : FreeNids) (nid : ℕ) (set build : Bool) : FreeNids :=
  let natOfs := natBlockOffset nid
  let nidOfs := nid % natEntryPerBlock
  let bitmap := Function.update f.freeNidBitmap natOfs
    (Function.update (f.freeNidBitmap natOfs) nidOfs set)
  if f.natBlockBitmap natOfs = false then f
  else if set then
    if f.freeNidBitmap natOfs nidOfs then f
    else
      { f with
        freeNidBitmap := bitmap
        freeNidCount := Function.update f.freeNidCount natOfs (f.freeNidCount natOfs + 1) }
  else if f.freeNidBitmap natOfs nidOfs = false then f
  else if build then { f with freeNidBitmap := bitmap }
  else
    { f with
      freeNidBitmap := bitmap
      freeNidCount := Function.update f.freeNidCount natOfs (f.freeNidCount natOfs - 1) }

/-- The NAT cache knows better than the NAT block: the nid is in use, or was so at the last
checkpoint. -/
def cachedInUse (st : NatState) (nid : ℕ) : Bool :=
  (st.cache nid).any fun ne => !ne.isCheckpointed || ne.info.ni.blkAddr != nullAddr

/-- `add_free_nid`: whether the nid is recognised as free, and the list. -/
def addFreeNid (st : NatState) (f : FreeNids) (nid : ℕ) (build update : Bool) : Bool × FreeNids :=
  if nid = 0 then (false, f)
  else
    let x : Bool × FreeNids :=
      if build && cachedInUse st nid then (false, f)
      else if build && (f.freeNidRoot nid).isSome then (f.freeNidRoot nid == some .freeNid, f)
      else (true, (insertFreeNid f nid .freeNid).getD f)
    if update then
      let f₁ := updateFreeNidBitmap x.2 nid x.1 build
      (x.1, if build then f₁ else { f₁ with availableNids := f₁.availableNids + 1 })
    else x

/-- `remove_free_nid`. -/
def removeFreeNid (f : FreeNids) (nid : ℕ) : FreeNids :=
  if f.freeNidRoot nid = some .freeNid then innerRemoveFreeNid f nid .freeNid else f

/-! ## The scan -/

/-- The NAT block counts as scanned. -/
def markScanned (f : FreeNids) (natOfs : ℕ) : FreeNids :=
  { f with natBlockBitmap := Function.update f.natBlockBitmap natOfs true }

/-- The loop body of `scan_nat_page`. -/
def scanNatEntry (st : NatState) (f : FreeNids) (startNid : ℕ) : FreeNids :=
  if (natBlockEntry g st startNid).ni.blkAddr = nullAddr then (addFreeNid st f startNid true true).2
  else updateFreeNidBitmap f startNid false true

/-- `scan_nat_page`, from `startNid` to the end of its block. -/
def scanNatPage (st : NatState) (f : FreeNids) (startNid : ℕ) : FreeNids :=
  let i := startNid % natEntryPerBlock
  ((List.range' startNid (natEntryPerBlock - i)).takeWhile fun nid => nid < g.maxNid).foldl
    (scanNatEntry g st) (markScanned f (natBlockOffset startNid))

/-- The loop body of `scan_curseg_cache`. -/
def scanJournalEntry (st : NatState) (f : FreeNids) (x : ℕ × Recorded) : FreeNids :=
  if x.2.ni.blkAddr = nullAddr then (addFreeNid st f x.1 true false).2 else removeFreeNid f x.1

/-- `scan_curseg_cache`. -/
def scanCursegCache (st : NatState) (f : FreeNids) : FreeNids :=
  st.journal.foldl (scanJournalEntry st) f

/-- The nids whose bits are set, in the order in which `scan_free_nid_bits` finds them. -/
def freeNidBits (f : FreeNids) : List ℕ :=
  ((List.range g.natBlocks).filter fun i => f.natBlockBitmap i && f.freeNidCount i != 0).flatMap
    fun i => ((List.range natEntryPerBlock).filter (f.freeNidBitmap i)).map
      fun idx => i * natEntryPerBlock + idx

/-- The loop of `scan_free_nid_bits`, which stops when there are enough. -/
def addFreeNids (st : NatState) : FreeNids → List ℕ → FreeNids
  | f, [] => f
  | f, nid :: nids =>
      let f₁ := (addFreeNid st f nid true false).2
      if maxFreeNids ≤ f₁.nidCnt .freeNid then f₁ else addFreeNids st f₁ nids

/-- `scan_free_nid_bits`. -/
def scanFreeNidBits (st : NatState) (f : FreeNids) : FreeNids :=
  scanCursegCache st (addFreeNids st f (freeNidBits g f))

/-- The loop of `__f2fs_build_free_nids` over NAT blocks: the lists, and where it goes on. -/
def scanNatPages (st : NatState) : ℕ → FreeNids → ℕ → FreeNids × ℕ
  | 0, f, nid => (f, nid)
  | i + 1, f, nid =>
      let f₁ := if f.natBlockBitmap (natBlockOffset nid) then f else scanNatPage g st f nid
      let next := nid + (natEntryPerBlock - nid % natEntryPerBlock)
      scanNatPages st i f₁ (if g.maxNid ≤ next then 0 else next)

/-- `f2fs_build_free_nids`. -/
def buildFreeNids (st : NatState) (f : FreeNids) (sync mount hasMemory : Bool) : FreeNids :=
  let nid := if g.maxNid ≤ f.nextScanNid then 0 else f.nextScanNid
  if natEntryPerBlock ≤ f.nidCnt .freeNid then f
  else if !sync && !hasMemory then f
  else
    -- At the mount there is no use in the bitmaps yet.
    let f₁ := if mount then f else scanFreeNidBits g st f
    if !mount && decide (natEntryPerBlock ≤ f₁.nidCnt .freeNid) then f₁
    else
      let x := scanNatPages g st freeNidPages f₁ nid
      scanCursegCache st { x.1 with nextScanNid := x.2 }

/-! ## Allocation -/

/-- `f2fs_alloc_nid`, in at most so many rounds: the nid, if there is one. -/
def f2fsAllocNid (st : NatState) : (rounds : ℕ) → FreeNids → Option (Option ℕ × FreeNids)
  | 0, _ => none
  | rounds + 1, f =>
      if f.availableNids = 0 then some (none, f)
      else if f.nidCnt .freeNid ≠ 0 then
        let nid := f.freeNidList.headD 0
        let f₁ := moveFreeNid f nid .freeNid .preallocNid
        let f₂ := { f₁ with availableNids := f₁.availableNids - 1 }
        some (some nid, updateFreeNidBitmap f₂ nid false false)
      else f2fsAllocNid st rounds (buildFreeNids g st f true false true)

/-- `f2fs_alloc_nid_done`. -/
def f2fsAllocNidDone (f : FreeNids) (nid : ℕ) : FreeNids := innerRemoveFreeNid f nid .preallocNid

/-- `f2fs_alloc_nid_failed`. -/
def f2fsAllocNidFailed (f : FreeNids) (nid : ℕ) (hasMemory : Bool) : FreeNids :=
  if nid = 0 then f
  else
    let f₁ := if hasMemory then moveFreeNid f nid .preallocNid .freeNid
      else innerRemoveFreeNid f nid .preallocNid
    updateFreeNidBitmap { f₁ with availableNids := f₁.availableNids + 1 } nid true false

/-- `f2fs_try_to_free_nids`. -/
def f2fsTryToFreeNids : FreeNids → (nrShrink : ℕ) → FreeNids
  | f, 0 => f
  | f, nrShrink + 1 =>
      if f.nidCnt .freeNid ≤ maxFreeNids then f
      else
        match f.freeNidList with
        | [] => f
        | nid :: _ => f2fsTryToFreeNids (innerRemoveFreeNid f nid .freeNid) nrShrink

/-! ## The flush -/

/-- One round of `remove_nats_in_journal`.  A free nid in the journal will be counted again. -/
def removeNatInJournal (s : NodeManager) (x : ℕ × Recorded) : NodeManager :=
  let isDirty := (s.nat.cache x.1).any NatEntry.isDirty
  { nat := Hoit.removeNatInJournal s.nat x
    free :=
      if !isDirty && x.2.ni.blkAddr == nullAddr then
        { s.free with availableNids := s.free.availableNids - 1 }
      else s.free }

/-- `remove_nats_in_journal`. -/
def removeNatsInJournal (s : NodeManager) : NodeManager :=
  let s₁ := s.nat.journal.foldl removeNatInJournal s
  { s₁ with nat := { s₁.nat with journal := [] } }

/-- The loop body of `__flush_nat_entry_set`. -/
def flushNatEntry (toJournal : Bool) (s : NodeManager) (nid : ℕ) : NodeManager :=
  match s.nat.cache nid with
  | none => s
  | some ne =>
      let st := Hoit.flushNatEntry g toJournal s.nat nid
      { nat := st
        free :=
          if ne.info.ni.blkAddr = nullAddr then (addFreeNid st s.free nid false true).2
          else updateFreeNidBitmap s.free nid false false }

/-- `__flush_nat_entry_set`. -/
def flushNatEntrySet (natBits : Bool) (s : NodeManager) (b : ℕ) : NodeManager :=
  let set := (s.nat.sets b).getD ⟨0, []⟩
  let toJournal := !(natBits || !decide (set.entryCnt ≤ maxNatJentries s.nat))
  let s₁ := { s with nat := if toJournal then s.nat else getNextNatPage g s.nat b }
  let s₂ := set.entryList.foldl (flushNatEntry g toJournal) s₁
  if setCnt s₂.nat b = 0 then
    { s₂ with nat := { s₂.nat with sets := Function.update s₂.nat.sets b none } }
  else s₂

/-- `f2fs_flush_nat_entries`. -/
def f2fsFlushNatEntries (s : NodeManager) (natBits : Bool) : NodeManager :=
  if s.nat.dirtyNatCnt = 0 then { s with nat := { s.nat with freed := fun _ => false } }
  else
    let s₁ := if natBits || !decide (s.nat.dirtyNatCnt ≤ maxNatJentries s.nat) then
      removeNatsInJournal s else s
    let s₂ := (setsToFlush g s₁.nat).foldl (flushNatEntrySet g natBits) s₁
    { s₂ with nat := { s₂.nat with freed := fun _ => false } }

/-! ## Nodes -/

/-- What `f2fs_new_node_page` does to the NAT. -/
def f2fsNewNodePage (s : NodeManager) (nid ino : ℕ) : NodeManager :=
  { s with nat := setNodeAddr s.nat nid ⟨ino, nullAddr, 0⟩ newAddr false }

/-- `f2fs_get_node_info`, and then `set_node_addr`. -/
def moveNode (s : NodeManager) (nid : ℕ) (newBlkaddr : BitVec 32) (fsyncDone fill : Bool) :
    NodeManager :=
  let x := f2fsGetNodeInfo g s.nat nid fill
  { s with nat := setNodeAddr x.2 nid x.1 newBlkaddr fsyncDone }

/-- What `truncate_node` does to the NAT. -/
def truncateNode (s : NodeManager) (nid : ℕ) (fill : Bool) : NodeManager :=
  moveNode g s nid nullAddr false fill

inductive Errno where
  | eperm
  | enomem
  | einval
  | enospc
deriving DecidableEq

/-- What `f2fs_recover_inode_page` does to the node manager. -/
def f2fsRecoverInodePage (s : NodeManager) (ino : ℕ) (fill : Bool) :
    Except Errno Unit × NodeManager :=
  let x := f2fsGetNodeInfo g s.nat ino fill
  if x.1.blkAddr ≠ nullAddr then (.error .einval, { s with nat := x.2 })
  else
    (.ok (),
      { nat := setNodeAddr x.2 ino { x.1 with ino := ino } newAddr false
        free := removeFreeNid s.free ino })

/-- What `f2fs_recover_xattr_data` does to the node manager; `newErr` is how `f2fs_new_node_page`
fails, if it does. -/
def f2fsRecoverXattrData (s : NodeManager) (ino prevXnid rounds : ℕ) (newErr : Option Errno)
    (fill hasMemory : Bool) : Option (Except Errno Unit × NodeManager) :=
  let s₁ := if prevXnid = 0 then s else truncateNode g s prevXnid fill
  match f2fsAllocNid g s₁.nat rounds s₁.free with
  | none => none
  | some (none, f) => some (.error .enospc, { s₁ with free := f })
  | some (some newXnid, f) =>
      match newErr with
      | some e => some (.error e, { s₁ with free := f2fsAllocNidFailed f newXnid hasMemory })
      | none =>
          let s₂ := f2fsNewNodePage { s₁ with free := f } newXnid ino
          some (.ok (), { s₂ with free := f2fsAllocNidDone s₂.free newXnid })

/-! ## The mount -/

/-- What a mount finds. -/
structure MountImage where
  /-- The NAT area and the journal, and an empty cache. -/
  nat : NatState
  nextFreeNid : ℕ
  validNodeCount : BitVec 32
  nquotaFiles : BitVec 32
  /-- `enabled_nat_bits`. -/
  natBits : Bool
  fullNatBits : ℕ → Bool
  emptyNatBits : ℕ → Bool

/-- `init_node_manager` and `init_free_nid_cache`. -/
def initNodeManager (img : MountImage) : FreeNids where
  freeNidRoot := fun _ => none
  freeNidList := []
  nidCnt := fun _ => 0
  freeNidBitmap := fun _ _ => false
  natBlockBitmap := fun _ => false
  freeNidCount := fun _ => 0
  nextScanNid := img.nextFreeNid
  availableNids := BitVec.ofNat 32 g.maxNid - img.validNodeCount - img.nquotaFiles -
    BitVec.ofNat 32 reservedNodeNum

/-- `load_free_nid_bitmap`, for an empty NAT block. -/
def loadEmptyBlock (f : FreeNids) (i : ℕ) : FreeNids :=
  (List.range' (i * natEntryPerBlock) natEntryPerBlock).foldl
    (fun f nid => updateFreeNidBitmap f nid true true) (markScanned f i)

/-- `load_free_nid_bitmap`. -/
def loadFreeNidBitmap (img : MountImage) (f : FreeNids) : FreeNids :=
  if !img.natBits then f
  else
    let blocks := List.range g.natBlocks
    (blocks.filter img.fullNatBits).foldl markScanned
      ((blocks.filter img.emptyNatBits).foldl loadEmptyBlock f)

/-- `f2fs_build_node_manager`. -/
def f2fsBuildNodeManager (img : MountImage) : NodeManager :=
  ⟨img.nat,
    buildFreeNids g img.nat (loadFreeNidBitmap g img (initNodeManager g img)) true true true⟩

/-! ## Runs -/

inductive NidCall where
  | getNodeInfo (nid : ℕ) (fill : Bool)
  | tryToFreeNats (nrShrink : ℕ)
  | flushNatEntries (natBits : Bool)
  | syncMetaPages
  | buildFreeNids (sync hasMemory : Bool)
  | allocNid (rounds : ℕ)
  | allocNidDone (nid : ℕ)
  | allocNidFailed (nid : ℕ) (hasMemory : Bool)
  | tryToFreeNids (nrShrink : ℕ)
  | newNodePage (nid ino : ℕ)
  | truncateNode (nid : ℕ) (fill : Bool)
  /-- A node page is written back. -/
  | writeNode (nid : ℕ) (newBlkaddr : BitVec 32) (fsyncDone fill : Bool)
  | recoverInodePage (ino : ℕ) (fill : Bool)
  | recoverXattrData (ino prevXnid rounds : ℕ) (newErr : Option Errno) (fill hasMemory : Bool)
deriving DecidableEq

/-- The address that `f2fs_get_node_info` has for a node. -/
def nodeBlkaddr (s : NodeManager) (nid : ℕ) : BitVec 32 :=
  (f2fsGetNodeInfo g s.nat nid false).1.blkAddr

/-- A node that is there, and not about to be given up. -/
def LiveNode (s : NodeManager) (nid : ℕ) : Prop :=
  reservedNodeNum ≤ nid ∧ nid < g.maxNid ∧ nodeBlkaddr g s nid ≠ nullAddr ∧
    s.free.freeNidRoot nid ≠ some .preallocNid

/-- What the callers promise.  A nid that was allocated is used for a new node or not, and its
caller says so with `f2fs_alloc_nid_done` or `f2fs_alloc_nid_failed`; the node of such a nid is not
truncated before.  The inode that `f2fs_recover_inode_page` finds in the log got its nid before the
last checkpoint or was new then, so that it is not one that was freed since. -/
def NidPromise (s : NodeManager) : NidCall → Prop
  | .getNodeInfo nid _ => nid < g.maxNid
  | .flushNatEntries _ => s.nat.dirtyPages = []
  | .allocNidDone nid =>
      s.free.freeNidRoot nid = some .preallocNid ∧ nodeBlkaddr g s nid ≠ nullAddr
  | .allocNidFailed nid _ => nid ≠ 0 →
      s.free.freeNidRoot nid = some .preallocNid ∧ nodeBlkaddr g s nid = nullAddr
  | .newNodePage nid _ =>
      s.free.freeNidRoot nid = some .preallocNid ∧ nodeBlkaddr g s nid = nullAddr
  | .truncateNode nid _ => LiveNode g s nid
  | .writeNode nid newBlkaddr _ _ =>
      reservedNodeNum ≤ nid ∧ nid < g.maxNid ∧ nodeBlkaddr g s nid ≠ nullAddr ∧
        IsValidBlkaddr newBlkaddr
  | .recoverInodePage ino _ =>
      reservedNodeNum ≤ ino ∧ ino < g.maxNid ∧ s.free.freeNidRoot ino ≠ some .preallocNid ∧
        s.nat.freed ino = false
  | .recoverXattrData _ prevXnid _ _ _ _ => prevXnid ≠ 0 → LiveNode g s prevXnid
  | _ => True

instance (s : NodeManager) (a : NidCall) : Decidable (NidPromise g s a) := by
  cases a <;> unfold NidPromise <;> try unfold LiveNode
  all_goals try unfold IsValidBlkaddr
  all_goals infer_instance

/-- What a call does; there is no result if a loop needs more rounds. -/
def nidCall (s : NodeManager) : NidCall → Option NodeManager
  | .getNodeInfo nid fill => some { s with nat := (f2fsGetNodeInfo g s.nat nid fill).2 }
  | .tryToFreeNats nrShrink => some { s with nat := f2fsTryToFreeNats s.nat nrShrink }
  | .flushNatEntries natBits => some (f2fsFlushNatEntries g s natBits)
  | .syncMetaPages => some { s with nat := { s.nat with dirtyPages := [] } }
  | .buildFreeNids sync hasMemory =>
      some { s with free := buildFreeNids g s.nat s.free sync false hasMemory }
  | .allocNid rounds =>
      (f2fsAllocNid g s.nat rounds s.free).map fun x => { s with free := x.2 }
  | .allocNidDone nid => some { s with free := f2fsAllocNidDone s.free nid }
  | .allocNidFailed nid hasMemory =>
      some { s with free := f2fsAllocNidFailed s.free nid hasMemory }
  | .tryToFreeNids nrShrink => some { s with free := f2fsTryToFreeNids s.free nrShrink }
  | .newNodePage nid ino => some (f2fsNewNodePage s nid ino)
  | .truncateNode nid fill => some (truncateNode g s nid fill)
  | .writeNode nid newBlkaddr fsyncDone fill => some (moveNode g s nid newBlkaddr fsyncDone fill)
  | .recoverInodePage ino fill => some (f2fsRecoverInodePage g s ino fill).2
  | .recoverXattrData ino prevXnid rounds newErr fill hasMemory =>
      (f2fsRecoverXattrData g s ino prevXnid rounds newErr fill hasMemory).map Prod.snd

def nidStep (s : NodeManager) (a : NidCall) : Option NodeManager :=
  if NidPromise g s a then nidCall g s a else none

end Hoit.FreeNid
