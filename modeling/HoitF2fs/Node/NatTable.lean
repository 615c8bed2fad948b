import HoitF2fs.Lib.Journal
import HoitF2fs.Lib.Shadow
import HoitF2fs.Lib.Transition
import HoitF2fs.Nvm.Dio

/-!
# The node address table

The NAT maps a node id to the inode it belongs to, its block address and its version.  On the
device it is a table of blocks with two copies each, of which `nat_bitmap` selects one, overridden
by the journal in the summary block of the hot data segment.  In memory there is a cache over it:
a radix tree of entries, of which the clean ones are on one list and the dirty ones on a list for
each NAT block (a *set*, with a count), except for the preallocated ones, which are on none.

**The model.**
* `NatState` — all of this.  The ghost `recorded` is the map that the NAT is supposed to be, with
  a stamp on each entry that says how often the node has been recorded; entries in the journal
  and in NAT blocks carry the stamp of what they are a copy of.  `bugOn` says that some
  `f2fs_bug_on` has fired.
* `setNodeAddr`, `f2fsGetNodeInfo`, `f2fsTryToFreeNats`, `f2fsFlushNatEntries` — the code.  What
  a flush does to free nids is in `FreeNid`.
* `natStep` — the calls, with what their callers promise.  A call is one step; the lock that
  `f2fs_get_node_info` gives up before it fills the cache is not followed.
-/

namespace Hoit

open Transition

/-- The size and place of the NAT.  `nat_blocks` is a whole number of segments. -/
structure NatGeometry where
  natBlkaddr : ℕ
  natSegs : ℕ

variable (g : NatGeometry)

def NatGeometry.natBlocks : ℕ := g.natSegs * blocksPerSeg

def natEntryPerBlock : ℕ := 455

def NatGeometry.maxNid : ℕ := natEntryPerBlock * g.natBlocks

/-- `NAT_BLOCK_OFFSET`. -/
def natBlockOffset (nid : ℕ) : ℕ := nid / natEntryPerBlock

/-- `NAT_JOURNAL_ENTRIES`. -/
def natJournalEntries : ℕ := 38

/-- `struct node_info`, less the node id, by which it is found, and the flags. -/
structure NodeInfo where
  ino : ℕ
  blkAddr : BitVec 32
  version : BitVec 8
deriving DecidableEq

/-- What is recorded for a node, and as how many-eth. -/
structure Recorded where
  ni : NodeInfo
  stamp : ℕ
deriving DecidableEq

/-- `struct nat_entry`, with its flags. -/
structure NatEntry where
  info : Recorded
  isCheckpointed : Bool
  hasFsyncedInode : Bool
  hasLastFsync : Bool
  isDirty : Bool
  isPrealloc : Bool
deriving DecidableEq

/-- `struct nat_entry_set`. -/
structure NatEntrySet where
  entryCnt : ℕ
  entryList : List ℕ
deriving DecidableEq

structure NatState where
  /-- `nat_root`. -/
  cache : ℕ → Option NatEntry
  /-- The list of clean entries. -/
  natEntries : List ℕ
  /-- `nat_set_root`. -/
  sets : ℕ → Option NatEntrySet
  dirtyNatCnt : ℕ
  journal : List (ℕ × Recorded)
  /-- `nat_bitmap`, and the blocks of the NAT area by their address. -/
  nat : Shadow.Pages (ℕ → Recorded)
  /-- The NAT pages that are dirty in the META mapping. -/
  dirtyPages : List ℕ
  recorded : ℕ → Recorded
  /-- The nodes that were freed since the last flush. -/
  freed : ℕ → Bool
  bugOn : Bool

/-! ## NAT blocks -/

/-- The address of a copy of a NAT block: the copies of a segment's blocks follow the segment. -/
def natCopyAddr (v : Bool) (b : ℕ) : ℕ :=
  g.natBlkaddr + (b <<< 1) - (b &&& (blocksPerSeg - 1)) + (if v then blocksPerSeg else 0)

/-- `current_nat_addr`. -/
def currentNatAddr (st : NatState) (b : ℕ) : ℕ :=
  let blockAddr := g.natBlkaddr + (b <<< 1) - (b &&& (blocksPerSeg - 1))
  if st.nat.ver b then blockAddr + blocksPerSeg else blockAddr

/-- `next_nat_addr`. -/
def nextNatAddr (blockAddr : ℕ) : ℕ := ((blockAddr - g.natBlkaddr) ^^^ (1 <<< 9)) + g.natBlkaddr

/-- `get_next_nat_page`: the current copy of the block is copied to the other place, which becomes
current. -/
def getNextNatPage (st : NatState) (b : ℕ) : NatState :=
  let srcOff := currentNatAddr g st b
  let dstOff := nextNatAddr g srcOff
  { st with
    nat := ⟨Function.update st.nat.ver b (!st.nat.ver b),
      Function.update st.nat.dev dstOff (st.nat.dev srcOff)⟩
    dirtyPages := dstOff :: st.dirtyPages
    bugOn := st.bugOn || srcOff ∈ st.dirtyPages }

/-- The entry of a node in its NAT block. -/
def natBlockEntry (st : NatState) (nid : ℕ) : Recorded :=
  st.nat.dev (currentNatAddr g st (natBlockOffset nid)) (nid % natEntryPerBlock)

/-- What the device says about a node: the journal, and then the NAT block. -/
def persistentNat (st : NatState) (nid : ℕ) : Recorded :=
  (Journal.get st.journal nid).getD (natBlockEntry g st nid)

/-! ## The cache -/

/-- `nat_reset_flag`. -/
def NatEntry.resetFlag (e : NatEntry) : NatEntry :=
  { e with isCheckpointed := true, hasFsyncedInode := false, hasLastFsync := true }

/-- `__alloc_nat_entry` and the copy of what is known about the node. -/
def allocNatEntry (r : Recorded) : NatEntry :=
  NatEntry.resetFlag ⟨r, false, false, false, false, false⟩

/-- `__init_nat_entry`. -/
def initNatEntry (st : NatState) (nid : ℕ) (e : NatEntry) : NatState :=
  { st with
    cache := Function.update st.cache nid (some e)
    natEntries := st.natEntries ++ [nid] }

/-- `__set_nat_cache_dirty`, on the entry `ne` of the cache. -/
def setNatCacheDirty (st : NatState) (nid : ℕ) (ne : NatEntry) : NatState :=
  let b := natBlockOffset nid
  let newNe := ne.info.ni.blkAddr == newAddr
  let head := (st.sets b).getD ⟨0, []⟩
  { st with
    cache := Function.update st.cache nid (some { ne with isPrealloc := newNe, isDirty := true })
    dirtyNatCnt := if ne.isDirty then st.dirtyNatCnt else st.dirtyNatCnt + 1
    natEntries := st.natEntries.erase nid
    sets :=
      if newNe then
        Function.update st.sets b
          ((st.sets b).map fun s => { s with entryList := s.entryList.erase nid })
      else
        Function.update st.sets b (some
          { entryCnt := if ne.isPrealloc || !ne.isDirty then head.entryCnt + 1 else head.entryCnt
            entryList := head.entryList.erase nid ++ [nid] }) }

/-- `inc_node_version`, where a node is removed. -/
def nextVersion (ni : NodeInfo) (newBlkaddr : BitVec 32) : BitVec 8 :=
  if ni.blkAddr ≠ newAddr ∧ newBlkaddr = nullAddr then ni.version + 1 else ni.version

/-- What `set_node_addr` records for a node of which `ni` is known. -/
def NodeInfo.moved (ni : NodeInfo) (newBlkaddr : BitVec 32) : NodeInfo :=
  ⟨ni.ino, newBlkaddr, nextVersion ni newBlkaddr⟩

/-- The marks that `set_node_addr` leaves in the entry of the inode. -/
def markFsync (st : NatState) (nid ino : ℕ) (fsyncDone : Bool) : NatState :=
  match st.cache ino with
  | none => st
  | some e =>
      { st with
        cache := Function.update st.cache ino (some
          { e with
            hasFsyncedInode := e.hasFsyncedInode || (fsyncDone && nid == ino)
            hasLastFsync := fsyncDone }) }

/-- The entry that `set_node_addr` works on, and whether one of the checks up to there fails. -/
def natEntryFor (st : NatState) (nid : ℕ) (ni : NodeInfo) (newBlkaddr : BitVec 32) :
    NatState × NatEntry × Bool :=
  match st.cache nid with
  | none =>
      let e := allocNatEntry ⟨ni, (st.recorded nid).stamp⟩
      (initNatEntry st nid e, e, ni.blkAddr == newAddr)
  | some e =>
      if newBlkaddr = newAddr then
        (st, { e with info := { e.info with ni := ni } }, ni.blkAddr != nullAddr)
      else (st, e, false)

/-- The rest of `set_node_addr`, on the entry `e` of the cache. -/
def changeAddr (st : NatState) (nid : ℕ) (e : NatEntry) (bug : Bool) (ni : NodeInfo)
    (newBlkaddr : BitVec 32) : NatState :=
  let addr := e.info.ni.blkAddr
  let stamp := (st.recorded nid).stamp + 1
  setNatCacheDirty
    { st with
      recorded := Function.update st.recorded nid ⟨ni.moved newBlkaddr, stamp⟩
      freed := Function.update st.freed nid (st.freed nid || newBlkaddr == nullAddr)
      bugOn := st.bugOn || bug || addr != ni.blkAddr ||
        ((addr == nullAddr && newBlkaddr == nullAddr) ||
        (addr == newAddr && newBlkaddr == newAddr) ||
        (decide (IsValidBlkaddr addr) && newBlkaddr == newAddr)) } nid
    -- Only an address that is not valid takes the mark of the checkpoint away.
    { e with
      info := ⟨e.info.ni.moved newBlkaddr, stamp⟩
      isCheckpointed := e.isCheckpointed && decide (IsValidBlkaddr newBlkaddr) }

/-- `set_node_addr`. -/
def setNodeAddr (st : NatState) (nid : ℕ) (ni : NodeInfo) (newBlkaddr : BitVec 32)
    (fsyncDone : Bool) : NatState :=
  let x := natEntryFor st nid ni newBlkaddr
  markFsync (changeAddr x.1 nid x.2.1 x.2.2 ni newBlkaddr) nid ni.ino fsyncDone

/-- `f2fs_get_node_info`; `fill` is whether there is memory for the cache entry. -/
def f2fsGetNodeInfo (st : NatState) (nid : ℕ) (fill : Bool) : NodeInfo × NatState :=
  match st.cache nid with
  | some e => (e.info.ni, st)
  | none =>
      let ne := persistentNat g st nid
      (ne.ni, if fill then initNatEntry st nid (allocNatEntry ne) else st)

/-- `__del_from_nat_cache`. -/
def delFromNatCache (st : NatState) (nid : ℕ) : NatState :=
  { st with
    cache := Function.update st.cache nid none
    natEntries := st.natEntries.erase nid }

/-- `f2fs_try_to_free_nats`: the oldest clean entries go. -/
def f2fsTryToFreeNats : NatState → ℕ → NatState
  | st, 0 => st
  | st, nrShrink + 1 =>
      match st.natEntries with
      | [] => st
      | ne :: _ => f2fsTryToFreeNats (delFromNatCache st ne) nrShrink

/-! ## The flush -/

/-- `MAX_NAT_JENTRIES`. -/
def maxNatJentries (st : NatState) : ℕ := natJournalEntries - st.journal.length

/-- One round of `remove_nats_in_journal`. -/
def removeNatInJournal (st : NatState) (x : ℕ × Recorded) : NatState :=
  match st.cache x.1 with
  | some ne => setNatCacheDirty st x.1 ne
  | none => setNatCacheDirty (initNatEntry st x.1 (allocNatEntry x.2)) x.1 (allocNatEntry x.2)

/-- `remove_nats_in_journal`. -/
def removeNatsInJournal (st : NatState) : NatState :=
  { st.journal.foldl removeNatInJournal st with journal := [] }

/-- `__adjust_nat_entry_set`: smaller sets come first, except that those which have no room in the
journal go to the end as they come. -/
def adjustNatEntrySet (cnt : ℕ → ℕ) (max b : ℕ) (head : List ℕ) : List ℕ :=
  if max ≤ cnt b then head ++ [b]
  else head.takeWhile (fun cur => cnt cur < cnt b) ++ b ::
    head.dropWhile (fun cur => cnt cur < cnt b)

/-- The number of entries of a set, as its head counts them. -/
def setCnt (st : NatState) (b : ℕ) : ℕ := ((st.sets b).getD ⟨0, []⟩).entryCnt

/-- The sets in the order in which they are flushed.  The gang lookup finds them by number. -/
def setsToFlush (st : NatState) : List ℕ :=
  ((List.range g.natBlocks).filter fun b => (st.sets b).isSome).foldl
    (fun head b => adjustNatEntrySet (setCnt st) (maxNatJentries st) b head) []

/-- `__clear_nat_cache_dirty`, on the entry `ne` of the cache. -/
def clearNatCacheDirty (st : NatState) (nid : ℕ) (ne : NatEntry) : NatState :=
  let b := natBlockOffset nid
  { st with
    cache := Function.update st.cache nid (some { ne with isDirty := false })
    natEntries := st.natEntries ++ [nid]
    sets := Function.update st.sets b
      ((st.sets b).map fun s => ⟨s.entryCnt - 1, s.entryList.erase nid⟩)
    dirtyNatCnt := st.dirtyNatCnt - 1 }

/-- The entry is copied to the journal, if there is room. -/
def writeToJournal (st : NatState) (nid : ℕ) (r : Recorded) : NatState :=
  if nid ∈ Journal.keys st.journal ∨ 1 ≤ maxNatJentries st then
    { st with journal := Journal.put st.journal nid r }
  else { st with bugOn := true }

/-- The entry is copied to the current copy of its NAT block. -/
def writeToBlock (st : NatState) (nid : ℕ) (r : Recorded) : NatState :=
  let a := currentNatAddr g st (natBlockOffset nid)
  { st with
    nat := { st.nat with
      dev := Function.update st.nat.dev a
        (Function.update (st.nat.dev a) (nid % natEntryPerBlock) r) } }

/-- The loop body of `__flush_nat_entry_set`. -/
def flushNatEntry (toJournal : Bool) (st : NatState) (nid : ℕ) : NatState :=
  match st.cache nid with
  | none => st
  | some ne =>
      let st₁ := { st with bugOn := st.bugOn || ne.info.ni.blkAddr == newAddr }
      let st₂ := if toJournal then writeToJournal st₁ nid ne.info else writeToBlock g st₁ nid ne.info
      clearNatCacheDirty st₂ nid ne.resetFlag

/-- `__flush_nat_entry_set`. -/
def flushNatEntrySet (natBits : Bool) (st : NatState) (b : ℕ) : NatState :=
  let set := (st.sets b).getD ⟨0, []⟩
  let toJournal := !(natBits || !decide (set.entryCnt ≤ maxNatJentries st))
  let st₁ := if toJournal then st else getNextNatPage g st b
  let st₂ := set.entryList.foldl (flushNatEntry g toJournal) st₁
  if setCnt st₂ b = 0 then { st₂ with sets := Function.update st₂.sets b none } else st₂

/-- `f2fs_flush_nat_entries`; `natBits` is `enabled_nat_bits` for this checkpoint. -/
def f2fsFlushNatEntries (st : NatState) (natBits : Bool) : NatState :=
  if st.dirtyNatCnt = 0 then { st with freed := fun _ => false }
  else
    let st₁ := if natBits || !decide (st.dirtyNatCnt ≤ maxNatJentries st) then
      removeNatsInJournal st else st
    { (setsToFlush g st₁).foldl (flushNatEntrySet g natBits) st₁ with freed := fun _ => false }

/-! ## Runs -/

inductive NatStep where
  | setNodeAddr (nid : ℕ) (ni : NodeInfo) (newBlkaddr : BitVec 32) (fsyncDone : Bool)
  | getNodeInfo (nid : ℕ) (fill : Bool)
  | tryToFreeNats (nrShrink : ℕ)
  | flush (natBits : Bool)
  /-- `f2fs_sync_meta_pages`, in the checkpoint that has flushed the NAT. -/
  | syncMetaPages
deriving DecidableEq

/-- What the callers of `set_node_addr` promise.  A node is created on a free nid that was not
given back since the last checkpoint; any other call is about a node that exists, and `ni` is what
`f2fs_get_node_info` says about it. -/
def CallerPromise (st : NatState) (nid : ℕ) (ni : NodeInfo) (newBlkaddr : BitVec 32) : Prop :=
  nid < g.maxNid ∧
    if newBlkaddr = newAddr then
      (st.recorded nid).ni.blkAddr = nullAddr ∧ ni.blkAddr = nullAddr ∧ st.freed nid = false
    else (st.recorded nid).ni.blkAddr ≠ nullAddr ∧ ni = (st.recorded nid).ni

instance (st : NatState) (nid : ℕ) (ni : NodeInfo) (newBlkaddr : BitVec 32) :
    Decidable (CallerPromise g st nid ni newBlkaddr) := by
  unfold CallerPromise
  infer_instance

def natStep (st : NatState) : NatStep → Option NatState
  | .setNodeAddr nid ni newBlkaddr fsyncDone =>
      if CallerPromise g st nid ni newBlkaddr then
        some (setNodeAddr st nid ni newBlkaddr fsyncDone)
      else none
  | .getNodeInfo nid fill => if nid < g.maxNid then some (f2fsGetNodeInfo g st nid fill).2 else none
  | .tryToFreeNats nrShrink => some (f2fsTryToFreeNats st nrShrink)
  -- A checkpoint writes the NAT pages of the last one back before it is over.
  | .flush natBits => if st.dirtyPages = [] then some (f2fsFlushNatEntries g st natBits) else none
  | .syncMetaPages => some { st with dirtyPages := [] }

end Hoit
