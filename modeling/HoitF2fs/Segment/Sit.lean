import HoitF2fs.Lib.Journal
import HoitF2fs.Lib.Shadow
import HoitF2fs.Segment.FreeSegmap

/-!
# The segment information table

For each segment of the main area there is an entry in memory with the number of its valid blocks,
the map of them, the same as of the last checkpoint, and a map of the blocks that are not to be
discarded.  On the device there is a table of blocks with two copies each, selected by a bitmap and
overridden by the journal in the summary block of the cold data segment.

**The model.**
* `SitInfo` — the entries, everything that is counted beside them, and the table on the device.
* `updateSitEntry` — one block becomes valid or invalid.
* `f2fsFlushSitEntries` — the dirty entries, in sets of one block of the table each, go to the
  journal or to the other copy of their block.
* `buildSitEntries` — a mount reads them back.

A block is named by its number in the main area, `segno * 512 + offset`.
-/

namespace Hoit.Segment

open Bitmap

/-- The SIT area: two halves of `sitBlocks` blocks, each of which has room for the whole table. -/
structure SegGeometry extends SecGeometry where
  sitBaseAddr : ℕ
  sitBlocks : ℕ
  /-- `SIT_BLK_CNT`. -/
  fits : (segmentCountMain + 54) / 55 ≤ sitBlocks

/-- What the mount options and the device make of discards. -/
structure Options where
  /-- `test_opt(sbi, LFS)`. -/
  lfs : Bool
  /-- `test_opt(sbi, DISCARD)`. -/
  discard : Bool
  /-- `f2fs_discard_en`. -/
  discardEn : Bool

inductive CursegType where
  | hotData
  | warmData
  | coldData
  | hotNode
  | warmNode
  | coldNode
deriving DecidableEq

def CursegType.all : List CursegType := [hotData, warmData, coldData, hotNode, warmNode, coldNode]

/-- `IS_NODESEG`. -/
def CursegType.isNode : CursegType → Bool
  | hotNode | warmNode | coldNode => true
  | _ => false

def CursegType.code : CursegType → ℕ
  | hotData => 0
  | warmData => 1
  | coldData => 2
  | hotNode => 3
  | warmNode => 4
  | coldNode => 5

/-- The type that a number stands for, if it does. -/
def CursegType.ofCode (n : ℕ) : Option CursegType := all.find? fun t => t.code == n

/-- `struct seg_entry`. -/
structure SegEntry where
  type : CursegType
  validBlocks : ℕ
  ckptValidBlocks : ℕ
  curValidMap : ℕ → Bool
  ckptValidMap : ℕ → Bool
  discardMap : ℕ → Bool
  mtime : BitVec 64

/-- `struct f2fs_sit_entry`. -/
structure RawSit where
  vblocks : BitVec 16
  validMap : ℕ → Bool
  mtime : BitVec 64

/-- `struct discard_entry`: candidates of one segment. -/
structure DiscardEntry where
  segno : ℕ
  discardMap : ℕ → Bool

structure SitInfo where
  sentries : ℕ → SegEntry
  /-- `sec_entries`. -/
  secValidBlocks : ℕ → ℕ
  dirtySentriesBitmap : ℕ → Bool
  dirtySentries : ℕ
  writtenValidBlocks : ℕ
  discardBlks : ℕ
  journal : List (ℕ × RawSit)
  /-- `sit_bitmap`, and the blocks of the SIT area by their address. -/
  sit : Shadow.Pages (ℕ → RawSit)
  /-- `dcc_info->entry_list`. -/
  discardEntries : List DiscardEntry
  nrDiscards : ℕ
  /-- Some `f2fs_bug_on` has fired. -/
  bugOn : Bool

/-- `GET_SEGNO`. -/
def getSegno (blk : ℕ) : ℕ := blk / blocksPerSeg

/-- `GET_BLKOFF_FROM_SEG0`. -/
def getBlkoff (blk : ℕ) : ℕ := blk % blocksPerSeg

variable (g : SegGeometry) (o : Options)

/-! ## Updates -/

/-- `__mark_sit_entry_dirty`. -/
def markSitEntryDirty (s : SitInfo) (segno : ℕ) : SitInfo :=
  if s.dirtySentriesBitmap segno then s
  else
    { s with
      dirtySentriesBitmap := Function.update s.dirtySentriesBitmap segno true
      dirtySentries := s.dirtySentries + 1 }

/-- `__set_sit_entry_type`. -/
def setSitEntryType (s : SitInfo) (type : CursegType) (segno : ℕ) (modified : Bool) : SitInfo :=
  let s := { s with
    sentries := Function.update s.sentries segno { s.sentries segno with type } }
  if modified then markSitEntryDirty s segno else s

/-- `n + del`, where `del` is 0 if the bit was wrong. -/
def addDel (validate exist : Bool) (n : ℕ) : ℕ :=
  if validate then (if exist then n else n + 1) else (if exist then n - 1 else n)

/-- The part of `update_sit_entry` that concerns the entry itself. -/
def SegEntry.update (se : SegEntry) (off : ℕ) (validate : Bool) (mtime : BitVec 64) : SegEntry :=
  let exist := se.curValidMap off
  -- don't overwrite by SSR to keep node chain
  let node := validate && se.type.isNode
  let ckptValidMap := if node then Function.update se.ckptValidMap off true else se.ckptValidMap
  let ckptValidBlocks :=
    if node && !se.ckptValidMap off then se.ckptValidBlocks + 1 else se.ckptValidBlocks
  { se with
    mtime
    validBlocks := addDel validate exist se.validBlocks
    curValidMap := Function.update se.curValidMap off validate
    discardMap := if o.discardEn then Function.update se.discardMap off validate else se.discardMap
    ckptValidMap
    ckptValidBlocks :=
      if ckptValidMap off then ckptValidBlocks else addDel validate exist ckptValidBlocks }

/-- `update_sit_entry`. -/
def updateSitEntry (s : SitInfo) (blk : ℕ) (validate : Bool) (mtime : BitVec 64) : SitInfo :=
  let segno := getSegno blk
  let off := getBlkoff blk
  let se := s.sentries segno
  let exist := se.curValidMap off
  let s₁ := { s with
    sentries := Function.update s.sentries segno (se.update o off validate mtime)
    discardBlks :=
      if o.discardEn && se.discardMap off != validate then
        (if validate then s.discardBlks - 1 else s.discardBlks + 1)
      else s.discardBlks
    bugOn := s.bugOn || exist == validate ||
      (if validate then blocksPerSeg ≤ se.validBlocks else se.validBlocks = 0) }
  let s₂ := markSitEntryDirty s₁ segno
  { s₂ with
    writtenValidBlocks := addDel validate exist s₂.writtenValidBlocks
    secValidBlocks :=
      if 1 < g.segsPerSec then
        Function.update s₂.secValidBlocks (segno / g.segsPerSec)
          (addDel validate exist (s₂.secValidBlocks (segno / g.segsPerSec)))
      else s₂.secValidBlocks }

/-! ## Discard candidates -/

/-- `struct cp_control`. -/
structure CpControl where
  /-- `reason & CP_DISCARD`. -/
  force : Bool
  trimStart : ℕ
  trimEnd : ℕ
  trimMinlen : ℕ

/-- `dcc_info->max_discards`. -/
def maxDiscards : ℕ := g.segmentCountMain * blocksPerSeg

/-- The candidates: blocks that are in neither map, or blocks that were valid at the last
checkpoint and no longer are. -/
def dmap (force : Bool) (se : SegEntry) (off : ℕ) : Bool :=
  if force then !se.ckptValidMap off && !se.discardMap off
  else (se.curValidMap off ^^ se.ckptValidMap off) && se.ckptValidMap off

/-- The loop of `add_discard_addrs` from offset `pos` on: the candidates that are taken, and
`nr_discards`.  Each round ends further right, so `blocks_per_seg` rounds are enough. -/
def addDiscardLoop (cpc : CpControl) (map : ℕ → Bool) :
    ℕ → ℕ → (ℕ → Bool) × ℕ → (ℕ → Bool) × ℕ
  | 0, _, x => x
  | k + 1, pos, x =>
      if cpc.force || decide (x.2 ≤ maxDiscards g) then
        let start := findNextBit map blocksPerSeg pos
        if blocksPerSeg ≤ start then x
        else
          let stop := findNextZeroBit map blocksPerSeg (start + 1)
          if cpc.force && start != 0 && stop != blocksPerSeg &&
              decide (stop - start < cpc.trimMinlen) then
            addDiscardLoop cpc map k (stop + 1) x
          else
            addDiscardLoop cpc map k (stop + 1)
              (fun i => x.1 i || (decide (start ≤ i) && decide (i < stop)), x.2 + (stop - start))
      else x

/-- `add_discard_addrs` on segment `segno`. -/
def addDiscardAddrs (cpc : CpControl) (s : SitInfo) (segno : ℕ) : SitInfo :=
  let se := s.sentries segno
  if se.validBlocks = blocksPerSeg || !o.discardEn then s
  else if !cpc.force && (!o.discard || se.validBlocks == 0 || decide (maxDiscards g ≤ s.nrDiscards))
    then s
  else
    let x := addDiscardLoop g cpc (dmap cpc.force se) blocksPerSeg 0 (fun _ => false, s.nrDiscards)
    { s with
      discardEntries :=
        -- An entry is only made when the first candidates are taken.
        if x.2 = s.nrDiscards then s.discardEntries else s.discardEntries ++ [⟨segno, x.1⟩]
      nrDiscards := x.2 }

/-! ## The table on the device -/

/-- `SIT_ENTRY_PER_BLOCK`. -/
def sitEntryPerBlock : ℕ := 55

/-- `SIT_JOURNAL_ENTRIES`. -/
def sitJournalEntries : ℕ := 6

/-- `SIT_BLOCK_OFFSET`. -/
def sitBlockOffset (segno : ℕ) : ℕ := segno / sitEntryPerBlock

/-- `START_SEGNO`. -/
def startSegno (segno : ℕ) : ℕ := sitBlockOffset segno * sitEntryPerBlock

/-- `MAX_SIT_JENTRIES`. -/
def maxSitJentries (s : SitInfo) : ℕ := sitJournalEntries - s.journal.length

def sitCopyAddr (v : Bool) (b : ℕ) : ℕ := g.sitBaseAddr + b + (if v then g.sitBlocks else 0)

/-- `current_sit_addr`. -/
def currentSitAddr (s : SitInfo) (segno : ℕ) : ℕ :=
  let blkAddr := g.sitBaseAddr + sitBlockOffset segno
  if s.sit.ver (sitBlockOffset segno) then blkAddr + g.sitBlocks else blkAddr

/-- `next_sit_addr`. -/
def nextSitAddr (blockAddr : ℕ) : ℕ :=
  let a := blockAddr - g.sitBaseAddr
  (if a < g.sitBlocks then a + g.sitBlocks else a - g.sitBlocks) + g.sitBaseAddr

/-- `GET_SIT_VBLOCKS`. -/
def RawSit.validBlocks (rs : RawSit) : ℕ := (rs.vblocks &&& 0x3ff#16).toNat

/-- `GET_SIT_TYPE`. -/
def RawSit.type (rs : RawSit) : ℕ := ((rs.vblocks &&& ~~~0x3ff#16) >>> 10).toNat

/-- `__seg_info_to_raw_sit`. -/
def segInfoToRawSit (se : SegEntry) : RawSit where
  vblocks := BitVec.ofNat 16 (se.type.code <<< 10 ||| se.validBlocks)
  validMap := se.curValidMap
  mtime := se.mtime

/-- What `seg_info_to_raw_sit` does to the entry in memory. -/
def SegEntry.checkpointed (se : SegEntry) : SegEntry :=
  { se with ckptValidMap := se.curValidMap, ckptValidBlocks := se.validBlocks }

/-- An entry of zeros. -/
def zeroSit : RawSit := ⟨0, fun _ => false, 0⟩

/-- `seg_info_to_sit_page`. -/
def segInfoToSitPage (s : SitInfo) (start : ℕ) (i : ℕ) : RawSit :=
  if start + i < min (start + sitEntryPerBlock) g.segmentCountMain then
    segInfoToRawSit (s.sentries (start + i))
  else zeroSit

/-- `get_next_sit_page`: the whole block is written anew to its other place, which becomes
current. -/
def getNextSitPage (s : SitInfo) (start : ℕ) : SitInfo :=
  let b := sitBlockOffset start
  let dstOff := nextSitAddr g (currentSitAddr g s start)
  { s with
    sit := ⟨Function.update s.sit.ver b (!s.sit.ver b),
      Function.update s.sit.dev dstOff (segInfoToSitPage g s start)⟩ }

/-- The entry of a segment in its block. -/
def sitBlockEntry (s : SitInfo) (segno : ℕ) : RawSit :=
  s.sit.dev (currentSitAddr g s segno) (segno % sitEntryPerBlock)

/-- What the device says about a segment: the journal, and then the block. -/
def persistentSit (s : SitInfo) (segno : ℕ) : RawSit :=
  (Journal.get s.journal segno).getD (sitBlockEntry g s segno)

/-! ## The flush -/

/-- `struct sit_entry_set`. -/
structure SitEntrySet where
  startSegno : ℕ
  entryCnt : ℕ
deriving DecidableEq

/-- `adjust_sit_entry_set`: the set moves up behind the smaller ones that follow it. -/
def adjustSitEntrySet (ses : SitEntrySet) (rest : List SitEntrySet) : List SitEntrySet :=
  rest.takeWhile (fun next => decide (next.entryCnt < ses.entryCnt)) ++ ses ::
    rest.dropWhile fun next => decide (next.entryCnt < ses.entryCnt)

/-- `add_sit_entry`. -/
def addSitEntry (head : List SitEntrySet) (segno : ℕ) : List SitEntrySet :=
  match head.dropWhile (fun ses => ses.startSegno != startSegno segno) with
  | [] => ⟨startSegno segno, 1⟩ :: head
  | ses :: rest =>
      head.takeWhile (fun ses => ses.startSegno != startSegno segno) ++
        adjustSitEntrySet ⟨ses.startSegno, ses.entryCnt + 1⟩ rest

/-- The dirty segments with `lo ≤ segno < hi`, in order. -/
def dirtySegs (s : SitInfo) (lo hi : ℕ) : List ℕ :=
  (List.range' lo (hi - lo)).filter fun segno => s.dirtySentriesBitmap segno

/-- `add_sits_in_set`. -/
def addSitsInSet (s : SitInfo) : List SitEntrySet :=
  (dirtySegs s 0 g.segmentCountMain).foldl addSitEntry []

/-- One round of `remove_sits_in_journal`. -/
def removeSitInJournal (x : SitInfo × List SitEntrySet) (segno : ℕ) :
    SitInfo × List SitEntrySet :=
  (markSitEntryDirty x.1 segno,
    if x.1.dirtySentriesBitmap segno then x.2 else addSitEntry x.2 segno)

/-- `remove_sits_in_journal`. -/
def removeSitsInJournal (s : SitInfo) (head : List SitEntrySet) : SitInfo × List SitEntrySet :=
  let x := (Journal.keys s.journal).foldl removeSitInJournal (s, head)
  ({ x.1 with journal := [] }, x.2)

/-- The entry is copied to the journal, if there is room. -/
def writeToSitJournal (s : SitInfo) (segno : ℕ) (rs : RawSit) : SitInfo :=
  if segno ∈ Journal.keys s.journal ∨ 1 ≤ maxSitJentries s then
    { s with journal := Journal.put s.journal segno rs }
  else { s with bugOn := true }

/-- The entry is copied to the current copy of its block. -/
def writeToSitBlock (s : SitInfo) (segno : ℕ) (rs : RawSit) : SitInfo :=
  let a := currentSitAddr g s segno
  { s with
    sit := { s.sit with
      dev := Function.update s.sit.dev a
        (Function.update (s.sit.dev a) (segno % sitEntryPerBlock) rs) } }

/-- The inner loop body of `f2fs_flush_sit_entries`. -/
def flushSitEntry (cpc : CpControl) (toJournal : Bool) (s : SitInfo) (segno : ℕ) : SitInfo :=
  let se := s.sentries segno
  let s₁ := if cpc.force then s else addDiscardAddrs g o cpc s segno
  let s₂ := if toJournal then writeToSitJournal s₁ segno (segInfoToRawSit se)
    else writeToSitBlock g s₁ segno (segInfoToRawSit se)
  { s₂ with
    sentries := Function.update s₂.sentries segno se.checkpointed
    dirtySentriesBitmap := Function.update s₂.dirtySentriesBitmap segno false
    dirtySentries := s₂.dirtySentries - 1 }

/-- The outer loop body; `x.2` is `to_journal`. -/
def flushSitSet (cpc : CpControl) (x : SitInfo × Bool) (ses : SitEntrySet) : SitInfo × Bool :=
  let stop := min (ses.startSegno + sitEntryPerBlock) g.segmentCountMain
  let toJournal := x.2 && decide (ses.entryCnt ≤ maxSitJentries x.1)
  let segs := dirtySegs x.1 ses.startSegno stop
  let s₁ := if toJournal then x.1 else getNextSitPage g x.1 ses.startSegno
  let s₂ := segs.foldl (flushSitEntry g o cpc toJournal) s₁
  ({ s₂ with bugOn := s₂.bugOn || ses.entryCnt != segs.length }, toJournal)

/-- The sets, once it is clear whether the journal has to be emptied. -/
def startFlush (s : SitInfo) : SitInfo × List SitEntrySet :=
  if s.dirtySentries ≤ maxSitJentries s then (s, addSitsInSet g s)
  else removeSitsInJournal s (addSitsInSet g s)

/-- `f2fs_flush_sit_entries`, up to `out`. -/
def flushSits (s : SitInfo) (cpc : CpControl) : SitInfo :=
  if s.dirtySentries = 0 then s
  else
    let x := startFlush g s
    let s₂ := (x.2.foldl (flushSitSet g o cpc) (x.1, true)).1
    { s₂ with bugOn := s₂.bugOn || s₂.dirtySentries != 0 }

/-- `f2fs_flush_sit_entries`, up to the prefree segments. -/
def f2fsFlushSitEntries (s : SitInfo) (cpc : CpControl) : SitInfo :=
  let s₁ := flushSits g o s cpc
  if cpc.force then
    (List.range' cpc.trimStart (cpc.trimEnd + 1 - cpc.trimStart)).foldl (addDiscardAddrs g o cpc) s₁
  else s₁

/-! ## The mount -/

/-- `check_block_count`: `segno` is below `TOTAL_SEGS`. -/
def checkBlockCount (rs : RawSit) : Bool := decide (rs.validBlocks ≤ blocksPerSeg)

/-- `seg_info_from_raw_sit`, and the map of blocks not to be discarded. -/
def segInfoFromRawSit (trimmed : Bool) (rs : RawSit) (type : CursegType) : SegEntry where
  type
  validBlocks := rs.validBlocks
  ckptValidBlocks := rs.validBlocks
  curValidMap := rs.validMap
  ckptValidMap := rs.validMap
  discardMap := if trimmed then fun _ => true else rs.validMap
  mtime := rs.mtime

/-- What `build_sit_entries` fills in. -/
structure SitTable where
  sentries : ℕ → Option SegEntry
  secValidBlocks : ℕ → ℕ
  discardBlks : ℕ

/-- One round of either loop: `old` is the number of valid blocks that was counted before. -/
def readSit (trimmed : Bool) (x : SitTable) (segno : ℕ) (rs : RawSit) (old : ℕ) (first : Bool) :
    Option SitTable :=
  if checkBlockCount rs then
    (CursegType.ofCode rs.type).map fun type =>
      { sentries := Function.update x.sentries segno (some (segInfoFromRawSit trimmed rs type))
        secValidBlocks :=
          if 1 < g.segsPerSec then
            Function.update x.secValidBlocks (segno / g.segsPerSec)
              (x.secValidBlocks (segno / g.segsPerSec) + rs.validBlocks - old)
          else x.secValidBlocks
        discardBlks :=
          if o.discardEn && !trimmed then
            (if first then x.discardBlks + (blocksPerSeg - rs.validBlocks)
              else x.discardBlks + old - rs.validBlocks)
          else x.discardBlks }
  else none

/-- `build_sit_entries`: the blocks of the table first, and then the journal over them. -/
def buildSitEntries (trimmed : Bool) (s : SitInfo) : Option SitTable :=
  let fromBlocks := (List.range g.segmentCountMain).foldl
    (fun x segno => x.bind fun x => readSit g o trimmed x segno (sitBlockEntry g s segno) 0 true)
    (some ⟨fun _ => none, fun _ => 0, 0⟩)
  s.journal.foldl
    (fun x e => x.bind fun x =>
      if e.1 < g.segmentCountMain then
        readSit g o trimmed x e.1 e.2 ((x.sentries e.1).elim 0 SegEntry.validBlocks) false
      else none)
    fromBlocks

end Hoit.Segment
