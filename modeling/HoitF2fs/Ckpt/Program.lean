import HoitF2fs.Ckpt.Blocks

/-!
# The two checkpoint writers, store by store

`sbi->ckpt` points into one of the two packs in NVM (`s`); a checkpoint writes the pack that is
not `cur_cp_pack` (`t`), in NVM (`bnvm_do_checkpoint`) or as pages of the META area
(`do_checkpoint`).  Both are given as the list of their stores, in the order of the source, so
that what happens between two of them can be spoken about.

`data_sum_blocks` is a local variable of the source; here every store that needs it counts again,
in the header `s`, whose allocation types nothing in between changes.

* `prepareCpBlock`, `bumpVersion` — what `f2fs_write_checkpoint` stores before it calls a writer.
* `doCheckpoint` — **all** header stores go to `s`, and the pages are copied from there.
* `bnvmDoCheckpoint` — the fields, the checksum and the version of the NVM super block go to `t`,
  the flags and the bitmaps to `s`; then the header `s` is copied over `t`.
-/

namespace Hoit

open ByteStore

/-- A checkpoint pack in NVM, or the META pages that are being written. -/
inductive CpRegion where
  | nvm (p : CpPack)
  | pages
deriving DecidableEq

abbrev CpMem := Mem CpRegion

/-! ## Reasons -/

def cpUmount : BitVec 32 := 0x1#32

def cpFastboot : BitVec 32 := 0x2#32

def cpSync : BitVec 32 := 0x4#32

def cpDiscard : BitVec 32 := 0x10#32

def cpTrimmed : BitVec 32 := 0x20#32

/-- `cpc->reason & f`. -/
def hasReason (reason f : BitVec 32) : Bool := reason &&& f != 0#32

/-- `__remain_node_summaries`. -/
def remainNodeSummaries (reason : BitVec 32) : Bool := hasReason reason (cpUmount ||| cpFastboot)

section Stores

variable {l : CpLayout} (crc32 : List Byte → BitVec 32) (inp : CpInput l)

/-! ## Stores into a header -/

def constStore (r : CpRegion) (p : Patch) : Store CpRegion :=
  { region := r
    patches := fun _ => [p] }

/-- A read-modify-write of `ckpt_flags`; none if `f` says so. -/
def flagStore (r : CpRegion) (f : CpMem → Option (BitVec 32 → BitVec 32)) : Store CpRegion :=
  { region := r
    patches := fun m => ((f m).map fun g => putFlags (g (ckptFlags (m r)))).toList }

/-- `__set_ckpt_flags` or `__clear_ckpt_flags`. -/
def assignFlag (flag : BitVec 32) (c : Bool) (x : BitVec 32) : BitVec 32 :=
  if c then x ||| flag else x &&& ~~~flag

/-- The counts and the next free node id. -/
def countPatches : List Patch :=
  [putLe 16 8 inp.validUserBlocks, putLe 144 4 inp.validNodeCount, putLe 148 4 inp.validInodeCount,
    putLe 152 4 inp.nextFreeNid]

/-- `__prepare_cp_block`. -/
def prepareCpBlock (s : CpRegion) : List (Store CpRegion) := (countPatches inp).map (constStore s)

/-- The increment of `checkpoint_ver` in `f2fs_write_checkpoint`. -/
def bumpVersion (s : CpRegion) : Store CpRegion :=
  { region := s
    patches := fun m => [putLe 0 8 (curCpVersion (m s) + 1)] }

/-- Segment number, block offset and allocation type of log head `i`. -/
def logPatches (segnoOff blkoffOff : ℕ) (i : Fin 6) : List Patch :=
  [putLe segnoOff 4 (inp.curseg i).segno, putLe blkoffOff 2 (inp.curseg i).nextBlkoff,
    putLe (176 + i) 1 (inp.curseg i).allocType.toNat]

/-- The time, the free segments and the six log heads. -/
def cursegPatches : List Patch :=
  [putLe 168 8 inp.mtime, putLe 32 4 inp.freeSegments]
    ++ logPatches inp 36 68 3 ++ logPatches inp 40 70 4 ++ logPatches inp 44 72 5
    ++ logPatches inp 84 116 0 ++ logPatches inp 88 118 1 ++ logPatches inp 92 120 2

def recordCursegs (r : CpRegion) : List (Store CpRegion) := (cursegPatches inp).map (constStore r)

def compactFlag (r s : CpRegion) : Store CpRegion :=
  flagStore r fun m =>
    some (assignFlag cpCompactSumFlag (decide (f2fsNpagesForSummaryFlush (allocType (m s)) inp < 3)))

def orphanBlocks : ℕ := getOrphanBlocks inp.orphans.length

def startSumPatch : Patch := putLe 140 4 (1 + l.cpPayload + orphanBlocks inp)

/-- The value of `cp_pack_total_block_count`. -/
def packBlocks (types : ℕ → Byte) : ℕ :=
  2 + l.cpPayload + f2fsNpagesForSummaryFlush types inp + orphanBlocks inp
    + if remainNodeSummaries inp.reason then 3 else 0

def totalStore (s : CpRegion) : Store CpRegion :=
  { region := s
    patches := fun m => [putLe 136 4 (packBlocks inp (allocType (m s)))] }

/-- The pack would run into the NAT bits: `update_ckpt_flags` switches them off. -/
def natBitsFull (a : Area) : Bool :=
  hasReason inp.reason cpUmount
    && decide (blocksPerSeg - l.natBitsBlocks < cpPackTotalBlockCount a)

/-- `update_ckpt_flags`. -/
def updateCkptFlags (s : CpRegion) : List (Store CpRegion) :=
  [flagStore s fun m =>
      if natBitsFull inp (m s) then some (assignFlag cpNatBitsFlag false) else none,
    flagStore s fun _ => some (assignFlag cpTrimmedFlag (hasReason inp.reason cpTrimmed)),
    flagStore s fun _ => some (assignFlag cpUmountFlag (hasReason inp.reason cpUmount)),
    flagStore s fun _ => some (assignFlag cpFastbootFlag (hasReason inp.reason cpFastboot)),
    flagStore s fun _ => some (assignFlag cpOrphanPresentFlag (inp.orphans.length != 0)),
    flagStore s fun m =>
      if inp.needFsck || natBitsFull inp (m s) then some (assignFlag cpFsckFlag true) else none,
    flagStore s fun _ => some (assignFlag cpCrcRecoveryFlag true),
    flagStore s fun _ => some (assignFlag cpNocrcRecoveryFlag false)]

/-- `nvm_switch_nsb_version`. -/
def switchNsbVersion (r : CpRegion) : Store CpRegion :=
  flagStore r fun _ => if inp.nsbDirty then some (fun x => x ^^^ cpNsbVerFlag) else none

/-- `__bitmap_ptr(sbi, SIT_BITMAP)`, as an offset. -/
def sitBitmapPtr (l : CpLayout) (a : Area) : ℕ :=
  if isSetCkptFlags a cpLargeNatBitmapFlag then bitmapStart + natVerBitmapBytesize a
  else if 0 < l.cpPayload then blockSize
  else bitmapStart

/-- `__bitmap_ptr(sbi, NAT_BITMAP)`, as an offset. -/
def natBitmapPtr (l : CpLayout) (a : Area) : ℕ :=
  if isSetCkptFlags a cpLargeNatBitmapFlag then bitmapStart
  else if 0 < l.cpPayload then bitmapStart
  else bitmapStart + sitVerBitmapBytesize a

/-- `get_sit_bitmap`, `get_nat_bitmap`. -/
def storeBitmaps (s : CpRegion) : List (Store CpRegion) :=
  [{ region := s
     patches := fun m =>
      [{ off := sitBitmapPtr l (m s), len := inp.sitBitmapSize, byte := inp.sitBitmap }] },
    { region := s
      patches := fun m =>
      [{ off := natBitmapPtr l (m s), len := inp.natBitmapSize, byte := inp.natBitmap }] }]

def crcStore (r : CpRegion) : Store CpRegion :=
  { region := r
    patches := fun m => [crcPatch crc32 (m r)] }

/-! ## Stores of blocks -/

/-- Block `i` of `src`, put into the same place of `dst`. -/
def copyBlock (dst src : CpRegion) (i : ℕ) : Store CpRegion :=
  { region := dst
    patches := fun m =>
      [{ off := blockSize * i, len := blockSize, byte := fun k => m src (blockSize * i + k) }] }

/-- The header and the payload blocks. -/
def copyHeader (l : CpLayout) (dst src : CpRegion) : List (Store CpRegion) :=
  (List.range (1 + l.cpPayload)).map (copyBlock dst src)

/-- `write_orphan_inodes` with `clear`, `bnvm_write_orphan_inodes` without. -/
def writeOrphanInodes (r : CpRegion) (clear : Bool) : Store CpRegion :=
  { region := r
    patches := fun _ =>
      writePages blockSize clear (blockSize * (1 + l.cpPayload)) (orphanPages inp.orphans) }

/-- `f2fs_write_data_summaries` with `clear`, `bnvm_write_data_summaries` without. -/
def writeDataSummaries (r s : CpRegion) (clear : Bool) : Store CpRegion :=
  { region := r
    patches := fun m =>
      writePages blockSize clear (blockSize * (1 + l.cpPayload + orphanBlocks inp))
        (dataSummaryPages (m s) inp) }

def writeNodeSummaries (r s : CpRegion) : Store CpRegion :=
  { region := r
    patches := fun m =>
      if remainNodeSummaries inp.reason then
        writePages blockSize true
          (blockSize * (1 + l.cpPayload + orphanBlocks inp
            + f2fsNpagesForSummaryFlush (allocType (m s)) inp))
          (nodeSummaryPages inp)
      else [] }

/-- The NAT bits, at the end of the segment. -/
def writeNatBits (r s : CpRegion) : Store CpRegion :=
  { region := r
    patches := fun m =>
      if hasReason inp.reason cpUmount && isSetCkptFlags (m s) cpNatBitsFlag then
        [{ off := blockSize * (blocksPerSeg - l.natBitsBlocks), len := blockSize * l.natBitsBlocks
           byte := (putLe 0 8
            (curCpVersion (m s) ||| (headerCrc crc32 (m s)).toNat <<< 32)).apply inp.natBits }]
      else [] }

/-- `commit_checkpoint`, `bnvm_commit_checkpoint`: the copy of the header at the end. -/
def commitStore (r src s : CpRegion) : Store CpRegion :=
  { region := r
    patches := fun m =>
      [{ off := blockSize * (packBlocks inp (allocType (m s)) - 1), len := blockSize, byte := m src }] }

/-! ## The writers -/

/-- What `do_checkpoint` does to the header `sbi->ckpt`. -/
def doHeader (s : CpRegion) : List (Store CpRegion) :=
  recordCursegs inp s
    ++ [compactFlag inp s s, constStore s (startSumPatch inp), totalStore inp s]
    ++ updateCkptFlags inp s ++ [switchNsbVersion inp s] ++ storeBitmaps inp s ++ [crcStore crc32 s]

/-- The blocks of the pack but the last. -/
def doBlocks (s : CpRegion) : List (Store CpRegion) :=
  copyHeader l .pages s
    ++ [writeOrphanInodes inp .pages true, writeDataSummaries inp .pages s true,
      writeNodeSummaries inp .pages s]

/-- The META pages `do_checkpoint` fills before the barrier. -/
def doPages (s : CpRegion) : List (Store CpRegion) :=
  [writeNatBits crc32 inp .pages s] ++ doBlocks inp s

/-- `do_checkpoint`. -/
def doCheckpoint (s : CpRegion) : List (Store CpRegion) :=
  doHeader crc32 inp s ++ doPages crc32 inp s ++ [commitStore inp .pages s s]

/-- `bnvm_do_checkpoint` up to the summaries. -/
def bnvmHeader (s t : CpRegion) : List (Store CpRegion) :=
  recordCursegs inp t ++ [compactFlag inp t s, constStore t (startSumPatch inp)]
    ++ updateCkptFlags inp s ++ [switchNsbVersion inp t] ++ storeBitmaps inp s ++ [crcStore crc32 t]
    ++ copyHeader l t s ++ [writeOrphanInodes inp t false]

/-- `bnvm_do_checkpoint`.  `bnvm_write_current_sum_page` stores through an uninitialised pointer,
so there is nothing to say about a run that gets there. -/
def bnvmDoCheckpoint (s t : CpRegion) : List (Instr CpRegion) :=
  (bnvmHeader crc32 inp s t).map Instr.store
    ++ [Instr.check fun m => isSetCkptFlags (m s) cpCompactSumFlag]
    ++ [writeDataSummaries inp t s false, commitStore inp t t s].map Instr.store

end Stores

end Hoit
