import HoitF2fs.Lib.Word32
import HoitF2fs.Nvm.Nsb

/-!
# The layout of NVM at the first mount

When an NVM device is mounted for the first time, `f2fs_fill_super` lays out its areas: the
mapping table where the MAIN area of the SSD begins, the MAIN area of NVM two segments behind it,
and on the byte NVM a record area in between.  All fields are 32 bits wide, and nothing is checked.

* `sanityCheckRawSuper` — what a super block must satisfy to be mounted.
* `blockNvmLayout`, `byteNvmLayout` — the layout, from the super block and the size of the device.
* `LayoutFits` — what a layout has to satisfy: the two copies of every page of the mapping table
  lie apart and in front of the other areas, the NVM super block fits into its block, the MAIN area
  fits onto the device, and no subtraction or percentage wraps around.

**Two segments hold two copies of a table of at most 512 pages**, which is one for 524288 segments
of both devices together; `nvm_layout_fits_iff` gives this and the other conditions exactly.
-/

namespace Hoit.NvmFormat

open Word32

/-! ## The super block -/

/-- The fields of `struct f2fs_super_block` that mount checks; the layout computes with three of
them. -/
structure RawSuper where
  magic : ℕ
  logSectorsize : ℕ
  logSectorsPerBlock : ℕ
  logBlocksize : ℕ
  logBlocksPerSeg : ℕ
  segsPerSec : ℕ
  secsPerZone : ℕ
  blockCount : ℕ
  sectionCount : ℕ
  segmentCount : ℕ
  segmentCountCkpt : ℕ
  segmentCountSit : ℕ
  segmentCountNat : ℕ
  segmentCountSsa : ℕ
  segmentCountMain : ℕ
  segment0Blkaddr : ℕ
  cpBlkaddr : ℕ
  sitBlkaddr : ℕ
  natBlkaddr : ℕ
  ssaBlkaddr : ℕ
  mainBlkaddr : ℕ
  rootIno : ℕ
  nodeIno : ℕ
  metaIno : ℕ
  extensionCount : ℕ
  hotExtCount : ℕ
  cpPayload : ℕ
  segmentCountMain_lt : segmentCountMain < 2 ^ 32
  segment0Blkaddr_lt : segment0Blkaddr < 2 ^ 32
  mainBlkaddr_lt : mainBlkaddr < 2 ^ 32

/-- `segments << log_blocks_per_seg`, in 32 bits. -/
def segBlocks (raw : RawSuper) (segments : ℕ) : ℕ := mul32 segments (2 ^ raw.logBlocksPerSeg)

/-- `sanity_check_area_boundary`: true if a boundary is wrong.  `commitFails` is the outcome of
writing the super block back when its segment count is too large. -/
def sanityCheckAreaBoundary (raw : RawSuper) (commitFails : Bool) : Bool :=
  let mainEndBlkaddr := add32 raw.mainBlkaddr (segBlocks raw raw.segmentCountMain)
  let segEndBlkaddr := add32 raw.segment0Blkaddr (segBlocks raw raw.segmentCount)
  raw.segment0Blkaddr != raw.cpBlkaddr
    || add32 raw.cpBlkaddr (segBlocks raw raw.segmentCountCkpt) != raw.sitBlkaddr
    || add32 raw.sitBlkaddr (segBlocks raw raw.segmentCountSit) != raw.natBlkaddr
    || add32 raw.natBlkaddr (segBlocks raw raw.segmentCountNat) != raw.ssaBlkaddr
    || add32 raw.ssaBlkaddr (segBlocks raw raw.segmentCountSsa) != raw.mainBlkaddr
    || decide (segEndBlkaddr < mainEndBlkaddr)
    || decide (mainEndBlkaddr < segEndBlkaddr) && commitFails

/-- `F2FS_SUPER_MAGIC`. -/
def superMagic : ℕ := 0xF2F52010

/-- `sanity_check_raw_super`: true if the super block is refused. -/
def sanityCheckRawSuper (raw : RawSuper) (commitFails : Bool) : Bool :=
  superMagic != raw.magic
    || 2 ^ raw.logBlocksize != 4096
    || raw.logBlocksPerSeg != 9
    || decide (12 < raw.logSectorsize) || decide (raw.logSectorsize < 9)
    || add32 raw.logSectorsPerBlock raw.logSectorsize != 12
    -- `F2FS_MAX_SEGMENT`, `F2FS_MIN_SEGMENTS`
    || decide (2 ^ 23 < raw.segmentCount) || decide (raw.segmentCount < 9)
    || decide (raw.segmentCount < raw.sectionCount) || decide (raw.sectionCount < 9)
    || decide (raw.segmentCount < raw.segsPerSec) || raw.segsPerSec == 0
    || decide (raw.segmentCount / raw.segsPerSec < raw.sectionCount)
    || decide (raw.blockCount / 2 ^ 9 < raw.segmentCount)
    || decide (raw.sectionCount < raw.secsPerZone)
    -- `F2FS_MAX_EXTENSION`
    || decide (64 < raw.extensionCount) || decide (64 < raw.hotExtCount)
    || decide (64 < raw.extensionCount + raw.hotExtCount)
    -- `F2FS_CP_PACKS`
    || decide (2 ^ raw.logBlocksPerSeg - 2 < raw.cpPayload)
    || raw.nodeIno != 1 || raw.metaIno != 2 || raw.rootIno != 3
    || sanityCheckAreaBoundary raw commitFails

/-! ## The two layouts -/

/-- `MAIN_OFFSET`. -/
def mainOffset : ℕ := 2

/-- `RA_PRECENTAGE`. -/
def raPrecentage : ℕ := 25

/-- The members of `struct nvm_super_block` that the first mount computes. -/
structure NvmLayout where
  mptBlkaddr : ℕ
  raBlkaddr : ℕ
  raBlkNums : ℕ
  mainBlkaddr : ℕ
  mainFirstSegno : ℕ
  mainSegmentNums : ℕ
  mainSegmentFreeNums : ℕ
  lfuBlkaddr0 : ℕ
  lfuBlkaddr1 : ℕ
  mptEntries : ℕ
  mptVerMapBits : ℕ

/-- `blockcount`, from a size in sectors. -/
def blockcount (nsize : ℕ) : ℕ := nsize / 2 ^ 3 % 2 ^ 32

/-- `main_first_segno`. -/
def firstSegno (raw : RawSuper) : ℕ :=
  add32 (sub32 raw.mainBlkaddr raw.segment0Blkaddr / blocksPerSeg) mainOffset

/-- `main_segment_nums`. -/
def segmentNums (nsize mainBlkaddr : ℕ) : ℕ := sub32 (blockcount nsize) mainBlkaddr / blocksPerSeg

/-- `mpt_ver_map_bits`; `sizeof` makes the computation one in 64 bits. -/
def verMapBits (mptEntries : ℕ) : ℕ := ((mptEntries * 4 + 2 ^ 64 - 1) % 2 ^ 64 / 4096 + 1) % 2 ^ 32

/-- What both layouts have in common, when the areas have been placed. -/
def layoutOf (raw : RawSuper) (nsize raBlkaddr raBlkNums mainBlkaddr : ℕ) : NvmLayout :=
  let mainSegmentNums := segmentNums nsize mainBlkaddr
  let mptEntries := add32 mainSegmentNums raw.segmentCountMain
  { mptBlkaddr := raw.mainBlkaddr
    raBlkaddr, raBlkNums, mainBlkaddr, mainSegmentNums, mptEntries
    mainFirstSegno := firstSegno raw
    mainSegmentFreeNums := mainSegmentNums
    lfuBlkaddr0 := 2
    lfuBlkaddr1 := 2 + (blocksPerSeg - 2) / 2
    mptVerMapBits := verMapBits mptEntries }

/-- Two segments behind the table. -/
def behindMpt (raw : RawSuper) : ℕ := add32 raw.mainBlkaddr (mainOffset * blocksPerSeg)

/-- The block NVM has no record area. -/
def blockNvmLayout (raw : RawSuper) (nsize : ℕ) : NvmLayout :=
  layoutOf raw nsize (behindMpt raw) 0 (behindMpt raw)

/-- `ra_blk_nums` of the byte NVM. -/
def recordBlocks (nsize : ℕ) : ℕ := mul32 (blockcount nsize) raPrecentage / 100

def byteNvmLayout (raw : RawSuper) (nsize : ℕ) : NvmLayout :=
  layoutOf raw nsize (behindMpt raw) (recordBlocks nsize)
    (add32 (behindMpt raw) (recordBlocks nsize))

/-! ## What a layout has to satisfy -/

/-- The block of a copy of page `p` of the table, as `get_next_mpt_page` computes it. -/
def mptPageAddr (lay : NvmLayout) (p : ℕ) (second : Bool) : ℕ :=
  add32 lay.mptBlkaddr p + if second then blocksPerSeg else 0

/-- `mpt_ver_map_bytes` and `segment_map_bytes` of `nvm_flush_nsb_pages`. -/
def mapBytes (bits : ℕ) : ℕ := sub32 bits 1 / 8 + 1

structure LayoutFits (raw : RawSuper) (nsize : ℕ) (lay : NvmLayout) : Prop where
  apart : ∀ p < lay.mptVerMapBits, ∀ q < lay.mptVerMapBits, ∀ c d,
    mptPageAddr lay p c = mptPageAddr lay q d → p = q ∧ c = d
  below : ∀ p < lay.mptVerMapBits, ∀ c,
    mptPageAddr lay p c < lay.raBlkaddr ∧ mptPageAddr lay p c < lay.mainBlkaddr
  nsb : nsbMapOff + mapBytes lay.mptVerMapBits + mapBytes lay.mainSegmentNums ≤ 4096
  main : lay.mainBlkaddr + lay.mainSegmentNums * blocksPerSeg ≤ nsize / 2 ^ 3
  -- the subtractions of the layout and of `nvm_flush_nsb_pages`
  first : raw.segment0Blkaddr ≤ raw.mainBlkaddr
  room : lay.mainBlkaddr ≤ blockcount nsize
  bits : 1 ≤ lay.mptVerMapBits
  segments : 1 ≤ lay.mainSegmentNums

/-! ## When it does -/

/-- The segments of the MAIN area of an NVM whose record area has `taken` blocks. -/
def roomSegments (raw : RawSuper) (nsize taken : ℕ) : ℕ :=
  (blockcount nsize - (raw.mainBlkaddr + 1024 + taken)) / 512

/-- The entries of the table for them. -/
def tableEntries (raw : RawSuper) (nsize taken : ℕ) : ℕ :=
  (roomSegments raw nsize taken + raw.segmentCountMain) % 2 ^ 32

/-- The condition on the super block and the size of the device. -/
structure RoomFor (raw : RawSuper) (nsize taken : ℕ) : Prop where
  first : raw.segment0Blkaddr ≤ raw.mainBlkaddr
  room : raw.mainBlkaddr + 1024 + taken + 512 ≤ blockcount nsize
  entries_pos : 0 < tableEntries raw nsize taken
  entries_le : tableEntries raw nsize taken ≤ 524288
  nsb : 60 + ((tableEntries raw nsize taken + 1023) / 1024 + 7) / 8
    + (roomSegments raw nsize taken + 7) / 8 ≤ 4096

variable {raw : RawSuper} {nsize taken : ℕ}

lemma blockcount_lt (nsize : ℕ) : blockcount nsize < 2 ^ 32 := Nat.mod_lt _ (by decide)

lemma blocksPerSeg_eq : blocksPerSeg = 512 := rfl

lemma behindMpt_eq (h : raw.mainBlkaddr + 1024 < 2 ^ 32) :
    behindMpt raw = raw.mainBlkaddr + 1024 := add32_eq h

/-- One bit for 1024 entries. -/
lemma verMapBits_eq {e : ℕ} (he : e < 2 ^ 32) : verMapBits e = (e + 1023) / 1024 := by
  unfold verMapBits
  omega

/-- One byte for eight bits. -/
lemma mapBytes_eq {n : ℕ} (hpos : 1 ≤ n) (hlt : n < 2 ^ 32) : mapBytes n = (n + 7) / 8 := by
  rw [mapBytes, sub32_of_le hpos hlt]
  omega

/-- A layout with `taken` blocks between the table and the MAIN area. -/
def layoutWith (raw : RawSuper) (nsize taken : ℕ) : NvmLayout :=
  layoutOf raw nsize (behindMpt raw) taken (add32 (behindMpt raw) taken)

/-- The numbers of a layout, when nothing wraps around before its MAIN area. -/
lemma layoutWith_eq (hroom : raw.mainBlkaddr + 1024 + taken ≤ blockcount nsize) :
    (layoutWith raw nsize taken).raBlkaddr = raw.mainBlkaddr + 1024 ∧
      (layoutWith raw nsize taken).mainBlkaddr = raw.mainBlkaddr + 1024 + taken ∧
      (layoutWith raw nsize taken).mainSegmentNums = roomSegments raw nsize taken ∧
      (layoutWith raw nsize taken).mptVerMapBits
        = (tableEntries raw nsize taken + 1023) / 1024 := by
  have hb := blockcount_lt nsize
  have hra : behindMpt raw = raw.mainBlkaddr + 1024 := behindMpt_eq (by omega)
  have hmain : add32 (behindMpt raw) taken = raw.mainBlkaddr + 1024 + taken := by
    rw [hra]
    exact add32_eq (by omega)
  have hnums : segmentNums nsize (add32 (behindMpt raw) taken) = roomSegments raw nsize taken := by
    rw [hmain, segmentNums, sub32_of_le hroom hb]
    rfl
  refine ⟨hra, hmain, hnums, ?_⟩
  show verMapBits (add32 (segmentNums nsize (add32 (behindMpt raw) taken)) raw.segmentCountMain) = _
  rw [hnums]
  exact verMapBits_eq (add32_lt _ _)

lemma mptPageAddr_eq {lay : NvmLayout} {p : ℕ} (h : lay.mptBlkaddr + p < 2 ^ 32) (c : Bool) :
    mptPageAddr lay p c = lay.mptBlkaddr + p + if c then 512 else 0 := by
  rw [mptPageAddr, add32_eq h]
  rfl

/-- **A layout fits exactly under the condition.** -/
lemma layoutFits_iff (htaken : taken ≤ 2 ^ 31) :
    LayoutFits raw nsize (layoutWith raw nsize taken) ↔ RoomFor raw nsize taken := by
  have hb := blockcount_lt nsize
  have hM := raw.mainBlkaddr_lt
  have hmpt : (layoutWith raw nsize taken).mptBlkaddr = raw.mainBlkaddr := rfl
  constructor
  · intro h
    -- the second copy of the first page shows that the areas have not wrapped around
    have hfirst := h.below 0 h.bits true
    rw [mptPageAddr_eq (by omega), hmpt] at hfirst
    have hra : (layoutWith raw nsize taken).raBlkaddr = (raw.mainBlkaddr + 1024) % 2 ^ 32 := rfl
    have hmain : (layoutWith raw nsize taken).mainBlkaddr
        = ((raw.mainBlkaddr + 1024) % 2 ^ 32 + taken) % 2 ^ 32 := rfl
    have hroom := h.room
    simp only [if_true] at hfirst
    have hle : raw.mainBlkaddr + 1024 + taken ≤ blockcount nsize := by omega
    obtain ⟨hra', hmain', hnums, hbits⟩ := layoutWith_eq hle
    have hsegs := h.segments
    have hpos := h.bits
    have hnsb := h.nsb
    rw [hnums] at hsegs
    rw [hbits] at hpos
    have hsmall : (tableEntries raw nsize taken + 1023) / 1024 ≤ 512 := by
      by_contra hlarge
      have hclash := h.apart 512 (by omega) 0 (by omega) false true
      rw [mptPageAddr_eq (by omega), mptPageAddr_eq (by omega)] at hclash
      exact absurd (hclash (by simp)).1 (by decide)
    rw [hnums, hbits, mapBytes_eq hpos (by omega),
      mapBytes_eq hsegs (by unfold roomSegments; omega)] at hnsb
    exact ⟨h.first, by unfold roomSegments at hsegs; omega, by omega, by omega, hnsb⟩
  · intro h
    have hroom := h.room
    obtain ⟨hra, hmain, hnums, hbits⟩ := @layoutWith_eq raw nsize taken (by omega)
    have hpos := h.entries_pos
    have hle := h.entries_le
    have hsegs : 1 ≤ roomSegments raw nsize taken := by
      unfold roomSegments
      omega
    have hlast : raw.mainBlkaddr + 1024 + taken + roomSegments raw nsize taken * 512
        ≤ blockcount nsize := by
      unfold roomSegments
      omega
    have haddr : ∀ p < (layoutWith raw nsize taken).mptVerMapBits, ∀ c : Bool, p < 512 ∧
        mptPageAddr (layoutWith raw nsize taken) p c
          = raw.mainBlkaddr + p + if c then 512 else 0 := by
      intro p hp c
      have hp512 : p < 512 := by omega
      exact ⟨hp512, mptPageAddr_eq (by omega) c⟩
    constructor
    · intro p hp q hq c d heq
      obtain ⟨hp512, hpa⟩ := haddr p hp c
      obtain ⟨hq512, hqa⟩ := haddr q hq d
      rw [hpa, hqa] at heq
      cases c <;> cases d <;> simp at heq ⊢ <;> omega
    · intro p hp c
      obtain ⟨hp512, hpa⟩ := haddr p hp c
      rw [hpa, hra, hmain]
      cases c <;> simp <;> omega
    · rw [hnums, hbits, mapBytes_eq (by omega) (by omega), mapBytes_eq hsegs (by omega)]
      exact h.nsb
    · rw [hmain, hnums, blocksPerSeg_eq]
      exact hlast.trans (Nat.mod_le _ _)
    · exact h.first
    · rw [hmain]
      omega
    · rw [hbits]
      omega
    · rw [hnums]
      exact hsegs

lemma blockNvmLayout_eq : blockNvmLayout raw nsize = layoutWith raw nsize 0 := by
  have hlt : behindMpt raw < 2 ^ 32 := add32_lt raw.mainBlkaddr (mainOffset * blocksPerSeg)
  have hself : add32 (behindMpt raw) 0 = behindMpt raw := by
    rw [add32_eq (by rwa [Nat.add_zero]), Nat.add_zero]
  rw [blockNvmLayout, layoutWith, hself]

lemma byteNvmLayout_eq :
    byteNvmLayout raw nsize = layoutWith raw nsize (recordBlocks nsize) := rfl

lemma recordBlocks_le (nsize : ℕ) : recordBlocks nsize ≤ 2 ^ 31 := by
  have hlt : mul32 (blockcount nsize) raPrecentage < 2 ^ 32 := Nat.mod_lt _ (by decide)
  unfold recordBlocks
  omega

lemma recordBlocks_eq (h : blockcount nsize * 25 < 2 ^ 32) :
    recordBlocks nsize = blockcount nsize * 25 / 100 := by
  rw [recordBlocks, raPrecentage, mul32_eq h]

/-- **Both layouts fit iff each device has a segment behind its table and its record area, no table
has more than 524288 entries, both bitmaps fit into their block, and a quarter of the byte NVM can
be computed.** -/
theorem nvm_layout_fits_iff (raw : RawSuper) (nsize byteNsize : ℕ) :
    (LayoutFits raw nsize (blockNvmLayout raw nsize) ∧
        LayoutFits raw byteNsize (byteNvmLayout raw byteNsize) ∧
        blockcount byteNsize * raPrecentage < 2 ^ 32) ↔
      RoomFor raw nsize 0 ∧ RoomFor raw byteNsize (blockcount byteNsize * 25 / 100) ∧
        blockcount byteNsize * 25 < 2 ^ 32 := by
  have hquarter : raPrecentage = 25 := rfl
  rw [blockNvmLayout_eq, byteNvmLayout_eq, layoutFits_iff (Nat.zero_le _),
    layoutFits_iff (recordBlocks_le byteNsize), hquarter]
  constructor
  · rintro ⟨hblock, hbyte, hmul⟩
    exact ⟨hblock, recordBlocks_eq hmul ▸ hbyte, hmul⟩
  · rintro ⟨hblock, hbyte, hmul⟩
    exact ⟨hblock, (recordBlocks_eq hmul).symm ▸ hbyte, hmul⟩

/-- An SSD of 600000 segments, which is a little more than a terabyte. -/
def largeRaw : RawSuper where
  magic := 0xF2F52010
  logSectorsize := 9
  logSectorsPerBlock := 3
  logBlocksize := 12
  logBlocksPerSeg := 9
  segsPerSec := 1
  secsPerZone := 1
  blockCount := 307926528
  sectionCount := 600000
  segmentCount := 601418
  segmentCountCkpt := 2
  segmentCountSit := 44
  segmentCountNat := 200
  segmentCountSsa := 1172
  segmentCountMain := 600000
  segment0Blkaddr := 512
  cpBlkaddr := 512
  sitBlkaddr := 1536
  natBlkaddr := 24064
  ssaBlkaddr := 126464
  mainBlkaddr := 726528
  rootIno := 3
  nodeIno := 1
  metaIno := 2
  extensionCount := 0
  hotExtCount := 0
  cpPayload := 0
  segmentCountMain_lt := by decide
  segment0Blkaddr_lt := by decide
  mainBlkaddr_lt := by decide

/-- With two NVM devices of 32 gigabytes the second copy of page 0 is the first copy of page
512. -/
theorem large_ssd_overlaps :
    sanityCheckRawSuper largeRaw false = false ∧
      mptPageAddr (blockNvmLayout largeRaw 67108864) 0 true
        = mptPageAddr (blockNvmLayout largeRaw 67108864) 512 false ∧
      ¬ ∀ (raw : RawSuper) (nsize byteNsize : ℕ), sanityCheckRawSuper raw false = false →
        LayoutFits raw nsize (blockNvmLayout raw nsize) ∧
          LayoutFits raw byteNsize (byteNvmLayout raw byteNsize) ∧
          blockcount byteNsize * raPrecentage < 2 ^ 32 := by
  have haccepted : sanityCheckRawSuper largeRaw false = false := by decide +kernel
  have hclash : mptPageAddr (blockNvmLayout largeRaw 67108864) 0 true
      = mptPageAddr (blockNvmLayout largeRaw 67108864) 512 false := by decide +kernel
  have hbits : 512 < (blockNvmLayout largeRaw 67108864).mptVerMapBits := by decide +kernel
  refine ⟨haccepted, hclash, fun hall => ?_⟩
  have hfits := (hall largeRaw 67108864 67108864 haccepted).1
  exact absurd (hfits.apart 0 (by omega) 512 hbits true false hclash).1 (by decide)

end Hoit.NvmFormat
