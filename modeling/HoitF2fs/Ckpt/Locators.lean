import HoitF2fs.Ckpt.Header
import HoitF2fs.Node.NatInv
import HoitF2fs.Segment.SitRuns

/-!
# Finding NAT, SIT and summary blocks in NVM

The metadata areas have an image in NVM, block by block, and there are two sets of functions that
find an entry: `current_nat_addr`, `current_sit_addr` and `GET_SUM_BLOCK` give the block, and
`f2fs_bnvm_get_nat_entry`, `f2fs_bnvm_get_sit_entry` and `f2fs_bnvm_get_sum_blk` the byte.

**The two agree on the block** (`bnvmNatBlock_eq`, `bnvmSitBlock_eq`, `bnvmSumBlock_eq`): the areas
have the same distances in NVM, because `init_byte_nvm_private_info` takes over their differences.
**They need not agree on the byte.**  The block address is multiplied by the size of a block, and
only the NAT function does that in 64 bits; the other two lose everything above 4 GiB
(`locators_agree_iff`).
-/

namespace Hoit.Locators

open Segment

/-- The metadata areas, as `sanity_check_area_boundary` accepts them.  The SIT and the NAT areas
have room for two copies of everything. -/
structure MetaAreas where
  nat : NatGeometry
  seg : SegGeometry
  segment0Blkaddr : ℕ
  cpBlkaddr : ℕ
  ssaBlkaddr : ℕ
  mainBlkaddr : ℕ
  segment0_eq : segment0Blkaddr = cpBlkaddr
  cp_le : cpBlkaddr ≤ seg.sitBaseAddr
  sit_le : seg.sitBaseAddr + 2 * seg.sitBlocks ≤ nat.natBlkaddr
  nat_le : nat.natBlkaddr + 2 * nat.natBlocks ≤ ssaBlkaddr
  ssa_le : ssaBlkaddr + seg.segmentCountMain ≤ mainBlkaddr
  main_end : mainBlkaddr + seg.segmentCountMain * blocksPerSeg ≤ 2 ^ 32

/-- The part of `struct byte_nvm_private` with the addresses of the areas. -/
structure ByteNvmPrivate where
  cpBlkaddr : ℕ
  sitBlkaddr : ℕ
  natBlkaddr : ℕ
  ssaBlkaddr : ℕ

/-- `init_byte_nvm_private_info`, in 32 bits. -/
def initByteNvmPrivateInfo (m : MetaAreas) : ByteNvmPrivate :=
  let cpBlkaddr := m.segment0Blkaddr
  { cpBlkaddr
    sitBlkaddr := (m.seg.sitBaseAddr + (2 ^ 32 - m.cpBlkaddr) + cpBlkaddr) % 2 ^ 32
    natBlkaddr := (m.nat.natBlkaddr + (2 ^ 32 - m.cpBlkaddr) + cpBlkaddr) % 2 ^ 32
    ssaBlkaddr := (m.ssaBlkaddr + (2 ^ 32 - m.cpBlkaddr) + cpBlkaddr) % 2 ^ 32 }

/-! ## The byte locators -/

/-- `block_addr` in `f2fs_bnvm_get_nat_entry`, a `pgoff_t`. -/
def bnvmNatBlock (b : ByteNvmPrivate) (natBitmap : ℕ → Bool) (nid : ℕ) : ℕ :=
  let blockOff := natBlockOffset nid
  let blockAddr := b.natBlkaddr + (blockOff <<< 1) - (blockOff &&& (blocksPerSeg - 1))
  if natBitmap blockOff then blockAddr + blocksPerSeg else blockAddr

/-- `f2fs_bnvm_get_nat_entry`: a NAT entry has 9 bytes. -/
def f2fsBnvmGetNatEntry (b : ByteNvmPrivate) (virtAddr : ℕ) (natBitmap : ℕ → Bool) (nid : ℕ) : ℕ :=
  virtAddr + bnvmNatBlock b natBitmap nid * blockSize % 2 ^ 64 + 9 * (nid % natEntryPerBlock)

/-- `block_addr` in `f2fs_bnvm_get_sit_entry`, an `unsigned int`. -/
def bnvmSitBlock (b : ByteNvmPrivate) (g : SegGeometry) (sitBitmap : ℕ → Bool) (segno : ℕ) : ℕ :=
  let blockOff := sitBlockOffset segno
  let blockAddr := (b.sitBlkaddr + blockOff) % 2 ^ 32
  if sitBitmap blockOff then (blockAddr + g.sitBlocks) % 2 ^ 32 else blockAddr

/-- `f2fs_bnvm_get_sit_entry`: a SIT entry has 74 bytes. -/
def f2fsBnvmGetSitEntry (b : ByteNvmPrivate) (g : SegGeometry) (virtAddr : ℕ)
    (sitBitmap : ℕ → Bool) (segno : ℕ) : ℕ :=
  virtAddr + bnvmSitBlock b g sitBitmap segno * blockSize % 2 ^ 32 + 74 * (segno % sitEntryPerBlock)

/-- `block_addr` in `f2fs_bnvm_get_sum_blk`, an `unsigned int`. -/
def bnvmSumBlock (b : ByteNvmPrivate) (segno : ℕ) : ℕ := (b.ssaBlkaddr + segno) % 2 ^ 32

/-- `f2fs_bnvm_get_sum_blk`. -/
def f2fsBnvmGetSumBlk (b : ByteNvmPrivate) (virtAddr segno : ℕ) : ℕ :=
  virtAddr + bnvmSumBlock b segno * blockSize % 2 ^ 32

/-! ## What they are to agree with -/

/-- `START_NID`. -/
def startNid (nid : ℕ) : ℕ := nid / natEntryPerBlock * natEntryPerBlock

/-- `GET_SUM_BLOCK`. -/
def getSumBlock (m : MetaAreas) (segno : ℕ) : ℕ := m.ssaBlkaddr + segno

/-- The image of a block: as far behind the checkpoint area in NVM as on the device. -/
def image (m : MetaAreas) (virtAddr blkAddr : ℕ) : ℕ :=
  virtAddr + ((initByteNvmPrivateInfo m).cpBlkaddr + (blkAddr - m.cpBlkaddr)) * blockSize

/-- What the byte locators are to find for a node and for a segment: the entry at its place in the
image of its block. -/
structure Agree (m : MetaAreas) (virtAddr : ℕ) (st : NatState) (s : SitInfo) (nid segno : ℕ) :
    Prop where
  nat : f2fsBnvmGetNatEntry (initByteNvmPrivateInfo m) virtAddr st.nat.ver nid
    = image m virtAddr (currentNatAddr m.nat st (natBlockOffset nid)) + 9 * (nid - startNid nid)
  sit : f2fsBnvmGetSitEntry (initByteNvmPrivateInfo m) m.seg virtAddr s.sit.ver segno
    = image m virtAddr (currentSitAddr m.seg s segno) + 74 * (segno - startSegno segno)
  sum : f2fsBnvmGetSumBlk (initByteNvmPrivateInfo m) virtAddr segno
    = image m virtAddr (getSumBlock m segno)

variable {m : MetaAreas} {virtAddr nid segno : ℕ} {st : NatState} {s : SitInfo}

lemma image_eq {blkAddr : ℕ} (h : m.cpBlkaddr ≤ blkAddr) :
    image m virtAddr blkAddr = virtAddr + blkAddr * blockSize := by
  have hzero := m.segment0_eq
  simp only [image, initByteNvmPrivateInfo, hzero, Nat.add_sub_cancel' h]

/-- **Different blocks have disjoint images.** -/
lemma image_disjoint {b c : ℕ} (hb : m.cpBlkaddr ≤ b) (hbc : b < c) :
    image m virtAddr b + blockSize ≤ image m virtAddr c := by
  rw [image_eq hb, image_eq (hb.trans hbc.le), Nat.add_assoc, ← Nat.succ_mul]
  exact Nat.add_le_add_left (Nat.mul_le_mul_right _ (Nat.succ_le_of_lt hbc)) _

/-! ## The blocks agree -/

/-- An area starts at the same block in NVM. -/
lemma initByteNvmPrivateInfo_area (m : MetaAreas) {x : ℕ} (hx : x < 2 ^ 32) :
    (x + (2 ^ 32 - m.cpBlkaddr) + m.segment0Blkaddr) % 2 ^ 32 = x := by
  have hzero := m.segment0_eq
  have hcp := m.cp_le
  have hsit := m.sit_le
  have hnat := m.nat_le
  have hssa := m.ssa_le
  have hmain := m.main_end
  omega

/-- Block addresses have 32 bits. -/
lemma areas_lt (hsegno : segno < m.seg.segmentCountMain) :
    m.seg.sitBaseAddr + 2 * m.seg.sitBlocks < 2 ^ 32 ∧ m.nat.natBlkaddr < 2 ^ 32
      ∧ m.ssaBlkaddr + segno < 2 ^ 32 := by
  have hsit := m.sit_le
  have hnat := m.nat_le
  have hssa := m.ssa_le
  have hmain := m.main_end
  unfold blocksPerSeg at hmain
  omega

lemma bnvmNatBlock_eq (hsegno : segno < m.seg.segmentCountMain) :
    bnvmNatBlock (initByteNvmPrivateInfo m) st.nat.ver nid
      = currentNatAddr m.nat st (natBlockOffset nid) := by
  simp only [bnvmNatBlock, currentNatAddr, initByteNvmPrivateInfo,
    initByteNvmPrivateInfo_area m (areas_lt hsegno).2.1]

/-- A SIT block has its offset below the number of blocks of a copy. -/
lemma sitBlockOffset_lt (hsegno : segno < m.seg.segmentCountMain) :
    sitBlockOffset segno < m.seg.sitBlocks := by
  have hfits := m.seg.fits
  unfold sitBlockOffset sitEntryPerBlock
  omega

lemma bnvmSitBlock_eq (hsegno : segno < m.seg.segmentCountMain) :
    bnvmSitBlock (initByteNvmPrivateInfo m) m.seg s.sit.ver segno
      = currentSitAddr m.seg s segno := by
  have hlt := (areas_lt hsegno).1
  have hoff := sitBlockOffset_lt hsegno
  have hbase : m.seg.sitBaseAddr < 2 ^ 32 := by omega
  simp only [bnvmSitBlock, currentSitAddr, initByteNvmPrivateInfo,
    initByteNvmPrivateInfo_area m hbase]
  split <;> omega

lemma bnvmSumBlock_eq (hsegno : segno < m.seg.segmentCountMain) :
    bnvmSumBlock (initByteNvmPrivateInfo m) segno = getSumBlock m segno := by
  have hlt := (areas_lt hsegno).2.2
  have hbase : m.ssaBlkaddr < 2 ^ 32 := by omega
  simp only [bnvmSumBlock, initByteNvmPrivateInfo, initByteNvmPrivateInfo_area m hbase, getSumBlock]
  exact Nat.mod_eq_of_lt hlt

/-- The blocks lie behind the checkpoint area. -/
lemma cp_le_natAddr (b : ℕ) : m.cpBlkaddr ≤ currentNatAddr m.nat st b := by
  have hcp := m.cp_le
  have hsit := m.sit_le
  rw [currentNatAddr_eq, natCopyAddr_eq]
  omega

lemma cp_le_sitAddr : m.cpBlkaddr ≤ currentSitAddr m.seg s segno := by
  have hcp := m.cp_le
  simp only [currentSitAddr]
  split <;> omega

lemma cp_le_sumBlock : m.cpBlkaddr ≤ getSumBlock m segno := by
  have hcp := m.cp_le
  have hsit := m.sit_le
  have hnat := m.nat_le
  unfold getSumBlock
  omega

/-! ## The bytes -/

/-- The product keeps its value in 32 bits just below 4 GiB. -/
lemma mul_blockSize_mod_iff {b : ℕ} : b * blockSize % 2 ^ 32 = b * blockSize ↔ b < 2 ^ 20 := by
  unfold blockSize
  omega

/-- **NAT entries are always found**: the product has 64 bits. -/
lemma natEntry_eq (hnid : nid < 2 ^ 32) (hsegno : segno < m.seg.segmentCountMain) :
    f2fsBnvmGetNatEntry (initByteNvmPrivateInfo m) virtAddr st.nat.ver nid
      = image m virtAddr (currentNatAddr m.nat st (natBlockOffset nid))
        + 9 * (nid - startNid nid) := by
  have hlt := (areas_lt hsegno).2.1
  have haddr : currentNatAddr m.nat st (natBlockOffset nid) < 2 ^ 52 := by
    have hbit : (st.nat.ver (natBlockOffset nid)).toNat ≤ 1 := Bool.toNat_le _
    rw [currentNatAddr_eq, natCopyAddr_eq]
    unfold natBlockOffset natEntryPerBlock at hbit ⊢
    omega
  have hofs : nid - startNid nid = nid % natEntryPerBlock := by
    unfold startNid natEntryPerBlock
    omega
  have hprod : currentNatAddr m.nat st (natBlockOffset nid) * blockSize % 2 ^ 64
      = currentNatAddr m.nat st (natBlockOffset nid) * blockSize := by
    unfold blockSize
    omega
  rw [f2fsBnvmGetNatEntry, bnvmNatBlock_eq hsegno, image_eq (cp_le_natAddr _), hofs, hprod]

lemma sitEntry_eq_iff (hsegno : segno < m.seg.segmentCountMain) :
    f2fsBnvmGetSitEntry (initByteNvmPrivateInfo m) m.seg virtAddr s.sit.ver segno
        = image m virtAddr (currentSitAddr m.seg s segno) + 74 * (segno - startSegno segno)
      ↔ currentSitAddr m.seg s segno < 2 ^ 20 := by
  have hofs : segno - startSegno segno = segno % sitEntryPerBlock := by
    unfold startSegno sitBlockOffset sitEntryPerBlock
    omega
  rw [f2fsBnvmGetSitEntry, bnvmSitBlock_eq hsegno, image_eq cp_le_sitAddr, hofs,
    Nat.add_right_cancel_iff, Nat.add_left_cancel_iff, mul_blockSize_mod_iff]

lemma sumBlk_eq_iff (hsegno : segno < m.seg.segmentCountMain) :
    f2fsBnvmGetSumBlk (initByteNvmPrivateInfo m) virtAddr segno
        = image m virtAddr (getSumBlock m segno) ↔ getSumBlock m segno < 2 ^ 20 := by
  rw [f2fsBnvmGetSumBlk, bnvmSumBlock_eq hsegno, image_eq cp_le_sumBlock, Nat.add_left_cancel_iff,
    mul_blockSize_mod_iff]

/-- **The byte locators find the images of the blocks just below 4 GiB**: the addresses of the SIT
block and of the summary block are multiplied in 32 bits.  Images of different blocks are disjoint
anyway. -/
theorem locators_agree_iff (m : MetaAreas) (virtAddr : ℕ) (st : NatState) (s : SitInfo)
    (nid segno : ℕ) (hnid : nid < 2 ^ 32) (hsegno : segno < m.seg.segmentCountMain) :
    (Agree m virtAddr st s nid segno ↔
        currentSitAddr m.seg s segno < 2 ^ 20 ∧ getSumBlock m segno < 2 ^ 20)
      ∧ ∀ b c, m.cpBlkaddr ≤ b → m.cpBlkaddr ≤ c → b ≠ c →
        image m virtAddr b + blockSize ≤ image m virtAddr c
          ∨ image m virtAddr c + blockSize ≤ image m virtAddr b := by
  refine ⟨⟨fun h => ⟨(sitEntry_eq_iff hsegno).mp h.sit, (sumBlk_eq_iff hsegno).mp h.sum⟩,
    fun h => ⟨natEntry_eq hnid hsegno, (sitEntry_eq_iff hsegno).mpr h.1,
      (sumBlk_eq_iff hsegno).mpr h.2⟩⟩, ?_⟩
  intro b c hb hc hne
  rcases lt_or_gt_of_ne hne with hlt | hlt
  · exact Or.inl (image_disjoint hb hlt)
  · exact Or.inr (image_disjoint hc hlt)

/-! ## A volume of two tebibytes -/

def bigSeg : SegGeometry where
  mainSegmentNums := 1024
  segmentCountMain := 2 ^ 20
  segsPerSec := 1
  nvm_lt := by decide
  ssd_lt := by decide
  segsPerSec_pos := Nat.one_pos
  mainSecs := 2 ^ 20
  secsPerZone := 1
  whole := by decide
  sitBaseAddr := 1536
  sitBlocks := 38 * 512
  fits := by decide

/-- Its summary blocks start at block 71168 and end behind block 2^20. -/
def bigAreas : MetaAreas where
  nat := ⟨40448, 30⟩
  seg := bigSeg
  segment0Blkaddr := 512
  cpBlkaddr := 512
  ssaBlkaddr := 71168
  mainBlkaddr := 71168 + 2 ^ 20
  segment0_eq := rfl
  cp_le := by decide
  sit_le := by decide
  nat_le := by decide
  ssa_le := by decide
  main_end := by decide

/-- A NAT of which every first copy is current. -/
def firstNat : NatState where
  cache := fun _ => none
  natEntries := []
  sets := fun _ => none
  dirtyNatCnt := 0
  journal := []
  nat := ⟨fun _ => false, fun _ _ => ⟨⟨0, 0, 0⟩, 0⟩⟩
  dirtyPages := []
  recorded := fun _ => ⟨⟨0, 0, 0⟩, 0⟩
  freed := fun _ => false
  bugOn := false

/-- A SIT of which every first copy is current. -/
def firstSit : SitInfo := packedSit bigSeg (fun _ => .hotData) fun _ => 0

theorem locators_agree_iff_first_segment :
    (Agree bigAreas 0 firstNat firstSit 3 0 ↔
        currentSitAddr bigSeg firstSit 0 < 2 ^ 20 ∧ getSumBlock bigAreas 0 < 2 ^ 20)
      ∧ ∀ b c, bigAreas.cpBlkaddr ≤ b → bigAreas.cpBlkaddr ≤ c → b ≠ c →
        image bigAreas 0 b + blockSize ≤ image bigAreas 0 c
          ∨ image bigAreas 0 c + blockSize ≤ image bigAreas 0 b :=
  locators_agree_iff bigAreas 0 firstNat firstSit 3 0 (by decide) (by decide)

/-- **The summary block of a segment behind the first 4 GiB is not found**: its address is a
multiple of 2^20, so the product is zero, and the byte locator points to the super block. -/
theorem sum_block_wraps : 977408 < bigSeg.segmentCountMain
    ∧ f2fsBnvmGetSumBlk (initByteNvmPrivateInfo bigAreas) 0 977408 = 0
    ∧ ¬ Agree bigAreas 0 firstNat firstSit 3 977408 := by
  refine ⟨by decide, by decide, fun h => ?_⟩
  exact absurd ((sumBlk_eq_iff (by decide)).mp h.sum) (by decide)

end Hoit.Locators
