import HoitF2fs.Ckpt.Equivalence
import HoitF2fs.Ckpt.Mount

/-!
# Moving the mounted pack into NVM

At mount `f2fs_move_cp_super_to_bnvm` copies the header and the payload from memory into the pack
of the same number in NVM, and `f2fs_move_cp_content_to_bvnm` the rest of the pack, block by block
from the device.  The comment in the second function lists what it moves: orphan blocks, data
summaries, node summaries and the last header.

**The loop starts at `start_sum_block`, behind the orphan blocks**, and writes where they should
be.  So every block behind the payload is replaced by the one that many blocks later
(`moveCp_eq`), and the pack arrives unchanged just if that does not show (`move_cp_faithful_iff`).
-/

namespace Hoit

open ByteStore

/-- `memcpy` of `len` bytes. -/
def memcpy (a : Area) (dst len : ℕ) (src : Area) : Area := Patch.apply a ⟨dst, len, src⟩

lemma memcpy_apply (a : Area) (dst len : ℕ) (src : Area) (x : ℕ) :
    memcpy a dst len src x = if dst ≤ x ∧ x < dst + len then src (x - dst) else a x := rfl

variable (l : CpLayout)

/-- `f2fs_bnvm_get_cp_ptr`, as an offset into NVM; the product has 32 bits. -/
def f2fsBnvmGetCpPtr : CpPack → ℕ
  | .one => l.cpBlkaddr * blockSize % 2 ^ 32
  | .two => (l.cpBlkaddr + blocksPerSeg) * blockSize % 2 ^ 32

/-- NVM, and the flags that say how far the mount has come. -/
structure BnvmState where
  nvm : Area
  privateReady : Bool
  superReady : Bool
  contentReady : Bool

/-- `f2fs_move_cp_super_to_bnvm`; `none` is `-EINVAL`. -/
def f2fsMoveCpSuperToBnvm (preCkpt : Area) (p : CpPack) (s : BnvmState) : Option BnvmState :=
  if s.privateReady then
    some { s with
      nvm := memcpy s.nvm (f2fsBnvmGetCpPtr l p) ((1 + l.cpPayload) * blockSize) preCkpt
      superReady := true }
  else none

/-- The loop of `f2fs_move_cp_content_to_bvnm`: `n` blocks from block `start` of the pack on. -/
def moveLoop (d : Disk) (p : CpPack) : (n : ℕ) → (start dst : ℕ) → Area → Area
  | 0, _, _, nvm => nvm
  | n + 1, start, dst, nvm =>
      moveLoop d p n (start + 1) (dst + blockSize)
        (memcpy nvm dst blockSize (diskRead l d p start))

/-- `f2fs_move_cp_content_to_bvnm`.  By now `sbi->ckpt` is the header in NVM. -/
def f2fsMoveCpContentToBvnm (d : Disk) (p : CpPack) (s : BnvmState) : Option BnvmState :=
  let ckpt : Area := fun x => s.nvm (f2fsBnvmGetCpPtr l p + x)
  let cpBlks := 1 + l.cpPayload
  let toReadBlks := (cpPackTotalBlockCount ckpt + (2 ^ 32 - cpBlks)) % 2 ^ 32
  if s.superReady then
    some { s with
      nvm := moveLoop l d p toReadBlks (cpPackStartSum ckpt)
        (f2fsBnvmGetCpPtr l p + cpBlks * blockSize) s.nvm
      contentReady := true }
  else none

/-- Both, with the header and the payload of the pack in memory. -/
def moveCp (d : Disk) (p : CpPack) (s : BnvmState) : Option BnvmState :=
  (f2fsMoveCpSuperToBnvm l (diskPack l d p) p s).bind (f2fsMoveCpContentToBvnm l d p)

variable {l} {d : Disk} {p : CpPack} {s : BnvmState}

/-! ## What arrives -/

/-- The loop stores consecutive blocks, and nothing else. -/
lemma moveLoop_eq (n start dst : ℕ) (nvm : Area) (x : ℕ) :
    moveLoop l d p n start dst nvm x
      = if dst ≤ x ∧ x < dst + blockSize * n then
          diskRead l d p (start + (x - dst) / blockSize) ((x - dst) % blockSize)
        else nvm x := by
  have hpos : 0 < blockSize := by decide
  induction n generalizing start dst nvm with
  | zero =>
      rw [moveLoop, if_neg]
      rintro ⟨hle, hlt⟩
      omega
  | succ n ih =>
      rw [moveLoop, ih, memcpy_apply, Nat.mul_succ]
      by_cases hlater : dst + blockSize ≤ x
      · have hsplit : x - dst = x - (dst + blockSize) + blockSize := by omega
        have hdiv : (x - dst) / blockSize = (x - (dst + blockSize)) / blockSize + 1 := by
          rw [hsplit, Nat.add_div_right _ hpos]
        have hmod : (x - dst) % blockSize = (x - (dst + blockSize)) % blockSize := by
          rw [hsplit, Nat.add_mod_right]
        have hpast : ¬ (dst ≤ x ∧ x < dst + blockSize) := fun h => absurd h.2 hlater.not_gt
        rw [hdiv, hmod, if_neg hpast, Nat.add_right_comm start, Nat.add_assoc start]
        refine if_congr ?_ rfl rfl
        omega
      · rw [if_neg fun h => hlater h.1]
        by_cases hhere : dst ≤ x
        · have hlt : x - dst < blockSize := by omega
          rw [if_pos ⟨hhere, Nat.not_le.mp hlater⟩, Nat.div_eq_of_lt hlt, Nat.mod_eq_of_lt hlt,
            if_pos ⟨hhere, by omega⟩, Nat.add_zero]
        · rw [if_neg fun h => hhere h.1, if_neg fun h => hhere h.1]

/-- The first copy, seen from the beginning of the pack. -/
lemma memcpy_start (a src : Area) (dst len x : ℕ) :
    memcpy a dst len src (dst + x) = if x < len then src x else a (dst + x) := by
  rw [memcpy_apply, Nat.add_sub_cancel_left]
  refine if_congr ?_ rfl rfl
  omega

/-- The header in NVM, after the first copy, is the header of the pack. -/
lemma getLe_memcpy_header (nvm : Area) (dst : ℕ) {off w : ℕ} (hw : off + w ≤ blockSize) :
    getLe (fun x => memcpy nvm dst ((1 + l.cpPayload) * blockSize) (diskPack l d p) (dst + x)) off w
      = getLe (diskRead l d p 0) off w := by
  refine getLe_congr fun k hk => ?_
  have hin : off + k < blockSize := by omega
  have hlow : off + k < (1 + l.cpPayload) * blockSize :=
    lt_of_lt_of_le hin (Nat.le_mul_of_pos_left _ (by omega))
  have hblock := @diskPack_block l d p 0 (off + k) hin
  rw [Nat.mul_zero, Nat.zero_add] at hblock
  rw [memcpy_start, if_pos hlow, hblock]

/-- Both copies: the loop starts where the first copy has ended. -/
lemma moveLoop_memcpy (n start dst : ℕ) (nvm : Area) (x : ℕ) :
    moveLoop l d p n start (dst + (1 + l.cpPayload) * blockSize)
        (memcpy nvm dst ((1 + l.cpPayload) * blockSize) (diskPack l d p)) (dst + x)
      = if x < blockSize * (1 + l.cpPayload) then diskRead l d p (x / blockSize) (x % blockSize)
        else if x < blockSize * (1 + l.cpPayload + n) then
          diskRead l d p (start + (x / blockSize - (1 + l.cpPayload))) (x % blockSize)
        else nvm (dst + x) := by
  rw [moveLoop_eq, memcpy_start, Nat.mul_comm (1 + l.cpPayload),
    Nat.mul_add blockSize (1 + l.cpPayload) n]
  by_cases hlow : x < blockSize * (1 + l.cpPayload)
  · have hbefore : ¬ (dst + blockSize * (1 + l.cpPayload) ≤ dst + x
        ∧ dst + x < dst + blockSize * (1 + l.cpPayload) + blockSize * n) := by
      omega
    rw [if_neg hbefore, if_pos hlow, if_pos hlow, diskPack]
  · have hsub : dst + x - (dst + blockSize * (1 + l.cpPayload))
        = x - blockSize * (1 + l.cpPayload) := by
      omega
    rw [hsub, if_neg hlow, if_neg hlow, Nat.sub_mul_div, Nat.sub_mul_mod (Nat.not_lt.mp hlow)]
    refine if_congr ?_ rfl rfl
    omega

/-- **The two functions together** do what `movePack` says, in the pack of the same number. -/
lemma moveCp_eq (hready : s.privateReady = true) :
    ∃ s', moveCp l d p s = some s' ∧ s'.contentReady = true ∧
      ∀ x, s'.nvm (f2fsBnvmGetCpPtr l p + x)
        = movePack l d p (fun y => s.nvm (f2fsBnvmGetCpPtr l p + y)) x := by
  unfold moveCp f2fsMoveCpSuperToBnvm
  rw [if_pos hready, Option.bind_some, f2fsMoveCpContentToBvnm, if_pos rfl]
  refine ⟨_, rfl, rfl, fun x => ?_⟩
  simp only [cpPackTotalBlockCount, cpPackStartSum, movePack]
  rw [getLe_memcpy_header s.nvm _ (by decide), getLe_memcpy_header s.nvm _ (by decide)]
  exact moveLoop_memcpy _ _ _ s.nvm x

/-! ## When it is the same pack -/

/-- The number of orphan blocks of a pack, as `f2fs_recover_orphan_inodes` computes it. -/
def packOrphanBlocks (l : CpLayout) (d : Disk) (p : CpPack) : ℕ :=
  cpPackStartSum (diskRead l d p 0) - 1 - l.cpPayload

/-- The blocks behind the payload repeat every `n` blocks, up to `n` blocks behind the pack. -/
def Repeats (l : CpLayout) (d : Disk) (p : CpPack) (n : ℕ) : Prop :=
  ∀ i, 1 + l.cpPayload ≤ i → i < cpPackTotalBlockCount (diskRead l d p 0) →
    ∀ x < blockSize, diskRead l d p (i + n) x = diskRead l d p i x

/-- Every block is the one that many blocks later. -/
lemma movePack_block (a : Area) (hstart : 1 + l.cpPayload ≤ cpPackStartSum (diskRead l d p 0))
    {i : ℕ} (hi : i < cpPackTotalBlockCount (diskRead l d p 0)) {x : ℕ} (hx : x < blockSize) :
    movePack l d p a (blockSize * i + x)
      = if i < 1 + l.cpPayload then diskRead l d p i x
        else diskRead l d p (i + packOrphanBlocks l d p) x := by
  have hfit := l.payload_fits
  have hlt : cpPackTotalBlockCount (diskRead l d p 0) < 2 ^ 32 := getLe_lt
  have hdiv : (blockSize * i + x) / blockSize = i := by
    rw [Nat.mul_add_div (by decide), Nat.div_eq_of_lt hx, Nat.add_zero]
  have hmod : (blockSize * i + x) % blockSize = x := by
    rw [Nat.mul_add_mod, Nat.mod_eq_of_lt hx]
  have hbelow : ∀ m, blockSize * i + x < blockSize * m ↔ i < m := by
    intro m
    rw [Nat.mul_comm blockSize m, ← Nat.div_lt_iff_lt_mul (by decide), hdiv]
  unfold blocksPerSeg at hfit
  simp only [movePack, hbelow, hdiv, hmod]
  by_cases hlow : i < 1 + l.cpPayload
  · rw [if_pos hlow, if_pos hlow]
  · rw [if_neg hlow, if_neg hlow, if_pos (by omega)]
    congr 1
    unfold packOrphanBlocks
    omega

/-- **A pack arrives in NVM unchanged just if leaving out the orphan blocks does not show**: there
are none, or the blocks behind the payload repeat with their number as the period.  A checkpoint
puts the summaries behind the payload, and the orphan blocks between them. -/
theorem move_cp_faithful_iff (l : CpLayout) (d : Disk) (p : CpPack) (s : BnvmState)
    (hready : s.privateReady = true)
    (hstart : 1 + l.cpPayload ≤ cpPackStartSum (diskRead l d p 0)) :
    ∃ s', moveCp l d p s = some s' ∧ s'.contentReady = true ∧
      ((∀ i < cpPackTotalBlockCount (diskRead l d p 0), ∀ x < blockSize,
          s'.nvm (f2fsBnvmGetCpPtr l p + (blockSize * i + x)) = diskRead l d p i x)
        ↔ packOrphanBlocks l d p = 0 ∨ Repeats l d p (packOrphanBlocks l d p)) := by
  obtain ⟨s', hmove, hcontent, hbytes⟩ := @moveCp_eq l d p s hready
  refine ⟨s', hmove, hcontent, ?_⟩
  constructor
  · intro hsame
    refine Or.inr fun i hlow hi x hx => ?_
    have hblock := hsame i hi x hx
    rw [hbytes, movePack_block _ hstart hi hx, if_neg (Nat.not_lt.mpr hlow)] at hblock
    exact hblock
  · intro hshift i hi x hx
    rw [hbytes, movePack_block _ hstart hi hx]
    by_cases hlow : i < 1 + l.cpPayload
    · rw [if_pos hlow]
    · rw [if_neg hlow]
      rcases hshift with hnone | hrep
      · rw [hnone, Nat.add_zero]
      · exact hrep i (Nat.not_lt.mp hlow) hi x hx

/-! ## A pack with one orphan -/

/-- The header of a pack of four blocks, with the summaries in block 2. -/
def orphanHeader : Area :=
  storeCrc f2fsCrc32 (overlay (fun _ => 0)
    [putLe 0 8 1, putLe 24 4 2, putLe 28 4 1, putLe 132 4 6, putLe 136 4 4, putLe 140 4 2,
      putLe 164 4 4092])

/-- Inode 7 is the orphan. -/
def orphanBlock : Area := overlay (fun _ => 0) (putLe 0 4 7 :: orphanTrailer 1 1 1)

def orphanDisk : Disk := fun b =>
  if b = 512 ∨ b = 515 then orphanHeader else if b = 513 then orphanBlock else fun _ => 0

lemma orphanHeader_version : getCheckpointVersion f2fsCrc32 orphanHeader = some 1 := by
  rw [orphanHeader, getCheckpointVersion_storeCrc ⟨by decide, by decide⟩]
  decide

lemma orphanHeader_eq {off w : ℕ} (h : off + w ≤ bitmapStart) :
    getLe orphanHeader off w = getLe (overlay (fun _ => 0)
      [putLe 0 8 1, putLe 24 4 2, putLe 28 4 1, putLe 132 4 6, putLe 136 4 4, putLe 140 4 2,
        putLe 164 4 4092]) off w :=
  getLe_storeCrc ⟨by decide, by decide⟩ h

lemma orphanHeader_total : cpPackTotalBlockCount orphanHeader = 4 :=
  (orphanHeader_eq (by decide)).trans (by decide)

lemma orphanHeader_start : cpPackStartSum orphanHeader = 2 :=
  (orphanHeader_eq (by decide)).trans (by decide)

lemma orphanDisk_mount : getValidCheckpoint idleLayout f2fsCrc32 orphanDisk = some .one := by
  refine getValidCheckpoint_of_later (v := 1) (by decide) ?_ ?_ ?_
  · exact validateCheckpoint_of_copy orphanHeader_total (by decide) (by decide)
      orphanHeader_version fun x _ => rfl
  · intro w hw
    have hnone : validateCheckpoint f2fsCrc32 (diskRead idleLayout orphanDisk CpPack.one.next)
        = none := by
      have hzero : getCheckpointVersion f2fsCrc32 (fun _ => 0) = none := by decide +kernel
      have haddr : (startCpAddr idleLayout CpPack.one.next + 0) % 2 ^ 32 = 1024 := by decide
      rw [validateCheckpoint, diskRead, haddr, orphanDisk, if_neg (by decide),
        if_neg (by decide), hzero]
      rfl
    rw [hnone] at hw
    exact absurd hw (by simp)
  · decide +kernel

/-- NVM before the first mount. -/
def blankBnvm : BnvmState := ⟨fun _ => 0, true, false, false⟩

theorem move_cp_faithful_iff_orphan :
    ∃ s', moveCp idleLayout orphanDisk .one blankBnvm = some s' ∧ s'.contentReady = true ∧
      ((∀ i < cpPackTotalBlockCount (diskRead idleLayout orphanDisk .one 0), ∀ x < blockSize,
          s'.nvm (f2fsBnvmGetCpPtr idleLayout .one + (blockSize * i + x))
            = diskRead idleLayout orphanDisk .one i x)
        ↔ packOrphanBlocks idleLayout orphanDisk .one = 0
          ∨ Repeats idleLayout orphanDisk .one (packOrphanBlocks idleLayout orphanDisk .one)) := by
  refine move_cp_faithful_iff idleLayout orphanDisk .one blankBnvm rfl ?_
  rw [show cpPackStartSum (diskRead idleLayout orphanDisk .one 0) = 2 from orphanHeader_start]
  decide

/-- **The orphan is lost on the way**: the mount accepts the pack, and block 1 of it is the block
with inode 7; in NVM, block 1 is the summary block. -/
theorem orphan_block_left_out :
    getValidCheckpoint idleLayout f2fsCrc32 orphanDisk = some .one
      ∧ ∀ s', moveCp idleLayout orphanDisk .one blankBnvm = some s' →
        ¬ ∀ i < cpPackTotalBlockCount (diskRead idleLayout orphanDisk .one 0), ∀ x < blockSize,
          s'.nvm (f2fsBnvmGetCpPtr idleLayout .one + (blockSize * i + x))
            = diskRead idleLayout orphanDisk .one i x := by
  refine ⟨orphanDisk_mount, fun s' hmove hsame => ?_⟩
  obtain ⟨s'', hmove', -, hbytes⟩ := @moveCp_eq idleLayout orphanDisk .one blankBnvm rfl
  obtain rfl : s' = s'' := Option.some.inj (hmove.symm.trans hmove')
  have htotal : cpPackTotalBlockCount (diskRead idleLayout orphanDisk .one 0) = 4 :=
    orphanHeader_total
  have hstart : cpPackStartSum (diskRead idleLayout orphanDisk .one 0) = 2 := orphanHeader_start
  have hone := hsame 1 (by rw [htotal]; decide) 0 (by decide)
  rw [hbytes, movePack_block _ (by rw [hstart]; decide) (by rw [htotal]; decide) (by decide),
    if_neg (by decide), packOrphanBlocks, hstart] at hone
  exact absurd hone (by decide +kernel)

end Hoit
