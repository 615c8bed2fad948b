import HoitF2fs.Ckpt.Effects

/-!
# Finding the checkpoint at mount

`f2fs_get_valid_checkpoint` tests the two packs in the META area of the block devices, takes the
one with the later version and checks it for sanity.  Then `f2fs_move_cp_super_to_bnvm` copies its
header and payload into the pack of the same number in NVM, where `sbi->ckpt` points from then on,
and `f2fs_move_cp_content_to_bvnm` the blocks from `cp_pack_start_sum` on.

**The packs in NVM are never looked at**: they are only overwritten.  And the second copy starts
reading behind the orphan blocks but writes where they should be, so a pack arrives in NVM as it
was (`movePack_eq`) only if it has none.
-/

namespace Hoit

open ByteStore

/-- The META area, by block address. -/
abbrev Disk := ℕ → Area

variable (l : CpLayout)

/-- `__start_cp_addr` for `cur_cp_pack = p`. -/
def startCpAddr : CpPack → ℕ
  | .one => l.cpBlkaddr
  | .two => l.cpBlkaddr + blocksPerSeg

/-- The block at `__start_cp_addr + i`; block addresses have 32 bits. -/
def diskRead (d : Disk) (p : CpPack) (i : ℕ) : Area := d ((startCpAddr l p + i) % 2 ^ 32)

/-- `ver_after`. -/
def verAfter (a b : ℕ) : Bool := decide (0 < (BitVec.ofNat 64 a - BitVec.ofNat 64 b).toInt)

/-- `f2fs_sanity_check_ckpt`; `true` means that the checkpoint is accepted. -/
def saneCkpt (a : Area) : Bool :=
  let fsmeta := (l.segmentCountCkpt + l.segmentCountSit + l.segmentCountNat + rsvdSegmentCount a
    + l.segmentCountSsa) % 2 ^ 32
  decide (fsmeta < l.segmentCount) && decide (9 ≤ fsmeta)
    && decide (overprovSegmentCount a ≠ 0) && decide (rsvdSegmentCount a ≠ 0)
    && (List.range 3).all (fun i =>
      decide (curNodeSegno a i < l.segmentCountMain) && decide (curNodeBlkoff a i < blocksPerSeg))
    && (List.range 3).all (fun i =>
      decide (curDataSegno a i < l.segmentCountMain) && decide (curDataBlkoff a i < blocksPerSeg))
    && !isSetCkptFlags a cpErrorFlag

/-- `f2fs_get_valid_checkpoint`: the pack that is mounted. -/
def getValidCheckpoint (crc32 : List Byte → BitVec 32) (d : Disk) : Option CpPack :=
  let found :=
    match validateCheckpoint crc32 (diskRead l d .one), validateCheckpoint crc32 (diskRead l d .two) with
    | some v1, some v2 => some (if verAfter v2 v1 then CpPack.two else CpPack.one)
    | some _, none => some .one
    | none, some _ => some .two
    | none, none => none
  found.filter fun p => saneCkpt l (diskRead l d p 0)

/-- `f2fs_move_cp_super_to_bnvm` and `f2fs_move_cp_content_to_bvnm`: what the pack `p` in NVM,
which held `a`, holds afterwards. -/
def movePack (d : Disk) (p : CpPack) (a : Area) : Area := fun x =>
  let cpBlks := 1 + l.cpPayload
  let header := diskRead l d p 0
  let toReadBlks := (cpPackTotalBlockCount header + (2 ^ 32 - cpBlks)) % 2 ^ 32
  if x < blockSize * cpBlks then diskRead l d p (x / blockSize) (x % blockSize)
  else if x < blockSize * (cpBlks + toReadBlks) then
    diskRead l d p (cpPackStartSum header + (x / blockSize - cpBlks)) (x % blockSize)
  else a x

variable {l} {crc32 : List Byte → BitVec 32} {d : Disk} {p : CpPack} {a : Area}

/-- The pack as one area. -/
def diskPack (l : CpLayout) (d : Disk) (p : CpPack) : Area := fun x =>
  diskRead l d p (x / blockSize) (x % blockSize)

lemma diskPack_block {i x : ℕ} (hx : x < blockSize) :
    diskPack l d p (blockSize * i + x) = diskRead l d p i x := by
  rw [diskPack, Nat.mul_add_div (by decide), Nat.div_eq_of_lt hx, Nat.add_zero, Nat.mul_add_mod,
    Nat.mod_eq_of_lt hx]

/-- **A pack without orphan blocks arrives in NVM as it is on disk.** -/
theorem movePack_eq (hstart : cpPackStartSum (diskRead l d p 0) = 1 + l.cpPayload) {x : ℕ}
    (hx : x < blockSize * cpPackTotalBlockCount (diskRead l d p 0)) :
    movePack l d p a x = diskPack l d p x := by
  have hfit := l.payload_fits
  have hlt : cpPackTotalBlockCount (diskRead l d p 0) < 2 ^ 32 := getLe_lt
  unfold blocksPerSeg at hfit
  simp only [movePack, diskPack, hstart]
  by_cases hlow : x < blockSize * (1 + l.cpPayload)
  · rw [if_pos hlow]
  · have hdiv : 1 + l.cpPayload ≤ x / blockSize := by
      rw [Nat.le_div_iff_mul_le (by decide), Nat.mul_comm]
      exact Nat.not_lt.mp hlow
    have htotal : 1 + l.cpPayload ≤ cpPackTotalBlockCount (diskRead l d p 0) := by
      by_contra hgt
      have := Nat.mul_le_mul_left blockSize (Nat.le_of_not_le hgt)
      omega
    have hread : (cpPackTotalBlockCount (diskRead l d p 0) + (2 ^ 32 - (1 + l.cpPayload))) % 2 ^ 32
        = cpPackTotalBlockCount (diskRead l d p 0) - (1 + l.cpPayload) := by
      omega
    rw [if_neg hlow, hread, Nat.add_sub_cancel' htotal, if_pos hx, Nat.add_sub_cancel' hdiv]

/-- A mounted pack was accepted. -/
lemma validate_of_getValidCheckpoint {d : Disk} {p : CpPack}
    (h : getValidCheckpoint l crc32 d = some p) :
    (validateCheckpoint crc32 (diskRead l d p)).isSome := by
  unfold getValidCheckpoint at h
  obtain ⟨h, -⟩ := Option.filter_eq_some_iff.mp h
  cases h1 : validateCheckpoint crc32 (diskRead l d .one) with
  | none =>
      cases h2 : validateCheckpoint crc32 (diskRead l d .two) with
      | none => simp [h1, h2] at h
      | some v2 =>
          simp only [h1, h2, Option.some.injEq] at h
          rw [← h, h2]
          rfl
  | some v1 =>
      cases h2 : validateCheckpoint crc32 (diskRead l d .two) with
      | none =>
          simp only [h1, h2, Option.some.injEq] at h
          rw [← h, h1]
          rfl
      | some v2 =>
          simp only [h1, h2, Option.some.injEq] at h
          rw [← h]
          split
          · rw [h2]
            rfl
          · rw [h1]
            rfl

/-- Versions that fit into 63 bits are compared as numbers. -/
lemma verAfter_iff {v w : ℕ} (hv : v < 2 ^ 63) (hw : w < 2 ^ 63) : verAfter v w = true ↔ w < v := by
  rw [verAfter, decide_eq_true_iff]
  simp only [BitVec.toInt, BitVec.toNat_sub, BitVec.toNat_ofNat]
  omega

/-- **The mount takes the pack with the later version**, whatever the other one holds, as long as
it has no pack of an equal or later version. -/
theorem getValidCheckpoint_of_later {v : ℕ} (hv : v < 2 ^ 63)
    (hp : validateCheckpoint crc32 (diskRead l d p) = some v)
    (hother : ∀ w, validateCheckpoint crc32 (diskRead l d p.next) = some w → w < v)
    (hsane : saneCkpt l (diskRead l d p 0) = true) : getValidCheckpoint l crc32 d = some p := by
  unfold getValidCheckpoint
  cases p with
  | one =>
      rw [hp]
      rw [show CpPack.one.next = CpPack.two from rfl] at hother
      cases hq : validateCheckpoint crc32 (diskRead l d .two) with
      | none => simp [hsane]
      | some w =>
          have hlt := hother w hq
          have hnot : verAfter w v = false := by
            rw [Bool.eq_false_iff]
            intro hafter
            have := (verAfter_iff (by omega) hv).mp hafter
            omega
          simp [hnot, hsane]
  | two =>
      rw [hp]
      rw [show CpPack.two.next = CpPack.one from rfl] at hother
      cases hq : validateCheckpoint crc32 (diskRead l d .one) with
      | none => simp [hsane]
      | some w =>
          have hlt := hother w hq
          have hafter : verAfter v w = true := (verAfter_iff hv (by omega)).mpr hlt
          simp [hafter, hsane]

end Hoit
