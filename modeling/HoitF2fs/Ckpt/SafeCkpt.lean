import HoitF2fs.Ckpt.Mount
import HoitF2fs.Ckpt.Orphans
import HoitF2fs.Ckpt.SuperLayout
import HoitF2fs.Lib.ExceptLoop

/-!
# What an accepted checkpoint is good for

Mount accepts a checkpoint when `validate_checkpoint` finds the checksums and versions of both
headers right and `f2fs_sanity_check_ckpt` its segments.  Then other functions take numbers from
the header: where the summaries start, how large the bitmaps are, how many entries an orphan block
has.  Here these uses are modelled as the machine makes them — differences in 32 bits, offsets in
a signed `int`, entries read from a block of 4096 bytes.

* `SafeToUse` — the number of orphan blocks is right, the loop over their entries stays inside
  each block, and both bitmaps lie inside the header block or the payload.
* `UnheckedFields`
-/

namespace Hoit.SafeCkpt

open ByteStore NvmFormat SuperLayout ExceptLoop

/-! ## The acceptance test -/

section Accept

variable (crc32 : List Byte → BitVec 32) (sb : RawSuper)

/-- `f2fs_sanity_check_ckpt`, for any super block; true if the checkpoint is refused. -/
def f2fsSanityCheckCkpt (a : Area) : Bool :=
  let fsmeta := (sb.segmentCountCkpt + sb.segmentCountSit + sb.segmentCountNat + rsvdSegmentCount a
    + sb.segmentCountSsa) % 2 ^ 32
  decide (sb.segmentCount ≤ fsmeta) || decide (fsmeta < 9)
    || overprovSegmentCount a == 0 || rsvdSegmentCount a == 0
    || (List.range 3).any (fun i =>
      decide (sb.segmentCountMain ≤ curNodeSegno a i) || decide (blocksPerSeg ≤ curNodeBlkoff a i))
    || (List.range 3).any (fun i =>
      decide (sb.segmentCountMain ≤ curDataSegno a i) || decide (blocksPerSeg ≤ curDataBlkoff a i))
    || isSetCkptFlags a cpErrorFlag

/-- The pack is accepted; `read i` is the block at `cp_addr + i`. -/
structure CkptAccepted (read : ℕ → Area) : Prop where
  valid : (validateCheckpoint crc32 read).isSome
  sane : f2fsSanityCheckCkpt sb (read 0) = false

/-- For a layout with the counts of `sb` this is the test of `saneCkpt`. -/
lemma saneCkpt_eq {l : CpLayout} (hckpt : l.segmentCountCkpt = sb.segmentCountCkpt)
    (hsit : l.segmentCountSit = sb.segmentCountSit) (hnat : l.segmentCountNat = sb.segmentCountNat)
    (hssa : l.segmentCountSsa = sb.segmentCountSsa)
    (hmain : l.segmentCountMain = sb.segmentCountMain) (hall : l.segmentCount = sb.segmentCount)
    (a : Area) :
    saneCkpt l a = !f2fsSanityCheckCkpt sb a := by
  rw [Bool.eq_iff_iff]
  simp [saneCkpt, f2fsSanityCheckCkpt, hckpt, hsit, hnat, hssa, hmain, hall, and_assoc]

/-- **A pack that is mounted was accepted.** -/
theorem CkptAccepted.of_mount {l : CpLayout} (hckpt : l.segmentCountCkpt = sb.segmentCountCkpt)
    (hsit : l.segmentCountSit = sb.segmentCountSit) (hnat : l.segmentCountNat = sb.segmentCountNat)
    (hssa : l.segmentCountSsa = sb.segmentCountSsa)
    (hmain : l.segmentCountMain = sb.segmentCountMain) (hall : l.segmentCount = sb.segmentCount)
    {d : Disk} {p : CpPack} (hmount : getValidCheckpoint l crc32 d = some p) :
    CkptAccepted crc32 sb (diskRead l d p) where
  valid := validate_of_getValidCheckpoint hmount
  sane := by
    have hsane : saneCkpt l (diskRead l d p 0) = true :=
      (Option.filter_eq_some_iff.mp hmount).2
    rw [saneCkpt_eq sb hckpt hsit hnat hssa hmain hall] at hsane
    simpa using hsane

end Accept

/-! ## The orphan blocks -/

/-- Why the loop over the orphan blocks ends early. -/
inductive OrphanStop where
  | outside
  | failed (err : ℤ)

/-- `orphan_blk->entry_count`. -/
def entryCount (blk : Area) : ℕ := getLe blk 4088 4

/-- `orphan_blk->ino[j]`, which has to lie inside the block. -/
def orphanIno (blk : Area) (j : ℕ) : Except OrphanStop (BitVec 32) :=
  if 4 * j + 4 ≤ blockSize then .ok (BitVec.ofNat 32 (getLe blk (4 * j) 4)) else .error .outside

section Orphans

variable {σ : Type} (recoverOrphanInode : BitVec 32 → σ → Except ℤ σ) (sb : RawSuper)
  (read : ℕ → Area)

/-- The body of the loop over the entries. -/
def recoverEntry (blk : Area) (s : σ) (j : ℕ) : Except OrphanStop σ :=
  (orphanIno blk j).bind fun ino => (recoverOrphanInode ino s).mapError .failed

/-- The loop over the entries of a block. -/
def recoverBlock (blk : Area) (s : σ) : Except OrphanStop σ :=
  (List.range (entryCount blk)).foldlM (recoverEntry recoverOrphanInode blk) s

/-- `orphan_blocks`. -/
def orphanBlocks (a : Area) : ℕ := (cpPackStartSum a + 2 ^ 32 + 2 ^ 32 - 1 - sb.cpPayload) % 2 ^ 32

/-- The block the loop reads in round `i`. -/
def orphanBlock (i : ℕ) : Area := read ((1 + sb.cpPayload + i) % 2 ^ 32)

/-- `f2fs_recover_orphan_inodes`.  What is done about one inode depends on the rest of the file
system, so it is a parameter. -/
def recoverOrphanInodes (s : σ) : Except OrphanStop σ :=
  if isSetCkptFlags (read 0) cpOrphanPresentFlag then
    (List.range (orphanBlocks sb (read 0))).foldlM
      (fun s i => recoverBlock recoverOrphanInode (orphanBlock sb read i) s) s
  else pure s

end Orphans

/-! ## The bitmaps -/

inductive BitmapFlag where
  | nat
  | sit
deriving DecidableEq

/-- A little-endian word in a variable of type `int`. -/
def toInt32 (v : ℕ) : ℤ := (BitVec.ofNat 32 v).toInt

/-- `__bitmap_size`. -/
def bitmapSize (a : Area) : BitmapFlag → ℕ
  | .nat => natVerBitmapBytesize a
  | .sit => sitVerBitmapBytesize a

/-- `__bitmap_ptr`, as an offset from `sbi->ckpt`. -/
def bitmapPtr (sb : RawSuper) (a : Area) (flag : BitmapFlag) : ℤ :=
  if isSetCkptFlags a cpLargeNatBitmapFlag then
    let offset := match flag with
      | .sit => toInt32 (natVerBitmapBytesize a)
      | .nat => 0
    bitmapStart + offset
  else if 0 < sb.cpPayload then
    match flag with
    | .nat => bitmapStart
    | .sit => blockSize
  else
    let offset := match flag with
      | .nat => toInt32 (sitVerBitmapBytesize a)
      | .sit => 0
    bitmapStart + offset

/-! ## Safe to use -/

section Safe

variable (sb : RawSuper) (read : ℕ → Area)

/-- What the users of an accepted checkpoint rely on. -/
structure SafeToUse : Prop where
  noWrap : isSetCkptFlags (read 0) cpOrphanPresentFlag →
    (orphanBlocks sb (read 0) : ℤ) = (cpPackStartSum (read 0) : ℤ) - 1 - sb.cpPayload
  insidePack : isSetCkptFlags (read 0) cpOrphanPresentFlag →
    1 + sb.cpPayload + orphanBlocks sb (read 0) ≤ cpPackTotalBlockCount (read 0)
  entries : ∀ (σ : Type) (recoverOrphanInode : BitVec 32 → σ → Except ℤ σ) (s : σ),
    recoverOrphanInodes recoverOrphanInode sb read s ≠ .error .outside
  bitmaps : ∀ flag, 0 ≤ bitmapPtr sb (read 0) flag ∧
    bitmapPtr sb (read 0) flag + bitmapSize (read 0) flag ≤ blockSize * (1 + sb.cpPayload)

/-- The room that the two bitmaps need, by the layout the header chooses. -/
def BitmapsFit (a : Area) : Prop :=
  if isSetCkptFlags a cpLargeNatBitmapFlag ∨ sb.cpPayload = 0 then
    bitmapStart + natVerBitmapBytesize a + sitVerBitmapBytesize a
      ≤ blockSize * (1 + sb.cpPayload)
  else bitmapStart + natVerBitmapBytesize a ≤ blockSize * (1 + sb.cpPayload)
    ∧ sitVerBitmapBytesize a ≤ blockSize * sb.cpPayload

instance (a : Area) : Decidable (BitmapsFit sb a) :=
  inferInstanceAs (Decidable (if isSetCkptFlags a cpLargeNatBitmapFlag ∨ sb.cpPayload = 0 then _
    else _))

/-- What neither check looks at.  The entries of a full orphan block are 1020; the block ends
behind 1024. -/
structure UncheckedFields : Prop where
  start : isSetCkptFlags (read 0) cpOrphanPresentFlag → sb.cpPayload < cpPackStartSum (read 0)
  pack : isSetCkptFlags (read 0) cpOrphanPresentFlag →
    cpPackStartSum (read 0) ≤ cpPackTotalBlockCount (read 0)
  entries : isSetCkptFlags (read 0) cpOrphanPresentFlag →
    ∀ i, sb.cpPayload < i → i < cpPackStartSum (read 0) → entryCount (read i) ≤ 1024
  bitmaps : BitmapsFit sb (read 0)

variable {sb read}

/-! ### The loop -/

lemma orphanIno_of_lt {blk : Area} {j : ℕ} (hj : j < 1024) :
    orphanIno blk j = .ok (BitVec.ofNat 32 (getLe blk (4 * j) 4)) :=
  if_pos (show 4 * j + 4 ≤ 4096 by omega)

lemma orphanIno_of_le {blk : Area} {j : ℕ} (hj : 1024 ≤ j) : orphanIno blk j = .error .outside :=
  if_neg (show ¬ 4 * j + 4 ≤ 4096 by omega)

section Loop

variable {σ : Type} {recoverOrphanInode : BitVec 32 → σ → Except ℤ σ} {blk : Area}

/-- Behind an entry that could be read there is no stop but the error of its recovery. -/
lemma recoverEntry_ne_outside {s : σ} {j : ℕ} (hj : j < 1024) :
    recoverEntry recoverOrphanInode blk s j ≠ .error .outside := by
  unfold recoverEntry
  rw [orphanIno_of_lt hj]
  show (recoverOrphanInode _ s).mapError OrphanStop.failed ≠ .error .outside
  cases recoverOrphanInode (BitVec.ofNat 32 (getLe blk (4 * j) 4)) s with
  | error err => exact nofun
  | ok t => exact nofun

lemma recoverBlock_ne_outside {s : σ} (hcount : entryCount blk ≤ 1024) :
    recoverBlock recoverOrphanInode blk s ≠ .error .outside := by
  intro h
  obtain ⟨j, hj, t, hstep⟩ := exists_step_of_error h
  exact recoverEntry_ne_outside (lt_of_lt_of_le (List.mem_range.mp hj) hcount) hstep

/-- The recovery that always succeeds; with it the loop reads every entry it can. -/
def recoverAlways (_ino : BitVec 32) (u : Unit) : Except ℤ Unit := .ok u

lemma recoverEntry_always (j : ℕ) :
    recoverEntry recoverAlways blk () j = if j < 1024 then .ok () else .error .outside := by
  unfold recoverEntry
  split_ifs with hj
  · rw [orphanIno_of_lt hj]
    rfl
  · rw [orphanIno_of_le (Nat.le_of_not_lt hj)]
    rfl

lemma recoverBlock_always_error {stop : OrphanStop}
    (h : recoverBlock recoverAlways blk () = .error stop) : stop = .outside := by
  obtain ⟨j, -, t, hstep⟩ := exists_step_of_error h
  rw [recoverEntry_always] at hstep
  split_ifs at hstep
  exact (Except.error.inj hstep).symm

lemma entryCount_le_of_ok (h : recoverBlock recoverAlways blk () = .ok ()) :
    entryCount blk ≤ 1024 := by
  by_contra hgt
  have hstep := step_of_ok (g := recoverEntry recoverAlways blk ()) h 1024
    (List.mem_range.mpr (Nat.lt_of_not_le hgt))
  rw [recoverEntry_always, if_neg (lt_irrefl 1024)] at hstep
  exact absurd hstep nofun

end Loop

/-- **The loop stays inside every block, whatever the recovery does, iff no block that it reads
counts more entries than fit.** -/
theorem entries_iff :
    (∀ (σ : Type) (recoverOrphanInode : BitVec 32 → σ → Except ℤ σ) (s : σ),
        recoverOrphanInodes recoverOrphanInode sb read s ≠ .error .outside)
      ↔ (isSetCkptFlags (read 0) cpOrphanPresentFlag →
        ∀ i < orphanBlocks sb (read 0), entryCount (orphanBlock sb read i) ≤ 1024) := by
  constructor
  · intro hnever hflag i hi
    have hrun := hnever Unit recoverAlways ()
    unfold recoverOrphanInodes at hrun
    rw [if_pos hflag] at hrun
    cases hloop : (List.range (orphanBlocks sb (read 0))).foldlM
        (fun s i => recoverBlock recoverAlways (orphanBlock sb read i) s) () with
    | error stop =>
        obtain ⟨k, -, t, hblock⟩ := exists_step_of_error hloop
        obtain rfl : stop = .outside := recoverBlock_always_error hblock
        exact absurd hloop hrun
    | ok u =>
        exact entryCount_le_of_ok (step_of_ok
          (g := fun i => recoverBlock recoverAlways (orphanBlock sb read i) ()) hloop i
          (List.mem_range.mpr hi))
  · intro hcount σ recoverOrphanInode s h
    unfold recoverOrphanInodes at h
    split_ifs at h with hflag
    · obtain ⟨i, hi, t, hblock⟩ := exists_step_of_error h
      exact recoverBlock_ne_outside (hcount hflag i (List.mem_range.mp hi)) hblock
    · exact absurd h nofun

/-! ### The number of orphan blocks -/

lemma cpPackStartSum_lt (a : Area) : cpPackStartSum a < 2 ^ 32 := getLe_lt

lemma noWrap_iff {a : Area} (hpay : sb.cpPayload ≤ 510) :
    (orphanBlocks sb a : ℤ) = (cpPackStartSum a : ℤ) - 1 - sb.cpPayload
      ↔ sb.cpPayload < cpPackStartSum a := by
  have hlt := cpPackStartSum_lt a
  unfold orphanBlocks
  omega

lemma orphanBlocks_eq {a : Area} (hpay : sb.cpPayload ≤ 510)
    (hstart : sb.cpPayload < cpPackStartSum a) :
    1 + sb.cpPayload + orphanBlocks sb a = cpPackStartSum a := by
  have hlt := cpPackStartSum_lt a
  unfold orphanBlocks
  omega

/-- Without a wrap the loop reads the blocks between the payload and the summaries. -/
lemma orphanBlock_iff {a : Area} (hpay : sb.cpPayload ≤ 510)
    (hstart : sb.cpPayload < cpPackStartSum a) :
    (∀ i < orphanBlocks sb a, entryCount (orphanBlock sb read i) ≤ 1024)
      ↔ ∀ i, sb.cpPayload < i → i < cpPackStartSum a → entryCount (read i) ≤ 1024 := by
  have hlt := cpPackStartSum_lt a
  have hblocks := orphanBlocks_eq hpay hstart
  have hread : ∀ i < orphanBlocks sb a, orphanBlock sb read i = read (1 + sb.cpPayload + i) := by
    intro i hi
    unfold orphanBlock
    rw [Nat.mod_eq_of_lt (by omega)]
  constructor
  · intro h i hlow hhigh
    have hi := h (i - (1 + sb.cpPayload)) (by omega)
    rw [hread _ (by omega), Nat.add_sub_cancel' (by omega)] at hi
    exact hi
  · intro h i hi
    rw [hread i hi]
    exact h _ (by omega) (by omega)

/-! ### The bitmaps -/

lemma toInt32_eq {v : ℕ} (h : v < 2 ^ 32) :
    toInt32 v = if v < 2 ^ 31 then (v : ℤ) else (v : ℤ) - 2 ^ 32 := by
  unfold toInt32
  rw [BitVec.toInt, BitVec.toNat_ofNat, Nat.mod_eq_of_lt h]
  split_ifs <;> omega

/-- Of two bitmaps, one behind the other, both are inside iff there is room for both.  A size
beyond the range of `int` would move the second one in front of the header, but the first one is
outside already. -/
lemma two_bitmaps_iff {first second room : ℕ} (hfirst : first < 2 ^ 32) (hroom : room < 2 ^ 31) :
    ((0 ≤ (bitmapStart : ℤ) + 0 ∧ (bitmapStart : ℤ) + 0 + first ≤ room)
        ∧ 0 ≤ (bitmapStart : ℤ) + toInt32 first
        ∧ (bitmapStart : ℤ) + toInt32 first + second ≤ room)
      ↔ bitmapStart + first + second ≤ room := by
  rw [toInt32_eq hfirst]
  unfold bitmapStart
  split_ifs <;> omega

lemma forall_flag_iff {P : BitmapFlag → Prop} : (∀ flag, P flag) ↔ P .nat ∧ P .sit := by
  constructor
  · exact fun h => ⟨h .nat, h .sit⟩
  · rintro ⟨hnat, hsit⟩ (_ | _)
    · exact hnat
    · exact hsit

lemma bitmapPtr_large (sb : RawSuper) {a : Area}
    (hlarge : isSetCkptFlags a cpLargeNatBitmapFlag = true) :
    bitmapPtr sb a .nat = bitmapStart + 0
      ∧ bitmapPtr sb a .sit = bitmapStart + toInt32 (natVerBitmapBytesize a) :=
  ⟨if_pos hlarge, if_pos hlarge⟩

lemma bitmapPtr_payload {a : Area} (hlarge : ¬ isSetCkptFlags a cpLargeNatBitmapFlag = true)
    (hpos : 0 < sb.cpPayload) :
    bitmapPtr sb a .nat = bitmapStart ∧ bitmapPtr sb a .sit = blockSize :=
  ⟨(if_neg hlarge).trans (if_pos hpos), (if_neg hlarge).trans (if_pos hpos)⟩

lemma bitmapPtr_plain {a : Area} (hlarge : ¬ isSetCkptFlags a cpLargeNatBitmapFlag = true)
    (hzero : sb.cpPayload = 0) :
    bitmapPtr sb a .nat = bitmapStart + toInt32 (sitVerBitmapBytesize a)
      ∧ bitmapPtr sb a .sit = bitmapStart + 0 := by
  have hnot : ¬ 0 < sb.cpPayload := by omega
  exact ⟨(if_neg hlarge).trans (if_neg hnot), (if_neg hlarge).trans (if_neg hnot)⟩

lemma bitmaps_iff {a : Area} (hpay : sb.cpPayload ≤ 510) :
    (∀ flag, 0 ≤ bitmapPtr sb a flag ∧
        bitmapPtr sb a flag + bitmapSize a flag ≤ blockSize * (1 + sb.cpPayload))
      ↔ BitmapsFit sb a := by
  have hnat : natVerBitmapBytesize a < 2 ^ 32 := getLe_lt
  have hsit : sitVerBitmapBytesize a < 2 ^ 32 := getLe_lt
  have hroom : blockSize * (1 + sb.cpPayload) < 2 ^ 31 := by
    unfold blockSize
    omega
  rw [forall_flag_iff]
  unfold BitmapsFit
  by_cases hlarge : isSetCkptFlags a cpLargeNatBitmapFlag = true
  · obtain ⟨hptrNat, hptrSit⟩ := bitmapPtr_large sb hlarge
    rw [if_pos (Or.inl hlarge), hptrNat, hptrSit]
    exact_mod_cast two_bitmaps_iff hnat hroom
  · by_cases hzero : sb.cpPayload = 0
    · obtain ⟨hptrNat, hptrSit⟩ := bitmapPtr_plain hlarge hzero
      rw [if_pos (Or.inr hzero), hptrNat, hptrSit, and_comm, Nat.add_right_comm]
      exact_mod_cast two_bitmaps_iff hsit hroom
    · obtain ⟨hptrNat, hptrSit⟩ := bitmapPtr_payload hlarge (Nat.pos_of_ne_zero hzero)
      rw [if_neg (not_or.mpr ⟨hlarge, hzero⟩), hptrNat, hptrSit]
      simp only [bitmapStart, blockSize, bitmapSize]
      omega

end Safe

/-- **With an accepted super block, any header — accepted or not — is safe to use iff the fields
that nothing looks at are right.** -/
theorem safeToUse_iff {raw sb : RawSuper} {commitFails : Bool} {read : ℕ → Area}
    (hsuper : checkRawSuper raw commitFails = some sb) :
    SafeToUse sb read ↔ UncheckedFields sb read := by
  have hpay : sb.cpPayload ≤ 510 := by
    obtain ⟨hacc, rfl⟩ := accepted_of_checkRawSuper hsuper
    rw [cpPayload_fixSegmentCount]
    exact hacc.payload
  constructor
  · rintro ⟨hwrap, hpack, hentries, hbitmaps⟩
    have hstart : isSetCkptFlags (read 0) cpOrphanPresentFlag →
        sb.cpPayload < cpPackStartSum (read 0) := fun hflag => (noWrap_iff hpay).mp (hwrap hflag)
    refine ⟨hstart, fun hflag => ?_, fun hflag => ?_, (bitmaps_iff hpay).mp hbitmaps⟩
    · rw [← orphanBlocks_eq hpay (hstart hflag)]
      exact hpack hflag
    · exact (orphanBlock_iff hpay (hstart hflag)).mp (entries_iff.mp hentries hflag)
  · rintro ⟨hstart, hpack, hentries, hbitmaps⟩
    refine ⟨fun hflag => (noWrap_iff hpay).mpr (hstart hflag), fun hflag => ?_,
      entries_iff.mpr fun hflag => ?_, (bitmaps_iff hpay).mpr hbitmaps⟩
    · rw [orphanBlocks_eq hpay (hstart hflag)]
      exact hpack hflag
    · exact (orphanBlock_iff hpay (hstart hflag)).mpr (hentries hflag)

/-! ## Concrete checkpoints -/

section Packs

variable {crc32 : List Byte → BitVec 32} {sb : RawSuper} {a blk : Area}

/-- A pack of three blocks: the header, an orphan block and the header again. -/
def threeBlocks (header blk : Area) : ℕ → Area := fun i => if i = 1 then blk else header

/-- The sanity test only looks at fields in front of the checksum. -/
lemma f2fsSanityCheckCkpt_storeCrc (hc : CrcPlaced a) :
    f2fsSanityCheckCkpt sb (storeCrc crc32 a) = f2fsSanityCheckCkpt sb a := by
  have hfield : ∀ off w, off + w ≤ bitmapStart →
      getLe (storeCrc crc32 a) off w = getLe a off w := fun off w => getLe_storeCrc hc
  simp (disch := decide) only [f2fsSanityCheckCkpt, rsvdSegmentCount, overprovSegmentCount,
    curNodeSegno, curNodeBlkoff, curDataSegno, curDataBlkoff, isSetCkptFlags, ckptFlags,
    List.range_succ, List.range_zero, List.nil_append, List.any_cons, List.any_nil,
    List.cons_append, hfield]
  rfl

/-- A header that passes the sanity test is accepted once its checksum is stored. -/
lemma ckptAccepted_threeBlocks (hc : CrcPlaced a) (htotal : cpPackTotalBlockCount a = 3)
    (hsane : f2fsSanityCheckCkpt sb a = false) :
    CkptAccepted crc32 sb (threeBlocks (storeCrc crc32 a) blk) := by
  have hn : cpPackTotalBlockCount (storeCrc crc32 a) = 3 := by
    rw [← htotal]
    exact getLe_storeCrc hc (by decide)
  constructor
  · rw [validateCheckpoint_of_copy (r := threeBlocks (storeCrc crc32 a) blk) hn (by decide)
      (by decide) (getCheckpointVersion_storeCrc hc) fun x _ => rfl]
    rfl
  · exact (f2fsSanityCheckCkpt_storeCrc hc).trans hsane

/-- A header with ten reserved and ten overprovisioned segments. -/
def plainHeader (flags start sitBytes natBytes : ℕ) : Area :=
  overlay (fun _ => 0) [putLe 24 4 10, putLe 28 4 10, putLe 132 4 flags, putLe 136 4 3,
    putLe 140 4 start, putLe 156 4 sitBytes, putLe 160 4 natBytes, putLe 164 4 4092]

/-- An orphan block that counts `n` entries. -/
def countingBlock (n : ℕ) : Area := (putLe 4088 4 n).apply fun _ => 0

variable (flags start sitBytes natBytes : ℕ)

lemma crcPlaced_plainHeader : CrcPlaced (plainHeader flags start sitBytes natBytes) := by
  have hoff : checksumOffset (plainHeader flags start sitBytes natBytes) = 4092 := by
    show getLe ((putLe 164 4 4092).apply _) 164 4 = 4092
    rw [getLe_putLe]
    decide
  constructor
  · rw [hoff]
    decide
  · rw [hoff]
    decide

/-- The header with its checksum. -/
def storedHeader : Area := storeCrc f2fsCrc32 (plainHeader flags start sitBytes natBytes)

variable {flags start sitBytes natBytes}

lemma getLe_storedHeader {off w : ℕ} (hw : off + w ≤ bitmapStart) :
    getLe (storedHeader flags start sitBytes natBytes) off w
      = getLe (plainHeader flags start sitBytes natBytes) off w :=
  getLe_storeCrc (crcPlaced_plainHeader _ _ _ _) hw

lemma cpPackStartSum_storedHeader :
    cpPackStartSum (storedHeader flags start sitBytes natBytes)
      = cpPackStartSum (plainHeader flags start sitBytes natBytes) :=
  getLe_storedHeader (by decide)

lemma cpPackTotalBlockCount_storedHeader :
    cpPackTotalBlockCount (storedHeader flags start sitBytes natBytes)
      = cpPackTotalBlockCount (plainHeader flags start sitBytes natBytes) :=
  getLe_storedHeader (by decide)

lemma isSetCkptFlags_storedHeader (f : BitVec 32) :
    isSetCkptFlags (storedHeader flags start sitBytes natBytes) f
      = isSetCkptFlags (plainHeader flags start sitBytes natBytes) f := by
  simp only [isSetCkptFlags, ckptFlags, getLe_storedHeader (show 132 + 4 ≤ bitmapStart by decide)]

lemma bitmapsFit_storedHeader :
    BitmapsFit sb (storedHeader flags start sitBytes natBytes)
      ↔ BitmapsFit sb (plainHeader flags start sitBytes natBytes) := by
  simp only [BitmapsFit, isSetCkptFlags_storedHeader, natVerBitmapBytesize, sitVerBitmapBytesize,
    getLe_storedHeader (show 156 + 4 ≤ bitmapStart by decide),
    getLe_storedHeader (show 160 + 4 ≤ bitmapStart by decide)]

end Packs

lemma checkRawSuper_largeRaw : checkRawSuper largeRaw false = some largeRaw := by
  have haccepted : sanityCheckRawSuper largeRaw false = false := by decide +kernel
  unfold checkRawSuper
  rw [haccepted, fixSegmentCount_eq, if_neg (by decide +kernel)]
  rfl

/-- With a full orphan block. -/
theorem safeToUse_fullBlock :
    CkptAccepted f2fsCrc32 largeRaw (threeBlocks (storedHeader 2 2 64 64) (countingBlock 1020))
      ∧ SafeToUse largeRaw (threeBlocks (storedHeader 2 2 64 64) (countingBlock 1020)) := by
  have hstart : cpPackStartSum (storedHeader 2 2 64 64) = 2 := by
    rw [cpPackStartSum_storedHeader]
    decide +kernel
  have htotal : cpPackTotalBlockCount (storedHeader 2 2 64 64) = 3 := by
    rw [cpPackTotalBlockCount_storedHeader]
    decide +kernel
  refine ⟨ckptAccepted_threeBlocks (crcPlaced_plainHeader _ _ _ _) (by decide +kernel)
    (by decide +kernel), (safeToUse_iff checkRawSuper_largeRaw).mpr ?_⟩
  constructor
  · intro _
    show 0 < cpPackStartSum (storedHeader 2 2 64 64)
    rw [hstart]
    decide
  · intro _
    show cpPackStartSum (storedHeader 2 2 64 64) ≤ cpPackTotalBlockCount (storedHeader 2 2 64 64)
    rw [hstart, htotal]
    decide
  · intro _ i hlow hhigh
    change i < cpPackStartSum (storedHeader 2 2 64 64) at hhigh
    rw [hstart] at hhigh
    obtain rfl : i = 1 := by
      have hpos : 0 < i := hlow
      omega
    show entryCount (countingBlock 1020) ≤ 1024
    decide +kernel
  · show BitmapsFit largeRaw (storedHeader 2 2 64 64)
    rw [bitmapsFit_storedHeader]
    decide +kernel

/-- Three accepted checkpoints: the summaries start at block 0, an orphan block counts `2 ^ 32 - 1`
entries, and the NAT bitmap has `2 ^ 32 - 1` bytes. -/
theorem accepted_ckpt_unsafe :
    (CkptAccepted f2fsCrc32 largeRaw (threeBlocks (storedHeader 2 0 64 64) (countingBlock 0))
        ∧ orphanBlocks largeRaw (storedHeader 2 0 64 64) = 4294967295)
      ∧ (CkptAccepted f2fsCrc32 largeRaw
          (threeBlocks (storedHeader 2 2 64 64) (countingBlock 4294967295))
        ∧ ∃ (σ : Type) (recoverOrphanInode : BitVec 32 → σ → Except ℤ σ) (s : σ),
          recoverOrphanInodes recoverOrphanInode largeRaw
            (threeBlocks (storedHeader 2 2 64 64) (countingBlock 4294967295)) s = .error .outside)
      ∧ (CkptAccepted f2fsCrc32 largeRaw
          (threeBlocks (storedHeader 0 1 64 4294967295) (countingBlock 0))
        ∧ ¬ ∀ flag, 0 ≤ bitmapPtr largeRaw (storedHeader 0 1 64 4294967295) flag ∧
          bitmapPtr largeRaw (storedHeader 0 1 64 4294967295) flag
            + bitmapSize (storedHeader 0 1 64 4294967295) flag
            ≤ blockSize * (1 + largeRaw.cpPayload))
      ∧ ¬ ∀ (raw sb : RawSuper) (commitFails : Bool) (read : ℕ → Area),
          checkRawSuper raw commitFails = some sb → CkptAccepted f2fsCrc32 sb read →
          SafeToUse sb read := by
  have hlow : CkptAccepted f2fsCrc32 largeRaw
      (threeBlocks (storedHeader 2 0 64 64) (countingBlock 0)) :=
    ckptAccepted_threeBlocks (crcPlaced_plainHeader _ _ _ _) (by decide +kernel)
      (by decide +kernel)
  have hblocks : orphanBlocks largeRaw (storedHeader 2 0 64 64) = 4294967295 := by
    unfold orphanBlocks
    rw [cpPackStartSum_storedHeader]
    decide +kernel
  have hstart : cpPackStartSum (storedHeader 2 0 64 64) = 0 := by
    rw [cpPackStartSum_storedHeader]
    decide +kernel
  refine ⟨⟨hlow, hblocks⟩, ⟨ckptAccepted_threeBlocks (crcPlaced_plainHeader _ _ _ _)
    (by decide +kernel) (by decide +kernel), ?_⟩, ⟨ckptAccepted_threeBlocks
    (crcPlaced_plainHeader _ _ _ _) (by decide +kernel) (by decide +kernel), ?_⟩, ?_⟩
  · by_contra hnone
    push Not at hnone
    have hflag : isSetCkptFlags (storedHeader 2 2 64 64) cpOrphanPresentFlag = true := by
      rw [isSetCkptFlags_storedHeader]
      decide +kernel
    have hone : 0 < orphanBlocks largeRaw (storedHeader 2 2 64 64) := by
      unfold orphanBlocks
      rw [cpPackStartSum_storedHeader]
      decide +kernel
    have hcount : entryCount (countingBlock 4294967295) ≤ 1024 :=
      entries_iff.mp hnone hflag 0 hone
    exact absurd hcount (by decide +kernel)
  · rw [bitmaps_iff (by decide), bitmapsFit_storedHeader]
    decide +kernel
  · intro hall
    have hflag : isSetCkptFlags (storedHeader 2 0 64 64) cpOrphanPresentFlag = true := by
      rw [isSetCkptFlags_storedHeader]
      decide +kernel
    have hwrap : (orphanBlocks largeRaw (storedHeader 2 0 64 64) : ℤ)
        = (cpPackStartSum (storedHeader 2 0 64 64) : ℤ) - 1 - 0 :=
      (hall largeRaw largeRaw false _ checkRawSuper_largeRaw hlow).noWrap hflag
    rw [hblocks, hstart] at hwrap
    omega

end Hoit.SafeCkpt
