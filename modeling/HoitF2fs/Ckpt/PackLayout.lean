import HoitF2fs.Ckpt.Effects
import HoitF2fs.Lib.Word32

/-!
# The room in a checkpoint pack

A checkpoint pack has one segment.  Four functions have a part in whether what is written fits into
it: `sanity_check_raw_super` bounds the payload, `f2fs_init_ino_entry_info` computes from it how many
orphan inodes there may be, `update_ckpt_flags` gives up the NAT bits when they would get in the way,
and `do_checkpoint` puts one part after the other.

* `maxOrphans` — the budget of the orphan inodes, **in `unsigned int`**.
* `packRanges` — the blocks that are written, part by part.
* `PackFits` — the parts are apart, and inside of the segment.

The budget leaves room for six summary blocks and the two copies of the header, but the check of the
super block only for the copies.  `pack_fits_iff` has the bound that it takes, and one for the size of
the NAT bits: the number that the flag is decided by wraps around when they are larger than a segment.
-/

namespace Hoit.PackLayout

open Word32 ByteStore

/-! ## Parts one after the other -/

/-- Blocks: where they begin, and how many there are. -/
abbrev Range := ℕ × ℕ

/-- Parts of these lengths, from `start` on. -/
def layOut : ℕ → List ℕ → List Range
  | _, [] => []
  | start, len :: lens => (start, len) :: layOut (start + len) lens

/-- One part is before the other. -/
def Apart (a b : Range) : Prop := a.1 + a.2 ≤ b.1 ∨ b.1 + b.2 ≤ a.1

lemma layOut_inside {start : ℕ} {lens : List ℕ} {r : Range} (h : r ∈ layOut start lens) :
    start ≤ r.1 ∧ r.1 + r.2 ≤ start + lens.sum := by
  induction lens generalizing start with
  | nil => exact absurd h List.not_mem_nil
  | cons len lens ih =>
      rw [List.sum_cons]
      rcases List.mem_cons.mp h with rfl | h
      · exact ⟨le_rfl, by simp only; omega⟩
      · obtain ⟨hlow, hhigh⟩ := ih h
        omega

lemma layOut_apart (start : ℕ) (lens : List ℕ) : (layOut start lens).Pairwise Apart := by
  induction lens generalizing start with
  | nil => exact List.Pairwise.nil
  | cons len lens ih =>
      refine List.pairwise_cons.mpr ⟨fun r hr => Or.inl ?_, ih (start + len)⟩
      exact (layOut_inside hr).1

/-! ## The functions -/

/-- The check of `cp_payload` in `sanity_check_raw_super`, with `F2FS_CP_PACKS` 2. -/
def saneCpPayload (cpPayload : ℕ) : Bool := decide (cpPayload ≤ blocksPerSeg - 2)

/-- `max_orphans`, as `f2fs_init_ino_entry_info` computes it; `NR_CURSEG_TYPE` is 6, and an orphan
block has 1020 entries. -/
def maxOrphans (cpPayload : ℕ) : ℕ :=
  mul32 (sub32 (sub32 (sub32 blocksPerSeg 2) 6) cpPayload) 1020

/-- What the layout of a pack depends on. -/
structure PackInput where
  reason : BitVec 32
  cpPayload : ℕ
  orphanNum : ℕ
  /-- The summary entries of the three data logs. -/
  validSumCount : ℕ
  /-- `CP_NAT_BITS_FLAG`. -/
  natBitsFlag : Bool
  natBitsBlocks : ℕ

/-- `f2fs_npages_for_summary_flush`, from the number of the entries. -/
def npagesForSummaryFlush (validSumCount : ℕ) : ℕ :=
  let sumInPage := (blockSize - 2 * 507 - 5) / 7
  if validSumCount ≤ sumInPage then 1
  else if validSumCount - sumInPage ≤ (blockSize - 5) / 7 then 2
  else 3

/-- `cp_pack_total_block_count`. -/
def PackInput.totalBlocks (inp : PackInput) : ℕ :=
  2 + inp.cpPayload + npagesForSummaryFlush inp.validSumCount + getOrphanBlocks inp.orphanNum
    + if remainNodeSummaries inp.reason then 3 else 0

/-- `enabled_nat_bits`, after `update_ckpt_flags`. -/
def PackInput.enabledNatBits (inp : PackInput) : Bool :=
  hasReason inp.reason cpUmount && inp.natBitsFlag
    && !decide (sub32 blocksPerSeg inp.natBitsBlocks < inp.totalBlocks)

/-- The NAT bits, at the end of the segment. -/
def PackInput.natBitsRange (inp : PackInput) (startBlk : ℕ) : List Range :=
  if inp.enabledNatBits then
    [(sub32 (add32 startBlk blocksPerSeg) inp.natBitsBlocks, inp.natBitsBlocks)]
  else []

/-- The lengths of the other parts: the header, the payload, the orphan blocks, the data and the node
summaries, and the copy of the header. -/
def PackInput.partLengths (inp : PackInput) : List ℕ :=
  [1, inp.cpPayload] ++ (if inp.orphanNum = 0 then [] else [getOrphanBlocks inp.orphanNum])
    ++ [npagesForSummaryFlush inp.validSumCount]
    ++ (if remainNodeSummaries inp.reason then [3] else []) ++ [1]

/-- What `do_checkpoint` writes from `start_blk` on. -/
def packRanges (startBlk : ℕ) (inp : PackInput) : List Range :=
  inp.natBitsRange startBlk ++ layOut startBlk inp.partLengths

/-- **The pack fits into its segment.** -/
structure PackFits (startBlk : ℕ) (inp : PackInput) : Prop where
  apart : (packRanges startBlk inp).Pairwise Apart
  inside : ∀ r ∈ packRanges startBlk inp, startBlk ≤ r.1 ∧ r.1 + r.2 ≤ startBlk + blocksPerSeg

/-- The computation of `max_orphans` does not wrap around. -/
def MaxOrphansExact (cpPayload : ℕ) : Prop :=
  (maxOrphans cpPayload : ℤ) = ((blocksPerSeg : ℤ) - 2 - 6 - cpPayload) * 1020

/-! ## The parts are what the writers write -/

variable {l : CpLayout} {startBlk natBitsBlocks cpPayload : ℕ} {inp : PackInput}

/-- The layout of a checkpoint of `HoitF2fs.Ckpt.Blocks`. -/
def packInput (types : ℕ → Byte) (inp : CpInput l) (natBitsFlag : Bool) : PackInput where
  reason := inp.reason
  cpPayload := l.cpPayload
  orphanNum := inp.orphans.length
  validSumCount := summaryCount types inp 0 + summaryCount types inp 1 + summaryCount types inp 2
  natBitsFlag := natBitsFlag
  natBitsBlocks := l.natBitsBlocks

lemma totalBlocks_packInput (types : ℕ → Byte) (inp : CpInput l) (natBitsFlag : Bool) :
    (packInput types inp natBitsFlag).totalBlocks = packBlocks inp types := rfl

/-- The orphan blocks and the data summaries fill the parts that are laid out for them. -/
lemma parts_written {a : Area} {inp : CpInput l} (natBitsFlag : Bool)
    (h : isSetCkptFlags a cpCompactSumFlag
      = decide (f2fsNpagesForSummaryFlush (allocType a) inp < 3)) :
    (packInput (allocType a) inp natBitsFlag).partLengths =
      [1, l.cpPayload] ++ (if inp.orphans.length = 0 then [] else [(orphanPages inp.orphans).length])
        ++ [(dataSummaryPages a inp).length]
        ++ (if remainNodeSummaries inp.reason then [(nodeSummaryPages inp).length] else []) ++ [1] := by
  rw [orphanPages_length, dataSummaryPages_length h]
  rfl

/-! ## What fits -/

lemma npages_le (n : ℕ) : npagesForSummaryFlush n ≤ 3 := by
  unfold npagesForSummaryFlush
  simp only []
  split_ifs <;> decide

lemma partLengths_sum (inp : PackInput) : inp.partLengths.sum = inp.totalBlocks := by
  unfold PackInput.partLengths PackInput.totalBlocks
  by_cases horphan : inp.orphanNum = 0
  · simp only [horphan, if_true, getOrphanBlocks, List.append_nil, List.sum_append, List.sum_cons,
      List.sum_nil]
    split_ifs <;> simp <;> omega
  · simp only [horphan, if_false, List.sum_append, List.sum_cons, List.sum_nil]
    split_ifs <;> simp <;> omega

lemma maxOrphansExact_iff (hlt : cpPayload < 2 ^ 32) :
    MaxOrphansExact cpPayload ↔ cpPayload ≤ blocksPerSeg - 2 - 6 := by
  have hB : blocksPerSeg = 512 := rfl
  unfold MaxOrphansExact maxOrphans mul32 sub32
  rw [hB]
  omega

/-- Without the NAT bits the blocks are at most those of a segment. -/
lemma totalBlocks_le (hpayload : inp.cpPayload ≤ blocksPerSeg - 2 - 6)
    (horphans : inp.orphanNum ≤ (blocksPerSeg - 2 - 6 - inp.cpPayload) * 1020) :
    inp.totalBlocks ≤ blocksPerSeg := by
  have hB : blocksPerSeg = 512 := rfl
  have hpages := npages_le inp.validSumCount
  have hblocks : getOrphanBlocks inp.orphanNum ≤ blocksPerSeg - 2 - 6 - inp.cpPayload := by
    unfold getOrphanBlocks
    omega
  unfold PackInput.totalBlocks
  split_ifs <;> omega

/-- A pack fits when its parts do, and the NAT bits are no more than a segment. -/
lemma packFits_of_le (hstart : startBlk + blocksPerSeg < 2 ^ 32)
    (htotal : inp.totalBlocks ≤ blocksPerSeg) (hbits : inp.natBitsBlocks ≤ blocksPerSeg) : PackFits startBlk inp := by
  have hB : blocksPerSeg = 512 := rfl
  have hparts : ∀ r ∈ layOut startBlk inp.partLengths,
      startBlk ≤ r.1 ∧ r.1 + r.2 ≤ startBlk + inp.totalBlocks := by
    intro r hr
    rw [← partLengths_sum]
    exact layOut_inside hr
  by_cases hen : inp.enabledNatBits = true
  · have hroom : inp.totalBlocks ≤ blocksPerSeg - inp.natBitsBlocks := by
      have hcheck := hen
      simp only [PackInput.enabledNatBits, Bool.and_eq_true, Bool.not_eq_true', decide_eq_false_iff_not,
        not_lt] at hcheck
      rw [← sub32_of_le hbits (by decide)]
      exact hcheck.2
    have hblk : sub32 (add32 startBlk blocksPerSeg) inp.natBitsBlocks
        = startBlk + (blocksPerSeg - inp.natBitsBlocks) := by
      rw [add32_eq hstart]
      exact sub32_eq (by omega) hstart
    have hranges : packRanges startBlk inp = (startBlk + (blocksPerSeg - inp.natBitsBlocks),
        inp.natBitsBlocks) :: layOut startBlk inp.partLengths := by
      rw [packRanges, PackInput.natBitsRange, if_pos hen, hblk, List.singleton_append]
    constructor
    · rw [hranges]
      refine List.pairwise_cons.mpr ⟨fun r hr => Or.inr ?_, layOut_apart startBlk _⟩
      obtain ⟨hlow, hhigh⟩ := hparts r hr
      simp only
      omega
    · rw [hranges]
      intro r hr
      rcases List.mem_cons.mp hr with rfl | hr
      · simp only
        omega
      · obtain ⟨hlow, hhigh⟩ := hparts r hr
        omega
  · have hnone : packRanges startBlk inp = layOut startBlk inp.partLengths := by
      rw [packRanges, PackInput.natBitsRange, if_neg hen, List.nil_append]
    refine ⟨hnone ▸ layOut_apart startBlk _, fun r hr => ?_⟩
    obtain ⟨hlow, hhigh⟩ := hparts r (hnone ▸ hr)
    omega

/-- **What a checkpoint writes is apart, and inside of the segment**: the header, the payload, the
orphan blocks, the summaries, and the copy of the header. -/
theorem written_parts_fit {a : Area} {inp : CpInput l} (startBlk : ℕ)
    (hcompact : isSetCkptFlags a cpCompactSumFlag
      = decide (f2fsNpagesForSummaryFlush (allocType a) inp < 3)) :
    let parts := layOut startBlk ([1, l.cpPayload]
      ++ (if inp.orphans.length = 0 then [] else [(orphanPages inp.orphans).length])
      ++ [(dataSummaryPages a inp).length]
      ++ (if remainNodeSummaries inp.reason then [(nodeSummaryPages inp).length] else []) ++ [1])
    parts.Pairwise Apart ∧
      ∀ r ∈ parts, startBlk ≤ r.1 ∧ r.1 + r.2 ≤ startBlk + blocksPerSeg := by
  have htotal : (packInput (allocType a) inp false).totalBlocks ≤ blocksPerSeg := by
    rw [totalBlocks_packInput]
    exact packBlocks_le inp _
  rw [← parts_written false hcompact]
  refine ⟨layOut_apart startBlk _, fun r hr => ?_⟩
  obtain ⟨hlow, hhigh⟩ := layOut_inside hr
  rw [partLengths_sum] at hhigh
  exact ⟨hlow, by omega⟩

/-- NAT bits that are larger than a segment are written outside of it. -/
lemma not_packFits_of_gt (hstart : startBlk + blocksPerSeg < 2 ^ 32) (hbits : blocksPerSeg < natBitsBlocks)
    (hlt : natBitsBlocks < 2 ^ 32) (hpayload : cpPayload ≤ blocksPerSeg - 2 - 6) :
    ¬ PackFits startBlk ⟨cpUmount, cpPayload, 0, 0, true, natBitsBlocks⟩ := by
  have hB : blocksPerSeg = 512 := rfl
  have htotal : PackInput.totalBlocks ⟨cpUmount, cpPayload, 0, 0, true, natBitsBlocks⟩
      ≤ blocksPerSeg := totalBlocks_le hpayload (Nat.zero_le _)
  have hcheck : ¬ sub32 blocksPerSeg natBitsBlocks
      < PackInput.totalBlocks ⟨cpUmount, cpPayload, 0, 0, true, natBitsBlocks⟩ := by
    unfold sub32
    omega
  have hen : PackInput.enabledNatBits ⟨cpUmount, cpPayload, 0, 0, true, natBitsBlocks⟩ = true := by
    simp only [PackInput.enabledNatBits, decide_eq_false hcheck]
    decide
  intro hfits
  obtain ⟨hlow, hhigh⟩ := hfits.inside
    (sub32 (add32 startBlk blocksPerSeg) natBitsBlocks, natBitsBlocks)
    (List.mem_append_left _ (by simp [PackInput.natBitsRange, hen]))
  simp only [add32_eq hstart, sub32] at hlow hhigh
  omega

/-- **The pack fits iff the payload leaves room for the summaries, and the NAT bits are not larger than
a segment.** -/
theorem pack_fits_iff (startBlk natBitsBlocks cpPayload : ℕ)
    (hstart : startBlk + blocksPerSeg < 2 ^ 32) (hbits : natBitsBlocks < 2 ^ 32)
    (hpayload : cpPayload < 2 ^ 32) :
    (MaxOrphansExact cpPayload ∧
        ∀ reason orphanNum validSumCount natBitsFlag, orphanNum ≤ maxOrphans cpPayload →
          PackFits startBlk ⟨reason, cpPayload, orphanNum, validSumCount, natBitsFlag, natBitsBlocks⟩) ↔
      cpPayload ≤ blocksPerSeg - 2 - 6 ∧ natBitsBlocks ≤ blocksPerSeg := by
  rw [maxOrphansExact_iff hpayload]
  refine and_congr_right fun hle => ⟨fun hall => ?_, fun hsmall reason orphanNum n flag horphans => ?_⟩
  · by_contra hlarge
    exact not_packFits_of_gt hstart (not_le.mp hlarge) hbits hle
      (hall cpUmount 0 0 true (Nat.zero_le _))
  · refine packFits_of_le hstart (totalBlocks_le hle (horphans.trans ?_)) hsmall
    have hB : blocksPerSeg = 512 := rfl
    simp only [maxOrphans, mul32, sub32]
    omega

theorem pack_fits_iff_small :
    (MaxOrphansExact 4 ∧
        ∀ reason orphanNum validSumCount natBitsFlag, orphanNum ≤ maxOrphans 4 →
          PackFits 512 ⟨reason, 4, orphanNum, validSumCount, natBitsFlag, 1⟩) ↔
      4 ≤ blocksPerSeg - 2 - 6 ∧ 1 ≤ blocksPerSeg :=
  pack_fits_iff 512 1 4 (by decide) (by decide) (by decide)

/-- A payload that the check lets pass.  There may be more than four billion orphan inodes, and without
a single one the pack of an unmount is longer than the segment. -/
theorem sane_payload_overflows : saneCpPayload 510 = true ∧ maxOrphans 510 = 4294961176 ∧
    ¬ MaxOrphansExact 510 ∧ ¬ PackFits 512 ⟨cpUmount, 510, 0, 0, false, 0⟩ := by
  refine ⟨by decide, by decide, ?_, fun hfits => ?_⟩
  · rw [maxOrphansExact_iff (by decide)]
    decide
  · exact absurd (hfits.inside (1027, 1) (by decide)).2 (by decide)

end Hoit.PackLayout
