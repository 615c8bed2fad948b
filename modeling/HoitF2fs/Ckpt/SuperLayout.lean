import HoitF2fs.Lib.Regions
import HoitF2fs.Nvm.NvmFormat

/-!
# What an accepted super block describes

`sanity_check_raw_super` and `sanity_check_area_boundary` compute in 32 bits with counts that come
from the device.  This file compares what they accept with the layout the counts describe in exact
arithmetic, and with what segment selection divides by.

* `checkRawSuper` — both checks, with the super block they leave in memory: a segment count that
  is too large is set right.
* `RealLayout` — CP, SIT, NAT, SSA and MAIN follow each other and end with the segments of the
  device, and the sections fit into MAIN.
* `ChecksSuffice` — **what the checks leave open**: that a sum carries nothing out of 32 bits, the
  test of `section_count` against the segments of MAIN, and the test of `secs_per_zone` against 0.
* `accepted_super_iff` — an accepted super block describes a real layout iff these hold too.

`total_sections` is tested against `segment_count`, which counts the segments of all areas.
-/

namespace Hoit.SuperLayout

open NvmFormat Regions Word32

/-! ## The checks -/

/-- The store into `segment_count` in `sanity_check_area_boundary`, which is made whether or not
the super block can be written back.  The difference is one of 64-bit variables. -/
def fixSegmentCount (raw : RawSuper) : RawSuper :=
  let mainEndBlkaddr := add32 raw.mainBlkaddr (segBlocks raw raw.segmentCountMain)
  let segEndBlkaddr := add32 raw.segment0Blkaddr (segBlocks raw raw.segmentCount)
  if mainEndBlkaddr < segEndBlkaddr then
    { raw with
      segmentCount :=
        (mainEndBlkaddr + 2 ^ 64 - raw.segment0Blkaddr) % 2 ^ 64 / 2 ^ raw.logBlocksPerSeg
          % 2 ^ 32 }
  else raw

/-- `sanity_check_raw_super` with the super block it leaves in memory; `none` if it is refused. -/
def checkRawSuper (raw : RawSuper) (commitFails : Bool) : Option RawSuper :=
  if sanityCheckRawSuper raw commitFails then none else some (fixSegmentCount raw)

/-- The fields of `struct f2fs_sb_info` that segment selection divides by, and the number of
sections. -/
structure SbInfo where
  segsPerSec : ℕ
  secsPerZone : ℕ
  totalSections : ℕ

/-- `init_sb_info`, for these fields. -/
def initSbInfo (raw : RawSuper) : SbInfo where
  segsPerSec := raw.segsPerSec
  secsPerZone := raw.secsPerZone
  totalSections := raw.sectionCount

/-! ## The divisions of segment selection -/

/-- A division as the machine makes it; `none` if it traps. -/
def trapDiv (a b : ℕ) : Option ℕ := if b = 0 then none else some (a / b)

section Divisions

variable (sbi : SbInfo)

/-- `GET_SEC_FROM_SEG`. -/
def getSecFromSeg (segno : ℕ) : Option ℕ := trapDiv segno sbi.segsPerSec

/-- `GET_ZONE_FROM_SEC`. -/
def getZoneFromSec (secno : ℕ) : Option ℕ := trapDiv secno sbi.secsPerZone

/-- `GET_ZONE_FROM_SEG`. -/
def getZoneFromSeg (segno : ℕ) : Option ℕ := (getSecFromSeg sbi segno).bind (getZoneFromSec sbi)

/-- `total_zones` of `get_new_segment`. -/
def totalZones : Option ℕ := trapDiv sbi.totalSections sbi.secsPerZone

/-- No division that `get_new_segment` and `reset_curseg` make can trap.  A remainder by
`segs_per_sec` traps when the quotient does. -/
structure SelectionDivides : Prop where
  sec : ∀ segno, (getSecFromSeg sbi segno).isSome
  zone : ∀ secno, (getZoneFromSec sbi secno).isSome
  zoneOfSeg : ∀ segno, (getZoneFromSeg sbi segno).isSome
  zones : (totalZones sbi).isSome

variable {sbi}

lemma trapDiv_isSome_iff {a b : ℕ} : (trapDiv a b).isSome ↔ b ≠ 0 := by
  unfold trapDiv
  split_ifs with hzero
  · simp [hzero]
  · simp [hzero]

lemma selectionDivides_iff : SelectionDivides sbi ↔ sbi.segsPerSec ≠ 0 ∧ sbi.secsPerZone ≠ 0 := by
  constructor
  · intro h
    exact ⟨trapDiv_isSome_iff.mp (h.sec 0), trapDiv_isSome_iff.mp (h.zone 0)⟩
  · rintro ⟨hsec, hzone⟩
    have hquot : ∀ segno, getSecFromSeg sbi segno = some (segno / sbi.segsPerSec) :=
      fun segno => if_neg hsec
    refine ⟨fun segno => trapDiv_isSome_iff.mpr hsec, fun secno => trapDiv_isSome_iff.mpr hzone,
      fun segno => ?_, trapDiv_isSome_iff.mpr hzone⟩
    show ((getSecFromSeg sbi segno).bind (getZoneFromSec sbi)).isSome
    rw [hquot segno]
    exact trapDiv_isSome_iff.mpr hzone

end Divisions

/-! ## The layout -/

section Layout

variable (raw : RawSuper)

/-- The length of `segments` segments, exactly. -/
def exactBlocks (segments : ℕ) : ℕ := segments * 2 ^ raw.logBlocksPerSeg

def cpArea : Region := ⟨raw.cpBlkaddr, exactBlocks raw raw.segmentCountCkpt⟩

def sitArea : Region := ⟨raw.sitBlkaddr, exactBlocks raw raw.segmentCountSit⟩

def natArea : Region := ⟨raw.natBlkaddr, exactBlocks raw raw.segmentCountNat⟩

def ssaArea : Region := ⟨raw.ssaBlkaddr, exactBlocks raw raw.segmentCountSsa⟩

def mainArea : Region := ⟨raw.mainBlkaddr, exactBlocks raw raw.segmentCountMain⟩

def areas : List Region := [cpArea raw, sitArea raw, natArea raw, ssaArea raw, mainArea raw]

/-- All segments of the device. -/
def allSegments : Region := ⟨raw.segment0Blkaddr, exactBlocks raw raw.segmentCount⟩

/-- The counts of the super block in exact arithmetic. -/
structure RealLayout : Prop where
  contiguous : (areas raw).IsChain Region.Abuts
  ordered : (areas raw).Pairwise Region.Before
  disjoint : (areas raw).Pairwise Region.Apart
  mainInside : (mainArea raw).stop ≤ (allSegments raw).stop
  sectionsFit : raw.sectionCount * raw.segsPerSec ≤ raw.segmentCountMain

/-- What the 32-bit sum for the end of a region loses, in units of `2 ^ 32`. -/
def carry (r : Region) : ℕ := r.stop / 2 ^ 32

/-- What the checks leave open: CP, SIT, NAT and SSA end below `2 ^ 32`, the end of MAIN carries no
more than that of all segments, and the tests that `section_count` and `secs_per_zone` lack. -/
structure ChecksSuffice : Prop where
  cp : carry (cpArea raw) = 0
  sit : carry (sitArea raw) = 0
  nat : carry (natArea raw) = 0
  ssa : carry (ssaArea raw) = 0
  main : carry (mainArea raw) ≤ carry (allSegments raw)
  sections : ¬ raw.segmentCountMain / raw.segsPerSec < raw.sectionCount
  zone : raw.secsPerZone ≠ 0

variable {raw}

lemma isChain_areas_iff :
    (areas raw).IsChain Region.Abuts
      ↔ (cpArea raw).Abuts (sitArea raw) ∧ (sitArea raw).Abuts (natArea raw)
        ∧ (natArea raw).Abuts (ssaArea raw) ∧ (ssaArea raw).Abuts (mainArea raw) := by
  simp [areas]

/-- The 32-bit sum of the checks is the low word of the exact one. -/
lemma add32_segBlocks (a segments : ℕ) :
    add32 a (segBlocks raw segments) = (a + exactBlocks raw segments) % 2 ^ 32 := by
  unfold add32 segBlocks mul32 exactBlocks
  exact Nat.add_mod_mod _ _ _

/-! ## What the checks establish -/

/-- The relations between the fields that hold of every accepted super block. -/
structure Accepted (raw : RawSuper) : Prop where
  start : raw.segment0Blkaddr = raw.cpBlkaddr
  cp : (cpArea raw).stop % 2 ^ 32 = raw.sitBlkaddr
  sit : (sitArea raw).stop % 2 ^ 32 = raw.natBlkaddr
  nat : (natArea raw).stop % 2 ^ 32 = raw.ssaBlkaddr
  ssa : (ssaArea raw).stop % 2 ^ 32 = raw.mainBlkaddr
  main : (mainArea raw).stop % 2 ^ 32 ≤ (allSegments raw).stop % 2 ^ 32
  log : raw.logBlocksPerSeg = 9
  segments : raw.segmentCount ≤ 2 ^ 23
  perSec : raw.segsPerSec ≠ 0
  payload : raw.cpPayload ≤ 510

lemma accepted_of_check {commitFails : Bool} (h : sanityCheckRawSuper raw commitFails = false) :
    Accepted raw := by
  simp only [sanityCheckRawSuper, sanityCheckAreaBoundary, add32_segBlocks, Bool.or_eq_false_iff,
    bne_eq_false_iff_eq, decide_eq_false_iff_not, not_lt, beq_eq_false_iff_ne, and_assoc] at h
  obtain ⟨-, -, hlog, -, -, -, hsegments, -, -, -, -, hperSec, -, -, -, -, -, -, hpayload, -, -, -,
    hstart, hcp, hsit, hnat, hssa, hmain, -⟩ := h
  rw [hlog] at hpayload
  exact ⟨hstart, hcp, hsit, hnat, hssa, hmain, hlog, hsegments, hperSec, hpayload⟩

/-- An area whose end was compared with the start of the next one ends there iff nothing is
carried. -/
lemma abuts_iff {r s : Region} (h : r.stop % 2 ^ 32 = s.start) : r.Abuts s ↔ carry r = 0 :=
  eq_iff_carry_eq (by decide) h

lemma Accepted.isChain_iff (h : Accepted raw) :
    (areas raw).IsChain Region.Abuts
      ↔ carry (cpArea raw) = 0 ∧ carry (sitArea raw) = 0 ∧ carry (natArea raw) = 0
        ∧ carry (ssaArea raw) = 0 := by
  rw [isChain_areas_iff, abuts_iff (s := sitArea raw) h.cp, abuts_iff (s := natArea raw) h.sit,
    abuts_iff (s := ssaArea raw) h.nat, abuts_iff (s := mainArea raw) h.ssa]

lemma Accepted.mainInside_iff (h : Accepted raw) :
    (mainArea raw).stop ≤ (allSegments raw).stop
      ↔ carry (mainArea raw) ≤ carry (allSegments raw) :=
  le_iff_carry_le h.main

/-- The test the code makes with `segment_count`, made with the segments of MAIN. -/
lemma Accepted.sectionsFit_iff (h : Accepted raw) :
    raw.sectionCount * raw.segsPerSec ≤ raw.segmentCountMain
      ↔ ¬ raw.segmentCountMain / raw.segsPerSec < raw.sectionCount := by
  rw [not_lt, Nat.le_div_iff_mul_le (Nat.pos_of_ne_zero h.perSec)]

/-! ## The segment count that is set right -/

/-- When the areas follow each other, MAIN ends a whole number of segments behind segment 0. -/
lemma Accepted.mainArea_stop (h : Accepted raw) (hreal : RealLayout raw) :
    ∃ n ≤ raw.segmentCount, (mainArea raw).stop = raw.segment0Blkaddr + n * 512 := by
  obtain ⟨hcp, hsit, hnat, hssa⟩ := isChain_areas_iff.mp hreal.contiguous
  have hmain := hreal.mainInside
  have hstart := h.start
  have hlog : (2 : ℕ) ^ raw.logBlocksPerSeg = 512 := by
    rw [h.log]
    decide
  simp only [Region.Abuts, Region.stop, cpArea, sitArea, natArea, ssaArea, mainArea, allSegments,
    exactBlocks, hlog] at hcp hsit hnat hssa hmain ⊢
  refine ⟨raw.segmentCountCkpt + raw.segmentCountSit + raw.segmentCountNat + raw.segmentCountSsa
    + raw.segmentCountMain, ?_, ?_⟩
  · omega
  · omega

/-- The count that is stored. -/
def fixedCount (raw : RawSuper) : ℕ :=
  ((mainArea raw).stop % 2 ^ 32 + 2 ^ 64 - raw.segment0Blkaddr) % 2 ^ 64 / 2 ^ raw.logBlocksPerSeg
    % 2 ^ 32

lemma fixSegmentCount_eq :
    fixSegmentCount raw = if (mainArea raw).stop % 2 ^ 32 < (allSegments raw).stop % 2 ^ 32 then
      { raw with segmentCount := fixedCount raw } else raw := by
  have hmain : add32 raw.mainBlkaddr (segBlocks raw raw.segmentCountMain)
      = (mainArea raw).stop % 2 ^ 32 := add32_segBlocks _ _
  have hall : add32 raw.segment0Blkaddr (segBlocks raw raw.segmentCount)
      = (allSegments raw).stop % 2 ^ 32 := add32_segBlocks _ _
  unfold fixSegmentCount fixedCount
  rw [← hmain, ← hall]

/-- The new count may have wrapped around, but then it is larger than the right one. -/
lemma Accepted.le_fixedCount (h : Accepted raw) (hreal : RealLayout raw)
    (hfix : (mainArea raw).stop % 2 ^ 32 < (allSegments raw).stop % 2 ^ 32) :
    (mainArea raw).stop ≤ raw.segment0Blkaddr + fixedCount raw * 512 := by
  obtain ⟨n, hn, hstop⟩ := h.mainArea_stop hreal
  have hsegments := h.segments
  have hlt := raw.segment0Blkaddr_lt
  have hlog : (2 : ℕ) ^ raw.logBlocksPerSeg = 512 := by
    rw [h.log]
    decide
  have hall : (allSegments raw).stop = raw.segment0Blkaddr + raw.segmentCount * 512 := by
    simp only [allSegments, Region.stop, exactBlocks, hlog]
  unfold fixedCount
  rw [hlog]
  rw [hstop] at hfix ⊢
  rw [hall] at hfix
  have hne : n ≠ raw.segmentCount := by
    rintro rfl
    exact lt_irrefl _ hfix
  omega

/-- The areas do not depend on the number of all segments. -/
lemma RealLayout.withCount (hreal : RealLayout raw) {n : ℕ}
    (h : (mainArea raw).stop ≤ raw.segment0Blkaddr + n * 2 ^ raw.logBlocksPerSeg) :
    RealLayout { raw with segmentCount := n } :=
  ⟨hreal.contiguous, hreal.ordered, hreal.disjoint, h, hreal.sectionsFit⟩

lemma Accepted.realLayout_fixSegmentCount (h : Accepted raw) (hreal : RealLayout raw) :
    RealLayout (fixSegmentCount raw) := by
  rw [fixSegmentCount_eq]
  split_ifs with hfix
  · apply hreal.withCount
    rw [h.log]
    exact h.le_fixedCount hreal hfix
  · exact hreal

lemma initSbInfo_withCount (n : ℕ) : initSbInfo { raw with segmentCount := n } = initSbInfo raw :=
  rfl

/-- The divisors are not touched by the new count. -/
lemma initSbInfo_fixSegmentCount : initSbInfo (fixSegmentCount raw) = initSbInfo raw := by
  rw [fixSegmentCount_eq]
  split_ifs
  · exact initSbInfo_withCount _
  · rfl

lemma cpPayload_fixSegmentCount : (fixSegmentCount raw).cpPayload = raw.cpPayload := by
  rw [fixSegmentCount_eq]
  split_ifs
  · rfl
  · rfl

lemma Accepted.realLayout_iff (h : Accepted raw) :
    RealLayout raw ↔ (carry (cpArea raw) = 0 ∧ carry (sitArea raw) = 0 ∧ carry (natArea raw) = 0
        ∧ carry (ssaArea raw) = 0) ∧ carry (mainArea raw) ≤ carry (allSegments raw)
      ∧ ¬ raw.segmentCountMain / raw.segsPerSec < raw.sectionCount := by
  rw [← h.isChain_iff, ← h.mainInside_iff, ← h.sectionsFit_iff]
  constructor
  · intro hreal
    exact ⟨hreal.contiguous, hreal.mainInside, hreal.sectionsFit⟩
  · rintro ⟨hchain, hinside, hfit⟩
    exact ⟨hchain, pairwise_before_of_abuts hchain, pairwise_apart_of_abuts hchain, hinside,
      hfit⟩

/-- What `checkRawSuper` says when it accepts. -/
lemma accepted_of_checkRawSuper {left : RawSuper} {commitFails : Bool}
    (h : checkRawSuper raw commitFails = some left) :
    Accepted raw ∧ left = fixSegmentCount raw := by
  unfold checkRawSuper at h
  split_ifs at h with hrefused
  exact ⟨accepted_of_check (Bool.eq_false_iff.mpr hrefused), (Option.some.inj h).symm⟩

end Layout

/-- **An accepted super block describes a real layout, as it was read and as it is left in memory,
and nothing traps in segment selection, iff what the checks leave open holds too.** -/
theorem accepted_super_iff {raw left : RawSuper} {commitFails : Bool}
    (haccepted : checkRawSuper raw commitFails = some left) :
    (RealLayout raw ∧ RealLayout left ∧ SelectionDivides (initSbInfo left))
      ↔ ChecksSuffice raw := by
  obtain ⟨hacc, rfl⟩ := accepted_of_checkRawSuper haccepted
  rw [initSbInfo_fixSegmentCount, selectionDivides_iff]
  constructor
  · rintro ⟨hreal, -, -, hzone⟩
    obtain ⟨⟨hcp, hsit, hnat, hssa⟩, hmain, hsections⟩ := hacc.realLayout_iff.mp hreal
    exact ⟨hcp, hsit, hnat, hssa, hmain, hsections, hzone⟩
  · intro h
    have hreal : RealLayout raw :=
      hacc.realLayout_iff.mpr ⟨⟨h.cp, h.sit, h.nat, h.ssa⟩, h.main, h.sections⟩
    exact ⟨hreal, hacc.realLayout_fixSegmentCount hreal, hacc.perSec, h.zone⟩

/-- The super block of an SSD that has room for one segment more than MAIN uses. -/
def surplusRaw : RawSuper := { largeRaw with segmentCount := 601419, blockCount := 307927040 }

theorem accepted_super_surplusRaw :
    checkRawSuper surplusRaw false = some (fixSegmentCount surplusRaw)
      ∧ (fixSegmentCount surplusRaw).segmentCount = 601418
      ∧ RealLayout surplusRaw ∧ RealLayout (fixSegmentCount surplusRaw)
      ∧ SelectionDivides (initSbInfo (fixSegmentCount surplusRaw)) := by
  have haccepted : checkRawSuper surplusRaw false = some (fixSegmentCount surplusRaw) := by
    unfold checkRawSuper
    rw [if_neg (by decide +kernel)]
  have hsuffice : ChecksSuffice surplusRaw := by
    constructor <;> decide +kernel
  exact ⟨haccepted, by decide +kernel, (accepted_super_iff haccepted).mpr hsuffice⟩

/-- `secs_per_zone` is 0. -/
def zonelessRaw : RawSuper := { largeRaw with secsPerZone := 0 }

/-- There are `2 ^ 23` segments more in NAT than between its start and its end. -/
def wrappedRaw : RawSuper := { largeRaw with segmentCountNat := 200 + 2 ^ 23 }

/-- All segments are counted as sections of MAIN. -/
def spilledRaw : RawSuper := { largeRaw with sectionCount := 601418 }

/-- Each of the three is accepted. -/
theorem accepted_super_unreal :
    ((checkRawSuper zonelessRaw false).isSome ∧ ¬ SelectionDivides (initSbInfo zonelessRaw))
      ∧ ((checkRawSuper wrappedRaw false).isSome ∧ ¬ RealLayout wrappedRaw)
      ∧ ((checkRawSuper spilledRaw false).isSome ∧ ¬ RealLayout spilledRaw)
      ∧ ¬ ∀ (raw left : RawSuper) (commitFails : Bool), checkRawSuper raw commitFails = some left →
        RealLayout raw ∧ RealLayout left ∧ SelectionDivides (initSbInfo left) := by
  have haccepted : ∀ raw, sanityCheckRawSuper raw false = false →
      checkRawSuper raw false = some (fixSegmentCount raw) := by
    intro raw h
    unfold checkRawSuper
    rw [h]
    rfl
  have hzoneless := haccepted zonelessRaw (by decide +kernel)
  have hwrapped := haccepted wrappedRaw (by decide +kernel)
  have hspilled := haccepted spilledRaw (by decide +kernel)
  have htrap : ¬ SelectionDivides (initSbInfo zonelessRaw) := fun h =>
    (selectionDivides_iff.mp h).2 rfl
  refine ⟨⟨hzoneless ▸ rfl, htrap⟩, ⟨hwrapped ▸ rfl, ?_⟩, ⟨hspilled ▸ rfl, ?_⟩, ?_⟩
  · intro h
    have habuts : (natArea wrappedRaw).Abuts (ssaArea wrappedRaw) :=
      (isChain_areas_iff.mp h.contiguous).2.2.1
    exact absurd habuts (by unfold Region.Abuts; decide +kernel)
  · intro h
    exact absurd h.sectionsFit (by decide +kernel)
  · intro hall
    have hdiv := (hall _ _ _ hzoneless).2.2
    rw [initSbInfo_fixSegmentCount] at hdiv
    exact htrap hdiv

end Hoit.SuperLayout
