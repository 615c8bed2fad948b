import HoitF2fs.Nvm.Mpt
import HoitF2fs.Segment.Sit

/-!
# Choosing a device by load

`nvm_alloc` decides on which device a segment is opened, and `use_ssd` from which a block with two
copies is read.  Both look at the share of the NVM queue in the two queue lengths, in percent;
`nvm_alloc` compares it with a boundary that sinks while the NVM fills up.  The queue lengths are
differences of two samples of `/proc/diskstats` and can be any 32-bit number, and everything is
computed in 32 bits.

* `aquRatio` — the share; `none` is a division by zero.
* `realBoundary` — the boundary, less its discount.
* `nvmAlloc`, `useSsd` — the two choices.

The discount is never more than half of the boundary, whatever the segment counts are
(`spaceDiscount_le`).  The share is what it is meant to be **iff neither the product nor the sum
wraps around**; beyond that a longer queue looks shorter, up to a sum of zero
(`load_choice_exact_iff`).
-/

namespace Hoit

open Segment

/-- `low_boundary`, in percent. -/
def lowBoundary : BitVec 32 := 33#32

/-- `high_boundary`, in percent. -/
def highBoundary : BitVec 32 := 66#32

def spaceWeight : BitVec 32 := 16#32

/-- `write_threshold`. -/
def writeThreshold : BitVec 32 := 10#32

/-- `nvm_aqu_threshold`, in percent. -/
def nvmAquThreshold : BitVec 32 := 97#32

/-- A queue length of zero counts as one. -/
def patchZero (auqSz : BitVec 32) : BitVec 32 := if auqSz = 0#32 then 1#32 else auqSz

/-- The share of the NVM queue, in percent. -/
def aquRatio (ssdAquSz nvmAquSz : BitVec 32) : Option (BitVec 32) :=
  let ssd := patchZero ssdAquSz
  let nvm := patchZero nvmAquSz
  if ssd + nvm = 0#32 then none else some (100#32 * nvm / (ssd + nvm))

/-- What is taken off a boundary when more than half of the NVM segments are used. -/
def spaceDiscount (used all : BitVec 32) : BitVec 32 := spaceWeight * (2#32 * used - all) / all

/-- A boundary, once the space that is left has been considered. -/
def realBoundary (boundary used all : BitVec 32) : Option (BitVec 32) :=
  if all < 2#32 * used then
    if all = 0#32 then none else some (boundary - spaceDiscount used all)
  else some boundary

/-- `nvm_alloc`.  The high boundary is computed, and nothing is made of it. -/
def nvmAlloc (mainSegmentNums mainSegmentFreeNums : BitVec 32) (ssdAquSz nvmAquSz : BitVec 32)
    (type : CursegType) : Option Bool :=
  let used := mainSegmentNums - mainSegmentFreeNums
  if type = .hotData ∨ type = .hotNode then some true
  else
    (aquRatio ssdAquSz nvmAquSz).bind fun ratio =>
      (realBoundary lowBoundary used mainSegmentNums).bind fun realLowBoundary =>
        (realBoundary highBoundary used mainSegmentNums).map fun _ =>
          decide (ratio < realLowBoundary)

/-- `use_ssd`. -/
def useSsd (mpt : Mpt) (writeRatio ssdAquSz nvmAquSz : BitVec 32) (index : ℕ) : Option Bool :=
  if writeRatio < writeThreshold ∧ getDoubleFlag mpt index = true then
    (aquRatio ssdAquSz nvmAquSz).map fun ratio => decide (nvmAquThreshold ≤ ratio)
  else some false

/-! ## The share -/

/-- The share that is meant. -/
def exactRatio (ssd nvm : ℕ) : ℕ := 100 * max 1 nvm / (max 1 ssd + max 1 nvm)

variable {ssd nvm used all boundary : BitVec 32} {m n n' : ℕ}

lemma patchZero_toNat (x : BitVec 32) : (patchZero x).toNat = max 1 x.toNat := by
  unfold patchZero
  split_ifs with h
  · subst h
    rfl
  · have hne : x.toNat ≠ 0 := fun h0 => h (BitVec.eq_of_toNat_eq h0)
    omega

lemma exactRatio_le (m n : ℕ) : exactRatio m n ≤ 100 := by
  have hle : 100 * max 1 n ≤ 100 * (max 1 m + max 1 n) :=
    Nat.mul_le_mul_left 100 (Nat.le_add_left (max 1 n) (max 1 m))
  refine Nat.div_le_of_le_mul ?_
  rwa [Nat.mul_comm (max 1 m + max 1 n)]

/-- A longer NVM queue has a larger share. -/
lemma exactRatio_mono (h : n ≤ n') : exactRatio m n ≤ exactRatio m n' := by
  have hmax : max 1 n ≤ max 1 n' := max_le_max le_rfl h
  have hle := exactRatio_le m n
  have hq : exactRatio m n * (max 1 m + max 1 n) ≤ 100 * max 1 n := Nat.div_mul_le_self _ _
  unfold exactRatio at hle hq ⊢
  generalize 100 * max 1 n / (max 1 m + max 1 n) = q at hle hq ⊢
  rw [Nat.le_div_iff_mul_le (by omega)]
  obtain ⟨c, hc⟩ := Nat.exists_eq_add_of_le hle
  -- the part of the SSD queue, `q * m`, is covered by `c` times the NVM queue
  have hcover : q * max 1 m ≤ c * max 1 n := by
    rw [hc, Nat.mul_add, Nat.add_mul] at hq
    omega
  have hmore : c * max 1 n ≤ c * max 1 n' := Nat.mul_le_mul_left c hmax
  rw [hc, Nat.mul_add, Nat.add_mul]
  omega

/-- The sum of the two queues, in 32 bits. -/
lemma aqu_sum_toNat : (patchZero ssd + patchZero nvm).toNat
    = (max 1 ssd.toNat + max 1 nvm.toNat) % 2 ^ 32 := by
  rw [BitVec.toNat_add, patchZero_toNat, patchZero_toNat]

lemma aquRatio_of_sum_ne (h : (max 1 ssd.toNat + max 1 nvm.toNat) % 2 ^ 32 ≠ 0) :
    ∃ r, aquRatio ssd nvm = some r ∧
      r.toNat = 100 * max 1 nvm.toNat % 2 ^ 32
        / ((max 1 ssd.toNat + max 1 nvm.toNat) % 2 ^ 32) := by
  have hne : patchZero ssd + patchZero nvm ≠ 0#32 := by
    intro h0
    rw [← aqu_sum_toNat, h0] at h
    exact h rfl
  refine ⟨_, if_neg hne, ?_⟩
  rw [BitVec.toNat_udiv, aqu_sum_toNat, BitVec.toNat_mul, patchZero_toNat]
  rfl

lemma aquRatio_of_sum_eq (h : (max 1 ssd.toNat + max 1 nvm.toNat) % 2 ^ 32 = 0) :
    aquRatio ssd nvm = none := by
  refine if_pos (BitVec.eq_of_toNat_eq ?_)
  rw [aqu_sum_toNat, h]
  rfl

/-- The share is computed, and it is the share that is meant. -/
def RatioExact (ssd nvm : BitVec 32) : Prop :=
  ∃ r, aquRatio ssd nvm = some r ∧ r.toNat = exactRatio ssd.toNat nvm.toNat ∧ r.toNat ≤ 100

lemma ratioExact_of_fits (hmul : 100 * max 1 nvm.toNat < 2 ^ 32)
    (hadd : max 1 ssd.toNat + max 1 nvm.toNat < 2 ^ 32) : RatioExact ssd nvm := by
  obtain ⟨r, hr, hval⟩ := @aquRatio_of_sum_ne ssd nvm (by
    rw [Nat.mod_eq_of_lt hadd]
    omega)
  rw [Nat.mod_eq_of_lt hadd, Nat.mod_eq_of_lt hmul] at hval
  exact ⟨r, hr, hval, hval ▸ exactRatio_le ssd.toNat nvm.toNat⟩

/-- A product that wraps around makes the share too small. -/
lemma not_ratioExact_of_mul (hmul : 2 ^ 32 ≤ 100 * max 1 nvm.toNat)
    (hadd : max 1 ssd.toNat + max 1 nvm.toNat < 2 ^ 32) : ¬ RatioExact ssd nvm := by
  rintro ⟨r, hr, hexact, -⟩
  have hpos : 0 < max 1 ssd.toNat + max 1 nvm.toNat := by omega
  obtain ⟨r', hr', hval⟩ := @aquRatio_of_sum_ne ssd nvm (by
    rw [Nat.mod_eq_of_lt hadd]
    omega)
  obtain rfl : r = r' := Option.some.inj (hr.symm.trans hr')
  rw [Nat.mod_eq_of_lt hadd] at hval
  have hless : 100 * max 1 nvm.toNat % 2 ^ 32 + (max 1 ssd.toNat + max 1 nvm.toNat)
      ≤ 100 * max 1 nvm.toNat := by omega
  have hdiv := Nat.div_le_div_right (c := max 1 ssd.toNat + max 1 nvm.toNat) hless
  rw [Nat.add_div_right _ hpos, ← hval, hexact, exactRatio] at hdiv
  exact absurd hdiv (Nat.not_succ_le_self _)

/-! ## The boundary -/

/-- **The discount is at most the weight**: if the product wraps around, there are so many segments
that its quotient is small. -/
lemma spaceDiscount_le (hused : used ≤ all) (hhalf : all < 2#32 * used) :
    spaceDiscount used all ≤ spaceWeight := by
  rw [BitVec.le_def] at hused ⊢
  rw [BitVec.lt_def, BitVec.toNat_mul] at hhalf
  have hall := all.isLt
  have hdouble : (2#32).toNat * used.toNat % 2 ^ 32 = 2 * used.toNat := by
    change 2 * used.toNat % 2 ^ 32 = _
    change all.toNat < 2 * used.toNat % 2 ^ 32 at hhalf
    omega
  rw [hdouble] at hhalf
  have hsub : (2#32 * used - all).toNat = 2 * used.toNat - all.toNat := by
    rw [BitVec.toNat_sub, BitVec.toNat_mul, hdouble]
    omega
  rw [spaceDiscount, BitVec.toNat_udiv, BitVec.toNat_mul, hsub]
  change 16 * (2 * used.toNat - all.toNat) % 2 ^ 32 / all.toNat ≤ 16
  refine Nat.div_le_of_le_mul ((Nat.mod_le _ _).trans ?_)
  omega

/-- **No boundary underflows**, and its division is by the number of segments, which is not 0. -/
lemma realBoundary_exact (hused : used ≤ all) (hboundary : spaceWeight ≤ boundary) :
    ∃ b, realBoundary boundary used all = some b ∧
      b.toNat = boundary.toNat
        - if all < 2#32 * used then (spaceDiscount used all).toNat else 0 := by
  unfold realBoundary
  split_ifs with hhalf hzero
  · rw [hzero, BitVec.le_def] at hused
    have h0 : used = 0#32 := BitVec.eq_of_toNat_eq (Nat.le_zero.mp hused)
    rw [hzero, h0] at hhalf
    exact absurd hhalf (by decide)
  · have hle := spaceDiscount_le hused hhalf
    rw [BitVec.le_def] at hle hboundary
    refine ⟨_, rfl, ?_⟩
    rw [BitVec.toNat_sub_of_le (BitVec.le_def.mpr (hle.trans hboundary))]
  · exact ⟨_, rfl, rfl⟩

/-! ## The choice -/

/-- The arithmetic of both functions, on one sample of the queues: no division by zero, the share
that is meant, and no boundary that underflows. -/
structure LoadExact (ssd nvm used all : BitVec 32) : Prop where
  ratio : RatioExact ssd nvm
  low : ∃ b, realBoundary lowBoundary used all = some b ∧ b.toNat = lowBoundary.toNat
    - if all < 2#32 * used then (spaceDiscount used all).toNat else 0
  high : ∃ b, realBoundary highBoundary used all = some b ∧ b.toNat = highBoundary.toNat
    - if all < 2#32 * used then (spaceDiscount used all).toNat else 0
  discount : all < 2#32 * used → spaceDiscount used all ≤ lowBoundary

/-- The choices of `nvm_alloc` for NVM queues up to `longest`: a longer queue never turns a choice
of the SSD into one of the NVM. -/
def ChoiceMonotone (all free ssd longest : BitVec 32) (type : CursegType) : Prop :=
  ∀ nvm nvm' : BitVec 32, nvm ≤ nvm' → nvm' ≤ longest →
    nvmAlloc all free ssd nvm type = some false → nvmAlloc all free ssd nvm' type = some false

lemma loadExact_of_ratio (hused : used ≤ all) (h : RatioExact ssd nvm) :
    LoadExact ssd nvm used all := by
  refine ⟨h, realBoundary_exact hused (by decide), realBoundary_exact hused (by decide),
    fun hhalf => ?_⟩
  have hle := spaceDiscount_le hused hhalf
  rw [BitVec.le_def] at hle ⊢
  exact hle.trans (by decide)

lemma nvmAlloc_eq {free r : BitVec 32} {type : CursegType} (hused : all - free ≤ all)
    (hr : aquRatio ssd nvm = some r) (hcold : ¬ (type = .hotData ∨ type = .hotNode)) :
    ∃ b, realBoundary lowBoundary (all - free) all = some b ∧
      nvmAlloc all free ssd nvm type = some (decide (r < b)) := by
  obtain ⟨b, hb, -⟩ := realBoundary_exact hused (show spaceWeight ≤ lowBoundary by decide)
  obtain ⟨c, hc, -⟩ := realBoundary_exact hused (show spaceWeight ≤ highBoundary by decide)
  refine ⟨b, hb, ?_⟩
  unfold nvmAlloc
  rw [if_neg hcold, hr, Option.bind_some, hb, Option.bind_some, hc, Option.map_some]

lemma choiceMonotone_of_ratio {free longest : BitVec 32} {type : CursegType}
    (hused : all - free ≤ all) (h : ∀ nvm ≤ longest, RatioExact ssd nvm) :
    ChoiceMonotone all free ssd longest type := by
  intro nvm nvm' hle hlong hchoice
  by_cases hhot : type = .hotData ∨ type = .hotNode
  · rw [nvmAlloc, if_pos hhot] at hchoice
    exact absurd hchoice (by simp)
  · obtain ⟨r, hr, hval, -⟩ := h nvm (BitVec.le_trans hle hlong)
    obtain ⟨r', hr', hval', -⟩ := h nvm' hlong
    obtain ⟨b, hb, heq⟩ := nvmAlloc_eq hused hr hhot
    obtain ⟨b', hb', heq'⟩ := nvmAlloc_eq hused hr' hhot
    obtain rfl : b = b' := Option.some.inj (hb.symm.trans hb')
    have hmono : r.toNat ≤ r'.toNat := by
      rw [hval, hval']
      exact exactRatio_mono (BitVec.le_def.mp hle)
    rw [heq, Option.some.injEq, decide_eq_false_iff_not, BitVec.lt_def] at hchoice
    rw [heq', Option.some.injEq, decide_eq_false_iff_not, BitVec.lt_def]
    omega

/-- The queue length at which the sum of the two becomes zero, if there is one up to `longest`. -/
lemma exists_sum_zero {longest : BitVec 32}
    (hadd : 2 ^ 32 ≤ max 1 ssd.toNat + max 1 longest.toNat) :
    ∃ nvm ≤ longest, max 1 ssd.toNat + max 1 nvm.toNat = 2 ^ 32 := by
  have hssd := ssd.isLt
  rcases Nat.eq_zero_or_pos longest.toNat with hzero | hpos
  · refine ⟨longest, BitVec.le_refl longest, ?_⟩
    omega
  · have hlt : 2 ^ 32 - max 1 ssd.toNat < 2 ^ 32 := by omega
    refine ⟨BitVec.ofNat 32 (2 ^ 32 - max 1 ssd.toNat), ?_, ?_⟩
    · rw [BitVec.le_def, BitVec.toNat_ofNat, Nat.mod_eq_of_lt hlt]
      omega
    · rw [BitVec.toNat_ofNat, Nat.mod_eq_of_lt hlt]
      omega

/-- **The choice by load is exact for all NVM queues up to a length iff neither 100 times that
length nor its sum with the SSD queue wraps around.** -/
theorem load_choice_exact_iff (all free ssd longest : BitVec 32) (type : CursegType)
    (hfree : free ≤ all) :
    ((∀ nvm ≤ longest, LoadExact ssd nvm (all - free) all) ∧
        ChoiceMonotone all free ssd longest type) ↔
      100 * max 1 longest.toNat < 2 ^ 32 ∧
        max 1 ssd.toNat + max 1 longest.toNat < 2 ^ 32 := by
  have hused : all - free ≤ all := by
    rw [BitVec.le_def, BitVec.toNat_sub_of_le hfree]
    exact Nat.sub_le _ _
  constructor
  · rintro ⟨hexact, -⟩
    have hadd : max 1 ssd.toNat + max 1 longest.toNat < 2 ^ 32 := by
      by_contra hwrap
      obtain ⟨nvm, hnvm, hsum⟩ := exists_sum_zero (not_lt.mp hwrap)
      obtain ⟨r, hr, -⟩ := (hexact nvm hnvm).ratio
      rw [aquRatio_of_sum_eq (by rw [hsum, Nat.mod_self])] at hr
      exact absurd hr (by simp)
    refine ⟨?_, hadd⟩
    by_contra hwrap
    exact not_ratioExact_of_mul (not_lt.mp hwrap) hadd
      (hexact longest (BitVec.le_refl longest)).ratio
  · rintro ⟨hmul, hadd⟩
    have hexact : ∀ nvm ≤ longest, RatioExact ssd nvm := by
      intro nvm hle
      rw [BitVec.le_def] at hle
      exact ratioExact_of_fits (by omega) (by omega)
    exact ⟨fun nvm hle => loadExact_of_ratio hused (hexact nvm hle),
      choiceMonotone_of_ratio hused hexact⟩

/-- Of 100 segments 40 are free.  With one request on the SSD, a queue of one request on the NVM is
long enough for the choice of the SSD; one of 42949673 is not, and one of `2 ^ 32 - 1` makes the
sum of the two queues zero, in both functions. -/
theorem long_queue_looks_short :
    nvmAlloc 100#32 40#32 1#32 1#32 .warmData = some false ∧
      nvmAlloc 100#32 40#32 1#32 42949673#32 .warmData = some true ∧
      ¬ ChoiceMonotone 100#32 40#32 1#32 42949673#32 .warmData ∧
      ¬ LoadExact 1#32 42949673#32 60#32 100#32 ∧
      nvmAlloc 100#32 40#32 1#32 (-1#32) .warmData = none ∧
      useSsd (fun _ => rwDouble) 0#32 1#32 (-1#32) 0 = none := by
  have hshort : nvmAlloc 100#32 40#32 1#32 1#32 .warmData = some false := by decide
  have hlong : nvmAlloc 100#32 40#32 1#32 42949673#32 .warmData = some true := by decide
  refine ⟨hshort, hlong, fun h => ?_, fun h => ?_, by decide, by decide⟩
  · have hsame := h 1#32 42949673#32 (by decide) (by decide) hshort
    rw [hlong] at hsame
    exact absurd hsame (by decide)
  · obtain ⟨r, hr, hexact, -⟩ := h.ratio
    have hzero : aquRatio 1#32 42949673#32 = some 0#32 := by decide
    rw [hzero, Option.some.injEq] at hr
    subst hr
    exact absurd hexact (by decide)

theorem load_choice_exact_iff_hundred :
    (40#32 ≤ 100#32) ∧
      (((∀ nvm ≤ 1000#32, LoadExact 7#32 nvm (100#32 - 40#32) 100#32) ∧
          ChoiceMonotone 100#32 40#32 7#32 1000#32 .coldNode) ↔
        100 * max 1 (1000#32).toNat < 2 ^ 32 ∧
          max 1 (7#32).toNat + max 1 (1000#32).toNat < 2 ^ 32) :=
  ⟨by decide, load_choice_exact_iff 100#32 40#32 7#32 1000#32 .coldNode (by decide)⟩

end Hoit
