import HoitF2fs.Lib.Transition
import HoitF2fs.Nvm.ColdVictims
import HoitF2fs.Nvm.Dio
import HoitF2fs.Nvm.Threads

/-!
# The LFU counters as read heat

Every SSD segment has four counters.  Reads add to the current one; `nvm_move_lfu_count` makes the
oldest one current and zeroes it, so that a counter is as old as its distance from the current
one.  A counter of -1 means that the segment is not in use, and **this mark stands in the same
cells** that are incremented and zeroed.

* `nvmMoveLfuCount` — the rotation.
* `HeatState`, `heatStep` — reads, rotations, allocation, release and cleaning of SSD segments,
  and the changes of the mapping table on which a release depends.  The ghost component `weight`
  is the read weight by epochs, and it starts afresh when a segment is allocated.
* `HeatTrue` — what `calc_count` should say of a segment: -1 iff it is free, and else the aged sum
  of its weights.
* `Tracks` — the invariant, about four cells in the order of their age: each of them is the weight
  of its epoch, or a mark where the weight is zero.

The lemmas about `Tracks` speak of cells only, and each comes with its converse: an event that
does not meet its condition makes the count wrong.  So `calc_count_true_iff` is exact.

The counters are integers here and wrap around in the code, but the sum, in which the current
counter has weight 4, is too large for an `int` long before any counter is.
-/

namespace Hoit.LfuHeat

open Transition

/-! ## The system -/

variable (l : Layout)

/-- `nvm_move_lfu_count`. -/
def nvmMoveLfuCount (nsbi : NvmSbInfo) : NvmSbInfo :=
  let preIndex := nsbi.nowLfuCounter
  let clearIndex := if preIndex = 0 then 4 - 1 else preIndex - 1
  { nsbi with
    lfuCount := Function.update nsbi.lfuCount clearIndex fun i =>
      if i < l.segmentCountMain ∧ nsbi.lfuCount preIndex i ≠ -1 then 0
      else nsbi.lfuCount clearIndex i
    nowLfuCounter := clearIndex }

/-- The counters, the SSD free-segment bitmap, and the read weight of a segment by the age of the
epoch. -/
structure HeatState where
  nsbi : NvmSbInfo
  freeI : FreeSegmapInfo
  weight : ℕ → ℕ → ℤ

inductive HeatStep where
  | bio (type : PageType) (isRead : Bool) (vcnt : ℤ) (blkAddr : BitVec 32)
  | dio (write : Bool) (blkNums : ℤ) (blocknr : BitVec 32)
  | rotate
  | alloc (segno : ℕ)
  | free (segno : ℕ)
  /-- `do_garbage_collect` at `next:`, for one segment of the section. -/
  | clean (segno : ℕ)
  /-- A migration to NVM. -/
  | map (ssdSegoff nvmSegoff : ℕ) (rwFlag : BitVec 32)
  /-- A migration to the SSD. -/
  | unmap (ssdSegoff : ℕ)

/-- A read of weight `c` in the current epoch of segment `s`. -/
def addWeight (weight : ℕ → ℕ → ℤ) (s : ℕ) (c : ℤ) : ℕ → ℕ → ℤ :=
  Function.update weight s (Function.update (weight s) 0 (weight s 0 + c))

/-- Every epoch gets older by one. -/
def ageWeight (weight : ℕ → ℕ → ℤ) (s : ℕ) : ℕ → ℤ
  | 0 => 0
  | a + 1 => weight s a

/-- The segment that a request reads, if it is one that is counted, and the weight of the read. -/
def HeatStep.reads : HeatStep → Option (ℕ × ℤ)
  | .bio type isRead vcnt blkAddr =>
      if type ≠ .metadata ∧ isRead = true then
        some ((ssdMainSegoff l blkAddr).toNat, getSizeCount vcnt)
      else none
  | .dio write blkNums blocknr =>
      if write = true then none else some ((ssdMainSegoff l blocknr).toNat, getSizeCount blkNums)
  | _ => none

def readWeight (weight : ℕ → ℕ → ℤ) : Option (ℕ × ℤ) → ℕ → ℕ → ℤ
  | some (s, c) => addWeight weight s c
  | none => weight

/-- `get_new_segment` only finds segments whose bit is clear, and asserts it. -/
def heatStep (x : HeatState) : HeatStep → Option HeatState
  | .bio type isRead vcnt blkAddr =>
      some { x with
        nsbi := (nvmRedirectBio l x.nsbi type isRead vcnt blkAddr).1
        weight := readWeight x.weight ((HeatStep.bio type isRead vcnt blkAddr).reads l) }
  | .dio write blkNums blocknr =>
      some { x with
        nsbi := (nvmRedirectDio l x.nsbi blocknr blkNums write).1
        weight := readWeight x.weight ((HeatStep.dio write blkNums blocknr).reads l) }
  | .rotate => some { x with nsbi := nvmMoveLfuCount l x.nsbi, weight := ageWeight x.weight }
  | .alloc segno =>
      if x.freeI.freeSegmap segno then none
      else
        let (nsbi, freeI) := setInuse l.toGeometry x.nsbi x.freeI segno
        some ⟨nsbi, freeI, Function.update x.weight segno fun _ => 0⟩
  | .free segno =>
      let (nsbi, freeI) := setTestAndFree l.toGeometry x.nsbi x.freeI segno
      some { x with nsbi, freeI }
  | .clean segno =>
      some { x with nsbi := setLfuCount (unsetMapping l.toGeometry x.nsbi segno) segno (-1) }
  | .map ssdSegoff nvmSegoff rwFlag =>
      some { x with nsbi := createMapping l.toGeometry x.nsbi ssdSegoff nvmSegoff rwFlag }
  | .unmap ssdSegoff => some { x with nsbi := unsetMapping l.toGeometry x.nsbi ssdSegoff }

/-- Mount: every counter is -1, counter 0 is the current one, and nothing has been read. -/
structure Mounted (x : HeatState) : Prop where
  now : x.nsbi.nowLfuCounter = 0
  marked : ∀ i < 4, ∀ s < l.segmentCountMain, x.nsbi.lfuCount i s = -1
  unread : ∀ s a, x.weight s a = 0

/-! ## What the count should be -/

/-- The sum of the weights of the last four epochs, the current one four times. -/
def heat (w : ℕ → ℤ) : ℤ := ∑ a ∈ Finset.range 4, (4 - (a : ℤ)) * w a

structure HeatTrue (x : HeatState) (s : ℕ) : Prop where
  unused : calcCount x.nsbi s = -1 ↔ x.freeI.freeSegmap s = false
  aged : x.freeI.freeSegmap s = true → calcCount x.nsbi s = heat (x.weight s)

/-- The counter of segment `s` that became current `a` rotations ago. -/
def ageCount (nsbi : NvmSbInfo) (s a : ℕ) : ℤ := nsbi.lfuCount ((nsbi.nowLfuCounter + a) % 4) s

/-- A read finds the segment in use and its current counter not marked, and the sum with the read
fits into an `int`. -/
def ReadMeets (s : ℕ) (x : HeatState) (read : Option (ℕ × ℤ)) : Prop :=
  ∀ c, read = some (s, c) → x.freeI.freeSegmap s = true ∧ ageCount x.nsbi s 0 ≠ -1 ∧
    heat (x.weight s) + 4 * c < 2 ^ 31

/-- The condition on a step, for segment `s`, in the state before it. -/
def Meets (s : ℕ) (x : HeatState) : HeatStep → Prop
  | .bio type isRead vcnt blkAddr =>
      ReadMeets s x ((HeatStep.bio type isRead vcnt blkAddr).reads l)
  | .dio write blkNums blocknr => ReadMeets s x ((HeatStep.dio write blkNums blocknr).reads l)
  -- the oldest counter is going to be zeroed, or there is nothing in it
  | .rotate => x.freeI.freeSegmap s = true →
      ageCount x.nsbi s 0 ≠ -1 ∨ ageCount x.nsbi s 3 ≤ 0
  | .alloc _ => True
  -- only the current counter is in use, and the segment is mapped
  | .free segno => segno = s → x.freeI.freeSegmap s = true →
      (∀ a, 1 ≤ a → a < 4 → ageCount x.nsbi s a = -1)
        ∧ getMapFlag x.nsbi.mpt (l.ssdIndex s) = true
  -- nothing is lost with the current counter, and another one shows that the segment is in use
  | .clean segno => segno = s → x.freeI.freeSegmap s = true →
      ageCount x.nsbi s 0 ≤ 0 ∧ ∃ a, 1 ≤ a ∧ a < 4 ∧ ageCount x.nsbi s a ≠ -1
  | .map _ _ _ => True
  | .unmap _ => True

/-! ## Four cells -/

/-- The count of a segment whose counters are `c`, in the order of their age. -/
def countOf (c : ℕ → ℤ) : ℤ :=
  if ∀ a < 4, c a = -1 then -1 else (heat fun a => if c a = -1 then 0 else c a).bmod (2 ^ 32)

/-- `HeatTrue`, in terms of the cells. -/
structure CountTrue (c w : ℕ → ℤ) (used : Bool) : Prop where
  unused : countOf c = -1 ↔ used = false
  aged : used = true → countOf c = heat w

/-- The cells `c` of a segment whose weights are `w`. -/
structure Tracks (c w : ℕ → ℤ) (used : Bool) : Prop where
  free : used = false → ∀ a < 4, c a = -1
  weights : used = true → ∀ a < 4, -1 ≤ c a ∧ max (c a) 0 = w a
  counted : used = true → ∃ a < 4, c a ≠ -1
  small : used = true → ∀ a < 4, 4 * w a < 2 ^ 31
  fits : used = true → heat w < 2 ^ 31

/-- A new state of the cells that is what it should be iff `good` holds. -/
def Decides (good : Prop) (c w : ℕ → ℤ) (used : Bool) : Prop :=
  (good → Tracks c w used) ∧ (CountTrue c w used → good)

section Cells

variable {c c' w w' : ℕ → ℤ} {used : Bool} {good : Prop}

lemma heat_eq (w : ℕ → ℤ) : heat w = 4 * w 0 + 3 * w 1 + 2 * w 2 + w 3 := by
  simp only [heat, Finset.sum_range_succ, Finset.sum_range_zero]
  push_cast
  ring

lemma forall_lt_four {p : ℕ → Prop} : (∀ a < 4, p a) ↔ p 0 ∧ p 1 ∧ p 2 ∧ p 3 := by
  constructor
  · exact fun h => ⟨h 0 (by omega), h 1 (by omega), h 2 (by omega), h 3 (by omega)⟩
  · rintro ⟨h0, h1, h2, h3⟩ a ha
    interval_cases a <;> assumption

lemma countOf_marked (h : ∀ a < 4, c a = -1) : countOf c = -1 := if_pos h

lemma countOf_counted (hlevel : ∀ a < 4, -1 ≤ c a) (h : ∃ a < 4, c a ≠ -1) :
    countOf c = (heat fun a => max (c a) 0).bmod (2 ^ 32) := by
  have hmax : ∀ a < 4, (if c a = -1 then 0 else c a) = max (c a) 0 := by
    intro a ha
    have hle := hlevel a ha
    split <;> omega
  have hheat : (heat fun a => if c a = -1 then 0 else c a) = heat fun a => max (c a) 0 :=
    Finset.sum_congr rfl fun a ha =>
      congrArg ((4 - (a : ℤ)) * ·) (hmax a (Finset.mem_range.mp ha))
  rw [← hheat]
  refine if_neg fun hall => ?_
  obtain ⟨a, ha, hne⟩ := h
  exact hne (hall a ha)

/-- A sum that fits is the count. -/
lemma countOf_eq (hlevel : ∀ a < 4, -1 ≤ c a) (h : ∃ a < 4, c a ≠ -1)
    (hlt : (heat fun a => max (c a) 0) < 2 ^ 31) :
    countOf c = heat fun a => max (c a) 0 := by
  have hnonneg : 0 ≤ heat fun a => max (c a) 0 := by
    rw [heat_eq]
    have hmax : ∀ a, 0 ≤ max (c a) 0 := fun a => le_max_right _ _
    have h0 := hmax 0
    have h1 := hmax 1
    have h2 := hmax 2
    have h3 := hmax 3
    omega
  rw [countOf_counted hlevel h]
  exact Int.bmod_eq_of_le (by omega) (by omega)

lemma countOf_lt (c : ℕ → ℤ) : countOf c < 2 ^ 31 := by
  unfold countOf
  split
  · decide
  · exact Int.bmod_lt (by decide)

/-- The weights of a segment in use, cell by cell. -/
lemma Tracks.cells (h : Tracks c w true) :
    (-1 ≤ c 0 ∧ max (c 0) 0 = w 0) ∧ (-1 ≤ c 1 ∧ max (c 1) 0 = w 1) ∧
      (-1 ≤ c 2 ∧ max (c 2) 0 = w 2) ∧ (-1 ≤ c 3 ∧ max (c 3) 0 = w 3) :=
  forall_lt_four.mp (h.weights rfl)

lemma Tracks.heat_max (h : Tracks c w true) : (heat fun a => max (c a) 0) = heat w := by
  obtain ⟨h0, h1, h2, h3⟩ := h.cells
  rw [heat_eq, heat_eq, h0.2, h1.2, h2.2, h3.2]

/-- **The invariant makes the count right.** -/
lemma Tracks.countTrue (h : Tracks c w used) : CountTrue c w used := by
  cases used with
  | false => exact ⟨by simp [countOf_marked (h.free rfl)], by simp⟩
  | true =>
      have heq : countOf c = heat w := by
        rw [countOf_eq (fun a ha => (h.weights rfl a ha).1) (h.counted rfl) (h.heat_max ▸ h.fits rfl),
          h.heat_max]
      obtain ⟨h0, h1, h2, h3⟩ := h.cells
      refine ⟨?_, fun _ => heq⟩
      rw [heq, heat_eq]
      constructor
      · intro hneg
        omega
      · simp

/-- A sum that fits is -1 only if every cell is marked. -/
lemma marked_of_countOf (hlevel : ∀ a < 4, -1 ≤ c a) (hlt : (heat fun a => max (c a) 0) < 2 ^ 31)
    (h : countOf c = -1) : ∀ a < 4, c a = -1 := by
  by_contra hnot
  push Not at hnot
  have heq := countOf_eq hlevel hnot hlt
  have hmax : ∀ a, 0 ≤ max (c a) 0 := fun a => le_max_right _ _
  have h0 := hmax 0
  have h1 := hmax 1
  have h2 := hmax 2
  have h3 := hmax 3
  rw [heat_eq] at heq
  omega

/-! ## What an event does to the cells -/

/-- Nothing happens to the segment. -/
lemma Tracks.keep (h : Tracks c w used) (hg : good) (hc : ∀ a < 4, c' a = c a)
    (hw : ∀ a < 4, w' a = w a) : Decides good c' w' used := by
  refine ⟨fun _ => ⟨?_, ?_, ?_, ?_, ?_⟩, fun _ => hg⟩
  · exact fun hu a ha => (hc a ha).trans (h.free hu a ha)
  · intro hu a ha
    rw [hc a ha, hw a ha]
    exact h.weights hu a ha
  · intro hu
    obtain ⟨a, ha, hne⟩ := h.counted hu
    exact ⟨a, ha, by rwa [hc a ha]⟩
  · intro hu a ha
    rw [hw a ha]
    exact h.small hu a ha
  · intro hu
    have hfits := h.fits hu
    rw [heat_eq] at hfits ⊢
    rwa [hw 0 (by omega), hw 1 (by omega), hw 2 (by omega), hw 3 (by omega)]

/-- A read. -/
lemma Tracks.read (h : Tracks c w used) {k : ℤ} (hk : 1 ≤ k ∧ k ≤ 5) (hc0 : c' 0 = c 0 + k)
    (hc : ∀ a, 1 ≤ a → a < 4 → c' a = c a) (hw0 : w' 0 = w 0 + k)
    (hw : ∀ a, 1 ≤ a → a < 4 → w' a = w a) :
    Decides (used = true ∧ c 0 ≠ -1 ∧ heat w + 4 * k < 2 ^ 31) c' w' used := by
  have hc1 := hc 1 (by omega) (by omega)
  have hc2 := hc 2 (by omega) (by omega)
  have hc3 := hc 3 (by omega) (by omega)
  have hw1 := hw 1 (by omega) (by omega)
  have hw2 := hw 2 (by omega) (by omega)
  have hw3 := hw 3 (by omega) (by omega)
  have hheat : heat w' = heat w + 4 * k := by
    rw [heat_eq, heat_eq, hw0, hw1, hw2, hw3]
    ring
  cases used with
  | false =>
      obtain ⟨m0, m1, m2, m3⟩ := forall_lt_four.mp (h.free rfl)
      refine ⟨fun hg => absurd hg.1 (by simp), fun htrue => ?_⟩
      -- the read takes the mark away
      have hlt : (heat fun a => max (c' a) 0) < 2 ^ 31 := by
        rw [heat_eq]
        omega
      have hall := marked_of_countOf (forall_lt_four.mpr (by omega)) hlt (htrue.unused.mpr rfl) 0
        (by omega)
      omega
  | true =>
      obtain ⟨t0, t1, t2, t3⟩ := h.cells
      obtain ⟨s0, s1, s2, s3⟩ := forall_lt_four.mp (h.small rfl)
      have hfits := h.fits rfl
      rw [heat_eq] at hfits
      constructor
      · rintro ⟨-, hne, hlt⟩
        refine ⟨by simp, fun _ => forall_lt_four.mpr ?_, fun _ => ⟨0, by omega, by omega⟩,
          fun _ => forall_lt_four.mpr ?_, fun _ => hheat ▸ hlt⟩
        · omega
        · rw [heat_eq] at hlt
          omega
      · intro htrue
        have hval := htrue.aged rfl
        have hbound := countOf_lt c'
        refine ⟨rfl, ?_, by omega⟩
        intro hmark
        -- the mark has eaten one unit of the weight
        have hsum : (heat fun a => max (c' a) 0) = heat w + 4 * k - 4 := by
          rw [heat_eq, heat_eq]
          omega
        rw [countOf_eq (forall_lt_four.mpr (by omega)) ⟨0, by omega, by omega⟩ (by omega)] at hval
        omega

/-- A rotation. -/
lemma Tracks.rotate (h : Tracks c w used) (hc0 : c' 0 = if c 0 = -1 then c 3 else 0)
    (hc : ∀ a < 3, c' (a + 1) = c a) (hw0 : w' 0 = 0) (hw : ∀ a < 3, w' (a + 1) = w a) :
    Decides (used = true → c 0 ≠ -1 ∨ c 3 ≤ 0) c' w' used := by
  have hc1 : c' 1 = c 0 := hc 0 (by omega)
  have hc2 : c' 2 = c 1 := hc 1 (by omega)
  have hc3 : c' 3 = c 2 := hc 2 (by omega)
  have hw1 : w' 1 = w 0 := hw 0 (by omega)
  have hw2 : w' 2 = w 1 := hw 1 (by omega)
  have hw3 : w' 3 = w 2 := hw 2 (by omega)
  cases used with
  | false =>
      obtain ⟨m0, m1, m2, m3⟩ := forall_lt_four.mp (h.free rfl)
      rw [if_pos m0] at hc0
      refine ⟨fun _ => ⟨fun _ => forall_lt_four.mpr ?_, by simp, by simp, by simp, by simp⟩,
        by simp⟩
      omega
  | true =>
      obtain ⟨t0, t1, t2, t3⟩ := h.cells
      obtain ⟨s0, s1, s2, s3⟩ := forall_lt_four.mp (h.small rfl)
      have hfits := h.fits rfl
      rw [heat_eq] at hfits
      constructor
      · intro hgood
        have hold := hgood rfl
        have hnow : max (c' 0) 0 = 0 ∧ -1 ≤ c' 0 := by
          rw [hc0]
          split <;> omega
        refine ⟨by simp, fun _ => forall_lt_four.mpr ?_, fun _ => ?_,
          fun _ => forall_lt_four.mpr ?_, fun _ => ?_⟩
        · omega
        · -- a cell that is counted goes on being counted
          by_contra hnone
          push Not at hnone
          obtain ⟨n0, n1, n2, n3⟩ := forall_lt_four.mp hnone
          obtain ⟨a, ha, hne⟩ := h.counted rfl
          rw [if_pos (hc1 ▸ n1)] at hc0
          interval_cases a <;> omega
        · omega
        · rw [heat_eq]
          omega
      · intro htrue _
        by_contra hnot
        push Not at hnot
        obtain ⟨hmark, hold⟩ := hnot
        -- the oldest counter comes back as the current one
        rw [if_pos hmark] at hc0
        have hval := htrue.aged rfl
        have hsum : (heat fun a => max (c' a) 0) = heat w' + 4 * c 3 := by
          rw [heat_eq, heat_eq]
          omega
        rw [countOf_counted (forall_lt_four.mpr (by omega)) ⟨0, by omega, by omega⟩, hsum, heat_eq,
          Int.bmod] at hval
        split at hval <;> omega

/-- An allocation. -/
lemma Tracks.alloc (h : Tracks c w false) (hc0 : c' 0 = 0)
    (hc : ∀ a, 1 ≤ a → a < 4 → c' a = c a) (hw : ∀ a < 4, w' a = 0) : Tracks c' w' true := by
  obtain ⟨m0, m1, m2, m3⟩ := forall_lt_four.mp (h.free rfl)
  have hc1 := hc 1 (by omega) (by omega)
  have hc2 := hc 2 (by omega) (by omega)
  have hc3 := hc 3 (by omega) (by omega)
  obtain ⟨hw0, hw1, hw2, hw3⟩ := forall_lt_four.mp hw
  refine ⟨by simp, fun _ => forall_lt_four.mpr ?_, fun _ => ⟨0, by omega, by omega⟩,
    fun _ => forall_lt_four.mpr ?_, fun _ => ?_⟩
  · omega
  · omega
  · rw [heat_eq]
    omega

/-- A release, which marks the current counter of a segment that is mapped. -/
lemma Tracks.release (h : Tracks c w used) {mapped : Bool}
    (hc0 : c' 0 = if mapped = true then -1 else c 0)
    (hc : ∀ a, 1 ≤ a → a < 4 → c' a = c a) :
    Decides (used = true → (∀ a, 1 ≤ a → a < 4 → c a = -1) ∧ mapped = true) c' w' false := by
  have hc1 := hc 1 (by omega) (by omega)
  have hc2 := hc 2 (by omega) (by omega)
  have hc3 := hc 3 (by omega) (by omega)
  have hmarked : (∀ a < 4, c' a = -1) → Tracks c' w' false := fun hall =>
    ⟨fun _ => hall, by simp, by simp, by simp, by simp⟩
  cases used with
  | false =>
      obtain ⟨m0, m1, m2, m3⟩ := forall_lt_four.mp (h.free rfl)
      refine ⟨fun _ => hmarked (forall_lt_four.mpr ⟨?_, by omega, by omega, by omega⟩), by simp⟩
      rw [hc0, m0, ite_self]
  | true =>
      obtain ⟨t0, t1, t2, t3⟩ := h.cells
      have hfits := h.fits rfl
      rw [heat_eq] at hfits
      constructor
      · intro hgood
        obtain ⟨hrest, hmap⟩ := hgood rfl
        rw [if_pos hmap] at hc0
        have h1 := hrest 1 (by omega) (by omega)
        have h2 := hrest 2 (by omega) (by omega)
        have h3 := hrest 3 (by omega) (by omega)
        exact hmarked (forall_lt_four.mpr (by omega))
      · intro htrue _
        have hle : max (c' 0) 0 ≤ max (c 0) 0 ∧ -1 ≤ c' 0 := by
          rw [hc0]
          split <;> omega
        have hall := marked_of_countOf (forall_lt_four.mpr (by omega)) (by rw [heat_eq]; omega)
          (htrue.unused.mpr rfl)
        refine ⟨fun a h1 h4 => (hc a h1 h4) ▸ hall a h4, ?_⟩
        by_contra hmap
        rw [if_neg hmap] at hc0
        obtain ⟨n0, n1, n2, n3⟩ := forall_lt_four.mp hall
        obtain ⟨a, ha, hne⟩ := h.counted rfl
        interval_cases a <;> omega

/-- The end of a cleaning, which marks the current counter of any segment. -/
lemma Tracks.clean (h : Tracks c w used) (hc0 : c' 0 = -1)
    (hc : ∀ a, 1 ≤ a → a < 4 → c' a = c a) :
    Decides (used = true → c 0 ≤ 0 ∧ ∃ a, 1 ≤ a ∧ a < 4 ∧ c a ≠ -1) c' w used := by
  have hc1 := hc 1 (by omega) (by omega)
  have hc2 := hc 2 (by omega) (by omega)
  have hc3 := hc 3 (by omega) (by omega)
  cases used with
  | false =>
      obtain ⟨m0, m1, m2, m3⟩ := forall_lt_four.mp (h.free rfl)
      refine ⟨fun _ => ⟨fun _ => forall_lt_four.mpr ?_, by simp, by simp, by simp, by simp⟩,
        by simp⟩
      omega
  | true =>
      obtain ⟨t0, t1, t2, t3⟩ := h.cells
      have hfits := h.fits rfl
      constructor
      · intro hgood
        obtain ⟨hle, a, h1, h4, hne⟩ := hgood rfl
        refine ⟨by simp, fun _ => forall_lt_four.mpr ?_, fun _ => ⟨a, h4, by rwa [hc a h1 h4]⟩,
          h.small, h.fits⟩
        omega
      · intro htrue _
        have hval := htrue.aged rfl
        have hused : ∃ a < 4, c' a ≠ -1 := by
          by_contra hnone
          push Not at hnone
          exact absurd (htrue.unused.mp (countOf_marked hnone)) (by simp)
        obtain ⟨a, ha, hne⟩ := hused
        have hpos : 1 ≤ a := by
          rcases Nat.eq_zero_or_pos a with rfl | hpos
          · exact absurd hc0 hne
          · exact hpos
        rw [heat_eq] at hfits
        rw [countOf_eq (forall_lt_four.mpr (by omega)) ⟨a, ha, hne⟩ (by rw [heat_eq]; omega),
          heat_eq, heat_eq] at hval
        exact ⟨by omega, a, hpos, ha, hc a hpos ha ▸ hne⟩

end Cells

/-! ## The cells of a segment -/

variable {l} {nsbi nsbi' : NvmSbInfo} {s t : ℕ} {x x' : HeatState}

lemma weighted_sum_eq (f : ℕ → ℤ) {now : ℕ} (hnow : now < 4) :
    ((List.range 4).map fun i => f i * lfuLevel now i).sum = heat fun a => f ((now + a) % 4) := by
  rw [heat_eq]
  interval_cases now <;> simp [lfuLevel, List.range_succ] <;> ring

/-- **`calc_count` counts the cells by their age.** -/
lemma calcCount_eq (hnow : nsbi.nowLfuCounter < 4) :
    calcCount nsbi s = countOf (ageCount nsbi s) := by
  have hages : (∀ i ∈ List.range 4, nsbi.lfuCount i s = -1)
      ↔ ∀ a < 4, ageCount nsbi s a = -1 := by
    simp only [List.mem_range, forall_lt_four, ageCount]
    interval_cases nsbi.nowLfuCounter <;> simp <;> tauto
  have hsum := weighted_sum_eq
    (fun i => if nsbi.lfuCount i s = -1 then 0 else nsbi.lfuCount i s) hnow
  unfold calcCount countOf
  simp only [List.all_eq_true, decide_eq_true_eq, hages, hsum]
  rfl

lemma ageCount_setLfuCount_now (hnow : nsbi.nowLfuCounter < 4) (v : ℤ) :
    ageCount (setLfuCount nsbi s v) s 0 = v := by
  simp [ageCount, setLfuCount, Nat.mod_eq_of_lt hnow]

lemma ageCount_setLfuCount_older (t : ℕ) (v : ℤ) {a : ℕ} (ha : 1 ≤ a) (ha4 : a < 4) :
    ageCount (setLfuCount nsbi t v) s a = ageCount nsbi s a := by
  have hne : (nsbi.nowLfuCounter + a) % 4 ≠ nsbi.nowLfuCounter := by omega
  simp [ageCount, setLfuCount, Function.update_of_ne hne]

lemma ageCount_setLfuCount_of_ne (h : t ≠ s) (v : ℤ) (a : ℕ) :
    ageCount (setLfuCount nsbi t v) s a = ageCount nsbi s a := by
  simp only [ageCount, setLfuCount]
  rcases eq_or_ne ((nsbi.nowLfuCounter + a) % 4) nsbi.nowLfuCounter with heq | hne
  · rw [heq, Function.update_self, Function.update_of_ne h.symm]
  · rw [Function.update_of_ne hne]

lemma unsetMapping_lfuCount (nsbi : NvmSbInfo) (t : ℕ) :
    (unsetMapping l.toGeometry nsbi t).lfuCount = nsbi.lfuCount := by
  unfold unsetMapping
  split <;> rfl

lemma unsetMapping_nowLfuCounter (nsbi : NvmSbInfo) (t : ℕ) :
    (unsetMapping l.toGeometry nsbi t).nowLfuCounter = nsbi.nowLfuCounter := by
  unfold unsetMapping
  split <;> rfl

lemma ageCount_unsetMapping (nsbi : NvmSbInfo) (t s : ℕ) :
    ageCount (unsetMapping l.toGeometry nsbi t) s = ageCount nsbi s := by
  funext a
  simp only [ageCount, unsetMapping_lfuCount, unsetMapping_nowLfuCounter]

lemma nvmMoveLfuCount_now (hnow : nsbi.nowLfuCounter < 4) :
    (nvmMoveLfuCount l nsbi).nowLfuCounter = (nsbi.nowLfuCounter + 3) % 4 := by
  simp only [nvmMoveLfuCount]
  split <;> omega

/-- The oldest counter becomes the current one. -/
lemma ageCount_nvmMoveLfuCount_now (hnow : nsbi.nowLfuCounter < 4)
    (hs : s < l.segmentCountMain) :
    ageCount (nvmMoveLfuCount l nsbi) s 0
      = if ageCount nsbi s 0 = -1 then ageCount nsbi s 3 else 0 := by
  have hclear := nvmMoveLfuCount_now (l := l) hnow
  simp only [nvmMoveLfuCount] at hclear
  simp only [ageCount, nvmMoveLfuCount, hclear, add_zero, Nat.mod_mod, Nat.mod_eq_of_lt hnow,
    Function.update_self, hs, true_and, ite_not]

lemma ageCount_nvmMoveLfuCount_older (hnow : nsbi.nowLfuCounter < 4) {a : ℕ} (ha : a < 3) :
    ageCount (nvmMoveLfuCount l nsbi) s (a + 1) = ageCount nsbi s a := by
  have hclear := nvmMoveLfuCount_now (l := l) hnow
  have hindex : ((nsbi.nowLfuCounter + 3) % 4 + (a + 1)) % 4 = (nsbi.nowLfuCounter + a) % 4 := by
    omega
  have hne : (nsbi.nowLfuCounter + a) % 4 ≠ (nsbi.nowLfuCounter + 3) % 4 := by omega
  simp only [nvmMoveLfuCount] at hclear
  simp only [ageCount, nvmMoveLfuCount, hclear, hindex, Function.update_of_ne hne]

/-! ## Steps -/

/-- What a request that reads does to the counters. -/
def countRead (nsbi : NvmSbInfo) : Option (ℕ × ℤ) → NvmSbInfo
  | some (s, c) => setLfuCount nsbi s (nsbi.lfuCount nsbi.nowLfuCounter s + c)
  | none => nsbi

lemma nvmRedirectBio_counts (nsbi : NvmSbInfo) (type : PageType) (isRead : Bool) (vcnt : ℤ)
    (blkAddr : BitVec 32) :
    (nvmRedirectBio l nsbi type isRead vcnt blkAddr).1
      = countRead nsbi ((HeatStep.bio type isRead vcnt blkAddr).reads l) := by
  cases type with
  | metadata =>
      simp only [nvmRedirectBio, HeatStep.reads, ne_eq, not_true_eq_false, false_and, if_false]
      split <;> rfl
  | data => cases isRead <;> rfl
  | node => cases isRead <;> rfl

lemma nvmRedirectDio_counts (nsbi : NvmSbInfo) (write : Bool) (blkNums : ℤ)
    (blocknr : BitVec 32) :
    (nvmRedirectDio l nsbi blocknr blkNums write).1
      = countRead nsbi ((HeatStep.dio write blkNums blocknr).reads l) := by
  cases write <;> rfl

/-- A counted read has a weight from 1 to 5. -/
lemma reads_weight {a : HeatStep} {c : ℤ} (h : a.reads l = some (t, c)) : 1 ≤ c ∧ c ≤ 5 := by
  have hsize : ∀ size : ℤ, 1 ≤ getSizeCount size ∧ getSizeCount size ≤ 5 := by
    intro size
    unfold getSizeCount
    split_ifs <;> decide
  cases a with
  | bio type isRead vcnt blkAddr =>
      simp only [HeatStep.reads, Option.ite_none_right_eq_some, Option.some.injEq,
        Prod.mk.injEq] at h
      exact h.2.2 ▸ hsize vcnt
  | dio write blkNums blocknr =>
      simp only [HeatStep.reads, Option.ite_none_left_eq_some, Option.some.injEq,
        Prod.mk.injEq] at h
      exact h.2.2 ▸ hsize blkNums
  | _ => exact absurd h (by simp [HeatStep.reads])

/-- The invariant of a run, for segment `s`. -/
structure HeatInv (s : ℕ) (x : HeatState) : Prop where
  now : x.nsbi.nowLfuCounter < 4
  tracks : Tracks (ageCount x.nsbi s) (x.weight s) (x.freeI.freeSegmap s)

lemma heatTrue_iff (hnow : x.nsbi.nowLfuCounter < 4) :
    HeatTrue x s ↔ CountTrue (ageCount x.nsbi s) (x.weight s) (x.freeI.freeSegmap s) := by
  have heq := @calcCount_eq x.nsbi s hnow
  constructor
  · exact fun h => ⟨heq ▸ h.unused, fun hu => heq ▸ h.aged hu⟩
  · exact fun h => ⟨heq ▸ h.unused, fun hu => heq ▸ h.aged hu⟩

lemma HeatInv.heatTrue (h : HeatInv s x) : HeatTrue x s :=
  (heatTrue_iff h.now).mpr h.tracks.countTrue

lemma countRead_now (nsbi : NvmSbInfo) (r : Option (ℕ × ℤ)) :
    (countRead nsbi r).nowLfuCounter = nsbi.nowLfuCounter := by
  rcases r with _ | ⟨t, c⟩ <;> rfl

/-- Reads of any segment, by bio or direct. -/
lemma HeatInv.read_decides (h : HeatInv s x) {r : Option (ℕ × ℤ)}
    (hr : ∀ t c, r = some (t, c) → 1 ≤ c ∧ c ≤ 5) :
    Decides (ReadMeets s x r) (ageCount (countRead x.nsbi r) s) (readWeight x.weight r s)
      (x.freeI.freeSegmap s) := by
  rcases r with _ | ⟨t, c⟩
  · exact h.tracks.keep (fun _ hc => absurd hc (by simp)) (fun _ _ => rfl) (fun _ _ => rfl)
  · rcases eq_or_ne t s with rfl | hne
    · have hmeets : ReadMeets t x (some (t, c)) ↔ x.freeI.freeSegmap t = true ∧
          ageCount x.nsbi t 0 ≠ -1 ∧ heat (x.weight t) + 4 * c < 2 ^ 31 := by
        simp [ReadMeets]
      have hcells : x.nsbi.lfuCount x.nsbi.nowLfuCounter t = ageCount x.nsbi t 0 := by
        simp [ageCount, Nat.mod_eq_of_lt h.now]
      rw [hmeets]
      refine h.tracks.read (hr t c rfl) ?_ (fun a h1 h4 => ?_) ?_ fun a h1 h4 => ?_
      · rw [← hcells]
        exact ageCount_setLfuCount_now h.now _
      · exact ageCount_setLfuCount_older _ _ h1 h4
      · simp [readWeight, addWeight]
      · simp [readWeight, addWeight, Function.update_of_ne (show a ≠ 0 by omega)]
    · refine h.tracks.keep (fun c' hc => ?_) (fun a _ => ?_) fun a _ => ?_
      · exact absurd (Prod.mk.inj (Option.some.inj hc)).1 hne
      · exact ageCount_setLfuCount_of_ne hne _ a
      · simp [readWeight, addWeight, Function.update_of_ne hne.symm]

/-- A step keeps the number of the current counter in range. -/
lemma heatStep_now (hnow : x.nsbi.nowLfuCounter < 4) {a : HeatStep}
    (hstep : heatStep l x a = some x') : x'.nsbi.nowLfuCounter < 4 := by
  cases a with
  | bio type isRead vcnt blkAddr =>
      obtain rfl := Option.some.inj hstep
      rw [nvmRedirectBio_counts, countRead_now]
      exact hnow
  | dio write blkNums blocknr =>
      obtain rfl := Option.some.inj hstep
      rw [nvmRedirectDio_counts, countRead_now]
      exact hnow
  | rotate =>
      obtain rfl := Option.some.inj hstep
      rw [nvmMoveLfuCount_now hnow]
      omega
  | alloc segno =>
      simp only [heatStep, Option.ite_none_left_eq_some, Option.some.injEq] at hstep
      obtain ⟨-, rfl⟩ := hstep
      exact hnow
  | free segno =>
      obtain rfl := Option.some.inj hstep
      show (if _ then _ else _ : NvmSbInfo).nowLfuCounter < 4
      split
      · exact (unsetMapping_nowLfuCounter x.nsbi segno).trans_lt hnow
      · exact hnow
  | clean segno =>
      obtain rfl := Option.some.inj hstep
      exact (unsetMapping_nowLfuCounter x.nsbi segno).trans_lt hnow
  | map ssdSegoff nvmSegoff rwFlag =>
      obtain rfl := Option.some.inj hstep
      exact hnow
  | unmap ssdSegoff =>
      obtain rfl := Option.some.inj hstep
      exact (unsetMapping_nowLfuCounter x.nsbi ssdSegoff).trans_lt hnow

lemma HeatInv.alloc_decides (h : HeatInv s x) {segno : ℕ}
    (hstep : heatStep l x (.alloc segno) = some x') :
    Decides True (ageCount x'.nsbi s) (x'.weight s) (x'.freeI.freeSegmap s) := by
  simp only [heatStep, Option.ite_none_left_eq_some, Option.some.injEq] at hstep
  obtain ⟨hfree, rfl⟩ := hstep
  rcases eq_or_ne segno s with rfl | hne
  · refine ⟨fun _ => ?_, fun _ => trivial⟩
    have hclear : x.freeI.freeSegmap segno = false := Bool.not_eq_true _ ▸ hfree
    have htracks := h.tracks
    rw [hclear] at htracks
    simp only [setInuse, Function.update_self]
    exact htracks.alloc (ageCount_setLfuCount_now h.now 0)
      (fun a h1 h4 => ageCount_setLfuCount_older _ _ h1 h4) fun _ _ => rfl
  · simp only [setInuse, Function.update_of_ne hne.symm]
    exact h.tracks.keep trivial (fun a _ => ageCount_setLfuCount_of_ne hne 0 a) fun _ _ => rfl

lemma HeatInv.free_decides (h : HeatInv s x) {segno : ℕ}
    (hstep : heatStep l x (.free segno) = some x') :
    Decides (Meets l s x (.free segno)) (ageCount x'.nsbi s) (x'.weight s)
      (x'.freeI.freeSegmap s) := by
  obtain rfl := Option.some.inj hstep
  simp only [clearFreeSegmap_freeSegmap]
  rcases eq_or_ne segno s with rfl | hne
  · have hmeets : Meets l segno x (.free segno) ↔ (x.freeI.freeSegmap segno = true →
        (∀ a, 1 ≤ a → a < 4 → ageCount x.nsbi segno a = -1)
          ∧ getMapFlag x.nsbi.mpt (l.ssdIndex segno) = true) := by
      simp [Meets]
    rw [hmeets, Function.update_self]
    refine h.tracks.release ?_ fun a h1 h4 => ?_
    · split
      · exact ageCount_setLfuCount_now ((unsetMapping_nowLfuCounter x.nsbi segno).trans_lt h.now) _
      · rfl
    · split
      · rw [ageCount_setLfuCount_older _ _ h1 h4, ageCount_unsetMapping]
      · rfl
  · rw [Function.update_of_ne hne.symm]
    refine h.tracks.keep (fun heq => absurd heq hne) (fun a _ => ?_) fun _ _ => rfl
    split
    · rw [ageCount_setLfuCount_of_ne hne, ageCount_unsetMapping]
    · rfl

lemma HeatInv.clean_decides (h : HeatInv s x) {segno : ℕ}
    (hstep : heatStep l x (.clean segno) = some x') :
    Decides (Meets l s x (.clean segno)) (ageCount x'.nsbi s) (x'.weight s)
      (x'.freeI.freeSegmap s) := by
  obtain rfl := Option.some.inj hstep
  rcases eq_or_ne segno s with rfl | hne
  · have hmeets : Meets l segno x (.clean segno) ↔ (x.freeI.freeSegmap segno = true →
        ageCount x.nsbi segno 0 ≤ 0 ∧
          ∃ a, 1 ≤ a ∧ a < 4 ∧ ageCount x.nsbi segno a ≠ -1) := by
      simp [Meets]
    rw [hmeets]
    refine h.tracks.clean ?_ fun a h1 h4 => ?_
    · exact ageCount_setLfuCount_now ((unsetMapping_nowLfuCounter x.nsbi segno).trans_lt h.now) _
    · rw [ageCount_setLfuCount_older _ _ h1 h4, ageCount_unsetMapping]
  · refine h.tracks.keep (fun heq => absurd heq hne) (fun a _ => ?_) fun _ _ => rfl
    rw [ageCount_setLfuCount_of_ne hne, ageCount_unsetMapping]

/-- **Every step makes the count right iff it meets its condition.** -/
lemma heatStep_decides (hs : s < l.segmentCountMain) (h : HeatInv s x) {a : HeatStep}
    (hstep : heatStep l x a = some x') :
    Decides (Meets l s x a) (ageCount x'.nsbi s) (x'.weight s) (x'.freeI.freeSegmap s) := by
  cases a with
  | bio type isRead vcnt blkAddr =>
      obtain rfl := Option.some.inj hstep
      rw [nvmRedirectBio_counts]
      exact h.read_decides fun t c hr => reads_weight hr
  | dio write blkNums blocknr =>
      obtain rfl := Option.some.inj hstep
      rw [nvmRedirectDio_counts]
      exact h.read_decides fun t c hr => reads_weight hr
  | rotate =>
      obtain rfl := Option.some.inj hstep
      exact h.tracks.rotate (ageCount_nvmMoveLfuCount_now h.now hs)
        (fun a ha => ageCount_nvmMoveLfuCount_older h.now ha) rfl fun _ _ => rfl
  | alloc segno => exact h.alloc_decides hstep
  | free segno => exact h.free_decides hstep
  | clean segno => exact h.clean_decides hstep
  | map ssdSegoff nvmSegoff rwFlag =>
      obtain rfl := Option.some.inj hstep
      exact h.tracks.keep trivial (fun _ _ => rfl) fun _ _ => rfl
  | unmap ssdSegoff =>
      obtain rfl := Option.some.inj hstep
      exact h.tracks.keep trivial (fun a _ => by rw [ageCount_unsetMapping]) fun _ _ => rfl

/-! ## Runs -/

lemma Mounted.ageCount (h : Mounted l x) (hs : s < l.segmentCountMain) (a : ℕ) :
    ageCount x.nsbi s a = -1 :=
  h.marked _ (Nat.mod_lt _ (by omega)) s hs

lemma Mounted.heatInv (h : Mounted l x) (hs : s < l.segmentCountMain)
    (hfree : x.freeI.freeSegmap s = false) : HeatInv s x where
  now := by rw [h.now]; omega
  tracks := by
    rw [hfree]
    exact ⟨fun _ a _ => h.ageCount hs a, by simp, by simp, by simp, by simp⟩

/-- A segment that is in use at mount has no count. -/
lemma Mounted.free_of_heatTrue (h : Mounted l x) (hs : s < l.segmentCountMain)
    (htrue : HeatTrue x s) : x.freeI.freeSegmap s = false := by
  rw [← htrue.unused, calcCount_eq (by rw [h.now]; omega)]
  exact countOf_marked fun a _ => h.ageCount hs a

/-- **The count of a segment is right throughout a run iff it was free at mount and every step
meets its condition.** -/
theorem calc_count_true_iff (x x' : HeatState) (as : List HeatStep) (s : ℕ)
    (hmount : Mounted l x) (hs : s < l.segmentCountMain)
    (hrun : exec (heatStep l) x as = some x') :
    Throughout (heatStep l) (fun y => HeatTrue y s) x as
      ↔ x.freeI.freeSegmap s = false ∧ StepsMeet (heatStep l) (Meets l s) x as := by
  have hrule : x.freeI.freeSegmap s = false →
      (Throughout (heatStep l) (fun y => HeatTrue y s) x as
        ↔ StepsMeet (heatStep l) (Meets l s) x as) := fun hfree =>
    throughout_iff_stepsMeet_of_inv (I := HeatInv s) (fun _ h => h.heatTrue)
      (fun y a y' h hg hstep => ⟨heatStep_now h.now hstep, (heatStep_decides hs h hstep).1 hg⟩)
      (fun y a y' h hstep htrue =>
        (heatStep_decides hs h hstep).2 ((heatTrue_iff (heatStep_now h.now hstep)).mp htrue))
      (hmount.heatInv hs hfree) hrun
  constructor
  · intro hall
    have hfirst : HeatTrue x s := by
      cases as with
      | nil => exact hall
      | cons a as => exact hall.1
    have hfree := hmount.free_of_heatTrue hs hfirst
    exact ⟨hfree, (hrule hfree).mp hall⟩
  · exact fun ⟨hfree, hmeet⟩ => (hrule hfree).mpr hmeet

/-- Four segments, of which only the first is in use. -/
def heatMount : HeatState where
  nsbi := (mountState boundaryLayout.toGeometry smallFreeI).nsbi
  freeI := smallFreeI
  weight := fun _ _ => 0

lemma heatMount_mounted : Mounted boundaryLayout heatMount :=
  ⟨rfl, fun _ _ _ _ => rfl, fun _ _ => rfl⟩

/-- Segment 1 is allocated, read, and freed in the next epoch: its count is still 15. -/
def staleRun : List HeatStep := [.alloc 1, .dio false 1 2048#32, .rotate, .free 1]

theorem freed_segment_keeps_heat :
    ¬ ∀ (x x' : HeatState) (as : List HeatStep) (s : ℕ), Mounted boundaryLayout x →
      s < boundaryLayout.segmentCountMain → x.freeI.freeSegmap s = false →
      exec (heatStep boundaryLayout) x as = some x' → HeatTrue x' s := by
  intro hall
  obtain ⟨x', hrun⟩ : ∃ x', exec (heatStep boundaryLayout) heatMount staleRun = some x' :=
    Option.isSome_iff_exists.mp (by decide)
  have hend : (exec (heatStep boundaryLayout) heatMount staleRun).map
      (fun y => (y.freeI.freeSegmap 1, calcCount y.nsbi 1)) = some (false, 15) := by
    decide +kernel
  rw [hrun, Option.map_some, Option.some.injEq, Prod.mk.injEq] at hend
  have hunused := (hall heatMount x' staleRun 1 heatMount_mounted (by decide) rfl hrun).unused
  rw [hend.1, hend.2] at hunused
  exact absurd (hunused.mpr rfl) (by decide)

/-- Segment 1 is allocated, moved to NVM, read and freed, all in one epoch. -/
def mappedRun : List HeatStep :=
  [.alloc 1, .map 1 2 (rwMap ||| rwRedirect), .dio false 1 2048#32, .free 1]

theorem calc_count_true_iff_mapped :
    Mounted boundaryLayout heatMount ∧ 1 < boundaryLayout.segmentCountMain ∧
      ∃ x', exec (heatStep boundaryLayout) heatMount mappedRun = some x' ∧
        (Throughout (heatStep boundaryLayout) (fun y => HeatTrue y 1) heatMount mappedRun
          ↔ heatMount.freeI.freeSegmap 1 = false ∧
            StepsMeet (heatStep boundaryLayout) (Meets boundaryLayout 1) heatMount mappedRun) := by
  obtain ⟨x', hrun⟩ : ∃ x', exec (heatStep boundaryLayout) heatMount mappedRun = some x' :=
    Option.isSome_iff_exists.mp (by decide)
  have hlt : 1 < boundaryLayout.segmentCountMain := by decide
  exact ⟨heatMount_mounted, hlt, x', hrun,
    calc_count_true_iff heatMount x' mappedRun 1 heatMount_mounted hlt hrun⟩

end Hoit.LfuHeat
