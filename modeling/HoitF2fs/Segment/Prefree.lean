import HoitF2fs.Segment.Manager

/-!
# Prefree segments

`f2fs_clear_prefree_segments` walks over the `PRE` map run by run, takes each run off the map and
discards it.  Where whole sections are discarded (`mode=lfs` with `discard` and more than one
segment in a section) the walk goes on *after the section* in which a run ends, and whatever is on
the map between the two stays there.

* `clearPrefreeLoop_bits`, `clearPrefreeLoop_le` — the count follows the map, which only loses bits.
* `SkipsNone`, `clearPrefreeLoop_clears` — **the map is empty afterwards, if nothing is skipped.**
* `clearPrefreeLoop_issued` — a discard is a run of segments on the map, or a section without valid
  blocks.
-/

namespace Hoit.Segment

open Bitmap

variable {g : SegGeometry} {o : Options} {cpc : CpControl} {m : SegMan}

/-- A run of set bits, as one round of the loop finds it. -/
structure PreRun (map : ℕ → Bool) (size start stop : ℕ) : Prop where
  lt : start < stop
  le : stop ≤ size
  set : ∀ i, start ≤ i → i < stop → map i = true
  after : stop < size → map stop = false

lemma preRun_of_find {map : ℕ → Bool} {size pos : ℕ} (h : findNextBit map size pos < size) :
    PreRun map size (findNextBit map size pos)
      (findNextZeroBit map size (findNextBit map size pos + 1)) where
  lt := le_findNextZeroBit h
  le := findNextZeroBit_le _ _ _
  set := by
    intro i h1 h2
    rcases Nat.eq_or_lt_of_le h1 with rfl | hlt
    · exact findNextBit_set h
    · exact findNextZeroBit_min hlt h2
  after := findNextZeroBit_clear

/-- The run is not discarded segment by segment, so the walk goes on after its last section. -/
def BySection (g : SegGeometry) (o : Options) (cpc : CpControl) (start stop : ℕ) : Prop :=
  o.discard = true ∧ o.lfs = true ∧ g.segsPerSec ≠ 1 ∧
    ¬(cpc.force = true ∧ cpc.trimStart ≤ start ∧ stop - 1 ≤ cpc.trimEnd)

instance decidableBySection (start stop : ℕ) : Decidable (BySection g o cpc start stop) :=
  inferInstanceAs (Decidable (_ ∧ _))

/-- The end of the section in which a run ends. -/
def sectionEnd (g : SegGeometry) (stop : ℕ) : ℕ := ((stop - 1) / g.segsPerSec + 1) * g.segsPerSec

/-- Where the walk goes on after a run. -/
def nextPos (g : SegGeometry) (o : Options) (cpc : CpControl) (start stop : ℕ) : ℕ :=
  if BySection g o cpc start stop then sectionEnd g stop else stop + 1

lemma le_sectionEnd (g : SegGeometry) {stop : ℕ} (h : 0 < stop) : stop ≤ sectionEnd g stop := by
  have hlt := Nat.lt_div_mul_add (a := stop - 1) g.segsPerSec_pos
  rw [sectionEnd, Nat.add_mul, Nat.one_mul]
  omega

lemma lt_nextPos (g : SegGeometry) (o : Options) (cpc : CpControl) {start stop : ℕ}
    (h : start < stop) : start < nextPos g o cpc start stop := by
  have hle := le_sectionEnd g (show 0 < stop by omega)
  unfold nextPos
  split_ifs <;> omega

/-- **Everything one round does.** -/
lemma clearPrefreeLoop_succ (k pos : ℕ) (x : (ℕ → Bool) × ℕ × List BlkRange) :
    clearPrefreeLoop g o cpc m (k + 1) pos x = x ∧
        (∀ i, pos ≤ i → i < g.segmentCountMain → x.1 i = false) ∨
      ∃ start stop ds, PreRun x.1 g.segmentCountMain start stop ∧ pos ≤ start ∧
        (∀ i, pos ≤ i → i < start → x.1 i = false) ∧
        (ds = [] ∨ ds = [⟨start * blocksPerSeg, (stop - start) * blocksPerSeg⟩] ∨
          (o.lfs = true ∧ 1 < g.segsPerSec ∧ ds = sectionDiscards g m start stop)) ∧
        clearPrefreeLoop g o cpc m (k + 1) pos x
          = clearPrefreeLoop g o cpc m k (nextPos g o cpc start stop)
              (fun i => x.1 i && !(decide (start ≤ i) && decide (i < stop)),
                x.2.1 + (stop - start), x.2.2 ++ ds) := by
  by_cases hend : g.segmentCountMain ≤ findNextBit x.1 g.segmentCountMain pos
  · refine Or.inl ⟨?_, le_findNextBit_iff.mp hend⟩
    rw [clearPrefreeLoop]
    exact if_pos hend
  · right
    have hlt : findNextBit x.1 g.segmentCountMain pos < g.segmentCountMain := by omega
    have hrun := preRun_of_find hlt
    have hpos := le_findNextBit hlt
    have hbefore : ∀ i, pos ≤ i → i < findNextBit x.1 g.segmentCountMain pos → x.1 i = false :=
      fun i h1 h2 => findNextBit_min h1 h2
    rw [clearPrefreeLoop]
    simp only [if_neg hend]
    generalize findNextBit x.1 g.segmentCountMain pos = start at hrun hbefore hpos ⊢
    generalize findNextZeroBit x.1 g.segmentCountMain (start + 1) = stop at hrun ⊢
    have hsegs := g.segsPerSec_pos
    by_cases hexempt : (!o.discard || (cpc.force && decide (cpc.trimStart ≤ start) &&
        decide (stop - 1 ≤ cpc.trimEnd))) = true
    · refine ⟨start, stop, [], hrun, hpos, hbefore, Or.inl rfl, ?_⟩
      have hnext : nextPos g o cpc start stop = stop + 1 := by
        refine if_neg ?_
        rintro ⟨hd, -, -, hforce⟩
        simp [hd] at hexempt
        exact hforce ⟨hexempt.1.1, hexempt.1.2, by omega⟩
      rw [if_pos hexempt, hnext, List.append_nil]
    · rw [if_neg hexempt]
      by_cases hplain : (!o.lfs || g.segsPerSec == 1) = true
      · refine ⟨start, stop, _, hrun, hpos, hbefore, Or.inr (Or.inl rfl), ?_⟩
        have hnext : nextPos g o cpc start stop = stop + 1 := by
          refine if_neg ?_
          rintro ⟨-, hl, hs, -⟩
          simp [hl, hs] at hplain
        rw [if_pos hplain, hnext]
      · simp only [Bool.or_eq_true, Bool.not_eq_true', beq_iff_eq, not_or, Bool.not_eq_false]
          at hplain
        refine ⟨start, stop, _, hrun, hpos, hbefore,
          Or.inr (Or.inr ⟨hplain.1, by omega, rfl⟩), ?_⟩
        have hnext : nextPos g o cpc start stop = sectionEnd g stop := by
          refine if_pos ⟨?_, hplain.1, hplain.2, ?_⟩
          · cases hd : o.discard with
            | true => rfl
            | false => simp [hd] at hexempt
          · rintro ⟨hf, h1, h2⟩
            simp [hf, h1] at hexempt
            omega
        rw [if_neg (by simp [hplain.1, hplain.2]), hnext]
        rfl

/-! ## The map and its count -/

lemma clearPrefreeLoop_bits (k pos : ℕ) (x : (ℕ → Bool) × ℕ × List BlkRange) :
    setBits (clearPrefreeLoop g o cpc m k pos x).1 g.segmentCountMain
        + (clearPrefreeLoop g o cpc m k pos x).2.1
      = setBits x.1 g.segmentCountMain + x.2.1 := by
  induction k generalizing pos x with
  | zero => rfl
  | succ k ih =>
      rcases clearPrefreeLoop_succ k pos x with ⟨hdone, -⟩ | ⟨start, stop, ds, hrun, -, -, -, heq⟩
      · rw [hdone]
      · rw [heq, ih]
        have hclear := setBits_clear_run hrun.le hrun.set
        change setBits (fun i => x.1 i && !(decide (start ≤ i) && decide (i < stop))) _ +
          (x.2.1 + (stop - start)) = _
        omega

lemma clearPrefreeLoop_le (k pos : ℕ) (x : (ℕ → Bool) × ℕ × List BlkRange) {i : ℕ}
    (h : (clearPrefreeLoop g o cpc m k pos x).1 i = true) : x.1 i = true := by
  induction k generalizing pos x with
  | zero => exact h
  | succ k ih =>
      rcases clearPrefreeLoop_succ k pos x with ⟨hdone, -⟩ | ⟨start, stop, ds, -, -, -, -, heq⟩
      · rwa [hdone] at h
      · rw [heq] at h
        have hi := ih _ _ h
        simp only [Bool.and_eq_true] at hi
        exact hi.1

/-- **Nothing is skipped**: between the end of a run and the end of its section there is nothing
on the map, wherever the walk jumps there. -/
def SkipsNone (g : SegGeometry) (o : Options) (cpc : CpControl) (pre : ℕ → Bool) : Prop :=
  ∀ start stop, PreRun pre g.segmentCountMain start stop → BySection g o cpc start stop →
    ∀ i, stop ≤ i → i < sectionEnd g stop → i < g.segmentCountMain → pre i = false

instance (map : ℕ → Bool) (size start stop : ℕ) : Decidable (PreRun map size start stop) :=
  decidable_of_iff (start < stop ∧ stop ≤ size ∧ (∀ i < stop, start ≤ i → map i = true) ∧
      (stop < size → map stop = false))
    ⟨fun h => ⟨h.1, h.2.1, fun i h1 h2 => h.2.2.1 i h2 h1, h.2.2.2⟩,
      fun h => ⟨h.lt, h.le, fun i h1 h2 => h.set i h2 h1, h.after⟩⟩

instance (pre : ℕ → Bool) : Decidable (SkipsNone g o cpc pre) :=
  decidable_of_iff (∀ p ∈ List.range g.segmentCountMain ×ˢ List.range (g.segmentCountMain + 1),
      BySection g o cpc p.1 p.2 → PreRun pre g.segmentCountMain p.1 p.2 →
        ∀ i < g.segmentCountMain, p.2 ≤ i → i < sectionEnd g p.2 → pre i = false) <| by
    constructor
    · intro h start stop hrun hsec i h1 h2 h3
      have hmem : (start, stop) ∈
          List.range g.segmentCountMain ×ˢ List.range (g.segmentCountMain + 1) := by
        have := hrun.lt
        have := hrun.le
        simp only [List.mem_product, List.mem_range]
        omega
      exact h _ hmem hsec hrun i h3 h1 h2
    · intro h p _ hsec hrun i h3 h1 h2
      exact h p.1 p.2 hrun hsec i h1 h2 h3

/-- What is left on the map is what the walk has not come to. -/
lemma clearPrefreeLoop_clears {pre : ℕ → Bool} (hskip : SkipsNone g o cpc pre) {k pos : ℕ}
    {x : (ℕ → Bool) × ℕ × List BlkRange} (hk : g.segmentCountMain < k + pos)
    (hbelow : ∀ i, i < pos → i < g.segmentCountMain → x.1 i = false)
    (habove : ∀ i, pos ≤ i → x.1 i = pre i) :
    ∀ i < g.segmentCountMain, (clearPrefreeLoop g o cpc m k pos x).1 i = false := by
  induction k generalizing pos x with
  | zero => exact fun i hi => hbelow i (by omega) hi
  | succ k ih =>
      intro i hi
      rcases clearPrefreeLoop_succ k pos x with
        ⟨hdone, hnone⟩ | ⟨start, stop, ds, hrun, hpos, hbefore, -, heq⟩
      · rw [hdone]
        by_cases hip : i < pos
        · exact hbelow i hip hi
        · exact hnone i (by omega) hi
      · have hrun' : PreRun pre g.segmentCountMain start stop := by
          refine ⟨hrun.lt, hrun.le, fun j h1 h2 => ?_, fun hlt => ?_⟩
          · rw [← habove j (by omega)]
            exact hrun.set j h1 h2
          · have := hrun.lt
            rw [← habove stop (by omega)]
            exact hrun.after hlt
        have hjump := lt_nextPos g o cpc hrun.lt
        have hstop : stop ≤ nextPos g o cpc start stop := by
          unfold nextPos
          split_ifs
          · exact le_sectionEnd g (by have := hrun.lt; omega)
          · omega
        rw [heq]
        refine ih (by omega) (fun j hj hlt => ?_) (fun j hj => ?_) i hi
        · -- A bit below the new position: passed, part of the run, or after it.
          simp only [Bool.and_eq_false_iff, Bool.not_eq_false', Bool.and_eq_true, decide_eq_true_eq]
          by_cases hjp : j < pos
          · exact Or.inl (hbelow j hjp hlt)
          · by_cases hjs : j < start
            · exact Or.inl (hbefore j (by omega) hjs)
            · by_cases hjr : j < stop
              · exact Or.inr ⟨by omega, hjr⟩
              · left
                rw [habove j (by omega)]
                unfold nextPos at hj
                split_ifs at hj with hby
                · exact hskip start stop hrun' hby j (by omega) hj hlt
                · obtain rfl : j = stop := by omega
                  exact hrun'.after hlt
        · have hnot : decide (j < stop) = false := by
            simp only [decide_eq_false_iff_not]
            omega
          simp only [hnot, Bool.and_false, Bool.not_false, Bool.and_true]
          exact habove j (by have := hrun.lt; omega)

/-! ## The discards -/

/-- The discards of a checkpoint that are not small: some segments, all on the map or together one
section without a valid block. -/
def SegRange (g : SegGeometry) (m : SegMan) (pre : ℕ → Bool) (r : BlkRange) : Prop :=
  ∃ lo hi, lo < hi ∧ hi ≤ g.segmentCountMain ∧
    r = ⟨lo * blocksPerSeg, (hi - lo) * blocksPerSeg⟩ ∧
    ((∀ i, lo ≤ i → i < hi → pre i = true) ∨
      ∃ secno < g.mainSecs, 1 < g.segsPerSec ∧ lo = secno * g.segsPerSec ∧
        hi = lo + g.segsPerSec ∧ isCursec g m secno = false ∧ m.sit.secValidBlocks secno = 0)

lemma sectionDiscards_segRange {pre : ℕ → Bool} {start stop : ℕ} {r : BlkRange}
    (hone : 1 < g.segsPerSec) (hlt : start < stop) (hle : stop ≤ g.segmentCountMain)
    (h : r ∈ sectionDiscards g m start stop) : SegRange g m pre r := by
  obtain ⟨secno, hsec, rfl⟩ := List.mem_map.mp h
  obtain ⟨hmem, hb⟩ := List.mem_filter.mp hsec
  rw [List.mem_range'_1] at hmem
  have hlast : (stop - 1) / g.segsPerSec < g.mainSecs := section_lt (by omega)
  have hsecs : secno < g.mainSecs := by omega
  have hend : secno * g.segsPerSec + g.segsPerSec ≤ g.segmentCountMain := by
    rw [g.whole]
    calc secno * g.segsPerSec + g.segsPerSec = (secno + 1) * g.segsPerSec := by ring
      _ ≤ g.mainSecs * g.segsPerSec := Nat.mul_le_mul_right _ hsecs
  have hfirst : max start (secno * g.segsPerSec) / g.segsPerSec = secno := by
    rw [section_iff]
    have hstart : start < (start / g.segsPerSec) * g.segsPerSec + g.segsPerSec :=
      Nat.lt_div_mul_add g.segsPerSec_pos
    have hmul : start / g.segsPerSec * g.segsPerSec ≤ secno * g.segsPerSec :=
      Nat.mul_le_mul_right _ hmem.1
    omega
  simp only [getValidBlocks, decide_eq_true hone, Bool.and_true, if_true, hfirst, Bool.and_eq_true,
    Bool.not_eq_true', beq_iff_eq] at hb
  refine ⟨secno * g.segsPerSec, secno * g.segsPerSec + g.segsPerSec, by omega, hend, ?_,
    Or.inr ⟨secno, hsecs, hone, rfl, rfl, hb.1, hb.2⟩⟩
  rw [Nat.add_sub_cancel_left]

lemma clearPrefreeLoop_issued {pre : ℕ → Bool} {k pos : ℕ}
    {x : (ℕ → Bool) × ℕ × List BlkRange} (hpre : ∀ i, x.1 i = true → pre i = true)
    (hissued : ∀ r ∈ x.2.2, SegRange g m pre r) :
    ∀ r ∈ (clearPrefreeLoop g o cpc m k pos x).2.2, SegRange g m pre r := by
  induction k generalizing pos x with
  | zero => exact hissued
  | succ k ih =>
      rcases clearPrefreeLoop_succ k pos x with
        ⟨hdone, -⟩ | ⟨start, stop, ds, hrun, -, -, hds, heq⟩
      · rw [hdone]
        exact hissued
      · rw [heq]
        refine ih (fun i hi => ?_) fun r hr => ?_
        · simp only [Bool.and_eq_true] at hi
          exact hpre i hi.1
        · rcases List.mem_append.mp hr with hr | hr
          · exact hissued r hr
          · rcases hds with rfl | rfl | ⟨-, hone, rfl⟩
            · simp at hr
            · rw [List.mem_singleton] at hr
              exact ⟨start, stop, hrun.lt, hrun.le, hr,
                Or.inl fun i h1 h2 => hpre i (hrun.set i h1 h2)⟩
            · exact sectionDiscards_segRange hone hrun.lt hrun.le hr

/-- The small discards of an entry: runs of candidates. -/
lemma smallDiscards_spec {e : DiscardEntry} {k pos : ℕ} {r : BlkRange}
    (h : r ∈ smallDiscards cpc e k pos) :
    ∃ start stop, start < stop ∧ stop ≤ blocksPerSeg ∧
      r = ⟨e.segno * blocksPerSeg + start, stop - start⟩ ∧
      ∀ i, start ≤ i → i < stop → e.discardMap i = true := by
  induction k generalizing pos with
  | zero => simp [smallDiscards] at h
  | succ k ih =>
      simp only [smallDiscards] at h
      split_ifs at h with hend hmin
      · simp at h
      · exact ih h
      · rcases List.mem_cons.mp h with rfl | h
        · have hlt : findNextBit e.discardMap blocksPerSeg pos < blocksPerSeg := by omega
          have hset := findNextBit_set hlt
          have hle : findNextBit e.discardMap blocksPerSeg pos
              ≤ findNextZeroBit e.discardMap blocksPerSeg
                (findNextBit e.discardMap blocksPerSeg pos) := le_findNextZeroBit hlt.le
          refine ⟨_, _, ?_, findNextZeroBit_le _ _ _, rfl, fun i h1 h2 => findNextZeroBit_min h1 h2⟩
          refine lt_of_le_of_ne hle fun heq => ?_
          have hclear : e.discardMap (findNextZeroBit e.discardMap blocksPerSeg
              (findNextBit e.discardMap blocksPerSeg pos)) = false :=
            findNextZeroBit_clear (by omega)
          rw [← heq, hset] at hclear
          exact absurd hclear (by simp)
        · exact ih h

end Hoit.Segment
