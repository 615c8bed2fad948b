import HoitF2fs.Lib.BinHeap
import HoitF2fs.Nvm.Accounting

/-!
# Choosing the coldest segments

`get_max_k` goes through the NVM half of the mapping table and keeps, in a heap with the largest
count on top, the `k` segments that were read least.  Segments around the allocation position,
segments in use and segments without a count are passed over.

**Two loops share one index.**  The first runs until the heap is full and inserts; the second
runs to the end and replaces the root.  A segment inside the protected window makes either loop
jump behind the window.  The index is an `int`, the ends of the window are `unsigned int`, and so
are the comparisons between them: `toU32` and `toInt32` are the conversions.

* `calcCount` — the weighted sum of the four LFU counters.
* `mptLoop` — both loops, by what they do with a candidate; `getMaxK` — the function.
* `Eligible` — which segments may be chosen, without reference to the loops.

`mptLoop_inv` is the rule for one loop: what holds of the segments below the index is kept by
passing a segment over and by taking a candidate.  With it `getMaxK_holds` says that the two loops
offer every eligible segment once to the heap of `HoitF2fs.Lib.BinHeap`, and `get_max_k_selects`
reads off what is chosen.
-/

namespace Hoit

open BinHeap

/-! ## Counting -/

/-- The weights of the four counters, when counter `now` is the current one. -/
def lfuLevel (now i : ℕ) : ℤ :=
  match now with
  | 0 => [4, 3, 2, 1].getD i 0
  | 1 => [1, 4, 3, 2].getD i 0
  | 2 => [2, 1, 4, 3].getD i 0
  | 3 => [3, 2, 1, 4].getD i 0
  -- `nvm_move_lfu_count` keeps the number of the current counter below `LFU_LEVELS`
  | _ => 0

/-- `calc_count`: -1 if none of the counters of the segment is in use. -/
def calcCount (nsbi : NvmSbInfo) (ssdSegno : ℕ) : ℤ :=
  if (List.range 4).all fun i => nsbi.lfuCount i ssdSegno = -1 then -1
  else
    ((List.range 4).map fun i =>
      (if nsbi.lfuCount i ssdSegno = -1 then 0 else nsbi.lfuCount i ssdSegno)
        * lfuLevel nsbi.nowLfuCounter i).sum.bmod (2 ^ 32)

/-- The segments of the six logs, and the section that is being cleaned. -/
structure SecUsage where
  curSegno : Fin 6 → ℕ
  curVictimSec : ℕ

/-- `sec_usage_check`. -/
def secUsageCheck (g : Geometry) (u : SecUsage) (secno : ℕ) : Bool :=
  decide (∃ i, secno = u.curSegno i / g.segsPerSec) || decide (u.curVictimSec = secno)

/-! ## The heap -/

/-- `struct heap_node`. -/
structure HeapNode where
  count : ℕ
  segOff : ℕ

/-- `struct max_heap`. -/
structure MaxHeap where
  nodes : ℕ → HeapNode
  curNum : ℕ
  k : ℕ

/-- `insert_max_heap`; the counts that are inserted are not negative. -/
def insertMaxHeap (mh : MaxHeap) (segOff : ℕ) (count : ℤ) : MaxHeap :=
  { mh with
    nodes := siftUp HeapNode.count mh.nodes mh.curNum ⟨count.toNat, segOff⟩
    curNum := mh.curNum + 1 }

/-- `max_heap_adjust_down`: the root goes to its place. -/
def maxHeapAdjustDown (mh : MaxHeap) : MaxHeap :=
  { mh with nodes := siftDown HeapNode.count mh.nodes mh.curNum 0 (mh.nodes 0) }

/-- `get_max_heap_top`. -/
def getMaxHeapTop (mh : MaxHeap) : ℕ := if mh.curNum = 0 then 0 else (mh.nodes 0).count

/-! ## The scan -/

/-- The value of an `int` in a comparison with an `unsigned int`. -/
def toU32 (i : ℤ) : ℕ := (i % 2 ^ 32).toNat

/-- The value of an `unsigned int` assigned to an `int`. -/
def toInt32 (u : ℕ) : ℤ := (u : ℤ).bmod (2 ^ 32)

/-- `left_segoff`. -/
def leftSegoff (now : ℕ) : ℕ := if now < 500 then 0 else now - 500

/-- `right_segoff`, in 32 bits. -/
def rightSegoff (now : ℕ) : ℕ := (now + 50) % 2 ^ 32

/-- What the tests at the head of both loops find out about a segment. -/
inductive Candidate where
  /-- It lies in the protected window. -/
  | window
  | skip
  | count (c : ℤ)

variable (g : Geometry) (nsbi : NvmSbInfo) (u : SecUsage) (preMove : Bool)

/-- The tests, from "start" to "end", and the count. -/
def candidate (mptIndex : ℤ) : Candidate :=
  if leftSegoff nsbi.curAllocNvmSegoff ≤ toU32 mptIndex
      ∧ toU32 mptIndex ≤ rightSegoff nsbi.curAllocNvmSegoff then .window
  else if !getMapFlag nsbi.mpt mptIndex.toNat then .skip
  else if preMove && getDoubleFlag nsbi.mpt mptIndex.toNat then .skip
  else
    let ssdSegno := getMptValue nsbi.mpt mptIndex.toNat
    if secUsageCheck g u (ssdSegno / g.segsPerSec) then .skip else .count (calcCount nsbi ssdSegno)

/-- A loop over the table: it goes on while `mpt_index < len` and `go` holds, and `take` is what it
does with a candidate.  `none` means that it has not ended after `fuel` rounds. -/
def mptLoop (len : ℤ) (go : MaxHeap → Bool) (take : MaxHeap → ℕ → ℤ → MaxHeap) :
    (fuel : ℕ) → ℤ → MaxHeap → Option (ℤ × MaxHeap)
  | 0, _, _ => none
  | fuel + 1, mptIndex, mh =>
      if mptIndex < len ∧ go mh = true then
        match candidate g nsbi u preMove mptIndex with
        | .window =>
            mptLoop len go take fuel (toInt32 (rightSegoff nsbi.curAllocNvmSegoff) + 1) mh
        | .skip => mptLoop len go take fuel (mptIndex + 1) mh
        | .count c => mptLoop len go take fuel (mptIndex + 1) (take mh mptIndex.toNat c)
      else some (mptIndex, mh)

/-- The first loop inserts what has a count. -/
def takeFirst (mh : MaxHeap) (segOff : ℕ) (count : ℤ) : MaxHeap :=
  if 0 ≤ count then insertMaxHeap mh segOff count else mh

/-- The second loop replaces the root by what has a smaller count. -/
def takeRest (mh : MaxHeap) (segOff : ℕ) (count : ℤ) : MaxHeap :=
  if 0 ≤ count ∧ count.toNat < getMaxHeapTop mh then
    maxHeapAdjustDown { mh with nodes := Function.update mh.nodes 0 ⟨count.toNat, segOff⟩ }
  else mh

/-- `ENOCOLD`. -/
def eNoCold : ℤ := 4

/-- `get_max_k`: the heap and the return value. -/
def getMaxK (mh : MaxHeap) (len : ℤ) : Option (MaxHeap × ℤ) :=
  (mptLoop g nsbi u preMove len (fun mh => decide (mh.curNum < mh.k)) takeFirst (len.toNat + 1) 0
    mh).bind fun (mptIndex, mh) =>
      (mptLoop g nsbi u preMove len (fun _ => true) takeRest (len.toNat + 1) mptIndex mh).map
        fun (_, mh) => (mh, if mh.curNum < mh.k then -eNoCold else 0)

/-! ## What is wanted -/

/-- A segment that may be chosen. -/
structure Eligible (len : ℤ) (n : ℕ) : Prop where
  inside : (n : ℤ) < len
  mapped : getMapFlag nsbi.mpt n = true
  outside : ¬ (max ((nsbi.curAllocNvmSegoff : ℤ) - 500) 0 ≤ n ∧
    (n : ℤ) ≤ nsbi.curAllocNvmSegoff + 50)
  idle : secUsageCheck g u (getMptValue nsbi.mpt n / g.segsPerSec) = false
  single : preMove = true → getDoubleFlag nsbi.mpt n = false
  counted : 0 ≤ calcCount nsbi (getMptValue nsbi.mpt n)

/-- The count of the SSD segment that NVM segment `n` is mapped to. -/
def segCount (n : ℕ) : ℕ := (calcCount nsbi (getMptValue nsbi.mpt n)).toNat

variable {g nsbi u preMove} {len : ℤ} {i : ℕ}

/-! ## The tests -/

/-- Segments below `len`, and the window around the allocation position, have small numbers. -/
structure IndexFits (nsbi : NvmSbInfo) (len : ℤ) : Prop where
  cursor : nsbi.curAllocNvmSegoff < 2 ^ 32
  room : len + 551 ≤ 2 ^ 31

lemma toU32_ofNat {k : ℕ} (h : k < 2 ^ 32) : toU32 (k : ℤ) = k := by
  unfold toU32
  omega

/-- **The window the code tests for is the window that is meant**, on both sides of the wrap-around
of its right end; and the jump leads behind it. -/
lemma window_iff (hfits : IndexFits nsbi len) (hi : (i : ℤ) < len) :
    (leftSegoff nsbi.curAllocNvmSegoff ≤ toU32 i ∧ toU32 i ≤ rightSegoff nsbi.curAllocNvmSegoff)
      ↔ max ((nsbi.curAllocNvmSegoff : ℤ) - 500) 0 ≤ i ∧ (i : ℤ) ≤ nsbi.curAllocNvmSegoff + 50 := by
  have hcursor := hfits.cursor
  have hroom := hfits.room
  rw [toU32_ofNat (by omega)]
  unfold leftSegoff rightSegoff
  split <;> omega

lemma jump_eq (hfits : IndexFits nsbi len) (hi : (i : ℤ) < len)
    (hwindow : max ((nsbi.curAllocNvmSegoff : ℤ) - 500) 0 ≤ i) :
    toInt32 (rightSegoff nsbi.curAllocNvmSegoff) = nsbi.curAllocNvmSegoff + 50 := by
  have hroom := hfits.room
  have hsmall : nsbi.curAllocNvmSegoff + 50 < 2 ^ 31 := by omega
  unfold toInt32 rightSegoff
  rw [Nat.mod_eq_of_lt (by omega), Int.bmod_eq_of_le] <;> omega

/-- **What the tests say about a segment**, case by case. -/
lemma candidate_spec (hfits : IndexFits nsbi len) (hi : (i : ℤ) < len) :
    match candidate g nsbi u preMove i with
    | .window => ∃ j : ℕ, toInt32 (rightSegoff nsbi.curAllocNvmSegoff) + 1 = j ∧ i < j ∧
        ∀ k, i ≤ k → k < j → ¬ Eligible g nsbi u preMove len k
    | .skip => ¬ Eligible g nsbi u preMove len i
    | .count c => c = calcCount nsbi (getMptValue nsbi.mpt i) ∧
        (0 ≤ c → Eligible g nsbi u preMove len i) := by
  unfold candidate
  by_cases hwindow : leftSegoff nsbi.curAllocNvmSegoff ≤ toU32 i
      ∧ toU32 i ≤ rightSegoff nsbi.curAllocNvmSegoff
  · rw [if_pos hwindow]
    obtain ⟨hleft, hright⟩ := (window_iff hfits hi).mp hwindow
    refine ⟨nsbi.curAllocNvmSegoff + 51, ?_, by omega, ?_⟩
    · rw [jump_eq hfits hi hleft]
      push_cast
      ring
    · rintro k hik hk h
      exact h.outside ⟨by omega, by omega⟩
  · rw [if_neg hwindow, Int.toNat_natCast]
    by_cases hmap : getMapFlag nsbi.mpt i = true
    · rw [hmap, Bool.not_true, if_neg Bool.false_ne_true]
      by_cases hdouble : (preMove && getDoubleFlag nsbi.mpt i) = true
      · rw [if_pos hdouble]
        intro h
        rw [Bool.and_eq_true] at hdouble
        rw [h.single hdouble.1] at hdouble
        exact absurd hdouble.2 (by simp)
      · rw [if_neg hdouble]
        by_cases hbusy : secUsageCheck g u (getMptValue nsbi.mpt i / g.segsPerSec) = true
        · simp only [if_pos hbusy]
          intro h
          rw [h.idle] at hbusy
          exact absurd hbusy (by simp)
        · simp only [if_neg hbusy]
          refine ⟨trivial, fun hcount => ⟨hi, hmap, ?_, by simpa using hbusy, ?_, hcount⟩⟩
          · exact fun h => hwindow ((window_iff hfits hi).mpr h)
          · intro hpre
            simpa [hpre] using hdouble
    · have hunmapped : getMapFlag nsbi.mpt i = false := by simpa using hmap
      rw [hunmapped, Bool.not_false, if_pos rfl]
      exact fun h => hmap h.mapped

/-! ## The loops -/

/-- **The rule for one loop.**  `P j mh` is to say what the heap is after the segments below `j`.
The loop ends, and `P` holds of where it ends. -/
lemma mptLoop_inv {go : MaxHeap → Bool} {take : MaxHeap → ℕ → ℤ → MaxHeap}
    (hfits : IndexFits nsbi len) (P : ℕ → MaxHeap → Prop)
    (hpass : ∀ j mh, P j mh → ¬ Eligible g nsbi u preMove len j → P (j + 1) mh)
    (htake : ∀ j mh, P j mh → go mh = true → Eligible g nsbi u preMove len j →
      P (j + 1) (take mh j (calcCount nsbi (getMptValue nsbi.mpt j))))
    (hneg : ∀ mh j c, c < 0 → take mh j c = mh) :
    ∀ (fuel i : ℕ) (mh : MaxHeap), len ≤ i + fuel → P i mh →
      ∃ (j : ℕ) (mh' : MaxHeap),
        mptLoop g nsbi u preMove len go take (fuel + 1) i mh = some ((j : ℤ), mh') ∧
          P j mh' ∧ (len ≤ j ∨ go mh' = false) := by
  have hjump : ∀ mh j k, P j mh → j ≤ k →
      (∀ n, j ≤ n → n < k → ¬ Eligible g nsbi u preMove len n) → P k mh := by
    intro mh j k hP hjk hnone
    induction k, hjk using Nat.le_induction with
    | base => exact hP
    | succ k hjk ih =>
        exact hpass k mh (ih fun n h1 h2 => hnone n h1 (by omega)) (hnone k hjk (by omega))
  have hnext : ∀ i : ℕ, (i : ℤ) + 1 = ((i + 1 : ℕ) : ℤ) := fun i => by push_cast; rfl
  -- a loop that is at its end
  have hstop : ∀ (fuel i : ℕ) (mh : MaxHeap), ¬ ((i : ℤ) < len ∧ go mh = true) → P i mh →
      ∃ (j : ℕ) (mh' : MaxHeap),
        mptLoop g nsbi u preMove len go take (fuel + 1) i mh = some ((j : ℤ), mh') ∧
          P j mh' ∧ (len ≤ j ∨ go mh' = false) := by
    intro fuel i mh hgo hP
    refine ⟨i, mh, by rw [mptLoop, if_neg hgo], hP, ?_⟩
    by_cases hlen : (i : ℤ) < len
    · exact Or.inr (by simpa [hlen] using hgo)
    · exact Or.inl (not_lt.mp hlen)
  intro fuel
  induction fuel with
  | zero =>
      intro i mh hfuel hP
      exact hstop 0 i mh (fun hgo => by have := hgo.1; push_cast at hfuel; omega) hP
  | succ fuel ih =>
      intro i mh hfuel hP
      push_cast at hfuel
      by_cases hgo : (i : ℤ) < len ∧ go mh = true
      · have hspec := @candidate_spec g nsbi u preMove len i hfits hgo.1
        rw [mptLoop, if_pos hgo]
        cases hc : candidate g nsbi u preMove i with
        | window =>
            rw [hc] at hspec
            obtain ⟨j, hj, hij, hnone⟩ := hspec
            simp only [hj]
            exact ih j mh (by omega) (hjump mh i j hP hij.le hnone)
        | skip =>
            rw [hc] at hspec
            simp only [hnext]
            exact ih (i + 1) mh (by push_cast; omega) (hpass i mh hP hspec)
        | count c =>
            rw [hc] at hspec
            obtain ⟨rfl, hel⟩ := hspec
            simp only [hnext, Int.toNat_natCast]
            refine ih (i + 1) _ (by push_cast; omega) ?_
            by_cases hcount : 0 ≤ calcCount nsbi (getMptValue nsbi.mpt i)
            · exact htake i mh hP hgo.2 (hel hcount)
            · rw [hneg mh i _ (not_le.mp hcount)]
              exact hpass i mh hP fun h => hcount h.counted
      · exact hstop _ i mh hgo hP

/-! ## What the heap is offered -/

instance (g : Geometry) (nsbi : NvmSbInfo) (u : SecUsage) (preMove : Bool) (len : ℤ) (n : ℕ) :
    Decidable (Eligible g nsbi u preMove len n) :=
  decidable_of_iff
    ((n : ℤ) < len ∧ getMapFlag nsbi.mpt n = true ∧
      (¬ (max ((nsbi.curAllocNvmSegoff : ℤ) - 500) 0 ≤ n ∧
        (n : ℤ) ≤ nsbi.curAllocNvmSegoff + 50)) ∧
      secUsageCheck g u (getMptValue nsbi.mpt n / g.segsPerSec) = false ∧
      (preMove = true → getDoubleFlag nsbi.mpt n = false) ∧
      0 ≤ calcCount nsbi (getMptValue nsbi.mpt n))
    ⟨fun ⟨h1, h2, h3, h4, h5, h6⟩ => ⟨h1, h2, h3, h4, h5, h6⟩,
      fun h => ⟨h.inside, h.mapped, h.outside, h.idle, h.single, h.counted⟩⟩

/-- The eligible segments below `j`, with their counts. -/
def offered (g : Geometry) (nsbi : NvmSbInfo) (u : SecUsage) (preMove : Bool) (len : ℤ)
    (j : ℕ) : Multiset HeapNode :=
  ((Multiset.range j).filter fun n => Eligible g nsbi u preMove len n).map fun n =>
    ⟨segCount nsbi n, n⟩

lemma offered_pass {j : ℕ} (h : ¬ Eligible g nsbi u preMove len j) :
    offered g nsbi u preMove len (j + 1) = offered g nsbi u preMove len j := by
  unfold offered
  rw [Multiset.range_succ, Multiset.filter_cons_of_neg _ h]

lemma offered_take {j : ℕ} (h : Eligible g nsbi u preMove len j) :
    offered g nsbi u preMove len (j + 1)
      = ⟨segCount nsbi j, j⟩ ::ₘ offered g nsbi u preMove len j := by
  unfold offered
  rw [Multiset.range_succ, Multiset.filter_cons_of_pos _ h, Multiset.map_cons]

lemma mem_offered {j : ℕ} {x : HeapNode} : x ∈ offered g nsbi u preMove len j ↔
    ∃ n < j, Eligible g nsbi u preMove len n ∧ ⟨segCount nsbi n, n⟩ = x := by
  simp only [offered, Multiset.mem_map, Multiset.mem_filter, Multiset.mem_range, and_assoc]

lemma offered_nodup (j : ℕ) : (offered g nsbi u preMove len j).Nodup := by
  refine Multiset.Nodup.map ?_ ((Multiset.nodup_range j).filter _)
  intro m n h
  exact congrArg HeapNode.segOff h

/-- The heap after the segments below `j`, while the capacity is `k`. -/
structure HeapHolds (g : Geometry) (nsbi : NvmSbInfo) (u : SecUsage) (preMove : Bool) (len : ℤ) (k j : ℕ)
    (mh : MaxHeap) : Prop where
  capacity : mh.k = k
  best : TopK HeapNode.count mh.nodes mh.curNum k (offered g nsbi u preMove len j)

variable {k j : ℕ} {mh : MaxHeap}

lemma HeapHolds.pass (h : HeapHolds g nsbi u preMove len k j mh)
    (hnot : ¬ Eligible g nsbi u preMove len j) : HeapHolds g nsbi u preMove len k (j + 1) mh := by
  refine ⟨h.capacity, ?_⟩
  rw [offered_pass hnot]
  exact h.best

lemma HeapHolds.takeFirst (h : HeapHolds g nsbi u preMove len k j mh) (hroom : mh.curNum < k)
    (hel : Eligible g nsbi u preMove len j) :
    HeapHolds g nsbi u preMove len k (j + 1)
      (takeFirst mh j (calcCount nsbi (getMptValue nsbi.mpt j))) := by
  unfold Hoit.takeFirst
  rw [if_pos hel.counted]
  refine ⟨h.capacity, ?_⟩
  rw [offered_take hel]
  exact h.best.push hroom _

/-- The second loop, once the heap is full. -/
lemma HeapHolds.takeRest (h : HeapHolds g nsbi u preMove len k j mh) (hfull : mh.curNum = k)
    (hel : Eligible g nsbi u preMove len j) :
    HeapHolds g nsbi u preMove len k (j + 1)
      (takeRest mh j (calcCount nsbi (getMptValue nsbi.mpt j))) := by
  unfold Hoit.takeRest
  by_cases hlt : segCount nsbi j < getMaxHeapTop mh
  · rw [if_pos ⟨hel.counted, hlt⟩]
    have hpos : mh.curNum ≠ 0 := by
      intro hzero
      rw [getMaxHeapTop, if_pos hzero] at hlt
      exact absurd hlt (Nat.not_lt_zero _)
    rw [getMaxHeapTop, if_neg hpos] at hlt
    refine ⟨h.capacity, ?_⟩
    rw [offered_take hel]
    simp only [maxHeapAdjustDown, Function.update_self]
    exact h.best.replace hfull (Nat.pos_of_ne_zero hpos) hlt
  · rw [if_neg fun hand => hlt hand.2]
    refine ⟨h.capacity, ?_⟩
    rw [offered_take hel]
    refine h.best.drop hfull fun hpos => ?_
    rw [getMaxHeapTop, if_neg hpos.ne', not_lt] at hlt
    exact hlt

lemma takeRest_curNum (mh : MaxHeap) (j : ℕ) (c : ℤ) : (takeRest mh j c).curNum = mh.curNum := by
  unfold takeRest maxHeapAdjustDown
  split <;> rfl

/-- **Both loops end, and the heap has then been offered every eligible segment.** -/
lemma getMaxK_holds (hfits : IndexFits nsbi len) (hempty : mh.curNum = 0) :
    ∃ (j : ℕ) (mh' : MaxHeap), len ≤ j ∧ HeapHolds g nsbi u preMove len mh.k j mh' ∧
      getMaxK g nsbi u preMove mh len = some (mh', if mh'.curNum < mh.k then -eNoCold else 0) := by
  have hstart : HeapHolds g nsbi u preMove len mh.k 0 mh := by
    refine ⟨rfl, ?_⟩
    rw [hempty]
    exact TopK.empty mh.nodes mh.k
  obtain ⟨i, mh₁, hrun₁, hfirst, hend₁⟩ := @mptLoop_inv g nsbi u preMove len
    (fun mh => decide (mh.curNum < mh.k)) Hoit.takeFirst hfits
    (fun i mh' => HeapHolds g nsbi u preMove len mh.k i mh')
    (fun _ _ h hnot => h.pass hnot)
    (fun _ _ h hgo hel => h.takeFirst (by simpa [h.capacity] using hgo) hel)
    (fun _ _ _ hc => if_neg (not_le.mpr hc))
    len.toNat 0 mh (by push_cast; omega) hstart
  -- the first loop has left nothing over, or the heap is full
  have hsecond : HeapHolds g nsbi u preMove len mh.k i mh₁ ∧ (len ≤ i ∨ mh₁.curNum = mh.k) := by
    refine ⟨hfirst, hend₁.imp_right fun hgo => ?_⟩
    rw [decide_eq_false_iff_not, hfirst.capacity] at hgo
    exact le_antisymm hfirst.best.le_cap (not_lt.mp hgo)
  obtain ⟨j, mh₂, hrun₂, ⟨hlast, -⟩, hend₂⟩ := @mptLoop_inv g nsbi u preMove len
    (fun _ => true) Hoit.takeRest hfits
    (fun i mh' => HeapHolds g nsbi u preMove len mh.k i mh' ∧ (len ≤ i ∨ mh'.curNum = mh.k))
    (fun _ _ h hnot => ⟨h.1.pass hnot, h.2.imp_left fun hle => by push_cast; omega⟩)
    (fun i mh' h _ hel => by
      have hfull : mh'.curNum = mh.k := h.2.resolve_left (not_le.mpr hel.inside)
      exact ⟨h.1.takeRest hfull hel, Or.inr (by rw [takeRest_curNum, hfull])⟩)
    (fun _ _ _ hc => if_neg fun hand => absurd hand.1 (not_le.mpr hc))
    len.toNat i mh₁ (by omega) hsecond
  refine ⟨j, mh₂, hend₂.resolve_right (by simp), hlast, ?_⟩
  unfold getMaxK
  rw [show (0 : ℤ) = ((0 : ℕ) : ℤ) from rfl, hrun₁, Option.bind_some]
  simp only [hrun₂, Option.map_some, hlast.capacity]

/-! ## What is chosen -/

/-- What `get_max_k` is to return, and what it is to leave in a heap of capacity `k`. -/
structure Selects (g : Geometry) (nsbi : NvmSbInfo) (u : SecUsage) (preMove : Bool) (len : ℤ) (k : ℕ)
    (mh : MaxHeap) (ret : ℤ) : Prop where
  returns : ret = 0 ∨ ret = -eNoCold
  ordered : Ordered HeapNode.count mh.nodes mh.curNum
  eligible : ∀ i < mh.curNum, Eligible g nsbi u preMove len (mh.nodes i).segOff ∧
    ((mh.nodes i).count : ℤ) = calcCount nsbi (getMptValue nsbi.mpt (mh.nodes i).segOff)
  distinct : ∀ i < mh.curNum, ∀ j < mh.curNum,
    (mh.nodes i).segOff = (mh.nodes j).segOff → i = j
  full : ret = 0 → mh.curNum = k
  coldest : ret = 0 → ∀ n, Eligible g nsbi u preMove len n →
    (∀ i < mh.curNum, (mh.nodes i).segOff ≠ n) →
      (getMaxHeapTop mh : ℤ) ≤ calcCount nsbi (getMptValue nsbi.mpt n)
  all : ret = -eNoCold → ∀ n, Eligible g nsbi u preMove len n →
    ∃ i < mh.curNum, (mh.nodes i).segOff = n

lemma Eligible.segCount_eq {n : ℕ} (h : Eligible g nsbi u preMove len n) :
    (segCount nsbi n : ℤ) = calcCount nsbi (getMptValue nsbi.mpt n) :=
  Int.toNat_of_nonneg h.counted

/-- A segment that is not in the heap shows that the heap is full, and is not below its root. -/
lemma HeapHolds.top_le (h : HeapHolds g nsbi u preMove len k j mh) (hlen : len ≤ j) {n : ℕ}
    (hel : Eligible g nsbi u preMove len n) (hnot : ∀ i < mh.curNum, (mh.nodes i).segOff ≠ n) :
    mh.curNum = k ∧ getMaxHeapTop mh ≤ segCount nsbi n := by
  have hn : n < j := by
    have hinside := hel.inside
    omega
  have hmem : (⟨segCount nsbi n, n⟩ : HeapNode) ∈ offered g nsbi u preMove len j :=
    mem_offered.mpr ⟨n, hn, hel, rfl⟩
  obtain ⟨hfull, hle⟩ := h.best.le_of_not_kept hmem fun i hi heq =>
    hnot i hi (congrArg HeapNode.segOff heq)
  refine ⟨hfull, ?_⟩
  unfold getMaxHeapTop
  by_cases hzero : mh.curNum = 0
  · rw [if_pos hzero]
    exact Nat.zero_le _
  · rw [if_neg hzero]
    exact hle 0 (Nat.pos_of_ne_zero hzero)

lemma HeapHolds.selects (h : HeapHolds g nsbi u preMove len k j mh) (hlen : len ≤ j) :
    Selects g nsbi u preMove len k mh (if mh.curNum < k then -eNoCold else 0) := by
  -- every node is one of the eligible segments, with its count
  have hnode : ∀ i < mh.curNum, ∃ n, Eligible g nsbi u preMove len n ∧
      mh.nodes i = ⟨segCount nsbi n, n⟩ := by
    intro i hi
    obtain ⟨n, -, hel, heq⟩ := mem_offered.mp (h.best.mem_offered hi)
    exact ⟨n, hel, heq.symm⟩
  have hret : -eNoCold ≠ 0 := by decide
  refine ⟨?_, h.best.ordered, ?_, ?_, ?_, ?_, ?_⟩
  · split
    · exact Or.inr rfl
    · exact Or.inl rfl
  · intro i hi
    obtain ⟨n, hel, heq⟩ := hnode i hi
    rw [heq]
    exact ⟨hel, hel.segCount_eq⟩
  · intro a ha b hb heq
    obtain ⟨m, -, hm⟩ := hnode a ha
    obtain ⟨n, -, hn⟩ := hnode b hb
    rw [hm, hn] at heq
    refine h.best.injOn (offered_nodup j) ha hb ?_
    rw [hm, hn, show m = n from heq]
  · intro hzero
    by_contra hne
    rw [if_pos (lt_of_le_of_ne h.best.le_cap hne)] at hzero
    exact hret hzero
  · intro _ n hel hnot
    rw [← hel.segCount_eq, Nat.cast_le]
    exact (h.top_le hlen hel hnot).2
  · intro hcold n hel
    by_contra hnone
    have hfull := (h.top_le hlen hel fun i hi heq => hnone ⟨i, hi, heq⟩).1
    rw [if_neg (by omega)] at hcold
    exact hret hcold.symm

/-- **`get_max_k` chooses the coldest segments**, or all of them if there are fewer than the heap
holds.  The calls give the number of NVM segments for `len`, and there are fewer than 2^23. -/
theorem get_max_k_selects (g : Geometry) (nsbi : NvmSbInfo) (u : SecUsage) (preMove : Bool)
    (mh : MaxHeap) (len : ℤ) (hfits : IndexFits nsbi len) (hempty : mh.curNum = 0) :
    ∃ (mh' : MaxHeap) (ret : ℤ), getMaxK g nsbi u preMove mh len = some (mh', ret) ∧
      Selects g nsbi u preMove len mh.k mh' ret := by
  obtain ⟨j, mh', hlen, hholds, hrun⟩ := @getMaxK_holds g nsbi u preMove len mh hfits hempty
  exact ⟨mh', _, hrun, hholds.selects hlen⟩

def coldGeometry : Geometry where
  mainSegmentNums := 60
  segmentCountMain := 60
  segsPerSec := 1
  nvm_lt := by decide
  ssd_lt := by decide
  segsPerSec_pos := Nat.one_pos

/-- Sixty segments, each mapped to the SSD segment of its own number and read as often. -/
def coldNsb : NvmSbInfo where
  mpt := fun n => BitVec.ofNat 32 n <<< rwBits ||| rwMap
  mptDirtyMap := fun _ => false
  nvmFlag := 0
  segmentMap := fun _ => true
  ckptSegmentMap := fun _ => true
  mainSegmentFreeNums := 0
  curAllocNvmSegoff := 0
  nowLfuCounter := 0
  lfuCount := fun _ n => n

theorem get_max_k_selects_sixty :
    IndexFits coldNsb 60 ∧ Eligible coldGeometry coldNsb ⟨fun i => i, 7⟩ false 60 55 ∧
      ∃ (mh' : MaxHeap) (ret : ℤ),
        getMaxK coldGeometry coldNsb ⟨fun i => i, 7⟩ false ⟨fun _ => ⟨0, 0⟩, 0, 3⟩ 60
          = some (mh', ret) ∧
        Selects coldGeometry coldNsb ⟨fun i => i, 7⟩ false 60 3 mh' ret := by
  have hfits : IndexFits coldNsb 60 := ⟨by decide, by decide⟩
  exact ⟨hfits, by decide, get_max_k_selects _ _ _ _ ⟨fun _ => ⟨0, 0⟩, 0, 3⟩ 60 hfits rfl⟩

end Hoit
