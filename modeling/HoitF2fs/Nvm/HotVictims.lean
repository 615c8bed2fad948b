import HoitF2fs.Nvm.ColdVictims

/-!
# Choosing the hottest segments

`get_min_k` goes through the SSD half of the mapping table and keeps, in a heap with the smallest
count on top, the `k` segments that were read most.  It has the form of `get_max_k`, **but not its
tests**: there is no protected window, mapped segments are passed over instead of unmapped ones,
and a segment that was never read is not hot.

* `insertMinHeap`, `minHeapAdjustDown` — the heap of `HoitF2fs.Lib.BinHeap` with the order of the
  counts turned around.
* `hotLoop` — both loops, by what they do with a candidate; `getMinK` — the function.
* `Eligible` — which segments may be chosen, without reference to the loops.

`hotLoop_inv` is the rule for one loop.  With it `getMinK_holds` says that the two loops offer
every eligible segment once to the heap, and `get_min_k_selects` reads off what is chosen.
-/

namespace Hoit.HotVictims

open BinHeap

/-! ## The heap -/

/-- `struct min_heap`. -/
structure MinHeap where
  nodes : ℕ → HeapNode
  curNum : ℕ
  k : ℕ

/-- Larger counts come later. -/
def hotKey (x : HeapNode) : ℕᵒᵈ := OrderDual.toDual x.count

lemma hotKey_le {x y : HeapNode} : hotKey x ≤ hotKey y ↔ y.count ≤ x.count := Iff.rfl

lemma hotKey_lt {x y : HeapNode} : hotKey x < hotKey y ↔ y.count < x.count := Iff.rfl

/-- `insert_min_heap`; the counts that are inserted are positive. -/
def insertMinHeap (mh : MinHeap) (segOff : ℕ) (count : ℤ) : MinHeap :=
  { mh with
    nodes := siftUp hotKey mh.nodes mh.curNum ⟨count.toNat, segOff⟩
    curNum := mh.curNum + 1 }

/-- `min_heap_adjust_down`: the root goes to its place. -/
def minHeapAdjustDown (mh : MinHeap) : MinHeap :=
  { mh with nodes := siftDown hotKey mh.nodes mh.curNum 0 (mh.nodes 0) }

/-! ## The scan -/

variable (g : Geometry) (nsbi : NvmSbInfo) (u : SecUsage)

/-- The tests, from "start" to "end": the count of a segment that is not passed over. -/
def candidate (segoff : ℕ) : Option ℤ :=
  if getMapFlag nsbi.mpt (g.ssdIndex segoff) then none
  else
    let count := calcCount nsbi segoff
    if count = -1 then none
    else if secUsageCheck g u (segoff / g.segsPerSec) then none
    else some count

/-- A loop over the segments from `segoff` on, for so many rounds; it goes on while `go` holds, and
`take` is what it does with a candidate. -/
def hotLoop (go : MinHeap → Bool) (take : MinHeap → ℕ → ℤ → MinHeap) :
    (rounds : ℕ) → ℕ → MinHeap → ℕ × MinHeap
  | 0, segoff, mh => (segoff, mh)
  | rounds + 1, segoff, mh =>
      if go mh then
        hotLoop go take rounds (segoff + 1)
          (match candidate g nsbi u segoff with
          | none => mh
          | some count => take mh segoff count)
      else (segoff, mh)

/-- The first loop inserts what was read. -/
def takeFirst (mh : MinHeap) (segOff : ℕ) (count : ℤ) : MinHeap :=
  if 0 < count then insertMinHeap mh segOff count else mh

/-- The second loop replaces the root by what has a larger count.  The root is read without a look
at the number of nodes. -/
def takeRest (mh : MinHeap) (segOff : ℕ) (count : ℤ) : MinHeap :=
  if 0 < count ∧ (mh.nodes 0).count < count.toNat then
    minHeapAdjustDown { mh with nodes := Function.update mh.nodes 0 ⟨count.toNat, segOff⟩ }
  else mh

/-- `ENOHOT`. -/
def eNoHot : ℤ := 2

/-- `get_min_k`: the heap and the return value. -/
def getMinK (mh : MinHeap) (len : ℤ) : MinHeap × ℤ :=
  let first := hotLoop g nsbi u (fun mh => decide (mh.curNum < mh.k)) takeFirst len.toNat 0 mh
  let rest := hotLoop g nsbi u (fun _ => true) takeRest (len.toNat - first.1) first.1 first.2
  (rest.2, if rest.2.curNum < rest.2.k then -eNoHot else 0)

/-! ## What is wanted -/

/-- A segment that may be chosen. -/
structure Eligible (len : ℤ) (n : ℕ) : Prop where
  inside : (n : ℤ) < len
  unmapped : getMapFlag nsbi.mpt (g.ssdIndex n) = false
  idle : secUsageCheck g u (n / g.segsPerSec) = false
  read : 0 < calcCount nsbi n

instance (g : Geometry) (nsbi : NvmSbInfo) (u : SecUsage) (len : ℤ) (n : ℕ) :
    Decidable (Eligible g nsbi u len n) :=
  decidable_of_iff
    ((n : ℤ) < len ∧ getMapFlag nsbi.mpt (g.ssdIndex n) = false ∧
      secUsageCheck g u (n / g.segsPerSec) = false ∧ 0 < calcCount nsbi n)
    ⟨fun ⟨h1, h2, h3, h4⟩ => ⟨h1, h2, h3, h4⟩, fun h => ⟨h.inside, h.unmapped, h.idle, h.read⟩⟩

variable {g nsbi u} {len : ℤ} {i : ℕ}

/-- **What the tests say about a segment**, case by case. -/
lemma candidate_spec (hi : (i : ℤ) < len) :
    (candidate g nsbi u i = none ∧ ¬ Eligible g nsbi u len i) ∨
    (candidate g nsbi u i = some (calcCount nsbi i) ∧
      (0 < calcCount nsbi i → Eligible g nsbi u len i)) := by
  unfold candidate
  by_cases hmap : getMapFlag nsbi.mpt (g.ssdIndex i) = true
  · refine Or.inl ⟨if_pos hmap, fun h => ?_⟩
    rw [h.unmapped] at hmap
    exact absurd hmap (by simp)
  · rw [if_neg hmap]
    by_cases hunused : calcCount nsbi i = -1
    · refine Or.inl ⟨if_pos hunused, fun h => ?_⟩
      have hread := h.read
      omega
    · simp only [if_neg hunused]
      by_cases hbusy : secUsageCheck g u (i / g.segsPerSec) = true
      · refine Or.inl ⟨if_pos hbusy, fun h => ?_⟩
        rw [h.idle] at hbusy
        exact absurd hbusy (by simp)
      · exact Or.inr ⟨if_neg hbusy, fun hread => ⟨hi, by simpa using hmap, by simpa using hbusy,
          hread⟩⟩

/-! ## The loops -/

/-- **The rule for one loop.**  `P j mh` is to say what the heap is after the segments below `j`;
it holds of where the loop ends. -/
lemma hotLoop_inv {go : MinHeap → Bool} {take : MinHeap → ℕ → ℤ → MinHeap}
    (P : ℕ → MinHeap → Prop)
    (hpass : ∀ j mh, P j mh → ¬ Eligible g nsbi u len j → P (j + 1) mh)
    (htake : ∀ j mh, P j mh → go mh = true → Eligible g nsbi u len j →
      P (j + 1) (take mh j (calcCount nsbi j)))
    (hunread : ∀ mh j c, c ≤ 0 → take mh j c = mh) :
    ∀ (rounds i : ℕ) (mh : MinHeap), i + rounds = len.toNat → P i mh →
      P (hotLoop g nsbi u go take rounds i mh).1 (hotLoop g nsbi u go take rounds i mh).2 ∧
      (hotLoop g nsbi u go take rounds i mh).1 ≤ len.toNat ∧
      ((hotLoop g nsbi u go take rounds i mh).1 = len.toNat ∨
        go (hotLoop g nsbi u go take rounds i mh).2 = false) := by
  intro rounds
  induction rounds with
  | zero =>
      intro i mh hlen hP
      exact ⟨hP, hlen.le, Or.inl hlen⟩
  | succ rounds ih =>
      intro i mh hlen hP
      rw [hotLoop]
      cases hgo : go mh with
      | false => exact ⟨hP, (Nat.le_add_right i (rounds + 1)).trans hlen.le, Or.inr hgo⟩
      | true =>
          have hi : (i : ℤ) < len := by omega
          simp only [if_true]
          refine ih (i + 1) _ (by omega) ?_
          rcases @candidate_spec g nsbi u len i hi with ⟨hc, hnot⟩ | ⟨hc, hel⟩
          · rw [hc]
            exact hpass i mh hP hnot
          · rw [hc]
            by_cases hread : 0 < calcCount nsbi i
            · exact htake i mh hP hgo (hel hread)
            · simp only [hunread mh i _ (not_lt.mp hread)]
              exact hpass i mh hP fun h => hread h.read

/-! ## What the heap is offered -/

/-- The eligible segments below `j`, with their counts. -/
def offered (g : Geometry) (nsbi : NvmSbInfo) (u : SecUsage) (len : ℤ) (j : ℕ) :
    Multiset HeapNode :=
  ((Multiset.range j).filter fun n => Eligible g nsbi u len n).map fun n =>
    ⟨(calcCount nsbi n).toNat, n⟩

variable {j k : ℕ} {mh : MinHeap}

lemma offered_pass (h : ¬ Eligible g nsbi u len j) :
    offered g nsbi u len (j + 1) = offered g nsbi u len j := by
  unfold offered
  rw [Multiset.range_succ, Multiset.filter_cons_of_neg _ h]

lemma offered_take (h : Eligible g nsbi u len j) :
    offered g nsbi u len (j + 1)
      = ⟨(calcCount nsbi j).toNat, j⟩ ::ₘ offered g nsbi u len j := by
  unfold offered
  rw [Multiset.range_succ, Multiset.filter_cons_of_pos _ h, Multiset.map_cons]

lemma mem_offered {x : HeapNode} : x ∈ offered g nsbi u len j ↔
    ∃ n < j, Eligible g nsbi u len n ∧ ⟨(calcCount nsbi n).toNat, n⟩ = x := by
  simp only [offered, Multiset.mem_map, Multiset.mem_filter, Multiset.mem_range, and_assoc]

lemma offered_nodup (j : ℕ) : (offered g nsbi u len j).Nodup := by
  refine Multiset.Nodup.map ?_ ((Multiset.nodup_range j).filter _)
  intro m n h
  exact congrArg HeapNode.segOff h

/-- The heap after the segments below `j`, while the capacity is `k`. -/
structure HeapHolds (g : Geometry) (nsbi : NvmSbInfo) (u : SecUsage) (len : ℤ) (k j : ℕ)
    (mh : MinHeap) : Prop where
  capacity : mh.k = k
  best : TopK hotKey mh.nodes mh.curNum k (offered g nsbi u len j)
  /-- A heap without room still has a root that the second loop writes to. -/
  noRoom : k = 0 → ∀ x ∈ offered g nsbi u len j, x.count ≤ (mh.nodes 0).count

lemma HeapHolds.pass (h : HeapHolds g nsbi u len k j mh) (hnot : ¬ Eligible g nsbi u len j) :
    HeapHolds g nsbi u len k (j + 1) mh := by
  refine ⟨h.capacity, ?_, ?_⟩
  · rw [offered_pass hnot]
    exact h.best
  · rw [offered_pass hnot]
    exact h.noRoom

lemma HeapHolds.takeFirst (h : HeapHolds g nsbi u len k j mh) (hroom : mh.curNum < k)
    (hel : Eligible g nsbi u len j) :
    HeapHolds g nsbi u len k (j + 1) (takeFirst mh j (calcCount nsbi j)) := by
  unfold HotVictims.takeFirst
  rw [if_pos hel.read]
  refine ⟨h.capacity, ?_, fun hk => absurd hroom (by omega)⟩
  rw [offered_take hel]
  exact h.best.push hroom _

/-- The second loop, once the heap is full. -/
lemma HeapHolds.takeRest (h : HeapHolds g nsbi u len k j mh) (hfull : mh.curNum = k)
    (hel : Eligible g nsbi u len j) :
    HeapHolds g nsbi u len k (j + 1) (takeRest mh j (calcCount nsbi j)) := by
  unfold HotVictims.takeRest
  by_cases hlt : (mh.nodes 0).count < (calcCount nsbi j).toNat
  · rw [if_pos ⟨hel.read, hlt⟩]
    refine ⟨h.capacity, ?_, ?_⟩
    · rw [offered_take hel]
      simp only [minHeapAdjustDown, Function.update_self]
      rcases Nat.eq_zero_or_pos mh.curNum with hzero | hpos
      · have hdrop : TopK hotKey mh.nodes mh.curNum k
            (⟨(calcCount nsbi j).toNat, j⟩ ::ₘ offered g nsbi u len j) :=
          h.best.drop hfull fun hpos => absurd hpos (by omega)
        rw [hzero] at hdrop ⊢
        exact hdrop.of_empty
      · exact h.best.replace hfull hpos (hotKey_lt.mpr hlt)
    · rintro rfl x hx
      rw [offered_take hel] at hx
      have hroot : siftDown hotKey
          (Function.update mh.nodes 0 ⟨(calcCount nsbi j).toNat, j⟩) 0 0
          ⟨(calcCount nsbi j).toNat, j⟩ 0 = ⟨(calcCount nsbi j).toNat, j⟩ := by
        rw [siftDown, if_neg (lt_irrefl 0), Function.update_self]
      simp only [minHeapAdjustDown, Function.update_self, hfull, hroot]
      rcases Multiset.mem_cons.mp hx with rfl | hx
      · exact le_rfl
      · exact (h.noRoom rfl x hx).trans hlt.le
  · rw [if_neg fun hand => hlt hand.2]
    refine ⟨h.capacity, ?_, ?_⟩
    · rw [offered_take hel]
      exact h.best.drop hfull fun _ => hotKey_le.mpr (not_lt.mp hlt)
    · intro hk x hx
      rw [offered_take hel] at hx
      rcases Multiset.mem_cons.mp hx with rfl | hx
      · exact not_lt.mp hlt
      · exact h.noRoom hk x hx

lemma takeRest_curNum (mh : MinHeap) (j : ℕ) (c : ℤ) : (takeRest mh j c).curNum = mh.curNum := by
  unfold takeRest minHeapAdjustDown
  split <;> rfl

/-- **The heap has been offered every eligible segment** when both loops have ended. -/
lemma getMinK_holds (hempty : mh.curNum = 0) :
    HeapHolds g nsbi u len mh.k len.toNat (getMinK g nsbi u mh len).1 ∧
      (getMinK g nsbi u mh len).2
        = if (getMinK g nsbi u mh len).1.curNum < mh.k then -eNoHot else 0 := by
  have hstart : HeapHolds g nsbi u len mh.k 0 mh := by
    refine ⟨rfl, ?_, fun _ x hx => absurd hx (by simp [offered])⟩
    rw [hempty]
    exact TopK.empty mh.nodes mh.k
  obtain ⟨hfirst, hle, hend⟩ := @hotLoop_inv g nsbi u len
    (fun mh => decide (mh.curNum < mh.k)) HotVictims.takeFirst
    (fun i mh' => HeapHolds g nsbi u len mh.k i mh')
    (fun _ _ h hnot => h.pass hnot)
    (fun _ _ h hgo hel => h.takeFirst (by simpa [h.capacity] using hgo) hel)
    (fun _ _ _ hc => if_neg (not_lt.mpr hc))
    len.toNat 0 mh (Nat.zero_add _) hstart
  unfold getMinK
  generalize hotLoop g nsbi u (fun mh => decide (mh.curNum < mh.k)) HotVictims.takeFirst
    len.toNat 0 mh = first at hfirst hle hend
  obtain ⟨i, mh₁⟩ := first
  -- the first loop has left nothing over, or the heap is full
  have hsecond : HeapHolds g nsbi u len mh.k i mh₁ ∧ (i = len.toNat ∨ mh₁.curNum = mh.k) := by
    refine ⟨hfirst, hend.imp_right fun hgo => ?_⟩
    have hcap : mh₁.k = mh.k := hfirst.capacity
    rw [decide_eq_false_iff_not, hcap] at hgo
    exact le_antisymm hfirst.best.le_cap (not_lt.mp hgo)
  obtain ⟨⟨hlast, -⟩, -, hend₂⟩ := @hotLoop_inv g nsbi u len
    (fun _ => true) HotVictims.takeRest
    (fun i mh' => HeapHolds g nsbi u len mh.k i mh' ∧ (len.toNat ≤ i ∨ mh'.curNum = mh.k))
    (fun _ _ h hnot => ⟨h.1.pass hnot, h.2.imp_left fun hle => Nat.le_succ_of_le hle⟩)
    (fun i mh' h _ hel => by
      have hin := hel.inside
      have hfull : mh'.curNum = mh.k := h.2.resolve_left (by omega)
      exact ⟨h.1.takeRest hfull hel, Or.inr (by rw [takeRest_curNum, hfull])⟩)
    (fun _ _ _ hc => if_neg fun hand => absurd hand.1 (not_lt.mpr hc))
    (len.toNat - i) i mh₁ (Nat.add_sub_cancel' hle) ⟨hsecond.1, hsecond.2.imp_left ge_of_eq⟩
  rw [hend₂.resolve_right (by simp)] at hlast
  exact ⟨hlast, by simp only [hlast.capacity]⟩

/-! ## What is chosen -/

/-- What `get_min_k` is to return, and what it is to leave in a heap of capacity `k`. -/
structure Selects (g : Geometry) (nsbi : NvmSbInfo) (u : SecUsage) (len : ℤ) (k : ℕ)
    (mh : MinHeap) (ret : ℤ) : Prop where
  returns : ret = 0 ∨ ret = -eNoHot
  ordered : Ordered hotKey mh.nodes mh.curNum
  coldest : ∀ i < mh.curNum, (mh.nodes 0).count ≤ (mh.nodes i).count
  eligible : ∀ i < mh.curNum, Eligible g nsbi u len (mh.nodes i).segOff ∧
    ((mh.nodes i).count : ℤ) = calcCount nsbi (mh.nodes i).segOff
  distinct : ∀ i < mh.curNum, ∀ j < mh.curNum,
    (mh.nodes i).segOff = (mh.nodes j).segOff → i = j
  full : ret = 0 → mh.curNum = k
  hottest : ret = 0 → ∀ n, Eligible g nsbi u len n →
    (∀ i < mh.curNum, (mh.nodes i).segOff ≠ n) → calcCount nsbi n ≤ (mh.nodes 0).count
  all : ret = -eNoHot → ∀ n, Eligible g nsbi u len n →
    ∃ i < mh.curNum, (mh.nodes i).segOff = n

lemma Eligible.toNat_eq {n : ℕ} (h : Eligible g nsbi u len n) :
    ((calcCount nsbi n).toNat : ℤ) = calcCount nsbi n :=
  Int.toNat_of_nonneg h.read.le

/-- A segment that is not in the heap shows that the heap is full, and is not above its root. -/
lemma HeapHolds.le_top (h : HeapHolds g nsbi u len k len.toNat mh) {n : ℕ}
    (hel : Eligible g nsbi u len n) (hnot : ∀ i < mh.curNum, (mh.nodes i).segOff ≠ n) :
    mh.curNum = k ∧ (calcCount nsbi n).toNat ≤ (mh.nodes 0).count := by
  have hin := hel.inside
  have hmem : (⟨(calcCount nsbi n).toNat, n⟩ : HeapNode) ∈ offered g nsbi u len len.toNat :=
    mem_offered.mpr ⟨n, by omega, hel, rfl⟩
  obtain ⟨hfull, hle⟩ := h.best.le_of_not_kept hmem fun i hi heq =>
    hnot i hi (congrArg HeapNode.segOff heq)
  refine ⟨hfull, ?_⟩
  rcases Nat.eq_zero_or_pos mh.curNum with hzero | hpos
  · exact h.noRoom (by omega) _ hmem
  · exact hotKey_le.mp (hle 0 hpos)

lemma HeapHolds.selects (h : HeapHolds g nsbi u len k len.toNat mh) :
    Selects g nsbi u len k mh (if mh.curNum < k then -eNoHot else 0) := by
  -- every node is one of the eligible segments, with its count
  have hnode : ∀ i < mh.curNum, ∃ n, Eligible g nsbi u len n ∧
      mh.nodes i = ⟨(calcCount nsbi n).toNat, n⟩ := by
    intro i hi
    obtain ⟨n, -, hel, heq⟩ := mem_offered.mp (h.best.mem_offered hi)
    exact ⟨n, hel, heq.symm⟩
  have hret : -eNoHot ≠ 0 := by decide
  refine ⟨?_, h.best.ordered, ?_, ?_, ?_, ?_, ?_, ?_⟩
  · split
    · exact Or.inr rfl
    · exact Or.inl rfl
  · exact fun i hi => hotKey_le.mp (h.best.ordered.le_root i hi)
  · intro i hi
    obtain ⟨n, hel, heq⟩ := hnode i hi
    rw [heq]
    exact ⟨hel, hel.toNat_eq⟩
  · intro a ha b hb heq
    obtain ⟨m, -, hm⟩ := hnode a ha
    obtain ⟨n, -, hn⟩ := hnode b hb
    rw [hm, hn] at heq
    refine h.best.injOn (offered_nodup len.toNat) ha hb ?_
    rw [hm, hn, show m = n from heq]
  · intro hzero
    by_contra hne
    rw [if_pos (lt_of_le_of_ne h.best.le_cap hne)] at hzero
    exact hret hzero
  · intro _ n hel hnot
    rw [← hel.toNat_eq, Nat.cast_le]
    exact (h.le_top hel hnot).2
  · intro hnohot n hel
    by_contra hnone
    have hfull := (h.le_top hel fun i hi heq => hnone ⟨i, hi, heq⟩).1
    rw [if_neg (by omega)] at hnohot
    exact hret hnohot.symm

/-- **`get_min_k` chooses the hottest segments**, or all of them if there are fewer than the heap
holds. -/
theorem get_min_k_selects (g : Geometry) (nsbi : NvmSbInfo) (u : SecUsage) (mh : MinHeap)
    (len : ℤ) (hempty : mh.curNum = 0) :
    Selects g nsbi u len mh.k (getMinK g nsbi u mh len).1 (getMinK g nsbi u mh len).2 := by
  obtain ⟨hholds, hret⟩ := @getMinK_holds g nsbi u len mh hempty
  rw [hret]
  exact hholds.selects

/-- Sixty segments, none of them mapped, each read as often as its number says. -/
def hotNsb : NvmSbInfo := { coldNsb with mpt := fun _ => 0#32 }

theorem get_min_k_selects_sixty :
    Eligible coldGeometry hotNsb ⟨fun i => i, 7⟩ 60 55 ∧
      Selects coldGeometry hotNsb ⟨fun i => i, 7⟩ 60 3
        (getMinK coldGeometry hotNsb ⟨fun i => i, 7⟩ ⟨fun _ => ⟨0, 0⟩, 0, 3⟩ 60).1
        (getMinK coldGeometry hotNsb ⟨fun i => i, 7⟩ ⟨fun _ => ⟨0, 0⟩, 0, 3⟩ 60).2 :=
  ⟨by decide, get_min_k_selects _ _ _ ⟨fun _ => ⟨0, 0⟩, 0, 3⟩ 60 rfl⟩

end Hoit.HotVictims
