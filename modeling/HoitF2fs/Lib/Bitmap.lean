import Mathlib.Tactic

/-!
# Bitmaps: first-zero search and population counts

A bitmap is a function `ℕ → Bool`, read below a size that is always passed explicitly.

* `findNextZeroBit map size start` — the least clear bit in `[start, size)`, or `size`.
* `findNextBit map size start` — the same search for a set bit.
* `zeroBits map size`, `setBits map size` — how many bits below `size` are clear, or set.
* `testBitMsb nr map`, `changeBitMsb nr map` — a bitmap in bytes, the most significant bit of each
  byte first.  `testBitMsb_changeBitMsb` says that a change is an update of the one bit.

The population lemmas say what one update does to the count: setting a clear bit takes one away,
clearing a set bit adds one, and a positive count guarantees that a search from `0` succeeds.
-/

namespace Bitmap

/-- The search loop, `k` positions long, from position `i`. -/
def searchZero (map : ℕ → Bool) (size : ℕ) : ℕ → ℕ → ℕ
  | 0, _ => size
  | k + 1, i => if map i then searchZero map size k (i + 1) else i

/-- The least `i` with `start ≤ i < size` and bit `i` clear, or `size` when there is none. -/
def findNextZeroBit (map : ℕ → Bool) (size start : ℕ) : ℕ :=
  searchZero map size (size - start) start

/-- The least `i` with `start ≤ i < size` and bit `i` set, or `size` when there is none. -/
def findNextBit (map : ℕ → Bool) (size start : ℕ) : ℕ :=
  findNextZeroBit (fun i => !map i) size start

/-- The number of clear bits below `size`. -/
def zeroBits (map : ℕ → Bool) (size : ℕ) : ℕ :=
  ((Finset.range size).filter fun i => map i = false).card

/-- The number of set bits below `size`. -/
def setBits (map : ℕ → Bool) (size : ℕ) : ℕ :=
  ((Finset.range size).filter fun i => map i = true).card

/-- The mask of bit `nr` within its byte, most significant bit first. -/
def msbMask (nr : ℕ) : BitVec 8 := BitVec.twoPow 8 (7 - nr % 8)

/-- Bit `nr` of a bitmap in bytes. -/
def testBitMsb (nr : ℕ) (map : ℕ → BitVec 8) : Bool := map (nr / 8) &&& msbMask nr != 0#8

/-- Flip bit `nr`. -/
def changeBitMsb (nr : ℕ) (map : ℕ → BitVec 8) : ℕ → BitVec 8 :=
  Function.update map (nr / 8) (map (nr / 8) ^^^ msbMask nr)

/-! ## The search -/

lemma searchZero_spec (map : ℕ → Bool) (size : ℕ) :
    ∀ k i, (searchZero map size k i = size ∧ ∀ j, i ≤ j → j < i + k → map j = true) ∨
      (i ≤ searchZero map size k i ∧ searchZero map size k i < i + k ∧
        map (searchZero map size k i) = false)
  | 0, i => Or.inl ⟨rfl, fun j h1 h2 => by omega⟩
  | k + 1, i => by
      rw [searchZero]
      by_cases hi : map i = true
      · rw [if_pos hi]
        rcases searchZero_spec map size k (i + 1) with ⟨h1, h2⟩ | ⟨h1, h2, h3⟩
        · refine Or.inl ⟨h1, fun j hj hj' => ?_⟩
          rcases Nat.eq_or_lt_of_le hj with rfl | hlt
          · exact hi
          · exact h2 j hlt (by omega)
        · exact Or.inr ⟨by omega, by omega, h3⟩
      · rw [if_neg hi]
        exact Or.inr ⟨le_refl i, by omega, by simpa using hi⟩

lemma findNextZeroBit_clear {map : ℕ → Bool} {size start : ℕ}
    (h : findNextZeroBit map size start < size) :
    map (findNextZeroBit map size start) = false := by
  rcases searchZero_spec map size (size - start) start with ⟨h1, -⟩ | ⟨-, -, h3⟩
  · rw [findNextZeroBit, h1] at h
    exact absurd h (lt_irrefl size)
  · exact h3

lemma findNextZeroBit_lt {map : ℕ → Bool} {size start i : ℕ}
    (hs : start ≤ i) (hi : i < size) (hc : map i = false) :
    findNextZeroBit map size start < size := by
  rcases searchZero_spec map size (size - start) start with ⟨-, h2⟩ | ⟨-, h2, -⟩
  · rw [h2 i hs (by omega)] at hc
    exact Bool.noConfusion hc
  · rw [findNextZeroBit]
    omega

lemma findNextZeroBit_le (map : ℕ → Bool) (size start : ℕ) :
    findNextZeroBit map size start ≤ size := by
  rw [findNextZeroBit]
  rcases searchZero_spec map size (size - start) start with ⟨h1, -⟩ | ⟨h1, h2, -⟩
  · exact h1.le
  · omega

lemma le_findNextZeroBit {map : ℕ → Bool} {size start : ℕ} (h : start ≤ size) :
    start ≤ findNextZeroBit map size start := by
  rw [findNextZeroBit]
  rcases searchZero_spec map size (size - start) start with ⟨h1, -⟩ | ⟨h1, -, -⟩
  · rw [h1]
    exact h
  · exact h1

lemma searchZero_min (map : ℕ → Bool) (size : ℕ) :
    ∀ k i j, i ≤ j → j < i + k → j < searchZero map size k i → map j = true
  | 0, i, j, h1, h2, _ => by omega
  | k + 1, i, j, h1, h2, h3 => by
      rw [searchZero] at h3
      split_ifs at h3 with hi
      · rcases Nat.eq_or_lt_of_le h1 with rfl | hlt
        · exact hi
        · exact searchZero_min map size k (i + 1) j hlt (by omega) h3
      · omega

/-- The search passes over set bits only. -/
lemma findNextZeroBit_min {map : ℕ → Bool} {size start i : ℕ} (h1 : start ≤ i)
    (h2 : i < findNextZeroBit map size start) : map i = true := by
  have hle := findNextZeroBit_le map size start
  exact searchZero_min map size (size - start) start i h1 (by omega) h2

lemma findNextBit_set {map : ℕ → Bool} {size start : ℕ} (h : findNextBit map size start < size) :
    map (findNextBit map size start) = true := by
  have hclear := findNextZeroBit_clear h
  rw [findNextBit]
  simpa using hclear

lemma findNextBit_min {map : ℕ → Bool} {size start i : ℕ} (h1 : start ≤ i)
    (h2 : i < findNextBit map size start) : map i = false := by
  simpa using findNextZeroBit_min h1 h2

lemma le_findNextBit {map : ℕ → Bool} {size start : ℕ} (h : findNextBit map size start < size) :
    start ≤ findNextBit map size start := by
  refine le_findNextZeroBit ?_
  by_contra hlt
  have hend : size - start = 0 := by omega
  rw [findNextBit, findNextZeroBit, hend, searchZero] at h
  exact absurd h (lt_irrefl size)

/-- A search that starts at a set bit ends there. -/
lemma findNextBit_of_set {map : ℕ → Bool} {size i : ℕ} (hi : i < size) (hs : map i = true) :
    findNextBit map size i = i := by
  obtain ⟨k, hk⟩ : ∃ k, size - i = k + 1 := ⟨size - i - 1, by omega⟩
  simp [findNextBit, findNextZeroBit, hk, searchZero, hs]

/-- A search passes over a clear bit. -/
lemma findNextBit_of_clear {map : ℕ → Bool} {size i : ℕ} (hi : i < size) (hc : map i = false) :
    findNextBit map size i = findNextBit map size (i + 1) := by
  have hk : size - i = (size - (i + 1)) + 1 := by omega
  rw [findNextBit, findNextBit, findNextZeroBit, findNextZeroBit, hk, searchZero]
  simp [hc]

/-- With no set bit below `size`, the search runs to the end. -/
lemma findNextBit_eq_size {map : ℕ → Bool} {size start : ℕ} (hc : ∀ i < size, map i = false) :
    findNextBit map size start = size := by
  rcases searchZero_spec (fun i => !map i) size (size - start) start with ⟨h1, -⟩ | ⟨h1, h2, h3⟩
  · exact h1
  · rw [hc _ (by omega)] at h3
    exact absurd h3 (by simp)

lemma findNextBit_lt {map : ℕ → Bool} {size start i : ℕ} (hs : start ≤ i) (hi : i < size)
    (hb : map i = true) : findNextBit map size start < size :=
  findNextZeroBit_lt hs hi (by simp [hb])

/-- A search that runs to the end has found no set bit. -/
lemma le_findNextBit_iff {map : ℕ → Bool} {size start : ℕ} :
    size ≤ findNextBit map size start ↔ ∀ i, start ≤ i → i < size → map i = false := by
  constructor
  · intro hle i hs hi
    by_contra hb
    exact absurd (findNextBit_lt hs hi (by simpa using hb)) (by omega)
  · intro hall
    by_contra hlt
    rcases searchZero_spec (fun i => !map i) size (size - start) start with ⟨h1, -⟩ | ⟨h1, h2, h3⟩
    · exact hlt (le_of_eq h1.symm)
    · rw [hall _ h1 (by omega)] at h3
      exact absurd h3 (by simp)

lemma findNextBit_end (map : ℕ → Bool) (size : ℕ) : findNextBit map size size = size := by
  simp [findNextBit, findNextZeroBit, searchZero]

/-! ## The population count -/

lemma mem_zeros {map : ℕ → Bool} {size i : ℕ} :
    i ∈ (Finset.range size).filter (fun i => map i = false) ↔ i < size ∧ map i = false := by
  simp

lemma zeroBits_le (map : ℕ → Bool) (size : ℕ) : zeroBits map size ≤ size := by
  calc zeroBits map size ≤ (Finset.range size).card := Finset.card_filter_le _ _
    _ = size := Finset.card_range size

lemma zeroBits_pos {map : ℕ → Bool} {size : ℕ} :
    0 < zeroBits map size ↔ ∃ i < size, map i = false := by
  rw [zeroBits, Finset.card_pos]
  constructor
  · rintro ⟨i, hi⟩
    exact ⟨i, (mem_zeros.mp hi).1, (mem_zeros.mp hi).2⟩
  · rintro ⟨i, hi, hc⟩
    exact ⟨i, mem_zeros.mpr ⟨hi, hc⟩⟩

/-- Setting a clear bit takes one away from the number of clear bits. -/
lemma zeroBits_set {map : ℕ → Bool} {size i : ℕ} (hi : i < size) (hc : map i = false) :
    zeroBits (Function.update map i true) size + 1 = zeroBits map size := by
  have herase : (Finset.range size).filter (fun j => Function.update map i true j = false)
      = ((Finset.range size).filter fun j => map j = false).erase i := by
    ext j
    by_cases hj : j = i
    · subst hj
      simp
    · simp [hj]
  rw [zeroBits, herase]
  exact Finset.card_erase_add_one (mem_zeros.mpr ⟨hi, hc⟩)

/-- Clearing a set bit adds one to the number of clear bits. -/
lemma zeroBits_clear {map : ℕ → Bool} {size i : ℕ} (hi : i < size) (hc : map i = true) :
    zeroBits (Function.update map i false) size = zeroBits map size + 1 := by
  have hclear : Function.update map i false i = false := Function.update_self i false map
  have h := zeroBits_set hi hclear
  have hback : Function.update (Function.update map i false) i true = map := by
    rw [Function.update_idem, ← hc, Function.update_eq_self]
  rw [hback] at h
  exact h.symm

lemma setBits_le (map : ℕ → Bool) (size : ℕ) : setBits map size ≤ size := by
  calc setBits map size ≤ (Finset.range size).card := Finset.card_filter_le _ _
    _ = size := Finset.card_range size

lemma setBits_pos {map : ℕ → Bool} {size : ℕ} :
    0 < setBits map size ↔ ∃ i < size, map i = true := by
  rw [setBits, Finset.card_pos, Finset.filter_nonempty_iff]
  simp

lemma setBits_eq_zero {map : ℕ → Bool} {size : ℕ} :
    setBits map size = 0 ↔ ∀ i < size, map i = false := by
  rw [setBits, Finset.card_eq_zero, Finset.filter_eq_empty_iff]
  simp

lemma setBits_add_zeroBits (map : ℕ → Bool) (size : ℕ) :
    setBits map size + zeroBits map size = size := by
  have hcard := Finset.card_filter_add_card_filter_not (s := Finset.range size)
    (fun i => map i = true)
  simpa [setBits, zeroBits] using hcard

/-- The map of the numbers below `n`. -/
lemma setBits_lt {n size : ℕ} (h : n ≤ size) : setBits (fun i => decide (i < n)) size = n := by
  have hfilter : (Finset.range size).filter (fun i => decide (i < n) = true) = Finset.range n := by
    ext i
    simp only [Finset.mem_filter, Finset.mem_range, decide_eq_true_eq]
    omega
  rw [setBits, hfilter, Finset.card_range]

/-- Fewer set bits than bits leave a clear one. -/
lemma exists_clear_of_setBits_lt {map : ℕ → Bool} {size : ℕ} (h : setBits map size < size) :
    ∃ i < size, map i = false := by
  by_contra hnone
  have hall : (Finset.range size).filter (fun i => map i = true) = Finset.range size := by
    refine Finset.filter_true_of_mem fun i hi => ?_
    by_contra hb
    exact hnone ⟨i, Finset.mem_range.mp hi, by simpa using hb⟩
  rw [setBits, hall, Finset.card_range] at h
  exact absurd h (lt_irrefl size)

/-- Two sums of which only one term differs. -/
lemma sum_add_of_eq_off {ι : Type*} [DecidableEq ι] {s : Finset ι} (f f' : ι → ℕ) {i : ι}
    (hi : i ∈ s) (h : ∀ j, j ≠ i → f' j = f j) :
    ∑ j ∈ s, f' j + f i = ∑ j ∈ s, f j + f' i := by
  have hrest : ∑ j ∈ s.erase i, f' j = ∑ j ∈ s.erase i, f j :=
    Finset.sum_congr rfl fun j hj => h j (Finset.ne_of_mem_erase hj)
  have hf := Finset.add_sum_erase s f hi
  have hf' := Finset.add_sum_erase s f' hi
  omega

/-- **What one update does to the number of set bits.** -/
lemma setBits_update (map : ℕ → Bool) {size i : ℕ} (hi : i < size) (v : Bool) :
    setBits (Function.update map i v) size + (map i).toNat = setBits map size + v.toNat := by
  have hcard : ∀ m : ℕ → Bool, setBits m size = ∑ j ∈ Finset.range size, (m j).toNat := by
    intro m
    rw [setBits, Finset.card_filter]
    refine Finset.sum_congr rfl fun j _ => ?_
    cases m j <;> rfl
  have hsum := sum_add_of_eq_off (fun j => (map j).toNat)
    (fun j => (Function.update map i v j).toNat) (Finset.mem_range.mpr hi)
    fun j hj => by simp [Function.update_of_ne hj]
  rw [hcard, hcard]
  simpa using hsum

/-- What one update does to the number of clear bits. -/
lemma zeroBits_update (map : ℕ → Bool) {size i : ℕ} (hi : i < size) (v : Bool) :
    zeroBits (Function.update map i v) size + v.toNat = zeroBits map size + (map i).toNat := by
  cases hb : map i <;> cases v
  · rw [← hb, Function.update_eq_self]
  · simpa using zeroBits_set hi hb
  · simpa using zeroBits_clear hi hb
  · rw [← hb, Function.update_eq_self]

/-- Clearing a run of set bits. -/
lemma setBits_clear_run {map : ℕ → Bool} {size lo hi : ℕ} (hsize : hi ≤ size)
    (hset : ∀ i, lo ≤ i → i < hi → map i = true) :
    setBits (fun i => map i && !(decide (lo ≤ i) && decide (i < hi))) size + (hi - lo)
      = setBits map size := by
  have hsplit : (Finset.range size).filter (fun i => map i = true)
      = (Finset.range size).filter
          (fun i => (map i && !(decide (lo ≤ i) && decide (i < hi))) = true)
        ∪ Finset.Ico lo hi := by
    ext i
    simp only [Finset.mem_union, Finset.mem_filter, Finset.mem_range, Finset.mem_Ico,
      Bool.and_eq_true, Bool.not_eq_true', Bool.and_eq_false_iff, decide_eq_false_iff_not]
    constructor
    · rintro ⟨hi', hb⟩
      by_cases hin : lo ≤ i ∧ i < hi
      · exact Or.inr hin
      · exact Or.inl ⟨hi', hb, by omega⟩
    · rintro (⟨hi', hb, -⟩ | ⟨h1, h2⟩)
      · exact ⟨hi', hb⟩
      · exact ⟨by omega, hset i h1 h2⟩
  have hdisj : Disjoint ((Finset.range size).filter
      (fun i => (map i && !(decide (lo ≤ i) && decide (i < hi))) = true)) (Finset.Ico lo hi) := by
    rw [Finset.disjoint_left]
    intro i h1 h2
    have h2' := Finset.mem_Ico.mp h2
    simp only [Finset.mem_filter, Bool.and_eq_true, Bool.not_eq_true', Bool.and_eq_false_iff,
      decide_eq_false_iff_not] at h1
    omega
  rw [setBits, setBits, hsplit, Finset.card_union_of_disjoint hdisj, Nat.card_Ico]

/-! ## Groups -/

/-- The number of set bits below `size` in group `k`, of the groups of `n` bits each. -/
def groupBits (map : ℕ → Bool) (size n k : ℕ) : ℕ :=
  ((Finset.range size).filter fun i => map i = true ∧ i / n = k).card

/-- Counting through one group. -/
lemma countP_group {map : ℕ → Bool} {size n k : ℕ} (hn : 0 < n) (hsize : (k + 1) * n ≤ size) :
    (List.range' (k * n) n).countP map = groupBits map size n k := by
  have hnodup : ((List.range' (k * n) n).filter map).Nodup := List.Nodup.filter _ List.nodup_range'
  rw [List.countP_eq_length_filter, ← List.toFinset_card_of_nodup hnodup, groupBits]
  congr 1
  ext i
  rw [Nat.add_mul, Nat.one_mul] at hsize
  simp only [List.mem_toFinset, List.mem_filter, List.mem_range'_1, Finset.mem_filter,
    Finset.mem_range]
  rw [Nat.div_eq_iff hn]
  constructor
  · rintro ⟨⟨hle, hlt⟩, hb⟩
    exact ⟨by omega, hb, by omega, by omega⟩
  · rintro ⟨hlt, hb, hdiv⟩
    exact ⟨⟨by omega, by omega⟩, hb⟩

/-- Different groups have different bits. -/
lemma sum_groupBits {map : ℕ → Bool} {size n : ℕ} : ∀ {l : List ℕ}, l.Nodup →
    (l.map (groupBits map size n)).sum
      = ((Finset.range size).filter fun i => map i = true ∧ i / n ∈ l).card
  | [], _ => by simp
  | k :: l, h => by
      obtain ⟨hk, hl⟩ := List.nodup_cons.mp h
      have hsplit : (Finset.range size).filter (fun i => map i = true ∧ i / n ∈ k :: l)
          = (Finset.range size).filter (fun i => map i = true ∧ i / n = k)
            ∪ (Finset.range size).filter fun i => map i = true ∧ i / n ∈ l := by
        ext i
        simp only [Finset.mem_union, Finset.mem_filter, List.mem_cons]
        tauto
      have hdisj : Disjoint ((Finset.range size).filter fun i => map i = true ∧ i / n = k)
          ((Finset.range size).filter fun i => map i = true ∧ i / n ∈ l) := by
        rw [Finset.disjoint_left]
        intro i hi hi'
        simp only [Finset.mem_filter] at hi hi'
        exact hk (hi.2.2 ▸ hi'.2.2)
      rw [List.map_cons, List.sum_cons, sum_groupBits hl, hsplit,
        Finset.card_union_of_disjoint hdisj]
      rfl

/-- **Different groups with as many set bits as there are have them all.** -/
lemma mem_of_setBits_le {map : ℕ → Bool} {size n : ℕ} {l : List ℕ} (hl : l.Nodup)
    (h : setBits map size ≤ (l.map (groupBits map size n)).sum) {i : ℕ} (hi : i < size)
    (hb : map i = true) : i / n ∈ l := by
  rw [sum_groupBits hl, setBits] at h
  have heq : (Finset.range size).filter (fun i => map i = true ∧ i / n ∈ l)
      = (Finset.range size).filter fun i => map i = true := by
    refine Finset.eq_of_subset_of_card_le ?_ h
    intro j hj
    simp only [Finset.mem_filter] at hj ⊢
    exact ⟨hj.1, hj.2.1⟩
  have hmem : i ∈ (Finset.range size).filter fun i => map i = true ∧ i / n ∈ l := by
    rw [heq]
    exact Finset.mem_filter.mpr ⟨Finset.mem_range.mpr hi, hb⟩
  exact (Finset.mem_filter.mp hmem).2.2

/-! ## Bitmaps in bytes -/

/-- Masking with one bit tests that bit. -/
lemma and_twoPow_ne_zero {w : ℕ} (x : BitVec w) {k : ℕ} (hk : k < w) :
    (x &&& BitVec.twoPow w k != 0#w) = x.getLsbD k := by
  rw [BitVec.and_twoPow]
  cases hx : x.getLsbD k with
  | false => simp
  | true =>
      have hne : BitVec.twoPow w k ≠ 0#w := by
        intro h0
        have hbit := congrArg (fun y => y.getLsbD k) h0
        simp [hk] at hbit
      simp [hne]

lemma testBitMsb_eq (nr : ℕ) (map : ℕ → BitVec 8) :
    testBitMsb nr map = (map (nr / 8)).getLsbD (7 - nr % 8) :=
  and_twoPow_ne_zero (map (nr / 8)) (by omega)

/-- **Flipping one bit leaves all the others alone**, those of the same byte included. -/
lemma testBitMsb_changeBitMsb (nr : ℕ) (map : ℕ → BitVec 8) :
    (fun i => testBitMsb i (changeBitMsb nr map))
      = Function.update (fun i => testBitMsb i map) nr (!testBitMsb nr map) := by
  funext i
  have hlt : 7 - i % 8 < 8 := by omega
  by_cases hi : i = nr
  · subst hi
    simp [testBitMsb_eq, changeBitMsb, msbMask, hlt]
  · rw [Function.update_of_ne hi, testBitMsb_eq, testBitMsb_eq, changeBitMsb]
    by_cases hbyte : i / 8 = nr / 8
    · have hne : 7 - i % 8 ≠ 7 - nr % 8 := by omega
      rw [hbyte, Function.update_self]
      simp [msbMask, hlt, hne]
    · rw [Function.update_of_ne hbyte]

end Bitmap
