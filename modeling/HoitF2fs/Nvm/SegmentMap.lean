import HoitF2fs.Nvm.Mpt

/-!
# NVM segments: allocation, mapping, release

The in-memory state of `nvm_sb_info` and the functions that change it, each cut into the pieces
that run inside one critical section.

* `nvmAllocateSegmentLocked` — the part of `nvm_allocate_segment` between `spin_lock` and
  `spin_unlock` of `segment_map_lock`.  The start of the search, `cur_alloc_nvm_segoff`, is read
  *before* the lock is taken, so it is an argument.
* `createMapping`, `unsetMapping`, `setDouble` — one critical section of `mpt_lock` each;
  `unset_mapping` nests `segment_map_lock` inside it.
* `releaseSegment` — the release of `hot_to_nvm`, which clears the bit of a segment that never
  got its mapping.
* `setInuse`, `setTestAndFree` — the SSD free-segment bitmap, under `segmap_lock`.

The allocator's `goto next` loop is modelled round by round; `searchFree_stable` shows that **two
rounds decide it**, so a search that has not ended by then never ends.
-/

namespace Hoit

open Bitmap

variable (g : Geometry)

/-- The part of `nvm_sb_info` that the segment layer reads or writes; `mainSegmentFreeNums` lives
in `nsb`. -/
structure NvmSbInfo where
  mpt : Mpt
  mptDirtyMap : ℕ → Bool
  nvmFlag : BitVec 16
  segmentMap : ℕ → Bool
  ckptSegmentMap : ℕ → Bool
  mainSegmentFreeNums : ℕ
  curAllocNvmSegoff : ℕ
  nowLfuCounter : ℕ
  lfuCount : ℕ → ℕ → ℤ

/-- `free_segmap_info`: a set bit means that the SSD segment (or section) is in use. -/
structure FreeSegmapInfo where
  freeSegmap : ℕ → Bool
  freeSecmap : ℕ → Bool
  freeSegments : BitVec 32
  freeSections : BitVec 32

def nvmNsbDirty : BitVec 16 := 0x0001#16

/-- `main_segment_free_nums++` on a 32-bit counter. -/
def incrFreeNums (n : ℕ) : ℕ := (n + 1) % 2 ^ 32

/-! ## Allocation -/

/-- What the critical section of `nvm_allocate_segment` can come to: `-ENVMNOSPACE`, a failed
`nvm_assert`, an endless `goto next`, or a segment. -/
inductive AllocResult where
  | noSpace
  | bugOn
  | hang
  | ok (nsbi : NvmSbInfo) (nvmSegoff : ℕ)

/-- The `next:` loop, at most `k` rounds.  A round that finds nothing restarts from 0. -/
def searchFree (map : ℕ → Bool) (size : ℕ) : ℕ → ℕ → Option ℕ
  | 0, _ => none
  | k + 1, start =>
      if findNextZeroBit map size start < size then some (findNextZeroBit map size start)
      else searchFree map size k 0

/-- `test_and_set_bit` with its accounting, and the new search position. -/
def takeSegment (nsbi : NvmSbInfo) (nvmSegoff : ℕ) : NvmSbInfo :=
  let nsbi := if nsbi.segmentMap nvmSegoff then nsbi else
    { nsbi with
      segmentMap := Function.update nsbi.segmentMap nvmSegoff true
      mainSegmentFreeNums := nsbi.mainSegmentFreeNums - 1
      nvmFlag := nsbi.nvmFlag ||| nvmNsbDirty }
  { nsbi with curAllocNvmSegoff := nvmSegoff + 1 }

/-- `nvm_allocate_segment` under `segment_map_lock`, searching from `start`.  The test of
`ckpt_segment_map` that `nvm.h` asks for is commented out in the source and absent here. -/
def nvmAllocateSegmentLocked (nsbi : NvmSbInfo) (start : ℕ) : AllocResult :=
  if nsbi.mainSegmentFreeNums = 0 then .noSpace
  else if nsbi.mainSegmentFreeNums ≤ g.mainSegmentNums then
    -- the second assertion, `main_segment_free_nums > 0`, repeats the first test
    match searchFree nsbi.segmentMap g.mainSegmentNums 2 start with
    | some nvmSegoff => .ok (takeSegment nsbi nvmSegoff) nvmSegoff
    | none => .hang
  else .bugOn

/-! ## The mapping table -/

/-- Entries of the table in one block. -/
def entriesPerBlk : ℕ := 1024

def markMptDirty (dirty : ℕ → Bool) (index : ℕ) : ℕ → Bool :=
  Function.update dirty (index / entriesPerBlk) true

def createMapping (nsbi : NvmSbInfo) (ssdSegoff nvmSegoff : ℕ) (rwFlag : BitVec 32) : NvmSbInfo :=
  { nsbi with
    mpt := setMptEntry (setMptEntry nsbi.mpt nvmSegoff ssdSegoff rwFlag)
      (g.ssdIndex ssdSegoff) nvmSegoff rwFlag
    mptDirtyMap := markMptDirty (markMptDirty nsbi.mptDirtyMap nvmSegoff) (g.ssdIndex ssdSegoff) }

/-- The release of `hot_to_nvm`, on both of its paths: the old value of the bit is not looked at,
and the NVM super block is not marked dirty. -/
def releaseSegment (nsbi : NvmSbInfo) (nvmSegoff : ℕ) : NvmSbInfo :=
  { nsbi with
    segmentMap := Function.update nsbi.segmentMap nvmSegoff false
    mainSegmentFreeNums := incrFreeNums nsbi.mainSegmentFreeNums }

def unsetMapping (nsbi : NvmSbInfo) (ssdSegno : ℕ) : NvmSbInfo :=
  if getMapFlag nsbi.mpt (g.ssdIndex ssdSegno) then
    let nvmOffset := getMptValue nsbi.mpt (g.ssdIndex ssdSegno)
    releaseSegment
      { nsbi with
        mpt := clearMap (clearMap nsbi.mpt (g.ssdIndex ssdSegno)) nvmOffset
        mptDirtyMap := markMptDirty (markMptDirty nsbi.mptDirtyMap (g.ssdIndex ssdSegno)) nvmOffset }
      nvmOffset
  else nsbi

def setDouble (nsbi : NvmSbInfo) (ssdSegno : ℕ) : NvmSbInfo :=
  if getMapFlag nsbi.mpt (g.ssdIndex ssdSegno) then
    let nvmOffset := getMptValue nsbi.mpt (g.ssdIndex ssdSegno)
    { nsbi with
      mpt := setDoubleFlag (setDoubleFlag nsbi.mpt (g.ssdIndex ssdSegno)) nvmOffset
      mptDirtyMap := markMptDirty (markMptDirty nsbi.mptDirtyMap (g.ssdIndex ssdSegno)) nvmOffset }
  else nsbi

/-- `atomic_set` on the counter of SSD segment `s` at the current level. -/
def setLfuCount (nsbi : NvmSbInfo) (s : ℕ) (v : ℤ) : NvmSbInfo :=
  { nsbi with
    lfuCount := Function.update nsbi.lfuCount nsbi.nowLfuCounter
      (Function.update (nsbi.lfuCount nsbi.nowLfuCounter) s v) }

/-- End of a checkpoint: `ckpt_segment_map` becomes a copy of `segment_map`. -/
def nvmSetCkptSegmentMap (nsbi : NvmSbInfo) : NvmSbInfo :=
  { nsbi with ckptSegmentMap := nsbi.segmentMap }

/-! ## The SSD free-segment bitmap -/

/-- `__set_inuse`, called with `segmap_lock` held. -/
def setInuse (nsbi : NvmSbInfo) (freeI : FreeSegmapInfo) (segno : ℕ) :
    NvmSbInfo × FreeSegmapInfo :=
  let secno := segno / g.segsPerSec
  (setLfuCount nsbi segno 0,
    { freeSegmap := Function.update freeI.freeSegmap segno true
      freeSecmap := Function.update freeI.freeSecmap secno true
      freeSegments := freeI.freeSegments - 1
      freeSections := if freeI.freeSecmap secno then freeI.freeSections
        else freeI.freeSections - 1 })

/-- The bitmap half of `__set_test_and_free`. -/
def clearFreeSegmap (freeI : FreeSegmapInfo) (segno : ℕ) : FreeSegmapInfo :=
  if freeI.freeSegmap segno then
    let secno := segno / g.segsPerSec
    let startSegno := secno * g.segsPerSec
    let freeSegmap := Function.update freeI.freeSegmap segno false
    let freeI := { freeI with freeSegmap, freeSegments := freeI.freeSegments + 1 }
    if startSegno + g.segsPerSec
        ≤ findNextBit freeSegmap (startSegno + g.segsPerSec) startSegno then
      { freeI with
        freeSecmap := Function.update freeI.freeSecmap secno false
        freeSections := if freeI.freeSecmap secno then freeI.freeSections + 1
          else freeI.freeSections }
    else freeI
  else freeI

/-- `__set_test_and_free`, one critical section of `segmap_lock`: the bitmap first, then the
mapping of the freed segment.  The assertion at its end is `setTestAndFree_unmapped`. -/
def setTestAndFree (nsbi : NvmSbInfo) (freeI : FreeSegmapInfo) (segno : ℕ) :
    NvmSbInfo × FreeSegmapInfo :=
  (if getMapFlag nsbi.mpt (g.ssdIndex segno) then setLfuCount (unsetMapping g nsbi segno) segno (-1)
    else nsbi,
   clearFreeSegmap g freeI segno)

/-! ## What the allocator's search finds -/

/-- **Two rounds decide the loop**: the second one, and every one after it, starts from 0. -/
lemma searchFree_stable (map : ℕ → Bool) (size start : ℕ) :
    ∀ k, searchFree map size (k + 2) start = searchFree map size 2 start := by
  have hzero : ∀ k, searchFree map size (k + 1) 0 = searchFree map size 1 0 := by
    intro k
    induction k with
    | zero => rfl
    | succ k ih =>
        rw [searchFree, ih]
        simp only [searchFree]
        split <;> rfl
  intro k
  rw [searchFree, hzero k]
  rfl

lemma searchFree_spec {map : ℕ → Bool} {size n : ℕ} :
    ∀ {k start : ℕ}, searchFree map size k start = some n → n < size ∧ map n = false
  | 0, _, h => by simp [searchFree] at h
  | k + 1, start, h => by
      rw [searchFree] at h
      split at h
      · rename_i hlt
        obtain rfl := Option.some.inj h
        exact ⟨hlt, findNextZeroBit_clear hlt⟩
      · exact searchFree_spec h

/-- A clear bit anywhere makes the search succeed, wherever it starts. -/
lemma searchFree_two_isSome {map : ℕ → Bool} {size start : ℕ}
    (h : ∃ i < size, map i = false) : ∃ n, searchFree map size 2 start = some n := by
  obtain ⟨i, hi, hc⟩ := h
  simp only [searchFree]
  split
  · exact ⟨_, rfl⟩
  · rw [if_pos (findNextZeroBit_lt (Nat.zero_le i) hi hc)]
    exact ⟨_, rfl⟩

/-- **Everything a successful allocation does.** -/
lemma nvmAllocateSegmentLocked_ok {nsbi nsbi' : NvmSbInfo} {start n : ℕ}
    (h : nvmAllocateSegmentLocked g nsbi start = .ok nsbi' n) :
    n < g.mainSegmentNums ∧ nsbi.segmentMap n = false ∧ nsbi.mainSegmentFreeNums ≠ 0 ∧
      nsbi' = { nsbi with
        segmentMap := Function.update nsbi.segmentMap n true
        mainSegmentFreeNums := nsbi.mainSegmentFreeNums - 1
        nvmFlag := nsbi.nvmFlag ||| nvmNsbDirty
        curAllocNvmSegoff := n + 1 } := by
  unfold nvmAllocateSegmentLocked at h
  split at h
  · exact absurd h (by simp)
  · rename_i hne
    split at h
    · split at h
      · rename_i m hm
        obtain ⟨h1, rfl⟩ := AllocResult.ok.inj h
        obtain ⟨hlt, hc⟩ := searchFree_spec hm
        refine ⟨hlt, hc, hne, ?_⟩
        rw [← h1]
        simp [takeSegment, hc]
      · exact absurd h (by simp)
    · exact absurd h (by simp)

/-- **The assertion holds and the loop ends** whenever the counter counts the clear bits. -/
lemma nvmAllocateSegmentLocked_total {nsbi : NvmSbInfo} (start : ℕ)
    (hfree : nsbi.mainSegmentFreeNums = zeroBits nsbi.segmentMap g.mainSegmentNums) :
    nvmAllocateSegmentLocked g nsbi start = .noSpace ∨
      ∃ nsbi' n, nvmAllocateSegmentLocked g nsbi start = .ok nsbi' n := by
  unfold nvmAllocateSegmentLocked
  split
  · exact Or.inl rfl
  · rename_i hne
    have hle : nsbi.mainSegmentFreeNums ≤ g.mainSegmentNums := by
      rw [hfree]
      exact zeroBits_le _ _
    have hex : ∃ i < g.mainSegmentNums, nsbi.segmentMap i = false := by
      rw [← zeroBits_pos, ← hfree]
      exact Nat.pos_of_ne_zero hne
    obtain ⟨n, hn⟩ := searchFree_two_isSome hex
    rw [if_pos hle, hn]
    exact Or.inr ⟨_, _, rfl⟩

/-! ## The assertion at the end of `__set_test_and_free` -/

lemma getMapFlag_of_zero {mpt : Mpt} {i : ℕ} (h : mpt i = 0#32) : getMapFlag mpt i = false := by
  simp [getMapFlag, h]

/-- A double clear leaves zeros in both entries. -/
lemma clearMap_clearMap_eq_zero (mpt : Mpt) (i j : ℕ) :
    clearMap (clearMap mpt i) j i = 0#32 ∧ clearMap (clearMap mpt i) j j = 0#32 := by
  refine ⟨?_, Function.update_self _ _ _⟩
  rcases eq_or_ne i j with rfl | hij
  · exact Function.update_self _ _ _
  · rw [clearMap_of_ne hij]
    exact Function.update_self _ _ _

lemma unsetMapping_unmapped (nsbi : NvmSbInfo) (s : ℕ) :
    getMapFlag (unsetMapping g nsbi s).mpt (g.ssdIndex s) = false := by
  unfold unsetMapping
  split
  · exact getMapFlag_of_zero (clearMap_clearMap_eq_zero nsbi.mpt _ _).1
  · rename_i h
    exact Bool.not_eq_true _ ▸ h

/-- **The `nvm_assert` of `__set_test_and_free` never fires**, whatever the state. -/
lemma setTestAndFree_unmapped (nsbi : NvmSbInfo) (freeI : FreeSegmapInfo) (s : ℕ) :
    getMapFlag (setTestAndFree g nsbi freeI s).1.mpt (g.ssdIndex s) = false := by
  simp only [setTestAndFree]
  split
  · exact unsetMapping_unmapped g nsbi s
  · rename_i h
    exact Bool.not_eq_true _ ▸ h

/-- The bit of a freed segment is clear, the others are as they were. -/
lemma clearFreeSegmap_freeSegmap (freeI : FreeSegmapInfo) (s : ℕ) :
    (clearFreeSegmap g freeI s).freeSegmap = Function.update freeI.freeSegmap s false := by
  unfold clearFreeSegmap
  split
  · dsimp only
    split <;> rfl
  · rename_i h
    have hs : freeI.freeSegmap s = false := Bool.not_eq_true _ ▸ h
    rw [← hs, Function.update_eq_self]

end Hoit
