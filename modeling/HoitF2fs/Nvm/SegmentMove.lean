import HoitF2fs.Lib.Runs
import HoitF2fs.Nvm.Redirect

/-!
# Moving a segment between the devices

`do_hot_to_nvm` and `do_cold_to_ssd` go through `cur_valid_map` run by run.  For each run they
build a read bio and a write bio over the pages of one buffer, which is **used again for every
run**, and wait for both.  They differ in the direction, and in what happens to the mapping
afterwards.

* `MoveBio`, `fillBio` — a bio and the loop that adds the pages.  A bio has `cap` vectors, and a
  page for which there is none left is dropped after `f2fs_bug_on`.
* `moveRun` — the body of the loop, `doHotToNvm` and `doColdToSsd` — the functions.  `moved` keeps
  the local variables of each round.

**The argument.**  The loop is the one of `HoitF2fs.Lib.Runs`, so the rounds are the runs of the
map (`migration_runs_exact`).  A round drops pages iff its run has more blocks than a bio has
vectors (`moveRun_eq`); `migration_bios_iff` says for which maps that does not happen.  Otherwise
a round copies its run and nothing else (`moveRun_copies`).
-/

namespace Hoit

open Bitmap Runs

/-! ## Bios -/

/-- `BIO_MAX_PAGES`. -/
def bioMaxPages : ℕ := 256

/-- A bio of a migration.  Its pages are named by their numbers in the buffer; `asked` counts the
pages it was asked to hold. -/
structure MoveBio where
  dev : Dev
  blkno : BitVec 32
  maxVecs : ℕ
  pages : List ℕ
  asked : ℕ

/-- `f2fs_bio_alloc`, with the device and the address that are set next. -/
def f2fsBioAlloc (cap : ℕ) (dev : Dev) (blkno : BitVec 32) : MoveBio :=
  { dev, blkno, maxVecs := cap, pages := [], asked := 0 }

/-- `bio_add_page`, on a page that is not in the bio yet. -/
def bioAddPage (b : MoveBio) (page : ℕ) : MoveBio × Bool :=
  if b.pages.length < b.maxVecs then
    ({ b with pages := b.pages ++ [page], asked := b.asked + 1 }, true)
  else ({ b with asked := b.asked + 1 }, false)

/-- The loop that adds the next `k` pages of the buffer, and how often it runs into
`f2fs_bug_on`. -/
def fillBio : ℕ → ℕ → MoveBio → MoveBio × ℕ
  | 0, _, b => (b, 0)
  | k + 1, page, b =>
      let (b', added) := bioAddPage b page
      let (b'', bugs) := fillBio k (page + 1) b'
      (b'', if added then bugs else bugs + 1)

/-- The blocks of both devices, by address. -/
abbrev Medium (α : Type*) := Dev → BitVec 32 → α

variable {α : Type*}

/-- `submit_bio_wait` of a read: page by page into the buffer. -/
def MoveBio.submitRead (b : MoveBio) (m : Medium α) (buf : ℕ → α) : ℕ → α :=
  b.pages.zipIdx.foldl
    (fun buf pi => Function.update buf pi.1 (m b.dev (b.blkno + BitVec.ofNat 32 pi.2))) buf

/-- `submit_bio_wait` of a write. -/
def MoveBio.submitWrite (b : MoveBio) (buf : ℕ → α) (m : Medium α) : Medium α :=
  Function.update m b.dev (b.pages.zipIdx.foldl
    (fun blocks pi => Function.update blocks (b.blkno + BitVec.ofNat 32 pi.2) (buf pi.1)) (m b.dev))

/-! ## The two functions -/

/-- What one round of the loop has computed. -/
structure RunMove where
  stPos : ℕ
  pos : ℕ
  readBio : MoveBio
  writeBio : MoveBio

structure MigrateState (α : Type*) where
  medium : Medium α
  buf : ℕ → α
  bugs : ℕ
  moved : List RunMove

/-- The body of the loop: blocks `stPos` to `pos` of the segment, which lie at `src` and go to
`dst`. -/
def moveRun (cap : ℕ) (srcDev dstDev : Dev) (src dst : ℕ → BitVec 32) (x : MigrateState α)
    (stPos pos : ℕ) : MigrateState α :=
  let (readBio, readBugs) := fillBio (pos - stPos) 0 (f2fsBioAlloc cap srcDev (src stPos))
  let buf := readBio.submitRead x.medium x.buf
  let (writeBio, writeBugs) := fillBio (pos - stPos) 0 (f2fsBioAlloc cap dstDev (dst stPos))
  { medium := writeBio.submitWrite buf x.medium
    buf
    bugs := x.bugs + readBugs + writeBugs
    moved := x.moved ++ [⟨stPos, pos, readBio, writeBio⟩] }

/-- The loop, over the bits `f2fs_test_bit` finds set. -/
def moveRuns (cap : ℕ) (srcDev dstDev : Dev) (src dst : ℕ → BitVec 32) (curMap : ℕ → BitVec 8)
    (m : Medium α) (buf : ℕ → α) : MigrateState α :=
  forRuns (moveRun cap srcDev dstDev src dst) (fun i => testBitMsb i curMap) blocksPerSeg 0
    { medium := m, buf, bugs := 0, moved := [] }

section Functions

variable (l : Layout) (cap : ℕ) (curValidMap : ℕ → ℕ → BitVec 8)

/-- `do_hot_to_nvm`. -/
def doHotToNvm (m : Medium α) (buf : ℕ → α) (ssdSegoff nvmSegoff : ℕ) : MigrateState α :=
  moveRuns cap .ssd .nvm (ssdAddr l ssdSegoff) (nvmAddr l nvmSegoff) (curValidMap ssdSegoff) m buf

/-- The loop of `do_cold_to_ssd`. -/
def coldRuns (m : Medium α) (buf : ℕ → α) (ssdSegoff nvmSegoff : ℕ) : MigrateState α :=
  moveRuns cap .nvm .ssd (nvmAddr l nvmSegoff) (ssdAddr l ssdSegoff) (curValidMap ssdSegoff) m buf

/-- `do_cold_to_ssd`: an NVM segment that is not mapped is left alone. -/
def doColdToSsd (nsbi : NvmSbInfo) (m : Medium α) (buf : ℕ → α) (nvmSegoff : ℕ) (preMove : Bool) :
    NvmSbInfo × MigrateState α :=
  let ssdSegoff := getMptValue nsbi.mpt nvmSegoff
  if getMapFlag nsbi.mpt nvmSegoff then
    (if preMove then setDouble l.toGeometry nsbi ssdSegoff
      else unsetMapping l.toGeometry nsbi ssdSegoff,
     coldRuns l cap curValidMap m buf ssdSegoff nvmSegoff)
  else (nsbi, { medium := m, buf, bugs := 0, moved := [] })

end Functions

/-! ## One round -/

/-- **What the loop over the pages leaves in a bio.**  It takes the pages for which there are
vectors, and each of the others is a `f2fs_bug_on`. -/
lemma fillBio_eq (k page : ℕ) (b : MoveBio) :
    fillBio k page b =
      ({ b with
          pages := b.pages ++ List.range' page (min k (b.maxVecs - b.pages.length))
          asked := b.asked + k },
        k - (b.maxVecs - b.pages.length)) := by
  induction k generalizing page b with
  | zero => simp [fillBio]
  | succ k ih =>
      rw [fillBio, bioAddPage]
      by_cases hroom : b.pages.length < b.maxVecs
      · have hmin : min (k + 1) (b.maxVecs - b.pages.length)
            = min k (b.maxVecs - (b.pages.length + 1)) + 1 := by omega
        simp only [if_pos hroom, ih, List.length_append, List.length_singleton, hmin,
          List.range'_succ, List.append_assoc, List.singleton_append, if_true]
        congr 1
        · congr 1
          omega
        · omega
      · have hfull : b.maxVecs - b.pages.length = 0 := by omega
        simp only [if_neg hroom, ih, hfull, Nat.min_zero, List.range'_zero, Nat.sub_zero,
          Bool.false_eq_true, if_false]
        congr 2
        omega

/-- The bio of one direction for a run of `k` blocks. -/
def runBio (cap : ℕ) (dev : Dev) (blkno : BitVec 32) (k : ℕ) : MoveBio :=
  { dev, blkno, maxVecs := cap, pages := List.range (min k cap), asked := k }

lemma fillBio_alloc (cap : ℕ) (dev : Dev) (blkno : BitVec 32) (k : ℕ) :
    fillBio k 0 (f2fsBioAlloc cap dev blkno) = (runBio cap dev blkno k, k - cap) := by
  rw [fillBio_eq]
  simp [f2fsBioAlloc, runBio, List.range_eq_range']

lemma zipIdx_range_succ (n : ℕ) :
    (List.range (n + 1)).zipIdx = (List.range n).zipIdx ++ [(n, n)] := by
  rw [List.range_succ, List.zipIdx_append, List.length_range]
  simp

/-- A read puts block `j` of the run into page `j`. -/
lemma submitRead_runBio (cap : ℕ) (dev : Dev) (blkno : BitVec 32) (k : ℕ) (m : Medium α)
    (buf : ℕ → α) (j : ℕ) :
    (runBio cap dev blkno k).submitRead m buf j
      = if j < min k cap then m dev (blkno + BitVec.ofNat 32 j) else buf j := by
  simp only [MoveBio.submitRead, runBio]
  induction min k cap with
  | zero => simp
  | succ n ih =>
      rw [zipIdx_range_succ, List.foldl_append, List.foldl_cons, List.foldl_nil]
      by_cases hj : j = n
      · subst hj
        rw [Function.update_self, if_pos (Nat.lt_succ_self j)]
      · rw [Function.update_of_ne hj, ih]
        by_cases hlt : j < n
        · rw [if_pos hlt, if_pos (Nat.lt_succ_of_lt hlt)]
        · rw [if_neg hlt, if_neg (by omega)]

lemma add_ofNat_inj {a : BitVec 32} {i j : ℕ} (hi : i < 2 ^ 32) (hj : j < 2 ^ 32)
    (h : a + BitVec.ofNat 32 i = a + BitVec.ofNat 32 j) : i = j := by
  have heq := congrArg BitVec.toNat h
  simp only [BitVec.toNat_add, BitVec.toNat_ofNat] at heq
  have ha := a.isLt
  omega

/-- A write puts page `j` into block `j` of the run. -/
lemma submitWrite_runBio_at {cap k : ℕ} {dev : Dev} {blkno : BitVec 32} (buf : ℕ → α)
    (m : Medium α) (hk : k ≤ 2 ^ 32) {j : ℕ} (hj : j < min k cap) :
    (runBio cap dev blkno k).submitWrite buf m dev (blkno + BitVec.ofNat 32 j) = buf j := by
  have hn : min k cap ≤ 2 ^ 32 := by omega
  simp only [MoveBio.submitWrite, runBio, Function.update_self]
  generalize min k cap = n at hj hn ⊢
  induction n with
  | zero => exact absurd hj (Nat.not_lt_zero j)
  | succ n ih =>
      rw [zipIdx_range_succ, List.foldl_append, List.foldl_cons, List.foldl_nil]
      by_cases hjn : j = n
      · subst hjn
        rw [Function.update_self]
      · rw [Function.update_of_ne]
        · exact ih (by omega) (by omega)
        · exact fun heq => hjn (add_ofNat_inj (by omega) (by omega) heq)

/-- It writes nothing else. -/
lemma submitWrite_runBio_of_ne {cap k : ℕ} {dev d : Dev} {blkno a : BitVec 32} (buf : ℕ → α)
    (m : Medium α) (h : d = dev → ∀ j < min k cap, a ≠ blkno + BitVec.ofNat 32 j) :
    (runBio cap dev blkno k).submitWrite buf m d a = m d a := by
  by_cases hd : d = dev
  · subst hd
    have h := h rfl
    simp only [MoveBio.submitWrite, runBio, Function.update_self]
    generalize min k cap = n at h ⊢
    induction n with
    | zero => rfl
    | succ n ih =>
        rw [zipIdx_range_succ, List.foldl_append, List.foldl_cons, List.foldl_nil,
          Function.update_of_ne (h n (Nat.lt_succ_self n))]
        exact ih fun j hj => h j (Nat.lt_succ_of_lt hj)
  · rw [MoveBio.submitWrite, runBio, Function.update_of_ne hd]

/-- **One round, with its bios spelt out.** -/
lemma moveRun_eq (cap : ℕ) (srcDev dstDev : Dev) (src dst : ℕ → BitVec 32) (x : MigrateState α)
    (st pos : ℕ) :
    moveRun cap srcDev dstDev src dst x st pos =
      let readBio := runBio cap srcDev (src st) (pos - st)
      let writeBio := runBio cap dstDev (dst st) (pos - st)
      let buf := readBio.submitRead x.medium x.buf
      { medium := writeBio.submitWrite buf x.medium
        buf
        bugs := x.bugs + (pos - st - cap) + (pos - st - cap)
        moved := x.moved ++ [⟨st, pos, readBio, writeBio⟩] } := by
  simp only [moveRun, fillBio_alloc]

/-! ## All rounds -/

section Rounds

variable {cap : ℕ} {srcDev dstDev : Dev} {src dst : ℕ → BitVec 32} {curMap : ℕ → BitVec 8}
  {m : Medium α} {buf : ℕ → α}

/-- What the round for the run `r` leaves in `moved`. -/
def runMove (cap : ℕ) (srcDev dstDev : Dev) (src dst : ℕ → BitVec 32) (r : ℕ × ℕ) : RunMove :=
  ⟨r.1, r.2, runBio cap srcDev (src r.1) (r.2 - r.1), runBio cap dstDev (dst r.1) (r.2 - r.1)⟩

/-- The rounds over a list of runs. -/
def moveList (cap : ℕ) (srcDev dstDev : Dev) (src dst : ℕ → BitVec 32) (rs : List (ℕ × ℕ))
    (x : MigrateState α) : MigrateState α :=
  rs.foldl (fun x r => moveRun cap srcDev dstDev src dst x r.1 r.2) x

lemma moveList_cons (r : ℕ × ℕ) (rs : List (ℕ × ℕ)) (x : MigrateState α) :
    moveList cap srcDev dstDev src dst (r :: rs) x
      = moveList cap srcDev dstDev src dst rs (moveRun cap srcDev dstDev src dst x r.1 r.2) := rfl

/-- The runs of `cur_valid_map`. -/
def mapRuns (curMap : ℕ → BitVec 8) : List (ℕ × ℕ) :=
  runs (fun i => testBitMsb i curMap) blocksPerSeg 0

lemma exists_mapRuns {b : ℕ} (hb : b < blocksPerSeg) (hset : testBitMsb b curMap = true) :
    ∃ r ∈ mapRuns curMap, r.1 ≤ b ∧ b < r.2 :=
  exists_mem_runs (Nat.zero_le b) hb hset

lemma moveRuns_eq : moveRuns cap srcDev dstDev src dst curMap m buf
    = moveList cap srcDev dstDev src dst (mapRuns curMap)
      { medium := m, buf, bugs := 0, moved := [] } :=
  forRuns_eq _ _ _ _ _

lemma moveList_moved (rs : List (ℕ × ℕ)) (x : MigrateState α) :
    (moveList cap srcDev dstDev src dst rs x).moved
      = x.moved ++ rs.map (runMove cap srcDev dstDev src dst) := by
  induction rs generalizing x with
  | nil => simp [moveList]
  | cons r rs ih =>
      rw [moveList_cons, ih, moveRun_eq]
      simp [runMove]

lemma moveRuns_moved : (moveRuns cap srcDev dstDev src dst curMap m buf).moved
    = (mapRuns curMap).map (runMove cap srcDev dstDev src dst) := by
  rw [moveRuns_eq, moveList_moved, List.nil_append]

/-- No `f2fs_bug_on` as long as every run fits. -/
lemma moveList_bugs {rs : List (ℕ × ℕ)} (h : ∀ r ∈ rs, r.2 - r.1 ≤ cap) (x : MigrateState α) :
    (moveList cap srcDev dstDev src dst rs x).bugs = x.bugs := by
  induction rs generalizing x with
  | nil => rfl
  | cons r rs ih =>
      rw [moveList_cons, ih fun q hq => h q (List.mem_cons_of_mem r hq), moveRun_eq]
      have hfit := h r List.mem_cons_self
      simp only
      omega

/-! ### Which runs there are -/

/-- **What the rounds of a migration should be**: the runs of the valid map, each at the same
offset of both segments. -/
structure RunsExact (curMap : ℕ → BitVec 8) (srcDev dstDev : Dev) (src dst : ℕ → BitVec 32)
    (moved : List RunMove) : Prop where
  maximal : ∀ r ∈ moved, IsRun (fun i => testBitMsb i curMap) blocksPerSeg r.stPos r.pos
  apart : moved.Pairwise fun r r' => r.pos < r'.stPos
  covers : ∀ b, (b < blocksPerSeg ∧ testBitMsb b curMap = true) ↔
    ∃ r ∈ moved, r.stPos ≤ b ∧ b < r.pos
  once : ∀ b, ∀ r ∈ moved, ∀ r' ∈ moved, r.stPos ≤ b → b < r.pos → r'.stPos ≤ b → b < r'.pos →
    r = r'
  rounds : 2 * moved.length ≤ blocksPerSeg + 1
  source : ∀ r ∈ moved, r.readBio.dev = srcDev ∧ r.readBio.blkno = src r.stPos
  target : ∀ r ∈ moved, r.writeBio.dev = dstDev ∧ r.writeBio.blkno = dst r.stPos

lemma moveRuns_exact :
    RunsExact curMap srcDev dstDev src dst
      (moveRuns cap srcDev dstDev src dst curMap m buf).moved := by
  have hmem : ∀ r ∈ (mapRuns curMap).map (runMove cap srcDev dstDev src dst),
      ∃ q ∈ mapRuns curMap, runMove cap srcDev dstDev src dst q = r :=
    fun r hr => List.mem_map.mp hr
  have hrun : ∀ q ∈ mapRuns curMap,
      IsRun (fun i => testBitMsb i curMap) blocksPerSeg q.1 q.2 :=
    fun q hq => isRun_of_mem_runs hq
  rw [moveRuns_moved]
  constructor
  · intro r hr
    obtain ⟨q, hq, rfl⟩ := hmem r hr
    exact hrun q hq
  · refine List.pairwise_map.mpr ?_
    exact runs_pairwise _ _ _ fun h => absurd h (lt_irrefl 0)
  · intro b
    constructor
    · rintro ⟨hb, hset⟩
      obtain ⟨q, hq, hin⟩ := exists_mapRuns hb hset
      exact ⟨_, List.mem_map_of_mem hq, hin⟩
    · rintro ⟨r, hr, h1, h2⟩
      obtain ⟨q, hq, rfl⟩ := hmem r hr
      exact ⟨Nat.lt_of_lt_of_le h2 (hrun q hq).inside, (hrun q hq).all b h1 h2⟩
  · intro b r hr r' hr' h1 h2 h1' h2'
    obtain ⟨q, hq, rfl⟩ := hmem r hr
    obtain ⟨q', hq', rfl⟩ := hmem r' hr'
    obtain ⟨heq1, heq2⟩ := (hrun q hq).eq_of_common (hrun q' hq') ⟨h1, h2⟩ ⟨h1', h2'⟩
    rw [show q = q' from Prod.ext heq1 heq2]
  · rw [List.length_map]
    exact runs_length_le _ _ _
  · intro r hr
    obtain ⟨q, hq, rfl⟩ := hmem r hr
    exact ⟨rfl, rfl⟩
  · intro r hr
    obtain ⟨q, hq, rfl⟩ := hmem r hr
    exact ⟨rfl, rfl⟩

end Rounds

/-- **The loops of both functions visit the runs of the valid map**, for every map: each valid
block in exactly one round, no other block in any, each round at equal offsets of the two
segments, and an end after at most half as many rounds as there are blocks. -/
theorem migration_runs_exact (l : Layout) (cap : ℕ) (curValidMap : ℕ → ℕ → BitVec 8)
    (m : Medium α) (buf : ℕ → α) (s n : ℕ) :
    RunsExact (curValidMap s) .ssd .nvm (ssdAddr l s) (nvmAddr l n)
        (doHotToNvm l cap curValidMap m buf s n).moved ∧
      RunsExact (curValidMap s) .nvm .ssd (nvmAddr l n) (ssdAddr l s)
        (coldRuns l cap curValidMap m buf s n).moved :=
  ⟨moveRuns_exact, moveRuns_exact⟩

/-! ## Whether the bios hold their pages -/

/-- **No bio overflows**: none is asked for more pages than it has vectors, no `f2fs_bug_on` is
met, and each valid block has a page in both bios of some round. -/
structure BiosHold (curMap : ℕ → BitVec 8) (x : MigrateState α) : Prop where
  fits : ∀ r ∈ x.moved, r.readBio.asked ≤ r.readBio.maxVecs ∧ r.writeBio.asked ≤ r.writeBio.maxVecs
  noBug : x.bugs = 0
  copied : ∀ b < blocksPerSeg, testBitMsb b curMap = true → ∃ r ∈ x.moved, ∃ i page,
    r.stPos + i = b ∧ r.readBio.pages[i]? = some page ∧ r.writeBio.pages[i]? = some page

/-- No `bioMaxPages + 1` consecutive blocks are all valid. -/
def NoLongRun (curMap : ℕ → BitVec 8) : Prop :=
  ∀ st, st + bioMaxPages < blocksPerSeg →
    ∃ b, st ≤ b ∧ b ≤ st + bioMaxPages ∧ testBitMsb b curMap = false

section Overflow

variable {srcDev dstDev : Dev} {src dst : ℕ → BitVec 32} {curMap : ℕ → BitVec 8}
  {m : Medium α} {buf : ℕ → α}

lemma NoLongRun.run_le (h : NoLongRun curMap) {a b : ℕ}
    (hrun : IsRun (fun i => testBitMsb i curMap) blocksPerSeg a b) : b - a ≤ bioMaxPages := by
  by_contra hlong
  have hin := hrun.inside
  obtain ⟨j, hj1, hj2, hclear⟩ := h a (by omega)
  have hset : testBitMsb j curMap = true := hrun.all j hj1 (by omega)
  rw [hclear] at hset
  exact absurd hset (by simp)

/-- The converse: a long stretch of valid blocks lies in one run, which is as long. -/
lemma noLongRun_of_runs (h : ∀ r ∈ mapRuns curMap, r.2 - r.1 ≤ bioMaxPages) :
    NoLongRun curMap := by
  intro st hst
  by_contra hnone
  have hall : ∀ j, st ≤ j → j ≤ st + bioMaxPages → testBitMsb j curMap = true := by
    intro j h1 h2
    by_contra hclear
    exact hnone ⟨j, h1, h2, by simpa using hclear⟩
  have hlt : st < blocksPerSeg := by omega
  obtain ⟨r, hr, h1, h2⟩ := exists_mapRuns hlt (hall st le_rfl (Nat.le_add_right _ _))
  have hfit := h r hr
  have hclear := (isRun_of_mem_runs hr).right (by omega)
  rw [hall r.2 (by omega) (by omega)] at hclear
  exact absurd hclear (by simp)

/-- **The bios hold their pages iff no run is longer than a bio.** -/
theorem biosHold_iff :
    BiosHold curMap (moveRuns bioMaxPages srcDev dstDev src dst curMap m buf)
      ↔ NoLongRun curMap := by
  constructor
  · intro h
    refine noLongRun_of_runs fun r hr => ?_
    have hmem : runMove bioMaxPages srcDev dstDev src dst r
        ∈ (moveRuns bioMaxPages srcDev dstDev src dst curMap m buf).moved := by
      rw [moveRuns_moved]
      exact List.mem_map_of_mem hr
    exact (h.fits _ hmem).1
  · intro h
    have hfit : ∀ r ∈ mapRuns curMap, r.2 - r.1 ≤ bioMaxPages :=
      fun r hr => h.run_le (isRun_of_mem_runs hr)
    refine ⟨?_, ?_, ?_⟩
    · intro r hr
      rw [moveRuns_moved] at hr
      obtain ⟨q, hq, rfl⟩ := List.mem_map.mp hr
      exact ⟨hfit q hq, hfit q hq⟩
    · rw [moveRuns_eq, moveList_bugs hfit]
    · intro b hb hset
      obtain ⟨q, hq, h1, h2⟩ := exists_mapRuns hb hset
      have hlen := hfit q hq
      have hpage : (List.range (min (q.2 - q.1) bioMaxPages))[b - q.1]? = some (b - q.1) :=
        List.getElem?_range (by omega)
      rw [moveRuns_moved]
      exact ⟨_, List.mem_map_of_mem hq, b - q.1, b - q.1, Nat.add_sub_cancel' h1, hpage, hpage⟩

end Overflow

/-- **Exactly the maps without a long run are migrated without an overflow**, in either
direction. -/
theorem migration_bios_iff (l : Layout) (curValidMap : ℕ → ℕ → BitVec 8) (m : Medium α)
    (buf : ℕ → α) (s n : ℕ) :
    (BiosHold (curValidMap s) (doHotToNvm l bioMaxPages curValidMap m buf s n)
        ↔ NoLongRun (curValidMap s)) ∧
      (BiosHold (curValidMap s) (coldRuns l bioMaxPages curValidMap m buf s n)
        ↔ NoLongRun (curValidMap s)) :=
  ⟨biosHold_iff, biosHold_iff⟩

/-- A layout with one segment on each device. -/
def pairLayout : Layout where
  mainSegmentNums := 1
  segmentCountMain := 1
  segsPerSec := 1
  nvm_lt := by decide
  ssd_lt := by decide
  segsPerSec_pos := Nat.one_pos
  seg0Blkaddr := 512
  metaSegs := 2
  nvmMainBlkaddr := 2560
  ssd_end := by decide
  nvm_end := by decide

/-- **A segment full of valid blocks overflows the bios**, whichever way it is moved. -/
theorem full_segment_overflows :
    ¬ (∀ curMap : ℕ → BitVec 8,
        BiosHold curMap (doHotToNvm pairLayout bioMaxPages (fun _ => curMap)
          (fun _ _ => (0 : ℕ)) (fun _ => 0) 0 0)) ∧
      ¬ (∀ curMap : ℕ → BitVec 8,
        BiosHold curMap (coldRuns pairLayout bioMaxPages (fun _ => curMap)
          (fun _ _ => (0 : ℕ)) (fun _ => 0) 0 0)) := by
  have hfull : ¬ NoLongRun fun _ => 0xff#8 := by
    intro h
    obtain ⟨b, -, -, hclear⟩ := h 0 (by decide)
    have hset : testBitMsb b (fun _ => 0xff#8) = true := by
      rw [testBitMsb_eq]
      have hlt : b % 8 < 8 := Nat.mod_lt b (by decide)
      interval_cases b % 8 <;> rfl
    rw [hset] at hclear
    exact absurd hclear (by simp)
  exact ⟨fun h => hfull (biosHold_iff.mp (h fun _ => 0xff#8)),
    fun h => hfull (biosHold_iff.mp (h fun _ => 0xff#8))⟩

/-! ## What is copied -/

/-- From `m` to `m'` the blocks `P` were copied, and nothing else was written. -/
structure Copies (srcDev dstDev : Dev) (src dst : ℕ → BitVec 32) (P : ℕ → Prop)
    (m m' : Medium α) : Prop where
  copied : ∀ j, P j → m' dstDev (dst j) = m srcDev (src j)
  frame : ∀ d a, (∀ j, P j → ¬ (d = dstDev ∧ a = dst j)) → m' d a = m d a

section Copies

variable {cap : ℕ} {srcDev dstDev : Dev} {src dst : ℕ → BitVec 32} {m m' m'' : Medium α}
  {P Q : ℕ → Prop}

lemma Copies.congr (h : Copies srcDev dstDev src dst P m m') (hPQ : ∀ j, Q j ↔ P j) :
    Copies srcDev dstDev src dst Q m m' := by
  refine ⟨fun j hj => h.copied j ((hPQ j).mp hj), fun d a hout => h.frame d a fun j hj => ?_⟩
  exact hout j ((hPQ j).mpr hj)

/-- The source is not written, so a second copy brings what the first one would have. -/
lemma Copies.comp (h : Copies srcDev dstDev src dst P m m')
    (h' : Copies srcDev dstDev src dst Q m' m'') (hdev : srcDev ≠ dstDev)
    (hinj : ∀ i j, P i → Q j → dst i ≠ dst j) :
    Copies srcDev dstDev src dst (fun j => P j ∨ Q j) m m'' := by
  constructor
  · rintro j (hP | hQ)
    · rw [h'.frame _ _ fun k hk => fun heq => hinj j k hP hk heq.2]
      exact h.copied j hP
    · rw [h'.copied j hQ]
      exact h.frame _ _ fun k _ heq => hdev heq.1
  · intro d a hout
    rw [h'.frame d a fun j hj => hout j (Or.inr hj)]
    exact h.frame d a fun j hj => hout j (Or.inl hj)

/-- The addresses of a segment's blocks follow each other. -/
def Consecutive (addr : ℕ → BitVec 32) : Prop := ∀ b k, addr b + BitVec.ofNat 32 k = addr (b + k)

lemma Consecutive.inj {addr : ℕ → BitVec 32} (h : Consecutive addr) {i j : ℕ}
    (hi : i < blocksPerSeg) (hj : j < blocksPerSeg) (heq : addr i = addr j) : i = j := by
  have hz : ∀ k, addr k = addr 0 + BitVec.ofNat 32 k := fun k => by rw [h 0 k, Nat.zero_add]
  unfold blocksPerSeg at hi hj
  rw [hz i, hz j] at heq
  exact add_ofNat_inj (by omega) (by omega) heq

lemma consecutive_ssdAddr (l : Layout) (s : ℕ) : Consecutive (ssdAddr l s) := by
  intro b k
  rw [ssdAddr, ssdAddr, ← BitVec.ofNat_add, Nat.add_assoc]

lemma consecutive_nvmAddr (l : Layout) (n : ℕ) : Consecutive (nvmAddr l n) := by
  intro b k
  rw [nvmAddr, nvmAddr, ← BitVec.ofNat_add, Nat.add_assoc]

/-- **A round copies its run**, if the run fits into a bio. -/
lemma moveRun_copies (hsrc : Consecutive src) (hdst : Consecutive dst) (x : MigrateState α)
    {a b : ℕ} (hfit : b - a ≤ cap) (hb : b ≤ blocksPerSeg) :
    Copies srcDev dstDev src dst (fun j => a ≤ j ∧ j < b) x.medium
      (moveRun cap srcDev dstDev src dst x a b).medium := by
  have hlen : b - a ≤ 2 ^ 32 := by
    unfold blocksPerSeg at hb
    omega
  have hall : min (b - a) cap = b - a := Nat.min_eq_left hfit
  simp only [moveRun_eq]
  constructor
  · rintro j ⟨h1, h2⟩
    have hk : j - a < min (b - a) cap := by omega
    have haddr : dst j = dst a + BitVec.ofNat 32 (j - a) := by
      rw [hdst a (j - a), Nat.add_sub_cancel' h1]
    rw [haddr, submitWrite_runBio_at _ _ hlen hk, submitRead_runBio, if_pos hk, hsrc a (j - a),
      Nat.add_sub_cancel' h1]
  · intro d addr hout
    refine submitWrite_runBio_of_ne _ _ ?_
    rintro hd k hk rfl
    exact hout (a + k) ⟨Nat.le_add_right a k, by omega⟩ ⟨hd, hdst a k⟩

/-- **The rounds together copy what is in their runs.** -/
lemma moveList_copies (hsrc : Consecutive src) (hdst : Consecutive dst) (hdev : srcDev ≠ dstDev)
    {rs : List (ℕ × ℕ)} (hfit : ∀ r ∈ rs, r.2 - r.1 ≤ cap ∧ r.2 ≤ blocksPerSeg)
    (hapart : rs.Pairwise fun r r' => r.2 < r'.1) (x : MigrateState α) :
    Copies srcDev dstDev src dst (fun j => ∃ r ∈ rs, r.1 ≤ j ∧ j < r.2) x.medium
      (moveList cap srcDev dstDev src dst rs x).medium := by
  induction rs generalizing x with
  | nil => exact ⟨fun j ⟨r, hr, _⟩ => absurd hr List.not_mem_nil, fun _ _ _ => rfl⟩
  | cons r rs ih =>
      obtain ⟨hr, hrest⟩ := List.pairwise_cons.mp hapart
      have hround : Copies srcDev dstDev src dst (fun j => r.1 ≤ j ∧ j < r.2) x.medium
          (moveRun cap srcDev dstDev src dst x r.1 r.2).medium :=
        moveRun_copies hsrc hdst x (hfit r List.mem_cons_self).1 (hfit r List.mem_cons_self).2
      have htail := ih (fun q hq => hfit q (List.mem_cons_of_mem r hq)) hrest
        (moveRun cap srcDev dstDev src dst x r.1 r.2)
      refine (hround.comp htail hdev ?_).congr fun j => by simp
      rintro i j ⟨-, hi⟩ ⟨q, hq, hj1, hj2⟩ heq
      have hq1 := hr q hq
      have hq2 := (hfit q (List.mem_cons_of_mem r hq)).2
      have hij := hdst.inj (by omega) (by omega) heq
      omega

/-- **The loop copies the valid blocks and nothing else.** -/
theorem moveRuns_copies (hsrc : Consecutive src) (hdst : Consecutive dst) (hdev : srcDev ≠ dstDev)
    (hcap : blocksPerSeg ≤ cap) (curMap : ℕ → BitVec 8) (buf : ℕ → α) :
    Copies srcDev dstDev src dst (fun j => j < blocksPerSeg ∧ testBitMsb j curMap = true) m
      (moveRuns cap srcDev dstDev src dst curMap m buf).medium := by
  have hrun : ∀ r ∈ mapRuns curMap, IsRun (fun i => testBitMsb i curMap) blocksPerSeg r.1 r.2 :=
    fun r hr => isRun_of_mem_runs hr
  have hfit : ∀ r ∈ mapRuns curMap, r.2 - r.1 ≤ cap ∧ r.2 ≤ blocksPerSeg := by
    intro r hr
    have hin := (hrun r hr).inside
    exact ⟨by omega, hin⟩
  have hapart : (mapRuns curMap).Pairwise fun r r' => r.2 < r'.1 :=
    runs_pairwise _ _ _ fun h => absurd h (lt_irrefl 0)
  rw [moveRuns_eq]
  refine (moveList_copies hsrc hdst hdev hfit hapart
    { medium := m, buf, bugs := 0, moved := [] }).congr fun j => ?_
  constructor
  · rintro ⟨hj, hset⟩
    exact exists_mapRuns hj hset
  · rintro ⟨r, hr, h1, h2⟩
    exact ⟨Nat.lt_of_lt_of_le h2 (hrun r hr).inside, (hrun r hr).all j h1 h2⟩

end Copies

/-! ## Cold migration -/

/-- A pair of segments that is mapped as `create_mapping` maps it. -/
structure MappedPair (g : Geometry) (mpt : Mpt) (n s : ℕ) : Prop where
  nvm_lt : n < g.mainSegmentNums
  ssd_lt : s < g.segmentCountMain
  nvm : NvmMaps mpt n s
  ssd : SsdMaps g mpt s n
  redirected : getRedirectFlag mpt (g.ssdIndex s) = true

section Cold

variable {g : Geometry} {nsbi : NvmSbInfo} {n s : ℕ}

lemma MappedPair.resolve_eq {mpt : Mpt} (h : MappedPair g mpt n s) (b : ℕ) :
    resolve g mpt s b = ⟨.nvm, n, b⟩ := by
  rw [resolve, if_pos h.redirected, h.ssd.2]

/-- `set_double` leaves the route alone. -/
lemma resolve_setDouble (s' b : ℕ) :
    resolve g (setDouble g nsbi s).mpt s' b = resolve g nsbi.mpt s' b := by
  simp only [resolve, getRedirectFlag_setDouble, (setDouble_reads _).2]

/-- After `unset_mapping` the SSD segment is read from the SSD. -/
lemma MappedPair.resolve_unset (h : MappedPair g nsbi.mpt n s) (b : ℕ) :
    resolve g (unsetMapping g nsbi s).mpt s b = ⟨.ssd, s, b⟩ := by
  have hzero : (unsetMapping g nsbi s).mpt (g.ssdIndex s) = 0#32 := by
    rw [(unsetMapping_of_mapped h.ssd).1]
    exact (clearMap_clearMap_eq_zero _ _ _).1
  rw [resolve, if_neg]
  simp [getRedirectFlag, hzero]

/-- What a read of data or node blocks returns that `nvm_redirect_bio` has redirected. -/
def redirectedRead (l : Layout) (nsbi : NvmSbInfo) (m : Medium α) (vcnt : ℤ)
    (blkAddr : BitVec 32) : α :=
  let (_, dev, addr) := nvmRedirectBio l nsbi .data true vcnt blkAddr
  m dev addr

lemma redirectedRead_ssdAddr (l : Layout) (nsbi : NvmSbInfo) (m : Medium α) (vcnt : ℤ) {s b : ℕ}
    (hs : s < l.segmentCountMain) (hb : b < blocksPerSeg) :
    redirectedRead l nsbi m vcnt (ssdAddr l s b)
      = m ((resolve l.toGeometry nsbi.mpt s b).target l).1
          ((resolve l.toGeometry nsbi.mpt s b).target l).2 := by
  rw [← redirectTarget_ssdAddr nsbi.mpt hs hb]
  rfl

end Cold

end Hoit
