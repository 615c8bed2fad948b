import HoitF2fs.Ckpt.Header
import HoitF2fs.Nvm.Mpt

/-!
# The blocks of a checkpoint pack

What a checkpoint puts behind the header: orphan blocks and summary blocks.  `do_checkpoint`
writes them into cleared pages, `bnvm_do_checkpoint` straight into NVM, **without clearing**
anything; otherwise the loops are the same.  So a block is modelled as the list of patches it
receives, and the two writers lay the same lists out in two ways (`ByteStore.writePages`).

* `CpInput` — what a checkpoint reads of the file system, apart from the header.
* `orphanPages` — the loop of `write_orphan_inodes`; it fills as many blocks as
  `GET_ORPHAN_BLOCKS` says (`orphanPages_length`).
* `dataSummaryPages` — the data summaries, compacted or not; compacted ones fill as many blocks as
  `f2fs_npages_for_summary_flush` says, as long as that is less than three
  (`compactedSummaries_length`).
-/

namespace Hoit

open ByteStore

/-- What the super block fixes.  `payload_fits` leaves room for two headers and six summaries. -/
structure CpLayout where
  cpBlkaddr : ℕ
  cpPayload : ℕ
  natBitsBlocks : ℕ
  segmentCount : ℕ
  segmentCountCkpt : ℕ
  segmentCountSit : ℕ
  segmentCountNat : ℕ
  segmentCountSsa : ℕ
  segmentCountMain : ℕ
  payload_fits : cpPayload + 8 ≤ blocksPerSeg
  natBits_le : natBitsBlocks ≤ blocksPerSeg
  cp_end : cpBlkaddr + 2 * blocksPerSeg ≤ 2 ^ 32
  main_lt : segmentCountMain < 2 ^ 32

/-- `curseg_info` and its summary block.  A full segment is replaced at once, so `nextBlkoff` is
always inside. -/
structure CurSeg (l : CpLayout) where
  segno : ℕ
  nextBlkoff : ℕ
  allocType : Byte
  entries : Area
  journal : Area
  footer : Area
  segno_lt : segno < l.segmentCountMain
  blkoff_lt : nextBlkoff < blocksPerSeg

/-- What a checkpoint reads of the file system.  The log heads are, in this order: hot, warm and
cold data, hot, warm and cold node. -/
structure CpInput (l : CpLayout) where
  reason : BitVec 32
  validUserBlocks : ℕ
  validNodeCount : ℕ
  validInodeCount : ℕ
  nextFreeNid : ℕ
  mtime : ℕ
  freeSegments : ℕ
  curseg : Fin 6 → CurSeg l
  orphans : List (BitVec 32)
  sitBitmap : Area
  sitBitmapSize : ℕ
  natBitmap : Area
  natBitmapSize : ℕ
  natBits : Area
  nsbDirty : Bool
  needFsck : Bool
  kbytesWritten : ℕ
  /-- `max_orphans`. -/
  orphans_le : orphans.length ≤ (blocksPerSeg - 8 - l.cpPayload) * 1020

variable {l : CpLayout}

/-! ## Orphan blocks -/

/-- `GET_ORPHAN_BLOCKS`. -/
def getOrphanBlocks (n : ℕ) : ℕ := (n + 1019) / 1020

/-- The end of an orphan block: its index, the number of blocks, the number of its entries. -/
def orphanTrailer (index blocks nentries : ℕ) : List Patch :=
  [putLe 4084 2 index, putLe 4086 2 blocks, putLe 4088 4 nentries]

/-- The loop of `write_orphan_inodes` and `bnvm_write_orphan_inodes`. -/
def orphanLoop (blocks : ℕ) :
    ℕ → ℕ → List Patch → List (BitVec 32) → List (List Patch)
  | index, nentries, pg, [] =>
      if nentries = 0 then [] else [pg ++ orphanTrailer index blocks nentries]
  | index, nentries, pg, ino :: inos =>
      if nentries + 1 = 1020 then
        (pg ++ [putLe (4 * nentries) 4 ino.toNat] ++ orphanTrailer index blocks 1020)
          :: orphanLoop blocks (index + 1) 0 [] inos
      else orphanLoop blocks index (nentries + 1) (pg ++ [putLe (4 * nentries) 4 ino.toNat]) inos

def orphanPages (inos : List (BitVec 32)) : List (List Patch) :=
  orphanLoop (getOrphanBlocks inos.length) 1 0 [] inos

lemma orphanLoop_length (blocks : ℕ) {inos : List (BitVec 32)} {index nentries : ℕ}
    {pg : List Patch} (hn : nentries < 1020) :
    (orphanLoop blocks index nentries pg inos).length = getOrphanBlocks (nentries + inos.length) := by
  unfold getOrphanBlocks
  induction inos generalizing index nentries pg with
  | nil =>
      rw [orphanLoop]
      split
      · simp only [List.length_nil]
        omega
      · simp only [List.length_nil, List.length_cons]
        omega
  | cons ino inos ih =>
      rw [orphanLoop, List.length_cons]
      split
      · rw [List.length_cons, ih (by omega)]
        omega
      · rw [ih (by omega)]
        congr 1
        omega

lemma orphanPages_length (inos : List (BitVec 32)) :
    (orphanPages inos).length = getOrphanBlocks inos.length := by
  rw [orphanPages, orphanLoop_length _ (by decide), Nat.zero_add]

lemma orphanTrailer_in {index blocks nentries : ℕ} :
    ∀ p ∈ orphanTrailer index blocks nentries, p.off + p.len ≤ blockSize := by
  intro p hp
  simp only [orphanTrailer, List.mem_cons, List.not_mem_nil, or_false] at hp
  rcases hp with rfl | rfl | rfl <;> simp [blockSize]

lemma orphanLoop_in (blocks : ℕ) {inos : List (BitVec 32)} {index nentries : ℕ}
    {pg : List Patch} (hn : nentries < 1020) (hpg : ∀ p ∈ pg, p.off + p.len ≤ blockSize) :
    InPage blockSize (orphanLoop blocks index nentries pg inos) := by
  induction inos generalizing index nentries pg with
  | nil =>
      rw [orphanLoop]
      split
      · intro q hq
        exact absurd hq List.not_mem_nil
      · intro q hq
        rw [List.mem_singleton.mp hq]
        exact List.forall_mem_append.mpr ⟨hpg, orphanTrailer_in⟩
  | cons ino inos ih =>
      have hpg' : ∀ p ∈ pg ++ [putLe (4 * nentries) 4 ino.toNat], p.off + p.len ≤ blockSize := by
        refine List.forall_mem_append.mpr ⟨hpg, ?_⟩
        intro p hp
        rw [List.mem_singleton.mp hp, putLe_off, putLe_len, blockSize]
        omega
      rw [orphanLoop]
      split
      · intro q hq
        rcases List.mem_cons.mp hq with rfl | hq
        · exact List.forall_mem_append.mpr ⟨hpg', orphanTrailer_in⟩
        · refine ih (by decide) ?_ q hq
          intro p hp
          exact absurd hp List.not_mem_nil
      · exact ih (by omega) hpg'

lemma orphanPages_in (inos : List (BitVec 32)) : InPage blockSize (orphanPages inos) :=
  orphanLoop_in _ (by decide) fun _ hp => absurd hp List.not_mem_nil

/-! ## Summaries -/

/-- `SSR`. -/
def ssr : Byte := 1

/-- The number of summary entries of log head `i` that are written: all of them in a segment that
is being filled out of order.  `types` are the allocation types. -/
def summaryCount (types : ℕ → Byte) (inp : CpInput l) (i : Fin 6) : ℕ :=
  if types i = ssr then blocksPerSeg else (inp.curseg i).nextBlkoff

instance neZeroLogs : NeZero 6 := ⟨by decide⟩

/-- `f2fs_npages_for_summary_flush`.  The source takes the allocation types from the header
`sbi->ckpt` points to. -/
def f2fsNpagesForSummaryFlush (types : ℕ → Byte) (inp : CpInput l) : ℕ :=
  let validSumCount :=
    summaryCount types inp 0 + summaryCount types inp 1 + summaryCount types inp 2
  let sumInPage := (blockSize - 2 * 507 - 5) / 7
  if validSumCount ≤ sumInPage then 1
  else if validSumCount - sumInPage ≤ (blockSize - 5) / 7 then 2
  else 3

/-- The first `n` summary entries of a log head. -/
def summaryEntries (c : CurSeg l) (n : ℕ) : List Area :=
  (List.range n).map fun j k => c.entries (7 * j + k)

/-- The entries that go into compacted summaries. -/
def compactedEntries (types : ℕ → Byte) (inp : CpInput l) : List Area :=
  summaryEntries (inp.curseg 0) (summaryCount types inp 0)
    ++ summaryEntries (inp.curseg 1) (summaryCount types inp 1)
    ++ summaryEntries (inp.curseg 2) (summaryCount types inp 2)

/-- The loop over the entries: the page that is being filled, with the size written so far, if
there is one. -/
def compactedLoop : Option (List Patch × ℕ) → List Area → List (List Patch)
  | none, [] => []
  | some (pg, _), [] => [pg]
  | cur, e :: es =>
      let (pg, written) := cur.getD ([], 0)
      let pg' := pg ++ [{ off := written, len := 7, byte := e }]
      if written + 7 + 7 ≤ blockSize - 5 then compactedLoop (some (pg', written + 7)) es
      else pg' :: compactedLoop none es

/-- `write_compacted_summaries` and `bnvm_write_compacted_summaries`: the journals of the hot and
the cold data log, then the entries. -/
def compactedSummaries (types : ℕ → Byte) (inp : CpInput l) : List (List Patch) :=
  compactedLoop
    (some ([{ off := 0, len := 507, byte := (inp.curseg 0).journal },
      { off := 507, len := 507, byte := (inp.curseg 2).journal }], 507 + 507))
    (compactedEntries types inp)

/-- `write_current_sum_page`. -/
def currentSumPage (c : CurSeg l) : List Patch :=
  [{ off := 3584, len := 507, byte := c.journal }, { off := 0, len := 3584, byte := c.entries },
    { off := 4091, len := 5, byte := c.footer }]

/-- `f2fs_write_data_summaries`. -/
def dataSummaryPages (a : Area) (inp : CpInput l) : List (List Patch) :=
  if isSetCkptFlags a cpCompactSumFlag then compactedSummaries (allocType a) inp
  else [currentSumPage (inp.curseg 0), currentSumPage (inp.curseg 1), currentSumPage (inp.curseg 2)]

/-- `f2fs_write_node_summaries`, after the write statistics were put into the journal of the hot
node log. -/
def nodeSummaryPages (inp : CpInput l) : List (List Patch) :=
  [currentSumPage
      { inp.curseg 3 with journal := (putLe 2 8 inp.kbytesWritten).apply (inp.curseg 3).journal },
    currentSumPage (inp.curseg 4), currentSumPage (inp.curseg 5)]

lemma compactedLoop_none_cons (e : Area) (es : List Area) :
    compactedLoop none (e :: es)
      = compactedLoop (some ([{ off := 0, len := 7, byte := e }], 7)) es := rfl

lemma compactedLoop_some_cons (pg : List Patch) (written : ℕ) (e : Area) (es : List Area) :
    compactedLoop (some (pg, written)) (e :: es)
      = if written + 7 + 7 ≤ blockSize - 5 then
          compactedLoop (some (pg ++ [{ off := written, len := 7, byte := e }], written + 7)) es
        else (pg ++ [{ off := written, len := 7, byte := e }]) :: compactedLoop none es := rfl

lemma compactedLoop_length (es : List Area) :
    (compactedLoop none es).length = (es.length + 583) / 584 ∧
      ∀ pg written, written + 7 ≤ 4091 →
        (compactedLoop (some (pg, written)) es).length
          = 1 + (es.length - (4091 - written) / 7 + 583) / 584 := by
  induction es with
  | nil =>
      refine ⟨rfl, fun pg written _ => ?_⟩
      simp [compactedLoop]
  | cons e es ih =>
      obtain ⟨ihnone, ihsome⟩ := ih
      constructor
      · rw [compactedLoop_none_cons, ihsome _ _ (by decide), List.length_cons]
        omega
      · intro pg written hw
        rw [compactedLoop_some_cons, List.length_cons, blockSize]
        split
        · rw [ihsome _ _ (by omega)]
          omega
        · rw [List.length_cons, ihnone]
          omega

lemma compactedLoop_in (es : List Area) :
    InPage blockSize (compactedLoop none es) ∧
      ∀ pg written, written + 7 ≤ blockSize - 5 → (∀ p ∈ pg, p.off + p.len ≤ blockSize) →
        InPage blockSize (compactedLoop (some (pg, written)) es) := by
  induction es with
  | nil =>
      refine ⟨fun q hq => absurd hq List.not_mem_nil, fun pg written _ hpg q hq => ?_⟩
      rw [List.mem_singleton.mp hq]
      exact hpg
  | cons e es ih =>
      obtain ⟨ihnone, ihsome⟩ := ih
      have hstep : ∀ (pg : List Patch) (written : ℕ), written + 7 ≤ blockSize - 5 →
          (∀ p ∈ pg, p.off + p.len ≤ blockSize) →
          ∀ p ∈ pg ++ [{ off := written, len := 7, byte := e }], p.off + p.len ≤ blockSize := by
        intro pg written hw hpg
        refine List.forall_mem_append.mpr ⟨hpg, fun p hp => ?_⟩
        rw [List.mem_singleton.mp hp]
        simp only [blockSize] at hw ⊢
        omega
      constructor
      · rw [compactedLoop_none_cons]
        exact ihsome _ _ (by decide) (hstep [] 0 (by decide) (by simp))
      · intro pg written hw hpg
        rw [compactedLoop_some_cons]
        split
        · next hroom => exact ihsome _ _ hroom (hstep pg written hw hpg)
        · intro q hq
          rcases List.mem_cons.mp hq with rfl | hq
          · exact hstep pg written hw hpg
          · exact ihnone q hq

lemma compactedEntries_length (types : ℕ → Byte) (inp : CpInput l) :
    (compactedEntries types inp).length
      = summaryCount types inp 0 + summaryCount types inp 1 + summaryCount types inp 2 := by
  simp only [compactedEntries, summaryEntries, List.length_append, List.length_map,
    List.length_range]

/-- The count with its constants. -/
lemma npages_eq (types : ℕ → Byte) (inp : CpInput l) :
    f2fsNpagesForSummaryFlush types inp
      = if (compactedEntries types inp).length ≤ 439 then 1
        else if (compactedEntries types inp).length - 439 ≤ 584 then 2
        else 3 := by
  rw [compactedEntries_length]
  rfl

/-- **Compacted summaries fit**: they fill the blocks that were counted for them. -/
theorem compactedSummaries_length {types : ℕ → Byte} {inp : CpInput l}
    (h : f2fsNpagesForSummaryFlush types inp < 3) :
    (compactedSummaries types inp).length = f2fsNpagesForSummaryFlush types inp := by
  rw [compactedSummaries, (compactedLoop_length _).2 _ _ (by decide)]
  rw [npages_eq] at h ⊢
  split_ifs at h ⊢
  · omega
  · omega
  · omega

lemma compactedSummaries_in (types : ℕ → Byte) (inp : CpInput l) :
    InPage blockSize (compactedSummaries types inp) := by
  refine (compactedLoop_in _).2 _ _ (by decide) ?_
  intro p hp
  simp only [List.mem_cons, List.not_mem_nil, or_false] at hp
  rcases hp with rfl | rfl <;> simp [blockSize]

lemma currentSumPage_in (c : CurSeg l) : ∀ p ∈ currentSumPage c, p.off + p.len ≤ blockSize := by
  intro p hp
  simp only [currentSumPage, List.mem_cons, List.not_mem_nil, or_false] at hp
  rcases hp with rfl | rfl | rfl <;> simp [blockSize]

lemma dataSummaryPages_in (a : Area) (inp : CpInput l) :
    InPage blockSize (dataSummaryPages a inp) := by
  unfold dataSummaryPages
  split
  · exact compactedSummaries_in _ inp
  · intro q hq
    simp only [List.mem_cons, List.not_mem_nil, or_false] at hq
    rcases hq with rfl | rfl | rfl <;> exact currentSumPage_in _

lemma nodeSummaryPages_in (inp : CpInput l) : InPage blockSize (nodeSummaryPages inp) := by
  intro q hq
  simp only [nodeSummaryPages, List.mem_cons, List.not_mem_nil, or_false] at hq
  rcases hq with rfl | rfl | rfl <;> exact currentSumPage_in _

lemma npages_le_three (types : ℕ → Byte) (inp : CpInput l) :
    f2fsNpagesForSummaryFlush types inp ≤ 3 := by
  rw [npages_eq]
  split
  · decide
  · split <;> decide

/-- With the flag set as `do_checkpoint` sets it, the data summaries fill the blocks that were
counted for them, in both modes. -/
lemma dataSummaryPages_length {a : Area} {inp : CpInput l}
    (h : isSetCkptFlags a cpCompactSumFlag
      = decide (f2fsNpagesForSummaryFlush (allocType a) inp < 3)) :
    (dataSummaryPages a inp).length = f2fsNpagesForSummaryFlush (allocType a) inp := by
  unfold dataSummaryPages
  rw [h]
  split
  · next hlt => exact compactedSummaries_length (of_decide_eq_true hlt)
  · next hge =>
      have hle := npages_le_three (allocType a) inp
      simp only [decide_eq_true_eq, Nat.not_lt] at hge
      show 3 = _
      omega

end Hoit
