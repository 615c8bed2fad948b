import HoitF2fs.Segment.Sit

/-!
# The segment manager

The table of segments, the free segment map, the lists of dirty segments and the six current
segments, and the functions of `segment.c` that change them.

* `locateDirtySegment`, `f2fsClearPrefreeSegments` — the lists of dirty segments.  A segment on the
  `PRE` list has no valid block left; a checkpoint gives it back.
* `newCurseg`, `changeCurseg` — a current segment is replaced by a free one, or by a dirty one whose
  holes are filled (SSR).
* `f2fsAllocateDataBlock`, `f2fsInvalidateBlocks`, `f2fsDoReplaceBlock` — the calls.
* `checkpoint` — the part of a checkpoint that concerns segments.  `f2fs_write_checkpoint` blocks
  all the others, so it is one step; it may fail once the table has been flushed.

What is decided elsewhere is an argument: whether SSR is called for and which segment was chosen as
its victim, the time, and whether a checkpoint goes through.  The NVM segment that `new_curseg` may
ask for is in `SegmentMap`.
-/

namespace Hoit.Segment

open Bitmap Transition

inductive DirtyType where
  | ofType (t : CursegType)
  | dirty
  | pre
deriving DecidableEq

/-- `struct dirty_seglist_info`. -/
structure DirtySeglist where
  dirtySegmap : DirtyType → ℕ → Bool
  nrDirty : DirtyType → ℕ
  victimSecmap : ℕ → Bool

inductive AllocType where
  | lfs
  | ssr
deriving DecidableEq

/-- `struct curseg_info`. -/
structure CursegInfo where
  segno : ℕ
  nextBlkoff : ℕ
  zone : ℕ
  nextSegno : ℕ
  allocType : AllocType
deriving DecidableEq

/-- `NULL_SEGNO`. -/
def nullSegno : ℕ := 2 ^ 32 - 1

structure SegMan where
  sit : SitInfo
  nsbi : NvmSbInfo
  freeI : FreeSegmapInfo
  dirtyI : DirtySeglist
  curseg : CursegType → CursegInfo

variable (g : SegGeometry) (o : Options)

/-- `IS_CURSEG`. -/
def isCurseg (m : SegMan) (segno : ℕ) : Bool :=
  CursegType.all.any fun t => segno == (m.curseg t).segno

/-- `IS_CURSEC`. -/
def isCursec (m : SegMan) (secno : ℕ) : Bool :=
  CursegType.all.any fun t => secno == (m.curseg t).segno / g.segsPerSec

/-- `get_valid_blocks`. -/
def getValidBlocks (m : SegMan) (segno : ℕ) (useSection : Bool) : ℕ :=
  if useSection && decide (1 < g.segsPerSec) then m.sit.secValidBlocks (segno / g.segsPerSec)
  else (m.sit.sentries segno).validBlocks

def SegMan.setCurseg (m : SegMan) (t : CursegType) (c : CursegInfo) : SegMan :=
  { m with curseg := Function.update m.curseg t c }

@[simp] lemma SegMan.setCurseg_self (m : SegMan) (t : CursegType) (c : CursegInfo) :
    (m.setCurseg t c).curseg t = c := Function.update_self _ _ _

lemma SegMan.setCurseg_of_ne (m : SegMan) {t u : CursegType} (h : u ≠ t) (c : CursegInfo) :
    (m.setCurseg t c).curseg u = m.curseg u := Function.update_of_ne h _ _

/-! ## Dirty segments -/

/-- `test_and_set_bit`, with its count. -/
def DirtySeglist.add (d : DirtySeglist) (t : DirtyType) (segno : ℕ) : DirtySeglist :=
  if d.dirtySegmap t segno then d
  else
    { d with
      dirtySegmap := Function.update d.dirtySegmap t
        (Function.update (d.dirtySegmap t) segno true)
      nrDirty := Function.update d.nrDirty t (d.nrDirty t + 1) }

/-- `test_and_clear_bit`, with its count. -/
def DirtySeglist.remove (d : DirtySeglist) (t : DirtyType) (segno : ℕ) : DirtySeglist :=
  if d.dirtySegmap t segno then
    { d with
      dirtySegmap := Function.update d.dirtySegmap t
        (Function.update (d.dirtySegmap t) segno false)
      nrDirty := Function.update d.nrDirty t (d.nrDirty t - 1) }
  else d

/-- `__locate_dirty_segment`.  An entry always has one of the six types. -/
def locateDirty (m : SegMan) (segno : ℕ) (t : DirtyType) : SegMan :=
  if isCurseg m segno then m
  else
    let d := m.dirtyI.add t segno
    { m with
      dirtyI := if t = .dirty then d.add (.ofType (m.sit.sentries segno).type) segno else d }

/-- `__remove_dirty_segment`. -/
def removeDirtySegment (m : SegMan) (segno : ℕ) (t : DirtyType) : SegMan :=
  let d := m.dirtyI.remove t segno
  if t = .dirty then
    let d := d.remove (.ofType (m.sit.sentries segno).type) segno
    { m with
      dirtyI := { d with
        victimSecmap :=
          if getValidBlocks g m segno true = 0 then
            Function.update d.victimSecmap (segno / g.segsPerSec) false
          else d.victimSecmap } }
  else { m with dirtyI := d }

/-- `locate_dirty_segment`. -/
def locateDirtySegment (m : SegMan) (segno : ℕ) : SegMan :=
  if segno = nullSegno || isCurseg m segno then m
  else
    let validBlocks := getValidBlocks g m segno false
    if validBlocks = 0 then removeDirtySegment g (locateDirty m segno .pre) segno .dirty
    else if validBlocks < blocksPerSeg then locateDirty m segno .dirty
    else removeDirtySegment g m segno .dirty

/-- One round of `init_dirty_segmap`. -/
def initDirtySegment (m : SegMan) (segno : ℕ) : SegMan :=
  let validBlocks := getValidBlocks g m segno false
  if validBlocks = 0 || decide (blocksPerSeg ≤ validBlocks) then m
  else locateDirty m segno .dirty

/-- `init_dirty_segmap`: the segments in use that have some valid blocks but not only those. -/
def initDirtySegmap (m : SegMan) : SegMan :=
  ((List.range g.segmentCountMain).filter m.freeI.freeSegmap).foldl (initDirtySegment g) m

/-! ## Current segments -/

/-- `reset_curseg`, less the summary. -/
def resetCurseg (m : SegMan) (t : CursegType) (modified : Bool) : SegMan :=
  let c := m.curseg t
  { m.setCurseg t
      { c with
        segno := c.nextSegno
        zone := c.nextSegno / g.segsPerSec / g.secsPerZone
        nextBlkoff := 0
        nextSegno := nullSegno } with
    sit := setSitEntryType m.sit t c.nextSegno modified }

/-- What `__get_next_segno` and `new_curseg` look at besides. -/
structure AllocHints where
  noheap : Bool
  /-- `last_victim[ALLOC_NEXT]`. -/
  lastVictim : ℕ
  reuse : Bool

/-- `__get_next_segno`. -/
def getNextSegno (m : SegMan) (h : AllocHints) (t : CursegType) : ℕ :=
  if g.segsPerSec ≠ 1 then (m.curseg t).segno
  else if h.noheap && (t == .hotData || t.isNode) then 0
  else if h.lastVictim ≠ 0 then h.lastVictim
  else if h.reuse then 0
  else (m.curseg t).segno

/-- `new_curseg`; `none` if a check fires. -/
def newCurseg (m : SegMan) (h : AllocHints) (t : CursegType) (newSec : Bool) : Option SegMan :=
  let dir := if t = .warmData || t = .coldData || h.noheap then .right else .left
  let newseg := getNextSegno g m h t
  let zones := CursegType.all.map fun t => (m.curseg t).zone
  if NewsegOk g.toSecGeometry newseg then
    (getNewSegment g.toSecGeometry m.nsbi m.freeI newseg newSec dir zones).map fun x =>
      let m₁ := { m with nsbi := x.2.1, freeI := x.2.2 }
      let m₂ := resetCurseg g (m₁.setCurseg t { m₁.curseg t with nextSegno := x.1 }) t true
      m₂.setCurseg t { m₂.curseg t with allocType := .lfs }
  else none

/-- The map that SSR looks for a hole in. -/
def targetMap (se : SegEntry) (off : ℕ) : Bool := se.ckptValidMap off || se.curValidMap off

/-- `__next_free_blkoff`. -/
def nextFreeBlkoff (m : SegMan) (c : CursegInfo) (start : ℕ) : CursegInfo :=
  { c with nextBlkoff := findNextZeroBit (targetMap (m.sit.sentries c.segno)) blocksPerSeg start }

/-- `__refresh_next_blkoff`. -/
def refreshNextBlkoff (m : SegMan) (c : CursegInfo) : CursegInfo :=
  match c.allocType with
  | .ssr => nextFreeBlkoff m c (c.nextBlkoff + 1)
  | .lfs => { c with nextBlkoff := c.nextBlkoff + 1 }

/-- `change_curseg`, less the summary. -/
def changeCurseg (m : SegMan) (t : CursegType) : SegMan :=
  let newSegno := (m.curseg t).nextSegno
  let m₁ := { m with freeI := setTestAndInuse g.toSecGeometry m.freeI newSegno }
  let m₂ := removeDirtySegment g (removeDirtySegment g m₁ newSegno .pre) newSegno .dirty
  let m₃ := resetCurseg g m₂ t true
  m₃.setCurseg t (nextFreeBlkoff m₃ { m₃.curseg t with allocType := .ssr } 0)

/-- `is_next_segment_free`. -/
def isNextSegmentFree (m : SegMan) (t : CursegType) : Bool :=
  let segno := (m.curseg t).segno + 1
  decide (segno < g.segmentCountMain) && segno % g.segsPerSec != 0 && !m.freeI.freeSegmap segno

/-- What `get_victim` may return for SSR: a dirty segment outside the current sections, with a block
that is neither valid nor was at the last checkpoint, as `ckpt_valid_blocks` counts them. -/
def SsrVictim (m : SegMan) (segno : ℕ) : Prop :=
  segno < g.segmentCountMain ∧
    (∃ t ∈ CursegType.all, m.dirtyI.dirtySegmap (.ofType t) segno = true) ∧
    isCursec g m (segno / g.segsPerSec) = false ∧
    (m.sit.sentries segno).ckptValidBlocks < blocksPerSeg

instance (m : SegMan) (segno : ℕ) : Decidable (SsrVictim g m segno) :=
  inferInstanceAs (Decidable (_ ∧ _ ∧ _ ∧ _))

/-- What the allocation of a segment depends on besides. -/
structure AllocEnv where
  hints : AllocHints
  crcRecovery : Bool
  /-- `f2fs_need_SSR`, in a file system that is not mounted with `mode=lfs`. -/
  needSsr : Bool
  victim : Option ℕ

/-- `allocate_segment_by_default`. -/
def allocateSegmentByDefault (m : SegMan) (e : AllocEnv) (t : CursegType) (force : Bool) :
    Option SegMan :=
  if force then newCurseg g m e.hints t true
  else if !e.crcRecovery && t == .warmNode then newCurseg g m e.hints t false
  else if (m.curseg t).allocType == .lfs && isNextSegmentFree g m t then
    newCurseg g m e.hints t false
  else
    match (if e.needSsr && !o.lfs then e.victim else none) with
    | some v =>
        if SsrVictim g m v then
          some (changeCurseg g (m.setCurseg t { m.curseg t with nextSegno := v }) t)
        else none
    | none => newCurseg g m e.hints t false

/-- `f2fs_allocate_new_segments`. -/
def f2fsAllocateNewSegments (m : SegMan) (e : AllocEnv) : Option SegMan :=
  [CursegType.hotData, .warmData, .coldData].foldl
    (fun m t => m.bind fun m =>
      (allocateSegmentByDefault g o m e t true).map fun m' =>
        locateDirtySegment g m' (m.curseg t).segno)
    (some m)

/-! ## Blocks -/

/-- `NEXT_FREE_BLKADDR`. -/
def nextFreeBlkaddr (c : CursegInfo) : ℕ := c.segno * blocksPerSeg + c.nextBlkoff

/-- The segment of an address, if it has one. -/
def segnoOf (blk : Option ℕ) : ℕ := blk.elim nullSegno getSegno

/-- `update_sit_entry`, if there is a block. -/
def updateSit (m : SegMan) (blk : Option ℕ) (validate : Bool) (mtime : BitVec 64) : SegMan :=
  match blk with
  | none => m
  | some b => { m with sit := updateSitEntry g o m.sit b validate mtime }

/-- `f2fs_allocate_data_block`, less the summary and the discards: the address and the state. -/
def f2fsAllocateDataBlock (m : SegMan) (e : AllocEnv) (t : CursegType) (oldBlkaddr : Option ℕ)
    (mtime : BitVec 64) : Option (ℕ × SegMan) :=
  let newBlkaddr := nextFreeBlkaddr (m.curseg t)
  let m₁ := m.setCurseg t (refreshNextBlkoff m (m.curseg t))
  let m₂ := updateSit g o m₁ (some newBlkaddr) true mtime
  let m₃ := updateSit g o m₂ oldBlkaddr false mtime
  let m₄ := if (m₃.curseg t).nextBlkoff < blocksPerSeg then some m₃
    else allocateSegmentByDefault g o m₃ e t false
  m₄.map fun m₄ =>
    (newBlkaddr,
      locateDirtySegment g (locateDirtySegment g m₄ (segnoOf oldBlkaddr)) (getSegno newBlkaddr))

/-- `f2fs_invalidate_blocks`, of an address that has a block. -/
def f2fsInvalidateBlocks (m : SegMan) (blk : ℕ) (mtime : BitVec 64) : SegMan :=
  locateDirtySegment g (updateSit g o m (some blk) false mtime) (getSegno blk)

/-- `__f2fs_get_curseg`. -/
def getCurseg (m : SegMan) (segno : ℕ) : Option CursegType :=
  CursegType.all.find? fun t => (m.curseg t).segno == segno

/-- The current segment that `f2fs_do_replace_block` takes. -/
def replaceType (m : SegMan) (oldNull : Bool) (segno : ℕ) (recoverCurseg : Bool) :
    Option CursegType :=
  let se := m.sit.sentries segno
  if recoverCurseg then
    if isCurseg m segno then getCurseg m segno else some .warmData
  else if se.validBlocks == 0 && !isCurseg m segno then
    some (if oldNull then .coldData else .warmData)
  else some se.type

/-- `f2fs_do_replace_block`, less the summary; `none` if a check fires.  `oldNull` is whether the
old address is `NULL_ADDR`. -/
def f2fsDoReplaceBlock (m : SegMan) (oldBlkaddr : Option ℕ) (oldNull : Bool) (newBlkaddr : ℕ)
    (recoverCurseg recoverNewaddr : Bool) (mtime : BitVec 64) : Option SegMan :=
  let segno := getSegno newBlkaddr
  (replaceType m oldNull segno recoverCurseg).bind fun t =>
    if t.isNode then none
    else
      let old := m.curseg t
      let m₁ := if segno = old.segno then m
        else changeCurseg g (m.setCurseg t { old with nextSegno := segno }) t
      let m₂ := m₁.setCurseg t { m₁.curseg t with nextBlkoff := getBlkoff newBlkaddr }
      let m₃ := if !recoverCurseg || recoverNewaddr then updateSit g o m₂ (some newBlkaddr) true mtime
        else m₂
      let m₄ := updateSit g o m₃ oldBlkaddr false mtime
      let m₅ := locateDirtySegment g (locateDirtySegment g
        (locateDirtySegment g m₄ (segnoOf oldBlkaddr)) segno) old.segno
      if recoverCurseg then
        let m₆ := if old.segno = (m₅.curseg t).segno then m₅
          else changeCurseg g (m₅.setCurseg t { m₅.curseg t with nextSegno := old.segno }) t
        some (m₆.setCurseg t { m₆.curseg t with nextBlkoff := old.nextBlkoff })
      else some m₅

/-! ## Checkpoints -/

/-- `set_prefree_as_free_segments`. -/
def setPrefreeAsFreeSegments (m : SegMan) : SegMan :=
  let x := ((List.range g.segmentCountMain).filter (m.dirtyI.dirtySegmap .pre)).foldl
    (fun x segno => setTestAndFree g.toGeometry x.1 x.2 segno) (m.nsbi, m.freeI)
  { m with nsbi := x.1, freeI := x.2 }

/-- A run of blocks. -/
structure BlkRange where
  start : ℕ
  len : ℕ
deriving DecidableEq

/-- The discards of whole sections among the segments `lo ≤ segno < hi`. -/
def sectionDiscards (m : SegMan) (lo hi : ℕ) : List BlkRange :=
  ((List.range' (lo / g.segsPerSec) ((hi - 1) / g.segsPerSec + 1 - lo / g.segsPerSec)).filter
    fun secno => !isCursec g m secno &&
      getValidBlocks g m (max lo (secno * g.segsPerSec)) true == 0).map
    fun secno => ⟨secno * g.segsPerSec * blocksPerSeg, g.segsPerSec * blocksPerSeg⟩

/-- The loop over the `PRE` map from segment `pos` on: the map, the segments that were taken off it
and the discards.  **Where whole sections are discarded the search goes on after the section.** -/
def clearPrefreeLoop (cpc : CpControl) (m : SegMan) :
    ℕ → ℕ → (ℕ → Bool) × ℕ × List BlkRange → (ℕ → Bool) × ℕ × List BlkRange
  | 0, _, x => x
  | k + 1, pos, x =>
      let start := findNextBit x.1 g.segmentCountMain pos
      if g.segmentCountMain ≤ start then x
      else
        let stop := findNextZeroBit x.1 g.segmentCountMain (start + 1)
        let pre := fun i => x.1 i && !(decide (start ≤ i) && decide (i < stop))
        let nr := x.2.1 + (stop - start)
        if !o.discard || (cpc.force && decide (cpc.trimStart ≤ start) && decide (stop - 1 ≤ cpc.trimEnd))
        then clearPrefreeLoop cpc m k (stop + 1) (pre, nr, x.2.2)
        else if !o.lfs || g.segsPerSec == 1 then
          clearPrefreeLoop cpc m k (stop + 1)
            (pre, nr, x.2.2 ++ [⟨start * blocksPerSeg, (stop - start) * blocksPerSeg⟩])
        else
          clearPrefreeLoop cpc m k (((stop - 1) / g.segsPerSec + 1) * g.segsPerSec)
            (pre, nr, x.2.2 ++ sectionDiscards g m start stop)

/-- The runs of candidates in an entry, from offset `pos` on. -/
def smallDiscards (cpc : CpControl) (e : DiscardEntry) : ℕ → ℕ → List BlkRange
  | 0, _ => []
  | k + 1, pos =>
      let start := findNextBit e.discardMap blocksPerSeg pos
      if blocksPerSeg ≤ start then []
      else
        let stop := findNextZeroBit e.discardMap blocksPerSeg start
        if cpc.force && decide (stop - start < cpc.trimMinlen) then smallDiscards cpc e k stop
        else ⟨e.segno * blocksPerSeg + start, stop - start⟩ :: smallDiscards cpc e k stop

/-- One block of a discard. -/
def discardBlk (s : SitInfo) (blk : ℕ) : SitInfo :=
  let se := s.sentries (getSegno blk)
  if se.discardMap (getBlkoff blk) then s
  else
    { s with
      sentries := Function.update s.sentries (getSegno blk)
        { se with discardMap := Function.update se.discardMap (getBlkoff blk) true }
      discardBlks := s.discardBlks - 1 }

/-- The part of `f2fs_issue_discard` that concerns the table. -/
def issueDiscard (s : SitInfo) (r : BlkRange) : SitInfo :=
  (List.range' r.start r.len).foldl discardBlk s

/-- `f2fs_clear_prefree_segments`: the state, and the discards that are issued. -/
def f2fsClearPrefreeSegments (m : SegMan) (cpc : CpControl) : SegMan × List BlkRange :=
  let x := clearPrefreeLoop g o cpc m (g.segmentCountMain + 1) 0 (m.dirtyI.dirtySegmap .pre, 0, [])
  let small := m.sit.discardEntries.flatMap fun e => smallDiscards cpc e blocksPerSeg 0
  let issued := x.2.2 ++ small
  let s := issued.foldl issueDiscard m.sit
  ({ m with
    dirtyI := { m.dirtyI with
      dirtySegmap := Function.update m.dirtyI.dirtySegmap .pre x.1
      nrDirty := Function.update m.dirtyI.nrDirty .pre (m.dirtyI.nrDirty .pre - x.2.1) }
    sit := { s with
      discardEntries := []
      nrDiscards := s.nrDiscards - (small.map BlkRange.len).sum } }, issued)

/-- A checkpoint: the flush and, if it was committed, `f2fs_clear_prefree_segments`; otherwise
`f2fs_release_discard_addrs`. -/
def checkpoint (m : SegMan) (cpc : CpControl) (committed : Bool) : SegMan × List BlkRange :=
  let m₁ := setPrefreeAsFreeSegments g { m with sit := f2fsFlushSitEntries g o m.sit cpc }
  if committed then f2fsClearPrefreeSegments g o m₁ cpc
  else ({ m₁ with sit := { m₁.sit with discardEntries := [] } }, [])

/-! ## What the functions do to the rest

Only `dirtyI` is touched by the functions on dirty segments, and only `sit` by those on blocks. -/

section

variable {g : SegGeometry} {o : Options}

lemma locateDirty_eq (m : SegMan) (segno : ℕ) (t : DirtyType) :
    locateDirty m segno t = { m with dirtyI := (locateDirty m segno t).dirtyI } := by
  unfold locateDirty
  split_ifs <;> rfl

lemma removeDirtySegment_eq (m : SegMan) (segno : ℕ) (t : DirtyType) :
    removeDirtySegment g m segno t
      = { m with dirtyI := (removeDirtySegment g m segno t).dirtyI } := by
  unfold removeDirtySegment
  split_ifs <;> rfl

lemma locateDirtySegment_eq (m : SegMan) (segno : ℕ) :
    locateDirtySegment g m segno = { m with dirtyI := (locateDirtySegment g m segno).dirtyI } := by
  unfold locateDirtySegment
  split_ifs with h
  · rfl
  · simp only []
    split_ifs
    · rw [removeDirtySegment_eq, locateDirty_eq]
    · exact locateDirty_eq m segno .dirty
    · exact removeDirtySegment_eq m segno .dirty

@[simp] lemma locateDirtySegment_sit (m : SegMan) (segno : ℕ) :
    (locateDirtySegment g m segno).sit = m.sit := by rw [locateDirtySegment_eq]

@[simp] lemma locateDirtySegment_curseg (m : SegMan) (segno : ℕ) :
    (locateDirtySegment g m segno).curseg = m.curseg := by rw [locateDirtySegment_eq]

@[simp] lemma locateDirtySegment_freeI (m : SegMan) (segno : ℕ) :
    (locateDirtySegment g m segno).freeI = m.freeI := by rw [locateDirtySegment_eq]

lemma initDirtySegment_eq (m : SegMan) (segno : ℕ) :
    initDirtySegment g m segno = { m with dirtyI := (initDirtySegment g m segno).dirtyI } := by
  simp only [initDirtySegment]
  split_ifs
  · rfl
  · exact locateDirty_eq m segno .dirty

lemma initDirtySegmap_eq (m : SegMan) :
    initDirtySegmap g m = { m with dirtyI := (initDirtySegmap g m).dirtyI } := by
  unfold initDirtySegmap
  generalize (List.range g.segmentCountMain).filter m.freeI.freeSegmap = segs
  induction segs generalizing m with
  | nil => rfl
  | cons x segs ih => rw [List.foldl_cons, ih, initDirtySegment_eq]

/-- A current segment that was just opened on segment `segno`. -/
def openedCurseg (g : SegGeometry) (segno nextBlkoff : ℕ) (allocType : AllocType) : CursegInfo :=
  ⟨segno, nextBlkoff, segno / g.segsPerSec / g.secsPerZone, nullSegno, allocType⟩

/-- **Everything `new_curseg` does.** -/
lemma newCurseg_spec {m m' : SegMan} {h : AllocHints} {t : CursegType} {newSec : Bool}
    (hnew : newCurseg g m h t newSec = some m') :
    ∃ segno, segno < g.segmentCountMain ∧ m.freeI.freeSegmap segno = false ∧
      m' = { sit := setSitEntryType m.sit t segno true
             nsbi := (setInuse g.toGeometry m.nsbi m.freeI segno).1
             freeI := (setInuse g.toGeometry m.nsbi m.freeI segno).2
             dirtyI := m.dirtyI
             curseg := Function.update m.curseg t (openedCurseg g segno 0 .lfs) } := by
  obtain ⟨hok, hmap⟩ := Option.ite_none_right_eq_some.mp hnew
  obtain ⟨⟨segno, nsbi', freeI'⟩, hget, rfl⟩ := Option.map_eq_some_iff.mp hmap
  obtain ⟨hlt, hfree, hset⟩ := getNewSegment_spec hok hget
  obtain ⟨rfl, rfl⟩ := Prod.mk.inj hset
  refine ⟨segno, hlt, hfree, ?_⟩
  simp [resetCurseg, SegMan.setCurseg, openedCurseg, setInuse]

/-- **Everything `change_curseg` does**, to the segment that it is told. -/
lemma changeCurseg_spec (m : SegMan) (t : CursegType) (v : ℕ) :
    changeCurseg g (m.setCurseg t { m.curseg t with nextSegno := v }) t
      = { sit := setSitEntryType m.sit t v true
          nsbi := m.nsbi
          freeI := setTestAndInuse g.toSecGeometry m.freeI v
          dirtyI := (removeDirtySegment g (removeDirtySegment g m v .pre) v .dirty).dirtyI
          curseg := Function.update m.curseg t (openedCurseg g v
            (findNextZeroBit (targetMap (m.sit.sentries v)) blocksPerSeg 0) .ssr) } := by
  have htarget : targetMap ((setSitEntryType m.sit t v true).sentries v)
      = targetMap (m.sit.sentries v) := by
    funext off
    simp only [setSitEntryType, markSitEntryDirty, if_true]
    split_ifs <;> simp [targetMap]
  simp [changeCurseg, resetCurseg, nextFreeBlkoff, SegMan.setCurseg, openedCurseg,
    removeDirtySegment, getValidBlocks, htarget]

/-- Which of the two a full current segment is replaced by. -/
lemma allocateSegmentByDefault_cases {m m' : SegMan} {e : AllocEnv} {t : CursegType} {force : Bool}
    (h : allocateSegmentByDefault g o m e t force = some m') :
    (∃ newSec, newCurseg g m e.hints t newSec = some m') ∨
      ∃ v, o.lfs = false ∧ SsrVictim g m v ∧
        m' = changeCurseg g (m.setCurseg t { m.curseg t with nextSegno := v }) t := by
  unfold allocateSegmentByDefault at h
  split_ifs at h with h1 h2 h3 hssr
  · exact Or.inl ⟨_, h⟩
  · exact Or.inl ⟨_, h⟩
  · exact Or.inl ⟨_, h⟩
  · cases hv : e.victim with
    | none =>
        rw [hv] at h
        exact Or.inl ⟨_, h⟩
    | some v =>
        rw [hv] at h
        obtain ⟨hvictim, hm⟩ := Option.ite_none_right_eq_some.mp h
        obtain rfl := Option.some.inj hm
        simp only [Bool.and_eq_true, Bool.not_eq_true'] at hssr
        exact Or.inr ⟨v, hssr.2, hvictim, rfl⟩
  · exact Or.inl ⟨_, h⟩

end

end Hoit.Segment
