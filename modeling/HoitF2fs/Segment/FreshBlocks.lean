import HoitF2fs.Segment.DirtyList
import HoitF2fs.Segment.SitFlush

/-!
# No block is handed out twice

The address that `f2fs_allocate_data_block` returns was computed when the block before it was handed
out.  In between blocks become invalid, checkpoints free segments, and other current segments move.

* `targetMap` — the blocks that must not be written: those that are valid, and those that were at
  the last checkpoint.  It only grows at the block that is handed out.
* `FreshInv` — the invariant.  **What a current segment may still hand out is clear in this map**
  (`CursegInfo.Pending`), and so is all of a free segment; an entry that is not dirty has the same
  map as at the last checkpoint.
* `FreshInv.handOut`, `FreshInv.newCurseg`, `FreshInv.changeCurseg`, `FreshInv.checkpoint` — the
  steps.
* `blocks_fresh_throughout` — runs.

A segment that is freed while it stays on the `PRE` list is freed again by the next checkpoint, even
if it has become a current segment; then two current segments share it (`block_handed_out_twice`).
-/

namespace Hoit.Segment

open Bitmap Transition

variable {g : SegGeometry} {o : Options} {cpc : CpControl} {s s' : SitInfo} {m m' : SegMan}
  {segno blk off : ℕ} {t : CursegType} {mtime : BitVec 64}

/-! ## The target maps -/

/-- No block must not be written that could be before. -/
def SparesMore (s s' : SitInfo) : Prop :=
  ∀ x off, targetMap (s.sentries x) off = false → targetMap (s'.sentries x) off = false

/-- An entry that is not dirty has the map of the last checkpoint. -/
def CleanKept (g : SegGeometry) (s : SitInfo) : Prop :=
  ∀ x < g.segmentCountMain, s.dirtySentriesBitmap x = false →
    (s.sentries x).ckptValidMap = (s.sentries x).curValidMap

lemma targetMap_updateSitEntry (s : SitInfo) (blk : ℕ) (validate : Bool) (mtime : BitVec 64)
    (x off : ℕ) :
    targetMap ((updateSitEntry g o s blk validate mtime).sentries x) off
      = if x = getSegno blk ∧ off = getBlkoff blk then
          validate || (s.sentries x).ckptValidMap off
        else targetMap (s.sentries x) off := by
  rw [updateSitEntry_sentries]
  by_cases hx : x = getSegno blk
  · subst hx
    rw [Function.update_self, targetMap_update]
    by_cases hoff : off = getBlkoff blk
    · subst hoff
      simp
    · simp [hoff]
  · simp [hx]

lemma sparesMore_invalidate (s : SitInfo) (blk : ℕ) (mtime : BitVec 64) :
    SparesMore s (updateSitEntry g o s blk false mtime) := by
  intro x off hclear
  rw [targetMap_updateSitEntry]
  split_ifs
  · simp only [targetMap, Bool.or_eq_false_iff] at hclear
    simp [hclear.1]
  · exact hclear

/-- Only the block that becomes valid is taken. -/
lemma targetMap_validate (s : SitInfo) {x : ℕ} (hclear : targetMap (s.sentries x) off = false)
    (hne : x = getSegno blk → off ≠ getBlkoff blk) :
    targetMap ((updateSitEntry g o s blk true mtime).sentries x) off = false := by
  rw [targetMap_updateSitEntry, if_neg fun h => hne h.1 h.2]
  exact hclear

lemma CleanKept.updateSitEntry (h : CleanKept g s) (blk : ℕ) (validate : Bool)
    (mtime : BitVec 64) : CleanKept g (updateSitEntry g o s blk validate mtime) := by
  intro x hx hclean
  have hbit : (Segment.updateSitEntry g o s blk validate mtime).dirtySentriesBitmap
      = Function.update s.dirtySentriesBitmap (getSegno blk) true := by
    simp [Segment.updateSitEntry]
  rw [hbit] at hclean
  have hne : x ≠ getSegno blk := by
    rintro rfl
    simp at hclean
  rw [Function.update_of_ne hne] at hclean
  rw [updateSitEntry_sentries, Function.update_of_ne hne]
  exact h x hx hclean

lemma CleanKept.setSitEntryType (h : CleanKept g s) (t : CursegType) (segno : ℕ) :
    CleanKept g (setSitEntryType s t segno true) := by
  intro x hx hclean
  have hbit : (Segment.setSitEntryType s t segno true).dirtySentriesBitmap
      = Function.update s.dirtySentriesBitmap segno true := by
    simp [Segment.setSitEntryType]
  rw [hbit] at hclean
  have hne : x ≠ segno := by
    rintro rfl
    simp at hclean
  rw [Function.update_of_ne hne] at hclean
  rw [setSitEntryType_sentries, Function.update_of_ne hne]
  exact h x hx hclean

lemma targetMap_setSitEntryType (s : SitInfo) (t : CursegType) (segno x off : ℕ) :
    targetMap ((setSitEntryType s t segno true).sentries x) off = targetMap (s.sentries x) off := by
  rw [setSitEntryType_sentries]
  by_cases hx : x = segno
  · subst hx
    simp [targetMap]
  · rw [Function.update_of_ne hx]

/-! ## Checkpoints and the maps -/

/-- The maps of valid blocks stay. -/
def SameMaps (s s' : SitInfo) : Prop :=
  ∀ x, (s'.sentries x).curValidMap = (s.sentries x).curValidMap ∧
    (s'.sentries x).ckptValidMap = (s.sentries x).ckptValidMap

lemma SameMaps.refl (s : SitInfo) : SameMaps s s := fun _ => ⟨rfl, rfl⟩

lemma SameMaps.trans {s'' : SitInfo} (h : SameMaps s s') (h' : SameMaps s' s'') : SameMaps s s'' :=
  fun x => ⟨(h' x).1.trans (h x).1, (h' x).2.trans (h x).2⟩

lemma discardBlk_sameMaps (s : SitInfo) (blk : ℕ) : SameMaps s (discardBlk s blk) := by
  intro x
  simp only [discardBlk]
  split_ifs
  · exact ⟨rfl, rfl⟩
  · by_cases hx : x = getSegno blk
    · subst hx
      simp
    · simp [hx]

lemma issueDiscard_sameMaps (s : SitInfo) (r : BlkRange) : SameMaps s (issueDiscard s r) := by
  unfold issueDiscard
  generalize List.range' r.start r.len = blks
  induction blks generalizing s with
  | nil => exact SameMaps.refl s
  | cons b blks ih => exact (discardBlk_sameMaps s b).trans (ih _)

lemma issueAll_sameMaps (issued : List BlkRange) (s : SitInfo) :
    SameMaps s (issued.foldl issueDiscard s) := by
  induction issued generalizing s with
  | nil => exact SameMaps.refl s
  | cons r issued ih => exact (issueDiscard_sameMaps s r).trans (ih _)

lemma checkpoint_sameMaps (m : SegMan) (cpc : CpControl) (committed : Bool) :
    SameMaps (f2fsFlushSitEntries g o m.sit cpc) (checkpoint g o m cpc committed).1.sit := by
  simp only [checkpoint]
  split_ifs
  · exact fun x => issueAll_sameMaps _ _ x
  · exact SameMaps.refl _

/-- **After a checkpoint the two maps are the same**, and the valid blocks are as before. -/
lemma checkpoint_maps (cpc : CpControl) (committed : Bool) (h : m.sit.Accounted g o)
    (hclean : CleanKept g m.sit) {x : ℕ} (hx : x < g.segmentCountMain) :
    ((checkpoint g o m cpc committed).1.sit.sentries x).curValidMap
        = (m.sit.sentries x).curValidMap ∧
      ((checkpoint g o m cpc committed).1.sit.sentries x).ckptValidMap
        = (m.sit.sentries x).curValidMap := by
  obtain ⟨hcur, hckpt⟩ := checkpoint_sameMaps (g := g) (o := o) m cpc committed x
  rw [hcur, hckpt]
  obtain ⟨-, hse | ⟨hbit, hse⟩⟩ := flush_clean o cpc h.dirty h.journal x hx
  · rw [hse]
    exact ⟨rfl, rfl⟩
  · rw [hse]
    exact ⟨rfl, hclean x hx hbit⟩

/-! ## The invariant -/

/-- The offsets that a current segment may still hand out. -/
def CursegInfo.Pending (c : CursegInfo) (off : ℕ) : Prop :=
  match c.allocType with
  | .lfs => c.nextBlkoff ≤ off
  | .ssr => off = c.nextBlkoff

structure FreshInv (g : SegGeometry) (o : Options) (m : SegMan) : Prop where
  sit : m.sit.Accounted g o
  dirty : DirtyInv g m
  inArea : ∀ t, (m.curseg t).segno < g.segmentCountMain
  distinct : ∀ t u, (m.curseg t).segno = (m.curseg u).segno → t = u
  /-- **What will be handed out is clear.** -/
  pending : ∀ t off, (m.curseg t).Pending off → off < blocksPerSeg →
    targetMap (m.sit.sentries (m.curseg t).segno) off = false
  free : ∀ s < g.segmentCountMain, m.freeI.freeSegmap s = false → ∀ off < blocksPerSeg,
    targetMap (m.sit.sentries s) off = false
  clean : CleanKept g m.sit

lemma CursegInfo.pending_next (c : CursegInfo) : c.Pending c.nextBlkoff := by
  unfold CursegInfo.Pending
  cases c.allocType with
  | lfs => exact le_rfl
  | ssr => rfl

/-- Once a block is handed out, what is pending is clear and is not that block. -/
lemma refreshNextBlkoff_pending {c : CursegInfo} (hc : c.nextBlkoff < blocksPerSeg)
    (hclear : ∀ off, c.Pending off → off < blocksPerSeg →
      targetMap (m.sit.sentries c.segno) off = false)
    (hoff : (refreshNextBlkoff m c).Pending off) (hlt : off < blocksPerSeg) :
    off ≠ c.nextBlkoff ∧ targetMap (m.sit.sentries c.segno) off = false := by
  cases ha : c.allocType with
  | lfs =>
      simp only [refreshNextBlkoff, CursegInfo.Pending, ha] at hoff
      refine ⟨by omega, hclear off ?_ hlt⟩
      simp only [CursegInfo.Pending, ha]
      omega
  | ssr =>
      simp only [refreshNextBlkoff, CursegInfo.Pending, ha, nextFreeBlkoff] at hoff
      subst hoff
      have hle : c.nextBlkoff + 1
          ≤ findNextZeroBit (targetMap (m.sit.sentries c.segno)) blocksPerSeg (c.nextBlkoff + 1) :=
        le_findNextZeroBit hc
      exact ⟨by omega, findNextZeroBit_clear hlt⟩

lemma refreshNextBlkoff_segno (m : SegMan) (c : CursegInfo) :
    (refreshNextBlkoff m c).segno = c.segno := by
  unfold refreshNextBlkoff
  split <;> rfl

lemma getSegno_nextFreeBlkaddr {c : CursegInfo} (hc : c.nextBlkoff < blocksPerSeg) :
    getSegno (nextFreeBlkaddr c) = c.segno ∧ getBlkoff (nextFreeBlkaddr c) = c.nextBlkoff := by
  unfold nextFreeBlkaddr getSegno getBlkoff
  constructor
  · rw [Nat.mul_comm, Nat.mul_add_div (by decide), Nat.div_eq_of_lt hc, Nat.add_zero]
  · rw [Nat.mul_comm, Nat.mul_add_mod, Nat.mod_eq_of_lt hc]

lemma nextFreeBlkaddr_lt (h : FreshInv g o m) (hroom : (m.curseg t).nextBlkoff < blocksPerSeg) :
    nextFreeBlkaddr (m.curseg t) < g.segmentCountMain * blocksPerSeg := by
  calc nextFreeBlkaddr (m.curseg t)
      < ((m.curseg t).segno + 1) * blocksPerSeg := by
        rw [nextFreeBlkaddr, Nat.add_mul, Nat.one_mul]
        exact Nat.add_lt_add_left hroom _
    _ ≤ g.segmentCountMain * blocksPerSeg := Nat.mul_le_mul_right _ (h.inArea t)

/-- **The next block is neither valid nor was it at the last checkpoint.** -/
lemma FreshInv.next_clear (h : FreshInv g o m) (hroom : (m.curseg t).nextBlkoff < blocksPerSeg) :
    targetMap (m.sit.sentries (getSegno (nextFreeBlkaddr (m.curseg t))))
      (getBlkoff (nextFreeBlkaddr (m.curseg t))) = false := by
  obtain ⟨hseg, hoff⟩ := getSegno_nextFreeBlkaddr hroom
  rw [hseg, hoff]
  exact h.pending t _ (CursegInfo.pending_next _) hroom

lemma isCurseg_self (m : SegMan) (t : CursegType) : isCurseg m (m.curseg t).segno = true := by
  simp only [isCurseg, List.any_eq_true, beq_iff_eq]
  exact ⟨t, by cases t <;> simp [CursegType.all], rfl⟩

/-- A segment with a valid block is in use. -/
lemma FreshInv.used (h : FreshInv g o m) (hblk : blk < g.segmentCountMain * blocksPerSeg)
    (hvalid : isValid m.sit blk = true) : m.freeI.freeSegmap (getSegno blk) = true := by
  by_contra hfree
  have hclear := h.free _ (getSegno_lt hblk) (by simpa using hfree) _ (getBlkoff_lt blk)
  simp only [targetMap, Bool.or_eq_false_iff] at hclear
  rw [isValid] at hvalid
  simp [hvalid] at hclear

/-! ## Steps -/

/-- The next block of a current segment is handed out and becomes valid. -/
lemma FreshInv.handOut (h : FreshInv g o m) (hroom : (m.curseg t).nextBlkoff < blocksPerSeg) :
    FreshInv g o (updateSit g o (m.setCurseg t (refreshNextBlkoff m (m.curseg t)))
      (some (nextFreeBlkaddr (m.curseg t))) true mtime) := by
  obtain ⟨hseg, hoff⟩ := getSegno_nextFreeBlkaddr hroom
  have hsegno : ∀ u, ((m.setCurseg t (refreshNextBlkoff m (m.curseg t))).curseg u).segno
      = (m.curseg u).segno := by
    intro u
    by_cases hu : u = t
    · subst hu
      rw [SegMan.setCurseg_self, refreshNextBlkoff_segno]
    · rw [SegMan.setCurseg_of_ne _ hu]
  have hnext : isValid m.sit (nextFreeBlkaddr (m.curseg t)) = false := by
    have hclear := h.next_clear hroom
    simp only [targetMap, Bool.or_eq_false_iff] at hclear
    exact hclear.2
  have hmoved : DirtyInv g (m.setCurseg t (refreshNextBlkoff m (m.curseg t))) :=
    h.dirty.congr rfl (fun _ => rfl) hsegno (fun _ => rfl) fun s hs => (h.dirty.prefree s hs).1
  have hself := isCurseg_self (m.setCurseg t (refreshNextBlkoff m (m.curseg t))) t
  rw [hsegno, ← hseg] at hself
  exact
    { sit := h.sit.updateSitEntry (nextFreeBlkaddr_lt h hroom) hnext
      dirty := hmoved.updateSitEntry fun _ => hself
      inArea := fun u => (hsegno u).trans_lt (h.inArea u)
      distinct := fun u v huv => h.distinct u v (by
        rw [← hsegno u, ← hsegno v]
        exact huv)
      pending := by
        intro u off hp hlt
        change targetMap ((updateSitEntry g o m.sit _ true mtime).sentries _) off = false
        simp only [updateSit, hsegno] at hp ⊢
        by_cases hu : u = t
        · subst hu
          rw [SegMan.setCurseg_self] at hp
          obtain ⟨hne, hclear⟩ := refreshNextBlkoff_pending hroom (h.pending u) hp hlt
          exact targetMap_validate m.sit hclear fun _ => by rwa [hoff]
        · rw [SegMan.setCurseg_of_ne _ hu] at hp
          refine targetMap_validate m.sit (h.pending u off hp hlt) fun heq => ?_
          exact absurd (h.distinct u t (heq.trans hseg)) hu
      free := by
        intro x hx hfree off hlt
        refine targetMap_validate m.sit (h.free x hx hfree off hlt) fun heq => ?_
        -- The current segment is in use.
        have hcur := h.dirty.current t
        rw [← hseg, ← heq] at hcur
        change m.freeI.freeSegmap x = false at hfree
        simp [hfree] at hcur
      clean := h.clean.updateSitEntry _ _ _ }

/-- A valid block becomes invalid. -/
lemma FreshInv.dropBlock (h : FreshInv g o m) (hblk : blk < g.segmentCountMain * blocksPerSeg)
    (hvalid : isValid m.sit blk = true) :
    FreshInv g o (updateSit g o m (some blk) false mtime) where
  sit := h.sit.updateSitEntry hblk hvalid
  dirty := h.dirty.updateSitEntry (by simp)
  inArea := h.inArea
  distinct := h.distinct
  pending := fun t off hp hlt => sparesMore_invalidate m.sit blk mtime _ _ (h.pending t off hp hlt)
  free := fun x hx hfree off hlt =>
    sparesMore_invalidate m.sit blk mtime _ _ (h.free x hx hfree off hlt)
  clean := h.clean.updateSitEntry _ _ _

lemma FreshInv.locate (h : FreshInv g o m)
    (hseg : segno ≠ nullSegno → segno < g.segmentCountMain ∧ m.freeI.freeSegmap segno = true) :
    FreshInv g o (locateDirtySegment g m segno) := by
  have hdirty := h.dirty.locateDirtySegment hseg
  rw [locateDirtySegment_eq] at hdirty ⊢
  exact ⟨h.sit, hdirty, h.inArea, h.distinct, h.pending, h.free, h.clean⟩

/-- **A segment becomes current** whose pending blocks are clear and that no other current segment
has. -/
lemma FreshInv.opened {c : CursegInfo} {nsbi : NvmSbInfo} {freeI : FreeSegmapInfo}
    {d : DirtySeglist} (h : FreshInv g o m) (hlt : c.segno < g.segmentCountMain)
    (hnot : ∀ u, u ≠ t → (m.curseg u).segno ≠ c.segno)
    (hclear : ∀ off, c.Pending off → off < blocksPerSeg →
      targetMap (m.sit.sentries c.segno) off = false)
    (hfree : freeI.freeSegmap = Function.update m.freeI.freeSegmap c.segno true)
    (hdirty : DirtyInv g
      { sit := setSitEntryType m.sit t c.segno true
        nsbi
        freeI
        dirtyI := d
        curseg := Function.update m.curseg t c }) :
    FreshInv g o
      { sit := setSitEntryType m.sit t c.segno true
        nsbi
        freeI
        dirtyI := d
        curseg := Function.update m.curseg t c } where
  sit := h.sit.setSitEntryType hlt t
  dirty := hdirty
  inArea := by
    intro u
    by_cases hu : u = t
    · simpa [hu] using hlt
    · simpa [hu] using h.inArea u
  distinct := by
    intro u v huv
    by_cases hu : u = t <;> by_cases hv : v = t
    · exact hu.trans hv.symm
    · simp only [hu, Function.update_self, Function.update_of_ne hv] at huv
      exact absurd huv.symm (hnot v hv)
    · simp only [hv, Function.update_self, Function.update_of_ne hu] at huv
      exact absurd huv (hnot u hu)
    · simp only [Function.update_of_ne hu, Function.update_of_ne hv] at huv
      exact h.distinct u v huv
  pending := by
    intro u off hp hoff
    rw [targetMap_setSitEntryType]
    by_cases hu : u = t
    · simp only [hu, Function.update_self] at hp ⊢
      exact hclear off hp hoff
    · simp only [Function.update_of_ne hu] at hp ⊢
      exact h.pending u off hp hoff
  free := by
    intro x hx hxfree off hoff
    rw [targetMap_setSitEntryType]
    have hne : x ≠ c.segno := by
      rintro rfl
      simp [hfree] at hxfree
    simp only [hfree, Function.update_of_ne hne] at hxfree
    exact h.free x hx hxfree off hoff
  clean := h.clean.setSitEntryType t c.segno

lemma FreshInv.newCurseg {hints : AllocHints} {newSec : Bool} (h : FreshInv g o m)
    (hnew : newCurseg g m hints t newSec = some m') : FreshInv g o m' := by
  have hdirty := h.dirty.newCurseg hnew
  obtain ⟨segno, hlt, hfree, rfl⟩ := newCurseg_spec hnew
  refine h.opened (c := openedCurseg g segno 0 .lfs) hlt (fun u _ heq => ?_)
    (fun off _ hoff => h.free segno hlt hfree off hoff) rfl hdirty
  have hcur := h.dirty.current u
  rw [heq] at hcur
  change m.freeI.freeSegmap segno = true at hcur
  simp [hfree] at hcur

/-- The victim of SSR is on a list, so it is not current. -/
lemma SsrVictim.notCurrent {v : ℕ} (h : DirtyInv g m) (hv : SsrVictim g m v) (u : CursegType) :
    (m.curseg u).segno ≠ v := by
  obtain ⟨-, ⟨t, -, ht⟩, -⟩ := hv
  rw [h.types] at ht
  simp only [Bool.and_eq_true] at ht
  have hnot := (h.used v (Or.inr ht.1)).2.2
  rintro rfl
  simp [isCurseg_self] at hnot

lemma FreshInv.changeCurseg {v : ℕ} (h : FreshInv g o m) (hv : SsrVictim g m v) :
    FreshInv g o (changeCurseg g (m.setCurseg t { m.curseg t with nextSegno := v }) t) := by
  have hdirty := h.dirty.changeCurseg (t := t) hv.1
  rw [changeCurseg_spec] at hdirty ⊢
  refine h.opened (c := openedCurseg g v _ .ssr) hv.1 (fun u _ => hv.notCurrent h.dirty u) ?_
    (setTestAndInuse_freeSegmap _ _ _) hdirty
  rintro off rfl hoff
  exact findNextZeroBit_clear hoff

lemma FreshInv.checkpoint {committed : Bool} (h : FreshInv g o m)
    (htrim : cpc.force = true → cpc.trimEnd < g.segmentCountMain)
    (hclear : ClearsPrefree g o m cpc committed) :
    FreshInv g o (checkpoint g o m cpc committed).1 := by
  have hmaps : ∀ x < g.segmentCountMain, ∀ off,
      targetMap ((Segment.checkpoint g o m cpc committed).1.sit.sentries x) off
        = (m.sit.sentries x).curValidMap off := by
    intro x hx off
    obtain ⟨hcur, hckpt⟩ := checkpoint_maps cpc committed h.sit h.clean hx
    rw [targetMap, hcur, hckpt, Bool.or_self]
  have hspares : ∀ x < g.segmentCountMain, ∀ off, targetMap (m.sit.sentries x) off = false →
      targetMap ((Segment.checkpoint g o m cpc committed).1.sit.sentries x) off = false := by
    intro x hx off hc
    rw [hmaps x hx]
    simp only [targetMap, Bool.or_eq_false_iff] at hc
    exact hc.2
  refine ⟨?_, h.dirty.checkpoint hclear, ?_, ?_, ?_, ?_, ?_⟩
  · exact h.sit.checkpoint htrim
  · simpa using h.inArea
  · simpa using h.distinct
  · intro t off hp hlt
    rw [checkpoint_curseg] at hp ⊢
    exact hspares _ (h.inArea t) off (h.pending t off hp hlt)
  · intro x hx hfree off hlt
    rw [checkpoint_freeSegmap, Bool.and_eq_false_iff] at hfree
    rcases hfree with hfree | hpre
    · exact hspares x hx off (h.free x hx hfree off hlt)
    · -- It has just been freed: it has no valid block.
      simp only [hx, decide_true, Bool.and_true, Bool.not_eq_false'] at hpre
      have hzero := (h.dirty.prefree x hpre).1
      rw [(h.sit.entries x hx).valid] at hzero
      rw [hmaps x hx]
      exact setBits_eq_zero.mp hzero off hlt
  · intro x hx _
    obtain ⟨hcur, hckpt⟩ := checkpoint_maps cpc committed h.sit h.clean hx
    rw [hcur, hckpt]

/-! ## Runs -/

/-- The calls that hand out blocks and take them back, and checkpoints. -/
inductive BlockStep where
  | allocate (e : AllocEnv) (t : CursegType) (old : Option ℕ) (mtime : BitVec 64)
  | invalidate (blk : ℕ) (mtime : BitVec 64)
  | checkpoint (cpc : CpControl) (committed : Bool)

def blockStep (g : SegGeometry) (o : Options) (m : SegMan) : BlockStep → Option SegMan
  | .allocate e t old mtime => (f2fsAllocateDataBlock g o m e t old mtime).map Prod.snd
  | .invalidate blk mtime => some (f2fsInvalidateBlocks g o m blk mtime)
  | .checkpoint cpc committed => some (checkpoint g o m cpc committed).1

/-- **Callers give up valid blocks.**  `fstrim` names segments of the area. -/
def BlockCallersRight (g : SegGeometry) (m : SegMan) : BlockStep → Prop
  | .allocate _ _ old _ => ∀ b ∈ old, b < g.segmentCountMain * blocksPerSeg ∧
      isValid m.sit b = true
  | .invalidate blk _ => blk < g.segmentCountMain * blocksPerSeg ∧ isValid m.sit blk = true
  | .checkpoint cpc _ => cpc.force = true → cpc.trimEnd < g.segmentCountMain

instance (m : SegMan) : ∀ a : BlockStep, Decidable (BlockCallersRight g m a)
  | .allocate .. => inferInstanceAs (Decidable (∀ b ∈ _, _))
  | .invalidate .. => inferInstanceAs (Decidable (_ ∧ _))
  | .checkpoint .. => inferInstanceAs (Decidable (_ → _))

/-- Each checkpoint takes everything that it frees off the `PRE` list. -/
def BlockPrefreeCleared (g : SegGeometry) (o : Options) (m : SegMan) : BlockStep → Prop
  | .checkpoint cpc committed => ClearsPrefree g o m cpc committed
  | _ => True

instance (m : SegMan) : ∀ a : BlockStep, Decidable (BlockPrefreeCleared g o m a)
  | .checkpoint cpc committed => inferInstanceAs (Decidable (ClearsPrefree g o m cpc committed))
  | .allocate .. => inferInstanceAs (Decidable True)
  | .invalidate .. => inferInstanceAs (Decidable True)

/-- Whether a block was valid at the last checkpoint. -/
def isCkptValid (s : SitInfo) (blk : ℕ) : Bool :=
  (s.sentries (getSegno blk)).ckptValidMap (getBlkoff blk)

/-- **Whatever `f2fs_allocate_data_block` may return here is free to be written**, and no two current
segments would return the same address. -/
structure HandsOutFresh (g : SegGeometry) (o : Options) (m : SegMan) : Prop where
  fresh : ∀ e t old mtime blk m', f2fsAllocateDataBlock g o m e t old mtime = some (blk, m') →
    isValid m.sit blk = false ∧ isCkptValid m.sit blk = false
  distinct : ∀ e t old mtime e' t' old' mtime' blk m₁ m₂,
    f2fsAllocateDataBlock g o m e t old mtime = some (blk, m₁) →
    f2fsAllocateDataBlock g o m e' t' old' mtime' = some (blk, m₂) → t = t'

/-- The invariant between calls: there is room as well. -/
structure FreshRoom (g : SegGeometry) (o : Options) (m : SegMan) : Prop extends FreshInv g o m where
  room : ∀ t, (m.curseg t).nextBlkoff < blocksPerSeg

lemma allocate_blk {e : AllocEnv} {old : Option ℕ}
    (h : f2fsAllocateDataBlock g o m e t old mtime = some (blk, m')) :
    blk = nextFreeBlkaddr (m.curseg t) := by
  simp only [f2fsAllocateDataBlock] at h
  obtain ⟨m₄, -, heq⟩ := Option.map_eq_some_iff.mp h
  exact (Prod.mk.inj heq).1.symm

lemma FreshRoom.handsOutFresh (h : FreshRoom g o m) : HandsOutFresh g o m where
  fresh := by
    intro e t old mtime blk m' hstep
    have hclear := h.next_clear (h.room t)
    rw [← allocate_blk hstep] at hclear
    simp only [targetMap, Bool.or_eq_false_iff] at hclear
    exact ⟨hclear.2, hclear.1⟩
  distinct := by
    intro e t old mtime e' t' old' mtime' blk m₁ m₂ h₁ h₂
    have heq := (allocate_blk h₁).symm.trans (allocate_blk h₂)
    have hseg := congrArg getSegno heq
    rw [(getSegno_nextFreeBlkaddr (h.room t)).1, (getSegno_nextFreeBlkaddr (h.room t')).1] at hseg
    exact h.distinct t t' hseg

/-- A full current segment is replaced; the others have room. -/
lemma FreshInv.allocateSegment {e : AllocEnv} {force : Bool} (h : FreshInv g o m)
    (hroom : ∀ u, u ≠ t → (m.curseg u).nextBlkoff < blocksPerSeg)
    (halloc : allocateSegmentByDefault g o m e t force = some m') :
    FreshRoom g o m' ∧ ∀ s, m.freeI.freeSegmap s = true → m'.freeI.freeSegmap s = true := by
  have hkeeps : ∀ (map : ℕ → Bool) (v s : ℕ), map s = true →
      Function.update map v true s = true := by
    intro map v s hs
    by_cases hsv : s = v
    · simp [hsv]
    · simp [hsv, hs]
  have hothers : ∀ c : CursegInfo, c.nextBlkoff < blocksPerSeg →
      ∀ u, (Function.update m.curseg t c u).nextBlkoff < blocksPerSeg := by
    intro c hc u
    by_cases hu : u = t
    · simpa [hu] using hc
    · simpa [hu] using hroom u hu
  rcases allocateSegmentByDefault_cases halloc with ⟨newSec, hnew⟩ | ⟨v, -, hv, rfl⟩
  · have hfresh := h.newCurseg hnew
    obtain ⟨segno, -, -, rfl⟩ := newCurseg_spec hnew
    exact ⟨⟨hfresh, hothers _ (show 0 < blocksPerSeg by decide)⟩, fun s hs => hkeeps _ _ s hs⟩
  · have hfresh := h.changeCurseg (t := t) hv
    rw [changeCurseg_spec] at hfresh ⊢
    refine ⟨⟨hfresh, hothers _ (hv.hole h.sit.toSitOk)⟩, fun s hs => ?_⟩
    simp only [setTestAndInuse_freeSegmap]
    exact hkeeps _ _ s hs

lemma FreshRoom.locate (h : FreshRoom g o m)
    (hseg : segno ≠ nullSegno → segno < g.segmentCountMain ∧ m.freeI.freeSegmap segno = true) :
    FreshRoom g o (locateDirtySegment g m segno) :=
  ⟨h.toFreshInv.locate hseg, by simpa using h.room⟩

lemma FreshRoom.allocate {e : AllocEnv} {old : Option ℕ} (h : FreshRoom g o m)
    (hold : ∀ b ∈ old, b < g.segmentCountMain * blocksPerSeg ∧ isValid m.sit b = true)
    (hstep : f2fsAllocateDataBlock g o m e t old mtime = some (blk, m')) : FreshRoom g o m' := by
  have hblk := nextFreeBlkaddr_lt h.toFreshInv (h.room t)
  obtain ⟨hseg, -⟩ := getSegno_nextFreeBlkaddr (h.room t)
  simp only [f2fsAllocateDataBlock] at hstep
  obtain ⟨m₄, hm₄, heq⟩ := Option.map_eq_some_iff.mp hstep
  obtain ⟨-, rfl⟩ := Prod.mk.inj heq
  -- The new block is valid and the old one is not.
  set m₂ := updateSit g o (m.setCurseg t (refreshNextBlkoff m (m.curseg t)))
    (some (nextFreeBlkaddr (m.curseg t))) true mtime with hm₂
  set m₃ := updateSit g o m₂ old false mtime with hm₃
  have h₂ : FreshInv g o m₂ := h.handOut (h.room t)
  have hfree₃ : m₃.freeI = m.freeI := by
    rw [hm₃]
    cases old <;> rfl
  have hcur₃ : ∀ u, u ≠ t → m₃.curseg u = m.curseg u := by
    intro u hu
    rw [hm₃, updateSit_curseg, hm₂, updateSit_curseg, SegMan.setCurseg_of_ne _ hu]
  have h₃ : FreshInv g o m₃ := by
    rw [hm₃]
    cases old with
    | none => exact h₂
    | some b =>
        refine h₂.dropBlock (hold b rfl).1 ?_
        change isValid (updateSitEntry g o m.sit _ true mtime) b = true
        rw [isValid_updateSitEntry]
        split_ifs
        · rfl
        · exact (hold b rfl).2
  have h₄ : FreshRoom g o m₄ ∧ ∀ s, m₃.freeI.freeSegmap s = true → m₄.freeI.freeSegmap s = true := by
    split_ifs at hm₄ with hspace
    · obtain rfl := Option.some.inj hm₄
      refine ⟨⟨h₃, fun u => ?_⟩, fun _ hs => hs⟩
      by_cases hu : u = t
      · exact hu ▸ hspace
      · rw [hcur₃ u hu]
        exact h.room u
    · refine h₃.allocateSegment (fun u hu => ?_) hm₄
      rw [hcur₃ u hu]
      exact h.room u
  obtain ⟨h₄, hfree₄⟩ := h₄
  rw [hfree₃] at hfree₄
  -- Both segments are in use.
  refine FreshRoom.locate (h₄.locate fun hnull => ?_) fun _ => ⟨getSegno_lt hblk, ?_⟩
  · cases old with
    | none => exact absurd rfl hnull
    | some b => exact ⟨getSegno_lt (hold b rfl).1,
        hfree₄ _ (h.used (hold b rfl).1 (hold b rfl).2)⟩
  · rw [locateDirtySegment_freeI, hseg]
    exact hfree₄ _ (h.dirty.current t)

lemma FreshRoom.step {a : BlockStep} (h : FreshRoom g o m) (hright : BlockCallersRight g m a)
    (hclear : BlockPrefreeCleared g o m a) (hstep : blockStep g o m a = some m') :
    FreshRoom g o m' := by
  cases a with
  | allocate e t old mtime =>
      obtain ⟨⟨blk, m₁⟩, hm₁, rfl⟩ := Option.map_eq_some_iff.mp hstep
      exact h.allocate hright hm₁
  | invalidate blk mtime =>
      obtain rfl := Option.some.inj hstep
      obtain ⟨hblk, hvalid⟩ := hright
      have hdrop : FreshRoom g o (updateSit g o m (some blk) false mtime) :=
        ⟨h.dropBlock hblk hvalid, h.room⟩
      exact hdrop.locate fun _ => ⟨getSegno_lt hblk, h.used hblk hvalid⟩
  | checkpoint cpc committed =>
      obtain rfl := Option.some.inj hstep
      exact ⟨h.toFreshInv.checkpoint hright hclear, by simpa using h.room⟩

/-- **No block is handed out twice**, in every run in which each checkpoint takes everything that it
frees off the `PRE` list. -/
theorem blocks_fresh_throughout {steps : List BlockStep} (h : FreshRoom g o m)
    (hright : StepsMeet (blockStep g o)
      (fun m a => BlockCallersRight g m a ∧ BlockPrefreeCleared g o m a) m steps) :
    Throughout (blockStep g o) (HandsOutFresh g o) m steps :=
  (throughout_of_stepsMeet (fun _ _ _ hs hg hstep => hs.step hg.1 hg.2 hstep) h hright).mono
    fun _ hs => hs.handsOutFresh

/-! ## A mounted file system -/

lemma targetMap_packedEntry (type : CursegType) (n off : ℕ) :
    targetMap (packedEntry type n) off = decide (off < n) := by
  simp [targetMap, packedEntry]

lemma crowded_pending (t : CursegType) :
    (crowdedCurseg t).allocType = .lfs ∧
      crowdedCnt (crowdedCurseg t).segno ≤ (crowdedCurseg t).nextBlkoff := by
  cases t <;> decide

lemma crowded_eq : crowded = { crowded with
    sit := packedSit threeSections (fun _ => .warmData) crowdedCnt
    curseg := crowdedCurseg } := by
  rw [crowded, mountedMan, initDirtySegmap_eq]

lemma crowded_freshRoom : FreshRoom threeSections o crowded where
  sit := crowded_accounted.sit
  dirty := crowded_dirtyInv
  inArea := fun t => (crowded_accounted (o := o).curseg t).1
  distinct := by
    rw [crowded_eq]
    intro t u
    cases t <;> cases u <;> decide
  pending := by
    rw [crowded_eq]
    intro t off hp hlt
    obtain ⟨halloc, hcnt⟩ := crowded_pending t
    simp only [CursegInfo.Pending, halloc] at hp
    change targetMap (packedEntry _ (crowdedCnt (crowdedCurseg t).segno)) off = false
    rw [targetMap_packedEntry, decide_eq_false_iff_not]
    omega
  free := by
    have hcnt : ∀ s < threeSections.segmentCountMain, crowded.freeI.freeSegmap s = false →
        crowdedCnt s = 0 := by decide +kernel
    intro s hs hfree off hlt
    rw [crowded_eq]
    change targetMap (packedEntry _ (crowdedCnt s)) off = false
    rw [targetMap_packedEntry, hcnt s hs hfree]
    rfl
  clean := by
    rw [crowded_eq]
    exact fun x _ _ => rfl
  room := fun t => (crowded_accounted (o := o).curseg t).2

/-- Segments 0 and 3 are emptied; segment 3 is taken again and gets a block; the segment of the hot
data is full. -/
def reusedCalls : List BlockStep :=
  [.invalidate 0 7, .invalidate (3 * 512) 7, .checkpoint plainCp true,
    .allocate plainEnv .warmData none 8, .allocate plainEnv .warmData none 8,
    .checkpoint plainCp true, .allocate plainEnv .hotData none 9]

theorem blocks_fresh_reusedCalls :
    ∃ m, exec (blockStep threeSections ⟨false, false, true⟩) crowded reusedCalls = some m ∧
      HandsOutFresh threeSections ⟨false, false, true⟩ m := by
  have hsome : (exec (blockStep threeSections ⟨false, false, true⟩) crowded reusedCalls).isSome
      = true := by decide +kernel
  obtain ⟨m, hm⟩ := Option.isSome_iff_exists.mp hsome
  have hright : StepsMeet (blockStep threeSections ⟨false, false, true⟩)
      (fun m a => BlockCallersRight threeSections m a ∧
        BlockPrefreeCleared threeSections ⟨false, false, true⟩ m a) crowded reusedCalls := by
    decide +kernel
  exact ⟨m, hm, (blocks_fresh_throughout crowded_freshRoom hright).last hm⟩

/-- **Where whole sections are discarded, segment 3 is freed again while it is current**; the hot data
take it as well, and the block that the warm data have written is handed out again. -/
theorem block_handed_out_twice :
    StepsMeet (blockStep threeSections ⟨true, true, true⟩) (BlockCallersRight threeSections) crowded
        reusedCalls ∧
      ∃ m m', exec (blockStep threeSections ⟨true, true, true⟩) crowded reusedCalls = some m ∧
        f2fsAllocateDataBlock threeSections ⟨true, true, true⟩ m plainEnv .hotData none 9
          = some (3 * 512, m') ∧
        isValid m.sit (3 * 512) = true ∧ ¬HandsOutFresh threeSections ⟨true, true, true⟩ m := by
  have hright : StepsMeet (blockStep threeSections ⟨true, true, true⟩)
      (BlockCallersRight threeSections) crowded reusedCalls := by decide +kernel
  have hbad : ((exec (blockStep threeSections ⟨true, true, true⟩) crowded reusedCalls).map fun m =>
      ((f2fsAllocateDataBlock threeSections ⟨true, true, true⟩ m plainEnv .hotData none 9).map
        Prod.fst, isValid m.sit (3 * 512))) = some (some (3 * 512), true) := by
    decide +kernel
  obtain ⟨m, hm, hpair⟩ := Option.map_eq_some_iff.mp hbad
  obtain ⟨halloc, hvalid⟩ := Prod.mk.inj hpair
  obtain ⟨⟨blk, m'⟩, hm', rfl⟩ := Option.map_eq_some_iff.mp halloc
  refine ⟨hright, m, m', hm, hm', hvalid, fun h => ?_⟩
  have hfresh := (h.fresh _ _ _ _ _ _ hm').1
  rw [hvalid] at hfresh
  exact absurd hfresh (by decide)

end Hoit.Segment
