import HoitF2fs.Segment.Prefree

/-!
# The counters of the segment information table

Six numbers are kept beside the maps of the table: the valid blocks of a segment, now and together
with those of the last checkpoint, the valid blocks of a section and of the whole area, the dirty
entries, and the blocks that could be discarded.

* `SitOk` — **each of them counts what it is the count of.**
* `SegEntry.Counted.update`, `SitOk.updateSitEntry` — one block becomes valid or invalid.  Here the
  caller has to be right: a block that becomes valid was invalid, and the other way round.
* `flush_induction` — the rule for `f2fs_flush_sit_entries`.
* `SitOk.f2fsFlushSitEntries`, `SitOk.issueDiscard` — a checkpoint.

The sums range over the segments of the main area, so whatever names a segment has to name one of
them: the journal and the lists of discard candidates (`SitInfo.InArea`).
-/

namespace Hoit.Segment

open Bitmap

variable {g : SegGeometry} {o : Options}

/-! ## The invariant -/

/-- The two counters of an entry. -/
structure SegEntry.Counted (se : SegEntry) : Prop where
  valid : se.validBlocks = setBits se.curValidMap blocksPerSeg
  /-- Blocks that are valid or were so at the last checkpoint. -/
  ckpt : se.ckptValidBlocks = setBits (targetMap se) blocksPerSeg

structure SitOk (g : SegGeometry) (o : Options) (s : SitInfo) : Prop where
  entries : ∀ segno < g.segmentCountMain, (s.sentries segno).Counted
  written : s.writtenValidBlocks
    = ∑ segno ∈ Finset.range g.segmentCountMain, (s.sentries segno).validBlocks
  sections : 1 < g.segsPerSec → ∀ sec < g.mainSecs, s.secValidBlocks sec
    = ∑ segno ∈ (Finset.range g.segmentCountMain).filter (fun segno => segno / g.segsPerSec = sec),
        (s.sentries segno).validBlocks
  dirty : s.dirtySentries = setBits s.dirtySentriesBitmap g.segmentCountMain
  discard : o.discardEn = true → s.discardBlks
    = ∑ segno ∈ Finset.range g.segmentCountMain,
        zeroBits (s.sentries segno).discardMap blocksPerSeg

variable {s s' : SitInfo} {segno blk : ℕ} {se : SegEntry}

/-- Only what is counted matters. -/
lemma SitOk.congr (h : SitOk g o s) (hse : ∀ x < g.segmentCountMain,
      (s'.sentries x).validBlocks = (s.sentries x).validBlocks ∧
      (s'.sentries x).discardMap = (s.sentries x).discardMap ∧ (s'.sentries x).Counted)
    (hwritten : s'.writtenValidBlocks = s.writtenValidBlocks)
    (hsec : s'.secValidBlocks = s.secValidBlocks)
    (hdirty : s'.dirtySentries = setBits s'.dirtySentriesBitmap g.segmentCountMain)
    (hdiscard : s'.discardBlks = s.discardBlks) : SitOk g o s' where
  entries := fun x hx => (hse x hx).2.2
  written := by
    rw [hwritten, h.written]
    exact Finset.sum_congr rfl fun x hx => (hse x (Finset.mem_range.mp hx)).1.symm
  sections := by
    intro hone sec hsec'
    rw [hsec, h.sections hone sec hsec']
    exact Finset.sum_congr rfl fun x hx =>
      (hse x (Finset.mem_range.mp (Finset.mem_filter.mp hx).1)).1.symm
  dirty := hdirty
  discard := by
    intro hen
    rw [hdiscard, h.discard hen]
    exact Finset.sum_congr rfl fun x hx => by rw [(hse x (Finset.mem_range.mp hx)).2.1]

/-! ## Dirty entries -/

/-- Marking an entry dirty touches nothing but the map of dirty entries and its count. -/
lemma markSitEntryDirty_eq (s : SitInfo) (segno : ℕ) :
    markSitEntryDirty s segno
      = { s with
          dirtySentriesBitmap := Function.update s.dirtySentriesBitmap segno true
          dirtySentries := (markSitEntryDirty s segno).dirtySentries } := by
  unfold markSitEntryDirty
  split_ifs with hb
  · rw [← hb, Function.update_eq_self]
  · rfl

section

variable (s : SitInfo) (segno : ℕ)

@[simp] lemma markSitEntryDirty_bitmap : (markSitEntryDirty s segno).dirtySentriesBitmap
    = Function.update s.dirtySentriesBitmap segno true := by rw [markSitEntryDirty_eq]

@[simp] lemma markSitEntryDirty_sentries :
    (markSitEntryDirty s segno).sentries = s.sentries := by rw [markSitEntryDirty_eq]

@[simp] lemma markSitEntryDirty_writtenValidBlocks :
    (markSitEntryDirty s segno).writtenValidBlocks = s.writtenValidBlocks := by rw [markSitEntryDirty_eq]

@[simp] lemma markSitEntryDirty_secValidBlocks :
    (markSitEntryDirty s segno).secValidBlocks = s.secValidBlocks := by rw [markSitEntryDirty_eq]

@[simp] lemma markSitEntryDirty_discardBlks :
    (markSitEntryDirty s segno).discardBlks = s.discardBlks := by rw [markSitEntryDirty_eq]

@[simp] lemma markSitEntryDirty_journal :
    (markSitEntryDirty s segno).journal = s.journal := by rw [markSitEntryDirty_eq]

@[simp] lemma markSitEntryDirty_sit :
    (markSitEntryDirty s segno).sit = s.sit := by rw [markSitEntryDirty_eq]

@[simp] lemma markSitEntryDirty_discardEntries :
    (markSitEntryDirty s segno).discardEntries = s.discardEntries := by rw [markSitEntryDirty_eq]

@[simp] lemma markSitEntryDirty_bugOn :
    (markSitEntryDirty s segno).bugOn = s.bugOn := by rw [markSitEntryDirty_eq]

end

/-- The count of dirty entries, for itself. -/
def DirtyCounted (g : SegGeometry) (s : SitInfo) : Prop :=
  s.dirtySentries = setBits s.dirtySentriesBitmap g.segmentCountMain

lemma DirtyCounted.markSitEntryDirty (h : DirtyCounted g s) (hlt : segno < g.segmentCountMain) :
    DirtyCounted g (markSitEntryDirty s segno) := by
  unfold Segment.markSitEntryDirty
  split_ifs with hb
  · exact h
  · have hbits := setBits_update s.dirtySentriesBitmap hlt true
    have hb' : s.dirtySentriesBitmap segno = false := by simpa using hb
    rw [hb', Bool.toNat_false, Bool.toNat_true] at hbits
    change s.dirtySentries + 1 = setBits (Function.update s.dirtySentriesBitmap segno true) _
    rw [h]
    omega

lemma SitOk.markSitEntryDirty (h : SitOk g o s) (hlt : segno < g.segmentCountMain) :
    SitOk g o (markSitEntryDirty s segno) := by
  have hdirty : DirtyCounted g (Segment.markSitEntryDirty s segno) :=
    DirtyCounted.markSitEntryDirty h.dirty hlt
  have heq := markSitEntryDirty_eq s segno
  rw [heq] at hdirty ⊢
  exact h.congr (fun x hx => ⟨rfl, rfl, h.entries x hx⟩) rfl rfl hdirty rfl

lemma SegEntry.Counted.setType (h : se.Counted) (type : CursegType) :
    SegEntry.Counted { se with type } := ⟨h.valid, h.ckpt⟩

lemma SitOk.setSitEntryType (h : SitOk g o s) (hlt : segno < g.segmentCountMain) (t : CursegType)
    (modified : Bool) : SitOk g o (setSitEntryType s t segno modified) := by
  have htype : SitOk g o { s with
      sentries := Function.update s.sentries segno { s.sentries segno with type := t } } := by
    refine h.congr (fun x hx => ?_) rfl rfl h.dirty rfl
    by_cases hxs : x = segno
    · subst hxs
      simpa using (h.entries x hx).setType t
    · simpa [hxs] using h.entries x hx
  unfold Segment.setSitEntryType
  cases modified with
  | false => exact htype
  | true => exact htype.markSitEntryDirty hlt

/-! ## One block -/

lemma getSegno_lt (h : blk < g.segmentCountMain * blocksPerSeg) :
    getSegno blk < g.segmentCountMain :=
  (Nat.div_lt_iff_lt_mul (by decide)).mpr h

lemma getBlkoff_lt (blk : ℕ) : getBlkoff blk < blocksPerSeg := Nat.mod_lt _ (by decide)

/-- `del` on the count of a map whose bit is what the caller says. -/
lemma addDel_add (validate : Bool) {n : ℕ} (hn : validate = false → 0 < n) :
    addDel validate (!validate) n + (!validate).toNat = n + validate.toNat := by
  cases validate with
  | true => simp [addDel]
  | false =>
      have := hn rfl
      simp only [addDel, Bool.not_false, Bool.false_eq_true, if_false, if_true, Bool.toNat_true,
        Bool.toNat_false]
      omega

/-- A set bit counts. -/
lemma setBits_pos_of {map : ℕ → Bool} {size i : ℕ} (hi : i < size) (hb : map i = true) :
    0 < setBits map size := setBits_pos.mpr ⟨i, hi, hb⟩

variable {off : ℕ} {validate : Bool} {mtime : BitVec 64}

lemma targetMap_update (se : SegEntry) (off : ℕ) (validate : Bool) (mtime : BitVec 64) :
    targetMap (se.update o off validate mtime)
      = Function.update (targetMap se) off (validate || se.ckptValidMap off) := by
  funext i
  by_cases hi : i = off
  · subst hi
    cases validate <;> cases hn : se.type.isNode <;>
      simp [targetMap, SegEntry.update, hn]
  · cases validate <;> cases hn : se.type.isNode <;>
      simp [targetMap, SegEntry.update, hn, hi]

/-- **One block of an entry**, whatever the type of the segment and wherever the block was. -/
lemma SegEntry.Counted.update (h : se.Counted) (hoff : off < blocksPerSeg)
    (hexist : se.curValidMap off = !validate) : (se.update o off validate mtime).Counted where
  valid := by
    have hbits := setBits_update se.curValidMap hoff validate
    have hpos : validate = false → 0 < se.validBlocks := by
      rintro rfl
      rw [h.valid]
      exact setBits_pos_of hoff hexist
    have hadd := addDel_add validate hpos
    have hvalid := h.valid
    rw [hexist] at hbits
    change addDel validate (se.curValidMap off) se.validBlocks
      = setBits (Function.update se.curValidMap off validate) blocksPerSeg
    rw [hexist]
    omega
  ckpt := by
    have hbits := setBits_update (targetMap se) hoff (validate || se.ckptValidMap off)
    have hckpt := h.ckpt
    rw [targetMap_update]
    cases validate with
    | true =>
        cases hc : se.ckptValidMap off <;> cases hn : se.type.isNode <;>
          simp [SegEntry.update, addDel, targetMap, hexist, hc, hn] at hbits ⊢ <;> omega
    | false =>
        have hpos : 0 < setBits (targetMap se) blocksPerSeg :=
          setBits_pos_of hoff (by simp [targetMap, hexist])
        cases hc : se.ckptValidMap off <;>
          simp [SegEntry.update, addDel, targetMap, hexist, hc] at hbits ⊢ <;> omega

/-- What the update of one block does to the numbers of the entry. -/
lemma SegEntry.Counted.update_validBlocks (h : se.Counted) (o : Options) (mtime : BitVec 64)
    (hoff : off < blocksPerSeg)
    (hexist : se.curValidMap off = !validate) :
    (se.update o off validate mtime).validBlocks = addDel validate (!validate) se.validBlocks ∧
      (validate = false → 0 < se.validBlocks) := by
  refine ⟨by simp [SegEntry.update, hexist], ?_⟩
  rintro rfl
  rw [h.valid]
  exact setBits_pos_of hoff hexist

lemma update_discardMap (se : SegEntry) (validate : Bool) (mtime : BitVec 64)
    (hen : o.discardEn = true) (hoff : off < blocksPerSeg) :
    zeroBits (se.update o off validate mtime).discardMap blocksPerSeg + validate.toNat
      = zeroBits se.discardMap blocksPerSeg + (se.discardMap off).toNat := by
  have hmap : (se.update o off validate mtime).discardMap
      = Function.update se.discardMap off validate := by simp [SegEntry.update, hen]
  rw [hmap]
  exact zeroBits_update se.discardMap hoff validate

/-- `update_sit_entry` on the entries. -/
lemma updateSitEntry_sentries (s : SitInfo) (blk : ℕ) (validate : Bool) (mtime : BitVec 64) :
    (updateSitEntry g o s blk validate mtime).sentries
      = Function.update s.sentries (getSegno blk)
          ((s.sentries (getSegno blk)).update o (getBlkoff blk) validate mtime) := by
  simp only [updateSitEntry, markSitEntryDirty_sentries]

/-- The term of one segment in a sum over segments changes with `del`. -/
lemma addDel_sum {segs : Finset ℕ} {f f' : ℕ → ℕ} (hmem : segno ∈ segs)
    (hoff : ∀ x, x ≠ segno → f' x = f x) (hself : f' segno = addDel validate (!validate) (f segno))
    (hpos : validate = false → 0 < f segno) :
    addDel validate (!validate) (∑ x ∈ segs, f x) = ∑ x ∈ segs, f' x := by
  have hsum := sum_add_of_eq_off f f' hmem hoff
  have hle : f segno ≤ ∑ x ∈ segs, f x := Finset.single_le_sum (fun _ _ => Nat.zero_le _) hmem
  cases validate with
  | true =>
      simp only [addDel, Bool.not_true, if_true, Bool.false_eq_true, if_false] at hself ⊢
      omega
  | false =>
      have := hpos rfl
      simp only [addDel, Bool.not_false, if_true, Bool.false_eq_true, if_false] at hself ⊢
      omega

/-- The blocks that could be discarded are counted by their own map, whatever the other one says. -/
lemma SitOk.discard_updateSitEntry (h : SitOk g o s)
    (hblk : blk < g.segmentCountMain * blocksPerSeg) (hen : o.discardEn = true) :
    (Segment.updateSitEntry g o s blk validate mtime).discardBlks
      = ∑ x ∈ Finset.range g.segmentCountMain,
          zeroBits ((Segment.updateSitEntry g o s blk validate mtime).sentries x).discardMap
            blocksPerSeg := by
  have hseg := getSegno_lt hblk
  have hse := updateSitEntry_sentries (g := g) (o := o) s blk validate mtime
  have hval : (Segment.updateSitEntry g o s blk validate mtime).discardBlks
      = if (s.sentries (getSegno blk)).discardMap (getBlkoff blk) != validate then
          (if validate then s.discardBlks - 1 else s.discardBlks + 1) else s.discardBlks := by
    simp only [Segment.updateSitEntry, hen, Bool.true_and, markSitEntryDirty_discardBlks]
  have hsum := sum_add_of_eq_off
    (fun x => zeroBits (s.sentries x).discardMap blocksPerSeg)
    (fun x => zeroBits ((Segment.updateSitEntry g o s blk validate mtime).sentries x).discardMap
      blocksPerSeg) (Finset.mem_range.mpr hseg)
    (fun x hx => by rw [hse, Function.update_of_ne hx])
  have hmap := update_discardMap (s.sentries (getSegno blk)) validate mtime hen
    (getBlkoff_lt blk)
  simp only [hse, Function.update_self] at hsum ⊢
  have hdiscard := h.discard hen
  rw [hval]
  cases hd : (s.sentries (getSegno blk)).discardMap (getBlkoff blk) <;> cases validate <;>
    simp [hd] at hmap ⊢ <;> omega

/-- **One block becomes valid or invalid.** -/
lemma SitOk.updateSitEntry (h : SitOk g o s) (hblk : blk < g.segmentCountMain * blocksPerSeg)
    (hexist : (s.sentries (getSegno blk)).curValidMap (getBlkoff blk) = !validate) :
    SitOk g o (updateSitEntry g o s blk validate mtime) := by
  have hseg := getSegno_lt hblk
  have hoff := getBlkoff_lt blk
  have hcounted := h.entries _ hseg
  obtain ⟨hself, hpos⟩ := hcounted.update_validBlocks o mtime hoff hexist
  have hse := updateSitEntry_sentries (g := g) (o := o) s blk validate mtime
  have hother : ∀ x, x ≠ getSegno blk →
      (Segment.updateSitEntry g o s blk validate mtime).sentries x = s.sentries x := by
    intro x hx
    rw [hse, Function.update_of_ne hx]
  have hown : (Segment.updateSitEntry g o s blk validate mtime).sentries (getSegno blk)
      = (s.sentries (getSegno blk)).update o (getBlkoff blk) validate mtime := by
    rw [hse, Function.update_self]
  have hself' : ((Segment.updateSitEntry g o s blk validate mtime).sentries
      (getSegno blk)).validBlocks
        = addDel validate (!validate) (s.sentries (getSegno blk)).validBlocks := by rw [hown, hself]
  refine ⟨fun x hx => ?_, ?_, fun hone sec hsec => ?_, ?_, fun hen => ?_⟩
  · by_cases hxs : x = getSegno blk
    · subst hxs
      rw [hown]
      exact hcounted.update hoff hexist
    · rw [hother x hxs]
      exact h.entries x hx
  · have hval : (Segment.updateSitEntry g o s blk validate mtime).writtenValidBlocks
        = addDel validate (!validate) s.writtenValidBlocks := by
      simp only [Segment.updateSitEntry, hexist, markSitEntryDirty_writtenValidBlocks]
    rw [hval, h.written]
    exact addDel_sum (Finset.mem_range.mpr hseg) (fun x hx => by rw [hother x hx]) hself' hpos
  · have hval : (Segment.updateSitEntry g o s blk validate mtime).secValidBlocks
        = Function.update s.secValidBlocks (getSegno blk / g.segsPerSec)
            (addDel validate (!validate) (s.secValidBlocks (getSegno blk / g.segsPerSec))) := by
      simp only [Segment.updateSitEntry, hexist, markSitEntryDirty_secValidBlocks, if_pos hone]
    rw [hval]
    by_cases hs : sec = getSegno blk / g.segsPerSec
    · subst hs
      rw [Function.update_self, h.sections hone _ hsec]
      exact addDel_sum (Finset.mem_filter.mpr ⟨Finset.mem_range.mpr hseg, rfl⟩)
        (fun x hx => by rw [hother x hx]) hself' hpos
    · rw [Function.update_of_ne hs, h.sections hone sec hsec]
      refine Finset.sum_congr rfl fun x hx => ?_
      have hne : x ≠ getSegno blk := by
        rintro rfl
        exact hs (Finset.mem_filter.mp hx).2.symm
      rw [hother x hne]
  · exact DirtyCounted.markSitEntryDirty h.dirty hseg
  · exact h.discard_updateSitEntry hblk hen

/-- A bit that is already what it becomes changes neither counter, unless a block of a node segment
is validated twice. -/
lemma SegEntry.Counted.update_same (h : se.Counted) (o : Options) (mtime : BitVec 64)
    (hexist : se.curValidMap off = validate) (hnode : validate = true → se.type.isNode = false) :
    (se.update o off validate mtime).Counted ∧
      (se.update o off validate mtime).validBlocks = se.validBlocks := by
  have hcur : (se.update o off validate mtime).curValidMap = se.curValidMap := by
    rw [← Function.update_eq_self off se.curValidMap, hexist]
    rfl
  have hquiet : (validate && se.type.isNode) = false := by
    cases validate with
    | false => rfl
    | true => exact hnode rfl
  have hckpt : (se.update o off validate mtime).ckptValidMap = se.ckptValidMap := by
    simp [SegEntry.update, hquiet]
  have hcount : (se.update o off validate mtime).ckptValidBlocks = se.ckptValidBlocks := by
    simp only [SegEntry.update, hquiet, hexist]
    cases validate <;> simp [addDel]
  have hvalid : (se.update o off validate mtime).validBlocks = se.validBlocks := by
    simp only [SegEntry.update, hexist]
    cases validate <;> simp [addDel]
  have htarget : targetMap (se.update o off validate mtime) = targetMap se := by
    funext i
    rw [targetMap, targetMap, hckpt, hcur]
  refine ⟨⟨?_, ?_⟩, hvalid⟩
  · rw [hvalid, hcur]
    exact h.valid
  · rw [hcount, htarget]
    exact h.ckpt

/-- **One block is validated or invalidated that is so already**: nothing is counted twice. -/
lemma SitOk.updateSitEntry_same (h : SitOk g o s) (hblk : blk < g.segmentCountMain * blocksPerSeg)
    (hexist : (s.sentries (getSegno blk)).curValidMap (getBlkoff blk) = validate)
    (hnode : validate = true → (s.sentries (getSegno blk)).type.isNode = false) :
    SitOk g o (Segment.updateSitEntry g o s blk validate mtime) := by
  have hseg := getSegno_lt hblk
  obtain ⟨hcounted, hvalid⟩ := (h.entries _ hseg).update_same o mtime hexist hnode
  have hse := updateSitEntry_sentries (g := g) (o := o) s blk validate mtime
  have hblocks : ∀ x, ((Segment.updateSitEntry g o s blk validate mtime).sentries x).validBlocks
      = (s.sentries x).validBlocks := by
    intro x
    rw [hse]
    by_cases hx : x = getSegno blk
    · rw [hx, Function.update_self, hvalid]
    · rw [Function.update_of_ne hx]
  have hdel : ∀ n, addDel validate ((s.sentries (getSegno blk)).curValidMap (getBlkoff blk)) n
      = n := by
    intro n
    rw [hexist]
    cases validate <;> rfl
  refine ⟨fun x hx => ?_, ?_, fun hone sec hsec => ?_, ?_, fun hen => ?_⟩
  · rw [hse]
    by_cases hxs : x = getSegno blk
    · rw [hxs, Function.update_self]
      exact hcounted
    · rw [Function.update_of_ne hxs]
      exact h.entries x hx
  · have hval : (Segment.updateSitEntry g o s blk validate mtime).writtenValidBlocks
        = s.writtenValidBlocks := by
      simp only [Segment.updateSitEntry, hdel, markSitEntryDirty_writtenValidBlocks]
    rw [hval, h.written]
    exact Finset.sum_congr rfl fun x _ => (hblocks x).symm
  · have hval : (Segment.updateSitEntry g o s blk validate mtime).secValidBlocks
        = s.secValidBlocks := by
      simp only [Segment.updateSitEntry, hdel, markSitEntryDirty_secValidBlocks, if_pos hone,
        Function.update_eq_self]
    rw [hval, h.sections hone sec hsec]
    exact Finset.sum_congr rfl fun x _ => (hblocks x).symm
  · exact DirtyCounted.markSitEntryDirty h.dirty hseg
  · exact h.discard_updateSitEntry hblk hen

/-! ## The flush -/

/-- Nothing that is counted has changed. -/
structure SameTable (s s' : SitInfo) : Prop where
  sentries : s'.sentries = s.sentries
  secValidBlocks : s'.secValidBlocks = s.secValidBlocks
  bitmap : s'.dirtySentriesBitmap = s.dirtySentriesBitmap
  dirtySentries : s'.dirtySentries = s.dirtySentries
  written : s'.writtenValidBlocks = s.writtenValidBlocks
  discardBlks : s'.discardBlks = s.discardBlks

lemma SameTable.refl (s : SitInfo) : SameTable s s := ⟨rfl, rfl, rfl, rfl, rfl, rfl⟩

lemma SameTable.trans {s'' : SitInfo} (h : SameTable s s') (h' : SameTable s' s'') :
    SameTable s s'' where
  sentries := h'.sentries.trans h.sentries
  secValidBlocks := h'.secValidBlocks.trans h.secValidBlocks
  bitmap := h'.bitmap.trans h.bitmap
  dirtySentries := h'.dirtySentries.trans h.dirtySentries
  written := h'.written.trans h.written
  discardBlks := h'.discardBlks.trans h.discardBlks

lemma SitOk.of_sameTable (h : SitOk g o s) (hs : SameTable s s') : SitOk g o s' := by
  refine h.congr (fun x hx => ?_) hs.written hs.secValidBlocks ?_ hs.discardBlks
  · rw [hs.sentries]
    exact ⟨rfl, rfl, h.entries x hx⟩
  · rw [hs.dirtySentries, hs.bitmap]
    exact h.dirty

variable {cpc : CpControl}

lemma addDiscardAddrs_sameTable (s : SitInfo) (segno : ℕ) :
    SameTable s (addDiscardAddrs g o cpc s segno) := by
  simp only [addDiscardAddrs]
  split_ifs <;> exact ⟨rfl, rfl, rfl, rfl, rfl, rfl⟩

lemma writeToSitJournal_sameTable (s : SitInfo) (segno : ℕ) (rs : RawSit) :
    SameTable s (writeToSitJournal s segno rs) := by
  unfold writeToSitJournal
  split_ifs <;> exact ⟨rfl, rfl, rfl, rfl, rfl, rfl⟩

/-- **Everything the flush of one entry does to the table.** -/
structure EntryFlushed (s s' : SitInfo) (segno : ℕ) : Prop where
  sentries : s'.sentries = Function.update s.sentries segno (s.sentries segno).checkpointed
  secValidBlocks : s'.secValidBlocks = s.secValidBlocks
  bitmap : s'.dirtySentriesBitmap = Function.update s.dirtySentriesBitmap segno false
  dirtySentries : s'.dirtySentries = s.dirtySentries - 1
  written : s'.writtenValidBlocks = s.writtenValidBlocks
  discardBlks : s'.discardBlks = s.discardBlks

lemma flushSitEntry_flushed (cpc : CpControl) (toJournal : Bool) (s : SitInfo) (segno : ℕ) :
    EntryFlushed s (flushSitEntry g o cpc toJournal s segno) segno := by
  have h₁ : SameTable s (if cpc.force then s else addDiscardAddrs g o cpc s segno) := by
    split_ifs
    · exact SameTable.refl s
    · exact addDiscardAddrs_sameTable s segno
  have h₂ : SameTable s (if toJournal then
      writeToSitJournal (if cpc.force then s else addDiscardAddrs g o cpc s segno) segno
        (segInfoToRawSit (s.sentries segno))
      else writeToSitBlock g (if cpc.force then s else addDiscardAddrs g o cpc s segno) segno
        (segInfoToRawSit (s.sentries segno))) := by
    cases toJournal with
    | true => exact h₁.trans (writeToSitJournal_sameTable _ _ _)
    | false => exact h₁.trans ⟨rfl, rfl, rfl, rfl, rfl, rfl⟩
  refine ⟨?_, h₂.secValidBlocks, ?_, ?_, h₂.written, h₂.discardBlks⟩
  · exact congrArg (Function.update · segno _) h₂.sentries
  · exact congrArg (Function.update · segno false) h₂.bitmap
  · exact congrArg (· - 1) h₂.dirtySentries

lemma SegEntry.Counted.checkpointed (h : se.Counted) : se.checkpointed.Counted where
  valid := h.valid
  ckpt := by
    have hmap : targetMap se.checkpointed = se.curValidMap := by
      funext i
      simp [targetMap, SegEntry.checkpointed]
    rw [hmap]
    exact h.valid

lemma SitOk.flushSitEntry (h : SitOk g o s) {toJournal : Bool} (hlt : segno < g.segmentCountMain)
    (hb : s.dirtySentriesBitmap segno = true) :
    SitOk g o (flushSitEntry g o cpc toJournal s segno) := by
  have hf := flushSitEntry_flushed (g := g) (o := o) cpc toJournal s segno
  refine h.congr (fun x hx => ?_) hf.written hf.secValidBlocks ?_ hf.discardBlks
  · rw [hf.sentries]
    by_cases hxs : x = segno
    · subst hxs
      rw [Function.update_self]
      exact ⟨rfl, rfl, (h.entries x hx).checkpointed⟩
    · rw [Function.update_of_ne hxs]
      exact ⟨rfl, rfl, h.entries x hx⟩
  · have hbits := setBits_update s.dirtySentriesBitmap hlt false
    rw [hb, Bool.toNat_true, Bool.toNat_false, Nat.add_zero, ← h.dirty] at hbits
    rw [hf.dirtySentries, hf.bitmap]
    omega

lemma mem_dirtySegs {lo hi : ℕ} :
    segno ∈ dirtySegs s lo hi ↔ (lo ≤ segno ∧ segno < hi) ∧ s.dirtySentriesBitmap segno = true := by
  rw [dirtySegs, List.mem_filter, List.mem_range'_1]
  constructor
  · rintro ⟨⟨h1, h2⟩, hb⟩
    exact ⟨⟨h1, by omega⟩, hb⟩
  · rintro ⟨⟨h1, h2⟩, hb⟩
    exact ⟨⟨h1, by omega⟩, hb⟩

lemma dirtySegs_nodup (s : SitInfo) (lo hi : ℕ) : (dirtySegs s lo hi).Nodup :=
  List.Nodup.filter _ List.nodup_range'

/-- **The rule for the sets of a flush**: what each of the parts keeps, they keep.  An entry is still
dirty when its turn comes. -/
lemma flushSits_induction {P : SitInfo → Prop} (g : SegGeometry) (o : Options) (cpc : CpControl)
    (hentry : ∀ s toJournal segno, P s → segno < g.segmentCountMain →
      s.dirtySentriesBitmap segno = true → P (flushSitEntry g o cpc toJournal s segno))
    (hpage : ∀ s start, P s → P (getNextSitPage g s start))
    (hbug : ∀ s b, P s → P { s with bugOn := b })
    (hmark : ∀ s' segno, P s' → segno ∈ Journal.keys s.journal → P (markSitEntryDirty s' segno))
    (hempty : ∀ s, P s → P { s with journal := [] })
    (h : P s) : P (flushSits g o s cpc) := by
  have hsegs : ∀ (toJournal : Bool) (segs : List ℕ) (s : SitInfo), P s → segs.Nodup →
      (∀ x ∈ segs, x < g.segmentCountMain ∧ s.dirtySentriesBitmap x = true) →
      P (segs.foldl (flushSitEntry g o cpc toJournal) s) := by
    intro toJournal segs
    induction segs with
    | nil => exact fun s h _ _ => h
    | cons x segs ih =>
        intro s h hnd hdirty
        obtain ⟨hx, hnd⟩ := List.nodup_cons.mp hnd
        obtain ⟨hlt, hb⟩ := hdirty x List.mem_cons_self
        refine ih _ (hentry s toJournal x h hlt hb) hnd fun y hy => ?_
        obtain ⟨hylt, hyb⟩ := hdirty y (List.mem_cons_of_mem x hy)
        have hne : y ≠ x := by
          rintro rfl
          exact hx hy
        rw [(flushSitEntry_flushed cpc toJournal s x).bitmap, Function.update_of_ne hne]
        exact ⟨hylt, hyb⟩
  have hsets : ∀ (sets : List SitEntrySet) (y : SitInfo × Bool), P y.1 →
      P (sets.foldl (flushSitSet g o cpc) y).1 := by
    intro sets
    induction sets with
    | nil => exact fun y hy => hy
    | cons ses sets ih =>
        intro y hy
        refine ih _ (hbug _ _ (hsegs _ _ _ ?_ (dirtySegs_nodup _ _ _) fun x hx => ?_))
        · split_ifs
          · exact hy
          · exact hpage _ _ hy
        · obtain ⟨hx, hb⟩ := mem_dirtySegs.mp hx
          refine ⟨by omega, ?_⟩
          split_ifs
          · exact hb
          · exact hb
  have hremove : ∀ (keys : List ℕ), (∀ x ∈ keys, x ∈ Journal.keys s.journal) →
      ∀ y : SitInfo × List SitEntrySet, P y.1 → P (keys.foldl removeSitInJournal y).1 := by
    intro keys
    induction keys with
    | nil => exact fun _ y hy => hy
    | cons x keys ih =>
        intro hk y hy
        exact ih (fun z hz => hk z (List.mem_cons_of_mem x hz)) _
          (hmark _ _ hy (hk x List.mem_cons_self))
  simp only [flushSits, startFlush]
  split_ifs
  · exact h
  · exact hbug _ _ (hsets _ (s, true) h)
  · exact hbug _ _ (hsets _ (_, true) (hempty _ (hremove _ (fun _ hx => hx) _ h)))

/-- `fstrim` looks for candidates in one segment after the other. -/
lemma trim_induction {P : SitInfo → Prop} (g : SegGeometry) (o : Options) (cpc : CpControl)
    (htrim : ∀ s segno, P s → cpc.force = true → segno ≤ cpc.trimEnd →
      P (addDiscardAddrs g o cpc s segno))
    (h : P (flushSits g o s cpc)) : P (f2fsFlushSitEntries g o s cpc) := by
  have htrims : ∀ (n lo : ℕ) (s : SitInfo), P s → cpc.force = true → lo + n ≤ cpc.trimEnd + 1 →
      P ((List.range' lo n).foldl (addDiscardAddrs g o cpc) s) := by
    intro n
    induction n with
    | zero => exact fun _ _ h _ _ => h
    | succ n ih =>
        intro lo s h hf hle
        exact ih (lo + 1) _ (htrim s lo h hf (by omega)) hf (by omega)
  simp only [f2fsFlushSitEntries]
  cases hf : cpc.force with
  | true =>
      rw [if_pos rfl]
      by_cases hle : cpc.trimStart ≤ cpc.trimEnd + 1
      · exact htrims _ _ _ h hf (by omega)
      · have hzero : cpc.trimEnd + 1 - cpc.trimStart = 0 := by omega
        rw [hzero]
        exact h
  | false => exact h

/-- **The rule for a flush.** -/
lemma flush_induction {P : SitInfo → Prop} (g : SegGeometry) (o : Options) (cpc : CpControl)
    (hentry : ∀ s toJournal segno, P s → segno < g.segmentCountMain →
      s.dirtySentriesBitmap segno = true → P (flushSitEntry g o cpc toJournal s segno))
    (hpage : ∀ s start, P s → P (getNextSitPage g s start))
    (hbug : ∀ s b, P s → P { s with bugOn := b })
    (hmark : ∀ s' segno, P s' → segno ∈ Journal.keys s.journal → P (markSitEntryDirty s' segno))
    (hempty : ∀ s, P s → P { s with journal := [] })
    (htrim : ∀ s segno, P s → cpc.force = true → segno ≤ cpc.trimEnd →
      P (addDiscardAddrs g o cpc s segno))
    (h : P s) : P (f2fsFlushSitEntries g o s cpc) :=
  trim_induction g o cpc htrim (flushSits_induction g o cpc hentry hpage hbug hmark hempty h)

/-- **A flush.** -/
lemma SitOk.f2fsFlushSitEntries (h : SitOk g o s) (cpc : CpControl)
    (hkeys : ∀ x ∈ Journal.keys s.journal, x < g.segmentCountMain) :
    SitOk g o (f2fsFlushSitEntries g o s cpc) := by
  refine flush_induction g o cpc ?_ ?_ ?_ ?_ ?_ ?_ h
  · intro s toJournal segno h hlt hb
    exact h.flushSitEntry hlt hb
  · intro s start h
    exact h.of_sameTable ⟨rfl, rfl, rfl, rfl, rfl, rfl⟩
  · intro s b h
    exact h.of_sameTable ⟨rfl, rfl, rfl, rfl, rfl, rfl⟩
  · intro s segno h hkey
    exact h.markSitEntryDirty (hkeys segno hkey)
  · intro s h
    exact h.of_sameTable ⟨rfl, rfl, rfl, rfl, rfl, rfl⟩
  · intro s segno h _ _
    exact h.of_sameTable (addDiscardAddrs_sameTable s segno)

/-! ## Discards -/

/-- One block of a discard. -/
lemma SitOk.discardBlk (h : SitOk g o s) (hblk : blk < g.segmentCountMain * blocksPerSeg) :
    SitOk g o (discardBlk s blk) := by
  by_cases hb : (s.sentries (getSegno blk)).discardMap (getBlkoff blk) = true
  · rw [Segment.discardBlk, if_pos hb]
    exact h
  have hclear : (s.sentries (getSegno blk)).discardMap (getBlkoff blk) = false := by simpa using hb
  have hseg := getSegno_lt hblk
  have heq : Segment.discardBlk s blk = { s with
      sentries := Function.update s.sentries (getSegno blk)
        { s.sentries (getSegno blk) with
          discardMap := Function.update (s.sentries (getSegno blk)).discardMap (getBlkoff blk) true }
      discardBlks := s.discardBlks - 1 } := if_neg hb
  have hother : ∀ x, x ≠ getSegno blk → (Segment.discardBlk s blk).sentries x = s.sentries x := by
    intro x hx
    rw [heq]
    exact Function.update_of_ne hx _ _
  have hown : (Segment.discardBlk s blk).sentries (getSegno blk) = { s.sentries (getSegno blk) with
      discardMap :=
        Function.update (s.sentries (getSegno blk)).discardMap (getBlkoff blk) true } := by
    rw [heq]
    exact Function.update_self _ _ _
  have hvalid : ∀ x, ((Segment.discardBlk s blk).sentries x).validBlocks
      = (s.sentries x).validBlocks := by
    intro x
    by_cases hx : x = getSegno blk
    · subst hx
      rw [hown]
    · rw [hother x hx]
  refine ⟨fun x hx => ?_, ?_, fun hone sec hsec => ?_, ?_, fun hen => ?_⟩
  · by_cases hxs : x = getSegno blk
    · subst hxs
      rw [hown]
      exact ⟨(h.entries _ hx).valid, (h.entries _ hx).ckpt⟩
    · rw [hother x hxs]
      exact h.entries x hx
  · simp only [hvalid]
    rw [heq]
    exact h.written
  · simp only [hvalid]
    rw [heq]
    exact h.sections hone sec hsec
  · rw [heq]
    exact h.dirty
  · have hsum := sum_add_of_eq_off
      (fun x => zeroBits (s.sentries x).discardMap blocksPerSeg)
      (fun x => zeroBits ((Segment.discardBlk s blk).sentries x).discardMap blocksPerSeg)
      (Finset.mem_range.mpr hseg) (fun x hx => by rw [hother x hx])
    have hmap := zeroBits_update (s.sentries (getSegno blk)).discardMap (getBlkoff_lt blk) true
    have hdiscard := h.discard hen
    have hblks : (Segment.discardBlk s blk).discardBlks = s.discardBlks - 1 := by rw [heq]
    simp only [hown, hclear, Bool.toNat_true, Bool.toNat_false] at hsum hmap
    omega

/-- The blocks of a range that lies in the main area. -/
def BlkRange.Inside (g : SegGeometry) (r : BlkRange) : Prop :=
  r.start + r.len ≤ g.segmentCountMain * blocksPerSeg

lemma SitOk.issueDiscard (h : SitOk g o s) {r : BlkRange} (hr : r.Inside g) :
    SitOk g o (issueDiscard s r) := by
  have hfold : ∀ (n lo : ℕ) (s : SitInfo), lo + n ≤ g.segmentCountMain * blocksPerSeg →
      SitOk g o s → SitOk g o ((List.range' lo n).foldl Segment.discardBlk s) := by
    intro n
    induction n with
    | zero => exact fun _ _ _ h => h
    | succ n ih =>
        intro lo s hle h
        exact ih (lo + 1) _ (by omega) (h.discardBlk (by omega))
  exact hfold r.len r.start s hr h

lemma SegRange.inside {m : SegMan} {pre : ℕ → Bool} {r : BlkRange} (h : SegRange g m pre r) :
    r.Inside g := by
  obtain ⟨lo, hi, hlt, hle, rfl, -⟩ := h
  rw [BlkRange.Inside, ← Nat.add_mul, Nat.add_sub_cancel' hlt.le]
  exact Nat.mul_le_mul_right _ hle

/-! ## What names a segment names one of the area -/

structure SitInfo.InArea (g : SegGeometry) (s : SitInfo) : Prop where
  journal : ∀ x ∈ Journal.keys s.journal, x < g.segmentCountMain
  candidates : ∀ e ∈ s.discardEntries, e.segno < g.segmentCountMain

lemma SitInfo.InArea.addDiscardAddrs (h : s.InArea g) (hlt : segno < g.segmentCountMain) :
    (addDiscardAddrs g o cpc s segno).InArea g := by
  simp only [Segment.addDiscardAddrs]
  split_ifs
  · exact h
  · exact h
  · exact ⟨h.journal, h.candidates⟩
  · refine ⟨h.journal, fun e he => ?_⟩
    rcases List.mem_append.mp he with he | he
    · exact h.candidates e he
    · rw [List.mem_singleton.mp he]
      exact hlt

lemma SitInfo.InArea.writeToSitJournal (h : s.InArea g) (hlt : segno < g.segmentCountMain)
    (rs : RawSit) : (writeToSitJournal s segno rs).InArea g := by
  unfold Segment.writeToSitJournal
  split_ifs
  · refine ⟨fun x hx => ?_, h.candidates⟩
    rcases Journal.mem_keys_put.mp hx with rfl | hx
    · exact hlt
    · exact h.journal x hx
  · exact ⟨h.journal, h.candidates⟩

lemma SitInfo.InArea.flushSitEntry (h : s.InArea g) {toJournal : Bool}
    (hlt : segno < g.segmentCountMain) :
    (flushSitEntry g o cpc toJournal s segno).InArea g := by
  have h₁ : (if cpc.force then s else Segment.addDiscardAddrs g o cpc s segno).InArea g := by
    split_ifs
    · exact h
    · exact h.addDiscardAddrs hlt
  cases toJournal with
  | true =>
      have h₂ := h₁.writeToSitJournal hlt (segInfoToRawSit (s.sentries segno))
      exact ⟨h₂.journal, h₂.candidates⟩
  | false => exact ⟨h₁.journal, h₁.candidates⟩

lemma SitInfo.InArea.f2fsFlushSitEntries (h : s.InArea g) (o : Options)
    (htrim : cpc.force = true → cpc.trimEnd < g.segmentCountMain) :
    (f2fsFlushSitEntries g o s cpc).InArea g := by
  refine flush_induction g o cpc ?_ ?_ ?_ ?_ ?_ ?_ h
  · intro s toJournal segno h hlt _
    exact h.flushSitEntry hlt
  · intro s start h
    exact ⟨h.journal, h.candidates⟩
  · intro s b h
    exact ⟨h.journal, h.candidates⟩
  · intro s segno h _
    exact ⟨by simpa using h.journal, by simpa using h.candidates⟩
  · intro s h
    exact ⟨by simp [Journal.keys], h.candidates⟩
  · intro s segno h hf hle
    exact h.addDiscardAddrs (hle.trans_lt (htrim hf))

end Hoit.Segment
