import HoitF2fs.Segment.SitRuns

/-!
# The lists of dirty segments

A segment that is not current and has some valid blocks, but not only those, is on the `DIRTY` list
and on the list of its type; one without any is on the `PRE` list until a checkpoint gives it back.

* `DirtyInv` — the invariant: the counts are right, the lists of the types make up the `DIRTY` list,
  and whatever is on a list is **in use and not current**.
* `DirtyInv.mark` — the lists change at one segment.  All the functions on the lists come down to
  this.
* `DirtyInv.newCurseg`, `DirtyInv.changeCurseg` — the type of a segment changes only while it is on
  no list, so a segment is always taken off the list that it was put on.
* `DirtyInv.checkpoint`, `dirty_lists_throughout` — runs.

**What goes wrong.**  A checkpoint first gives the segments on the `PRE` list back and takes them off
the list at its end.  If it fails in between, or if `f2fs_clear_prefree_segments` skips them
(`SkipsNone`), they are free and still on the list.  Then one of them becomes a current segment and
has valid blocks while it is on the `PRE` list (`prefree_segment_written`).
-/

namespace Hoit.Segment

open Bitmap Transition

variable {g : SegGeometry} {o : Options} {cpc : CpControl} {m m' : SegMan} {segno : ℕ}
  {t : CursegType} {d d' : DirtySeglist}

/-! ## One bit -/

/-- Each count is the count of its map. -/
def DirtySeglist.Counted (g : SegGeometry) (d : DirtySeglist) : Prop :=
  ∀ t, d.nrDirty t = setBits (d.dirtySegmap t) g.segmentCountMain

lemma DirtySeglist.add_dirtySegmap (d : DirtySeglist) (t : DirtyType) (segno : ℕ) :
    (d.add t segno).dirtySegmap
      = Function.update d.dirtySegmap t (Function.update (d.dirtySegmap t) segno true) := by
  unfold DirtySeglist.add
  split_ifs with hb
  · have heq : Function.update (d.dirtySegmap t) segno true = d.dirtySegmap t := by
      rw [← hb, Function.update_eq_self]
    rw [heq, Function.update_eq_self]
  · rfl

lemma DirtySeglist.remove_dirtySegmap (d : DirtySeglist) (t : DirtyType) (segno : ℕ) :
    (d.remove t segno).dirtySegmap
      = Function.update d.dirtySegmap t (Function.update (d.dirtySegmap t) segno false) := by
  unfold DirtySeglist.remove
  split_ifs with hb
  · rfl
  · have hb' : d.dirtySegmap t segno = false := by simpa using hb
    have heq : Function.update (d.dirtySegmap t) segno false = d.dirtySegmap t := by
      rw [← hb', Function.update_eq_self]
    rw [heq, Function.update_eq_self]

lemma DirtySeglist.Counted.add (h : d.Counted g) (t : DirtyType) (hlt : segno < g.segmentCountMain) :
    (d.add t segno).Counted g := by
  intro u
  unfold DirtySeglist.add
  split_ifs with hb
  · exact h u
  · by_cases hu : u = t
    · subst hu
      have hbits := setBits_update (d.dirtySegmap u) hlt true
      have hb' : d.dirtySegmap u segno = false := by simpa using hb
      rw [hb', Bool.toNat_false, Bool.toNat_true, ← h u] at hbits
      simp only [Function.update_self]
      omega
    · simp only [Function.update_of_ne hu]
      exact h u

lemma DirtySeglist.Counted.remove (h : d.Counted g) (t : DirtyType)
    (hlt : segno < g.segmentCountMain) : (d.remove t segno).Counted g := by
  intro u
  unfold DirtySeglist.remove
  split_ifs with hb
  · by_cases hu : u = t
    · subst hu
      have hbits := setBits_update (d.dirtySegmap u) hlt false
      rw [hb, Bool.toNat_true, Bool.toNat_false, ← h u] at hbits
      simp only [Function.update_self]
      omega
    · simp only [Function.update_of_ne hu]
      exact h u
  · exact h u

/-! ## The invariant -/

structure DirtyInv (g : SegGeometry) (m : SegMan) : Prop where
  counted : m.dirtyI.Counted g
  /-- **A segment is on the list of its type iff it is on the `DIRTY` list.** -/
  types : ∀ t s, m.dirtyI.dirtySegmap (.ofType t) s
    = (m.dirtyI.dirtySegmap .dirty s && decide ((m.sit.sentries s).type = t))
  prefree : ∀ s, m.dirtyI.dirtySegmap .pre s = true →
    (m.sit.sentries s).validBlocks = 0 ∧ m.dirtyI.dirtySegmap .dirty s = false
  /-- What is on a list is a segment in use that is not current. -/
  used : ∀ s, m.dirtyI.dirtySegmap .pre s = true ∨ m.dirtyI.dirtySegmap .dirty s = true →
    s < g.segmentCountMain ∧ m.freeI.freeSegmap s = true ∧ isCurseg m s = false
  current : ∀ t, m.freeI.freeSegmap (m.curseg t).segno = true

/-- A segment is on the list of its type iff it is on the `DIRTY` list, for itself. -/
def DirtySeglist.Typed (types : ℕ → CursegType) (d : DirtySeglist) : Prop :=
  ∀ t s, d.dirtySegmap (.ofType t) s = (d.dirtySegmap .dirty s && decide (types s = t))

/-- The lists `d'` differ from `d` at one segment: it is on the `PRE` list iff `isPre` and on the
`DIRTY` list, and that of its type, iff `isDirty`. -/
structure Marks (g : SegGeometry) (types : ℕ → CursegType) (d d' : DirtySeglist) (segno : ℕ)
    (isPre isDirty : Bool) : Prop where
  counted : d'.Counted g
  other : ∀ u s, s ≠ segno → d'.dirtySegmap u s = d.dirtySegmap u s
  pre : d'.dirtySegmap .pre segno = isPre
  dirty : d'.dirtySegmap .dirty segno = isDirty
  types : ∀ u, d'.dirtySegmap (.ofType u) segno = (isDirty && decide (types segno = u))

/-- **The lists change at one segment.** -/
lemma DirtyInv.mark {isPre isDirty : Bool} (h : DirtyInv g m)
    (hm : Marks g (fun s => (m.sit.sentries s).type) m.dirtyI d' segno isPre isDirty)
    (hpre : isPre = true → (m.sit.sentries segno).validBlocks = 0 ∧ isDirty = false)
    (hused : isPre = true ∨ isDirty = true →
      segno < g.segmentCountMain ∧ m.freeI.freeSegmap segno = true ∧ isCurseg m segno = false) :
    DirtyInv g { m with dirtyI := d' } where
  counted := hm.counted
  types := by
    intro u s
    change d'.dirtySegmap _ s = (d'.dirtySegmap _ s && decide ((m.sit.sentries s).type = u))
    by_cases hs : s = segno
    · subst hs
      rw [hm.types, hm.dirty]
    · rw [hm.other _ s hs, hm.other _ s hs]
      exact h.types u s
  prefree := by
    intro s hs
    change d'.dirtySegmap _ s = true at hs
    change _ ∧ d'.dirtySegmap _ s = false
    by_cases hss : s = segno
    · subst hss
      rw [hm.pre] at hs
      rw [hm.dirty]
      exact hpre hs
    · rw [hm.other _ s hss] at hs ⊢
      exact h.prefree s hs
  used := by
    intro s hs
    change d'.dirtySegmap _ s = true ∨ d'.dirtySegmap _ s = true at hs
    by_cases hss : s = segno
    · subst hss
      rw [hm.pre, hm.dirty] at hs
      exact hused hs
    · rw [hm.other _ s hss, hm.other _ s hss] at hs
      exact h.used s hs
  current := h.current

/-! ## The functions on the lists -/

variable {types : ℕ → CursegType}

lemma Marks.typed {isPre isDirty : Bool} (h : Marks g types d d' segno isPre isDirty)
    (ht : d.Typed types) : d'.Typed types := by
  intro t s
  by_cases hs : s = segno
  · subst hs
    rw [h.types, h.dirty]
  · rw [h.other _ s hs, h.other _ s hs]
    exact ht t s

lemma Marks.trans {d'' : DirtySeglist} {p q p' q' : Bool} (h : Marks g types d d' segno p q)
    (h' : Marks g types d' d'' segno p' q') : Marks g types d d'' segno p' q' where
  counted := h'.counted
  other := fun u s hs => (h'.other u s hs).trans (h.other u s hs)
  pre := h'.pre
  dirty := h'.dirty
  types := h'.types

section

variable (hc : d.Counted g) (ht : d.Typed types) (hlt : segno < g.segmentCountMain)

include hc ht hlt

lemma Marks.addPre :
    Marks g types d (d.add .pre segno) segno true (d.dirtySegmap .dirty segno) where
  counted := hc.add .pre hlt
  other := by
    intro u s hs
    rw [DirtySeglist.add_dirtySegmap]
    by_cases hu : u = .pre
    · subst hu
      simp [hs]
    · simp [hu]
  pre := by simp [DirtySeglist.add_dirtySegmap]
  dirty := by simp [DirtySeglist.add_dirtySegmap]
  types := by
    intro u
    simpa [DirtySeglist.add_dirtySegmap] using ht u segno

lemma Marks.removePre :
    Marks g types d (d.remove .pre segno) segno false (d.dirtySegmap .dirty segno) where
  counted := hc.remove .pre hlt
  other := by
    intro u s hs
    rw [DirtySeglist.remove_dirtySegmap]
    by_cases hu : u = .pre
    · subst hu
      simp [hs]
    · simp [hu]
  pre := by simp [DirtySeglist.remove_dirtySegmap]
  dirty := by simp [DirtySeglist.remove_dirtySegmap]
  types := by
    intro u
    simpa [DirtySeglist.remove_dirtySegmap] using ht u segno

/-- Onto the `DIRTY` list and that of the type. -/
lemma Marks.addDirty :
    Marks g types d ((d.add .dirty segno).add (.ofType (types segno)) segno) segno
      (d.dirtySegmap .pre segno) true where
  counted := (hc.add .dirty hlt).add _ hlt
  other := by
    intro u s hs
    rw [DirtySeglist.add_dirtySegmap, DirtySeglist.add_dirtySegmap]
    by_cases hu : u = .ofType (types segno)
    · subst hu
      simp [hs]
    · by_cases hu' : u = .dirty
      · subst hu'
        simp [hs]
      · simp [hu, hu']
  pre := by simp [DirtySeglist.add_dirtySegmap]
  dirty := by simp [DirtySeglist.add_dirtySegmap]
  types := by
    intro u
    rw [DirtySeglist.add_dirtySegmap, DirtySeglist.add_dirtySegmap]
    by_cases hu : types segno = u
    · simp [hu]
    · have hne : DirtyType.ofType u ≠ .ofType (types segno) := by
        intro heq
        exact hu (DirtyType.ofType.inj heq).symm
      simp [hne, hu, ht u segno]

/-- Off the `DIRTY` list and that of the type; the bits of other types are clear already. -/
lemma Marks.removeDirty :
    Marks g types d ((d.remove .dirty segno).remove (.ofType (types segno)) segno) segno
      (d.dirtySegmap .pre segno) false where
  counted := (hc.remove .dirty hlt).remove _ hlt
  other := by
    intro u s hs
    rw [DirtySeglist.remove_dirtySegmap, DirtySeglist.remove_dirtySegmap]
    by_cases hu : u = .ofType (types segno)
    · subst hu
      simp [hs]
    · by_cases hu' : u = .dirty
      · subst hu'
        simp [hs]
      · simp [hu, hu']
  pre := by simp [DirtySeglist.remove_dirtySegmap]
  dirty := by simp [DirtySeglist.remove_dirtySegmap]
  types := by
    intro u
    rw [DirtySeglist.remove_dirtySegmap, DirtySeglist.remove_dirtySegmap]
    by_cases hu : types segno = u
    · simp [hu]
    · have hne : DirtyType.ofType u ≠ .ofType (types segno) := by
        intro heq
        exact hu (DirtyType.ofType.inj heq).symm
      simp [hne, hu, ht u segno]

end

/-- The type of a segment. -/
def SegMan.segType (m : SegMan) (s : ℕ) : CursegType := (m.sit.sentries s).type

section

variable (hc : m.dirtyI.Counted g) (ht : m.dirtyI.Typed m.segType) (hlt : segno < g.segmentCountMain)

include hc ht hlt

lemma locateDirty_pre_marks (hcur : isCurseg m segno = false) :
    Marks g m.segType m.dirtyI (locateDirty m segno .pre).dirtyI segno true
      (m.dirtyI.dirtySegmap .dirty segno) := by
  simp only [locateDirty, hcur, Bool.false_eq_true, if_false, reduceCtorEq]
  exact Marks.addPre hc ht hlt

lemma locateDirty_dirty_marks (hcur : isCurseg m segno = false) :
    Marks g m.segType m.dirtyI (locateDirty m segno .dirty).dirtyI segno
      (m.dirtyI.dirtySegmap .pre segno) true := by
  simp only [locateDirty, hcur, Bool.false_eq_true, if_false, if_true]
  exact Marks.addDirty hc ht hlt

lemma removeDirtySegment_pre_marks :
    Marks g m.segType m.dirtyI (removeDirtySegment g m segno .pre).dirtyI segno false
      (m.dirtyI.dirtySegmap .dirty segno) := by
  simp only [removeDirtySegment, reduceCtorEq, if_false]
  exact Marks.removePre hc ht hlt

/-- The map of the victims of cleaning is no matter of these lists. -/
lemma removeDirtySegment_dirty_marks :
    Marks g m.segType m.dirtyI (removeDirtySegment g m segno .dirty).dirtyI segno
      (m.dirtyI.dirtySegmap .pre segno) false := by
  have h := Marks.removeDirty hc ht hlt
  simp only [removeDirtySegment, if_true]
  exact ⟨h.counted, h.other, h.pre, h.dirty, h.types⟩

/-- **Everything `locate_dirty_segment` does** to a segment that is not current. -/
lemma locateDirtySegment_marks (hcur : isCurseg m segno = false) :
    Marks g m.segType m.dirtyI (locateDirtySegment g m segno).dirtyI segno
      (m.dirtyI.dirtySegmap .pre segno || decide ((m.sit.sentries segno).validBlocks = 0))
      (decide (0 < (m.sit.sentries segno).validBlocks) &&
        decide ((m.sit.sentries segno).validBlocks < blocksPerSeg)) := by
  have hnull : segno ≠ nullSegno := by
    have hmain := g.ssd_lt
    unfold nullSegno
    omega
  have hvalid : getValidBlocks g m segno false = (m.sit.sentries segno).validBlocks := rfl
  simp only [locateDirtySegment, hnull, hcur, decide_false, Bool.or_self, Bool.false_eq_true,
    if_false, hvalid]
  split_ifs with hzero hfull
  · have hpre := locateDirty_pre_marks hc ht hlt hcur
    have hloc : (locateDirty m segno .pre).segType = m.segType := by
      rw [locateDirty_eq]
      rfl
    have hdirty := removeDirtySegment_dirty_marks (m := locateDirty m segno .pre) hpre.counted
      (hloc ▸ hpre.typed ht) hlt
    rw [hloc, hpre.pre] at hdirty
    simpa [hzero] using hpre.trans hdirty
  · have hpos : 0 < (m.sit.sentries segno).validBlocks := Nat.pos_of_ne_zero hzero
    simpa [hzero, hpos, hfull] using locateDirty_dirty_marks hc ht hlt hcur
  · simpa [hzero, hfull] using removeDirtySegment_dirty_marks hc ht hlt

end

lemma DirtyInv.typed (h : DirtyInv g m) : m.dirtyI.Typed m.segType := h.types

/-- `locate_dirty_segment` may be called for any segment in use. -/
lemma DirtyInv.locateDirtySegment (h : DirtyInv g m)
    (hseg : segno ≠ nullSegno → segno < g.segmentCountMain ∧ m.freeI.freeSegmap segno = true) :
    DirtyInv g (locateDirtySegment g m segno) := by
  by_cases hskip : (segno = nullSegno || isCurseg m segno) = true
  · rw [Segment.locateDirtySegment, if_pos hskip]
    exact h
  · simp only [Bool.or_eq_true, decide_eq_true_eq, not_or, Bool.not_eq_true] at hskip
    obtain ⟨hlt, hfree⟩ := hseg hskip.1
    have hm := locateDirtySegment_marks h.counted h.typed hlt hskip.2
    rw [locateDirtySegment_eq]
    refine h.mark hm (fun hpre => ?_) fun _ => ⟨hlt, hfree, hskip.2⟩
    have hzero : (m.sit.sentries segno).validBlocks = 0 := by
      simp only [Bool.or_eq_true, decide_eq_true_eq] at hpre
      exact hpre.elim (fun hp => (h.prefree segno hp).1) id
    exact ⟨hzero, by simp [hzero]⟩

/-! ## The other functions -/

/-- The lists stay; what they depend on stays with them. -/
lemma DirtyInv.congr (h : DirtyInv g m) (hd : m'.dirtyI = m.dirtyI)
    (hfree : ∀ s, m'.freeI.freeSegmap s = m.freeI.freeSegmap s)
    (hcur : ∀ t, (m'.curseg t).segno = (m.curseg t).segno)
    (htype : ∀ s, m'.segType s = m.segType s)
    (hzero : ∀ s, m.dirtyI.dirtySegmap .pre s = true → (m'.sit.sentries s).validBlocks = 0) :
    DirtyInv g m' where
  counted := by
    rw [hd]
    exact h.counted
  types := by
    intro t s
    change _ = (_ && decide (m'.segType s = t))
    rw [hd, htype s]
    exact h.types t s
  prefree := by
    intro s hs
    rw [hd] at hs ⊢
    exact ⟨hzero s hs, (h.prefree s hs).2⟩
  used := by
    intro s hs
    rw [hd] at hs
    simp only [hfree, isCurseg, hcur]
    exact h.used s hs
  current := by
    intro t
    rw [hfree, hcur]
    exact h.current t

/-- `update_sit_entry` makes blocks of current segments valid, and these are on no list. -/
lemma DirtyInv.updateSitEntry {blk : ℕ} {validate : Bool} {mtime : BitVec 64} (h : DirtyInv g m)
    (hcur : validate = true → isCurseg m (getSegno blk) = true) :
    DirtyInv g { m with sit := updateSitEntry g o m.sit blk validate mtime } := by
  have hse := updateSitEntry_sentries (g := g) (o := o) m.sit blk validate mtime
  refine h.congr rfl (fun _ => rfl) (fun _ => rfl) (fun s => ?_) fun s hs => ?_
  · simp only [SegMan.segType, hse]
    by_cases hx : s = getSegno blk
    · subst hx
      simp [SegEntry.update]
    · rw [Function.update_of_ne hx]
  · have hzero := (h.prefree s hs).1
    simp only [hse]
    by_cases hx : s = getSegno blk
    · subst hx
      have hval : validate = false := by
        by_contra hv
        have hnot := (h.used _ (Or.inl hs)).2.2
        simp [hcur (by simpa using hv)] at hnot
      simp [SegEntry.update, addDel, hval, hzero]
    · rw [Function.update_of_ne hx]
      exact hzero

lemma setSitEntryType_sentries (s : SitInfo) (t : CursegType) (segno : ℕ) (modified : Bool) :
    (setSitEntryType s t segno modified).sentries
      = Function.update s.sentries segno { s.sentries segno with type := t } := by
  cases modified <;> simp [setSitEntryType]

/-- **A segment that is on no list becomes current**: its type may change. -/
lemma DirtyInv.opened {c : CursegInfo} {nsbi : NvmSbInfo} {freeI : FreeSegmapInfo}
    (h : DirtyInv g m) (hpre : m.dirtyI.dirtySegmap .pre segno = false)
    (hdirty : m.dirtyI.dirtySegmap .dirty segno = false)
    (hfree : freeI.freeSegmap = Function.update m.freeI.freeSegmap segno true)
    (hc : c.segno = segno) :
    DirtyInv g
      { sit := setSitEntryType m.sit t segno true
        nsbi
        freeI
        dirtyI := m.dirtyI
        curseg := Function.update m.curseg t c } where
  counted := h.counted
  types := by
    intro u s
    simp only [setSitEntryType_sentries]
    by_cases hs : s = segno
    · subst hs
      rw [h.types u s, hdirty]
      rfl
    · rw [Function.update_of_ne hs]
      exact h.types u s
  prefree := by
    intro s hs
    have hne : s ≠ segno := by
      rintro rfl
      simp [hpre] at hs
    simp only [setSitEntryType_sentries, Function.update_of_ne hne]
    exact h.prefree s hs
  used := by
    intro s hs
    have hne : s ≠ segno := by
      rintro rfl
      simp [hpre, hdirty] at hs
    obtain ⟨hlt, hused, hcur⟩ := h.used s hs
    refine ⟨hlt, ?_, ?_⟩
    · simp only [hfree, Function.update_of_ne hne]
      exact hused
    · simp only [isCurseg, List.any_eq_false, beq_iff_eq] at hcur ⊢
      intro u hu
      by_cases hut : u = t
      · subst hut
        rw [Function.update_self, hc]
        exact hne
      · rw [Function.update_of_ne hut]
        exact hcur u hu
  current := by
    intro u
    by_cases hut : u = t
    · subst hut
      simp [hfree, hc]
    · simp only [Function.update_of_ne hut, hfree]
      by_cases hs : (m.curseg u).segno = segno
      · rw [hs, Function.update_self]
      · rw [Function.update_of_ne hs]
        exact h.current u

/-- A free segment is on no list. -/
lemma DirtyInv.newCurseg {hints : AllocHints} {newSec : Bool} (h : DirtyInv g m)
    (hnew : newCurseg g m hints t newSec = some m') : DirtyInv g m' := by
  obtain ⟨segno, -, hfree, rfl⟩ := newCurseg_spec hnew
  have hoff : ∀ u, (u = .pre ∨ u = .dirty) → m.dirtyI.dirtySegmap u segno = false := by
    intro u hu
    by_contra hon
    have hused := (h.used segno (by
      rcases hu with rfl | rfl
      · exact Or.inl (by simpa using hon)
      · exact Or.inr (by simpa using hon))).2.1
    simp [hfree] at hused
  exact h.opened (hoff .pre (Or.inl rfl)) (hoff .dirty (Or.inr rfl)) rfl rfl

lemma setTestAndInuse_freeSegmap (g : SecGeometry) (freeI : FreeSegmapInfo) (segno : ℕ) :
    (setTestAndInuse g freeI segno).freeSegmap = Function.update freeI.freeSegmap segno true := by
  unfold setTestAndInuse
  split_ifs with hb
  · rw [← hb, Function.update_eq_self]
  · rfl

/-- `change_curseg` takes the segment off its lists **before its type changes**. -/
lemma DirtyInv.changeCurseg {v : ℕ} (h : DirtyInv g m) (hv : v < g.segmentCountMain) :
    DirtyInv g (changeCurseg g (m.setCurseg t { m.curseg t with nextSegno := v }) t) := by
  have hpre := removeDirtySegment_pre_marks h.counted h.typed hv
  have hsame : (removeDirtySegment g m v .pre).segType = m.segType := by
    rw [removeDirtySegment_eq]
    rfl
  have hdirty := removeDirtySegment_dirty_marks (m := removeDirtySegment g m v .pre) hpre.counted
    (hsame ▸ hpre.typed h.typed) hv
  rw [hsame, hpre.pre] at hdirty
  have hoff := h.mark (hpre.trans hdirty) (by simp) (by simp)
  rw [changeCurseg_spec]
  exact hoff.opened hdirty.pre hdirty.dirty (setTestAndInuse_freeSegmap _ _ _) rfl

/-! ## Checkpoints -/

/-- Neither its type nor its number of valid blocks changes. -/
def SameUse (s s' : SitInfo) : Prop :=
  ∀ x, (s'.sentries x).type = (s.sentries x).type ∧
    (s'.sentries x).validBlocks = (s.sentries x).validBlocks

lemma SameUse.of_sentries {s s' : SitInfo} (h : s'.sentries = s.sentries) : SameUse s s' :=
  fun x => by rw [h]; exact ⟨rfl, rfl⟩

lemma SameUse.trans {s s' s'' : SitInfo} (h : SameUse s s') (h' : SameUse s' s'') : SameUse s s'' :=
  fun x => ⟨(h' x).1.trans (h x).1, (h' x).2.trans (h x).2⟩

lemma flush_sameUse (s : SitInfo) (o : Options) (cpc : CpControl) :
    SameUse s (f2fsFlushSitEntries g o s cpc) := by
  refine flush_induction (P := SameUse s) g o cpc ?_ ?_ ?_ ?_ ?_ ?_ (SameUse.of_sentries rfl)
  · intro s' toJournal segno h _ _
    refine h.trans fun x => ?_
    rw [(flushSitEntry_flushed cpc toJournal s' segno).sentries]
    by_cases hx : x = segno
    · subst hx
      simp [SegEntry.checkpointed]
    · rw [Function.update_of_ne hx]
      exact ⟨rfl, rfl⟩
  · exact fun s' start h => h.trans (SameUse.of_sentries rfl)
  · exact fun s' b h => h.trans (SameUse.of_sentries rfl)
  · exact fun s' segno h _ => h.trans (SameUse.of_sentries (by simp))
  · exact fun s' h => h.trans (SameUse.of_sentries rfl)
  · exact fun s' segno h _ _ => h.trans (SameUse.of_sentries (addDiscardAddrs_sameTable s' segno).sentries)

lemma discardBlk_sameUse (s : SitInfo) (blk : ℕ) : SameUse s (discardBlk s blk) := by
  intro x
  simp only [discardBlk]
  split_ifs
  · exact ⟨rfl, rfl⟩
  · by_cases hx : x = getSegno blk
    · subst hx
      simp
    · simp [hx]

lemma issueDiscard_sameUse (s : SitInfo) (r : BlkRange) : SameUse s (issueDiscard s r) := by
  unfold issueDiscard
  generalize List.range' r.start r.len = blks
  induction blks generalizing s with
  | nil => exact SameUse.of_sentries rfl
  | cons b blks ih => exact (discardBlk_sameUse s b).trans (ih _)

lemma issueAll_sameUse (issued : List BlkRange) (s : SitInfo) :
    SameUse s (issued.foldl issueDiscard s) := by
  induction issued generalizing s with
  | nil => exact SameUse.of_sentries rfl
  | cons r issued ih => exact (issueDiscard_sameUse s r).trans (ih _)

/-- The segments on the `PRE` list become free. -/
lemma setPrefreeAsFreeSegments_freeSegmap (m : SegMan) (s : ℕ) :
    (setPrefreeAsFreeSegments g m).freeI.freeSegmap s
      = (m.freeI.freeSegmap s &&
          !(m.dirtyI.dirtySegmap .pre s && decide (s < g.segmentCountMain))) := by
  have hfold : ∀ (segs : List ℕ) (x : NvmSbInfo × FreeSegmapInfo),
      (segs.foldl (fun x segno => setTestAndFree g.toGeometry x.1 x.2 segno) x).2.freeSegmap s
        = (x.2.freeSegmap s && !decide (s ∈ segs)) := by
    intro segs
    induction segs with
    | nil => simp
    | cons y segs ih =>
        intro x
        rw [List.foldl_cons, ih]
        simp only [setTestAndFree, clearFreeSegmap_freeSegmap]
        by_cases hy : s = y
        · simp [hy]
        · simp [hy]
  simp only [setPrefreeAsFreeSegments, hfold]
  congr 2
  simp [Bool.and_comm]

/-- **The condition**: the checkpoint takes everything that it frees off the `PRE` list. -/
def ClearsPrefree (g : SegGeometry) (o : Options) (m : SegMan) (cpc : CpControl)
    (committed : Bool) : Prop :=
  if committed = true then SkipsNone g o cpc (m.dirtyI.dirtySegmap .pre)
  else ∀ s < g.segmentCountMain, m.dirtyI.dirtySegmap .pre s = false

instance (m : SegMan) (committed : Bool) : Decidable (ClearsPrefree g o m cpc committed) :=
  inferInstanceAs (Decidable (ite _ _ _))

/-- **The `PRE` list is empty after such a checkpoint**, and the other lists are as they were. -/
lemma checkpoint_dirtyI {committed : Bool} (h : DirtyInv g m)
    (hclear : ClearsPrefree g o m cpc committed) :
    (∀ s, (checkpoint g o m cpc committed).1.dirtyI.dirtySegmap .pre s = false) ∧
      (checkpoint g o m cpc committed).1.dirtyI.nrDirty .pre = 0 ∧
      ∀ u, u ≠ .pre →
        (checkpoint g o m cpc committed).1.dirtyI.dirtySegmap u = m.dirtyI.dirtySegmap u ∧
        (checkpoint g o m cpc committed).1.dirtyI.nrDirty u = m.dirtyI.nrDirty u := by
  cases committed with
  | true =>
      set m₁ := setPrefreeAsFreeSegments g { m with sit := f2fsFlushSitEntries g o m.sit cpc }
        with hm₁
      have hd : m₁.dirtyI = m.dirtyI := rfl
      set x := clearPrefreeLoop g o cpc m₁ (g.segmentCountMain + 1) 0
        (m.dirtyI.dirtySegmap .pre, 0, []) with hx
      have hbelow : ∀ i < g.segmentCountMain, x.1 i = false :=
        clearPrefreeLoop_clears (by simpa [ClearsPrefree] using hclear) (by omega) (by simp)
          (by simp)
      have hpre : ∀ i, x.1 i = false := by
        intro i
        by_contra hi
        have hset : x.1 i = true := by simpa using hi
        have hlt := (h.used i (Or.inl (clearPrefreeLoop_le _ _ _ hset))).1
        simp [hbelow i hlt] at hset
      have hnr : m.dirtyI.nrDirty .pre - x.2.1 = 0 := by
        have hbits := @clearPrefreeLoop_bits g o cpc m₁
          (g.segmentCountMain + 1) 0 (m.dirtyI.dirtySegmap .pre, 0, [])
        rw [← hx] at hbits
        have hempty : setBits x.1 g.segmentCountMain = 0 := setBits_eq_zero.mpr hbelow
        have hcnt := h.counted .pre
        simp only [hempty] at hbits
        omega
      refine ⟨?_, ?_, ?_⟩
      · simpa [checkpoint, f2fsClearPrefreeSegments, ← hm₁, hd, ← hx] using hpre
      · simpa [checkpoint, f2fsClearPrefreeSegments, ← hm₁, hd, ← hx] using hnr
      · intro u hu
        simp [checkpoint, f2fsClearPrefreeSegments, ← hm₁, hd, hu]
  | false =>
      have hclear : ∀ s < g.segmentCountMain, m.dirtyI.dirtySegmap .pre s = false := by
        simpa [ClearsPrefree] using hclear
      refine ⟨fun s => ?_, ?_, fun u _ => ⟨rfl, rfl⟩⟩
      · change m.dirtyI.dirtySegmap .pre s = false
        by_contra hs
        have hset : m.dirtyI.dirtySegmap .pre s = true := by simpa using hs
        simp [hclear s (h.used s (Or.inl hset)).1] at hset
      · change m.dirtyI.nrDirty .pre = 0
        rw [h.counted .pre]
        exact setBits_eq_zero.mpr hclear

lemma checkpoint_sameUse (m : SegMan) (cpc : CpControl) (committed : Bool) :
    SameUse m.sit (checkpoint g o m cpc committed).1.sit := by
  have hflush := flush_sameUse (g := g) m.sit o cpc
  simp only [checkpoint]
  split_ifs
  · exact (hflush.trans (issueAll_sameUse _ _)).trans (SameUse.of_sentries rfl)
  · exact hflush.trans (SameUse.of_sentries rfl)

lemma checkpoint_freeSegmap (m : SegMan) (cpc : CpControl) (committed : Bool) (s : ℕ) :
    (checkpoint g o m cpc committed).1.freeI.freeSegmap s
      = (m.freeI.freeSegmap s &&
          !(m.dirtyI.dirtySegmap .pre s && decide (s < g.segmentCountMain))) := by
  have hfree := setPrefreeAsFreeSegments_freeSegmap (g := g)
    { m with sit := f2fsFlushSitEntries g o m.sit cpc } s
  simp only [checkpoint]
  split_ifs
  · exact hfree
  · exact hfree

lemma DirtyInv.checkpoint {committed : Bool} (h : DirtyInv g m)
    (hclear : ClearsPrefree g o m cpc committed) :
    DirtyInv g (checkpoint g o m cpc committed).1 := by
  obtain ⟨hpre, hnr, hother⟩ := checkpoint_dirtyI h hclear
  have huse := checkpoint_sameUse (g := g) (o := o) m cpc committed
  refine ⟨fun u => ?_, fun u s => ?_, fun s hs => ?_, fun s hs => ?_, fun u => ?_⟩
  · by_cases hu : u = .pre
    · subst hu
      rw [hnr]
      exact (setBits_eq_zero.mpr fun i _ => hpre i).symm
    · rw [(hother u hu).1, (hother u hu).2]
      exact h.counted u
  · rw [(hother (.ofType u) (by simp)).1, (hother .dirty (by simp)).1, (huse s).1]
    exact h.types u s
  · simp [hpre] at hs
  · rw [hpre, (hother .dirty (by simp)).1] at hs
    have hdirty : m.dirtyI.dirtySegmap .dirty s = true := by simpa using hs
    obtain ⟨hlt, hused, hcur⟩ := h.used s (Or.inr hdirty)
    refine ⟨hlt, ?_, by simpa [isCurseg] using hcur⟩
    -- It was not freed: a segment on both lists would have to be off the `DIRTY` list.
    have hnot : m.dirtyI.dirtySegmap .pre s = false := by
      by_contra hp
      have := (h.prefree s (by simpa using hp)).2
      simp [hdirty] at this
    rw [checkpoint_freeSegmap, hused, hnot]
    rfl
  · have hnot : m.dirtyI.dirtySegmap .pre (m.curseg u).segno = false := by
      by_contra hp
      have hcur := (h.used _ (Or.inl (by simpa using hp))).2.2
      simp only [isCurseg, List.any_eq_false, beq_iff_eq] at hcur
      exact hcur u (by cases u <;> simp [CursegType.all]) rfl
    rw [checkpoint_curseg, checkpoint_freeSegmap, h.current u, hnot]
    rfl

/-! ## Runs -/

/-- The functions that change the lists, or what they are about. -/
inductive DirtyStep where
  | update (blk : ℕ) (validate : Bool) (mtime : BitVec 64)
  | locate (segno : ℕ)
  | newCurseg (h : AllocHints) (t : CursegType) (newSec : Bool)
  | changeCurseg (t : CursegType) (segno : ℕ)
  | checkpoint (cpc : CpControl) (committed : Bool)

def dirtyStep (g : SegGeometry) (o : Options) (m : SegMan) : DirtyStep → Option SegMan
  | .update blk validate mtime =>
      some { m with sit := updateSitEntry g o m.sit blk validate mtime }
  | .locate segno => some (locateDirtySegment g m segno)
  | .newCurseg h t newSec => newCurseg g m h t newSec
  | .changeCurseg t segno =>
      some (changeCurseg g (m.setCurseg t { m.curseg t with nextSegno := segno }) t)
  | .checkpoint cpc committed => some (checkpoint g o m cpc committed).1

/-- **Callers make invalid blocks of current segments valid and valid blocks invalid**, and name
segments in use. -/
def DirtyCallersRight (g : SegGeometry) (m : SegMan) : DirtyStep → Prop
  | .update blk validate _ => blk < g.segmentCountMain * blocksPerSeg ∧
      isValid m.sit blk = !validate ∧ (validate = true → isCurseg m (getSegno blk) = true)
  | .locate segno => segno ≠ nullSegno →
      segno < g.segmentCountMain ∧ m.freeI.freeSegmap segno = true
  | .newCurseg _ _ _ => True
  | .changeCurseg _ segno => segno < g.segmentCountMain
  | .checkpoint cpc _ => cpc.force = true → cpc.trimEnd < g.segmentCountMain

instance (m : SegMan) : ∀ a : DirtyStep, Decidable (DirtyCallersRight g m a)
  | .update .. => inferInstanceAs (Decidable (_ ∧ _ ∧ _))
  | .locate .. => inferInstanceAs (Decidable (_ → _))
  | .newCurseg .. => inferInstanceAs (Decidable True)
  | .changeCurseg .. => inferInstanceAs (Decidable (_ < _))
  | .checkpoint .. => inferInstanceAs (Decidable (_ → _))

/-- Each checkpoint meets the condition. -/
def PrefreeCleared (g : SegGeometry) (o : Options) (m : SegMan) : DirtyStep → Prop
  | .checkpoint cpc committed => ClearsPrefree g o m cpc committed
  | _ => True

instance (m : SegMan) : ∀ a : DirtyStep, Decidable (PrefreeCleared g o m a)
  | .checkpoint cpc committed => inferInstanceAs (Decidable (ClearsPrefree g o m cpc committed))
  | .update .. => inferInstanceAs (Decidable True)
  | .locate .. => inferInstanceAs (Decidable True)
  | .newCurseg .. => inferInstanceAs (Decidable True)
  | .changeCurseg .. => inferInstanceAs (Decidable True)

/-- What the lists are for. -/
structure DirtyListsRight (g : SegGeometry) (m : SegMan) : Prop where
  counted : ∀ u, m.dirtyI.nrDirty u = setBits (m.dirtyI.dirtySegmap u) g.segmentCountMain
  union : ∀ s, m.dirtyI.dirtySegmap .dirty s = true
    ↔ ∃ t, m.dirtyI.dirtySegmap (.ofType t) s = true
  disjoint : ∀ t u s, m.dirtyI.dirtySegmap (.ofType t) s = true →
    m.dirtyI.dirtySegmap (.ofType u) s = true → t = u
  prefree : ∀ s, m.dirtyI.dirtySegmap .pre s = true → (m.sit.sentries s).validBlocks = 0
  located : ∀ s < g.segmentCountMain, isCurseg m s = false →
    ((locateDirtySegment g m s).dirtyI.dirtySegmap .dirty s = true
      ↔ 0 < (m.sit.sentries s).validBlocks ∧ (m.sit.sentries s).validBlocks < blocksPerSeg)

lemma DirtyInv.right (h : DirtyInv g m) : DirtyListsRight g m where
  counted := h.counted
  union := by
    intro s
    constructor
    · intro hs
      exact ⟨m.segType s, by simpa [h.types, SegMan.segType] using hs⟩
    · rintro ⟨t, ht⟩
      rw [h.types] at ht
      simp only [Bool.and_eq_true] at ht
      exact ht.1
  disjoint := by
    intro t u s ht hu
    rw [h.types] at ht hu
    simp only [Bool.and_eq_true, decide_eq_true_eq] at ht hu
    exact ht.2.symm.trans hu.2
  prefree := fun s hs => (h.prefree s hs).1
  located := by
    intro s hlt hcur
    rw [(locateDirtySegment_marks h.counted h.typed hlt hcur).dirty]
    simp only [Bool.and_eq_true, decide_eq_true_eq]

lemma DirtyInv.step {a : DirtyStep} (h : DirtyInv g m) (hright : DirtyCallersRight g m a)
    (hclear : PrefreeCleared g o m a) (hstep : dirtyStep g o m a = some m') : DirtyInv g m' := by
  cases a with
  | update blk validate mtime =>
      obtain rfl := Option.some.inj hstep
      exact h.updateSitEntry hright.2.2
  | locate segno =>
      obtain rfl := Option.some.inj hstep
      exact h.locateDirtySegment hright
  | newCurseg hints t newSec => exact h.newCurseg hstep
  | changeCurseg t segno =>
      obtain rfl := Option.some.inj hstep
      exact h.changeCurseg hright
  | checkpoint cpc committed =>
      obtain rfl := Option.some.inj hstep
      exact h.checkpoint hclear

/-- **The lists are right throughout**, in every run in which each checkpoint takes everything that
it frees off the `PRE` list. -/
theorem dirty_lists_throughout {steps : List DirtyStep} (h : DirtyInv g m)
    (hright : StepsMeet (dirtyStep g o)
      (fun m a => DirtyCallersRight g m a ∧ PrefreeCleared g o m a) m steps) :
    Throughout (dirtyStep g o) (DirtyListsRight g) m steps :=
  (throughout_of_stepsMeet (fun _ _ _ hs hg hstep => hs.step hg.1 hg.2 hstep) h hright).mono
    fun _ hs => hs.right

/-! ## A mount -/

lemma DirtyInv.initDirtySegment (h : DirtyInv g m) (hlt : segno < g.segmentCountMain)
    (hfree : m.freeI.freeSegmap segno = true)
    (hempty : ∀ s, m.dirtyI.dirtySegmap .pre s = false) :
    DirtyInv g (initDirtySegment g m segno) ∧
      ∀ s, (initDirtySegment g m segno).dirtyI.dirtySegmap .pre s = false := by
  simp only [Segment.initDirtySegment]
  split_ifs
  · exact ⟨h, hempty⟩
  · by_cases hcur : isCurseg m segno = true
    · rw [locateDirty, if_pos hcur]
      exact ⟨h, hempty⟩
    · have hcur' : isCurseg m segno = false := by simpa using hcur
      have hm := locateDirty_dirty_marks h.counted h.typed hlt hcur'
      rw [hempty segno] at hm
      rw [locateDirty_eq]
      refine ⟨h.mark hm (by simp) fun _ => ⟨hlt, hfree, hcur'⟩, fun s => ?_⟩
      by_cases hs : s = segno
      · exact hs ▸ hm.pre
      · exact (hm.other .pre s hs).trans (hempty s)

/-- **`init_dirty_segmap` builds lists that are right**, if the current segments are in use. -/
lemma DirtyInv.initDirtySegmap (hmap : ∀ u s, m.dirtyI.dirtySegmap u s = false)
    (hcnt : ∀ u, m.dirtyI.nrDirty u = 0)
    (hcur : ∀ t, m.freeI.freeSegmap (m.curseg t).segno = true) : DirtyInv g (initDirtySegmap g m) := by
  have hfirst : DirtyInv g m :=
    ⟨fun u => (hcnt u).trans (setBits_eq_zero.mpr fun i _ => hmap u i).symm,
      fun t s => by simp [hmap], fun s hs => by simp [hmap] at hs, fun s hs => by simp [hmap] at hs,
      hcur⟩
  have hfold : ∀ (segs : List ℕ) (m : SegMan), DirtyInv g m →
      (∀ s, m.dirtyI.dirtySegmap .pre s = false) →
      (∀ x ∈ segs, x < g.segmentCountMain ∧ m.freeI.freeSegmap x = true) →
      DirtyInv g (segs.foldl (Segment.initDirtySegment g) m) := by
    intro segs
    induction segs with
    | nil => exact fun m h _ _ => h
    | cons x segs ih =>
        intro m h hempty hsegs
        obtain ⟨hlt, hfree⟩ := hsegs x List.mem_cons_self
        obtain ⟨h', hempty'⟩ := h.initDirtySegment hlt hfree hempty
        refine ih _ h' hempty' fun y hy => ?_
        rw [initDirtySegment_eq]
        exact hsegs y (List.mem_cons_of_mem x hy)
  refine hfold _ m hfirst (hmap .pre) fun x hx => ?_
  obtain ⟨hx, hfree⟩ := List.mem_filter.mp hx
  exact ⟨List.mem_range.mp hx, hfree⟩

lemma crowded_dirtyInv : DirtyInv threeSections crowded := by
  refine DirtyInv.initDirtySegmap (fun _ _ => rfl) (fun _ => rfl) fun t => ?_
  cases t <;> decide +kernel

/-- Both blocks of the first section that are alone in their segments become invalid, and a
checkpoint follows. -/
def emptiedCalls : List DirtyStep :=
  [.update 0 false 7, .locate 0, .update (3 * 512) false 7, .locate 3, .checkpoint plainCp true]

/-- Then the freed segment 3 becomes a current segment and gets a block. -/
def rewrittenCalls : List DirtyStep :=
  emptiedCalls ++ [.newCurseg plainEnv.hints .warmData false, .update (3 * 512) true 8, .locate 2]

/-- Without discards all goes well. -/
theorem dirty_lists_rewrittenCalls :
    ∃ m, exec (dirtyStep threeSections ⟨false, false, true⟩) crowded rewrittenCalls = some m ∧
      DirtyListsRight threeSections m := by
  have hsome : (exec (dirtyStep threeSections ⟨false, false, true⟩) crowded rewrittenCalls).isSome
      = true := by decide +kernel
  obtain ⟨m, hm⟩ := Option.isSome_iff_exists.mp hsome
  have hright : StepsMeet (dirtyStep threeSections ⟨false, false, true⟩)
      (fun m a => DirtyCallersRight threeSections m a ∧
        PrefreeCleared threeSections ⟨false, false, true⟩ m a) crowded rewrittenCalls := by
    decide +kernel
  exact ⟨m, hm, (dirty_lists_throughout crowded_dirtyInv hright).last hm⟩

/-- **Where whole sections are discarded, segment 3 stays on the `PRE` list** when segment 0 is taken
off it, and has a valid block there. -/
theorem prefree_segment_written :
    StepsMeet (dirtyStep threeSections ⟨true, true, true⟩) (DirtyCallersRight threeSections) crowded
        rewrittenCalls ∧
      ∃ m, exec (dirtyStep threeSections ⟨true, true, true⟩) crowded rewrittenCalls = some m ∧
        m.dirtyI.dirtySegmap .pre 3 = true ∧ (m.sit.sentries 3).validBlocks = 1 ∧
        ¬DirtyListsRight threeSections m := by
  have hright : StepsMeet (dirtyStep threeSections ⟨true, true, true⟩)
      (DirtyCallersRight threeSections) crowded rewrittenCalls := by decide +kernel
  have hbad : ((exec (dirtyStep threeSections ⟨true, true, true⟩) crowded rewrittenCalls).map
      fun m => (m.dirtyI.dirtySegmap .pre 3, (m.sit.sentries 3).validBlocks)) = some (true, 1) := by
    decide +kernel
  obtain ⟨m, hm, hpair⟩ := Option.map_eq_some_iff.mp hbad
  obtain ⟨hpre, hvalid⟩ := Prod.mk.inj hpair
  refine ⟨hright, m, hm, hpre, hvalid, fun h => ?_⟩
  have hzero := h.prefree 3 hpre
  omega

end Hoit.Segment
