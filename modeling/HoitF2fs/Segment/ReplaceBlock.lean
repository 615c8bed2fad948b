import HoitF2fs.Segment.SitRuns

/-!
# Replacing a block

`f2fs_do_replace_block` makes a block of any segment the new place of some data.  To do so it moves
a current segment there for a moment, and the summary of that segment goes to the SSA area and
comes back from it.

* `LogMan` — the segment manager with the summary blocks: of the current segments in memory, and of
  all segments in the SSA area.
* `doReplaceBlock` — the function with the summaries, in its four parts; without them it is
  `Segment.f2fsDoReplaceBlock` (`doReplaceBlock_man`).
* `LogOk` — what holds between two calls.
* `replace_block_recovers` — **with `recover_curseg` the current segments are what they were**, and
  exactly the two blocks change their validity.

**A current segment that is the target itself** is not moved: its summary keeps the entry of the
replaced block.
-/

namespace Hoit.Segment.ReplaceBlock

open Bitmap

/-! ## Summaries -/

/-- `struct f2fs_summary`. -/
structure Summary where
  nid : BitVec 32
  version : BitVec 8
  ofsInNode : BitVec 16
deriving DecidableEq

/-- `struct summary_footer`. -/
structure SummaryFooter where
  /-- `entry_type`: `SUM_TYPE_NODE`, not `SUM_TYPE_DATA`. -/
  node : Bool
  checkSum : BitVec 32
deriving DecidableEq

/-- `struct f2fs_summary_block`, less the journal, which is cached elsewhere. -/
structure SummaryBlock where
  entries : ℕ → Summary
  footer : SummaryFooter

/-- The segment manager and the summaries; `ssa` holds the block at `GET_SUM_BLOCK`. -/
structure LogMan where
  man : SegMan
  sumBlk : CursegType → SummaryBlock
  ssa : ℕ → SummaryBlock

/-- The footer that `reset_curseg` writes. -/
def resetFooter (t : CursegType) : SummaryFooter := ⟨t.isNode, 0⟩

variable (g : SegGeometry) (o : Options)

/-- `change_curseg`, with the summaries, to segment `segno`. -/
def switchCurseg (x : LogMan) (t : CursegType) (segno : ℕ) : LogMan :=
  let c := x.man.curseg t
  -- `write_sum_page` goes first, so that `f2fs_get_sum_page` may read the same block back.
  let ssa := Function.update x.ssa c.segno (x.sumBlk t)
  { man := changeCurseg g (x.man.setCurseg t { c with nextSegno := segno }) t
    sumBlk := Function.update x.sumBlk t ⟨(ssa segno).entries, resetFooter t⟩
    ssa }

/-- `__add_sum_entry`. -/
def addSumEntry (x : LogMan) (t : CursegType) (sum : Summary) : LogMan :=
  { x with
    sumBlk := Function.update x.sumBlk t
      { x.sumBlk t with
        entries := Function.update (x.sumBlk t).entries (x.man.curseg t).nextBlkoff sum } }

/-! ## The parts of `f2fs_do_replace_block` -/

/-- The current segment goes to the new block, which gets its entry in the summary. -/
def enterSegment (x : LogMan) (t : CursegType) (new : ℕ) (sum : Summary) : LogMan :=
  let x₁ := if getSegno new = (x.man.curseg t).segno then x else switchCurseg g x t (getSegno new)
  addSumEntry { x₁ with
    man := x₁.man.setCurseg t { x₁.man.curseg t with nextBlkoff := getBlkoff new } } t sum

/-- The two blocks in the table. -/
def recordBlocks (m : SegMan) (old : Option ℕ) (new : ℕ) (validate : Bool) (mtime : BitVec 64) :
    SegMan :=
  updateSit g o (if validate then updateSit g o m (some new) true mtime else m) old false mtime

/-- The three segments in the lists of dirty ones. -/
def locateSegments (m : SegMan) (old : Option ℕ) (new oldCursegno : ℕ) : SegMan :=
  locateDirtySegment g (locateDirtySegment g (locateDirtySegment g m (segnoOf old))
    (getSegno new)) oldCursegno

/-- The current segment goes back to where it was. -/
def leaveSegment (x : LogMan) (t : CursegType) (old : CursegInfo) : LogMan :=
  let x₁ := if old.segno = (x.man.curseg t).segno then x else switchCurseg g x t old.segno
  { x₁ with man := x₁.man.setCurseg t { x₁.man.curseg t with nextBlkoff := old.nextBlkoff } }

/-- `f2fs_do_replace_block`; `none` if a check fires. -/
def doReplaceBlock (x : LogMan) (sum : Summary) (old : Option ℕ) (oldNull : Bool) (new : ℕ)
    (recoverCurseg recoverNewaddr : Bool) (mtime : BitVec 64) : Option LogMan :=
  (replaceType x.man oldNull (getSegno new) recoverCurseg).bind fun t =>
    if t.isNode then none
    else
      let c := x.man.curseg t
      let x₁ := enterSegment g x t new sum
      let x₂ := { x₁ with
        man := locateSegments g
          (recordBlocks g o x₁.man old new (!recoverCurseg || recoverNewaddr) mtime)
          old new c.segno }
      some (if recoverCurseg then leaveSegment g x₂ t c else x₂)

variable {g o} {x x' : LogMan} {t : CursegType} {new : ℕ} {sum : Summary} {old : Option ℕ}
  {mtime : BitVec 64}

/-- What a current segment goes through on either way, without its summary. -/
def moveCurseg (g : SegGeometry) (m : SegMan) (t : CursegType) (segno nextBlkoff : ℕ) : SegMan :=
  let m₁ := if segno = (m.curseg t).segno then m
    else changeCurseg g (m.setCurseg t { m.curseg t with nextSegno := segno }) t
  m₁.setCurseg t { m₁.curseg t with nextBlkoff }

lemma enterSegment_man : (enterSegment g x t new sum).man
    = moveCurseg g x.man t (getSegno new) (getBlkoff new) := by
  unfold enterSegment moveCurseg
  split_ifs <;> rfl

lemma leaveSegment_man (c : CursegInfo) : (leaveSegment g x t c).man
    = moveCurseg g x.man t c.segno c.nextBlkoff := by
  unfold leaveSegment moveCurseg
  split_ifs <;> rfl

/-- **Without the summaries** this is the function of the segment manager. -/
theorem doReplaceBlock_man (oldNull recoverCurseg recoverNewaddr : Bool) :
    (doReplaceBlock g o x sum old oldNull new recoverCurseg recoverNewaddr mtime).map LogMan.man
      = f2fsDoReplaceBlock g o x.man old oldNull new recoverCurseg recoverNewaddr mtime := by
  unfold doReplaceBlock f2fsDoReplaceBlock
  rw [Option.map_bind]
  congr 1
  funext t
  simp only [Function.comp_apply]
  by_cases hnode : t.isNode = true
  · rw [if_pos hnode, if_pos hnode]
    rfl
  · rw [if_neg hnode, if_neg hnode]
    cases recoverCurseg with
    | false =>
        simp only [Option.map_some, enterSegment_man, Bool.false_eq_true, if_false]
        rfl
    | true =>
        simp only [Option.map_some, leaveSegment_man, enterSegment_man, if_true]
        rfl

/-! ## The current segment -/

/-- What moving the current segment `t` does: its segment gets the type `t`, and nothing else in the
table changes that is of interest. -/
structure Moved (g : SegGeometry) (o : Options) (m m' : SegMan) (t : CursegType)
    (segno nextBlkoff : ℕ) : Prop where
  sit : m'.sit.Accounted g o
  valid : ∀ b, isValid m'.sit b = isValid m.sit b
  others : ∀ u, u ≠ t → m'.curseg u = m.curseg u
  segno_eq : (m'.curseg t).segno = segno
  blkoff_eq : (m'.curseg t).nextBlkoff = nextBlkoff
  types : ∀ s, (m'.sit.sentries s).type = if s = segno then t else (m.sit.sentries s).type

variable {m : SegMan} {segno nextBlkoff : ℕ}

lemma setSitEntryType_type (s : SitInfo) (t : CursegType) (segno x : ℕ) (modified : Bool) :
    ((setSitEntryType s t segno modified).sentries x).type
      = if x = segno then t else (s.sentries x).type := by
  cases modified with
  | false => by_cases hx : x = segno <;> simp [setSitEntryType, hx]
  | true => by_cases hx : x = segno <;> simp [setSitEntryType, hx]

lemma moveCurseg_moved (hsit : m.sit.Accounted g o) (hlt : segno < g.segmentCountMain)
    (htyped : (m.sit.sentries (m.curseg t).segno).type = t) :
    Moved g o m (moveCurseg g m t segno nextBlkoff) t segno nextBlkoff := by
  unfold moveCurseg
  split_ifs with hsame
  · refine ⟨hsit, fun _ => rfl, fun u hu => SegMan.setCurseg_of_ne _ hu _, ?_, ?_, fun s => ?_⟩
    · rw [SegMan.setCurseg_self]
      exact hsame.symm
    · rw [SegMan.setCurseg_self]
    · by_cases hs : s = segno
      · rw [if_pos hs, hs, hsame]
        exact htyped
      · rw [if_neg hs]
        rfl
  · obtain ⟨hacc, hvalid⟩ := hsit.changeCurseg (t := t) hlt
    obtain ⟨hothers, hown⟩ := changeCurseg_segno (g := g) m t segno
    refine ⟨hacc, hvalid, fun u hu => ?_, ?_, ?_, fun s => ?_⟩
    · rw [SegMan.setCurseg_of_ne _ hu]
      exact hothers u hu
    · rw [SegMan.setCurseg_self]
      exact hown
    · rw [SegMan.setCurseg_self]
    · show ((changeCurseg g (m.setCurseg t { m.curseg t with nextSegno := segno }) t).sit.sentries
        s).type = _
      rw [changeCurseg_spec]
      exact setSitEntryType_type m.sit t segno s true

/-! ## The table -/

variable {validate : Bool} {b : ℕ}

/-- One block, whether or not the caller is right about it. -/
lemma accounted_updateSitEntry {s : SitInfo} {blk : ℕ} (h : s.Accounted g o)
    (hblk : blk < g.segmentCountMain * blocksPerSeg)
    (hnode : validate = true → (s.sentries (getSegno blk)).type.isNode = false) :
    (updateSitEntry g o s blk validate mtime).Accounted g o := by
  by_cases hexist : isValid s blk = !validate
  · exact h.updateSitEntry hblk hexist
  · have hsame : (s.sentries (getSegno blk)).curValidMap (getBlkoff blk) = validate := by
      change isValid s blk = validate
      cases validate with
      | false => simpa using hexist
      | true => simpa using hexist
    exact h.of_sitOk (h.toSitOk.updateSitEntry_same hblk hsame hnode)

lemma updateSitEntry_type (s : SitInfo) (blk x : ℕ) (validate : Bool) (mtime : BitVec 64) :
    ((updateSitEntry g o s blk validate mtime).sentries x).type = (s.sentries x).type := by
  rw [updateSitEntry_sentries]
  by_cases hx : x = getSegno blk
  · rw [hx, Function.update_self]
    rfl
  · rw [Function.update_of_ne hx]

/-- What the two updates do. -/
structure Recorded (g : SegGeometry) (o : Options) (m m' : SegMan) (old : Option ℕ) (new : ℕ)
    (validate : Bool) : Prop where
  sit : m'.sit.Accounted g o
  curseg : m'.curseg = m.curseg
  types : ∀ s, (m'.sit.sentries s).type = (m.sit.sentries s).type
  valid : ∀ b, isValid m'.sit b
    = if some b = old then false else if validate = true ∧ b = new then true else isValid m.sit b

lemma recordBlocks_recorded (hsit : m.sit.Accounted g o)
    (hnew : new < g.segmentCountMain * blocksPerSeg)
    (hold : ∀ b ∈ old, b < g.segmentCountMain * blocksPerSeg)
    (hnode : (m.sit.sentries (getSegno new)).type.isNode = false) :
    Recorded g o m (recordBlocks g o m old new validate mtime) old new validate := by
  set m₁ := if validate then updateSit g o m (some new) true mtime else m with hm₁
  have h₁ : m₁.sit.Accounted g o ∧ m₁.curseg = m.curseg ∧
      (∀ s, (m₁.sit.sentries s).type = (m.sit.sentries s).type) ∧
      ∀ b, isValid m₁.sit b = if validate = true ∧ b = new then true else isValid m.sit b := by
    rw [hm₁]
    cases validate with
    | false => exact ⟨hsit, rfl, fun _ => rfl, fun b => by simp⟩
    | true =>
        refine ⟨accounted_updateSitEntry hsit hnew fun _ => hnode, rfl,
          fun s => updateSitEntry_type _ _ _ _ _, fun b => ?_⟩
        show isValid (updateSitEntry g o m.sit new true mtime) b = _
        rw [isValid_updateSitEntry]
        simp
  obtain ⟨hsit₁, hcur₁, htypes₁, hvalid₁⟩ := h₁
  show Recorded g o m (updateSit g o m₁ old false mtime) old new validate
  cases old with
  | none => exact ⟨hsit₁, hcur₁, htypes₁, fun b => (hvalid₁ b).trans (if_neg nofun).symm⟩
  | some c =>
      refine ⟨accounted_updateSitEntry hsit₁ (hold c rfl) nofun, hcur₁, fun s => ?_, fun b => ?_⟩
      · exact (updateSitEntry_type _ _ _ _ _).trans (htypes₁ s)
      · show isValid (updateSitEntry g o m₁.sit c false mtime) b = _
        rw [isValid_updateSitEntry, hvalid₁]
        simp only [Option.some.injEq]

/-! ## The summaries -/

/-- The summary with a new entry for `new`. -/
def SummaryBlock.withEntry (blk : SummaryBlock) (new : ℕ) (sum : Summary) : SummaryBlock :=
  { blk with entries := Function.update blk.entries (getBlkoff new) sum }

lemma enterSegment_same (hsame : getSegno new = (x.man.curseg t).segno) :
    (enterSegment g x t new sum).ssa = x.ssa ∧
      (enterSegment g x t new sum).sumBlk
        = Function.update x.sumBlk t ((x.sumBlk t).withEntry new sum) := by
  unfold enterSegment
  rw [if_pos hsame]
  refine ⟨rfl, ?_⟩
  simp [addSumEntry, SummaryBlock.withEntry]

lemma enterSegment_other (sum : Summary) (hother : getSegno new ≠ (x.man.curseg t).segno) :
    (enterSegment g x t new sum).ssa
        = Function.update x.ssa (x.man.curseg t).segno (x.sumBlk t) ∧
      (enterSegment g x t new sum).sumBlk = Function.update x.sumBlk t
        (SummaryBlock.withEntry ⟨(x.ssa (getSegno new)).entries, resetFooter t⟩ new sum) := by
  unfold enterSegment
  rw [if_neg hother]
  refine ⟨rfl, ?_⟩
  simp [addSumEntry, SummaryBlock.withEntry, switchCurseg, hother]

lemma leaveSegment_same {c : CursegInfo} (hsame : c.segno = (x.man.curseg t).segno) :
    (leaveSegment g x t c).ssa = x.ssa ∧ (leaveSegment g x t c).sumBlk = x.sumBlk := by
  unfold leaveSegment
  rw [if_pos hsame]
  exact ⟨rfl, rfl⟩

lemma leaveSegment_other {c : CursegInfo} (hother : c.segno ≠ (x.man.curseg t).segno) :
    (leaveSegment g x t c).ssa
        = Function.update x.ssa (x.man.curseg t).segno (x.sumBlk t) ∧
      (leaveSegment g x t c).sumBlk
        = Function.update x.sumBlk t ⟨(x.ssa c.segno).entries, resetFooter t⟩ := by
  unfold leaveSegment
  rw [if_neg hother]
  refine ⟨rfl, ?_⟩
  simp [switchCurseg, hother]

/-! ## The whole function -/

/-- What holds between two calls: the counters are right, and the six current segments are six
segments of their types, with the footers that `reset_curseg` writes. -/
structure LogOk (g : SegGeometry) (o : Options) (x : LogMan) : Prop where
  accounted : x.man.Accounted g o
  typed : ∀ t, (x.man.sit.sentries (x.man.curseg t).segno).type = t
  distinct : ∀ t u, (x.man.curseg t).segno = (x.man.curseg u).segno → t = u
  footer : ∀ t, (x.sumBlk t).footer = resetFooter t

/-- The current segment that is taken is on the target, or none is. -/
lemma replaceType_recover {oldNull : Bool} (h : replaceType m oldNull segno true = some t) :
    (m.curseg t).segno = segno ∨ ∀ u, (m.curseg u).segno ≠ segno := by
  unfold replaceType at h
  simp only [if_true] at h
  split_ifs at h with hcur
  · left
    simpa using List.find?_some h
  · right
    intro u hu
    refine hcur (List.any_eq_true.mpr ⟨u, ?_, by simpa using hu.symm⟩)
    cases u <;> decide

/-- The state after `recover_curseg`, as far as the table and the current segments go: back where
they were, with the two blocks recorded. -/
structure Returned (g : SegGeometry) (o : Options) (m m' : SegMan) (t : CursegType)
    (old : Option ℕ) (new : ℕ) (validate : Bool) : Prop where
  sit : m'.sit.Accounted g o
  curseg : ∀ u, (m'.curseg u).segno = (m.curseg u).segno ∧
    (m'.curseg u).nextBlkoff = (m.curseg u).nextBlkoff
  types : ∀ s, (m'.sit.sentries s).type = if s = (m.curseg t).segno then t
    else if s = getSegno new then t else (m.sit.sentries s).type
  valid : ∀ b, isValid m'.sit b
    = if some b = old then false else if validate = true ∧ b = new then true else isValid m.sit b

/-- There and back again. -/
lemma returned {m₂ : SegMan} {validate : Bool} (hsit : m.sit.Accounted g o)
    (hcur : ∀ u, (m.curseg u).segno < g.segmentCountMain)
    (htyped : (m.sit.sentries (m.curseg t).segno).type = t) (hnode : t.isNode = false)
    (hnew : new < g.segmentCountMain * blocksPerSeg)
    (hold : ∀ b ∈ old, b < g.segmentCountMain * blocksPerSeg)
    (h₂ : m₂ = locateSegments g (recordBlocks g o (moveCurseg g m t (getSegno new) (getBlkoff new))
      old new validate mtime) old new (m.curseg t).segno) :
    (m₂.curseg t).segno = getSegno new ∧
      Returned g o m (moveCurseg g m₂ t (m.curseg t).segno (m.curseg t).nextBlkoff) t old new
        validate := by
  have hthere : Moved g o m (moveCurseg g m t (getSegno new) (getBlkoff new)) t (getSegno new)
      (getBlkoff new) := moveCurseg_moved hsit (getSegno_lt hnew) htyped
  set m₁ := moveCurseg g m t (getSegno new) (getBlkoff new)
  have htarget : (m₁.sit.sentries (getSegno new)).type = t := by
    rw [hthere.types, if_pos rfl]
  have hrec : Recorded g o m₁ (recordBlocks g o m₁ old new validate mtime) old new validate :=
    recordBlocks_recorded hthere.sit hnew hold (htarget.symm ▸ hnode)
  have hsit₂ : m₂.sit = (recordBlocks g o m₁ old new validate mtime).sit := by
    rw [h₂]
    simp [locateSegments]
  have hcur₂ : m₂.curseg = m₁.curseg := by
    rw [h₂, ← hrec.curseg]
    simp [locateSegments]
  have hseg₂ : (m₂.curseg t).segno = getSegno new := by
    rw [hcur₂]
    exact hthere.segno_eq
  have hback : Moved g o m₂ (moveCurseg g m₂ t (m.curseg t).segno (m.curseg t).nextBlkoff) t
      (m.curseg t).segno (m.curseg t).nextBlkoff := by
    refine moveCurseg_moved (hsit₂ ▸ hrec.sit) (hcur t) ?_
    rw [hseg₂, hsit₂, hrec.types, htarget]
  refine ⟨hseg₂, hback.sit, fun u => ?_, fun s => ?_, fun b => ?_⟩
  · by_cases hu : u = t
    · rw [hu]
      exact ⟨hback.segno_eq, hback.blkoff_eq⟩
    · rw [hback.others u hu, hcur₂, hthere.others u hu]
      exact ⟨rfl, rfl⟩
  · rw [hback.types, hsit₂, hrec.types, hthere.types]
  · rw [hback.valid, hsit₂, hrec.valid, hthere.valid]

/-- The other current segments are on neither of the two segments that change their type. -/
lemma Returned.logOk {x' : LogMan} {validate : Bool}
    (hret : Returned g o x.man x'.man t old new validate) (hok : LogOk g o x)
    (hon : (x.man.curseg t).segno = getSegno new ∨ ∀ u, (x.man.curseg u).segno ≠ getSegno new)
    (hfooter : ∀ u, (x'.sumBlk u).footer = (x.sumBlk u).footer) : LogOk g o x' where
  accounted := by
    refine ⟨hret.sit, fun u => ?_⟩
    rw [CursegInfo.HasRoom, (hret.curseg u).1, (hret.curseg u).2]
    exact hok.accounted.curseg u
  typed := by
    intro u
    rw [(hret.curseg u).1, hret.types]
    by_cases hu : u = t
    · rw [hu, if_pos rfl]
    · have hne : (x.man.curseg u).segno ≠ (x.man.curseg t).segno :=
        fun heq => hu (hok.distinct u t heq)
      have htarget : (x.man.curseg u).segno ≠ getSegno new := by
        rcases hon with hon | hoff
        · rw [← hon]
          exact hne
        · exact hoff u
      rw [if_neg hne, if_neg htarget]
      exact hok.typed u
  distinct := by
    intro u v
    rw [(hret.curseg u).1, (hret.curseg v).1]
    exact hok.distinct u v
  footer := by
    intro u
    rw [hfooter]
    exact hok.footer u

/-- The summaries after `recover_curseg`: that of a current segment on the target has the entry of
the new block, otherwise the target has it in the SSA area. -/
lemma summaries_returned {m₂ : SegMan} {c : CursegInfo} (sum : Summary) (hc : c = x.man.curseg t)
    (hfooter : (x.sumBlk t).footer = resetFooter t) (hseg : (m₂.curseg t).segno = getSegno new) :
    let x₁ := enterSegment g x t new sum
    let x' := leaveSegment g { x₁ with man := m₂ } t c
    (c.segno = getSegno new →
      x'.sumBlk = Function.update x.sumBlk t ((x.sumBlk t).withEntry new sum)) ∧
    (c.segno ≠ getSegno new → x'.sumBlk = x.sumBlk ∧ (x'.ssa (getSegno new)).entries
      = Function.update (x.ssa (getSegno new)).entries (getBlkoff new) sum) := by
  intro x₁ x'
  constructor
  · intro hsame
    have hback := (leaveSegment_same (g := g) (x := { x₁ with man := m₂ }) (t := t)
      (hsame.trans hseg.symm)).2
    exact hback.trans (enterSegment_same (hc ▸ hsame.symm)).2
  · intro hother
    obtain ⟨hssa, hsum⟩ := leaveSegment_other (g := g) (x := { x₁ with man := m₂ }) (t := t)
      (fun heq => hother (heq.trans hseg))
    obtain ⟨hssa₁, hsum₁⟩ := enterSegment_other (g := g) (x := x) (t := t) sum
      (hc ▸ Ne.symm hother)
    have hsaved : x₁.ssa c.segno = x.sumBlk t := by
      rw [hssa₁, hc, Function.update_self]
    constructor
    · rw [hsum]
      show Function.update x₁.sumBlk t ⟨(x₁.ssa c.segno).entries, resetFooter t⟩ = x.sumBlk
      rw [hsaved, ← hfooter, hsum₁, Function.update_idem]
      exact Function.update_eq_self t x.sumBlk
    · rw [hssa]
      show (Function.update x₁.ssa (m₂.curseg t).segno (x₁.sumBlk t) (getSegno new)).entries = _
      rw [hseg, Function.update_self, hsum₁, Function.update_self]
      rfl

/-- The same, for each of the current segments: they are six segments, so that at most one of them is
the target. -/
lemma sumBlk_returned {x' : LogMan} {sum : Summary} (hok : LogOk g o x)
    (hon : (x.man.curseg t).segno = getSegno new ∨ ∀ u, (x.man.curseg u).segno ≠ getSegno new)
    (hin : (x.man.curseg t).segno = getSegno new →
      x'.sumBlk = Function.update x.sumBlk t ((x.sumBlk t).withEntry new sum))
    (hout : (x.man.curseg t).segno ≠ getSegno new → x'.sumBlk = x.sumBlk) (u : CursegType) :
    x'.sumBlk u = if (x.man.curseg u).segno = getSegno new
      then (x.sumBlk u).withEntry new sum else x.sumBlk u := by
  rcases hon with hon | hoff
  · rw [hin hon]
    by_cases hu : u = t
    · rw [hu, Function.update_self, if_pos hon]
    · have hne : (x.man.curseg u).segno ≠ getSegno new :=
        fun heq => hu (hok.distinct u t (heq.trans hon.symm))
      rw [Function.update_of_ne hu, if_neg hne]
  · rw [hout (hoff t), if_neg (hoff u)]

/-- What `f2fs_do_replace_block` leaves behind with `recover_curseg`. -/
structure Recovered (g : SegGeometry) (o : Options) (x x' : LogMan) (sum : Summary)
    (old : Option ℕ) (new : ℕ) (recoverNewaddr : Bool) : Prop where
  ok : LogOk g o x'
  sit : SitOk g o x'.man.sit
  curseg : ∀ t, (x'.man.curseg t).segno = (x.man.curseg t).segno ∧
    (x'.man.curseg t).nextBlkoff = (x.man.curseg t).nextBlkoff
  summary : ∀ t, x'.sumBlk t = if (x.man.curseg t).segno = getSegno new
    then (x.sumBlk t).withEntry new sum else x.sumBlk t
  target : (∀ t, (x.man.curseg t).segno ≠ getSegno new) →
    (x'.ssa (getSegno new)).entries
      = Function.update (x.ssa (getSegno new)).entries (getBlkoff new) sum
  newValid : some new ≠ old →
    isValid x'.man.sit new = (recoverNewaddr || isValid x.man.sit new)
  oldInvalid : ∀ b ∈ old, isValid x'.man.sit b = false
  others : ∀ b, b ≠ new → some b ≠ old → isValid x'.man.sit b = isValid x.man.sit b

/-- **With `recover_curseg` the current segments are what they were, and exactly the two blocks
change their validity.**  Neither block has to be what the caller takes it for. -/
theorem replace_block_recovers {oldNull recoverNewaddr : Bool} (hok : LogOk g o x)
    (hnew : new < g.segmentCountMain * blocksPerSeg)
    (hold : ∀ b ∈ old, b < g.segmentCountMain * blocksPerSeg)
    (hstep : doReplaceBlock g o x sum old oldNull new true recoverNewaddr mtime = some x') :
    Recovered g o x x' sum old new recoverNewaddr := by
  obtain ⟨t, htype, hstep⟩ := Option.bind_eq_some_iff.mp hstep
  obtain ⟨hnode, hstep⟩ := Option.ite_none_left_eq_some.mp hstep
  obtain rfl := Option.some.inj hstep
  simp only [if_true, Bool.not_true, Bool.false_or]
  set m₂ := locateSegments g (recordBlocks g o (enterSegment g x t new sum).man old new
    recoverNewaddr mtime) old new (x.man.curseg t).segno with hm₂
  have h₂ : m₂ = locateSegments g (recordBlocks g o (moveCurseg g x.man t (getSegno new)
      (getBlkoff new)) old new recoverNewaddr mtime) old new (x.man.curseg t).segno := by
    rw [hm₂, enterSegment_man]
  obtain ⟨hseg₂, hret⟩ := returned hok.accounted.sit (fun u => (hok.accounted.curseg u).1)
    (hok.typed t) (Bool.eq_false_iff.mpr hnode) hnew hold h₂
  obtain ⟨hin, hout⟩ := summaries_returned (g := g) sum rfl (hok.footer t) hseg₂
  set x' := leaveSegment g { enterSegment g x t new sum with man := m₂ } t (x.man.curseg t)
    with hx'
  have hman : x'.man = moveCurseg g m₂ t (x.man.curseg t).segno (x.man.curseg t).nextBlkoff :=
    leaveSegment_man _
  rw [← hman] at hret
  have hsummary := sumBlk_returned hok (replaceType_recover htype) hin fun hoff => (hout hoff).1
  refine ⟨hret.logOk hok (replaceType_recover htype) fun u => ?_, hret.sit.toSitOk, hret.curseg,
    hsummary, fun hoff => (hout (hoff t)).2, fun hne => ?_, fun b hb => ?_, fun b hbn hbo => ?_⟩
  · rw [hsummary]
    split_ifs
    · rfl
    · rfl
  · rw [hret.valid, if_neg hne]
    cases recoverNewaddr <;> simp
  · rw [hret.valid, if_pos (Option.mem_def.mp hb).symm]
  · rw [hret.valid, if_neg hbo, if_neg fun h => hbn h.2]

/-- The types that the current segments of `crowdedCurseg` give theirs. -/
def crowdedTypes : ℕ → CursegType
  | 1 => .hotData
  | 4 => .coldData
  | 5 => .hotNode
  | 6 => .warmNode
  | 7 => .coldNode
  | _ => .warmData

def blankSummary (node : Bool) : SummaryBlock := ⟨fun _ => ⟨0, 0, 0⟩, ⟨node, 0⟩⟩

/-- The state after a mount, with empty summaries. -/
def crowdedLog : LogMan where
  man := mountedMan threeSections crowdedTypes crowdedCnt crowdedCurseg
  sumBlk := fun t => blankSummary t.isNode
  ssa := fun _ => blankSummary false

lemma crowdedLog_ok : LogOk threeSections o crowdedLog where
  accounted := mountedMan_accounted _ crowdedCnt_le fun t => by
    cases t <;> exact ⟨by decide, by decide⟩
  typed := fun t => by
    show ((mountedMan threeSections crowdedTypes crowdedCnt crowdedCurseg).sit.sentries
      ((mountedMan threeSections crowdedTypes crowdedCnt crowdedCurseg).curseg t).segno).type = t
    rw [mountedMan, initDirtySegmap_eq]
    cases t <;> rfl
  distinct := fun t u => by
    show ((mountedMan threeSections crowdedTypes crowdedCnt crowdedCurseg).curseg t).segno
      = ((mountedMan threeSections crowdedTypes crowdedCnt crowdedCurseg).curseg u).segno → t = u
    rw [mountedMan, initDirtySegmap_eq]
    cases t <;> cases u <;> decide
  footer := fun t => rfl

/-- Not `mode=lfs`, and with discards. -/
def plainOptions : Options := ⟨false, true, true⟩

/-- A block of segment 0 is moved to segment 3, which is no current segment. -/
theorem replace_block_recovers_crowdedLog :
    ∃ x', doReplaceBlock threeSections plainOptions crowdedLog ⟨5, 0, 0⟩ (some 0) false
        (3 * 512 + 7) true true 9 = some x' ∧
      Recovered threeSections plainOptions crowdedLog x' ⟨5, 0, 0⟩ (some 0) (3 * 512 + 7) true := by
  have hsome : (doReplaceBlock threeSections plainOptions crowdedLog ⟨5, 0, 0⟩ (some 0) false
      (3 * 512 + 7) true true 9).isSome = true := by decide +kernel
  obtain ⟨x', hx'⟩ := Option.isSome_iff_exists.mp hsome
  refine ⟨x', hx', replace_block_recovers crowdedLog_ok (by decide) ?_ hx'⟩
  rintro b ⟨⟩
  decide

/-- A current segment that is the target itself keeps the new entry, and without `recover_newaddr`
the new address stays as invalid as it was. -/
theorem replace_block_as_asked :
    (doReplaceBlock threeSections plainOptions crowdedLog ⟨5, 0, 0⟩ (some 0) false (2 * 512 + 5)
        true false 9).map (fun x' => ((x'.sumBlk .warmData).entries 5).nid) = some 5 ∧
      ((crowdedLog.sumBlk .warmData).entries 5).nid = 0 ∧
      (doReplaceBlock threeSections plainOptions crowdedLog ⟨5, 0, 0⟩ (some 0) false (3 * 512 + 7)
        true false 9).map (fun x' => isValid x'.man.sit (3 * 512 + 7)) = some false ∧
      ¬ ∀ (g : SegGeometry) (o : Options) (x x' : LogMan) (sum : Summary) (old : Option ℕ)
          (oldNull : Bool) (new : ℕ) (recoverNewaddr : Bool) (mtime : BitVec 64),
        LogOk g o x → new < g.segmentCountMain * blocksPerSeg →
        (∀ b ∈ old, b < g.segmentCountMain * blocksPerSeg) →
        doReplaceBlock g o x sum old oldNull new true recoverNewaddr mtime = some x' →
        (∀ t, (x'.man.curseg t).segno = (x.man.curseg t).segno ∧
          (x'.man.curseg t).nextBlkoff = (x.man.curseg t).nextBlkoff ∧
          (x'.sumBlk t).entries = (x.sumBlk t).entries) ∧
        SitOk g o x'.man.sit ∧ isValid x'.man.sit new = true ∧
        (recoverNewaddr = false → ∀ b ∈ old, isValid x.man.sit b = true →
          isValid x'.man.sit b = false) ∧
        ∀ b, b ≠ new → some b ≠ old → isValid x'.man.sit b = isValid x.man.sit b := by
  have hinvalid : (doReplaceBlock threeSections plainOptions crowdedLog ⟨5, 0, 0⟩ (some 0) false
      (3 * 512 + 7) true false 9).map (fun x' => isValid x'.man.sit (3 * 512 + 7))
      = some false := by decide +kernel
  refine ⟨by decide +kernel, rfl, hinvalid, fun hall => ?_⟩
  obtain ⟨x', hx', hnot⟩ := Option.map_eq_some_iff.mp hinvalid
  have hvalid := (hall _ _ _ _ _ _ _ _ _ _ crowdedLog_ok (by decide)
    (by rintro b ⟨⟩; decide) hx').2.2.1
  exact absurd (hnot.symm.trans hvalid) (by decide)

end Hoit.Segment.ReplaceBlock
