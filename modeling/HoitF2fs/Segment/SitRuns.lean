import HoitF2fs.Lib.Transition
import HoitF2fs.Segment.SitAccounting

/-!
# Runs over the segment information table

The calls that make blocks valid and invalid — `f2fs_allocate_data_block`,
`f2fs_invalidate_blocks` and `f2fs_do_replace_block` — and checkpoints, as one transition system.

* `CallersRight` — what the callers promise: they validate invalid blocks and invalidate valid ones.
* `SegMan.Accounted` — the invariant: the counters of `SitOk`, and current segments with room.
* `sit_accounting` — **the counters are right throughout every such run.**

**How room is kept.**  A current segment that is full is replaced at once.  A free segment has room;
a victim of SSR has because `ckpt_valid_blocks` is the number of its blocks that must not be
written, which is one of the counters (`SsrVictim.hole`).
-/

namespace Hoit.Segment

open Bitmap Transition

variable {g : SegGeometry} {o : Options} {cpc : CpControl} {s s' : SitInfo} {segno blk : ℕ}
  {validate : Bool} {mtime : BitVec 64}

/-! ## Calls -/

/-- Whether a block is valid. -/
def isValid (s : SitInfo) (blk : ℕ) : Bool :=
  (s.sentries (getSegno blk)).curValidMap (getBlkoff blk)

lemma blk_eq_iff (a b : ℕ) : a = b ↔ getSegno a = getSegno b ∧ getBlkoff a = getBlkoff b := by
  constructor
  · rintro rfl
    exact ⟨rfl, rfl⟩
  · rintro ⟨h1, h2⟩
    rw [← Nat.div_add_mod a blocksPerSeg, ← Nat.div_add_mod b blocksPerSeg]
    change blocksPerSeg * getSegno a + getBlkoff a = blocksPerSeg * getSegno b + getBlkoff b
    rw [h1, h2]

/-- The update of one block leaves the others as they are. -/
lemma isValid_updateSitEntry (s : SitInfo) (blk b : ℕ) (validate : Bool) (mtime : BitVec 64) :
    isValid (updateSitEntry g o s blk validate mtime) b
      = if b = blk then validate else isValid s b := by
  unfold isValid
  rw [updateSitEntry_sentries]
  by_cases hseg : getSegno b = getSegno blk
  · rw [hseg, Function.update_self]
    by_cases hoff : getBlkoff b = getBlkoff blk
    · rw [if_pos ((blk_eq_iff b blk).mpr ⟨hseg, hoff⟩), hoff]
      simp [SegEntry.update]
    · rw [if_neg fun heq => hoff ((blk_eq_iff b blk).mp heq).2]
      simp [SegEntry.update, hoff]
  · rw [Function.update_of_ne hseg, if_neg fun heq => hseg ((blk_eq_iff b blk).mp heq).1]

lemma isValid_setSitEntryType (s : SitInfo) (t : CursegType) (segno b : ℕ) (modified : Bool) :
    isValid (setSitEntryType s t segno modified) b = isValid s b := by
  have hval : ∀ x, ((setSitEntryType s t segno modified).sentries x).curValidMap
      = (s.sentries x).curValidMap := by
    intro x
    cases modified with
    | false => by_cases hx : x = segno <;> simp [setSitEntryType, hx]
    | true => by_cases hx : x = segno <;> simp [setSitEntryType, hx]
  rw [isValid, hval, isValid]

/-- The calls that change the table. -/
inductive SitStep where
  | allocate (e : AllocEnv) (t : CursegType) (old : Option ℕ) (mtime : BitVec 64)
  | invalidate (blk : ℕ) (mtime : BitVec 64)
  | replace (old : Option ℕ) (oldNull : Bool) (new : ℕ) (recoverCurseg recoverNewaddr : Bool)
      (mtime : BitVec 64)
  | checkpoint (cpc : CpControl) (committed : Bool)

def sitStep (g : SegGeometry) (o : Options) (m : SegMan) : SitStep → Option SegMan
  | .allocate e t old mtime => (f2fsAllocateDataBlock g o m e t old mtime).map Prod.snd
  | .invalidate blk mtime => some (f2fsInvalidateBlocks g o m blk mtime)
  | .replace old oldNull new recoverCurseg recoverNewaddr mtime =>
      f2fsDoReplaceBlock g o m old oldNull new recoverCurseg recoverNewaddr mtime
  | .checkpoint cpc committed => some (checkpoint g o m cpc committed).1

/-- **Callers validate invalid blocks and invalidate valid ones**, of the main area; a new block may
be replaced at once.  `fstrim` names segments of the area. -/
def CallersRight (g : SegGeometry) (m : SegMan) : SitStep → Prop
  | .allocate _ t old _ => isValid m.sit (nextFreeBlkaddr (m.curseg t)) = false ∧
      ∀ b ∈ old, b < g.segmentCountMain * blocksPerSeg ∧
        (isValid m.sit b = true ∨ b = nextFreeBlkaddr (m.curseg t))
  | .invalidate blk _ => blk < g.segmentCountMain * blocksPerSeg ∧ isValid m.sit blk = true
  | .replace old _ new recoverCurseg recoverNewaddr _ =>
      new < g.segmentCountMain * blocksPerSeg ∧
      ((!recoverCurseg || recoverNewaddr) = true → isValid m.sit new = false) ∧
      ∀ b ∈ old, b < g.segmentCountMain * blocksPerSeg ∧
        (isValid m.sit b = true ∨ ((!recoverCurseg || recoverNewaddr) = true ∧ b = new))
  | .checkpoint cpc _ => cpc.force = true → cpc.trimEnd < g.segmentCountMain

instance (m : SegMan) : ∀ a : SitStep, Decidable (CallersRight g m a)
  | .allocate .. => inferInstanceAs (Decidable (_ ∧ _))
  | .invalidate .. => inferInstanceAs (Decidable (_ ∧ _))
  | .replace .. => inferInstanceAs (Decidable (_ ∧ _))
  | .checkpoint .. => inferInstanceAs (Decidable (_ → _))

/-- A current segment is in the area and has room. -/
def CursegInfo.HasRoom (g : SegGeometry) (c : CursegInfo) : Prop :=
  c.segno < g.segmentCountMain ∧ c.nextBlkoff < blocksPerSeg

/-- The table with its counters. -/
structure SitInfo.Accounted (g : SegGeometry) (o : Options) (s : SitInfo) : Prop
    extends SitOk g o s, SitInfo.InArea g s

structure SegMan.Accounted (g : SegGeometry) (o : Options) (m : SegMan) : Prop where
  sit : m.sit.Accounted g o
  curseg : ∀ t, (m.curseg t).HasRoom g

/-- Neither the journal nor the candidates are in it. -/
lemma SitInfo.Accounted.of_sitOk (h : s.Accounted g o)
    (hok : SitOk g o (updateSitEntry g o s blk validate mtime)) :
    (updateSitEntry g o s blk validate mtime).Accounted g o where
  toSitOk := hok
  journal := by simpa [Segment.updateSitEntry] using h.journal
  candidates := by simpa [Segment.updateSitEntry] using h.candidates

lemma SitInfo.Accounted.updateSitEntry (h : s.Accounted g o)
    (hblk : blk < g.segmentCountMain * blocksPerSeg) (hexist : isValid s blk = !validate) :
    (updateSitEntry g o s blk validate mtime).Accounted g o :=
  h.of_sitOk (h.toSitOk.updateSitEntry hblk hexist)

lemma SitInfo.Accounted.setSitEntryType (h : s.Accounted g o) (hlt : segno < g.segmentCountMain)
    (t : CursegType) : (setSitEntryType s t segno true).Accounted g o where
  toSitOk := h.toSitOk.setSitEntryType hlt t true
  journal := by simpa [Segment.setSitEntryType] using h.journal
  candidates := by simpa [Segment.setSitEntryType] using h.candidates

variable {m m' : SegMan} {t : CursegType}

/-- The block that is replaced, if there is one. -/
lemma SitInfo.Accounted.updateSit {old : Option ℕ} (h : m.sit.Accounted g o)
    (hold : ∀ b ∈ old, b < g.segmentCountMain * blocksPerSeg ∧ isValid m.sit b = true) :
    (updateSit g o m old false mtime).sit.Accounted g o := by
  cases old with
  | none => exact h
  | some b => exact h.updateSitEntry (hold b rfl).1 (hold b rfl).2

lemma updateSit_curseg (m : SegMan) (blk : Option ℕ) (validate : Bool) (mtime : BitVec 64) :
    (updateSit g o m blk validate mtime).curseg = m.curseg := by
  cases blk <;> rfl

/-- A victim for SSR has a hole. -/
lemma SsrVictim.hole {v : ℕ} (h : SitOk g o m.sit) (hv : SsrVictim g m v) :
    findNextZeroBit (targetMap (m.sit.sentries v)) blocksPerSeg 0 < blocksPerSeg := by
  obtain ⟨hlt, -, -, hcnt⟩ := hv
  rw [(h.entries v hlt).ckpt] at hcnt
  obtain ⟨i, hi, hc⟩ := exists_clear_of_setBits_lt hcnt
  exact findNextZeroBit_lt (Nat.zero_le i) hi hc

lemma SitInfo.Accounted.allocateSegment {e : AllocEnv} {force : Bool} (h : m.sit.Accounted g o)
    (hcur : ∀ u, u ≠ t → (m.curseg u).HasRoom g)
    (halloc : allocateSegmentByDefault g o m e t force = some m') : m'.Accounted g o := by
  have hroom : ∀ c : CursegInfo, c.HasRoom g →
      ∀ u, (Function.update m.curseg t c u).HasRoom g := by
    intro c hc u
    by_cases hu : u = t
    · subst hu
      rwa [Function.update_self]
    · rw [Function.update_of_ne hu]
      exact hcur u hu
  rcases allocateSegmentByDefault_cases halloc with ⟨newSec, hnew⟩ | ⟨v, -, hv, rfl⟩
  · obtain ⟨segno, hlt, -, rfl⟩ := newCurseg_spec hnew
    exact ⟨h.setSitEntryType hlt t, hroom _ ⟨hlt, show 0 < blocksPerSeg by decide⟩⟩
  · rw [changeCurseg_spec]
    exact ⟨h.setSitEntryType hv.1 t, hroom _ ⟨hv.1, hv.hole h.toSitOk⟩⟩

lemma SegMan.Accounted.allocate {e : AllocEnv} {old : Option ℕ} {blk : ℕ} (h : m.Accounted g o)
    (hnew : isValid m.sit (nextFreeBlkaddr (m.curseg t)) = false)
    (hold : ∀ b ∈ old, b < g.segmentCountMain * blocksPerSeg ∧
      (isValid m.sit b = true ∨ b = nextFreeBlkaddr (m.curseg t)))
    (hstep : f2fsAllocateDataBlock g o m e t old mtime = some (blk, m')) : m'.Accounted g o := by
  have hblk : nextFreeBlkaddr (m.curseg t) < g.segmentCountMain * blocksPerSeg := by
    obtain ⟨hseg, hoff⟩ := h.curseg t
    calc nextFreeBlkaddr (m.curseg t)
        < ((m.curseg t).segno + 1) * blocksPerSeg := by
          rw [nextFreeBlkaddr, Nat.add_mul, Nat.one_mul]
          exact Nat.add_lt_add_left hoff _
      _ ≤ g.segmentCountMain * blocksPerSeg := Nat.mul_le_mul_right _ hseg
  simp only [f2fsAllocateDataBlock] at hstep
  obtain ⟨m₄, hm₄, heq⟩ := Option.map_eq_some_iff.mp hstep
  obtain ⟨-, rfl⟩ := Prod.mk.inj heq
  -- The table once both blocks are updated.
  set m₁ := m.setCurseg t (refreshNextBlkoff m (m.curseg t)) with hm₁
  set m₂ := updateSit g o m₁ (some (nextFreeBlkaddr (m.curseg t))) true mtime with hm₂
  set m₃ := updateSit g o m₂ old false mtime with hm₃
  have h₂ : m₂.sit.Accounted g o := h.sit.updateSitEntry hblk hnew
  have hold₂ : ∀ b ∈ old, b < g.segmentCountMain * blocksPerSeg ∧ isValid m₂.sit b = true := by
    intro b hb
    obtain ⟨hlt, hvalid⟩ := hold b hb
    refine ⟨hlt, ?_⟩
    change isValid (Segment.updateSitEntry g o m.sit _ true mtime) b = true
    rw [isValid_updateSitEntry]
    split_ifs with hbn
    · rfl
    · exact hvalid.resolve_right hbn
  have h₃ : m₃.sit.Accounted g o := h₂.updateSit hold₂
  have hcur : ∀ u, u ≠ t → (m₃.curseg u).HasRoom g := by
    intro u hu
    have hsame : m₃.curseg u = m.curseg u := by
      rw [hm₃, updateSit_curseg, hm₂, updateSit_curseg, hm₁, SegMan.setCurseg_of_ne _ hu]
    rw [hsame]
    exact h.curseg u
  have h₄ : m₄.Accounted g o := by
    split_ifs at hm₄ with hspace
    · obtain rfl := Option.some.inj hm₄
      refine ⟨h₃, fun u => ?_⟩
      by_cases hu : u = t
      · subst hu
        refine ⟨?_, hspace⟩
        have hseg : (m₃.curseg u).segno = (m.curseg u).segno := by
          rw [hm₃, updateSit_curseg, hm₂, updateSit_curseg, hm₁, SegMan.setCurseg_self,
            refreshNextBlkoff]
          split <;> rfl
        rw [hseg]
        exact (h.curseg u).1
      · exact hcur u hu
    · exact h₃.allocateSegment hcur hm₄
  exact ⟨by simpa using h₄.sit, by simpa using h₄.curseg⟩

lemma SegMan.Accounted.invalidate (h : m.Accounted g o)
    (hblk : blk < g.segmentCountMain * blocksPerSeg) (hvalid : isValid m.sit blk = true) :
    (f2fsInvalidateBlocks g o m blk mtime).Accounted g o := by
  have h₁ : (Segment.updateSitEntry g o m.sit blk false mtime).Accounted g o :=
    h.sit.updateSitEntry hblk hvalid
  refine ⟨?_, ?_⟩
  · rw [f2fsInvalidateBlocks, locateDirtySegment_sit]
    exact h₁
  · rw [f2fsInvalidateBlocks, locateDirtySegment_curseg]
    exact h.curseg

/-- `change_curseg` to any segment of the area keeps the table; the other current segments stay. -/
lemma SitInfo.Accounted.changeCurseg (h : m.sit.Accounted g o) (hlt : segno < g.segmentCountMain) :
    (changeCurseg g (m.setCurseg t { m.curseg t with nextSegno := segno }) t).sit.Accounted g o ∧
      ∀ b, isValid (changeCurseg g (m.setCurseg t { m.curseg t with nextSegno := segno }) t).sit b
        = isValid m.sit b := by
  rw [changeCurseg_spec]
  exact ⟨h.setSitEntryType hlt t, fun b => isValid_setSitEntryType _ _ _ _ _⟩

lemma changeCurseg_segno (m : SegMan) (t : CursegType) (segno : ℕ) :
    (∀ u, u ≠ t → (changeCurseg g (m.setCurseg t { m.curseg t with nextSegno := segno }) t).curseg u
        = m.curseg u) ∧
      ((changeCurseg g (m.setCurseg t { m.curseg t with nextSegno := segno }) t).curseg t).segno
        = segno := by
  rw [changeCurseg_spec]
  refine ⟨fun u hu => Function.update_of_ne hu _ _, ?_⟩
  simp [openedCurseg]

lemma SegMan.Accounted.replace {old : Option ℕ} {oldNull : Bool} {new : ℕ}
    {recoverCurseg recoverNewaddr : Bool} (h : m.Accounted g o)
    (hnew : new < g.segmentCountMain * blocksPerSeg)
    (hinvalid : (!recoverCurseg || recoverNewaddr) = true → isValid m.sit new = false)
    (hold : ∀ b ∈ old, b < g.segmentCountMain * blocksPerSeg ∧
      (isValid m.sit b = true ∨ ((!recoverCurseg || recoverNewaddr) = true ∧ b = new)))
    (hstep : f2fsDoReplaceBlock g o m old oldNull new recoverCurseg recoverNewaddr mtime
      = some m') : m'.Accounted g o := by
  simp only [f2fsDoReplaceBlock] at hstep
  obtain ⟨t, -, hstep⟩ := Option.bind_eq_some_iff.mp hstep
  obtain ⟨-, hstep⟩ := Option.ite_none_left_eq_some.mp hstep
  have hseg := getSegno_lt hnew
  set m₁ := if getSegno new = (m.curseg t).segno then m
    else Segment.changeCurseg g (m.setCurseg t { m.curseg t with nextSegno := getSegno new }) t
    with hm₁
  have h₁ : m₁.sit.Accounted g o ∧ (∀ b, isValid m₁.sit b = isValid m.sit b) ∧
      (∀ u, u ≠ t → m₁.curseg u = m.curseg u) ∧ (m₁.curseg t).segno = getSegno new := by
    rw [hm₁]
    split_ifs with hs
    · exact ⟨h.sit, fun _ => rfl, fun _ _ => rfl, hs.symm⟩
    · obtain ⟨hsit, hval⟩ := h.sit.changeCurseg (t := t) hseg
      obtain ⟨hother, hown⟩ := changeCurseg_segno (g := g) m t (getSegno new)
      exact ⟨hsit, hval, hother, hown⟩
  obtain ⟨hsit₁, hval₁, hother₁, hown₁⟩ := h₁
  set m₂ := m₁.setCurseg t { m₁.curseg t with nextBlkoff := getBlkoff new } with hm₂
  set m₃ := if (!recoverCurseg || recoverNewaddr) = true then
    updateSit g o m₂ (some new) true mtime else m₂ with hm₃
  have h₃ : m₃.sit.Accounted g o ∧ m₃.curseg = m₂.curseg ∧
      ∀ b ∈ old, b < g.segmentCountMain * blocksPerSeg ∧ isValid m₃.sit b = true := by
    rw [hm₃]
    split_ifs with hset
    · refine ⟨hsit₁.updateSitEntry hnew (by rw [hval₁, hinvalid hset]; rfl), rfl, fun b hb => ?_⟩
      obtain ⟨hlt, hvalid⟩ := hold b hb
      refine ⟨hlt, ?_⟩
      change isValid (Segment.updateSitEntry g o m₁.sit new true mtime) b = true
      rw [isValid_updateSitEntry, hval₁]
      split_ifs with hbn
      · rfl
      · exact hvalid.resolve_right fun hb' => hbn hb'.2
    · refine ⟨hsit₁, rfl, fun b hb => ?_⟩
      obtain ⟨hlt, hvalid⟩ := hold b hb
      refine ⟨hlt, (hval₁ b).trans ?_⟩
      exact hvalid.resolve_right fun hb' => hset hb'.1
  obtain ⟨hsit₃, hcur₃, hold₃⟩ := h₃
  have h₄ : (Segment.updateSit g o m₃ old false mtime).sit.Accounted g o := hsit₃.updateSit hold₃
  set m₄ := updateSit g o m₃ old false mtime with hm₄
  have hcur₄ : m₄.curseg = m₂.curseg := by rw [hm₄, updateSit_curseg, hcur₃]
  set m₅ := locateDirtySegment g (locateDirtySegment g
    (locateDirtySegment g m₄ (segnoOf old)) (getSegno new)) (m.curseg t).segno with hm₅
  have hsit₅ : m₅.sit = m₄.sit := by simp [hm₅]
  have hcur₅ : m₅.curseg = m₂.curseg := by simp [hm₅, hcur₄]
  have hothers : ∀ u, u ≠ t → m₂.curseg u = m.curseg u := by
    intro u hu
    rw [← hother₁ u hu, hm₂, SegMan.setCurseg_of_ne _ hu]
  have hown₂ : (m₂.curseg t).HasRoom g := by
    rw [hm₂, SegMan.setCurseg_self]
    exact ⟨hown₁.trans_lt hseg, getBlkoff_lt new⟩
  have h₅ : m₅.Accounted g o := by
    refine ⟨hsit₅ ▸ h₄, fun u => ?_⟩
    rw [hcur₅]
    by_cases hu : u = t
    · exact hu ▸ hown₂
    · rw [hothers u hu]
      exact h.curseg u
  split_ifs at hstep with hrec hback
  · obtain rfl := Option.some.inj hstep
    refine ⟨h₅.sit, fun u => ?_⟩
    by_cases hu : u = t
    · subst hu
      rw [SegMan.setCurseg_self]
      exact ⟨(h₅.curseg u).1, (h.curseg u).2⟩
    · rw [SegMan.setCurseg_of_ne _ hu]
      exact h₅.curseg u
  · obtain rfl := Option.some.inj hstep
    obtain ⟨hsit₆, -⟩ := h₅.sit.changeCurseg (t := t) (h.curseg t).1
    obtain ⟨hother₆, hown₆⟩ := changeCurseg_segno (g := g) m₅ t (m.curseg t).segno
    refine ⟨hsit₆, fun u => ?_⟩
    by_cases hu : u = t
    · subst hu
      rw [SegMan.setCurseg_self]
      exact ⟨hown₆.trans_lt (h.curseg u).1, (h.curseg u).2⟩
    · rw [SegMan.setCurseg_of_ne _ hu, hother₆ u hu]
      exact h₅.curseg u
  · obtain rfl := Option.some.inj hstep
    exact h₅

lemma SitInfo.Accounted.issueAll {issued : List BlkRange} (h : s.Accounted g o)
    (hin : ∀ r ∈ issued, r.Inside g) : SitOk g o (issued.foldl issueDiscard s) := by
  have hfold : ∀ (issued : List BlkRange) (s : SitInfo), (∀ r ∈ issued, r.Inside g) →
      SitOk g o s → SitOk g o (issued.foldl Segment.issueDiscard s) := by
    intro issued
    induction issued with
    | nil => exact fun _ _ h => h
    | cons r issued ih =>
        intro s hin h
        exact ih _ (fun r' hr' => hin r' (List.mem_cons_of_mem r hr'))
          (h.issueDiscard (hin r List.mem_cons_self))
  exact hfold issued s hin h.toSitOk

lemma discardBlk_journal (s : SitInfo) (blk : ℕ) : (discardBlk s blk).journal = s.journal := by
  simp only [discardBlk]
  split_ifs <;> rfl

lemma issueDiscard_journal (s : SitInfo) (r : BlkRange) :
    (issueDiscard s r).journal = s.journal := by
  unfold issueDiscard
  generalize List.range' r.start r.len = blks
  induction blks generalizing s with
  | nil => rfl
  | cons b blks ih => rw [List.foldl_cons, ih, discardBlk_journal]

lemma issueAll_journal (issued : List BlkRange) (s : SitInfo) :
    (issued.foldl issueDiscard s).journal = s.journal := by
  induction issued generalizing s with
  | nil => rfl
  | cons r issued ih => rw [List.foldl_cons, ih, issueDiscard_journal]

/-- Every discard of a checkpoint lies in the area. -/
lemma issued_inside {e : DiscardEntry} {r : BlkRange} {k pos : ℕ}
    (he : e.segno < g.segmentCountMain) (hr : r ∈ smallDiscards cpc e k pos) : r.Inside g := by
  obtain ⟨start, stop, hlt, hle, rfl, -⟩ := smallDiscards_spec hr
  calc e.segno * blocksPerSeg + start + (stop - start) ≤ (e.segno + 1) * blocksPerSeg := by
        rw [Nat.add_mul, Nat.one_mul]
        omega
    _ ≤ g.segmentCountMain * blocksPerSeg := Nat.mul_le_mul_right _ he

lemma SitInfo.Accounted.clearPrefree (h : m.sit.Accounted g o) (cpc : CpControl) :
    (f2fsClearPrefreeSegments g o m cpc).1.sit.Accounted g o := by
  have hin : ∀ r ∈ (clearPrefreeLoop g o cpc m (g.segmentCountMain + 1) 0
      (m.dirtyI.dirtySegmap .pre, 0, [])).2.2 ++
        m.sit.discardEntries.flatMap fun e => smallDiscards cpc e blocksPerSeg 0, r.Inside g := by
    intro r hr
    rcases List.mem_append.mp hr with hr | hr
    · have hseg : SegRange g m (m.dirtyI.dirtySegmap .pre) r :=
        clearPrefreeLoop_issued (fun _ hi => hi) (by simp) r hr
      exact hseg.inside
    · obtain ⟨e, he, hr⟩ := List.mem_flatMap.mp hr
      exact issued_inside (h.candidates e he) hr
  have hsit := h.issueAll hin
  refine ⟨hsit.of_sameTable ⟨rfl, rfl, rfl, rfl, rfl, rfl⟩, ⟨?_, by simp [f2fsClearPrefreeSegments]⟩⟩
  simp only [f2fsClearPrefreeSegments, issueAll_journal]
  exact h.journal

lemma SitInfo.Accounted.checkpoint (h : m.sit.Accounted g o) {committed : Bool}
    (htrim : cpc.force = true → cpc.trimEnd < g.segmentCountMain) :
    (checkpoint g o m cpc committed).1.sit.Accounted g o := by
  have hflush : (setPrefreeAsFreeSegments g
      { m with sit := Segment.f2fsFlushSitEntries g o m.sit cpc }).sit.Accounted g o :=
    ⟨h.toSitOk.f2fsFlushSitEntries cpc h.journal, h.toInArea.f2fsFlushSitEntries o htrim⟩
  simp only [Segment.checkpoint]
  split_ifs
  · exact hflush.clearPrefree cpc
  · exact ⟨hflush.toSitOk.of_sameTable ⟨rfl, rfl, rfl, rfl, rfl, rfl⟩, ⟨hflush.journal, by simp⟩⟩

@[simp] lemma checkpoint_curseg (m : SegMan) (cpc : CpControl) (committed : Bool) :
    (checkpoint g o m cpc committed).1.curseg = m.curseg := by
  simp only [checkpoint]
  split_ifs <;> rfl

lemma SegMan.Accounted.checkpoint (h : m.Accounted g o) {committed : Bool}
    (htrim : cpc.force = true → cpc.trimEnd < g.segmentCountMain) :
    (checkpoint g o m cpc committed).1.Accounted g o :=
  ⟨h.sit.checkpoint htrim, by simpa using h.curseg⟩

/-! ## Runs -/

lemma SegMan.Accounted.step {a : SitStep} (h : m.Accounted g o) (hright : CallersRight g m a)
    (hstep : sitStep g o m a = some m') : m'.Accounted g o := by
  cases a with
  | allocate e t old mtime =>
      obtain ⟨⟨blk, m₁⟩, hm₁, rfl⟩ := Option.map_eq_some_iff.mp hstep
      exact h.allocate hright.1 hright.2 hm₁
  | invalidate blk mtime =>
      obtain rfl := Option.some.inj hstep
      exact h.invalidate hright.1 hright.2
  | replace old oldNull new recoverCurseg recoverNewaddr mtime =>
      exact h.replace hright.1 hright.2.1 hright.2.2 hstep
  | checkpoint cpc committed =>
      obtain rfl := Option.some.inj hstep
      exact h.checkpoint hright

/-- **The counters are right throughout**, in every run in which the callers are. -/
theorem sit_accounting {steps : List SitStep} (h : m.Accounted g o)
    (hright : StepsMeet (sitStep g o) (CallersRight g) m steps) :
    Throughout (sitStep g o) (fun m => SitOk g o m.sit) m steps :=
  (throughout_of_stepsMeet (fun _ _ _ hs hg hstep => hs.step hg hstep) h hright).mono
    fun _ hs => hs.sit.toSitOk

/-! ## A mounted file system -/

/-- A segment whose first `n` blocks are valid, since the last checkpoint. -/
def packedEntry (type : CursegType) (n : ℕ) : SegEntry where
  type
  validBlocks := n
  ckptValidBlocks := n
  curValidMap := fun i => decide (i < n)
  ckptValidMap := fun i => decide (i < n)
  discardMap := fun i => decide (i < n)
  mtime := 0

/-- The table as a mount leaves it: nothing is dirty and the journal is empty. -/
def packedSit (g : SegGeometry) (types : ℕ → CursegType) (cnt : ℕ → ℕ) : SitInfo where
  sentries := fun segno => packedEntry (types segno) (cnt segno)
  secValidBlocks := fun sec =>
    ∑ segno ∈ (Finset.range g.segmentCountMain).filter fun segno => segno / g.segsPerSec = sec,
      cnt segno
  dirtySentriesBitmap := fun _ => false
  dirtySentries := 0
  writtenValidBlocks := ∑ segno ∈ Finset.range g.segmentCountMain, cnt segno
  discardBlks := ∑ segno ∈ Finset.range g.segmentCountMain, (blocksPerSeg - cnt segno)
  journal := []
  sit := ⟨fun _ => false, fun a i => segInfoToRawSit
    (packedEntry (types ((a - g.sitBaseAddr) * 55 + i)) (cnt ((a - g.sitBaseAddr) * 55 + i)))⟩
  discardEntries := []
  nrDiscards := 0
  bugOn := false

lemma packedSit_accounted (types : ℕ → CursegType) {cnt : ℕ → ℕ} (h : ∀ x, cnt x ≤ blocksPerSeg) :
    (packedSit g types cnt).Accounted g o where
  entries := by
    intro x hx
    refine ⟨(setBits_lt (h x)).symm, ?_⟩
    have hmap : targetMap (packedEntry (types x) (cnt x)) = fun i => decide (i < cnt x) := by
      funext i
      simp [targetMap, packedEntry]
    change cnt x = setBits (targetMap (packedEntry (types x) (cnt x))) blocksPerSeg
    rw [hmap, setBits_lt (h x)]
  written := rfl
  sections := fun _ _ _ => rfl
  dirty := by simp [packedSit, setBits]
  discard := by
    intro _
    simp only [packedSit]
    refine Finset.sum_congr rfl fun x _ => ?_
    change blocksPerSeg - cnt x = zeroBits (fun i => decide (i < cnt x)) blocksPerSeg
    have hbits := setBits_add_zeroBits (fun i => decide (i < cnt x)) blocksPerSeg
    rw [setBits_lt (h x)] at hbits
    omega
  journal := by simp [packedSit, Journal.keys]
  candidates := by simp [packedSit]

/-- The segment manager as a mount leaves it, with these current segments. -/
def mountedMan (g : SegGeometry) (types : ℕ → CursegType) (cnt : ℕ → ℕ)
    (curseg : CursegType → CursegInfo) : SegMan :=
  initDirtySegmap g
    { sit := packedSit g types cnt
      nsbi := noMappings
      freeI := initFreeSegmap g.toSecGeometry cnt (CursegType.all.map fun t => (curseg t).segno)
        buildFreeSegmap
      dirtyI := ⟨fun _ _ => false, fun _ => 0, fun _ => false⟩
      curseg }

lemma mountedMan_accounted (types : ℕ → CursegType) {cnt : ℕ → ℕ}
    {curseg : CursegType → CursegInfo} (hcnt : ∀ x, cnt x ≤ blocksPerSeg)
    (hcur : ∀ t, (curseg t).HasRoom g) : (mountedMan g types cnt curseg).Accounted g o := by
  rw [mountedMan, initDirtySegmap_eq]
  exact ⟨packedSit_accounted types hcnt, hcur⟩

/-- Three sections of four segments each. -/
def threeSections : SegGeometry where
  mainSegmentNums := 0
  segmentCountMain := 12
  segsPerSec := 4
  nvm_lt := Geometry.none_fit
  ssd_lt := by decide
  segsPerSec_pos := by decide
  mainSecs := 3
  secsPerZone := 1
  whole := rfl
  sitBaseAddr := 0
  sitBlocks := 1
  fits := by decide

/-- One valid block in segments 0 and 3, one block left in the two current segments between them;
the other current segments are the next section, and the last one is free. -/
def crowdedCnt : ℕ → ℕ
  | 0 => 1
  | 1 => 511
  | 2 => 511
  | 3 => 1
  | _ => 0

def crowdedCurseg : CursegType → CursegInfo
  | .hotData => openedCurseg threeSections 1 511 .lfs
  | .warmData => openedCurseg threeSections 2 511 .lfs
  | .coldData => openedCurseg threeSections 4 0 .lfs
  | .hotNode => openedCurseg threeSections 5 0 .lfs
  | .warmNode => openedCurseg threeSections 6 0 .lfs
  | .coldNode => openedCurseg threeSections 7 0 .lfs

def crowded : SegMan := mountedMan threeSections (fun _ => .warmData) crowdedCnt crowdedCurseg

lemma crowdedCnt_le (x : ℕ) : crowdedCnt x ≤ blocksPerSeg := by
  unfold crowdedCnt
  split <;> decide

lemma crowded_accounted : crowded.Accounted threeSections o := by
  refine mountedMan_accounted _ crowdedCnt_le fun t => ?_
  cases t <;> exact ⟨by decide, by decide⟩

/-- No SSR, and the defaults. -/
def plainEnv : AllocEnv := ⟨⟨false, 0, false⟩, true, false, none⟩

/-- Not an `fstrim`. -/
def plainCp : CpControl := ⟨false, 0, 0, 0⟩

def sitCalls : List SitStep :=
  [.allocate plainEnv .hotData (some 0) 7, .invalidate (3 * 512) 7,
    .replace (some 512) false (2 * 512 + 511) true true 8, .checkpoint plainCp true,
    .allocate plainEnv .hotNode none 9]

theorem sit_accounting_sitCalls :
    ∃ m, exec (sitStep threeSections ⟨true, true, true⟩) crowded sitCalls = some m ∧
      SitOk threeSections ⟨true, true, true⟩ m.sit := by
  have hsome : (exec (sitStep threeSections ⟨true, true, true⟩) crowded sitCalls).isSome
      = true := by decide +kernel
  obtain ⟨m, hm⟩ := Option.isSome_iff_exists.mp hsome
  have hright : StepsMeet (sitStep threeSections ⟨true, true, true⟩) (CallersRight threeSections)
      crowded sitCalls := by decide +kernel
  exact ⟨m, hm, (sit_accounting crowded_accounted hright).last hm⟩

end Hoit.Segment
