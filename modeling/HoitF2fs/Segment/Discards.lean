import HoitF2fs.Segment.DiscardTree
import HoitF2fs.Segment.FreshBlocks

/-!
# No discard reaches a block that is needed

A checkpoint queues the discards of what it has freed, `fstrim` those of everything that is free.
They wait in the table of commands, and are submitted and finished whenever it suits the discard
thread; in between blocks are handed out again.

* `DiscardMan` — the segment manager, the table, and beside them **the blocks of the last committed
  checkpoint, which nothing in memory remembers**: a checkpoint that fails has moved
  `ckpt_valid_map` on all the same.
* `checkpoint_issued` — what a checkpoint discards has no valid block.
* `DiscardInv` — the invariant, and `DiscardInv.step`.
* `discards_safe_throughout` — runs.

A checkpoint that fails has made the segments on the `PRE` list free and leaves them on it.  One of
them may be in use by the next checkpoint, which discards it (`needed_block_discarded`).
-/

namespace Hoit.Segment

open Bitmap Transition

variable {g : SegGeometry} {o : Options} {devs : BlockDevs} {cpc : CpControl} {s s' : SitInfo}
  {m m' : SegMan} {segno blk : ℕ} {t : CursegType} {mtime : BitVec 64}

/-! ## The candidates of a flush -/

lemma addDiscardLoop_sub {map : ℕ → Bool} {k pos : ℕ} {x : (ℕ → Bool) × ℕ}
    (h : ∀ i, x.1 i = true → map i = true) :
    ∀ i, (addDiscardLoop g cpc map k pos x).1 i = true → map i = true := by
  induction k generalizing pos x with
  | zero => exact h
  | succ k ih =>
      simp only [addDiscardLoop]
      split_ifs with h1 h2 h3
      · exact h
      · exact ih h
      · refine ih fun i hi => ?_
        simp only [Bool.or_eq_true, Bool.and_eq_true, decide_eq_true_eq] at hi
        rcases hi with hi | ⟨hlow, hhigh⟩
        · exact h i hi
        · rcases Nat.eq_or_lt_of_le hlow with heq | hlt
          · rw [← heq]
            exact findNextBit_set (Nat.not_le.mp h2)
          · exact findNextZeroBit_min hlt hhigh
      · exact h

/-- The candidates are blocks that were not valid when the flush started. -/
def CandidatesInvalid (cur : ℕ → ℕ → Bool) (s : SitInfo) : Prop :=
  ∀ e ∈ s.discardEntries, ∀ i, e.discardMap i = true → cur e.segno i = false

lemma CandidatesInvalid.add {cur : ℕ → ℕ → Bool} (h : CandidatesInvalid cur s)
    (hseg : ∀ i, dmap cpc.force (s.sentries segno) i = true → cur segno i = false) :
    CandidatesInvalid cur (addDiscardAddrs g o cpc s segno) := by
  simp only [addDiscardAddrs]
  split_ifs
  · exact h
  · exact h
  · exact h
  · intro e he i hi
    rcases List.mem_append.mp he with he | he
    · exact h e he i hi
    · rw [List.mem_singleton] at he
      subst he
      exact hseg i (addDiscardLoop_sub (by simp) i hi)

/-- Without `fstrim` a candidate was valid at the last checkpoint, and no longer is. -/
lemma dmap_runtime {se : SegEntry} {i : ℕ} (h : dmap false se i = true) :
    se.curValidMap i = false := by
  simp only [dmap, Bool.false_eq_true, if_false, Bool.and_eq_true] at h
  obtain ⟨hxor, hckpt⟩ := h
  rw [hckpt] at hxor
  simpa using hxor

/-- With it, it was not valid then. -/
lemma dmap_force {se : SegEntry} {i : ℕ} (h : dmap true se i = true) :
    se.ckptValidMap i = false := by
  simp only [dmap, if_true, Bool.and_eq_true, Bool.not_eq_true'] at h
  exact h.1

lemma flushSitEntry_discardEntries (toJournal : Bool) (s : SitInfo) (segno : ℕ) :
    (flushSitEntry g o cpc toJournal s segno).discardEntries
      = (if cpc.force then s else addDiscardAddrs g o cpc s segno).discardEntries := by
  have hjournal : ∀ (s : SitInfo) (rs : RawSit),
      (writeToSitJournal s segno rs).discardEntries = s.discardEntries := by
    intro s rs
    unfold writeToSitJournal
    split_ifs <;> rfl
  cases toJournal with
  | true => exact hjournal _ _
  | false => rfl

/-- The maps of valid blocks stay through a flush. -/
lemma flushSitEntry_curValidMap (toJournal : Bool) (s : SitInfo) (segno x : ℕ) :
    ((flushSitEntry g o cpc toJournal s segno).sentries x).curValidMap
      = (s.sentries x).curValidMap := by
  rw [(flushSitEntry_flushed cpc toJournal s segno).sentries]
  by_cases hx : x = segno
  · subst hx
    rw [Function.update_self]
    rfl
  · rw [Function.update_of_ne hx]

/-- **No candidate of a flush is a valid block.** -/
lemma flush_candidates (h : s.Accounted g o) (hclean : CleanKept g s)
    (hentries : s.discardEntries = [])
    (htrim : cpc.force = true → cpc.trimEnd < g.segmentCountMain) :
    CandidatesInvalid (fun x => (s.sentries x).curValidMap) (f2fsFlushSitEntries g o s cpc) := by
  cases hf : cpc.force with
  | false =>
      have hrun : (∀ x, ((f2fsFlushSitEntries g o s cpc).sentries x).curValidMap
            = (s.sentries x).curValidMap) ∧
          CandidatesInvalid (fun x => (s.sentries x).curValidMap) (f2fsFlushSitEntries g o s cpc) := by
        refine flush_induction (P := fun s' =>
          (∀ x, (s'.sentries x).curValidMap = (s.sentries x).curValidMap) ∧
            CandidatesInvalid (fun x => (s.sentries x).curValidMap) s') g o cpc ?_ ?_ ?_ ?_ ?_ ?_
          ⟨fun _ => rfl, by simp [CandidatesInvalid, hentries]⟩
        · rintro s' toJournal segno ⟨hcur, hcand⟩ - -
          refine ⟨fun x => (flushSitEntry_curValidMap _ _ _ _).trans (hcur x), ?_⟩
          have hadd := @CandidatesInvalid.add g o cpc s' segno _ hcand fun i hi => by
            rw [hf] at hi
            rw [← hcur]
            exact dmap_runtime hi
          intro e he
          rw [flushSitEntry_discardEntries, hf] at he
          exact hadd e he
        · exact fun s' start h => h
        · exact fun s' b h => h
        · rintro s' segno ⟨hcur, hcand⟩ -
          exact ⟨by simpa using hcur, by simpa [CandidatesInvalid] using hcand⟩
        · exact fun s' h => h
        · intro s' segno _ hforce
          simp [hf] at hforce
      exact hrun.2
  | true =>
      -- The candidates are looked for when the flush is over, and all entries are clean.
      have hnone : (flushSits g o s cpc).discardEntries = [] := by
        refine flushSits_induction (P := fun s' => s'.discardEntries = []) g o cpc ?_ ?_ ?_ ?_ ?_
          hentries
        · intro s' toJournal segno h _ _
          rw [flushSitEntry_discardEntries, hf]
          exact h
        · exact fun s' start h => h
        · exact fun s' b h => h
        · exact fun s' segno h _ => by simpa using h
        · exact fun s' h => h
      have hmaps : ∀ x < g.segmentCountMain, ((flushSits g o s cpc).sentries x).ckptValidMap
          = (s.sentries x).curValidMap := by
        intro x hx
        obtain ⟨-, hse | ⟨hbit, hse⟩⟩ := flush_clean o cpc h.dirty h.journal x hx
        · rw [← (flush_sameTable s cpc).sentries, hse]
          rfl
        · rw [← (flush_sameTable s cpc).sentries, hse]
          exact hclean x hx hbit
      have hrun : (∀ x < g.segmentCountMain,
            ((f2fsFlushSitEntries g o s cpc).sentries x).ckptValidMap = (s.sentries x).curValidMap) ∧
          CandidatesInvalid (fun x => (s.sentries x).curValidMap) (f2fsFlushSitEntries g o s cpc) := by
        refine trim_induction (P := fun s' =>
          (∀ x < g.segmentCountMain, (s'.sentries x).ckptValidMap = (s.sentries x).curValidMap) ∧
            CandidatesInvalid (fun x => (s.sentries x).curValidMap) s') g o cpc ?_
          ⟨hmaps, by simp [CandidatesInvalid, hnone]⟩
        rintro s' segno ⟨hckpt, hcand⟩ - hle
        refine ⟨fun x hx => ?_, hcand.add fun i hi => ?_⟩
        · rw [(addDiscardAddrs_sameTable s' segno).sentries]
          exact hckpt x hx
        · rw [hf] at hi
          rw [← hckpt segno (hle.trans_lt (htrim hf))]
          exact dmap_force hi
      exact hrun.2

/-! ## What a checkpoint discards -/

lemma flush_curValidMap (s : SitInfo) (o : Options) (cpc : CpControl) (x : ℕ) :
    ((f2fsFlushSitEntries g o s cpc).sentries x).curValidMap = (s.sentries x).curValidMap := by
  refine flush_induction (P := fun s' => (s'.sentries x).curValidMap = (s.sentries x).curValidMap)
    g o cpc ?_ ?_ ?_ ?_ ?_ ?_ rfl
  · exact fun s' toJournal segno h _ _ => (flushSitEntry_curValidMap _ _ _ _).trans h
  · exact fun s' start h => h
  · exact fun s' b h => h
  · exact fun s' segno h _ => by simpa using h
  · exact fun s' h => h
  · intro s' segno h _ _
    rw [(addDiscardAddrs_sameTable s' segno).sentries]
    exact h

/-- A checkpoint leaves the valid blocks as they are. -/
lemma isValid_checkpoint (m : SegMan) (cpc : CpControl) (committed : Bool) (b : ℕ) :
    isValid (checkpoint g o m cpc committed).1.sit b = isValid m.sit b := by
  rw [isValid, (checkpoint_sameMaps m cpc committed (getSegno b)).1, flush_curValidMap, isValid]

/-- A segment without valid blocks has none of them valid. -/
lemma SitOk.empty {x : ℕ} (h : SitOk g o s) (hx : x < g.segmentCountMain)
    (hzero : (s.sentries x).validBlocks = 0) {off : ℕ} (hoff : off < blocksPerSeg) :
    (s.sentries x).curValidMap off = false := by
  rw [(h.entries x hx).valid] at hzero
  exact setBits_eq_zero.mp hzero off hoff

/-- A section without valid blocks has no segment with one. -/
lemma SitOk.emptySection {secno x : ℕ} (h : SitOk g o s) (hone : 1 < g.segsPerSec)
    (hx : x < g.segmentCountMain) (hsec : x / g.segsPerSec = secno)
    (hzero : s.secValidBlocks secno = 0) : (s.sentries x).validBlocks = 0 := by
  rw [h.sections hone secno (hsec ▸ section_lt hx), Finset.sum_eq_zero_iff] at hzero
  exact hzero x (Finset.mem_filter.mpr ⟨Finset.mem_range.mpr hx, hsec⟩)

/-- The blocks of some segments. -/
lemma getSegno_mem {lo hi b : ℕ} (hlt : lo < hi) (h1 : lo * blocksPerSeg ≤ b)
    (h2 : b < lo * blocksPerSeg + (hi - lo) * blocksPerSeg) : lo ≤ getSegno b ∧ getSegno b < hi := by
  rw [← Nat.add_mul, Nat.add_sub_cancel' hlt.le] at h2
  exact ⟨(Nat.le_div_iff_mul_le (by decide)).mpr h1, Nat.div_lt_of_lt_mul (by rwa [Nat.mul_comm])⟩

/-- **What is freed has no valid block**, nor has a section that is discarded as a whole. -/
lemma SegRange.invalid {pre : ℕ → Bool} {r : BlkRange} {b : ℕ} (hr : SegRange g m pre r)
    (h : SitOk g o m.sit) (hpre : ∀ x, pre x = true → (m.sit.sentries x).validBlocks = 0)
    (h1 : r.start ≤ b) (h2 : b < r.start + r.len) : isValid m.sit b = false := by
  obtain ⟨lo, hi, hlt, hle, rfl, hwhy⟩ := hr
  obtain ⟨hlow, hhigh⟩ := getSegno_mem hlt h1 h2
  refine h.empty (hhigh.trans_le hle) ?_ (getBlkoff_lt b)
  rcases hwhy with hall | ⟨secno, -, hone, rfl, rfl, -, hzero⟩
  · exact hpre _ (hall _ hlow hhigh)
  · exact h.emptySection hone (hhigh.trans_le hle) ((section_iff _).mpr ⟨hlow, hhigh⟩) hzero

/-- A small discard consists of candidates. -/
lemma smallDiscards_invalid {e : DiscardEntry} {k pos b : ℕ} {r : BlkRange}
    {cur : ℕ → ℕ → Bool} (hr : r ∈ smallDiscards cpc e k pos)
    (he : ∀ i, e.discardMap i = true → cur e.segno i = false) (h1 : r.start ≤ b)
    (h2 : b < r.start + r.len) : getSegno b = e.segno ∧ cur (getSegno b) (getBlkoff b) = false := by
  obtain ⟨start, stop, hlt, hle, rfl, hset⟩ := smallDiscards_spec hr
  simp only at h1 h2
  have hseg : getSegno b = e.segno := by
    have hrange := @getSegno_mem e.segno (e.segno + 1) b (Nat.lt_succ_self _) (by omega)
      (by rw [Nat.add_sub_cancel_left, Nat.one_mul]; omega)
    omega
  have hoff : e.segno * blocksPerSeg + getBlkoff b = b := by
    rw [← hseg, Nat.mul_comm]
    exact Nat.div_add_mod b blocksPerSeg
  refine ⟨hseg, ?_⟩
  rw [hseg]
  exact he _ (hset _ (by omega) (by omega))

/-- **What a checkpoint discards has no valid block.** -/
lemma checkpoint_issued {committed : Bool} (h : FreshInv g o m) (hentries : m.sit.discardEntries = [])
    (htrim : cpc.force = true → cpc.trimEnd < g.segmentCountMain) {r : BlkRange}
    (hr : r ∈ (checkpoint g o m cpc committed).2) {b : ℕ} (h1 : r.start ≤ b)
    (h2 : b < r.start + r.len) :
    b < g.segmentCountMain * blocksPerSeg ∧ isValid m.sit b = false := by
  cases committed with
  | false => simp [checkpoint] at hr
  | true =>
      have hflush : (f2fsFlushSitEntries g o m.sit cpc).Accounted g o :=
        ⟨h.sit.toSitOk.f2fsFlushSitEntries cpc h.sit.journal,
          h.sit.toInArea.f2fsFlushSitEntries o htrim⟩
      set m₁ := setPrefreeAsFreeSegments g { m with sit := f2fsFlushSitEntries g o m.sit cpc }
        with hm₁
      have hr : r ∈ (clearPrefreeLoop g o cpc m₁ (g.segmentCountMain + 1) 0
          (m₁.dirtyI.dirtySegmap .pre, 0, [])).2.2 ++
            m₁.sit.discardEntries.flatMap fun e => smallDiscards cpc e blocksPerSeg 0 := hr
      rcases List.mem_append.mp hr with hr | hr
      · have hrange : SegRange g m₁ (m.dirtyI.dirtySegmap .pre) r :=
          clearPrefreeLoop_issued (fun _ hi => hi) (by simp) r hr
        have hin : b < g.segmentCountMain * blocksPerSeg := h2.trans_le hrange.inside
        have hinvalid : isValid m₁.sit b = false := by
          refine hrange.invalid hflush.toSitOk (fun x hx => ?_) h1 h2
          rw [← (h.dirty.prefree x hx).1]
          exact (flush_sameUse m.sit o cpc x).2
        refine ⟨hin, ?_⟩
        rw [isValid, ← flush_curValidMap m.sit o cpc]
        exact hinvalid
      · obtain ⟨e, he, hr⟩ := List.mem_flatMap.mp hr
        have hcand := flush_candidates h.sit h.clean hentries htrim e he
        have hinvalid := @smallDiscards_invalid cpc e _ _ b r
          (fun x => (m.sit.sentries x).curValidMap) hr hcand h1 h2
        exact ⟨h2.trans_le (issued_inside (hflush.candidates e he) hr), hinvalid.2⟩

/-! ## Queueing -/

variable (devs) in
/-- The loop of `f2fs_issue_discard`: a run of blocks ends where the device does. -/
def issueLoop : ℕ → ℕ → ℕ → List BlkRange
  | start, len, 0 => if len = 0 then [] else [⟨start, len⟩]
  | start, len, k + 1 =>
      if len ≠ 0 ∧ devs.bdev (start + len) ≠ devs.bdev start then
        ⟨start, len⟩ :: issueLoop (start + len) 1 k
      else issueLoop start (len + 1) k

variable (devs) in
/-- `__queue_discard_cmd`. -/
def queueDiscardCmd (cmds : List DiscardCmd) (r : BlkRange) : List DiscardCmd :=
  updateDiscardTreeRange (devs.bdev r.start) r.start (devs.addr r.start) r.len cmds

variable (devs) in
/-- The part of `f2fs_issue_discard` that concerns the table of commands. -/
def f2fsIssueDiscard (cmds : List DiscardCmd) (r : BlkRange) : List DiscardCmd :=
  (issueLoop devs r.start 0 r.len).foldl (queueDiscardCmd devs) cmds

/-- A run is a part of the range, on one device. -/
lemma issueLoop_spec {start len k : ℕ}
    (h : ∀ b, start ≤ b → b < start + len → devs.bdev b = devs.bdev start) :
    ∀ r ∈ issueLoop devs start len k, 0 < r.len ∧ start ≤ r.start ∧
      r.start + r.len ≤ start + len + k ∧
      ∀ b, r.start ≤ b → b < r.start + r.len → devs.bdev b = devs.bdev r.start := by
  induction k generalizing start len with
  | zero =>
      unfold issueLoop
      split_ifs with hlen
      · simp
      · intro r hr
        rw [List.mem_singleton] at hr
        subst hr
        exact ⟨Nat.pos_of_ne_zero hlen, le_rfl, le_rfl, h⟩
  | succ k ih =>
      unfold issueLoop
      split_ifs with hother
      · intro r hr
        rcases List.mem_cons.mp hr with rfl | hr
        · exact ⟨Nat.pos_of_ne_zero hother.1, le_rfl, Nat.le_add_right _ _, h⟩
        · obtain ⟨h1, h2, h3, h4⟩ := @ih (start + len) 1
            (fun b hb1 hb2 => by rw [show b = start + len by omega]) r hr
          exact ⟨h1, by omega, by omega, h4⟩
      · have hrun : ∀ b, start ≤ b → b < start + (len + 1) →
            devs.bdev b = devs.bdev start := by
          intro b hb1 hb2
          by_cases hb : b < start + len
          · exact h b hb1 hb
          · obtain rfl : b = start + len := by omega
            by_cases hlen : len = 0
            · simp [hlen]
            · exact not_not.mp fun hne => hother ⟨hlen, hne⟩
        intro r hr
        obtain ⟨h1, h2, h3, h4⟩ := ih hrun r hr
        exact ⟨h1, h2, by omega, h4⟩

lemma DiscardTree.queue {bad : ℕ → Prop} {cmds : List DiscardCmd} {r : BlkRange}
    (h : DiscardTree devs bad cmds) (hpos : 0 < r.len)
    (hdev : ∀ b, r.start ≤ b → b < r.start + r.len → devs.bdev b = devs.bdev r.start)
    (hbad : ∀ b, r.start ≤ b → b < r.start + r.len → ¬ bad b) :
    DiscardTree devs bad (queueDiscardCmd devs cmds r) :=
  h.update ⟨hpos, rfl, fun b hb => hdev b hb.1 hb.2, fun _ b hb => hbad b hb.1 hb.2⟩

/-- **Ranges without bad blocks are queued.** -/
lemma DiscardTree.issueAll {bad : ℕ → Prop} {cmds : List DiscardCmd} {issued : List BlkRange}
    (h : DiscardTree devs bad cmds)
    (hbad : ∀ r ∈ issued, ∀ b, r.start ≤ b → b < r.start + r.len → ¬ bad b) :
    DiscardTree devs bad (issued.foldl (f2fsIssueDiscard devs) cmds) := by
  have hruns : ∀ (runs : List BlkRange) (cmds : List DiscardCmd), DiscardTree devs bad cmds →
      (∀ r ∈ runs, 0 < r.len ∧
        (∀ b, r.start ≤ b → b < r.start + r.len → devs.bdev b = devs.bdev r.start) ∧
        ∀ b, r.start ≤ b → b < r.start + r.len → ¬ bad b) →
      DiscardTree devs bad (runs.foldl (queueDiscardCmd devs) cmds) := by
    intro runs
    induction runs with
    | nil => exact fun _ h _ => h
    | cons r runs ih =>
        intro cmds h hall
        obtain ⟨hpos, hdev, hbad⟩ := hall r List.mem_cons_self
        exact ih _ (h.queue hpos hdev hbad) fun r' hr' => hall r' (List.mem_cons_of_mem r hr')
  induction issued generalizing cmds with
  | nil => exact h
  | cons r issued ih =>
      refine ih (hruns _ _ h fun r' hr' => ?_) fun r' hr' => hbad r' (List.mem_cons_of_mem r hr')
      obtain ⟨hpos, hlow, hhigh, hdev⟩ := @issueLoop_spec devs r.start 0 r.len
        (fun b h1 h2 => by omega) r' hr'
      exact ⟨hpos, hdev, fun b h1 h2 =>
        hbad r List.mem_cons_self b (hlow.trans h1) (by omega)⟩

/-! ## The steps -/

structure DiscardMan where
  man : SegMan
  cmds : List DiscardCmd
  /-- The blocks that are valid in the last checkpoint that was committed. -/
  committed : ℕ → Bool

/-- The manager of a file system that was just mounted. -/
def DiscardMan.mounted (m : SegMan) : DiscardMan := ⟨m, [], isValid m.sit⟩

inductive DiscardStep where
  | allocate (e : AllocEnv) (t : CursegType) (old : Option ℕ) (mtime : BitVec 64)
  | invalidate (blk : ℕ) (mtime : BitVec 64)
  | checkpoint (cpc : CpControl) (committed : Bool)
  /-- An `fstrim` that finds nothing to write. -/
  | trim (cpc : CpControl)
  | cmd (lstart : ℕ) (e : CmdEvent)
  | drop

/-- A checkpoint, or an `fstrim` that skips the writing of it. -/
def DiscardMan.checkpointed (devs : BlockDevs) (g : SegGeometry) (o : Options) (d : DiscardMan)
    (cpc : CpControl) (committed : Bool) : DiscardMan :=
  let x := Segment.checkpoint g o d.man cpc committed
  { d with
    man := x.1
    cmds := x.2.foldl (f2fsIssueDiscard devs) d.cmds }

/-- `f2fs_allocate_data_block` waits for its block before anything else. -/
def discardStep (devs : BlockDevs) (g : SegGeometry) (o : Options) (d : DiscardMan) :
    DiscardStep → Option DiscardMan
  | .allocate e t old mtime =>
      (waitDiscardBio (nextFreeBlkaddr (d.man.curseg t)) d.cmds).bind fun cmds =>
        (f2fsAllocateDataBlock g o d.man e t old mtime).map fun x =>
          { d with
            man := x.2
            cmds }
  | .invalidate blk mtime => some { d with man := f2fsInvalidateBlocks g o d.man blk mtime }
  | .checkpoint cpc committed =>
      let d' := d.checkpointed devs g o cpc committed
      some { d' with committed := if committed then isValid d'.man.sit else d.committed }
  | .trim cpc =>
      if cpc.force = true ∧ d.man.sit.dirtySentries = 0 ∧ d.man.dirtyI.nrDirty .pre = 0 then
        some (d.checkpointed devs g o cpc true)
      else none
  | .cmd lstart e =>
      (oneDiscardCmd lstart e d.cmds).map fun cmds => { d with cmds }
  | .drop => some { d with cmds := dropDiscardCmd d.cmds }

/-- **Callers give up valid blocks.**  `fstrim` names segments of the area. -/
def DiscardCallersRight (g : SegGeometry) (d : DiscardMan) : DiscardStep → Prop
  | .allocate _ _ old _ => ∀ b ∈ old, b < g.segmentCountMain * blocksPerSeg ∧
      isValid d.man.sit b = true
  | .invalidate blk _ => blk < g.segmentCountMain * blocksPerSeg ∧ isValid d.man.sit blk = true
  | .checkpoint cpc _ => cpc.force = true → cpc.trimEnd < g.segmentCountMain
  | .trim cpc => cpc.trimEnd < g.segmentCountMain
  | _ => True

instance (d : DiscardMan) : ∀ a : DiscardStep, Decidable (DiscardCallersRight g d a)
  | .allocate .. => inferInstanceAs (Decidable (∀ b ∈ _, _))
  | .invalidate .. => inferInstanceAs (Decidable (_ ∧ _))
  | .checkpoint .. => inferInstanceAs (Decidable (_ → _))
  | .trim .. => inferInstanceAs (Decidable (_ < _))
  | .cmd .. => inferInstanceAs (Decidable True)
  | .drop => inferInstanceAs (Decidable True)

/-- **Nothing is left of a checkpoint that failed**: each checkpoint takes everything that it frees
off the `PRE` list, and an `fstrim` that skips the checkpoint finds all the blocks of the last one on
`ckpt_valid_map`. -/
def CheckpointsClean (g : SegGeometry) (o : Options) (d : DiscardMan) : DiscardStep → Prop
  | .checkpoint cpc committed => ClearsPrefree g o d.man cpc committed
  | .trim _ => ∀ b < g.segmentCountMain * blocksPerSeg, d.committed b = true →
      isCkptValid d.man.sit b = true
  | _ => True

instance (d : DiscardMan) : ∀ a : DiscardStep, Decidable (CheckpointsClean g o d a)
  | .checkpoint cpc committed => inferInstanceAs (Decidable (ClearsPrefree g o d.man cpc committed))
  | .trim .. => inferInstanceAs (Decidable (∀ b < _, _))
  | .allocate .. => inferInstanceAs (Decidable True)
  | .invalidate .. => inferInstanceAs (Decidable True)
  | .cmd .. => inferInstanceAs (Decidable True)
  | .drop => inferInstanceAs (Decidable True)

/-! ## The invariant -/

/-- The blocks that no discard may reach. -/
def DiscardMan.Needed (d : DiscardMan) (b : ℕ) : Prop :=
  isValid d.man.sit b = true ∨ d.committed b = true

structure DiscardInv (devs : BlockDevs) (g : SegGeometry) (o : Options) (d : DiscardMan) : Prop where
  room : FreshRoom g o d.man
  tree : DiscardTree devs d.Needed d.cmds
  /-- The candidates are issued or released by the checkpoint that has found them. -/
  entries : d.man.sit.discardEntries = []

/-- **No command that waits or is under way covers a block that is needed**; the addresses on the
device are those of its blocks; and no such command covers a block that is handed out, once it is. -/
structure DiscardsSafe (devs : BlockDevs) (g : SegGeometry) (o : Options) (d : DiscardMan) :
    Prop where
  unneeded : ∀ dc ∈ d.cmds, dc.state ≠ .done → ∀ b, dc.Covers b →
    isValid d.man.sit b = false ∧ d.committed b = false
  device : ∀ dc ∈ d.cmds, ∀ b, dc.Covers b →
    devs.bdev b = dc.bdev ∧ devs.addr b = dc.start + (b - dc.lstart)
  punched : ∀ e t old mtime d', discardStep devs g o d (.allocate e t old mtime) = some d' →
    ∀ dc ∈ d'.cmds, dc.state ≠ .done → ¬ dc.Covers (nextFreeBlkaddr (d.man.curseg t))

lemma DiscardInv.safe {d : DiscardMan} (h : DiscardInv devs g o d) : DiscardsSafe devs g o d where
  unneeded := by
    intro dc hdc hstate b hb
    have hnot := (h.tree.right dc hdc).safe hstate b hb
    simpa [DiscardMan.Needed] using hnot
  device := by
    intro dc hdc b hb
    have hright := h.tree.right dc hdc
    have hown : dc.Covers dc.lstart := ⟨le_rfl, Nat.lt_add_of_pos_right hright.pos⟩
    have hsum : dc.lstart + (b - dc.lstart) = b := Nat.add_sub_cancel' hb.1
    have hadd := @addr_add devs dc.lstart (b - dc.lstart)
      (by rw [hsum, hright.onDev b hb, hright.onDev _ hown])
    rw [hsum] at hadd
    exact ⟨hright.onDev b hb, by rw [hadd, hright.start]⟩
  punched := by
    intro e t old mtime d' hstep dc hdc hstate hcov
    obtain ⟨cmds, hwait, hstep⟩ := Option.bind_eq_some_iff.mp hstep
    obtain ⟨x, -, rfl⟩ := Option.map_eq_some_iff.mp hstep
    exact ((h.tree.wait hwait).right dc hdc).safe hstate _ hcov (Or.inr rfl)

/-! ## Allocation and invalidation -/

/-- What an allocation does to the table of segments: one block becomes valid, and the candidates
stay. -/
lemma allocate_sit {e : AllocEnv} {old : Option ℕ}
    (h : f2fsAllocateDataBlock g o m e t old mtime = some (blk, m')) :
    (∀ b, isValid m'.sit b = true → isValid m.sit b = true ∨ b = nextFreeBlkaddr (m.curseg t)) ∧
      m'.sit.discardEntries = m.sit.discardEntries := by
  simp only [f2fsAllocateDataBlock] at h
  obtain ⟨m₄, hm₄, heq⟩ := Option.map_eq_some_iff.mp h
  obtain ⟨-, rfl⟩ := Prod.mk.inj heq
  simp only [locateDirtySegment_sit]
  set m₂ := updateSit g o (m.setCurseg t (refreshNextBlkoff m (m.curseg t)))
    (some (nextFreeBlkaddr (m.curseg t))) true mtime with hm₂
  set m₃ := updateSit g o m₂ old false mtime with hm₃
  have h₂ : (∀ b, isValid m₂.sit b = true →
      isValid m.sit b = true ∨ b = nextFreeBlkaddr (m.curseg t)) ∧
      m₂.sit.discardEntries = m.sit.discardEntries := by
    refine ⟨fun b hb => ?_, by simp [hm₂, updateSit, updateSitEntry, SegMan.setCurseg]⟩
    change isValid (updateSitEntry g o m.sit _ true mtime) b = true at hb
    rw [isValid_updateSitEntry] at hb
    split_ifs at hb with heq
    · exact Or.inr heq
    · exact Or.inl hb
  have h₃ : (∀ b, isValid m₃.sit b = true → isValid m₂.sit b = true) ∧
      m₃.sit.discardEntries = m₂.sit.discardEntries := by
    rw [hm₃]
    cases old with
    | none => exact ⟨fun _ hb => hb, rfl⟩
    | some x =>
        refine ⟨fun b hb => ?_, by simp [updateSit, updateSitEntry]⟩
        change isValid (updateSitEntry g o m₂.sit x false mtime) b = true at hb
        rw [isValid_updateSitEntry] at hb
        split_ifs at hb
        exact hb
  have h₄ : (∀ b, isValid m₄.sit b = isValid m₃.sit b) ∧
      m₄.sit.discardEntries = m₃.sit.discardEntries := by
    split_ifs at hm₄ with hroom
    · obtain rfl := Option.some.inj hm₄
      exact ⟨fun _ => rfl, rfl⟩
    · rcases allocateSegmentByDefault_cases hm₄ with ⟨newSec, hnew⟩ | ⟨v, -, -, rfl⟩
      · obtain ⟨segno, -, -, rfl⟩ := newCurseg_spec hnew
        exact ⟨fun b => isValid_setSitEntryType _ _ _ b _, by simp [setSitEntryType]⟩
      · rw [changeCurseg_spec]
        exact ⟨fun b => isValid_setSitEntryType _ _ _ b _, by simp [setSitEntryType]⟩
  refine ⟨fun b hb => h₂.1 b (h₃.1 b ?_), h₄.2.trans (h₃.2.trans h₂.2)⟩
  rw [← h₄.1]
  exact hb

/-! ## Runs -/

@[simp] lemma checkpoint_discardEntries (m : SegMan) (cpc : CpControl) (committed : Bool) :
    (checkpoint g o m cpc committed).1.sit.discardEntries = [] := by
  simp only [checkpoint]
  split_ifs <;> rfl

/-- **A checkpoint keeps the invariant**; `c` has the blocks of the last one that was committed. -/
lemma DiscardInv.checkpointed {d : DiscardMan} {committed : Bool} {c : ℕ → Bool}
    (h : DiscardInv devs g o d) (htrim : cpc.force = true → cpc.trimEnd < g.segmentCountMain)
    (hclear : ClearsPrefree g o d.man cpc committed) (hold : ∀ b, c b = true → d.Needed b)
    (hissued : ∀ r ∈ (checkpoint g o d.man cpc committed).2, ∀ b, r.start ≤ b →
      b < r.start + r.len → c b = false) :
    DiscardInv devs g o { d.checkpointed devs g o cpc committed with committed := c } where
  room := h.room.step (a := .checkpoint cpc committed) htrim hclear rfl
  tree := by
    refine (h.tree.mono fun dc _ b _ hb => ?_).issueAll fun r hr b h1 h2 hb => ?_
    · rcases hb with hb | hb
      · exact Or.inl ((isValid_checkpoint _ _ _ b).symm.trans hb)
      · exact hold b hb
    · have hinvalid := (checkpoint_issued h.room.toFreshInv h.entries htrim hr h1 h2).2
      rcases hb with hb | hb
      · rw [← isValid_checkpoint d.man cpc committed] at hinvalid
        exact absurd (hinvalid.symm.trans hb) (by simp)
      · exact absurd ((hissued r hr b h1 h2).symm.trans hb) (by simp)
  entries := checkpoint_discardEntries _ _ _

/-- Without dirty entries the two maps agree. -/
lemma isCkptValid_of_clean (h : s.Accounted g o) (hclean : CleanKept g s)
    (hdirty : s.dirtySentries = 0) {b : ℕ} (hb : b < g.segmentCountMain * blocksPerSeg) :
    isCkptValid s b = isValid s b := by
  have hbits := h.dirty
  rw [hdirty] at hbits
  rw [isCkptValid, hclean _ (getSegno_lt hb) (setBits_eq_zero.mp hbits.symm _ (getSegno_lt hb))]
  rfl

lemma DiscardInv.step {d d' : DiscardMan} {a : DiscardStep} (h : DiscardInv devs g o d)
    (hright : DiscardCallersRight g d a) (hclean : CheckpointsClean g o d a)
    (hstep : discardStep devs g o d a = some d') : DiscardInv devs g o d' := by
  cases a with
  | allocate e t old mtime =>
      obtain ⟨cmds, hwait, hstep⟩ := Option.bind_eq_some_iff.mp hstep
      obtain ⟨⟨blk, m'⟩, halloc, rfl⟩ := Option.map_eq_some_iff.mp hstep
      obtain ⟨hvalid, hentries⟩ := allocate_sit halloc
      refine ⟨h.room.allocate hright halloc, (h.tree.wait hwait).mono fun dc _ b _ hb => ?_,
        hentries.trans h.entries⟩
      rcases hb with hb | hb
      · rcases hvalid b hb with hb | hb
        · exact Or.inl (Or.inl hb)
        · exact Or.inr hb
      · exact Or.inl (Or.inr hb)
  | invalidate blk mtime =>
      obtain rfl := Option.some.inj hstep
      have hvalid : ∀ b, isValid (f2fsInvalidateBlocks g o d.man blk mtime).sit b = true →
          isValid d.man.sit b = true := by
        intro b hb
        rw [f2fsInvalidateBlocks, locateDirtySegment_sit] at hb
        change isValid (updateSitEntry g o d.man.sit blk false mtime) b = true at hb
        rw [isValid_updateSitEntry] at hb
        split_ifs at hb
        exact hb
      refine ⟨h.room.step (a := .invalidate blk mtime) hright trivial rfl,
        h.tree.mono fun dc _ b _ hb => hb.imp_left (hvalid b), ?_⟩
      simpa [f2fsInvalidateBlocks, updateSit, updateSitEntry] using h.entries
  | checkpoint cpc committed =>
      obtain rfl := Option.some.inj hstep
      refine h.checkpointed hright hclean (fun b hb => ?_) fun r hr b h1 h2 => ?_
      · cases committed with
        | true => exact Or.inl ((isValid_checkpoint d.man cpc true b).symm.trans hb)
        | false => exact Or.inr hb
      · cases committed with
        | true =>
            exact (isValid_checkpoint d.man cpc true b).trans
              (checkpoint_issued h.room.toFreshInv h.entries hright hr h1 h2).2
        | false => simp [checkpoint] at hr
  | trim cpc =>
      obtain ⟨⟨-, hdirty, hpre⟩, hstep⟩ := Option.ite_none_right_eq_some.mp hstep
      obtain rfl := Option.some.inj hstep
      have hnone : ∀ x < g.segmentCountMain, d.man.dirtyI.dirtySegmap .pre x = false := by
        have hbits := h.room.dirty.counted .pre
        rw [hpre] at hbits
        exact setBits_eq_zero.mp hbits.symm
      change DiscardInv devs g o
        { d.checkpointed devs g o cpc true with committed := d.committed }
      refine h.checkpointed (fun _ => hright) ?_ (fun b hb => Or.inr hb) fun r hr b h1 h2 => ?_
      · simp only [ClearsPrefree, if_true]
        exact fun start stop _ _ i _ _ hi => hnone i hi
      · obtain ⟨hb, hinvalid⟩ :=
          checkpoint_issued h.room.toFreshInv h.entries (fun _ => hright) hr h1 h2
        rw [← isCkptValid_of_clean h.room.sit h.room.clean hdirty hb] at hinvalid
        by_contra hne
        rw [hclean b hb (by simpa using hne)] at hinvalid
        exact absurd hinvalid (by simp)
  | cmd lstart e =>
      obtain ⟨cmds, hcmds, rfl⟩ := Option.map_eq_some_iff.mp hstep
      exact ⟨h.room, h.tree.one hcmds, h.entries⟩
  | drop =>
      obtain rfl := Option.some.inj hstep
      exact ⟨h.room, h.tree.drop, h.entries⟩

lemma DiscardInv.mounted (h : FreshRoom g o m) (hentries : m.sit.discardEntries = []) :
    DiscardInv devs g o (DiscardMan.mounted m) :=
  ⟨h, ⟨List.Pairwise.nil, by simp [DiscardMan.mounted]⟩, hentries⟩

/-- **No discard reaches a block that is needed**, in every run from a mount in which nothing is left
of the checkpoints that failed. -/
theorem discards_safe_throughout {steps : List DiscardStep} (h : FreshRoom g o m)
    (hentries : m.sit.discardEntries = [])
    (hright : StepsMeet (discardStep devs g o)
      (fun d a => DiscardCallersRight g d a ∧ CheckpointsClean g o d a) (DiscardMan.mounted m)
      steps) :
    Throughout (discardStep devs g o) (DiscardsSafe devs g o) (DiscardMan.mounted m) steps :=
  (throughout_of_stepsMeet (fun _ _ _ hs hg hstep => hs.step hg.1 hg.2 hstep)
    (DiscardInv.mounted h hentries) hright).mono fun _ hs => hs.safe

/-! ## A file system on two devices -/

/-- The second device starts in segment 2. -/
def twoDevs : BlockDevs where
  mainBlkaddr := 1024
  ndevs := 2
  startBlk i := i * 2048
  endBlk i := i * 5120 + 2047
  first := Nat.zero_mul 2048

/-- `discard`, without `mode=lfs`. -/
def onlineDiscard : Options := ⟨false, true, true⟩

/-- Two blocks go and are discarded; the warm data open a segment while the first discard is under
way, and the last checkpoint fails. -/
def discardCalls : List DiscardStep :=
  [.invalidate 512 7, .checkpoint plainCp true, .cmd 512 (.submit true),
    .allocate plainEnv .warmData (some 514) 8, .allocate plainEnv .warmData none 8,
    .cmd 512 .endio, .cmd 512 .hold, .checkpoint plainCp true, .invalidate 516 9,
    .checkpoint plainCp false, .drop]

theorem discards_safe_discardCalls :
    ∃ d, exec (discardStep twoDevs threeSections onlineDiscard) (DiscardMan.mounted crowded)
        discardCalls = some d ∧ DiscardsSafe twoDevs threeSections onlineDiscard d := by
  have hsome : (exec (discardStep twoDevs threeSections onlineDiscard) (DiscardMan.mounted crowded)
      discardCalls).isSome = true := by decide +kernel
  obtain ⟨d, hd⟩ := Option.isSome_iff_exists.mp hsome
  have hright : StepsMeet (discardStep twoDevs threeSections onlineDiscard)
      (fun d a => DiscardCallersRight threeSections d a ∧
        CheckpointsClean threeSections onlineDiscard d a) (DiscardMan.mounted crowded)
      discardCalls := by decide +kernel
  exact ⟨d, hd, (discards_safe_throughout crowded_freshRoom (by rw [crowded_eq]; rfl) hright).last hd⟩

lemma not_safe_of_needed {d : DiscardMan} {dc : DiscardCmd} {b : ℕ} (hdc : dc ∈ d.cmds)
    (hstate : dc.state ≠ .done) (hb : dc.Covers b) (hneeded : d.Needed b) :
    ¬DiscardsSafe devs g o d := by
  intro h
  obtain ⟨hvalid, hcommitted⟩ := h.unneeded dc hdc hstate b hb
  rcases hneeded with hneeded | hneeded
  · simp [hvalid] at hneeded
  · simp [hcommitted] at hneeded

/-- The checkpoint after the block of segment 3 is gone fails; the warm data take that segment, and
the next checkpoint goes through. -/
def failedCalls : List DiscardStep :=
  [.invalidate (3 * 512) 7, .checkpoint plainCp false, .allocate plainEnv .warmData none 8,
    .allocate plainEnv .warmData none 8, .checkpoint plainCp true]

/-- The checkpoint after a block is gone fails, and `fstrim` finds nothing to write. -/
def trimmedCalls : List DiscardStep :=
  [.invalidate 512 7, .checkpoint plainCp false, .trim ⟨true, 1, 1, 1⟩]

/-- **Segment 3 is discarded with a valid block**; and `fstrim` discards a block that is valid in the
last checkpoint that was committed. -/
theorem needed_block_discarded :
    (StepsMeet (discardStep twoDevs threeSections onlineDiscard) (DiscardCallersRight threeSections)
        (DiscardMan.mounted crowded) failedCalls ∧
      ∃ d, exec (discardStep twoDevs threeSections onlineDiscard) (DiscardMan.mounted crowded)
          failedCalls = some d ∧ ⟨1536, 512, 512, 1, .prep, 0⟩ ∈ d.cmds ∧
        isValid d.man.sit 1536 = true ∧ ¬DiscardsSafe twoDevs threeSections onlineDiscard d) ∧
    StepsMeet (discardStep twoDevs threeSections onlineDiscard) (DiscardCallersRight threeSections)
        (DiscardMan.mounted crowded) trimmedCalls ∧
      ∃ d, exec (discardStep twoDevs threeSections onlineDiscard) (DiscardMan.mounted crowded)
          trimmedCalls = some d ∧ ⟨512, 1, 1536, 0, .prep, 0⟩ ∈ d.cmds ∧
        d.committed 512 = true ∧ ¬DiscardsSafe twoDevs threeSections onlineDiscard d := by
  have hfailed : (exec (discardStep twoDevs threeSections onlineDiscard)
      (DiscardMan.mounted crowded) failedCalls).map (fun d => (decide
        (DiscardCmd.mk 1536 512 512 1 .prep 0 ∈ d.cmds), isValid d.man.sit 1536))
      = some (true, true) := by decide +kernel
  have htrimmed : (exec (discardStep twoDevs threeSections onlineDiscard)
      (DiscardMan.mounted crowded) trimmedCalls).map (fun d => (decide
        (DiscardCmd.mk 512 1 1536 0 .prep 0 ∈ d.cmds), d.committed 512))
      = some (true, true) := by decide +kernel
  obtain ⟨d, hd, hpair⟩ := Option.map_eq_some_iff.mp hfailed
  obtain ⟨hmem, hvalid⟩ := Prod.mk.inj hpair
  obtain ⟨d', hd', hpair'⟩ := Option.map_eq_some_iff.mp htrimmed
  obtain ⟨hmem', hcommitted⟩ := Prod.mk.inj hpair'
  refine ⟨⟨by decide +kernel, d, hd, of_decide_eq_true hmem, hvalid, ?_⟩, by decide +kernel, d', hd',
    of_decide_eq_true hmem', hcommitted, ?_⟩
  · exact not_safe_of_needed (of_decide_eq_true hmem) (by simp) (b := 1536) (by decide) (Or.inl hvalid)
  · exact not_safe_of_needed (of_decide_eq_true hmem') (by simp) (b := 512) (by decide)
      (Or.inr hcommitted)

end Hoit.Segment
