import HoitF2fs.Nvm.Threads

/-!
# Reuse of NVM segments across a checkpoint

`nvm.h` states the rule: a segment may be handed out only if it is clear both in `segment_map`
and in `ckpt_segment_map`, the copy of the map made at the end of each checkpoint; otherwise a
crash finds a persisted table that refers to a segment which has been overwritten since.

The system of `HoitF2fs.Nvm.Threads` is run together with the tail of `f2fs_write_checkpoint`:

* `flush` — `nvm_flush_mpt_pages` and, when the NVM super block is dirty, `nvm_flush_nsb_pages`,
  which records `segment_map`;
* `commit` or `fail` — `do_checkpoint` returns;
* `settle` — `nvm_set_ckpt_segment_map`, which runs after a failure as well.

Allocations, frees and migrations go on in between: none of them takes a lock that a checkpoint
holds.  Two ghost components speak about the claim of the rule: `committedMap`, the map recorded
by the last checkpoint that committed, and `handedOut`, what was allocated since.

`crash_safe_reuse_throughout`: the rule is kept throughout every run whose *schedule* is right
(`ReuseSchedule`).  Nothing that the last committed checkpoint has in use is released before the
next one commits, nothing is allocated or released while a checkpoint is between its `flush` and
its `settle`, and no checkpoint fails.  The first of the three is what the test would make
superfluous that is commented out in the allocator.
-/

namespace Hoit

open Bitmap Transition

variable (g : Geometry)

/-- `mpt_dirty_map_bits`: the number of blocks of the table. -/
def mptDirtyMapBits : ℕ :=
  ((g.mainSegmentNums + g.segmentCountMain) * 4 - 1) / 4096 + 1

/-- `nvm_flush_mpt_pages`, as far as it concerns the NVM super block: one dirty page makes the
super block dirty, and the dirty bits are cleared. -/
def nvmFlushMptPages (nsbi : NvmSbInfo) : NvmSbInfo :=
  if findNextBit nsbi.mptDirtyMap (mptDirtyMapBits g) 0 = mptDirtyMapBits g then nsbi
  else
    { nsbi with
      nvmFlag := nsbi.nvmFlag ||| nvmNsbDirty
      mptDirtyMap := fun i => nsbi.mptDirtyMap i && !decide (i < mptDirtyMapBits g) }

/-- How far `f2fs_write_checkpoint` has come. -/
inductive CpPhase where
  | idle
  | flushed
  | settling
deriving DecidableEq

structure CkptState where
  seg : SegState
  /-- The map in the copy of the NVM super block written last. -/
  nsbRecorded : ℕ → Bool
  committedMap : ℕ → Bool
  handedOut : List ℕ
  phase : CpPhase

inductive CkptStep where
  | seg (a : SegStep)
  | flush
  | commit
  /-- The checkpoint fails, before or after it has switched the version of the super block. -/
  | fail (switched : Bool)
  | settle
deriving DecidableEq

/-- The switch of the NVM super block in `do_checkpoint`: `NVM_NSB_DIRTY` is toggled off. -/
def switchNsb (nsbi : NvmSbInfo) : NvmSbInfo :=
  if nsbi.nvmFlag &&& nvmNsbDirty ≠ 0#16 then
    { nsbi with nvmFlag := nsbi.nvmFlag ^^^ nvmNsbDirty }
  else nsbi

/-- The segment a `lockAlloc` hands out, if the label is one and it succeeds. -/
def allocated (x : SegState) : SegStep → Option ℕ
  | .lockAlloc t =>
      match x.pc t with
      | .allocating _ start _ =>
          match nvmAllocateSegmentLocked g x.nsbi start with
          | .ok _ n => some n
          | _ => none
      | _ => none
  | _ => none

def SegState.withNsbi (x : SegState) (nsbi : NvmSbInfo) : SegState := { x with nsbi }

def ckptStep (x : CkptState) : CkptStep → Option CkptState
  | .seg a =>
      (segStep g x.seg a).map fun seg =>
        { x with seg, handedOut := (allocated g x.seg a).toList ++ x.handedOut }
  | .flush =>
      if x.phase = .idle then
        let nsbi := nvmFlushMptPages g x.seg.nsbi
        some { x with
          seg := x.seg.withNsbi nsbi
          nsbRecorded := if nsbi.nvmFlag &&& nvmNsbDirty ≠ 0#16 then nsbi.segmentMap
            else x.nsbRecorded
          phase := .flushed }
      else none
  | .commit =>
      if x.phase = .flushed then
        some { x with
          seg := x.seg.withNsbi (switchNsb x.seg.nsbi)
          committedMap := x.nsbRecorded
          handedOut := []
          phase := .settling }
      else none
  | .fail switched =>
      if x.phase = .flushed then
        some { x with
          seg := if switched then x.seg.withNsbi (switchNsb x.seg.nsbi) else x.seg
          phase := .settling }
      else none
  | .settle =>
      if x.phase = .settling then
        some { x with
          seg := x.seg.withNsbi (nvmSetCkptSegmentMap x.seg.nsbi)
          phase := .idle }
      else none

/-- A first mount: nothing is recorded, and nothing is in use on NVM. -/
def ckptMount (freeI : FreeSegmapInfo) : CkptState where
  seg := mountState g freeI
  nsbRecorded := fun _ => false
  committedMap := fun _ => false
  handedOut := []
  phase := .idle

/-! ## The rule -/

/-- **The rule of `nvm.h`**: nothing that was in use at the last committed checkpoint has been
handed out since, and `ckpt_segment_map` is the map of that checkpoint.  While a checkpoint is
between its commit and `nvm_set_ckpt_segment_map`, the second part is not asked for. -/
structure CrashSafeReuse (x : CkptState) : Prop where
  notReused : ∀ n ∈ x.handedOut, x.committedMap n = false
  current : x.phase ≠ .settling →
    ∀ n < g.mainSegmentNums, x.seg.nsbi.ckptSegmentMap n = x.committedMap n

/-- What a step has to find: an allocation's search ends at a segment that is clear in the map of
the last committed checkpoint, and `nvm_set_ckpt_segment_map` copies that very map. -/
def ReuseCondition (x : CkptState) : CkptStep → Prop
  | .seg (.lockAlloc t) => ∀ s start job n, x.seg.pc t = .allocating s start job →
      searchFree x.seg.nsbi.segmentMap g.mainSegmentNums 2 start = some n →
      x.committedMap n = false
  | .settle => ∀ n < g.mainSegmentNums, x.seg.nsbi.segmentMap n = x.committedMap n
  | _ => True

/-- The segment whose bit a step clears: the NVM segment of the mapping that is dropped, or the one
that `hot_to_nvm` gives back. -/
def released (x : SegState) : SegStep → Option ℕ
  | .free s | .unset s =>
      if getMapFlag x.nsbi.mpt (g.ssdIndex s) then some (getMptValue x.nsbi.mpt (g.ssdIndex s))
      else none
  | .release t =>
      match x.pc t with
      | .releasing n _ => some n
      | _ => none
  | _ => none

/-- **The schedule**: segments are allocated and released while no checkpoint is between its
`flush` and its `settle`, those of the last committed checkpoint are not released at all before
the next commit, and no checkpoint fails. -/
def ReuseSchedule (x : CkptState) : CkptStep → Prop
  | .seg (.lockAlloc _) => x.phase = .idle
  | .seg a => ∀ n ∈ released g x.seg a, x.phase = .idle ∧ x.committedMap n = false
  | .fail _ => False
  | .flush | .commit | .settle => True

instance (x : CkptState) : ∀ a, Decidable (ReuseSchedule g x a)
  | .seg (.lockAlloc _) => inferInstanceAs (Decidable (_ = _))
  | .seg (.pick _ _) | .seg (.startScan _) | .seg (.scan _ _) | .seg (.endScan _ _)
  | .seg (.skip _) | .seg (.enter _) | .seg (.recheck _) | .seg (.create _) | .seg (.release _)
  | .seg (.free _) | .seg (.unset _) | .seg (.double _) =>
      inferInstanceAs (Decidable (∀ n ∈ released g x.seg _, _ ∧ _))
  | .fail _ => isFalse id
  | .flush | .commit | .settle => isTrue trivial

variable {g}

/-- No step of the segment layer writes `ckpt_segment_map`. -/
lemma SegEffect.ckptSegmentMap {x x' : SegState} {a : SegStep} (he : SegEffect g x a x') :
    x'.nsbi.ckptSegmentMap = x.nsbi.ckptSegmentMap := by
  cases he with
  | quiet _ _ _ _ hckpt _ _ => exact hckpt
  | took t n start _ _ hal _ _ =>
      obtain ⟨-, -, -, hnsbi⟩ := nvmAllocateSegmentLocked_ok g hal
      rw [hnsbi]
  | mapped t s n flag _ _ _ _ hnsbi _ _ =>
      rw [hnsbi]
      rfl
  | gave t n _ _ hnsbi _ _ =>
      rw [hnsbi]
      rfl
  | dropped s _ _ _ _ _ hckpt _ _ => exact hckpt
  | doubled s _ _ hnsbi _ _ =>
      rw [hnsbi]
      exact setDouble_frame.2.2

/-- With an exact counter, an allocation hands out `n` iff its search ends at `n`. -/
lemma allocated_lockAlloc {x : SegState} (hacc : Accounted g x.nsbi x.held) {t s start n : ℕ}
    {job : Job} (hp : x.pc t = .allocating s start job) :
    allocated g x (.lockAlloc t) = some n ↔
      searchFree x.nsbi.segmentMap g.mainSegmentNums 2 start = some n := by
  simp only [allocated, hp, nvmAllocateSegmentLocked]
  by_cases hzero : x.nsbi.mainSegmentFreeNums = 0
  · rw [if_pos hzero]
    refine iff_of_false (by simp) ?_
    intro hsearch
    obtain ⟨hn, hclear⟩ := searchFree_spec hsearch
    have hpos := zeroBits_pos.mpr ⟨n, hn, hclear⟩
    rw [← hacc.free, hzero] at hpos
    exact absurd hpos (lt_irrefl 0)
  · rw [if_neg hzero, if_pos hacc.freeNums_le]
    cases hsearch : searchFree x.nsbi.segmentMap g.mainSegmentNums 2 start with
    | none => simp
    | some m => simp

/-- For a step of the segment layer the condition speaks about what the step hands out. -/
lemma reuseCondition_seg {x : CkptState} (hacc : Accounted g x.seg.nsbi x.seg.held)
    (a : SegStep) :
    ReuseCondition g x (.seg a) ↔ ∀ n ∈ (allocated g x.seg a).toList, x.committedMap n = false := by
  cases a with
  | lockAlloc t =>
      simp only [ReuseCondition, Option.mem_toList]
      constructor
      · intro hcond n hn
        cases hp : x.seg.pc t with
        | allocating s start job =>
            exact hcond s start job n hp ((allocated_lockAlloc hacc hp).mp hn)
        | _ => simp [allocated, hp] at hn
      · intro hall s start job n hp hsearch
        exact hall n ((allocated_lockAlloc hacc hp).mpr hsearch)
  | _ => simp [ReuseCondition, allocated]

/-! ## Steps and runs -/

lemma segInv_withNsbi {x : SegState} {nsbi : NvmSbInfo} (h : SegInv g x)
    (hmpt : nsbi.mpt = x.nsbi.mpt) (hmap : nsbi.segmentMap = x.nsbi.segmentMap)
    (hfree : nsbi.mainSegmentFreeNums = x.nsbi.mainSegmentFreeNums) :
    SegInv g (x.withNsbi nsbi) :=
  ⟨h.accounted.congr hmpt hmap hfree, h.ok⟩

lemma nvmFlushMptPages_frame (nsbi : NvmSbInfo) :
    (nvmFlushMptPages g nsbi).mpt = nsbi.mpt ∧
      (nvmFlushMptPages g nsbi).segmentMap = nsbi.segmentMap ∧
      (nvmFlushMptPages g nsbi).mainSegmentFreeNums = nsbi.mainSegmentFreeNums ∧
      (nvmFlushMptPages g nsbi).ckptSegmentMap = nsbi.ckptSegmentMap := by
  unfold nvmFlushMptPages
  split <;> exact ⟨rfl, rfl, rfl, rfl⟩

lemma switchNsb_frame (nsbi : NvmSbInfo) :
    (switchNsb nsbi).mpt = nsbi.mpt ∧ (switchNsb nsbi).segmentMap = nsbi.segmentMap ∧
      (switchNsb nsbi).mainSegmentFreeNums = nsbi.mainSegmentFreeNums := by
  unfold switchNsb
  split <;> exact ⟨rfl, rfl, rfl⟩

/-- The accounting is kept by the checkpoint steps as well. -/
lemma ckptStep_segInv {x x' : CkptState} {a : CkptStep} (h : SegInv g x.seg)
    (hstep : ckptStep g x a = some x') : SegInv g x'.seg := by
  cases a with
  | seg a =>
      simp only [ckptStep, Option.map_eq_some_iff] at hstep
      obtain ⟨seg, hseg, rfl⟩ := hstep
      exact segInv_step h hseg
  | flush =>
      simp only [ckptStep] at hstep
      split at hstep
      · obtain rfl := Option.some.inj hstep
        obtain ⟨h1, h2, h3, -⟩ := nvmFlushMptPages_frame (g := g) x.seg.nsbi
        exact segInv_withNsbi h h1 h2 h3
      · exact absurd hstep (by simp)
  | commit =>
      simp only [ckptStep] at hstep
      split at hstep
      · obtain rfl := Option.some.inj hstep
        obtain ⟨h1, h2, h3⟩ := switchNsb_frame x.seg.nsbi
        exact segInv_withNsbi h h1 h2 h3
      · exact absurd hstep (by simp)
  | fail switched =>
      simp only [ckptStep] at hstep
      split at hstep
      · obtain rfl := Option.some.inj hstep
        obtain ⟨h1, h2, h3⟩ := switchNsb_frame x.seg.nsbi
        cases switched with
        | false => exact h
        | true => exact segInv_withNsbi h h1 h2 h3
      · exact absurd hstep (by simp)
  | settle =>
      simp only [ckptStep] at hstep
      split at hstep
      · obtain rfl := Option.some.inj hstep
        exact segInv_withNsbi h rfl rfl rfl
      · exact absurd hstep (by simp)

/-- **One step keeps the rule iff it meets the condition.** -/
lemma ckptStep_crashSafeReuse_iff {x x' : CkptState} {a : CkptStep} (hinv : SegInv g x.seg)
    (h : CrashSafeReuse g x) (hstep : ckptStep g x a = some x') :
    CrashSafeReuse g x' ↔ ReuseCondition g x a := by
  cases a with
  | seg a =>
      simp only [ckptStep, Option.map_eq_some_iff] at hstep
      obtain ⟨seg, hseg, rfl⟩ := hstep
      have hckpt := (segStep_effect hinv.ok hseg).ckptSegmentMap
      rw [reuseCondition_seg hinv.accounted]
      constructor
      · intro h' n hn
        exact h'.notReused n (List.mem_append_left _ hn)
      · intro hcond
        refine ⟨?_, ?_⟩
        · intro n hn
          rcases List.mem_append.mp hn with hn | hn
          · exact hcond n hn
          · exact h.notReused n hn
        · intro hphase n hn
          show seg.nsbi.ckptSegmentMap n = x.committedMap n
          rw [hckpt]
          exact h.current hphase n hn
  | flush =>
      simp only [ckptStep] at hstep
      split at hstep
      · rename_i hidle
        obtain rfl := Option.some.inj hstep
        refine iff_of_true ⟨h.notReused, ?_⟩ trivial
        intro _ n hn
        show (nvmFlushMptPages g x.seg.nsbi).ckptSegmentMap n = x.committedMap n
        rw [(nvmFlushMptPages_frame x.seg.nsbi).2.2.2]
        exact h.current (by simp [hidle]) n hn
      · exact absurd hstep (by simp)
  | commit =>
      simp only [ckptStep] at hstep
      split at hstep
      · obtain rfl := Option.some.inj hstep
        exact iff_of_true ⟨by simp, by simp⟩ trivial
      · exact absurd hstep (by simp)
  | fail switched =>
      simp only [ckptStep] at hstep
      split at hstep
      · obtain rfl := Option.some.inj hstep
        exact iff_of_true ⟨h.notReused, by simp⟩ trivial
      · exact absurd hstep (by simp)
  | settle =>
      simp only [ckptStep] at hstep
      split at hstep
      · obtain rfl := Option.some.inj hstep
        constructor
        · intro h'
          exact h'.current (by simp)
        · intro hcond
          exact ⟨h.notReused, fun _ => hcond⟩
      · exact absurd hstep (by simp)

lemma crashSafeReuse_ckptMount (freeI : FreeSegmapInfo) :
    CrashSafeReuse g (ckptMount g freeI) :=
  ⟨by simp [ckptMount], fun _ _ _ => rfl⟩

/-! ## The schedule -/

lemma setTestAndFree_unset (nsbi : NvmSbInfo) (freeI : FreeSegmapInfo) (s : ℕ) :
    (setTestAndFree g nsbi freeI s).1.segmentMap = (unsetMapping g nsbi s).segmentMap ∧
      (setTestAndFree g nsbi freeI s).1.nvmFlag = (unsetMapping g nsbi s).nvmFlag := by
  simp only [setTestAndFree]
  split
  · exact ⟨rfl, rfl⟩
  · rename_i h
    rw [unsetMapping_of_unmapped (Bool.not_eq_true _ ▸ h)]
    exact ⟨rfl, rfl⟩

/-- What a step does to `segment_map` and to the mark of the super block: only an allocation sets
a bit, and it marks; a release marks nothing. -/
inductive MapMove (g : Geometry) (x : SegState) (a : SegStep) (nsbi : NvmSbInfo) : Prop
  | took (t n : ℕ) (ha : a = .lockAlloc t)
      (hmap : nsbi.segmentMap = Function.update x.nsbi.segmentMap n true)
      (hflag : nsbi.nvmFlag = x.nsbi.nvmFlag ||| nvmNsbDirty)
  | gave (n : ℕ) (hrel : n ∈ released g x a)
      (hmap : nsbi.segmentMap = Function.update x.nsbi.segmentMap n false)
      (hflag : nsbi.nvmFlag = x.nsbi.nvmFlag)
  | quiet (hmap : nsbi.segmentMap = x.nsbi.segmentMap) (hflag : nsbi.nvmFlag = x.nsbi.nvmFlag)

/-- The drop of a mapping, by `unset_mapping` or by `__set_test_and_free`. -/
lemma MapMove.drop {x : SegState} {a : SegStep} {s : ℕ} {nsbi : NvmSbInfo}
    (hrel : released g x a = if getMapFlag x.nsbi.mpt (g.ssdIndex s)
      then some (getMptValue x.nsbi.mpt (g.ssdIndex s)) else none)
    (hmap : nsbi.segmentMap = (unsetMapping g x.nsbi s).segmentMap)
    (hflag : nsbi.nvmFlag = (unsetMapping g x.nsbi s).nvmFlag) : MapMove g x a nsbi := by
  cases hm : getMapFlag x.nsbi.mpt (g.ssdIndex s) with
  | true =>
      rw [unsetMapping, if_pos hm] at hmap hflag
      rw [hm, if_pos rfl] at hrel
      exact .gave _ (by rw [hrel]; rfl) hmap hflag
  | false =>
      rw [unsetMapping_of_unmapped hm] at hmap hflag
      exact .quiet hmap hflag

lemma segStep_mapMove {x x' : SegState} {a : SegStep} (h : segStep g x a = some x') :
    MapMove g x a x'.nsbi := by
  cases a with
  | lockAlloc t =>
      simp only [segStep] at h
      split at h
      · split at h
        · obtain rfl := Option.some.inj h
          exact .quiet rfl rfl
        · obtain rfl := Option.some.inj h
          exact .quiet rfl rfl
        · obtain rfl := Option.some.inj h
          exact .quiet rfl rfl
        · rename_i nsbi n hal
          obtain rfl := Option.some.inj h
          obtain ⟨-, -, -, hnsbi⟩ := nvmAllocateSegmentLocked_ok g hal
          exact .took t n rfl (by rw [hnsbi]) (by rw [hnsbi])
      · exact absurd h (by simp)
  | create t =>
      simp only [segStep] at h
      split at h
      · obtain rfl := Option.some.inj h
        exact .quiet rfl rfl
      · exact absurd h (by simp)
  | release t =>
      simp only [segStep] at h
      split at h
      · rename_i n todo hp
        obtain rfl := Option.some.inj h
        exact .gave n (by simp [released, hp]) rfl rfl
      · exact absurd h (by simp)
  | free s =>
      obtain ⟨-, h⟩ := Option.ite_none_right_eq_some.mp h
      obtain rfl := Option.some.inj h
      obtain ⟨hmap, hflag⟩ := setTestAndFree_unset (g := g) x.nsbi x.freeI s
      exact .drop rfl hmap hflag
  | unset s =>
      obtain ⟨-, h⟩ := Option.ite_none_right_eq_some.mp h
      obtain rfl := Option.some.inj h
      exact .drop rfl rfl rfl
  | double s =>
      obtain ⟨-, h⟩ := Option.ite_none_right_eq_some.mp h
      obtain rfl := Option.some.inj h
      refine .quiet setDouble_frame.1 ?_
      unfold setDouble
      split <;> rfl
  | pick t s =>
      obtain ⟨-, h⟩ := Option.ite_none_right_eq_some.mp h
      obtain rfl := Option.some.inj h
      exact .quiet rfl rfl
  | startScan t =>
      obtain ⟨-, h⟩ := Option.ite_none_right_eq_some.mp h
      obtain rfl := Option.some.inj h
      exact .quiet rfl rfl
  | scan t s | endScan t todo | skip t | enter t | recheck t =>
      -- the thread only moves on
      simp only [segStep] at h
      repeat' split at h
      all_goals first
        | (obtain rfl := Option.some.inj h; exact .quiet rfl rfl)
        | exact absurd h (by simp)

/-- **What the schedule keeps.**  Segments of the last committed checkpoint stay in use, those
that came into use since have marked the super block, and from the `flush` of a checkpoint to its
`settle` the map is the one that it records. -/
structure ReuseInv (g : Geometry) (x : CkptState) : Prop where
  kept : ∀ n < g.mainSegmentNums, x.committedMap n = true → x.seg.nsbi.segmentMap n = true
  recorded : x.phase ≠ .flushed → ∀ n < g.mainSegmentNums, x.nsbRecorded n = x.committedMap n
  marked : x.phase = .idle → ∀ n < g.mainSegmentNums, x.seg.nsbi.segmentMap n = true →
    x.committedMap n = false → x.seg.nsbi.nvmFlag &&& nvmNsbDirty ≠ 0#16
  flushed : x.phase = .flushed → ∀ n < g.mainSegmentNums,
    x.nsbRecorded n = x.seg.nsbi.segmentMap n
  settling : x.phase = .settling → ∀ n < g.mainSegmentNums,
    x.seg.nsbi.segmentMap n = x.committedMap n

lemma nsbDirty_or (f : BitVec 16) : ((f ||| nvmNsbDirty) &&& nvmNsbDirty != 0#16) = true := by
  have hone : nvmNsbDirty = BitVec.twoPow 16 0 := by decide
  rw [hone, and_twoPow_ne_zero _ (by decide)]
  simp

/-- A flush of the table never takes the mark away. -/
lemma nvmFlushMptPages_nvmFlag {nsbi : NvmSbInfo} (h : nsbi.nvmFlag &&& nvmNsbDirty ≠ 0#16) :
    (nvmFlushMptPages g nsbi).nvmFlag &&& nvmNsbDirty ≠ 0#16 := by
  unfold nvmFlushMptPages
  split
  · exact h
  · exact bne_iff_ne.mp (nsbDirty_or nsbi.nvmFlag)

variable {x x' : CkptState}

/-- On schedule, the segment layer moves the map only while no checkpoint runs, and then as the
invariant asks for. -/
lemma ReuseInv.seg {a : SegStep} {seg : SegState} (hx : ReuseInv g x)
    (hsched : ReuseSchedule g x (.seg a)) (hmove : MapMove g x.seg a seg.nsbi) (handed : List ℕ) :
    ReuseInv g { x with seg, handedOut := handed } := by
  cases hmove with
  | took t n ha hmap hflag =>
      subst ha
      have hidle : x.phase = .idle := hsched
      refine ⟨fun k hk hc => ?_, hx.recorded, fun _ k _ _ _ => ?_, fun hp => ?_, fun hp => ?_⟩
      · show seg.nsbi.segmentMap k = true
        rw [hmap, Function.update_apply]
        split
        · rfl
        · exact hx.kept k hk hc
      · show seg.nsbi.nvmFlag &&& nvmNsbDirty ≠ 0#16
        rw [hflag]
        exact bne_iff_ne.mp (nsbDirty_or _)
      · exact absurd (hidle.symm.trans hp) (by simp)
      · exact absurd (hidle.symm.trans hp) (by simp)
  | gave n hrel hmap hflag =>
      have hcond : x.phase = .idle ∧ x.committedMap n = false := by
        cases a with
        | lockAlloc t => exact absurd hrel (by simp [released])
        | _ => exact hsched n hrel
      obtain ⟨hidle, hout⟩ := hcond
      refine ⟨fun k hk hc => ?_, hx.recorded, fun hp k hk hset hc => ?_, fun hp => ?_,
        fun hp => ?_⟩
      · have hne : k ≠ n := by
          rintro rfl
          exact absurd (hc.symm.trans hout) (by simp)
        show seg.nsbi.segmentMap k = true
        rw [hmap, Function.update_of_ne hne]
        exact hx.kept k hk hc
      · have hne : k ≠ n := by
          rintro rfl
          simp [hmap] at hset
        show seg.nsbi.nvmFlag &&& nvmNsbDirty ≠ 0#16
        rw [hflag]
        have hset' : x.seg.nsbi.segmentMap k = true := by simpa [hmap, hne] using hset
        exact hx.marked hp k hk hset' hc
      · exact absurd (hidle.symm.trans hp) (by simp)
      · exact absurd (hidle.symm.trans hp) (by simp)
  | quiet hmap hflag =>
      refine ⟨?_, hx.recorded, ?_, ?_, ?_⟩
      · simpa only [hmap] using hx.kept
      · simpa only [hmap, hflag] using hx.marked
      · simpa only [hmap] using hx.flushed
      · simpa only [hmap] using hx.settling

/-- **The map that a checkpoint records is the map of its flush**: when the super block is not
written, nothing has come into use since the last commit, and nothing of it has gone. -/
lemma ReuseInv.flush (hx : ReuseInv g x) (hidle : x.phase = .idle) {n : ℕ}
    (hn : n < g.mainSegmentNums) :
    (if (nvmFlushMptPages g x.seg.nsbi).nvmFlag &&& nvmNsbDirty ≠ 0#16 then
      (nvmFlushMptPages g x.seg.nsbi).segmentMap else x.nsbRecorded) n
        = (nvmFlushMptPages g x.seg.nsbi).segmentMap n := by
  split
  · rfl
  · rename_i hclean
    rw [hx.recorded (by simp [hidle]) n hn, (nvmFlushMptPages_frame x.seg.nsbi).2.1]
    cases hc : x.committedMap n with
    | true => exact (hx.kept n hn hc).symm
    | false =>
        cases hset : x.seg.nsbi.segmentMap n with
        | false => rfl
        | true => exact absurd (nvmFlushMptPages_nvmFlag (hx.marked hidle n hn hset hc)) hclean

lemma reuseInv_step {a : CkptStep} (hx : ReuseInv g x) (hsched : ReuseSchedule g x a)
    (hstep : ckptStep g x a = some x') : ReuseInv g x' := by
  cases a with
  | seg a =>
      simp only [ckptStep, Option.map_eq_some_iff] at hstep
      obtain ⟨seg, hseg, rfl⟩ := hstep
      exact hx.seg hsched (segStep_mapMove hseg) _
  | flush =>
      obtain ⟨hidle, hstep⟩ := Option.ite_none_right_eq_some.mp hstep
      obtain rfl := Option.some.inj hstep
      have hmap := (nvmFlushMptPages_frame (g := g) x.seg.nsbi).2.1
      refine ⟨fun n hn hc => ?_, fun hp => absurd rfl hp, fun hp => absurd hp (by simp),
        fun _ n hn => hx.flush hidle hn, fun hp => absurd hp (by simp)⟩
      show (nvmFlushMptPages g x.seg.nsbi).segmentMap n = true
      rw [hmap]
      exact hx.kept n hn hc
  | commit =>
      obtain ⟨hphase, hstep⟩ := Option.ite_none_right_eq_some.mp hstep
      obtain rfl := Option.some.inj hstep
      have hmap := (switchNsb_frame x.seg.nsbi).2.1
      have hrec := hx.flushed hphase
      refine ⟨fun n hn hc => ?_, fun _ _ _ => rfl, fun hp => absurd hp (by simp),
        fun hp => absurd hp (by simp), fun _ n hn => ?_⟩
      · show (switchNsb x.seg.nsbi).segmentMap n = true
        rw [hmap, ← hrec n hn]
        exact hc
      · show (switchNsb x.seg.nsbi).segmentMap n = x.nsbRecorded n
        rw [hmap, hrec n hn]
  | fail switched => exact hsched.elim
  | settle =>
      obtain ⟨hphase, hstep⟩ := Option.ite_none_right_eq_some.mp hstep
      obtain rfl := Option.some.inj hstep
      have hsame := hx.settling hphase
      refine ⟨hx.kept, fun _ => hx.recorded (by simp [hphase]), fun _ n hn hset hc => ?_,
        fun hp => absurd hp (by simp), fun hp => absurd hp (by simp)⟩
      have hset' : x.seg.nsbi.segmentMap n = true := hset
      have hc' : x.committedMap n = false := hc
      rw [hsame n hn, hc'] at hset'
      exact absurd hset' (by simp)

/-- On schedule, a step finds what it has to find. -/
lemma reuseCondition_of_schedule {a : CkptStep} (hx : ReuseInv g x)
    (hstep : ckptStep g x a = some x') : ReuseCondition g x a := by
  cases a with
  | seg a =>
      cases a with
      | lockAlloc t =>
          intro s start job n _ hsearch
          obtain ⟨hn, hclear⟩ := searchFree_spec hsearch
          cases hc : x.committedMap n with
          | false => rfl
          | true => exact absurd ((hx.kept n hn hc).symm.trans hclear) (by simp)
      | _ => trivial
  | settle => exact hx.settling (Option.ite_none_right_eq_some.mp hstep).1
  | _ => trivial

lemma reuseInv_ckptMount (freeI : FreeSegmapInfo) : ReuseInv g (ckptMount g freeI) :=
  ⟨fun _ _ hc => absurd hc (by simp [ckptMount]), fun _ _ _ => rfl,
    fun _ _ _ hset => absurd hset (by simp [ckptMount, mountState]),
    fun hp => absurd hp (by simp [ckptMount]), fun hp => absurd hp (by simp [ckptMount])⟩

/-- **Crash-safe reuse.**  Over every interleaving of allocations, frees, migrations and
checkpoints that keeps to the schedule, the rule of `nvm.h` holds in every state. -/
theorem crash_safe_reuse_throughout (freeI : FreeSegmapInfo) {as : List CkptStep}
    (h : StepsMeet (ckptStep g) (ReuseSchedule g) (ckptMount g freeI) as) :
    Throughout (ckptStep g) (CrashSafeReuse g) (ckptMount g freeI) as := by
  have hstep : ∀ x a x', SegInv g x.seg ∧ CrashSafeReuse g x ∧ ReuseInv g x →
      ReuseSchedule g x a → ckptStep g x a = some x' →
      SegInv g x'.seg ∧ CrashSafeReuse g x' ∧ ReuseInv g x' := by
    rintro x a x' ⟨hseg, hsafe, hinv⟩ hsched h
    exact ⟨ckptStep_segInv hseg h,
      (ckptStep_crashSafeReuse_iff hseg hsafe h).mpr (reuseCondition_of_schedule hinv h),
      reuseInv_step hinv hsched h⟩
  have hmount : SegInv g (ckptMount g freeI).seg ∧ CrashSafeReuse g (ckptMount g freeI) ∧
      ReuseInv g (ckptMount g freeI) :=
    ⟨segInv_mountState freeI, crashSafeReuse_ckptMount freeI, reuseInv_ckptMount freeI⟩
  exact (throughout_of_stepsMeet hstep hmount h).mono fun _ hx => hx.2.1

/-! ### A device with two NVM segments -/

def twoGeometry : Geometry where
  mainSegmentNums := 2
  segmentCountMain := 4
  segsPerSec := 1
  nvm_lt := by decide
  ssd_lt := Geometry.four_fit
  segsPerSec_pos := Nat.one_pos

/-- `new_curseg` of thread 1 maps SSD segment `s`. -/
def newMapping (s : ℕ) : List CkptStep :=
  [.seg (.pick 1 s), .seg (.enter 1), .seg (.lockAlloc 1), .seg (.create 1)]

/-- A checkpoint commits the mapping of SSD segment 1; that of SSD segment 2 is made and dropped
before the next one, and its NVM segment handed out again. -/
def periodRun : List CkptStep :=
  newMapping 1 ++ [.flush, .commit, .settle] ++ newMapping 2 ++ [.seg (.unset 2)] ++
    newMapping 3 ++ [.flush, .commit, .settle]

theorem crash_safe_reuse_throughout_periodRun :
    (exec (ckptStep twoGeometry) (ckptMount twoGeometry smallFreeI) periodRun).map
        (fun x => (x.committedMap 0, x.committedMap 1, x.seg.nsbi.ckptSegmentMap 1))
          = some (true, true, true) ∧
      Throughout (ckptStep twoGeometry) (CrashSafeReuse twoGeometry)
        (ckptMount twoGeometry smallFreeI) periodRun :=
  ⟨by decide +kernel, crash_safe_reuse_throughout smallFreeI (by decide +kernel)⟩

/-- `new_curseg` maps SSD segments 1 and 2 to NVM segments 0 and 1, a checkpoint commits, cold
migration drops the mapping of SSD segment 1, and the next `new_curseg` is handed NVM segment 0
again. -/
def reuseRun : List CkptStep :=
  newMapping 1 ++ newMapping 2 ++ [.flush, .commit, .settle, .seg (.unset 1),
    .seg (.pick 1 3), .seg (.enter 1), .seg (.lockAlloc 1)]

/-- **A segment of the committed checkpoint is handed out again** within one checkpoint period. -/
theorem crash_safe_reuse_broken :
    ¬ ∀ (g : Geometry) (freeI : FreeSegmapInfo) (as : List CkptStep) (x : CkptState),
      exec (ckptStep g) (ckptMount g freeI) as = some x → CrashSafeReuse g x := by
  intro hall
  have hreads : (exec (ckptStep twoGeometry) (ckptMount twoGeometry smallFreeI) reuseRun).map
      (fun x => (x.handedOut, x.committedMap 0)) = some ([0], true) := by decide +kernel
  obtain ⟨x, hx, hreads⟩ := Option.map_eq_some_iff.mp hreads
  simp only [Prod.mk.injEq] at hreads
  have hsafe := (hall twoGeometry smallFreeI reuseRun x hx).notReused 0 (by simp [hreads.1])
  rw [hreads.2] at hsafe
  exact Bool.noConfusion hsafe

end Hoit
