import HoitF2fs.Nvm.Nsb

/-!
# The NVM super block across checkpoints

A checkpoint writes the NVM super block to the block that `CP_NSB_VER_FLAG` does *not* select,
and later, in `do_checkpoint`, toggles the flag in the header that it commits.  Whether to write
and whether to toggle are two tests of `NVM_NSB_DIRTY`, with the writeback of the META pages in
between and no lock that keeps other threads from setting the bit.

**The system.**  `NsbVolume` holds the table and the maps, the two cached pages and blocks of the
super block, and the flag in `sbi->ckpt`.  Its steps are those of the other threads —
`nvm_allocate_segment`, the mapping operations, and the release of `hot_to_nvm` — and the stations
of `f2fs_write_checkpoint`: `flushMpt`, `flushNsb`, `switch`, `commit`.

* `switch byteNvm` is the toggle.  In `bnvm_do_checkpoint` it goes to the header of the pack that
  is about to be written, over which the header of `sbi->ckpt` is copied afterwards; it survives
  only when the two are the same (`targetIsCkpt`), which is so at every other checkpoint.
* `flushError` is a failing `f2fs_flush_device_cache`: the checkpoint returns after its toggle, and
  a later one starts again.
* `lastFlush`, `lastCopy`, `flushedNow`, `recordedMpt`, `nsbWrites` and `committed` are ghosts.

**What is proved.**
* `nsb_commit_safe` — the committed copy decodes to the last flush, and nothing is written to it
  before the next commit, in every run whose checkpoints toggle iff they have flushed, in a header
  that keeps the toggle, and start from the committed flag.
* `no_change_missed_iff` — a change of the maps or of the table is marked in `NVM_NSB_DIRTY` or in
  `mpt_dirty_map`, throughout a run, **iff** no switch clears the bit over an unrecorded change and
  no release of `hot_to_nvm` makes one unmarked.
-/

namespace Hoit

open Bitmap Transition ByteStore

variable (g : Geometry) (fixed : Area)

inductive NsbPhase where
  | idle
  | mptFlushed
  | nsbFlushed
  | switched
  | stopped
deriving DecidableEq

structure NsbVolume where
  store : MptStore
  /-- `CP_NSB_VER_FLAG` in the header that `sbi->ckpt` points to. -/
  ckptFlag : Bool
  /-- The pack that `bnvm_do_checkpoint` would write is the one `sbi->ckpt` points into. -/
  targetIsCkpt : Bool
  /-- The two pages of the super block in the META mapping, and their blocks. -/
  cache : Bool → Area
  disk : Bool → Area
  pageDirty : Bool → Bool
  phase : NsbPhase
  /-- The most recent `nvm_flush_nsb_pages`: what it recorded and where, and whether it belongs to
  the running checkpoint. -/
  lastFlush : NsbRecord
  lastCopy : Bool
  flushedNow : Bool
  /-- The table as `nvm_flush_mpt_pages` recorded it, page by page. -/
  recordedMpt : Mpt
  /-- The copies written since the last commit. -/
  nsbWrites : List Bool
  /-- The flag of the last committed checkpoint, and what had been flushed last by then. -/
  committed : Option (Bool × NsbRecord)

inductive NsbStep where
  /-- `nvm_allocate_segment`, searching from `start`. -/
  | alloc (start : ℕ)
  | op (a : MptOp)
  /-- The release of `hot_to_nvm`. -/
  | release (nvmSegoff : ℕ)
  | flushMpt
  | flushNsb
  | writeback (copy : Bool)
  | switch (byteNvm : Bool)
  | commit
  | flushError
  | stop
deriving DecidableEq

/-- The segments that the callers of an operation pass are segments of the two devices. -/
def MptOp.InRange : MptOp → Prop
  | .create ssdSegoff nvmSegoff _ => ssdSegoff < g.segmentCountMain ∧ nvmSegoff < g.mainSegmentNums
  | .unset ssdSegno => ssdSegno < g.segmentCountMain
  | .double ssdSegno => ssdSegno < g.segmentCountMain

instance : ∀ a : MptOp, Decidable (a.InRange g)
  | .create _ _ _ => inferInstanceAs (Decidable (_ ∧ _))
  | .unset _ => inferInstanceAs (Decidable (_ < _))
  | .double _ => inferInstanceAs (Decidable (_ < _))

def NsbVolume.nsbDirty (x : NsbVolume) : Bool := x.store.nsbi.nvmFlag &&& nvmNsbDirty != 0#16

def NsbVolume.withNsbi (x : NsbVolume) (nsbi : NvmSbInfo) : NsbVolume :=
  { x with store := x.store.withNsbi nsbi }

/-- The copy that `nvm_flush_nsb_pages` is called with in a checkpoint. -/
def NsbVolume.nextCopy (x : NsbVolume) : Bool := !x.ckptFlag

/-- `nvm_flush_nsb_pages` on `nextCopy`. -/
def NsbVolume.flushNsb (x : NsbVolume) : NsbVolume :=
  { x with
    cache := Function.update x.cache x.nextCopy
      (nvmFlushNsbPages g fixed x.store (x.cache x.nextCopy))
    pageDirty := Function.update x.pageDirty x.nextCopy true
    lastFlush := x.store.nsbRecord
    lastCopy := x.nextCopy
    flushedNow := true
    nsbWrites := x.nextCopy :: x.nsbWrites }

/-- The flag of `sbi->ckpt` after the toggle, and after the header has been copied. -/
def NsbVolume.switchedFlag (x : NsbVolume) (byteNvm : Bool) : Bool :=
  if x.nsbDirty && !(byteNvm && !x.targetIsCkpt) then !x.ckptFlag else x.ckptFlag

/-- The recorded table after a flush of `pages`. -/
def recordMpt (recorded mpt : Mpt) (pages : List ℕ) : Mpt := fun i =>
  if i / entriesPerBlk ∈ pages then mpt i else recorded i

def nsbStep (x : NsbVolume) : NsbStep → Option NsbVolume
  | .alloc start =>
      match nvmAllocateSegmentLocked g x.store.nsbi start with
      | .ok nsbi _ => some (x.withNsbi nsbi)
      | _ => none
  | .op a => if a.InRange g then some (x.withNsbi (a.apply g x.store.nsbi)) else none
  | .release nvmSegoff =>
      if nvmSegoff < g.mainSegmentNums then
        some (x.withNsbi (releaseSegment x.store.nsbi nvmSegoff))
      else none
  | .flushMpt =>
      if x.phase = .idle then
        some { x with
          store := flushMptPages g x.store false
          phase := .mptFlushed
          flushedNow := false
          recordedMpt := recordMpt x.recordedMpt x.store.nsbi.mpt
            (mptPagesToFlush g x.store false) }
      else none
  | .flushNsb =>
      if x.phase = .mptFlushed then
        some { (if x.nsbDirty then x.flushNsb g fixed else x) with phase := .nsbFlushed }
      else none
  | .writeback copy =>
      if x.pageDirty copy then
        some { x with
          -- only the page itself reaches the block
          disk := Function.update x.disk copy
            fun k => if k < 4096 then x.cache copy k else x.disk copy k
          pageDirty := Function.update x.pageDirty copy false }
      else none
  | .switch byteNvm =>
      -- the loop over `F2FS_DIRTY_META` comes first
      if x.phase = .nsbFlushed ∧ x.pageDirty false = false ∧ x.pageDirty true = false then
        some { x with
          store := x.store.withNsbi (switchNsb x.store.nsbi)
          ckptFlag := x.switchedFlag byteNvm
          phase := .switched }
      else none
  | .commit =>
      if x.phase = .switched then
        some { x with
          targetIsCkpt := !x.targetIsCkpt
          phase := .idle
          nsbWrites := []
          committed := some (x.ckptFlag, x.lastFlush) }
      else none
  | .flushError => if x.phase = .switched then some { x with phase := .idle } else none
  | .stop => some { x with phase := .stopped }

/-- Everything a step can do, with its guard. -/
inductive NsbMove (x : NsbVolume) : NsbStep → NsbVolume → Prop
  | alloc (start nvmSegoff : ℕ) (nsbi : NvmSbInfo)
      (h : nvmAllocateSegmentLocked g x.store.nsbi start = .ok nsbi nvmSegoff) :
      NsbMove x (.alloc start) (x.withNsbi nsbi)
  | op (a : MptOp) (h : a.InRange g) : NsbMove x (.op a) (x.withNsbi (a.apply g x.store.nsbi))
  | release (nvmSegoff : ℕ) (h : nvmSegoff < g.mainSegmentNums) :
      NsbMove x (.release nvmSegoff) (x.withNsbi (releaseSegment x.store.nsbi nvmSegoff))
  | flushMpt (hphase : x.phase = .idle) :
      NsbMove x .flushMpt { x with
        store := flushMptPages g x.store false
        phase := .mptFlushed
        flushedNow := false
        recordedMpt := recordMpt x.recordedMpt x.store.nsbi.mpt
          (mptPagesToFlush g x.store false) }
  | flushNsb (hphase : x.phase = .mptFlushed) (hdirty : x.nsbDirty = true) :
      NsbMove x .flushNsb { x.flushNsb g fixed with phase := .nsbFlushed }
  | skipNsb (hphase : x.phase = .mptFlushed) (hdirty : x.nsbDirty = false) :
      NsbMove x .flushNsb { x with phase := .nsbFlushed }
  | writeback (copy : Bool) (hdirty : x.pageDirty copy = true) :
      NsbMove x (.writeback copy) { x with
        disk := Function.update x.disk copy
          fun k => if k < 4096 then x.cache copy k else x.disk copy k
        pageDirty := Function.update x.pageDirty copy false }
  | switch (byteNvm : Bool) (hphase : x.phase = .nsbFlushed) (hclean : ∀ c, x.pageDirty c = false) :
      NsbMove x (.switch byteNvm) { x with
        store := x.store.withNsbi (switchNsb x.store.nsbi)
        ckptFlag := x.switchedFlag byteNvm
        phase := .switched }
  | commit (hphase : x.phase = .switched) :
      NsbMove x .commit { x with
        targetIsCkpt := !x.targetIsCkpt
        phase := .idle
        nsbWrites := []
        committed := some (x.ckptFlag, x.lastFlush) }
  | flushError (hphase : x.phase = .switched) : NsbMove x .flushError { x with phase := .idle }
  | stop : NsbMove x .stop { x with phase := .stopped }

/-- A mounted volume.  The first mount flushes the whole table and writes the super block to block
0, with the flag of a freshly formatted checkpoint; later ones read what was committed. -/
inductive NsbVolume.Mounted : NsbVolume → Prop
  | first (x : MptStore) (hmpt : x.nsbi.mpt = fun _ => 0#32)
      (hclean : ∀ p, x.nsbi.mptDirtyMap p = false) (hmap : ∀ n, x.nsbi.segmentMap n = false)
      (hfree : x.nsbi.mainSegmentFreeNums = g.mainSegmentNums) (page : Bool → Area) :
      Mounted
        { store := flushMptPages g x true
          ckptFlag := false
          targetIsCkpt := false
          cache := Function.update page false
            (nvmFlushNsbPages g fixed (flushMptPages g x true) (page false))
          disk := page
          pageDirty := fun copy => !copy
          phase := .idle
          lastFlush := (flushMptPages g x true).nsbRecord
          lastCopy := false
          flushedNow := false
          recordedMpt := fun _ => 0#32
          nsbWrites := [false]
          committed := none }
  | again (x : MptStore) (hmpt : x.nsbi.mpt = f2fsGetMpt g x.toMptArea)
      (hclean : ∀ p, x.nsbi.mptDirtyMap p = false) (hflag : x.nsbi.nvmFlag = 0#16)
      (hfree : x.nsbi.mainSegmentFreeNums < 2 ^ 32) (ckptFlag : Bool) (page : Bool → Area)
      (hread : DecodesTo g fixed (page ckptFlag) x.nsbRecord) :
      Mounted
        { store := x
          ckptFlag := ckptFlag
          targetIsCkpt := false
          cache := page
          disk := page
          pageDirty := fun _ => false
          phase := .idle
          lastFlush := x.nsbRecord
          lastCopy := ckptFlag
          flushedNow := false
          recordedMpt := x.nsbi.mpt
          nsbWrites := []
          committed := some (ckptFlag, x.nsbRecord) }

/-! ## The commit protocol -/

/-- **The copy that a mount would read** holds what had been flushed last when it was committed,
and has not been written since. -/
def NsbCommitSafe (x : NsbVolume) : Prop :=
  ∀ f r, x.committed = some (f, r) → DecodesTo g fixed (x.disk f) r ∧ f ∉ x.nsbWrites

/-- The condition on a step.  A checkpoint that writes the super block finds the committed flag in
`sbi->ckpt` (so: no checkpoint has toggled it and failed since); it toggles the flag iff it has
written the super block; and a toggle in the byte-addressable NVM goes to `sbi->ckpt`. -/
def NsbCondition (x : NsbVolume) : NsbStep → Prop
  | .flushNsb => x.nsbDirty = true → ∀ c ∈ x.committed, x.ckptFlag = c.1
  | .switch byteNvm => x.nsbDirty = x.flushedNow ∧
      (byteNvm = true → x.nsbDirty = true → x.targetIsCkpt = true)
  | _ => True

instance (x : NsbVolume) : ∀ a, Decidable (NsbCondition x a)
  | .flushNsb => inferInstanceAs (Decidable (_ → _))
  | .switch _ => inferInstanceAs (Decidable (_ ∧ _))
  | .alloc _ | .op _ | .release _ | .flushMpt | .writeback _ | .commit | .flushError | .stop =>
      isTrue trivial

/-- The copy that was written last, as the flag of `sbi->ckpt` would have it. -/
def NsbVolume.expectedCopy (x : NsbVolume) : Bool :=
  if x.phase = .nsbFlushed ∧ x.flushedNow = true then !x.ckptFlag else x.ckptFlag

structure NsbInv (x : NsbVolume) : Prop where
  free : x.store.nsbi.mainSegmentFreeNums < 2 ^ 32
  clean : ∀ c, x.pageDirty c = false → ∀ k < 4096, x.disk c k = x.cache c k
  recorded : DecodesTo g fixed (x.cache x.lastCopy) x.lastFlush
  copy : x.phase ≠ .stopped → x.lastCopy = x.expectedCopy
  fresh : x.phase = .mptFlushed → x.flushedNow = false
  written : x.committed ≠ none → ∀ c, x.pageDirty c = true → c ∈ x.nsbWrites
  pages : x.phase = .switched → ∀ c, x.pageDirty c = false
  safe : NsbCommitSafe g fixed x

variable {g fixed} {x : NsbVolume}

lemma free_lt_apply (a : MptOp) {nsbi : NvmSbInfo} (h : nsbi.mainSegmentFreeNums < 2 ^ 32) :
    (a.apply g nsbi).mainSegmentFreeNums < 2 ^ 32 := by
  cases a with
  | create ssdSegoff nvmSegoff rwFlag => exact h
  | unset ssdSegno =>
      rw [MptOp.apply, unsetMapping]
      split
      · exact Nat.mod_lt _ (by decide)
      · exact h
  | double ssdSegno =>
      rw [MptOp.apply, setDouble]
      split
      · exact h
      · exact h

/-- Steps of the other threads change `nvm_sb_info` only. -/
lemma NsbInv.withNsbi (hx : NsbInv g fixed x) {nsbi : NvmSbInfo}
    (hfree : nsbi.mainSegmentFreeNums < 2 ^ 32) : NsbInv g fixed (x.withNsbi nsbi) :=
  ⟨hfree, hx.clean, hx.recorded, hx.copy, hx.fresh, hx.written, hx.pages, hx.safe⟩

lemma nsbMove_of_step {a : NsbStep} {x' : NsbVolume} (h : nsbStep g fixed x a = some x') :
    NsbMove g fixed x a x' := by
  cases a with
  | alloc start =>
      simp only [nsbStep] at h
      split at h
      · rename_i nsbi n hal
        obtain rfl := Option.some.inj h
        exact .alloc start n nsbi hal
      · exact absurd h (by simp)
  | op a =>
      obtain ⟨hr, h⟩ := Option.ite_none_right_eq_some.mp h
      obtain rfl := Option.some.inj h
      exact .op a hr
  | release n =>
      obtain ⟨hn, h⟩ := Option.ite_none_right_eq_some.mp h
      obtain rfl := Option.some.inj h
      exact .release n hn
  | flushMpt =>
      obtain ⟨hphase, h⟩ := Option.ite_none_right_eq_some.mp h
      obtain rfl := Option.some.inj h
      exact .flushMpt hphase
  | flushNsb =>
      obtain ⟨hphase, h⟩ := Option.ite_none_right_eq_some.mp h
      obtain rfl := Option.some.inj h
      cases hd : x.nsbDirty with
      | true => exact .flushNsb hphase hd
      | false => exact .skipNsb hphase hd
  | writeback c =>
      obtain ⟨hd, h⟩ := Option.ite_none_right_eq_some.mp h
      obtain rfl := Option.some.inj h
      exact .writeback c hd
  | switch byteNvm =>
      obtain ⟨⟨hphase, hf, ht⟩, h⟩ := Option.ite_none_right_eq_some.mp h
      obtain rfl := Option.some.inj h
      exact .switch byteNvm hphase (Bool.forall_bool.mpr ⟨hf, ht⟩)
  | commit =>
      obtain ⟨hphase, h⟩ := Option.ite_none_right_eq_some.mp h
      obtain rfl := Option.some.inj h
      exact .commit hphase
  | flushError =>
      obtain ⟨hphase, h⟩ := Option.ite_none_right_eq_some.mp h
      obtain rfl := Option.some.inj h
      exact .flushError hphase
  | stop =>
      obtain rfl := Option.some.inj h
      exact .stop

lemma flushMptPages_free (y : MptStore) (flushAll : Bool) :
    (flushMptPages g y flushAll).nsbi.mainSegmentFreeNums = y.nsbi.mainSegmentFreeNums := by
  rw [flushMptPages_nsbi]

lemma switchNsb_free (nsbi : NvmSbInfo) :
    (switchNsb nsbi).mainSegmentFreeNums = nsbi.mainSegmentFreeNums := by
  unfold switchNsb
  split <;> rfl

/-- A flush of the super block, while the flag in `sbi->ckpt` is the committed one. -/
lemma nsbInv_flushNsb (hx : NsbInv g fixed x)
    (hcond : ∀ c ∈ x.committed, x.ckptFlag = c.1) :
    NsbInv g fixed { x.flushNsb g fixed with phase := .nsbFlushed } where
  free := hx.free
  clean := by
    intro c hc k hk
    have hne : c ≠ x.nextCopy := by
      rintro rfl
      simp [NsbVolume.flushNsb] at hc
    have hclean : x.pageDirty c = false := by
      simpa [NsbVolume.flushNsb, hne] using hc
    simpa [NsbVolume.flushNsb, hne] using hx.clean c hclean k hk
  recorded := by
    simpa [NsbVolume.flushNsb] using
      decodesTo_nvmFlushNsbPages (g := g) fixed (x.cache x.nextCopy) x.store hx.free
  copy := by
    intro _
    simp [NsbVolume.flushNsb, NsbVolume.expectedCopy, NsbVolume.nextCopy]
  fresh := fun h => absurd h (by simp)
  written := by
    intro hcom c hc
    by_cases hne : c = x.nextCopy
    · simp [NsbVolume.flushNsb, hne]
    · have hd : x.pageDirty c = true := by
        simpa [NsbVolume.flushNsb, hne] using hc
      exact List.mem_cons_of_mem _ (hx.written hcom c hd)
  pages := fun h => absurd h (by simp)
  safe := by
    intro f r hr
    obtain ⟨hdec, hmiss⟩ := hx.safe f r hr
    refine ⟨hdec, ?_⟩
    have hf := hcond (f, r) hr
    simp [NsbVolume.flushNsb, NsbVolume.nextCopy, hf, hmiss]

/-- **Every step that meets the condition keeps the invariant.** -/
lemma nsbInv_step (hfit : NsbFits g) (x : NsbVolume) (a : NsbStep) (x' : NsbVolume)
    (hx : NsbInv g fixed x) (hcond : NsbCondition x a) (h : nsbStep g fixed x a = some x') :
    NsbInv g fixed x' := by
  cases nsbMove_of_step h with
  | alloc start n nsbi hal =>
      obtain ⟨-, -, -, rfl⟩ := nvmAllocateSegmentLocked_ok g hal
      exact hx.withNsbi (lt_of_le_of_lt (Nat.sub_le _ 1) hx.free)
  | op a _ => exact hx.withNsbi (free_lt_apply a hx.free)
  | release n _ => exact hx.withNsbi (Nat.mod_lt _ (by decide))
  | flushMpt hphase =>
      have hcopy := hx.copy (by simp [hphase])
      refine ⟨?_, hx.clean, hx.recorded, fun _ => ?_, fun _ => rfl, hx.written,
        fun h => absurd h (by simp), hx.safe⟩
      · rw [flushMptPages_free]
        exact hx.free
      · simpa [NsbVolume.expectedCopy, hphase] using hcopy
  | flushNsb hphase hdirty => exact nsbInv_flushNsb hx (hcond hdirty)
  | skipNsb hphase hdirty =>
      have hcopy := hx.copy (by simp [hphase])
      refine ⟨hx.free, hx.clean, hx.recorded, fun _ => ?_, fun h => absurd h (by simp), hx.written,
        fun h => absurd h (by simp), hx.safe⟩
      simpa [NsbVolume.expectedCopy, hphase, hx.fresh hphase] using hcopy
  | writeback c hdirty =>
      refine ⟨hx.free, fun d hd k hk => ?_, hx.recorded, hx.copy, hx.fresh, fun hcom d hd => ?_,
        fun hphase d => ?_, fun f r hr => ?_⟩
      · by_cases hdc : d = c
        · subst hdc
          simp [hk]
        · have hclean : x.pageDirty d = false := by simpa [hdc] using hd
          simpa [hdc] using hx.clean d hclean k hk
      · have hne : d ≠ c := by
          rintro rfl
          simp at hd
        have hd' : x.pageDirty d = true := by simpa [hne] using hd
        exact hx.written hcom d hd'
      · rw [hx.pages hphase c] at hdirty
        exact absurd hdirty (by simp)
      · -- `c` was written since the commit, so it is not the committed copy
        have hcom : x.committed = some (f, r) := hr
        obtain ⟨hdec, hmiss⟩ := hx.safe f r hcom
        have hne : f ≠ c := by
          rintro rfl
          exact hmiss (hx.written (by simp [hcom]) f hdirty)
        refine ⟨?_, hmiss⟩
        simpa [hne] using hdec
  | switch byteNvm hphase hclean =>
      obtain ⟨hsame, hbyte⟩ := hcond
      have hcopy := hx.copy (by simp [hphase])
      refine ⟨?_, hx.clean, hx.recorded, fun _ => ?_, fun h => absurd h (by simp), hx.written,
        fun _ => hclean, hx.safe⟩
      · rw [MptStore.withNsbi, switchNsb_free]
        exact hx.free
      · have hflag : x.switchedFlag byteNvm = x.expectedCopy := by
          cases hd : x.nsbDirty with
          | false => simp [NsbVolume.switchedFlag, NsbVolume.expectedCopy, hd, ← hsame]
          | true =>
              cases byteNvm with
              | false =>
                  simp [NsbVolume.switchedFlag, NsbVolume.expectedCopy, hd, ← hsame, hphase]
              | true =>
                  simp [NsbVolume.switchedFlag, NsbVolume.expectedCopy, hd, ← hsame, hphase,
                    hbyte rfl hd]
        rw [hcopy.trans hflag.symm]
        simp [NsbVolume.expectedCopy]
  | commit hphase =>
      have hcopy := hx.copy (by simp [hphase])
      have hclean := hx.pages hphase
      have hexp : x.expectedCopy = x.ckptFlag := by simp [NsbVolume.expectedCopy, hphase]
      refine ⟨hx.free, hx.clean, hx.recorded, fun _ => ?_, fun h => absurd h (by simp),
        fun _ c hc => ?_, fun h => absurd h (by simp), fun f r hr => ?_⟩
      · simpa [NsbVolume.expectedCopy] using hcopy.trans hexp
      · rw [hclean c] at hc
        exact absurd hc (by simp)
      · obtain ⟨rfl, rfl⟩ := Prod.mk.inj (Option.some.inj hr)
        refine ⟨?_, List.not_mem_nil⟩
        have hrec := hx.recorded
        rw [hcopy, hexp] at hrec
        exact hrec.congr hfit fun k hk => (hx.clean _ (hclean _) k hk).symm
  | flushError hphase =>
      have hcopy := hx.copy (by simp [hphase])
      refine ⟨hx.free, hx.clean, hx.recorded, fun _ => ?_, fun h => absurd h (by simp), hx.written,
        fun h => absurd h (by simp), hx.safe⟩
      simpa [NsbVolume.expectedCopy, hphase] using hcopy
  | stop =>
      exact ⟨hx.free, hx.clean, hx.recorded, fun h => absurd rfl h, fun h => absurd h (by simp),
        hx.written, fun h => absurd h (by simp), hx.safe⟩

lemma NsbVolume.Mounted.nsbInv (h : x.Mounted g fixed) : NsbInv g fixed x := by
  cases h with
  | first x hmpt hclean hmap hfree page =>
      have hlt : (flushMptPages g x true).nsbi.mainSegmentFreeNums < 2 ^ 32 := by
        rw [flushMptPages_free, hfree]
        exact g.nvm_lt.trans (by decide)
      refine ⟨hlt, fun c hc k hk => ?_, ?_, fun _ => ?_, fun h => absurd h (by simp),
        fun h => absurd rfl h, fun h => absurd h (by simp), fun f r hr => absurd hr (by simp)⟩
      · have hct : c = true := by simpa using hc
        simp [hct]
      · simpa using decodesTo_nvmFlushNsbPages (g := g) fixed (page false) _ hlt
      · simp [NsbVolume.expectedCopy]
  | again x hmpt hclean hflag hfree ckptFlag page hread =>
      refine ⟨hfree, fun _ _ _ _ => rfl, hread, fun _ => ?_, fun h => absurd h (by simp),
        fun _ c hc => absurd hc (by simp), fun h => absurd h (by simp), fun f r hr => ?_⟩
      · simp [NsbVolume.expectedCopy]
      · obtain ⟨rfl, rfl⟩ := Prod.mk.inj (Option.some.inj hr)
        exact ⟨hread, List.not_mem_nil⟩

/-- **The commit protocol of the NVM super block is safe** throughout every run whose steps meet
`NsbCondition`, for devices whose maps fit into the block. -/
theorem nsb_commit_safe (hfit : NsbFits g) {x₀ : NsbVolume} (hmount : x₀.Mounted g fixed)
    {as : List NsbStep} (h : StepsMeet (nsbStep g fixed) NsbCondition x₀ as) :
    Throughout (nsbStep g fixed) (NsbCommitSafe g fixed) x₀ as :=
  (throughout_of_stepsMeet (nsbInv_step hfit) hmount.nsbInv h).mono fun _ hx => hx.safe

/-! ## Changes that a checkpoint would miss -/

/-- The maps are what the last `nvm_flush_nsb_pages` recorded. -/
def MapsRecorded (g : Geometry) (x : NsbVolume) (nsbi : NvmSbInfo) : Prop :=
  (∀ n < g.mainSegmentNums, nsbi.segmentMap n = x.lastFlush.segmentMap n) ∧
    nsbi.mainSegmentFreeNums = x.lastFlush.mainSegmentFreeNums

/-- Some page of the table is marked dirty. -/
def MptDirty (g : Geometry) (x : NsbVolume) : Prop :=
  ∃ p < mptDirtyMapBits g, x.store.nsbi.mptDirtyMap p = true

/-- **No change is missed**: when the maps, the counter or an entry of the table differ from what
was recorded last, the super block or a page of the table is marked dirty. -/
def NoChangeMissed (g : Geometry) (x : NsbVolume) : Prop :=
  (∃ n < g.mainSegmentNums, x.store.nsbi.segmentMap n ≠ x.lastFlush.segmentMap n) ∨
    x.store.nsbi.mainSegmentFreeNums ≠ x.lastFlush.mainSegmentFreeNums ∨
    (∃ i < g.mptEntries, x.store.nsbi.mpt i ≠ x.recordedMpt i) →
  x.nsbDirty = true ∨ MptDirty g x

/-- The maps are one allocation ahead of what the last `nvm_flush_nsb_pages` recorded: segment
`nvmSegoff` was free then, and nothing else has changed. -/
def OneAhead (g : Geometry) (x : NsbVolume) (nvmSegoff : ℕ) : Prop :=
  x.lastFlush.segmentMap nvmSegoff = false ∧
    (∀ n < g.mainSegmentNums, n ≠ nvmSegoff →
      x.store.nsbi.segmentMap n = x.lastFlush.segmentMap n) ∧
    incrFreeNums x.store.nsbi.mainSegmentFreeNums = x.lastFlush.mainSegmentFreeNums

/-- The condition on a step.  A release of `hot_to_nvm` finds something marked dirty already, or
takes back the only change; a switch that clears `NVM_NSB_DIRTY` finds the maps as recorded, or a
page of the table dirty. -/
def ChangeCondition (g : Geometry) (x : NsbVolume) : NsbStep → Prop
  | .release nvmSegoff => (x.nsbDirty = true ∨ MptDirty g x) ∨ OneAhead g x nvmSegoff
  | .switch _ => x.nsbDirty = true → MapsRecorded g x x.store.nsbi ∨ MptDirty g x
  | _ => True

/-- The table differs from the recorded one in dirty pages only. -/
def MptRecorded (g : Geometry) (x : NsbVolume) : Prop :=
  ∀ i < g.mptEntries, x.store.nsbi.mpt i ≠ x.recordedMpt i →
    x.store.nsbi.mptDirtyMap (i / entriesPerBlk) = true

/-- A release leads to the recorded maps iff they were ahead by the released segment. -/
lemma mapsRecorded_release_iff {n : ℕ} (hn : n < g.mainSegmentNums) :
    MapsRecorded g x (releaseSegment x.store.nsbi n) ↔ OneAhead g x n := by
  constructor
  · rintro ⟨hmap, hfree⟩
    refine ⟨?_, fun k hk hne => ?_, hfree⟩
    · rw [← hmap n hn]
      exact Function.update_self _ _ _
    · rw [← hmap k hk]
      exact (Function.update_of_ne hne _ _).symm
  · rintro ⟨hrec, hmap, hfree⟩
    refine ⟨fun k hk => ?_, hfree⟩
    show Function.update x.store.nsbi.segmentMap n false k = x.lastFlush.segmentMap k
    rw [Function.update_apply]
    split
    · rename_i heq
      rw [heq, hrec]
    · rename_i hne
      exact hmap k hk hne

/-- With the table under control, only the maps can be missed. -/
lemma noChangeMissed_iff (hm : MptRecorded g x) :
    NoChangeMissed g x ↔ MapsRecorded g x x.store.nsbi ∨ x.nsbDirty = true ∨ MptDirty g x := by
  constructor
  · intro h
    by_cases hrec : MapsRecorded g x x.store.nsbi
    · exact Or.inl hrec
    · refine Or.inr (h ?_)
      by_cases hfree : x.store.nsbi.mainSegmentFreeNums = x.lastFlush.mainSegmentFreeNums
      · refine Or.inl ?_
        by_contra hall
        refine hrec ⟨fun n hn => ?_, hfree⟩
        by_contra hne
        exact hall ⟨n, hn, hne⟩
      · exact Or.inr (Or.inl hfree)
  · rintro (⟨hmap, hfree⟩ | hmarked)
    · rintro (⟨n, hn, hne⟩ | hne | ⟨i, hi, hne⟩)
      · exact absurd (hmap n hn) hne
      · exact absurd hfree hne
      · exact Or.inr ⟨_, div_lt_mptDirtyMapBits hi, hm i hi hne⟩
    · exact fun _ => hmarked

/-- What other threads do marks the changes of the table. -/
lemma MptRecorded.withNsbi (hm : MptRecorded g x) {nsbi : NvmSbInfo}
    (hmark : MarksChanges x.store.nsbi nsbi) : MptRecorded g (x.withNsbi nsbi) := by
  intro i hi hne
  by_cases hsame : nsbi.mpt i = x.store.nsbi.mpt i
  · refine hmark.keeps _ (hm i hi ?_)
    rw [← hsame]
    exact hne
  · exact hmark.marks i hsame

lemma mptRecorded_flushMpt (hm : MptRecorded g x) {i : ℕ} (hi : i < g.mptEntries)
    (hne : (flushMptPages g x.store false).nsbi.mpt i
      ≠ recordMpt x.recordedMpt x.store.nsbi.mpt (mptPagesToFlush g x.store false) i) :
    (flushMptPages g x.store false).nsbi.mptDirtyMap (i / entriesPerBlk) = true := by
  rw [flushMptPages_mpt, recordMpt] at hne
  by_cases hmem : i / entriesPerBlk ∈ mptPagesToFlush g x.store false
  · rw [if_pos hmem] at hne
    exact absurd rfl hne
  · rw [if_neg hmem] at hne
    have hd := hm i hi hne
    exact absurd (mem_mptPagesToFlush.mpr ⟨div_lt_mptDirtyMapBits hi, Or.inr hd⟩) hmem

lemma switchNsb_mpt (nsbi : NvmSbInfo) :
    (switchNsb nsbi).mpt = nsbi.mpt ∧ (switchNsb nsbi).mptDirtyMap = nsbi.mptDirtyMap ∧
      (switchNsb nsbi).segmentMap = nsbi.segmentMap := by
  unfold switchNsb
  split
  · exact ⟨rfl, rfl, rfl⟩
  · exact ⟨rfl, rfl, rfl⟩

/-- Every step keeps `MptRecorded`. -/
lemma mptRecorded_step (x : NsbVolume) (a : NsbStep) (x' : NsbVolume) (hm : MptRecorded g x)
    (h : nsbStep g fixed x a = some x') : MptRecorded g x' := by
  cases nsbMove_of_step h with
  | alloc start n nsbi hal =>
      obtain ⟨-, -, -, rfl⟩ := nvmAllocateSegmentLocked_ok g hal
      exact hm
  | op a _ => exact hm.withNsbi (a.marksChanges x.store.nsbi)
  | release n _ => exact hm
  | flushMpt _ => exact fun i hi hne => mptRecorded_flushMpt hm hi hne
  | flushNsb _ _ => exact hm
  | skipNsb _ _ => exact hm
  | writeback _ _ => exact hm
  | switch byteNvm _ _ =>
      obtain ⟨hmpt, hdirty, -⟩ := switchNsb_mpt x.store.nsbi
      intro i hi hne
      simp only [MptStore.withNsbi, hmpt, hdirty] at hne ⊢
      exact hm i hi hne
  | commit _ => exact hm
  | flushError _ => exact hm
  | stop => exact hm

/-! ### Which steps set and clear `NVM_NSB_DIRTY` -/

lemma nsbDirty_xor {f : BitVec 16} (h : (f &&& nvmNsbDirty != 0#16) = true) :
    ((f ^^^ nvmNsbDirty) &&& nvmNsbDirty != 0#16) = false := by
  have hone : nvmNsbDirty = BitVec.twoPow 16 0 := by decide
  rw [hone, and_twoPow_ne_zero _ (by decide)] at h ⊢
  simpa using h

/-- An operation on a segment of the device changes nothing, or marks a page of the table. -/
lemma op_marks {a : MptOp} (ha : a.InRange g) (nsbi : NvmSbInfo) :
    a.apply g nsbi = nsbi ∨
      ∃ p < mptDirtyMapBits g, (a.apply g nsbi).mptDirtyMap p = true := by
  have hpage : ∀ {s}, s < g.segmentCountMain →
      g.ssdIndex s / entriesPerBlk < mptDirtyMapBits g := by
    intro s hs
    refine div_lt_mptDirtyMapBits ?_
    unfold Geometry.ssdIndex Geometry.mptEntries
    omega
  cases a with
  | create s n f =>
      refine Or.inr ⟨_, hpage ha.1, ?_⟩
      simp [MptOp.apply, createMapping, markMptDirty]
  | unset s =>
      rw [MptOp.apply, unsetMapping]
      split
      · refine Or.inr ⟨_, hpage ha, ?_⟩
        simp [releaseSegment, markMptDirty, Function.update_apply]
      · exact Or.inl rfl
  | double s =>
      rw [MptOp.apply, setDouble]
      split
      · refine Or.inr ⟨_, hpage ha, ?_⟩
        simp [markMptDirty, Function.update_apply]
      · exact Or.inl rfl

lemma switchNsb_of_clean {nsbi : NvmSbInfo} (h : (nsbi.nvmFlag &&& nvmNsbDirty != 0#16) = false) :
    switchNsb nsbi = nsbi := if_neg (by simpa using h)

lemma switchNsb_of_dirty {nsbi : NvmSbInfo} (h : (nsbi.nvmFlag &&& nvmNsbDirty != 0#16) = true) :
    switchNsb nsbi = { nsbi with nvmFlag := nsbi.nvmFlag ^^^ nvmNsbDirty } :=
  if_pos (by simpa using h)

/-- A flush of the table passes the mark on to the super block. -/
lemma marked_flushMpt (h : MptDirty g x) :
    ((flushMptPages g x.store false).nsbi.nvmFlag &&& nvmNsbDirty != 0#16) = true := by
  obtain ⟨p, hp, hd⟩ := h
  have hne : mptPagesToFlush g x.store false ≠ [] :=
    List.ne_nil_of_mem (mem_mptPagesToFlush.mpr ⟨hp, Or.inr hd⟩)
  rw [flushMptPages_nsbi]
  simp only [hne, if_false]
  exact nsbDirty_or _

lemma flushMpt_of_clean (h : ¬ MptDirty g x) :
    (flushMptPages g x.store false).nsbi = x.store.nsbi := by
  have hnil : mptPagesToFlush g x.store false = [] := by
    refine List.eq_nil_iff_forall_not_mem.mpr fun p hp => h ?_
    obtain ⟨hlt, hd⟩ := mem_mptPagesToFlush.mp hp
    exact ⟨p, hlt, by simpa using hd⟩
  rw [flushMptPages_nsbi]
  simp [hnil]

/-- **A step keeps the property iff it meets the condition.** -/
lemma noChangeMissed_step_iff (x : NsbVolume) (a : NsbStep) (x' : NsbVolume)
    (hm : MptRecorded g x) (hq : NoChangeMissed g x) (h : nsbStep g fixed x a = some x') :
    NoChangeMissed g x' ↔ ChangeCondition g x a := by
  rw [noChangeMissed_iff (mptRecorded_step x a x' hm h)]
  have hq' := (noChangeMissed_iff hm).mp hq
  cases nsbMove_of_step h with
  | alloc start n nsbi hal =>
      obtain ⟨-, -, -, rfl⟩ := nvmAllocateSegmentLocked_ok g hal
      exact iff_of_true (Or.inr (Or.inl (nsbDirty_or _))) trivial
  | op a ha =>
      rcases op_marks ha x.store.nsbi with heq | hmark
      · rw [heq]
        exact iff_of_true hq' trivial
      · exact iff_of_true (Or.inr (Or.inr hmark)) trivial
  | release n hn => exact (or_congr_left (mapsRecorded_release_iff hn)).trans or_comm
  | flushMpt _ =>
      refine iff_of_true ?_ trivial
      by_cases hd : MptDirty g x
      · exact Or.inr (Or.inl (marked_flushMpt hd))
      · have hnsbi := flushMpt_of_clean hd
        simp only [NsbVolume.nsbDirty, MptDirty, MapsRecorded, hnsbi]
        exact hq'
  | flushNsb _ _ => exact iff_of_true (Or.inl ⟨fun _ _ => rfl, rfl⟩) trivial
  | skipNsb _ _ => exact iff_of_true hq' trivial
  | writeback _ _ => exact iff_of_true hq' trivial
  | switch byteNvm _ _ =>
      cases hd : x.nsbDirty with
      | false =>
          have hcond : ChangeCondition g x (.switch byteNvm) := by
            intro htrue
            rw [hd] at htrue
            exact absurd htrue (by simp)
          rw [switchNsb_of_clean hd]
          exact iff_of_true hq' hcond
      | true =>
          have hcond : ChangeCondition g x (.switch byteNvm) ↔
              (MapsRecorded g x x.store.nsbi ∨ MptDirty g x) :=
            ⟨fun hc => hc hd, fun hc _ => hc⟩
          have hclear : ((x.store.nsbi.nvmFlag ^^^ nvmNsbDirty) &&& nvmNsbDirty != 0#16) = false :=
            nsbDirty_xor hd
          rw [hcond, switchNsb_of_dirty hd]
          simp only [NsbVolume.nsbDirty, MptStore.withNsbi, hclear, Bool.false_eq_true, false_or]
          exact Iff.rfl
  | commit _ => exact iff_of_true hq' trivial
  | flushError _ => exact iff_of_true hq' trivial
  | stop => exact iff_of_true hq' trivial

lemma NsbVolume.Mounted.mptRecorded (h : x.Mounted g fixed) : MptRecorded g x := by
  cases h with
  | first x hmpt hclean hmap hfree page =>
      intro i _ hne
      rw [flushMptPages_mpt, hmpt] at hne
      exact absurd rfl hne
  | again x hmpt hclean hflag hfree ckptFlag page hread => exact fun i _ hne => absurd rfl hne

lemma NsbVolume.Mounted.noChangeMissed (h : x.Mounted g fixed) : NoChangeMissed g x := by
  rw [noChangeMissed_iff h.mptRecorded]
  cases h with
  | first x hmpt hclean hmap hfree page => exact Or.inl ⟨fun _ _ => rfl, rfl⟩
  | again x hmpt hclean hflag hfree ckptFlag page hread => exact Or.inl ⟨fun _ _ => rfl, rfl⟩

/-- **No change is missed throughout a run iff** every step of the run meets
`ChangeCondition`. -/
theorem no_change_missed_iff {x₀ x : NsbVolume} (hmount : x₀.Mounted g fixed) {as : List NsbStep}
    (h : exec (nsbStep g fixed) x₀ as = some x) :
    Throughout (nsbStep g fixed) (NoChangeMissed g) x₀ as ↔
      StepsMeet (nsbStep g fixed) (ChangeCondition g) x₀ as :=
  throughout_iff_stepsMeet mptRecorded_step noChangeMissed_step_iff hmount.mptRecorded
    hmount.noChangeMissed h

/-! ### The two-segment NVM -/

/-- The first mount, with a uuid of zeros. -/
def twoNsbVolume : NsbVolume where
  store := flushMptPages twoGeometry twoMptStore true
  ckptFlag := false
  targetIsCkpt := false
  cache := Function.update (fun _ _ => 0#8) false
    (nvmFlushNsbPages twoGeometry (fun _ => 0#8) (flushMptPages twoGeometry twoMptStore true)
      fun _ => 0#8)
  disk := fun _ _ => 0#8
  pageDirty := fun copy => !copy
  phase := .idle
  lastFlush := (flushMptPages twoGeometry twoMptStore true).nsbRecord
  lastCopy := false
  flushedNow := false
  recordedMpt := fun _ => 0#32
  nsbWrites := [false]
  committed := none

lemma twoNsbVolume_mounted : twoNsbVolume.Mounted twoGeometry fun _ => 0#8 :=
  .first twoMptStore rfl (fun _ => rfl) (fun _ => rfl) rfl fun _ _ => 0#8

/-- `hot_to_nvm` allocates NVM segment 0, and a checkpoint records the allocation in block 1. -/
def firstCheckpoint : List NsbStep :=
  [.alloc 0, .flushMpt, .flushNsb, .writeback false, .writeback true, .switch false, .commit]

theorem nsb_commit_safe_firstCheckpoint :
    StepsMeet (nsbStep twoGeometry fun _ => 0#8) NsbCondition twoNsbVolume firstCheckpoint ∧
      Throughout (nsbStep twoGeometry fun _ => 0#8) (NsbCommitSafe twoGeometry fun _ => 0#8)
        twoNsbVolume firstCheckpoint := by
  have hmeet : StepsMeet (nsbStep twoGeometry fun _ => 0#8) NsbCondition twoNsbVolume
      firstCheckpoint := by decide +kernel
  exact ⟨hmeet, nsb_commit_safe (by decide) twoNsbVolume_mounted hmeet⟩

lemma DecodesTo.free {page : Area} {r : NsbRecord} (h : DecodesTo g fixed page r) :
    getLe page freeNumsOff 4 = r.mainSegmentFreeNums := by
  obtain ⟨d, hd, -, hfree, -⟩ := h
  obtain ⟨-, hd⟩ := Option.ite_none_right_eq_some.mp hd
  obtain rfl := Option.some.inj hd
  exact hfree

/-- The same allocation, and a checkpoint by `bnvm_do_checkpoint`, whose toggle is lost. -/
def byteNvmCheckpoint : List NsbStep :=
  [.alloc 0, .flushMpt, .flushNsb, .writeback false, .writeback true, .switch true, .commit]

/-- **The first checkpoint to the byte-addressable NVM commits the old super block**: it wrote
block 1, and the flag it commits still selects block 0. -/
theorem nsb_commit_broken :
    ¬ ∀ (g : Geometry) (fixed : Area) (x₀ : NsbVolume) (as : List NsbStep) (x : NsbVolume),
      NsbFits g → x₀.Mounted g fixed → exec (nsbStep g fixed) x₀ as = some x →
        NsbCommitSafe g fixed x := by
  intro hall
  have hreads : (exec (nsbStep twoGeometry fun _ => 0#8) twoNsbVolume byteNvmCheckpoint).map
      (fun x => (x.committed.map fun c =>
        (getLe (x.disk c.1) freeNumsOff 4, c.2.mainSegmentFreeNums))) = some (some (2, 1)) := by
    decide +kernel
  obtain ⟨x, hx, hreads⟩ := Option.map_eq_some_iff.mp hreads
  obtain ⟨⟨f, r⟩, hr, hreads⟩ := Option.map_eq_some_iff.mp hreads
  obtain ⟨hdisk, hfree⟩ := Prod.mk.inj hreads
  have hsafe := hall twoGeometry (fun _ => 0#8) twoNsbVolume byteNvmCheckpoint x (by decide)
    twoNsbVolume_mounted hx
  have hdec := (hsafe f r hr).1.free
  rw [hdisk, hfree] at hdec
  exact absurd hdec (by decide)

theorem no_change_missed_iff_firstCheckpoint :
    (exec (nsbStep twoGeometry fun _ => 0#8) twoNsbVolume firstCheckpoint).isSome = true ∧
      (Throughout (nsbStep twoGeometry fun _ => 0#8) (NoChangeMissed twoGeometry) twoNsbVolume
          firstCheckpoint ↔
        StepsMeet (nsbStep twoGeometry fun _ => 0#8) (ChangeCondition twoGeometry) twoNsbVolume
          firstCheckpoint) := by
  have hrun : (exec (nsbStep twoGeometry fun _ => 0#8) twoNsbVolume
      firstCheckpoint).isSome = true := by decide +kernel
  obtain ⟨x, hx⟩ := Option.isSome_iff_exists.mp hrun
  exact ⟨hrun, no_change_missed_iff twoNsbVolume_mounted hx⟩

/-- **A release of `hot_to_nvm` after the checkpoint that recorded the allocation is missed**: the
counter has changed, and nothing is marked. -/
theorem no_change_missed_broken :
    ¬ ∀ (g : Geometry) (fixed : Area) (x₀ : NsbVolume) (as : List NsbStep) (x : NsbVolume),
      x₀.Mounted g fixed → exec (nsbStep g fixed) x₀ as = some x → NoChangeMissed g x := by
  intro hall
  have hreads : (exec (nsbStep twoGeometry fun _ => 0#8) twoNsbVolume
      (firstCheckpoint ++ [.release 0])).map (fun x => (x.store.nsbi.mainSegmentFreeNums,
        x.lastFlush.mainSegmentFreeNums, x.nsbDirty, x.store.nsbi.mptDirtyMap 0))
          = some (2, 1, false, false) := by decide +kernel
  obtain ⟨x, hx, hreads⟩ := Option.map_eq_some_iff.mp hreads
  simp only [Prod.mk.injEq] at hreads
  obtain ⟨hnow, hrec, hdirty, hpage⟩ := hreads
  have hmarked := hall twoGeometry (fun _ => 0#8) twoNsbVolume (firstCheckpoint ++ [.release 0]) x
    twoNsbVolume_mounted hx (Or.inr (Or.inl (by rw [hnow, hrec]; decide)))
  rcases hmarked with hmarked | ⟨p, hp, hmarked⟩
  · rw [hdirty] at hmarked
    exact absurd hmarked (by simp)
  · have hbits : mptDirtyMapBits twoGeometry = 1 := by decide
    obtain rfl : p = 0 := by omega
    rw [hpage] at hmarked
    exact absurd hmarked (by simp)

end Hoit
