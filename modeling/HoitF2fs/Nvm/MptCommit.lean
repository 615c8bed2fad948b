import HoitF2fs.Nvm.NsbCommit

/-!
# The mapping table across checkpoints

`nvm_flush_mpt_pages` flips the version bit of a page *in memory, on every flush*; the bit becomes
durable with the super block of the NVM, and that one with the commit of a checkpoint whose
`CP_NSB_VER_FLAG` selects it.  The rule behind the two copies is the one of shadow paging: until
the next commit, nothing may be written to the copies that the last committed version map selects.

**The system.**  `MptVolume` puts the blocks of the table beside the protocol of the super block
(`HoitF2fs.Nvm.NsbCommit`), whose steps it takes:
* `nsb .flushMpt` copies the dirty pages of the table into the cache;
* `nsb (.switch byteNvm)` is possible once no dirty page of the table is left either, as the loop
  over `F2FS_DIRTY_META` ensures;
* `nsb .commit` commits whatever the flag in the header selects: a mount reads the version map
  from *that* block of the super block, whether or not it is the one that was written last;
* `writeback` — one dirty page of the table reaches the disk, in any order and at any time, so
  that every state of a run is a state in which a crash can hit.

`pending` and `committed` are ghosts: the table that the running checkpoint has flushed, and what
the last committed one stands for.

`shadow_safe_throughout`: the rule holds in every run in which no page of the table is flushed
twice between two commits and the super block is committed as `NsbCondition` asks for.
`flushError` is what makes a second flush possible.
-/

namespace Hoit

open Bitmap Transition ByteStore

variable (g : Geometry) (fixed : Area)

/-- What a committed checkpoint stands for: its `CP_NSB_VER_FLAG`, the version map in the block of
the super block that the flag selects, and the table as the checkpoint has flushed it. -/
structure MptCommitted where
  ckptFlag : Bool
  mptVerMap : ℕ → BitVec 8
  mpt : Mpt

structure MptVolume where
  nsb : NsbVolume
  disk : ℕ → MptPage
  dirtyPages : List ℕ
  pending : Mpt
  committed : Option MptCommitted

inductive MptVolumeStep where
  | nsb (a : NsbStep)
  | writeback (blockAddr : ℕ)
deriving DecidableEq

/-- The ghost list of written copies starts again. -/
def NsbVolume.forgetWrites (x : NsbVolume) : NsbVolume :=
  { x with store := { x.store with writes := [] } }

def mptVolumeStep (x : MptVolume) : MptVolumeStep → Option MptVolume
  | .nsb .flushMpt =>
      (nsbStep g fixed x.nsb .flushMpt).map fun nsb =>
        { x with
          nsb
          dirtyPages := nsb.store.writes.drop x.nsb.store.writes.length ++ x.dirtyPages
          pending := x.nsb.store.nsbi.mpt }
  | .nsb (.switch byteNvm) =>
      if x.dirtyPages = [] then
        (nsbStep g fixed x.nsb (.switch byteNvm)).map fun nsb => { x with nsb }
      else none
  | .nsb .commit =>
      (nsbStep g fixed x.nsb .commit).map fun nsb =>
        { x with
          nsb := nsb.forgetWrites
          committed := some
            ⟨nsb.ckptFlag, (nsbReadOf g (nsb.disk nsb.ckptFlag)).mptVerMap, x.pending⟩ }
  | .nsb a => (nsbStep g fixed x.nsb a).map fun nsb => { x with nsb }
  | .writeback blockAddr =>
      if blockAddr ∈ x.dirtyPages then
        some { x with
          disk := Function.update x.disk blockAddr (x.nsb.store.page blockAddr)
          dirtyPages := x.dirtyPages.filter (· ≠ blockAddr) }
      else none

/-- A mounted table over a disk.  After a first mount nothing is committed, and the pages of its
flush are still dirty; later mounts read what a checkpoint has committed. -/
inductive MptVolume.Mounted : MptVolume → Prop
  | first (x : MptStore) (nsb : NsbVolume) (h : nsb.Mounted g fixed) (hcom : nsb.committed = none)
      (hstore : nsb.store = flushMptPages g x true) (pending : Mpt) :
      Mounted
        { nsb
          disk := x.page
          dirtyPages := nsb.store.writes.drop x.writes.length
          pending
          committed := none }
  | again (nsb : NsbVolume) (h : nsb.Mounted g fixed) (f : Bool) (r : NsbRecord)
      (hcom : nsb.committed = some (f, r)) (hwrites : nsb.store.writes = []) (pending : Mpt) :
      Mounted
        { nsb
          disk := nsb.store.page
          dirtyPages := []
          pending
          committed := some ⟨f, r.mptVerMap, nsb.store.nsbi.mpt⟩ }

/-! ## The rule -/

/-- The copy of page `p` that the committed version map selects. -/
def MptVolume.copyOf (x : MptVolume) (c : MptCommitted) (p : ℕ) : ℕ :=
  mptCopyAddr x.nsb.store.mptBlkaddr (testBitMsb p c.mptVerMap) p

/-- The table as a mount finds it on the disk, with the version map that it has read. -/
def MptVolume.onDisk (x : MptVolume) (mptVerMap : ℕ → BitVec 8) : MptArea where
  mptVerMap
  mptBlkaddr := x.nsb.store.mptBlkaddr
  page := x.disk

/-- **The rule of shadow paging**: no write since the last commit has gone to a copy that the
committed version map selects, and a mount, which reads the super block that the committed flag
selects, rebuilds the committed table from the disk. -/
structure ShadowSafe (x : MptVolume) : Prop where
  untouched : ∀ c, x.committed = some c → ∀ p < mptDirtyMapBits g,
    x.copyOf c p ∉ x.nsb.store.writes
  rebuilds : ∀ c, x.committed = some c →
    ∃ d, readNvmSuperBlock g fixed (x.nsb.disk c.ckptFlag) = some d ∧
      ∀ i < g.mptEntries, f2fsGetMpt g (x.onDisk d.mptVerMap) i = c.mpt i

/-- The condition on a step.  Once something is committed, a flush copies no page of which a copy
was written since the last commit; and the super block is flushed and its flag toggled as
`NsbCondition` has it. -/
def ShadowCondition (x : MptVolume) : MptVolumeStep → Prop
  | .nsb .flushMpt => x.committed.isSome = true → ∀ p < mptDirtyMapBits g,
      x.nsb.store.nsbi.mptDirtyMap p = true → ∀ second : Bool,
        mptCopyAddr x.nsb.store.mptBlkaddr second p ∉ x.nsb.store.writes
  | .nsb a => NsbCondition x.nsb a
  | .writeback _ => True

instance (x : MptVolume) : ∀ a, Decidable (ShadowCondition g x a)
  | .nsb .flushMpt => inferInstanceAs (Decidable (_ → ∀ p < mptDirtyMapBits g, _ → _))
  | .nsb .flushNsb => inferInstanceAs (Decidable (NsbCondition x.nsb .flushNsb))
  | .nsb (.switch byteNvm) => inferInstanceAs (Decidable (NsbCondition x.nsb (.switch byteNvm)))
  | .nsb (.alloc _) | .nsb (.op _) | .nsb (.release _) | .nsb (.writeback _) | .nsb .commit
  | .nsb .flushError | .nsb .stop | .writeback _ => isTrue trivial

variable {g fixed}

/-! ## What a flush writes -/

section Flush

variable {x : MptStore}

/-- The blocks that the flush of a checkpoint writes. -/
def flushedCopies (g : Geometry) (x : MptStore) : List ℕ :=
  (mptPagesToFlush g x false).map fun p => mptCopyAddr x.mptBlkaddr (!x.verBit p) p

lemma flush_writes : (flushMptPages g x false).writes = x.writes ++ flushedCopies g x :=
  flushMptPages_writes x false

/-- A copy is written iff its page is dirty and it is not the current one. -/
lemma mptCopyAddr_mem_flushedCopies (hbits : mptDirtyMapBits g ≤ blocksPerSeg) {p : ℕ}
    (hp : p < mptDirtyMapBits g) (second : Bool) :
    mptCopyAddr x.mptBlkaddr second p ∈ flushedCopies g x
      ↔ x.nsbi.mptDirtyMap p = true ∧ x.verBit p ≠ second := by
  simp only [flushedCopies, List.mem_map, mem_mptPagesToFlush, Bool.false_eq_true, false_or]
  constructor
  · rintro ⟨q, ⟨hq, hd⟩, heq⟩
    obtain ⟨rfl, rfl⟩ := mptCopyAddr_separate hbits hq hp heq
    exact ⟨hd, by simp⟩
  · rintro ⟨hd, hne⟩
    exact ⟨p, ⟨hp, hd⟩, by rw [Bool.not_eq.mpr hne]⟩

lemma flush_verBit {p : ℕ} (hp : p < mptDirtyMapBits g) :
    (flushMptPages g x false).verBit p
      = if x.nsbi.mptDirtyMap p = true then !x.verBit p else x.verBit p := by
  have hver := flushMptPages_verBit (g := g) x false p
  simp only [mem_mptPagesToFlush, hp, true_and, Bool.false_eq_true, false_or] at hver
  exact hver

/-- A block that a flush does not write keeps its contents in the cache. -/
lemma flush_page_of_not_mem {flushAll : Bool} {b : ℕ}
    (hb : b ∉ (mptPagesToFlush g x flushAll).map
      fun p => mptCopyAddr x.mptBlkaddr (!x.verBit p) p) :
    (flushMptPages g x flushAll).page b = x.page b := by
  have hdev := congrArg Shadow.Pages.dev (flushMptPages_shadow (g := g) x flushAll)
  refine (congrFun hdev b).trans
    (Shadow.writeAll_dev_of_ne (mptPagesToFlush_nodup x flushAll) ?_)
  intro p hp heq
  exact hb (List.mem_map.mpr ⟨p, hp, heq⟩)

end Flush

/-! ## The invariant -/

/-- The committed checkpoint, seen from the running system: the super block that its flag selects
has its version map, its copies are untouched and on the disk, and the version map in memory has
moved away from its own by exactly the pages that were written since. -/
structure CommittedOk (g : Geometry) (x : MptVolume) (c : MptCommitted) : Prop where
  record : ∃ r, x.nsb.committed = some (c.ckptFlag, r) ∧
    ∀ p < mptDirtyMapBits g, testBitMsb p r.mptVerMap = testBitMsb p c.mptVerMap
  written : ∀ b ∈ x.dirtyPages, b ∈ x.nsb.store.writes
  untouched : ∀ p < mptDirtyMapBits g, x.copyOf c p ∉ x.nsb.store.writes
  flips : ∀ p < mptDirtyMapBits g,
    (mptCopyAddr x.nsb.store.mptBlkaddr (!testBitMsb p c.mptVerMap) p ∈ x.nsb.store.writes
      ↔ x.nsb.store.verBit p ≠ testBitMsb p c.mptVerMap)
  rebuilt : ∀ p < mptDirtyMapBits g, x.disk (x.copyOf c p) = mptPageOf c.mpt p

structure VolumeInv (g : Geometry) (fixed : Area) (x : MptVolume) : Prop where
  nsb : NsbInv g fixed x.nsb
  synced : Synced g x.nsb.store
  clean : ∀ b, b ∉ x.dirtyPages → x.disk b = x.nsb.store.page b
  pages : x.nsb.phase = .switched → x.dirtyPages = []
  recorded : x.nsb.phase ≠ .idle → x.nsb.phase ≠ .stopped → ∀ p < mptDirtyMapBits g,
    getCurrentMptPage x.nsb.store.toMptArea p = mptPageOf x.pending p
  /-- The super block was written last with the version map in memory, unless it is about to be
  written again. -/
  ver : x.nsb.phase ≠ .stopped → (x.nsb.phase = .mptFlushed → x.nsb.nsbDirty = false) →
    ∀ p < mptDirtyMapBits g, testBitMsb p x.nsb.lastFlush.mptVerMap = x.nsb.store.verBit p
  committed : ∀ c, x.committed = some c → CommittedOk g x c

variable {x : MptVolume}

/-- **The invariant implies the rule.** -/
lemma VolumeInv.shadowSafe (hx : VolumeInv g fixed x) : ShadowSafe g fixed x where
  untouched := fun c hc => (hx.committed c hc).untouched
  rebuilds := by
    intro c hc
    have hok := hx.committed c hc
    obtain ⟨r, hr, hsame⟩ := hok.record
    obtain ⟨⟨d, hd, -, -, hver, -⟩, -⟩ := hx.nsb.safe _ _ hr
    refine ⟨d, hd, fun i hi => ?_⟩
    have hp := div_lt_mptDirtyMapBits hi
    have hpage : getCurrentMptPage (x.onDisk d.mptVerMap) (i / entriesPerBlk)
        = mptPageOf c.mpt (i / entriesPerBlk) := by
      rw [← hok.rebuilt _ hp, getCurrentMptPage_eq, MptVolume.copyOf, ← hsame _ hp, ← hver _ hp]
      rfl
    rw [f2fsGetMpt_apply _ hp, hpage, mptPageOf_apply]

/-- A step of the super block's protocol that leaves the pages of the table alone. -/
lemma VolumeInv.quiet {nsb : NsbVolume} {nsbi : NvmSbInfo} (hx : VolumeInv g fixed x)
    (hinv : NsbInv g fixed nsb) (hstore : nsb.store = x.nsb.store.withNsbi nsbi)
    (hmark : MarksChanges x.nsb.store.nsbi nsbi) (hcom : nsb.committed = x.nsb.committed)
    (hpages : nsb.phase = .switched → x.dirtyPages = [])
    (hphase : nsb.phase ≠ .idle → nsb.phase ≠ .stopped →
      x.nsb.phase ≠ .idle ∧ x.nsb.phase ≠ .stopped)
    (hver : nsb.phase ≠ .stopped → (nsb.phase = .mptFlushed → nsb.nsbDirty = false) →
      ∀ p < mptDirtyMapBits g, testBitMsb p nsb.lastFlush.mptVerMap = x.nsb.store.verBit p) :
    VolumeInv g fixed { x with nsb } := by
  have harea : nsb.store.toMptArea = x.nsb.store.toMptArea := by rw [hstore, MptStore.withNsbi]
  have hwrites : nsb.store.writes = x.nsb.store.writes := by rw [hstore, MptStore.withNsbi]
  refine ⟨hinv, ?_, ?_, hpages, fun hi hs => ?_, ?_, fun c hc => ?_⟩
  · show Synced g nsb.store
    rw [hstore]
    exact hx.synced.withNsbi hmark
  · simpa only [harea] using hx.clean
  · obtain ⟨hi', hs'⟩ := hphase hi hs
    simpa only [harea] using hx.recorded hi' hs'
  · simpa only [harea] using hver
  · have hok := hx.committed c hc
    exact ⟨by simpa only [hcom] using hok.record, by simpa only [hwrites] using hok.written,
      by simpa only [MptVolume.copyOf, harea, hwrites] using hok.untouched,
      by simpa only [harea, hwrites] using hok.flips,
      by simpa only [MptVolume.copyOf, harea] using hok.rebuilt⟩

/-! ## Steps -/

/-- A flush, while no page is written a second time. -/
lemma CommittedOk.flushMpt {c : MptCommitted} {nsb : NsbVolume}
    (hbits : mptDirtyMapBits g ≤ blocksPerSeg) (hok : CommittedOk g x c)
    (hcond : ∀ p < mptDirtyMapBits g, x.nsb.store.nsbi.mptDirtyMap p = true → ∀ second : Bool,
      mptCopyAddr x.nsb.store.mptBlkaddr second p ∉ x.nsb.store.writes)
    (hstore : nsb.store = flushMptPages g x.nsb.store false)
    (hcom : nsb.committed = x.nsb.committed) (pending : Mpt) :
    CommittedOk g { x with
      nsb
      dirtyPages := nsb.store.writes.drop x.nsb.store.writes.length ++ x.dirtyPages
      pending } c := by
  have hblk : nsb.store.mptBlkaddr = x.nsb.store.mptBlkaddr := by
    rw [hstore, flushMptPages_mptBlkaddr]
  have hwrites : nsb.store.writes = x.nsb.store.writes ++ flushedCopies g x.nsb.store := by
    rw [hstore, flush_writes]
  -- a dirty page has not been written since the commit, so its bit is still in place
  have hsame : ∀ p < mptDirtyMapBits g, x.nsb.store.nsbi.mptDirtyMap p = true →
      x.nsb.store.verBit p = testBitMsb p c.mptVerMap := by
    intro p hp hd
    by_contra hne
    exact hcond p hp hd _ ((hok.flips p hp).mpr hne)
  refine ⟨by simpa only [hcom] using hok.record, fun b hb => ?_, fun p hp => ?_, fun p hp => ?_,
    fun p hp => ?_⟩
  · simp only [hwrites, List.drop_left, List.mem_append] at hb ⊢
    exact hb.elim Or.inr fun h => Or.inl (hok.written b h)
  · simp only [MptVolume.copyOf, hblk, hwrites, List.mem_append, not_or]
    refine ⟨hok.untouched p hp, fun hmem => ?_⟩
    obtain ⟨hd, hne⟩ := (mptCopyAddr_mem_flushedCopies hbits hp _).mp hmem
    exact hne (hsame p hp hd)
  · simp only [hblk, hwrites, List.mem_append]
    rw [hok.flips p hp, mptCopyAddr_mem_flushedCopies hbits hp, hstore, flush_verBit hp]
    by_cases hd : x.nsb.store.nsbi.mptDirtyMap p = true
    · simp [hd, hsame p hp hd]
    · simp [hd]
  · simp only [MptVolume.copyOf, hblk]
    exact hok.rebuilt p hp

lemma nsbDirty_flushMpt {nsb : NsbVolume} {y : MptStore}
    (hstore : nsb.store = flushMptPages g y false) (hclean : nsb.nsbDirty = false) :
    mptPagesToFlush g y false = [] := by
  by_contra hne
  have hdirty : nsb.nsbDirty = true := by
    rw [NsbVolume.nsbDirty, hstore, flushMptPages_nsbi]
    simp only [hne, if_false]
    exact nsbDirty_or _
  rw [hdirty] at hclean
  exact absurd hclean (by simp)

lemma volumeInv_flushMpt {nsb : NsbVolume} (hbits : mptDirtyMapBits g ≤ blocksPerSeg)
    (hx : VolumeInv g fixed x) (hcond : ShadowCondition g x (.nsb .flushMpt))
    (hinv : NsbInv g fixed nsb) (hidle : x.nsb.phase = .idle) (hphase : nsb.phase = .mptFlushed)
    (hstore : nsb.store = flushMptPages g x.nsb.store false)
    (hlast : nsb.lastFlush = x.nsb.lastFlush) (hcom : nsb.committed = x.nsb.committed) :
    VolumeInv g fixed { x with
      nsb
      dirtyPages := nsb.store.writes.drop x.nsb.store.writes.length ++ x.dirtyPages
      pending := x.nsb.store.nsbi.mpt } where
  nsb := hinv
  synced := by
    show Synced g nsb.store
    rw [hstore]
    exact synced_flushMptPages hbits hx.synced false
  clean := by
    intro b hb
    rw [hstore] at hb
    simp only [flush_writes, List.drop_left, List.mem_append, not_or] at hb
    show x.disk b = nsb.store.page b
    rw [hstore, flush_page_of_not_mem hb.1]
    exact hx.clean b hb.2
  pages := fun h => absurd (hphase.symm.trans h) (by simp)
  recorded := by
    intro _ _ p hp
    show getCurrentMptPage nsb.store.toMptArea p = mptPageOf x.nsb.store.nsbi.mpt p
    rw [hstore]
    exact getCurrentMptPage_flushMptPages hbits hx.synced false hp
  ver := by
    intro _ hclean p hp
    -- nothing is marked, so no page was flushed and no bit flipped
    have hnil := nsbDirty_flushMpt hstore (hclean hphase)
    have hbit : nsb.store.verBit p = x.nsb.store.verBit p := by
      rw [hstore, flushMptPages_verBit, hnil]
      rfl
    show testBitMsb p nsb.lastFlush.mptVerMap = nsb.store.verBit p
    rw [hbit, hlast]
    exact hx.ver (by simp [hidle]) (fun h => absurd (hidle.symm.trans h) (by simp)) p hp
  committed := by
    intro c hc
    have hsome : x.committed.isSome = true := by
      have hc' : x.committed = some c := hc
      simp [hc']
    exact (hx.committed c hc).flushMpt hbits (hcond hsome) hstore hcom _

/-- **A commit**: the super block that the flag selects was written last, with the version map of
the flush, and all pages of the flush are on the disk. -/
lemma volumeInv_commit {nsb : NsbVolume} (hx : VolumeInv g fixed x) (hinv : NsbInv g fixed nsb)
    (hswitched : x.nsb.phase = .switched) (hidle : nsb.phase = .idle)
    (hstore : nsb.store = x.nsb.store) (hlast : nsb.lastFlush = x.nsb.lastFlush)
    (hcom : nsb.committed = some (nsb.ckptFlag, x.nsb.lastFlush)) :
    VolumeInv g fixed { x with
      nsb := nsb.forgetWrites
      committed := some
        ⟨nsb.ckptFlag, (nsbReadOf g (nsb.disk nsb.ckptFlag)).mptVerMap, x.pending⟩ } := by
  have hver := hx.ver (by simp [hswitched])
    (fun h => absurd (hswitched.symm.trans h) (by simp))
  have hread : ∀ p < mptDirtyMapBits g,
      testBitMsb p (nsbReadOf g (nsb.disk nsb.ckptFlag)).mptVerMap = x.nsb.store.verBit p := by
    intro p hp
    obtain ⟨⟨d, hd, -, -, hbit, -⟩, -⟩ := hinv.safe _ _ hcom
    obtain ⟨-, hd⟩ := Option.ite_none_right_eq_some.mp hd
    rw [Option.some.inj hd, hbit p hp]
    exact hver p hp
  have hpages := hx.pages hswitched
  refine ⟨⟨hinv.free, hinv.clean, hinv.recorded, hinv.copy, hinv.fresh, hinv.written, hinv.pages,
    hinv.safe⟩, ?_, ?_, fun h => absurd (hidle.symm.trans h) (by simp),
    fun h => absurd hidle h, ?_, ?_⟩
  · show Synced g { nsb.store with writes := [] }
    rw [hstore]
    exact hx.synced
  · intro b hb
    show x.disk b = nsb.store.page b
    rw [hstore]
    exact hx.clean b hb
  · intro _ _ p hp
    show testBitMsb p nsb.lastFlush.mptVerMap = nsb.store.verBit p
    rw [hlast, hstore]
    exact hver p hp
  · rintro c hc
    obtain rfl := Option.some.inj hc
    refine ⟨⟨_, hcom, fun p hp => ?_⟩, fun b hb => ?_, fun _ _ => List.not_mem_nil,
      fun p hp => ?_, fun p hp => ?_⟩
    · rw [hread p hp]
      exact hver p hp
    · have hb' : b ∈ x.dirtyPages := hb
      rw [hpages] at hb'
      exact absurd hb' List.not_mem_nil
    · have hbit : nsb.store.verBit p = x.nsb.store.verBit p := by rw [hstore]
      refine iff_of_false List.not_mem_nil ?_
      show ¬ nsb.store.verBit p ≠ _
      rw [hbit, hread p hp]
      simp
    · show x.disk (mptCopyAddr nsb.store.mptBlkaddr _ p) = mptPageOf x.pending p
      rw [hx.clean _ (by simp [hpages]), hread p hp, hstore,
        ← hx.recorded (by simp [hswitched]) (by simp [hswitched]) p hp, getCurrentMptPage_eq]
      rfl

lemma volumeInv_writeback {b : ℕ} (hx : VolumeInv g fixed x) (hb : b ∈ x.dirtyPages) :
    VolumeInv g fixed { x with
      disk := Function.update x.disk b (x.nsb.store.page b)
      dirtyPages := x.dirtyPages.filter (· ≠ b) } := by
  refine ⟨hx.nsb, hx.synced, fun d hd => ?_, fun h => ?_, hx.recorded, hx.ver, fun c hc => ?_⟩
  · by_cases hdb : d = b
    · subst hdb
      exact Function.update_self _ _ _
    · have hclean : d ∉ x.dirtyPages := by simpa [hdb] using hd
      exact (Function.update_of_ne hdb _ _).trans (hx.clean d hclean)
  · rw [hx.pages h] at hb
    exact absurd hb List.not_mem_nil
  · have hok := hx.committed c hc
    refine ⟨hok.record, fun d hd => hok.written d (List.mem_of_mem_filter hd), hok.untouched,
      hok.flips, fun p hp => ?_⟩
    -- `b` was written since the commit, so it is none of the committed copies
    have hne : x.copyOf c p ≠ b := by
      intro heq
      refine hok.untouched p hp ?_
      rw [heq]
      exact hok.written b hb
    exact (Function.update_of_ne hne _ _).trans (hok.rebuilt p hp)

/-- Everything a step can do, with its guard. -/
inductive MptVolumeMove (g : Geometry) (fixed : Area) (x : MptVolume) :
    MptVolumeStep → MptVolume → Prop
  | flushMpt (nsb : NsbVolume) (h : nsbStep g fixed x.nsb .flushMpt = some nsb) :
      MptVolumeMove g fixed x (.nsb .flushMpt) { x with
        nsb
        dirtyPages := nsb.store.writes.drop x.nsb.store.writes.length ++ x.dirtyPages
        pending := x.nsb.store.nsbi.mpt }
  | commit (nsb : NsbVolume) (h : nsbStep g fixed x.nsb .commit = some nsb) :
      MptVolumeMove g fixed x (.nsb .commit) { x with
        nsb := nsb.forgetWrites
        committed := some
          ⟨nsb.ckptFlag, (nsbReadOf g (nsb.disk nsb.ckptFlag)).mptVerMap, x.pending⟩ }
  | other (a : NsbStep) (nsb : NsbVolume) (h : nsbStep g fixed x.nsb a = some nsb)
      (hflush : a ≠ .flushMpt) (hcommit : a ≠ .commit)
      (hswitch : ∀ byteNvm, a = .switch byteNvm → x.dirtyPages = []) :
      MptVolumeMove g fixed x (.nsb a) { x with nsb }
  | writeback (b : ℕ) (hb : b ∈ x.dirtyPages) :
      MptVolumeMove g fixed x (.writeback b) { x with
        disk := Function.update x.disk b (x.nsb.store.page b)
        dirtyPages := x.dirtyPages.filter (· ≠ b) }

lemma mptVolumeMove_of_step {a : MptVolumeStep} {x' : MptVolume}
    (h : mptVolumeStep g fixed x a = some x') : MptVolumeMove g fixed x a x' := by
  cases a with
  | writeback b =>
      obtain ⟨hb, h⟩ := Option.ite_none_right_eq_some.mp h
      obtain rfl := Option.some.inj h
      exact .writeback b hb
  | nsb a =>
      cases a with
      | flushMpt =>
          obtain ⟨nsb, hnsb, rfl⟩ := Option.map_eq_some_iff.mp h
          exact .flushMpt nsb hnsb
      | commit =>
          obtain ⟨nsb, hnsb, rfl⟩ := Option.map_eq_some_iff.mp h
          exact .commit nsb hnsb
      | switch byteNvm =>
          obtain ⟨hd, h⟩ := Option.ite_none_right_eq_some.mp h
          obtain ⟨nsb, hnsb, rfl⟩ := Option.map_eq_some_iff.mp h
          exact .other _ nsb hnsb (by simp) (by simp) fun _ _ => hd
      | stop =>
          obtain rfl := Option.some.inj h
          exact .other _ _ rfl (by simp) (by simp) (by simp)
      | _ =>
          obtain ⟨nsb, hnsb, rfl⟩ := Option.map_eq_some_iff.mp h
          exact .other _ nsb hnsb (by simp) (by simp) (by simp)

/-- **Every step that meets the condition keeps the invariant.** -/
lemma volumeInv_step (hfit : NsbFits g) (hbits : mptDirtyMapBits g ≤ blocksPerSeg) (x : MptVolume)
    (a : MptVolumeStep) (x' : MptVolume) (hx : VolumeInv g fixed x)
    (hcond : ShadowCondition g x a) (h : mptVolumeStep g fixed x a = some x') :
    VolumeInv g fixed x' := by
  cases mptVolumeMove_of_step h with
  | flushMpt nsb hnsb =>
      have hinv := nsbInv_step hfit x.nsb .flushMpt nsb hx.nsb trivial hnsb
      cases nsbMove_of_step hnsb with
      | flushMpt hphase => exact volumeInv_flushMpt hbits hx hcond hinv hphase rfl rfl rfl rfl
  | commit nsb hnsb =>
      have hinv := nsbInv_step hfit x.nsb .commit nsb hx.nsb trivial hnsb
      cases nsbMove_of_step hnsb with
      | commit hphase => exact volumeInv_commit hx hinv hphase rfl rfl rfl rfl
  | writeback b hb => exact volumeInv_writeback hx hb
  | other a nsb hnsb hflush hcommit hswitch =>
      have hcond' : NsbCondition x.nsb a := by
        cases a with
        | flushMpt => exact absurd rfl hflush
        | _ => exact hcond
      have hinv := nsbInv_step hfit x.nsb a nsb hx.nsb hcond' hnsb
      have hrefl := MarksChanges.refl x.nsb.store.nsbi
      cases nsbMove_of_step hnsb with
      | alloc start n nsbi hal =>
          obtain ⟨-, -, -, rfl⟩ := nvmAllocateSegmentLocked_ok g hal
          refine hx.quiet hinv rfl ⟨hrefl.keeps, hrefl.marks⟩ rfl hx.pages (fun hi hs => ⟨hi, hs⟩)
            fun hs hclean => hx.ver hs fun hp => ?_
          have hdirty := nsbDirty_or x.nsb.store.nsbi.nvmFlag
          exact absurd (hdirty.symm.trans (hclean hp)) (by simp)
      | op a _ =>
          refine hx.quiet hinv rfl (a.marksChanges _) rfl hx.pages (fun hi hs => ⟨hi, hs⟩)
            fun hs hclean => hx.ver hs fun hp => ?_
          rw [← hclean hp, NsbVolume.nsbDirty, NsbVolume.nsbDirty]
          cases a with
          | create s n f => rfl
          | unset s =>
              simp only [NsbVolume.withNsbi, MptStore.withNsbi, MptOp.apply, unsetMapping]
              split <;> rfl
          | double s =>
              simp only [NsbVolume.withNsbi, MptStore.withNsbi, MptOp.apply, setDouble]
              split <;> rfl
      | release n _ =>
          exact hx.quiet hinv rfl ⟨hrefl.keeps, hrefl.marks⟩ rfl hx.pages
            (fun hi hs => ⟨hi, hs⟩) hx.ver
      | flushMpt _ => exact absurd rfl hflush
      | commit _ => exact absurd rfl hcommit
      | flushNsb hphase _ =>
          exact hx.quiet hinv rfl hrefl rfl (fun h => absurd h (by simp))
            (fun _ _ => ⟨by simp [hphase], by simp [hphase]⟩) fun _ _ _ _ => rfl
      | skipNsb hphase hdirty =>
          exact hx.quiet hinv rfl hrefl rfl (fun h => absurd h (by simp))
            (fun _ _ => ⟨by simp [hphase], by simp [hphase]⟩)
            fun _ _ => hx.ver (by simp [hphase]) fun _ => hdirty
      | writeback copy _ =>
          exact hx.quiet hinv rfl hrefl rfl hx.pages (fun hi hs => ⟨hi, hs⟩) hx.ver
      | switch byteNvm hphase _ =>
          obtain ⟨hmpt, hdirty, -⟩ := switchNsb_mpt x.nsb.store.nsbi
          refine hx.quiet hinv rfl ⟨?_, ?_⟩ rfl (fun _ => hswitch byteNvm rfl)
            (fun _ _ => ⟨by simp [hphase], by simp [hphase]⟩)
            fun _ _ => hx.ver (by simp [hphase]) fun hp => absurd (hphase.symm.trans hp) (by simp)
          · rw [hdirty]
            exact hrefl.keeps
          · rw [hmpt, hdirty]
            exact hrefl.marks
      | flushError hphase =>
          exact hx.quiet hinv rfl hrefl rfl (fun h => absurd h (by simp))
            (fun hi _ => absurd rfl hi)
            fun _ _ => hx.ver (by simp [hphase]) fun hp => absurd (hphase.symm.trans hp) (by simp)
      | stop =>
          exact hx.quiet hinv rfl hrefl rfl (fun h => absurd h (by simp))
            (fun _ hs => absurd rfl hs) fun hs => absurd rfl hs

/-! ## Mounted volumes -/

lemma MptVolume.Mounted.volumeInv (hbits : mptDirtyMapBits g ≤ blocksPerSeg)
    (h : x.Mounted g fixed) : VolumeInv g fixed x := by
  cases h with
  | first y nsb h hcom hstore pending =>
      have hphase : nsb.phase = .idle := by cases h <;> rfl
      refine ⟨h.nsbInv, fun p hp _ => ?_, fun b hb => ?_,
        fun hs => absurd (hphase.symm.trans hs) (by simp), fun hi => absurd hphase hi,
        fun _ _ p _ => ?_, fun c hc => absurd hc (by simp)⟩
      · rw [hstore, getCurrentMptPage_flushAll hbits y hp, flushMptPages_mpt]
      · rw [hstore, flushMptPages_writes, List.drop_left] at hb
        rw [hstore, flush_page_of_not_mem hb]
      · cases h <;> rfl
  | again nsb h f r hcom hwrites pending =>
      cases h with
      | first y hmpt hclean hmap hfree page => exact absurd hcom (by simp)
      | again y hmpt hclean hflag hfree ckptFlag page hread =>
          obtain ⟨rfl, rfl⟩ := Prod.mk.inj (Option.some.inj hcom)
          refine ⟨(NsbVolume.Mounted.again y hmpt hclean hflag hfree ckptFlag page hread).nsbInv,
            (MptMounted.again y hmpt hclean).synced hbits, fun _ _ => rfl,
            fun hs => absurd hs (by simp), fun hi => absurd rfl hi, fun _ _ _ _ => rfl,
            fun c hc => ?_⟩
          obtain rfl := Option.some.inj hc
          refine ⟨⟨_, rfl, fun _ _ => rfl⟩, fun b hb => absurd hb List.not_mem_nil,
            fun p _ => ?_, fun p _ => ?_, fun p hp => ?_⟩
          · have hnil : y.writes = [] := hwrites
            simp [hnil]
          · have hnil : y.writes = [] := hwrites
            simp [hnil, MptArea.verBit, MptStore.nsbRecord]
          · have hcur := (MptMounted.again y hmpt hclean).synced hbits p hp (hclean p)
            rw [← hcur, getCurrentMptPage_eq]
            rfl

/-- **The rule of shadow paging is kept** throughout every run whose steps meet
`ShadowCondition`, for devices whose maps fit into the block of the super block. -/
theorem shadow_safe_throughout (hfit : NsbFits g) (hbits : mptDirtyMapBits g ≤ blocksPerSeg)
    {x₀ : MptVolume} (hmount : x₀.Mounted g fixed) {as : List MptVolumeStep}
    (h : StepsMeet (mptVolumeStep g fixed) (ShadowCondition g) x₀ as) :
    Throughout (mptVolumeStep g fixed) (ShadowSafe g fixed) x₀ as :=
  (throughout_of_stepsMeet (volumeInv_step hfit hbits) (hmount.volumeInv hbits) h).mono
    fun _ hx => hx.shadowSafe

/-! ### A retried checkpoint -/

/-- The first mount of the two-segment NVM; its one page of the table is still dirty. -/
def twoMptVolume : MptVolume where
  nsb := twoNsbVolume
  disk := twoMptStore.page
  dirtyPages := [4608]
  pending := fun _ => 0#32
  committed := none

lemma twoMptVolume_mounted : twoMptVolume.Mounted twoGeometry fun _ => 0#8 :=
  .first twoMptStore twoNsbVolume twoNsbVolume_mounted rfl rfl _

/-- A checkpoint commits the mapping of SSD segment 1 to NVM segment 0, in block 4096.  The next
one has dropped the mapping; it flushes to block 4608 and fails on the device cache. -/
def failedCheckpoint : List MptVolumeStep :=
  [.nsb (.op (.create 1 0 3#32)), .nsb .flushMpt, .nsb .flushNsb, .writeback 4608, .writeback 4096,
    .nsb (.writeback false), .nsb (.writeback true), .nsb (.switch false), .nsb .commit,
    .nsb (.op (.unset 1)), .nsb .flushMpt, .nsb .flushNsb, .writeback 4608,
    .nsb (.writeback false), .nsb (.switch false), .nsb .flushError]

/-- The checkpoint is retried with nothing left to flush. -/
def cleanRetry : List MptVolumeStep :=
  failedCheckpoint ++ [.nsb .flushMpt, .nsb .flushNsb, .nsb (.switch false), .nsb .commit]

/-- Another mapping is made and the checkpoint retried: its flush goes to block 4096. -/
def dirtyRetry : List MptVolumeStep :=
  failedCheckpoint ++ [.nsb (.op (.create 2 1 3#32)), .nsb .flushMpt, .writeback 4096]

theorem shadow_safe_throughout_cleanRetry :
    StepsMeet (mptVolumeStep twoGeometry fun _ => 0#8) (ShadowCondition twoGeometry) twoMptVolume
        cleanRetry ∧
      Throughout (mptVolumeStep twoGeometry fun _ => 0#8)
        (ShadowSafe twoGeometry fun _ => 0#8) twoMptVolume cleanRetry := by
  have hmeet : StepsMeet (mptVolumeStep twoGeometry fun _ => 0#8) (ShadowCondition twoGeometry)
      twoMptVolume cleanRetry := by decide +kernel
  exact ⟨hmeet, shadow_safe_throughout (by decide) (by decide) twoMptVolume_mounted hmeet⟩

/-- **A crash after the retry loses the committed table**: its only copy has been overwritten. -/
theorem shadow_safe_broken :
    ¬ ∀ (g : Geometry) (fixed : Area) (x₀ : MptVolume) (as : List MptVolumeStep) (x : MptVolume),
      NsbFits g → mptDirtyMapBits g ≤ blocksPerSeg → x₀.Mounted g fixed →
        exec (mptVolumeStep g fixed) x₀ as = some x → ShadowSafe g fixed x := by
  intro hall
  have hreads : (exec (mptVolumeStep twoGeometry fun _ => 0#8) twoMptVolume dirtyRetry).map
      (fun x => x.committed.map fun c => (x.copyOf c 0, x.nsb.store.writes.contains 4096))
        = some (some (4096, true)) := by decide +kernel
  obtain ⟨x, hx, hreads⟩ := Option.map_eq_some_iff.mp hreads
  obtain ⟨c, hc, hreads⟩ := Option.map_eq_some_iff.mp hreads
  obtain ⟨hcopy, hwritten⟩ := Prod.mk.inj hreads
  have hsafe := hall twoGeometry (fun _ => 0#8) twoMptVolume dirtyRetry x (by decide) (by decide)
    twoMptVolume_mounted hx
  refine hsafe.untouched c hc 0 (by decide) ?_
  rw [hcopy]
  exact List.contains_iff_mem.mp hwritten

end Hoit
