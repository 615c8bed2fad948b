import HoitF2fs.Ckpt.TwoPacks

/-!
# Does a committed checkpoint survive a crash?

Here the two writers, the disk and the mount path are put together.  A volume consists of the META
area on disk, the packs in NVM, the META pages that wait to be written, and `sbi`'s two indices.
`committed` is a ghost: the pack of the last call of `f2fs_write_checkpoint` that returned 0 after
it had written one.

* `begin` — a call with `CP_UMOUNT` or `CP_FASTBOOT` has filled the META pages of its pack.
* `land` — **any** waiting page reaches the disk, in any order, also after the call has failed.
* `commit` — all of them have, and the last block of the pack is written; `commitFail` is the same
  with an error return behind it, `abort` an error return before it.
* `bnvm`, `bnvmFail` — a call with another reason, which writes into NVM.
* `crash` — power is lost, whatever NVM holds, and the volume is mounted again.

`Survives` says that a mount would find the committed checkpoint.  It does **not** after a `bnvm`
step: the mount reads the disk only, and that checkpoint was never written there
(`bnvm_checkpoint_lost`).  Without such steps it does, for every order of the others, as long as no
checkpoint has orphan blocks, no other block of a pack looks like a header, and the version numbers
do not run out (`committed_survives`).
-/

namespace Hoit

open ByteStore Transition

variable {l : CpLayout}

structure Volume (l : CpLayout) where
  disk : Disk
  mem : CpMem
  ckpt : CpPack
  cur : CpPack
  /-- The META pages of the pack `cur.next` that may still be written. -/
  pending : ℕ → Bool
  /-- A call that has filled its pages but has not committed. -/
  writing : Option (CpInput l)
  committed : PackContent

/-- Where `bnvm_do_checkpoint` returns an error. -/
inductive BnvmError where
  | sync
  | flush
  | afterCommit

inductive VolumeStep (l : CpLayout) where
  | early
  | prepared (inp : CpInput l)
  | begin (inp : CpInput l)
  | land (i : ℕ)
  | commit
  | commitFail
  | abort
  /-- `do_checkpoint` returns before it has stored anything. -/
  | doFail (inp : CpInput l)
  | bnvm (inp : CpInput l)
  | bnvmFail (inp : CpInput l) (e : BnvmError)
  /-- `left` is what the stores in flight left in NVM. -/
  | crash (left : CpMem)

section Machine

variable (crc32 : List Byte → BitVec 32)

/-- `sbi->ckpt`. -/
def Volume.header (x : Volume l) : Area := x.mem (.nvm x.ckpt)

/-- The memory when a writer is called. -/
def Volume.bumped (x : Volume l) (inp : CpInput l) : CpMem :=
  runStores x.mem (prepareCpBlock inp (.nvm x.ckpt) ++ [bumpVersion (.nvm x.ckpt)])

/-- The memory when `do_checkpoint` has filled its pages. -/
def Volume.filled (x : Volume l) (inp : CpInput l) : CpMem :=
  runStores (x.bumped inp)
    (doHeader crc32 inp (.nvm x.ckpt) ++ doPages crc32 inp (.nvm x.ckpt))

/-- The pages `do_checkpoint` fills before the commit, with the header `h`. -/
def fillsPage (inp : CpInput l) (h : Area) (i : ℕ) : Bool :=
  decide (i < packBlocks inp (allocType h) - 1)
    || (hasReason inp.reason cpUmount && isSetCkptFlags h cpNatBitsFlag
      && decide (blocksPerSeg - l.natBitsBlocks ≤ i) && decide (i < blocksPerSeg))

/-- The pages that wait when `do_checkpoint` has filled its own. -/
def Volume.pendingAfter (x : Volume l) (inp : CpInput l) (i : ℕ) : Bool :=
  x.pending i || fillsPage inp (x.filled crc32 inp (.nvm x.ckpt)) i

/-- Pages written to the pack `p`. -/
def landPages (l : CpLayout) (d : Disk) (p : CpPack) (pages : Area) (sel : ℕ → Bool) : Disk :=
  fun b =>
    if startCpAddr l p ≤ b ∧ b < startCpAddr l p + blocksPerSeg ∧ sel (b - startCpAddr l p) = true
    then packRead pages (b - startCpAddr l p) else d b

/-- The commit of a call that was writing. -/
def Volume.commitMem (x : Volume l) (inp : CpInput l) : CpMem :=
  (commitStore inp .pages (.nvm x.ckpt) (.nvm x.ckpt)).run x.mem

def Volume.commitDisk (x : Volume l) (inp : CpInput l) : Disk :=
  landPages l x.disk x.cur.next (x.commitMem inp .pages) fun i =>
    x.pending i || decide (i = packBlocks inp (allocType x.header) - 1)

/-- A call comes past its early exits: none is going on, and there was no error. -/
def Volume.free (x : Volume l) : Bool := x.writing.isNone && !isSetCkptFlags x.header cpErrorFlag

def volumeStep (x : Volume l) : VolumeStep l → Option (Volume l)
  | .early => if x.writing.isNone then some x else none
  | .prepared inp =>
      if x.free && hasReason inp.reason cpDiscard then
        some { x with mem := runStores x.mem (prepareCpBlock inp (.nvm x.ckpt)) }
      else none
  | .begin inp =>
      if x.free && remainNodeSummaries inp.reason then
        some
          { x with
            mem := x.filled crc32 inp
            pending := x.pendingAfter crc32 inp
            writing := some inp }
      else none
  | .land i =>
      if x.pending i && decide (i < blocksPerSeg) then
        some { x with disk := landPages l x.disk x.cur.next (x.mem .pages) fun j => j == i }
      else none
  | .commit =>
      x.writing.map fun inp =>
        { x with
          disk := x.commitDisk inp
          mem := x.commitMem inp
          cur := x.cur.next
          pending := fun _ => false
          writing := none
          committed :=
            { blocks := packBlocks inp (allocType x.header)
              bytes := x.commitMem inp .pages } }
  | .commitFail =>
      x.writing.map fun inp =>
        { x with
          disk := x.commitDisk inp
          mem := x.commitMem inp
          pending := fun _ => false
          writing := none }
  | .abort => x.writing.map fun _ => { x with writing := none }
  | .doFail inp =>
      if x.free && remainNodeSummaries inp.reason then some { x with mem := x.bumped inp } else none
  | .bnvm inp =>
      if x.free && !remainNodeSummaries inp.reason then
        (exec Instr.step (x.bumped inp)
          (bnvmDoCheckpoint crc32 inp (.nvm x.ckpt) (.nvm x.cur.next))).map fun m =>
            { x with
              disk := landPages l x.disk x.cur.next (x.mem .pages) x.pending
              mem := m
              cur := x.cur.next
              pending := fun _ => false
              committed :=
                { blocks := packBlocks inp (allocType (m (.nvm x.ckpt)))
                  bytes := m (.nvm x.cur.next) } }
      else none
  | .bnvmFail inp e =>
      if x.free && !remainNodeSummaries inp.reason then
        (exec Instr.step (x.bumped inp)
          (match e with
          | .sync => []
          | .flush => (bnvmDoCheckpoint crc32 inp (.nvm x.ckpt) (.nvm x.cur.next)).dropLast
          | .afterCommit => bnvmDoCheckpoint crc32 inp (.nvm x.ckpt) (.nvm x.cur.next))).map
            fun m => { x with mem := m }
      else none
  | .crash left =>
      (getValidCheckpoint l crc32 x.disk).map fun p =>
        { x with
          mem := Function.update left (.nvm p) (movePack l x.disk p (left (.nvm p)))
          ckpt := p
          cur := p
          pending := fun _ => false
          writing := none }

/-- **The committed checkpoint survives**: a mount ends with it in the pack `sbi->ckpt` points into,
whatever NVM held. -/
def Survives (x : Volume l) : Prop :=
  ∃ p, getValidCheckpoint l crc32 x.disk = some p
    ∧ ∀ a, ∀ i < blockSize * x.committed.blocks, movePack l x.disk p a i = x.committed.bytes i

/-- The steps that are safe.  `do_checkpoint` may not have orphan blocks to write, and no page that
waits, but the first, may look like a header of a version that is not older; no call may commit in
NVM, or fail behind its commit on disk. -/
def SafeStep (x : Volume l) : VolumeStep l → Prop
  | .begin inp =>
      inp.orphans = [] ∧ curCpVersion x.header + 1 < 2 ^ 63
        ∧ ∀ i, 1 ≤ i → i < blocksPerSeg → x.pendingAfter crc32 inp i = true →
          ∀ w, getCheckpointVersion crc32 (packRead (x.filled crc32 inp .pages) i) = some w →
            w < curCpVersion x.committed.bytes
  | .doFail _ | .bnvmFail _ _ => curCpVersion x.header + 1 < 2 ^ 63
  | .bnvm _ | .commitFail => False
  | _ => True

end Machine

/-! ## What the disk holds -/

variable {crc32 : List Byte → BitVec 32}

/-- A pack a mount accepts and moves into NVM as it is. -/
structure GoodPack (crc32 : List Byte → BitVec 32) (l : CpLayout) (c : PackContent) : Prop where
  blocks : cpPackTotalBlockCount c.bytes = c.blocks
  two_le : 2 ≤ c.blocks
  le : c.blocks ≤ blocksPerSeg
  valid : validateCheckpoint crc32 (packRead c.bytes) = some (curCpVersion c.bytes)
  version : curCpVersion c.bytes < 2 ^ 63
  placed : CrcPlaced c.bytes
  start : cpPackStartSum c.bytes = 1 + l.cpPayload
  sane : saneCkpt l c.bytes = true

/-- The header `h` is a later one than `c`, of the same file system. -/
structure LaterHeader (c h : Area) : Prop where
  placed : CrcPlaced h
  version : curCpVersion c ≤ curCpVersion h
  rsvd : rsvdSegmentCount h = rsvdSegmentCount c
  overprov : overprovSegmentCount h = overprovSegmentCount c

/-- A call has filled its pages: `m` was the memory before `do_checkpoint`. -/
structure Filled (crc32 : List Byte → BitVec 32) (x : Volume l) (inp : CpInput l) (m : CpMem) :
    Prop where
  mem : x.mem = runStores m (doHeader crc32 inp (.nvm x.ckpt) ++ doPages crc32 inp (.nvm x.ckpt))
  header : LaterHeader x.committed.bytes (m (.nvm x.ckpt))
  later : curCpVersion x.committed.bytes < curCpVersion (m (.nvm x.ckpt))
  version : curCpVersion (m (.nvm x.ckpt)) < 2 ^ 63
  noError : isSetCkptFlags (m (.nvm x.ckpt)) cpErrorFlag = false
  noOrphans : inp.orphans = []
  pending : ∀ i < packBlocks inp (allocType x.header) - 1, x.pending i = true

/-- **The invariant.**  The current pack is the committed one.  In the other pack, and among the
pages that may still get there, nothing but the first block can pass for a header that is not
older, and the first block counts on a last block inside the pack. -/
structure Recoverable (crc32 : List Byte → BitVec 32) (x : Volume l) : Prop where
  current : ∀ i < x.committed.blocks, ∀ k < blockSize,
    diskRead l x.disk x.cur i k = x.committed.bytes (blockSize * i + k)
  pack : GoodPack crc32 l x.committed
  curOlder : ∀ i, 1 ≤ i → i < blocksPerSeg → ∀ w,
    getCheckpointVersion crc32 (diskRead l x.disk x.cur i) = some w →
      w ≤ curCpVersion x.committed.bytes
  nextOlder : ∀ i, 1 ≤ i → i < blocksPerSeg → ∀ w,
    getCheckpointVersion crc32 (diskRead l x.disk x.cur.next i) = some w →
      w < curCpVersion x.committed.bytes
  nextHead : ∀ w, getCheckpointVersion crc32 (diskRead l x.disk x.cur.next 0) = some w →
    w < curCpVersion x.committed.bytes
      ∨ 2 ≤ cpPackTotalBlockCount (diskRead l x.disk x.cur.next 0)
        ∧ cpPackTotalBlockCount (diskRead l x.disk x.cur.next 0) ≤ blocksPerSeg
  pagesOlder : ∀ i, 1 ≤ i → i < blocksPerSeg → x.pending i = true → ∀ w,
    getCheckpointVersion crc32 (packRead (x.mem .pages) i) = some w →
      w < curCpVersion x.committed.bytes
  pagesHead : x.pending 0 = true → 2 ≤ cpPackTotalBlockCount (packRead (x.mem .pages) 0)
    ∧ cpPackTotalBlockCount (packRead (x.mem .pages) 0) ≤ blocksPerSeg
  header : LaterHeader x.committed.bytes x.header
  writing : ∀ inp, x.writing = some inp → ∃ m, Filled crc32 x inp m

/-! ## Reading the disk -/

lemma diskAddr (l : CpLayout) (p : CpPack) {i : ℕ} (hi : i < blocksPerSeg) :
    (startCpAddr l p + i) % 2 ^ 32 = startCpAddr l p + i := by
  have hend := l.cp_end
  cases p with
  | one =>
      rw [startCpAddr]
      omega
  | two =>
      rw [startCpAddr]
      omega

lemma saneCkpt_congr {a b : Area} (h : ∀ x < bitmapStart, a x = b x) :
    saneCkpt l a = saneCkpt l b := by
  have hfield : ∀ off w, off + w ≤ bitmapStart → getLe a off w = getLe b off w := fun off w hw =>
    getLe_congr fun k hk => h (off + k) (by omega)
  have hrsvd : rsvdSegmentCount a = rsvdSegmentCount b := hfield 24 4 (by decide)
  have hovp : overprovSegmentCount a = overprovSegmentCount b := hfield 28 4 (by decide)
  have hlogs : ∀ i < 3, curNodeSegno a i = curNodeSegno b i ∧ curNodeBlkoff a i = curNodeBlkoff b i
      ∧ curDataSegno a i = curDataSegno b i ∧ curDataBlkoff a i = curDataBlkoff b i := by
    intro i hi
    refine ⟨hfield _ _ ?_, hfield _ _ ?_, hfield _ _ ?_, hfield _ _ ?_⟩ <;> unfold bitmapStart <;> omega
  have h0 := hlogs 0 (by decide)
  have h1 := hlogs 1 (by decide)
  have h2 := hlogs 2 (by decide)
  unfold saneCkpt
  rw [hrsvd, hovp, isSetCkptFlags_congr h]
  simp only [show List.range 3 = [0, 1, 2] from rfl, List.all_cons, List.all_nil, h0, h1, h2]

section Mounting

variable {x : Volume l}

lemma Recoverable.head (h : Recoverable crc32 x) :
    ∀ k < blockSize, diskRead l x.disk x.cur 0 k = x.committed.bytes k := by
  intro k hk
  have htwo := h.pack.two_le
  have hfirst := h.current 0 (by omega) k hk
  rwa [Nat.mul_zero, Nat.zero_add] at hfirst

lemma Recoverable.total (h : Recoverable crc32 x) :
    cpPackTotalBlockCount (diskRead l x.disk x.cur 0) = x.committed.blocks := by
  rw [← h.pack.blocks]
  exact getLe_congr fun k hk => h.head (136 + k) (by unfold blockSize; omega)

/-- **A mount takes the current pack.** -/
lemma Recoverable.mount (h : Recoverable crc32 x) :
    getValidCheckpoint l crc32 x.disk = some x.cur := by
  have htwo := h.pack.two_le
  have hle := h.pack.le
  have hbm : bitmapStart < blockSize := by decide
  refine getValidCheckpoint_of_later h.pack.version ?_ ?_ ?_
  · rw [← h.pack.valid]
    exact validateCheckpoint_congr h.total (by omega) (by unfold blocksPerSeg at hle; omega) h.current
  · -- the other pack: its first block is older, or counts on a block that is
    intro w hw
    unfold validateCheckpoint at hw
    obtain ⟨w0, hw0, hw⟩ := Option.bind_eq_some_iff.mp hw
    obtain ⟨w1, hw1, hw⟩ := Option.bind_eq_some_iff.mp hw
    rw [Option.ite_none_right_eq_some, Option.some.injEq] at hw
    obtain ⟨heq, rfl⟩ := hw
    rcases h.nextHead w0 hw0 with hlt | ⟨hge, hin⟩
    · rw [heq]
      exact hlt
    · refine h.nextOlder _ ?_ ?_ w1 hw1
      · unfold blocksPerSeg at hin
        omega
      · unfold blocksPerSeg at hin ⊢
        omega
  · rw [saneCkpt_congr fun k hk => h.head k (by omega)]
    exact h.pack.sane

/-- The mount moves the committed checkpoint into NVM. -/
lemma Recoverable.moved (h : Recoverable crc32 x) (a : Area) {i : ℕ}
    (hi : i < blockSize * x.committed.blocks) :
    movePack l x.disk x.cur a i = x.committed.bytes i := by
  have hstart : cpPackStartSum (diskRead l x.disk x.cur 0) = 1 + l.cpPayload := by
    rw [← h.pack.start]
    exact getLe_congr fun k hk => h.head (140 + k) (by unfold blockSize; omega)
  rw [movePack_eq hstart (by rw [h.total]; exact hi), diskPack,
    h.current (i / blockSize) (Nat.div_lt_of_lt_mul hi) _ (Nat.mod_lt _ (by decide)),
    Nat.div_add_mod]

/-- **The invariant gives the property.** -/
lemma Recoverable.survives (h : Recoverable crc32 x) : Survives crc32 x :=
  ⟨x.cur, h.mount, fun a _ hi => h.moved a hi⟩

end Mounting

/-! ## What happens to the header -/

lemma version_of_getCheckpointVersion {a : Area} {w : ℕ}
    (h : getCheckpointVersion crc32 a = some w) : w = curCpVersion a := by
  unfold getCheckpointVersion at h
  split at h
  · exact absurd h (by simp)
  · split at h
    · exact absurd h (by simp)
    · exact (Option.some.inj h).symm

/-- The fields that stay the same for ever. -/
def FixedFields (a b : Area) : Prop := ∀ x, 24 ≤ x ∧ x < 32 ∨ 164 ≤ x ∧ x < 168 → b x = a x

lemma LaterHeader.of_fixed {c a b : Area} (h : LaterHeader c a) (hfixed : FixedFields a b)
    (hver : curCpVersion a ≤ curCpVersion b) : LaterHeader c b where
  placed := h.placed.congr (getLe_congr fun k hk => hfixed (164 + k) (by omega))
  version := h.version.trans hver
  rsvd := Eq.trans (getLe_congr fun k hk => hfixed (24 + k) (by omega)) h.rsvd
  overprov := Eq.trans (getLe_congr fun k hk => hfixed (28 + k) (by omega)) h.overprov

lemma countPatches_not_covered {inp : CpInput l} {x : ℕ}
    (hx : x < 16 ∨ 24 ≤ x ∧ x < 144 ∨ 156 ≤ x) : ¬ Covered (countPatches inp) x := by
  rintro ⟨p, hp, hcov⟩
  simp only [countPatches, List.mem_cons, List.not_mem_nil, or_false] at hp
  rcases hp with rfl | rfl | rfl | rfl <;>
    simp only [Patch.Covers, putLe_off, putLe_len] at hcov <;> omega

section Bumped

variable {x : Volume l} {inp : CpInput l}

/-- The header after `__prepare_cp_block`. -/
lemma prepared_header :
    runStores x.mem (prepareCpBlock inp (.nvm x.ckpt))
      = Function.update x.mem (.nvm x.ckpt) (overlay x.header (countPatches inp)) :=
  runStores_const _

lemma counted_version : curCpVersion (overlay x.header (countPatches inp)) = curCpVersion x.header :=
  getLe_congr fun k hk => overlay_of_not_covered (countPatches_not_covered (by omega))

lemma bumped_eq :
    x.bumped inp = Function.update x.mem (.nvm x.ckpt)
      ((putLe 0 8 (curCpVersion x.header + 1)).apply (overlay x.header (countPatches inp))) := by
  rw [Volume.bumped, runStores_append, prepared_header, runStores_cons, runStores_nil]
  simp only [Store.run, bumpVersion, Function.update_self, Function.update_idem, overlay_cons,
    overlay_nil, counted_version]

lemma bumped_pages : x.bumped inp .pages = x.mem .pages := by
  rw [bumped_eq, Function.update_of_ne (by simp)]

lemma bumped_of_le {k : ℕ} (hk : 8 ≤ k) :
    x.bumped inp (.nvm x.ckpt) k = overlay x.header (countPatches inp) k := by
  rw [bumped_eq, Function.update_self, Patch.apply_of_not_covers]
  simp only [Patch.Covers, putLe_off, putLe_len]
  omega

lemma bumped_version (h : curCpVersion x.header + 1 < 2 ^ 63) :
    curCpVersion (x.bumped inp (.nvm x.ckpt)) = curCpVersion x.header + 1 := by
  rw [bumped_eq, Function.update_self, curCpVersion, getLe_putLe]
  exact Nat.mod_eq_of_lt (lt_trans h (by decide))

lemma counted_fixed : FixedFields x.header (overlay x.header (countPatches inp)) := fun k hk =>
  overlay_of_not_covered (countPatches_not_covered (by omega))

lemma bumped_fixed : FixedFields x.header (x.bumped inp (.nvm x.ckpt)) := by
  intro k hk
  rw [bumped_of_le (by omega)]
  exact counted_fixed k hk

lemma bumped_flags (f : BitVec 32) :
    isSetCkptFlags (x.bumped inp (.nvm x.ckpt)) f = isSetCkptFlags x.header f := by
  have hflags : ckptFlags (x.bumped inp (.nvm x.ckpt)) = ckptFlags x.header := by
    refine ckptFlags_congr fun k hlo hhi => ?_
    rw [bumped_of_le (by omega)]
    exact overlay_of_not_covered (countPatches_not_covered (by omega))
  rw [isSetCkptFlags, isSetCkptFlags, hflags]

/-- **The version grows by one, and nothing else that matters changes.** -/
lemma LaterHeader.bumped {c : Area} (h : LaterHeader c x.header)
    (hver : curCpVersion x.header + 1 < 2 ^ 63) : LaterHeader c (x.bumped inp (.nvm x.ckpt)) :=
  h.of_fixed bumped_fixed (by rw [bumped_version hver]; exact Nat.le_succ _)

end Bumped

section Writers

variable {inp : CpInput l} {m : CpMem} {s t : CpRegion}

lemma packHeader_of_kept {a : Area} (hc : CrcPlaced a) {k : ℕ} (hk : k < 32 ∨ 144 ≤ k ∧ k < 168) :
    packHeader crc32 inp a k = a k := by
  rw [packHeader_of_lt hc (by unfold bitmapStart; omega)]
  exact headerWith_of_kept fieldPatches_fields hk

/-- `do_checkpoint` keeps what has to be kept of its header. -/
lemma LaterHeader.packHeader {c a : Area} (h : LaterHeader c a) :
    LaterHeader c (packHeader crc32 inp a) := by
  refine h.of_fixed (fun k hk => packHeader_of_kept h.placed (by omega)) (le_of_eq ?_)
  exact (getLe_congr fun k hk => packHeader_of_kept h.placed (by omega)).symm

lemma bnvmPackHeader_of_kept (hc : CrcPlaced (m s)) {k : ℕ} (hk : k < 32 ∨ 144 ≤ k ∧ k < 168) :
    bnvmPackHeader crc32 inp m s t k = m s k := by
  unfold bnvmPackHeader
  split
  · have hoff : checksumOffset (headerWith inp (sharedPatches inp) (doFlags inp) (m s))
        = checksumOffset (m s) := checksumOffset_headerWith sharedPatches_fields
    have hbehind := hc.behind
    rw [storeCrc_of_lt (by rw [hoff]; unfold bitmapStart at hbehind; omega)]
    exact headerWith_of_kept sharedPatches_fields hk
  · exact headerWith_of_kept fields_nil hk

/-- The stores of `bnvm_do_checkpoint` behind its header leave header and payload alone. -/
lemma bnvm_rest_of_lt {ss : List (Store CpRegion)}
    (hss : ss <+: [writeDataSummaries inp t s false, commitStore inp t t s]) {r : CpRegion} {k : ℕ}
    (hk : k < blockSize * (1 + l.cpPayload)) : runStores m ss r k = m r k := by
  have hone : ∀ (m : CpMem), ∀ st ∈ ss, st.run m r k = m r k := by
    intro m st hst
    rcases eq_or_ne r t with rfl | hrt
    · have hmem := hss.subset hst
      simp only [List.mem_cons, List.not_mem_nil, or_false] at hmem
      rcases hmem with rfl | rfl
      · refine (congrFun Store.run_same k).trans (overlay_of_not_covered ?_)
        refine writePages_not_covered (dataSummaryPages_in _ _) (Or.inl (lt_of_lt_of_le hk ?_))
        exact Nat.mul_le_mul_left _ (by omega)
      · refine (congrFun Store.run_same k).trans (overlay_of_not_covered ?_)
        rintro ⟨p, hp, hcov⟩
        obtain rfl := List.mem_singleton.mp hp
        have hlast := packBlocks_eq (allocType (m s)) inp
        have hle : blockSize * (1 + l.cpPayload) ≤ blockSize * (packBlocks inp (allocType (m s)) - 1) :=
          Nat.mul_le_mul_left _ (by omega)
        have hlo := hcov.1
        simp only at hlo
        omega
    · refine congrFun (Store.run_other ?_) k
      have hmem := hss.subset hst
      simp only [List.mem_cons, List.not_mem_nil, or_false] at hmem
      rcases hmem with rfl | rfl <;> exact hrt
  clear hss
  induction ss generalizing m with
  | nil => rfl
  | cons st ss ih =>
      rw [runStores_cons, ih fun m' st' hst' => hone m' st' (List.mem_cons_of_mem st hst')]
      exact hone m st List.mem_cons_self

/-- A run of `bnvm_do_checkpoint`, to its end or to the error return before its commit, keeps what
has to be kept of the header, and no page. -/
lemma bnvm_keeps {c : Area} {ss : List (Store CpRegion)} {m' : CpMem}
    (hreason : remainNodeSummaries inp.reason = false) (h : LaterHeader c (m s)) (ht : t ≠ .pages)
    (hs : s ≠ .pages) (hss : ss <+: [writeDataSummaries inp t s false, commitStore inp t t s])
    (hrun : exec Instr.step m ((bnvmHeader crc32 inp s t).map Instr.store
      ++ [Instr.check fun m => isSetCkptFlags (m s) cpCompactSumFlag]
      ++ ss.map Instr.store) = some m') :
    LaterHeader c (m' s) ∧ m' .pages = m .pages := by
  rw [List.append_assoc, exec_append_eq_bind, exec_stores, Option.bind_some,
    List.singleton_append, exec_check, exec_stores, Option.ite_none_right_eq_some,
    Option.some.injEq] at hrun
  obtain ⟨-, rfl⟩ := hrun
  have hkept : ∀ k, k < 32 ∨ 144 ≤ k ∧ k < 168 →
      runStores (runStores m (bnvmHeader crc32 inp s t)) ss s k = m s k := by
    intro k hk
    have hlt : k < blockSize * (1 + l.cpPayload) :=
      lt_trans (by unfold bitmapStart; omega) (bitmapStart_lt_payload l)
    rw [bnvm_rest_of_lt hss hlt, ((run_bnvmHeader crc32 (hasReason_umount hreason)).1 k hlt).1]
    exact bnvmPackHeader_of_kept h.placed hk
  constructor
  · refine h.of_fixed (fun k hk => hkept k (by omega)) (le_of_eq ?_)
    exact (getLe_congr fun k hk => hkept (0 + k) (by omega)).symm
  · rw [runStores_other, runStores_other]
    · intro st hst
      have hregion : st.region = t ∨ st.region = s := by
        simp only [bnvmHeader, recordCursegs, updateCkptFlags, storeBitmaps, copyHeader,
          List.mem_append, List.mem_map, List.mem_cons, List.not_mem_nil, or_false] at hst
        rcases hst with ((((((⟨p, -, rfl⟩ | rfl | rfl) | hst) | rfl) | rfl | rfl) | rfl) | ⟨i, -, rfl⟩)
          | rfl
        · exact Or.inl rfl
        · exact Or.inl rfl
        · exact Or.inl rfl
        · rcases hst with rfl | rfl | rfl | rfl | rfl | rfl | rfl | rfl <;> exact Or.inr rfl
        · exact Or.inl rfl
        · exact Or.inr rfl
        · exact Or.inr rfl
        · exact Or.inl rfl
        · exact Or.inl rfl
        · exact Or.inl rfl
      rcases hregion with hr | hr <;> rw [hr]
      · exact ht.symm
      · exact hs.symm
    · intro st hst
      have hmem := hss.subset hst
      simp only [List.mem_cons, List.not_mem_nil, or_false] at hmem
      rcases hmem with rfl | rfl <;> exact ht.symm

lemma dropLast_bnvmDoCheckpoint :
    (bnvmDoCheckpoint crc32 inp s t).dropLast
      = (bnvmHeader crc32 inp s t).map Instr.store
        ++ [Instr.check fun m => isSetCkptFlags (m s) cpCompactSumFlag]
        ++ [writeDataSummaries inp t s false].map Instr.store := by
  rw [bnvmDoCheckpoint, List.map_cons, List.dropLast_append_of_ne_nil (by simp)]
  rfl

variable (crc32 inp m) in
/-- The memory when `do_checkpoint` has filled its pages: the header is the one of the pack. -/
lemma filled_header (hs : s ≠ .pages) :
    runStores m (doHeader crc32 inp s ++ doPages crc32 inp s) s = packHeader crc32 inp (m s) := by
  rw [runStores_append, runStores_other, run_doHeader, Function.update_self, packHeader]
  intro st hst
  have hregion : st.region = .pages := by
    simp only [doPages, doBlocks, copyHeader, List.mem_append, List.mem_map, List.mem_cons,
      List.not_mem_nil, or_false] at hst
    rcases hst with rfl | ⟨i, -, rfl⟩ | rfl | rfl | rfl <;> rfl
  rw [hregion]
  exact hs

lemma filled_blocks (hs : s ≠ .pages) (hc : CrcPlaced (m s)) :
    packBlocks inp (allocType (runStores m (doHeader crc32 inp s ++ doPages crc32 inp s) s))
      = livePackBlocks inp := by
  rw [filled_header crc32 inp m hs]
  exact packBlocks_congr (allocType_packHeader hc)

lemma commit_filled :
    (commitStore inp .pages s s).run (runStores m (doHeader crc32 inp s ++ doPages crc32 inp s)) .pages
      = doPack crc32 inp s m := by
  simp only [doPack, doCheckpoint, runStores_append, runStores_cons, runStores_nil]

/-- The commit writes the last block only. -/
lemma filled_block (hs : s ≠ .pages) (hc : CrcPlaced (m s)) {i k : ℕ} (hi : i ≠ livePackBlocks inp - 1)
    (hk : k < blockSize) :
    packRead (doPack crc32 inp s m) i k
      = packRead (runStores m (doHeader crc32 inp s ++ doPages crc32 inp s) .pages) i k := by
  rw [packRead, packRead, ← commit_filled]
  refine (congrFun Store.run_same _).trans (overlay_of_not_covered ?_)
  rintro ⟨p, hp, hcov⟩
  obtain rfl := List.mem_singleton.mp hp
  unfold Patch.Covers at hcov
  simp only [filled_blocks hs hc] at hcov
  -- two different blocks do not meet
  rcases Nat.lt_or_gt_of_ne hi with hlt | hgt
  · have := Nat.mul_le_mul_left blockSize hlt
    rw [Nat.mul_succ] at this
    omega
  · have := Nat.mul_le_mul_left blockSize hgt
    rw [Nat.mul_succ] at this
    omega

end Writers

/-! ## What a step keeps -/

section Disk

variable {d : Disk} {p : CpPack} {pages : Area} {sel : ℕ → Bool} {i : ℕ}

lemma landPages_same (hi : i < blocksPerSeg) :
    diskRead l (landPages l d p pages sel) p i
      = if sel i = true then packRead pages i else diskRead l d p i := by
  unfold diskRead landPages
  rw [diskAddr l p hi, Nat.add_sub_cancel_left]
  by_cases hsel : sel i = true
  · rw [if_pos hsel, if_pos ⟨Nat.le_add_right _ _, by omega, hsel⟩]
  · rw [if_neg hsel, if_neg fun h => hsel h.2.2]

lemma landPages_other (hi : i < blocksPerSeg) :
    diskRead l (landPages l d p.next pages sel) p i = diskRead l d p i := by
  unfold diskRead landPages
  rw [diskAddr l p hi, if_neg]
  rintro ⟨hlo, hhi, -⟩
  cases p with
  | one =>
      simp only [CpPack.next, startCpAddr] at hlo hhi
      omega
  | two =>
      simp only [CpPack.next, startCpAddr] at hlo hhi
      omega

end Disk

section Steps

variable {x : Volume l} {inp : CpInput l}

/-- Between two calls, NVM may change as long as the header stays a later one. -/
lemma Recoverable.withMem (h : Recoverable crc32 x) {m : CpMem} (hfree : x.writing = none)
    (hpages : m .pages = x.mem .pages) (hheader : LaterHeader x.committed.bytes (m (.nvm x.ckpt))) :
    Recoverable crc32 { x with mem := m } where
  current := h.current
  pack := h.pack
  curOlder := h.curOlder
  nextOlder := h.nextOlder
  nextHead := h.nextHead
  pagesOlder := by
    simp only [hpages]
    exact h.pagesOlder
  pagesHead := by
    simp only [hpages]
    exact h.pagesHead
  header := hheader
  writing := by
    intro inp hinp
    rw [hfree] at hinp
    exact absurd hinp (by simp)

lemma writing_of_free (h : x.free = true) : x.writing = none := by
  simp only [Volume.free, Bool.and_eq_true, Option.isNone_iff_eq_none] at h
  exact h.1

lemma Recoverable.prepared (h : Recoverable crc32 x) (hfree : x.writing = none) :
    Recoverable crc32 { x with mem := runStores x.mem (prepareCpBlock inp (.nvm x.ckpt)) } := by
  apply h.withMem hfree
  · rw [prepared_header, Function.update_of_ne (by simp)]
  · rw [prepared_header, Function.update_self]
    exact h.header.of_fixed counted_fixed (le_of_eq counted_version.symm)

lemma Recoverable.bumped (h : Recoverable crc32 x) (hfree : x.writing = none)
    (hver : curCpVersion x.header + 1 < 2 ^ 63) :
    Recoverable crc32 { x with mem := x.bumped inp } :=
  h.withMem hfree bumped_pages (h.header.bumped hver)

lemma Recoverable.bnvmFail (h : Recoverable crc32 x) (hfree : x.writing = none)
    (hreason : remainNodeSummaries inp.reason = false) (hver : curCpVersion x.header + 1 < 2 ^ 63)
    {e : BnvmError} {m : CpMem}
    (hrun : exec Instr.step (x.bumped inp)
      (match e with
      | .sync => []
      | .flush => (bnvmDoCheckpoint crc32 inp (.nvm x.ckpt) (.nvm x.cur.next)).dropLast
      | .afterCommit => bnvmDoCheckpoint crc32 inp (.nvm x.ckpt) (.nvm x.cur.next)) = some m) :
    Recoverable crc32 { x with mem := m } := by
  have hkeeps : LaterHeader x.committed.bytes (m (.nvm x.ckpt)) ∧ m .pages = x.bumped inp .pages := by
    cases e with
    | sync =>
        obtain rfl := Option.some.inj hrun
        exact ⟨h.header.bumped hver, rfl⟩
    | flush =>
        dsimp only at hrun
        rw [dropLast_bnvmDoCheckpoint] at hrun
        exact bnvm_keeps hreason (h.header.bumped hver) (by simp) (by simp)
          (List.prefix_append _ [_]) hrun
    | afterCommit =>
        dsimp only at hrun
        rw [bnvmDoCheckpoint] at hrun
        exact bnvm_keeps hreason (h.header.bumped hver) (by simp) (by simp) List.prefix_rfl hrun
  exact h.withMem hfree (hkeeps.2.trans bumped_pages) hkeeps.1

/-- The head of the pages counts on a last block inside the pack. -/
lemma filled_total {m : CpMem} {s : CpRegion} (hs : s ≠ .pages) (hc : CrcPlaced (m s)) :
    cpPackTotalBlockCount
        (packRead (runStores m (doHeader crc32 inp s ++ doPages crc32 inp s) .pages) 0)
      = livePackBlocks inp := by
  have hge := livePackBlocks_ge inp
  have htotal : cpPackTotalBlockCount (doPack crc32 inp s m) = livePackBlocks inp :=
    cpPackTotalBlockCount_doPack hs hc
  rw [← htotal]
  refine getLe_congr fun k hk => ?_
  rw [← filled_block hs hc (by omega) (by unfold blockSize; omega), packRead, Nat.mul_zero,
    Nat.zero_add]

/-- What a call is writing when it has begun. -/
lemma Filled.begin (h : Recoverable crc32 x) (hfree : x.free = true)
    (hver : curCpVersion x.header + 1 < 2 ^ 63) (horphans : inp.orphans = []) :
    Filled crc32
      { x with
        mem := x.filled crc32 inp
        pending := x.pendingAfter crc32 inp
        writing := some inp } inp (x.bumped inp) where
  mem := by rw [Volume.filled]
  header := h.header.bumped hver
  later := by
    rw [bumped_version hver]
    exact Nat.lt_succ_of_le h.header.version
  version := by
    rw [bumped_version hver]
    exact hver
  noError := by
    rw [bumped_flags]
    simp only [Volume.free, Bool.and_eq_true, Bool.not_eq_true'] at hfree
    exact hfree.2
  noOrphans := horphans
  pending := by
    intro i hi
    simp only [Volume.header] at hi
    simp only [Volume.pendingAfter, fillsPage, decide_eq_true hi, Bool.true_or, Bool.or_true]

lemma Recoverable.begin (h : Recoverable crc32 x) (hfree : x.free = true)
    (hsafe : SafeStep crc32 x (.begin inp)) :
    Recoverable crc32
      { x with
        mem := x.filled crc32 inp
        pending := x.pendingAfter crc32 inp
        writing := some inp } := by
  rw [SafeStep] at hsafe
  obtain ⟨horphans, hver, holder⟩ := hsafe
  have hbumped : LaterHeader x.committed.bytes (x.bumped inp (.nvm x.ckpt)) := h.header.bumped hver
  have hheader : LaterHeader x.committed.bytes (x.filled crc32 inp (.nvm x.ckpt)) := by
    rw [Volume.filled, filled_header crc32 inp (x.bumped inp) (by simp)]
    exact hbumped.packHeader
  have htotal : cpPackTotalBlockCount (packRead (x.filled crc32 inp .pages) 0)
      = livePackBlocks inp := by
    rw [Volume.filled]
    exact filled_total (by simp) hbumped.placed
  have hle : livePackBlocks inp ≤ blocksPerSeg := packBlocks_le inp (liveTypes inp)
  refine ⟨h.current, h.pack, h.curOlder, h.nextOlder, h.nextHead, ?_, ?_, ?_, ?_⟩
  · dsimp only
    exact holder
  · intro _
    rw [htotal]
    exact ⟨livePackBlocks_ge inp, hle⟩
  · simp only [Volume.header]
    exact hheader
  · intro inp' hinp'
    obtain rfl := Option.some.inj hinp'
    exact ⟨x.bumped inp, Filled.begin h hfree hver horphans⟩

/-- A page that lands is one that was waiting. -/
lemma Recoverable.land (h : Recoverable crc32 x) {i : ℕ} (hpending : x.pending i = true) :
    Recoverable crc32
      { x with disk := landPages l x.disk x.cur.next (x.mem .pages) fun j => j == i } := by
  have hle := h.pack.le
  exact
    { current := by
        intro j hj k hk
        rw [landPages_other (lt_of_lt_of_le hj hle)]
        exact h.current j hj k hk
      pack := h.pack
      curOlder := by
        intro j hlo hhi w hw
        rw [landPages_other hhi] at hw
        exact h.curOlder j hlo hhi w hw
      nextOlder := by
        intro j hlo hhi w hw
        rw [landPages_same hhi] at hw
        split at hw
        · next hji =>
            obtain rfl := beq_iff_eq.mp hji
            exact h.pagesOlder j hlo hhi hpending w hw
        · exact h.nextOlder j hlo hhi w hw
      nextHead := by
        intro w hw
        rw [landPages_same (by decide)] at hw ⊢
        split at hw
        · next hji =>
            obtain rfl := beq_iff_eq.mp hji
            rw [if_pos (by simp)]
            exact Or.inr (h.pagesHead hpending)
        · next hji =>
            rw [if_neg hji]
            exact h.nextHead w hw
      pagesOlder := h.pagesOlder
      pagesHead := h.pagesHead
      header := h.header
      writing := by
        intro inp hinp
        obtain ⟨m, hm⟩ := h.writing inp hinp
        exact ⟨m, hm.mem, hm.header, hm.later, hm.version, hm.noError, hm.noOrphans, hm.pending⟩ }

/-! ## The commit -/

/-- A field of the pack that `do_checkpoint` stored. -/
lemma getLe_doPack {m : CpMem} {s : CpRegion} (hs : s ≠ .pages) (hc : CrcPlaced (m s)) {off w v : ℕ}
    (hp : putLe off w v ∈ fieldPatches inp) (hv : v < 256 ^ w) :
    getLe (doPack crc32 inp s m) off w = v := by
  have hplace := fieldPatches_fields _ hp
  simp only [putLe_off, putLe_len] at hplace
  have hbm := bitmapStart_lt_payload l
  have hlow : getLe (doPack crc32 inp s m) off w = getLe (packHeader crc32 inp (m s)) off w :=
    getLe_congr fun k hk => doPack_of_lt hs (by unfold bitmapStart at hbm; omega)
  rw [hlow, quiet_putLe_iff.mp (quiet_packHeader hc hp), Nat.mod_eq_of_lt hv]

lemma doPack_of_kept {m : CpMem} {s : CpRegion} (hs : s ≠ .pages) (hc : CrcPlaced (m s)) {k : ℕ}
    (hk : k < 32 ∨ 144 ≤ k ∧ k < 168) : doPack crc32 inp s m k = m s k := by
  have hbm := bitmapStart_lt_payload l
  rw [doPack_of_lt hs (by unfold bitmapStart at hbm; omega)]
  exact packHeader_of_kept hc hk

lemma noError_doPack {m : CpMem} {s : CpRegion} (hs : s ≠ .pages) (hc : CrcPlaced (m s))
    (herr : isSetCkptFlags (m s) cpErrorFlag = false) :
    isSetCkptFlags (doPack crc32 inp s m) cpErrorFlag = false := by
  have hbm := bitmapStart_lt_payload l
  have hkept : KeepsFlags cpErrorFlag (doFlags inp) :=
    keepsFlags_doFlags (List.forall_iff_forall_mem.mp (by decide +kernel)) (by decide +kernel)
      (by decide +kernel)
  rw [isSetCkptFlags_congr fun k hk => doPack_of_lt hs (lt_trans hk hbm),
    isSetCkptFlags_eq hkept (ckptFlags_packHeader hc), herr]

/-- `f2fs_sanity_check_ckpt` looks at the reserved segments, the log heads and the error flag. -/
lemma saneCkpt_of_fields {a b : Area} (hrsvd : rsvdSegmentCount b = rsvdSegmentCount a)
    (hovp : overprovSegmentCount b = overprovSegmentCount a)
    (hnode : ∀ i < 3, curNodeSegno b i < l.segmentCountMain ∧ curNodeBlkoff b i < blocksPerSeg)
    (hdata : ∀ i < 3, curDataSegno b i < l.segmentCountMain ∧ curDataBlkoff b i < blocksPerSeg)
    (herr : isSetCkptFlags b cpErrorFlag = false) (ha : saneCkpt l a = true) :
    saneCkpt l b = true := by
  unfold saneCkpt at ha ⊢
  simp only [Bool.and_eq_true, decide_eq_true_iff, List.all_eq_true, List.mem_range, hrsvd, hovp,
    herr, Bool.not_false, and_true] at ha ⊢
  exact ⟨⟨ha.1.1.1, hnode⟩, hdata⟩

section Committed

variable {m : CpMem}

lemma version_doPack {s : CpRegion} (hs : s ≠ .pages) (hc : CrcPlaced (m s)) :
    curCpVersion (doPack crc32 inp s m) = curCpVersion (m s) :=
  getLe_congr fun k hk => doPack_of_kept hs hc (by omega)

lemma placed_doPack {s : CpRegion} (hs : s ≠ .pages) (hc : CrcPlaced (m s)) :
    CrcPlaced (doPack crc32 inp s m) :=
  hc.congr (getLe_congr fun k hk => doPack_of_kept hs hc (by omega))

lemma start_doPack {s : CpRegion} (hs : s ≠ .pages) (hc : CrcPlaced (m s))
    (horphans : inp.orphans = []) : cpPackStartSum (doPack crc32 inp s m) = 1 + l.cpPayload := by
  have hfit := l.payload_fits
  have hstart : 1 + l.cpPayload + orphanBlocks inp = 1 + l.cpPayload := by
    rw [orphanBlocks, horphans]
    rfl
  have hmem : putLe 140 4 (1 + l.cpPayload) ∈ fieldPatches inp := by
    rw [← hstart]
    simp [fieldPatches, sharedPatches, startSumPatch]
  refine getLe_doPack hs hc hmem ?_
  unfold blocksPerSeg at hfit
  omega

/-- The places of the six log heads in a header. -/
lemma log_mem (i : Fin 3) :
    (putLe (36 + 4 * i) 4 (inp.curseg (i.natAdd 3)).segno ∈ fieldPatches inp
        ∧ putLe (68 + 2 * i) 2 (inp.curseg (i.natAdd 3)).nextBlkoff ∈ fieldPatches inp)
      ∧ putLe (84 + 4 * i) 4 (inp.curseg (i.castAdd 3)).segno ∈ fieldPatches inp
        ∧ putLe (116 + 2 * i) 2 (inp.curseg (i.castAdd 3)).nextBlkoff ∈ fieldPatches inp := by
  have hall : ∀ j : Fin 6, ∀ segnoOff blkoffOff : ℕ,
      (∀ p ∈ logPatches inp segnoOff blkoffOff j, p ∈ fieldPatches inp) →
        putLe segnoOff 4 (inp.curseg j).segno ∈ fieldPatches inp
          ∧ putLe blkoffOff 2 (inp.curseg j).nextBlkoff ∈ fieldPatches inp := fun j _ _ h =>
    ⟨h _ (by simp [logPatches]), h _ (by simp [logPatches])⟩
  rcases i with ⟨_ | _ | _ | i, hi⟩
  · exact ⟨hall 3 36 68 fun p hp => by simp [fieldPatches, sharedPatches, cursegPatches, hp],
      hall 0 84 116 fun p hp => by simp [fieldPatches, sharedPatches, cursegPatches, hp]⟩
  · exact ⟨hall 4 40 70 fun p hp => by simp [fieldPatches, sharedPatches, cursegPatches, hp],
      hall 1 88 118 fun p hp => by simp [fieldPatches, sharedPatches, cursegPatches, hp]⟩
  · exact ⟨hall 5 44 72 fun p hp => by simp [fieldPatches, sharedPatches, cursegPatches, hp],
      hall 2 92 120 fun p hp => by simp [fieldPatches, sharedPatches, cursegPatches, hp]⟩
  · omega

lemma sane_doPack {s : CpRegion} {c : Area} (hs : s ≠ .pages) (hc : LaterHeader c (m s))
    (herr : isSetCkptFlags (m s) cpErrorFlag = false) (hsane : saneCkpt l c = true) :
    saneCkpt l (doPack crc32 inp s m) = true := by
  have hmain := l.main_lt
  have hlog : ∀ (i : Fin 6) (segnoOff blkoffOff : ℕ),
      putLe segnoOff 4 (inp.curseg i).segno ∈ fieldPatches inp
        ∧ putLe blkoffOff 2 (inp.curseg i).nextBlkoff ∈ fieldPatches inp →
      getLe (doPack crc32 inp s m) segnoOff 4 < l.segmentCountMain
        ∧ getLe (doPack crc32 inp s m) blkoffOff 2 < blocksPerSeg := by
    rintro i segnoOff blkoffOff ⟨hsegno, hblkoff⟩
    have hseg := (inp.curseg i).segno_lt
    have hoff := (inp.curseg i).blkoff_lt
    rw [getLe_doPack hs hc.placed hsegno (by omega),
      getLe_doPack hs hc.placed hblkoff (lt_trans hoff (by decide))]
    exact ⟨hseg, hoff⟩
  refine saneCkpt_of_fields (a := c) ?_ ?_ ?_ ?_ (noError_doPack hs hc.placed herr) hsane
  · rw [← hc.rsvd]
    exact getLe_congr fun k hk => doPack_of_kept hs hc.placed (by omega)
  · rw [← hc.overprov]
    exact getLe_congr fun k hk => doPack_of_kept hs hc.placed (by omega)
  · intro i hi
    exact hlog _ _ _ (log_mem ⟨i, hi⟩).1
  · intro i hi
    exact hlog _ _ _ (log_mem ⟨i, hi⟩).2

/-- **The pack of a commit is a good one.** -/
lemma Filled.goodPack {c : PackContent} (h : Recoverable crc32 x) (hm : Filled crc32 x inp m)
    (hblocks : c.blocks = livePackBlocks inp) (hbytes : c.bytes = doPack crc32 inp (.nvm x.ckpt) m) :
    GoodPack crc32 l c := by
  have hs : CpRegion.nvm x.ckpt ≠ .pages := by simp
  have hc := hm.header.placed
  have hver : curCpVersion c.bytes = curCpVersion (m (.nvm x.ckpt)) := by
    rw [hbytes]
    exact version_doPack hs hc
  constructor
  · rw [hbytes, hblocks]
    exact cpPackTotalBlockCount_doPack hs hc
  · rw [hblocks]
    exact livePackBlocks_ge inp
  · rw [hblocks]
    exact packBlocks_le inp (liveTypes inp)
  · rw [hver, hbytes]
    exact doPack_validates hs hc
  · rw [hver]
    exact hm.version
  · rw [hbytes]
    exact placed_doPack hs hc
  · rw [hbytes]
    exact start_doPack hs hc hm.noOrphans
  · rw [hbytes]
    exact sane_doPack hs hm.header hm.noError h.pack.sane

/-- The blocks of the other pack after the commit: what was waiting, the last block, and what was
there. -/
lemma commitDisk_next (hm : Filled crc32 x inp m) {i : ℕ} (hi : i < blocksPerSeg) :
    diskRead l (x.commitDisk inp) x.cur.next i
      = if x.pending i = true ∨ i = livePackBlocks inp - 1 then
          packRead (doPack crc32 inp (.nvm x.ckpt) m) i
        else diskRead l x.disk x.cur.next i := by
  have hmem : x.commitMem inp .pages = doPack crc32 inp (.nvm x.ckpt) m := by
    rw [Volume.commitMem, hm.mem, commit_filled]
  have hblocks : packBlocks inp (allocType x.header) = livePackBlocks inp := by
    rw [Volume.header, hm.mem]
    exact filled_blocks (by simp) hm.header.placed
  rw [Volume.commitDisk, landPages_same hi, hmem, hblocks]
  by_cases hsel : x.pending i = true ∨ i = livePackBlocks inp - 1
  · rw [if_pos hsel, if_pos (by simpa using hsel)]
  · rw [if_neg hsel, if_neg (by simpa using hsel)]

/-- **After a commit the two packs have changed places.** -/
lemma Recoverable.commit {y : Volume l} (h : Recoverable crc32 x) (hm : Filled crc32 x inp m)
    (hdisk : y.disk = x.commitDisk inp) (hmem : y.mem = x.commitMem inp) (hckpt : y.ckpt = x.ckpt)
    (hcur : y.cur = x.cur.next) (hpending : ∀ i, y.pending i = false) (hwriting : y.writing = none)
    (hblocks : y.committed.blocks = packBlocks inp (allocType x.header))
    (hbytes : y.committed.bytes = x.commitMem inp .pages) : Recoverable crc32 y := by
  have hs : CpRegion.nvm x.ckpt ≠ .pages := by simp
  have hc := hm.header.placed
  have hge := livePackBlocks_ge inp
  have hle : livePackBlocks inp ≤ blocksPerSeg := packBlocks_le inp (liveTypes inp)
  have hn : y.committed.blocks = livePackBlocks inp := by
    rw [hblocks, Volume.header, hm.mem]
    exact filled_blocks hs hc
  have hpack : y.committed.bytes = doPack crc32 inp (.nvm x.ckpt) m := by
    rw [hbytes, Volume.commitMem, hm.mem, commit_filled]
  have hver : curCpVersion x.committed.bytes < curCpVersion y.committed.bytes := by
    rw [hpack, version_doPack hs hc]
    exact hm.later
  have hpend : ∀ i < livePackBlocks inp - 1, x.pending i = true := by
    intro i hi
    rw [← hn, hblocks] at hi
    exact hm.pending i hi
  have hold : ∀ i < blocksPerSeg, diskRead l y.disk y.cur.next i = diskRead l x.disk x.cur i := by
    intro i hi
    rw [hdisk, hcur, CpPack.next_next, Volume.commitDisk, landPages_other hi]
  exact
    { current := by
        intro i hi k hk
        rw [hn] at hi
        have hsel : x.pending i = true ∨ i = livePackBlocks inp - 1 := by
          rcases Nat.lt_or_ge i (livePackBlocks inp - 1) with hlt | hlast
          · exact Or.inl (hpend i hlt)
          · exact Or.inr (by omega)
        rw [hdisk, hcur, commitDisk_next hm (by omega), if_pos hsel, hpack]
        rfl
      pack := hm.goodPack h hn hpack
      curOlder := by
        intro i hlo hhi w hw
        rw [hdisk, hcur, commitDisk_next hm hhi] at hw
        by_cases hlast : i = livePackBlocks inp - 1
        · -- the copy of the header
          simp only [hlast, or_true, if_true] at hw
          have hfoot : ∀ k < blockSize, packRead (doPack crc32 inp (.nvm x.ckpt) m)
              (livePackBlocks inp - 1) k = packHeader crc32 inp (m (.nvm x.ckpt)) k := fun k hk =>
            doPack_footer hs hc hk
          rw [getCheckpointVersion_congr hfoot, getCheckpointVersion_packHeader hc] at hw
          rw [hpack, version_doPack hs hc]
          exact le_of_eq (Option.some.inj hw).symm
        · by_cases hwait : x.pending i = true
          · simp only [hwait, true_or, if_true] at hw
            rw [getCheckpointVersion_congr fun k hk => filled_block hs hc hlast hk, ← hm.mem] at hw
            exact le_of_lt (lt_trans (h.pagesOlder i hlo hhi hwait w hw) hver)
          · simp only [hwait, hlast, Bool.false_eq_true, or_self, if_false] at hw
            exact le_of_lt (lt_trans (h.nextOlder i hlo hhi w hw) hver)
      nextOlder := by
        intro i hlo hhi w hw
        rw [hold i hhi] at hw
        exact lt_of_le_of_lt (h.curOlder i hlo hhi w hw) hver
      nextHead := by
        intro w hw
        rw [hold 0 (by decide)] at hw
        have hhead : curCpVersion (diskRead l x.disk x.cur 0) = curCpVersion x.committed.bytes :=
          getLe_congr fun k hk => h.head (0 + k) (by unfold blockSize; omega)
        rw [version_of_getCheckpointVersion hw, hhead]
        exact Or.inl hver
      pagesOlder := by
        intro i _ _ hwait
        rw [hpending i] at hwait
        exact absurd hwait (by simp)
      pagesHead := by
        intro hwait
        rw [hpending 0] at hwait
        exact absurd hwait (by simp)
      header := by
        have hheader : y.header = packHeader crc32 inp (m (.nvm x.ckpt)) := by
          rw [Volume.header, hmem, hckpt, Volume.commitMem, Store.run_other (by exact hs), hm.mem,
            filled_header crc32 inp m hs]
        rw [hheader, hpack]
        have hkept : ∀ k, k < 32 ∨ 144 ≤ k ∧ k < 168 →
            packHeader crc32 inp (m (.nvm x.ckpt)) k = doPack crc32 inp (.nvm x.ckpt) m k := by
          intro k hk
          rw [packHeader_of_kept hc hk, doPack_of_kept hs hc hk]
        have hplaced : CrcPlaced (doPack crc32 inp (.nvm x.ckpt) m) := placed_doPack hs hc
        have hself : LaterHeader (doPack crc32 inp (.nvm x.ckpt) m)
            (doPack crc32 inp (.nvm x.ckpt) m) := ⟨hplaced, le_rfl, rfl, rfl⟩
        refine hself.of_fixed (fun k hk => hkept k (by omega)) (le_of_eq ?_)
        exact (getLe_congr fun k hk => hkept (0 + k) (by omega)).symm
      writing := by
        intro inp' hinp'
        rw [hwriting] at hinp'
        exact absurd hinp' (by simp) }

end Committed

/-- The header a mount leaves is the committed one. -/
lemma Recoverable.crash {y : Volume l} (h : Recoverable crc32 x) {left : CpMem}
    (hdisk : y.disk = x.disk) (hcur : y.cur = x.cur) (hckpt : y.ckpt = x.cur)
    (hmem : y.mem = Function.update left (.nvm x.cur) (movePack l x.disk x.cur (left (.nvm x.cur))))
    (hpending : ∀ i, y.pending i = false) (hwriting : y.writing = none)
    (hcommitted : y.committed = x.committed) : Recoverable crc32 y := by
  have htwo := h.pack.two_le
  have hheader : ∀ k < bitmapStart, y.header k = x.committed.bytes k := by
    intro k hk
    rw [Volume.header, hmem, hckpt, Function.update_self]
    refine h.moved _ (lt_of_lt_of_le hk (le_trans ?_ (Nat.mul_le_mul_left blockSize htwo)))
    decide
  constructor
  · rw [hdisk, hcur, hcommitted]
    exact h.current
  · rw [hcommitted]
    exact h.pack
  · rw [hdisk, hcur, hcommitted]
    exact h.curOlder
  · rw [hdisk, hcur, hcommitted]
    exact h.nextOlder
  · rw [hdisk, hcur, hcommitted]
    exact h.nextHead
  · intro i _ _ hwait
    rw [hpending i] at hwait
    exact absurd hwait (by simp)
  · intro hwait
    rw [hpending 0] at hwait
    exact absurd hwait (by simp)
  · rw [hcommitted]
    have hself : LaterHeader x.committed.bytes x.committed.bytes := ⟨h.pack.placed, le_rfl, rfl, rfl⟩
    refine hself.of_fixed (fun k hk => hheader k (by unfold bitmapStart; omega)) (le_of_eq ?_)
    exact (getLe_congr fun k hk => hheader (0 + k) (by unfold bitmapStart; omega)).symm
  · intro inp hinp
    rw [hwriting] at hinp
    exact absurd hinp (by simp)

/-- **Every safe step keeps the invariant.** -/
lemma Recoverable.step (h : Recoverable crc32 x) {a : VolumeStep l} {y : Volume l}
    (hsafe : SafeStep crc32 x a) (hstep : volumeStep crc32 x a = some y) : Recoverable crc32 y := by
  cases a with
  | early =>
      rw [volumeStep, Option.ite_none_right_eq_some, Option.some.injEq] at hstep
      obtain ⟨-, rfl⟩ := hstep
      exact h
  | prepared inp =>
      rw [volumeStep, Option.ite_none_right_eq_some, Option.some.injEq, Bool.and_eq_true] at hstep
      obtain ⟨⟨hfree, -⟩, rfl⟩ := hstep
      exact h.prepared (writing_of_free hfree)
  | «begin» inp =>
      rw [volumeStep, Option.ite_none_right_eq_some, Option.some.injEq, Bool.and_eq_true] at hstep
      obtain ⟨⟨hfree, -⟩, rfl⟩ := hstep
      exact h.begin hfree hsafe
  | land i =>
      rw [volumeStep, Option.ite_none_right_eq_some, Option.some.injEq, Bool.and_eq_true] at hstep
      obtain ⟨⟨hpending, -⟩, rfl⟩ := hstep
      exact h.land hpending
  | commit =>
      obtain ⟨inp, hinp, rfl⟩ := Option.map_eq_some_iff.mp hstep
      obtain ⟨m, hm⟩ := h.writing inp hinp
      exact h.commit hm rfl rfl rfl rfl (fun _ => rfl) rfl rfl rfl
  | commitFail => exact absurd hsafe (by simp [SafeStep])
  | abort =>
      obtain ⟨inp, -, rfl⟩ := Option.map_eq_some_iff.mp hstep
      exact ⟨h.current, h.pack, h.curOlder, h.nextOlder, h.nextHead, h.pagesOlder, h.pagesHead,
        h.header, fun _ hnone => absurd hnone (by simp)⟩
  | doFail inp =>
      rw [volumeStep, Option.ite_none_right_eq_some, Option.some.injEq, Bool.and_eq_true] at hstep
      obtain ⟨⟨hfree, -⟩, rfl⟩ := hstep
      exact h.bumped (writing_of_free hfree) hsafe
  | bnvm inp => exact absurd hsafe (by simp [SafeStep])
  | bnvmFail inp e =>
      unfold volumeStep at hstep
      rw [Option.ite_none_right_eq_some, Bool.and_eq_true, Bool.not_eq_true'] at hstep
      obtain ⟨⟨hfree, hreason⟩, hstep⟩ := hstep
      obtain ⟨m, hrun, rfl⟩ := Option.map_eq_some_iff.mp hstep
      exact h.bnvmFail (writing_of_free hfree) hreason hsafe hrun
  | crash left =>
      obtain ⟨p, hp, rfl⟩ := Option.map_eq_some_iff.mp hstep
      rw [h.mount, Option.some.injEq] at hp
      subst hp
      exact h.crash rfl rfl rfl rfl (fun _ => rfl) rfl rfl

end Steps

/-! ## The result -/

/-- After a mount of the disk `d` from its pack `p`; `left` is what NVM held. -/
def mountedVolume (l : CpLayout) (d : Disk) (p : CpPack) (left : CpMem) : Volume l where
  disk := d
  mem := Function.update left (.nvm p) (movePack l d p (left (.nvm p)))
  ckpt := p
  cur := p
  pending := fun _ => false
  writing := none
  committed :=
    { blocks := cpPackTotalBlockCount (diskRead l d p 0)
      bytes := diskPack l d p }

/-- A disk to start with: the pack `p` is a good one, and no other block of the two packs passes
for a header that is not older. -/
structure CleanDisk (crc32 : List Byte → BitVec 32) (l : CpLayout) (d : Disk) (p : CpPack) :
    Prop where
  pack : GoodPack crc32 l
    { blocks := cpPackTotalBlockCount (diskRead l d p 0)
      bytes := diskPack l d p }
  older : ∀ i, 1 ≤ i → i < blocksPerSeg → ∀ w,
    getCheckpointVersion crc32 (diskRead l d p i) = some w → w ≤ curCpVersion (diskPack l d p)
  nextOlder : ∀ i < blocksPerSeg, ∀ w,
    getCheckpointVersion crc32 (diskRead l d p.next i) = some w → w < curCpVersion (diskPack l d p)

lemma CleanDisk.recoverable {d : Disk} {p : CpPack} (h : CleanDisk crc32 l d p) (left : CpMem) :
    Recoverable crc32 (mountedVolume l d p left) := by
  -- the state before the mount differs in `mem` and `ckpt` only, so the crash step gives the rest
  set x : Volume l :=
    { mountedVolume l d p left with
      mem := fun _ => diskPack l d p } with hx
  have hself : LaterHeader (diskPack l d p) (diskPack l d p) := ⟨h.pack.placed, le_rfl, rfl, rfl⟩
  have hbefore : Recoverable crc32 x := by
    refine ⟨?_, h.pack, h.older, ?_, ?_, ?_, ?_, hself, ?_⟩
    · intro i _ k hk
      exact (diskPack_block hk).symm
    · intro i _ hi w hw
      exact h.nextOlder i hi w hw
    · intro w hw
      exact Or.inl (h.nextOlder 0 (by decide) w hw)
    · intro i _ _ hwait
      exact absurd hwait (by simp [hx, mountedVolume])
    · intro hwait
      exact absurd hwait (by simp [hx, mountedVolume])
    · intro inp hinp
      exact absurd hinp (by simp [hx, mountedVolume])
  exact hbefore.crash rfl rfl rfl rfl (fun _ => rfl) rfl rfl

/-- **A committed checkpoint survives every crash**, in a run in which every step is safe. -/
theorem committed_survives (crc32 : List Byte → BitVec 32) (d : Disk) (p : CpPack) (left : CpMem)
    (hdisk : CleanDisk crc32 l d p) (as : List (VolumeStep l))
    (h : StepsMeet (volumeStep crc32) (SafeStep crc32) (mountedVolume l d p left) as) :
    Throughout (volumeStep crc32) (Survives crc32) (mountedVolume l d p left) as := by
  have hinv : Throughout (volumeStep crc32) (Recoverable crc32) (mountedVolume l d p left) as :=
    throughout_of_stepsMeet (fun _ _ _ hx hsafe hstep => hx.step hsafe hstep)
      (hdisk.recoverable left) h
  exact hinv.mono fun _ hx => hx.survives

/-! ## A fresh file system -/

/-- A header as the formatter leaves it: version 1, compacted summaries, three blocks. -/
def formattedHeader : Area :=
  storeCrc f2fsCrc32 (overlay (fun _ => 0)
    [putLe 0 8 1, putLe 24 4 2, putLe 28 4 1, putLe 132 4 4, putLe 136 4 3, putLe 140 4 1,
      putLe 164 4 4092])

def formattedDisk : Disk := fun b => if b = 512 ∨ b = 514 then formattedHeader else fun _ => 0

lemma formattedHeader_version : getCheckpointVersion f2fsCrc32 formattedHeader = some 1 := by
  rw [formattedHeader, getCheckpointVersion_storeCrc ⟨by decide, by decide⟩]
  decide

lemma zero_no_version : getCheckpointVersion f2fsCrc32 (fun _ => 0) = none := by decide +kernel

lemma formattedDisk_read {p : CpPack} {i : ℕ} (hi : i < blocksPerSeg) :
    diskRead idleLayout formattedDisk p i
      = if p = .one ∧ (i = 0 ∨ i = 2) then formattedHeader else fun _ => 0 := by
  rw [diskRead, diskAddr idleLayout p hi, formattedDisk]
  refine if_congr ?_ rfl rfl
  unfold blocksPerSeg at hi
  cases p with
  | one =>
      have haddr : startCpAddr idleLayout .one = 512 := rfl
      rw [haddr]
      simp only [true_and]
      omega
  | two =>
      have haddr : startCpAddr idleLayout .two = 1024 := rfl
      rw [haddr]
      simp only [reduceCtorEq, false_and, iff_false]
      omega

lemma formattedDisk_clean : CleanDisk f2fsCrc32 idleLayout formattedDisk .one := by
  have hversion : curCpVersion (diskPack idleLayout formattedDisk .one) = 1 := by decide +kernel
  refine ⟨⟨?_, by decide +kernel, by decide +kernel, ?_, ?_, ⟨by decide +kernel, by decide +kernel⟩,
    by decide +kernel, by decide +kernel⟩, ?_, ?_⟩
  · decide +kernel
  · rw [hversion]
    have hblock : ∀ i, i = 0 ∨ i = 2 → ∀ k < blockSize,
        packRead (diskPack idleLayout formattedDisk .one) i k = formattedHeader k := by
      intro i hi k hk
      rw [packRead, diskPack_block hk, formattedDisk_read (by unfold blocksPerSeg; omega),
        if_pos ⟨rfl, hi⟩]
    refine validateCheckpoint_of_copy (n := 3) (by decide +kernel) (by decide) (by decide) ?_ ?_
    · rw [getCheckpointVersion_congr (hblock 0 (Or.inl rfl))]
      exact formattedHeader_version
    · intro k hk
      exact (hblock 2 (Or.inr rfl) k hk).trans (hblock 0 (Or.inl rfl) k hk).symm
  · rw [hversion]
    decide
  · intro i _ hi w hw
    rw [hversion]
    rw [formattedDisk_read hi] at hw
    split at hw
    · rw [formattedHeader_version] at hw
      exact le_of_eq (Option.some.inj hw).symm
    · rw [zero_no_version] at hw
      exact absurd hw (by simp)
  · intro i hi w hw
    rw [formattedDisk_read hi, if_neg (by simp [CpPack.next]), zero_no_version] at hw
    exact absurd hw (by simp)

/-- A checkpoint at unmount. -/
def umountInput : CpInput idleLayout := { idleInput 0 with reason := cpUmount }

/-- The mounted file system. -/
def formattedMount : Volume idleLayout := mountedVolume idleLayout formattedDisk .one fun _ _ => 0

lemma umount_pages {i : ℕ} (h : formattedMount.pendingAfter f2fsCrc32 umountInput i = true) :
    i < 5 := by
  have hblocks : packBlocks umountInput
      (allocType (formattedMount.filled f2fsCrc32 umountInput (.nvm formattedMount.ckpt))) = 6 := by
    decide +kernel
  simp only [Volume.pendingAfter, fillsPage, Bool.or_eq_true, Bool.and_eq_true,
    decide_eq_true_iff] at h
  rcases h with hfalse | hlt | ⟨⟨-, hge⟩, hlt⟩
  · exact absurd hfalse (by simp [formattedMount, mountedVolume])
  · rw [hblocks] at hlt
    exact hlt
  · have hge : blocksPerSeg - 0 ≤ i := hge
    omega

/-- An unmount: the first page lands early, and the power is lost after the commit. -/
theorem committed_survives_umount :
    Throughout (volumeStep f2fsCrc32) (Survives f2fsCrc32) formattedMount
      [.begin umountInput, .land 0, .commit, .crash fun _ _ => 0] := by
  refine committed_survives f2fsCrc32 formattedDisk .one (fun _ _ => 0) formattedDisk_clean _ ?_
  refine ⟨⟨rfl, by decide +kernel, ?_⟩, fun _ _ => ⟨trivial, fun _ _ => ⟨trivial, fun _ _ =>
    ⟨trivial, fun _ _ => trivial⟩⟩⟩⟩
  intro i hlo _ hpending w hw
  have hlt : i < 5 := umount_pages hpending
  have hnone : ∀ j : Fin 4, getCheckpointVersion f2fsCrc32
      (packRead (formattedMount.filled f2fsCrc32 umountInput .pages) (1 + j)) = none := by
    decide +kernel
  have hpage := hnone ⟨i - 1, by omega⟩
  rw [show 1 + (i - 1) = i by omega] at hpage
  exact absurd (hpage.symm.trans hw) (by simp)

/-- **A checkpoint in NVM is lost**: the call returns 0, but a mount finds the checkpoint before it
on disk. -/
theorem bnvm_checkpoint_lost :
    CleanDisk f2fsCrc32 idleLayout formattedDisk .one
      ∧ ∃ x, exec (volumeStep f2fsCrc32) formattedMount [.bnvm (idleInput 0)] = some x
        ∧ ¬ Survives f2fsCrc32 x := by
  refine ⟨formattedDisk_clean, ?_⟩
  have hrun : (exec (volumeStep f2fsCrc32) formattedMount [.bnvm (idleInput 0)]).map
      (fun x => (x.disk 512 0, x.disk 1024 0, x.committed.bytes 0, x.committed.blocks))
        = some (1, 0, 2, 3) := by
    decide +kernel
  obtain ⟨x, hx, hbytes⟩ := Option.map_eq_some_iff.mp hrun
  simp only [Prod.mk.injEq] at hbytes
  obtain ⟨hone, htwo, hcommitted, hblocks⟩ := hbytes
  refine ⟨x, hx, ?_⟩
  rintro ⟨p, -, hsame⟩
  have h0 : movePack idleLayout x.disk p (fun _ => 0) 0 = 2 := by
    rw [hsame (fun _ => 0) 0 (by rw [hblocks]; decide), hcommitted]
  cases p with
  | one =>
      have hread : movePack idleLayout x.disk .one (fun _ => 0) 0 = x.disk 512 0 := rfl
      rw [hread, hone] at h0
      exact absurd h0 (by decide)
  | two =>
      have hread : movePack idleLayout x.disk .two (fun _ => 0) 0 = x.disk 1024 0 := rfl
      rw [hread, htwo] at h0
      exact absurd h0 (by decide)

end Hoit
