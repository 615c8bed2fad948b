import HoitF2fs.Lib.WriteCache
import HoitF2fs.Nvm.Bio
import HoitF2fs.Segment.FlushMerge

/-!
# Flushes and two kinds of device

`f2fs_issue_flush` and `do_checkpoint` flush the devices of the super block's list.  Which of them,
is decided by dirty bits that `update_device_state` sets for the block's address — before the
redirection, which knows nothing of these bits, has picked the device that gets the write.

**The model.**
* `BlockDevice` of `HoitF2fs.Nvm.Bio` — a device of the list (the first one is `s_bdev`), or NVM.
* `DeviceState` — the mapping table, the dirty bits of each inode and those of the file system, and
  the history of completed writes and flushes.
* `deviceStep` — the steps that touch these.  `update_device_state` is a step of its own, since it
  comes after the bio has been submitted and the write may be complete by then; the table may
  change at any time.
* `Holds` — what a successful `f2fs_issue_flush` and the footer of a checkpoint promise.

`promises_iff` is the endpoint: **the promises hold throughout a run iff every flush finds the
unflushed writes on the devices it flushes**.  NVM is never among those of `f2fs_issue_flush`, and
`s_bdev` never among those of `do_checkpoint`.
-/

namespace Hoit.Durability

open Transition WriteCache

/-! ## Writes -/

/-- A page on its way out: the file it belongs to, and `__is_cp_guaranteed`. -/
structure PageOut where
  ino : ℕ
  cpGuaranteed : Bool

/-- The write of a block, with the device that got it. -/
structure BlockWrite where
  ino : ℕ
  blkAddr : BitVec 32
  dev : BlockDevice
  cpGuaranteed : Bool
  /-- `REQ_FUA`: it is durable when it is complete. -/
  fua : Bool
deriving DecidableEq

variable (l : Layout) (devs : DeviceList)

/-- The device that gets a write bio, set in `__bio_alloc` and changed by `nvm_redirect_bio`. -/
def bioDevice (nsbi : NvmSbInfo) (type : PageType) (vcnt : ℤ) (blkAddr : BitVec 32) :
    BlockDevice :=
  match (nvmRedirectBio l nsbi type false vcnt (f2fsTargetDevice devs blkAddr).2).2.1 with
  | .nvm => .nvm
  | .ssd => .fdev (f2fsTargetDevice devs blkAddr).1

/-- The writes of a bio, whose blocks follow one another. -/
def bioWrites (dev : BlockDevice) (blkAddr : BitVec 32) (pages : List PageOut) (fua : Bool) :
    List BlockWrite :=
  pages.mapIdx fun k p => ⟨p.ino, blkAddr + BitVec.ofNat 32 k, dev, p.cpGuaranteed, fua⟩

/-! ## Promises -/

inductive Promise where
  /-- `f2fs_issue_flush` has returned success for the file. -/
  | fsynced (ino : ℕ)
  /-- The footer of the checkpoint that these blocks belong to is durable. -/
  | committed (blocks : Finset (BitVec 32))
deriving DecidableEq

abbrev History := List (Event BlockWrite BlockDevice Promise)

/-- The file's completed writes are flushed; the checkpoint's completed writes are, and none of
those it waits for (`F2FS_WB_CP_DATA`) is under way. -/
def Holds : Promise → History → Prop
  | .fsynced ino, log =>
      FlushedSince BlockWrite.dev (fun w => w.ino = ino ∧ w.fua = false) log
  | .committed blocks, log =>
      FlushedSince BlockWrite.dev (fun w => w.blkAddr ∈ blocks ∧ w.fua = false) log ∧
        ∀ w ∈ inFlight log, w.cpGuaranteed = true → w.blkAddr ∉ blocks

/-! ## Flushes -/

/-- A loop over `__submit_flush_wait` that stops at the first error: the devices that have been
flushed, and the error. -/
def flushEach (result : ℕ → ℤ) : List ℕ → List ℕ × ℤ
  | [] => ([], 0)
  | i :: is =>
      if result i = 0 then (i :: (flushEach result is).1, (flushEach result is).2)
      else ([], result i)

/-- The devices `submit_flush_wait` flushes; `dirty` is `f2fs_is_dirty_device`. -/
def flushTargets (dirty : ℕ → ℕ → Bool) (ino : ℕ) : List ℕ :=
  if devs.ndevs = 0 then [0] else (List.range devs.ndevs).filter (dirty ino)

/-- The devices `f2fs_flush_device_cache` flushes: its loop starts at 1. -/
def cacheTargets (dirtyDevice : ℕ → Bool) : List ℕ :=
  if devs.ndevs = 0 then []
  else (List.range devs.ndevs).filter fun i => decide (1 ≤ i) && dirtyDevice i

/-! ## Steps -/

structure DeviceState where
  nsbi : NvmSbInfo
  /-- `dirty_device` of the `FLUSH_INO` entries. -/
  inoDirty : ℕ → ℕ → Bool
  /-- `sbi->dirty_device`. -/
  dirtyDevice : ℕ → Bool
  /-- Newest first. -/
  log : History

/-- `__submit_bio` on a write bio. -/
def submitBio (s : DeviceState) (type : PageType) (blkAddr : BitVec 32) (pages : List PageOut)
    (barrier : Bool) : DeviceState :=
  let dev := bioDevice l devs s.nsbi type pages.length blkAddr
  let flushes := if barrier = true then [dev] else []
  { s with
    log := (bioWrites dev blkAddr pages barrier).map .submitted
      ++ (flushes.map .flushed ++ s.log) }

/-- `update_device_state`. -/
def updateDeviceState (s : DeviceState) (ino : ℕ) (newBlkaddr : BitVec 32) : DeviceState :=
  if devs.ndevs = 0 then s
  else
    { s with
      inoDirty := Function.update s.inoDirty ino
        (Function.update (s.inoDirty ino) (f2fsTargetDeviceIndex devs newBlkaddr) true)
      dirtyDevice := Function.update s.dirtyDevice (f2fsTargetDeviceIndex devs newBlkaddr) true }

/-- `f2fs_issue_flush`, made for `ino` by a party that answers the calls of `served`. -/
def f2fsIssueFlush (s : DeviceState) (ino : ℕ) (served : List ℕ) (result : ℕ → ℤ) :
    DeviceState :=
  let out := flushEach result (flushTargets devs s.inoDirty ino)
  let log := (out.1.map .fdev).map .flushed ++ s.log
  { s with log := if out.2 = 0 then (served.map .fsynced).map .promised ++ log else log }

/-- `do_checkpoint` from `f2fs_flush_device_cache` on.  `footer` says whether the write of the
footer, a bio of type `META_FLUSH` with `REQ_PREFLUSH | REQ_FUA`, succeeds. -/
def doCheckpoint (s : DeviceState) (blocks : Finset (BitVec 32)) (startBlk : BitVec 32)
    (result : ℕ → ℤ) (footer : Bool) : DeviceState :=
  let out := flushEach result (cacheTargets devs s.dirtyDevice)
  let log := (out.1.map .fdev).map .flushed ++ s.log
  let s' := { s with dirtyDevice := fun i => s.dirtyDevice i && !out.1.contains i, log := log }
  if out.2 = 0 then
    { s' with
      -- `f2fs_release_ino_entry`
      inoDirty := fun _ _ => false
      log :=
        if footer = true then
          .promised (.committed blocks) ::
            .flushed (bioDevice l devs s.nsbi .metadata 1 startBlk) :: log
        else log }
  else s'

inductive DeviceLabel where
  /-- The mapping table changes. -/
  | remap (nsbi : NvmSbInfo)
  /-- `barrier` stands for `REQ_PREFLUSH | REQ_FUA`, as the last node of an atomic commit has. -/
  | submitBio (type : PageType) (blkAddr : BitVec 32) (pages : List PageOut) (barrier : Bool)
  | writeEnd (w : BlockWrite)
  | updateDeviceState (ino : ℕ) (newBlkaddr : BitVec 32)
  | issueFlush (ino : ℕ) (served : List ℕ) (result : ℕ → ℤ)
  /-- `f2fs_remove_ino_entry`. -/
  | removeInoEntry (ino : ℕ)
  | checkpoint (blocks : Finset (BitVec 32)) (startBlk : BitVec 32) (result : ℕ → ℤ)
      (footer : Bool)

def deviceStep (s : DeviceState) : DeviceLabel → Option DeviceState
  | .remap nsbi => some { s with nsbi := nsbi }
  | .submitBio type blkAddr pages barrier =>
      -- Metadata belongs to no file.
      if type = .metadata then none
      else some (submitBio l devs s type blkAddr pages barrier)
  | .writeEnd w => if w ∈ inFlight s.log then some { s with log := .completed w :: s.log } else none
  | .updateDeviceState ino newBlkaddr => some (updateDeviceState devs s ino newBlkaddr)
  | .issueFlush ino served result =>
      -- With several devices the calls are not merged.
      if served = [ino] ∨ devs.ndevs ≤ 1 then some (f2fsIssueFlush devs s ino served result)
      else none
  | .removeInoEntry ino =>
      some { s with inoDirty := Function.update s.inoDirty ino fun _ => false }
  | .checkpoint blocks startBlk result footer =>
      -- `wait_on_all_pages_writeback`
      if ∀ w ∈ inFlight s.log, w.cpGuaranteed = false then
        some (doCheckpoint l devs s blocks startBlk result footer)
      else none

/-- Nothing has been written. -/
def mountedDevices (nsbi : NvmSbInfo) : DeviceState where
  nsbi := nsbi
  inoDirty := fun _ _ => false
  dirtyDevice := fun _ => false
  log := []

/-- **Durability** in a state: all promises made so far were true. -/
def Durable (s : DeviceState) : Prop := Promises Holds s.log

/-- The condition: a flush that succeeds finds the unflushed writes it answers for on the devices
that are flushed.  For a checkpoint these are NVM, where the footer goes, and the listed ones. -/
def Covered (s : DeviceState) : DeviceLabel → Prop
  | .issueFlush ino served result =>
      (∀ i ∈ flushTargets devs s.inoDirty ino, result i = 0) →
        ∀ w ∈ unflushed BlockWrite.dev s.log, w.ino ∈ served → w.fua = false →
          ∃ i ∈ flushTargets devs s.inoDirty ino, w.dev = .fdev i
  | .checkpoint blocks _ result footer =>
      footer = true → (∀ i ∈ cacheTargets devs s.dirtyDevice, result i = 0) →
        ∀ w ∈ unflushed BlockWrite.dev s.log, w.blkAddr ∈ blocks → w.fua = false →
          w.dev = .nvm ∨ ∃ i ∈ cacheTargets devs s.dirtyDevice, w.dev = .fdev i
  | _ => True

instance coveredDecidable (s : DeviceState) : ∀ a, Decidable (Covered devs s a)
  | .remap _ | .submitBio .. | .writeEnd _ | .updateDeviceState .. | .removeInoEntry _ =>
      isTrue trivial
  | .issueFlush ino served result =>
      inferInstanceAs (Decidable ((∀ i ∈ flushTargets devs s.inoDirty ino, result i = 0) →
        ∀ w ∈ unflushed BlockWrite.dev s.log, w.ino ∈ served → w.fua = false →
          ∃ i ∈ flushTargets devs s.inoDirty ino, w.dev = .fdev i))
  | .checkpoint blocks _ result footer =>
      inferInstanceAs (Decidable (footer = true →
        (∀ i ∈ cacheTargets devs s.dirtyDevice, result i = 0) →
        ∀ w ∈ unflushed BlockWrite.dev s.log, w.blkAddr ∈ blocks → w.fua = false →
          w.dev = .nvm ∨ ∃ i ∈ cacheTargets devs s.dirtyDevice, w.dev = .fdev i))

/-! ## What is flushed -/

variable {l devs}

lemma flushEach_error {result : ℕ → ℤ} :
    ∀ {is : List ℕ}, (flushEach result is).2 = 0 ↔ ∀ i ∈ is, result i = 0
  | [] => by simp [flushEach]
  | i :: is => by
      rw [flushEach, List.forall_mem_cons]
      split_ifs with hi
      · rw [@flushEach_error result is]
        exact ⟨fun h => ⟨hi, h⟩, And.right⟩
      · exact ⟨fun h => absurd h hi, fun h => absurd h.1 hi⟩

/-- Without an error every device is flushed. -/
lemma flushEach_of_ok {result : ℕ → ℤ} :
    ∀ {is : List ℕ}, (∀ i ∈ is, result i = 0) → (flushEach result is).1 = is
  | [], _ => rfl
  | i :: is, h => by
      obtain ⟨hi, his⟩ := List.forall_mem_cons.mp h
      rw [flushEach, if_pos hi, flushEach_of_ok his]

/-- The error is the one of `FlushMerge.submitFlushWait`, which tells it without the devices. -/
theorem flushEach_submitFlushWait (ndevs : ℕ) (e : FlushMerge.FlushEnv) (ino : ℕ) :
    (flushEach e.result (if ndevs = 0 then [0] else (List.range ndevs).filter (e.dirty ino))).2
      = (FlushMerge.submitFlushWait ndevs e ino).2 := by
  -- Once there is an error the loop is over.
  have hstop : ∀ (is : List ℕ) (b : Bool) (r : ℤ), r ≠ 0 →
      (is.foldl (fun x i => if x.2 ≠ 0 ∨ e.dirty ino i = false then x else (true, e.result i))
        (b, r)) = (b, r) := by
    intro is b r hr
    induction is with
    | nil => rfl
    | cons i is ih => rw [List.foldl_cons, if_pos (Or.inl hr), ih]
  have hloop : ∀ (is : List ℕ) (b : Bool),
      (flushEach e.result (is.filter (e.dirty ino))).2
        = (is.foldl (fun x i => if x.2 ≠ 0 ∨ e.dirty ino i = false then x else (true, e.result i))
            (b, (0 : ℤ))).2 := by
    intro is
    induction is with
    | nil => exact fun _ => rfl
    | cons i is ih =>
        intro b
        rw [List.foldl_cons]
        cases hi : e.dirty ino i with
        | false => rw [List.filter_cons_of_neg (by simp [hi]), if_pos (Or.inr rfl), ih]
        | true =>
            have hgo : ¬ ((b, (0 : ℤ)).2 ≠ 0 ∨ true = false) := by simp
            rw [if_neg hgo, List.filter_cons_of_pos hi, flushEach]
            split_ifs with hr
            · rw [hr, ih]
            · rw [hstop is true _ hr]
  rw [FlushMerge.submitFlushWait]
  split_ifs with hn
  · rw [flushEach]
    split_ifs with hr
    · exact hr.symm
    · rfl
  · exact hloop _ false

/-- The footer goes to NVM. -/
lemma bioDevice_metadata (nsbi : NvmSbInfo) (vcnt : ℤ) (blkAddr : BitVec 32) :
    bioDevice l devs nsbi .metadata vcnt blkAddr = .nvm := by
  simp [bioDevice, nvmRedirectBio]

/-! ## Steps and promises -/

lemma holds_promised (m n : Promise) (log : History) :
    Holds m (.promised n :: log) ↔ Holds m log := by
  cases m with
  | fsynced ino => rw [Holds, Holds, flushedSince_iff, flushedSince_iff, unflushed_promised]
  | committed blocks =>
      rw [Holds, Holds, flushedSince_iff, flushedSince_iff, unflushed_promised]
      rfl

lemma mem_fdevs {d : BlockDevice} {is : List ℕ} :
    d ∈ is.map BlockDevice.fdev ↔ ∃ i ∈ is, d = .fdev i := by
  rw [List.mem_map]
  exact exists_congr fun i => and_congr_right fun _ => eq_comm

/-- The promise of `f2fs_issue_flush` after its flushes. -/
lemma holds_fsynced_iff {ino : ℕ} {is : List ℕ} {log : History} :
    Holds (.fsynced ino) ((is.map .fdev).map .flushed ++ log)
      ↔ ∀ w ∈ unflushed BlockWrite.dev log, w.ino = ino → w.fua = false →
          ∃ i ∈ is, w.dev = .fdev i := by
  rw [Holds, flushedSince_flushes]
  exact forall₂_congr fun w _ => by rw [mem_fdevs, and_imp]

/-- The promise of the footer, after the flushes and that of the footer's own device. -/
lemma holds_committed_iff {blocks : Finset (BitVec 32)} {is : List ℕ} {log : History}
    (hwait : ∀ w ∈ inFlight log, w.cpGuaranteed = false) :
    Holds (.committed blocks) (.flushed .nvm :: ((is.map .fdev).map .flushed ++ log))
      ↔ ∀ w ∈ unflushed BlockWrite.dev log, w.blkAddr ∈ blocks → w.fua = false →
          w.dev = .nvm ∨ ∃ i ∈ is, w.dev = .fdev i := by
  have hlog : (.flushed .nvm :: ((is.map .fdev).map .flushed ++ log) : History)
      = (.nvm :: is.map .fdev).map .flushed ++ log := rfl
  have hdone : ∀ w ∈ inFlight log, w.cpGuaranteed = true → w.blkAddr ∉ blocks := by
    intro w hw hcp
    rw [hwait w hw] at hcp
    exact absurd hcp (by simp)
  rw [Holds, hlog, inFlight_flushes, and_iff_left hdone, flushedSince_flushes]
  exact forall₂_congr fun w _ => by rw [List.mem_cons, mem_fdevs, and_imp]

lemma durable_issueFlush {s : DeviceState} {ino : ℕ} {served : List ℕ} {result : ℕ → ℤ}
    (hs : Durable s) :
    Durable (f2fsIssueFlush devs s ino served result)
      ↔ Covered devs s (.issueFlush ino served result) := by
  rw [Durable] at hs
  simp only [Durable, f2fsIssueFlush, Covered, flushEach_error]
  split_ifs with hok
  · rw [promises_promises holds_promised, promises_flushes, and_iff_left hs,
      flushEach_of_ok hok, List.forall_mem_map]
    simp only [holds_fsynced_iff]
    exact ⟨fun h _ w hw hserved hfua => h w.ino hserved w hw rfl hfua,
      fun h ino hino w hw heq hfua => h hok w hw (heq ▸ hino) hfua⟩
  · rw [promises_flushes]
    exact ⟨fun _ h => absurd h hok, fun _ => hs⟩

lemma durable_checkpoint {s : DeviceState} {blocks : Finset (BitVec 32)} {startBlk : BitVec 32}
    {result : ℕ → ℤ} {footer : Bool} (hs : Durable s)
    (hwait : ∀ w ∈ inFlight s.log, w.cpGuaranteed = false) :
    Durable (doCheckpoint l devs s blocks startBlk result footer)
      ↔ Covered devs s (.checkpoint blocks startBlk result footer) := by
  rw [Durable] at hs
  simp only [Durable, doCheckpoint, Covered, flushEach_error, bioDevice_metadata]
  split_ifs with hok hfooter
  · rw [Promises, flushEach_of_ok hok, holds_committed_iff hwait]
    have hrest : Promises Holds (.flushed .nvm ::
        (((cacheTargets devs s.dirtyDevice).map .fdev).map .flushed ++ s.log)) :=
      (promises_flushes _).mpr hs
    rw [and_iff_left hrest]
    exact ⟨fun h _ _ => h, fun h => h hfooter hok⟩
  · rw [promises_flushes]
    exact ⟨fun _ h => absurd h hfooter, fun _ => hs⟩
  · rw [promises_flushes]
    exact ⟨fun _ _ h => absurd h hok, fun _ => hs⟩

/-- **A step keeps the promises iff its flush covers the writes.** -/
lemma durable_step {s s' : DeviceState} {a : DeviceLabel} (hs : Durable s)
    (hstep : deviceStep l devs s a = some s') : Durable s' ↔ Covered devs s a := by
  cases a with
  | remap nsbi =>
      obtain rfl := Option.some.inj hstep
      exact iff_of_true hs trivial
  | submitBio type blkAddr pages barrier =>
      simp only [deviceStep] at hstep
      split_ifs at hstep with htype
      obtain rfl := Option.some.inj hstep
      exact iff_of_true ((promises_submits _).mpr ((promises_flushes _).mpr hs)) trivial
  | writeEnd w =>
      simp only [deviceStep] at hstep
      split_ifs at hstep with hw
      obtain rfl := Option.some.inj hstep
      exact iff_of_true ((promises_completed w).mpr hs) trivial
  | updateDeviceState ino newBlkaddr =>
      obtain rfl := Option.some.inj hstep
      have hlog : (updateDeviceState devs s ino newBlkaddr).log = s.log := by
        rw [updateDeviceState]
        split_ifs <;> rfl
      rw [Durable, hlog]
      exact iff_of_true hs trivial
  | issueFlush ino served result =>
      simp only [deviceStep] at hstep
      split_ifs at hstep with hserved
      obtain rfl := Option.some.inj hstep
      exact durable_issueFlush hs
  | removeInoEntry ino =>
      obtain rfl := Option.some.inj hstep
      exact iff_of_true hs trivial
  | checkpoint blocks startBlk result footer =>
      simp only [deviceStep] at hstep
      split_ifs at hstep with hwait
      obtain rfl := Option.some.inj hstep
      exact durable_checkpoint hs hwait

/-- **When durability holds across both devices.**  The promises made in a run are true iff each
flush finds the unflushed writes it answers for on the devices it flushes. -/
theorem promises_iff {s s' : DeviceState} {as : List DeviceLabel} (hs : Durable s)
    (hrun : exec (deviceStep l devs) s as = some s') :
    Throughout (deviceStep l devs) Durable s as
      ↔ StepsMeet (deviceStep l devs) (Covered devs) s as :=
  throughout_iff_stepsMeet (J := fun _ => True) (fun _ _ _ _ _ => trivial)
    (fun _ _ _ _ hq hstep => durable_step hq hstep) trivial hs hrun

/-! ## Two devices at work -/

/-- One SSD and no device list. -/
def oneSsd : DeviceList := ⟨0, fun _ => 0#32, fun _ => 0#32⟩

/-- A data block of file 3 in SSD segment 0, which is mapped to NVM. -/
def redirectedWrite : BlockWrite := ⟨3, 1536#32, .nvm, false, false⟩

/-- A data block of file 3 in SSD segment 2, which is not. -/
def ssdWrite : BlockWrite := ⟨3, 2560#32, .fdev 0, false, false⟩

/-- A write, and then the flush of `fsync`. -/
def fsyncRun (w : BlockWrite) : List DeviceLabel :=
  [.submitBio .data w.blkAddr [⟨3, false⟩] false, .writeEnd w, .issueFlush 3 [3] fun _ => 0]

/-- A write, and then a checkpoint. -/
def checkpointRun (w : BlockWrite) : List DeviceLabel :=
  [.submitBio .data w.blkAddr [⟨3, false⟩] false, .writeEnd w,
    .checkpoint {w.blkAddr} 512#32 (fun _ => 0) true]

/-- What is redirected survives a checkpoint, and what is not survives an `fsync`. -/
theorem promises_iff_two_runs :
    ∃ s₁ s₂,
      exec (deviceStep boundaryLayout oneSsd) (mountedDevices (boundaryNsbi 1))
          (fsyncRun ssdWrite) = some s₁ ∧
      exec (deviceStep boundaryLayout oneSsd) (mountedDevices (boundaryNsbi 1))
          (checkpointRun redirectedWrite) = some s₂ ∧
      Throughout (deviceStep boundaryLayout oneSsd) Durable (mountedDevices (boundaryNsbi 1))
          (fsyncRun ssdWrite) ∧
      Throughout (deviceStep boundaryLayout oneSsd) Durable (mountedDevices (boundaryNsbi 1))
          (checkpointRun redirectedWrite) := by
  have hsync : (exec (deviceStep boundaryLayout oneSsd) (mountedDevices (boundaryNsbi 1))
      (fsyncRun ssdWrite)).isSome = true := by decide +kernel
  have hckpt : (exec (deviceStep boundaryLayout oneSsd) (mountedDevices (boundaryNsbi 1))
      (checkpointRun redirectedWrite)).isSome = true := by decide +kernel
  obtain ⟨s₁, h₁⟩ := Option.isSome_iff_exists.mp hsync
  obtain ⟨s₂, h₂⟩ := Option.isSome_iff_exists.mp hckpt
  have hstart : Durable (mountedDevices (boundaryNsbi 1)) := by
    show Promises Holds []
    trivial
  refine ⟨s₁, s₂, h₁, h₂, (promises_iff hstart h₁).mpr ?_, (promises_iff hstart h₂).mpr ?_⟩
  · decide +kernel
  · decide +kernel

/-- **Each promise can be false.**  `f2fs_issue_flush` leaves out NVM, and `do_checkpoint` the
SSD. -/
theorem device_left_out :
    ¬ (∀ s, exec (deviceStep boundaryLayout oneSsd) (mountedDevices (boundaryNsbi 1))
        (fsyncRun redirectedWrite) = some s → Durable s) ∧
      ¬ (∀ s, exec (deviceStep boundaryLayout oneSsd) (mountedDevices (boundaryNsbi 1))
        (checkpointRun ssdWrite) = some s → Durable s) := by
  have hsync : (exec (deviceStep boundaryLayout oneSsd) (mountedDevices (boundaryNsbi 1))
        (fsyncRun redirectedWrite)).map (·.log)
      = some [.promised (.fsynced 3), .flushed (.fdev 0), .completed redirectedWrite,
          .submitted redirectedWrite] := by decide +kernel
  have hckpt : (exec (deviceStep boundaryLayout oneSsd) (mountedDevices (boundaryNsbi 1))
        (checkpointRun ssdWrite)).map (·.log)
      = some [.promised (.committed {2560#32}), .flushed .nvm, .completed ssdWrite,
          .submitted ssdWrite] := by decide +kernel
  constructor
  · intro hall
    obtain ⟨s, hs, hlog⟩ := Option.map_eq_some_iff.mp hsync
    have hdurable := hall s hs
    rw [Durable, hlog] at hdurable
    have hnvm := hdurable.1 [.flushed (.fdev 0)] redirectedWrite _ rfl ⟨rfl, rfl⟩
    exact absurd hnvm (by decide)
  · intro hall
    obtain ⟨s, hs, hlog⟩ := Option.map_eq_some_iff.mp hckpt
    have hdurable := hall s hs
    rw [Durable, hlog] at hdurable
    have hssd := hdurable.1.1 [.flushed .nvm] ssdWrite _ rfl
      ⟨Finset.mem_singleton_self _, rfl⟩
    exact absurd hssd (by decide)

end Hoit.Durability
