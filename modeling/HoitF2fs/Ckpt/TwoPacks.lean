import HoitF2fs.Ckpt.Equivalence
import HoitF2fs.Ckpt.Mount

/-!
# Two packs, and which one a checkpoint writes

Two packs are kept so that a checkpoint can be written into one of them while the other still holds
the last one.  In NVM this should be true **between any two stores**: some pack is accepted by
`validate_checkpoint` and holds the last committed checkpoint, byte for byte.

The system runs `f2fs_write_checkpoint` one byte store at a time.

* `start` — a call begins, and with it the environment decides how far it will come (`CpRoute`).
* `tick` — the next byte is stored, or the next statement is begun.
* `fail` — an error return, at a point where the source has one.
* `finish` — the call returns; if it wrote a checkpoint, that one is now the last committed one.

But `sbi->ckpt` points **into** the pack that was mounted, and every call that does not leave early
stores a new version number there (`bumpVersion`) before it has written anything.  So the property
holds as long as all calls leave early, and have nothing to store on their way out
(`two_packs_atomic`); the first checkpoint breaks it (`two_packs_version_bump`).
-/

namespace Hoit

open ByteStore Transition

/-- A pack of `blocks` blocks. -/
structure PackContent where
  blocks : ℕ
  bytes : Area

/-- How far a call of `f2fs_write_checkpoint` comes. -/
inductive CpRoute where
  /-- It returns before `__prepare_cp_block`. -/
  | early
  /-- `CP_DISCARD` with nothing to do: it returns before the version is incremented. -/
  | prepared
  | full
deriving DecidableEq

/-- A statement of the checkpoint, or a point at which it may return an error. -/
inductive CpInstr where
  | instr (i : Instr CpRegion)
  | mayFail

variable {l : CpLayout}

structure TwoPacks (l : CpLayout) where
  mem : CpMem
  /-- The pack `sbi->ckpt` points into. -/
  ckpt : CpPack
  /-- `cur_cp_pack`. -/
  cur : CpPack
  /-- What is left of the store that is being executed, byte by byte. -/
  bytes : List (CpRegion × Patch)
  prog : List CpInstr
  call : Option (CpInput l × CpRoute)
  committed : PackContent

inductive TwoPacksStep (l : CpLayout) where
  | start (inp : CpInput l) (route : CpRoute)
  | tick
  | fail
  | finish

def CpInstr.ofStores (ss : List (Store CpRegion)) : List CpInstr :=
  ss.map fun s => .instr (.store s)

section Machine

variable (crc32 : List Byte → BitVec 32)

/-- `do_checkpoint` or `bnvm_do_checkpoint`, with their error returns: when META pages or the NAT
bits cannot be synced, when the device cache cannot be flushed, and after the commit. -/
def writerProgram (inp : CpInput l) (ckpt cur : CpPack) : List CpInstr :=
  if remainNodeSummaries inp.reason then
    [.mayFail] ++ CpInstr.ofStores (doHeader crc32 inp (.nvm ckpt))
      ++ CpInstr.ofStores [writeNatBits crc32 inp .pages (.nvm ckpt)] ++ [.mayFail]
      ++ CpInstr.ofStores (doBlocks inp (.nvm ckpt)) ++ [.mayFail] ++ CpInstr.ofStores [commitStore inp .pages (.nvm ckpt) (.nvm ckpt)]
      ++ [.mayFail]
  else
    [.mayFail] ++ CpInstr.ofStores (bnvmHeader crc32 inp (.nvm ckpt) (.nvm cur.next))
      ++ [.instr (.check fun m => isSetCkptFlags (m (.nvm ckpt)) cpCompactSumFlag)]
      ++ CpInstr.ofStores [writeDataSummaries inp (.nvm cur.next) (.nvm ckpt) false] ++ [.mayFail]
      ++ CpInstr.ofStores [commitStore inp (.nvm cur.next) (.nvm cur.next) (.nvm ckpt)]
      ++ [.mayFail]

/-- The stores of `f2fs_write_checkpoint`. -/
def callProgram (inp : CpInput l) (ckpt cur : CpPack) : CpRoute → List CpInstr
  | .early => []
  | .prepared => CpInstr.ofStores (prepareCpBlock inp (.nvm ckpt))
  | .full =>
      CpInstr.ofStores (prepareCpBlock inp (.nvm ckpt) ++ [bumpVersion (.nvm ckpt)])
        ++ writerProgram crc32 inp ckpt cur

/-- Whether a call can come that far: a checkpoint that was stopped by an error leaves early, and
only `CP_DISCARD` has an exit after the preparation. -/
def routeOpen (x : TwoPacks l) (inp : CpInput l) : CpRoute → Bool
  | .early => true
  | .prepared =>
      !isSetCkptFlags (x.mem (.nvm x.ckpt)) cpErrorFlag && hasReason inp.reason cpDiscard
  | .full => !isSetCkptFlags (x.mem (.nvm x.ckpt)) cpErrorFlag

/-- The checkpoint a call has written when it returns 0. -/
def writtenPack (x : TwoPacks l) (inp : CpInput l) : PackContent where
  blocks := packBlocks inp (allocType (x.mem (.nvm x.ckpt)))
  bytes := if remainNodeSummaries inp.reason then x.mem .pages else x.mem (.nvm x.cur.next)

def twoPacksStep (x : TwoPacks l) : TwoPacksStep l → Option (TwoPacks l)
  | .start inp route =>
      if x.call.isNone && routeOpen x inp route then
        some { x with prog := callProgram crc32 inp x.ckpt x.cur route, call := some (inp, route) }
      else none
  | .tick =>
      match x.bytes, x.prog with
      | (r, b) :: bs, _ =>
          some { x with mem := Function.update x.mem r (b.apply (x.mem r)), bytes := bs }
      | [], .instr (.store s) :: prog =>
          some
            { x with
              bytes := (s.patches x.mem).flatMap fun p => p.split.map fun b => (s.region, b)
              prog := prog }
      | [], .instr (.check ok) :: prog => if ok x.mem then some { x with prog := prog } else none
      | [], .mayFail :: prog => some { x with prog := prog }
      | [], [] => none
  | .fail =>
      match x.bytes, x.prog with
      | [], .mayFail :: _ => some { x with prog := [], call := none }
      | _, _ => none
  | .finish =>
      match x.bytes, x.prog, x.call with
      | [], [], some (inp, .full) =>
          some { x with cur := x.cur.next, call := none, committed := writtenPack x inp }
      | [], [], some (_, _) => some { x with call := none }
      | _, _, _ => none

/-- The pack `p` in NVM is accepted and holds the last committed checkpoint. -/
def Holds (x : TwoPacks l) (p : CpPack) : Prop :=
  (validateCheckpoint crc32 (packRead (x.mem (.nvm p)))).isSome
    ∧ ∀ i < blockSize * x.committed.blocks, x.mem (.nvm p) i = x.committed.bytes i

/-- **Two-pack atomicity.** -/
def Atomic (x : TwoPacks l) : Prop := ∃ p, Holds crc32 x p

/-- A call leaves early, and if it stores the counts, they are those the header has. -/
def LeavesEarly (x : TwoPacks l) : TwoPacksStep l → Prop
  | .start inp route =>
      route ≠ .full ∧ (route = .prepared → ∀ p ∈ countPatches inp, p.Quiet (x.mem (.nvm x.ckpt)))
  | _ => True

end Machine

/-- After a mount from the pack `p` of the disk `d`, with `m` in NVM before. -/
def mounted (l : CpLayout) (d : Disk) (p : CpPack) (m : CpMem) : TwoPacks l where
  mem := Function.update m (.nvm p) (movePack l d p (m (.nvm p)))
  ckpt := p
  cur := p
  bytes := []
  prog := []
  call := none
  committed :=
    { blocks := cpPackTotalBlockCount (diskRead l d p 0)
      bytes := diskPack l d p }

/-! ## Byte by byte -/

variable {crc32 : List Byte → BitVec 32}

/-- Ticks carry out what is left of a store. -/
lemma exec_ticks (r : CpRegion) (bs : List Patch) {x : TwoPacks l}
    (hbytes : x.bytes = bs.map fun b => (r, b)) :
    exec (twoPacksStep crc32) x (List.replicate bs.length .tick)
      = some { x with mem := Function.update x.mem r (overlay (x.mem r) bs), bytes := [] } := by
  induction bs generalizing x with
  | nil =>
      have hself :
          { x with mem := Function.update x.mem r (overlay (x.mem r) []), bytes := [] } = x := by
        have hnone : x.bytes = [] := hbytes
        rw [overlay_nil, Function.update_eq_self, ← hnone]
      rw [hself]
      rfl
  | cons b bs ih =>
      rw [List.map_cons] at hbytes
      refine exec_cons.mpr ⟨{ x with
        mem := Function.update x.mem r (b.apply (x.mem r))
        bytes := bs.map fun b => (r, b) }, by simp only [twoPacksStep, hbytes], ?_⟩
      rw [ih rfl]
      simp only [Function.update_self, Function.update_idem, overlay_cons]

/-- **Left alone, the statements store what they say.** -/
theorem exec_ofStores (ss : List (Store CpRegion)) {prog : List CpInstr} {x : TwoPacks l}
    (hbytes : x.bytes = []) (hprog : x.prog = CpInstr.ofStores ss ++ prog) :
    ∃ n, exec (twoPacksStep crc32) x (List.replicate n .tick)
      = some { x with mem := runStores x.mem ss, prog := prog } := by
  induction ss generalizing x with
  | nil =>
      refine ⟨0, congrArg some ?_⟩
      rw [runStores_nil, ← show x.prog = prog from hprog]
  | cons s ss ih =>
      -- the statement is begun, and its bytes are stored
      have hbegin : twoPacksStep crc32 x .tick = some { x with
          bytes := ((s.patches x.mem).flatMap Patch.split).map fun b => (s.region, b)
          prog := CpInstr.ofStores ss ++ prog } := by
        simp only [twoPacksStep, hbytes, hprog, CpInstr.ofStores, List.map_cons, List.cons_append,
          List.map_flatMap]
      let begun : TwoPacks l := { x with
        bytes := ((s.patches x.mem).flatMap Patch.split).map fun b => (s.region, b)
        prog := CpInstr.ofStores ss ++ prog }
      have hticks : exec (twoPacksStep crc32) begun
          (List.replicate ((s.patches x.mem).flatMap Patch.split).length .tick)
            = some { begun with mem := s.run x.mem, bytes := [] } := by
        rw [exec_ticks s.region _ rfl, overlay_flatMap_split]
        rfl
      obtain ⟨n, hn⟩ := @ih { begun with mem := s.run x.mem, bytes := [] } rfl rfl
      refine ⟨1 + ((s.patches x.mem).flatMap Patch.split).length + n, ?_⟩
      rw [Nat.add_assoc, List.replicate_add, List.replicate_add, List.replicate_one]
      refine exec_append.mpr ⟨_, exec_cons.mpr ⟨_, hbegin, rfl⟩, exec_append.mpr ⟨_, hticks, ?_⟩⟩
      rw [runStores_cons, hbytes]
      exact hn

/-! ## The invariant -/

/-- All that is still to be stored is in the header already. -/
structure NothingToStore (x : TwoPacks l) : Prop where
  bytes : ∀ rb ∈ x.bytes, rb.2.Quiet (x.mem rb.1)
  prog : ∀ i ∈ x.prog, ∃ p, i = .instr (.store (constStore (.nvm x.ckpt) p))
    ∧ p.Quiet (x.mem (.nvm x.ckpt))
  call : ∀ inp, x.call ≠ some (inp, .full)

lemma quiet_split {a : Area} {p b : Patch} (hp : p.Quiet a) (hb : b ∈ p.split) : b.Quiet a := by
  obtain ⟨k, hk, rfl⟩ := List.mem_map.mp hb
  intro j hj
  have hj0 : j = 0 := Nat.lt_one_iff.mp hj
  subst hj0
  exact hp k (List.mem_range.mp hk)

/-- **Such a state never stores anything new.** -/
lemma NothingToStore.step {x y : TwoPacks l} {a : TwoPacksStep l} (h : NothingToStore x)
    (hgood : LeavesEarly x a) (hstep : twoPacksStep crc32 x a = some y) :
    NothingToStore y ∧ y.mem = x.mem ∧ y.committed = x.committed := by
  obtain ⟨hbytes, hprog, hcall⟩ := h
  cases a with
  | start inp route =>
      obtain ⟨hroute, hcounts⟩ := hgood
      rw [twoPacksStep] at hstep
      split at hstep
      · obtain rfl := Option.some.inj hstep
        refine ⟨⟨hbytes, ?_, ?_⟩, rfl, rfl⟩
        · intro i hi
          cases route with
          | early => exact absurd hi List.not_mem_nil
          | prepared =>
              simp only [callProgram, CpInstr.ofStores, prepareCpBlock, List.map_map,
                List.mem_map] at hi
              obtain ⟨p, hp, rfl⟩ := hi
              exact ⟨p, rfl, hcounts rfl p hp⟩
          | full => exact absurd rfl hroute
        · intro inp' heq
          exact hroute (Prod.mk.inj (Option.some.inj heq)).2
      · exact absurd hstep (by simp)
  | tick =>
      rcases hb : x.bytes with _ | ⟨⟨r, b⟩, bs⟩
      · rcases hp : x.prog with _ | ⟨i, prog⟩
        · simp [twoPacksStep, hb, hp] at hstep
        · obtain ⟨p, rfl, hquiet⟩ := hprog i (by simp [hp])
          simp only [twoPacksStep, hb, hp, Option.some.injEq] at hstep
          obtain rfl := hstep
          refine ⟨⟨?_, fun j hj => hprog j (by simp [hp, hj]), hcall⟩, rfl, rfl⟩
          intro rb hrb
          simp only [constStore, List.flatMap_cons, List.flatMap_nil, List.append_nil,
            List.mem_map] at hrb
          obtain ⟨b, hbs, rfl⟩ := hrb
          exact quiet_split hquiet hbs
      · simp only [twoPacksStep, hb, Option.some.injEq] at hstep
        obtain rfl := hstep
        have hquiet : b.Quiet (x.mem r) := hbytes (r, b) (by simp [hb])
        have hsame : Function.update x.mem r (b.apply (x.mem r)) = x.mem := by
          rw [Patch.apply_eq_self_iff.mpr hquiet, Function.update_eq_self]
        refine ⟨⟨?_, ?_, hcall⟩, hsame, rfl⟩
        · intro rb hrb
          simp only [hsame]
          exact hbytes rb (by simp [hb, hrb])
        · intro i hi
          simp only [hsame]
          exact hprog i hi
  | fail =>
      rw [twoPacksStep] at hstep
      split at hstep
      · obtain rfl := Option.some.inj hstep
        exact ⟨⟨hbytes, fun i hi => absurd hi List.not_mem_nil, by simp⟩, rfl, rfl⟩
      · exact absurd hstep (by simp)
  | finish =>
      rw [twoPacksStep] at hstep
      split at hstep
      · next inp _ _ hfull => exact absurd hfull (hcall inp)
      · obtain rfl := Option.some.inj hstep
        exact ⟨⟨hbytes, hprog, by simp⟩, rfl, rfl⟩
      · exact absurd hstep (by simp)

/-! ## The result -/

/-- A pack without orphan blocks is there after the mount. -/
lemma mounted_holds {d : Disk} {p : CpPack} (m : CpMem)
    (hmount : getValidCheckpoint l crc32 d = some p)
    (hpos : 0 < cpPackTotalBlockCount (diskRead l d p 0))
    (hstart : cpPackStartSum (diskRead l d p 0) = 1 + l.cpPayload) :
    Holds crc32 (mounted l d p m) p := by
  have hsame : ∀ x < blockSize * cpPackTotalBlockCount (diskRead l d p 0),
      (mounted l d p m).mem (.nvm p) x = diskPack l d p x := by
    intro x hx
    show Function.update m (.nvm p) (movePack l d p (m (.nvm p))) (.nvm p) x = _
    rw [Function.update_self, movePack_eq hstart hx]
  refine ⟨?_, hsame⟩
  rw [← validateCheckpoint_congr (r := diskRead l d p) rfl hpos getLe_lt]
  · exact validate_of_getValidCheckpoint hmount
  · intro i hi x hx
    have hin : blockSize * i + x < blockSize * cpPackTotalBlockCount (diskRead l d p 0) := by
      calc blockSize * i + x < blockSize * (i + 1) := by
            rw [Nat.mul_succ]
            exact Nat.add_lt_add_left hx _
        _ ≤ blockSize * cpPackTotalBlockCount (diskRead l d p 0) := Nat.mul_le_mul_left _ hi
    rw [packRead, hsame _ hin, diskPack_block hx]

/-- **As long as all calls leave early, one pack is good between any two stores.** -/
theorem two_packs_atomic (crc32 : List Byte → BitVec 32) (d : Disk) (p : CpPack) (m : CpMem)
    (hmount : getValidCheckpoint l crc32 d = some p)
    (hpos : 0 < cpPackTotalBlockCount (diskRead l d p 0))
    (hstart : cpPackStartSum (diskRead l d p 0) = 1 + l.cpPayload)
    (as : List (TwoPacksStep l))
    (h : StepsMeet (twoPacksStep crc32) LeavesEarly (mounted l d p m) as) :
    Throughout (twoPacksStep crc32) (Atomic crc32) (mounted l d p m) as := by
  have hinv : Throughout (twoPacksStep crc32)
      (fun x => NothingToStore x ∧ Holds crc32 x p) (mounted l d p m) as := by
    refine throughout_of_stepsMeet ?_ ⟨?_, mounted_holds m hmount hpos hstart⟩ h
    · rintro x a y ⟨hquiet, hholds⟩ hgood hstep
      obtain ⟨hy, hmem, hcommitted⟩ := hquiet.step hgood hstep
      refine ⟨hy, ?_⟩
      unfold Holds
      rw [hmem, hcommitted]
      exact hholds
    · exact
        { bytes := fun _ hb => absurd hb List.not_mem_nil
          prog := fun _ hi => absurd hi List.not_mem_nil
          call := by simp [mounted] }
  exact hinv.mono fun x hx => ⟨p, hx.2⟩

/-! ## The first checkpoint after a mount -/

/-- The header of a fresh file system: version 1, three blocks, no orphans. -/
def freshHeader : Area :=
  storeCrc f2fsCrc32 (overlay (fun _ => 0)
    [putLe 0 8 1, putLe 24 4 2, putLe 28 4 1, putLe 136 4 3, putLe 140 4 1, putLe 164 4 4092])

/-- Pack one holds a checkpoint, and nothing else is written. -/
def freshDisk : Disk := fun b => if b = 512 ∨ b = 514 then freshHeader else fun _ => 0

lemma freshHeader_version : getCheckpointVersion f2fsCrc32 freshHeader = some 1 := by
  rw [freshHeader, getCheckpointVersion_storeCrc ⟨by decide, by decide⟩]
  decide

lemma freshHeader_eq {off w : ℕ} (h : off + w ≤ bitmapStart) :
    getLe freshHeader off w = getLe (overlay (fun _ => 0) [putLe 0 8 1, putLe 24 4 2, putLe 28 4 1,
      putLe 136 4 3, putLe 140 4 1, putLe 164 4 4092]) off w :=
  getLe_storeCrc ⟨by decide, by decide⟩ h

lemma freshDisk_mount : getValidCheckpoint idleLayout f2fsCrc32 freshDisk = some .one := by
  have htotal : cpPackTotalBlockCount freshHeader = 3 := (freshHeader_eq (by decide)).trans (by decide)
  refine getValidCheckpoint_of_later (v := 1) (by decide) ?_ ?_ ?_
  · exact validateCheckpoint_of_copy htotal (by decide) (by decide) freshHeader_version
      fun x _ => rfl
  · intro w hw
    have hnone : validateCheckpoint f2fsCrc32 (diskRead idleLayout freshDisk CpPack.one.next)
        = none := by
      have hzero : getCheckpointVersion f2fsCrc32 (fun _ => 0) = none := by decide +kernel
      have haddr : (startCpAddr idleLayout CpPack.one.next + 0) % 2 ^ 32 = 1024 := by decide
      rw [validateCheckpoint, diskRead, haddr, freshDisk, if_neg (by decide), hzero]
      rfl
    rw [hnone] at hw
    exact absurd hw (by simp)
  · decide +kernel

/-- An empty NVM, with the fresh checkpoint mounted. -/
def freshMount : TwoPacks idleLayout := mounted idleLayout freshDisk .one fun _ _ => 0

theorem two_packs_atomic_idle :
    Throughout (twoPacksStep f2fsCrc32) (Atomic f2fsCrc32) freshMount
      [.start (idleInput 0) .early, .finish] :=
  two_packs_atomic f2fsCrc32 freshDisk .one (fun _ _ => 0) freshDisk_mount (by decide +kernel)
    (by decide +kernel) _ (by simp [StepsMeet, LeavesEarly])

/-- **A checkpoint begins**, and the first byte of the new version number is stored: pack one holds
it instead of the committed one, and pack two holds nothing. -/
theorem two_packs_version_bump :
    getValidCheckpoint idleLayout f2fsCrc32 freshDisk = some .one
      ∧ cpPackStartSum (diskRead idleLayout freshDisk .one 0) = 1 + idleLayout.cpPayload
      ∧ ∃ x, exec (twoPacksStep f2fsCrc32) freshMount
          (.start (idleInput 0) .full :: List.replicate 26 .tick) = some x
        ∧ ¬ Atomic f2fsCrc32 x := by
  refine ⟨freshDisk_mount, by decide +kernel, ?_⟩
  have hrun : (exec (twoPacksStep f2fsCrc32) freshMount
      (.start (idleInput 0) .full :: List.replicate 26 .tick)).map
        (fun x => (x.mem (.nvm .one) 0, x.mem (.nvm .two) 0, x.committed.bytes 0,
          x.committed.blocks)) = some (2, 0, 1, 3) := by
    decide +kernel
  obtain ⟨x, hx, hbytes⟩ := Option.map_eq_some_iff.mp hrun
  simp only [Prod.mk.injEq] at hbytes
  obtain ⟨hone, htwo, hcommitted, hblocks⟩ := hbytes
  refine ⟨x, hx, ?_⟩
  rintro ⟨p, -, hsame⟩
  have h0 := hsame 0 (by rw [hblocks]; decide)
  rw [hcommitted] at h0
  cases p with
  | one =>
      rw [hone] at h0
      exact absurd h0 (by decide)
  | two =>
      rw [htwo] at h0
      exact absurd h0 (by decide)

end Hoit
