import HoitF2fs.Recovery.Recovered

/-!
# The loop check of roll-forward recovery

The node blocks that roll-forward recovery walks are linked by addresses on the device, and
nothing there keeps the links from running in a circle.  `find_fsync_dnodes` counts the blocks in
`loop_cnt` and gives up at `free_blocks`, or when a block leads to itself; `recover_data` has no
check at all.

* `findLoop` — `find_fsync_dnodes` with the counter as the source has it.  Its fuel is only there
  to say what a round is: `findLoop_eq` shows that the counter alone ends the loop.
* `recoverData_ends` — the second pass follows the links that the first one has followed, whatever
  the inodes and the outside are by then.

The check stands behind the block, so the first block is looked at even when the checkpoint leaves
no free block.
-/

namespace Hoit.LoopCheck

variable (l : Layout) (img : PorImage) (env : RecoveryEnv)

/-- The loop of `find_fsync_dnodes`, with the value of `loop_cnt` at the end.  Every round takes
one unit of fuel. -/
def findLoop (checkOnly : Bool) :
    ℕ → ℕ → RecoverState → BitVec 32 → Option (Except RecoverErr RecoverState × ℕ)
  | 0, _, _, _ => none
  | fuel + 1, loopCnt, st, blkaddr =>
      if !f2fsIsValidPorBlkaddr l blkaddr.toNat then some (.ok st, loopCnt)
      else if !img.isRecoverableDnode blkaddr then some (.ok st, loopCnt)
      else
        match findDnode img env checkOnly st blkaddr with
        | .error e => some (.error e, loopCnt)
        | .ok st' =>
            if loopCnt + 1 ≥ img.freeBlocks ∨ blkaddr = (img.node blkaddr).nextBlkaddr then
              some (.error .einval, loopCnt + 1)
            else findLoop checkOnly fuel (loopCnt + 1) st' (img.node blkaddr).nextBlkaddr

variable {l img env} {checkOnly : Bool} {st : RecoverState} {blkaddr : BitVec 32}

/-- **The counter ends the loop.**  With `k` blocks left, `k + 1` rounds are enough, and the result
is the one of `findFsyncDnodes`. -/
lemma findLoop_eq {k fuel : ℕ} (loopCnt : ℕ) (hk : img.freeBlocks - 1 - loopCnt = k) (hfuel : k < fuel) :
    ∃ n ≤ loopCnt + k + 1, findLoop l img env checkOnly fuel loopCnt st blkaddr
      = some (findFsyncDnodes l img env checkOnly k st blkaddr, n) := by
  induction k generalizing fuel loopCnt st blkaddr with
  | zero =>
      obtain ⟨fuel, rfl⟩ : ∃ f, fuel = f + 1 := ⟨fuel - 1, by omega⟩
      unfold findLoop findFsyncDnodes
      cases f2fsIsValidPorBlkaddr l blkaddr.toNat with
      | false => exact ⟨loopCnt, by omega, by simp⟩
      | true =>
          cases img.isRecoverableDnode blkaddr with
          | false => exact ⟨loopCnt, by omega, by simp⟩
          | true =>
              cases findDnode img env checkOnly st blkaddr with
              | error e => exact ⟨loopCnt, by omega, by simp⟩
              | ok st' =>
                  have hlast : loopCnt + 1 ≥ img.freeBlocks := by omega
                  exact ⟨loopCnt + 1, by omega, by simp [hlast]⟩
  | succ k ih =>
      obtain ⟨fuel, rfl⟩ : ∃ f, fuel = f + 1 := ⟨fuel - 1, by omega⟩
      unfold findLoop findFsyncDnodes
      cases f2fsIsValidPorBlkaddr l blkaddr.toNat with
      | false => exact ⟨loopCnt, by omega, by simp⟩
      | true =>
          cases img.isRecoverableDnode blkaddr with
          | false => exact ⟨loopCnt, by omega, by simp⟩
          | true =>
              cases findDnode img env checkOnly st blkaddr with
              | error e => exact ⟨loopCnt, by omega, by simp⟩
              | ok st' =>
                  have hmore : ¬ loopCnt + 1 ≥ img.freeBlocks := by omega
                  by_cases hself : blkaddr = (img.node blkaddr).nextBlkaddr
                  · exact ⟨loopCnt + 1, by omega, by simp [← hself]⟩
                  · obtain ⟨n, hn, hrun⟩ := @ih st' (img.node blkaddr).nextBlkaddr
                      fuel (loopCnt + 1) (by omega) (by omega)
                    refine ⟨n, by omega, ?_⟩
                    simpa [hmore, hself] using hrun

/-- **The second pass ends where the first one has**: it visits the same blocks, so it needs no
check of its own. -/
lemma recoverData_ends {k fuel : ℕ} {st' : RecoverState} (env' : RecoveryEnv) (st₀ : RecoverState)
    (hfind : findFsyncDnodes l img env checkOnly k st blkaddr = .ok st') (hfuel : k < fuel) :
    recoverData l img env' fuel st₀ blkaddr ≠ .error .endless := by
  obtain ⟨fuel, rfl⟩ : ∃ f, fuel = f + 1 := ⟨fuel - 1, by omega⟩
  induction k generalizing fuel st st₀ blkaddr with
  | zero =>
      unfold findFsyncDnodes at hfind
      unfold recoverData
      cases hpor : f2fsIsValidPorBlkaddr l blkaddr.toNat with
      | false => simp
      | true =>
          cases hrec : img.isRecoverableDnode blkaddr with
          | false => simp
          | true =>
              -- The first pass would have refused to go on.
              cases hstep : findDnode img env checkOnly st blkaddr with
              | error e => simp [hpor, hrec, hstep] at hfind
              | ok st₁ => simp [hpor, hrec, hstep] at hfind
  | succ k ih =>
      unfold findFsyncDnodes at hfind
      unfold recoverData
      cases hpor : f2fsIsValidPorBlkaddr l blkaddr.toNat with
      | false => simp
      | true =>
          cases hrec : img.isRecoverableDnode blkaddr with
          | false => simp
          | true =>
              cases hstep : findDnode img env checkOnly st blkaddr with
              | error e => simp [hpor, hrec, hstep] at hfind
              | ok st₁ =>
                  simp only [hpor, hrec, hstep, Bool.not_true, Bool.false_eq_true, if_false]
                    at hfind ⊢
                  split_ifs at hfind
                  cases hdo : recoverDnode l img env' st₀ blkaddr with
                  | error e =>
                      obtain rfl := recoverDnode_error hdo
                      simp
                  | ok st₂ =>
                      obtain ⟨fuel, rfl⟩ : ∃ f, fuel = f + 1 := ⟨fuel - 1, by omega⟩
                      exact ih st₂ hfind fuel (by omega)

/-- **Roll-forward ends on any device**: the first pass takes at most `free_blocks` rounds, and one
if there are none; if it succeeds, so many rounds are enough for the second pass too. -/
theorem roll_forward_ends (l : Layout) (img : PorImage) (env : RecoveryEnv) (checkOnly : Bool)
    (st : RecoverState) :
    (∀ fuel ≥ max 1 img.freeBlocks, ∃ loopCnt ≤ max 1 img.freeBlocks,
      findLoop l img env checkOnly fuel 0 st img.nextFreeBlkaddr
        = some (findFsyncDnodes l img env checkOnly (img.freeBlocks - 1) st img.nextFreeBlkaddr,
            loopCnt)) ∧
      ∀ st', findFsyncDnodes l img env checkOnly (img.freeBlocks - 1) st img.nextFreeBlkaddr
          = .ok st' →
        ∀ (env' : RecoveryEnv) (st₀ : RecoverState), ∀ fuel ≥ max 1 img.freeBlocks,
          recoverData l img env' fuel st₀ img.nextFreeBlkaddr ≠ .error .endless := by
  constructor
  · intro fuel hfuel
    obtain ⟨n, hn, hrun⟩ := @findLoop_eq l img env checkOnly st img.nextFreeBlkaddr _ fuel 0 rfl
      (by omega)
    exact ⟨n, by omega, hrun⟩
  · intro st' hfind env' st₀ fuel hfuel
    exact recoverData_ends env' st₀ hfind (by omega)

/-- **A full device**: the first block of the chain is looked at all the same. -/
theorem first_block_not_counted :
    ¬ ∀ (l : Layout) (img : PorImage) (env : RecoveryEnv) (checkOnly : Bool) (st : RecoverState)
        (fuel loopCnt : ℕ) (r : Except RecoverErr RecoverState),
        findLoop l img env checkOnly fuel 0 st img.nextFreeBlkaddr = some (r, loopCnt) →
          loopCnt ≤ img.freeBlocks := by
  intro hall
  have hrun : (findLoop boundaryLayout { fsyncImage 2570 [121] with freeBlocks := 0 } calmEnv false
      1 0 (.start emptyFile oneName) 2560).map Prod.snd = some 1 := by decide +kernel
  obtain ⟨⟨r, n⟩, hloop, hn⟩ := Option.map_eq_some_iff.mp hrun
  have hle := hall _ _ _ _ _ _ _ _ hloop
  simp only at hn hle
  omega

end Hoit.LoopCheck
