import HoitF2fs.Nvm.ColdVictims
import HoitF2fs.Nvm.Gc
import HoitF2fs.Nvm.SegmentMove

/-!
# The loop of `cold_to_ssd`

`cold_to_ssd` goes back to `gc_more` as long as there are too few free NVM segments, **whatever the
pass has achieved**.  A pass starts with a checkpoint if there are prefree segments, chooses victims
with `get_max_k`, and gives each of them back in one of three ways: a double segment loses its
mapping, one with few valid blocks is collected, any other is copied to the SSD.  A victim without
valid blocks is passed over, because the checkpoint is expected to free it.

* `FsState` — what the function reads and changes; `f2fsWriteCheckpoint`, `doGarbageCollect` and
  `doColdToSsd` act on it.
* `ColdState` — with the heap, and with two counts that only the proofs look at: the NVM segments
  the call has given back, and those it has handed out.
* `coldPass` — one pass; `some` iff it ends with `goto gc_more`.
* `Reclaims` — the checkpoint frees a mapped segment, or some victim has a valid block or is double.

**A pass that goes on gives a segment back iff it reclaims** (`coldPass_frees_iff`).  Then there are
at most as many passes as NVM segments in use, plus those handed out meanwhile.  A pass that does not
reclaim leaves everything but the heap as it was, so the next one does the same
(`empty_victims_loop`).
-/

namespace Hoit.ColdToSsd

open Bitmap Transition

variable {α : Type*} (l : Layout)

/-! ## The state -/

/-- `prefree` is `dirty_segmap[PRE]`, whose bits `nr_dirty[PRE]` counts; `dirty` is `SBI_IS_DIRTY`;
`buf` are the pages `do_cold_to_ssd` reads into. -/
structure FsState (α : Type*) where
  gc : GcState α
  freeI : FreeSegmapInfo
  prefree : ℕ → Bool
  usage : SecUsage
  dirty : Bool
  buf : ℕ → α

def FsState.withNsbi (fs : FsState α) (nsbi : NvmSbInfo) : FsState α :=
  { fs with gc := { fs.gc with nsbi } }

/-- The NVM segments whose bit is set. -/
def usedSegs (fs : FsState α) : Finset ℕ :=
  (Finset.range l.mainSegmentNums).filter fun n => fs.gc.nsbi.segmentMap n = true

/-- `freed` and `taken` are not in the code. -/
structure ColdState (α : Type*) where
  fs : FsState α
  mh : MaxHeap
  freed : ℕ
  taken : ℕ

/-- The call goes on with `fs`. -/
def ColdState.put (x : ColdState α) (fs : FsState α) : ColdState α :=
  { x with
    fs
    freed := x.freed + (usedSegs l x.fs \ usedSegs l fs).card
    taken := x.taken + (usedSegs l fs \ usedSegs l x.fs).card }

/-- `NVM_LIMIT_FREE`, in percent. -/
def nvmLimitFree : ℕ := 5

def hasNotEnoughFreeNvmSecs (fs : FsState α) : Bool :=
  fs.gc.nsbi.mainSegmentFreeNums < l.mainSegmentNums * nvmLimitFree / 100

/-! ## The checkpoint -/

inductive CpReason where
  | sync
  | fastboot
  | umount
deriving DecidableEq

/-- What `f2fs_write_checkpoint` meets.  `flushed` is the state `block_operations` leaves behind,
which writes dirty dentries and nodes; `none` is an error. -/
structure CpAnswers (α : Type*) where
  reason : CpReason
  cpError : Bool
  readonly : Bool
  flushed : Option (FsState α)
  /-- `do_checkpoint` returns an error. -/
  failed : Bool

/-- The bits of `dirty_segmap[PRE]`, in ascending order. -/
def prefreeSegments (fs : FsState α) : List ℕ :=
  (List.range l.segmentCountMain).filter fs.prefree

/-- `set_prefree_as_free_segments`, called from `f2fs_flush_sit_entries`. -/
def setPrefreeAsFreeSegments (fs : FsState α) : FsState α :=
  let (nsbi, freeI) := (prefreeSegments l fs).foldl
    (fun x segno => setTestAndFree l.toGeometry x.1 x.2 segno) (fs.gc.nsbi, fs.freeI)
  { fs.withNsbi nsbi with freeI }

/-- `f2fs_clear_prefree_segments`. -/
def f2fsClearPrefreeSegments (fs : FsState α) : FsState α := { fs with prefree := fun _ => false }

/-- The first early exit of `f2fs_write_checkpoint`: nothing is done, and there is no error. -/
def checkpointIsNoOp (fs : FsState α) (c : CpAnswers α) : Bool :=
  !fs.dirty && (c.reason == .fastboot || c.reason == .sync)

/-- `f2fs_write_checkpoint`, as far as `cold_to_ssd` is concerned, and whether it fails. -/
def f2fsWriteCheckpoint (fs : FsState α) (c : CpAnswers α) : FsState α × Bool :=
  if checkpointIsNoOp fs c then (fs, false)
  else if c.cpError then (fs, true)
  else if c.readonly then (fs, true)
  else
    match c.flushed with
    | none => (fs, true)
    | some fs =>
        let fs := setPrefreeAsFreeSegments l fs
        let fs := fs.withNsbi (nvmSetCkptSegmentMap fs.gc.nsbi)
        if c.failed then (fs, true)
        else ({ f2fsClearPrefreeSegments fs with dirty := false }, false)

/-! ## The victims -/

/-- What the collection of one victim meets, and what it leaves behind besides. -/
structure Collection (α : Type*) where
  type : SumType
  visits : ℕ → SegVisits α
  freeI : FreeSegmapInfo
  prefree : ℕ → Bool
  usage : SecUsage
  dirty : Bool

/-- Byte by byte, the most significant bit first. -/
def mapBytes (map : ℕ → Bool) (k : ℕ) : BitVec 8 :=
  BitVec.ofBoolListLE [map (8 * k + 7), map (8 * k + 6), map (8 * k + 5), map (8 * k + 4),
    map (8 * k + 3), map (8 * k + 2), map (8 * k + 1), map (8 * k)]

/-- `unset_mapping` of a double segment. -/
def dropDouble (x : ColdState α) (ssdSegno : ℕ) : ColdState α :=
  x.put l (x.fs.withNsbi (unsetMapping l.toGeometry x.fs.gc.nsbi ssdSegno))

/-- `do_garbage_collect`, segment by segment; see `collect_gc`. -/
def collect (x : ColdState α) (ssdSegno : ℕ) (c : Collection α) : Option (ColdState α) :=
  (exec (fun x s => (gcSegment l c.type .fg c.visits x.fs.gc s).map fun gc =>
      x.put l { x.fs with gc })
    { x with fs := { x.fs with gc := gcEnter { x.fs.gc with gcList := [] } } }
    (sectionSegs l ssdSegno)).map fun x =>
      { x with fs := { x.fs with
        freeI := c.freeI, prefree := c.prefree, usage := c.usage, dirty := c.dirty } }

/-- `do_cold_to_ssd`. -/
def moveCold (x : ColdState α) (nvmSegoff : ℕ) : ColdState α :=
  let after := doColdToSsd l bioMaxPages (fun s => mapBytes (x.fs.gc.curValidMap s)) x.fs.gc.nsbi
    (fun d a => x.fs.gc.content (d, a)) x.fs.buf nvmSegoff false
  x.put l
    { x.fs with
      gc := { x.fs.gc with nsbi := after.1, content := fun t => after.2.medium t.1 t.2 }
      buf := after.2.buf }

/-- `cmp`: a segment with fewer valid blocks is collected. -/
def cmp : ℕ := blocksPerSeg * 50 / 100

/-- The NVM segment of victim `i`, and its SSD segment. -/
def ColdState.victim (x : ColdState α) (i : ℕ) : ℕ := (x.mh.nodes i).segOff

def ColdState.victimSsd (x : ColdState α) (i : ℕ) : ℕ :=
  getMptValue x.fs.gc.nsbi.mpt (x.victim i)

/-- The body of the loop over the heap. -/
def victimStep (c : ℕ → Collection α) (x : ColdState α) (i : ℕ) : Option (ColdState α) :=
  if secUsageCheck l.toGeometry x.fs.usage (x.victimSsd i / l.segsPerSec) then some x
  else if getDoubleFlag x.fs.gc.nsbi.mpt (x.victim i) then some (dropDouble l x (x.victimSsd i))
  else if getValidBlocks x.fs.gc (x.victimSsd i) = 0 then some x
  else if getValidBlocks x.fs.gc (x.victimSsd i) < cmp then collect l x (x.victimSsd i) (c i)
  else some (moveCold l x (x.victim i))

/-! ## One pass -/

structure PassAnswers (α : Type*) where
  checkpoint : CpAnswers α
  collection : ℕ → Collection α

/-- The part before the choice of victims; `none` is `goto stop`. -/
def makeRoom (x : ColdState α) (a : PassAnswers α) : Option (ColdState α) :=
  if hasNotEnoughFreeNvmSecs l x.fs then
    let (fs, err) := if prefreeSegments l x.fs = [] then (x.fs, false)
      else f2fsWriteCheckpoint l x.fs a.checkpoint
    if err then none
    else if hasNotEnoughFreeNvmSecs l fs then some (x.put l fs) else none
  else some x

def resetMaxHeap (mh : MaxHeap) : MaxHeap := { mh with curNum := 0 }

/-- The choice of victims. -/
def chooseVictims (x : ColdState α) : Option (ColdState α) :=
  (getMaxK l.toGeometry x.fs.gc.nsbi x.fs.usage false (resetMaxHeap x.mh) l.mainSegmentNums).bind
    fun (mh, ret) => if ret ≠ 0 ∨ mh.curNum = 0 then none else some { x with mh }

/-- The state in which the loop over the heap begins. -/
def enterLoop (x : ColdState α) (a : PassAnswers α) : Option (ColdState α) :=
  (makeRoom l x a).bind (chooseVictims l)

/-- From `gc_more` to `goto gc_more`. -/
def coldPass (x : ColdState α) (a : PassAnswers α) : Option (ColdState α) :=
  (enterLoop l x a).bind fun x =>
    (exec (victimStep l a.collection) x (List.range x.mh.curNum)).bind fun y =>
      if hasNotEnoughFreeNvmSecs l y.fs then some y else none

/-! ## What a pass needs -/

/-- The checkpoint is run, and frees a segment whose mapping leads to a segment of NVM that was in
use before. -/
def CheckpointReclaims (x : ColdState α) (a : PassAnswers α) : Prop :=
  hasNotEnoughFreeNvmSecs l x.fs = true ∧ prefreeSegments l x.fs ≠ [] ∧
    checkpointIsNoOp x.fs a.checkpoint = false ∧
    ∃ fs ∈ a.checkpoint.flushed, ∃ s ∈ prefreeSegments l fs, ∃ n ∈ usedSegs l x.fs,
      SsdMaps l.toGeometry fs.gc.nsbi.mpt s n

/-- Victim `i` is not passed over. -/
def Worthwhile (x : ColdState α) (i : ℕ) : Prop :=
  secUsageCheck l.toGeometry x.fs.usage (x.victimSsd i / l.segsPerSec) = false ∧
    (getDoubleFlag x.fs.gc.nsbi.mpt (x.victim i) = true ∨ getValidBlocks x.fs.gc (x.victimSsd i) ≠ 0)

/-- **What makes a pass give a segment back.** -/
def Reclaims (x : ColdState α) (a : PassAnswers α) : Prop :=
  CheckpointReclaims l x a ∨
    ∃ y ∈ enterLoop l x a, ∃ i < y.mh.curNum, Worthwhile l y i

/-- `new_curseg` may be asked to open `c` during the collection of a segment. -/
def Opens (v : SegVisits α) (c : ℕ × ℕ) : Prop :=
  ∃ phase off, c ∈ (v.visit phase off).node.alloc.newCurseg ∨
    c ∈ (v.visit phase off).data.alloc.newCurseg

/-- The table as far as a pass relies on it: it is in order when the checkpoint frees segments,
the two entries of a victim belong together, and a collection does not open the segment it is about,
which is not free. -/
structure Sound (x : ColdState α) (a : PassAnswers α) : Prop where
  flushed : ∀ fs ∈ a.checkpoint.flushed,
    EntriesOk l.toGeometry fs.gc.nsbi.mpt ∧ usedSegs l x.fs ⊆ usedSegs l fs
  paired : ∀ y ∈ enterLoop l x a, ∀ i < y.mh.curNum, y.victim i ∈ usedSegs l y.fs ∧
    NvmMaps y.fs.gc.nsbi.mpt (y.victim i) (y.victimSsd i) ∧
      SsdMaps l.toGeometry y.fs.gc.nsbi.mpt (y.victimSsd i) (y.victim i)
  opens : ∀ y ∈ enterLoop l x a, ∀ i < y.mh.curNum, ∀ c,
    Opens ((a.collection i).visits (y.victimSsd i)) c → c.1 ≠ y.victimSsd i

/-- **What is wanted of a pass that goes on.** -/
def FreesOne (x : ColdState α) (a : PassAnswers α) : Prop :=
  ∀ y, coldPass l x a = some y → x.freed < y.freed

/-! ## Counting -/

section Counting

variable {l} {x y z : ColdState α} {fs : FsState α}

/-- What is in use at the end, and what was given back, is what was in use, and what was handed
out. -/
structure Balance (l : Layout) (x y : ColdState α) : Prop where
  freed : x.freed ≤ y.freed
  taken : x.taken ≤ y.taken
  total : (usedSegs l y.fs).card + y.freed + x.taken = (usedSegs l x.fs).card + x.freed + y.taken

lemma Balance.of_used (hused : usedSegs l y.fs = usedSegs l x.fs) (hfreed : y.freed = x.freed)
    (htaken : y.taken = x.taken) : Balance l x y := by
  refine ⟨hfreed.ge, htaken.ge, ?_⟩
  rw [hused, hfreed, htaken]

lemma Balance.refl (x : ColdState α) : Balance l x x := Balance.of_used rfl rfl rfl

lemma Balance.trans (h : Balance l x y) (h' : Balance l y z) : Balance l x z := by
  have h1 := h.total
  have h2 := h'.total
  exact ⟨h.freed.trans h'.freed, h.taken.trans h'.taken, by omega⟩

/-- A run of steps that keep the balance keeps it. -/
lemma Balance.exec {ι : Type*} {step : ColdState α → ι → Option (ColdState α)}
    (hstep : ∀ x i y, step x i = some y → Balance l x y) {L : List ι}
    (h : exec step x L = some y) : Balance l x y :=
  exec_preserves (fun _ i _ hI hs => hI.trans (hstep _ i _ hs)) (Balance.refl x) h

lemma put_balance (x : ColdState α) (fs : FsState α) : Balance l x (x.put l fs) := by
  have hx := Finset.card_sdiff_add_card_inter (usedSegs l x.fs) (usedSegs l fs)
  have hfs := Finset.card_sdiff_add_card_inter (usedSegs l fs) (usedSegs l x.fs)
  rw [Finset.inter_comm] at hfs
  refine ⟨Nat.le_add_right _ _, Nat.le_add_right _ _, ?_⟩
  simp only [ColdState.put]
  omega

lemma put_frees_iff : x.freed < (x.put l fs).freed ↔ ∃ n ∈ usedSegs l x.fs, n ∉ usedSegs l fs := by
  simp only [ColdState.put, Nat.lt_add_right_iff_pos, Finset.card_pos, Finset.Nonempty,
    Finset.mem_sdiff]

lemma put_self (x : ColdState α) : x.put l x.fs = x := by
  simp [ColdState.put]

lemma mem_usedSegs {n : ℕ} : n ∈ usedSegs l fs ↔
    n < l.mainSegmentNums ∧ fs.gc.nsbi.segmentMap n = true := by
  simp [usedSegs]

end Counting

/-! ## What a release clears -/

section Release

variable {l} {g : Geometry} {nsbi : NvmSbInfo} {s n : ℕ}

/-- **`unset_mapping` clears one bit**, the one the entry leads to. -/
lemma unsetMapping_bit (nsbi : NvmSbInfo) (s n : ℕ) :
    (unsetMapping g nsbi s).segmentMap n = true
      ↔ nsbi.segmentMap n = true ∧ ¬ SsdMaps g nsbi.mpt s n := by
  cases hmap : getMapFlag nsbi.mpt (g.ssdIndex s) with
  | false =>
      rw [unsetMapping_of_unmapped hmap]
      simp [SsdMaps, hmap]
  | true =>
      rw [(unsetMapping_of_mapped ⟨hmap, rfl⟩).2.1, Function.update_apply]
      by_cases hn : n = getMptValue nsbi.mpt (g.ssdIndex s)
      · simp [SsdMaps, hmap, hn]
      · simp [SsdMaps, hn, Ne.symm hn]

/-- The NVM side of `__set_test_and_free` is `unset_mapping`. -/
lemma setTestAndFree_nsbi (nsbi : NvmSbInfo) (freeI : FreeSegmapInfo) (s : ℕ) :
    (setTestAndFree g nsbi freeI s).1.mpt = (unsetMapping g nsbi s).mpt ∧
      (setTestAndFree g nsbi freeI s).1.segmentMap = (unsetMapping g nsbi s).segmentMap := by
  simp only [setTestAndFree]
  split
  · exact ⟨rfl, rfl⟩
  · rename_i hmap
    rw [unsetMapping_of_unmapped (Bool.not_eq_true _ ▸ hmap)]
    exact ⟨rfl, rfl⟩

lemma ssdMaps_congr {mpt mpt' : Mpt} (h : mpt' (g.ssdIndex s) = mpt (g.ssdIndex s)) :
    SsdMaps g mpt' s n ↔ SsdMaps g mpt s n := by
  rw [SsdMaps, SsdMaps, getMapFlag_congr h, getMptValue_congr h]

/-- **What the loop over the prefree segments clears**: the bits their entries lead to. -/
lemma freeSegments_bit {L : List ℕ} (hnodup : L.Nodup) (hmain : ∀ s ∈ L, s < g.segmentCountMain)
    (freeI : FreeSegmapInfo) (htab : EntriesOk g nsbi.mpt) :
    (L.foldl (fun x s => setTestAndFree g x.1 x.2 s) (nsbi, freeI)).1.segmentMap n = true
      ↔ nsbi.segmentMap n = true ∧ ∀ s ∈ L, ¬ SsdMaps g nsbi.mpt s n := by
  induction L generalizing nsbi freeI with
  | nil => simp
  | cons s L ih =>
      obtain ⟨hs, hnodup⟩ := List.nodup_cons.mp hnodup
      obtain ⟨hmpt, hbits⟩ := setTestAndFree_nsbi (g := g) nsbi freeI s
      have hlt := hmain s List.mem_cons_self
      have htab' : EntriesOk g (setTestAndFree g nsbi freeI s).1.mpt := hmpt ▸ htab.unset hlt
      rw [List.foldl_cons, ih hnodup (fun s' hs' => hmain s' (List.mem_cons_of_mem s hs')) _ htab',
        hbits, unsetMapping_bit, List.forall_mem_cons, and_assoc]
      refine and_congr_right fun _ => and_congr_right fun _ => forall₂_congr fun s' hs' => ?_
      rcases unsetMapping_ssd htab hlt s' with hsame | ⟨rfl, -⟩
      · rw [ssdMaps_congr (hmpt ▸ hsame)]
      · exact absurd hs' hs

lemma prefreeSegments_lt {fs : FsState α} (h : s ∈ prefreeSegments l fs) :
    s < l.segmentCountMain :=
  List.mem_range.mp (List.mem_filter.mp h).1

lemma prefreeSegments_nodup (fs : FsState α) : (prefreeSegments l fs).Nodup :=
  List.nodup_range.filter _

lemma mem_usedSegs_setPrefree {fs : FsState α} (htab : EntriesOk l.toGeometry fs.gc.nsbi.mpt) :
    n ∈ usedSegs l (setPrefreeAsFreeSegments l fs) ↔ n ∈ usedSegs l fs ∧
      ∀ s ∈ prefreeSegments l fs, ¬ SsdMaps l.toGeometry fs.gc.nsbi.mpt s n := by
  rw [mem_usedSegs, mem_usedSegs, and_assoc]
  refine and_congr_right fun _ => ?_
  exact freeSegments_bit (prefreeSegments_nodup fs) (fun s => prefreeSegments_lt) fs.freeI htab

end Release

/-! ## The checkpoint of a pass -/

section Checkpoint

variable {l} {x y : ColdState α} {a : PassAnswers α} {fs fs' : FsState α} {c : CpAnswers α}

lemma f2fsWriteCheckpoint_ok (h : f2fsWriteCheckpoint l fs c = (fs', false)) :
    (checkpointIsNoOp fs c = true ∧ fs' = fs) ∨
      (checkpointIsNoOp fs c = false ∧ ∃ flushed ∈ c.flushed,
        usedSegs l fs' = usedSegs l (setPrefreeAsFreeSegments l flushed)) := by
  rw [f2fsWriteCheckpoint] at h
  cases hno : checkpointIsNoOp fs c with
  | true =>
      rw [hno, if_pos rfl] at h
      exact Or.inl ⟨rfl, (Prod.ext_iff.mp h).1.symm⟩
  | false =>
      rw [hno, if_neg Bool.false_ne_true] at h
      cases hflushed : c.flushed with
      | none =>
          simp only [hflushed] at h
          split_ifs at h <;> exact absurd (Prod.ext_iff.mp h).2 (by simp)
      | some flushed =>
          simp only [hflushed] at h
          split_ifs at h with hcp hro hfail
          · exact absurd (Prod.ext_iff.mp h).2 (by simp)
          · exact absurd (Prod.ext_iff.mp h).2 (by simp)
          · exact absurd (Prod.ext_iff.mp h).2 (by simp)
          · refine Or.inr ⟨rfl, flushed, rfl, ?_⟩
            obtain rfl := (Prod.ext_iff.mp h).1
            rfl

/-- **The checkpoint gives a segment back iff it reclaims.** -/
lemma makeRoom_frees_iff (hsound : Sound l x a) (h : makeRoom l x a = some y) :
    Balance l x y ∧ (x.freed < y.freed ↔ CheckpointReclaims l x a) := by
  rw [makeRoom] at h
  cases hlow : hasNotEnoughFreeNvmSecs l x.fs with
  | false =>
      rw [hlow, if_neg Bool.false_ne_true] at h
      obtain rfl := Option.some.inj h
      exact ⟨Balance.refl x, iff_of_false (lt_irrefl _) fun hcp => by
        rw [hcp.1] at hlow
        exact absurd hlow (by simp)⟩
  | true =>
      rw [hlow, if_pos rfl] at h
      by_cases hpre : prefreeSegments l x.fs = []
      · rw [if_pos hpre] at h
        simp only [Bool.false_eq_true, if_false, hlow, if_true, put_self, Option.some.injEq] at h
        subst h
        exact ⟨Balance.refl x, iff_of_false (lt_irrefl _) fun hcp => hcp.2.1 hpre⟩
      · rw [if_neg hpre] at h
        cases hcp : f2fsWriteCheckpoint l x.fs a.checkpoint with
        | mk fs' err =>
            simp only [hcp] at h
            split_ifs at h with herr hstill
            obtain rfl := Option.some.inj h
            refine ⟨put_balance x fs', ?_⟩
            rw [put_frees_iff]
            obtain rfl : err = false := by simpa using herr
            rcases f2fsWriteCheckpoint_ok hcp with ⟨hno, rfl⟩ | ⟨hrun, flushed, hflushed, hused⟩
            · refine iff_of_false (fun ⟨n, hn, hnot⟩ => hnot hn) fun hre => ?_
              rw [hre.2.2.1] at hno
              exact absurd hno (by simp)
            · obtain ⟨htab, hsub⟩ := hsound.flushed flushed hflushed
              rw [hused]
              constructor
              · rintro ⟨n, hn, hnot⟩
                rw [mem_usedSegs_setPrefree htab, not_and] at hnot
                have hs := hnot (hsub hn)
                push Not at hs
                obtain ⟨s, hs, hmaps⟩ := hs
                exact ⟨hlow, hpre, hrun, flushed, hflushed, s, hs, n, hn, hmaps⟩
              · rintro ⟨-, -, -, flushed', hflushed', s, hs, n, hn, hmaps⟩
                obtain rfl : flushed = flushed' := Option.mem_unique hflushed hflushed'
                refine ⟨n, hn, fun hin => ?_⟩
                exact ((mem_usedSegs_setPrefree htab).mp hin).2 s hs hmaps

lemma chooseVictims_some (h : chooseVictims l x = some y) : ∃ mh, y = { x with mh } := by
  obtain ⟨⟨mh, ret⟩, -, hret⟩ := Option.bind_eq_some_iff.mp h
  dsimp only at hret
  split_ifs at hret
  exact ⟨mh, (Option.some.inj hret).symm⟩

/-- Choosing victims changes the heap only. -/
lemma enterLoop_frees_iff (hsound : Sound l x a) (h : enterLoop l x a = some y) :
    Balance l x y ∧ (x.freed < y.freed ↔ CheckpointReclaims l x a) := by
  obtain ⟨z, hz, hy⟩ := Option.bind_eq_some_iff.mp h
  obtain ⟨mh, rfl⟩ := chooseVictims_some hy
  have hroom := makeRoom_frees_iff hsound hz
  exact ⟨⟨hroom.1.freed, hroom.1.taken, hroom.1.total⟩, hroom.2⟩

end Checkpoint

/-! ## What a collection does to the table -/

section Collect

variable {l} {type : SumType} {v : SegVisits α} {x y : GcState α} {s off : ℕ}

/-- The allocation an outcome makes. -/
def outcomeAlloc : Outcome α → Option Allocation
  | .moved a _ => some a
  | .copied a => some a
  | .replaced a => some a
  | .retried a => some a
  | _ => none

lemma f2fsAllocateDataBlock_nsbi {a : Allocation}
    (h : f2fsAllocateDataBlock l x s off a = some y) : y.nsbi = newCurseg l x.nsbi a.newCurseg := by
  rw [f2fsAllocateDataBlock] at h
  split at h
  · rw [← Option.some.inj h]
  · exact absurd h (by simp)

/-- An outcome changes the table by opening a current segment, or not at all. -/
lemma applyOutcome_nsbi {o : Outcome α} (h : applyOutcome l x s off o = some y) :
    y.nsbi = x.nsbi ∨ ∃ a ∈ outcomeAlloc o, y.nsbi = newCurseg l x.nsbi a.newCurseg := by
  cases o with
  | left => exact Or.inl (by rw [← Option.some.inj h])
  | redirtied => exact Or.inl (by rw [← Option.some.inj h])
  | invalidated => exact Or.inl (by rw [← Option.some.inj h])
  | moved a page =>
      obtain ⟨z, hz, rfl⟩ := Option.map_eq_some_iff.mp h
      have hnsbi := f2fsAllocateDataBlock_nsbi hz
      exact Or.inr ⟨a, rfl, hnsbi⟩
  | copied a =>
      obtain ⟨z, hz, rfl⟩ := Option.map_eq_some_iff.mp h
      have hnsbi := f2fsAllocateDataBlock_nsbi hz
      exact Or.inr ⟨a, rfl, hnsbi⟩
  | replaced a =>
      obtain ⟨z, hz, rfl⟩ := Option.map_eq_some_iff.mp h
      have hnsbi := f2fsAllocateDataBlock_nsbi hz
      exact Or.inr ⟨a, rfl, hnsbi⟩
  | retried a => exact Or.inr ⟨a, rfl, f2fsAllocateDataBlock_nsbi h⟩

lemma nodeOutcome_alloc {gcType : GcType} {w : Visit α} {a : Allocation}
    (h : a ∈ outcomeAlloc (nodeOutcome l gcType w s off)) : a = w.node.alloc := by
  rw [nodeOutcome] at h
  cases gcType <;> simp only [f2fsMoveNodePage] at h <;> split_ifs at h <;>
    simp_all [outcomeAlloc]

lemma moveDataBlock_alloc {m : DataMove α} {a : Allocation}
    (h : a ∈ outcomeAlloc (moveDataBlock m)) : a = m.alloc := by
  rw [moveDataBlock] at h
  split_ifs at h <;> simp_all [outcomeAlloc]

lemma moveDataPage_alloc {m : DataMove α} {gcType : GcType} {a : Allocation}
    (h : a ∈ outcomeAlloc (moveDataPage m gcType)) : a = m.alloc := by
  cases gcType <;> simp only [moveDataPage, f2fsDoWriteDataPage] at h <;> split_ifs at h <;>
    simp_all [outcomeAlloc]

lemma dataOutcome_alloc {gcType : GcType} {w : Visit α} {a : Allocation}
    (h : a ∈ outcomeAlloc (dataOutcome gcType w)) : a = w.data.alloc := by
  rw [dataOutcome] at h
  split_ifs at h
  · exact absurd h (by simp [outcomeAlloc])
  · exact moveDataBlock_alloc h
  · exact moveDataPage_alloc h

/-- **A rule for the blocks of a segment**: what opening a current segment keeps, they keep. -/
lemma gcBlocks_nsbi {R : NvmSbInfo → NvmSbInfo → Prop} (hrefl : ∀ nsbi, R nsbi nsbi)
    (htrans : ∀ {p q r}, R p q → R q r → R p r)
    (hopen : ∀ nsbi c, Opens v c → R nsbi (newCurseg l nsbi (some c))) {gcType : GcType}
    (h : gcBlocks l type gcType v s x = some y) : R x.nsbi y.nsbi := by
  -- opening, or not
  have hcurseg : ∀ nsbi (a : Allocation), (∀ c ∈ a.newCurseg, Opens v c) →
      R nsbi (newCurseg l nsbi a.newCurseg) := by
    intro nsbi a ha
    cases hc : a.newCurseg with
    | none => exact hrefl nsbi
    | some c => exact hopen nsbi c (ha c hc)
  have hvisit : ∀ (x : GcState α) (o : Outcome α) (off : ℕ) (y : GcState α), (∀ a ∈ outcomeAlloc o, ∀ c ∈ a.newCurseg, Opens v c) →
      applyOutcome l x s off o = some y → R x.nsbi y.nsbi := by
    intro x o off y ho hy
    rcases applyOutcome_nsbi hy with hsame | ⟨a, ha, hnsbi⟩
    · exact hsame ▸ hrefl _
    · exact hnsbi ▸ hcurseg _ a (ho a ha)
  have hexec : ∀ {step : GcState α → ℕ × ℕ → Option (GcState α)} {L : List (ℕ × ℕ)},
      (∀ x i y, step x i = some y → R x.nsbi y.nsbi) → exec step x L = some y →
      R x.nsbi y.nsbi := fun hstep h =>
    exec_preserves (fun _ i _ hI hs => htrans hI (hstep _ i _ hs)) (hrefl _) h
  cases type with
  | node =>
      rw [gcBlocks, gcNodeSegment, execUntil_eq] at h
      refine hexec (fun x i y hy => ?_) h
      rw [gcNodeVisit] at hy
      split_ifs at hy
      · exact Option.some.inj hy ▸ hrefl _
      · exact Option.some.inj hy ▸ hrefl _
      · refine hvisit x _ _ y (fun a ha c hc => ?_) hy
        rw [nodeOutcome_alloc ha] at hc
        exact ⟨i.1, i.2, Or.inl hc⟩
  | data =>
      rw [gcBlocks, gcDataSegment, execUntil_eq] at h
      refine hexec (fun x i y hy => ?_) h
      rw [gcDataVisit] at hy
      split_ifs at hy
      · exact Option.some.inj hy ▸ hrefl _
      · exact Option.some.inj hy ▸ hrefl _
      · exact Option.some.inj hy ▸ hrefl _
      · exact Option.some.inj hy ▸ hrefl _
      · rw [← Option.some.inj hy]
        exact hrefl _
      · exact Option.some.inj hy ▸ hrefl _
      · -- only the last phase moves blocks
        refine hvisit x _ _ y (fun a ha c hc => ?_) hy
        rw [dataOutcome_alloc ha] at hc
        exact ⟨i.1, i.2, Or.inr hc⟩
      · exact Option.some.inj hy ▸ hrefl _

/-- **A collected segment gives its NVM segment back.** -/
lemma gcSegment_clears {vs : ℕ → SegVisits α} {gcType : GcType} {n : ℕ}
    (hopens : ∀ c, Opens (vs s) c → c.1 ≠ s) (h : gcSegment l type gcType vs x s = some y)
    (hmaps : SsdMaps l.toGeometry x.nsbi.mpt s n) : y.nsbi.segmentMap n = false := by
  have hdrop : ∀ z : GcState α, SsdMaps l.toGeometry z.nsbi.mpt s n →
      (dropMapping l z s).nsbi.segmentMap n = false := by
    intro z hz
    rw [← Bool.not_eq_true]
    exact fun hbit => ((unsetMapping_bit z.nsbi s n).mp hbit).2 hz
  rw [gcSegment] at h
  split_ifs at h
  · exact Option.some.inj h ▸ hdrop x hmaps
  · obtain ⟨z, hz, rfl⟩ := Option.map_eq_some_iff.mp h
    have hentry : z.nsbi.mpt (l.toGeometry.ssdIndex s) = x.nsbi.mpt (l.toGeometry.ssdIndex s) :=
      gcBlocks_nsbi
        (R := fun p q => q.mpt (l.toGeometry.ssdIndex s) = p.mpt (l.toGeometry.ssdIndex s))
        (fun _ => rfl) (fun h1 h2 => h2.trans h1)
        (fun nsbi c hc => newCurseg_entry nsbi fun d hd => Option.some.inj hd ▸ hopens c hc) hz
    obtain ⟨k, hk⟩ := countFreed_eq gcType s z
    refine hdrop _ ?_
    rw [hk]
    exact (ssdMaps_congr hentry).mpr hmaps

end Collect

/-! ## One victim -/

section Victims

variable {l} {x y : ColdState α} {c : ℕ → Collection α} {i : ℕ}

/-- `collect` does what `do_garbage_collect` does. -/
lemma collect_gc (x : ColdState α) (s : ℕ) (c : Collection α) :
    (collect l x s c).map (fun y => y.fs.gc)
      = doGarbageCollect l c.type .fg c.visits s { x.fs.gc with gcList := [] } := by
  rw [collect, Option.map_map, doGarbageCollect]
  refine exec_project (f := fun y : ColdState α => y.fs.gc) (fun t s => ?_) _ _
  rw [Option.map_map]
  exact Option.map_id'

lemma sectionSegs_cons (s : ℕ) : ∃ rest, sectionSegs l s = s :: rest := by
  obtain ⟨k, hk⟩ := Nat.exists_eq_succ_of_ne_zero l.segsPerSec_pos.ne'
  refine ⟨((List.range k).map Nat.succ).map (s + ·), ?_⟩
  rw [sectionSegs, hk, List.range_succ_eq_map, List.map_cons, Nat.add_zero]

/-- A collection keeps the balance, and gives back what its first segment is mapped to. -/
lemma collect_frees {s : ℕ} {c : Collection α} (h : collect l x s c = some y) :
    Balance l x y ∧ ∀ n ∈ usedSegs l x.fs, SsdMaps l.toGeometry x.fs.gc.nsbi.mpt s n →
      (∀ d, Opens (c.visits s) d → d.1 ≠ s) → x.freed < y.freed := by
  obtain ⟨z, hz, rfl⟩ := Option.map_eq_some_iff.mp h
  have hstep : ∀ (t : ColdState α) (s : ℕ) (u : ColdState α),
      (gcSegment l c.type .fg c.visits t.fs.gc s).map (fun gc => t.put l { t.fs with gc }) = some u →
      Balance l t u := by
    intro t s u hu
    obtain ⟨gc, -, rfl⟩ := Option.map_eq_some_iff.mp hu
    exact put_balance t _
  have hbalance := Balance.exec hstep hz
  have hstart : Balance l x
      { x with fs := { x.fs with gc := gcEnter { x.fs.gc with gcList := [] } } } :=
    Balance.of_used rfl rfl rfl
  refine ⟨(hstart.trans hbalance).trans (Balance.of_used rfl rfl rfl), ?_⟩
  intro n hn hmaps hopens
  obtain ⟨rest, hrest⟩ := sectionSegs_cons (l := l) s
  rw [hrest] at hz
  obtain ⟨u, hu, hz⟩ := exec_cons.mp hz
  obtain ⟨gc, hgc, rfl⟩ := Option.map_eq_some_iff.mp hu
  have hclear := gcSegment_clears hopens hgc hmaps
  refine lt_of_lt_of_le (put_frees_iff.mpr ⟨n, hn, fun hin => ?_⟩) (Balance.exec hstep hz).freed
  rw [(mem_usedSegs.mp hin).2] at hclear
  exact absurd hclear (by simp)

/-- What `Sound` says about a victim. -/
structure SoundVictim (l : Layout) (c : ℕ → Collection α) (x : ColdState α) (i : ℕ) : Prop where
  used : x.victim i ∈ usedSegs l x.fs
  nvm : NvmMaps x.fs.gc.nsbi.mpt (x.victim i) (x.victimSsd i)
  ssd : SsdMaps l.toGeometry x.fs.gc.nsbi.mpt (x.victimSsd i) (x.victim i)
  opens : ∀ d, Opens ((c i).visits (x.victimSsd i)) d → d.1 ≠ x.victimSsd i

lemma victimStep_balance (h : victimStep l c x i = some y) : Balance l x y := by
  rw [victimStep] at h
  split_ifs at h
  · exact Option.some.inj h ▸ Balance.refl x
  · exact Option.some.inj h ▸ put_balance x _
  · exact Option.some.inj h ▸ Balance.refl x
  · exact (collect_frees h).1
  · exact Option.some.inj h ▸ put_balance x _

/-- A victim that is passed over changes nothing. -/
lemma victimStep_skip (h : ¬ Worthwhile l x i) : victimStep l c x i = some x := by
  rw [victimStep]
  split_ifs with hbusy hdouble hzero
  · rfl
  · exact absurd ⟨by simpa using hbusy, Or.inl hdouble⟩ h
  · rfl
  · exact absurd ⟨by simpa using hbusy, Or.inr hzero⟩ h
  · exact absurd ⟨by simpa using hbusy, Or.inr hzero⟩ h

/-- **Any other victim gives its NVM segment back**, in each of the three ways. -/
lemma victimStep_frees (hsound : SoundVictim l c x i) (hworth : Worthwhile l x i)
    (h : victimStep l c x i = some y) : x.freed < y.freed := by
  have hunset : ∀ fs : FsState α,
      fs.gc.nsbi = unsetMapping l.toGeometry x.fs.gc.nsbi (x.victimSsd i) →
        x.freed < (x.put l fs).freed := by
    intro fs hfs
    refine put_frees_iff.mpr ⟨x.victim i, hsound.used, fun hin => ?_⟩
    have hbit := (mem_usedSegs.mp hin).2
    rw [hfs, unsetMapping_bit] at hbit
    exact hbit.2 hsound.ssd
  rw [victimStep, if_neg (by simp [hworth.1])] at h
  split_ifs at h with hdouble hzero
  · exact Option.some.inj h ▸ hunset _ rfl
  · exact absurd hzero (hworth.2.resolve_left hdouble)
  · exact (collect_frees h).2 _ hsound.used hsound.ssd hsound.opens
  · rw [← Option.some.inj h]
    refine hunset _ ?_
    simp only [doColdToSsd, hsound.nvm.1, if_true, Bool.false_eq_true, if_false]
    rfl

/-- **The loop gives a segment back iff one of the victims is not passed over**, in the state it
starts from. -/
lemma victims_free_iff {L : List ℕ} (hsound : ∀ i ∈ L, SoundVictim l c x i)
    (h : exec (victimStep l c) x L = some y) :
    Balance l x y ∧ (x.freed < y.freed ↔ ∃ i ∈ L, Worthwhile l x i) := by
  have hbalance := Balance.exec (fun _ _ _ => victimStep_balance) h
  refine ⟨hbalance, ?_⟩
  clear hbalance
  induction L with
  | nil =>
      obtain rfl := Option.some.inj h
      simp
  | cons i L ih =>
      obtain ⟨z, hz, hrest⟩ := exec_cons.mp h
      by_cases hworth : Worthwhile l x i
      · have hfrees := victimStep_frees (hsound i List.mem_cons_self) hworth hz
        have hmono := (Balance.exec (fun _ _ _ => victimStep_balance) hrest).freed
        exact iff_of_true (lt_of_lt_of_le hfrees hmono) ⟨i, List.mem_cons_self, hworth⟩
      · rw [victimStep_skip hworth] at hz
        obtain rfl := Option.some.inj hz
        rw [ih (fun j hj => hsound j (List.mem_cons_of_mem i hj)) hrest]
        simp [hworth]

end Victims

/-! ## Passes -/

section Passes

variable {l} {x y : ColdState α} {a : PassAnswers α}

lemma Sound.victim (h : Sound l x a) (hy : enterLoop l x a = some y) {i : ℕ}
    (hi : i < y.mh.curNum) : SoundVictim l a.collection y i := by
  obtain ⟨hused, hnvm, hssd⟩ := h.paired y hy i hi
  exact ⟨hused, hnvm, hssd, h.opens y hy i hi⟩

/-- **A pass that goes on gives a segment back iff it reclaims.** -/
lemma coldPass_frees_iff (hsound : Sound l x a) (h : coldPass l x a = some y) :
    Balance l x y ∧ (x.freed < y.freed ↔ Reclaims l x a) := by
  obtain ⟨z, hz, hloop⟩ := Option.bind_eq_some_iff.mp h
  obtain ⟨y', hy', hlow⟩ := Option.bind_eq_some_iff.mp hloop
  split_ifs at hlow
  obtain rfl := Option.some.inj hlow
  obtain ⟨hbalance, hcp⟩ := enterLoop_frees_iff hsound hz
  obtain ⟨hbalance', hvictims⟩ :=
    victims_free_iff (fun i hi => hsound.victim hz (List.mem_range.mp hi)) hy'
  refine ⟨hbalance.trans hbalance', ?_⟩
  have hreclaims : Reclaims l x a ↔ CheckpointReclaims l x a ∨
      ∃ i ∈ List.range z.mh.curNum, Worthwhile l z i := by
    rw [Reclaims, hz]
    simp only [Option.mem_def, Option.some.injEq, exists_eq_left', List.mem_range]
  rw [hreclaims, ← hcp, ← hvictims]
  have h1 := hbalance.freed
  have h2 := hbalance'.freed
  omega

/-- **`cold_to_ssd` makes progress iff every pass that goes on reclaims**, and then the passes are
bounded: by the NVM segments in use at the call, and those handed out during it. -/
theorem cold_to_ssd_progress_iff {as : List (PassAnswers α)}
    (hsound : StepsMeet (coldPass l) (Sound l) x as) (hrun : exec (coldPass l) x as = some y) :
    (StepsMeet (coldPass l) (FreesOne l) x as ↔ StepsMeet (coldPass l) (Reclaims l) x as) ∧
      (StepsMeet (coldPass l) (Reclaims l) x as →
        as.length + x.taken ≤ (usedSegs l x.fs).card + y.taken) := by
  have hmain : Balance l x y ∧
      (StepsMeet (coldPass l) (FreesOne l) x as ↔ StepsMeet (coldPass l) (Reclaims l) x as) ∧
      (StepsMeet (coldPass l) (Reclaims l) x as → as.length + x.freed ≤ y.freed) := by
    induction as generalizing x with
    | nil =>
        obtain rfl := Option.some.inj hrun
        exact ⟨Balance.refl x, Iff.rfl, fun _ => (Nat.zero_add x.freed).le⟩
    | cons a as ih =>
        obtain ⟨z, hz, hrest⟩ := exec_cons.mp hrun
        obtain ⟨hbalance, hfrees⟩ := coldPass_frees_iff hsound.1 hz
        obtain ⟨hbalance', hiff, hlength⟩ := ih (hsound.2 z hz) hrest
        have hhere : FreesOne l x a ↔ Reclaims l x a := by
          rw [← hfrees, FreesOne, hz]
          simp only [Option.some.injEq, forall_eq']
        refine ⟨hbalance.trans hbalance', ?_, ?_⟩
        · simp only [StepsMeet, hhere, hz, Option.some.injEq, forall_eq', hiff]
        · rintro ⟨hre, hmeet⟩
          have hone := hfrees.mpr hre
          have hmore := hlength (hmeet z hz)
          rw [List.length_cons]
          omega
  obtain ⟨hbalance, hiff, hlength⟩ := hmain
  refine ⟨hiff, fun hmeet => ?_⟩
  have htotal := hbalance.total
  have hmore := hlength hmeet
  omega

end Passes

/-! ## Passes that do nothing -/

section Stuck

variable {l} {x : ColdState α} {a : PassAnswers α}

/-- Nothing is freed and nobody frees anything: the checkpoint is not run, and no segment that can
be chosen is double or has a valid block. -/
structure Stuck (l : Layout) (fs : FsState α) (c : CpAnswers α) (k : ℕ) : Prop where
  low : hasNotEnoughFreeNvmSecs l fs = true
  noCheckpoint : prefreeSegments l fs = [] ∨ checkpointIsNoOp fs c = true
  fits : IndexFits fs.gc.nsbi l.mainSegmentNums
  pos : 0 < k
  many : ∃ S : Finset ℕ, k ≤ S.card ∧
    ∀ n ∈ S, Eligible l.toGeometry fs.gc.nsbi fs.usage false l.mainSegmentNums n
  empty : ∀ n, Eligible l.toGeometry fs.gc.nsbi fs.usage false l.mainSegmentNums n →
    getDoubleFlag fs.gc.nsbi.mpt n = false ∧
      getValidBlocks fs.gc (getMptValue fs.gc.nsbi.mpt n) = 0

/-- Enough eligible segments fill the heap. -/
lemma chooseVictims_of_many {S : Finset ℕ}
    (hfits : IndexFits x.fs.gc.nsbi l.mainSegmentNums) (hpos : 0 < x.mh.k) (hcard : x.mh.k ≤ S.card)
    (hS : ∀ n ∈ S, Eligible l.toGeometry x.fs.gc.nsbi x.fs.usage false l.mainSegmentNums n) :
    ∃ mh, mh.k = x.mh.k ∧ chooseVictims l x = some { x with mh } ∧ ∀ i < mh.curNum,
      Eligible l.toGeometry x.fs.gc.nsbi x.fs.usage false l.mainSegmentNums (mh.nodes i).segOff := by
  obtain ⟨j, mh, hlen, hholds, hrun⟩ := @getMaxK_holds l.toGeometry x.fs.gc.nsbi x.fs.usage false
    l.mainSegmentNums (resetMaxHeap x.mh) hfits rfl
  have hsel := hholds.selects hlen
  have hfull : ¬ mh.curNum < (resetMaxHeap x.mh).k := by
    intro hlt
    rw [if_pos hlt] at hsel
    have hsub : S ⊆ (Finset.range mh.curNum).image fun i => (mh.nodes i).segOff := by
      intro n hn
      obtain ⟨i, hi, heq⟩ := hsel.all rfl n (hS n hn)
      exact Finset.mem_image.mpr ⟨i, Finset.mem_range.mpr hi, heq⟩
    have hle := (Finset.card_le_card hsub).trans Finset.card_image_le
    rw [Finset.card_range] at hle
    exact absurd (hcard.trans hle) (not_le.mpr hlt)
  rw [if_neg hfull] at hrun
  have hne : mh.curNum ≠ 0 := fun hzero => hfull (hzero ▸ hpos)
  refine ⟨mh, hholds.capacity, ?_, fun i hi => (hsel.eligible i hi).1⟩
  rw [chooseVictims, hrun, Option.bind_some]
  simp [hne]

/-- **A stuck pass goes on, and only the heap has changed.** -/
lemma coldPass_of_stuck (h : Stuck l x.fs a.checkpoint x.mh.k) :
    ∃ mh, mh.k = x.mh.k ∧ coldPass l x a = some { x with mh } := by
  obtain ⟨S, hcard, hS⟩ := h.many
  obtain ⟨mh, hk, hchoose, hel⟩ := chooseVictims_of_many h.fits h.pos hcard hS
  have hroom : makeRoom l x a = some x := by
    rw [makeRoom, if_pos h.low]
    have hcp : (if prefreeSegments l x.fs = [] then (x.fs, false)
        else f2fsWriteCheckpoint l x.fs a.checkpoint) = (x.fs, false) := by
      rcases h.noCheckpoint with hnone | hno
      · rw [if_pos hnone]
      · rw [f2fsWriteCheckpoint, if_pos hno, ite_self]
    rw [hcp]
    simp only [Bool.false_eq_true, if_false, h.low, if_true, put_self]
  have hloop : exec (victimStep l a.collection) { x with mh } (List.range mh.curNum)
      = some { x with mh } := by
    have hall : ∀ i ∈ List.range mh.curNum, ¬ Worthwhile l { x with mh } i := by
      rintro i hi ⟨-, hworth⟩
      obtain ⟨hdouble, hvalid⟩ := h.empty _ (hel i (List.mem_range.mp hi))
      rcases hworth with hflag | hblocks
      · exact absurd (hdouble.symm.trans hflag) (by simp)
      · exact hblocks hvalid
    generalize List.range mh.curNum = L at hall
    induction L with
    | nil => rfl
    | cons i L ih =>
        rw [exec, victimStep_skip (hall i List.mem_cons_self)]
        exact ih fun j hj => hall j (List.mem_cons_of_mem i hj)
  refine ⟨mh, hk, ?_⟩
  rw [coldPass, enterLoop, hroom, Option.bind_some, hchoose, Option.bind_some]
  simp only [hloop, Option.bind_some, h.low, if_true]

/-- **So it goes on for ever.** -/
lemma stuck_forever (h : Stuck l x.fs a.checkpoint x.mh.k) (n : ℕ) :
    ∃ mh, exec (coldPass l) x (List.replicate n a) = some { x with mh } := by
  induction n generalizing x with
  | zero => exact ⟨x.mh, rfl⟩
  | succ n ih =>
      obtain ⟨mh, hk, hpass⟩ := coldPass_of_stuck h
      obtain ⟨mh', hrest⟩ := ih (x := { x with mh }) (by rw [hk]; exact h)
      exact ⟨mh', exec_cons.mpr ⟨_, hpass, hrest⟩⟩

end Stuck

/-! ### A device whose segments are all empty -/

def emptyLayout : Layout where
  mainSegmentNums := 120
  segmentCountMain := 130
  segsPerSec := 1
  nvm_lt := by decide
  ssd_lt := by decide
  segsPerSec_pos := Nat.one_pos
  seg0Blkaddr := 512
  metaSegs := 2
  nvmMainBlkaddr := 1024
  ssd_end := by decide
  nvm_end := by decide

/-- NVM segment `n` is mapped to SSD segment `n`, with the given flags, and none is free. -/
def pairedNsb (flags : BitVec 32) : NvmSbInfo where
  mpt := fun i => if i < 120 then BitVec.ofNat 32 i <<< rwBits ||| flags
    else if i < 240 then BitVec.ofNat 32 (i - 120) <<< rwBits ||| flags
    else 0
  mptDirtyMap := fun _ => false
  nvmFlag := 0
  segmentMap := fun _ => true
  ckptSegmentMap := fun _ => true
  mainSegmentFreeNums := 0
  curAllocNvmSegoff := 0
  nowLfuCounter := 0
  lfuCount := fun _ _ => 0

/-- No block is valid and every mapped segment is prefree, but `SBI_IS_DIRTY` is not set.  The logs
are in the segments from 120 on. -/
def emptyState (flags : BitVec 32) (k : ℕ) : ColdState ℕ where
  fs :=
    { gc := ⟨pairedNsb flags, fun _ => 0, fun _ _ => false, fun _ _ => false, [], 0⟩
      freeI := ⟨fun s => s < 126, fun s => s < 126, 4#32, 4#32⟩
      prefree := fun s => s < 120
      usage := ⟨fun i => 120 + i, 129⟩
      dirty := false
      buf := fun _ => 0 }
  mh := ⟨fun _ => ⟨0, 0⟩, 0, k⟩
  freed := 0
  taken := 0

/-- Nothing is asked of these but the reason of the checkpoint. -/
def quietAnswers : PassAnswers ℕ where
  checkpoint := ⟨.sync, false, false, none, false⟩
  collection := fun _ =>
    { type := .data, visits := fun _ => dataAnswers false, freeI := ⟨fun _ => true, fun _ => true, 0, 0⟩
      prefree := fun _ => false, usage := ⟨fun _ => 0, 0⟩, dirty := true }

lemma emptyState_stuck :
    Stuck emptyLayout (emptyState (rwMap ||| rwRedirect) 50).fs quietAnswers.checkpoint 50 where
  low := by decide
  noCheckpoint := Or.inr rfl
  fits := ⟨by decide, by decide⟩
  pos := by decide
  many := ⟨Finset.Icc 51 119, by decide, by decide +kernel⟩
  empty := by
    have hvalid : ∀ s, getValidBlocks (emptyState (rwMap ||| rwRedirect) 50).fs.gc s = 0 := by
      intro s
      show blocksPerSeg - zeroBits (fun _ => false) blocksPerSeg = 0
      decide +kernel
    have hsingle : ∀ n < 120, getDoubleFlag (pairedNsb (rwMap ||| rwRedirect)).mpt n = false := by
      decide +kernel
    intro n hn
    have hlt := hn.inside
    exact ⟨hsingle n (by exact_mod_cast hlt), hvalid _⟩

/-- **Empty segments that no checkpoint frees keep `cold_to_ssd` busy for ever**: however many
passes there are, none gives a segment back, and none is handed out either. -/
theorem empty_victims_loop :
    (∀ n < 120, n ∈ usedSegs emptyLayout (emptyState (rwMap ||| rwRedirect) 50).fs ∧
      NvmMaps (pairedNsb (rwMap ||| rwRedirect)).mpt n n ∧
        SsdMaps emptyLayout.toGeometry (pairedNsb (rwMap ||| rwRedirect)).mpt n n) ∧
    ∀ passes, ∃ y, exec (coldPass emptyLayout) (emptyState (rwMap ||| rwRedirect) 50)
        (List.replicate passes quietAnswers) = some y ∧ y.freed = 0 ∧ y.taken = 0 := by
  refine ⟨?_, fun passes => ?_⟩
  · unfold NvmMaps SsdMaps
    decide +kernel
  obtain ⟨mh, hrun⟩ := stuck_forever emptyState_stuck passes
  exact ⟨_, hrun, rfl, rfl⟩

/-- With double segments, two to a pass, it goes on too — and gives both of them back. -/
theorem cold_to_ssd_progress_iff_double :
    ∃ y, exec (coldPass emptyLayout) (emptyState 7#32 2) [quietAnswers] = some y ∧
      (StepsMeet (coldPass emptyLayout) (FreesOne emptyLayout) (emptyState 7#32 2) [quietAnswers] ↔
        StepsMeet (coldPass emptyLayout) (Reclaims emptyLayout) (emptyState 7#32 2)
          [quietAnswers]) ∧ y.freed = 2 := by
  have hfreed : (coldPass emptyLayout (emptyState 7#32 2) quietAnswers).map (fun y => y.freed)
      = some 2 := by
    decide +kernel
  have hpaired : (enterLoop emptyLayout (emptyState 7#32 2) quietAnswers).all (fun y =>
      decide (∀ i < y.mh.curNum, y.victim i ∈ usedSegs emptyLayout y.fs ∧
        (getMapFlag y.fs.gc.nsbi.mpt (y.victim i) = true ∧
          getMptValue y.fs.gc.nsbi.mpt (y.victim i) = y.victimSsd i) ∧
        getMapFlag y.fs.gc.nsbi.mpt (emptyLayout.ssdIndex (y.victimSsd i)) = true ∧
          getMptValue y.fs.gc.nsbi.mpt (emptyLayout.ssdIndex (y.victimSsd i)) = y.victim i))
      = true := by
    decide +kernel
  obtain ⟨y, hy, hcount⟩ := Option.map_eq_some_iff.mp hfreed
  have hsound : Sound emptyLayout (emptyState 7#32 2) quietAnswers := by
    refine ⟨fun fs hfs => absurd hfs (by simp [quietAnswers]), fun z hz => ?_, ?_⟩
    · rw [Option.mem_def.mp hz, Option.all_some] at hpaired
      have hall := of_decide_eq_true hpaired
      exact hall
    · rintro z - i - c ⟨phase, off, hc | hc⟩
      · exact absurd hc (by simp [quietAnswers, dataAnswers])
      · exact absurd hc (by simp [quietAnswers, dataAnswers])
  have hrun : exec (coldPass emptyLayout) (emptyState 7#32 2) [quietAnswers] = some y :=
    exec_cons.mpr ⟨y, hy, rfl⟩
  have hmeet : StepsMeet (coldPass emptyLayout) (Sound emptyLayout) (emptyState 7#32 2)
      [quietAnswers] := ⟨hsound, fun _ _ => trivial⟩
  exact ⟨y, hrun, (cold_to_ssd_progress_iff hmeet hrun).1, hcount⟩

end Hoit.ColdToSsd
