import HoitF2fs.Nvm.Redirect
import HoitF2fs.Nvm.Threads

/-!
# Segment garbage collection and the mapping of its victims

`do_garbage_collect` handles the segments of one section.  A segment whose summary page is not
up to date is skipped; otherwise `gc_node_segment` or `gc_data_segment` goes over its blocks
several times, and only the last phase moves anything.  Whether a block moves depends on `gc_type`
and on a dozen things the loop asks for — locks, pages, inodes — which are the `Visit`s here: the
model takes the answers as its input, for every phase and block.

**Every iteration then ends with `unset_mapping`**, whatever became of the blocks.

* `doGarbageCollect` — the function, with the moves it makes.
* `ContentKept` — a block that stays valid in the victim reads the same before and after.
* `Leaves` — the answers under which a block is left where it is.

The content is kept **iff every block that is left and was redirected has the same content on the
SSD** (`gc_keeps_content_iff`); nothing in the code makes sure of that
(`gc_loses_pinned_block`).
-/

namespace Hoit

open Bitmap Transition

/-! ## What the table guarantees -/

section Entries

variable {g : Geometry}

/-- **Every step of the threads keeps the two facts.** -/
lemma SegEffect.entriesOk {x x' : SegState} {a : SegStep} (he : SegEffect g x a x')
    (hacc : Accounted g x.nsbi x.held) (h : EntriesOk g x.nsbi.mpt) :
    EntriesOk g x'.nsbi.mpt := by
  cases he with
  | quiet _ hmpt => exact hmpt ▸ h
  | took _ n start _ _ hal =>
      have hmpt : x'.nsbi.mpt = x.nsbi.mpt := by
        rw [(nvmAllocateSegmentLocked_ok g hal).2.2.2]
      exact hmpt ▸ h
  | mapped t s n flag hflag _ hsome _ hnsbi =>
      rw [hnsbi]
      exact h.create hflag (hacc.heldFresh t n hsome).1
  | gave _ _ _ _ hnsbi => exact hnsbi ▸ h
  | dropped s _ hs hmpt => exact hmpt ▸ h.unset hs
  | doubled s _ _ hnsbi =>
      rw [hnsbi]
      constructor
      · intro s' hs' hred
        rw [getRedirectFlag_setDouble] at hred
        rw [(setDouble_reads _).1]
        exact h.mapped s' hs' hred
      · intro s' hs' hmap
        rw [(setDouble_reads _).1] at hmap
        rw [(setDouble_reads _).2]
        exact h.target s' hs' hmap

/-- The two facts hold in every state the threads reach. -/
lemma entriesOk_reachable {freeI : FreeSegmapInfo} {as : List SegStep} {x : SegState}
    (h : exec (segStep g) (mountState g freeI) as = some x) : EntriesOk g x.nsbi.mpt := by
  have hinit : EntriesOk g (mountState g freeI).nsbi.mpt := by
    constructor
    · intro s _ hred
      simp [mountState, getRedirectFlag] at hred
    · intro s _ hmap
      simp [mountState, getMapFlag] at hmap
  have hstep : ∀ s a s', (SegInv g s ∧ EntriesOk g s.nsbi.mpt) → segStep g s a = some s' →
      SegInv g s' ∧ EntriesOk g s'.nsbi.mpt := by
    intro s a s' hs hstep
    have he := segStep_effect hs.1.ok hstep
    exact ⟨segInv_step hs.1 hstep, he.entriesOk hs.1.accounted hs.2⟩
  exact (exec_preserves hstep ⟨segInv_mountState freeI, hinit⟩ h).2

end Entries

/-! ## The state of a collection -/

inductive GcType where
  | bg
  | fg
deriving DecidableEq

inductive SumType where
  | data
  | node
deriving DecidableEq

/-- `content` is what the two devices hold, block by block.  `handedOut` records the blocks this
call has allocated: a block that was freed and allocated again is not the block it was. -/
structure GcState (α : Type*) where
  nsbi : NvmSbInfo
  content : Dev × BitVec 32 → α
  curValidMap : ℕ → ℕ → Bool
  handedOut : ℕ → ℕ → Bool
  gcList : List ℕ
  segFreed : ℕ

/-- `update_sit_entry` on one block. -/
def updateSit (map : ℕ → ℕ → Bool) (s b : ℕ) (v : Bool) : ℕ → ℕ → Bool :=
  Function.update map s (Function.update (map s) b v)

variable {α : Type*} (l : Layout)

/-- The device and address of block `b` of SSD segment `s`, as `nvm_redirect_bio` chooses them. -/
def blockTarget (nsbi : NvmSbInfo) (s b : ℕ) : Dev × BitVec 32 :=
  (nvmRedirectBio l nsbi .data true 1 (ssdAddr l s b)).2

def readBlock (x : GcState α) (s b : ℕ) : α := x.content (blockTarget l x.nsbi s b)

/-- `get_valid_blocks(sbi, s, false)`. -/
def getValidBlocks (x : GcState α) (s : ℕ) : ℕ :=
  blocksPerSeg - zeroBits (x.curValidMap s) blocksPerSeg

/-! ## Allocation during a move -/

/-- What `f2fs_allocate_data_block` hands out; `newCurseg` is the free segment that replaces the
current one when it is full, with the position the search on NVM starts at. -/
structure Allocation where
  seg : ℕ
  blk : ℕ
  newCurseg : Option (ℕ × ℕ)
deriving DecidableEq

/-- The end of `new_curseg`: the new segment gets a segment of NVM if there is one. -/
def newCurseg (nsbi : NvmSbInfo) : Option (ℕ × ℕ) → NvmSbInfo
  | none => nsbi
  | some (d, start) =>
      match nvmAllocateSegmentLocked l.toGeometry nsbi start with
      | .ok nsbi' n => createMapping l.toGeometry nsbi' d n (rwMap ||| rwRedirect)
      | _ => nsbi

/-- What the allocator guarantees: the block is not in use, and no block of a free segment is. -/
def Allocation.Free (a : Allocation) (x : GcState α) : Prop :=
  a.seg < l.segmentCountMain ∧ a.blk < blocksPerSeg ∧ x.curValidMap a.seg a.blk = false ∧
    ∀ c ∈ a.newCurseg, ∀ b < blocksPerSeg, x.curValidMap c.1 b = false

instance (a : Allocation) (x : GcState α) : Decidable (a.Free l x) :=
  inferInstanceAs (Decidable (_ ∧ _ ∧ _ ∧ _))

def f2fsAllocateDataBlock (x : GcState α) (s off : ℕ) (a : Allocation) : Option (GcState α) :=
  if a.Free l x then
    some { x with
      nsbi := newCurseg l x.nsbi a.newCurseg
      curValidMap := updateSit (updateSit x.curValidMap a.seg a.blk true) s off false
      handedOut := updateSit x.handedOut a.seg a.blk true }
  else none

/-- `f2fs_do_replace_block`, called to undo an allocation. -/
def f2fsDoReplaceBlock (x : GcState α) (s off : ℕ) (a : Allocation) : GcState α :=
  { x with curValidMap := updateSit (updateSit x.curValidMap s off true) a.seg a.blk false }

/-! ## The outcomes for one block -/

inductive Outcome (α : Type*) where
  | left
  | redirtied
  /-- Another thread has invalidated the block meanwhile. -/
  | invalidated
  /-- The page is written to the new block. -/
  | moved (a : Allocation) (page : α)
  /-- The content is read from the device and written to the new block. -/
  | copied (a : Allocation)
  /-- A new block was allocated, an error followed, and the old block was put back. -/
  | replaced (a : Allocation)
  /-- A new block was allocated, but its write was not submitted (`fio.retry`). -/
  | retried (a : Allocation)

/-- What an outcome does to the state. -/
def applyOutcome (x : GcState α) (s off : ℕ) : Outcome α → Option (GcState α)
  | .left => some x
  | .redirtied => some x
  | .invalidated => some { x with curValidMap := updateSit x.curValidMap s off false }
  | .moved a page =>
      (f2fsAllocateDataBlock l x s off a).map fun y =>
        { y with content := Function.update y.content (blockTarget l y.nsbi a.seg a.blk) page }
  | .copied a =>
      (f2fsAllocateDataBlock l x s off a).map fun y =>
        { y with
          content := Function.update y.content (blockTarget l y.nsbi a.seg a.blk)
            (readBlock l y s off) }
  | .replaced a => (f2fsAllocateDataBlock l x s off a).map fun y => f2fsDoReplaceBlock y s off a
  | .retried a => f2fsAllocateDataBlock l x s off a

/-- What `f2fs_move_node_page` meets: whether the page was dirty, the flags it tests, whether the
node has been truncated. -/
structure NodeMove (α : Type*) where
  dirty : Bool
  cpError : Bool
  porDoing : Bool
  nullAddr : Bool
  alloc : Allocation
  page : α

def f2fsMoveNodePage (m : NodeMove α) : GcType → Outcome α
  | .bg => .redirtied
  | .fg =>
      if !m.dirty then .left
      else if m.cpError || m.porDoing then .left
      else if m.nullAddr then .left
      else .moved m.alloc m.page

/-- What `move_data_block` and `move_data_page` meet, in the order of the source.  A write that
fails with `-ENOMEM` is tried again, so the answers are those of the last attempt. -/
structure DataMove (α : Type*) where
  /-- The page could be grabbed, or locked. -/
  gotPage : Bool
  /-- `check_valid_map` fails under the page lock. -/
  gone : Bool
  atomic : Bool
  pinned : Bool
  writeback : Bool
  lockOp : Bool
  dnodeErr : Bool
  nullAddr : Bool
  encryptErr : Bool
  alloc : Allocation
  encryptedPage : Bool
  ioErr : Bool
  retry : Bool
  page : α

/-- `move_data_block`. -/
def moveDataBlock (m : DataMove α) : Outcome α :=
  if !m.gotPage then .left
  else if m.gone then .invalidated
  else if m.atomic then .left
  else if m.pinned then .left
  else if m.dnodeErr then .left
  else if m.nullAddr then .left
  else if !m.encryptedPage then .replaced m.alloc
  else if m.ioErr then .replaced m.alloc
  else if m.retry then .retried m.alloc
  else .copied m.alloc

/-- `f2fs_do_write_data_page` on a cold page, which is never updated in place. -/
def f2fsDoWriteDataPage (m : DataMove α) : Outcome α :=
  if !m.lockOp then .left
  else if m.dnodeErr then .left
  else if m.nullAddr then .left
  else if m.encryptErr then .left
  else .moved m.alloc m.page

/-- `move_data_page`: only a foreground collection writes the page out. -/
def moveDataPage (m : DataMove α) (gcType : GcType) : Outcome α :=
  if !m.gotPage then .left
  else if m.gone then .invalidated
  else if m.atomic then .left
  else if m.pinned then .left
  else
    match gcType with
    | .bg => if m.writeback then .left else .redirtied
    | .fg => f2fsDoWriteDataPage m

/-! ## The loops over a segment -/

/-- The answers one visit of a block gets.  A phase asks only for some of them. -/
structure Visit (α : Type*) where
  notEnoughFreeSecs : Bool
  /-- `f2fs_get_node_page` succeeds. -/
  nodePage : Bool
  /-- `check_valid_map` fails after `f2fs_get_node_page`. -/
  gone : Bool
  /-- The address in the NAT entry, or in the parent node of a data block. -/
  blkAddr : BitVec 32
  node : NodeMove α
  ino : ℕ
  /-- `f2fs_iget` returns an inode, and not a bad one. -/
  gotInode : Bool
  postReadRequired : Bool
  lockRead : Bool
  lockWrite : Bool
  readPage : Bool
  isReg : Bool
  data : DataMove α

/-- The answers of one segment, for each phase and block. -/
structure SegVisits (α : Type*) where
  sumUptodate : Bool
  cpError : Bool
  visit : ℕ → ℕ → Visit α

/-- The blocks in the order of the loops: `phases` rounds over the segment. -/
def positions (phases : ℕ) : List (ℕ × ℕ) :=
  (List.range phases).flatMap fun phase => (List.range blocksPerSeg).map fun off => (phase, off)

/-- `gc_type == BG_GC && has_not_enough_free_secs(sbi, 0, 0)`: the function returns. -/
def stopsAt (gcType : GcType) (v : SegVisits α) (i : ℕ × ℕ) : Bool :=
  gcType == .bg && (v.visit i.1 i.2).notEnoughFreeSecs

/-- What the last phase of `gc_node_segment` does with a valid block. -/
def nodeOutcome (gcType : GcType) (v : Visit α) (s off : ℕ) : Outcome α :=
  if !v.nodePage then .left
  else if v.gone then .invalidated
  else if v.blkAddr ≠ ssdAddr l s off then .left
  else f2fsMoveNodePage v.node gcType

def gcNodeVisit (gcType : GcType) (v : SegVisits α) (s : ℕ) (x : GcState α) (i : ℕ × ℕ) :
    Option (GcState α) :=
  if x.curValidMap s i.2 = false then some x
  else if i.1 < 2 then some x  -- readahead
  else applyOutcome l x s i.2 (nodeOutcome l gcType (v.visit i.1 i.2) s i.2)

def gcNodeSegment (gcType : GcType) (v : SegVisits α) (s : ℕ) (x : GcState α) :
    Option (GcState α) :=
  execUntil (gcNodeVisit l gcType v s) (stopsAt gcType v) x (positions 3)

def isAlive (v : Visit α) (s off : ℕ) : Bool := v.nodePage && v.blkAddr == ssdAddr l s off

/-- Phase 3 puts the inode of the block into `gc_list`. -/
def listsInode (v : Visit α) : Bool :=
  v.gotInode && (v.postReadRequired || (v.lockWrite && v.readPage))

def addGcInode (gcList : List ℕ) (ino : ℕ) : List ℕ :=
  if ino ∈ gcList then gcList else gcList ++ [ino]

/-- What phase 4 does with a block whose inode is in `gc_list`. -/
def dataOutcome (gcType : GcType) (v : Visit α) : Outcome α :=
  if v.isReg && !(v.lockRead && v.lockWrite) then .left
  else if v.postReadRequired then moveDataBlock v.data
  else moveDataPage v.data gcType

def gcDataVisit (gcType : GcType) (v : SegVisits α) (s : ℕ) (x : GcState α) (i : ℕ × ℕ) :
    Option (GcState α) :=
  if x.curValidMap s i.2 = false then some x
  else if i.1 < 2 then some x  -- readahead
  else if !isAlive l (v.visit i.1 i.2) s i.2 then some x
  else if i.1 = 2 then some x  -- readahead
  else if i.1 = 3 then
    if listsInode (v.visit i.1 i.2) then
      some { x with gcList := addGcInode x.gcList (v.visit i.1 i.2).ino }
    else some x
  else if (v.visit i.1 i.2).ino ∈ x.gcList then
    applyOutcome l x s i.2 (dataOutcome gcType (v.visit i.1 i.2))
  else some x

def gcDataSegment (gcType : GcType) (v : SegVisits α) (s : ℕ) (x : GcState α) :
    Option (GcState α) :=
  execUntil (gcDataVisit l gcType v s) (stopsAt gcType v) x (positions 5)

/-! ## `do_garbage_collect` -/

/-- The branch that goes to `next`. -/
def skipsSegment (v : SegVisits α) (x : GcState α) (s : ℕ) : Bool :=
  getValidBlocks x s == 0 || !v.sumUptodate || v.cpError

def gcBlocks (type : SumType) (gcType : GcType) (v : SegVisits α) (s : ℕ) (x : GcState α) :
    Option (GcState α) :=
  match type with
  | .node => gcNodeSegment l gcType v s x
  | .data => gcDataSegment l gcType v s x

/-- The code after `next:`. -/
def dropMapping (x : GcState α) (s : ℕ) : GcState α :=
  { x with nsbi := setLfuCount (unsetMapping l.toGeometry x.nsbi s) s (-1) }

def countFreed (gcType : GcType) (s : ℕ) (x : GcState α) : GcState α :=
  if gcType = .fg ∧ getValidBlocks x s = 0 then { x with segFreed := x.segFreed + 1 } else x

/-- One iteration, for segment `s`. -/
def gcSegment (type : SumType) (gcType : GcType) (v : ℕ → SegVisits α) (x : GcState α) (s : ℕ) :
    Option (GcState α) :=
  if skipsSegment (v s) x s then some (dropMapping l x s)
  else (gcBlocks l type gcType (v s) s x).map fun y => dropMapping l (countFreed gcType s y) s

/-- The segments of the section that starts at `start`. -/
def sectionSegs (start : ℕ) : List ℕ := (List.range l.segsPerSec).map (start + ·)

/-- The call starts with no block handed out and nothing freed. -/
def gcEnter (x : GcState α) : GcState α :=
  { x with handedOut := fun _ _ => false, segFreed := 0 }

def doGarbageCollect (type : SumType) (gcType : GcType) (v : ℕ → SegVisits α) (start : ℕ)
    (x : GcState α) : Option (GcState α) :=
  exec (gcSegment l type gcType v) (gcEnter x) (sectionSegs l start)

/-! ## The property -/

/-- The block is in use, and has been since before the call. -/
def Kept (x : GcState α) (s b : ℕ) : Prop := x.curValidMap s b = true ∧ x.handedOut s b = false

/-- **Blocks that are still valid in the victim read the same**, through `nvm_redirect_bio`. -/
def ContentKept (start : ℕ) (x x' : GcState α) : Prop :=
  ∀ s ∈ sectionSegs l start, ∀ b < blocksPerSeg, x.curValidMap s b = true → Kept x' s b →
    readBlock l x' s b = readBlock l x s b

/-! ## When a block is left -/

def Outcome.Keeps : Outcome α → Prop
  | .left => True
  | .redirtied => True
  | .replaced _ => True
  | _ => False

/-- The loops get to block `b` in phase `phase`, the last one of `phase + 1`. -/
def Reaches (gcType : GcType) (v : SegVisits α) (phase b : ℕ) : Prop :=
  ∀ i ∈ positions (phase + 1), i.1 < phase ∨ i.2 ≤ b → stopsAt gcType v i = false

/-- Phase 4 finds inode `ino` in `gc_list`: it was there before, or a block of the segment has
put it there in phase 3. -/
def ListedInode (v : SegVisits α) (x : GcState α) (s ino : ℕ) : Prop :=
  ino ∈ x.gcList ∨ ∃ b < blocksPerSeg, x.curValidMap s b = true ∧
    isAlive l (v.visit 3 b) s b = true ∧ listsInode (v.visit 3 b) = true ∧
      (v.visit 3 b).ino = ino

/-- The loops over the segment do not get to block `b`, or get there and keep it. -/
def LeftByLoops (type : SumType) (gcType : GcType) (v : SegVisits α) (x : GcState α)
    (s b : ℕ) : Prop :=
  match type with
  | .node => Reaches gcType v 2 b → (nodeOutcome l gcType (v.visit 2 b) s b).Keeps
  | .data => Reaches gcType v 4 b → isAlive l (v.visit 4 b) s b = true →
      ListedInode l v x s (v.visit 4 b).ino → (dataOutcome gcType (v.visit 4 b)).Keeps

/-- **The answers under which block `b` of segment `s` stays where it is.** -/
def Leaves (type : SumType) (gcType : GcType) (v : SegVisits α) (x : GcState α) (s b : ℕ) : Prop :=
  v.sumUptodate = false ∨ v.cpError = true ∨ LeftByLoops l type gcType v x s b

/-- Every block of segment `s` that is left has on the SSD what `x₀` reads from it. -/
def LeftOnSsd (type : SumType) (gcType : GcType) (v : ℕ → SegVisits α) (x₀ x : GcState α)
    (s : ℕ) : Prop :=
  ∀ b < blocksPerSeg, Kept x s b → Leaves l type gcType (v s) x s b →
    x₀.content (.ssd, ssdAddr l s b) = readBlock l x₀ s b

/-! ## What a step leaves alone -/

section Frame

variable {l}

lemma updateSit_apply (map : ℕ → ℕ → Bool) (s b : ℕ) (v : Bool) (s' b' : ℕ) :
    updateSit map s b v s' b' = if s' = s ∧ b' = b then v else map s' b' := by
  rw [updateSit]
  rcases eq_or_ne s' s with rfl | hs
  · rw [Function.update_self]
    simp [Function.update_apply]
  · rw [Function.update_of_ne hs]
    simp [hs]

/-- Different blocks of the MAIN area have different addresses. -/
lemma ssdAddr_inj {s s' b b' : ℕ} (hs : s < l.segmentCountMain) (hs' : s' < l.segmentCountMain)
    (hb : b < blocksPerSeg) (hb' : b' < blocksPerSeg) (h : ssdAddr l s b = ssdAddr l s' b') :
    s = s' ∧ b = b' := by
  have hsmall : ∀ {m n : ℕ}, m < 2 ^ 23 → n < 2 ^ 23 → BitVec.ofNat 32 m = BitVec.ofNat 32 n →
      m = n := by
    intro m n hm hn heq
    have hnat := congrArg BitVec.toNat heq
    rw [BitVec.toNat_ofNat, BitVec.toNat_ofNat, Nat.mod_eq_of_lt (by omega),
      Nat.mod_eq_of_lt (by omega)] at hnat
    exact hnat
  have hlt := l.ssd_lt
  have hbps : blocksPerSeg < 2 ^ 23 := by decide
  constructor
  · apply hsmall (by omega) (by omega)
    rw [← ssdMainSegoff_ssdAddr hs hb, ← ssdMainSegoff_ssdAddr hs' hb', h]
  · apply hsmall (by omega) (by omega)
    rw [← getBlkoffFromSeg0_ssdAddr hs hb, ← getBlkoffFromSeg0_ssdAddr hs' hb', h]

lemma blockTarget_eq {nsbi : NvmSbInfo} {s b : ℕ} (hs : s < l.segmentCountMain)
    (hb : b < blocksPerSeg) :
    blockTarget l nsbi s b = (resolve l.toGeometry nsbi.mpt s b).target l :=
  redirectTarget_ssdAddr nsbi.mpt hs hb

lemma blockTarget_direct {nsbi : NvmSbInfo} {s b : ℕ} (hs : s < l.segmentCountMain)
    (hb : b < blocksPerSeg)
    (hd : getRedirectFlag nsbi.mpt (l.toGeometry.ssdIndex s) = false) :
    blockTarget l nsbi s b = (.ssd, ssdAddr l s b) := by
  rw [blockTarget_eq hs hb, resolve, hd]
  rfl

/-- A write to another block does not reach the SSD copy of block `b`. -/
lemma blockTarget_ne_ssd {nsbi : NvmSbInfo} {d e s b : ℕ} (hd : d < l.segmentCountMain)
    (he : e < blocksPerSeg) (hs : s < l.segmentCountMain) (hb : b < blocksPerSeg)
    (hne : ¬ (s = d ∧ b = e)) : (Dev.ssd, ssdAddr l s b) ≠ blockTarget l nsbi d e := by
  rw [blockTarget_eq hd he, resolve]
  intro heq
  split at heq
  · exact absurd (congrArg Prod.fst heq) (by simp [Location.target])
  · exact hne (ssdAddr_inj hs hd hb he (congrArg Prod.snd heq))

/-- **From `x` to `y` nothing happened to the blocks that `y` keeps**: neither to their SSD copies
nor to the table entries of their segments. -/
structure GcFrame (l : Layout) (x y : GcState α) : Prop where
  table : EntriesOk l.toGeometry x.nsbi.mpt → EntriesOk l.toGeometry y.nsbi.mpt
  kept : ∀ s b, Kept y s b → Kept x s b
  ssd : ∀ s < l.segmentCountMain, ∀ b < blocksPerSeg, Kept y s b →
    y.content (.ssd, ssdAddr l s b) = x.content (.ssd, ssdAddr l s b)
  entry : ∀ s, ∀ b < blocksPerSeg, Kept y s b →
    y.nsbi.mpt (l.toGeometry.ssdIndex s) = x.nsbi.mpt (l.toGeometry.ssdIndex s)

lemma GcFrame.refl (x : GcState α) : GcFrame l x x :=
  ⟨id, fun _ _ h => h, fun _ _ _ _ _ => rfl, fun _ _ _ _ => rfl⟩

lemma GcFrame.trans {x y z : GcState α} (h : GcFrame l x y) (h' : GcFrame l y z) :
    GcFrame l x z where
  table := fun hx => h'.table (h.table hx)
  kept := fun s b hz => h.kept s b (h'.kept s b hz)
  ssd := fun s hs b hb hz => (h'.ssd s hs b hb hz).trans (h.ssd s hs b hb (h'.kept s b hz))
  entry := fun s b hb hz => (h'.entry s b hb hz).trans (h.entry s b hb (h'.kept s b hz))

/-- A run of steps that all leave the kept blocks alone does so too. -/
lemma GcFrame.exec {ι : Type*} {step : GcState α → ι → Option (GcState α)}
    (hstep : ∀ x i y, step x i = some y → GcFrame l x y) {L : List ι} {x y : GcState α}
    (h : exec step x L = some y) : GcFrame l x y :=
  exec_preserves (fun _ i _ hI hs => hI.trans (hstep _ i _ hs)) (GcFrame.refl x) h

/-! ### Allocation -/

lemma newCurseg_entriesOk {nsbi : NvmSbInfo} (h : EntriesOk l.toGeometry nsbi.mpt) :
    ∀ c, EntriesOk l.toGeometry (newCurseg l nsbi c).mpt
  | none => h
  | some (d, start) => by
      rw [newCurseg]
      cases hal : nvmAllocateSegmentLocked l.toGeometry nsbi start with
      | ok nsbi' n =>
          obtain ⟨hn, -, -, hnsbi⟩ := nvmAllocateSegmentLocked_ok _ hal
          have hmpt : nsbi'.mpt = nsbi.mpt := by rw [hnsbi]
          have h' : EntriesOk l.toGeometry nsbi'.mpt := hmpt ▸ h
          exact h'.create (by decide) hn
      | _ => exact h

/-- Opening a current segment changes the entry of that segment only. -/
lemma newCurseg_entry (nsbi : NvmSbInfo) {s : ℕ} :
    ∀ {c : Option (ℕ × ℕ)}, (∀ d ∈ c, d.1 ≠ s) →
      (newCurseg l nsbi c).mpt (l.toGeometry.ssdIndex s) = nsbi.mpt (l.toGeometry.ssdIndex s)
  | none, _ => rfl
  | some (d, start), hne => by
      rw [newCurseg]
      cases hal : nvmAllocateSegmentLocked l.toGeometry nsbi start with
      | ok nsbi' n =>
          obtain ⟨hn, -, -, hnsbi⟩ := nvmAllocateSegmentLocked_ok _ hal
          have hds : s ≠ d := fun heq => hne (d, start) rfl heq.symm
          show (createMapping l.toGeometry nsbi' d n (rwMap ||| rwRedirect)).mpt _ = _
          rw [createMapping_of_ne (ssdIndex_ne hn) fun heq => hds (ssdIndex_inj heq), hnsbi]
      | _ => rfl

variable {x y : GcState α} {s off : ℕ}

/-- A segment with a block in use is not opened, so its entry stays. -/
lemma Allocation.Free.entry {a : Allocation} (h : a.Free l x) {s' b' : ℕ} (hb : b' < blocksPerSeg)
    (hv : x.curValidMap s' b' = true) :
    (Hoit.newCurseg l x.nsbi a.newCurseg).mpt (l.toGeometry.ssdIndex s')
      = x.nsbi.mpt (l.toGeometry.ssdIndex s') := by
  refine newCurseg_entry _ fun d hd hds => ?_
  have hempty := h.2.2.2 d hd b' hb
  rw [hds, hv] at hempty
  exact absurd hempty (by simp)

/-- Allocation takes the old block out of use and keeps every other one. -/
lemma f2fsAllocateDataBlock_kept {a : Allocation}
    (h : f2fsAllocateDataBlock l x s off a = some y) (s' b' : ℕ) :
    Kept y s' b' ↔ Kept x s' b' ∧ ¬ (s' = s ∧ b' = off) := by
  rw [f2fsAllocateDataBlock] at h
  split at h
  · rename_i hfree
    obtain rfl := Option.some.inj h
    have hclear := hfree.2.2.1
    simp only [Kept, updateSit_apply]
    by_cases hold : s' = s ∧ b' = off
    · simp [hold]
    · by_cases hnew : s' = a.seg ∧ b' = a.blk
      · obtain ⟨rfl, rfl⟩ := hnew
        simp [hclear]
      · simp [hold, hnew]
  · exact absurd h (by simp)

lemma f2fsAllocateDataBlock_frame {a : Allocation}
    (h : f2fsAllocateDataBlock l x s off a = some y) : GcFrame l x y := by
  have hkept := f2fsAllocateDataBlock_kept h
  rw [f2fsAllocateDataBlock] at h
  split at h
  · rename_i hfree
    obtain rfl := Option.some.inj h
    refine ⟨fun hx => newCurseg_entriesOk hx _, fun s' b' hy => ((hkept s' b').mp hy).1,
      fun _ _ _ _ _ => rfl, ?_⟩
    intro s' b' hb' hy
    exact hfree.entry hb' ((hkept s' b').mp hy).1.1
  · exact absurd h (by simp)

/-- The block an allocation hands out is a block of the MAIN area, and `y` does not keep it. -/
lemma f2fsAllocateDataBlock_new {a : Allocation}
    (h : f2fsAllocateDataBlock l x s off a = some y) :
    a.seg < l.segmentCountMain ∧ a.blk < blocksPerSeg ∧ x.curValidMap a.seg a.blk = false ∧
      y.handedOut a.seg a.blk = true := by
  rw [f2fsAllocateDataBlock] at h
  split at h
  · rename_i hfree
    obtain rfl := Option.some.inj h
    refine ⟨hfree.1, hfree.2.1, hfree.2.2.1, ?_⟩
    simp [updateSit_apply]
  · exact absurd h (by simp)

/-! ### Outcomes -/

/-- A write to the block just handed out reaches no SSD copy of a kept block. -/
lemma write_frame {a : Allocation} (h : f2fsAllocateDataBlock l x s off a = some y) (v : α) :
    GcFrame l x { y with
      content := Function.update y.content (blockTarget l y.nsbi a.seg a.blk) v } := by
  have hframe := f2fsAllocateDataBlock_frame h
  obtain ⟨hseg, hblk, -, hout⟩ := f2fsAllocateDataBlock_new h
  refine ⟨hframe.table, hframe.kept, ?_, hframe.entry⟩
  intro s' hs' b' hb' hy
  have hne : ¬ (s' = a.seg ∧ b' = a.blk) := by
    rintro ⟨rfl, rfl⟩
    rw [show y.handedOut a.seg a.blk = false from hy.2] at hout
    exact absurd hout (by simp)
  show Function.update y.content (blockTarget l y.nsbi a.seg a.blk) v (.ssd, ssdAddr l s' b')
    = x.content (.ssd, ssdAddr l s' b')
  rw [Function.update_of_ne (blockTarget_ne_ssd hseg hblk hs' hb' hne)]
  exact hframe.ssd s' hs' b' hb' hy

/-- **Putting the old block back undoes the allocation** for the blocks that are kept. -/
lemma f2fsDoReplaceBlock_kept {a : Allocation} (hv : x.curValidMap s off = true)
    (h : f2fsAllocateDataBlock l x s off a = some y) (s' b' : ℕ) :
    Kept (f2fsDoReplaceBlock y s off a) s' b' ↔ Kept x s' b' := by
  have hkept := f2fsAllocateDataBlock_kept h s' b'
  obtain ⟨-, -, hclear, hout⟩ := f2fsAllocateDataBlock_new h
  have hne : ¬ (s = a.seg ∧ off = a.blk) := by
    rintro ⟨rfl, rfl⟩
    rw [hv] at hclear
    exact absurd hclear (by simp)
  have hhanded : ¬ (s' = a.seg ∧ b' = a.blk) → y.handedOut s' b' = x.handedOut s' b' := by
    intro hnew
    rw [f2fsAllocateDataBlock] at h
    split at h
    · obtain rfl := Option.some.inj h
      simp [updateSit_apply, hnew]
    · exact absurd h (by simp)
  simp only [Kept, f2fsDoReplaceBlock, updateSit_apply] at hkept ⊢
  by_cases hnew : s' = a.seg ∧ b' = a.blk
  · obtain ⟨rfl, rfl⟩ := hnew
    simp [hclear]
  · by_cases hold : s' = s ∧ b' = off
    · obtain ⟨rfl, rfl⟩ := hold
      simp [hne, hhanded hnew, hv]
    · simpa [hnew, hold] using hkept

/-- **An outcome keeps every other block, and its own block iff it says so.** -/
lemma applyOutcome_kept {o : Outcome α} (hv : x.curValidMap s off = true)
    (h : applyOutcome l x s off o = some y) (s' b' : ℕ) :
    Kept y s' b' ↔ Kept x s' b' ∧ (s' = s ∧ b' = off → o.Keeps) := by
  cases o with
  | left =>
      obtain rfl := Option.some.inj h
      simp [Outcome.Keeps]
  | redirtied =>
      obtain rfl := Option.some.inj h
      simp [Outcome.Keeps]
  | invalidated =>
      obtain rfl := Option.some.inj h
      simp only [Kept, updateSit_apply, Outcome.Keeps]
      by_cases hold : s' = s ∧ b' = off
      · simp [hold]
      · simp [hold]
  | moved a page =>
      obtain ⟨z, hz, rfl⟩ := Option.map_eq_some_iff.mp h
      exact f2fsAllocateDataBlock_kept hz s' b'
  | copied a =>
      obtain ⟨z, hz, rfl⟩ := Option.map_eq_some_iff.mp h
      exact f2fsAllocateDataBlock_kept hz s' b'
  | replaced a =>
      obtain ⟨z, hz, rfl⟩ := Option.map_eq_some_iff.mp h
      rw [f2fsDoReplaceBlock_kept hv hz]
      simp [Outcome.Keeps]
  | retried a => exact f2fsAllocateDataBlock_kept h s' b'

lemma applyOutcome_frame {o : Outcome α} (hv : x.curValidMap s off = true)
    (h : applyOutcome l x s off o = some y) : GcFrame l x y := by
  have hkept : ∀ s' b', Kept y s' b' → Kept x s' b' :=
    fun s' b' hy => ((applyOutcome_kept hv h s' b').mp hy).1
  cases o with
  | left => exact Option.some.inj h ▸ GcFrame.refl x
  | redirtied => exact Option.some.inj h ▸ GcFrame.refl x
  | invalidated =>
      obtain rfl := Option.some.inj h
      exact ⟨id, hkept, fun _ _ _ _ _ => rfl, fun _ _ _ _ => rfl⟩
  | moved a page =>
      obtain ⟨z, hz, rfl⟩ := Option.map_eq_some_iff.mp h
      exact write_frame hz page
  | copied a =>
      obtain ⟨z, hz, rfl⟩ := Option.map_eq_some_iff.mp h
      exact write_frame hz _
  | replaced a =>
      obtain ⟨z, hz, rfl⟩ := Option.map_eq_some_iff.mp h
      rw [f2fsAllocateDataBlock] at hz
      split at hz
      · rename_i hfree
        obtain rfl := Option.some.inj hz
        refine ⟨fun hx => newCurseg_entriesOk hx _, hkept, fun _ _ _ _ _ => rfl, ?_⟩
        intro s' b' hb' hy
        exact hfree.entry hb' (hkept s' b' hy).1
      · exact absurd hz (by simp)
  | retried a => exact f2fsAllocateDataBlock_frame h

/-! ### The loops -/

/-- Over a run: if each step keeps exactly the blocks that `keeps` allows, so does the run. -/
lemma exec_kept {ι : Type*} {step : GcState α → ι → Option (GcState α)} {I : GcState α → Prop}
    {keeps : ι → ℕ → ℕ → Prop} :
    ∀ {L : List ι} {x y : GcState α},
      (∀ i ∈ L, ∀ x y, I x → step x i = some y →
        I y ∧ ∀ s b, Kept y s b ↔ Kept x s b ∧ keeps i s b) →
      I x → exec step x L = some y → ∀ s b, Kept y s b ↔ Kept x s b ∧ ∀ i ∈ L, keeps i s b
  | [], x, y, _, _, h, s, b => by
      obtain rfl := Option.some.inj h
      simp
  | i :: L, x, y, hstep, hx, h, s, b => by
      obtain ⟨z, hz, hrest⟩ := exec_cons.mp h
      obtain ⟨hIz, hkept⟩ := hstep i List.mem_cons_self x z hx hz
      have htail : ∀ j ∈ L, ∀ x y, I x → step x j = some y →
          I y ∧ ∀ s b, Kept y s b ↔ Kept x s b ∧ keeps j s b :=
        fun j hj => hstep j (List.mem_cons_of_mem i hj)
      rw [exec_kept htail hIz hrest s b, hkept s b, List.forall_mem_cons, and_assoc]

/-- The last phase comes after all the others. -/
lemma positions_succ (phases : ℕ) :
    positions (phases + 1)
      = positions phases ++ (List.range blocksPerSeg).map fun off => (phases, off) := by
  simp [positions, List.range_succ]

lemma mem_positions {phases : ℕ} {i : ℕ × ℕ} :
    i ∈ positions phases ↔ i.1 < phases ∧ i.2 < blocksPerSeg := by
  obtain ⟨p, o⟩ := i
  simp [positions]

/-- The order of the loops: by phase, then by block. -/
def Before (i j : ℕ × ℕ) : Prop := i.1 < j.1 ∨ i.1 = j.1 ∧ i.2 < j.2

instance : Std.Asymm Before := ⟨fun i j h h' => by unfold Before at h h'; omega⟩

lemma positions_pairwise : ∀ phases, (positions phases).Pairwise Before
  | 0 => List.Pairwise.nil
  | phases + 1 => by
      rw [positions_succ, List.pairwise_append]
      refine ⟨positions_pairwise phases, ?_, ?_⟩
      · rw [List.pairwise_map]
        exact List.pairwise_lt_range.imp fun h => Or.inr ⟨rfl, h⟩
      · intro i hi j hj
        obtain ⟨o, -, rfl⟩ := List.mem_map.mp hj
        exact Or.inl (mem_positions.mp hi).1

/-- The positions the loops get to before they stop. -/
def reached (gcType : GcType) (v : SegVisits α) (phases : ℕ) : List (ℕ × ℕ) :=
  (positions phases).takeWhile fun i => !stopsAt gcType v i

variable {gcType : GcType} {v : SegVisits α}

lemma mem_reached_bounds {phases : ℕ} {i : ℕ × ℕ} (h : i ∈ reached gcType v phases) :
    i.1 < phases ∧ i.2 < blocksPerSeg :=
  mem_positions.mp (List.takeWhile_subset _ h)

lemma mem_reached_last {phase b : ℕ} (hb : b < blocksPerSeg) :
    (phase, b) ∈ reached gcType v (phase + 1) ↔ Reaches gcType v phase b := by
  rw [reached, mem_takeWhile_iff (positions_pairwise _)]
  constructor
  · rintro ⟨-, hall⟩ i hi hle
    have hi' := mem_positions.mp hi
    have hbefore : Before i (phase, b) ∨ i = (phase, b) := by
      rw [Before, Prod.ext_iff]
      dsimp only
      omega
    simpa using hall i hi hbefore
  · intro hreach
    refine ⟨mem_positions.mpr ⟨Nat.lt_succ_self phase, hb⟩, fun i hi hle => ?_⟩
    have hi' := mem_positions.mp hi
    have hle' : i.1 < phase ∨ i.2 ≤ b := by
      rw [Before, Prod.ext_iff] at hle
      dsimp only at hle
      omega
    simpa using hreach i hi hle'

/-! ### Node segments -/

lemma gcNodeVisit_frame {i : ℕ × ℕ} (h : gcNodeVisit l gcType v s x i = some y) :
    GcFrame l x y := by
  rw [gcNodeVisit] at h
  split at h
  · exact Option.some.inj h ▸ GcFrame.refl x
  · rename_i hv
    split at h
    · exact Option.some.inj h ▸ GcFrame.refl x
    · exact applyOutcome_frame (Bool.not_eq_false _ ▸ hv) h

lemma gcNodeVisit_kept {i : ℕ × ℕ} (h : gcNodeVisit l gcType v s x i = some y) (s' b' : ℕ) :
    Kept y s' b' ↔ Kept x s' b' ∧ (s' = s ∧ b' = i.2 → 2 ≤ i.1 →
      (nodeOutcome l gcType (v.visit i.1 i.2) s i.2).Keeps) := by
  rw [gcNodeVisit] at h
  split at h
  · rename_i hv
    obtain rfl := Option.some.inj h
    refine ⟨fun hk => ⟨hk, ?_⟩, And.left⟩
    rintro ⟨rfl, rfl⟩
    exact absurd (hk.1.symm.trans hv) (by simp)
  · rename_i hv
    split at h
    · rename_i hphase
      obtain rfl := Option.some.inj h
      exact ⟨fun hk => ⟨hk, fun _ hle => absurd hle (by omega)⟩, And.left⟩
    · rename_i hphase
      rw [applyOutcome_kept (Bool.not_eq_false _ ▸ hv) h s' b']
      simp [Nat.not_lt.mp hphase]

/-- **What `gc_node_segment` keeps.** -/
lemma gcNodeSegment_kept (h : gcNodeSegment l gcType v s x = some y) {s' b' : ℕ}
    (hb : b' < blocksPerSeg) :
    Kept y s' b' ↔ Kept x s' b' ∧
      (s' = s → Reaches gcType v 2 b' → (nodeOutcome l gcType (v.visit 2 b') s b').Keeps) := by
  rw [gcNodeSegment, execUntil_eq] at h
  have hstep : ∀ i ∈ reached gcType v 3, ∀ x y, True → gcNodeVisit l gcType v s x i = some y →
      True ∧ ∀ s' b', Kept y s' b' ↔ Kept x s' b' ∧ (s' = s ∧ b' = i.2 → 2 ≤ i.1 →
        (nodeOutcome l gcType (v.visit i.1 i.2) s i.2).Keeps) :=
    fun i _ x y _ hxy => ⟨trivial, gcNodeVisit_kept hxy⟩
  rw [exec_kept hstep trivial h s' b', and_congr_right_iff]
  intro _
  constructor
  · rintro hall hs hreach
    exact hall (2, b') ((mem_reached_last hb).mpr hreach) ⟨hs, rfl⟩ le_rfl
  · rintro hkeeps ⟨p, o⟩ hi ⟨hs, rfl⟩ hp
    obtain rfl : p = 2 := by
      have := (mem_reached_bounds hi).1
      dsimp only at this hp
      omega
    exact hkeeps hs ((mem_reached_last hb).mp hi)

/-! ### Data segments -/

lemma mem_addGcInode {gcList : List ℕ} {ino k : ℕ} :
    k ∈ addGcInode gcList ino ↔ k ∈ gcList ∨ k = ino := by
  rw [addGcInode]
  split
  · rename_i hin
    exact ⟨Or.inl, fun h => h.elim id fun heq => heq ▸ hin⟩
  · simp

/-- Block `off` puts `ino` into `gc_list` at position `i`. -/
def Lists (l : Layout) (v : SegVisits α) (x : GcState α) (s ino : ℕ) (i : ℕ × ℕ) : Prop :=
  i.1 = 3 ∧ x.curValidMap s i.2 = true ∧ isAlive l (v.visit i.1 i.2) s i.2 = true ∧
    listsInode (v.visit i.1 i.2) = true ∧ (v.visit i.1 i.2).ino = ino

/-- **Before phase 4 only `gc_list` changes**, by the inodes that phase 3 lists. -/
lemma gcDataVisit_early {i : ℕ × ℕ} (hi : i.1 < 4)
    (h : gcDataVisit l gcType v s x i = some y) :
    y = { x with gcList := y.gcList } ∧
      ∀ k, k ∈ y.gcList ↔ k ∈ x.gcList ∨ Lists l v x s k i := by
  have hsame : x = y → ¬ (∃ k, Lists l v x s k i) → y = { x with gcList := y.gcList } ∧
      ∀ k, k ∈ y.gcList ↔ k ∈ x.gcList ∨ Lists l v x s k i := by
    rintro rfl hnone
    exact ⟨rfl, fun k => ⟨Or.inl, fun hk => hk.elim id fun hl => absurd ⟨k, hl⟩ hnone⟩⟩
  rw [gcDataVisit] at h
  split at h
  · rename_i hv
    refine hsame (Option.some.inj h) ?_
    rintro ⟨k, -, hvalid, -⟩
    exact absurd (hvalid.symm.trans hv) (by simp)
  · rename_i hv
    split at h
    · rename_i hphase
      refine hsame (Option.some.inj h) ?_
      rintro ⟨k, h3, -⟩
      omega
    · split at h
      · rename_i hdead
        refine hsame (Option.some.inj h) ?_
        rintro ⟨k, -, -, halive, -⟩
        simp [halive] at hdead
      · rename_i halive
        split at h
        · rename_i h2
          refine hsame (Option.some.inj h) ?_
          rintro ⟨k, h3, -⟩
          omega
        · split at h
          · rename_i h3
            split at h
            · rename_i hlists
              obtain rfl := Option.some.inj h
              refine ⟨rfl, fun k => ?_⟩
              rw [mem_addGcInode]
              constructor
              · rintro (hk | rfl)
                · exact Or.inl hk
                · exact Or.inr ⟨h3, by simpa using hv, by simpa using halive, hlists, rfl⟩
              · rintro (hk | ⟨-, -, -, -, rfl⟩)
                · exact Or.inl hk
                · exact Or.inr rfl
            · rename_i hnot
              refine hsame (Option.some.inj h) ?_
              rintro ⟨k, -, -, -, hlists, -⟩
              exact hnot hlists
          · omega

lemma gcDataVisits_early {L : List (ℕ × ℕ)} (hL : ∀ i ∈ L, i.1 < 4)
    (h : exec (gcDataVisit l gcType v s) x L = some y) :
    y = { x with gcList := y.gcList } ∧
      ∀ k, k ∈ y.gcList ↔ k ∈ x.gcList ∨ ∃ i ∈ L, Lists l v x s k i := by
  induction L generalizing x with
  | nil =>
      obtain rfl := Option.some.inj h
      simp
  | cons i L ih =>
      obtain ⟨z, hz, hrest⟩ := exec_cons.mp h
      obtain ⟨hzx, hzlist⟩ := gcDataVisit_early (hL i List.mem_cons_self) hz
      obtain ⟨hyz, hylist⟩ := ih (fun j hj => hL j (List.mem_cons_of_mem i hj)) hrest
      have hlists : ∀ k j, Lists l v z s k j ↔ Lists l v x s k j := by
        intro k j
        rw [hzx]
        rfl
      refine ⟨hyz.trans (by rw [hzx]), fun k => ?_⟩
      rw [hylist k, hzlist k, List.exists_mem_cons_iff, or_assoc]
      simp only [hlists]

lemma applyOutcome_gcList {o : Outcome α} (h : applyOutcome l x s off o = some y) :
    y.gcList = x.gcList := by
  have halloc : ∀ {a z}, f2fsAllocateDataBlock l x s off a = some z → z.gcList = x.gcList := by
    intro a z hz
    rw [f2fsAllocateDataBlock] at hz
    split at hz
    · obtain rfl := Option.some.inj hz
      rfl
    · exact absurd hz (by simp)
  cases o with
  | left => exact Option.some.inj h ▸ rfl
  | redirtied => exact Option.some.inj h ▸ rfl
  | invalidated => exact Option.some.inj h ▸ rfl
  | moved a page =>
      obtain ⟨z, hz, rfl⟩ := Option.map_eq_some_iff.mp h
      exact (halloc hz : z.gcList = x.gcList)
  | copied a =>
      obtain ⟨z, hz, rfl⟩ := Option.map_eq_some_iff.mp h
      exact (halloc hz : z.gcList = x.gcList)
  | replaced a =>
      obtain ⟨z, hz, rfl⟩ := Option.map_eq_some_iff.mp h
      exact (halloc hz : z.gcList = x.gcList)
  | retried a => exact halloc h

/-- Phase 4, with the tests of the other phases out of the way. -/
lemma gcDataVisit_phase4 (x : GcState α) {i : ℕ × ℕ} (hi : 4 ≤ i.1) :
    gcDataVisit l gcType v s x i
      = if x.curValidMap s i.2 = true ∧ isAlive l (v.visit i.1 i.2) s i.2 = true ∧
          (v.visit i.1 i.2).ino ∈ x.gcList then
          applyOutcome l x s i.2 (dataOutcome gcType (v.visit i.1 i.2))
        else some x := by
  have h1 : ¬ i.1 < 2 := by omega
  have h2 : i.1 ≠ 2 := by omega
  have h3 : i.1 ≠ 3 := by omega
  rw [gcDataVisit, if_neg h1, if_neg h2, if_neg h3]
  cases hv : x.curValidMap s i.2 with
  | false => simp
  | true => cases halive : isAlive l (v.visit i.1 i.2) s i.2 <;> simp

/-- **Phase 4 keeps a block unless its inode is listed and the block moves or is gone.** -/
lemma gcDataVisit_last {b : ℕ} (h : gcDataVisit l gcType v s x (4, b) = some y) :
    y.gcList = x.gcList ∧ ∀ s' b', Kept y s' b' ↔ Kept x s' b' ∧ (s' = s ∧ b' = b →
      isAlive l (v.visit 4 b) s b = true → (v.visit 4 b).ino ∈ x.gcList →
        (dataOutcome gcType (v.visit 4 b)).Keeps) := by
  rw [gcDataVisit_phase4 x le_rfl] at h
  split at h
  · rename_i hc
    refine ⟨applyOutcome_gcList h, fun s' b' => ?_⟩
    rw [applyOutcome_kept hc.1 h s' b']
    simp [hc.2]
  · rename_i hc
    obtain rfl := Option.some.inj h
    refine ⟨rfl, fun s' b' => ⟨fun hk => ⟨hk, ?_⟩, And.left⟩⟩
    rintro ⟨rfl, rfl⟩ halive hin
    exact absurd ⟨hk.1, halive, hin⟩ hc

lemma gcDataVisit_frame {i : ℕ × ℕ} (h : gcDataVisit l gcType v s x i = some y) :
    GcFrame l x y := by
  rcases Nat.lt_or_ge i.1 4 with hearly | hlast
  · rw [(gcDataVisit_early hearly h).1]
    exact ⟨id, fun _ _ hk => hk, fun _ _ _ _ _ => rfl, fun _ _ _ _ => rfl⟩
  · rw [gcDataVisit_phase4 x hlast] at h
    split at h
    · rename_i hc
      exact applyOutcome_frame hc.1 h
    · exact Option.some.inj h ▸ GcFrame.refl x

/-- **What `gc_data_segment` keeps.** -/
lemma gcDataSegment_kept (h : gcDataSegment l gcType v s x = some y) {s' b' : ℕ}
    (hb : b' < blocksPerSeg) :
    Kept y s' b' ↔ Kept x s' b' ∧ (s' = s → Reaches gcType v 4 b' →
      isAlive l (v.visit 4 b') s b' = true → ListedInode l v x s (v.visit 4 b').ino →
        (dataOutcome gcType (v.visit 4 b')).Keeps) := by
  rw [gcDataSegment, execUntil_eq] at h
  rw [← mem_reached_last hb]
  have hnot : (4, b') ∉ positions 4 := fun hin => absurd (mem_positions.mp hin).1 (by simp)
  rw [reached]
  rw [positions_succ, List.takeWhile_append] at h ⊢
  split at h
  · -- phases 0 to 3 are complete: phase 3 has listed every inode it can
    rename_i hall
    rw [if_pos hall]
    obtain ⟨z, hz, hlast⟩ := exec_append.mp h
    obtain ⟨hzx, hlist⟩ := gcDataVisits_early (fun i hi => (mem_positions.mp hi).1) hz
    have hlisted : ∀ k, k ∈ z.gcList ↔ ListedInode l v x s k := by
      intro k
      rw [hlist k, ListedInode]
      refine or_congr_right ⟨?_, ?_⟩
      · rintro ⟨⟨p, o⟩, hi, rfl, hvalid, halive, hlists, hino⟩
        exact ⟨o, (mem_positions.mp hi).2, hvalid, halive, hlists, hino⟩
      · rintro ⟨o, ho, hvalid, halive, hlists, hino⟩
        exact ⟨(3, o), mem_positions.mpr ⟨Nat.lt_succ_self 3, ho⟩, rfl, hvalid, halive, hlists, hino⟩
    have hstep : ∀ i ∈ List.takeWhile (fun i => !stopsAt gcType v i)
          ((List.range blocksPerSeg).map fun off => (4, off)),
        ∀ u w, u.gcList = z.gcList → gcDataVisit l gcType v s u i = some w →
          w.gcList = z.gcList ∧ ∀ s' b', Kept w s' b' ↔ Kept u s' b' ∧ (s' = s ∧ b' = i.2 →
            isAlive l (v.visit 4 i.2) s i.2 = true → ListedInode l v x s (v.visit 4 i.2).ino →
              (dataOutcome gcType (v.visit 4 i.2)).Keeps) := by
      intro i hi u w hu huw
      obtain ⟨o, -, rfl⟩ := List.mem_map.mp (List.takeWhile_subset _ hi)
      obtain ⟨hw, hkept⟩ := gcDataVisit_last huw
      refine ⟨hw.trans hu, fun s' b' => ?_⟩
      rw [hkept s' b', hu]
      simp only [hlisted]
    have hkz : Kept z s' b' ↔ Kept x s' b' := by rw [hzx]; rfl
    rw [exec_kept hstep rfl hlast s' b', hkz, and_congr_right_iff]
    intro _
    constructor
    · intro hkeeps hs hreach
      have hmem := (List.mem_append.mp hreach).resolve_left hnot
      exact hkeeps (4, b') hmem ⟨hs, rfl⟩
    · rintro hkeeps i hi ⟨hs, rfl⟩
      obtain ⟨o, -, rfl⟩ := List.mem_map.mp (List.takeWhile_subset _ hi)
      exact hkeeps hs (List.mem_append_right _ hi)
  · -- the loops stop before phase 4
    rename_i hshort
    rw [if_neg hshort]
    have hearly : ∀ i ∈ (positions 4).takeWhile fun i => !stopsAt gcType v i, i.1 < 4 :=
      fun i hi => (mem_positions.mp (List.takeWhile_subset _ hi)).1
    have hkept : Kept y s' b' ↔ Kept x s' b' := by
      rw [(gcDataVisits_early hearly h).1]
      rfl
    rw [hkept, iff_self_and]
    intro _ _ hreach
    exact absurd (List.takeWhile_subset _ hreach) hnot

lemma gcBlocks_frame {type : SumType} (h : gcBlocks l type gcType v s x = some y) :
    GcFrame l x y := by
  cases type with
  | node =>
      rw [gcBlocks, gcNodeSegment, execUntil_eq] at h
      exact GcFrame.exec (fun _ _ _ => gcNodeVisit_frame) h
  | data =>
      rw [gcBlocks, gcDataSegment, execUntil_eq] at h
      exact GcFrame.exec (fun _ _ _ => gcDataVisit_frame) h

/-! ### One iteration -/

variable {type : SumType} {vs : ℕ → SegVisits α}

lemma not_kept_of_getValidBlocks (h : getValidBlocks x s = 0) {b : ℕ} (hb : b < blocksPerSeg) :
    ¬ Kept x s b := by
  rintro ⟨hv, -⟩
  have hcount := zeroBits_clear hb hv
  have hle := zeroBits_le (Function.update (x.curValidMap s) b false) blocksPerSeg
  rw [getValidBlocks] at h
  omega

lemma countFreed_eq (gcType : GcType) (s : ℕ) (x : GcState α) :
    ∃ n, countFreed gcType s x = { x with segFreed := n } := by
  rw [countFreed]
  split
  · exact ⟨_, rfl⟩
  · exact ⟨x.segFreed, rfl⟩

lemma gcBlocks_kept (h : gcBlocks l type gcType v s x = some y) (s' b' : ℕ)
    (hb : b' < blocksPerSeg) :
    Kept y s' b' ↔ Kept x s' b' ∧ (s' = s → LeftByLoops l type gcType v x s b') := by
  cases type with
  | node =>
      simp only [gcBlocks, LeftByLoops] at h ⊢
      exact gcNodeSegment_kept h hb
  | data =>
      simp only [gcBlocks, LeftByLoops] at h ⊢
      exact gcDataSegment_kept h hb

/-- The state at `next:`. -/
lemma gcSegment_cases (h : gcSegment l type gcType vs x s = some y) :
    ∃ z, GcFrame l x z ∧ y = dropMapping l z s ∧ ∀ s' b', b' < blocksPerSeg →
      (Kept z s' b' ↔ Kept x s' b' ∧ (s' = s → Leaves l type gcType (vs s) x s b')) := by
  rw [gcSegment] at h
  split at h
  · rename_i hskip
    refine ⟨x, GcFrame.refl x, (Option.some.inj h).symm, fun s' b' hb => ?_⟩
    rw [iff_self_and]
    rintro hk rfl
    simp only [skipsSegment, Bool.or_eq_true, beq_iff_eq, Bool.not_eq_true'] at hskip
    rcases hskip with (hzero | hup) | hcp
    · exact absurd hk (not_kept_of_getValidBlocks hzero hb)
    · exact Or.inl hup
    · exact Or.inr (Or.inl hcp)
  · rename_i hrun
    obtain ⟨w, hw, rfl⟩ := Option.map_eq_some_iff.mp h
    simp only [skipsSegment, Bool.or_eq_true, beq_iff_eq, Bool.not_eq_true', not_or,
      Bool.not_eq_false, Bool.not_eq_true] at hrun
    obtain ⟨n, hn⟩ := countFreed_eq gcType s w
    have hframe := gcBlocks_frame hw
    rw [hn]
    refine ⟨{ w with segFreed := n }, ⟨hframe.table, hframe.kept, hframe.ssd, hframe.entry⟩, rfl,
      fun s' b' hb => ?_⟩
    have hkept := gcBlocks_kept hw s' b' hb
    simp only [Leaves, hrun.1.2, hrun.2, Bool.true_eq_false, Bool.false_eq_true, false_or]
    exact hkept

/-- **What one iteration does**: the table entry of its segment is dropped, the entries and the
SSD copies of the kept blocks stay, and a block of the segment is kept iff it is left. -/
structure Iteration (l : Layout) (type : SumType) (gcType : GcType) (v : SegVisits α) (s : ℕ)
    (x y : GcState α) : Prop where
  table : EntriesOk l.toGeometry y.nsbi.mpt
  kept : ∀ s' b, b < blocksPerSeg →
    (Kept y s' b ↔ Kept x s' b ∧ (s' = s → Leaves l type gcType v x s b))
  ssd : ∀ s' < l.segmentCountMain, ∀ b < blocksPerSeg, Kept y s' b →
    y.content (.ssd, ssdAddr l s' b) = x.content (.ssd, ssdAddr l s' b)
  entry : ∀ s' ≠ s, ∀ b < blocksPerSeg, Kept y s' b →
    y.nsbi.mpt (l.toGeometry.ssdIndex s') = x.nsbi.mpt (l.toGeometry.ssdIndex s')
  direct : getRedirectFlag y.nsbi.mpt (l.toGeometry.ssdIndex s) = false

lemma gcSegment_iteration (htab : EntriesOk l.toGeometry x.nsbi.mpt) (hs : s < l.segmentCountMain)
    (h : gcSegment l type gcType vs x s = some y) : Iteration l type gcType (vs s) s x y := by
  obtain ⟨z, hframe, rfl, hkept⟩ := gcSegment_cases h
  have hz := hframe.table htab
  refine ⟨hz.unset hs, hkept, hframe.ssd, ?_, unsetMapping_direct hz hs⟩
  intro s' hne b hb hk
  have hentry := hframe.entry s' b hb hk
  rcases unsetMapping_ssd hz hs s' with hsame | ⟨heq, -⟩
  · exact hsame.trans hentry
  · exact absurd heq hne

/-! ### The section -/

/-- After the iterations of `segs`, a kept block of theirs is read from the SSD, and the SSD
holds what it held before. -/
lemma exec_segments {segs : List ℕ} (hnodup : segs.Nodup)
    (hmain : ∀ s ∈ segs, s < l.segmentCountMain) (htab : EntriesOk l.toGeometry x.nsbi.mpt)
    (h : exec (gcSegment l type gcType vs) x segs = some y) :
    (∀ s' < l.segmentCountMain, ∀ b < blocksPerSeg, Kept y s' b →
      Kept x s' b ∧ y.content (.ssd, ssdAddr l s' b) = x.content (.ssd, ssdAddr l s' b)) ∧
    (∀ s' ∉ segs, ∀ b < blocksPerSeg, Kept x s' b → Kept y s' b) ∧
    (∀ s' ∉ segs, s' < l.segmentCountMain → ∀ b < blocksPerSeg, Kept y s' b →
      y.nsbi.mpt (l.toGeometry.ssdIndex s') = x.nsbi.mpt (l.toGeometry.ssdIndex s')) ∧
    (∀ s' ∈ segs, ∀ b < blocksPerSeg, Kept y s' b →
      getRedirectFlag y.nsbi.mpt (l.toGeometry.ssdIndex s') = false) := by
  induction segs generalizing x with
  | nil =>
      obtain rfl := Option.some.inj h
      exact ⟨fun _ _ _ _ hk => ⟨hk, rfl⟩, fun _ _ _ _ hk => hk, fun _ _ _ _ _ _ => rfl, by simp⟩
  | cons s segs ih =>
      obtain ⟨z, hz, hrest⟩ := exec_cons.mp h
      obtain ⟨hs, hnodup⟩ := List.nodup_cons.mp hnodup
      have hit := gcSegment_iteration htab (hmain s List.mem_cons_self) hz
      obtain ⟨hssd, hkeep, hentry, hdirect⟩ :=
        ih hnodup (fun s' hs' => hmain s' (List.mem_cons_of_mem s hs')) hit.table hrest
      refine ⟨?_, ?_, ?_, ?_⟩
      · intro s' hs' b hb hk
        obtain ⟨hkz, hcontent⟩ := hssd s' hs' b hb hk
        exact ⟨((hit.kept s' b hb).mp hkz).1, hcontent.trans (hit.ssd s' hs' b hb hkz)⟩
      · intro s' hs' b hb hk
        obtain ⟨hne, hs'⟩ := List.ne_and_not_mem_of_not_mem_cons hs'
        exact hkeep s' hs' b hb ((hit.kept s' b hb).mpr ⟨hk, fun heq => absurd heq hne⟩)
      · intro s' hs' hlt b hb hk
        obtain ⟨hne, hs'⟩ := List.ne_and_not_mem_of_not_mem_cons hs'
        have hkz := (hssd s' hlt b hb hk).1
        exact (hentry s' hs' hlt b hb hk).trans (hit.entry s' hne b hb hkz)
      · intro s' hs' b hb hk
        rcases List.mem_cons.mp hs' with rfl | hs'
        · have hlt := hmain s' List.mem_cons_self
          rw [getRedirectFlag_congr (hentry s' hs hlt b hb hk)]
          exact hit.direct
        · exact hdirect s' hs' b hb hk

/-- **Which blocks are kept at the end**, in terms of the iterations: `C` holds of all of them iff
every iteration leaves only blocks with `C`. -/
lemma kept_iff_stepsMeet {segs : List ℕ} (hnodup : segs.Nodup)
    (hmain : ∀ s ∈ segs, s < l.segmentCountMain) (htab : EntriesOk l.toGeometry x.nsbi.mpt)
    (h : exec (gcSegment l type gcType vs) x segs = some y) (C : ℕ → ℕ → Prop) :
    (∀ s ∈ segs, ∀ b < blocksPerSeg, Kept y s b → C s b) ↔
      StepsMeet (gcSegment l type gcType vs)
        (fun z s => ∀ b < blocksPerSeg, Kept z s b → Leaves l type gcType (vs s) z s b → C s b)
        x segs := by
  induction segs generalizing x with
  | nil => simp [StepsMeet]
  | cons s segs ih =>
      obtain ⟨z, hz, hrest⟩ := exec_cons.mp h
      obtain ⟨hs, hnodup⟩ := List.nodup_cons.mp hnodup
      have hlt := hmain s List.mem_cons_self
      have hmain' : ∀ s' ∈ segs, s' < l.segmentCountMain :=
        fun s' hs' => hmain s' (List.mem_cons_of_mem s hs')
      have hit := gcSegment_iteration htab hlt hz
      obtain ⟨hssd, hkeep, -, -⟩ := exec_segments hnodup hmain' hit.table hrest
      have hhere : ∀ b < blocksPerSeg, Kept y s b ↔
          Kept x s b ∧ Leaves l type gcType (vs s) x s b := by
        intro b hb
        have hzy : Kept y s b ↔ Kept z s b :=
          ⟨fun hk => (hssd s hlt b hb hk).1, hkeep s hs b hb⟩
        rw [hzy, hit.kept s b hb]
        simp
      rw [List.forall_mem_cons, ih hnodup hmain' hit.table hrest, StepsMeet]
      refine and_congr ?_ ?_
      · refine forall₂_congr fun b hb => ?_
        rw [hhere b hb, and_imp]
      · constructor
        · intro hrest' z' hz'
          rw [hz] at hz'
          exact Option.some.inj hz' ▸ hrest'
        · intro hall
          exact hall z hz

lemma sectionSegs_nodup (start : ℕ) : (sectionSegs l start).Nodup :=
  List.nodup_range.map fun _ _ h => Nat.add_left_cancel h

lemma mem_sectionSegs {start s : ℕ} (h : s ∈ sectionSegs l start) : s < start + l.segsPerSec := by
  obtain ⟨k, hk, rfl⟩ := List.mem_map.mp h
  exact Nat.add_lt_add_left (List.mem_range.mp hk) start

/-- **Garbage collection keeps the content of the blocks that stay iff, in every iteration, each
block that is left has on the SSD what is read from it before the call** — because the mapping is
dropped in any case.  This holds for every section, every `gc_type`, every type of summary and
all answers. -/
theorem gc_keeps_content_iff {x x' : GcState α} {start : ℕ}
    (htab : EntriesOk l.toGeometry x.nsbi.mpt)
    (hin : start + l.segsPerSec ≤ l.segmentCountMain)
    (hrun : doGarbageCollect l type gcType vs start x = some x') :
    ContentKept l start x x' ↔
      StepsMeet (gcSegment l type gcType vs) (LeftOnSsd l type gcType vs x) (gcEnter x)
        (sectionSegs l start) := by
  have hmain : ∀ s ∈ sectionSegs l start, s < l.segmentCountMain :=
    fun s hs => lt_of_lt_of_le (mem_sectionSegs hs) hin
  have htab' : EntriesOk l.toGeometry (gcEnter x).nsbi.mpt := htab
  obtain ⟨hssd, -, -, hdirect⟩ := exec_segments (sectionSegs_nodup start) hmain htab' hrun
  have hread : ∀ s ∈ sectionSegs l start, ∀ b < blocksPerSeg, Kept x' s b →
      x.curValidMap s b = true ∧ readBlock l x' s b = x.content (.ssd, ssdAddr l s b) := by
    intro s hs b hb hk
    obtain ⟨hkx, hcontent⟩ := hssd s (hmain s hs) b hb hk
    refine ⟨hkx.1, ?_⟩
    rw [readBlock, blockTarget_direct (hmain s hs) hb (hdirect s hs b hb hk)]
    exact hcontent
  have hkept := kept_iff_stepsMeet (sectionSegs_nodup start) hmain htab' hrun
    fun s b => x.content (.ssd, ssdAddr l s b) = readBlock l x s b
  refine Iff.trans ?_ hkept
  constructor
  · intro hkeep s hs b hb hk
    obtain ⟨hv, hr⟩ := hread s hs b hb hk
    exact hr.symm.trans (hkeep s hs b hb hv hk)
  · intro hssd s hs b hb _ hk
    exact (hread s hs b hb hk).2.trans (hssd s hs b hb hk)

end Frame

/-! ### One mapped segment with one valid block

SSD segment 0 is mapped to NVM segment 0; its block 0 is valid, and its content 1 is on NVM only. -/

def smallLayout : Layout where
  toGeometry := smallGeometry
  seg0Blkaddr := 512
  metaSegs := 2
  nvmMainBlkaddr := 1024
  ssd_end := by decide
  nvm_end := by decide

def gcStart : GcState ℕ where
  nsbi := createMapping smallGeometry (mountState smallGeometry smallFreeI).nsbi 0 0
    (rwMap ||| rwRedirect)
  content := fun t => if t = (.nvm, 1024#32) then 1 else 0
  curValidMap := fun s b => s == 0 && b == 0
  handedOut := fun _ _ => false
  gcList := []
  segFreed := 0

/-- Every lock, page and inode is there, and the block is moved to SSD segment 1 — unless the
inode is pinned. -/
def dataAnswers (pinned : Bool) : SegVisits ℕ where
  sumUptodate := true
  cpError := false
  visit := fun _ _ =>
    { notEnoughFreeSecs := false, nodePage := true, gone := false
      blkAddr := ssdAddr smallLayout 0 0
      node := ⟨true, false, false, false, ⟨1, 0, none⟩, 1⟩
      ino := 7, gotInode := true, postReadRequired := false, lockRead := true, lockWrite := true
      readPage := true, isReg := true
      data :=
        { gotPage := true, gone := false, atomic := false, pinned := pinned, writeback := false
          lockOp := true, dnodeErr := false, nullAddr := false, encryptErr := false
          alloc := ⟨1, 0, none⟩, encryptedPage := true, ioErr := false, retry := false
          page := 1 } }

lemma gcStart_entriesOk : EntriesOk smallLayout.toGeometry gcStart.nsbi.mpt := by
  constructor
  · decide
  · decide

theorem gc_keeps_content_iff_moved :
    ∃ x', doGarbageCollect smallLayout .data .fg (fun _ => dataAnswers false) 0 gcStart = some x' ∧
      ContentKept smallLayout 0 gcStart x' := by
  have hrun : (doGarbageCollect smallLayout .data .fg (fun _ => dataAnswers false) 0
      gcStart).isSome = true := by decide +kernel
  obtain ⟨x', hx'⟩ := Option.isSome_iff_exists.mp hrun
  refine ⟨x', hx', (gc_keeps_content_iff gcStart_entriesOk (by decide) hx').mpr ?_⟩
  refine ⟨?_, fun _ _ => trivial⟩
  intro b _ hkept hleaves
  obtain rfl : b = 0 := by simpa [gcEnter, gcStart, sectionSegs] using hkept.1
  rcases hleaves with hup | hcp | hloops
  · exact absurd hup (by decide)
  · exact absurd hcp (by decide)
  · have hreach : Reaches .fg (dataAnswers false) 4 0 := fun _ _ _ => rfl
    have hlisted : ListedInode smallLayout (dataAnswers false) (gcEnter gcStart) 0 7 :=
      Or.inr ⟨0, by decide, by decide, by decide, by decide, rfl⟩
    exact absurd (hloops hreach (by decide) hlisted) id

/-- **A block that is left can be lost**: the inode is pinned, so the block stays, and the
mapping to its content is dropped. -/
theorem gc_loses_pinned_block :
    ¬ ∀ (l : Layout) (type : SumType) (gcType : GcType) (vs : ℕ → SegVisits ℕ) (start : ℕ)
      (x x' : GcState ℕ), EntriesOk l.toGeometry x.nsbi.mpt →
        start + l.segsPerSec ≤ l.segmentCountMain →
          doGarbageCollect l type gcType vs start x = some x' → ContentKept l start x x' := by
  intro hall
  have hreads : (doGarbageCollect smallLayout .data .fg (fun _ => dataAnswers true) 0 gcStart).map
      (fun x => (x.curValidMap 0 0, x.handedOut 0 0, readBlock smallLayout x 0 0))
        = some (true, false, 0) := by
    decide +kernel
  obtain ⟨x', hx', hreads⟩ := Option.map_eq_some_iff.mp hreads
  simp only [Prod.mk.injEq] at hreads
  obtain ⟨hvalid, hout, hread⟩ := hreads
  have hkeep := hall smallLayout .data .fg _ 0 gcStart x' gcStart_entriesOk (by decide) hx' 0
    (by decide) 0 (by decide) (by decide) ⟨hvalid, hout⟩
  rw [hread] at hkeep
  exact absurd hkeep (by decide)

end Hoit
