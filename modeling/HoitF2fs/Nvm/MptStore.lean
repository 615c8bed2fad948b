import HoitF2fs.Lib.Shadow
import HoitF2fs.Nvm.CkptSegmentMap

/-!
# The mapping table on NVM

A checkpoint copies the dirty pages of `nsbi->mpt` into the META mapping.  Each page has two
copies, one segment apart, and a bit of `mpt_ver_map` says which of them is current; a flush flips
the bit and writes the copy that the flipped bit selects.  A mount reads the current copies back.

**The model.**
* `MptArea` — the version map, in bytes as the code has it, and the blocks.
* `getNextMptPage`, `flushMptPage`, `flushMptPages` — the writer, with its `while` loop and both
  of its ways of finding the next page.
* `getCurrentMptPage`, `f2fsGetMpt` — the reader.
* `MptOp` — `create_mapping`, `unset_mapping` and `set_double`, each of which marks the pages it
  changes in `mpt_dirty_map`.

**What is proved.**  `flushMptPages_eq_foldl` turns the loop into a fold over
`mptPagesToFlush`, and `flushMptPages_shadow` shows that the fold is `Shadow.writeAll`.  With
`Synced` — a clean page equals its current copy — as the invariant, `mpt_round_trip` follows: after
any run, a flush leaves blocks from which `f2fs_get_mpt` rebuilds the table.
-/

namespace Hoit

open Bitmap Transition

variable (g : Geometry)

/-- `nsb->mpt_entries`. -/
def Geometry.mptEntries : ℕ := g.mainSegmentNums + g.segmentCountMain

/-- One block of the table. -/
abbrev MptPage := Fin entriesPerBlk → BitVec 32

/-- The table as a mount finds it: the version map and the blocks of the META mapping. -/
structure MptArea where
  mptVerMap : ℕ → BitVec 8
  mptBlkaddr : ℕ
  page : ℕ → MptPage

/-- The table in memory and its pages.  `writes` is a ghost: the blocks that flushes have written,
in order, since it was last emptied. -/
structure MptStore extends MptArea where
  nsbi : NvmSbInfo
  writes : List ℕ

/-- The address of one of the two copies of a page. -/
def mptCopyAddr (mptBlkaddr : ℕ) (second : Bool) (mptPgoff : ℕ) : ℕ :=
  mptBlkaddr + mptPgoff + if second then blocksPerSeg else 0

/-! ## The writer -/

/-- `get_next_mpt_page`: the block to write, and the version map with the bit of the page
flipped.  The bit is tested *before* it is flipped. -/
def getNextMptPage (x : MptArea) (mptPgoff : ℕ) : ℕ × (ℕ → BitVec 8) :=
  let blockAddr := x.mptBlkaddr + mptPgoff
  (if !testBitMsb mptPgoff x.mptVerMap then blockAddr + blocksPerSeg else blockAddr,
    changeBitMsb mptPgoff x.mptVerMap)

/-- The part of the table that page `mptPgoff` holds. -/
def mptPageOf (mpt : Mpt) (mptPgoff : ℕ) : MptPage := fun k => mpt (entriesPerBlk * mptPgoff + k)

/-- The body of the loop of `nvm_flush_mpt_pages`.  The source sets `NVM_NSB_DIRTY` in the first
round only; setting it again changes nothing. -/
def flushMptPage (x : MptStore) (mptPgoff : ℕ) : MptStore where
  nsbi := { x.nsbi with
    nvmFlag := x.nsbi.nvmFlag ||| nvmNsbDirty
    mptDirtyMap := Function.update x.nsbi.mptDirtyMap mptPgoff false }
  mptVerMap := (getNextMptPage x.toMptArea mptPgoff).2
  mptBlkaddr := x.mptBlkaddr
  page := Function.update x.page (getNextMptPage x.toMptArea mptPgoff).1
    (mptPageOf x.nsbi.mpt mptPgoff)
  writes := x.writes ++ [(getNextMptPage x.toMptArea mptPgoff).1]

/-- Where the loop goes on: at the next page, or at the next dirty page. -/
def nextMptPgoff (x : MptStore) (flushAll : Bool) (start : ℕ) : ℕ :=
  if flushAll then start else findNextBit x.nsbi.mptDirtyMap (mptDirtyMapBits g) start

/-- The `while` loop, at most so many rounds; `flushMptLoop_eq` shows that `mpt_dirty_map_bits`
rounds are enough. -/
def flushMptLoop (flushAll : Bool) : ℕ → ℕ → MptStore → MptStore
  | 0, _, x => x
  | k + 1, mptPgoff, x =>
      if mptPgoff = mptDirtyMapBits g then x
      else
        let x' := flushMptPage x mptPgoff
        flushMptLoop flushAll k (nextMptPgoff g x' flushAll (mptPgoff + 1)) x'

/-- `nvm_flush_mpt_pages`. -/
def flushMptPages (x : MptStore) (flushAll : Bool) : MptStore :=
  flushMptLoop g flushAll (mptDirtyMapBits g) (nextMptPgoff g x flushAll 0) x

/-! ## The reader -/

def getCurrentMptPage (x : MptArea) (mptPgoff : ℕ) : MptPage :=
  let blockAddr := x.mptBlkaddr + mptPgoff
  x.page (if testBitMsb mptPgoff x.mptVerMap then blockAddr + blocksPerSeg else blockAddr)

lemma entry_mod_lt (i : ℕ) : i % entriesPerBlk < entriesPerBlk := Nat.mod_lt i (by decide)

/-- The `memcpy` of one page into the table. -/
def copyMptPage (mpt : Mpt) (mptPgoff : ℕ) (page : MptPage) : Mpt := fun i =>
  if i / entriesPerBlk = mptPgoff then page ⟨i % entriesPerBlk, entry_mod_lt i⟩ else mpt i

/-- `f2fs_get_mpt`, over a table fresh from `kvzalloc`. -/
def f2fsGetMpt (x : MptArea) : Mpt :=
  (List.range (mptDirtyMapBits g)).foldl (fun mpt i => copyMptPage mpt i (getCurrentMptPage x i))
    (fun _ => 0#32)

/-! ## Runs -/

/-- The functions that change the table. -/
inductive MptOp where
  | create (ssdSegoff nvmSegoff : ℕ) (rwFlag : BitVec 32)
  | unset (ssdSegno : ℕ)
  | double (ssdSegno : ℕ)
deriving DecidableEq

def MptOp.apply (nsbi : NvmSbInfo) : MptOp → NvmSbInfo
  | .create ssdSegoff nvmSegoff rwFlag => createMapping g nsbi ssdSegoff nvmSegoff rwFlag
  | .unset ssdSegno => unsetMapping g nsbi ssdSegno
  | .double ssdSegno => setDouble g nsbi ssdSegno

inductive MptStep where
  | op (a : MptOp)
  | flush (flushAll : Bool)
deriving DecidableEq

def MptStore.withNsbi (x : MptStore) (nsbi : NvmSbInfo) : MptStore := { x with nsbi }

/-- Every label is enabled in every state. -/
def mptStep (x : MptStore) : MptStep → Option MptStore
  | .op a => some (x.withNsbi (a.apply g x.nsbi))
  | .flush flushAll => some (flushMptPages g x flushAll)

/-- What a mount leaves: at the first one a table of zeros that is flushed as a whole, over
whatever the blocks held; later a table that was read back. -/
inductive MptMounted : MptStore → Prop
  | first (x : MptStore) (hmpt : x.nsbi.mpt = fun _ => 0#32)
      (hclean : ∀ p, x.nsbi.mptDirtyMap p = false) : MptMounted (flushMptPages g x true)
  | again (x : MptStore) (hmpt : x.nsbi.mpt = f2fsGetMpt g x.toMptArea)
      (hclean : ∀ p, x.nsbi.mptDirtyMap p = false) : MptMounted x

/-! ## The loop as a fold -/

/-- The pages that a flush copies, in order. -/
def mptPagesToFlush (x : MptStore) (flushAll : Bool) : List ℕ :=
  (List.range (mptDirtyMapBits g)).filter fun p => flushAll || x.nsbi.mptDirtyMap p

variable {g}

lemma mem_mptPagesToFlush {x : MptStore} {flushAll : Bool} {p : ℕ} :
    p ∈ mptPagesToFlush g x flushAll
      ↔ p < mptDirtyMapBits g ∧ (flushAll = true ∨ x.nsbi.mptDirtyMap p = true) := by
  simp [mptPagesToFlush]

lemma mptPagesToFlush_nodup (x : MptStore) (flushAll : Bool) :
    (mptPagesToFlush g x flushAll).Nodup := List.nodup_range.filter _

lemma nextMptPgoff_end (x : MptStore) (flushAll : Bool) :
    nextMptPgoff g x flushAll (mptDirtyMapBits g) = mptDirtyMapBits g := by
  cases flushAll with
  | true => rfl
  | false => exact findNextBit_end _ _

lemma nextMptPgoff_of_flush {x : MptStore} {flushAll : Bool} {p : ℕ} (hp : p < mptDirtyMapBits g)
    (h : (flushAll || x.nsbi.mptDirtyMap p) = true) : nextMptPgoff g x flushAll p = p := by
  cases flushAll with
  | true => rfl
  | false => exact findNextBit_of_set hp (by simpa using h)

lemma nextMptPgoff_of_skip {x : MptStore} {flushAll : Bool} {p : ℕ} (hp : p < mptDirtyMapBits g)
    (h : (flushAll || x.nsbi.mptDirtyMap p) = false) :
    nextMptPgoff g x flushAll p = nextMptPgoff g x flushAll (p + 1) := by
  cases flushAll with
  | true => exact absurd h (by simp)
  | false => exact findNextBit_of_clear hp (by simpa using h)

/-- Copying one page leaves the dirty bits of the pages after it as they were. -/
lemma filter_range'_flushMptPage (x : MptStore) (flushAll : Bool) (p m : ℕ) :
    (List.range' (p + 1) m).filter (fun q => flushAll || (flushMptPage x p).nsbi.mptDirtyMap q)
      = (List.range' (p + 1) m).filter fun q => flushAll || x.nsbi.mptDirtyMap q := by
  refine List.filter_congr ?_
  intro q hq
  have hne : q ≠ p := by
    have hle := (List.mem_range'_1.mp hq).1
    omega
  simp [flushMptPage, hne]

lemma flushMptLoop_eq (flushAll : Bool) :
    ∀ (m p k : ℕ) (x : MptStore), p + m = mptDirtyMapBits g → m ≤ k →
      flushMptLoop g flushAll k (nextMptPgoff g x flushAll p) x
        = ((List.range' p m).filter fun q => flushAll || x.nsbi.mptDirtyMap q).foldl
            flushMptPage x := by
  intro m
  induction m with
  | zero =>
      intro p k x hp _
      obtain rfl : p = mptDirtyMapBits g := by omega
      rw [nextMptPgoff_end]
      cases k with
      | zero => rfl
      | succ k => simp [flushMptLoop]
  | succ m ih =>
      intro p k x hp hk
      have hlt : p < mptDirtyMapBits g := by omega
      rw [List.range'_succ]
      cases hf : flushAll || x.nsbi.mptDirtyMap p with
      | false =>
          rw [List.filter_cons_of_neg (by simp [hf]), nextMptPgoff_of_skip hlt hf]
          exact ih (p + 1) k x (by omega) (by omega)
      | true =>
          obtain ⟨k, rfl⟩ : ∃ j, k = j + 1 := ⟨k - 1, by omega⟩
          rw [List.filter_cons_of_pos (by simpa using hf), List.foldl_cons, nextMptPgoff_of_flush hlt hf,
            flushMptLoop, if_neg hlt.ne, ih (p + 1) k (flushMptPage x p) (by omega) (by omega),
            filter_range'_flushMptPage]

/-- **The loop copies the pages of `mptPagesToFlush`, one after the other.** -/
lemma flushMptPages_eq_foldl (x : MptStore) (flushAll : Bool) :
    flushMptPages g x flushAll = (mptPagesToFlush g x flushAll).foldl flushMptPage x := by
  rw [flushMptPages, mptPagesToFlush, List.range_eq_range',
    flushMptLoop_eq flushAll (mptDirtyMapBits g) 0 (mptDirtyMapBits g) x (by omega) le_rfl]

/-! ## The flush as a shadow write -/

def MptArea.verBit (x : MptArea) (p : ℕ) : Bool := testBitMsb p x.mptVerMap

/-- The blocks and the bits of the version map, as shadow pages. -/
def MptArea.shadow (x : MptArea) : Shadow.Pages MptPage := ⟨x.verBit, x.page⟩

/-- With at most one segment of pages, no two copies share a block. -/
lemma mptCopyAddr_separate {mptBlkaddr n : ℕ} (hn : n ≤ blocksPerSeg) :
    Shadow.Separate (mptCopyAddr mptBlkaddr) n := by
  intro v w p q hp hq h
  unfold blocksPerSeg at hn
  cases v <;> cases w <;> simp [mptCopyAddr, blocksPerSeg] at h ⊢ <;> omega

lemma getNextMptPage_fst (x : MptArea) (p : ℕ) :
    (getNextMptPage x p).1 = mptCopyAddr x.mptBlkaddr (!x.verBit p) p := by
  cases hv : testBitMsb p x.mptVerMap <;>
    simp [getNextMptPage, mptCopyAddr, MptArea.verBit, hv]

lemma getCurrentMptPage_eq (x : MptArea) (p : ℕ) :
    getCurrentMptPage x p = Shadow.readCurrent (mptCopyAddr x.mptBlkaddr) x.shadow p := by
  cases hv : testBitMsb p x.mptVerMap <;>
    simp [getCurrentMptPage, mptCopyAddr, MptArea.verBit, MptArea.shadow, Shadow.readCurrent,
      Shadow.readWith, hv]

lemma flushMptPage_shadow (x : MptStore) (p : ℕ) :
    (flushMptPage x p).shadow
      = Shadow.writeNext (mptCopyAddr x.mptBlkaddr) x.shadow p (mptPageOf x.nsbi.mpt p) := by
  have hver : (flushMptPage x p).verBit = Function.update x.verBit p (!x.verBit p) :=
    testBitMsb_changeBitMsb p x.mptVerMap
  simp only [MptArea.shadow, Shadow.writeNext, hver]
  rw [← getNextMptPage_fst]
  rfl

/-- Everything the loop does to the blocks and the version map. -/
lemma foldl_flushMptPage_shadow (ps : List ℕ) (x : MptStore) :
    (ps.foldl flushMptPage x).shadow
      = Shadow.writeAll (mptCopyAddr x.mptBlkaddr) (mptPageOf x.nsbi.mpt) x.shadow ps := by
  induction ps generalizing x with
  | nil => rfl
  | cons p ps ih =>
      rw [List.foldl_cons, ih, Shadow.writeAll_cons, flushMptPage_shadow]
      rfl

/-- Everything the loop does to `nvm_sb_info`. -/
lemma foldl_flushMptPage_nsbi (ps : List ℕ) (x : MptStore) :
    (ps.foldl flushMptPage x).nsbi = { x.nsbi with
      nvmFlag := if ps = [] then x.nsbi.nvmFlag else x.nsbi.nvmFlag ||| nvmNsbDirty
      mptDirtyMap := fun p => x.nsbi.mptDirtyMap p && decide (p ∉ ps) } := by
  induction ps generalizing x with
  | nil => simp
  | cons p ps ih =>
      have hflag : ∀ f : BitVec 16, f ||| nvmNsbDirty ||| nvmNsbDirty = f ||| nvmNsbDirty := by
        intro f
        rw [BitVec.or_assoc, BitVec.or_self]
      have hdirty : (fun q => (flushMptPage x p).nsbi.mptDirtyMap q && decide (q ∉ ps))
          = fun q => x.nsbi.mptDirtyMap q && decide (q ∉ p :: ps) := by
        funext q
        by_cases hq : q = p
        · simp [flushMptPage, hq]
        · simp [flushMptPage, hq]
      rw [List.foldl_cons, ih, hdirty]
      by_cases hps : ps = []
      · simp [flushMptPage, hps]
      · simp [flushMptPage, hps, hflag]

lemma foldl_flushMptPage_mptBlkaddr (ps : List ℕ) (x : MptStore) :
    (ps.foldl flushMptPage x).mptBlkaddr = x.mptBlkaddr := by
  induction ps generalizing x with
  | nil => rfl
  | cons p ps ih => exact ih (flushMptPage x p)

/-- Which blocks the loop writes: of every page the copy that is not current. -/
lemma foldl_flushMptPage_writes {ps : List ℕ} (hnd : ps.Nodup) (x : MptStore) :
    (ps.foldl flushMptPage x).writes
      = x.writes ++ ps.map fun p => mptCopyAddr x.mptBlkaddr (!x.verBit p) p := by
  induction ps generalizing x with
  | nil => simp
  | cons p ps ih =>
      obtain ⟨hp, hnd⟩ := List.nodup_cons.mp hnd
      have hver : ∀ q ∈ ps, (flushMptPage x p).verBit q = x.verBit q := by
        intro q hq
        have hne : q ≠ p := fun h => hp (h ▸ hq)
        have hall := congrFun (testBitMsb_changeBitMsb p x.mptVerMap) q
        rw [Function.update_of_ne hne] at hall
        exact hall
      have hmap : (ps.map fun q =>
            mptCopyAddr (flushMptPage x p).mptBlkaddr (!(flushMptPage x p).verBit q) q)
          = ps.map fun q => mptCopyAddr x.mptBlkaddr (!x.verBit q) q := by
        refine List.map_congr_left ?_
        intro q hq
        rw [hver q hq]
        rfl
      rw [List.foldl_cons, ih hnd, hmap, List.map_cons, ← getNextMptPage_fst]
      simp [flushMptPage]

/-! ### The same for `nvm_flush_mpt_pages` -/

lemma flushMptPages_shadow (x : MptStore) (flushAll : Bool) :
    (flushMptPages g x flushAll).shadow
      = Shadow.writeAll (mptCopyAddr x.mptBlkaddr) (mptPageOf x.nsbi.mpt) x.shadow
          (mptPagesToFlush g x flushAll) := by
  rw [flushMptPages_eq_foldl, foldl_flushMptPage_shadow]

lemma flushMptPages_nsbi (x : MptStore) (flushAll : Bool) :
    (flushMptPages g x flushAll).nsbi = { x.nsbi with
      nvmFlag := if mptPagesToFlush g x flushAll = [] then x.nsbi.nvmFlag
        else x.nsbi.nvmFlag ||| nvmNsbDirty
      mptDirtyMap := fun p => x.nsbi.mptDirtyMap p
        && decide (p ∉ mptPagesToFlush g x flushAll) } := by
  rw [flushMptPages_eq_foldl, foldl_flushMptPage_nsbi]

@[simp] lemma flushMptPages_mpt (x : MptStore) (flushAll : Bool) :
    (flushMptPages g x flushAll).nsbi.mpt = x.nsbi.mpt := by
  rw [flushMptPages_nsbi]

@[simp] lemma flushMptPages_mptBlkaddr (x : MptStore) (flushAll : Bool) :
    (flushMptPages g x flushAll).mptBlkaddr = x.mptBlkaddr := by
  rw [flushMptPages_eq_foldl, foldl_flushMptPage_mptBlkaddr]

lemma flushMptPages_writes (x : MptStore) (flushAll : Bool) :
    (flushMptPages g x flushAll).writes = x.writes
      ++ (mptPagesToFlush g x flushAll).map fun p => mptCopyAddr x.mptBlkaddr (!x.verBit p) p := by
  rw [flushMptPages_eq_foldl, foldl_flushMptPage_writes (mptPagesToFlush_nodup x flushAll)]

lemma flushMptPages_verBit (x : MptStore) (flushAll : Bool) (p : ℕ) :
    (flushMptPages g x flushAll).verBit p
      = if p ∈ mptPagesToFlush g x flushAll then !x.verBit p else x.verBit p := by
  have hver := congrArg Shadow.Pages.ver (flushMptPages_shadow (g := g) x flushAll)
  exact (congrFun hver p).trans (Shadow.writeAll_ver (mptPagesToFlush_nodup x flushAll) p)

/-- The coarse `nvm_flush_mpt_pages` of the segment layer is this one, seen from `nvm_sb_info`. -/
lemma flushMptPages_nsbi_eq (x : MptStore) :
    (flushMptPages g x false).nsbi = nvmFlushMptPages g x.nsbi := by
  have hmem : ∀ p, p ∈ mptPagesToFlush g x false
      ↔ p < mptDirtyMapBits g ∧ x.nsbi.mptDirtyMap p = true := by
    intro p
    simp [mem_mptPagesToFlush]
  rw [flushMptPages_nsbi, nvmFlushMptPages]
  by_cases hnil : mptPagesToFlush g x false = []
  · have hclear : ∀ p < mptDirtyMapBits g, x.nsbi.mptDirtyMap p = false := by
      intro p hp
      rw [← Bool.not_eq_true]
      intro hd
      have hin := (hmem p).mpr ⟨hp, hd⟩
      rw [hnil] at hin
      exact absurd hin (List.not_mem_nil)
    rw [if_pos (findNextBit_eq_size hclear)]
    simp [hnil]
  · obtain ⟨p, hp⟩ := List.exists_mem_of_ne_nil _ hnil
    obtain ⟨hlt, hd⟩ := (hmem p).mp hp
    rw [if_neg (findNextBit_lt (Nat.zero_le p) hlt hd).ne]
    simp only [hnil, if_false]
    congr 1
    funext q
    by_cases hq : x.nsbi.mptDirtyMap q = true
    · simp only [hq, hmem, and_true, Bool.true_and, decide_not]
    · simp [hq]

/-! ## The round trip -/

/-- **The invariant**: a page that is not dirty equals its current copy. -/
def Synced (g : Geometry) (x : MptStore) : Prop :=
  ∀ p < mptDirtyMapBits g, x.nsbi.mptDirtyMap p = false →
    getCurrentMptPage x.toMptArea p = mptPageOf x.nsbi.mpt p

lemma div_lt_mptDirtyMapBits {i : ℕ} (hi : i < g.mptEntries) :
    i / entriesPerBlk < mptDirtyMapBits g := by
  unfold Geometry.mptEntries at hi
  unfold entriesPerBlk mptDirtyMapBits
  omega

/-- What `f2fs_get_mpt` puts into one entry. -/
lemma f2fsGetMpt_apply (x : MptArea) {i : ℕ} (hi : i / entriesPerBlk < mptDirtyMapBits g) :
    f2fsGetMpt g x i
      = getCurrentMptPage x (i / entriesPerBlk) ⟨i % entriesPerBlk, entry_mod_lt i⟩ := by
  have hfold : ∀ (n : ℕ) (mpt : Mpt), i / entriesPerBlk < n →
      (List.range n).foldl (fun mpt p => copyMptPage mpt p (getCurrentMptPage x p)) mpt i
        = getCurrentMptPage x (i / entriesPerBlk) ⟨i % entriesPerBlk, entry_mod_lt i⟩ := by
    intro n
    induction n with
    | zero =>
        intro mpt h
        exact absurd h (Nat.not_lt_zero _)
    | succ n ih =>
        intro mpt h
        rw [List.range_succ, List.foldl_append, List.foldl_cons, List.foldl_nil, copyMptPage]
        by_cases hn : i / entriesPerBlk = n
        · rw [if_pos hn, hn]
        · rw [if_neg hn]
          exact ih mpt (by omega)
  exact hfold _ _ hi

lemma mptPageOf_apply (mpt : Mpt) (i : ℕ) :
    mptPageOf mpt (i / entriesPerBlk) ⟨i % entriesPerBlk, entry_mod_lt i⟩ = mpt i := by
  rw [mptPageOf]
  exact congrArg mpt (Nat.div_add_mod i entriesPerBlk)

/-- Two tables with the same page agree on its entries, and conversely. -/
lemma mptPageOf_eq_iff {mpt mpt' : Mpt} {p : ℕ} :
    mptPageOf mpt p = mptPageOf mpt' p ↔ ∀ i, i / entriesPerBlk = p → mpt i = mpt' i := by
  constructor
  · intro h i hi
    subst hi
    rw [← mptPageOf_apply mpt i, h, mptPageOf_apply]
  · intro h
    funext k
    refine h _ ?_
    rw [Nat.mul_add_div (by decide), Nat.div_eq_of_lt k.isLt, Nat.add_zero]

/-- **One page of the round trip.** -/
lemma getCurrentMptPage_flushMptPages (hbits : mptDirtyMapBits g ≤ blocksPerSeg) {x : MptStore}
    (hs : Synced g x) (flushAll : Bool) {p : ℕ} (hp : p < mptDirtyMapBits g) :
    getCurrentMptPage (flushMptPages g x flushAll).toMptArea p = mptPageOf x.nsbi.mpt p := by
  have hlt : ∀ q ∈ mptPagesToFlush g x flushAll, q < mptDirtyMapBits g := fun q hq =>
    (mem_mptPagesToFlush.mp hq).1
  rw [getCurrentMptPage_eq, flushMptPages_mptBlkaddr, flushMptPages_shadow,
    Shadow.writeAll_read (mptCopyAddr_separate hbits) (mptPagesToFlush_nodup x flushAll) hlt hp]
  by_cases hmem : p ∈ mptPagesToFlush g x flushAll
  · rw [if_pos hmem]
  · have hclean : x.nsbi.mptDirtyMap p = false := by
      rw [← Bool.not_eq_true]
      exact fun hd => hmem (mem_mptPagesToFlush.mpr ⟨hp, Or.inr hd⟩)
    rw [if_neg hmem, ← getCurrentMptPage_eq, hs p hp hclean]

lemma synced_flushMptPages (hbits : mptDirtyMapBits g ≤ blocksPerSeg) {x : MptStore}
    (hs : Synced g x) (flushAll : Bool) : Synced g (flushMptPages g x flushAll) := by
  intro p hp _
  rw [getCurrentMptPage_flushMptPages hbits hs flushAll hp, flushMptPages_mpt]

/-- A flush of the whole table needs no invariant. -/
lemma getCurrentMptPage_flushAll (hbits : mptDirtyMapBits g ≤ blocksPerSeg) (x : MptStore) {p : ℕ}
    (hp : p < mptDirtyMapBits g) :
    getCurrentMptPage (flushMptPages g x true).toMptArea p = mptPageOf x.nsbi.mpt p := by
  have hlt : ∀ q ∈ mptPagesToFlush g x true, q < mptDirtyMapBits g := fun q hq =>
    (mem_mptPagesToFlush.mp hq).1
  rw [getCurrentMptPage_eq, flushMptPages_mptBlkaddr, flushMptPages_shadow,
    Shadow.writeAll_read (mptCopyAddr_separate hbits) (mptPagesToFlush_nodup x true) hlt hp,
    if_pos (mem_mptPagesToFlush.mpr ⟨hp, Or.inl rfl⟩)]

/-- A table that was read back agrees with the blocks. -/
lemma getCurrentMptPage_eq_of_get {x : MptArea} {p : ℕ} (hp : p < mptDirtyMapBits g) :
    getCurrentMptPage x p = mptPageOf (f2fsGetMpt g x) p := by
  funext k
  have hdiv : (entriesPerBlk * p + k) / entriesPerBlk = p := by
    rw [Nat.mul_add_div (by decide), Nat.div_eq_of_lt k.isLt, Nat.add_zero]
  have hmod : (entriesPerBlk * p + k) % entriesPerBlk = k := by
    rw [Nat.mul_add_mod, Nat.mod_eq_of_lt k.isLt]
  rw [mptPageOf, f2fsGetMpt_apply x (by rw [hdiv]; exact hp)]
  simp only [hdiv, hmod]

lemma MptMounted.synced (hbits : mptDirtyMapBits g ≤ blocksPerSeg) {x : MptStore}
    (h : MptMounted g x) : Synced g x := by
  cases h with
  | first x hmpt hclean =>
      intro p hp _
      rw [getCurrentMptPage_flushAll hbits x hp, flushMptPages_mpt]
  | again _ hmpt hclean =>
      intro p hp _
      rw [hmpt]
      exact getCurrentMptPage_eq_of_get hp

/-! ### What the operations do to the dirty map -/

/-- From `nsbi` to `nsbi'`, dirty bits are only set, and the page of every entry that has changed
is dirty. -/
structure MarksChanges (nsbi nsbi' : NvmSbInfo) : Prop where
  keeps : ∀ p, nsbi.mptDirtyMap p = true → nsbi'.mptDirtyMap p = true
  marks : ∀ i, nsbi'.mpt i ≠ nsbi.mpt i → nsbi'.mptDirtyMap (i / entriesPerBlk) = true

lemma MarksChanges.refl (nsbi : NvmSbInfo) : MarksChanges nsbi nsbi :=
  ⟨fun _ h => h, fun _ h => absurd rfl h⟩

lemma MarksChanges.trans {a b c : NvmSbInfo} (hab : MarksChanges a b) (hbc : MarksChanges b c) :
    MarksChanges a c := by
  refine ⟨fun p hp => hbc.keeps p (hab.keeps p hp), fun i hi => ?_⟩
  by_cases hb : c.mpt i = b.mpt i
  · exact hbc.keeps _ (hab.marks i (hb ▸ hi))
  · exact hbc.marks i hb

/-- One entry is changed and its page marked; the rest of `nvm_sb_info` may be anything. -/
lemma marksChanges_update {nsbi nsbi' : NvmSbInfo} {i j : ℕ} {v w : BitVec 32}
    (hmpt : nsbi'.mpt = Function.update (Function.update nsbi.mpt i v) j w)
    (hdirty : nsbi'.mptDirtyMap = markMptDirty (markMptDirty nsbi.mptDirtyMap i) j) :
    MarksChanges nsbi nsbi' := by
  constructor
  · intro p hp
    rw [hdirty, markMptDirty, markMptDirty]
    by_cases hpj : p = j / entriesPerBlk
    · simp [hpj]
    · by_cases hpi : p = i / entriesPerBlk
      · simp [hpi, Function.update_apply]
      · simp [hpj, hpi, hp]
  · intro k hk
    rw [hdirty, markMptDirty, markMptDirty]
    by_cases hkj : k = j
    · simp [hkj]
    · by_cases hki : k = i
      · simp [hki, Function.update_apply]
      · rw [hmpt, Function.update_of_ne hkj, Function.update_of_ne hki] at hk
        exact absurd rfl hk

/-- **Every operation marks what it changes.** -/
lemma MptOp.marksChanges (nsbi : NvmSbInfo) (a : MptOp) : MarksChanges nsbi (a.apply g nsbi) := by
  cases a with
  | create ssdSegoff nvmSegoff rwFlag => exact marksChanges_update rfl rfl
  | unset ssdSegno =>
      rw [apply, unsetMapping]
      split
      · exact marksChanges_update rfl rfl
      · exact MarksChanges.refl nsbi
  | double ssdSegno =>
      rw [apply, setDouble]
      split
      · exact marksChanges_update rfl rfl
      · exact MarksChanges.refl nsbi

lemma Synced.withNsbi {x : MptStore} (hs : Synced g x) {nsbi : NvmSbInfo}
    (hm : MarksChanges x.nsbi nsbi) : Synced g (x.withNsbi nsbi) := by
  intro p hp hclean
  have hclean₀ : x.nsbi.mptDirtyMap p = false := by
    rw [← Bool.not_eq_true]
    intro hd
    have hset : nsbi.mptDirtyMap p = true := hm.keeps p hd
    rw [MptStore.withNsbi, hset] at hclean
    exact absurd hclean (by simp)
  refine (hs p hp hclean₀).trans (mptPageOf_eq_iff.mpr ?_)
  intro i hi
  by_contra hne
  have hset := hm.marks i (Ne.symm hne)
  rw [hi] at hset
  rw [MptStore.withNsbi, hset] at hclean
  exact absurd hclean (by simp)

/-! ### Runs -/

lemma synced_step (hbits : mptDirtyMapBits g ≤ blocksPerSeg) (x : MptStore) (a : MptStep)
    (x' : MptStore) (hs : Synced g x) (h : mptStep g x a = some x') : Synced g x' := by
  cases a with
  | op a =>
      obtain rfl := Option.some.inj h
      exact hs.withNsbi (a.marksChanges x.nsbi)
  | flush flushAll =>
      obtain rfl := Option.some.inj h
      exact synced_flushMptPages hbits hs flushAll

lemma mptStep_run_total (as : List MptStep) (x : MptStore) :
    ∃ y, exec (mptStep g) x as = some y := by
  induction as generalizing x with
  | nil => exact ⟨x, rfl⟩
  | cons a as ih =>
      cases a with
      | op a => exact ih (x.withNsbi (a.apply g x.nsbi))
      | flush flushAll => exact ih (flushMptPages g x flushAll)

/-- A run without a flush marks everything that it changes. -/
lemma marksChanges_run {ops : List MptOp} {x y : MptStore}
    (h : exec (mptStep g) x (ops.map .op) = some y) : MarksChanges x.nsbi y.nsbi := by
  induction ops generalizing x with
  | nil =>
      obtain rfl := Option.some.inj h
      exact MarksChanges.refl x.nsbi
  | cons a ops ih =>
      obtain ⟨x', h1, h2⟩ := exec_cons.mp h
      obtain rfl := Option.some.inj h1
      exact (a.marksChanges x.nsbi).trans (ih h2)

/-- **The table survives on the blocks.**  From any mounted state, let `as` be any run, `ops` a
run without a flush, and flush then, the dirty pages or all of them.

* Every entry that `ops` changed lies in a page marked dirty.
* The flush writes each dirty page — with `flush_all`, each page — once, to the copy that the
  flipped bit selects; no other bit is flipped.
* `f2fs_get_mpt` rebuilds every entry of the table from the resulting blocks. -/
theorem mpt_round_trip (hbits : mptDirtyMapBits g ≤ blocksPerSeg) {x₀ x y : MptStore}
    (hmount : MptMounted g x₀) {as : List MptStep} {ops : List MptOp}
    (hx : exec (mptStep g) x₀ as = some x) (hy : exec (mptStep g) x (ops.map .op) = some y)
    (flushAll : Bool) :
    let z := flushMptPages g y flushAll
    let pages := mptPagesToFlush g y flushAll
    (∀ i < g.mptEntries, y.nsbi.mpt i ≠ x.nsbi.mpt i →
        y.nsbi.mptDirtyMap (i / entriesPerBlk) = true) ∧
      (∀ p, p ∈ pages ↔
        p < mptDirtyMapBits g ∧ (flushAll = true ∨ y.nsbi.mptDirtyMap p = true)) ∧
      z.writes = y.writes ++ pages.map (fun p => mptCopyAddr y.mptBlkaddr (z.verBit p) p) ∧
      (pages.map fun p => mptCopyAddr y.mptBlkaddr (z.verBit p) p).Nodup ∧
      (∀ p, z.verBit p = if p ∈ pages then !y.verBit p else y.verBit p) ∧
      z.nsbi.mpt = y.nsbi.mpt ∧
      ∀ i < g.mptEntries, f2fsGetMpt g z.toMptArea i = z.nsbi.mpt i := by
  have hsx : Synced g x := exec_preserves (synced_step hbits) (hmount.synced hbits) hx
  have hsy : Synced g y := exec_preserves (synced_step hbits) hsx hy
  have hmap : ((mptPagesToFlush g y flushAll).map
        fun p => mptCopyAddr y.mptBlkaddr ((flushMptPages g y flushAll).verBit p) p)
      = (mptPagesToFlush g y flushAll).map
        fun p => mptCopyAddr y.mptBlkaddr (!y.verBit p) p := by
    refine List.map_congr_left ?_
    intro p hp
    rw [flushMptPages_verBit, if_pos hp]
  refine ⟨fun i _ hi => (marksChanges_run hy).marks i hi, fun p => mem_mptPagesToFlush, ?_, ?_,
    flushMptPages_verBit y flushAll, flushMptPages_mpt y flushAll, ?_⟩
  · rw [hmap]
    exact flushMptPages_writes y flushAll
  · refine (mptPagesToFlush_nodup y flushAll).map_on ?_
    intro p hp q hq heq
    exact (mptCopyAddr_separate hbits (mem_mptPagesToFlush.mp hp).1
      (mem_mptPagesToFlush.mp hq).1 heq).2
  · intro i hi
    have hp := div_lt_mptDirtyMapBits hi
    rw [f2fsGetMpt_apply _ hp, getCurrentMptPage_flushMptPages hbits hsy flushAll hp,
      mptPageOf_apply, flushMptPages_mpt]

/-- A first mount of the two-segment NVM, over blocks that hold garbage. -/
def twoMptStore : MptStore where
  nsbi := (mountState twoGeometry smallFreeI).nsbi
  mptVerMap := fun _ => 0#8
  mptBlkaddr := 4096
  page := fun _ _ => 0xFFFFFFFF#32
  writes := []

def twoMptRun : List MptStep :=
  [.op (.create 1 0 3#32), .flush false, .op (.double 1), .flush true]

def twoMptOps : List MptOp := [.unset 1, .create 2 1 3#32]

theorem mpt_round_trip_twoGeometry :
    ∃ x y : MptStore,
      exec (mptStep twoGeometry) (flushMptPages twoGeometry twoMptStore true) twoMptRun = some x ∧
        exec (mptStep twoGeometry) x (twoMptOps.map .op) = some y ∧
        ∀ i < 6, f2fsGetMpt twoGeometry (flushMptPages twoGeometry y false).toMptArea i
          = (flushMptPages twoGeometry y false).nsbi.mpt i := by
  have hmount : MptMounted twoGeometry (flushMptPages twoGeometry twoMptStore true) :=
    .first twoMptStore rfl fun _ => rfl
  obtain ⟨x, hx⟩ := mptStep_run_total twoMptRun (flushMptPages twoGeometry twoMptStore true)
  obtain ⟨y, hy⟩ := mptStep_run_total (twoMptOps.map .op) x
  exact ⟨x, y, hx, hy, (mpt_round_trip (by decide) hmount hx hy false).2.2.2.2.2.2⟩

end Hoit
