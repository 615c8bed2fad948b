import HoitF2fs.Nvm.Dio
import HoitF2fs.Nvm.MptStore

/-!
# The keys of the META mapping

`META_MAPPING` is one page cache, keyed by block number, for two devices.  The metadata lives on
NVM; but node-summary restoration, roll-forward recovery and the garbage collector's copy of
encrypted blocks put blocks of the SSD's MAIN area into the same mapping, under their SSD
addresses.  `nsb->mpt_blkaddr` *is* the SSD's `main_blkaddr`, so the two copies of the mapping
table claim keys of the first two MAIN segments.

**The model.**
* `MetaUse` — everything that is metadata: the two NVM super blocks, both copies of every page of
  the table, the CP/SIT/NAT/SSA areas.
* `MetaMapping` — which device a cached page holds the block of, with two ghosts: the keys that
  were used for MAIN blocks, and what was asked for and returned by each read.
* `metaStep` — the accesses, page by page.  Roll-forward checks its address with
  `f2fs_is_valid_meta_blkaddr`, which in this fork starts two segments into the MAIN area;
  `f2fs_restore_node_summary` and `move_data_block` check nothing.

`meta_keys_apart_iff` is exact: the keys stay apart and every read returns the block it asked for,
throughout a run, **iff** no MAIN block that is put into the mapping lies where the copies of the
table are.  `rollForward_outside` shows that roll-forward keeps this by itself.
-/

namespace Hoit

open Bitmap Transition

variable (l : Layout)

/-- The first block after the SSD's MAIN area. -/
def Layout.maxBlkaddr : ℕ := l.mainBlkaddr + l.segmentCountMain * blocksPerSeg

/-- `MAIN_OFFSET`. -/
def mainOffset : ℕ := 2

/-- `f2fs_is_valid_meta_blkaddr` for `META_POR`. -/
def f2fsIsValidPorBlkaddr (blkaddr : ℕ) : Bool :=
  !(l.maxBlkaddr ≤ blkaddr || blkaddr < l.mainBlkaddr + mainOffset * blocksPerSeg)

/-! ## What is metadata -/

inductive MetaUse where
  | nsb (copy : Bool)
  | mpt (second : Bool) (mptPgoff : ℕ)
  /-- A block of the CP, SIT, NAT or SSA area; the four lie one after the other. -/
  | area (blkaddr : ℕ)
deriving DecidableEq

def MetaUse.key : MetaUse → ℕ
  | .nsb copy => copy.toNat
  | .mpt second mptPgoff => mptCopyAddr l.mainBlkaddr second mptPgoff
  | .area blkaddr => blkaddr

def MetaUse.Valid : MetaUse → Prop
  | .nsb _ => True
  | .mpt _ mptPgoff => mptPgoff < mptDirtyMapBits l.toGeometry
  | .area blkaddr => l.seg0Blkaddr ≤ blkaddr ∧ blkaddr < l.mainBlkaddr

instance : ∀ u : MetaUse, Decidable (u.Valid l)
  | .nsb _ => isTrue trivial
  | .mpt _ _ => inferInstanceAs (Decidable (_ < _))
  | .area _ => inferInstanceAs (Decidable (_ ∧ _))

/-- The key belongs to the metadata. -/
def MetaKey (k : ℕ) : Prop := ∃ u : MetaUse, u.Valid l ∧ u.key l = k

/-! ## The mapping -/

/-- A read of a key: the device it was meant for, and the one whose block was returned. -/
structure MetaRead where
  key : ℕ
  wanted : Dev
  got : Dev
deriving DecidableEq

structure MetaMapping where
  /-- Which device's block the cached page of a key holds. -/
  page : ℕ → Option Dev
  mainUsed : List ℕ
  reads : List MetaRead

/-- `__get_meta_page`: a page that is up to date is returned as it is; otherwise it is filled
from NVM for metadata and from the SSD for a block of its MAIN area. -/
def getMetaPage (x : MetaMapping) (wanted : Dev) (k : ℕ) : MetaMapping :=
  let got := (x.page k).getD wanted
  { page := Function.update x.page k (some got)
    mainUsed := if wanted = .ssd then k :: x.mainUsed else x.mainUsed
    reads := ⟨k, wanted, got⟩ :: x.reads }

/-- `f2fs_grab_meta_page`, whose caller writes the whole page. -/
def grabMetaPage (x : MetaMapping) (k : ℕ) : MetaMapping :=
  { x with page := Function.update x.page k (some .nvm) }

inductive MetaStep where
  | metadata (u : MetaUse) (grab : Bool)
  /-- `f2fs_get_tmp_page` on block `i` of a node segment, in `f2fs_restore_node_summary`. -/
  | restoreNodeSummary (segno i : ℕ)
  /-- `f2fs_get_tmp_page` in `find_fsync_dnodes` and `recover_data`. -/
  | rollForward (blkaddr : ℕ)
  /-- One page of `f2fs_ra_meta_pages` with `META_POR`. -/
  | readahead (blkaddr : ℕ)
  /-- `move_data_block`: the page of the new address is read into, whatever it holds. -/
  | moveDataBlock (newaddr : ℕ)
  | evict (k : ℕ)
deriving DecidableEq

def metaStep (x : MetaMapping) : MetaStep → Option MetaMapping
  | .metadata u grab =>
      if u.Valid l then
        some (if grab then grabMetaPage x (u.key l) else getMetaPage x .nvm (u.key l))
      else none
  | .restoreNodeSummary segno i =>
      if segno < l.segmentCountMain ∧ i < blocksPerSeg then
        some (getMetaPage x .ssd (l.mainBlkaddr + segno * blocksPerSeg + i))
      else none
  | .rollForward blkaddr =>
      if f2fsIsValidPorBlkaddr l blkaddr then some (getMetaPage x .ssd blkaddr) else none
  | .readahead blkaddr =>
      if f2fsIsValidPorBlkaddr l blkaddr then some (getMetaPage x .ssd blkaddr) else none
  | .moveDataBlock newaddr =>
      if l.mainBlkaddr ≤ newaddr ∧ newaddr < l.maxBlkaddr then
        some { x with
          page := Function.update x.page newaddr (some .ssd)
          mainUsed := newaddr :: x.mainUsed }
      else none
  | .evict k => some { x with page := Function.update x.page k none }

/-- Nothing is cached at the start of a mount. -/
def emptyMapping : MetaMapping := ⟨fun _ => none, [], []⟩

/-! ## The property -/

/-- **The keys are apart**: no key was used for a block of the MAIN area that belongs to the
metadata, and every read has returned the block it was meant for. -/
structure KeysApart (x : MetaMapping) : Prop where
  apart : ∀ k ∈ x.mainUsed, ¬ MetaKey l k
  own : ∀ r ∈ x.reads, r.got = r.wanted

/-- The MAIN block that a step puts into the mapping. -/
def MetaStep.mainBlock : MetaStep → Option ℕ
  | .restoreNodeSummary segno i => some (l.mainBlkaddr + segno * blocksPerSeg + i)
  | .rollForward blkaddr => some blkaddr
  | .readahead blkaddr => some blkaddr
  | .moveDataBlock newaddr => some newaddr
  | .metadata _ _ => none
  | .evict _ => none

/-- A block of the MAIN area that is neither where the two copies of the table are — the first
blocks of the area, and the first blocks of its second segment when the table is shorter than a
segment — nor one of the blocks 0 and 1. -/
def OutsideMpt (blkaddr : ℕ) : Prop :=
  1 < blkaddr ∧ ∀ second : Bool, ∀ p < mptDirtyMapBits l.toGeometry,
    blkaddr ≠ mptCopyAddr l.mainBlkaddr second p

/-- The condition on a step: the MAIN block it puts into the mapping is outside the table. -/
def MetaCondition (_ : MetaMapping) (a : MetaStep) : Prop :=
  ∀ b ∈ a.mainBlock l, OutsideMpt l b

variable {l} {x : MetaMapping}

lemma metaKey_iff {b : ℕ} (hb : l.mainBlkaddr ≤ b) : MetaKey l b ↔ ¬ OutsideMpt l b := by
  constructor
  · rintro ⟨u, hu, hkey⟩ ⟨hlt, hout⟩
    cases u with
    | nsb copy =>
        cases copy <;> simp [MetaUse.key] at hkey <;> omega
    | mpt second p => exact hout second p hu hkey.symm
    | area blkaddr =>
        have hlt := hu.2
        simp only [MetaUse.key] at hkey
        omega
  · intro hin
    by_cases hlow : 1 < b
    · by_contra hno
      refine hin ⟨hlow, fun second p hp heq => hno ⟨.mpt second p, hp, heq.symm⟩⟩
    · have hcase : b = 0 ∨ b = 1 := by omega
      rcases hcase with rfl | rfl
      · exact ⟨.nsb false, trivial, rfl⟩
      · exact ⟨.nsb true, trivial, rfl⟩

lemma f2fsIsValidPorBlkaddr_iff {b : ℕ} :
    f2fsIsValidPorBlkaddr l b = true
      ↔ l.mainBlkaddr + mainOffset * blocksPerSeg ≤ b ∧ b < l.maxBlkaddr := by
  simp [f2fsIsValidPorBlkaddr, and_comm]

/-- **Roll-forward cannot collide** while the table fits into one segment. -/
lemma rollForward_outside (hbits : mptDirtyMapBits l.toGeometry ≤ blocksPerSeg) {b : ℕ}
    (hb : f2fsIsValidPorBlkaddr l b = true) : OutsideMpt l b := by
  have hle : l.mainBlkaddr + 1024 ≤ b := (f2fsIsValidPorBlkaddr_iff.mp hb).1
  unfold blocksPerSeg at hbits
  refine ⟨by omega, fun second p hp heq => ?_⟩
  cases second <;> simp [mptCopyAddr, blocksPerSeg] at heq <;> omega

/-- **The invariant**: a cached page holds a block that its key was used for. -/
structure MappingInv (l : Layout) (x : MetaMapping) : Prop where
  ssd : ∀ k, x.page k = some .ssd → k ∈ x.mainUsed
  nvm : ∀ k, x.page k = some .nvm → MetaKey l k

/-- What a step is made of: it takes a page for metadata, reads a MAIN block, overwrites the page of
a MAIN block, or drops a page. -/
inductive MetaMove (l : Layout) (x : MetaMapping) : MetaStep → MetaMapping → Prop
  | grab (u : MetaUse) (hu : u.Valid l) : MetaMove l x (.metadata u true) (grabMetaPage x (u.key l))
  | get (u : MetaUse) (hu : u.Valid l) :
      MetaMove l x (.metadata u false) (getMetaPage x .nvm (u.key l))
  | tmp (a : MetaStep) (b : ℕ) (ha : a.mainBlock l = some b) (hb : l.mainBlkaddr ≤ b) :
      MetaMove l x a (getMetaPage x .ssd b)
  | copy (b : ℕ) (hb : l.mainBlkaddr ≤ b) :
      MetaMove l x (.moveDataBlock b) { x with
        page := Function.update x.page b (some .ssd)
        mainUsed := b :: x.mainUsed }
  | evict (k : ℕ) : MetaMove l x (.evict k) { x with page := Function.update x.page k none }

lemma metaMove_of_step {a : MetaStep} {x' : MetaMapping} (h : metaStep l x a = some x') :
    MetaMove l x a x' := by
  cases a with
  | metadata u grab =>
      obtain ⟨hu, h⟩ := Option.ite_none_right_eq_some.mp h
      cases grab with
      | true =>
          obtain rfl := Option.some.inj h
          exact .grab u hu
      | false =>
          obtain rfl := Option.some.inj h
          exact .get u hu
  | restoreNodeSummary segno i =>
      obtain ⟨-, h⟩ := Option.ite_none_right_eq_some.mp h
      obtain rfl := Option.some.inj h
      exact .tmp _ _ rfl (by omega)
  | rollForward b =>
      obtain ⟨hb, h⟩ := Option.ite_none_right_eq_some.mp h
      obtain rfl := Option.some.inj h
      exact .tmp _ b rfl (le_trans (Nat.le_add_right _ _) (f2fsIsValidPorBlkaddr_iff.mp hb).1)
  | readahead b =>
      obtain ⟨hb, h⟩ := Option.ite_none_right_eq_some.mp h
      obtain rfl := Option.some.inj h
      exact .tmp _ b rfl (le_trans (Nat.le_add_right _ _) (f2fsIsValidPorBlkaddr_iff.mp hb).1)
  | moveDataBlock b =>
      obtain ⟨hb, h⟩ := Option.ite_none_right_eq_some.mp h
      obtain rfl := Option.some.inj h
      exact .copy b hb.1
  | evict k =>
      obtain rfl := Option.some.inj h
      exact .evict k

/-- A read keeps the invariant: what it returns was cached before, or is what it asked for. -/
lemma mappingInv_getMetaPage (hx : MappingInv l x) {wanted : Dev} {k : ℕ}
    (hk : wanted = .nvm → MetaKey l k) : MappingInv l (getMetaPage x wanted k) := by
  have hused : ∀ j ∈ x.mainUsed, j ∈ (getMetaPage x wanted k).mainUsed := by
    intro j hj
    cases wanted <;> simp [getMetaPage, hj]
  constructor
  · intro j hj
    by_cases hjk : j = k
    · subst hjk
      cases hp : x.page j with
      | none =>
          have hw : wanted = .ssd := by simpa [getMetaPage, hp] using hj
          simp [getMetaPage, hw]
      | some d =>
          have hd : d = .ssd := by simpa [getMetaPage, hp] using hj
          exact hused j (hx.ssd j (hd ▸ hp))
    · exact hused j (hx.ssd j (by simpa [getMetaPage, hjk] using hj))
  · intro j hj
    by_cases hjk : j = k
    · subst hjk
      cases hp : x.page j with
      | none => exact hk (by simpa [getMetaPage, hp] using hj)
      | some d =>
          have hd : d = .nvm := by simpa [getMetaPage, hp] using hj
          exact hx.nvm j (hd ▸ hp)
    · exact hx.nvm j (by simpa [getMetaPage, hjk] using hj)

lemma mappingInv_step (x : MetaMapping) (a : MetaStep) (x' : MetaMapping) (hx : MappingInv l x)
    (h : metaStep l x a = some x') : MappingInv l x' := by
  cases metaMove_of_step h with
  | grab u hu =>
      constructor
      · intro k hk
        by_cases hkey : k = u.key l
        · simp [grabMetaPage, hkey] at hk
        · exact hx.ssd k (by simpa [grabMetaPage, hkey] using hk)
      · intro k hk
        by_cases hkey : k = u.key l
        · exact ⟨u, hu, hkey.symm⟩
        · exact hx.nvm k (by simpa [grabMetaPage, hkey] using hk)
  | get u hu => exact mappingInv_getMetaPage hx fun _ => ⟨u, hu, rfl⟩
  | tmp _ b _ _ => exact mappingInv_getMetaPage hx fun hd => absurd hd (by decide)
  | copy b _ =>
      constructor
      · intro k hk
        by_cases hkb : k = b
        · simp [hkb]
        · exact List.mem_cons_of_mem b (hx.ssd k (by simpa [hkb] using hk))
      · intro k hk
        by_cases hkb : k = b
        · simp [hkb] at hk
        · exact hx.nvm k (by simpa [hkb] using hk)
  | evict j =>
      constructor
      · intro k hk
        by_cases hkj : k = j
        · simp [hkj] at hk
        · exact hx.ssd k (by simpa [hkj] using hk)
      · intro k hk
        by_cases hkj : k = j
        · simp [hkj] at hk
        · exact hx.nvm k (by simpa [hkj] using hk)

/-- **A read returns the block it was meant for**, when the keys are apart. -/
lemma got_eq_wanted (hx : MappingInv l x) (hapart : ∀ k ∈ x.mainUsed, ¬ MetaKey l k) {wanted : Dev}
    {k : ℕ} (hnvm : wanted = .nvm → MetaKey l k) (hssd : wanted = .ssd → ¬ MetaKey l k) :
    (x.page k).getD wanted = wanted := by
  cases hp : x.page k with
  | none => rfl
  | some d =>
      cases d with
      | ssd =>
          cases wanted with
          | ssd => rfl
          | nvm => exact absurd (hnvm rfl) (hapart k (hx.ssd k hp))
      | nvm =>
          cases wanted with
          | ssd => exact absurd (hx.nvm k hp) (hssd rfl)
          | nvm => rfl

/-- **A step keeps the keys apart iff** the MAIN block it uses is outside the table. -/
lemma keysApart_step_iff (x : MetaMapping) (a : MetaStep) (x' : MetaMapping)
    (hx : MappingInv l x) (hq : KeysApart l x) (h : metaStep l x a = some x') :
    KeysApart l x' ↔ MetaCondition l x a := by
  cases metaMove_of_step h with
  | grab u hu => exact iff_of_true ⟨hq.apart, hq.own⟩ (by simp [MetaCondition, MetaStep.mainBlock])
  | get u hu =>
      have hgot : (x.page (u.key l)).getD .nvm = .nvm :=
        got_eq_wanted hx hq.apart (fun _ => ⟨u, hu, rfl⟩) fun hd => absurd hd (by decide)
      refine iff_of_true ⟨hq.apart, ?_⟩ (by simp [MetaCondition, MetaStep.mainBlock])
      simpa [getMetaPage, hgot] using hq.own
  | tmp _ b ha hb =>
      have hcond : MetaCondition l x a ↔ ¬ MetaKey l b := by
        simp [MetaCondition, ha, metaKey_iff hb]
      rw [hcond]
      constructor
      · intro hq'
        exact hq'.apart b (by simp [getMetaPage])
      · intro hb'
        have hgot : (x.page b).getD .ssd = .ssd :=
          got_eq_wanted hx hq.apart (fun hd => absurd hd (by decide)) fun _ => hb'
        refine ⟨?_, ?_⟩
        · simpa [getMetaPage, hb'] using hq.apart
        · simpa [getMetaPage, hgot] using hq.own
  | copy b hb =>
      have hcond : MetaCondition l x (.moveDataBlock b) ↔ ¬ MetaKey l b := by
        simp [MetaCondition, MetaStep.mainBlock, metaKey_iff hb]
      rw [hcond]
      constructor
      · intro hq'
        exact hq'.apart b (by simp)
      · intro hb'
        refine ⟨?_, hq.own⟩
        simpa [hb'] using hq.apart
  | evict k => exact iff_of_true ⟨hq.apart, hq.own⟩ (by simp [MetaCondition, MetaStep.mainBlock])

/-- **The keys of the META mapping are apart throughout a run iff** no MAIN block that is put into
the mapping lies where a copy of the table is. -/
theorem meta_keys_apart_iff {as : List MetaStep} {x : MetaMapping}
    (h : exec (metaStep l) emptyMapping as = some x) :
    Throughout (metaStep l) (KeysApart l) emptyMapping as ↔
      StepsMeet (metaStep l) (MetaCondition l) emptyMapping as :=
  throughout_iff_stepsMeet mappingInv_step keysApart_step_iff
    ⟨fun _ hk => absurd hk (by simp [emptyMapping]), fun _ hk => absurd hk (by simp [emptyMapping])⟩
    ⟨fun _ hk => absurd hk (by simp [emptyMapping]), fun _ hr => absurd hr (by simp [emptyMapping])⟩
    h

/-! ### A node segment at the start of the MAIN area -/

/-- The first mount flushes the table to its second copy, and then restores the summary of the
warm node segment, which `mkfs` has put into MAIN segment 1. -/
def summaryRun : List MetaStep := [.metadata (.mpt true 0) true, .restoreNodeSummary 1 0]

theorem meta_keys_apart_iff_summaryRun :
    (exec (metaStep boundaryLayout) emptyMapping summaryRun).isSome = true ∧
      (Throughout (metaStep boundaryLayout) (KeysApart boundaryLayout) emptyMapping summaryRun ↔
        StepsMeet (metaStep boundaryLayout) (MetaCondition boundaryLayout) emptyMapping
          summaryRun) := by
  have hrun : (exec (metaStep boundaryLayout) emptyMapping summaryRun).isSome = true := by
    decide +kernel
  obtain ⟨x, hx⟩ := Option.isSome_iff_exists.mp hrun
  exact ⟨hrun, meta_keys_apart_iff hx⟩

/-- **A node block is read from the cached page of the mapping table.** -/
theorem meta_keys_collide :
    ¬ ∀ (l : Layout) (as : List MetaStep) (x : MetaMapping),
      exec (metaStep l) emptyMapping as = some x → KeysApart l x := by
  intro hall
  have hreads : (exec (metaStep boundaryLayout) emptyMapping summaryRun).map (·.reads)
      = some [⟨2048, .ssd, .nvm⟩] := by decide +kernel
  obtain ⟨x, hx, hreads⟩ := Option.map_eq_some_iff.mp hreads
  have hown := (hall boundaryLayout summaryRun x hx).own ⟨2048, .ssd, .nvm⟩ (by simp [hreads])
  exact absurd hown (by decide)

end Hoit
