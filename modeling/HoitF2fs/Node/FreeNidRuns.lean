import HoitF2fs.Node.FreeNidSteps

/-!
# Runs of the free nid manager

From the mount on, `available_nids` is to be the number of nids that can be found, so that
`f2fs_alloc_nid` ends (`NidsRight`).

* `NidsOk.mounted` — the invariant after the mount.  The scan goes on from where the last one
  stopped, `next_free_nid`, which is in the middle of a NAT block as a rule.  **The block counts as
  scanned, and the nids before it are never found** (`Skipped`), unless the journal has them or
  nat_bits have loaded the block.
* `nids_right` — **`available_nids` stays right as long as no inode is recovered on a nid without an
  address**, and no longer.
-/

namespace Hoit.FreeNid

open Transition

variable {g : NatGeometry} {K : ℕ → Prop} {img : MountImage} {f f' : FreeNids} {s s' : NodeManager}
  {x : ℕ}

/-! ## The image -/

/-- The device has an address for the nid. -/
def usedOnDevice (g : NatGeometry) (img : MountImage) (x : ℕ) : Bool :=
  (persistentNat g img.nat x).ni.blkAddr != nullAddr

/-- What a checkpoint leaves. -/
structure ImageOk (g : NatGeometry) (img : MountImage) : Prop where
  nat : NatMounted g img.nat
  freed : ∀ x, img.nat.freed x = false
  segs : g.natSegs ≠ 0
  maxNid : g.maxNid < 2 ^ 32
  reserved : ∀ x, x ≠ 0 → x < reservedNodeNum → usedOnDevice g img x = true
  keys : ∀ x ∈ Journal.keys img.nat.journal, reservedNodeNum ≤ x
  /-- The counts say how many nids are in use. -/
  counts : img.validNodeCount.toNat + img.nquotaFiles.toNat
    = (g.nids fun x => decide (reservedNodeNum ≤ x) && usedOnDevice g img x).card
  empty : img.natBits = true → ∀ x, x < g.maxNid → img.emptyNatBits (natBlockOffset x) = true →
    x ≠ 0 ∧ blockNull g img.nat x = true
  full : img.natBits = true → ∀ x, x ≠ 0 → x < g.maxNid →
    img.fullNatBits (natBlockOffset x) = true → blockNull g img.nat x = false

/-- Where the scan of the mount starts. -/
def scanStart (g : NatGeometry) (img : MountImage) : ℕ :=
  if g.maxNid ≤ img.nextFreeNid then 0 else img.nextFreeNid

/-- nat_bits have loaded the block. -/
def preloaded (img : MountImage) (b : ℕ) : Bool :=
  img.natBits && (img.emptyNatBits b || img.fullNatBits b)

/-- The scan of the mount passes the nid over. -/
def Skipped (g : NatGeometry) (img : MountImage) (x : ℕ) : Prop :=
  natBlockOffset x = natBlockOffset (scanStart g img) ∧ x < scanStart g img ∧
    preloaded img (natBlockOffset x) = false

/-- If the scan passes the nid over, its NAT block has an address for it, or the journal has it. -/
def SeenAtMount (g : NatGeometry) (img : MountImage) (x : ℕ) : Prop :=
  reservedNodeNum ≤ x → Skipped g img x →
    Journal.get img.nat.journal x ≠ none ∨ blockNull g img.nat x = false

/-- **No nid that is free by its NAT block is passed over.** -/
def NoneSkipped (g : NatGeometry) (img : MountImage) : Prop := ∀ x, SeenAtMount g img x

lemma ImageOk.maxNid_ge (h : ImageOk g img) : reservedNodeNum ≤ g.maxNid := by
  have hblocks : 1 ≤ g.natBlocks := by
    have hpos := h.segs
    unfold NatGeometry.natBlocks blocksPerSeg
    omega
  calc reservedNodeNum ≤ natEntryPerBlock * 1 := by decide
    _ ≤ g.maxNid := Nat.mul_le_mul_left _ hblocks

lemma ImageOk.natNidOk (h : ImageOk g img) : NatNidOk g img.nat where
  nat := h.nat.natOk
  marks :=
    { clean := by simp [h.nat.cache]
      reserved := by
        intro x hx hlt
        rw [h.nat.recorded x (by have := h.maxNid_ge; omega)]
        simpa [usedOnDevice] using h.reserved x hx hlt
      dirty := by simp [NatState.dirty, h.nat.cache]
      keys := h.keys }
  freed := by simp [h.freed]

/-! ## nat_bits -/

/-- The blocks `p` are scanned and the nids of the blocks `q` have bits, besides those before. -/
structure Loaded (f f' : FreeNids) (p q : ℕ → Prop) : Prop where
  list : SameList f f'
  bits : BitsOk f'
  blocks : ∀ b, f'.natBlockBitmap b = true ↔ f.natBlockBitmap b = true ∨ p b
  bit : ∀ x, f'.bit x = true ↔ f.bit x = true ∨ q (natBlockOffset x)
  available : f'.availableNids = f.availableNids
  next : f'.nextScanNid = f.nextScanNid

lemma setBits_loaded {nids : List ℕ} (hb : BitsOk f) (hs : ∀ x ∈ nids, f.scanned x = true) :
    SameList f (nids.foldl (fun f nid => updateFreeNidBitmap f nid true true) f) ∧
      BitsOk (nids.foldl (fun f nid => updateFreeNidBitmap f nid true true) f) ∧
      (nids.foldl (fun f nid => updateFreeNidBitmap f nid true true) f).natBlockBitmap
        = f.natBlockBitmap ∧
      (∀ x, (nids.foldl (fun f nid => updateFreeNidBitmap f nid true true) f).bit x = true ↔
        f.bit x = true ∨ x ∈ nids) ∧
      (nids.foldl (fun f nid => updateFreeNidBitmap f nid true true) f).availableNids
        = f.availableNids ∧
      (nids.foldl (fun f nid => updateFreeNidBitmap f nid true true) f).nextScanNid
        = f.nextScanNid := by
  induction nids generalizing f with
  | nil => exact ⟨⟨rfl, rfl, rfl⟩, hb, rfl, by simp, rfl, rfl⟩
  | cons nid nids ih =>
      have hb₁ : BitsOk (updateFreeNidBitmap f nid true true) :=
        hb.update fun _ hset => absurd hset (by simp)
      have hl₁ := updateFreeNidBitmap_list (f := f) nid true true
      obtain ⟨hl, hbits, hblocks, hbit, havail, hnext⟩ := ih hb₁ fun x hx => by
        rw [updateFreeNidBitmap_scanned]
        exact hs x (by simp [hx])
      refine ⟨⟨hl.root.trans hl₁.root, hl.list.trans hl₁.list, hl.cnt.trans hl₁.cnt⟩, hbits,
        hblocks.trans (updateFreeNidBitmap_blocks nid true true), fun x => ?_,
        havail.trans (updateFreeNidBitmap_available nid true true),
        hnext.trans (updateFreeNidBitmap_next nid true true)⟩
      rw [List.foldl_cons, hbit, updateFreeNidBitmap_bit, List.mem_cons]
      by_cases hx : x = nid
      · simp [hx, hs nid (by simp)]
      · simp [hx]

/-- An empty block: all of its nids have bits. -/
lemma loadEmptyBlock_loaded (hb : BitsOk f) (i : ℕ) :
    Loaded f (loadEmptyBlock f i) (· = i) (· = i) := by
  have hmem : ∀ x, x ∈ List.range' (i * natEntryPerBlock) natEntryPerBlock ↔
      natBlockOffset x = i := by
    intro x
    rw [List.mem_range'_1]
    unfold natBlockOffset natEntryPerBlock
    omega
  obtain ⟨hl, hbits, hblocks, hbit, havail, hnext⟩ := setBits_loaded (hb.markScanned i)
    fun x hx => by
      rw [markScanned_scanned, (hmem x).mp hx]
      simp
  refine ⟨⟨hl.root, hl.list, hl.cnt⟩, hbits, fun b => ?_, fun x => ?_, havail, hnext⟩
  · rw [loadEmptyBlock, hblocks]
    by_cases hbi : b = i
    · simp [markScanned, hbi]
    · simp [markScanned, hbi]
  · rw [loadEmptyBlock, hbit, hmem]
    rfl

lemma markScanned_loaded (hb : BitsOk f) (i : ℕ) :
    Loaded f (markScanned f i) (· = i) fun _ => False := by
  refine ⟨⟨rfl, rfl, rfl⟩, hb.markScanned i, fun b => ?_, fun x => ?_, rfl, rfl⟩
  · by_cases hbi : b = i
    · simp [markScanned, hbi]
    · simp [markScanned, hbi]
  · rw [or_false]
    rfl

lemma Loaded.trans {f'' : FreeNids} {p q p' q' : ℕ → Prop} (h : Loaded f f' p q)
    (h' : Loaded f' f'' p' q') :
    Loaded f f'' (fun b => p b ∨ p' b) (fun b => q b ∨ q' b) where
  list := ⟨h'.list.root.trans h.list.root, h'.list.list.trans h.list.list,
    h'.list.cnt.trans h.list.cnt⟩
  bits := h'.bits
  blocks := fun b => by rw [h'.blocks, h.blocks, or_assoc]
  bit := fun x => by rw [h'.bit, h.bit, or_assoc]
  available := h'.available.trans h.available
  next := h'.next.trans h.next

/-- Block by block. -/
lemma Loaded.foldl {load : FreeNids → ℕ → FreeNids} {q : ℕ → ℕ → Prop} (bs : List ℕ)
    (hload : ∀ f i, BitsOk f → Loaded f (load f i) (· = i) (q i)) (hb : BitsOk f) :
    Loaded f (bs.foldl load f) (· ∈ bs) (fun b => ∃ i ∈ bs, q i b) := by
  induction bs generalizing f with
  | nil => exact ⟨⟨rfl, rfl, rfl⟩, hb, by simp, by simp, rfl, rfl⟩
  | cons i bs ih =>
      have h := (hload f i hb).trans (ih (hload f i hb).bits)
      refine ⟨h.list, h.bits, fun b => ?_, fun x => ?_, h.available, h.next⟩
      · rw [List.foldl_cons, h.blocks, List.mem_cons]
      · rw [List.foldl_cons, h.bit]
        simp

lemma initNodeManager_bits (g : NatGeometry) (img : MountImage) :
    BitsOk (initNodeManager g img) := by
  refine ⟨fun _ _ _ => rfl, fun b => ?_⟩
  simp [initNodeManager, Bitmap.setBits]

/-- **`load_free_nid_bitmap`.** -/
lemma loadFreeNidBitmap_loaded (g : NatGeometry) (img : MountImage) :
    Loaded (initNodeManager g img) (loadFreeNidBitmap g img (initNodeManager g img))
      (fun b => b < g.natBlocks ∧ preloaded img b = true)
      (fun b => b < g.natBlocks ∧ img.natBits = true ∧ img.emptyNatBits b = true) := by
  have hb := initNodeManager_bits g img
  unfold loadFreeNidBitmap preloaded
  cases hbits : img.natBits with
  | false => exact ⟨⟨rfl, rfl, rfl⟩, hb, by simp, by simp, rfl, rfl⟩
  | true =>
      have hempty := Loaded.foldl ((List.range g.natBlocks).filter img.emptyNatBits)
        (fun _ i h => loadEmptyBlock_loaded h i) hb
      have hfull := hempty.trans (Loaded.foldl ((List.range g.natBlocks).filter img.fullNatBits)
        (fun _ i h => markScanned_loaded h i) hempty.bits)
      refine ⟨hfull.list, hfull.bits, fun b => (hfull.blocks b).trans ?_,
        fun x => (hfull.bit x).trans ?_, hfull.available, hfull.next⟩
      · simp [and_or_left]
      · simp

/-! ## The mount -/

/-- A nid that is not reserved is in use or free, by the device. -/
lemma card_used_add_free (g : NatGeometry) (img : MountImage) (hge : reservedNodeNum ≤ g.maxNid) :
    (g.nids fun x => decide (reservedNodeNum ≤ x) && usedOnDevice g img x).card
        + (g.nids fun x => decide (reservedNodeNum ≤ x) && !usedOnDevice g img x).card
        + reservedNodeNum = g.maxNid := by
  have hsplit := Finset.card_filter_add_card_filter_not
    (s := Finset.Ico reservedNodeNum g.maxNid) (fun x => usedOnDevice g img x = true)
  rw [Nat.card_Ico] at hsplit
  have hused : (g.nids fun x => decide (reservedNodeNum ≤ x) && usedOnDevice g img x)
      = (Finset.Ico reservedNodeNum g.maxNid).filter fun x => usedOnDevice g img x = true := by
    ext x
    simp only [NatGeometry.nids, Finset.mem_filter, Finset.mem_range, Finset.mem_Ico,
      Bool.and_eq_true, decide_eq_true_eq]
    tauto
  have hfree : (g.nids fun x => decide (reservedNodeNum ≤ x) && !usedOnDevice g img x)
      = (Finset.Ico reservedNodeNum g.maxNid).filter fun x => ¬ usedOnDevice g img x = true := by
    ext x
    simp only [NatGeometry.nids, Finset.mem_filter, Finset.mem_range, Finset.mem_Ico,
      Bool.and_eq_true, decide_eq_true_eq, Bool.not_eq_true', Bool.not_eq_true]
    tauto
  rw [hused, hfree]
  omega

/-- At the mount, what the device has no address for can be found. -/
lemma ImageOk.discoverable_mount (h : ImageOk g img)
    (hpre : ∀ x, f.freeNidRoot x ≠ some .preallocNid) (hx : x < g.maxNid) :
    FreeNid.discoverable g ⟨img.nat, f⟩ x
      = (decide (reservedNodeNum ≤ x) && !usedOnDevice g img x) := by
  have hinv : NatInv g (⟨img.nat, f⟩ : NodeManager).nat := h.nat.natOk.inv
  have hrec := h.nat.recorded x hx
  rw [Bool.eq_iff_iff, discoverable_iff hinv, Bool.and_eq_true, decide_eq_true_eq]
  unfold usedOnDevice
  rw [← hrec]
  constructor
  · rintro ⟨⟨hle, -, hnull, -⟩, -⟩
    exact ⟨hle, by simpa using hnull⟩
  · rintro ⟨hle, hnull⟩
    exact ⟨⟨hle, hx, by simpa using hnull, h.freed x⟩, hpre x⟩

/-- **`available_nids` is right after the mount.** -/
lemma ImageOk.gap_mount (h : ImageOk g img) (hpre : ∀ x, f.freeNidRoot x ≠ some .preallocNid)
    (havail : f.availableNids = (initNodeManager g img).availableNids) :
    gap g ⟨img.nat, f⟩ = 0 := by
  have hcard : (g.nids (FreeNid.discoverable g ⟨img.nat, f⟩)).card
      = (g.nids fun x => decide (reservedNodeNum ≤ x) && !usedOnDevice g img x).card := by
    refine congrArg Finset.card (Finset.filter_congr fun x hx => ?_)
    rw [h.discoverable_mount hpre (Finset.mem_range.mp hx)]
  have hsum := card_used_add_free g img h.maxNid_ge
  rw [← h.counts] at hsum
  rw [gap, hcard]
  change f.availableNids - _ = 0
  rw [havail]
  simp only [initNodeManager]
  rw [← hsum, BitVec.ofNat_add, BitVec.ofNat_add, BitVec.ofNat_add, BitVec.ofNat_toNat,
    BitVec.ofNat_toNat, BitVec.setWidth_eq, BitVec.setWidth_eq]
  grind

/-- What the device says of a nid without an address. -/
lemma ImageOk.source (h : ImageOk g img) (hlt : x < g.maxNid)
    (hnull : (img.nat.recorded x).ni.blkAddr = nullAddr) :
    JournalNull img.nat x ∨
      Journal.get img.nat.journal x = none ∧ blockNull g img.nat x = true := by
  rw [h.nat.recorded x hlt] at hnull
  unfold persistentNat at hnull
  cases hj : Journal.get img.nat.journal x with
  | some r =>
      rw [hj, Option.getD_some] at hnull
      exact Or.inl ⟨r, hj, hnull⟩
  | none =>
      rw [hj, Option.getD_none] at hnull
      exact Or.inr ⟨rfl, by simpa [blockNull] using hnull⟩

/-- nat_bits tell all about the blocks that they load. -/
lemma ImageOk.known_loaded (h : ImageOk g img) (x : ℕ) :
    Known g img.nat (loadFreeNidBitmap g img (initNodeManager g img)) x := by
  have hload := loadFreeNidBitmap_loaded g img
  intro hnull hle hlt hpre hs
  rcases (hload.blocks _).mp hs with hfalse | ⟨hblock, hpreloaded⟩
  · exact absurd hfalse (by simp [initNodeManager])
  obtain ⟨hbits, hor⟩ := Bool.and_eq_true_iff.mp hpreloaded
  rcases Bool.or_eq_true_iff.mp hor with hempty | hfull
  · exact Or.inl ((hload.bit x).mpr (Or.inr ⟨hblock, hbits, hempty⟩))
  · rcases h.source hlt hnull with hj | ⟨-, hb⟩
    · exact Or.inr (Or.inl hj)
    · have hne : x ≠ 0 := by
        unfold reservedNodeNum at hle
        omega
      rw [h.full hbits x hne hlt hfull] at hb
      exact absurd hb Bool.false_ne_true

lemma scanStart_lt (h : ImageOk g img) : scanStart g img < g.maxNid := by
  have hge := h.maxNid_ge
  unfold scanStart
  unfold reservedNodeNum at hge
  split_ifs <;> omega

/-- What the mount begins with, once nat_bits are loaded. -/
def loadedNids (g : NatGeometry) (img : MountImage) : FreeNids :=
  loadFreeNidBitmap g img (initNodeManager g img)

lemma loadedNids_root (x : ℕ) : (loadedNids g img).freeNidRoot x = none := by
  rw [loadedNids, (loadFreeNidBitmap_loaded g img).list.root]
  rfl

lemma loadedNids_list : ListOk (loadedNids g img) := by
  have hinit : ListOk (initNodeManager g img) := by
    refine ⟨List.nodup_nil, fun x => ?_, rfl⟩
    simp [initNodeManager]
  exact hinit.same (loadFreeNidBitmap_loaded g img).list

lemma loadedNids_scanned (hlt : x < g.maxNid) :
    (loadedNids g img).scanned x = true ↔ preloaded img (natBlockOffset x) = true := by
  refine ((loadFreeNidBitmap_loaded g img).blocks _).trans ?_
  simp [initNodeManager, natBlockOffset_lt hlt]

/-- The scan of the mount. -/
lemma buildNodeManager_free :
    (f2fsBuildNodeManager g img).free
      = scanBlocks g img.nat (loadedNids g img) (scanStart g img) := by
  have hload := loadFreeNidBitmap_loaded g img
  have hcnt : (loadedNids g img).nidCnt .freeNid = 0 := by
    rw [loadedNids, hload.list.cnt]
    rfl
  have hnone : ¬ (natEntryPerBlock ≤ (loadedNids g img).nidCnt .freeNid ∨
      (!true && !true) = true) := by
    rw [hcnt]
    simp [natEntryPerBlock]
  have hnext : (loadedNids g img).nextScanNid = img.nextFreeNid := hload.next
  change buildFreeNids g img.nat (loadedNids g img) true true true = _
  rw [buildFreeNids_eq, if_neg hnone, if_pos rfl, hnext]
  rfl

/-- **The invariant after the mount**, and which nids a scan will come across. -/
lemma ImageOk.mounted (h : ImageOk g img) :
    NidsOk g (SeenAtMount g img) (f2fsBuildNodeManager g img) ∧
      (∀ x, (f2fsBuildNodeManager g img).free.freeNidRoot x ≠ some .preallocNid) ∧
      gap g (f2fsBuildNodeManager g img) = 0 := by
  have hload := loadFreeNidBitmap_loaded g img
  have hok := h.natNidOk
  obtain ⟨hstage, hsound, hknown, hnext, hmod, -, -⟩ :=
    scanBlocks_scan hok loadedNids_list hload.bits (scanStart_lt h)
      (fun x hx => by simp [loadedNids_root] at hx) (fun x hx => by simp [loadedNids_root] at hx)
  rw [← buildNodeManager_free] at hstage hsound hknown hnext hmod
  have hpre : ∀ x, (f2fsBuildNodeManager g img).free.freeNidRoot x ≠ some .preallocNid := by
    intro x hx
    have hold := (hstage.frame.prealloc x).mp hx
    rw [loadedNids_root] at hold
    exact absurd hold (by simp)
  refine ⟨⟨hok, ⟨hstage.frame.list, hstage.frame.bits, fun x state hx => ?_,
    fun x hx => (hsound x hx).null, fun x hx => absurd hx (hpre x), ?_, fun x hlt hbit => ?_,
    hnext, hmod⟩, fun x hx => (hsound x hx).freed⟩, hpre, ?_⟩
  · cases state with
    | freeNid => exact ⟨(hsound x hx).reserved, (hsound x hx).lt⟩
    | preallocNid => exact absurd hx (hpre x)
  · rintro x (hx | hx)
    · exact hstage.known (fun y _ => h.known_loaded y) x hx
    · by_cases hskip : (loadedNids g img).scanned x = true ∨
          ¬ (natBlockOffset x = natBlockOffset (scanStart g img) ∧ x < scanStart g img)
      · exact hknown x hskip (h.known_loaded x)
      · intro hnull hle hlt _ _
        rw [loadedNids_scanned hlt, not_or, not_not, Bool.not_eq_true] at hskip
        obtain ⟨hblock, hoff, hless⟩ := hskip
        rcases h.source hlt hnull with hj | ⟨hnone, hb⟩
        · exact Or.inr (Or.inl hj)
        · rcases hx hle ⟨hoff, hless, hblock⟩ with hsome | hused
          · exact absurd hnone hsome
          · rw [hused] at hb
            exact absurd hb Bool.false_ne_true
  · cases hs : (loadedNids g img).scanned x with
    | true =>
        rw [hstage.frame.bit x hs] at hbit
        rcases (hload.bit x).mp hbit with hfalse | ⟨-, hbits, hempty⟩
        · exact absurd hfalse (by simp [FreeNids.bit, initNodeManager])
        · obtain ⟨hne, hb⟩ := h.empty hbits x hlt hempty
          exact ⟨hne, Or.inl hb⟩
    | false =>
        obtain ⟨hnull, hne⟩ := hstage.frame.fresh x hs hbit
        exact ⟨hne, Or.inl hnull⟩
  · exact h.gap_mount hpre (hstage.frame.available.trans hload.available)

/-- **What the mount passes over no scan comes across**, if the journal does not have it. -/
lemma ImageOk.skipped_unknown (h : ImageOk g img) (hskip : Skipped g img x)
    (hfound : Findable g img.nat (f2fsBuildNodeManager g img).free x)
    (hnone : Journal.get img.nat.journal x = none) :
    ¬ Known g img.nat (f2fsBuildNodeManager g img).free x := by
  obtain ⟨hoff, hless, hblock⟩ := hskip
  have hstart : (loadedNids g img).scanned (scanStart g img) = false := by
    rw [Bool.eq_false_iff, ne_eq, loadedNids_scanned (scanStart_lt h), ← hoff, hblock]
    simp
  obtain ⟨hscan, hbit⟩ := scanNatPages_before img.nat 7 loadedNids_list
    (loadFreeNidBitmap_loaded g img).bits (scanStart_lt h) hstart hoff hless
  have hpages := (scanNatPages_scan img.nat freeNidPages loadedNids_list
    (loadFreeNidBitmap_loaded g img).bits (scanStart_lt h)).1.frame.list
  have hjournal : JournalScanned img.nat
      { (scanNatPages g img.nat freeNidPages (loadedNids g img) (scanStart g img)).1 with
        nextScanNid :=
          (scanNatPages g img.nat freeNidPages (loadedNids g img) (scanStart g img)).2 }
      (f2fsBuildNodeManager g img).free img.nat.journal := by
    rw [buildNodeManager_free]
    exact scanJournal_scan h.natNidOk.journal_nodup (hpages.same ⟨rfl, rfl, rfl⟩)
  intro hk
  have hs : (f2fsBuildNodeManager g img).free.scanned x = true := by
    rw [hjournal.bits.scanned]
    exact hscan
  rcases hfound.source h.nat.natOk hk hs with hset | ⟨r, hr, -⟩
  · rw [hjournal.bits.bit] at hset
    exact absurd (hbit.symm.trans hset) (by simp)
  · rw [hnone] at hr
    exact absurd hr (by simp)

lemma NidsOk.mono {K' : ℕ → Prop} (h : NidsOk g K s) (hK : ∀ x, K' x → K x) : NidsOk g K' s where
  nat := h.nat
  pool :=
    { list := h.pool.list
      bits := h.pool.bits
      range := h.pool.range
      null := h.pool.null
      prealloc := h.pool.prealloc
      known := fun x hx => h.pool.known x (hx.imp_right (hK x))
      bit := h.pool.bit
      next := h.pool.next
      aligned := h.pool.aligned }
  free := h.free

/-! ## What the count is for -/

/-- **`available_nids` is the number of nids that can be found**, and so `f2fs_alloc_nid` ends: with
one of them if there is one, and without if there is none. -/
structure NidsRight (g : NatGeometry) (s : NodeManager) : Prop where
  count : s.free.availableNids.toNat = (g.nids (discoverable g s)).card
  alloc : ∃ least r f', (∀ rounds, least ≤ rounds →
      f2fsAllocNid g s.nat rounds s.free = some (r, f')) ∧
    (r.isSome = true ↔ ∃ x, discoverable g s x = true) ∧
    ∀ nid, r = some nid → discoverable g s nid = true

lemma discoverable_mem (hx : discoverable g s x = true) : x ∈ g.nids (discoverable g s) := by
  have hlt : x < g.maxNid := by
    unfold discoverable at hx
    simp only [Bool.and_eq_true, decide_eq_true_eq] at hx
    exact hx.1.1.1.2
  simpa [NatGeometry.nids] using ⟨hlt, hx⟩

lemma nids_card_le (p : ℕ → Bool) : (g.nids p).card ≤ g.maxNid := by
  have hsub : g.nids p ⊆ Finset.range g.maxNid := Finset.filter_subset _ _
  simpa using Finset.card_le_card hsub

lemma gap_eq_zero_iff (hmax : g.maxNid < 2 ^ 32) :
    gap g s = 0 ↔ s.free.availableNids.toNat = (g.nids (discoverable g s)).card := by
  have hcard : (g.nids (discoverable g s)).card < 2 ^ 32 := lt_of_le_of_lt (nids_card_le _) hmax
  have hsub : gap g s = 0 ↔
      s.free.availableNids = BitVec.ofNat 32 (g.nids (discoverable g s)).card := by
    rw [gap]
    constructor <;> intro h <;> grind
  rw [hsub, ← BitVec.toNat_inj, BitVec.toNat_ofNat, Nat.mod_eq_of_lt hcard]

/-- **The loop ends as it should** when every nid is known and the count is right. -/
lemma NidsOk.right (h : NidsOk g (fun _ => True) s) (hmax : g.maxNid < 2 ^ 32)
    (hgap : gap g s = 0) : NidsRight g s := by
  have hcount := (gap_eq_zero_iff hmax).mp hgap
  refine ⟨hcount, ?_⟩
  by_cases hfree : ∃ x, FreeNid.discoverable g s x = true
  · obtain ⟨x, hx⟩ := hfree
    have hne : s.free.availableNids ≠ 0 := by
      intro hzero
      rw [hzero] at hcount
      have hnone := Finset.card_eq_zero.mp hcount.symm
      exact Finset.notMem_empty x (hnone ▸ discoverable_mem hx)
    have hfound := (discoverable_iff h.nat.nat.inv).mp hx
    obtain ⟨rounds, nid, f', hr⟩ := alloc_finds h.nat h.pool h.sound hne hfound
      (h.pool.known x (Or.inr trivial))
    have hsome := (h.alloc hr).2.2
    refine ⟨rounds, some nid, f', fun rounds' hle => ?_, by simpa using ⟨x, hx⟩,
      fun nid' hnid => (hsome nid' hnid).1⟩
    rw [← Nat.add_sub_of_le hle]
    exact alloc_more hr _
  · have hzero : s.free.availableNids = 0 := by
      have hnone : g.nids (FreeNid.discoverable g s) = ∅ := by
        refine Finset.filter_eq_empty_iff.mpr fun x _ => ?_
        exact fun hx => hfree ⟨x, hx⟩
      rw [hnone, Finset.card_empty] at hcount
      exact BitVec.eq_of_toNat_eq hcount
    have hr : f2fsAllocNid g s.nat 1 s.free = some (none, s.free) := by
      rw [f2fsAllocNid, if_pos hzero]
    refine ⟨1, none, s.free, fun rounds hle => ?_, by simpa using hfree,
      fun nid hnid => absurd hnid (by simp)⟩
    rw [← Nat.add_sub_of_le hle]
    exact alloc_more hr _

/-! ## Some images -/

/-- A NAT of one pair of segments. -/
def oneNatSegment : NatGeometry := ⟨1024, 1⟩

/-- What the NAT has for a nid that is in use, or free. -/
def nidEntry (used : Bool) : Recorded := ⟨⟨0, if used then 1#32 else nullAddr, 0⟩, 0⟩

/-- A NAT in which some nids are in use. -/
def nidTable (used : ℕ → Bool) : NatState :=
  { emptyNat with
    nat := ⟨fun _ => false, fun a i => nidEntry (used ((a - 1024) * natEntryPerBlock + i))⟩
    recorded := fun x => nidEntry (used x) }

/-- An image with this NAT, of which so many nids are counted. -/
def nidImage (used : ℕ → Bool) (validNodeCount : BitVec 32) (nextFreeNid : ℕ) : MountImage where
  nat := nidTable used
  nextFreeNid := nextFreeNid
  validNodeCount := validNodeCount
  nquotaFiles := 0
  natBits := false
  fullNatBits := fun _ => false
  emptyNatBits := fun _ => false

lemma nidTable_entry (used : ℕ → Bool) (hx : x < oneNatSegment.maxNid) :
    natBlockEntry oneNatSegment (nidTable used) x = nidEntry (used x) := by
  have hlt : natBlockOffset x < 2 ^ 9 := natBlockOffset_lt hx
  have haddr : currentNatAddr oneNatSegment (nidTable used) (natBlockOffset x)
      = 1024 + natBlockOffset x := by
    have hmask : natBlockOffset x &&& (blocksPerSeg - 1) = natBlockOffset x := by
      rw [show blocksPerSeg - 1 = 2 ^ 9 - 1 from rfl, Nat.and_two_pow_sub_one_eq_mod,
        Nat.mod_eq_of_lt hlt]
    unfold currentNatAddr
    rw [hmask, Nat.shiftLeft_eq]
    simp [nidTable, emptyNat, oneNatSegment]
    omega
  have hdiv := Nat.div_add_mod x natEntryPerBlock
  rw [natBlockEntry, haddr]
  simp only [nidTable, Nat.add_sub_cancel_left]
  rw [Nat.mul_comm, natBlockOffset, hdiv]

lemma nidTable_used (used : ℕ → Bool) (n : BitVec 32) (next : ℕ) (hx : x < oneNatSegment.maxNid) :
    usedOnDevice oneNatSegment (nidImage used n next) x = used x := by
  have hper : persistentNat oneNatSegment (nidTable used) x = nidEntry (used x) :=
    nidTable_entry used hx
  rw [usedOnDevice]
  change ((persistentNat oneNatSegment (nidTable used) x).ni.blkAddr != nullAddr) = used x
  rw [hper]
  cases used x <;> decide

lemma nidTable_mounted (used : ℕ → Bool) : NatMounted oneNatSegment (nidTable used) := by
  have hnew : ∀ u, (nidEntry u).ni.blkAddr ≠ newAddr := by decide
  refine ⟨fun _ => rfl, rfl, fun _ => rfl, rfl, ⟨List.nodup_nil, by simp [nidTable, emptyNat], ?_,
    ?_, ?_, fun x hx => ?_, ?_, fun x hx => ?_⟩, fun x hx => (nidTable_entry used hx).symm, rfl⟩
  · simp [nidTable, emptyNat, Journal.keys]
  · intro x r hr
    exact absurd hr (by simp [nidTable, emptyNat])
  · intro x r hr
    exact absurd hr (by simp [nidTable, emptyNat])
  · rw [nidTable_entry used hx]
    exact le_refl _
  · intro x r hr
    exact absurd hr (by simp [nidTable, emptyNat])
  · rw [nidTable_entry used hx]
    exact hnew _

lemma nidImage_ok {used : ℕ → Bool} {n : BitVec 32} (next : ℕ) (hone : used 1 = true)
    (htwo : used 2 = true)
    (hcount : n.toNat = (oneNatSegment.nids fun x => decide (reservedNodeNum ≤ x) && used x).card) :
    ImageOk oneNatSegment (nidImage used n next) where
  nat := nidTable_mounted used
  freed := fun _ => rfl
  segs := by decide
  maxNid := by decide
  reserved := by
    intro x hx hlt
    have hmax : reservedNodeNum ≤ oneNatSegment.maxNid := by decide
    rw [nidTable_used used n next (by omega)]
    unfold reservedNodeNum at hlt
    obtain rfl | rfl : x = 1 ∨ x = 2 := by omega
    · exact hone
    · exact htwo
  keys := by simp [nidImage, nidTable, emptyNat, Journal.keys]
  counts := by
    change n.toNat + 0 = _
    rw [hcount, Nat.add_zero]
    refine congrArg Finset.card (Finset.filter_congr fun x hx => ?_)
    simp only [nidTable_used used n next (Finset.mem_range.mp hx)]
  empty := fun h => absurd h (by simp [nidImage])
  full := fun h => absurd h (by simp [nidImage])

/-- Only nid 5 is free. -/
def fullImage (next : ℕ) : MountImage := nidImage (· != 5) 232956#32 next

lemma fullImage_ok (next : ℕ) : ImageOk oneNatSegment (fullImage next) := by
  refine nidImage_ok next rfl rfl ?_
  have hsum := card_used_add_free oneNatSegment (fullImage next) (by decide)
  have hused : (oneNatSegment.nids fun x => decide (reservedNodeNum ≤ x) &&
      usedOnDevice oneNatSegment (fullImage next) x)
      = oneNatSegment.nids fun x => decide (reservedNodeNum ≤ x) && x != 5 :=
    Finset.filter_congr fun x hx => by
      simp only [fullImage, nidTable_used _ _ _ (Finset.mem_range.mp hx)]
  have hfree : (oneNatSegment.nids fun x => decide (reservedNodeNum ≤ x) &&
      !usedOnDevice oneNatSegment (fullImage next) x) = {5} := by
    ext x
    have hmax : 5 < oneNatSegment.maxNid := by decide
    simp only [NatGeometry.nids, Finset.mem_filter, Finset.mem_range, Finset.mem_singleton]
    constructor
    · rintro ⟨hx, hp⟩
      rw [fullImage, nidTable_used _ _ _ hx] at hp
      simp only [Bool.and_eq_true, Bool.not_eq_true', bne_eq_false_iff_eq] at hp
      exact hp.2
    · rintro rfl
      rw [fullImage, nidTable_used _ _ _ hmax]
      exact ⟨hmax, by decide⟩
  rw [hused, hfree, Finset.card_singleton] at hsum
  have hmax : oneNatSegment.maxNid = 232960 := rfl
  have hthree : reservedNodeNum = 3 := rfl
  have hnat : (232956#32).toNat = 232956 := rfl
  omega

lemma discoverable_fullImage (next : ℕ) (hx : x < oneNatSegment.maxNid) :
    discoverable oneNatSegment (f2fsBuildNodeManager oneNatSegment (fullImage next)) x
      = (x == 5) := by
  refine ((fullImage_ok next).discoverable_mount (fullImage_ok next).mounted.2.1 hx).trans ?_
  rw [fullImage, nidTable_used _ _ _ hx, Bool.eq_iff_iff]
  simp only [Bool.and_eq_true, decide_eq_true_eq, Bool.not_eq_true', bne_eq_false_iff_eq,
    beq_iff_eq]
  refine ⟨fun h => h.2, ?_⟩
  rintro rfl
  exact ⟨by decide, rfl⟩

lemma available_fullImage (next : ℕ) :
    (f2fsBuildNodeManager oneNatSegment (fullImage next)).free.availableNids = 1 := by
  have hgap := (fullImage_ok next).mounted.2.2
  have hcard : (oneNatSegment.nids
      (discoverable oneNatSegment (f2fsBuildNodeManager oneNatSegment (fullImage next)))).card
      = 1 := by
    have hfive : oneNatSegment.nids
        (discoverable oneNatSegment (f2fsBuildNodeManager oneNatSegment (fullImage next)))
        = {5} := by
      have hmax : 5 < oneNatSegment.maxNid := by decide
      ext x
      simp only [NatGeometry.nids, Finset.mem_filter, Finset.mem_range, Finset.mem_singleton]
      constructor
      · rintro ⟨hx, hd⟩
        rw [discoverable_fullImage next hx] at hd
        simpa using hd
      · rintro rfl
        exact ⟨hmax, by rw [discoverable_fullImage next hmax]; rfl⟩
    rw [hfive, Finset.card_singleton]
  rw [gap, hcard] at hgap
  grind

/-! ## Runs -/

/-- **A run from the mount**: the count stays right, and the loop of `f2fs_alloc_nid` ends, iff
every inode that the run recovers has an address already. -/
theorem nids_right {calls : List NidCall} (himg : ImageOk g img) (hskip : NoneSkipped g img)
    (hrun : exec (nidStep g) (f2fsBuildNodeManager g img) calls = some s) :
    Throughout (nidStep g) (NidsRight g) (f2fsBuildNodeManager g img) calls ↔
      StepsMeet (nidStep g) (fun s a => uncounted g s a = false) (f2fsBuildNodeManager g img)
        calls := by
  obtain ⟨hok, -, hgap⟩ := himg.mounted
  have hok' : NidsOk g (fun _ => True) (f2fsBuildNodeManager g img) :=
    hok.mono fun x _ => hskip x
  refine throughout_iff_stepsMeet (J := NidsOk g fun _ => True)
    (fun s a s' hs hstep => (hs.step hstep).1) (fun s a s' hs hright hstep => ?_) hok'
    (hok'.right himg.maxNid hgap) hrun
  obtain ⟨hs', hgap'⟩ := hs.step hstep
  rw [(gap_eq_zero_iff himg.maxNid).mpr hright.count] at hgap'
  constructor
  · intro hright'
    rw [(gap_eq_zero_iff himg.maxNid).mpr hright'.count] at hgap'
    cases hu : uncounted g s a with
    | false => rfl
    | true =>
        rw [hu] at hgap'
        exact absurd hgap' (by decide)
  · intro hu
    refine hs'.right himg.maxNid ?_
    rw [hgap', hu]
    rfl

lemma scanStart_nidImage (used : ℕ → Bool) (n : BitVec 32) {next : ℕ}
    (h : next < oneNatSegment.maxNid) : scanStart oneNatSegment (nidImage used n next) = next :=
  if_neg (not_le.mpr h)

lemma noneSkipped_fullImage : NoneSkipped oneNatSegment (fullImage 5) := by
  intro x _ hskip
  refine Or.inr ?_
  have hmax : 5 < oneNatSegment.maxNid := by decide
  have hlt : x < 5 := by
    have hless := hskip.2.1
    rwa [fullImage, scanStart_nidImage _ _ hmax] at hless
  have hused : (x != 5) = true := by simpa using hlt.ne
  rw [blockNull, show (fullImage 5).nat = nidTable (· != 5) from rfl,
    nidTable_entry _ (hlt.trans hmax)]
  simp only [hused]
  decide

lemma recoverInodePage_available (s : NodeManager) (ino : ℕ) (fill : Bool) :
    (f2fsRecoverInodePage g s ino fill).2.free.availableNids = s.free.availableNids := by
  unfold f2fsRecoverInodePage
  dsimp only
  split_ifs
  · rfl
  · exact removeFreeNid_available ino

/-- Only nid 5 is free, and an inode with it is recovered: **nothing can be found, one nid is
counted, and `f2fs_alloc_nid` never ends**. -/
theorem nids_wrong_fullImage : ImageOk oneNatSegment (fullImage 5) ∧
    NoneSkipped oneNatSegment (fullImage 5) ∧
    ∃ s, exec (nidStep oneNatSegment) (f2fsBuildNodeManager oneNatSegment (fullImage 5))
        [.recoverInodePage 5 false] = some s ∧
      ¬ NidsRight oneNatSegment s ∧ s.free.availableNids = 1 ∧
      (oneNatSegment.nids (discoverable oneNatSegment s)).card = 0 ∧
      ∀ rounds, f2fsAllocNid oneNatSegment s.nat rounds s.free = none := by
  have himg := fullImage_ok 5
  have hmax : 5 < oneNatSegment.maxNid := by decide
  obtain ⟨hok, hpre, hgap⟩ := himg.mounted
  have hfive : discoverable oneNatSegment (f2fsBuildNodeManager oneNatSegment (fullImage 5)) 5
      = true := by
    rw [discoverable_fullImage 5 hmax]
    rfl
  have hfound := (discoverable_iff hok.nat.nat.inv).mp hfive
  have hnull : nodeBlkaddr oneNatSegment (f2fsBuildNodeManager oneNatSegment (fullImage 5)) 5
      = nullAddr := (nodeBlkaddr_eq hok.nat.nat.inv hmax).trans hfound.free.null
  obtain ⟨s, hs⟩ : ∃ s, s = (f2fsRecoverInodePage oneNatSegment
    (f2fsBuildNodeManager oneNatSegment (fullImage 5)) 5 false).2 := ⟨_, rfl⟩
  have hstep : nidStep oneNatSegment (f2fsBuildNodeManager oneNatSegment (fullImage 5))
      (.recoverInodePage 5 false) = some s := by
    have hpromise : NidPromise oneNatSegment (f2fsBuildNodeManager oneNatSegment (fullImage 5))
        (.recoverInodePage 5 false) := ⟨by decide, hmax, hpre 5, hfound.free.freed⟩
    rw [nidStep, if_pos hpromise, hs]
    rfl
  obtain ⟨hok', hgap'⟩ := hok.step hstep
  have havail : s.free.availableNids = 1 := by
    rw [hs, recoverInodePage_available, available_fullImage]
  have hcard : (oneNatSegment.nids (discoverable oneNatSegment s)).card = 0 := by
    have hle : (oneNatSegment.nids (discoverable oneNatSegment s)).card ≤ oneNatSegment.maxNid :=
      nids_card_le _
    have hmaxNid : oneNatSegment.maxNid = 232960 := rfl
    rw [hgap, uncounted, hnull, gap, havail] at hgap'
    have hzero : BitVec.ofNat 32 (oneNatSegment.nids (discoverable oneNatSegment s)).card = 0 := by
      have hbits : (1 : BitVec 32) - BitVec.ofNat 32 _ = 0 + BitVec.ofNat 32 true.toNat := hgap'
      simp only [Bool.toNat_true] at hbits
      grind
    have hnat := congrArg BitVec.toNat hzero
    rw [BitVec.toNat_ofNat, Nat.mod_eq_of_lt (by omega)] at hnat
    exact hnat
  have hnever : ∀ rounds, f2fsAllocNid oneNatSegment s.nat rounds s.free = none := by
    refine alloc_never hok'.nat hok'.pool hok'.sound (by rw [havail]; decide) fun x hx => ?_
    have hmem := discoverable_mem ((discoverable_iff hok'.nat.nat.inv).mpr hx)
    rw [Finset.card_eq_zero.mp hcard] at hmem
    exact absurd hmem (Finset.notMem_empty x)
  refine ⟨himg, noneSkipped_fullImage, s, ?_, ?_, havail, hcard, hnever⟩
  · rw [exec, hstep]
    rfl
  · intro hright
    obtain ⟨least, r, f', hr, -⟩ := hright.alloc
    have hends := hr least le_rfl
    rw [hnever least] at hends
    exact absurd hends (by simp)

/-- **A nid that the mount passes over is counted and never found**: the scan starts behind the only
free nid. -/
theorem nids_wrong_skipped : ImageOk oneNatSegment (fullImage 6) ∧
    discoverable oneNatSegment (f2fsBuildNodeManager oneNatSegment (fullImage 6)) 5 = true ∧
    ∀ rounds, f2fsAllocNid oneNatSegment
      (f2fsBuildNodeManager oneNatSegment (fullImage 6)).nat rounds
      (f2fsBuildNodeManager oneNatSegment (fullImage 6)).free = none := by
  have himg := fullImage_ok 6
  have hmax : 5 < oneNatSegment.maxNid := by decide
  obtain ⟨hok, hpre, -⟩ := himg.mounted
  have hfive : discoverable oneNatSegment (f2fsBuildNodeManager oneNatSegment (fullImage 6)) 5
      = true := by
    rw [discoverable_fullImage 6 hmax]
    rfl
  refine ⟨himg, hfive, alloc_never hok.nat hok.pool hok.sound ?_ fun x hx => ?_⟩
  · rw [available_fullImage]
    decide
  · have hx5 := (discoverable_iff hok.nat.nat.inv).mpr hx
    rw [discoverable_fullImage 6 hx.free.lt, beq_iff_eq] at hx5
    subst hx5
    have hstart : scanStart oneNatSegment (fullImage 6) = 6 :=
      scanStart_nidImage _ _ (by decide)
    refine himg.skipped_unknown ⟨?_, ?_, rfl⟩ hx rfl
    · rw [hstart]
      rfl
    · rw [hstart]
      decide

/-- The root directory and the two mappings are in use. -/
def freshImage : MountImage := nidImage (fun x => x == 1 || x == 2 || x == 3) 1#32 4

lemma freshImage_ok : ImageOk oneNatSegment freshImage := by
  refine nidImage_ok 4 rfl rfl ?_
  have hroot : (oneNatSegment.nids fun x =>
      decide (reservedNodeNum ≤ x) && (x == 1 || x == 2 || x == 3)) = {3} := by
    have hmax : 3 < oneNatSegment.maxNid := by decide
    ext x
    simp only [NatGeometry.nids, Finset.mem_filter, Finset.mem_range, Finset.mem_singleton,
      Bool.and_eq_true, Bool.or_eq_true, beq_iff_eq, decide_eq_true_eq]
    constructor
    · rintro ⟨-, hle, h⟩
      unfold reservedNodeNum at hle
      omega
    · rintro rfl
      exact ⟨hmax, by decide, Or.inr rfl⟩
  rw [hroot]
  rfl

lemma noneSkipped_freshImage : NoneSkipped oneNatSegment freshImage := by
  intro x hle hskip
  have hlt : x < 4 := by
    have hless := hskip.2.1
    rwa [freshImage, scanStart_nidImage _ _ (by decide)] at hless
  unfold reservedNodeNum at hle
  obtain rfl : x = 3 := by omega
  exact Or.inr (by decide)

theorem nids_right_freshImage : ∃ s, exec (nidStep oneNatSegment)
      (f2fsBuildNodeManager oneNatSegment freshImage)
      [.getNodeInfo 3 true, .buildFreeNids true true, .flushNatEntries false] = some s ∧
    NidsRight oneNatSegment s := by
  have hrun : ∃ s, exec (nidStep oneNatSegment) (f2fsBuildNodeManager oneNatSegment freshImage)
      [.getNodeInfo 3 true, .buildFreeNids true true, .flushNatEntries false] = some s := by
    have hmax : 3 < oneNatSegment.maxNid := by decide
    obtain ⟨s₁, hs₁, hpages⟩ : ∃ s₁, nidStep oneNatSegment
        (f2fsBuildNodeManager oneNatSegment freshImage) (.getNodeInfo 3 true) = some s₁ ∧
        s₁.nat.dirtyPages = [] := ⟨_, if_pos hmax, rfl⟩
    obtain ⟨s₂, hs₂, hpages₂⟩ : ∃ s₂, nidStep oneNatSegment s₁ (.buildFreeNids true true)
        = some s₂ ∧ s₂.nat.dirtyPages = [] := ⟨_, if_pos trivial, hpages⟩
    have hs₃ : nidStep oneNatSegment s₂ (.flushNatEntries false)
        = some (f2fsFlushNatEntries oneNatSegment s₂ false) := if_pos hpages₂
    exact ⟨_, exec_cons.mpr ⟨s₁, hs₁, exec_cons.mpr ⟨s₂, hs₂, exec_cons.mpr ⟨_, hs₃, rfl⟩⟩⟩⟩
  obtain ⟨s, hrun⟩ := hrun
  refine ⟨s, hrun, ((nids_right freshImage_ok noneSkipped_freshImage hrun).mpr ?_).last hrun⟩
  exact ⟨rfl, fun _ _ => ⟨rfl, fun _ _ => ⟨rfl, fun _ _ => trivial⟩⟩⟩

end Hoit.FreeNid
