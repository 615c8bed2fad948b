import HoitF2fs.Lib.Transition
import HoitF2fs.Nvm.Dio

/-!
# Bios and the mapping

A bio is a run of blocks, and `nvm_redirect_bio` rewrites its start address only.  Three things
have to fit for that to work.

**One block.**  Different blocks of the SSD's MAIN area go to different places.  `MptPaired` is the
bijection of the table together with the meaning of `rw_redirect`: a segment that is redirected is
mapped.  It is kept by every operation on the table, and it makes the redirection injective and its
NVM targets blocks of NVM's MAIN area (`redirect_injective`).

**All blocks of a bio.**  Both places that collect blocks into bios, `f2fs_submit_page_write` and
`f2fs_mpage_readpages`, cut a bio where the segment changes.

* `SegmentBio` — the blocks of a bio follow each other and lie **in one segment**, counted from
  `seg0`, and on one device.
* `f2fsSubmitPageWrite` — the write side, with the state that lives between two calls: one open bio
  for each type and temperature, its last block, and the list of waiting pages.
* `f2fsMpageReadpages` — the read side, a loop over pages whose mapping may be anything.

**The address of a bio.**  With a device list `f2fs_target_device` stores the address *on the
device* into the bio, and `nvm_redirect_bio` reads it back as an address of the file system.

`bios_follow_iff` says that both places only ever submit such bios, and that a block of a bio goes
where its own entry says **iff** its device starts at block 0.
-/

namespace Hoit

open Transition

variable {l : Layout}

/-! ## One block -/

/-- The bijection of the table, and that only mapped segments are redirected. -/
structure MptPaired (g : Geometry) (nsbi : NvmSbInfo) (freeI : FreeSegmapInfo) : Prop
    extends MptBijection g nsbi freeI where
  redirected : ∀ s < g.segmentCountMain, getRedirectFlag nsbi.mpt (g.ssdIndex s) = true →
    getMapFlag nsbi.mpt (g.ssdIndex s) = true

namespace MptPaired

variable {g : Geometry} {nsbi : NvmSbInfo} {freeI freeI' : FreeSegmapInfo} {s n : ℕ}

lemma entriesOk (h : MptPaired g nsbi freeI) : EntriesOk g nsbi.mpt where
  mapped := h.redirected
  target := fun s hs hmap => h.ssdRange s hs _ ⟨hmap, rfl⟩

/-- `create_mapping` keeps it when it keeps the bijection. -/
lemma create {f : BitVec 32} (h : MptPaired g nsbi freeI)
    (hbij : MptBijection g (createMapping g nsbi s n f) freeI) (hf : IsMapFlag f)
    (hn : n < g.mainSegmentNums) : MptPaired g (createMapping g nsbi s n f) freeI :=
  { hbij with redirected := (h.entriesOk.create hf hn).mapped }

lemma unset (h : MptPaired g nsbi freeI) (hs : s < g.segmentCountMain)
    (hfree : ∀ s', freeI'.freeSegmap s' = false → s' = s ∨ freeI.freeSegmap s' = false) :
    MptPaired g (unsetMapping g nsbi s) freeI' :=
  { h.toMptBijection.unset hs hfree with redirected := (h.entriesOk.unset hs).mapped }

lemma double (h : MptPaired g nsbi freeI) (hs : s < g.segmentCountMain) :
    MptPaired g (setDouble g nsbi s) freeI := by
  refine { h.toMptBijection.double hs with redirected := ?_ }
  intro s' hs' hred
  rw [(setDouble_reads _).1]
  refine h.redirected s' hs' ?_
  rw [setDouble] at hred
  split at hred
  · rwa [getRedirectFlag_setDoubleFlag, getRedirectFlag_setDoubleFlag] at hred
  · exact hred

end MptPaired

/-- A block of the MAIN area, by segment and offset. -/
lemma ExtentInMain.exists_ssdAddr {a : BitVec 32} (h : ExtentInMain l a 1) :
    ∃ s b, s < l.segmentCountMain ∧ b < blocksPerSeg ∧ a = ssdAddr l s b := by
  obtain ⟨hstart, hend⟩ := h
  have hpos : 0 < blocksPerSeg := by decide
  obtain ⟨k, hk⟩ := Nat.exists_eq_add_of_le hstart
  have hkb : k % blocksPerSeg < blocksPerSeg := Nat.mod_lt k hpos
  have hks : k / blocksPerSeg < l.segmentCountMain := by
    rw [Nat.div_lt_iff_lt_mul hpos]
    omega
  refine ⟨k / blocksPerSeg, k % blocksPerSeg, hks, hkb, ?_⟩
  have hdiv := Nat.div_add_mod' k blocksPerSeg
  apply BitVec.eq_of_toNat_eq
  rw [ssdAddr_toNat hks hkb, hk]
  omega

/-- A block that is not redirected keeps its address; one that is goes to the same offset of its
NVM segment. -/
lemma redirectTarget_cases {mpt : Mpt} (hentries : EntriesOk l.toGeometry mpt) {s b : ℕ}
    (hs : s < l.segmentCountMain) (hb : b < blocksPerSeg) :
    redirectTarget l mpt (ssdAddr l s b) = (.ssd, ssdAddr l s b)
      ∨ ∃ n < l.mainSegmentNums, SsdMaps l.toGeometry mpt s n
        ∧ redirectTarget l mpt (ssdAddr l s b) = (.nvm, nvmAddr l n b) := by
  rw [redirectTarget_ssdAddr mpt hs hb, resolve]
  split
  · next hred =>
      have hmap := hentries.mapped s hs hred
      exact Or.inr ⟨_, hentries.target s hs hmap, ⟨hmap, rfl⟩, rfl⟩
  · exact Or.inl rfl

/-- Blocks of NVM's MAIN area have different addresses. -/
lemma nvmAddr_inj {n n' b b' : ℕ} (hn : n < l.mainSegmentNums) (hn' : n' < l.mainSegmentNums)
    (hb : b < blocksPerSeg) (hb' : b' < blocksPerSeg) (h : nvmAddr l n b = nvmAddr l n' b') :
    n = n' ∧ b = b' := by
  have haddr := congrArg BitVec.toNat h
  rw [nvmAddr_toNat hn hb, nvmAddr_toNat hn' hb'] at haddr
  unfold blocksPerSeg at *
  omega

/-- **The redirection is injective and in range**, and the two redirections agree on a single
block. -/
theorem redirect_injective (l : Layout) (nsbi : NvmSbInfo) (freeI : FreeSegmapInfo)
    (h : MptPaired l.toGeometry nsbi freeI) (type : PageType) (htype : type ≠ .metadata)
    (isRead : Bool) (vcnt : ℤ) (a : BitVec 32) (ha : ExtentInMain l a 1) :
    (∀ (type' : PageType) (isRead' : Bool) (vcnt' : ℤ) (a' : BitVec 32), type' ≠ .metadata →
        ExtentInMain l a' 1 → a' ≠ a →
        (nvmRedirectBio l nsbi type' isRead' vcnt' a').2 ≠ (nvmRedirectBio l nsbi type isRead vcnt a).2)
      ∧ ((nvmRedirectBio l nsbi type isRead vcnt a).2.1 = .nvm →
        l.nvmMainBlkaddr ≤ (nvmRedirectBio l nsbi type isRead vcnt a).2.2.toNat
          ∧ (nvmRedirectBio l nsbi type isRead vcnt a).2.2.toNat
            < l.nvmMainBlkaddr + l.mainSegmentNums * blocksPerSeg
          ∧ ((nvmRedirectBio l nsbi type isRead vcnt a).2.2.toNat - l.nvmMainBlkaddr) % blocksPerSeg
            = (a.toNat - l.seg0Blkaddr) % blocksPerSeg)
      ∧ ((nvmRedirectBio l nsbi type isRead vcnt a).2.1 = .ssd →
        (nvmRedirectBio l nsbi type isRead vcnt a).2.2 = a)
      ∧ ∀ write, (nvmRedirectDio l nsbi a 1 write).2 = (nvmRedirectBio l nsbi type isRead vcnt a).2 := by
  have hbio : ∀ (type : PageType) (isRead : Bool) (vcnt : ℤ) (a : BitVec 32), type ≠ .metadata →
      (nvmRedirectBio l nsbi type isRead vcnt a).2 = redirectTarget l nsbi.mpt a := by
    intro type isRead vcnt a htype
    cases type with
    | data => rfl
    | node => rfl
    | metadata => exact absurd rfl htype
  rw [hbio type isRead vcnt a htype]
  obtain ⟨s, b, hs, hb, rfl⟩ := ha.exists_ssdAddr
  have hcase := redirectTarget_cases h.entriesOk hs hb
  refine ⟨?_, ?_, ?_, fun write => rfl⟩
  · intro type' isRead' vcnt' a' htype' ha' hne
    rw [hbio type' isRead' vcnt' a' htype']
    obtain ⟨s', b', hs', hb', rfl⟩ := ha'.exists_ssdAddr
    intro heq
    rcases redirectTarget_cases h.entriesOk hs' hb' with hdirect' | ⟨n', hn', hmaps', htarget'⟩
    · rcases hcase with hdirect | ⟨n, hn, hmaps, htarget⟩
      · rw [hdirect, hdirect'] at heq
        exact hne (Prod.mk.inj heq).2
      · rw [htarget, hdirect'] at heq
        exact absurd (Prod.mk.inj heq).1 (by decide)
    · rcases hcase with hdirect | ⟨n, hn, hmaps, htarget⟩
      · rw [hdirect, htarget'] at heq
        exact absurd (Prod.mk.inj heq).1 (by decide)
      · -- both are redirected: one NVM segment has one SSD segment
        rw [htarget, htarget'] at heq
        obtain ⟨rfl, rfl⟩ := nvmAddr_inj hn' hn hb' hb (Prod.mk.inj heq).2
        obtain rfl := h.unshared s' hs' s hs n' hmaps' hmaps
        exact hne rfl
  · intro hdev
    rcases hcase with hdirect | ⟨n, hn, hmaps, htarget⟩
    · rw [hdirect] at hdev
      exact absurd hdev (by simp)
    · rw [htarget, nvmAddr_toNat hn hb, ssdAddr_toNat hs hb, Layout.mainBlkaddr]
      have hle : (n + 1) * blocksPerSeg ≤ l.mainSegmentNums * blocksPerSeg :=
        Nat.mul_le_mul_right _ hn
      unfold blocksPerSeg at *
      omega
  · intro hdev
    rcases hcase with hdirect | ⟨n, hn, hmaps, htarget⟩
    · rw [hdirect]
    · rw [htarget] at hdev
      exact absurd hdev (by simp)

/-- SSD segment 1 is mapped to NVM segment 3, and all SSD segments are in use. -/
def pairNsbi : NvmSbInfo :=
  createMapping boundaryLayout.toGeometry
    { boundaryNsbi 3 with mpt := fun _ => 0#32 } 1 3 (rwMap ||| rwRedirect)

def pairFree : FreeSegmapInfo where
  freeSegmap := fun _ => true
  freeSecmap := fun _ => true
  freeSegments := 0#32
  freeSections := 0#32

lemma pairNsbi_paired : MptPaired boundaryLayout.toGeometry pairNsbi pairFree where
  inverse := by
    have hbound : ∀ n < 4, ∀ s < 4, NvmMaps pairNsbi.mpt n s
        ↔ SsdMaps boundaryLayout.toGeometry pairNsbi.mpt s n := by
      unfold NvmMaps SsdMaps
      decide
    exact hbound
  nvmRange := by
    have hbound : ∀ n < 4, getMapFlag pairNsbi.mpt n = true → getMptValue pairNsbi.mpt n < 4 := by
      decide
    rintro n hn s ⟨hmap, rfl⟩
    exact hbound n hn hmap
  ssdRange := by
    have hbound : ∀ s < 4, getMapFlag pairNsbi.mpt (4 + s) = true →
        getMptValue pairNsbi.mpt (4 + s) < 4 := by
      decide
    rintro s hs n ⟨hmap, rfl⟩
    exact hbound s hs hmap
  sameFlags := by
    have hbound : ∀ n < 4, getMapFlag pairNsbi.mpt n = true →
        entryFlags pairNsbi.mpt n = entryFlags pairNsbi.mpt (4 + getMptValue pairNsbi.mpt n) := by
      decide
    rintro n hn s ⟨hmap, rfl⟩
    exact hbound n hn hmap
  unshared := by
    have hbound : ∀ s < 4, ∀ s' < 4, getMapFlag pairNsbi.mpt (4 + s) = true →
        getMapFlag pairNsbi.mpt (4 + s') = true →
        getMptValue pairNsbi.mpt (4 + s) = getMptValue pairNsbi.mpt (4 + s') → s = s' := by
      decide
    rintro s hs s' hs' n ⟨hmap, hval⟩ ⟨hmap', hval'⟩
    exact hbound s hs s' hs' hmap hmap' (hval.trans hval'.symm)
  freeUnmapped := fun _ _ hfree => absurd hfree (by simp [pairFree])
  redirected := by
    have hbound : ∀ s < 4, getRedirectFlag pairNsbi.mpt (4 + s) = true →
        getMapFlag pairNsbi.mpt (4 + s) = true := by
      decide
    exact hbound

/-- Block 7 of SSD segment 1 is block 7 of NVM segment 3, and the block before it is another. -/
theorem redirect_injective_pair :
    (nvmRedirectBio boundaryLayout pairNsbi .data true 1 2055#32).2 = (.nvm, 2567#32)
      ∧ (nvmRedirectBio boundaryLayout pairNsbi .node false 1 2054#32).2
        ≠ (nvmRedirectBio boundaryLayout pairNsbi .data true 1 2055#32).2 :=
  ⟨by decide, (redirect_injective boundaryLayout pairNsbi pairFree pairNsbi_paired .data (by decide)
    true 1 2055#32 ⟨by decide, by decide⟩).1 .node false 1 2054#32 (by decide)
      ⟨by decide, by decide⟩ (by decide)⟩

/-! ## Devices -/

inductive BlockDevice where
  /-- `FDEV(i)`; without a list, `fdev 0` is `s_bdev`. -/
  | fdev (i : ℕ)
  | nvm
deriving DecidableEq

/-- `s_ndevs` and `FDEV`. -/
structure DeviceList where
  ndevs : ℕ
  startBlk : ℕ → BitVec 32
  endBlk : ℕ → BitVec 32

section Devices

variable (devs : DeviceList)

def findDevice (blkAddr : BitVec 32) : Option ℕ :=
  (List.range devs.ndevs).find? fun i =>
    decide (devs.startBlk i ≤ blkAddr) && decide (blkAddr ≤ devs.endBlk i)

/-- `f2fs_target_device`: the device, and the address of the block there. -/
def f2fsTargetDevice (blkAddr : BitVec 32) : ℕ × BitVec 32 :=
  match findDevice devs blkAddr with
  | some i => (i, blkAddr - devs.startBlk i)
  | none => (0, blkAddr)

def f2fsTargetDeviceIndex (blkAddr : BitVec 32) : ℕ := (findDevice devs blkAddr).getD 0

/-- The device of the block starts at block 0, so that its addresses are those of the file
system. -/
def OnFirstBlocks (blkAddr : BitVec 32) : Prop :=
  devs.startBlk (f2fsTargetDevice devs blkAddr).1 = 0#32

instance (blkAddr : BitVec 32) : Decidable (OnFirstBlocks devs blkAddr) :=
  inferInstanceAs (Decidable (_ = _))

variable {devs}

/-- `f2fs_scan_devices` lets the first device start at 0, so a block that lies on none of the list
is no exception. -/
lemma f2fsTargetDevice_snd (hfirst : devs.startBlk 0 = 0#32) (a : BitVec 32) :
    (f2fsTargetDevice devs a).2 = a - devs.startBlk (f2fsTargetDevice devs a).1 := by
  rw [f2fsTargetDevice]
  split
  · rfl
  · rw [hfirst, BitVec.sub_zero]

end Devices

/-! ## Bios -/

/-- A bio: its device and the address its sector says there, the addresses of its pages' blocks in
their order, and the number of dummy pages behind them. -/
structure Bio where
  bdev : ℕ
  start : BitVec 32
  blocks : List (BitVec 32)
  dummy : ℕ
deriving DecidableEq

/-- The bio that `__bio_alloc` and `f2fs_grab_read_bio` make for a block. -/
def bioAlloc (devs : DeviceList) (blkAddr : BitVec 32) : Bio :=
  ⟨(f2fsTargetDevice devs blkAddr).1, (f2fsTargetDevice devs blkAddr).2, [], 0⟩

/-- `__same_bdev`. -/
def sameBdev (devs : DeviceList) (blkAddr : BitVec 32) (b : Bio) : Bool :=
  (f2fsTargetDevice devs blkAddr).1 == b.bdev

/-- The blocks of a bio follow each other, in one segment, and `start` is where they begin on their
device. -/
structure SegmentBio (l : Layout) (devs : DeviceList) (b : Bio) : Prop where
  nonempty : b.blocks ≠ []
  consecutive : ∀ i a c, b.blocks[i]? = some a → b.blocks[i + 1]? = some c → c = a + 1#32
  segment : ∀ a ∈ b.blocks, ∀ c ∈ b.blocks, getSegnoFromSeg0 l a = getSegnoFromSeg0 l c
  device : ∀ i a, b.blocks[i]? = some a →
    f2fsTargetDevice devs a = (b.bdev, b.start + BitVec.ofNat 32 i)

/-- Where the table says that block `a` is: on NVM when its segment is redirected, else on its own
device. -/
def designatedPlace (l : Layout) (devs : DeviceList) (mpt : Mpt) (a : BitVec 32) :
    BlockDevice × BitVec 32 :=
  if getRedirectFlag mpt (mptIndex l a).toNat then (.nvm, redirectedAddr l mpt a)
  else (.fdev (f2fsTargetDevice devs a).1, (f2fsTargetDevice devs a).2)

/-- Where the `i`-th page of a bio goes whose address is rewritten. -/
def Bio.place (b : Bio) (target : Dev × BitVec 32) (i : ℕ) : BlockDevice × BitVec 32 :=
  match target.1 with
  | .nvm => (.nvm, target.2 + BitVec.ofNat 32 i)
  | .ssd => (.fdev b.bdev, target.2 + BitVec.ofNat 32 i)

/-- **The `i`-th page of the bio goes where the entry of its block `a` says**, under every table. -/
def BlockFollows (l : Layout) (devs : DeviceList) (b : Bio) (i : ℕ) (a : BitVec 32) : Prop :=
  ∀ (nsbi : NvmSbInfo) (type : PageType) (isRead : Bool) (vcnt : ℤ), type ≠ .metadata →
    b.place (nvmRedirectBio l nsbi type isRead vcnt b.start).2 i
      = designatedPlace l devs nsbi.mpt a

section Segment

variable {devs : DeviceList} {b : Bio}

/-- Inside a segment the offset moves with the address. -/
lemma getBlkoffFromSeg0_add {a i : BitVec 32} (h : getSegnoFromSeg0 l (a + i) = getSegnoFromSeg0 l a) :
    getBlkoffFromSeg0 l (a + i) = getBlkoffFromSeg0 l a + i := by
  have hadd : getSegoffFromSeg0 l (a + i) = getSegoffFromSeg0 l a + i := by
    simp only [getSegoffFromSeg0]
    rw [BitVec.sub_eq_add_neg, BitVec.sub_eq_add_neg, BitVec.add_assoc, BitVec.add_assoc,
      BitVec.add_comm i]
  simp only [getSegnoFromSeg0, hadd] at h
  have hmask : ∀ d : BitVec 32, (d &&& 511#32).toNat = d.toNat % 2 ^ 9 := by
    intro d
    rw [BitVec.toNat_and]
    exact Nat.and_two_pow_sub_one_eq_mod d.toNat 9
  simp only [getBlkoffFromSeg0, hadd]
  generalize getSegoffFromSeg0 l a = d at h ⊢
  have hseg := congrArg BitVec.toNat h
  simp only [BitVec.toNat_ushiftRight, Nat.shiftRight_eq_div_pow, BitVec.toNat_add] at hseg
  apply BitVec.eq_of_toNat_eq
  rw [hmask, BitVec.toNat_add, BitVec.toNat_add, hmask]
  have hd := d.isLt
  have hi := i.isLt
  omega

lemma mptIndex_congr {a b : BitVec 32} (h : getSegnoFromSeg0 l b = getSegnoFromSeg0 l a) :
    mptIndex l b = mptIndex l a := by
  simp only [mptIndex, ssdMainSegoff, h]

lemma mptIndex_inj {a c : BitVec 32} (h : mptIndex l a = mptIndex l c) :
    getSegnoFromSeg0 l a = getSegnoFromSeg0 l c := by
  simp only [mptIndex, ssdMainSegoff, BitVec.sub_eq_add_neg] at h
  exact (BitVec.add_left_inj _).mp ((BitVec.add_right_inj _).mp h)

/-- The segment and the offset tell the address. -/
lemma add_eq_of_getBlkoffFromSeg0 {a c i : BitVec 32}
    (hseg : getSegnoFromSeg0 l a = getSegnoFromSeg0 l c)
    (hoff : getBlkoffFromSeg0 l a + i = getBlkoffFromSeg0 l c) : a + i = c := by
  have hsplit : ∀ d : BitVec 32, d = (d >>> 9) * 512#32 + (d &&& 511#32) := by
    intro d
    have hmask : (d &&& 511#32).toNat = d.toNat % 2 ^ 9 := by
      rw [BitVec.toNat_and]
      exact Nat.and_two_pow_sub_one_eq_mod d.toNat 9
    apply BitVec.eq_of_toNat_eq
    rw [BitVec.toNat_add, BitVec.toNat_mul, BitVec.toNat_ushiftRight, hmask,
      Nat.shiftRight_eq_div_pow]
    have hd := d.isLt
    simp only [BitVec.toNat_ofNat]
    omega
  have hadd : getSegoffFromSeg0 l a + i = getSegoffFromSeg0 l c := by
    rw [hsplit (getSegoffFromSeg0 l a), hsplit (getSegoffFromSeg0 l c), BitVec.add_assoc]
    exact congrArg₂ (fun s o => s * 512#32 + o) hseg hoff
  simp only [getSegoffFromSeg0, BitVec.sub_eq_add_neg] at hadd
  rw [BitVec.add_assoc, BitVec.add_comm _ i, ← BitVec.add_assoc] at hadd
  exact (BitVec.add_left_inj _).mp hadd

/-- A table that redirects one segment only. -/
lemma getRedirectFlag_single (k j : ℕ) :
    getRedirectFlag (fun n => if n = k then rwRedirect else 0#32) j = decide (j = k) := by
  by_cases h : j = k <;> simp [getRedirectFlag, h, rwRedirect]

/-- **A block of a bio goes where its own entry says iff the bio's address is one of the file
system.** -/
lemma SegmentBio.follows_iff (h : SegmentBio l devs b) (hfirst : devs.startBlk 0 = 0#32) {i : ℕ}
    {a : BitVec 32} (ha : b.blocks[i]? = some a) :
    BlockFollows l devs b i a ↔ OnFirstBlocks devs a := by
  have hbio : ∀ nsbi type isRead vcnt, type ≠ .metadata →
      (nvmRedirectBio l nsbi type isRead vcnt b.start).2 = redirectTarget l nsbi.mpt b.start := by
    intro nsbi type isRead vcnt htype
    cases type with
    | data => rfl
    | node => rfl
    | metadata => exact absurd rfl htype
  have hdev := h.device i a ha
  have haddr := f2fsTargetDevice_snd hfirst a
  rw [OnFirstBlocks]
  rw [hdev] at haddr ⊢
  dsimp only at haddr ⊢
  constructor
  · intro hfollows
    by_contra hstart
    -- redirect the segment of `a` and nothing else
    have hplace := hfollows
      { pairNsbi with mpt := fun n => if n = (mptIndex l a).toNat then rwRedirect else 0#32 }
      .data false 1 (by decide)
    rw [hbio _ _ _ _ (by decide), designatedPlace] at hplace
    simp only [getRedirectFlag_single, decide_true, if_true, redirectTarget] at hplace
    split at hplace
    · next hsame =>
        have hidx := BitVec.eq_of_toNat_eq (of_decide_eq_true hsame)
        have hoff := (Prod.mk.inj hplace).2
        simp only [redirectedAddr, hidx, BitVec.add_assoc] at hoff
        have hmoved := add_eq_of_getBlkoffFromSeg0 (mptIndex_inj hidx)
          ((BitVec.add_right_inj _).mp ((BitVec.add_right_inj _).mp hoff))
        rw [hmoved] at haddr
        exact hstart (by grind)
    · exact absurd (Prod.mk.inj hplace).1 (by simp)
  · intro hstart nsbi type isRead vcnt htype
    rw [hstart, BitVec.sub_zero] at haddr
    obtain ⟨c, hc⟩ : ∃ c, b.blocks[0]? = some c := by
      rw [← List.head?_eq_getElem?]
      exact Option.isSome_iff_exists.mp (List.isSome_head?.mpr h.nonempty)
    have hcaddr := f2fsTargetDevice_snd hfirst c
    rw [h.device 0 c hc, BitVec.add_zero, hstart, BitVec.sub_zero] at hcaddr
    have hseg := h.segment a (List.mem_of_getElem? ha) c (List.mem_of_getElem? hc)
    rw [← haddr, ← hcaddr] at hseg
    have hidx := mptIndex_congr hseg
    rw [hbio _ _ _ _ htype, designatedPlace, hdev, ← haddr, hidx, redirectTarget]
    split
    · simp only [Bio.place, redirectedAddr, hidx, getBlkoffFromSeg0_add hseg, BitVec.add_assoc]
    · rfl

/-- One more block. -/
lemma SegmentBio.append (h : SegmentBio l devs b) (hfirst : devs.startBlk 0 = 0#32)
    {last a : BitVec 32} (hlast : b.blocks.getLast? = some last) (hnext : a = last + 1#32)
    (hseg : getSegnoFromSeg0 l last = getSegnoFromSeg0 l a) (hbdev : sameBdev devs a b = true) :
    SegmentBio l devs { b with blocks := b.blocks ++ [a] } := by
  have hlen := List.length_pos_of_ne_nil h.nonempty
  have hlastAt : b.blocks[b.blocks.length - 1]? = some last := by
    rw [← hlast, List.getLast?_eq_getElem?]
  have hmem : last ∈ b.blocks := List.mem_of_getLast? hlast
  refine ⟨by simp, fun i x c hx hc => ?_, fun x hx c hc => ?_, fun i x hx => ?_⟩
  · rcases Nat.lt_trichotomy (i + 1) b.blocks.length with hi | hi | hi
    · rw [List.getElem?_append_left (by omega)] at hx hc
      exact h.consecutive i x c hx hc
    · rw [List.getElem?_append_left (by omega)] at hx
      rw [List.getElem?_append_right (by omega), hi, Nat.sub_self] at hc
      obtain rfl := Option.some.inj hc
      have hlast' : b.blocks[i]? = some last := by
        rw [← hlastAt, ← hi, Nat.add_sub_cancel]
      rw [hnext, Option.some.inj (hlast'.symm.trans hx)]
    · rw [List.getElem?_eq_none (by simp; omega)] at hc
      exact absurd hc (by simp)
  · have hsame : ∀ y ∈ b.blocks ++ [a], getSegnoFromSeg0 l y = getSegnoFromSeg0 l last := by
      intro y hy
      rcases List.mem_append.mp hy with hy | hy
      · exact h.segment y hy last hmem
      · rw [List.mem_singleton.mp hy, hseg]
    rw [hsame x hx, hsame c hc]
  · rcases Nat.lt_or_ge i b.blocks.length with hi | hi
    · rw [List.getElem?_append_left hi] at hx
      exact h.device i x hx
    · rw [List.getElem?_append_right hi, List.getElem?_singleton] at hx
      split at hx
      · next hzero =>
          obtain rfl := Option.some.inj hx
          have hi : i = b.blocks.length - 1 + 1 := by omega
          have hdev := h.device _ _ hlastAt
          have haddr := f2fsTargetDevice_snd hfirst last
          have haddr' := f2fsTargetDevice_snd hfirst a
          rw [hdev] at haddr
          rw [beq_iff_eq.mp hbdev] at haddr'
          refine Prod.ext (beq_iff_eq.mp hbdev) ?_
          have hbase : b.start + BitVec.ofNat 32 (b.blocks.length - 1)
              = last - devs.startBlk b.bdev := haddr
          rw [haddr', hnext, hi, BitVec.ofNat_add]
          dsimp only
          grind
      · exact absurd hx (by simp)

lemma segmentBio_singleton (a : BitVec 32) :
    SegmentBio l devs { bioAlloc devs a with blocks := [a] } := by
  refine ⟨by simp, fun i x c _ hc => absurd hc (by simp), fun x hx c hc => ?_, fun i x hx => ?_⟩
  · rw [List.mem_singleton.mp hx, List.mem_singleton.mp hc]
  · rw [List.getElem?_singleton] at hx
    split at hx
    · next hzero =>
        subst hzero
        rw [← Option.some.inj hx]
        exact Prod.ext rfl (BitVec.add_zero _).symm
    · exact absurd hx (by simp)

end Segment

/-! ## The write side -/

inductive Temp where
  | hot
  | warm
  | cold
deriving DecidableEq

/-- `f2fs_io_info`, the fields `f2fs_submit_page_write` looks at. -/
structure IoInfo where
  type : PageType
  temp : Temp
  op : BitVec 32
  opFlags : BitVec 32
  oldBlkaddr : BitVec 32
  newBlkaddr : BitVec 32
  inList : Bool

/-- `f2fs_bio_info`, with the bios it has given to `__submit_bio` so far. -/
structure BioInfo where
  bio : Option Bio
  lastBlockInBio : BitVec 32
  fio : IoInfo
  ioList : List IoInfo
  submitted : List (PageType × Bio)

section Write

variable (l : Layout) (devs : DeviceList) (ioSizeBits : ℕ)

/-- `F2FS_IO_SIZE`. -/
def ioSize : ℕ := 2 ^ ioSizeBits

/-- `__submit_bio` of a write fills the bio up with dummy pages. -/
def submitBio (type : PageType) (b : Bio) : Bio :=
  if type ≠ .metadata ∧ b.blocks.length % ioSize ioSizeBits ≠ 0 then
    { b with dummy := ioSize ioSizeBits - b.blocks.length % ioSize ioSizeBits }
  else b

/-- `__submit_merged_bio`. -/
def submitMergedBio (io : BioInfo) : BioInfo :=
  match io.bio with
  | none => io
  | some b =>
      { io with
        bio := none
        submitted := io.submitted ++ [(io.fio.type, submitBio ioSizeBits io.fio.type b)] }

/-- The open bio does not go on with the page `fio`. -/
def cannotMerge (io : BioInfo) (fio : IoInfo) : Bool :=
  io.lastBlockInBio != fio.newBlkaddr - 1#32
    || (io.fio.op != fio.op || io.fio.opFlags != fio.opFlags)
    || !io.bio.any (sameBdev devs fio.newBlkaddr)

/-- The open bio ends in another segment than the one of the page. -/
def jumpsSegment (btype : PageType) (io : BioInfo) (fio : IoInfo) : Bool :=
  btype != .metadata && io.bio.isSome
    && getSegnoFromSeg0 l io.lastBlockInBio != getSegnoFromSeg0 l fio.newBlkaddr

/-- The two tests before `alloc_new`. -/
def closeBio (btype : PageType) (io : BioInfo) (fio : IoInfo) : BioInfo :=
  let io := if io.bio.isSome && cannotMerge devs io fio then submitMergedBio ioSizeBits io else io
  if jumpsSegment l btype io fio then submitMergedBio ioSizeBits io else io

/-- `alloc_new`; `none` means that the page has to be retried at an aligned address. -/
def allocNew (io : BioInfo) (fio : IoInfo) : Option BioInfo :=
  match io.bio with
  | some _ => some io
  | none =>
      if fio.type ≠ .metadata ∧ fio.newBlkaddr &&& BitVec.ofNat 32 (ioSize ioSizeBits - 1) ≠ 0#32 then
        none
      else some { io with bio := some (bioAlloc devs fio.newBlkaddr), fio := fio }

/-- `bio_add_page` when there is room. -/
def BioInfo.addPage (io : BioInfo) (fio : IoInfo) : BioInfo :=
  { io with
    bio := io.bio.map fun b => { b with blocks := b.blocks ++ [fio.newBlkaddr] }
    lastBlockInBio := fio.newBlkaddr }

/-- The bio that was just allocated. -/
def BioInfo.isNew (io : BioInfo) : Bool := io.bio.all fun b => b.blocks.isEmpty

/-- From `alloc_new` to `skip`; `full` says whether `bio_add_page` finds the open bio full.  A new
bio takes at least one page. -/
def placePage (io : BioInfo) (fio : IoInfo) (full : Bool) : BioInfo :=
  match allocNew devs ioSizeBits io fio with
  | none => io
  | some io =>
      if full && !io.isNew then
        match allocNew devs ioSizeBits (submitMergedBio ioSizeBits io) fio with
        | none => submitMergedBio ioSizeBits io
        | some io => io.addPage fio
      else io.addPage fio

/-- `verify_block_addr` on a write. -/
def verifyBlockAddr (type : PageType) (a : BitVec 32) : Bool :=
  match type with
  | .metadata => decide (a.toNat < l.mainBlkaddr + 2 * blocksPerSeg)
  | _ => decide (l.mainBlkaddr ≤ a.toNat)
      && decide (a.toNat < l.mainBlkaddr + l.segmentCountMain * blocksPerSeg)

/-- One round of `f2fs_submit_page_write`; `none` is a failed `BUG_ON`. -/
def submitPage (btype : PageType) (io : BioInfo) (fio : IoInfo) (full : Bool) : Option BioInfo :=
  if (decide (IsValidBlkaddr fio.oldBlkaddr) && !verifyBlockAddr l fio.type fio.oldBlkaddr)
      || !verifyBlockAddr l fio.type fio.newBlkaddr then none
  else some (placePage devs ioSizeBits (closeBio l devs ioSizeBits btype io fio) fio full)

/-- The rounds over `io_list`; `full k` is for its `k`-th page. -/
def submitList (btype : PageType) (full : ℕ → Bool) : ℕ → List IoInfo → BioInfo → Option BioInfo
  | _, [], io => some io
  | k, fio :: fios, io =>
      (submitPage l devs ioSizeBits btype { io with ioList := fios } fio (full k)).bind fun io =>
        if fio.inList then submitList btype full (k + 1) fios io else some io

/-- `f2fs_submit_page_write`; `arrived` is what other threads put into the list meanwhile. -/
def f2fsSubmitPageWrite (io : BioInfo) (fio : IoInfo) (arrived : List IoInfo) (full : ℕ → Bool) :
    Option BioInfo :=
  if fio.inList then submitList l devs ioSizeBits fio.type full 0 (io.ioList ++ arrived) io
  else submitPage l devs ioSizeBits fio.type io fio (full 0)

/-- `sbi->write_io`. -/
abbrev WriteIo := PageType × Temp → BioInfo

inductive WriteStep where
  | write (fio : IoInfo) (arrived : List IoInfo) (full : ℕ → Bool)
  /-- `f2fs_allocate_data_block` with `add_list`. -/
  | listAdd (fio : IoInfo)
  /-- `__f2fs_submit_merged_write`. -/
  | flush (type : PageType) (temp : Temp)

def writeStep (x : WriteIo) : WriteStep → Option WriteIo
  | .write fio arrived full =>
      if arrived.all fun f => f.type == fio.type && f.temp == fio.temp then
        (f2fsSubmitPageWrite l devs ioSizeBits (x (fio.type, fio.temp)) fio arrived full).map
          fun io => Function.update x (fio.type, fio.temp) io
      else none
  | .listAdd fio =>
      let io := x (fio.type, fio.temp)
      some (Function.update x (fio.type, fio.temp)
        { io with ioList := io.ioList ++ [{ fio with inList := true }] })
  | .flush type temp =>
      some (Function.update x (type, temp) (submitMergedBio ioSizeBits (x (type, temp))))

/-- Nothing is open and nothing waits. -/
def WriteIo.Empty (x : WriteIo) : Prop :=
  ∀ k, (x k).bio = none ∧ (x k).ioList = [] ∧ (x k).submitted = []

end Write

/-! ### What the write side keeps -/

section WriteInvariant

variable {devs : DeviceList} {ioSizeBits : ℕ} {btype : PageType} {io : BioInfo} {fio : IoInfo}
  {full : Bool}

/-- The bios that were submitted are good. -/
def SubmittedOk (l : Layout) (devs : DeviceList) (ioSizeBits : ℕ) (bios : List (PageType × Bio)) :
    Prop :=
  ∀ x ∈ bios, x.1 ≠ .metadata → SegmentBio l devs x.2 ∧ (ioSizeBits = 0 → x.2.dummy = 0)

/-- **The invariant of one `f2fs_bio_info`.**  An open bio of data or nodes is good so far, and
`last_block_in_bio` is its last block. -/
structure BioInfoOk (l : Layout) (devs : DeviceList) (ioSizeBits : ℕ) (btype : PageType)
    (io : BioInfo) : Prop where
  bio : btype ≠ .metadata → ∀ b, io.bio = some b →
    SegmentBio l devs b ∧ b.blocks.getLast? = some io.lastBlockInBio ∧ b.dummy = 0
  type : ∀ b, io.bio = some b → io.fio.type = btype
  list : ∀ f ∈ io.ioList, f.type = btype
  submitted : SubmittedOk l devs ioSizeBits io.submitted

lemma submitBio_good {type : PageType} {b : Bio} (h : SegmentBio l devs b) (hdummy : b.dummy = 0) :
    SegmentBio l devs (submitBio ioSizeBits type b)
      ∧ (ioSizeBits = 0 → (submitBio ioSizeBits type b).dummy = 0) := by
  unfold submitBio
  split
  · next hfill =>
      refine ⟨⟨h.nonempty, h.consecutive, h.segment, h.device⟩, ?_⟩
      rintro rfl
      exact absurd (Nat.mod_one _) hfill.2
  · exact ⟨h, fun _ => hdummy⟩

lemma BioInfoOk.submitMerged (h : BioInfoOk l devs ioSizeBits btype io) :
    BioInfoOk l devs ioSizeBits btype (submitMergedBio ioSizeBits io)
      ∧ (submitMergedBio ioSizeBits io).bio = none := by
  unfold submitMergedBio
  cases hbio : io.bio with
  | none => exact ⟨h, hbio⟩
  | some b =>
      refine ⟨⟨fun _ _ hnone => absurd hnone (by simp), fun _ hnone => absurd hnone (by simp), h.list,
        ?_⟩, rfl⟩
      intro x hx htype
      rcases List.mem_append.mp hx with hx | hx
      · exact h.submitted x hx htype
      · obtain rfl := List.mem_singleton.mp hx
        have hb := h.bio (by rw [← h.type b hbio]; exact htype) b hbio
        exact submitBio_good hb.1 hb.2.2

/-- The open bio, if there is one, goes on with the page. -/
def Continues (l : Layout) (devs : DeviceList) (btype : PageType) (io : BioInfo) (fio : IoInfo) :
    Prop :=
  btype ≠ .metadata → ∀ b, io.bio = some b → fio.newBlkaddr = io.lastBlockInBio + 1#32
    ∧ getSegnoFromSeg0 l io.lastBlockInBio = getSegnoFromSeg0 l fio.newBlkaddr
    ∧ sameBdev devs fio.newBlkaddr b = true

lemma continues_of_none (h : io.bio = none) : Continues l devs btype io fio := by
  intro _ b hb
  rw [h] at hb
  exact absurd hb (by simp)

/-- **What is still open after the two tests goes on with the page, in the same segment.** -/
lemma BioInfoOk.close (h : BioInfoOk l devs ioSizeBits btype io) :
    BioInfoOk l devs ioSizeBits btype (closeBio l devs ioSizeBits btype io fio)
      ∧ Continues l devs btype (closeBio l devs ioSizeBits btype io fio) fio := by
  unfold closeBio
  by_cases happart : (io.bio.isSome && cannotMerge devs io fio) = true
  · have hnone := h.submitMerged.2
    have hjump : jumpsSegment l btype (submitMergedBio ioSizeBits io) fio = false := by
      simp [jumpsSegment, hnone]
    simp only [happart, if_true, hjump, Bool.false_eq_true, if_false]
    exact ⟨h.submitMerged.1, continues_of_none hnone⟩
  · simp only [happart, Bool.false_eq_true, if_false]
    by_cases hjump : jumpsSegment l btype io fio = true
    · simp only [hjump, if_true]
      exact ⟨h.submitMerged.1, continues_of_none h.submitMerged.2⟩
    · simp only [hjump, Bool.false_eq_true, if_false]
      refine ⟨h, ?_⟩
      intro htype b hb
      simp only [hb, Option.isSome_some, Bool.true_and, cannotMerge, Option.any_some,
        Bool.or_eq_true, bne_iff_ne, ne_eq, Bool.not_eq_true', not_or, not_not,
        Bool.not_eq_false] at happart
      simp only [jumpsSegment, hb, Option.isSome_some, Bool.and_true, Bool.and_eq_true, bne_iff_ne,
        ne_eq, not_and, not_not] at hjump
      refine ⟨?_, hjump htype, happart.2⟩
      rw [happart.1.1, BitVec.sub_add_cancel]

/-- The state at `bio_add_page`: a bio that was just allocated for the page, or one that goes on
with it. -/
inductive TakesPage (l : Layout) (devs : DeviceList) (ioSizeBits : ℕ) (btype : PageType)
    (io : BioInfo) (fio : IoInfo) : Prop where
  | fresh (hbio : io.bio = some (bioAlloc devs fio.newBlkaddr)) (htype : io.fio.type = btype)
      (hlist : ∀ f ∈ io.ioList, f.type = btype) (hsub : SubmittedOk l devs ioSizeBits io.submitted)
  | goesOn (h : BioInfoOk l devs ioSizeBits btype io) (hsome : io.bio.isSome)
      (hcont : Continues l devs btype io fio)

lemma BioInfoOk.alloc {io' : BioInfo} (h : BioInfoOk l devs ioSizeBits btype io)
    (hcont : Continues l devs btype io fio) (hfio : fio.type = btype)
    (halloc : allocNew devs ioSizeBits io fio = some io') : TakesPage l devs ioSizeBits btype io' fio := by
  unfold allocNew at halloc
  cases hbio : io.bio with
  | some b =>
      simp only [hbio, Option.some.injEq] at halloc
      subst halloc
      exact .goesOn h (by simp [hbio]) hcont
  | none =>
      simp only [hbio] at halloc
      split at halloc
      · exact absurd halloc (by simp)
      · obtain rfl := Option.some.inj halloc
        exact .fresh rfl hfio h.list h.submitted

/-- **The page joins the bio.** -/
lemma TakesPage.addPage (hfirst : devs.startBlk 0 = 0#32)
    (h : TakesPage l devs ioSizeBits btype io fio) :
    BioInfoOk l devs ioSizeBits btype (io.addPage fio) := by
  cases h with
  | fresh hbio htype hlist hsub =>
      refine ⟨?_, fun _ _ => htype, hlist, hsub⟩
      intro _ b hb
      simp only [BioInfo.addPage, hbio, Option.map_some, Option.some.injEq] at hb
      subst hb
      exact ⟨segmentBio_singleton _, rfl, rfl⟩
  | goesOn hok hsome hcont =>
      obtain ⟨b0, hb0⟩ := Option.isSome_iff_exists.mp hsome
      refine ⟨?_, fun _ _ => hok.type b0 hb0, hok.list, hok.submitted⟩
      intro htype b hb
      simp only [BioInfo.addPage, hb0, Option.map_some, Option.some.injEq] at hb
      subst hb
      obtain ⟨hseg, hlast, hdummy⟩ := hok.bio htype b0 hb0
      obtain ⟨hnext, hsame, hbdev⟩ := hcont htype b0 hb0
      exact ⟨hseg.append hfirst hlast hnext hsame hbdev, by simp [BioInfo.addPage], hdummy⟩

lemma BioInfoOk.place (hfirst : devs.startBlk 0 = 0#32) (h : BioInfoOk l devs ioSizeBits btype io)
    (hcont : Continues l devs btype io fio) (hfio : fio.type = btype) :
    BioInfoOk l devs ioSizeBits btype (placePage devs ioSizeBits io fio full) := by
  unfold placePage
  cases halloc : allocNew devs ioSizeBits io fio with
  | none => exact h
  | some io1 =>
      have htakes := h.alloc hcont hfio halloc
      dsimp only
      split
      · next hfull =>
          rw [Bool.and_eq_true, Bool.not_eq_true'] at hfull
          cases htakes with
          | fresh hbio _ _ _ =>
              -- a new bio is never full
              simp [BioInfo.isNew, hbio, bioAlloc] at hfull
          | goesOn hok _ _ =>
              obtain ⟨hsub, hnone⟩ := hok.submitMerged
              cases hagain : allocNew devs ioSizeBits (submitMergedBio ioSizeBits io1) fio with
              | none => exact hsub
              | some io2 =>
                  exact (hsub.alloc (continues_of_none hnone) hfio hagain).addPage hfirst
      · exact htakes.addPage hfirst

lemma BioInfoOk.submitPage (hfirst : devs.startBlk 0 = 0#32) {io' : BioInfo}
    (h : BioInfoOk l devs ioSizeBits btype io) (hfio : fio.type = btype)
    (hrun : submitPage l devs ioSizeBits btype io fio full = some io') :
    BioInfoOk l devs ioSizeBits btype io' := by
  unfold Hoit.submitPage at hrun
  split at hrun
  · exact absurd hrun (by simp)
  · obtain rfl := Option.some.inj hrun
    obtain ⟨hclosed, hcont⟩ := h.close
    exact hclosed.place hfirst hcont hfio

lemma BioInfoOk.submitList (hfirst : devs.startBlk 0 = 0#32) {full : ℕ → Bool} {fios : List IoInfo} {k : ℕ} {io' : BioInfo}
    (h : BioInfoOk l devs ioSizeBits btype io) (hfios : ∀ f ∈ fios, f.type = btype)
    (hrun : submitList l devs ioSizeBits btype full k fios io = some io') :
    BioInfoOk l devs ioSizeBits btype io' := by
  induction fios generalizing k io with
  | nil => exact Option.some.inj hrun ▸ h
  | cons f fios ih =>
      obtain ⟨io1, hpage, hrest⟩ := Option.bind_eq_some_iff.mp hrun
      have htail : ∀ f ∈ fios, f.type = btype := fun f' hf' => hfios f' (List.mem_cons_of_mem f hf')
      have hstart : BioInfoOk l devs ioSizeBits btype { io with ioList := fios } :=
        ⟨h.bio, h.type, htail, h.submitted⟩
      have hone := hstart.submitPage hfirst (hfios f List.mem_cons_self) hpage
      split at hrest
      · exact ih hone htail hrest
      · exact Option.some.inj hrest ▸ hone

/-- **A call of `f2fs_submit_page_write` keeps the invariant.** -/
lemma BioInfoOk.write (hfirst : devs.startBlk 0 = 0#32) {full : ℕ → Bool} {arrived : List IoInfo}
    {io' : BioInfo} (h : BioInfoOk l devs ioSizeBits fio.type io)
    (harrived : ∀ f ∈ arrived, f.type = fio.type)
    (hrun : f2fsSubmitPageWrite l devs ioSizeBits io fio arrived full = some io') :
    BioInfoOk l devs ioSizeBits fio.type io' := by
  unfold f2fsSubmitPageWrite at hrun
  split at hrun
  · refine h.submitList hfirst ?_ hrun
    intro f hf
    rcases List.mem_append.mp hf with hf | hf
    · exact h.list f hf
    · exact harrived f hf
  · exact h.submitPage hfirst rfl hrun

/-- The invariant of all of `sbi->write_io`. -/
def WriteIoOk (l : Layout) (devs : DeviceList) (ioSizeBits : ℕ) (x : WriteIo) : Prop :=
  ∀ k, BioInfoOk l devs ioSizeBits k.1 (x k)

lemma WriteIo.Empty.ok {x : WriteIo} (h : x.Empty) : WriteIoOk l devs ioSizeBits x := by
  intro k
  obtain ⟨hbio, hlist, hsub⟩ := h k
  constructor
  · intro _ b hb
    rw [hbio] at hb
    exact absurd hb (by simp)
  · intro b hb
    rw [hbio] at hb
    exact absurd hb (by simp)
  · intro f hf
    rw [hlist] at hf
    exact absurd hf List.not_mem_nil
  · intro y hy
    rw [hsub] at hy
    exact absurd hy List.not_mem_nil

lemma WriteIoOk.update {x : WriteIo} {k : PageType × Temp} (h : WriteIoOk l devs ioSizeBits x)
    (hio : BioInfoOk l devs ioSizeBits k.1 io) : WriteIoOk l devs ioSizeBits (Function.update x k io) := by
  intro k'
  rcases eq_or_ne k' k with rfl | hne
  · rw [Function.update_self]
    exact hio
  · rw [Function.update_of_ne hne]
    exact h k'

lemma WriteIoOk.step (hfirst : devs.startBlk 0 = 0#32) {x y : WriteIo} {a : WriteStep}
    (h : WriteIoOk l devs ioSizeBits x) (hstep : writeStep l devs ioSizeBits x a = some y) :
    WriteIoOk l devs ioSizeBits y := by
  cases a with
  | write fio arrived full =>
      rw [writeStep, Option.ite_none_right_eq_some] at hstep
      obtain ⟨harrived, hstep⟩ := hstep
      obtain ⟨io, hrun, rfl⟩ := Option.map_eq_some_iff.mp hstep
      simp only [List.all_eq_true, Bool.and_eq_true, beq_iff_eq] at harrived
      exact h.update ((h (fio.type, fio.temp)).write hfirst (fun f hf => (harrived f hf).1) hrun)
  | listAdd fio =>
      obtain rfl := Option.some.inj hstep
      have hold := h (fio.type, fio.temp)
      refine h.update ⟨hold.bio, hold.type, ?_, hold.submitted⟩
      intro f hf
      rcases List.mem_append.mp hf with hf | hf
      · exact hold.list f hf
      · rw [List.mem_singleton.mp hf]
  | flush type temp =>
      obtain rfl := Option.some.inj hstep
      exact h.update (h (type, temp)).submitMerged.1

end WriteInvariant

/-! ## The read side -/

/-- `f2fs_map_blocks`, as `f2fs_mpage_readpages` uses it. -/
structure ReadMap where
  lblk : BitVec 32
  len : BitVec 32
  pblk : BitVec 32
  mapped : Bool

/-- A page to be read and what happens to it; `result` is what `f2fs_map_blocks` leaves in the map
if it is called, `failed` whether it returns an error. -/
structure ReadPage where
  index : BitVec 64
  lruFails : Bool
  result : ReadMap
  failed : Bool
  /-- The page came from the clean cache. -/
  cached : Bool
  full : Bool
  /-- `f2fs_grab_read_bio` fails at its first or second call. -/
  grabFails : Bool
  grabFailsAgain : Bool

/-- The variables of the loop, and the bios submitted so far. -/
structure ReadState where
  bio : Option Bio
  lastBlockInBio : BitVec 64
  map : ReadMap
  submitted : List Bio

section Read

variable (l : Layout) (devs : DeviceList)

/-- `GET_SEGNO_FROM_SEG0` of a `sector_t`, stored into an `unsigned int`. -/
def getSegnoOfSector (blockNr : BitVec 64) : BitVec 32 :=
  ((blockNr - BitVec.ofNat 64 l.seg0Blkaddr) >>> 9).setWidth 32

/-- `__submit_bio` of the open bio. -/
def ReadState.submit (st : ReadState) : ReadState :=
  { st with bio := none, submitted := st.submitted ++ st.bio.toList }

/-- The previous mapping covers the block. -/
def ReadMap.covers (m : ReadMap) (blockInFile : BitVec 64) : Bool :=
  m.mapped && decide (m.lblk.setWidth 64 < blockInFile)
    && decide (blockInFile < (m.lblk + m.len).setWidth 64)

/-- The mapping of the page; `none` is an error.  Behind the end of the file there is none. -/
def mapPage (st : ReadState) (pg : ReadPage) (lastBlock : BitVec 64) : ReadMap × Bool :=
  if st.map.covers pg.index then (st.map, true)
  else if pg.index < lastBlock then
    ({ pg.result with lblk := pg.index.setWidth 32 }, !pg.failed)
  else ({ st.map with mapped := false }, true)

/-- The two tests before a bio is allocated. -/
def closeReadBio (st : ReadState) (blockNr : BitVec 64) : ReadState :=
  let st :=
    if st.bio.isSome && (st.lastBlockInBio != blockNr - 1#64
        || !st.bio.any (sameBdev devs (blockNr.setWidth 32))) then st.submit
    else st
  if st.bio.isSome && getSegnoOfSector l st.lastBlockInBio != getSegnoOfSector l blockNr then
    st.submit
  else st

/-- `f2fs_grab_read_bio`, if no bio is open. -/
def grabReadBio (st : ReadState) (blockNr : BitVec 64) (fails : Bool) : Option ReadState :=
  match st.bio with
  | some _ => some st
  | none =>
      if fails then none else some { st with bio := some (bioAlloc devs (blockNr.setWidth 32)) }

/-- `bio_add_page` when there is room. -/
def ReadState.addPage (st : ReadState) (blockNr : BitVec 64) : ReadState :=
  { st with
    bio := st.bio.map fun b => { b with blocks := b.blocks ++ [blockNr.setWidth 32] }
    lastBlockInBio := blockNr }

/-- From the allocation of a bio to `next_page`. -/
def placeReadPage (st : ReadState) (pg : ReadPage) (blockNr : BitVec 64) : ReadState :=
  match grabReadBio devs st blockNr pg.grabFails with
  | none => st
  | some st =>
      if pg.full && !(st.bio.all fun b => b.blocks.isEmpty) then
        match grabReadBio devs st.submit blockNr pg.grabFailsAgain with
        | none => st.submit
        | some st => st.addPage blockNr
      else st.addPage blockNr

/-- One round of the loop. -/
def readPage (lastBlockInFile : BitVec 64) (nrPages : BitVec 64) (st : ReadState) (pg : ReadPage) :
    ReadState :=
  if pg.lruFails then st
  else
    let lastBlock := if pg.index + nrPages > lastBlockInFile then lastBlockInFile else pg.index + nrPages
    let r := mapPage st pg lastBlock
    let st := { st with map := r.1 }
    if !r.2 then st
    else if !r.1.mapped then st
    else if pg.cached then st.submit
    else
      let blockNr := r.1.pblk.setWidth 64 + pg.index - r.1.lblk.setWidth 64
      placeReadPage devs (closeReadBio l devs st blockNr) pg blockNr

/-- The loop; `nrPages` counts down. -/
def readLoop (lastBlockInFile : BitVec 64) : List ReadPage → ReadState → ReadState
  | [], st => st
  | pg :: pgs, st =>
      readLoop lastBlockInFile pgs
        (readPage l devs lastBlockInFile (BitVec.ofNat 64 (pgs.length + 1)) st pg)

/-- `f2fs_mpage_readpages`: the bios it submits. -/
def f2fsMpageReadpages (lastBlockInFile : BitVec 64) (pgs : List ReadPage) : List Bio :=
  (readLoop l devs lastBlockInFile pgs ⟨none, 0#64, ⟨0#32, 0#32, 0#32, false⟩, []⟩).submit.submitted

end Read

section ReadInvariant

variable {devs : DeviceList} {st : ReadState} {pg : ReadPage} {blockNr : BitVec 64}

structure ReadOk (l : Layout) (devs : DeviceList) (st : ReadState) : Prop where
  bio : ∀ b, st.bio = some b →
    SegmentBio l devs b ∧ b.blocks.getLast? = some (st.lastBlockInBio.setWidth 32) ∧ b.dummy = 0
  submitted : ∀ b ∈ st.submitted, SegmentBio l devs b ∧ b.dummy = 0

lemma ReadOk.submit (h : ReadOk l devs st) : ReadOk l devs st.submit := by
  refine ⟨fun _ hnone => absurd hnone (by simp [ReadState.submit]), ?_⟩
  intro b hb
  rcases List.mem_append.mp hb with hb | hb
  · exact h.submitted b hb
  · have hopen := h.bio b (Option.mem_toList.mp hb)
    exact ⟨hopen.1, hopen.2.2⟩

/-- The open bio goes on with the block. -/
def ReadContinues (l : Layout) (devs : DeviceList) (st : ReadState) (blockNr : BitVec 64) : Prop :=
  ∀ b, st.bio = some b → blockNr.setWidth 32 = st.lastBlockInBio.setWidth 32 + 1#32
    ∧ getSegnoFromSeg0 l (st.lastBlockInBio.setWidth 32) = getSegnoFromSeg0 l (blockNr.setWidth 32)
    ∧ sameBdev devs (blockNr.setWidth 32) b = true

lemma readContinues_of_none (h : st.bio = none) : ReadContinues l devs st blockNr := by
  intro b hb
  rw [h] at hb
  exact absurd hb (by simp)

/-- The test on 64-bit numbers cuts where the segments of the 32-bit addresses do. -/
lemma getSegnoFromSeg0_of_sector {last : BitVec 64} (hnext : blockNr = last + 1#64)
    (hseg : getSegnoOfSector l last = getSegnoOfSector l blockNr) :
    getSegnoFromSeg0 l (last.setWidth 32) = getSegnoFromSeg0 l (blockNr.setWidth 32) := by
  have hend := l.ssd_end
  have hseg' := congrArg BitVec.toNat hseg
  apply BitVec.eq_of_toNat_eq
  simp only [getSegnoOfSector, getSegnoFromSeg0, getSegoffFromSeg0, hnext, BitVec.toNat_setWidth,
    BitVec.toNat_ushiftRight, Nat.shiftRight_eq_div_pow, BitVec.toNat_sub, BitVec.toNat_add,
    BitVec.toNat_ofNat] at hseg' ⊢
  have hlt := last.isLt
  have hseg0 : l.seg0Blkaddr < 2 ^ 32 := by omega
  omega

lemma ReadOk.close (h : ReadOk l devs st) :
    ReadOk l devs (closeReadBio l devs st blockNr)
      ∧ ReadContinues l devs (closeReadBio l devs st blockNr) blockNr := by
  unfold closeReadBio
  by_cases happart : (st.bio.isSome && (st.lastBlockInBio != blockNr - 1#64
      || !st.bio.any (sameBdev devs (blockNr.setWidth 32)))) = true
  · simp only [happart, if_true]
    have hnone : st.submit.bio = none := rfl
    simp only [hnone, Option.isSome_none, Bool.false_and, Bool.false_eq_true, if_false]
    exact ⟨h.submit, readContinues_of_none hnone⟩
  · simp only [happart, Bool.false_eq_true, if_false]
    by_cases hjump : (st.bio.isSome
        && getSegnoOfSector l st.lastBlockInBio != getSegnoOfSector l blockNr) = true
    · simp only [hjump, if_true]
      exact ⟨h.submit, readContinues_of_none rfl⟩
    · simp only [hjump, Bool.false_eq_true, if_false]
      refine ⟨h, fun b hb => ?_⟩
      simp only [hb, Option.isSome_some, Bool.true_and, Option.any_some, Bool.or_eq_true,
        bne_iff_ne, ne_eq, Bool.not_eq_true', not_or, not_not, Bool.not_eq_false] at happart
      simp only [hb, Option.isSome_some, Bool.true_and, bne_iff_ne, ne_eq, not_not] at hjump
      have hnext : blockNr = st.lastBlockInBio + 1#64 := by
        rw [happart.1, BitVec.sub_add_cancel]
      refine ⟨?_, getSegnoFromSeg0_of_sector hnext hjump, happart.2⟩
      rw [hnext, BitVec.setWidth_add _ _ (by decide)]
      rfl

/-- The state at `bio_add_page`. -/
inductive TakesBlock (l : Layout) (devs : DeviceList) (st : ReadState) (blockNr : BitVec 64) :
    Prop where
  | fresh (hbio : st.bio = some (bioAlloc devs (blockNr.setWidth 32)))
      (hsub : ∀ b ∈ st.submitted, SegmentBio l devs b ∧ b.dummy = 0)
  | goesOn (h : ReadOk l devs st) (hsome : st.bio.isSome) (hcont : ReadContinues l devs st blockNr)

lemma ReadOk.grab {st' : ReadState} {fails : Bool} (h : ReadOk l devs st)
    (hcont : ReadContinues l devs st blockNr) (hgrab : grabReadBio devs st blockNr fails = some st') :
    TakesBlock l devs st' blockNr := by
  unfold grabReadBio at hgrab
  cases hbio : st.bio with
  | some b =>
      simp only [hbio, Option.some.injEq] at hgrab
      subst hgrab
      exact .goesOn h (by simp [hbio]) hcont
  | none =>
      simp only [hbio] at hgrab
      split at hgrab
      · exact absurd hgrab (by simp)
      · obtain rfl := Option.some.inj hgrab
        exact .fresh rfl h.submitted

lemma TakesBlock.addPage (hfirst : devs.startBlk 0 = 0#32) (h : TakesBlock l devs st blockNr) :
    ReadOk l devs (st.addPage blockNr) := by
  cases h with
  | fresh hbio hsub =>
      refine ⟨?_, hsub⟩
      intro b hb
      simp only [ReadState.addPage, hbio, Option.map_some, Option.some.injEq] at hb
      subst hb
      exact ⟨segmentBio_singleton _, rfl, rfl⟩
  | goesOn hok hsome hcont =>
      obtain ⟨b0, hb0⟩ := Option.isSome_iff_exists.mp hsome
      refine ⟨?_, hok.submitted⟩
      intro b hb
      simp only [ReadState.addPage, hb0, Option.map_some, Option.some.injEq] at hb
      subst hb
      obtain ⟨hseg, hlast, hdummy⟩ := hok.bio b0 hb0
      obtain ⟨hnext, hsame, hbdev⟩ := hcont b0 hb0
      exact ⟨hseg.append hfirst hlast hnext hsame hbdev, by simp [ReadState.addPage], hdummy⟩

lemma ReadOk.place (hfirst : devs.startBlk 0 = 0#32) (h : ReadOk l devs st)
    (hcont : ReadContinues l devs st blockNr) : ReadOk l devs (placeReadPage devs st pg blockNr) := by
  unfold placeReadPage
  cases hgrab : grabReadBio devs st blockNr pg.grabFails with
  | none => exact h
  | some st1 =>
      have htakes := h.grab hcont hgrab
      dsimp only
      split
      · next hfull =>
          cases htakes with
          | fresh hbio _ => simp [hbio, bioAlloc] at hfull
          | goesOn hok _ _ =>
              cases hagain : grabReadBio devs st1.submit blockNr pg.grabFailsAgain with
              | none => exact hok.submit
              | some st2 =>
                  exact (hok.submit.grab (readContinues_of_none rfl) hagain).addPage hfirst
      · exact htakes.addPage hfirst

lemma ReadOk.readPage (hfirst : devs.startBlk 0 = 0#32) {lastBlockInFile nrPages : BitVec 64}
    (h : ReadOk l devs st) : ReadOk l devs (readPage l devs lastBlockInFile nrPages st pg) := by
  have hmap : ∀ m, ReadOk l devs { st with map := m } := fun m => ⟨h.bio, h.submitted⟩
  unfold Hoit.readPage
  generalize (if pg.index + nrPages > lastBlockInFile then lastBlockInFile
    else pg.index + nrPages) = lastBlock
  dsimp only
  split
  · exact h
  · split
    · exact hmap _
    · split
      · exact hmap _
      · split
        · exact (hmap _).submit
        · obtain ⟨hclosed, hcont⟩ := (hmap _).close
          exact hclosed.place hfirst hcont

lemma ReadOk.loop (hfirst : devs.startBlk 0 = 0#32) {lastBlockInFile : BitVec 64}
    {pgs : List ReadPage} (h : ReadOk l devs st) :
    ReadOk l devs (readLoop l devs lastBlockInFile pgs st) := by
  induction pgs generalizing st with
  | nil => exact h
  | cons pg pgs ih => exact ih (h.readPage hfirst)

end ReadInvariant

/-! ## The result -/

/-- **No bio of data or nodes leaves its segment or its device**, whatever is written and flushed in
whatever order, and whatever mappings a read finds; with `F2FS_IO_SIZE` 1 it has no dummy pages.
**A block of it goes where its own entry says iff** its device starts at block 0, as
`f2fs_scan_devices` makes the first one do. -/
theorem bios_follow_iff (l : Layout) (devs : DeviceList) (hfirst : devs.startBlk 0 = 0#32)
    (ioSizeBits : ℕ) :
    (∀ (x y : WriteIo) (as : List WriteStep), x.Empty →
        exec (writeStep l devs ioSizeBits) x as = some y →
        ∀ k, ∀ b ∈ (y k).submitted, b.1 ≠ .metadata →
          SegmentBio l devs b.2 ∧ (ioSizeBits = 0 → b.2.dummy = 0)
            ∧ ∀ i a, b.2.blocks[i]? = some a →
              (BlockFollows l devs b.2 i a ↔ OnFirstBlocks devs a))
      ∧ ∀ (lastBlockInFile : BitVec 64) (pgs : List ReadPage),
          ∀ b ∈ f2fsMpageReadpages l devs lastBlockInFile pgs,
            SegmentBio l devs b ∧ b.dummy = 0
              ∧ ∀ i a, b.blocks[i]? = some a →
                (BlockFollows l devs b i a ↔ OnFirstBlocks devs a) := by
  constructor
  · intro x y as hempty hrun k b hb htype
    have hok : WriteIoOk l devs ioSizeBits y :=
      exec_preserves (fun _ _ _ hx hstep => hx.step hfirst hstep) hempty.ok hrun
    obtain ⟨hseg, hdummy⟩ := (hok k).submitted b hb htype
    exact ⟨hseg, hdummy, fun i a ha => hseg.follows_iff hfirst ha⟩
  · intro lastBlockInFile pgs b hb
    have hstart : ReadOk l devs ⟨none, 0#64, ⟨0#32, 0#32, 0#32, false⟩, []⟩ :=
      ⟨fun _ hnone => absurd hnone (by simp), fun _ hnil => absurd hnil List.not_mem_nil⟩
    obtain ⟨hseg, hdummy⟩ := (hstart.loop hfirst).submit.submitted b hb
    exact ⟨hseg, hdummy, fun i a ha => hseg.follows_iff hfirst ha⟩

/-- Nothing has been written yet. -/
def emptyWriteIo : WriteIo := fun _ =>
  { bio := none
    lastBlockInBio := 0#32
    fio := ⟨.data, .hot, 0#32, 0#32, 0#32, 0#32, false⟩
    ioList := []
    submitted := [] }

lemma emptyWriteIo_empty : emptyWriteIo.Empty := fun _ => ⟨rfl, rfl, rfl⟩

/-- A page of hot data for the block `a`. -/
def hotPage (a : BitVec 32) : WriteStep :=
  .write ⟨.data, .hot, 1#32, 0#32, 0#32, a, false⟩ [] fun _ => false

lemma eight_fit : 8 < 2 ^ 23 := by decide

lemma eight_end : 512 + (2 + 8) * blocksPerSeg < 2 ^ 32 := by decide

lemma four_end : 1024 + 4 * blocksPerSeg < 2 ^ 32 := by decide

/-- Eight SSD segments from block 1536 on, and four of NVM from block 1024 on. -/
def splitLayout : Layout where
  mainSegmentNums := 4
  segmentCountMain := 8
  segsPerSec := 1
  nvm_lt := Geometry.four_fit
  ssd_lt := eight_fit
  segsPerSec_pos := Nat.one_pos
  seg0Blkaddr := 512
  metaSegs := 2
  nvmMainBlkaddr := 1024
  ssd_end := eight_end
  nvm_end := four_end

/-- A device up to SSD segment 0, and one with the other seven. -/
def splitDevices : DeviceList where
  ndevs := 2
  startBlk := fun i => if i = 0 then 0#32 else 2048#32
  endBlk := fun i => if i = 0 then 2047#32 else 5631#32

/-- The pages of the last block of SSD segment 0, of the first two of segment 1, and of block 7 of
segment 4. -/
def splitWrites : List WriteStep :=
  [hotPage 2046#32, hotPage 2047#32, hotPage 2048#32, hotPage 2049#32, hotPage 3591#32,
    .flush .data .hot]

/-- Where the segment and the device change, so does the bio. -/
def splitBios : List (PageType × Bio) :=
  [(.data, ⟨0, 2046#32, [2046#32, 2047#32], 0⟩), (.data, ⟨1, 0#32, [2048#32, 2049#32], 0⟩),
    (.data, ⟨1, 1543#32, [3591#32], 0⟩)]

lemma splitWrites_submitted :
    ∃ y, exec (writeStep splitLayout splitDevices 0) emptyWriteIo splitWrites = some y
      ∧ (y (.data, .hot)).submitted = splitBios := by
  refine Option.map_eq_some_iff.mp ?_
  decide +kernel

/-- The three pages of a file whose blocks are 2046, 2047 and 2048; the second and the third are
found in the mapping of the first. -/
def splitReads : List ReadPage :=
  [0#64, 1#64, 2#64].map fun index =>
    { index
      lruFails := false
      result := ⟨0#32, 3#32, 2046#32, true⟩
      failed := false
      cached := false
      full := false
      grabFails := false
      grabFailsAgain := false }

/-- A write to the first device goes where its entry says, and so does a read; one to block 7 of
segment 4 on the second device does not. -/
theorem bios_follow_iff_split :
    (∃ y, exec (writeStep splitLayout splitDevices 0) emptyWriteIo splitWrites = some y
      ∧ (y (.data, .hot)).submitted = splitBios
      ∧ (∀ b ∈ splitBios, SegmentBio splitLayout splitDevices b.2)
      ∧ BlockFollows splitLayout splitDevices ⟨0, 2046#32, [2046#32, 2047#32], 0⟩ 1 2047#32
      ∧ ¬ BlockFollows splitLayout splitDevices ⟨1, 1543#32, [3591#32], 0⟩ 0 3591#32)
    ∧ f2fsMpageReadpages splitLayout splitDevices 3#64 splitReads
        = [⟨0, 2046#32, [2046#32, 2047#32], 0⟩, ⟨1, 0#32, [2048#32], 0⟩]
    ∧ ∀ b ∈ f2fsMpageReadpages splitLayout splitDevices 3#64 splitReads,
        SegmentBio splitLayout splitDevices b := by
  obtain ⟨hwrites, hreads⟩ := bios_follow_iff splitLayout splitDevices rfl 0
  refine ⟨?_, by decide +kernel, fun b hb => (hreads 3#64 splitReads b hb).1⟩
  obtain ⟨y, hy, hbios⟩ := splitWrites_submitted
  have hgood := hwrites emptyWriteIo y splitWrites emptyWriteIo_empty hy (.data, .hot)
  rw [hbios] at hgood
  have htype : ∀ b ∈ splitBios, b.1 ≠ .metadata := by decide
  refine ⟨y, hy, hbios, fun b hb => (hgood b hb (htype b hb)).1, ?_, ?_⟩
  · exact ((hgood (.data, ⟨0, 2046#32, [2046#32, 2047#32], 0⟩) (by decide) (by decide)).2.2 1
      2047#32 rfl).mpr (by decide)
  · exact mt ((hgood (.data, ⟨1, 1543#32, [3591#32], 0⟩) (by decide) (by decide)).2.2 0
      3591#32 rfl).mp (by decide)

/-- SSD segment 0 is mapped to NVM segment 3. -/
def splitNsbi : NvmSbInfo :=
  createMapping splitLayout.toGeometry { boundaryNsbi 3 with mpt := fun _ => 0#32 } 0 3
    (rwMap ||| rwRedirect)

/-- **A write to a later device follows another segment's entry.**  Block 7 of SSD segment 4, which
is not mapped, has the address 1543 on its device, and block 1543 of the file system lies in
segment 0: the write goes to NVM segment 3. -/
theorem bios_follow_broken :
    ¬ ∀ (l : Layout) (devs : DeviceList) (x y : WriteIo) (as : List WriteStep),
      devs.startBlk 0 = 0#32 → x.Empty → exec (writeStep l devs 0) x as = some y →
        ∀ k, ∀ b ∈ (y k).submitted, b.1 ≠ .metadata →
          ∀ i a, b.2.blocks[i]? = some a → BlockFollows l devs b.2 i a := by
  intro hall
  obtain ⟨y, hy, hbios⟩ := splitWrites_submitted
  have hgood := hall splitLayout splitDevices emptyWriteIo y splitWrites rfl emptyWriteIo_empty hy
    (.data, .hot)
  rw [hbios] at hgood
  have hplace := hgood (.data, ⟨1, 1543#32, [3591#32], 0⟩) (by decide) (by decide) 0 3591#32 rfl
    splitNsbi .data false 1 (by decide)
  exact absurd hplace (by decide)

end Hoit
