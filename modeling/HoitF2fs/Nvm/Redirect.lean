import HoitF2fs.Nvm.Accounting

/-!
# Redirection of block addresses

`nvm_redirect_bio` and `nvm_redirect_dio` turn the address of an SSD block into the device and
address to use, by looking up the table entry of the block's segment.  They compute with 32-bit
block addresses, and nothing checks that the address lies in the MAIN area; `BitVec 32` keeps the
wrap-around.

* `Layout` — where the MAIN areas lie.
* `nvmRedirectBio`, `nvmRedirectDio` — the two functions, with the table entries they touch.
* `resolve` — the abstract reading: which block of which segment a block of an SSD segment is.

`redirectTarget_ssdAddr` connects the two: **on an address in the MAIN area the arithmetic
computes `resolve`**.
-/

namespace Hoit

/-! ## Devices, segments, blocks -/

inductive Dev where
  | ssd
  | nvm
deriving DecidableEq

/-- A block of a device: segment offset in the MAIN area and block offset in the segment. -/
structure Location where
  dev : Dev
  seg : ℕ
  blk : ℕ
deriving DecidableEq

/-- Where block `b` of SSD segment `s` is read and written. -/
def resolve (g : Geometry) (mpt : Mpt) (s b : ℕ) : Location :=
  if getRedirectFlag mpt (g.ssdIndex s) then ⟨.nvm, getMptValue mpt (g.ssdIndex s), b⟩
  else ⟨.ssd, s, b⟩

/-- Replace the content of a whole segment. -/
def setSeg {α : Type*} (content : Location → α) (d : Dev) (seg : ℕ) (f : ℕ → α) : Location → α :=
  fun x => if x.dev = d ∧ x.seg = seg then f x.blk else content x

lemma setSeg_same {α : Type*} (content : Location → α) (d : Dev) (seg : ℕ) (f : ℕ → α) (b : ℕ) :
    setSeg content d seg f ⟨d, seg, b⟩ = f b := by
  simp [setSeg]

lemma setSeg_of_ne {α : Type*} {content : Location → α} {d : Dev} {seg : ℕ} {f : ℕ → α}
    {x : Location} (h : ¬ (x.dev = d ∧ x.seg = seg)) : setSeg content d seg f x = content x := by
  simp [setSeg, h]

/-- The MAIN areas of both devices, in blocks.  The areas in front of MAIN are whole segments
(`sanity_check_area_boundary`), and block addresses have 32 bits. -/
structure Layout extends Geometry where
  seg0Blkaddr : ℕ
  metaSegs : ℕ
  nvmMainBlkaddr : ℕ
  ssd_end : seg0Blkaddr + (metaSegs + segmentCountMain) * blocksPerSeg < 2 ^ 32
  nvm_end : nvmMainBlkaddr + mainSegmentNums * blocksPerSeg < 2 ^ 32

variable (l : Layout)

/-- `raw_super->main_blkaddr`. -/
def Layout.mainBlkaddr : ℕ := l.seg0Blkaddr + l.metaSegs * blocksPerSeg

/-- The address of a block of the SSD's MAIN area (`START_BLOCK` plus the offset). -/
def ssdAddr (s b : ℕ) : BitVec 32 := BitVec.ofNat 32 (l.mainBlkaddr + s * blocksPerSeg + b)

/-- The address of a block of NVM's MAIN area. -/
def nvmAddr (n b : ℕ) : BitVec 32 := BitVec.ofNat 32 (l.nvmMainBlkaddr + n * blocksPerSeg + b)

/-- The device and block address of a location. -/
def Location.target (x : Location) : Dev × BitVec 32 :=
  match x.dev with
  | .ssd => (.ssd, ssdAddr l x.seg x.blk)
  | .nvm => (.nvm, nvmAddr l x.seg x.blk)

/-! ## The macros of `segment.h` -/

def getSegoffFromSeg0 (blkAddr : BitVec 32) : BitVec 32 := blkAddr - BitVec.ofNat 32 l.seg0Blkaddr

def getSegnoFromSeg0 (blkAddr : BitVec 32) : BitVec 32 := getSegoffFromSeg0 l blkAddr >>> 9

def getBlkoffFromSeg0 (blkAddr : BitVec 32) : BitVec 32 := getSegoffFromSeg0 l blkAddr &&& 511#32

/-! ## The two redirections -/

/-- `ssd_main_segoff`. -/
def ssdMainSegoff (blkAddr : BitVec 32) : BitVec 32 :=
  getSegnoFromSeg0 l blkAddr - getSegnoFromSeg0 l (BitVec.ofNat 32 l.mainBlkaddr)

/-- `index`, the table entry that is looked up. -/
def mptIndex (blkAddr : BitVec 32) : BitVec 32 :=
  BitVec.ofNat 32 l.mainSegmentNums + ssdMainSegoff l blkAddr

/-- The address on NVM that the redirection computes from the entry's value. -/
def redirectedAddr (mpt : Mpt) (blkAddr : BitVec 32) : BitVec 32 :=
  BitVec.ofNat 32 l.nvmMainBlkaddr
    + BitVec.ofNat 32 (getMptValue mpt (mptIndex l blkAddr).toNat) * BitVec.ofNat 32 blocksPerSeg
    + getBlkoffFromSeg0 l blkAddr

/-- The weight of one read in the LFU count. -/
def getSizeCount (size : ℤ) : ℤ :=
  if size < 4 then 5 else if size < 8 then 3 else if size < 16 then 2 else 1

/-- `lfu_count[now_lfu_counter][segoff] += size_count`. -/
def addLfuCount (nsbi : NvmSbInfo) (segoff : BitVec 32) (c : ℤ) : NvmSbInfo :=
  setLfuCount nsbi segoff.toNat (nsbi.lfuCount nsbi.nowLfuCounter segoff.toNat + c)

/-- The device and address both redirections choose for the block address `blkAddr`. -/
def redirectTarget (mpt : Mpt) (blkAddr : BitVec 32) : Dev × BitVec 32 :=
  if getRedirectFlag mpt (mptIndex l blkAddr).toNat then (.nvm, redirectedAddr l mpt blkAddr)
  else (.ssd, blkAddr)

/-- The page types `nvm_redirect_bio` tells apart. -/
inductive PageType where
  | data
  | node
  | metadata
deriving DecidableEq

/-- `NVM_FIRST_MOUNR`. -/
def nvmFirstMount : BitVec 16 := 0x0002#16

/-- `nvm_redirect_bio`: metadata goes to NVM at its own address, except reads during a first
mount; data and node blocks follow the table.  `vcnt` is the number of pages of the bio. -/
def nvmRedirectBio (nsbi : NvmSbInfo) (type : PageType) (isRead : Bool) (vcnt : ℤ)
    (blkAddr : BitVec 32) : NvmSbInfo × Dev × BitVec 32 :=
  match type with
  | .metadata =>
      if nsbi.nvmFlag &&& nvmFirstMount = 0#16 ∨ isRead = false then (nsbi, .nvm, blkAddr)
      else (nsbi, .ssd, blkAddr)
  | _ =>
      (if isRead then addLfuCount nsbi (ssdMainSegoff l blkAddr) (getSizeCount vcnt) else nsbi,
        redirectTarget l nsbi.mpt blkAddr)

/-- `nvm_redirect_dio`, called on a buffer head of `blkNums` blocks: the table is looked up for
its first block, and the whole extent moves with it. -/
def nvmRedirectDio (nsbi : NvmSbInfo) (blocknr : BitVec 32) (blkNums : ℤ) (write : Bool) :
    NvmSbInfo × Dev × BitVec 32 :=
  (if write then nsbi else addLfuCount nsbi (ssdMainSegoff l blocknr) (getSizeCount blkNums),
    redirectTarget l nsbi.mpt blocknr)

/-! ## Addresses in the MAIN area -/

variable {l}

lemma getSegoffFromSeg0_ofNat (k : ℕ) :
    getSegoffFromSeg0 l (BitVec.ofNat 32 (l.seg0Blkaddr + k)) = BitVec.ofNat 32 k := by
  rw [getSegoffFromSeg0, BitVec.ofNat_add, BitVec.add_comm, BitVec.add_sub_cancel]

lemma getSegnoFromSeg0_ofNat {seg b : ℕ} (hb : b < blocksPerSeg)
    (hlt : seg * blocksPerSeg + b < 2 ^ 32) :
    getSegnoFromSeg0 l (BitVec.ofNat 32 (l.seg0Blkaddr + (seg * blocksPerSeg + b)))
      = BitVec.ofNat 32 seg := by
  have hseg : (seg * blocksPerSeg + b) / 2 ^ 9 = seg := by
    simp only [blocksPerSeg] at hb ⊢
    omega
  have hsmall : seg < 2 ^ 32 := by
    simp only [blocksPerSeg] at hlt
    omega
  apply BitVec.eq_of_toNat_eq
  rw [getSegnoFromSeg0, getSegoffFromSeg0_ofNat, BitVec.toNat_ushiftRight, BitVec.toNat_ofNat,
    BitVec.toNat_ofNat, Nat.mod_eq_of_lt hlt, Nat.shiftRight_eq_div_pow, hseg,
    Nat.mod_eq_of_lt hsmall]

lemma ssdAddr_eq (s b : ℕ) :
    ssdAddr l s b
      = BitVec.ofNat 32 (l.seg0Blkaddr + ((l.metaSegs + s) * blocksPerSeg + b)) := by
  rw [ssdAddr, Layout.mainBlkaddr]
  congr 1
  ring

lemma ssd_block_lt {s b : ℕ} (hs : s < l.segmentCountMain) (hb : b < blocksPerSeg) :
    l.seg0Blkaddr + ((l.metaSegs + s) * blocksPerSeg + b) < 2 ^ 32 := by
  have hend := l.ssd_end
  have hle : (l.metaSegs + s + 1) * blocksPerSeg
      ≤ (l.metaSegs + l.segmentCountMain) * blocksPerSeg := Nat.mul_le_mul_right _ (by omega)
  rw [Nat.add_mul (l.metaSegs + s), Nat.one_mul] at hle
  omega

/-- The segment of a MAIN block is found. -/
lemma ssdMainSegoff_ssdAddr {s b : ℕ} (hs : s < l.segmentCountMain) (hb : b < blocksPerSeg) :
    ssdMainSegoff l (ssdAddr l s b) = BitVec.ofNat 32 s := by
  have hlt := ssd_block_lt hs hb
  have hmain : getSegnoFromSeg0 l (BitVec.ofNat 32 l.mainBlkaddr)
      = BitVec.ofNat 32 l.metaSegs := by
    have hle : l.metaSegs * blocksPerSeg ≤ (l.metaSegs + s) * blocksPerSeg :=
      Nat.mul_le_mul_right _ (by omega)
    have hzero : (0 : ℕ) < blocksPerSeg := Nat.lt_of_le_of_lt (Nat.zero_le b) hb
    have hsmall : l.metaSegs * blocksPerSeg + 0 < 2 ^ 32 := by omega
    have hsegno := getSegnoFromSeg0_ofNat (l := l) hzero hsmall
    rw [Nat.add_zero] at hsegno
    rw [Layout.mainBlkaddr, hsegno]
  rw [ssdMainSegoff, hmain, ssdAddr_eq, getSegnoFromSeg0_ofNat hb (by omega), BitVec.ofNat_add,
    BitVec.add_comm, BitVec.add_sub_cancel]

lemma mptIndex_ssdAddr {s b : ℕ} (hs : s < l.segmentCountMain) (hb : b < blocksPerSeg) :
    (mptIndex l (ssdAddr l s b)).toNat = l.toGeometry.ssdIndex s := by
  have h1 := l.nvm_lt
  have h2 := l.ssd_lt
  rw [mptIndex, ssdMainSegoff_ssdAddr hs hb, ← BitVec.ofNat_add, BitVec.toNat_ofNat,
    Nat.mod_eq_of_lt (by omega)]
  rfl

lemma getBlkoffFromSeg0_ssdAddr {s b : ℕ} (hs : s < l.segmentCountMain)
    (hb : b < blocksPerSeg) :
    getBlkoffFromSeg0 l (ssdAddr l s b) = BitVec.ofNat 32 b := by
  have hlt := ssd_block_lt hs hb
  apply BitVec.eq_of_toNat_eq
  rw [getBlkoffFromSeg0, ssdAddr_eq, getSegoffFromSeg0_ofNat, BitVec.toNat_and,
    BitVec.toNat_ofNat, BitVec.toNat_ofNat, Nat.mod_eq_of_lt (by omega)]
  have hmask : ∀ k : ℕ, k &&& 511 % 2 ^ 32 = k % 2 ^ 9 :=
    fun k => Nat.and_two_pow_sub_one_eq_mod k 9
  rw [hmask, BitVec.toNat_ofNat]
  simp only [blocksPerSeg] at hb ⊢
  omega

/-- **The arithmetic of the redirection computes `resolve`** on every block of the MAIN area. -/
theorem redirectTarget_ssdAddr (mpt : Mpt) {s b : ℕ} (hs : s < l.segmentCountMain)
    (hb : b < blocksPerSeg) :
    redirectTarget l mpt (ssdAddr l s b) = (resolve l.toGeometry mpt s b).target l := by
  have hidx := mptIndex_ssdAddr hs hb
  rw [redirectTarget, resolve, hidx]
  cases hflag : getRedirectFlag mpt (l.toGeometry.ssdIndex s) with
  | false => rfl
  | true =>
      show (Dev.nvm, redirectedAddr l mpt (ssdAddr l s b))
        = (Dev.nvm, nvmAddr l (getMptValue mpt (l.toGeometry.ssdIndex s)) b)
      rw [redirectedAddr, hidx, getBlkoffFromSeg0_ssdAddr hs hb, nvmAddr, BitVec.ofNat_add,
        BitVec.ofNat_add, BitVec.ofNat_mul]

/-! ## What the table guarantees about its entries -/

/-- A redirected segment is mapped, and a mapped one has a segment of NVM. -/
structure EntriesOk (g : Geometry) (mpt : Mpt) : Prop where
  mapped : ∀ s < g.segmentCountMain, getRedirectFlag mpt (g.ssdIndex s) = true →
    getMapFlag mpt (g.ssdIndex s) = true
  target : ∀ s < g.segmentCountMain, getMapFlag mpt (g.ssdIndex s) = true →
    getMptValue mpt (g.ssdIndex s) < g.mainSegmentNums

section Entries

variable {g : Geometry} {nsbi : NvmSbInfo} {s : ℕ}

lemma getRedirectFlag_congr {mpt mpt' : Mpt} {i : ℕ} (h : mpt' i = mpt i) :
    getRedirectFlag mpt' i = getRedirectFlag mpt i := by
  simp only [getRedirectFlag, h]

/-- The two facts are about one entry at a time. -/
lemma EntriesOk.of_entry {mpt mpt' : Mpt} (h : EntriesOk g mpt)
    (hentry : ∀ s < g.segmentCountMain, mpt' (g.ssdIndex s) = mpt (g.ssdIndex s) ∨
      mpt' (g.ssdIndex s) = 0#32 ∨ (getMapFlag mpt' (g.ssdIndex s) = true ∧
        getMptValue mpt' (g.ssdIndex s) < g.mainSegmentNums)) : EntriesOk g mpt' := by
  constructor
  · intro s hs hred
    rcases hentry s hs with hsame | hzero | ⟨hmap, -⟩
    · rw [getRedirectFlag_congr hsame] at hred
      rw [getMapFlag_congr hsame]
      exact h.mapped s hs hred
    · rw [getRedirectFlag, hzero] at hred
      exact absurd hred (by simp)
    · exact hmap
  · intro s hs hmap
    rcases hentry s hs with hsame | hzero | ⟨-, hval⟩
    · rw [getMapFlag_congr hsame] at hmap
      rw [getMptValue_congr hsame]
      exact h.target s hs hmap
    · rw [getMapFlag_of_zero hzero] at hmap
      exact absurd hmap (by simp)
    · exact hval

/-- `unset_mapping` clears the entry of its segment and no other SSD entry. -/
lemma unsetMapping_ssd (h : EntriesOk g nsbi.mpt) (hs : s < g.segmentCountMain) (s' : ℕ) :
    (unsetMapping g nsbi s).mpt (g.ssdIndex s') = nsbi.mpt (g.ssdIndex s') ∨
      s' = s ∧ (unsetMapping g nsbi s).mpt (g.ssdIndex s') = 0#32 := by
  cases hmap : getMapFlag nsbi.mpt (g.ssdIndex s) with
  | false => exact Or.inl (by rw [unsetMapping_of_unmapped hmap])
  | true =>
      have hlt := h.target s hs hmap
      rw [(unsetMapping_of_mapped ⟨hmap, rfl⟩).1]
      rcases eq_or_ne s' s with rfl | hne
      · exact Or.inr ⟨rfl, (clearMap_clearMap_eq_zero _ _ _).1⟩
      · exact Or.inl (clearMap_clearMap_of_ne (fun heq => hne (ssdIndex_inj heq))
          (ssdIndex_ne hlt))

lemma EntriesOk.unset (h : EntriesOk g nsbi.mpt) (hs : s < g.segmentCountMain) :
    EntriesOk g (unsetMapping g nsbi s).mpt := by
  refine h.of_entry fun s' _ => ?_
  rcases unsetMapping_ssd h hs s' with hsame | ⟨-, hzero⟩
  · exact Or.inl hsame
  · exact Or.inr (Or.inl hzero)

/-- After `unset_mapping` the segment is not redirected. -/
lemma unsetMapping_direct (h : EntriesOk g nsbi.mpt) (hs : s < g.segmentCountMain) :
    getRedirectFlag (unsetMapping g nsbi s).mpt (g.ssdIndex s) = false := by
  have hun := unsetMapping_unmapped g nsbi s
  rw [← Bool.not_eq_true]
  intro hred
  rw [(h.unset hs).mapped s hs hred] at hun
  exact absurd hun (by simp)

lemma EntriesOk.create {n : ℕ} {f : BitVec 32} (h : EntriesOk g nsbi.mpt) (hf : IsMapFlag f)
    (hn : n < g.mainSegmentNums) : EntriesOk g (createMapping g nsbi s n f).mpt := by
  refine h.of_entry fun s' _ => ?_
  rcases eq_or_ne s' s with rfl | hne
  · have hmaps : SsdMaps g (createMapping g nsbi s' n f).mpt s' n := (createMapping_ssd hf hn).1
    exact Or.inr (Or.inr ⟨hmaps.1, hmaps.2.symm ▸ hn⟩)
  · exact Or.inl (createMapping_of_ne (ssdIndex_ne hn) fun heq => hne (ssdIndex_inj heq))

end Entries

end Hoit
