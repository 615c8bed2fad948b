import HoitF2fs.Nvm.Redirect

/-!
# Direct I/O and the mapping

`__get_data_block` asks `f2fs_map_blocks` for an extent of the file and calls `nvm_redirect_dio`
on the buffer head it fills in.  `f2fs_map_blocks` merges blocks whose addresses follow each other,
**whatever segments they lie in**, and it has exits that return 0 without an address: a hole leaves
`m_pblk` at 0 (`bmap`), at `NEW_ADDR` (`fiemap`), or as it was on the stack.

* `f2fsMapBlocks` — the loop over the blocks of a file (`FileView`), for the flags
  `__get_data_block` is called with.
* `getDataBlock` — the buffer head, redirected.
* `DioFollows` — what direct I/O should do: stay inside the two tables, leave an unmapped result
  alone, and send **every block** where `nvm_redirect_bio` would send it.

Only the entry of the first block is looked at, so this holds iff the other segments of the extent
are mapped in step with the first one, and, for a result without an address, iff the number left in
`m_pblk` happens to be harmless (`dio_follows_mapping_iff`).
-/

namespace Hoit

/-! ## `f2fs_map_blocks` -/

def nullAddr : BitVec 32 := 0#32

def newAddr : BitVec 32 := 0xFFFFFFFF#32

def IsValidBlkaddr (a : BitVec 32) : Prop := a ≠ nullAddr ∧ a ≠ newAddr

instance (a : BitVec 32) : Decidable (IsValidBlkaddr a) :=
  inferInstanceAs (Decidable (_ ∧ _))

variable (l : Layout)

/-- `len` blocks from address `a` on are blocks of the SSD's MAIN area. -/
def ExtentInMain (a : BitVec 32) (len : ℕ) : Prop :=
  l.mainBlkaddr ≤ a.toNat ∧ a.toNat + len ≤ l.mainBlkaddr + l.segmentCountMain * blocksPerSeg

/-- `extent_info`. -/
structure ExtentInfo where
  fofs : ℕ
  len : ℕ
  blk : BitVec 32

/-- What `f2fs_get_dnode_of_data` returns; `rest` is the number of blocks the dnode has behind the
one that was asked for. -/
inductive DnodeResult where
  | enoent
  | error
  | found (rest : ℕ)

/-- What `f2fs_map_blocks` sees of a file: the extent cache, its dnodes, the addresses in them and,
for `create`, the blocks that would be allocated. -/
structure FileView where
  extentCache : ℕ → Option ExtentInfo
  dnode : ℕ → DnodeResult
  blkaddr : ℕ → BitVec 32
  allocated : ℕ → Option (BitVec 32)
  cpError : Bool
  cache_ok : ∀ p e, extentCache p = some e →
    e.fofs ≤ p ∧ p < e.fofs + e.len ∧ ExtentInMain l e.blk e.len
  blkaddr_ok : ∀ p, IsValidBlkaddr (blkaddr p) → ExtentInMain l (blkaddr p) 1
  allocated_ok : ∀ p a, allocated p = some a → ExtentInMain l a 1
  newAddr_outside : l.mainBlkaddr + l.segmentCountMain * blocksPerSeg < newAddr.toNat

/-- The flags `__get_data_block` is called with. -/
inductive GetBlockFlag where
  | default
  | bmap
  | fiemap
deriving DecidableEq

structure MapFlags where
  new : Bool
  mapped : Bool
  unwritten : Bool
deriving DecidableEq

/-- `f2fs_map_blocks`, the fields the caller reads. -/
structure MapBlocks where
  pblk : BitVec 32
  len : ℕ
  flags : MapFlags
deriving DecidableEq

/-- The result has an address. -/
def MapBlocks.Mapped (m : MapBlocks) : Prop :=
  0 < m.len ∧ m.flags.mapped = true ∧ IsValidBlkaddr m.pblk

instance (m : MapBlocks) : Decidable m.Mapped := inferInstanceAs (Decidable (_ ∧ _ ∧ _))

/-- The block is put into the extent; `none` if it does not continue it.  `ofs` of the source is
the length so far. -/
def MapBlocks.addBlock (m : MapBlocks) (a : BitVec 32) : Option MapBlocks :=
  if m.len = 0 then
    some
      { pblk := a
        len := 1
        flags := { m.flags with mapped := true, unwritten := m.flags.unwritten || a == newAddr } }
  else if (m.pblk ≠ newAddr ∧ a = m.pblk + BitVec.ofNat 32 m.len) ∨
      (m.pblk = newAddr ∧ a = newAddr) then
    some { m with len := m.len + 1 }
  else none

/-- What happens at `next_block`. -/
inductive BlockResult where
  | fail
  | stop (m : MapBlocks)
  | go (m : MapBlocks) (a : BitVec 32)

variable {l}

def nextBlock (f : FileView l) (create : Bool) (flag : GetBlockFlag) (p : ℕ) (m : MapBlocks) :
    BlockResult :=
  if IsValidBlkaddr (f.blkaddr p) then .go m (f.blkaddr p)
  else if create then
    if f.cpError then .fail
    else
      match f.allocated p with
      | none => .fail
      | some a => .go { m with flags := { m.flags with new := true } } a
  else
    match flag with
    | .bmap => .stop { m with pblk := nullAddr }
    | .fiemap => if f.blkaddr p = nullAddr then .stop m else .go m (f.blkaddr p)
    | .default => .stop m

/-- The loops over dnodes and blocks: `k` blocks are still to be mapped from `p` on, `left` of them
in the current dnode.  `none` is an error. -/
def mapLoop (f : FileView l) (create : Bool) (flag : GetBlockFlag) :
    ℕ → ℕ → ℕ → MapBlocks → Option MapBlocks
  | 0, _, _, m => some m
  | k + 1, p, left, m =>
      match if left = 0 then f.dnode p else .found (left - 1) with
      | .enoent => some (if flag = .bmap then { m with pblk := nullAddr } else m)
      | .error => none
      | .found rest =>
          match nextBlock f create flag p m with
          | .fail => none
          | .stop m' => some m'
          | .go m' a =>
              match m'.addBlock a with
              | none => some m'
              | some m'' => mapLoop f create flag k (p + 1) rest m''

/-- `stack` is what the uninitialised structure of the caller holds. -/
def f2fsMapBlocks (f : FileView l) (create : Bool) (flag : GetBlockFlag) (stack : MapBlocks)
    (lblk maxblocks : ℕ) : Option MapBlocks :=
  if maxblocks = 0 then some { stack with len := 0 }
  else
    match if create then none else f.extentCache lblk with
    | some e =>
        some
          { pblk := e.blk + BitVec.ofNat 32 (lblk - e.fofs)
            len := min maxblocks (e.fofs + e.len - lblk)
            flags := ⟨false, true, false⟩ }
    | none => mapLoop f create flag maxblocks lblk 0 ⟨stack.pblk, 0, ⟨false, false, false⟩⟩

/-! ## The buffer head -/

structure BufferHead where
  dev : Dev
  blocknr : ℕ
  blocks : ℕ
  flags : MapFlags

/-- `nvm_redirect_dio` on the buffer head that `map_bh` has filled in. -/
def redirectedBh (l : Layout) (nsbi : NvmSbInfo) (write : Bool) (m : MapBlocks) : NvmSbInfo × BufferHead :=
  let r := nvmRedirectDio l nsbi m.pblk m.len write
  (r.1, { dev := r.2.1, blocknr := r.2.2.toNat, blocks := m.len, flags := m.flags })

/-- `__get_data_block`; `write` is the bit `IOP_WRITE`. -/
def getDataBlock (nsbi : NvmSbInfo) (f : FileView l) (create : Bool) (flag : GetBlockFlag)
    (stack : MapBlocks) (iblock maxblocks : ℕ) (write : Bool) :
    Option (MapBlocks × NvmSbInfo × BufferHead) :=
  (f2fsMapBlocks f create flag stack iblock maxblocks).map fun m =>
    (m, redirectedBh l nsbi write m)

/-- Where direct I/O sends block `i` of the extent. -/
def BufferHead.target (bh : BufferHead) (i : ℕ) : Dev × ℕ := (bh.dev, bh.blocknr + i)

/-- Where `nvm_redirect_bio` sends a bio of one block. -/
def bioTarget (l : Layout) (nsbi : NvmSbInfo) (a : BitVec 32) : Dev × ℕ :=
  ((nvmRedirectBio l nsbi .data true 1 a).2.1, (nvmRedirectBio l nsbi .data true 1 a).2.2.toNat)

/-! ## The property and its condition -/

/-- **Direct I/O follows the mapping block by block.**  The table has an entry for every segment
of both devices, the LFU table one for every SSD segment and one for the total. -/
structure DioFollows (l : Layout) (nsbi : NvmSbInfo) (write : Bool) (m : MapBlocks)
    (bh : BufferHead) : Prop where
  mptInside : (mptIndex l m.pblk).toNat < l.mainSegmentNums + l.segmentCountMain
  lfuInside : write = false → (ssdMainSegoff l m.pblk).toNat < l.segmentCountMain + 1
  unmapped : ¬ m.Mapped → bh.dev = .ssd ∧ bh.blocknr = m.pblk.toNat
  mapped : m.Mapped → ∀ i < m.len,
    bh.target i = bioTarget l nsbi (m.pblk + BitVec.ofNat 32 i)

/-- The first segment of the extent, and the offset of its first block there. -/
def firstSeg (l : Layout) (m : MapBlocks) : ℕ := (ssdMainSegoff l m.pblk).toNat

def firstBlkoff (l : Layout) (m : MapBlocks) : ℕ := (getBlkoffFromSeg0 l m.pblk).toNat

/-- The other segments of the extent are redirected iff the first one is, and then to the NVM
segments that follow the one of the first. -/
def MappedInStep (l : Layout) (nsbi : NvmSbInfo) (m : MapBlocks) : Prop :=
  ∀ j, j * blocksPerSeg < firstBlkoff l m + m.len →
    getRedirectFlag nsbi.mpt (l.ssdIndex (firstSeg l m + j))
      = getRedirectFlag nsbi.mpt (l.ssdIndex (firstSeg l m)) ∧
    (getRedirectFlag nsbi.mpt (l.ssdIndex (firstSeg l m)) = true →
      getMptValue nsbi.mpt (l.ssdIndex (firstSeg l m + j))
        = getMptValue nsbi.mpt (l.ssdIndex (firstSeg l m)) + j)

/-- The number left in `m_pblk` is the address of a MAIN block — a write may also take one of the
`main_segment_nums` segments in front of MAIN — whose entry is not redirected. -/
def LeftoverHarmless (l : Layout) (nsbi : NvmSbInfo) (write : Bool) (m : MapBlocks) : Prop :=
  (firstSeg l m < l.segmentCountMain ∨ write = true ∧ 2 ^ 32 ≤ firstSeg l m + l.mainSegmentNums) ∧
    getRedirectFlag nsbi.mpt (mptIndex l m.pblk).toNat = false

def DioSafe (l : Layout) (nsbi : NvmSbInfo) (write : Bool) (m : MapBlocks) : Prop :=
  if m.Mapped then MappedInStep l nsbi m else LeftoverHarmless l nsbi write m

/-! ## The extents of `f2fs_map_blocks` -/

/-- What the loops keep: an extent with an address lies in the MAIN area. -/
def MapInv (l : Layout) (m : MapBlocks) : Prop :=
  0 < m.len → IsValidBlkaddr m.pblk → ExtentInMain l m.pblk m.len

lemma mapInv_null (m : MapBlocks) : MapInv l { m with pblk := nullAddr } :=
  fun _ hvalid => absurd rfl hvalid.1

/-- Adding the next block keeps the extent in the MAIN area: `NEW_ADDR` is no continuation. -/
lemma mapInv_addBlock (f : FileView l) {m m' : MapBlocks} {a : BitVec 32} (h : MapInv l m)
    (ha : ExtentInMain l a 1 ∨ a = newAddr) (hadd : m.addBlock a = some m') : MapInv l m' := by
  have hout := f.newAddr_outside
  rw [MapBlocks.addBlock] at hadd
  split at hadd
  · obtain rfl := Option.some.inj hadd
    intro _ hvalid
    exact ha.resolve_right hvalid.2
  · rename_i hlen
    split at hadd
    · rename_i hnext
      obtain rfl := Option.some.inj hadd
      intro _ hvalid
      have hext := h (Nat.pos_of_ne_zero hlen) hvalid
      have hcont := (hnext.resolve_right fun hnew => hvalid.2 hnew.1).2
      have hnew : newAddr.toNat < 2 ^ 32 := newAddr.isLt
      have hsum : a.toNat = m.pblk.toNat + m.len := by
        obtain ⟨-, hend⟩ := hext
        rw [hcont, BitVec.toNat_add, BitVec.toNat_ofNat, Nat.add_mod_mod,
          Nat.mod_eq_of_lt (by omega)]
      rcases ha with ha | rfl
      · refine ⟨hext.1, ?_⟩
        have hend := ha.2
        show m.pblk.toNat + (m.len + 1) ≤ _
        omega
      · have hend := hext.2
        omega
    · exact absurd hadd (by simp)

/-- What `next_block` hands on. -/
def BlockResult.Ok (l : Layout) : BlockResult → Prop
  | .fail => True
  | .stop m => MapInv l m
  | .go m a => MapInv l m ∧ (ExtentInMain l a 1 ∨ a = newAddr)

lemma nextBlock_ok (f : FileView l) (create : Bool) (flag : GetBlockFlag) (p : ℕ) {m : MapBlocks}
    (h : MapInv l m) : (nextBlock f create flag p m).Ok l := by
  unfold nextBlock
  split_ifs with hvalid hcreate hcp hnull
  · exact ⟨h, Or.inl (f.blkaddr_ok p hvalid)⟩
  · trivial
  · cases halloc : f.allocated p with
    | none => trivial
    | some a => exact ⟨h, Or.inl (f.allocated_ok p a halloc)⟩
  · cases flag with
    | bmap => exact mapInv_null m
    | default => exact h
    | fiemap => exact h
  · cases flag with
    | bmap => exact mapInv_null m
    | default => exact h
    | fiemap =>
        refine ⟨h, Or.inr ?_⟩
        by_contra hnew
        exact hvalid ⟨hnull, hnew⟩

lemma mapInv_loop (f : FileView l) {create : Bool} {flag : GetBlockFlag} {k p left : ℕ}
    {m m' : MapBlocks} (h : MapInv l m) (hrun : mapLoop f create flag k p left m = some m') :
    MapInv l m' := by
  induction k generalizing p left m with
  | zero => exact Option.some.inj hrun ▸ h
  | succ k ih =>
      rw [mapLoop] at hrun
      split at hrun
      · obtain rfl := Option.some.inj hrun
        split_ifs
        · exact mapInv_null m
        · exact h
      · exact absurd hrun (by simp)
      · have hok := nextBlock_ok f create flag p h
        split at hrun
        · exact absurd hrun (by simp)
        · rename_i m₁ hnext
          rw [hnext] at hok
          exact Option.some.inj hrun ▸ hok
        · rename_i m₁ a hnext
          rw [hnext] at hok
          split at hrun
          · exact Option.some.inj hrun ▸ hok.1
          · rename_i m₂ hadd
            exact ih (mapInv_addBlock f hok.1 hok.2 hadd) hrun

/-- **An extent with an address lies in the MAIN area.** -/
theorem f2fsMapBlocks_inMain (f : FileView l) {create : Bool} {flag : GetBlockFlag}
    {stack m : MapBlocks} {lblk maxblocks : ℕ}
    (hmap : f2fsMapBlocks f create flag stack lblk maxblocks = some m) (h : m.Mapped) :
    ExtentInMain l m.pblk m.len := by
  rw [f2fsMapBlocks] at hmap
  split at hmap
  · obtain rfl := Option.some.inj hmap
    exact absurd h.1 (by simp)
  · split at hmap
    · rename_i e hcache
      obtain rfl := Option.some.inj hmap
      have hcache : f.extentCache lblk = some e := by
        cases create with
        | true => exact absurd hcache (by simp)
        | false => exact hcache
      obtain ⟨hfrom, hto, hstart, hend⟩ := f.cache_ok lblk e hcache
      have hout := f.newAddr_outside
      have hnew : newAddr.toNat < 2 ^ 32 := newAddr.isLt
      have hsum : (e.blk + BitVec.ofNat 32 (lblk - e.fofs)).toNat
          = e.blk.toNat + (lblk - e.fofs) := by
        rw [BitVec.toNat_add, BitVec.toNat_ofNat, Nat.add_mod_mod, Nat.mod_eq_of_lt (by omega)]
      refine ⟨?_, ?_⟩
      · rw [hsum]
        omega
      · rw [hsum]
        dsimp only
        omega
    · have hempty : MapInv l ⟨stack.pblk, 0, ⟨false, false, false⟩⟩ :=
        fun hpos => absurd hpos (by simp)
      exact mapInv_loop f hempty hmap h.1 h.2.2

/-! ## Where the blocks of an extent go -/

/-- The `i`-th block behind a MAIN block, as a block of its own segment. -/
lemma ssdAddr_add (s b i : ℕ) :
    ssdAddr l s b + BitVec.ofNat 32 i
      = ssdAddr l (s + (b + i) / blocksPerSeg) ((b + i) % blocksPerSeg) := by
  rw [ssdAddr, ssdAddr, ← BitVec.ofNat_add]
  congr 1
  have hdiv := Nat.div_add_mod (b + i) blocksPerSeg
  rw [Nat.add_mul, Nat.mul_comm ((b + i) / blocksPerSeg)]
  omega

lemma ssdAddr_toNat {s b : ℕ} (hs : s < l.segmentCountMain) (hb : b < blocksPerSeg) :
    (ssdAddr l s b).toNat = l.mainBlkaddr + s * blocksPerSeg + b := by
  have hlt := ssd_block_lt hs hb
  rw [ssdAddr, BitVec.toNat_ofNat, Nat.mod_eq_of_lt]
  rw [Layout.mainBlkaddr]
  rw [Nat.add_mul] at hlt
  omega

lemma nvmAddr_toNat {n b : ℕ} (hn : n < l.mainSegmentNums) (hb : b < blocksPerSeg) :
    (nvmAddr l n b).toNat = l.nvmMainBlkaddr + n * blocksPerSeg + b := by
  have hend := l.nvm_end
  have hle : (n + 1) * blocksPerSeg ≤ l.mainSegmentNums * blocksPerSeg :=
    Nat.mul_le_mul_right _ hn
  rw [Nat.add_mul, Nat.one_mul] at hle
  rw [nvmAddr, BitVec.toNat_ofNat, Nat.mod_eq_of_lt]
  omega

/-- The bio of a MAIN block, when its segment is not redirected and when it is. -/
lemma bioTarget_ssdAddr {nsbi : NvmSbInfo} (hentries : EntriesOk l.toGeometry nsbi.mpt) {s b : ℕ}
    (hs : s < l.segmentCountMain) (hb : b < blocksPerSeg) :
    bioTarget l nsbi (ssdAddr l s b)
      = if getRedirectFlag nsbi.mpt (l.ssdIndex s) then
          (.nvm, l.nvmMainBlkaddr + getMptValue nsbi.mpt (l.ssdIndex s) * blocksPerSeg + b)
        else (.ssd, l.mainBlkaddr + s * blocksPerSeg + b) := by
  have htarget : (nvmRedirectBio l nsbi .data true 1 (ssdAddr l s b)).2
      = (resolve l.toGeometry nsbi.mpt s b).target l := redirectTarget_ssdAddr nsbi.mpt hs hb
  rw [bioTarget, htarget, resolve]
  split_ifs with hred
  · have hlt := hentries.target s hs (hentries.mapped s hs hred)
    show (Dev.nvm, (nvmAddr l _ b).toNat) = _
    rw [nvmAddr_toNat hlt hb]
  · show (Dev.ssd, (ssdAddr l s b).toNat) = _
    rw [ssdAddr_toNat hs hb]

/-- A MAIN extent, from its first block. -/
lemma ExtentInMain.first {m : MapBlocks} (h : ExtentInMain l m.pblk m.len) (hlen : 0 < m.len) :
    m.pblk = ssdAddr l (firstSeg l m) (firstBlkoff l m) ∧ firstBlkoff l m < blocksPerSeg ∧
      firstSeg l m * blocksPerSeg + firstBlkoff l m + m.len
        ≤ l.segmentCountMain * blocksPerSeg := by
  obtain ⟨hstart, hend⟩ := h
  have hpos : 0 < blocksPerSeg := by decide
  obtain ⟨k, hk⟩ := Nat.exists_eq_add_of_le hstart
  have hkb : k % blocksPerSeg < blocksPerSeg := Nat.mod_lt k hpos
  have hdiv := Nat.div_add_mod' k blocksPerSeg
  have hks : k / blocksPerSeg < l.segmentCountMain := by
    rw [Nat.div_lt_iff_lt_mul hpos]
    omega
  have haddr : m.pblk = ssdAddr l (k / blocksPerSeg) (k % blocksPerSeg) := by
    apply BitVec.eq_of_toNat_eq
    rw [ssdAddr_toNat hks hkb, hk]
    omega
  have hlt := l.ssd_lt
  have hbps : blocksPerSeg < 2 ^ 32 := by decide
  have hseg : firstSeg l m = k / blocksPerSeg := by
    rw [firstSeg, haddr, ssdMainSegoff_ssdAddr hks hkb, BitVec.toNat_ofNat,
      Nat.mod_eq_of_lt (by omega)]
  have hoff : firstBlkoff l m = k % blocksPerSeg := by
    rw [firstBlkoff, haddr, getBlkoffFromSeg0_ssdAddr hks hkb, BitVec.toNat_ofNat,
      Nat.mod_eq_of_lt (by omega)]
  rw [hseg, hoff]
  exact ⟨haddr, hkb, by omega⟩

/-- The segment of block `i` of an extent, counted from the first one, and its block there. -/
lemma extent_block {m : MapBlocks} (h : ExtentInMain l m.pblk m.len) {i : ℕ} (hi : i < m.len) :
    m.pblk + BitVec.ofNat 32 i
        = ssdAddr l (firstSeg l m + (firstBlkoff l m + i) / blocksPerSeg)
            ((firstBlkoff l m + i) % blocksPerSeg) ∧
      firstSeg l m + (firstBlkoff l m + i) / blocksPerSeg < l.segmentCountMain := by
  obtain ⟨haddr, -, hend⟩ := h.first (Nat.zero_lt_of_lt hi)
  constructor
  · rw [← ssdAddr_add, ← haddr]
  · have hpos : 0 < blocksPerSeg := by decide
    have hdiv := Nat.div_add_mod' (firstBlkoff l m + i) blocksPerSeg
    apply Nat.lt_of_mul_lt_mul_right (a := blocksPerSeg)
    rw [Nat.add_mul]
    omega

lemma redirectedBh_target (nsbi : NvmSbInfo) (write : Bool) (m : MapBlocks) (i : ℕ) :
    (redirectedBh l nsbi write m).2.target i
      = ((bioTarget l nsbi m.pblk).1, (bioTarget l nsbi m.pblk).2 + i) := rfl

/-- **Block `i` goes where its own bio would go iff its segment is mapped in step with the first
one.** -/
lemma target_eq_iff {nsbi : NvmSbInfo} (hentries : EntriesOk l.toGeometry nsbi.mpt) (write : Bool)
    {m : MapBlocks} (h : ExtentInMain l m.pblk m.len) {i : ℕ} (hi : i < m.len) :
    (redirectedBh l nsbi write m).2.target i = bioTarget l nsbi (m.pblk + BitVec.ofNat 32 i) ↔
      getRedirectFlag nsbi.mpt (l.ssdIndex (firstSeg l m + (firstBlkoff l m + i) / blocksPerSeg))
        = getRedirectFlag nsbi.mpt (l.ssdIndex (firstSeg l m)) ∧
      (getRedirectFlag nsbi.mpt (l.ssdIndex (firstSeg l m)) = true →
        getMptValue nsbi.mpt (l.ssdIndex (firstSeg l m + (firstBlkoff l m + i) / blocksPerSeg))
          = getMptValue nsbi.mpt (l.ssdIndex (firstSeg l m))
            + (firstBlkoff l m + i) / blocksPerSeg) := by
  have hpos : 0 < blocksPerSeg := by decide
  obtain ⟨haddr, hb, hend⟩ := h.first (Nat.zero_lt_of_lt hi)
  obtain ⟨haddri, hseg⟩ := extent_block h hi
  have hs : firstSeg l m < l.segmentCountMain := Nat.lt_of_le_of_lt (Nat.le_add_right _ _) hseg
  have hdiv := Nat.div_add_mod' (firstBlkoff l m + i) blocksPerSeg
  have hfirst := bioTarget_ssdAddr hentries hs hb
  rw [← haddr] at hfirst
  rw [redirectedBh_target, haddri, bioTarget_ssdAddr hentries hseg (Nat.mod_lt _ hpos), hfirst]
  generalize (firstBlkoff l m + i) / blocksPerSeg = q at *
  generalize (firstBlkoff l m + i) % blocksPerSeg = r at *
  cases hred0 : getRedirectFlag nsbi.mpt (l.ssdIndex (firstSeg l m)) with
  | false =>
      cases hredq : getRedirectFlag nsbi.mpt (l.ssdIndex (firstSeg l m + q)) with
      | false =>
          have hsum : l.mainBlkaddr + firstSeg l m * blocksPerSeg + firstBlkoff l m + i
              = l.mainBlkaddr + (firstSeg l m + q) * blocksPerSeg + r := by
            rw [Nat.add_mul]
            omega
          simp [hsum]
      | true => simp
  | true =>
      cases hredq : getRedirectFlag nsbi.mpt (l.ssdIndex (firstSeg l m + q)) with
      | false => simp
      | true =>
          have hcancel : ∀ v w : ℕ,
              l.nvmMainBlkaddr + v * blocksPerSeg + firstBlkoff l m + i
                = l.nvmMainBlkaddr + w * blocksPerSeg + r ↔ w = v + q := by
            intro v w
            have hmul : w * blocksPerSeg = (v + q) * blocksPerSeg ↔ w = v + q :=
              Nat.mul_left_inj (by decide)
            rw [← hmul, Nat.add_mul]
            omega
          simp [hcancel]

/-- Every segment that an extent touches is the segment of one of its blocks. -/
lemma mappedInStep_iff {nsbi : NvmSbInfo} (hentries : EntriesOk l.toGeometry nsbi.mpt)
    (write : Bool) {m : MapBlocks} (h : ExtentInMain l m.pblk m.len) (hlen : 0 < m.len) :
    (∀ i < m.len, (redirectedBh l nsbi write m).2.target i
      = bioTarget l nsbi (m.pblk + BitVec.ofNat 32 i)) ↔ MappedInStep l nsbi m := by
  have hpos : 0 < blocksPerSeg := by decide
  obtain ⟨-, hb, -⟩ := h.first hlen
  constructor
  · intro hall j hj
    have hblock : ∃ i < m.len, (firstBlkoff l m + i) / blocksPerSeg = j := by
      rcases Nat.eq_zero_or_pos j with rfl | hjpos
      · exact ⟨0, hlen, Nat.div_eq_of_lt hb⟩
      · have hle : blocksPerSeg ≤ j * blocksPerSeg := Nat.le_mul_of_pos_left _ hjpos
        refine ⟨j * blocksPerSeg - firstBlkoff l m, by omega, ?_⟩
        rw [Nat.add_sub_cancel' (by omega), Nat.mul_div_cancel _ hpos]
    obtain ⟨i, hi, rfl⟩ := hblock
    exact (target_eq_iff hentries write h hi).mp (hall i hi)
  · intro hstep i hi
    refine (target_eq_iff hentries write h hi).mpr (hstep _ ?_)
    have hle := Nat.div_mul_le_self (firstBlkoff l m + i) blocksPerSeg
    omega

/-! ## Results without an address -/

lemma mptIndex_toNat (a : BitVec 32) :
    (mptIndex l a).toNat = (l.mainSegmentNums + (ssdMainSegoff l a).toNat) % 2 ^ 32 := by
  have hlt := l.nvm_lt
  rw [mptIndex, BitVec.toNat_add, BitVec.toNat_ofNat, Nat.mod_eq_of_lt (a := l.mainSegmentNums)
    (by omega)]

/-- Which numbers lead into the tables. -/
lemma inside_tables_iff (write : Bool) (m : MapBlocks) :
    ((mptIndex l m.pblk).toNat < l.mainSegmentNums + l.segmentCountMain ∧
      (write = false → (ssdMainSegoff l m.pblk).toNat < l.segmentCountMain + 1)) ↔
    (firstSeg l m < l.segmentCountMain ∨
      write = true ∧ 2 ^ 32 ≤ firstSeg l m + l.mainSegmentNums) := by
  have hnvm := l.nvm_lt
  have hssd := l.ssd_lt
  have hseg : firstSeg l m < 2 ^ 32 := (ssdMainSegoff l m.pblk).isLt
  rw [mptIndex_toNat]
  rw [show (ssdMainSegoff l m.pblk).toNat = firstSeg l m from rfl]
  cases write with
  | false =>
      simp only [Bool.false_eq_true, false_and, or_false, true_implies]
      omega
  | true =>
      simp only [Bool.true_eq_false, false_implies, and_true, true_and]
      omega

lemma unredirected_iff (nsbi : NvmSbInfo) (write : Bool) (m : MapBlocks) :
    ((redirectedBh l nsbi write m).2.dev = .ssd ∧
      (redirectedBh l nsbi write m).2.blocknr = m.pblk.toNat) ↔
    getRedirectFlag nsbi.mpt (mptIndex l m.pblk).toNat = false := by
  show ((redirectTarget l nsbi.mpt m.pblk).1 = .ssd ∧
    (redirectTarget l nsbi.mpt m.pblk).2.toNat = m.pblk.toNat) ↔ _
  rw [redirectTarget]
  cases getRedirectFlag nsbi.mpt (mptIndex l m.pblk).toNat with
  | false => simp
  | true => simp

/-- **Direct I/O follows the mapping iff the extent is mapped in step** — or, for a result without
an address, iff the number left in `m_pblk` is harmless.  This holds for every file, every flag and
every request. -/
theorem dio_follows_mapping_iff {nsbi nsbi' : NvmSbInfo} {f : FileView l} {create : Bool}
    {flag : GetBlockFlag} {stack m : MapBlocks} {iblock maxblocks : ℕ} {write : Bool}
    {bh : BufferHead} (hentries : EntriesOk l.toGeometry nsbi.mpt)
    (hget : getDataBlock nsbi f create flag stack iblock maxblocks write = some (m, nsbi', bh)) :
    DioFollows l nsbi write m bh ↔ DioSafe l nsbi write m := by
  obtain ⟨m₀, hmap, hm⟩ := Option.map_eq_some_iff.mp hget
  simp only [Prod.mk.injEq] at hm
  obtain ⟨rfl, hbh⟩ := hm
  obtain rfl : (redirectedBh l nsbi write m₀).2 = bh := by rw [hbh]
  by_cases hmapped : m₀.Mapped
  · have hext := f2fsMapBlocks_inMain f hmap hmapped
    have hstep := mappedInStep_iff hentries write hext hmapped.1
    rw [DioSafe, if_pos hmapped, ← hstep]
    have hseg : firstSeg l m₀ < l.segmentCountMain :=
      Nat.lt_of_le_of_lt (Nat.le_add_right _ _) (extent_block hext hmapped.1).2
    obtain ⟨hmpt, hlfu⟩ := (inside_tables_iff write m₀).mpr (Or.inl hseg)
    exact ⟨fun h => h.mapped hmapped, fun h => ⟨hmpt, hlfu, fun hn => absurd hmapped hn, fun _ => h⟩⟩
  · rw [DioSafe, if_neg hmapped, LeftoverHarmless, ← inside_tables_iff, ← unredirected_iff]
    constructor
    · intro h
      exact ⟨⟨h.mptInside, h.lfuInside⟩, h.unmapped hmapped⟩
    · rintro ⟨⟨hmpt, hlfu⟩, hdirect⟩
      exact ⟨hmpt, hlfu, fun _ => hdirect, fun hm => absurd hm hmapped⟩

/-- **A result that leaves 0 in `m_pblk` is never harmless**: the entry that is read lies behind
the end of the table. -/
theorem null_leftover_outside {nsbi : NvmSbInfo} {write : Bool} {m : MapBlocks}
    (hseg0 : 0 < l.seg0Blkaddr) (hnull : m.pblk = nullAddr) :
    ¬ LeftoverHarmless l nsbi write m := by
  have hend := l.ssd_end
  have hnvm := l.nvm_lt
  rw [Nat.add_mul] at hend
  simp only [blocksPerSeg] at hend
  have hmain : getSegnoFromSeg0 l (BitVec.ofNat 32 l.mainBlkaddr)
      = BitVec.ofNat 32 l.metaSegs := by
    have hsmall : l.metaSegs * blocksPerSeg + 0 < 2 ^ 32 := by
      simp only [blocksPerSeg]
      omega
    have hsegno := getSegnoFromSeg0_ofNat (l := l) (by decide) hsmall
    rw [Nat.add_zero] at hsegno
    exact hsegno
  have hzero : (getSegnoFromSeg0 l nullAddr).toNat = (2 ^ 32 - l.seg0Blkaddr) / 2 ^ 9 := by
    rw [getSegnoFromSeg0, BitVec.toNat_ushiftRight, Nat.shiftRight_eq_div_pow, getSegoffFromSeg0,
      BitVec.toNat_sub, BitVec.toNat_ofNat, Nat.mod_eq_of_lt (a := l.seg0Blkaddr) (by omega),
      nullAddr, BitVec.toNat_ofNat, Nat.zero_mod, Nat.add_zero, Nat.mod_eq_of_lt (by omega)]
  have hfirst : firstSeg l m = (2 ^ 32 - l.seg0Blkaddr) / 2 ^ 9 - l.metaSegs := by
    rw [firstSeg, hnull, ssdMainSegoff, hmain, BitVec.toNat_sub, hzero, BitVec.toNat_ofNat,
      Nat.mod_eq_of_lt (a := l.metaSegs) (by omega)]
    omega
  rintro ⟨hseg | ⟨-, hseg⟩, -⟩
  · omega
  · omega

/-! ### Two blocks on both sides of a segment boundary

The file has the last block of SSD segment 0 and the first one of segment 1. -/

def boundaryLayout : Layout where
  mainSegmentNums := 4
  segmentCountMain := 4
  segsPerSec := 1
  nvm_lt := Geometry.four_fit
  ssd_lt := Geometry.four_fit
  segsPerSec_pos := Nat.one_pos
  seg0Blkaddr := 512
  metaSegs := 2
  nvmMainBlkaddr := 1024
  ssd_end := by decide
  nvm_end := by decide

def boundaryFile : FileView boundaryLayout where
  extentCache := fun _ => none
  dnode := fun _ => .found 10
  blkaddr := fun p => if p = 0 then 2047#32 else if p = 1 then 2048#32 else nullAddr
  allocated := fun _ => none
  cpError := false
  cache_ok := by simp
  blkaddr_ok := by
    intro p hvalid
    split_ifs at hvalid ⊢
    · exact ⟨by decide, by decide⟩
    · exact ⟨by decide, by decide⟩
    · exact absurd rfl hvalid.1
  allocated_ok := by simp
  newAddr_outside := by decide

/-- SSD segment 0 is mapped to NVM segment 0, and segment 1 to NVM segment `n`. -/
def boundaryNsbi (n : ℕ) : NvmSbInfo where
  mpt := setMptEntry (setMptEntry (fun _ => 0#32) 4 0 (rwMap ||| rwRedirect)) 5 n
    (rwMap ||| rwRedirect)
  mptDirtyMap := fun _ => false
  nvmFlag := 0#16
  segmentMap := fun k => k == 0 || k == n
  ckptSegmentMap := fun _ => false
  mainSegmentFreeNums := 2
  curAllocNvmSegoff := 0
  nowLfuCounter := 0
  lfuCount := fun _ _ => -1

lemma boundaryNsbi_entriesOk (n : ℕ) (hn : n < 4) :
    EntriesOk boundaryLayout.toGeometry (boundaryNsbi n).mpt := by
  interval_cases n <;> exact ⟨by decide, by decide⟩

/-- The extent that `f2fs_map_blocks` finds. -/
def boundaryExtent : MapBlocks := ⟨2047#32, 2, ⟨false, true, false⟩⟩

lemma boundary_getDataBlock (n : ℕ) :
    getDataBlock (boundaryNsbi n) boundaryFile false .default boundaryExtent 0 2 false
      = some (boundaryExtent, redirectedBh boundaryLayout (boundaryNsbi n) false boundaryExtent) := by
  have hmap : f2fsMapBlocks boundaryFile false .default boundaryExtent 0 2
      = some boundaryExtent := by decide
  rw [getDataBlock, hmap]
  rfl

theorem dio_follows_mapping_iff_inStep :
    ∃ nsbi' bh, getDataBlock (boundaryNsbi 1) boundaryFile false .default boundaryExtent 0 2 false
        = some (boundaryExtent, nsbi', bh) ∧
      DioFollows boundaryLayout (boundaryNsbi 1) false boundaryExtent bh := by
  refine ⟨_, _, boundary_getDataBlock 1, ?_⟩
  rw [dio_follows_mapping_iff (boundaryNsbi_entriesOk 1 (by decide)) (boundary_getDataBlock 1),
    DioSafe, if_pos (by decide)]
  intro j hj
  have hend : firstBlkoff boundaryLayout boundaryExtent + boundaryExtent.len = 513 := by decide
  have hj2 : j < 2 := by
    rw [hend, blocksPerSeg] at hj
    omega
  interval_cases j <;> decide

/-- **A block behind a segment boundary can be sent to the wrong place**: SSD segment 1 is mapped
to NVM segment 3, but its block is sent to NVM segment 1, behind the block of segment 0. -/
theorem dio_crosses_segments :
    ¬ ∀ (l : Layout) (nsbi nsbi' : NvmSbInfo) (f : FileView l) (create : Bool)
      (flag : GetBlockFlag) (stack m : MapBlocks) (iblock maxblocks : ℕ) (write : Bool)
      (bh : BufferHead), EntriesOk l.toGeometry nsbi.mpt →
        getDataBlock nsbi f create flag stack iblock maxblocks write = some (m, nsbi', bh) →
          DioFollows l nsbi write m bh := by
  intro hall
  have hfollows := hall boundaryLayout (boundaryNsbi 3) _ boundaryFile false .default boundaryExtent
    boundaryExtent 0 2 false _ (boundaryNsbi_entriesOk 3 (by decide)) (boundary_getDataBlock 3)
  have hblock := hfollows.mapped (by decide) 1 (by decide)
  exact absurd hblock (by decide)

end Hoit
