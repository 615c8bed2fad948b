import HoitF2fs.Lib.Bitmap
import HoitF2fs.Node.NatInv

/-!
# Where the copies of NAT and SIT blocks are

Every block of either table has two places on the device, and a bit of a version bitmap says which
of the two is current.  The NAT has the second copies of a segment's blocks in the segment behind
it; the SIT has those of all its blocks behind the first ones.

The addresses are as wide here as they are in the source: `pgoff_t` has 64 bits, `block_t` and the
counts have 32.  `toNat_currentNatAddr` and `toNat_nextNatAddr` say that **nothing overflows**, so
that the addresses of `HoitF2fs.Node.NatTable` are these.

* `ShadowAddresses` — what such a scheme is for.
* `ShadowAddresses.of_copies` — it comes down to two places for each block, all of them different.
* `shadow_addresses` — both tables.
-/

namespace Hoit.ShadowAddr

open Bitmap

/-! ## The scheme -/

section Scheme

variable {ι : Type*}

/-- The blocks of a table have two places each, between `lo` and `hi`; there are `n` of them.
`current i` is where the block of `i` is, `flipped i` where it is once its bit is flipped, and
`next` leads from one place to the other. -/
structure ShadowAddresses (n lo hi : ℕ) (block : ι → ℕ) (current flipped : ι → BitVec 64)
    (next : BitVec 64 → BitVec 64) : Prop where
  inside : ∀ i, block i < n → lo ≤ (current i).toNat ∧ (current i).toNat < hi
  distinct : ∀ i j, block i < n → block j < n → block i ≠ block j → current i ≠ current j
  next_eq : ∀ i, block i < n → next (current i) = flipped i
  next_inside : ∀ i, block i < n → lo ≤ (next (current i)).toNat ∧ (next (current i)).toNat < hi
  next_ne : ∀ i, block i < n → next (current i) ≠ current i
  involutive : ∀ i, block i < n → next (next (current i)) = current i
  /-- The other place of a block is neither place of another one. -/
  apart : ∀ i j, block i < n → block j < n → block i ≠ block j →
    next (current i) ≠ current j ∧ next (current i) ≠ next (current j)

variable {n lo hi : ℕ} {block : ι → ℕ} {current flipped : ι → BitVec 64}
  {next : BitVec 64 → BitVec 64}

/-- **Two places for each block, all of them different, are enough.** -/
lemma ShadowAddresses.of_copies (copy : Bool → ℕ → BitVec 64) (ver : ℕ → Bool)
    (hinside : ∀ v p, p < n → lo ≤ (copy v p).toNat ∧ (copy v p).toNat < hi)
    (hsep : ∀ v w p q, p < n → q < n → copy v p = copy w q → v = w ∧ p = q)
    (hcurrent : ∀ i, block i < n → current i = copy (ver (block i)) (block i))
    (hflipped : ∀ i, block i < n → flipped i = copy (!ver (block i)) (block i))
    (hnext : ∀ v p, p < n → next (copy v p) = copy (!v) p) :
    ShadowAddresses n lo hi block current flipped next := by
  have hother : ∀ i, block i < n → next (current i) = copy (!ver (block i)) (block i) := by
    intro i hi
    rw [hcurrent i hi, hnext _ _ hi]
  refine ⟨fun i hi => ?_, fun i j hi hj hne heq => ?_, fun i hi => ?_, fun i hi => ?_,
    fun i hi heq => ?_, fun i hi => ?_, fun i j hi hj hne => ⟨fun heq => ?_, fun heq => ?_⟩⟩
  · rw [hcurrent i hi]
    exact hinside _ _ hi
  · rw [hcurrent i hi, hcurrent j hj] at heq
    exact hne (hsep _ _ _ _ hi hj heq).2
  · rw [hother i hi, hflipped i hi]
  · rw [hother i hi]
    exact hinside _ _ hi
  · rw [hother i hi, hcurrent i hi] at heq
    simpa using (hsep _ _ _ _ hi hi heq).1
  · rw [hother i hi, hnext _ _ hi, Bool.not_not, hcurrent i hi]
  · rw [hother i hi, hcurrent j hj] at heq
    exact hne (hsep _ _ _ _ hi hj heq).2
  · rw [hother i hi, hother j hj] at heq
    exact hne (hsep _ _ _ _ hi hj heq).2

end Scheme

/-! ## The NAT -/

/-- What `struct f2fs_nm_info` has about the NAT area.  There are `nat_segs` pairs of segments. -/
structure NatArea where
  natBlkaddr : BitVec 32
  natSegs : BitVec 32
  natBitmap : ℕ → BitVec 8

/-- `nat_blocks`. -/
def NatArea.natBlocks (a : NatArea) : BitVec 32 := a.natSegs <<< 9

/-- `current_nat_addr`, for a node id. -/
def currentNatAddr (a : NatArea) (start : BitVec 32) : BitVec 64 :=
  let blockOff := (start / BitVec.ofNat 32 natEntryPerBlock).setWidth 64
  let blockAddr := a.natBlkaddr.setWidth 64 + (blockOff <<< 1) - (blockOff &&& (512#64 - 1#64))
  if testBitMsb blockOff.toNat a.natBitmap then blockAddr + 512#64 else blockAddr

/-- `next_nat_addr`. -/
def nextNatAddr (a : NatArea) (blockAddr : BitVec 64) : BitVec 64 :=
  ((blockAddr - a.natBlkaddr.setWidth 64) ^^^ (1#64 <<< 9)) + a.natBlkaddr.setWidth 64

/-- `set_to_next_nat`. -/
def setToNextNat (a : NatArea) (startNid : BitVec 32) : NatArea :=
  { a with
    natBitmap := changeBitMsb (startNid / BitVec.ofNat 32 natEntryPerBlock).toNat a.natBitmap }

/-- The area as `HoitF2fs.Node.NatTable` has it. -/
def NatArea.geometry (a : NatArea) : NatGeometry := ⟨a.natBlkaddr.toNat, a.natSegs.toNat⟩

/-- The NAT block of a node id. -/
def NatArea.block (start : BitVec 32) : ℕ := natBlockOffset start.toNat

lemma toNat_natBlock (start : BitVec 32) :
    (start / BitVec.ofNat 32 natEntryPerBlock).toNat = NatArea.block start := by
  simp [NatArea.block, natBlockOffset, natEntryPerBlock]

lemma natBlock_lt (start : BitVec 32) : NatArea.block start < 2 ^ 32 := by
  rw [← toNat_natBlock]
  exact BitVec.isLt _

/-- **No address of the NAT overflows.** -/
lemma toNat_currentNatAddr (a : NatArea) (start : BitVec 32) :
    (currentNatAddr a start).toNat
      = natCopyAddr a.geometry (testBitMsb (NatArea.block start) a.natBitmap)
          (NatArea.block start) := by
  have hlt := natBlock_lt start
  have hbase := a.natBlkaddr.isLt
  unfold currentNatAddr
  dsimp only
  generalize hoff : (start / BitVec.ofNat 32 natEntryPerBlock).setWidth 64 = blockOff
  have hblock : blockOff.toNat = NatArea.block start := by
    rw [← hoff, BitVec.toNat_setWidth, toNat_natBlock, Nat.mod_eq_of_lt (by omega)]
  have hmask : (blockOff &&& (512#64 - 1#64)).toNat = NatArea.block start % 512 := by
    rw [BitVec.toNat_and, hblock]
    exact Nat.and_two_pow_sub_one_eq_mod _ 9
  have hshift : (blockOff <<< 1).toNat = NatArea.block start * 2 := by
    rw [BitVec.toNat_shiftLeft, hblock, Nat.shiftLeft_eq, Nat.mod_eq_of_lt (by omega)]
  have hwide : (a.natBlkaddr.setWidth 64).toNat = a.natBlkaddr.toNat := by
    rw [BitVec.toNat_setWidth, Nat.mod_eq_of_lt (by omega)]
  have haddr : (a.natBlkaddr.setWidth 64 + blockOff <<< 1 - (blockOff &&& (512#64 - 1#64))).toNat
      = a.natBlkaddr.toNat + NatArea.block start * 2 - NatArea.block start % 512 := by
    rw [BitVec.toNat_sub, BitVec.toNat_add, hmask, hshift, hwide]
    omega
  rw [hblock, natCopyAddr_eq]
  change _ = a.natBlkaddr.toNat + _
  cases testBitMsb (NatArea.block start) a.natBitmap with
  | false =>
      simp only [Bool.false_eq_true, if_false, haddr, Bool.toNat_false]
      omega
  | true =>
      simp only [if_true, BitVec.toNat_add, haddr, BitVec.toNat_ofNat, Bool.toNat_true]
      omega

/-- The same of the other place. -/
lemma toNat_nextNatAddr (a : NatArea) {addr : BitVec 64} (hle : a.natBlkaddr.toNat ≤ addr.toNat)
    (hlt : addr.toNat < 2 ^ 40) :
    (nextNatAddr a addr).toNat = Hoit.nextNatAddr a.geometry addr.toNat := by
  have hbase := a.natBlkaddr.isLt
  have hwide : (a.natBlkaddr.setWidth 64).toNat = a.natBlkaddr.toNat := by
    rw [BitVec.toNat_setWidth, Nat.mod_eq_of_lt (by omega)]
  have hsub : (addr - a.natBlkaddr.setWidth 64).toNat = addr.toNat - a.natBlkaddr.toNat := by
    rw [BitVec.toNat_sub, hwide]
    omega
  have hxor : (addr.toNat - a.natBlkaddr.toNat) ^^^ (1 <<< 9) < 2 ^ 40 :=
    Nat.xor_lt_two_pow (by omega) (by decide)
  rw [nextNatAddr, BitVec.toNat_add, BitVec.toNat_xor, hsub, hwide]
  change (((addr.toNat - a.natBlkaddr.toNat) ^^^ (1 <<< 9)) + a.natBlkaddr.toNat) % 2 ^ 64 = _
  rw [Nat.mod_eq_of_lt (by omega)]
  rfl

lemma natBlocks_le (a : NatArea) : a.natBlocks.toNat ≤ 512 * a.natSegs.toNat := by
  rw [NatArea.natBlocks, BitVec.toNat_shiftLeft, Nat.shiftLeft_eq, Nat.mul_comm 512]
  exact Nat.mod_le _ _

/-- A copy is between the ends of the area, which are far from the end of the addresses. -/
lemma natCopyAddr_inside (a : NatArea) (v : Bool) {p : ℕ} (hp : p < a.natBlocks.toNat) :
    a.natBlkaddr.toNat ≤ natCopyAddr a.geometry v p ∧
      natCopyAddr a.geometry v p < a.natBlkaddr.toNat + 2 * (512 * a.natSegs.toNat) ∧
      natCopyAddr a.geometry v p < 2 ^ 40 := by
  have hle := natBlocks_le a
  have hsegs := a.natSegs.isLt
  have hbase := a.natBlkaddr.isLt
  have heq := natCopyAddr_eq (g := a.geometry) v p
  change natCopyAddr a.geometry v p = a.natBlkaddr.toNat + _ at heq
  have hv : v.toNat ≤ 1 := Bool.toNat_le v
  omega

/-- What a flip does to the bit itself. -/
lemma testBitMsb_change (nr : ℕ) (map : ℕ → BitVec 8) :
    testBitMsb nr (changeBitMsb nr map) = !testBitMsb nr map := by
  have hflip := congrFun (testBitMsb_changeBitMsb nr map) nr
  simpa using hflip

/-- **The NAT.** -/
lemma nat_shadowAddresses (a : NatArea) :
    ShadowAddresses a.natBlocks.toNat a.natBlkaddr.toNat
      (a.natBlkaddr.toNat + 2 * (512 * a.natSegs.toNat)) NatArea.block (currentNatAddr a)
      (fun start => currentNatAddr (setToNextNat a start) start) (nextNatAddr a) := by
  have hcopy : ∀ v p, p < a.natBlocks.toNat →
      (BitVec.ofNat 64 (natCopyAddr a.geometry v p)).toNat = natCopyAddr a.geometry v p := by
    intro v p hp
    have hlt := (natCopyAddr_inside a v hp).2.2
    rw [BitVec.toNat_ofNat, Nat.mod_eq_of_lt (by omega)]
  refine ShadowAddresses.of_copies (fun v p => BitVec.ofNat 64 (natCopyAddr a.geometry v p))
    (fun p => testBitMsb p a.natBitmap) (fun v p hp => ?_) (fun v w p q hp hq heq => ?_)
    (fun i hi => ?_) (fun i hi => ?_) fun v p hp => ?_
  · rw [hcopy v p hp]
    exact ⟨(natCopyAddr_inside a v hp).1, (natCopyAddr_inside a v hp).2.1⟩
  · have hnat := congrArg BitVec.toNat heq
    rw [hcopy v p hp, hcopy w q hq] at hnat
    exact natCopyAddr_separate a.geometry a.natBlocks.toNat hp hq hnat
  · refine BitVec.eq_of_toNat_eq ?_
    rw [hcopy _ _ hi, toNat_currentNatAddr]
  · refine BitVec.eq_of_toNat_eq ?_
    rw [hcopy _ _ hi, toNat_currentNatAddr]
    change natCopyAddr a.geometry (testBitMsb (NatArea.block i) (changeBitMsb
      (i / BitVec.ofNat 32 natEntryPerBlock).toNat a.natBitmap)) _ = _
    rw [toNat_natBlock, testBitMsb_change]
  · have hin := natCopyAddr_inside a v hp
    refine BitVec.eq_of_toNat_eq ?_
    rw [hcopy _ _ hp, toNat_nextNatAddr a (by rw [hcopy v p hp]; exact hin.1)
      (by rw [hcopy v p hp]; exact hin.2.2), hcopy v p hp, nextNatAddr_copy]

/-! ## The SIT -/

/-- What `struct sit_info` has about the SIT area.  There are `sit_segs` pairs of segments, and all
of their blocks have an address. -/
structure SitArea where
  sitBaseAddr : BitVec 32
  sitSegs : BitVec 32
  sitBitmap : ℕ → BitVec 8
  fits : sitBaseAddr.toNat + 2 * (512 * sitSegs.toNat) ≤ 2 ^ 32

/-- `sit_blocks`. -/
def SitArea.sitBlocks (a : SitArea) : BitVec 32 := a.sitSegs <<< 9

/-- `SIT_ENTRY_PER_BLOCK`. -/
def sitEntryPerBlock : ℕ := 55

/-- `current_sit_addr`, for a segment number. -/
def currentSitAddr (a : SitArea) (start : BitVec 32) : BitVec 64 :=
  let offset := start / BitVec.ofNat 32 sitEntryPerBlock
  let blkAddr := a.sitBaseAddr + offset
  (if testBitMsb offset.toNat a.sitBitmap then blkAddr + a.sitBlocks else blkAddr).setWidth 64

/-- `next_sit_addr`. -/
def nextSitAddr (a : SitArea) (blockAddr : BitVec 64) : BitVec 64 :=
  let x := blockAddr - a.sitBaseAddr.setWidth 64
  let y := if x < a.sitBlocks.setWidth 64 then x + a.sitBlocks.setWidth 64
    else x - a.sitBlocks.setWidth 64
  y + a.sitBaseAddr.setWidth 64

/-- `set_to_next_sit`. -/
def setToNextSit (a : SitArea) (start : BitVec 32) : SitArea :=
  { a with sitBitmap := changeBitMsb (start / BitVec.ofNat 32 sitEntryPerBlock).toNat a.sitBitmap }

/-- The SIT block of a segment. -/
def SitArea.block (start : BitVec 32) : ℕ := start.toNat / sitEntryPerBlock

lemma toNat_sitBlock (start : BitVec 32) :
    (start / BitVec.ofNat 32 sitEntryPerBlock).toNat = SitArea.block start := by
  simp [SitArea.block, sitEntryPerBlock]

lemma toNat_sitBlocks (a : SitArea) : a.sitBlocks.toNat = 512 * a.sitSegs.toNat := by
  have hfits := a.fits
  rw [SitArea.sitBlocks, BitVec.toNat_shiftLeft, Nat.shiftLeft_eq]
  omega

/-- The two places of a block. -/
def SitArea.copy (a : SitArea) (v : Bool) (p : ℕ) : BitVec 64 :=
  BitVec.ofNat 64 (a.sitBaseAddr.toNat + p + if v then a.sitBlocks.toNat else 0)

lemma toNat_sitCopy (a : SitArea) (v : Bool) {p : ℕ} (hp : p < a.sitBlocks.toNat) :
    (a.copy v p).toNat = a.sitBaseAddr.toNat + p + if v then a.sitBlocks.toNat else 0 := by
  have hfits := a.fits
  have hblocks := toNat_sitBlocks a
  rw [SitArea.copy, BitVec.toNat_ofNat]
  refine Nat.mod_eq_of_lt ?_
  split_ifs <;> omega

lemma currentSitAddr_eq (a : SitArea) {start : BitVec 32}
    (hstart : SitArea.block start < a.sitBlocks.toNat) :
    currentSitAddr a start
      = a.copy (testBitMsb (SitArea.block start) a.sitBitmap) (SitArea.block start) := by
  have hfits := a.fits
  have hblocks := toNat_sitBlocks a
  refine BitVec.eq_of_toNat_eq ?_
  rw [toNat_sitCopy a _ hstart]
  unfold currentSitAddr
  dsimp only
  rw [toNat_sitBlock]
  cases testBitMsb (SitArea.block start) a.sitBitmap with
  | false =>
      simp only [Bool.false_eq_true, if_false, BitVec.toNat_setWidth, BitVec.toNat_add,
        toNat_sitBlock]
      omega
  | true =>
      simp only [if_true, BitVec.toNat_setWidth, BitVec.toNat_add, toNat_sitBlock]
      omega

lemma nextSitAddr_copy (a : SitArea) (v : Bool) {p : ℕ} (hp : p < a.sitBlocks.toNat) :
    nextSitAddr a (a.copy v p) = a.copy (!v) p := by
  have hfits := a.fits
  have hblocks := toNat_sitBlocks a
  have hbase := a.sitBaseAddr.isLt
  have hcopy := toNat_sitCopy a v hp
  have hwide : (a.sitBaseAddr.setWidth 64).toNat = a.sitBaseAddr.toNat := by
    rw [BitVec.toNat_setWidth, Nat.mod_eq_of_lt (by omega)]
  have hwide' : (a.sitBlocks.setWidth 64).toNat = a.sitBlocks.toNat := by
    rw [BitVec.toNat_setWidth, Nat.mod_eq_of_lt (by omega)]
  have hsub : (a.copy v p - a.sitBaseAddr.setWidth 64).toNat
      = p + if v then a.sitBlocks.toNat else 0 := by
    rw [BitVec.toNat_sub, hwide, hcopy]
    split_ifs <;> omega
  refine BitVec.eq_of_toNat_eq ?_
  rw [toNat_sitCopy a _ hp]
  unfold nextSitAddr
  dsimp only
  cases v with
  | false =>
      have hlt : a.copy false p - a.sitBaseAddr.setWidth 64 < a.sitBlocks.setWidth 64 := by
        rw [BitVec.lt_def, hsub, hwide']
        simpa using hp
      rw [if_pos hlt, BitVec.toNat_add, BitVec.toNat_add, hsub, hwide, hwide']
      simp only [Bool.false_eq_true, if_false, Bool.not_false, if_true]
      omega
  | true =>
      have hge : ¬ a.copy true p - a.sitBaseAddr.setWidth 64 < a.sitBlocks.setWidth 64 := by
        rw [BitVec.lt_def, hsub, hwide']
        simp
      rw [if_neg hge, BitVec.toNat_add, BitVec.toNat_sub, hsub, hwide, hwide']
      simp only [if_true, Bool.not_true, Bool.false_eq_true, if_false]
      omega

/-- **The SIT.** -/
lemma sit_shadowAddresses (a : SitArea) :
    ShadowAddresses a.sitBlocks.toNat a.sitBaseAddr.toNat
      (a.sitBaseAddr.toNat + 2 * (512 * a.sitSegs.toNat)) SitArea.block (currentSitAddr a)
      (fun start => currentSitAddr (setToNextSit a start) start) (nextSitAddr a) := by
  have hblocks := toNat_sitBlocks a
  refine ShadowAddresses.of_copies a.copy (fun p => testBitMsb p a.sitBitmap)
    (fun v p hp => ?_) (fun v w p q hp hq heq => ?_) (fun i hi => currentSitAddr_eq a hi)
    (fun i hi => ?_) fun v p hp => nextSitAddr_copy a v hp
  · rw [toNat_sitCopy a v hp]
    split_ifs <;> omega
  · have hnat := congrArg BitVec.toNat heq
    rw [toNat_sitCopy a v hp, toNat_sitCopy a w hq] at hnat
    cases v <;> cases w <;> simp only [Bool.false_eq_true, if_false, if_true] at hnat ⊢ <;>
      simp <;> omega
  · rw [currentSitAddr_eq (setToNextSit a i) hi]
    change a.copy (testBitMsb (SitArea.block i) (changeBitMsb
      (i / BitVec.ofNat 32 sitEntryPerBlock).toNat a.sitBitmap)) _ = _
    rw [toNat_sitBlock, testBitMsb_change]

/-- **Both tables keep their blocks apart**, and the bit of a block says which of its places is the
current one. -/
theorem shadow_addresses :
    (∀ a : NatArea, ShadowAddresses a.natBlocks.toNat a.natBlkaddr.toNat
      (a.natBlkaddr.toNat + 2 * (512 * a.natSegs.toNat)) NatArea.block (currentNatAddr a)
      (fun start => currentNatAddr (setToNextNat a start) start) (nextNatAddr a)) ∧
    ∀ a : SitArea, ShadowAddresses a.sitBlocks.toNat a.sitBaseAddr.toNat
      (a.sitBaseAddr.toNat + 2 * (512 * a.sitSegs.toNat)) SitArea.block (currentSitAddr a)
      (fun start => currentSitAddr (setToNextSit a start) start) (nextSitAddr a) :=
  ⟨nat_shadowAddresses, sit_shadowAddresses⟩

/-- Two pairs of segments from block 1536 on; block 1 has its second place. -/
def smallSit : SitArea where
  sitBaseAddr := 1536
  sitSegs := 2
  sitBitmap := fun i => if i = 0 then 0x40 else 0
  fits := by decide

/-- Segment 54 is in block 0, and segment 60 in block 1. -/
theorem shadow_addresses_smallSit :
    currentSitAddr smallSit 54 = 1536 ∧ currentSitAddr smallSit 60 = 2561 ∧
      nextSitAddr smallSit 2561 = 1537 ∧
      ShadowAddresses smallSit.sitBlocks.toNat 1536 3584 SitArea.block (currentSitAddr smallSit)
        (fun start => currentSitAddr (setToNextSit smallSit start) start) (nextSitAddr smallSit) :=
  ⟨by decide, by decide, by decide, shadow_addresses.2 smallSit⟩

end Hoit.ShadowAddr
