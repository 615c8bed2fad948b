import HoitF2fs.Lib.ByteStore

/-!
# Checkpoint headers

A checkpoint pack starts with a block that holds `struct f2fs_checkpoint` and ends with a copy of
that block.  The model keeps the block as bytes, with the fields at their offsets, because what
the two checkpoint writers do to a header — stores into one pack, copies from the other, a
checksum over the first bytes — is only visible there.

`f2fs_crc32` calls the kernel's crypto library, so it is a parameter `crc32` of everything below;
`f2fsCrc32` is the polynomial the library implements, for concrete headers.

* `getCheckpointVersion`, `validateCheckpoint` — the acceptance test of a mount.
* `storeCrc` — the last store into a header; a header it was done to is accepted
  (`getCheckpointVersion_storeCrc`).
-/

namespace Hoit

open ByteStore

def blockSize : ℕ := 4096

/-- `cur_cp_pack`. -/
inductive CpPack where
  | one
  | two
deriving DecidableEq

/-- `__set_cp_next_pack`. -/
def CpPack.next : CpPack → CpPack
  | .one => .two
  | .two => .one

@[simp] lemma CpPack.next_next (p : CpPack) : p.next.next = p := by cases p <;> rfl

lemma CpPack.next_ne (p : CpPack) : p.next ≠ p := by cases p <;> decide

/-! ## Fields -/

section Fields

variable (a : Area)

/-- `cur_cp_version`. -/
def curCpVersion : ℕ := getLe a 0 8

def rsvdSegmentCount : ℕ := getLe a 24 4

def overprovSegmentCount : ℕ := getLe a 28 4

def curNodeSegno (i : ℕ) : ℕ := getLe a (36 + 4 * i) 4

def curNodeBlkoff (i : ℕ) : ℕ := getLe a (68 + 2 * i) 2

def curDataSegno (i : ℕ) : ℕ := getLe a (84 + 4 * i) 4

def curDataBlkoff (i : ℕ) : ℕ := getLe a (116 + 2 * i) 2

def ckptFlags : BitVec 32 := BitVec.ofNat 32 (getLe a 132 4)

def cpPackTotalBlockCount : ℕ := getLe a 136 4

def cpPackStartSum : ℕ := getLe a 140 4

def sitVerBitmapBytesize : ℕ := getLe a 156 4

def natVerBitmapBytesize : ℕ := getLe a 160 4

def checksumOffset : ℕ := getLe a 164 4

def allocType (i : ℕ) : Byte := a (176 + i)

/-- Where `sit_nat_version_bitmap` starts: all fields lie below. -/
def bitmapStart : ℕ := 192

/-- `cur_cp_crc`. -/
def curCpCrc : ℕ := getLe a (checksumOffset a) 4

end Fields

def cpUmountFlag : BitVec 32 := 0x1#32

def cpOrphanPresentFlag : BitVec 32 := 0x2#32

def cpCompactSumFlag : BitVec 32 := 0x4#32

def cpErrorFlag : BitVec 32 := 0x8#32

def cpFsckFlag : BitVec 32 := 0x10#32

def cpFastbootFlag : BitVec 32 := 0x20#32

def cpCrcRecoveryFlag : BitVec 32 := 0x40#32

def cpNatBitsFlag : BitVec 32 := 0x80#32

def cpTrimmedFlag : BitVec 32 := 0x100#32

def cpNocrcRecoveryFlag : BitVec 32 := 0x200#32

def cpLargeNatBitmapFlag : BitVec 32 := 0x400#32

def cpNsbVerFlag : BitVec 32 := 0x1000#32

/-- `__is_set_ckpt_flags`. -/
def isSetCkptFlags (a : Area) (f : BitVec 32) : Bool := ckptFlags a &&& f != 0#32

/-- The store of a new `ckpt_flags`. -/
def putFlags (f : BitVec 32) : Patch := putLe 132 4 f.toNat

lemma ckptFlags_congr {a b : Area} (h : ∀ x, 132 ≤ x → x < 136 → a x = b x) :
    ckptFlags a = ckptFlags b := by
  unfold ckptFlags
  rw [getLe_congr fun k hk => h (132 + k) (by omega) (by omega)]

lemma ckptFlags_toNat (a : Area) : (ckptFlags a).toNat = getLe a 132 4 := by
  rw [ckptFlags, BitVec.toNat_ofNat]
  exact Nat.mod_eq_of_lt getLe_lt

@[simp] lemma ckptFlags_putFlags (a : Area) (f : BitVec 32) :
    ckptFlags ((putFlags f).apply a) = f := by
  apply BitVec.eq_of_toNat_eq
  rw [ckptFlags_toNat, putFlags, getLe_putLe]
  exact Nat.mod_eq_of_lt f.isLt

lemma quiet_putFlags_iff {a : Area} {f : BitVec 32} : (putFlags f).Quiet a ↔ ckptFlags a = f := by
  rw [putFlags, quiet_putLe_iff, ← ckptFlags_toNat]
  constructor
  · intro h
    apply BitVec.eq_of_toNat_eq
    rw [h]
    exact Nat.mod_eq_of_lt f.isLt
  · rintro rfl
    exact (Nat.mod_eq_of_lt (ckptFlags a).isLt).symm

/-- Of two stores of the flags only the second one stays. -/
lemma putFlags_putFlags (a : Area) (f g : BitVec 32) :
    (putFlags g).apply ((putFlags f).apply a) = (putFlags g).apply a := by
  funext x
  by_cases hx : (putFlags g).Covers x
  · rw [Patch.apply_of_covers hx, Patch.apply_of_covers hx]
  · rw [Patch.apply_of_not_covers hx, Patch.apply_of_not_covers hx]
    exact Patch.apply_of_not_covers hx

/-! ## The checksum and the acceptance test -/

/-- The first `n` bytes of a block, as `f2fs_crc32` reads them. -/
def firstBytes (a : Area) (n : ℕ) : List Byte := (List.range n).map a

lemma firstBytes_congr {a b : Area} {n : ℕ} (h : ∀ x < n, a x = b x) :
    firstBytes a n = firstBytes b n :=
  List.map_congr_left fun x hx => h x (List.mem_range.mp hx)

/-- One byte of the kernel's `crc32_le`, bit by bit. -/
def crc32Byte (crc : BitVec 32) (b : Byte) : BitVec 32 :=
  (List.range 8).foldl
    (fun c _ => if c.getLsbD 0 then (c >>> 1) ^^^ 0xEDB88320#32 else c >>> 1)
    (crc ^^^ b.setWidth 32)

/-- What the `crc32` of the crypto library computes from the seed `F2FS_SUPER_MAGIC`. -/
def f2fsCrc32 (bytes : List Byte) : BitVec 32 := bytes.foldl crc32Byte 0xF2F52010#32

section Checksum

variable (crc32 : List Byte → BitVec 32)

/-- The checksum of a header: over the bytes before it. -/
def headerCrc (a : Area) : BitVec 32 := crc32 (firstBytes a (checksumOffset a))

/-- The store of the checksum at `checksum_offset`. -/
def crcPatch (a : Area) : Patch := putLe (checksumOffset a) 4 (headerCrc crc32 a).toNat

def storeCrc (a : Area) : Area := (crcPatch crc32 a).apply a

/-- `get_checkpoint_version`, on the block that was read. -/
def getCheckpointVersion (a : Area) : Option ℕ :=
  if blockSize - 4 < checksumOffset a then none
  else if (headerCrc crc32 a).toNat ≠ curCpCrc a then none
  else some (curCpVersion a)

/-- `validate_checkpoint`; `read i` is the block at `cp_addr + i`, in 32-bit arithmetic. -/
def validateCheckpoint (read : ℕ → Area) : Option ℕ :=
  (getCheckpointVersion crc32 (read 0)).bind fun preVersion =>
    (getCheckpointVersion crc32
      (read ((cpPackTotalBlockCount (read 0) + (2 ^ 32 - 1)) % 2 ^ 32))).bind fun curVersion =>
        if curVersion = preVersion then some curVersion else none

variable {crc32} {a b : Area}

/-- A header with its checksum behind the fields and inside the block. -/
structure CrcPlaced (a : Area) : Prop where
  behind : bitmapStart ≤ checksumOffset a
  inside : checksumOffset a + 4 ≤ blockSize

/-- The test looks at one block only. -/
lemma getCheckpointVersion_congr (h : ∀ x < blockSize, a x = b x) :
    getCheckpointVersion crc32 a = getCheckpointVersion crc32 b := by
  have hfield : ∀ off w, off + w ≤ blockSize → getLe a off w = getLe b off w := fun off w hw =>
    getLe_congr fun k hk => h (off + k) (by omega)
  have hoff : checksumOffset a = checksumOffset b := hfield 164 4 (by decide)
  unfold getCheckpointVersion
  rw [← hoff]
  by_cases hin : blockSize - 4 < checksumOffset a
  · rw [if_pos hin, if_pos hin]
  · have hle : checksumOffset a + 4 ≤ blockSize := by
      unfold blockSize at hin ⊢
      omega
    have hcrc : headerCrc crc32 a = headerCrc crc32 b := by
      unfold headerCrc
      rw [← hoff, firstBytes_congr fun x hx => h x (by omega)]
    have hword : curCpCrc a = curCpCrc b := by
      unfold curCpCrc
      rw [← hoff, hfield _ _ hle]
    have hver : curCpVersion a = curCpVersion b := hfield 0 8 (by decide)
    rw [hcrc, hword, hver]

lemma getCheckpointVersion_eq_some_iff {v : ℕ} (hc : CrcPlaced a) :
    getCheckpointVersion crc32 a = some v
      ↔ (crcPatch crc32 a).Quiet a ∧ curCpVersion a = v := by
  have hin : ¬ blockSize - 4 < checksumOffset a := by
    have := hc.inside
    unfold blockSize at this ⊢
    omega
  have hquiet : (crcPatch crc32 a).Quiet a ↔ (headerCrc crc32 a).toNat = curCpCrc a := by
    have hword : (headerCrc crc32 a).toNat < 256 ^ 4 := (headerCrc crc32 a).isLt
    unfold crcPatch curCpCrc
    rw [quiet_putLe_iff, Nat.mod_eq_of_lt hword]
    exact eq_comm
  unfold getCheckpointVersion
  rw [if_neg hin, hquiet]
  by_cases hcrc : (headerCrc crc32 a).toNat = curCpCrc a
  · simp [hcrc]
  · simp [hcrc]

/-- Below its place the checksum changes nothing. -/
lemma storeCrc_of_lt {x : ℕ} (hx : x < checksumOffset a) : storeCrc crc32 a x = a x := by
  apply Patch.apply_of_not_covers
  rintro ⟨hle, -⟩
  rw [crcPatch, putLe_off] at hle
  omega

lemma getLe_storeCrc (hc : CrcPlaced a) {off w : ℕ} (hw : off + w ≤ bitmapStart) :
    getLe (storeCrc crc32 a) off w = getLe a off w :=
  getLe_congr fun k hk => storeCrc_of_lt (by have := hc.behind; omega)

lemma CrcPlaced.congr (hc : CrcPlaced a) (h : checksumOffset b = checksumOffset a) :
    CrcPlaced b := by
  constructor
  · rw [h]
    exact hc.behind
  · rw [h]
    exact hc.inside

lemma CrcPlaced.storeCrc (hc : CrcPlaced a) : CrcPlaced (storeCrc crc32 a) :=
  hc.congr (getLe_storeCrc hc (by decide))

lemma crcPatch_storeCrc (hc : CrcPlaced a) : crcPatch crc32 (storeCrc crc32 a) = crcPatch crc32 a := by
  have hoff : checksumOffset (storeCrc crc32 a) = checksumOffset a :=
    getLe_storeCrc hc (by decide)
  unfold crcPatch headerCrc
  rw [hoff, firstBytes_congr fun x hx => storeCrc_of_lt hx]

/-- **A header whose checksum was stored last is accepted.** -/
theorem getCheckpointVersion_storeCrc (hc : CrcPlaced a) :
    getCheckpointVersion crc32 (storeCrc crc32 a) = some (curCpVersion a) := by
  rw [getCheckpointVersion_eq_some_iff hc.storeCrc, crcPatch_storeCrc hc]
  refine ⟨?_, getLe_storeCrc hc (by decide)⟩
  rw [Patch.quiet_iff_covers]
  intro x hx
  exact Patch.apply_of_covers hx

/-- The test of a pack looks at its blocks only. -/
lemma validateCheckpoint_congr {r s : ℕ → Area} {n : ℕ}
    (hn : cpPackTotalBlockCount (r 0) = n) (hpos : 0 < n) (hlt : n < 2 ^ 32)
    (h : ∀ i < n, ∀ x < blockSize, r i x = s i x) :
    validateCheckpoint crc32 r = validateCheckpoint crc32 s := by
  have htotal : cpPackTotalBlockCount (s 0) = n := by
    rw [← hn]
    exact getLe_congr fun k hk => (h 0 hpos (136 + k) (by unfold blockSize; omega)).symm
  have hlast : (n + (2 ^ 32 - 1)) % 2 ^ 32 = n - 1 := by omega
  unfold validateCheckpoint
  rw [hn, htotal, hlast, getCheckpointVersion_congr (h 0 hpos),
    getCheckpointVersion_congr (h (n - 1) (by omega))]

/-- A pack whose first and last block are the same accepted header is accepted. -/
lemma validateCheckpoint_of_copy {r : ℕ → Area} {n v : ℕ}
    (hn : cpPackTotalBlockCount (r 0) = n) (hpos : 0 < n) (hlt : n < 2 ^ 32)
    (hhead : getCheckpointVersion crc32 (r 0) = some v)
    (hfoot : ∀ x < blockSize, r (n - 1) x = r 0 x) :
    validateCheckpoint crc32 r = some v := by
  have hlast : (n + (2 ^ 32 - 1)) % 2 ^ 32 = n - 1 := by omega
  unfold validateCheckpoint
  rw [hn, hlast, getCheckpointVersion_congr hfoot, hhead]
  simp

end Checksum

end Hoit
