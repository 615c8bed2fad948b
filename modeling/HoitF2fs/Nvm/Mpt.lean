import HoitF2fs.Lib.Bitmap

/-!
# The segment mapping table

`nsbi->mpt` is one array of 32-bit words with two halves.  Entry `n < main_segment_nums` belongs
to the NVM segment `n`, entry `main_segment_nums + s` to the SSD segment `s`.  A word holds a
segment offset on the other device, shifted left by `rw_bits`, and three flags in its low bits.

* `Geometry` — the two segment counts, with the bound that makes the shift lossless.
* `setMptEntry`, `getMptValue`, `getMapFlag`, … — the accessors of `nvm.h`, on `BitVec 32` as the
  code's own `unsigned int`.
* `getMptValue_setMptEntry` and `entryFlags_setMptEntry` — **what is stored is what is read
  back**, for every offset below `2^29` and every combination of flags.

Everything later speaks about the table through these accessors only.
-/

namespace Hoit

/-- Blocks in a segment: `log_blocks_per_seg` is checked to be 9 at mount. -/
def blocksPerSeg : ℕ := 512

/-- The sizes of the two MAIN areas, in segments.  `nvm_lt` and `ssd_lt` come from the 32-bit
block addresses: a device has fewer than `2^32` blocks, hence fewer than `2^23` segments. -/
structure Geometry where
  mainSegmentNums : ℕ
  segmentCountMain : ℕ
  segsPerSec : ℕ
  nvm_lt : mainSegmentNums < 2 ^ 23
  ssd_lt : segmentCountMain < 2 ^ 23
  segsPerSec_pos : 0 < segsPerSec

variable (g : Geometry)

-- The bounds of a geometry of which a device has four segments, or none.
lemma Geometry.four_fit : 4 < 2 ^ 23 := by decide

lemma Geometry.none_fit : 0 < 2 ^ 23 := by decide

/-- The index of the table entry of SSD segment `s`. -/
def Geometry.ssdIndex (s : ℕ) : ℕ := g.mainSegmentNums + s

/-- `nsbi->mpt`. -/
abbrev Mpt := ℕ → BitVec 32

/-! ## Flags and accessors of `nvm.h` -/

def rwMap : BitVec 32 := 1#32
def rwRedirect : BitVec 32 := 2#32
def rwDouble : BitVec 32 := 4#32
def rwBits : ℕ := 3

def setMptEntry (mpt : Mpt) (index offset : ℕ) (rwFlag : BitVec 32) : Mpt :=
  Function.update mpt index ((BitVec.ofNat 32 offset <<< rwBits) ||| rwFlag)

def getMptValue (mpt : Mpt) (index : ℕ) : ℕ := (mpt index >>> rwBits).toNat

def getMapFlag (mpt : Mpt) (index : ℕ) : Bool := mpt index &&& rwMap != 0#32

def getRedirectFlag (mpt : Mpt) (index : ℕ) : Bool := mpt index &&& rwRedirect != 0#32

def getDoubleFlag (mpt : Mpt) (index : ℕ) : Bool := mpt index &&& rwDouble != 0#32

def setDoubleFlag (mpt : Mpt) (index : ℕ) : Mpt :=
  Function.update mpt index (mpt index ||| rwDouble)

def clearMap (mpt : Mpt) (index : ℕ) : Mpt := Function.update mpt index 0#32

/-- The low `rw_bits` bits of an entry: all of its flags at once. -/
def entryFlags (mpt : Mpt) (index : ℕ) : BitVec 32 := mpt index &&& 7#32

/-! ## The flags, read from the low three bits -/

lemma getMapFlag_eq (mpt : Mpt) (i : ℕ) : getMapFlag mpt i = (mpt i).getLsbD 0 :=
  Bitmap.and_twoPow_ne_zero (mpt i) (by decide : 0 < 32)

lemma getRedirectFlag_eq (mpt : Mpt) (i : ℕ) : getRedirectFlag mpt i = (mpt i).getLsbD 1 :=
  Bitmap.and_twoPow_ne_zero (mpt i) (by decide : 1 < 32)

lemma getDoubleFlag_eq (mpt : Mpt) (i : ℕ) : getDoubleFlag mpt i = (mpt i).getLsbD 2 :=
  Bitmap.and_twoPow_ne_zero (mpt i) (by decide : 2 < 32)

lemma seven_getLsbD (k : ℕ) : (7#32).getLsbD k = decide (k < 3) := by
  rcases Nat.lt_or_ge k 3 with hk | hk
  · interval_cases k <;> rfl
  · have h7 : (7 : ℕ) < 2 ^ k := lt_of_lt_of_le (by decide) (Nat.pow_le_pow_right (by decide) hk)
    simp [BitVec.getLsbD, Nat.testBit_lt_two_pow h7, Nat.not_lt.mpr hk]

lemma entryFlags_getLsbD (mpt : Mpt) (i : ℕ) {k : ℕ} (hk : k < 3) :
    (entryFlags mpt i).getLsbD k = (mpt i).getLsbD k := by
  simp [entryFlags, BitVec.getLsbD_and, seven_getLsbD, hk]

/-- Each flag is a bit of `entryFlags`. -/
lemma flags_of_entryFlags {mpt : Mpt} {i : ℕ} {f : BitVec 32} (h : entryFlags mpt i = f) :
    getMapFlag mpt i = f.getLsbD 0 ∧ getRedirectFlag mpt i = f.getLsbD 1 ∧
      getDoubleFlag mpt i = f.getLsbD 2 := by
  rw [getMapFlag_eq, getRedirectFlag_eq, getDoubleFlag_eq, ← h,
    entryFlags_getLsbD mpt i (by decide), entryFlags_getLsbD mpt i (by decide),
    entryFlags_getLsbD mpt i (by decide)]
  exact ⟨rfl, rfl, rfl⟩

/-! ## Reading back what was stored -/

/-- A flag word has only its low three bits set. -/
def IsRwFlag (f : BitVec 32) : Prop := f.toNat < 8

instance (f : BitVec 32) : Decidable (IsRwFlag f) := inferInstanceAs (Decidable (f.toNat < 8))

lemma isRwFlag_getLsbD {f : BitVec 32} (hf : IsRwFlag f) {k : ℕ} (hk : 3 ≤ k) :
    f.getLsbD k = false := by
  have h8 : f.toNat < 2 ^ k :=
    lt_of_lt_of_le hf (le_trans (by decide : 8 ≤ 2 ^ 3) (Nat.pow_le_pow_right (by decide) hk))
  simp [BitVec.getLsbD, Nat.testBit_lt_two_pow h8]

lemma setMptEntry_of_ne {mpt : Mpt} {i j v : ℕ} {f : BitVec 32} (h : j ≠ i) :
    setMptEntry mpt i v f j = mpt j := Function.update_of_ne h _ _

lemma setDoubleFlag_of_ne {mpt : Mpt} {i j : ℕ} (h : j ≠ i) :
    setDoubleFlag mpt i j = mpt j := Function.update_of_ne h _ _

lemma clearMap_of_ne {mpt : Mpt} {i j : ℕ} (h : j ≠ i) : clearMap mpt i j = mpt j :=
  Function.update_of_ne h _ _

/-- **The offset survives the packing**, because it fits in 29 bits. -/
lemma getMptValue_setMptEntry {mpt : Mpt} {i v : ℕ} {f : BitVec 32} (hv : v < 2 ^ 29)
    (hf : IsRwFlag f) : getMptValue (setMptEntry mpt i v f) i = v := by
  have hword : ((BitVec.ofNat 32 v <<< rwBits) ||| f) >>> rwBits = BitVec.ofNat 32 v := by
    apply BitVec.eq_of_getLsbD_eq
    intro k hk
    have hfk := isRwFlag_getLsbD hf (Nat.le_add_right 3 k)
    simp only [rwBits, BitVec.getLsbD_ushiftRight, BitVec.getLsbD_or, BitVec.getLsbD_shiftLeft,
      hfk, Bool.or_false, BitVec.getLsbD_ofNat]
    by_cases h29 : 3 + k < 32
    · simp [h29, hk]
    · have hbig : v < 2 ^ k :=
        lt_of_lt_of_le hv (Nat.pow_le_pow_right (by decide) (by omega))
      simp [h29, Nat.testBit_lt_two_pow hbig]
  simp only [getMptValue, setMptEntry, Function.update_self]
  rw [hword, BitVec.toNat_ofNat, Nat.mod_eq_of_lt (by omega)]

/-- **The flags survive the packing.** -/
lemma entryFlags_setMptEntry {mpt : Mpt} {i v : ℕ} {f : BitVec 32} (hf : IsRwFlag f) :
    entryFlags (setMptEntry mpt i v f) i = f := by
  simp only [entryFlags, setMptEntry, Function.update_self]
  apply BitVec.eq_of_getLsbD_eq
  intro k hk
  by_cases h3 : k < 3
  · simp [rwBits, seven_getLsbD, h3]
  · simp [seven_getLsbD, h3, isRwFlag_getLsbD hf (Nat.not_lt.mp h3)]

lemma getMptValue_setDoubleFlag (mpt : Mpt) (i j : ℕ) :
    getMptValue (setDoubleFlag mpt i) j = getMptValue mpt j := by
  by_cases hij : j = i
  · subst hij
    have hword : (mpt j ||| rwDouble) >>> rwBits = mpt j >>> rwBits := by
      ext k hk
      have hd : rwDouble.getLsbD (3 + k) = false :=
        isRwFlag_getLsbD (by decide) (Nat.le_add_right 3 k)
      simp [rwBits, hd]
    simp only [getMptValue, setDoubleFlag, Function.update_self]
    rw [hword]
  · simp only [getMptValue, setDoubleFlag_of_ne hij]

lemma getMapFlag_setDoubleFlag (mpt : Mpt) (i j : ℕ) :
    getMapFlag (setDoubleFlag mpt i) j = getMapFlag mpt j := by
  by_cases hij : j = i
  · subst hij
    simp [getMapFlag_eq, setDoubleFlag, rwDouble]
  · simp only [getMapFlag, setDoubleFlag_of_ne hij]

lemma getRedirectFlag_setDoubleFlag (mpt : Mpt) (i j : ℕ) :
    getRedirectFlag (setDoubleFlag mpt i) j = getRedirectFlag mpt j := by
  by_cases hij : j = i
  · subst hij
    simp [getRedirectFlag_eq, setDoubleFlag, rwDouble]
  · simp only [getRedirectFlag, setDoubleFlag_of_ne hij]

lemma entryFlags_setDoubleFlag (mpt : Mpt) (i : ℕ) :
    entryFlags (setDoubleFlag mpt i) i = entryFlags mpt i ||| rwDouble := by
  simp only [entryFlags, setDoubleFlag, Function.update_self]
  have hd : rwDouble = rwDouble &&& 7#32 := by decide
  rw [BitVec.and_or_distrib_right, ← hd]

end Hoit
