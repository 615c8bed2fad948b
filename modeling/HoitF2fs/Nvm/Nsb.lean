import HoitF2fs.Lib.ByteStore
import HoitF2fs.Nvm.MptStore

/-!
# The NVM super block on its block

`nvm_flush_nsb_pages` copies three things into one page of the META mapping: the structure
`nvm_super_block`, and over its last member `map` the MPT version map and the segment map, one
after the other.  `read_nvm_super_block` takes them apart again.

* `nvmFlushNsbPages` — the three `memcpy`s, as patches.  Nothing checks that they stay inside the
  page; `NsbFits` is the condition that they do.
* `readNvmSuperBlock` — the reader, with its check of the uuid.
* `DecodesTo` — what it means that a page holds a record.
* `decodesTo_nvmFlushNsbPages` — **what is flushed is what is read**, when it fits.
-/

namespace Hoit

open Bitmap ByteStore

variable (g : Geometry)

/-- Offsets in `struct nvm_super_block`. -/
def freeNumsOff : ℕ := 48
def nsbMapOff : ℕ := 60

/-- `sizeof(struct nvm_super_block)`, with the first byte of `map` and the padding. -/
def nsbSize : ℕ := 64

def mptVerMapBytes : ℕ := (mptDirtyMapBits g - 1) / 8 + 1

/-- The subtraction is one of `__le32`, and wraps for an NVM without segments. -/
def segmentMapBytes : ℕ := (g.mainSegmentNums + 2 ^ 32 - 1) % 2 ^ 32 / 8 + 1

/-- What a flush records.  The other members of `nsb` never change after the mount. -/
structure NsbRecord where
  mainSegmentFreeNums : ℕ
  mptVerMap : ℕ → Byte
  segmentMap : ℕ → Bool

/-- The record that a flush would make now. -/
def MptStore.nsbRecord (x : MptStore) : NsbRecord :=
  ⟨x.nsbi.mainSegmentFreeNums, x.mptVerMap, x.nsbi.segmentMap⟩

/-- Byte `k` of a bitmap kept in little-endian `unsigned long`s. -/
def longMapByte (map : ℕ → Bool) (k : ℕ) : Byte :=
  BitVec.ofBoolListLE [map (8 * k), map (8 * k + 1), map (8 * k + 2), map (8 * k + 3),
    map (8 * k + 4), map (8 * k + 5), map (8 * k + 6), map (8 * k + 7)]

/-- The bytes of `nsb`: `fixed`, with the counter of free segments. -/
def nsbBytes (fixed : Area) (mainSegmentFreeNums : ℕ) : Area :=
  (putLe freeNumsOff 4 mainSegmentFreeNums).apply fixed

/-- The three copies of `nvm_flush_nsb_pages`. -/
def nsbPatches (fixed : Area) (r : NsbRecord) : List Patch :=
  [⟨0, nsbSize, nsbBytes fixed r.mainSegmentFreeNums⟩,
    ⟨nsbMapOff, mptVerMapBytes g, r.mptVerMap⟩,
    ⟨nsbMapOff + mptVerMapBytes g, segmentMapBytes g, longMapByte r.segmentMap⟩]

def nvmFlushNsbPages (fixed : Area) (x : MptStore) (page : Area) : Area :=
  overlay page (nsbPatches g fixed x.nsbRecord)

/-! ## The reader -/

/-- `strncmp` of `k` bytes from `i` on, as far as it says "equal". -/
def strncmpEq (a b : Area) : ℕ → ℕ → Bool
  | _, 0 => true
  | i, k + 1 => a i == b i && (a i == 0#8 || strncmpEq a b (i + 1) k)

/-- What `read_nvm_super_block` fills in: `nsb` and the two maps, in memory that was zeroed. -/
structure NsbRead where
  nsb : Area
  mptVerMap : ℕ → Byte
  segmentMap : ℕ → Bool

/-- The three copies of the reader. -/
def nsbReadOf (page : Area) : NsbRead where
  nsb := page
  mptVerMap := fun k => if k < mptVerMapBytes g then page (nsbMapOff + k) else 0#8
  segmentMap := fun n => if n / 8 < segmentMapBytes g then
    (page (nsbMapOff + mptVerMapBytes g + n / 8)).getLsbD (n % 8) else false

/-- `read_nvm_super_block`, after the page is read; `fixed` holds the uuid of the SSD. -/
def readNvmSuperBlock (fixed page : Area) : Option NsbRead :=
  if strncmpEq page fixed 0 16 then some (nsbReadOf g page) else none

/-- **The page holds the record**: it passes the check of the uuid, and every member of `nsb`,
every bit of the version map and every bit of the segment map is read as recorded. -/
def DecodesTo (fixed page : Area) (r : NsbRecord) : Prop :=
  ∃ d, readNvmSuperBlock g fixed page = some d ∧
    (∀ k < nsbMapOff, d.nsb k = nsbBytes fixed r.mainSegmentFreeNums k) ∧
    getLe d.nsb freeNumsOff 4 = r.mainSegmentFreeNums ∧
    (∀ p < mptDirtyMapBits g, testBitMsb p d.mptVerMap = testBitMsb p r.mptVerMap) ∧
    ∀ n < g.mainSegmentNums, d.segmentMap n = r.segmentMap n

/-- The record does not run over the end of its page. -/
def NsbFits : Prop := nsbMapOff + mptVerMapBytes g + segmentMapBytes g ≤ 4096

instance : Decidable (NsbFits g) := inferInstanceAs (Decidable (_ ≤ _))

/-! ## The round trip -/

variable {g}

lemma longMapByte_getLsbD (map : ℕ → Bool) (n : ℕ) :
    (longMapByte map (n / 8)).getLsbD (n % 8) = map n := by
  have hsplit : 8 * (n / 8) + n % 8 = n := Nat.div_add_mod n 8
  have hlt : n % 8 < 8 := Nat.mod_lt n (by decide)
  rw [longMapByte, BitVec.getLsbD_ofBoolListLE]
  generalize n % 8 = j at hsplit hlt ⊢
  generalize n / 8 = k at hsplit ⊢
  subst hsplit
  interval_cases j <;> rfl

lemma div_lt_mptVerMapBytes {p : ℕ} (hp : p < mptDirtyMapBits g) : p / 8 < mptVerMapBytes g := by
  unfold mptVerMapBytes
  omega

lemma div_lt_segmentMapBytes {n : ℕ} (hn : n < g.mainSegmentNums) : n / 8 < segmentMapBytes g := by
  have hlt := g.nvm_lt
  unfold segmentMapBytes
  omega

lemma strncmpEq_of_eq {a b : Area} :
    ∀ {k i : ℕ}, (∀ j, i ≤ j → j < i + k → a j = b j) → strncmpEq a b i k = true := by
  intro k
  induction k with
  | zero => simp [strncmpEq]
  | succ k ih =>
      intro i h
      have hi : a i = b i := h i le_rfl (by omega)
      have hrest : strncmpEq a b (i + 1) k = true := ih fun j hj hj' => h j (by omega) (by omega)
      simp [strncmpEq, hi, hrest]

/-- What the page holds after the three copies: the structure, then the maps. -/
lemma overlay_nsbPatches (fixed page : Area) (r : NsbRecord) :
    (∀ k < nsbMapOff, overlay page (nsbPatches g fixed r) k
        = nsbBytes fixed r.mainSegmentFreeNums k) ∧
      (∀ k < mptVerMapBytes g, overlay page (nsbPatches g fixed r) (nsbMapOff + k)
        = r.mptVerMap k) ∧
      ∀ k < segmentMapBytes g,
        overlay page (nsbPatches g fixed r) (nsbMapOff + mptVerMapBytes g + k)
          = longMapByte r.segmentMap k := by
  simp only [nsbPatches, overlay_cons, overlay_nil]
  refine ⟨fun k hk => ?_, fun k hk => ?_, fun k hk => ?_⟩
  · have hsize : k < nsbSize := hk.trans (by decide)
    rw [Patch.apply_of_not_covers (by simp only [Patch.Covers]; omega),
      Patch.apply_of_not_covers (by simp only [Patch.Covers]; omega),
      Patch.apply_of_covers (by simp only [Patch.Covers]; omega), Nat.sub_zero]
  · rw [Patch.apply_of_not_covers (by simp only [Patch.Covers]; omega),
      Patch.apply_of_covers (by simp only [Patch.Covers]; omega), Nat.add_sub_cancel_left]
  · rw [Patch.apply_of_covers (by simp only [Patch.Covers]; omega), Nat.add_sub_cancel_left]

lemma testBitMsb_nsbReadOf (page : Area) {p : ℕ} (hp : p < mptDirtyMapBits g) :
    testBitMsb p (nsbReadOf g page).mptVerMap = testBitMsb p fun k => page (nsbMapOff + k) := by
  simp [testBitMsb, nsbReadOf, div_lt_mptVerMapBytes hp]

lemma segmentMap_nsbReadOf (page : Area) {n : ℕ} (hn : n < g.mainSegmentNums) :
    (nsbReadOf g page).segmentMap n
      = (page (nsbMapOff + mptVerMapBytes g + n / 8)).getLsbD (n % 8) := by
  simp [nsbReadOf, div_lt_segmentMapBytes hn]

lemma strncmpEq_congr {a b c : Area} :
    ∀ {k i : ℕ}, (∀ j, i ≤ j → j < i + k → a j = b j) → strncmpEq a c i k = strncmpEq b c i k := by
  intro k
  induction k with
  | zero => simp [strncmpEq]
  | succ k ih =>
      intro i h
      have hi : a i = b i := h i le_rfl (by omega)
      have hrest : strncmpEq a c (i + 1) k = strncmpEq b c (i + 1) k :=
        ih fun j hj hj' => h j (by omega) (by omega)
      simp only [strncmpEq, hi, hrest]

/-- The bytes of a page that the reader looks at decide what it reads. -/
lemma DecodesTo.congr {fixed a b : Area} {r : NsbRecord} (hfit : NsbFits g)
    (hab : ∀ k < 4096, a k = b k) (h : DecodesTo g fixed a r) : DecodesTo g fixed b r := by
  unfold NsbFits at hfit
  have hoff : nsbMapOff = 60 := rfl
  obtain ⟨d, hd, hnsb, hfree, hver, hseg⟩ := h
  obtain ⟨hcmp, hd⟩ := Option.ite_none_right_eq_some.mp hd
  obtain rfl := Option.some.inj hd
  rw [strncmpEq_congr fun j _ hj => hab j (by omega)] at hcmp
  refine ⟨nsbReadOf g b, if_pos hcmp, fun k hk => ?_, ?_, fun p hp => ?_, fun n hn => ?_⟩
  · rw [← hnsb k hk]
    exact (hab k (by omega)).symm
  · rw [← hfree]
    refine getLe_congr fun k hk => (hab _ ?_).symm
    unfold freeNumsOff
    omega
  · have hp8 := div_lt_mptVerMapBytes hp
    rw [← hver p hp, testBitMsb_nsbReadOf b hp, testBitMsb_nsbReadOf a hp, testBitMsb, testBitMsb,
      hab _ (by omega)]
  · have hn8 := div_lt_segmentMapBytes hn
    rw [← hseg n hn, segmentMap_nsbReadOf b hn, segmentMap_nsbReadOf a hn, hab _ (by omega)]

/-- **What is flushed is what is read.** -/
lemma decodesTo_nvmFlushNsbPages (fixed page : Area) (x : MptStore)
    (hfree : x.nsbi.mainSegmentFreeNums < 2 ^ 32) :
    DecodesTo g fixed (nvmFlushNsbPages g fixed x page) x.nsbRecord := by
  obtain ⟨hnsb, hver, hseg⟩ := overlay_nsbPatches (g := g) fixed page x.nsbRecord
  have huuid : ∀ j, 0 ≤ j → j < 0 + 16 → nvmFlushNsbPages g fixed x page j = fixed j := by
    intro j _ hj
    rw [nvmFlushNsbPages, hnsb j (by unfold nsbMapOff; omega), nsbBytes]
    refine Patch.apply_of_not_covers ?_
    simp only [Patch.Covers, putLe_off, freeNumsOff]
    omega
  refine ⟨_, if_pos (strncmpEq_of_eq huuid), hnsb, ?_, fun p hp => ?_, fun n hn => ?_⟩
  · have hbytes : getLe (nvmFlushNsbPages g fixed x page) freeNumsOff 4
        = getLe (nsbBytes fixed x.nsbi.mainSegmentFreeNums) freeNumsOff 4 := by
      refine getLe_congr fun k hk => hnsb _ ?_
      unfold freeNumsOff nsbMapOff
      omega
    refine hbytes.trans ?_
    rw [nsbBytes, getLe_putLe]
    exact Nat.mod_eq_of_lt hfree
  · rw [testBitMsb_nsbReadOf _ hp, testBitMsb, testBitMsb, nvmFlushNsbPages,
      hver _ (div_lt_mptVerMapBytes hp)]
  · rw [segmentMap_nsbReadOf _ hn, nvmFlushNsbPages, hseg _ (div_lt_segmentMapBytes hn),
      longMapByte_getLsbD]

end Hoit
