import HoitF2fs.Lib.Bitmap
import HoitF2fs.Lib.WordBits

/-!
# Scanning a reversed bitmap

`f2fs_set_bit` puts bit 0 of a byte first, as the most significant one.  To find the next bit that
is set, `__find_rev_next_bit` reads the bitmap by words, reverses the bytes of each, so that **the
bits come in the order of their numbers from the most significant one on**, and masks off what is
before `offset` and behind `size`.

* `getMsbD_reverseUlong` — the order of the bits.
* `getMsbD_maskedWord` — the masks.
* `find_rev_next` — both scans find the first bit there is.
* `findRevNextBit_eq`, `findRevNextZeroBit_eq` — they are the searches of `HoitF2fs.Lib.Bitmap`,
  which stand for them where a bitmap is not kept in bytes.
-/

namespace Hoit.RevBits

open Bitmap WordBits

/-- `BITS_PER_LONG` is 32 or 64. -/
inductive LongWidth where
  | long32
  | long64
deriving DecidableEq

def LongWidth.log : LongWidth → ℕ
  | .long32 => 5
  | .long64 => 6

/-- `BITS_PER_LONG`. -/
def LongWidth.bits (b : LongWidth) : ℕ := 2 ^ b.log

/-- `sizeof(unsigned long)`. -/
def LongWidth.bytes (b : LongWidth) : ℕ := b.bits / 8

/-- `f2fs_test_bit`. -/
def f2fsTestBit (nr : ℕ) (addr : ℕ → BitVec 8) : Bool := testBitMsb nr addr

variable (b : LongWidth)

/-- `*p`, whose bytes begin at the least significant one. -/
def readUlong (str : ℕ → BitVec 8) : BitVec b.bits :=
  ofBytes b.bits (fun idx => 8 * idx) str b.bytes

/-- `__reverse_ulong`. -/
def reverseUlong (str : ℕ → BitVec 8) : BitVec b.bits :=
  ofBytes b.bits (fun idx => b.bits - 8 - 8 * idx) str b.bytes

/-- `__reverse_ffs`, which looks at the upper 32 bits first if there are 64, at the upper 16 of what
is left, and so on. -/
def reverseFfs (word : BitVec b.bits) : ℕ := leadingZeros b.log word

/-- `__reverse_ffz`. -/
def reverseFfz (word : BitVec b.bits) : ℕ := reverseFfs b (~~~word)

/-- The bytes from the `p`-th word on. -/
def wordAt (addr : ℕ → BitVec 8) (p : ℕ) : ℕ → BitVec 8 := fun i => addr (p * b.bytes + i)

lemma LongWidth.bits_pos : 0 < b.bits := by
  cases b <;> simp [bits, log]

/-- What `__find_rev_next_bit` looks at: a word without the bits before `offset` and behind
`size`. -/
def maskedWord (addr : ℕ → BitVec 8) (p size offset : ℕ) : BitVec b.bits :=
  let tmp := reverseUlong b (wordAt b addr p) &&& BitVec.allOnes b.bits >>> offset
  if size < b.bits then tmp &&& BitVec.allOnes b.bits <<< (b.bits - size) else tmp

/-- The loop of `__find_rev_next_bit`, at the `p`-th word. -/
def findRevNextBitFrom (addr : ℕ → BitVec 8) (result p size offset : ℕ) : ℕ :=
  let tmp := maskedWord b addr p size offset
  if readUlong b (wordAt b addr p) ≠ 0#b.bits ∧ tmp ≠ 0#b.bits then
    result - size + reverseFfs b tmp
  else if size ≤ b.bits then result
  else findRevNextBitFrom addr result (p + 1) (size - b.bits) 0
termination_by size
decreasing_by
  have hpos := b.bits_pos
  omega

/-- `__find_rev_next_bit`. -/
def findRevNextBit (addr : ℕ → BitVec 8) (size offset : ℕ) : ℕ :=
  if size ≤ offset then size
  else findRevNextBitFrom b addr size (offset / b.bits) (size - (offset - offset % b.bits))
    (offset % b.bits)

/-- What `__find_rev_next_zero_bit` looks at: a word with all of these bits. -/
def filledWord (addr : ℕ → BitVec 8) (p size offset : ℕ) : BitVec b.bits :=
  let tmp := reverseUlong b (wordAt b addr p)
  let tmp := if offset ≠ 0 then tmp ||| BitVec.allOnes b.bits <<< (b.bits - offset) else tmp
  if size < b.bits then tmp ||| BitVec.allOnes b.bits >>> size else tmp

/-- The loop of `__find_rev_next_zero_bit`. -/
def findRevNextZeroBitFrom (addr : ℕ → BitVec 8) (result p size offset : ℕ) : ℕ :=
  let tmp := filledWord b addr p size offset
  if readUlong b (wordAt b addr p) ≠ BitVec.allOnes b.bits ∧ tmp ≠ BitVec.allOnes b.bits then
    result - size + reverseFfz b tmp
  else if size ≤ b.bits then result
  else findRevNextZeroBitFrom addr result (p + 1) (size - b.bits) 0
termination_by size
decreasing_by
  have hpos := b.bits_pos
  omega

/-- `__find_rev_next_zero_bit`. -/
def findRevNextZeroBit (addr : ℕ → BitVec 8) (size offset : ℕ) : ℕ :=
  if size ≤ offset then size
  else findRevNextZeroBitFrom b addr size (offset / b.bits) (size - (offset - offset % b.bits))
    (offset % b.bits)

/-! ## The order of the bits -/

variable {b} {addr : ℕ → BitVec 8} {p size offset result i : ℕ}

lemma LongWidth.bits_eq (b : LongWidth) : b.bits = 8 * b.bytes := by
  cases b <;> rfl

/-- Bit `i` of the word, from the most significant one on, is bit `i` of its bytes. -/
lemma getMsbD_reverseUlong (str : ℕ → BitVec 8) (hi : i < b.bits) :
    (reverseUlong b str).getMsbD i = testBitMsb i str := by
  have hbits := b.bits_eq
  have hplace : b.bits - 1 - i = b.bits - 8 - 8 * (i / 8) + (7 - i % 8) := by omega
  rw [testBitMsb_eq, BitVec.getMsbD, hplace, reverseUlong,
    getLsbD_ofBytes_of_apart (by omega) (by omega) (by omega) fun k hk hne => by omega]
  simp [hi]

lemma testBitMsb_wordAt :
    testBitMsb i (wordAt b addr p) = testBitMsb (p * b.bits + i) addr := by
  have hbits := b.bits_eq
  have hdiv : (p * b.bits + i) / 8 = p * b.bytes + i / 8 := by
    rw [hbits, Nat.mul_left_comm]
    omega
  have hmod : (p * b.bits + i) % 8 = i % 8 := by
    rw [hbits, Nat.mul_left_comm]
    omega
  rw [testBitMsb_eq, testBitMsb_eq, hdiv, hmod, wordAt]

/-- A bit of the word as it is read. -/
lemma getLsbD_readUlong (str : ℕ → BitVec 8) {idx k : ℕ} (hidx : idx < b.bytes) (hk : k < 8) :
    (readUlong b str).getLsbD (8 * idx + k) = (str idx).getLsbD k := by
  have hbits := b.bits_eq
  exact getLsbD_ofBytes_of_apart hidx hk (by omega) fun i hi hne => by omega

/-- A word of the same bits everywhere is read as it is reversed. -/
lemma getMsbD_of_readUlong {str : ℕ → BitVec 8} {v : Bool}
    (h : ∀ j < b.bits, (readUlong b str).getLsbD j = v) (hi : i < b.bits) :
    (reverseUlong b str).getMsbD i = v := by
  have hbits := b.bits_eq
  rw [getMsbD_reverseUlong str hi, testBitMsb_eq,
    ← getLsbD_readUlong str (b := b) (by omega) (by omega)]
  exact h _ (by omega)

lemma reverseUlong_eq_zero {str : ℕ → BitVec 8} (h : readUlong b str = 0#b.bits) :
    reverseUlong b str = 0#b.bits := by
  refine BitVec.eq_of_getMsbD_eq fun i hi => ?_
  simpa using getMsbD_of_readUlong (v := false) (fun j hj => by simp [h]) hi

lemma reverseUlong_eq_allOnes {str : ℕ → BitVec 8} (h : readUlong b str = BitVec.allOnes b.bits) :
    reverseUlong b str = BitVec.allOnes b.bits := by
  refine BitVec.eq_of_getMsbD_eq fun i hi => ?_
  simpa [hi] using getMsbD_of_readUlong (v := true) (fun j hj => by simp [h, hj]) hi

/-! ## The masks -/

lemma getMsbD_maskedWord (hi : i < b.bits) :
    (maskedWord b addr p size offset).getMsbD i
      = (testBitMsb (p * b.bits + i) addr && decide (offset ≤ i) && decide (i < size)) := by
  have hhead : (reverseUlong b (wordAt b addr p) &&& BitVec.allOnes b.bits >>> offset).getMsbD i
      = (testBitMsb (p * b.bits + i) addr && decide (offset ≤ i)) := by
    rw [BitVec.getMsbD_and, getMsbD_reverseUlong _ hi, testBitMsb_wordAt,
      BitVec.getMsbD_ushiftRight, BitVec.getMsbD_allOnes]
    congr 1
    rw [Bool.eq_iff_iff]
    simp only [Bool.and_eq_true, Bool.not_eq_true', decide_eq_true_eq, decide_eq_false_iff_not]
    omega
  unfold maskedWord
  dsimp only
  split_ifs with hsize
  · rw [BitVec.getMsbD_and, hhead, BitVec.getMsbD_shiftLeft, BitVec.getMsbD_allOnes]
    congr 1
    rw [Bool.eq_iff_iff, decide_eq_true_eq, decide_eq_true_eq]
    omega
  · have hlt : i < size := by omega
    simp [hhead, hlt]

lemma getMsbD_filledWord (hi : i < b.bits) (hoff : offset < b.bits) :
    (filledWord b addr p size offset).getMsbD i
      = (testBitMsb (p * b.bits + i) addr || decide (i < offset) || decide (size ≤ i)) := by
  have hhead : (if offset ≠ 0 then reverseUlong b (wordAt b addr p) |||
        BitVec.allOnes b.bits <<< (b.bits - offset)
      else reverseUlong b (wordAt b addr p)).getMsbD i
      = (testBitMsb (p * b.bits + i) addr || decide (i < offset)) := by
    split_ifs with hzero
    · rw [BitVec.getMsbD_or, getMsbD_reverseUlong _ hi, testBitMsb_wordAt,
        BitVec.getMsbD_shiftLeft, BitVec.getMsbD_allOnes]
      congr 1
      rw [Bool.eq_iff_iff, decide_eq_true_eq, decide_eq_true_eq]
      omega
    · simp [getMsbD_reverseUlong _ hi, testBitMsb_wordAt, not_not.mp hzero]
  unfold filledWord
  dsimp only
  by_cases hsize : size < b.bits
  · rw [if_pos hsize, BitVec.getMsbD_or, hhead, BitVec.getMsbD_ushiftRight, BitVec.getMsbD_allOnes]
    congr 1
    rw [Bool.eq_iff_iff]
    simp only [Bool.and_eq_true, Bool.not_eq_true', decide_eq_true_eq, decide_eq_false_iff_not]
    omega
  · have hlt : ¬ size ≤ i := by omega
    rw [if_neg hsize, hhead]
    simp [hlt]

/-! ## The scans -/

/-- `r` is the first of the bits from `offset` on and below `size` that is `v`, or `size` if there
is none. -/
def IsNextBit (addr : ℕ → BitVec 8) (v : Bool) (size offset r : ℕ) : Prop :=
  IsLeast {i | offset ≤ i ∧ i < size ∧ f2fsTestBit i addr = v} r ∨
    r = size ∧ ∀ i, offset ≤ i → i < size → f2fsTestBit i addr ≠ v

lemma reverseFfs_spec {word : BitVec b.bits} (hne : word ≠ 0#b.bits) :
    reverseFfs b word < b.bits ∧ word.getMsbD (reverseFfs b word) = true ∧
      ∀ i < reverseFfs b word, word.getMsbD i = false :=
  leadingZeros_spec hne

/-- The bits of the word are those of the bitmap that are `v`, from `offset` on and below `size`. -/
def Selects (tmp : BitVec b.bits) (addr : ℕ → BitVec 8) (v : Bool) (p size offset : ℕ) : Prop :=
  ∀ i < b.bits, tmp.getMsbD i = true ↔
    offset ≤ i ∧ i < size ∧ testBitMsb (p * b.bits + i) addr = v

variable {v : Bool} {tmp : BitVec b.bits}

/-- **A word that has such a bit**, as it has its own in the same order. -/
lemma Selects.found (h : Selects tmp addr v p size offset) (hne : tmp ≠ 0#b.bits) :
    IsNextBit addr v (p * b.bits + size) (p * b.bits + offset)
      (p * b.bits + reverseFfs b tmp) := by
  obtain ⟨hlt, hset, hmin⟩ := reverseFfs_spec hne
  obtain ⟨hoff, hsize, hbit⟩ := (h _ hlt).mp hset
  refine Or.inl ⟨⟨by omega, by omega, hbit⟩, ?_⟩
  rintro j ⟨hoffj, hsizej, hbitj⟩
  by_contra hj
  obtain ⟨k, rfl⟩ : ∃ k, j = p * b.bits + k := ⟨j - p * b.bits, by omega⟩
  have hk : k < reverseFfs b tmp := by omega
  have htrue := (h k (by omega)).mpr ⟨by omega, by omega, hbitj⟩
  rw [hmin k hk] at htrue
  exact absurd htrue Bool.false_ne_true

/-- A word that has none. -/
lemma Selects.none (h : Selects tmp addr v p size offset) (hzero : tmp = 0#b.bits) {j : ℕ}
    (hoff : p * b.bits + offset ≤ j) (hsize : j < p * b.bits + size)
    (hword : j < p * b.bits + b.bits) : testBitMsb j addr ≠ v := by
  obtain ⟨k, rfl⟩ : ∃ k, j = p * b.bits + k := ⟨j - p * b.bits, by omega⟩
  intro hbit
  have htrue := (h k (by omega)).mpr ⟨by omega, by omega, hbit⟩
  rw [hzero, BitVec.getMsbD_zero] at htrue
  exact absurd htrue Bool.false_ne_true

/-- The last word has none. -/
lemma Selects.last (h : Selects tmp addr v p size offset) (hzero : tmp = 0#b.bits)
    (hlast : size ≤ b.bits) :
    IsNextBit addr v (p * b.bits + size) (p * b.bits + offset) (p * b.bits + size) :=
  Or.inr ⟨rfl, fun _ hoff hsize => h.none hzero hoff hsize (by omega)⟩

/-- A word has none, and the scan goes on with the next one. -/
lemma Selects.next {r : ℕ} (h : Selects tmp addr v p size offset) (hzero : tmp = 0#b.bits)
    (hoff : offset < b.bits)
    (hnext : IsNextBit addr v (p * b.bits + size) ((p + 1) * b.bits) r) :
    IsNextBit addr v (p * b.bits + size) (p * b.bits + offset) r := by
  have hword : (p + 1) * b.bits = p * b.bits + b.bits := by rw [Nat.add_mul, Nat.one_mul]
  rw [hword] at hnext
  rcases hnext with ⟨⟨hoffr, hsizer, hbit⟩, hmin⟩ | ⟨hr, hall⟩
  · refine Or.inl ⟨⟨by omega, hsizer, hbit⟩, ?_⟩
    rintro j ⟨hoffj, hsizej, hbitj⟩
    by_contra hj
    by_cases hlt : j < p * b.bits + b.bits
    · exact h.none hzero hoffj hsizej hlt hbitj
    · exact hj (hmin ⟨not_lt.mp hlt, hsizej, hbitj⟩)
  · refine Or.inr ⟨hr, fun j hoffj hsizej => ?_⟩
    by_cases hlt : j < p * b.bits + b.bits
    · exact h.none hzero hoffj hsizej hlt
    · exact hall j (not_lt.mp hlt) hsizej

lemma selects_maskedWord : Selects (maskedWord b addr p size offset) addr true p size offset := by
  intro i hi
  rw [getMsbD_maskedWord hi]
  simp only [Bool.and_eq_true, decide_eq_true_eq]
  tauto

lemma selects_filledWord (hoff : offset < b.bits) :
    Selects (~~~filledWord b addr p size offset) addr false p size offset := by
  intro i hi
  rw [BitVec.getMsbD_not, getMsbD_filledWord hi hoff]
  simp only [hi, decide_true, Bool.true_and, Bool.not_eq_true', Bool.or_eq_false_iff,
    decide_eq_false_iff_not, not_lt, not_le]
  tauto

/-- A word that is skipped has no bit under the mask. -/
lemma maskedWord_eq_zero (h : ¬ (readUlong b (wordAt b addr p) ≠ 0#b.bits ∧
    maskedWord b addr p size offset ≠ 0#b.bits)) : maskedWord b addr p size offset = 0#b.bits := by
  by_contra hne
  refine h ⟨fun h0 => hne ?_, hne⟩
  simp [maskedWord, reverseUlong_eq_zero h0]

lemma filledWord_eq_allOnes (h : ¬ (readUlong b (wordAt b addr p) ≠ BitVec.allOnes b.bits ∧
    filledWord b addr p size offset ≠ BitVec.allOnes b.bits)) :
    filledWord b addr p size offset = BitVec.allOnes b.bits := by
  by_contra hne
  refine h ⟨fun h1 => hne ?_, hne⟩
  simp [filledWord, reverseUlong_eq_allOnes h1]

/-- The next word begins where this one ends. -/
lemma next_word (hsize : b.bits < size) :
    (p + 1) * b.bits + (size - b.bits) = p * b.bits + size := by
  rw [Nat.add_mul, Nat.one_mul]
  omega

/-- **The loop of `__find_rev_next_bit`.** -/
lemma findRevNextBitFrom_spec (addr : ℕ → BitVec 8) (p size : ℕ) (hoff : offset < b.bits) :
    IsNextBit addr true (p * b.bits + size) (p * b.bits + offset)
      (findRevNextBitFrom b addr (p * b.bits + size) p size offset) := by
  induction size using Nat.strong_induction_on generalizing p offset with
  | _ size ih =>
      have htmp : Selects (maskedWord b addr p size offset) addr true p size offset :=
        selects_maskedWord
      have hpos := b.bits_pos
      rw [findRevNextBitFrom]
      split_ifs with hfound hlast
      · rw [Nat.add_sub_cancel]
        exact htmp.found hfound.2
      · exact htmp.last (maskedWord_eq_zero hfound) hlast
      · have hrest := ih (size - b.bits) (by omega) (p + 1) hpos
        rw [next_word (not_le.mp hlast), Nat.add_zero] at hrest
        exact htmp.next (maskedWord_eq_zero hfound) hoff hrest

/-- **The loop of `__find_rev_next_zero_bit`.** -/
lemma findRevNextZeroBitFrom_spec (addr : ℕ → BitVec 8) (p size : ℕ) (hoff : offset < b.bits) :
    IsNextBit addr false (p * b.bits + size) (p * b.bits + offset)
      (findRevNextZeroBitFrom b addr (p * b.bits + size) p size offset) := by
  induction size using Nat.strong_induction_on generalizing p offset with
  | _ size ih =>
      have htmp : Selects (~~~filledWord b addr p size offset) addr false p size offset :=
        selects_filledWord hoff
      have hpos := b.bits_pos
      have hzero : ∀ w : BitVec b.bits, ~~~w = 0#b.bits ↔ w = BitVec.allOnes b.bits := by
        intro w
        rw [← BitVec.not_allOnes, BitVec.not_inj]
      rw [findRevNextZeroBitFrom]
      split_ifs with hfound hlast
      · rw [Nat.add_sub_cancel]
        exact htmp.found (mt (hzero _).mp hfound.2)
      · exact htmp.last ((hzero _).mpr (filledWord_eq_allOnes hfound)) hlast
      · have hrest := ih (size - b.bits) (by omega) (p + 1) hpos
        rw [next_word (not_le.mp hlast), Nat.add_zero] at hrest
        exact htmp.next ((hzero _).mpr (filledWord_eq_allOnes hfound)) hoff hrest

lemma isNextBit_of_le (addr : ℕ → BitVec 8) (v : Bool) (hle : size ≤ offset) :
    IsNextBit addr v size offset size :=
  Or.inr ⟨rfl, fun j hoff hsize => by omega⟩

/-- A scan starts at the beginning of a word. -/
lemma scan_start (hlt : offset < size) :
    offset - offset % b.bits = offset / b.bits * b.bits ∧
      offset / b.bits * b.bits + (size - offset / b.bits * b.bits) = size := by
  have hdiv : offset / b.bits * b.bits + offset % b.bits = offset := Nat.div_add_mod' _ _
  omega

lemma findRevNextBit_isNextBit (b : LongWidth) (addr : ℕ → BitVec 8) (size offset : ℕ) :
    IsNextBit addr true size offset (findRevNextBit b addr size offset) := by
  unfold findRevNextBit
  split_ifs with hle
  · exact isNextBit_of_le addr true hle
  · obtain ⟨hbase, hsize⟩ := scan_start (b := b) (not_le.mp hle)
    have h := findRevNextBitFrom_spec addr (offset / b.bits) (size - offset / b.bits * b.bits)
      (Nat.mod_lt offset b.bits_pos)
    rw [hsize, Nat.div_add_mod'] at h
    rwa [hbase]

lemma findRevNextZeroBit_isNextBit (b : LongWidth) (addr : ℕ → BitVec 8) (size offset : ℕ) :
    IsNextBit addr false size offset (findRevNextZeroBit b addr size offset) := by
  unfold findRevNextZeroBit
  split_ifs with hle
  · exact isNextBit_of_le addr false hle
  · obtain ⟨hbase, hsize⟩ := scan_start (b := b) (not_le.mp hle)
    have h := findRevNextZeroBitFrom_spec addr (offset / b.bits) (size - offset / b.bits * b.bits)
      (Nat.mod_lt offset b.bits_pos)
    rw [hsize, Nat.div_add_mod'] at h
    rwa [hbase]

/-- **Both scans find the first bit there is**, on a machine of either width. -/
theorem find_rev_next (b : LongWidth) (addr : ℕ → BitVec 8) (size offset : ℕ) :
    IsNextBit addr true size offset (findRevNextBit b addr size offset) ∧
      IsNextBit addr false size offset (findRevNextZeroBit b addr size offset) :=
  ⟨findRevNextBit_isNextBit b addr size offset, findRevNextZeroBit_isNextBit b addr size offset⟩

/-! ## The searches of the bitmaps -/

lemma IsNextBit.unique {r r' : ℕ} (h : IsNextBit addr v size offset r)
    (h' : IsNextBit addr v size offset r') : r = r' := by
  rcases h with hleast | ⟨rfl, hnone⟩
  · rcases h' with hleast' | ⟨rfl, hnone'⟩
    · exact hleast.unique hleast'
    · exact absurd hleast.1.2.2 (hnone' r hleast.1.1 hleast.1.2.1)
  · rcases h' with hleast' | ⟨rfl, -⟩
    · exact absurd hleast'.1.2.2 (hnone r' hleast'.1.1 hleast'.1.2.1)
    · rfl

lemma isNextBit_findNextZeroBit (addr : ℕ → BitVec 8) (size offset : ℕ) :
    IsNextBit addr false size offset
      (findNextZeroBit (fun i => testBitMsb i addr) size offset) := by
  by_cases hlt : findNextZeroBit (fun i => testBitMsb i addr) size offset < size
  · have hoff : offset ≤ findNextZeroBit (fun i => testBitMsb i addr) size offset := by
      by_cases hle : offset ≤ size
      · exact le_findNextZeroBit hle
      · have hend : size - offset = 0 := by omega
        rw [findNextZeroBit, hend, searchZero] at hlt
        exact absurd hlt (lt_irrefl size)
    refine Or.inl ⟨⟨hoff, hlt, findNextZeroBit_clear hlt⟩, ?_⟩
    rintro j ⟨hoffj, -, hbit⟩
    by_contra hj
    have hset := findNextZeroBit_min hoffj (not_le.mp hj)
    exact absurd (hset.symm.trans hbit) (by simp)
  · have hle := findNextZeroBit_le (fun i => testBitMsb i addr) size offset
    refine Or.inr ⟨le_antisymm hle (not_lt.mp hlt), fun j hoff hsize hbit => ?_⟩
    exact hlt (findNextZeroBit_lt hoff hsize hbit)

/-- The scan is the search for a clear bit. -/
lemma findRevNextZeroBit_eq (b : LongWidth) (addr : ℕ → BitVec 8) (size offset : ℕ) :
    findRevNextZeroBit b addr size offset
      = findNextZeroBit (fun i => testBitMsb i addr) size offset :=
  (findRevNextZeroBit_isNextBit b addr size offset).unique
    (isNextBit_findNextZeroBit addr size offset)

lemma isNextBit_findNextBit (addr : ℕ → BitVec 8) (size offset : ℕ) :
    IsNextBit addr true size offset (findNextBit (fun i => testBitMsb i addr) size offset) := by
  by_cases hlt : findNextBit (fun i => testBitMsb i addr) size offset < size
  · refine Or.inl ⟨⟨le_findNextBit hlt, hlt, findNextBit_set hlt⟩, ?_⟩
    rintro j ⟨hoffj, -, hbit⟩
    by_contra hj
    have hclear := findNextBit_min hoffj (not_le.mp hj)
    exact absurd (hclear.symm.trans hbit) (by simp)
  · have hle : findNextBit (fun i => testBitMsb i addr) size offset ≤ size :=
      findNextZeroBit_le _ _ _
    refine Or.inr ⟨le_antisymm hle (not_lt.mp hlt), fun j hoff hsize hbit => ?_⟩
    exact hlt (findNextBit_lt hoff hsize hbit)

/-- The scan is the search for a set bit. -/
lemma findRevNextBit_eq (b : LongWidth) (addr : ℕ → BitVec 8) (size offset : ℕ) :
    findRevNextBit b addr size offset = findNextBit (fun i => testBitMsb i addr) size offset :=
  (findRevNextBit_isNextBit b addr size offset).unique (isNextBit_findNextBit addr size offset)

end Hoit.RevBits
