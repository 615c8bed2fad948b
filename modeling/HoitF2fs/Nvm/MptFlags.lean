import HoitF2fs.Nvm.Mpt

/-!
# Writing one flag of an entry

`nvm.h` has five functions that change one flag of an entry in place.  The two that set a flag are
an `or`.  The two that clear one shift the flag out at the low end and back, and put the bits below
it back with a second mask; the number of places they shift by is the flag itself, `rw_redirect` or
`rw_double`, **not the position of its bit**.

For `rw_redirect`, which is 2, both masks meet at the right bit.  For `rw_double`, which is 4, the
shift takes bit 2 and bit 3 out and the mask puts neither back, and bit 3 is the lowest bit of the
segment offset.

* `clearFlag_getLsbD` — what a clear leaves of an entry, for any flag of the form `2 ^ m`.
* `MptFields` — an entry as its four fields.
* `flag_writers_exact_iff` — every flag writer changes its own flag only, **iff** the offset in the
  entry is even.
-/

namespace Hoit

/-! ## The flag writers of `nvm.h` -/

/-- Shifting right and left by `flag` places, with the bits under the mask `flag - 1` put back. -/
def clearFlag (flag entry : BitVec 32) : BitVec 32 :=
  let low := entry &&& (flag - 1#32)
  ((entry >>> flag.toNat) <<< flag.toNat) ||| low

def setMapFlag (mpt : Mpt) (index : ℕ) : Mpt := Function.update mpt index (mpt index ||| rwMap)

def setRedirectFlag (mpt : Mpt) (index : ℕ) : Mpt :=
  Function.update mpt index (mpt index ||| rwRedirect)

def clearRedirectFlag (mpt : Mpt) (index : ℕ) : Mpt :=
  Function.update mpt index (clearFlag rwRedirect (mpt index))

def clearDoubleFlag (mpt : Mpt) (index : ℕ) : Mpt :=
  Function.update mpt index (clearFlag rwDouble (mpt index))

/-! ## Entries, bit by bit -/

variable {mpt : Mpt} {i v m : ℕ} {e e' f : BitVec 32}

lemma twoPow_sub_one_getLsbD (hm : m < 32) (k : ℕ) :
    (BitVec.twoPow 32 m - 1#32).getLsbD k = decide (k < m) := by
  have hpow : 2 ^ m < 2 ^ 32 := Nat.pow_lt_pow_right (by decide) hm
  have hpos : 0 < 2 ^ m := Nat.two_pow_pos m
  have hword : (BitVec.twoPow 32 m - 1#32).toNat = 2 ^ m - 1 := by
    rw [BitVec.toNat_sub, BitVec.toNat_twoPow_of_lt hm]
    simp only [BitVec.toNat_ofNat]
    omega
  rw [BitVec.getLsbD, hword, Nat.testBit_two_pow_sub_one]

/-- **What a clear leaves of an entry**: the bits below `m` come back from the mask, those from
`2 ^ m` on survive the shift, and those in between are gone. -/
lemma clearFlag_getLsbD (hm : m < 32) (e : BitVec 32) (k : ℕ) :
    (clearFlag (BitVec.twoPow 32 m) e).getLsbD k
      = (e.getLsbD k && (decide (k < m) || decide (2 ^ m ≤ k))) := by
  have hflag : (BitVec.twoPow 32 m).toNat = 2 ^ m := BitVec.toNat_twoPow_of_lt hm
  rw [clearFlag, hflag, BitVec.getLsbD_or, BitVec.getLsbD_and, twoPow_sub_one_getLsbD hm,
    BitVec.getLsbD_shiftLeft, BitVec.getLsbD_ushiftRight]
  rcases Nat.lt_or_ge k (2 ^ m) with hk | hk
  · simp [hk, Nat.not_le.mpr hk]
  · rcases Nat.lt_or_ge k 32 with h32 | h32
    · rw [Nat.add_sub_cancel' hk]
      cases e.getLsbD k <;> simp [hk, h32, Nat.not_lt.mpr hk]
    · have hhigh : e.getLsbD k = false := BitVec.getLsbD_of_ge e k h32
      simp [hhigh, Nat.not_lt.mpr h32]

/-- The fields of an entry. -/
structure MptFields where
  value : ℕ
  mapped : Bool
  redirect : Bool
  double : Bool
deriving DecidableEq

/-- An entry as its four fields, read with the getters. -/
def mptFields (mpt : Mpt) (index : ℕ) : MptFields :=
  ⟨getMptValue mpt index, getMapFlag mpt index, getRedirectFlag mpt index, getDoubleFlag mpt index⟩

/-- The fields, from the bits of the word. -/
lemma mptFields_eq (mpt : Mpt) (i : ℕ) :
    mptFields mpt i = ⟨(mpt i >>> rwBits).toNat, (mpt i).getLsbD 0, (mpt i).getLsbD 1,
      (mpt i).getLsbD 2⟩ := by
  rw [mptFields, getMapFlag_eq, getRedirectFlag_eq, getDoubleFlag_eq]
  rfl

/-- Two words have the same value field iff they agree from bit 3 on. -/
lemma value_eq_iff : (e' >>> rwBits).toNat = (e >>> rwBits).toNat ↔
    ∀ k, 3 ≤ k → k < 32 → e'.getLsbD k = e.getLsbD k := by
  rw [← BitVec.toNat_eq]
  constructor
  · intro h k hk _
    have hbit := congrArg (fun x : BitVec 32 => x.getLsbD (k - 3)) h
    simp only [rwBits, BitVec.getLsbD_ushiftRight] at hbit
    rwa [Nat.add_sub_cancel' hk] at hbit
  · intro h
    apply BitVec.eq_of_getLsbD_eq
    intro k _
    rw [BitVec.getLsbD_ushiftRight, BitVec.getLsbD_ushiftRight]
    rcases Nat.lt_or_ge (rwBits + k) 32 with h32 | h32
    · exact h (rwBits + k) (Nat.le_add_right 3 k) h32
    · rw [BitVec.getLsbD_of_ge _ _ h32, BitVec.getLsbD_of_ge _ _ h32]

/-- The offset is even iff bit 3 of the word is clear. -/
lemma getMptValue_even_iff (mpt : Mpt) (i : ℕ) :
    getMptValue mpt i % 2 = 0 ↔ (mpt i).getLsbD 3 = false := by
  have hbit : (mpt i).getLsbD 3 = decide (getMptValue mpt i % 2 = 1) := by
    have h := BitVec.getLsbD_ushiftRight (mpt i) 3 0
    rw [Nat.add_zero] at h
    rw [← h, BitVec.getLsbD, Nat.testBit_zero]
    rfl
  rw [hbit, decide_eq_false_iff_not]
  omega

/-! ## Each writer -/

lemma mptFields_update (e : BitVec 32) : mptFields (Function.update mpt i e) i
    = ⟨(e >>> rwBits).toNat, e.getLsbD 0, e.getLsbD 1, e.getLsbD 2⟩ := by
  rw [mptFields_eq, Function.update_self]

/-- A flag that is set by an `or`. -/
lemma mptFields_or (hf : IsRwFlag f) :
    mptFields (Function.update mpt i (mpt i ||| f)) i
      = ⟨getMptValue mpt i, getMapFlag mpt i || f.getLsbD 0, getRedirectFlag mpt i || f.getLsbD 1,
        getDoubleFlag mpt i || f.getLsbD 2⟩ := by
  have hvalue : ((mpt i ||| f) >>> rwBits).toNat = (mpt i >>> rwBits).toNat := by
    refine value_eq_iff.mpr fun k hk _ => ?_
    rw [BitVec.getLsbD_or, isRwFlag_getLsbD hf hk, Bool.or_false]
  rw [mptFields_update, hvalue, getMapFlag_eq, getRedirectFlag_eq, getDoubleFlag_eq,
    BitVec.getLsbD_or, BitVec.getLsbD_or, BitVec.getLsbD_or]
  rfl

lemma mptFields_setMapFlag (mpt : Mpt) (i : ℕ) :
    mptFields (setMapFlag mpt i) i = { mptFields mpt i with mapped := true } := by
  rw [setMapFlag, mptFields_or (by decide)]
  simp [mptFields, rwMap]

lemma mptFields_setRedirectFlag (mpt : Mpt) (i : ℕ) :
    mptFields (setRedirectFlag mpt i) i = { mptFields mpt i with redirect := true } := by
  rw [setRedirectFlag, mptFields_or (by decide)]
  simp [mptFields, rwRedirect]

lemma mptFields_setDoubleFlag (mpt : Mpt) (i : ℕ) :
    mptFields (setDoubleFlag mpt i) i = { mptFields mpt i with double := true } := by
  rw [setDoubleFlag, mptFields_or (by decide)]
  simp [mptFields, rwDouble]

lemma rwRedirect_eq : rwRedirect = BitVec.twoPow 32 1 := by decide

lemma rwDouble_eq : rwDouble = BitVec.twoPow 32 2 := by decide

/-- The two places by which `clear_redirect_flag` shifts are one too many, and the mask makes up
for it. -/
lemma mptFields_clearRedirectFlag (mpt : Mpt) (i : ℕ) :
    mptFields (clearRedirectFlag mpt i) i = { mptFields mpt i with redirect := false } := by
  have hbit := clearFlag_getLsbD (show 1 < 32 by decide) (mpt i)
  have hvalue : (clearFlag rwRedirect (mpt i) >>> rwBits).toNat = (mpt i >>> rwBits).toNat := by
    refine value_eq_iff.mpr fun k hk _ => ?_
    have hle : 2 ^ 1 ≤ k := by omega
    rw [rwRedirect_eq, hbit]
    simp only [hle, decide_true, Bool.or_true, Bool.and_true]
  rw [clearRedirectFlag, mptFields_update, hvalue, mptFields_eq, rwRedirect_eq, hbit, hbit, hbit]
  simp

/-- The four places by which `clear_double_flag` shifts are two too many, and the mask makes up
for one. -/
lemma mptFields_clearDoubleFlag_iff (mpt : Mpt) (i : ℕ) :
    mptFields (clearDoubleFlag mpt i) i = { mptFields mpt i with double := false } ↔
      getMptValue mpt i % 2 = 0 := by
  have hbit := clearFlag_getLsbD (show 2 < 32 by decide) (mpt i)
  have hvalue : (clearFlag rwDouble (mpt i) >>> rwBits).toNat = (mpt i >>> rwBits).toNat ↔
      (mpt i).getLsbD 3 = false := by
    rw [value_eq_iff, rwDouble_eq]
    constructor
    · intro h
      have h3 := h 3 le_rfl (by decide)
      rw [hbit] at h3
      simpa using h3.symm
    · intro h k hk _
      rw [hbit]
      rcases Nat.eq_or_lt_of_le hk with rfl | hlt
      · rw [h, Bool.false_and]
      · have hle : 2 ^ 2 ≤ k := by omega
        simp only [hle, decide_true, Bool.or_true, Bool.and_true]
  rw [getMptValue_even_iff, ← hvalue, clearDoubleFlag, mptFields_update, mptFields_eq]
  rw [rwDouble_eq, hbit, hbit, hbit]
  simp

/-- What is stored in an entry is what is read back. -/
lemma mptFields_setMptEntry (mpt : Mpt) (i : ℕ) (hv : v < 2 ^ 29) (hf : IsRwFlag f) :
    mptFields (setMptEntry mpt i v f) i
      = ⟨v, f.getLsbD 0, f.getLsbD 1, f.getLsbD 2⟩ := by
  obtain ⟨hmap, hredirect, hdouble⟩ := flags_of_entryFlags (@entryFlags_setMptEntry mpt i v _ hf)
  rw [mptFields, getMptValue_setMptEntry hv hf, hmap, hredirect, hdouble]

/-! ## The codec -/

/-- Each of the five writers changes its own flag of entry `i` and no other field. -/
structure FlagWritersExact (mpt : Mpt) (i : ℕ) : Prop where
  setMap : mptFields (setMapFlag mpt i) i = { mptFields mpt i with mapped := true }
  setRedirect : mptFields (setRedirectFlag mpt i) i = { mptFields mpt i with redirect := true }
  setDouble : mptFields (setDoubleFlag mpt i) i = { mptFields mpt i with double := true }
  clearRedirect : mptFields (clearRedirectFlag mpt i) i = { mptFields mpt i with redirect := false }
  clearDouble : mptFields (clearDoubleFlag mpt i) i = { mptFields mpt i with double := false }

/-- **An entry is read back as it was stored, and the flag writers are exact iff its offset is
even.** -/
theorem flag_writers_exact_iff (mpt : Mpt) (i : ℕ) :
    (∀ (v : ℕ) (f : BitVec 32), v < 2 ^ 29 → IsRwFlag f →
      mptFields (setMptEntry mpt i v f) i = ⟨v, f.getLsbD 0, f.getLsbD 1, f.getLsbD 2⟩) ∧
    (FlagWritersExact mpt i ↔ getMptValue mpt i % 2 = 0) := by
  refine ⟨fun v f hv hf => mptFields_setMptEntry mpt i hv hf, ?_⟩
  rw [← mptFields_clearDoubleFlag_iff]
  constructor
  · exact fun h => h.clearDouble
  · exact fun h => ⟨mptFields_setMapFlag mpt i, mptFields_setRedirectFlag mpt i,
      mptFields_setDoubleFlag mpt i, mptFields_clearRedirectFlag mpt i, h⟩

/-- Segment 1, mapped, redirected and on both devices. -/
def oddEntry : Mpt := fun _ => (BitVec.ofNat 32 1 <<< rwBits) ||| rwMap ||| rwRedirect ||| rwDouble

theorem clear_double_changes_segment :
    mptFields oddEntry 0 = ⟨1, true, true, true⟩ ∧
      mptFields (clearDoubleFlag oddEntry 0) 0 = ⟨0, true, true, false⟩ ∧
      ¬ FlagWritersExact oddEntry 0 := by
  have hafter : mptFields (clearDoubleFlag oddEntry 0) 0 = ⟨0, true, true, false⟩ := by
    decide +kernel
  refine ⟨by decide +kernel, hafter, fun h => ?_⟩
  have hclear := h.clearDouble
  rw [hafter] at hclear
  exact absurd hclear (by decide +kernel)

/-- The last offset that fits, with all flags. -/
theorem flag_writers_exact_iff_last :
    mptFields (setMptEntry (fun _ => 0#32) 5 (2 ^ 29 - 1) 7#32) 5
      = ⟨2 ^ 29 - 1, true, true, true⟩ ∧
    (FlagWritersExact (fun _ => 16#32) 5 ↔ getMptValue (fun _ => 16#32) 5 % 2 = 0) :=
  ⟨(flag_writers_exact_iff _ 5).1 (2 ^ 29 - 1) 7#32 (by decide) (by decide),
    (flag_writers_exact_iff _ 5).2⟩

end Hoit
