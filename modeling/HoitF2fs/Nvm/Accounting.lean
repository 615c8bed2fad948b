import HoitF2fs.Nvm.SegmentMap

/-!
# Two invariants of the segment layer, operation by operation

`Accounted` is what the code keeps under **every** interleaving: the counter counts the clear
bits, a set bit belongs to a mapped segment or to a segment some thread is *holding* (between its
allocation and its `create_mapping` or release), and the SSD half of the table is injective.

`MptBijection` is the stronger property the table is meant to have: its two halves are mutually
inverse, with equal flags, and a free SSD segment is unmapped.

Both are stated over the state alone, without threads: `held t` is the segment that thread `t`
holds.  One lemma for each operation says what it does to `Accounted`, and one what it does to
`MptBijection`.  `MptBijection.create_iff` is the exact condition: **creating a mapping keeps the
bijection iff the SSD segment is unmapped and in use**.
-/

namespace Hoit

open Bitmap

variable {g : Geometry}

/-! ## Reading the table -/

/-- NVM entry `n` is mapped with value `s`. -/
def NvmMaps (mpt : Mpt) (n s : ℕ) : Prop := getMapFlag mpt n = true ∧ getMptValue mpt n = s

/-- SSD entry `s` is mapped with value `n`. -/
def SsdMaps (g : Geometry) (mpt : Mpt) (s n : ℕ) : Prop :=
  getMapFlag mpt (g.ssdIndex s) = true ∧ getMptValue mpt (g.ssdIndex s) = n

lemma ssdIndex_inj {s s' : ℕ} (h : g.ssdIndex s = g.ssdIndex s') : s = s' :=
  Nat.add_left_cancel h

lemma ssdIndex_ne {s n : ℕ} (hn : n < g.mainSegmentNums) : g.ssdIndex s ≠ n := by
  unfold Geometry.ssdIndex
  omega

lemma getMapFlag_congr {mpt mpt' : Mpt} {i : ℕ} (h : mpt' i = mpt i) :
    getMapFlag mpt' i = getMapFlag mpt i := by
  simp only [getMapFlag, h]

lemma getMptValue_congr {mpt mpt' : Mpt} {i : ℕ} (h : mpt' i = mpt i) :
    getMptValue mpt' i = getMptValue mpt i := by
  simp only [getMptValue, h]

lemma entryFlags_congr {mpt mpt' : Mpt} {i : ℕ} (h : mpt' i = mpt i) :
    entryFlags mpt' i = entryFlags mpt i := by
  simp only [entryFlags, h]

/-- The flags `create_mapping` is called with: `rw_map` is always among them. -/
def IsMapFlag (f : BitVec 32) : Prop := IsRwFlag f ∧ f.getLsbD 0 = true

instance (f : BitVec 32) : Decidable (IsMapFlag f) :=
  inferInstanceAs (Decidable (IsRwFlag f ∧ f.getLsbD 0 = true))

lemma setMptEntry_maps {mpt : Mpt} {i v : ℕ} {f : BitVec 32} (hf : IsMapFlag f)
    (hv : v < 2 ^ 23) :
    getMapFlag (setMptEntry mpt i v f) i = true ∧ getMptValue (setMptEntry mpt i v f) i = v := by
  refine ⟨?_, getMptValue_setMptEntry (lt_trans hv (by decide)) hf.1⟩
  rw [(flags_of_entryFlags (entryFlags_setMptEntry hf.1)).1, hf.2]

/-! ### After `create_mapping` -/

section Create

variable {nsbi : NvmSbInfo} {s n : ℕ} {f : BitVec 32}

lemma createMapping_of_ne {i : ℕ} (hn : i ≠ n) (hs : i ≠ g.ssdIndex s) :
    (createMapping g nsbi s n f).mpt i = nsbi.mpt i := by
  show setMptEntry (setMptEntry nsbi.mpt n s f) (g.ssdIndex s) n f i = nsbi.mpt i
  rw [setMptEntry_of_ne hs, setMptEntry_of_ne hn]

lemma createMapping_ssd (hf : IsMapFlag f) (hn : n < g.mainSegmentNums) :
    SsdMaps g (createMapping g nsbi s n f).mpt s n ∧
      entryFlags (createMapping g nsbi s n f).mpt (g.ssdIndex s) = f :=
  ⟨setMptEntry_maps hf (lt_trans hn g.nvm_lt), entryFlags_setMptEntry hf.1⟩

lemma createMapping_nvm (hf : IsMapFlag f) (hn : n < g.mainSegmentNums)
    (hs : s < g.segmentCountMain) :
    NvmMaps (createMapping g nsbi s n f).mpt n s ∧
      entryFlags (createMapping g nsbi s n f).mpt n = f := by
  have hne : n ≠ g.ssdIndex s := (ssdIndex_ne hn).symm
  have hentry : (createMapping g nsbi s n f).mpt n = setMptEntry nsbi.mpt n s f n :=
    setMptEntry_of_ne hne
  have hmaps : NvmMaps (setMptEntry nsbi.mpt n s f) n s :=
    setMptEntry_maps hf (lt_trans hs g.ssd_lt)
  refine ⟨⟨?_, ?_⟩, ?_⟩
  · rw [getMapFlag_congr hentry]
    exact hmaps.1
  · rw [getMptValue_congr hentry]
    exact hmaps.2
  · rw [entryFlags_congr hentry]
    exact entryFlags_setMptEntry hf.1

end Create

/-! ### After `unset_mapping` and `set_double` -/

section Unset

variable {nsbi : NvmSbInfo} {s : ℕ}

lemma unsetMapping_of_unmapped (h : getMapFlag nsbi.mpt (g.ssdIndex s) = false) :
    unsetMapping g nsbi s = nsbi := by
  simp [unsetMapping, h]

lemma unsetMapping_of_mapped {n : ℕ} (h : SsdMaps g nsbi.mpt s n) :
    (unsetMapping g nsbi s).mpt = clearMap (clearMap nsbi.mpt (g.ssdIndex s)) n ∧
      (unsetMapping g nsbi s).segmentMap = Function.update nsbi.segmentMap n false ∧
      (unsetMapping g nsbi s).mainSegmentFreeNums = incrFreeNums nsbi.mainSegmentFreeNums := by
  obtain ⟨hmap, rfl⟩ := h
  simp [unsetMapping, hmap, releaseSegment]

lemma unsetMapping_ckptSegmentMap (nsbi : NvmSbInfo) (s : ℕ) :
    (unsetMapping g nsbi s).ckptSegmentMap = nsbi.ckptSegmentMap := by
  unfold unsetMapping
  split <;> rfl

lemma clearMap_clearMap_of_ne {mpt : Mpt} {i j k : ℕ} (hi : k ≠ i) (hj : k ≠ j) :
    clearMap (clearMap mpt i) j k = mpt k := by
  rw [clearMap_of_ne hj, clearMap_of_ne hi]

/-- `set_double` touches flags only: what is mapped where stays as it was. -/
lemma setDouble_reads (i : ℕ) :
    getMapFlag (setDouble g nsbi s).mpt i = getMapFlag nsbi.mpt i ∧
      getMptValue (setDouble g nsbi s).mpt i = getMptValue nsbi.mpt i := by
  unfold setDouble
  split
  · dsimp only
    rw [getMapFlag_setDoubleFlag, getMapFlag_setDoubleFlag, getMptValue_setDoubleFlag,
      getMptValue_setDoubleFlag]
    exact ⟨rfl, rfl⟩
  · exact ⟨rfl, rfl⟩

lemma getRedirectFlag_setDouble (i : ℕ) :
    getRedirectFlag (setDouble g nsbi s).mpt i = getRedirectFlag nsbi.mpt i := by
  unfold setDouble
  split
  · dsimp only
    rw [getRedirectFlag_setDoubleFlag, getRedirectFlag_setDoubleFlag]
  · rfl

lemma setDouble_frame :
    (setDouble g nsbi s).segmentMap = nsbi.segmentMap ∧
      (setDouble g nsbi s).mainSegmentFreeNums = nsbi.mainSegmentFreeNums ∧
      (setDouble g nsbi s).ckptSegmentMap = nsbi.ckptSegmentMap := by
  unfold setDouble
  split <;> exact ⟨rfl, rfl, rfl⟩

end Unset

/-! ## Accounting -/

/-- **The accounting invariant.**  `held t` is the NVM segment thread `t` has allocated and not
yet mapped or released. -/
structure Accounted (g : Geometry) (nsbi : NvmSbInfo) (held : ℕ → Option ℕ) : Prop where
  free : nsbi.mainSegmentFreeNums = zeroBits nsbi.segmentMap g.mainSegmentNums
  bit : ∀ n < g.mainSegmentNums,
    nsbi.segmentMap n = true ↔ getMapFlag nsbi.mpt n = true ∨ ∃ t, held t = some n
  heldFresh : ∀ t n, held t = some n → n < g.mainSegmentNums ∧ getMapFlag nsbi.mpt n = false
  heldOnce : ∀ t t' n, held t = some n → held t' = some n → t = t'
  target : ∀ s < g.segmentCountMain, ∀ n, SsdMaps g nsbi.mpt s n →
    n < g.mainSegmentNums ∧ getMapFlag nsbi.mpt n = true
  unshared : ∀ s < g.segmentCountMain, ∀ s' < g.segmentCountMain, ∀ n,
    SsdMaps g nsbi.mpt s n → SsdMaps g nsbi.mpt s' n → s = s'
  source : ∀ n < g.mainSegmentNums, ∀ s, NvmMaps nsbi.mpt n s → s < g.segmentCountMain

namespace Accounted

variable {nsbi : NvmSbInfo} {held : ℕ → Option ℕ}

lemma freeNums_le (h : Accounted g nsbi held) :
    nsbi.mainSegmentFreeNums ≤ g.mainSegmentNums := by
  rw [h.free]
  exact zeroBits_le _ _

/-- Clearing a set bit is counted, and the 32-bit counter does not wrap. -/
lemma free_clear (h : Accounted g nsbi held) {n : ℕ} (hn : n < g.mainSegmentNums)
    (hb : nsbi.segmentMap n = true) :
    incrFreeNums nsbi.mainSegmentFreeNums
      = zeroBits (Function.update nsbi.segmentMap n false) g.mainSegmentNums := by
  have hcount := zeroBits_clear hn hb
  have hle := zeroBits_le (Function.update nsbi.segmentMap n false) g.mainSegmentNums
  have hlt := g.nvm_lt
  rw [incrFreeNums, h.free, ← hcount]
  exact Nat.mod_eq_of_lt (by omega)

/-- The invariant depends only on the table, the bitmap, the counter and who holds what. -/
lemma congr (h : Accounted g nsbi held) {nsbi' : NvmSbInfo} (hmpt : nsbi'.mpt = nsbi.mpt)
    (hmap : nsbi'.segmentMap = nsbi.segmentMap)
    (hfree : nsbi'.mainSegmentFreeNums = nsbi.mainSegmentFreeNums) :
    Accounted g nsbi' held := by
  obtain ⟨h1, h2, h3, h4, h5, h6, h7⟩ := h
  exact ⟨by rw [hfree, hmap, h1], by rw [hmpt, hmap]; exact h2, by rw [hmpt]; exact h3, h4,
    by rw [hmpt]; exact h5, by rw [hmpt]; exact h6, by rw [hmpt]; exact h7⟩

/-- **Allocation**: the thread now holds the segment whose bit it set. -/
lemma allocate (h : Accounted g nsbi held) {nsbi' : NvmSbInfo} {t start n : ℕ}
    (hnone : held t = none) (hal : nvmAllocateSegmentLocked g nsbi start = .ok nsbi' n) :
    Accounted g nsbi' (Function.update held t (some n)) := by
  obtain ⟨hn, hclear, -, rfl⟩ := nvmAllocateSegmentLocked_ok g hal
  have hfresh : getMapFlag nsbi.mpt n = false ∧ ∀ t', held t' ≠ some n := by
    have hbit := mt (h.bit n hn).mpr (by simp [hclear])
    push Not at hbit
    exact ⟨by simpa using hbit.1, hbit.2⟩
  have hheld : ∀ t' m, Function.update held t (some n) t' = some m →
      (t' = t ∧ m = n) ∨ (t' ≠ t ∧ held t' = some m) := by
    intro t' m hm
    rcases eq_or_ne t' t with rfl | hne
    · rw [Function.update_self] at hm
      exact Or.inl ⟨rfl, (Option.some.inj hm).symm⟩
    · rw [Function.update_of_ne hne] at hm
      exact Or.inr ⟨hne, hm⟩
  refine ⟨?_, ?_, ?_, ?_, h.target, h.unshared, h.source⟩
  · have hcount := zeroBits_set hn hclear
    have hfree := h.free
    show nsbi.mainSegmentFreeNums - 1
      = zeroBits (Function.update nsbi.segmentMap n true) g.mainSegmentNums
    omega
  · intro m hm
    show Function.update nsbi.segmentMap n true m = true ↔ _
    rcases eq_or_ne m n with rfl | hmn
    · rw [Function.update_self]
      exact iff_of_true rfl (Or.inr ⟨t, Function.update_self _ _ _⟩)
    · rw [Function.update_of_ne hmn, h.bit m hm]
      refine or_congr_right ⟨?_, ?_⟩
      · rintro ⟨t', ht'⟩
        have hne : t' ≠ t := by
          rintro rfl
          rw [hnone] at ht'
          exact absurd ht' (by simp)
        exact ⟨t', by rw [Function.update_of_ne hne, ht']⟩
      · rintro ⟨t', ht'⟩
        rcases hheld t' m ht' with ⟨-, hm'⟩ | ⟨-, ht''⟩
        · exact absurd hm' hmn
        · exact ⟨t', ht''⟩
  · intro t' m ht'
    rcases hheld t' m ht' with ⟨-, rfl⟩ | ⟨-, ht''⟩
    · exact ⟨hn, hfresh.1⟩
    · exact h.heldFresh t' m ht''
  · intro t1 t2 m h1 h2
    rcases hheld t1 m h1 with ⟨rfl, rfl⟩ | ⟨-, h1'⟩ <;>
      rcases hheld t2 m h2 with ⟨rfl, h2'⟩ | ⟨-, h2'⟩
    · rfl
    · exact absurd h2' (hfresh.2 t2)
    · exact absurd (h2' ▸ h1') (hfresh.2 t1)
    · exact h.heldOnce t1 t2 m h1' h2'

/-- Letting go of a held segment leaves the other threads' segments alone. -/
lemma held_drop (h : Accounted g nsbi held) {t n : ℕ} (ht : held t = some n) {t' m : ℕ}
    (hm : Function.update held t none t' = some m) : held t' = some m ∧ m ≠ n := by
  have hne : t' ≠ t := by
    rintro rfl
    rw [Function.update_self] at hm
    exact absurd hm (by simp)
  rw [Function.update_of_ne hne] at hm
  refine ⟨hm, ?_⟩
  rintro rfl
  exact hne (h.heldOnce t' t m hm ht)

lemma held_keep {t n : ℕ} (ht : held t = some n) {t' m : ℕ} (hm : held t' = some m)
    (hmn : m ≠ n) : Function.update held t none t' = some m := by
  have hne : t' ≠ t := by
    rintro rfl
    rw [ht] at hm
    exact hmn (Option.some.inj hm).symm
  rw [Function.update_of_ne hne, hm]

/-- **Release**: the bit of the held segment is cleared and counted. -/
lemma release (h : Accounted g nsbi held) {t n : ℕ} (ht : held t = some n) :
    Accounted g (releaseSegment nsbi n) (Function.update held t none) := by
  obtain ⟨hn, hunmapped⟩ := h.heldFresh t n ht
  refine ⟨h.free_clear hn ((h.bit n hn).mpr (Or.inr ⟨t, ht⟩)), ?_, ?_, ?_, h.target, h.unshared,
    h.source⟩
  · intro m hm
    show Function.update nsbi.segmentMap n false m = true ↔ getMapFlag nsbi.mpt m = true ∨ _
    rcases eq_or_ne m n with rfl | hmn
    · rw [Function.update_self]
      refine iff_of_false (by simp) ?_
      rintro (hmap | ⟨t', ht'⟩)
      · rw [hunmapped] at hmap
        exact Bool.noConfusion hmap
      · exact (h.held_drop ht ht').2 rfl
    · rw [Function.update_of_ne hmn, h.bit m hm]
      refine or_congr_right ⟨?_, ?_⟩
      · rintro ⟨t', ht'⟩
        exact ⟨t', held_keep ht ht' hmn⟩
      · rintro ⟨t', ht'⟩
        exact ⟨t', (h.held_drop ht ht').1⟩
  · intro t' m ht'
    exact h.heldFresh t' m (h.held_drop ht ht').1
  · intro t1 t2 m h1 h2
    exact h.heldOnce t1 t2 m (h.held_drop ht h1).1 (h.held_drop ht h2).1

/-- **Mapping**: whatever the SSD entry held before, the held segment becomes mapped. -/
lemma create (h : Accounted g nsbi held) {t s n : ℕ} {f : BitVec 32} (hf : IsMapFlag f)
    (ht : held t = some n) (hs : s < g.segmentCountMain) :
    Accounted g (createMapping g nsbi s n f) (Function.update held t none) := by
  obtain ⟨hn, hunmapped⟩ := h.heldFresh t n ht
  have hnvm : NvmMaps (createMapping g nsbi s n f).mpt n s := (createMapping_nvm hf hn hs).1
  have hssd : SsdMaps g (createMapping g nsbi s n f).mpt s n := (createMapping_ssd hf hn).1
  have hother : ∀ m < g.mainSegmentNums, m ≠ n →
      (createMapping g nsbi s n f).mpt m = nsbi.mpt m := by
    intro m hm hmn
    exact createMapping_of_ne hmn (ssdIndex_ne hm).symm
  -- an SSD entry other than the new one is as before, so its target is not the fresh segment
  have hold : ∀ s' < g.segmentCountMain, s' ≠ s → ∀ m,
      SsdMaps g (createMapping g nsbi s n f).mpt s' m → SsdMaps g nsbi.mpt s' m ∧ m ≠ n := by
    intro s' hs' hne m hm
    have hentry : (createMapping g nsbi s n f).mpt (g.ssdIndex s') = nsbi.mpt (g.ssdIndex s') :=
      createMapping_of_ne (ssdIndex_ne hn) (fun he => hne (ssdIndex_inj he))
    unfold SsdMaps at hm
    rw [getMapFlag_congr hentry, getMptValue_congr hentry] at hm
    refine ⟨hm, ?_⟩
    rintro rfl
    rw [(h.target s' hs' m hm).2] at hunmapped
    exact Bool.noConfusion hunmapped
  refine ⟨h.free, ?_, ?_, ?_, ?_, ?_, ?_⟩
  · intro m hm
    show nsbi.segmentMap m = true ↔ _
    rcases eq_or_ne m n with rfl | hmn
    · exact iff_of_true ((h.bit m hm).mpr (Or.inr ⟨t, ht⟩)) (Or.inl hnvm.1)
    · rw [getMapFlag_congr (hother m hm hmn), h.bit m hm]
      refine or_congr_right ⟨?_, ?_⟩
      · rintro ⟨t', ht'⟩
        exact ⟨t', held_keep ht ht' hmn⟩
      · rintro ⟨t', ht'⟩
        exact ⟨t', (h.held_drop ht ht').1⟩
  · intro t' m ht'
    obtain ⟨hheld, hmn⟩ := h.held_drop ht ht'
    obtain ⟨hm, hfresh⟩ := h.heldFresh t' m hheld
    exact ⟨hm, by rw [getMapFlag_congr (hother m hm hmn), hfresh]⟩
  · intro t1 t2 m h1 h2
    exact h.heldOnce t1 t2 m (h.held_drop ht h1).1 (h.held_drop ht h2).1
  · intro s' hs' m hm
    rcases eq_or_ne s' s with rfl | hne
    · obtain rfl : n = m := hssd.2.symm.trans hm.2
      exact ⟨hn, hnvm.1⟩
    · obtain ⟨hm', hmn⟩ := hold s' hs' hne m hm
      obtain ⟨hlt, hmapped⟩ := h.target s' hs' m hm'
      exact ⟨hlt, by rw [getMapFlag_congr (hother m hlt hmn), hmapped]⟩
  · intro s1 h1 s2 h2 m hm1 hm2
    by_cases hne1 : s1 = s <;> by_cases hne2 : s2 = s
    · exact hne1.trans hne2.symm
    · subst hne1
      exact absurd (hm1.2.symm.trans hssd.2) (hold s2 h2 hne2 m hm2).2
    · subst hne2
      exact absurd (hm2.2.symm.trans hssd.2) (hold s1 h1 hne1 m hm1).2
    · exact h.unshared s1 h1 s2 h2 m (hold s1 h1 hne1 m hm1).1 (hold s2 h2 hne2 m hm2).1
  · intro m hm s' hm'
    rcases eq_or_ne m n with rfl | hmn
    · rw [← hm'.2, hnvm.2]
      exact hs
    · unfold NvmMaps at hm'
      rw [getMapFlag_congr (hother m hm hmn), getMptValue_congr (hother m hm hmn)] at hm'
      exact h.source m hm s' hm'

/-- **Unmapping**: the bit that goes is set, and no other SSD entry leads to it. -/
lemma unset (h : Accounted g nsbi held) {s : ℕ} (hs : s < g.segmentCountMain) :
    Accounted g (unsetMapping g nsbi s) held := by
  cases hmapped : getMapFlag nsbi.mpt (g.ssdIndex s) with
  | false =>
      rw [unsetMapping_of_unmapped hmapped]
      exact h
  | true =>
      obtain ⟨n, hmaps⟩ : ∃ n, SsdMaps g nsbi.mpt s n := ⟨_, hmapped, rfl⟩
      obtain ⟨hmpt, hmap, hfree⟩ := unsetMapping_of_mapped hmaps
      obtain ⟨hn, hnmapped⟩ := h.target s hs n hmaps
      have hzero := clearMap_clearMap_eq_zero nsbi.mpt (g.ssdIndex s) n
      have hother : ∀ m < g.mainSegmentNums, m ≠ n →
          (unsetMapping g nsbi s).mpt m = nsbi.mpt m := by
        intro m hm hmn
        rw [hmpt]
        exact clearMap_clearMap_of_ne (ssdIndex_ne hm).symm hmn
      have hnfalse : getMapFlag (unsetMapping g nsbi s).mpt n = false := by
        rw [hmpt]
        exact getMapFlag_of_zero hzero.2
      have hnotheld : ∀ t, held t ≠ some n := by
        intro t ht
        rw [(h.heldFresh t n ht).2] at hnmapped
        exact Bool.noConfusion hnmapped
      have hold : ∀ s' < g.segmentCountMain, ∀ m, SsdMaps g (unsetMapping g nsbi s).mpt s' m →
          SsdMaps g nsbi.mpt s' m ∧ m ≠ n := by
        intro s' hs' m hm
        rcases eq_or_ne s' s with rfl | hne
        · exact absurd hm.1 (by rw [unsetMapping_unmapped]; simp)
        · have hentry : (unsetMapping g nsbi s).mpt (g.ssdIndex s') = nsbi.mpt (g.ssdIndex s') := by
            rw [hmpt]
            exact clearMap_clearMap_of_ne (fun he => hne (ssdIndex_inj he)) (ssdIndex_ne hn)
          unfold SsdMaps at hm
          rw [getMapFlag_congr hentry, getMptValue_congr hentry] at hm
          refine ⟨hm, ?_⟩
          rintro rfl
          exact hne (h.unshared s' hs' s hs m hm hmaps)
      refine ⟨?_, ?_, ?_, h.heldOnce, ?_, ?_, ?_⟩
      · rw [hmap, hfree]
        exact h.free_clear hn ((h.bit n hn).mpr (Or.inl hnmapped))
      · intro m hm
        rw [hmap]
        rcases eq_or_ne m n with rfl | hmn
        · rw [Function.update_self]
          refine iff_of_false (by simp) ?_
          rintro (hmap' | ⟨t, ht⟩)
          · rw [hnfalse] at hmap'
            exact Bool.noConfusion hmap'
          · exact hnotheld t ht
        · rw [Function.update_of_ne hmn, getMapFlag_congr (hother m hm hmn), h.bit m hm]
      · intro t m ht
        obtain ⟨hm, hfresh⟩ := h.heldFresh t m ht
        have hmn : m ≠ n := by
          rintro rfl
          exact hnotheld t ht
        exact ⟨hm, by rw [getMapFlag_congr (hother m hm hmn), hfresh]⟩
      · intro s' hs' m hm
        obtain ⟨hm', hmn⟩ := hold s' hs' m hm
        obtain ⟨hlt, hmapped'⟩ := h.target s' hs' m hm'
        exact ⟨hlt, by rw [getMapFlag_congr (hother m hlt hmn), hmapped']⟩
      · intro s1 h1 s2 h2 m hm1 hm2
        exact h.unshared s1 h1 s2 h2 m (hold s1 h1 m hm1).1 (hold s2 h2 m hm2).1
      · intro m hm s' hm'
        rcases eq_or_ne m n with rfl | hmn
        · exact absurd hm'.1 (by rw [hnfalse]; simp)
        · unfold NvmMaps at hm'
          rw [getMapFlag_congr (hother m hm hmn), getMptValue_congr (hother m hm hmn)] at hm'
          exact h.source m hm s' hm'

/-- **`set_double`** changes no mapping. -/
lemma double (h : Accounted g nsbi held) (s : ℕ) : Accounted g (setDouble g nsbi s) held := by
  have hmap : (setDouble g nsbi s).segmentMap = nsbi.segmentMap := setDouble_frame.1
  have hfree : (setDouble g nsbi s).mainSegmentFreeNums = nsbi.mainSegmentFreeNums :=
    setDouble_frame.2.1
  have hflag : ∀ i, getMapFlag (setDouble g nsbi s).mpt i = getMapFlag nsbi.mpt i :=
    fun i => (setDouble_reads i).1
  have hval : ∀ i, getMptValue (setDouble g nsbi s).mpt i = getMptValue nsbi.mpt i :=
    fun i => (setDouble_reads i).2
  obtain ⟨h1, h2, h3, h4, h5, h6, h7⟩ := h
  simp only [SsdMaps, NvmMaps] at h5 h6 h7
  refine ⟨?_, ?_, ?_, h4, ?_, ?_, ?_⟩ <;>
    simp only [SsdMaps, NvmMaps, hmap, hfree, hflag, hval] <;> assumption

end Accounted

/-! ## The bijection -/

/-- **The two halves of the table are mutually inverse**, with equal flags on a pair, and a free
SSD segment has no mapping. -/
structure MptBijection (g : Geometry) (nsbi : NvmSbInfo) (freeI : FreeSegmapInfo) : Prop where
  inverse : ∀ n < g.mainSegmentNums, ∀ s < g.segmentCountMain,
    NvmMaps nsbi.mpt n s ↔ SsdMaps g nsbi.mpt s n
  nvmRange : ∀ n < g.mainSegmentNums, ∀ s, NvmMaps nsbi.mpt n s → s < g.segmentCountMain
  ssdRange : ∀ s < g.segmentCountMain, ∀ n, SsdMaps g nsbi.mpt s n → n < g.mainSegmentNums
  sameFlags : ∀ n < g.mainSegmentNums, ∀ s, NvmMaps nsbi.mpt n s →
    entryFlags nsbi.mpt n = entryFlags nsbi.mpt (g.ssdIndex s)
  unshared : ∀ s < g.segmentCountMain, ∀ s' < g.segmentCountMain, ∀ n,
    SsdMaps g nsbi.mpt s n → SsdMaps g nsbi.mpt s' n → s = s'
  freeUnmapped : ∀ s < g.segmentCountMain, freeI.freeSegmap s = false →
    getMapFlag nsbi.mpt (g.ssdIndex s) = false

namespace MptBijection

variable {nsbi : NvmSbInfo} {freeI : FreeSegmapInfo} {held : ℕ → Option ℕ}

/-- Only the table and the set of free SSD segments matter. -/
lemma congr (h : MptBijection g nsbi freeI) {nsbi' : NvmSbInfo} {freeI' : FreeSegmapInfo}
    (hmpt : nsbi'.mpt = nsbi.mpt)
    (hfree : ∀ s, freeI'.freeSegmap s = false → freeI.freeSegmap s = false) :
    MptBijection g nsbi' freeI' := by
  obtain ⟨h1, h2, h3, h4, h5, h6⟩ := h
  refine ⟨?_, ?_, ?_, ?_, ?_, ?_⟩
  · rw [hmpt]
    exact h1
  · rw [hmpt]
    exact h2
  · rw [hmpt]
    exact h3
  · rw [hmpt]
    exact h4
  · rw [hmpt]
    exact h5
  · rw [hmpt]
    exact fun s hs hfs => h6 s hs (hfree s hfs)

/-- **The entries of one pair may change together.**  Before, the two belong to each other or to
nobody; afterwards they are a pair if `p`, and unmapped if not. -/
lemma replacePair (h : MptBijection g nsbi freeI) {nsbi' : NvmSbInfo} {freeI' : FreeSegmapInfo}
    {n s : ℕ} {p : Prop} (hn : n < g.mainSegmentNums) (hs : s < g.segmentCountMain)
    (hnother : ∀ m < g.mainSegmentNums, m ≠ n → nsbi'.mpt m = nsbi.mpt m)
    (hsother : ∀ s', s' ≠ s → nsbi'.mpt (g.ssdIndex s') = nsbi.mpt (g.ssdIndex s'))
    (hclosed : ∀ s' < g.segmentCountMain, ∀ m, SsdMaps g nsbi.mpt s' m → (m = n ↔ s' = s))
    (hnvm : ∀ s', NvmMaps nsbi'.mpt n s' ↔ p ∧ s' = s)
    (hssd : ∀ m, SsdMaps g nsbi'.mpt s m ↔ p ∧ m = n)
    (hflags : p → entryFlags nsbi'.mpt n = entryFlags nsbi'.mpt (g.ssdIndex s))
    (hfree : ∀ s' < g.segmentCountMain, freeI'.freeSegmap s' = false →
      getMapFlag nsbi'.mpt (g.ssdIndex s') = false) :
    MptBijection g nsbi' freeI' := by
  have hnvmOld : ∀ m < g.mainSegmentNums, m ≠ n → ∀ s',
      NvmMaps nsbi'.mpt m s' ↔ NvmMaps nsbi.mpt m s' := by
    intro m hm hmn s'
    unfold NvmMaps
    rw [getMapFlag_congr (hnother m hm hmn), getMptValue_congr (hnother m hm hmn)]
  have hssdOld : ∀ s', s' ≠ s → ∀ m,
      SsdMaps g nsbi'.mpt s' m ↔ SsdMaps g nsbi.mpt s' m := by
    intro s' hne m
    unfold SsdMaps
    rw [getMapFlag_congr (hsother s' hne), getMptValue_congr (hsother s' hne)]
  refine ⟨?_, ?_, ?_, ?_, ?_, hfree⟩
  · intro m hm s' hs'
    by_cases hmn : m = n <;> by_cases hss : s' = s
    · subst hmn hss
      rw [hnvm, hssd, and_iff_left rfl, and_iff_left rfl]
    · subst hmn
      rw [hnvm, hssdOld s' hss]
      exact iff_of_false (fun hc => hss hc.2) (fun hc => hss ((hclosed s' hs' m hc).mp rfl))
    · subst hss
      rw [hnvmOld m hm hmn, hssd, h.inverse m hm s' hs']
      exact iff_of_false (fun hc => hmn ((hclosed s' hs' m hc).mpr rfl)) (fun hc => hmn hc.2)
    · rw [hnvmOld m hm hmn, hssdOld s' hss]
      exact h.inverse m hm s' hs'
  · intro m hm s' hm'
    by_cases hmn : m = n
    · subst hmn
      exact ((hnvm s').mp hm').2 ▸ hs
    · exact h.nvmRange m hm s' ((hnvmOld m hm hmn s').mp hm')
  · intro s' hs' m hm'
    by_cases hss : s' = s
    · subst hss
      exact ((hssd m).mp hm').2 ▸ hn
    · exact h.ssdRange s' hs' m ((hssdOld s' hss m).mp hm')
  · intro m hm s' hm'
    by_cases hmn : m = n
    · subst hmn
      obtain ⟨hp, rfl⟩ := (hnvm s').mp hm'
      exact hflags hp
    · have hold := (hnvmOld m hm hmn s').mp hm'
      have hs' := h.nvmRange m hm s' hold
      have hss : s' ≠ s := fun he => hmn ((hclosed s' hs' m ((h.inverse m hm s' hs').mp hold)).mpr he)
      rw [entryFlags_congr (hnother m hm hmn), entryFlags_congr (hsother s' hss)]
      exact h.sameFlags m hm s' hold
  · intro s1 h1 s2 h2 m hm1 hm2
    by_cases hs1 : s1 = s <;> by_cases hs2 : s2 = s
    · exact hs1.trans hs2.symm
    · subst hs1
      have hmn := ((hssd m).mp hm1).2
      exact absurd ((hclosed s2 h2 m ((hssdOld s2 hs2 m).mp hm2)).mp hmn) hs2
    · subst hs2
      have hmn := ((hssd m).mp hm2).2
      exact absurd ((hclosed s1 h1 m ((hssdOld s1 hs1 m).mp hm1)).mp hmn) hs1
    · exact h.unshared s1 h1 s2 h2 m ((hssdOld s1 hs1 m).mp hm1) ((hssdOld s2 hs2 m).mp hm2)

/-- **The exact condition for `create_mapping`.**  The NVM segment is one that a thread holds, so
it is unmapped; whether the pair that is written stays a pair depends on the SSD side alone. -/
theorem create_iff (h : MptBijection g nsbi freeI) (hacc : Accounted g nsbi held) {t s n : ℕ}
    {f : BitVec 32} (hf : IsMapFlag f) (ht : held t = some n) (hs : s < g.segmentCountMain) :
    MptBijection g (createMapping g nsbi s n f) freeI ↔
      getMapFlag nsbi.mpt (g.ssdIndex s) = false ∧ freeI.freeSegmap s = true := by
  obtain ⟨hn, hunmapped⟩ := hacc.heldFresh t n ht
  obtain ⟨hnvm, hnflags⟩ : NvmMaps (createMapping g nsbi s n f).mpt n s ∧ _ :=
    createMapping_nvm hf hn hs
  obtain ⟨hssd, hsflags⟩ : SsdMaps g (createMapping g nsbi s n f).mpt s n ∧ _ :=
    createMapping_ssd hf hn
  have hnother : ∀ m < g.mainSegmentNums, m ≠ n →
      (createMapping g nsbi s n f).mpt m = nsbi.mpt m := by
    intro m hm hmn
    exact createMapping_of_ne hmn (ssdIndex_ne hm).symm
  have hsother : ∀ s', s' ≠ s →
      (createMapping g nsbi s n f).mpt (g.ssdIndex s') = nsbi.mpt (g.ssdIndex s') := by
    intro s' hne
    exact createMapping_of_ne (ssdIndex_ne hn) (fun he => hne (ssdIndex_inj he))
  constructor
  · intro h'
    refine ⟨?_, ?_⟩
    · -- a mapping that was there before would leave its NVM entry dangling
      by_contra hmapped
      rw [Bool.not_eq_false] at hmapped
      obtain ⟨m, hm⟩ : ∃ m, SsdMaps g nsbi.mpt s m := ⟨_, hmapped, rfl⟩
      have hmlt := h.ssdRange s hs m hm
      have hmnvm := (h.inverse m hmlt s hs).mpr hm
      have hmn : m ≠ n := by
        rintro rfl
        rw [hmnvm.1] at hunmapped
        exact Bool.noConfusion hunmapped
      have hmnvm' : NvmMaps (createMapping g nsbi s n f).mpt m s := by
        unfold NvmMaps
        rw [getMapFlag_congr (hnother m hmlt hmn), getMptValue_congr (hnother m hmlt hmn)]
        exact hmnvm
      have hback := (h'.inverse m hmlt s hs).mp hmnvm'
      exact hmn (hback.2.symm.trans hssd.2)
    · by_contra hfree
      rw [Bool.not_eq_true] at hfree
      have hfalse := h'.freeUnmapped s hs hfree
      rw [hssd.1] at hfalse
      exact Bool.noConfusion hfalse
  · rintro ⟨hsunmapped, hinuse⟩
    -- neither side of the new pair occurs in an old one
    refine h.replacePair (p := True) hn hs hnother hsother (fun s' hs' m hm => ?_) (fun s' => ?_)
      (fun m => ?_) (fun _ => hnflags.trans hsflags.symm) (fun s' hs' hfree => ?_)
    · refine iff_of_false ?_ ?_
      · rintro rfl
        rw [(hacc.target s' hs' m hm).2] at hunmapped
        exact Bool.noConfusion hunmapped
      · rintro rfl
        rw [hm.1] at hsunmapped
        exact Bool.noConfusion hsunmapped
    · rw [true_and]
      exact ⟨fun hc => hc.2.symm.trans hnvm.2, fun he => he ▸ hnvm⟩
    · rw [true_and]
      exact ⟨fun hc => hc.2.symm.trans hssd.2, fun he => he ▸ hssd⟩
    · have hss : s' ≠ s := by
        rintro rfl
        rw [hinuse] at hfree
        exact Bool.noConfusion hfree
      rw [getMapFlag_congr (hsother s' hss)]
      exact h.freeUnmapped s' hs' hfree

/-- **Unmapping keeps the bijection**, also when it is the freeing of the segment itself. -/
lemma unset (h : MptBijection g nsbi freeI) {s : ℕ} {freeI' : FreeSegmapInfo}
    (hs : s < g.segmentCountMain)
    (hfree : ∀ s', freeI'.freeSegmap s' = false → s' = s ∨ freeI.freeSegmap s' = false) :
    MptBijection g (unsetMapping g nsbi s) freeI' := by
  have hfree' : ∀ s' < g.segmentCountMain, freeI'.freeSegmap s' = false → s' ≠ s →
      getMapFlag nsbi.mpt (g.ssdIndex s') = false := by
    intro s' hs' hf hne
    rcases hfree s' hf with he | hold
    · exact absurd he hne
    · exact h.freeUnmapped s' hs' hold
  cases hmapped : getMapFlag nsbi.mpt (g.ssdIndex s) with
  | false =>
      rw [unsetMapping_of_unmapped hmapped]
      obtain ⟨h1, h2, h3, h4, h5, -⟩ := h
      refine ⟨h1, h2, h3, h4, h5, ?_⟩
      intro s' hs' hf
      rcases eq_or_ne s' s with rfl | hne
      · exact hmapped
      · exact hfree' s' hs' hf hne
  | true =>
      obtain ⟨n, hmaps⟩ : ∃ n, SsdMaps g nsbi.mpt s n := ⟨_, hmapped, rfl⟩
      obtain ⟨hmpt, -, -⟩ := unsetMapping_of_mapped hmaps
      have hn := h.ssdRange s hs n hmaps
      have hzero := clearMap_clearMap_eq_zero nsbi.mpt (g.ssdIndex s) n
      have hnother : ∀ m < g.mainSegmentNums, m ≠ n →
          (unsetMapping g nsbi s).mpt m = nsbi.mpt m := by
        intro m hm hmn
        rw [hmpt]
        exact clearMap_clearMap_of_ne (ssdIndex_ne hm).symm hmn
      have hsother : ∀ s', s' ≠ s →
          (unsetMapping g nsbi s).mpt (g.ssdIndex s') = nsbi.mpt (g.ssdIndex s') := by
        intro s' hne
        rw [hmpt]
        exact clearMap_clearMap_of_ne (fun he => hne (ssdIndex_inj he)) (ssdIndex_ne hn)
      refine h.replacePair (p := False) hn hs hnother hsother (fun s' hs' m hm => ⟨?_, ?_⟩)
        (fun s' => ?_) (fun m => ?_) False.elim (fun s' hs' hf => ?_)
      · rintro rfl
        exact h.unshared s' hs' s hs m hm hmaps
      · rintro rfl
        exact hm.2.symm.trans hmaps.2
      · rw [false_and, iff_false]
        rintro ⟨hc, -⟩
        rw [hmpt, getMapFlag_of_zero hzero.2] at hc
        exact Bool.noConfusion hc
      · rw [false_and, iff_false]
        rintro ⟨hc, -⟩
        rw [unsetMapping_unmapped] at hc
        exact Bool.noConfusion hc
      · rcases eq_or_ne s' s with rfl | hne
        · exact unsetMapping_unmapped g nsbi s'
        · rw [getMapFlag_congr (hsother s' hne)]
          exact hfree' s' hs' hf hne

/-- **`set_double` keeps the bijection**: it raises the flag on both entries of the pair. -/
lemma double (h : MptBijection g nsbi freeI) {s : ℕ} (hs : s < g.segmentCountMain) :
    MptBijection g (setDouble g nsbi s) freeI := by
  have hflag : ∀ i, getMapFlag (setDouble g nsbi s).mpt i = getMapFlag nsbi.mpt i :=
    fun i => (setDouble_reads i).1
  have hval : ∀ i, getMptValue (setDouble g nsbi s).mpt i = getMptValue nsbi.mpt i :=
    fun i => (setDouble_reads i).2
  have hnvm : ∀ m s', NvmMaps (setDouble g nsbi s).mpt m s' ↔ NvmMaps nsbi.mpt m s' := by
    intro m s'
    rw [NvmMaps, hflag, hval, NvmMaps]
  have hssd : ∀ s' m, SsdMaps g (setDouble g nsbi s).mpt s' m ↔ SsdMaps g nsbi.mpt s' m := by
    intro s' m
    rw [SsdMaps, hflag, hval, SsdMaps]
  refine ⟨?_, ?_, ?_, ?_, ?_, ?_⟩
  · intro m hm s' hs'
    rw [hnvm, hssd]
    exact h.inverse m hm s' hs'
  · intro m hm s' hm'
    exact h.nvmRange m hm s' ((hnvm m s').mp hm')
  · intro s' hs' m hm'
    exact h.ssdRange s' hs' m ((hssd s' m).mp hm')
  · intro m hm s' hm'
    have hm'' := (hnvm m s').mp hm'
    have hs' := h.nvmRange m hm s' hm''
    have hsame := h.sameFlags m hm s' hm''
    cases hmapped : getMapFlag nsbi.mpt (g.ssdIndex s) with
    | false =>
        simp only [setDouble, hmapped, Bool.false_eq_true, if_false]
        exact hsame
    | true =>
        obtain ⟨n, hmaps⟩ : ∃ n, SsdMaps g nsbi.mpt s n := ⟨_, hmapped, rfl⟩
        have hn := h.ssdRange s hs n hmaps
        have hmpt : (setDouble g nsbi s).mpt
            = setDoubleFlag (setDoubleFlag nsbi.mpt (g.ssdIndex s)) n := by
          simp only [setDouble, hmapped, if_true, hmaps.2]
        rw [hmpt]
        rcases eq_or_ne s' s with rfl | hss
        · obtain rfl : m = n := ((h.inverse m hm s' hs').mp hm'').2.symm.trans hmaps.2
          have hne : g.ssdIndex s' ≠ m := ssdIndex_ne hm
          rw [entryFlags_setDoubleFlag, entryFlags_congr (setDoubleFlag_of_ne hne),
            entryFlags_setDoubleFlag, entryFlags_congr (setDoubleFlag_of_ne hne.symm), hsame]
        · have hmn : m ≠ n := by
            rintro rfl
            exact hss (h.unshared s' hs' s hs m ((h.inverse m hm s' hs').mp hm'') hmaps)
          have hidx : g.ssdIndex s' ≠ g.ssdIndex s := fun he => hss (ssdIndex_inj he)
          rw [entryFlags_congr (setDoubleFlag_of_ne hmn),
            entryFlags_congr (setDoubleFlag_of_ne (ssdIndex_ne hm).symm),
            entryFlags_congr (setDoubleFlag_of_ne (ssdIndex_ne hn)),
            entryFlags_congr (setDoubleFlag_of_ne hidx), hsame]
  · intro s1 h1 s2 h2 m hm1 hm2
    exact h.unshared s1 h1 s2 h2 m ((hssd s1 m).mp hm1) ((hssd s2 m).mp hm2)
  · intro s' hs' hf
    rw [hflag]
    exact h.freeUnmapped s' hs' hf

end MptBijection

/-! ## One call of the allocator -/

section Allocator

/-- `ENVMNOSPACE`. -/
def eNvmNoSpace : ℤ := 3

variable (g)

/-- `nvm_allocate_segment`, undisturbed: the state and the return value.  `none` stands for a
failed assertion and for a search that never ends. -/
def nvmAllocateSegment (nsbi : NvmSbInfo) (ssdSegoff : ℕ) (isCreateMapping : Bool) :
    Option (NvmSbInfo × ℤ) :=
  match nvmAllocateSegmentLocked g nsbi nsbi.curAllocNvmSegoff with
  | .noSpace => some (nsbi, -eNvmNoSpace)
  | .ok nsbi nvmSegoff =>
      some (if isCreateMapping then createMapping g nsbi ssdSegoff nvmSegoff (rwMap ||| rwRedirect)
        else nsbi, nvmSegoff)
  | .bugOn => none
  | .hang => none

variable {g} {nsbi : NvmSbInfo}

/-- `create_mapping` leaves the bitmap, the counter and the search position alone. -/
lemma createMapping_frame (s n : ℕ) (f : BitVec 32) :
    (createMapping g nsbi s n f).segmentMap = nsbi.segmentMap ∧
      (createMapping g nsbi s n f).mainSegmentFreeNums = nsbi.mainSegmentFreeNums ∧
      (createMapping g nsbi s n f).curAllocNvmSegoff = nsbi.curAllocNvmSegoff :=
  ⟨rfl, rfl, rfl⟩

/-- What the search finds it finds in the first or in the second round. -/
lemma searchFree_rounds {map : ℕ → Bool} {size start n : ℕ}
    (h : searchFree map size 2 start = some n) :
    ∃ wraps ≤ 1, searchFree map size (wraps + 1) start = some n := by
  by_cases hfirst : findNextZeroBit map size start < size
  · refine ⟨0, Nat.zero_le 1, ?_⟩
    rw [searchFree, if_pos hfirst] at h ⊢
    exact h
  · exact ⟨1, le_rfl, h⟩

lemma nvmAllocateSegmentLocked_search {nsbi' : NvmSbInfo} {start n : ℕ}
    (h : nvmAllocateSegmentLocked g nsbi start = .ok nsbi' n) :
    searchFree nsbi.segmentMap g.mainSegmentNums 2 start = some n := by
  unfold nvmAllocateSegmentLocked at h
  split at h
  · exact absurd h (by simp)
  · split at h
    · split at h
      · next m hm => rw [hm, (AllocResult.ok.inj h).2]
      · exact absurd h (by simp)
    · exact absurd h (by simp)

/-- **The allocator returns**, after at most one return to the start of the bitmap, wherever the
search position points: with a free segment, which it takes, or, if the counter is zero, with an
error and nothing changed. -/
theorem nvm_allocate_segment_returns (s : ℕ) (isCreateMapping : Bool)
    (hfree : nsbi.mainSegmentFreeNums = zeroBits nsbi.segmentMap g.mainSegmentNums) :
    ∃ nsbi' ret, nvmAllocateSegment g nsbi s isCreateMapping = some (nsbi', ret) ∧
      (nsbi.mainSegmentFreeNums = 0 → ret = -eNvmNoSpace ∧ nsbi' = nsbi) ∧
      (nsbi.mainSegmentFreeNums ≠ 0 → ∃ n < g.mainSegmentNums,
        ret = n ∧ nsbi.segmentMap n = false ∧
        (∃ wraps ≤ 1, searchFree nsbi.segmentMap g.mainSegmentNums (wraps + 1)
          nsbi.curAllocNvmSegoff = some n) ∧
        nsbi'.segmentMap = Function.update nsbi.segmentMap n true ∧
        nsbi'.mainSegmentFreeNums + 1 = nsbi.mainSegmentFreeNums ∧
        nsbi'.curAllocNvmSegoff = n + 1) := by
  by_cases hzero : nsbi.mainSegmentFreeNums = 0
  · have hlocked : nvmAllocateSegmentLocked g nsbi nsbi.curAllocNvmSegoff = .noSpace := by
      rw [nvmAllocateSegmentLocked, if_pos hzero]
    refine ⟨nsbi, -eNvmNoSpace, ?_, fun _ => ⟨rfl, rfl⟩, fun hne => absurd hzero hne⟩
    rw [nvmAllocateSegment, hlocked]
  · rcases nvmAllocateSegmentLocked_total g nsbi.curAllocNvmSegoff hfree with hnone | ⟨taken, n, hok⟩
    · rw [nvmAllocateSegmentLocked, if_neg hzero] at hnone
      split at hnone
      · split at hnone <;> exact absurd hnone (by simp)
      · exact absurd hnone (by simp)
    · have hrounds := searchFree_rounds (nvmAllocateSegmentLocked_search hok)
      obtain ⟨hn, hclear, hpos, htaken⟩ := nvmAllocateSegmentLocked_ok g hok
      have hframe := @createMapping_frame g taken s n (rwMap ||| rwRedirect)
      refine ⟨_, _, by rw [nvmAllocateSegment, hok], fun h => absurd h hzero, fun _ => ?_⟩
      have hmap : taken.segmentMap = Function.update nsbi.segmentMap n true := by rw [htaken]
      have hcount : taken.mainSegmentFreeNums + 1 = nsbi.mainSegmentFreeNums := by
        rw [htaken]
        exact Nat.sub_add_cancel (Nat.pos_of_ne_zero hpos)
      have hcursor : taken.curAllocNvmSegoff = n + 1 := by rw [htaken]
      refine ⟨n, hn, rfl, hclear, hrounds, ?_⟩
      cases isCreateMapping with
      | false => exact ⟨hmap, hcount, hcursor⟩
      | true => exact ⟨hframe.1.trans hmap, by rw [if_pos rfl, hframe.2.1]; exact hcount,
          hframe.2.2.trans hcursor⟩

/-- Three segments, of which the first one is free, and a search position behind the last. -/
theorem nvm_allocate_segment_wraps :
    let g : Geometry := ⟨3, 4, 1, by decide, by decide, by decide⟩
    let nsbi : NvmSbInfo := ⟨fun _ => 0#32, fun _ => false, 0#16, fun i => decide (i ≠ 0),
      fun _ => false, 1, 3, 0, fun _ _ => -1⟩
    ∃ nsbi' ret, nvmAllocateSegment g nsbi 2 true = some (nsbi', ret) ∧ nsbi'.segmentMap 0 = true := by
  intro g nsbi
  obtain ⟨nsbi', ret, hret, -, hok⟩ :=
    @nvm_allocate_segment_returns g nsbi 2 true (by decide)
  obtain ⟨n, hn, -, hclear, -, hmap, -⟩ := hok (by decide)
  refine ⟨nsbi', ret, hret, ?_⟩
  have hzero : n = 0 := by simpa [nsbi] using hclear
  rw [hmap, hzero, Function.update_self]

end Allocator

end Hoit
