import HoitF2fs.Ckpt.Program

/-!
# What the checkpoint writers do to a header

Each group of stores of `HoitF2fs.Ckpt.Program` acts on one region, as a function of that region's
bytes; the equations here say which.  Put together they give a header in **normal form**,
`headerWith`: the fields overlaid, the flags replaced, the bitmaps behind them.

* `run_doHeader` — `do_checkpoint` leaves `storeCrc` of the normal form with all fields.
* `headerWith_eq_iff` — two normal forms of the same bytes agree iff they agree on the fields, which
  all lie below the bitmaps.
-/

namespace Hoit

open ByteStore

/-! ## What a group of stores does to its region -/

/-- Replace the flags. -/
def withFlags (g : BitVec 32 → BitVec 32) (a : Area) : Area := (putFlags (g (ckptFlags a))).apply a

section Flags

variable {a : Area} {g h : BitVec 32 → BitVec 32}

lemma withFlags_of_outside {x : ℕ} (hx : x < 132 ∨ 136 ≤ x) : withFlags g a x = a x := by
  apply Patch.apply_of_not_covers
  simp only [Patch.Covers, putFlags, putLe_off, putLe_len]
  omega

@[simp] lemma ckptFlags_withFlags : ckptFlags (withFlags g a) = g (ckptFlags a) :=
  ckptFlags_putFlags a _

@[simp] lemma withFlags_withFlags : withFlags h (withFlags g a) = withFlags (h ∘ g) a := by
  unfold withFlags
  rw [ckptFlags_putFlags, putFlags_putFlags]
  rfl

lemma withFlags_eq_self (hg : g (ckptFlags a) = ckptFlags a) : withFlags g a = a :=
  Patch.apply_eq_self_iff.mpr (quiet_putFlags_iff.mpr hg.symm)

lemma getLe_withFlags {off w : ℕ} (h : off + w ≤ 132 ∨ 136 ≤ off) :
    getLe (withFlags g a) off w = getLe a off w :=
  getLe_congr fun k hk => withFlags_of_outside (by omega)

end Flags

section Bits

variable {f g x : BitVec 32}

lemma and_getLsbD_eq_false (h : f &&& g = 0#32) (i : ℕ) : (f.getLsbD i && g.getLsbD i) = false := by
  rw [← BitVec.getLsbD_and, h, BitVec.getLsbD_zero]

/-- A store of one flag leaves the others alone. -/
lemma assignFlag_and (h : f &&& g = 0#32) (c : Bool) : assignFlag f c x &&& g = x &&& g := by
  apply BitVec.eq_of_getLsbD_eq
  intro i hi
  have hfg := and_getLsbD_eq_false h i
  cases c
  · simp only [assignFlag, Bool.false_eq_true, if_false, BitVec.getLsbD_and, BitVec.getLsbD_not, hi,
      decide_true, Bool.true_and]
    revert hfg
    cases f.getLsbD i <;> cases g.getLsbD i <;> cases x.getLsbD i <;> decide
  · simp only [assignFlag, if_true, BitVec.getLsbD_and, BitVec.getLsbD_or]
    revert hfg
    cases f.getLsbD i <;> cases g.getLsbD i <;> cases x.getLsbD i <;> decide

lemma xor_and (h : f &&& g = 0#32) : (x ^^^ f) &&& g = x &&& g := by
  apply BitVec.eq_of_getLsbD_eq
  intro i _
  have hfg := and_getLsbD_eq_false h i
  simp only [BitVec.getLsbD_and, BitVec.getLsbD_xor]
  revert hfg
  cases f.getLsbD i <;> cases g.getLsbD i <;> cases x.getLsbD i <;> decide

/-- Toggling a flag changes it. -/
lemma xor_and_self_ne (hf : f ≠ 0#32) : (x ^^^ f) &&& f ≠ x &&& f := by
  intro h
  apply hf
  apply BitVec.eq_of_getLsbD_eq
  intro i _
  have hbit : ((x ^^^ f) &&& f).getLsbD i = (x &&& f).getLsbD i := by rw [h]
  rw [BitVec.getLsbD_and, BitVec.getLsbD_and, BitVec.getLsbD_xor] at hbit
  rw [BitVec.getLsbD_zero]
  revert hbit
  cases f.getLsbD i <;> cases x.getLsbD i <;> decide

lemma assignFlag_and_self (c : Bool) : assignFlag f c x &&& f = if c then f else 0#32 := by
  apply BitVec.eq_of_getLsbD_eq
  intro i hi
  cases c
  · simp [assignFlag]
  · simp only [assignFlag, if_true, BitVec.getLsbD_and, BitVec.getLsbD_or]
    cases f.getLsbD i <;> cases x.getLsbD i <;> rfl

/-- Storing a flag of one bit as it is changes nothing. -/
lemma assignFlag_eq_self {i : ℕ} {c : Bool} (hf : f = BitVec.twoPow 32 i)
    (h : (x &&& f != 0#32) = c) : assignFlag f c x = x := by
  rw [hf, BitVec.and_twoPow] at h
  subst h hf
  apply BitVec.eq_of_getLsbD_eq
  intro j hj
  by_cases hx : x.getLsbD i
  · have hlt : i < 32 := BitVec.lt_of_getLsbD hx
    have hne : (BitVec.twoPow 32 i != 0#32) = true := by
      rw [bne_iff_ne]
      intro hzero
      have hbit := congrArg (fun y => y.getLsbD i) hzero
      simp [hlt] at hbit
    rw [if_pos hx, hne, assignFlag, if_pos rfl, BitVec.getLsbD_or, BitVec.getLsbD_twoPow]
    by_cases hij : i = j
    · subst hij
      simp [hx]
    · simp [hij]
  · rw [if_neg hx]
    simp only [assignFlag, bne_self_eq_false, Bool.false_eq_true, if_false, BitVec.getLsbD_and,
      BitVec.getLsbD_not, BitVec.getLsbD_twoPow, hj, decide_true, Bool.true_and]
    by_cases hij : i = j
    · subst hij
      simp [hx]
    · simp [hij]

end Bits

section Equations

variable {l : CpLayout} {crc32 : List Byte → BitVec 32} {inp : CpInput l} {m : CpMem}
  {r s : CpRegion}

lemma runStores_const (ps : List Patch) :
    runStores m (ps.map (constStore r)) = Function.update m r (overlay (m r) ps) := by
  induction ps generalizing m with
  | nil => simp
  | cons p ps ih =>
      rw [List.map_cons, runStores_cons, ih]
      simp [Store.run, constStore]

lemma run_flagStore {f : CpMem → Option (BitVec 32 → BitVec 32)} :
    (flagStore r f).run m = Function.update m r (withFlags ((f m).getD id) (m r)) := by
  unfold Store.run flagStore
  cases hf : f m with
  | none => simp [hf, withFlags_eq_self]
  | some g => simp [hf, withFlags]

@[simp] lemma natBitsFull_withFlags (a : Area) (g : BitVec 32 → BitVec 32) :
    natBitsFull inp (withFlags g a) = natBitsFull inp a := by
  unfold natBitsFull cpPackTotalBlockCount
  rw [getLe_withFlags (by omega)]

/-- The flags after `update_ckpt_flags`; `full` says that the NAT bits were switched off. -/
def updatedFlags (inp : CpInput l) (full : Bool) (x : BitVec 32) : BitVec 32 :=
  let x := if full then assignFlag cpNatBitsFlag false x else x
  let x := assignFlag cpTrimmedFlag (hasReason inp.reason cpTrimmed) x
  let x := assignFlag cpUmountFlag (hasReason inp.reason cpUmount) x
  let x := assignFlag cpFastbootFlag (hasReason inp.reason cpFastboot) x
  let x := assignFlag cpOrphanPresentFlag (inp.orphans.length != 0) x
  let x := if inp.needFsck || full then assignFlag cpFsckFlag true x else x
  assignFlag cpNocrcRecoveryFlag false (assignFlag cpCrcRecoveryFlag true x)

lemma run_updateCkptFlags : runStores m (updateCkptFlags inp s)
    = Function.update m s (withFlags (updatedFlags inp (natBitsFull inp (m s))) (m s)) := by
  simp only [updateCkptFlags, runStores_cons, runStores_nil, run_flagStore, Function.update_idem,
    Function.update_self, natBitsFull_withFlags, withFlags_withFlags, Option.getD_some]
  congr 2
  funext x
  unfold updatedFlags
  cases natBitsFull inp (m s) <;> cases inp.needFsck <;> rfl

/-- The two version bitmaps at their places. -/
def bitmapPatches (inp : CpInput l) (a : Area) : List Patch :=
  [{ off := sitBitmapPtr l a, len := inp.sitBitmapSize, byte := inp.sitBitmap },
    { off := natBitmapPtr l a, len := inp.natBitmapSize, byte := inp.natBitmap }]

lemma bitmapStart_le_sitBitmapPtr (a : Area) : bitmapStart ≤ sitBitmapPtr l a := by
  unfold sitBitmapPtr bitmapStart blockSize
  split_ifs <;> omega

lemma bitmapStart_le_natBitmapPtr (a : Area) : bitmapStart ≤ natBitmapPtr l a := by
  unfold natBitmapPtr
  split_ifs <;> omega

/-- The bitmaps lie behind the fields. -/
lemma overlay_bitmaps_of_lt {a b : Area} {x : ℕ} (hx : x < bitmapStart) :
    overlay a (bitmapPatches inp b) x = a x := by
  apply overlay_of_not_covered
  rintro ⟨p, hp, hcov⟩
  have hsit := bitmapStart_le_sitBitmapPtr (l := l) b
  have hnat := bitmapStart_le_natBitmapPtr (l := l) b
  simp only [bitmapPatches, List.mem_cons, List.not_mem_nil, or_false] at hp
  rcases hp with rfl | rfl
  · have := hcov.1
    simp only at this
    omega
  · have := hcov.1
    simp only at this
    omega

lemma run_storeBitmaps : runStores m (storeBitmaps inp s)
    = Function.update m s (overlay (m s) (bitmapPatches inp (m s))) := by
  have hptr : natBitmapPtr l (Patch.apply (m s)
        { off := sitBitmapPtr l (m s), len := inp.sitBitmapSize, byte := inp.sitBitmap })
      = natBitmapPtr l (m s) := by
    have hbelow : ∀ x < bitmapStart, Patch.apply (m s)
        { off := sitBitmapPtr l (m s), len := inp.sitBitmapSize, byte := inp.sitBitmap } x
          = m s x := by
      intro x hx
      apply Patch.apply_of_not_covers
      rintro ⟨hle, -⟩
      have hsit := bitmapStart_le_sitBitmapPtr (l := l) (m s)
      simp only at hle
      omega
    have hflags : ckptFlags (Patch.apply (m s)
        { off := sitBitmapPtr l (m s), len := inp.sitBitmapSize, byte := inp.sitBitmap })
          = ckptFlags (m s) :=
      ckptFlags_congr fun x _ hx => hbelow x (by unfold bitmapStart; omega)
    have hsize : sitVerBitmapBytesize (Patch.apply (m s)
        { off := sitBitmapPtr l (m s), len := inp.sitBitmapSize, byte := inp.sitBitmap })
          = sitVerBitmapBytesize (m s) :=
      getLe_congr fun k hk => hbelow (156 + k) (by unfold bitmapStart; omega)
    unfold natBitmapPtr isSetCkptFlags
    rw [hflags, hsize]
  simp only [storeBitmaps, runStores_cons, runStores_nil, Store.run, overlay_cons, overlay_nil,
    Function.update_self, Function.update_idem, bitmapPatches, hptr]

/-- The flags after the switch of the NVM super block. -/
def switchedFlags (inp : CpInput l) (x : BitVec 32) : BitVec 32 :=
  if inp.nsbDirty then x ^^^ cpNsbVerFlag else x

lemma run_switchNsbVersion : (switchNsbVersion inp r).run m
    = Function.update m r (withFlags (switchedFlags inp) (m r)) := by
  rw [switchNsbVersion, run_flagStore]
  congr 2
  funext x
  unfold switchedFlags
  cases inp.nsbDirty <;> rfl

lemma run_crcStore :
    (crcStore crc32 r).run m = Function.update m r (storeCrc crc32 (m r)) := rfl

/-! ## The fields -/

/-- The allocation types of the log heads. -/
def liveTypes (inp : CpInput l) (i : ℕ) : Byte :=
  if h : i < 6 then (inp.curseg ⟨i, h⟩).allocType else 0

/-- The number of blocks of the pack a checkpoint should write. -/
def livePackBlocks (inp : CpInput l) : ℕ := packBlocks inp (liveTypes inp)

/-- The fields both writers store. -/
def sharedPatches (inp : CpInput l) : List Patch := cursegPatches inp ++ [startSumPatch inp]

/-- The fields `do_checkpoint` stores: `cp_pack_total_block_count` as well. -/
def fieldPatches (inp : CpInput l) : List Patch :=
  sharedPatches inp ++ [putLe 136 4 (livePackBlocks inp)]

lemma fieldPatches_disjoint : (fieldPatches inp).Pairwise Patch.Disjoint := by
  simp [fieldPatches, sharedPatches, cursegPatches, logPatches, startSumPatch, Patch.Disjoint]

/-- Where patches may lie to be fields: below the bitmaps, and off the flags, the version, the
sizes of the bitmaps and the place of the checksum. -/
def Fields (ps : List Patch) : Prop :=
  ∀ p ∈ ps, 32 ≤ p.off ∧ p.off + p.len ≤ 132 ∨ 136 ≤ p.off ∧ p.off + p.len ≤ 144
    ∨ 168 ≤ p.off ∧ p.off + p.len ≤ 192

lemma fieldPatches_fields : Fields (fieldPatches inp) := by
  simp [Fields, fieldPatches, sharedPatches, cursegPatches, logPatches, startSumPatch]

lemma sharedPatches_fields : Fields (sharedPatches inp) := fun p hp =>
  fieldPatches_fields p (List.mem_append_left _ hp)

lemma cursegPatches_fields : Fields (cursegPatches inp) := fun p hp =>
  sharedPatches_fields p (List.mem_append_left _ hp)

lemma orphanBlocks_le (inp : CpInput l) : orphanBlocks inp ≤ blocksPerSeg - 8 - l.cpPayload := by
  have h := inp.orphans_le
  unfold orphanBlocks getOrphanBlocks
  omega

/-- **A pack fits into its segment.** -/
lemma packBlocks_le (inp : CpInput l) (types : ℕ → Byte) : packBlocks inp types ≤ blocksPerSeg := by
  have horphan := orphanBlocks_le inp
  have hfit := l.payload_fits
  have hpages := npages_le_three types inp
  unfold packBlocks
  split <;> omega

lemma summaryCount_congr {types types' : ℕ → Byte} (i : Fin 6) (h : types i = types' i) :
    summaryCount types inp i = summaryCount types' inp i := by
  unfold summaryCount
  rw [h]

section Congr

variable {types types' : ℕ → Byte} (h : ∀ i < 3, types i = types' i)

include h

lemma npages_congr :
    f2fsNpagesForSummaryFlush types inp = f2fsNpagesForSummaryFlush types' inp := by
  unfold f2fsNpagesForSummaryFlush
  rw [summaryCount_congr 0 (h 0 (by decide)), summaryCount_congr 1 (h 1 (by decide)),
    summaryCount_congr 2 (h 2 (by decide))]

lemma packBlocks_congr : packBlocks inp types = packBlocks inp types' := by
  unfold packBlocks
  rw [npages_congr h]

lemma compactedSummaries_congr : compactedSummaries types inp = compactedSummaries types' inp := by
  unfold compactedSummaries compactedEntries
  rw [summaryCount_congr 0 (h 0 (by decide)), summaryCount_congr 1 (h 1 (by decide)),
    summaryCount_congr 2 (h 2 (by decide))]

end Congr

/-- A header that received the fields holds the allocation types of the log heads. -/
lemma allocType_of_quiet {a : Area} (h : ∀ p ∈ cursegPatches inp, p.Quiet a) :
    ∀ i < 3, allocType a i = liveTypes inp i := by
  have hone : ∀ i : Fin 6, putLe (176 + i) 1 (inp.curseg i).allocType.toNat ∈ cursegPatches inp →
      allocType a i = (inp.curseg i).allocType := by
    intro i hi
    have hbyte := h _ hi 0 Nat.one_pos
    show a (176 + i) = (inp.curseg i).allocType
    rw [show a (176 + i) = leByte (inp.curseg i).allocType.toNat 0 from hbyte, leByte_zero,
      BitVec.ofNat_toNat, BitVec.setWidth_eq]
  intro i hi
  have hcases : i = 0 ∨ i = 1 ∨ i = 2 := by omega
  rcases hcases with rfl | rfl | rfl
  · exact hone 0 (by simp [cursegPatches, logPatches])
  · exact hone 1 (by simp [cursegPatches, logPatches])
  · exact hone 2 (by simp [cursegPatches, logPatches])

/-! ## The normal form -/

/-- The compact flag as it should be. -/
def compactLive (inp : CpInput l) : Bool :=
  decide (f2fsNpagesForSummaryFlush (liveTypes inp) inp < 3)

/-- The flags `do_checkpoint` leaves. -/
def doFlags (inp : CpInput l) (x : BitVec 32) : BitVec 32 :=
  let full := hasReason inp.reason cpUmount
    && decide (blocksPerSeg - l.natBitsBlocks < livePackBlocks inp)
  let x := assignFlag cpCompactSumFlag (compactLive inp) x
  switchedFlags inp (updatedFlags inp full x)

/-- The bytes `a` with the fields `ps`, the flags changed by `g`, and the bitmaps. -/
def headerWith (inp : CpInput l) (ps : List Patch) (g : BitVec 32 → BitVec 32) (a : Area) : Area :=
  overlay (withFlags g (overlay a ps)) (bitmapPatches inp a)

/-- `g` leaves the flags of `mask` alone. -/
def KeepsFlags (mask : BitVec 32) (g : BitVec 32 → BitVec 32) : Prop :=
  ∀ x, g x &&& mask = x &&& mask

lemma KeepsFlags.comp {mask : BitVec 32} {g h : BitVec 32 → BitVec 32} (hh : KeepsFlags mask h)
    (hg : KeepsFlags mask g) : KeepsFlags mask (h ∘ g) :=
  fun x => (hh (g x)).trans (hg x)

/-- The flags `update_ckpt_flags` deals with. -/
def updatedMasks : List (BitVec 32) :=
  [cpNatBitsFlag, cpTrimmedFlag, cpUmountFlag, cpFastbootFlag, cpOrphanPresentFlag, cpFsckFlag,
    cpCrcRecoveryFlag, cpNocrcRecoveryFlag]

lemma keepsFlags_updatedFlags {full : Bool} {mask : BitVec 32}
    (h : ∀ f ∈ updatedMasks, f &&& mask = 0#32) : KeepsFlags mask (updatedFlags inp full) := by
  have hkeep : ∀ f ∈ updatedMasks, ∀ c, KeepsFlags mask (assignFlag f c) := fun f hf c x =>
    assignFlag_and (h f hf) c
  have hif : ∀ f ∈ updatedMasks, ∀ (b c : Bool) (x : BitVec 32),
      (if b then assignFlag f c x else x) &&& mask = x &&& mask := by
    intro f hf b c x
    cases b
    · rfl
    · exact hkeep f hf c x
  intro x
  unfold updatedFlags
  rw [hkeep cpNocrcRecoveryFlag (by decide), hkeep cpCrcRecoveryFlag (by decide),
    hif cpFsckFlag (by decide), hkeep cpOrphanPresentFlag (by decide),
    hkeep cpFastbootFlag (by decide), hkeep cpUmountFlag (by decide),
    hkeep cpTrimmedFlag (by decide)]
  exact hif cpNatBitsFlag (by decide) full false x

/-- The flags `do_checkpoint` never touches. -/
lemma keepsFlags_doFlags {mask : BitVec 32} (h : ∀ f ∈ updatedMasks, f &&& mask = 0#32)
    (hcompact : cpCompactSumFlag &&& mask = 0#32) (hnsb : cpNsbVerFlag &&& mask = 0#32) :
    KeepsFlags mask (doFlags inp) := by
  intro x
  unfold doFlags switchedFlags
  split
  · rw [xor_and hnsb, keepsFlags_updatedFlags h, assignFlag_and hcompact]
  · rw [keepsFlags_updatedFlags h, assignFlag_and hcompact]

lemma isSetCkptFlags_eq {mask : BitVec 32} {g : BitVec 32 → BitVec 32} {a b : Area}
    (hg : KeepsFlags mask g) (h : ckptFlags b = g (ckptFlags a)) :
    isSetCkptFlags b mask = isSetCkptFlags a mask := by
  unfold isSetCkptFlags
  rw [h, hg]

lemma nsb_not_updated : ∀ f ∈ updatedMasks, f &&& cpNsbVerFlag = 0#32 :=
  List.forall_iff_forall_mem.mp (by decide +kernel)

lemma compact_not_updated : ∀ f ∈ updatedMasks, f &&& cpCompactSumFlag = 0#32 :=
  List.forall_iff_forall_mem.mp (by decide +kernel)

/-- Both flags `bnvm_do_checkpoint` stores elsewhere have to be right for the flags to come out as
`do_checkpoint` leaves them. -/
lemma doFlags_eq_updatedFlags_iff {x : BitVec 32} (hreason : hasReason inp.reason cpUmount = false) :
    doFlags inp x = updatedFlags inp false x
      ↔ (x &&& cpCompactSumFlag != 0#32) = compactLive inp ∧ inp.nsbDirty = false := by
  unfold doFlags switchedFlags
  simp only [hreason, Bool.false_and]
  set c := compactLive inp
  constructor
  · intro h
    have hnsb : inp.nsbDirty = false := by
      by_contra hdirty
      rw [if_pos (by simpa using hdirty)] at h
      -- the bit of the NVM super block is toggled on the left and kept on the right
      have hleft : updatedFlags inp false (assignFlag cpCompactSumFlag c x) &&& cpNsbVerFlag
          = x &&& cpNsbVerFlag := by
        rw [keepsFlags_updatedFlags nsb_not_updated, assignFlag_and (by decide +kernel)]
      have hright : updatedFlags inp false x &&& cpNsbVerFlag = x &&& cpNsbVerFlag :=
        keepsFlags_updatedFlags nsb_not_updated x
      have hmask : (updatedFlags inp false (assignFlag cpCompactSumFlag c x) ^^^ cpNsbVerFlag)
          &&& cpNsbVerFlag
            = updatedFlags inp false (assignFlag cpCompactSumFlag c x) &&& cpNsbVerFlag := by
        rw [h, hright, hleft]
      exact xor_and_self_ne (by decide +kernel) hmask
    refine ⟨?_, hnsb⟩
    simp only [hnsb, Bool.false_eq_true, if_false] at h
    have hmask := congrArg (fun y => y &&& cpCompactSumFlag) h
    rw [keepsFlags_updatedFlags compact_not_updated, keepsFlags_updatedFlags compact_not_updated,
      assignFlag_and_self] at hmask
    rw [← hmask]
    cases c <;> rfl
  · rintro ⟨hcompact, hnsb⟩
    simp only [hnsb, Bool.false_eq_true, if_false]
    rw [assignFlag_eq_self (f := cpCompactSumFlag) (i := 2) (by decide +kernel) hcompact]

/-- The bitmaps' places depend on one flag and on their sizes. -/
lemma bitmapPatches_congr {a b : Area} (hflag : isSetCkptFlags b cpLargeNatBitmapFlag
      = isSetCkptFlags a cpLargeNatBitmapFlag)
    (hsizes : ∀ x, 156 ≤ x → x < 164 → b x = a x) : bitmapPatches inp b = bitmapPatches inp a := by
  have hsit : sitVerBitmapBytesize b = sitVerBitmapBytesize a :=
    getLe_congr fun k hk => hsizes (156 + k) (by omega) (by omega)
  have hnat : natVerBitmapBytesize b = natVerBitmapBytesize a :=
    getLe_congr fun k hk => hsizes (160 + k) (by omega) (by omega)
  unfold bitmapPatches sitBitmapPtr natBitmapPtr
  rw [hflag, hsit, hnat]

section Normal

variable {ps : List Patch} {g : BitVec 32 → BitVec 32} {a : Area} {x : ℕ}

lemma Fields.not_covered (h : Fields ps)
    (hx : x < 32 ∨ 132 ≤ x ∧ x < 136 ∨ 144 ≤ x ∧ x < 168 ∨ 192 ≤ x) : ¬ Covered ps x := by
  rintro ⟨p, hp, hcov⟩
  have := h p hp
  unfold Patch.Covers at hcov
  omega

/-- The flags and the fields do not meet. -/
lemma withFlags_overlay (h : Fields ps) :
    withFlags g (overlay a ps) = overlay (withFlags g a) ps := by
  have hflags : ckptFlags (overlay a ps) = ckptFlags a :=
    ckptFlags_congr fun x h1 h2 => overlay_of_not_covered (h.not_covered (by omega))
  funext x
  by_cases hx : 132 ≤ x ∧ x < 136
  · rw [overlay_of_not_covered (h.not_covered (by omega)), withFlags, withFlags, hflags,
      Patch.apply_of_covers, Patch.apply_of_covers]
    · exact ⟨hx.1, hx.2⟩
    · exact ⟨hx.1, hx.2⟩
  · rw [withFlags_of_outside (by omega)]
    exact overlay_congr (Or.inr (withFlags_of_outside (by omega)).symm)

lemma bitmapPatches_withFlags (h : Fields ps) (hg : KeepsFlags cpLargeNatBitmapFlag g) :
    bitmapPatches inp (withFlags g (overlay a ps)) = bitmapPatches inp a := by
  apply bitmapPatches_congr
  · refine isSetCkptFlags_eq hg ?_
    rw [ckptFlags_withFlags]
    congr 1
    exact ckptFlags_congr fun x h1 h2 => overlay_of_not_covered (h.not_covered (by omega))
  · intro x h1 h2
    rw [withFlags_of_outside (by omega)]
    exact overlay_of_not_covered (h.not_covered (by omega))

lemma headerWith_of_lt (hx : x < bitmapStart) :
    headerWith inp ps g a x = withFlags g (overlay a ps) x :=
  overlay_bitmaps_of_lt hx

/-- From the bitmaps on, all normal forms of the same bytes are the same. -/
lemma headerWith_of_le (h : Fields ps) (hx : bitmapStart ≤ x) :
    headerWith inp ps g a x = overlay a (bitmapPatches inp a) x := by
  unfold bitmapStart at hx
  apply overlay_congr
  right
  rw [withFlags_of_outside (by omega), overlay_of_not_covered (h.not_covered (by omega))]

/-- What a checkpoint leaves in a header as it is. -/
lemma headerWith_of_kept (h : Fields ps) (hx : x < 32 ∨ 144 ≤ x ∧ x < 168) :
    headerWith inp ps g a x = a x := by
  rw [headerWith_of_lt (by unfold bitmapStart; omega), withFlags_of_outside (by omega),
    overlay_of_not_covered (h.not_covered (by omega))]

lemma checksumOffset_headerWith (h : Fields ps) :
    checksumOffset (headerWith inp ps g a) = checksumOffset a :=
  getLe_congr fun k hk => headerWith_of_kept h (by omega)

lemma curCpVersion_headerWith (h : Fields ps) :
    curCpVersion (headerWith inp ps g a) = curCpVersion a :=
  getLe_congr fun k hk => headerWith_of_kept h (by omega)

lemma ckptFlags_headerWith (h : Fields ps) :
    ckptFlags (headerWith inp ps g a) = g (ckptFlags a) := by
  have hlow : ckptFlags (headerWith inp ps g a) = ckptFlags (withFlags g (overlay a ps)) :=
    ckptFlags_congr fun x _ hx => headerWith_of_lt (by unfold bitmapStart; omega)
  rw [hlow, ckptFlags_withFlags]
  congr 1
  exact ckptFlags_congr fun x h1 h2 => overlay_of_not_covered (h.not_covered (by omega))

lemma CrcPlaced.headerWith (hc : CrcPlaced a) (h : Fields ps) :
    CrcPlaced (headerWith inp ps g a) :=
  hc.congr (checksumOffset_headerWith h)

/-- A field keeps what was stored into it. -/
lemma headerWith_of_mem (h : Fields ps) (hd : ps.Pairwise Patch.Disjoint) {p : Patch} (hp : p ∈ ps) :
    p.Quiet (headerWith inp ps g a) := by
  have hplace := h p hp
  refine (quiet_overlay (a := a) hd hp).congr fun x hx => ?_
  unfold Patch.Covers at hx
  rw [headerWith_of_lt (by unfold bitmapStart; omega), withFlags_of_outside (by omega)]

end Normal

lemma cursegPatches_disjoint : (cursegPatches inp).Pairwise Patch.Disjoint :=
  (List.pairwise_append.mp (List.pairwise_append.mp fieldPatches_disjoint).1).1

/-- A header that received the log heads, whatever happened below the allocation types since. -/
lemma allocType_overlay {a b : Area}
    (h : ∀ x, 176 ≤ x → x < 179 → b x = overlay a (cursegPatches inp) x) :
    ∀ i < 3, allocType b i = liveTypes inp i := by
  intro i hi
  rw [allocType, h (176 + i) (by omega) (by omega)]
  exact allocType_of_quiet (fun p hp => quiet_overlay cursegPatches_disjoint hp) i hi

lemma run_sharedFields :
    runStores m (recordCursegs inp s ++ [compactFlag inp s s, constStore s (startSumPatch inp)])
      = Function.update m s
          (withFlags (assignFlag cpCompactSumFlag (compactLive inp))
            (overlay (m s) (sharedPatches inp))) := by
  set a1 := overlay (m s) (cursegPatches inp) with ha1
  set a2 := withFlags (assignFlag cpCompactSumFlag (compactLive inp)) a1 with ha2
  have hcompact : (compactFlag inp s s).run (Function.update m s a1) = Function.update m s a2 := by
    rw [compactFlag, run_flagStore, Function.update_self, Function.update_idem, Option.getD_some,
      npages_congr (allocType_overlay fun x _ _ => rfl)]
    rfl
  have hstart : (constStore s (startSumPatch inp)).run (Function.update m s a2)
      = Function.update m s (overlay a2 [startSumPatch inp]) := by
    simp [Store.run, constStore]
  rw [runStores_append, recordCursegs, runStores_const, runStores_cons, hcompact, runStores_cons,
    runStores_nil, hstart, ha2, ← withFlags_overlay, sharedPatches, overlay_append]
  exact fun p hp => sharedPatches_fields p (List.mem_append_right _ hp)

lemma run_fields :
    runStores m (recordCursegs inp s
        ++ [compactFlag inp s s, constStore s (startSumPatch inp), totalStore inp s])
      = Function.update m s
          (withFlags (assignFlag cpCompactSumFlag (compactLive inp))
            (overlay (m s) (fieldPatches inp))) := by
  set b := withFlags (assignFlag cpCompactSumFlag (compactLive inp))
    (overlay (m s) (sharedPatches inp)) with hb
  have htypes : ∀ i < 3, allocType b i = liveTypes inp i := by
    refine allocType_overlay (a := m s) fun x hlo hhi => ?_
    rw [hb, withFlags_of_outside (by omega), sharedPatches, overlay_append]
    apply overlay_of_not_covered
    simp only [Covered, List.mem_singleton, exists_eq_left, Patch.Covers, startSumPatch, putLe_off,
      putLe_len]
    omega
  have htotal : (totalStore inp s).run (Function.update m s b)
      = Function.update m s (overlay b [putLe 136 4 (livePackBlocks inp)]) := by
    simp only [totalStore, Store.run, Function.update_self, Function.update_idem,
      packBlocks_congr htypes]
    rfl
  have hsplit : recordCursegs inp s
        ++ [compactFlag inp s s, constStore s (startSumPatch inp), totalStore inp s]
      = (recordCursegs inp s ++ [compactFlag inp s s, constStore s (startSumPatch inp)])
        ++ [totalStore inp s] := by
    simp
  rw [hsplit, runStores_append, run_sharedFields, runStores_cons, runStores_nil, ← hb, htotal, hb,
    ← withFlags_overlay, fieldPatches, overlay_append]
  exact fun p hp => fieldPatches_fields p (List.mem_append_right _ hp)

lemma cpPackTotalBlockCount_fields (a : Area) :
    cpPackTotalBlockCount (overlay a (fieldPatches inp)) = livePackBlocks inp := by
  have hquiet : (putLe 136 4 (livePackBlocks inp)).Quiet (overlay a (fieldPatches inp)) :=
    quiet_overlay fieldPatches_disjoint (by simp [fieldPatches])
  have hsmall : livePackBlocks inp < 256 ^ 4 :=
    lt_of_le_of_lt (packBlocks_le inp (liveTypes inp)) (by decide)
  rw [cpPackTotalBlockCount, quiet_putLe_iff.mp hquiet, Nat.mod_eq_of_lt hsmall]

lemma large_kept : KeepsFlags cpLargeNatBitmapFlag (doFlags inp) :=
  keepsFlags_doFlags (List.forall_iff_forall_mem.mp (by decide +kernel)) (by decide +kernel)
    (by decide +kernel)

/-- **The header `do_checkpoint` leaves.** -/
theorem run_doHeader : runStores m (doHeader crc32 inp s)
    = Function.update m s (storeCrc crc32 (headerWith inp (fieldPatches inp) (doFlags inp) (m s))) := by
  have hflags : switchedFlags inp
      ∘ updatedFlags inp (natBitsFull inp (overlay (m s) (fieldPatches inp)))
      ∘ assignFlag cpCompactSumFlag (compactLive inp) = doFlags inp := by
    rw [natBitsFull, cpPackTotalBlockCount_fields]
    rfl
  rw [doHeader, runStores_append, runStores_append, runStores_append, runStores_append, run_fields]
  simp only [run_updateCkptFlags, runStores_cons, runStores_nil, run_switchNsbVersion,
    run_storeBitmaps, run_crcStore, Function.update_self, Function.update_idem,
    natBitsFull_withFlags, withFlags_withFlags, hflags,
    bitmapPatches_withFlags fieldPatches_fields large_kept]
  rfl

/-! ## The header of the pack -/

/-- The header `do_checkpoint` makes of the bytes `a` and writes at both ends of the pack. -/
def packHeader (crc32 : List Byte → BitVec 32) (inp : CpInput l) (a : Area) : Area :=
  storeCrc crc32 (headerWith inp (fieldPatches inp) (doFlags inp) a)

section PackHeader

variable {a : Area}

lemma packHeader_of_lt (hc : CrcPlaced a) {x : ℕ} (hx : x < bitmapStart) :
    packHeader crc32 inp a x = headerWith inp (fieldPatches inp) (doFlags inp) a x := by
  apply storeCrc_of_lt
  rw [checksumOffset_headerWith fieldPatches_fields]
  exact lt_of_lt_of_le hx hc.behind

lemma quiet_packHeader (hc : CrcPlaced a) {p : Patch} (hp : p ∈ fieldPatches inp) :
    p.Quiet (packHeader crc32 inp a) := by
  have hplace := fieldPatches_fields p hp
  have hquiet : p.Quiet (headerWith inp (fieldPatches inp) (doFlags inp) a) :=
    headerWith_of_mem fieldPatches_fields fieldPatches_disjoint hp
  refine hquiet.congr fun x hx => ?_
  unfold Patch.Covers at hx
  exact (packHeader_of_lt hc (by unfold bitmapStart; omega)).symm

lemma allocType_packHeader (hc : CrcPlaced a) :
    ∀ i < 3, allocType (packHeader crc32 inp a) i = liveTypes inp i :=
  allocType_of_quiet fun _ hp =>
    quiet_packHeader hc (List.mem_append_left _ (List.mem_append_left _ hp))

lemma cpPackTotalBlockCount_packHeader (hc : CrcPlaced a) :
    cpPackTotalBlockCount (packHeader crc32 inp a) = livePackBlocks inp := by
  have hquiet : (putLe 136 4 (livePackBlocks inp)).Quiet (packHeader crc32 inp a) :=
    quiet_packHeader hc (by simp [fieldPatches])
  have hsmall : livePackBlocks inp < 256 ^ 4 :=
    lt_of_le_of_lt (packBlocks_le inp (liveTypes inp)) (by decide)
  rw [cpPackTotalBlockCount, quiet_putLe_iff.mp hquiet, Nat.mod_eq_of_lt hsmall]

lemma ckptFlags_packHeader (hc : CrcPlaced a) :
    ckptFlags (packHeader crc32 inp a) = doFlags inp (ckptFlags a) := by
  have hlow : ckptFlags (packHeader crc32 inp a)
      = ckptFlags (headerWith inp (fieldPatches inp) (doFlags inp) a) :=
    ckptFlags_congr fun x _ hx => packHeader_of_lt hc (by unfold bitmapStart; omega)
  rw [hlow, ckptFlags_headerWith fieldPatches_fields]

/-- The flag says which kind of summaries the pack has. -/
lemma compact_packHeader (hc : CrcPlaced a) :
    isSetCkptFlags (packHeader crc32 inp a) cpCompactSumFlag = compactLive inp := by
  have hmask : doFlags inp (ckptFlags a) &&& cpCompactSumFlag
      = if compactLive inp then cpCompactSumFlag else 0#32 := by
    rw [← assignFlag_and_self (x := ckptFlags a)]
    unfold doFlags switchedFlags
    split
    · rw [xor_and (by decide +kernel), keepsFlags_updatedFlags compact_not_updated]
    · rw [keepsFlags_updatedFlags compact_not_updated]
  unfold isSetCkptFlags
  rw [ckptFlags_packHeader hc, hmask]
  cases compactLive inp <;> rfl

lemma getCheckpointVersion_packHeader (hc : CrcPlaced a) :
    getCheckpointVersion crc32 (packHeader crc32 inp a) = some (curCpVersion a) := by
  rw [packHeader, getCheckpointVersion_storeCrc (hc.headerWith fieldPatches_fields),
    curCpVersion_headerWith fieldPatches_fields]

end PackHeader

/-! ## The pack -/

/-- `bnvm_do_checkpoint` copies the pack `s` over itself when it is its own target. -/
lemma run_copyBlocks (dst src : CpRegion) (n : ℕ) :
    runStores m ((List.range n).map (copyBlock dst src))
      = Function.update m dst (fun x => if x < blockSize * n then m src x else m dst x) := by
  induction n with
  | zero => simp
  | succ n ih =>
      rw [List.range_succ, List.map_append, runStores_append, ih]
      simp only [List.map_cons, List.map_nil, runStores_cons, runStores_nil, Store.run, copyBlock,
        overlay_cons, overlay_nil, Function.update_self, Function.update_idem]
      congr 1
      funext x
      have hsrc : ∀ y, blockSize * n ≤ y → Function.update m dst
          (fun x => if x < blockSize * n then m src x else m dst x) src y = m src y := by
        intro y hy
        rcases eq_or_ne src dst with rfl | hne
        · rw [Function.update_self, if_neg (by omega)]
        · rw [Function.update_of_ne hne]
      rw [Nat.mul_succ]
      by_cases hx : blockSize * n ≤ x ∧ x < blockSize * n + blockSize
      · rw [Patch.apply_of_covers]
        · show Function.update m dst _ src (blockSize * n + (x - blockSize * n)) = _
          rw [hsrc _ (by omega), if_pos hx.2, Nat.add_sub_cancel' hx.1]
        · exact hx
      · rw [Patch.apply_of_not_covers]
        · by_cases hlt : x < blockSize * n
          · rw [if_pos hlt, if_pos (by omega)]
          · rw [if_neg hlt, if_neg (by omega)]
        · exact hx

/-- The blocks behind header and payload, as `do_checkpoint` writes them; `h` is the header. -/
def tailPatches (inp : CpInput l) (h : Area) : List Patch :=
  writePages blockSize true (blockSize * (1 + l.cpPayload)) (orphanPages inp.orphans)
    ++ writePages blockSize true (blockSize * (1 + l.cpPayload + orphanBlocks inp))
      (dataSummaryPages h inp)
    ++ (if remainNodeSummaries inp.reason then
        writePages blockSize true
          (blockSize * (1 + l.cpPayload + orphanBlocks inp
            + f2fsNpagesForSummaryFlush (allocType h) inp))
          (nodeSummaryPages inp)
      else [])
    ++ [{ off := blockSize * (packBlocks inp (allocType h) - 1), len := blockSize, byte := h }]

/-- The pack `do_checkpoint` writes. -/
def doPack (crc32 : List Byte → BitVec 32) (inp : CpInput l) (s : CpRegion) (m : CpMem) : Area :=
  runStores m (doCheckpoint crc32 inp s) .pages

variable (crc32 inp m) in
/-- **The pack `do_checkpoint` writes**: its header and payload, and the other blocks over
them. -/
theorem doPack_eq (hs : s ≠ .pages) :
    ∃ rest : Area, doPack crc32 inp s m
      = overlay
          (fun x => if x < blockSize * (1 + l.cpPayload) then packHeader crc32 inp (m s) x else rest x)
          (tailPatches inp (packHeader crc32 inp (m s))) := by
  set h := packHeader crc32 inp (m s) with hh
  set m1 := (writeNatBits crc32 inp .pages s).run (Function.update m s h) with hm1
  have hm1s : m1 s = h := by
    rw [hm1, Store.run_other (by exact hs), Function.update_self]
  set m2 := runStores m1 (copyHeader l .pages s) with hm2
  have hm2eq : m2 = Function.update m1 .pages
      (fun x => if x < blockSize * (1 + l.cpPayload) then m1 s x else m1 .pages x) := by
    rw [hm2, copyHeader, run_copyBlocks]
  have hm2s : m2 s = h := by
    rw [hm2eq, Function.update_of_ne hs, hm1s]
  have hsplit : doCheckpoint crc32 inp s
      = doHeader crc32 inp s ++ [writeNatBits crc32 inp .pages s] ++ copyHeader l .pages s
        ++ [writeOrphanInodes inp .pages true, writeDataSummaries inp .pages s true,
          writeNodeSummaries inp .pages s, commitStore inp .pages s s] := by
    simp [doCheckpoint, doPages, doBlocks]
  have hrun : runStores m (doCheckpoint crc32 inp s)
      = Function.update m2 .pages (overlay (m2 .pages) (tailPatches inp h)) := by
    rw [hsplit, runStores_append, runStores_append, runStores_append, run_doHeader]
    show runStores (runStores m1 (copyHeader l .pages s)) _ = _
    rw [← hm2, runStores_reading hs]
    · simp [writeOrphanInodes, writeDataSummaries, writeNodeSummaries, commitStore, hm2s,
        tailPatches]
    · simp [writeOrphanInodes, writeDataSummaries, writeNodeSummaries, commitStore]
    · intro st hst m' hm'
      simp only [List.mem_cons, List.not_mem_nil, or_false] at hst
      rcases hst with rfl | rfl | rfl | rfl <;>
        simp only [writeOrphanInodes, writeDataSummaries, writeNodeSummaries, commitStore, hm']
  refine ⟨m1 .pages, ?_⟩
  rw [doPack, hrun, Function.update_self, hm2eq, Function.update_self, hm1s]

/-- The blocks of a pack. -/
def packRead (a : Area) (i : ℕ) : Area := fun j => a (blockSize * i + j)

lemma packBlocks_eq (types : ℕ → Byte) (inp : CpInput l) :
    packBlocks inp types - 1 = 1 + l.cpPayload + orphanBlocks inp
      + f2fsNpagesForSummaryFlush types inp + if remainNodeSummaries inp.reason then 3 else 0 := by
  unfold packBlocks
  omega

lemma tailPatches_ge (h : Area) :
    ∀ p ∈ tailPatches inp h, blockSize * (1 + l.cpPayload) ≤ p.off := by
  intro p hp
  simp only [tailPatches, List.mem_append, List.mem_singleton] at hp
  rcases hp with ((horphan | hdata) | hnode) | rfl
  · exact (writePages_bounds (orphanPages_in _) p horphan).1
  · have := (writePages_bounds (dataSummaryPages_in _ _) p hdata).1
    refine le_trans (Nat.mul_le_mul_left _ ?_) this
    omega
  · split at hnode
    · have := (writePages_bounds (nodeSummaryPages_in _) p hnode).1
      refine le_trans (Nat.mul_le_mul_left _ ?_) this
      omega
    · exact absurd hnode List.not_mem_nil
  · simp only
    rw [packBlocks_eq]
    refine Nat.mul_le_mul_left _ ?_
    omega

lemma doPack_of_lt (hs : s ≠ .pages) {x : ℕ} (hx : x < blockSize * (1 + l.cpPayload)) :
    doPack crc32 inp s m x = packHeader crc32 inp (m s) x := by
  obtain ⟨rest, heq⟩ := doPack_eq crc32 inp m hs
  rw [heq, overlay_of_not_covered, if_pos hx]
  rintro ⟨p, hp, hcov⟩
  have := tailPatches_ge _ p hp
  have := hcov.1
  omega

lemma doPack_footer (hs : s ≠ .pages) (hc : CrcPlaced (m s)) {k : ℕ} (hk : k < blockSize) :
    doPack crc32 inp s m (blockSize * (livePackBlocks inp - 1) + k)
      = packHeader crc32 inp (m s) k := by
  obtain ⟨rest, heq⟩ := doPack_eq crc32 inp m hs
  rw [heq, tailPatches, overlay_append, overlay_cons, overlay_nil,
    packBlocks_congr (allocType_packHeader hc), ← livePackBlocks, Patch.apply_of_covers]
  · simp
  · exact ⟨by simp, by simpa using hk⟩

lemma livePackBlocks_ge (inp : CpInput l) : 2 ≤ livePackBlocks inp := by
  unfold livePackBlocks packBlocks
  omega

/-- **`do_checkpoint` writes a pack that a mount accepts**, with the version the header has. -/
theorem doPack_validates (hs : s ≠ .pages) (hc : CrcPlaced (m s)) :
    validateCheckpoint crc32 (packRead (doPack crc32 inp s m)) = some (curCpVersion (m s)) := by
  have hge := livePackBlocks_ge inp
  have hle : livePackBlocks inp ≤ blocksPerSeg := packBlocks_le inp (liveTypes inp)
  have hhead : ∀ x < blockSize, packRead (doPack crc32 inp s m) 0 x = packHeader crc32 inp (m s) x := by
    intro x hx
    rw [packRead, Nat.mul_zero, Nat.zero_add, doPack_of_lt hs]
    rw [Nat.mul_add, Nat.mul_one]
    omega
  have htotal : cpPackTotalBlockCount (packRead (doPack crc32 inp s m) 0) = livePackBlocks inp := by
    calc cpPackTotalBlockCount (packRead (doPack crc32 inp s m) 0)
        = cpPackTotalBlockCount (packHeader crc32 inp (m s)) :=
          getLe_congr fun k hk => hhead (136 + k) (by unfold blockSize; omega)
      _ = livePackBlocks inp := cpPackTotalBlockCount_packHeader hc
  refine validateCheckpoint_of_copy htotal (by omega) (by unfold blocksPerSeg at hle; omega) ?_ ?_
  · rw [getCheckpointVersion_congr hhead, getCheckpointVersion_packHeader hc]
  · intro x hx
    rw [hhead x hx]
    exact doPack_footer hs hc hx

end Equations

end Hoit
