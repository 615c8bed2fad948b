import HoitF2fs.Ckpt.Effects

/-!
# `bnvm_do_checkpoint` against `do_checkpoint`

Without `CP_UMOUNT` and `CP_FASTBOOT`, `f2fs_write_checkpoint` writes the pack into NVM with
`bnvm_do_checkpoint`, a second version of `do_checkpoint`.  It should leave the pack that
`do_checkpoint` would have written in the same state, one that a mount accepts.

Three things stand in the way.

* **Lost stores.**  When the target `t` is not the pack `s` that `sbi->ckpt` points into, the
  fields, two flags and the checksum are stored into `t` and then overwritten by the copy of `s`.
* **`cp_pack_total_block_count`** is stored by `do_checkpoint` only.
* **Nothing is cleared**, so the bytes of the orphan and summary blocks that are not written keep
  what the pack held before; and normal summaries are not written into the pack at all.

`BnvmFaithful` collects the conditions under which none of this shows, and `bnvm_pack_iff` proves
them exact.
-/

namespace Hoit

open ByteStore Transition

variable {l : CpLayout} {crc32 : List Byte → BitVec 32} {inp : CpInput l} {m : CpMem}
  {s t : CpRegion}

/-- The headers `bnvm_do_checkpoint` starts from: both have their checksum inside the block (as
`get_checkpoint_version` demands), and the bitmaps stay inside header and payload. -/
structure HeadersOk (inp : CpInput l) (m : CpMem) (s t : CpRegion) : Prop where
  ckpt : CrcPlaced (m s)
  target : checksumOffset (m t) + 4 ≤ blockSize
  sit_fits : sitBitmapPtr l (m s) + inp.sitBitmapSize ≤ blockSize * (1 + l.cpPayload)
  nat_fits : natBitmapPtr l (m s) + inp.natBitmapSize ≤ blockSize * (1 + l.cpPayload)

/-- The header `bnvm_do_checkpoint` leaves at the front of the target. -/
def bnvmPackHeader (crc32 : List Byte → BitVec 32) (inp : CpInput l) (m : CpMem)
    (s t : CpRegion) : Area :=
  if t = s then storeCrc crc32 (headerWith inp (sharedPatches inp) (doFlags inp) (m s))
  else headerWith inp [] (updatedFlags inp false) (m s)

lemma hasReason_umount (h : remainNodeSummaries inp.reason = false) :
    hasReason inp.reason cpUmount = false := by
  unfold remainNodeSummaries hasReason at *
  have hmask : inp.reason &&& (cpUmount ||| cpFastboot) = 0#32 := by simpa using h
  have hsub : cpUmount = (cpUmount ||| cpFastboot) &&& cpUmount := by decide +kernel
  rw [hsub, ← BitVec.and_assoc, hmask]
  decide +kernel

/-! ## The run, when the target is the pack `sbi->ckpt` points into -/

lemma run_bnvm_same (h : hasReason inp.reason cpUmount = false) :
    runStores m (recordCursegs inp s ++ [compactFlag inp s s, constStore s (startSumPatch inp)]
        ++ updateCkptFlags inp s ++ [switchNsbVersion inp s] ++ storeBitmaps inp s
        ++ [crcStore crc32 s] ++ copyHeader l s s)
      = Function.update m s
          (storeCrc crc32 (headerWith inp (sharedPatches inp) (doFlags inp) (m s))) := by
  have hfull : ∀ a, natBitsFull inp a = false := by
    intro a
    rw [natBitsFull, h, Bool.false_and]
  have hflags : switchedFlags inp ∘ updatedFlags inp false
      ∘ assignFlag cpCompactSumFlag (compactLive inp) = doFlags inp := by
    unfold doFlags
    rw [h]
    rfl
  rw [runStores_append, runStores_append, runStores_append, runStores_append, runStores_append,
    run_sharedFields, copyHeader, run_copyBlocks]
  simp only [run_updateCkptFlags, runStores_cons, runStores_nil, run_switchNsbVersion,
    run_storeBitmaps, run_crcStore, Function.update_self, Function.update_idem, hfull,
    withFlags_withFlags, hflags, bitmapPatches_withFlags sharedPatches_fields large_kept, ite_self]
  rfl

/-! ## The run, when the target is the other pack -/

lemma fields_nil : Fields [] := fun _ hp => absurd hp List.not_mem_nil

lemma large_kept_updated : KeepsFlags cpLargeNatBitmapFlag (updatedFlags inp false) :=
  keepsFlags_updatedFlags (List.forall_iff_forall_mem.mp (by decide +kernel))

/-- The stores into the target before the checksum stay below the bitmaps. -/
lemma run_targetFields (hts : t ≠ s) :
    ∃ g, runStores m (recordCursegs inp t ++ [compactFlag inp t s, constStore t (startSumPatch inp)])
      = Function.update m t (overlay (withFlags g (overlay (m t) (cursegPatches inp)))
          [startSumPatch inp]) := by
  refine ⟨assignFlag cpCompactSumFlag
    (decide (f2fsNpagesForSummaryFlush (allocType (m s)) inp < 3)), ?_⟩
  rw [runStores_append, recordCursegs, runStores_const, runStores_cons, compactFlag, run_flagStore,
    runStores_cons, runStores_nil, Function.update_self, Function.update_idem,
    Function.update_of_ne hts.symm]
  simp [Store.run, constStore]

variable (crc32) in
lemma run_bnvm_other (h : hasReason inp.reason cpUmount = false) (hts : t ≠ s) :
    ∃ m1, runStores m (recordCursegs inp t ++ [compactFlag inp t s, constStore t (startSumPatch inp)]
        ++ updateCkptFlags inp s ++ [switchNsbVersion inp t] ++ storeBitmaps inp s
        ++ [crcStore crc32 t]) = m1
      ∧ m1 s = headerWith inp [] (updatedFlags inp false) (m s)
      ∧ (checksumOffset (m t) + 4 ≤ blockSize → ∀ x, blockSize ≤ x → m1 t x = m t x) := by
  obtain ⟨g, hfields⟩ : ∃ g, runStores m (recordCursegs inp t
      ++ [compactFlag inp t s, constStore t (startSumPatch inp)])
        = Function.update m t (overlay (withFlags g (overlay (m t) (cursegPatches inp)))
          [startSumPatch inp]) := run_targetFields hts
  set b := overlay (withFlags g (overlay (m t) (cursegPatches inp))) [startSumPatch inp] with hb
  have hb_of : ∀ x, 144 ≤ x ∧ x < 168 ∨ bitmapStart ≤ x → withFlags (switchedFlags inp) b x = m t x := by
    intro x hx
    have hstart : Fields [startSumPatch inp] := fun p hp =>
      sharedPatches_fields p (List.mem_append_right _ hp)
    unfold bitmapStart at hx
    rw [withFlags_of_outside (by omega), hb,
      overlay_of_not_covered (hstart.not_covered (by omega)), withFlags_of_outside (by omega),
      overlay_of_not_covered (cursegPatches_fields.not_covered (by omega))]
  have hfull : ∀ a, natBitsFull inp a = false := by
    intro a
    rw [natBitsFull, h, Bool.false_and]
  refine ⟨_, rfl, ?_, ?_⟩
  · rw [runStores_append, runStores_append, runStores_append, runStores_append, hfields]
    simp only [run_updateCkptFlags, runStores_cons, runStores_nil, run_switchNsbVersion,
      run_storeBitmaps, run_crcStore, Function.update_self, Function.update_of_ne hts.symm, hfull]
    have hplaces : bitmapPatches inp (withFlags (updatedFlags inp false) (overlay (m s) []))
        = bitmapPatches inp (m s) := bitmapPatches_withFlags fields_nil large_kept_updated
    rw [overlay_nil] at hplaces
    rw [hplaces, headerWith, overlay_nil]
  · intro ht x hx
    rw [runStores_append, runStores_append, runStores_append, runStores_append, hfields]
    simp only [run_updateCkptFlags, runStores_cons, runStores_nil, run_switchNsbVersion,
      run_storeBitmaps, run_crcStore, Function.update_self, Function.update_of_ne hts]
    have hoff : checksumOffset (withFlags (switchedFlags inp) b) = checksumOffset (m t) :=
      getLe_congr fun k hk => hb_of (164 + k) (by omega)
    rw [storeCrc, Patch.apply_of_not_covers]
    · exact hb_of x (Or.inr (le_trans (by decide) hx))
    · rw [Patch.Covers, crcPatch, putLe_off, putLe_len, hoff]
      omega

/-! ## Header, payload and orphan blocks -/

/-- Behind header and payload, a header in normal form is as it was. -/
lemma headerWith_of_payload {ps : List Patch} {g : BitVec 32 → BitVec 32} {x : ℕ}
    (hok : HeadersOk inp m s t) (hps : Fields ps) (hx : blockSize * (1 + l.cpPayload) ≤ x) :
    headerWith inp ps g (m s) x = m s x := by
  have hsit := hok.sit_fits
  have hnat := hok.nat_fits
  have hbig : bitmapStart ≤ x := le_trans (le_trans (by decide) (Nat.le_mul_of_pos_right _
    (Nat.add_pos_left Nat.one_pos _))) hx
  rw [headerWith_of_le hps hbig, overlay_of_not_covered]
  rintro ⟨p, hp, hcov⟩
  simp only [bitmapPatches, List.mem_cons, List.not_mem_nil, or_false] at hp
  unfold Patch.Covers at hcov
  rcases hp with rfl | rfl
  · simp only at hcov
    omega
  · simp only at hcov
    omega

lemma blockSize_le_payload (l : CpLayout) : blockSize ≤ blockSize * (1 + l.cpPayload) := by
  rw [Nat.mul_add, Nat.mul_one]
  exact Nat.le_add_right _ _

variable (crc32) in
/-- The memory before the orphan blocks are written. -/
lemma run_bnvm_front (h : hasReason inp.reason cpUmount = false) :
    ∃ m1, runStores m (recordCursegs inp t ++ [compactFlag inp t s, constStore t (startSumPatch inp)]
        ++ updateCkptFlags inp s ++ [switchNsbVersion inp t] ++ storeBitmaps inp s
        ++ [crcStore crc32 t] ++ copyHeader l t s) = m1
      ∧ (∀ x < blockSize * (1 + l.cpPayload), m1 s x = bnvmPackHeader crc32 inp m s t x
          ∧ m1 t x = bnvmPackHeader crc32 inp m s t x)
      ∧ (HeadersOk inp m s t → ∀ x, blockSize * (1 + l.cpPayload) ≤ x → m1 t x = m t x) := by
  have hblock := blockSize_le_payload l
  refine ⟨_, rfl, ?_⟩
  rcases eq_or_ne t s with rfl | hts
  · rw [run_bnvm_same h, Function.update_self, bnvmPackHeader, if_pos rfl]
    refine ⟨fun x _ => ⟨rfl, rfl⟩, fun hok x hx => ?_⟩
    have hinside : checksumOffset (headerWith inp (sharedPatches inp) (doFlags inp) (m t)) + 4
        ≤ blockSize := (hok.ckpt.headerWith sharedPatches_fields).inside
    rw [storeCrc, Patch.apply_of_not_covers, headerWith_of_payload hok sharedPatches_fields hx]
    rw [Patch.Covers, crcPatch, putLe_off, putLe_len]
    omega
  · obtain ⟨m1, hm1, hs, ht⟩ := run_bnvm_other crc32 h hts
    rw [runStores_append, hm1, copyHeader, run_copyBlocks, Function.update_self,
      Function.update_of_ne hts.symm, bnvmPackHeader, if_neg hts]
    refine ⟨fun x hx => ⟨by rw [hs], by rw [if_pos hx, hs]⟩, fun hok x hx => ?_⟩
    rw [if_neg (by omega)]
    exact ht hok.target x (by omega)

variable (crc32) in
/-- **What `bnvm_do_checkpoint` does before the summaries.** -/
lemma run_bnvmHeader (h : hasReason inp.reason cpUmount = false) :
    (∀ x < blockSize * (1 + l.cpPayload),
        runStores m (bnvmHeader crc32 inp s t) s x = bnvmPackHeader crc32 inp m s t x
          ∧ runStores m (bnvmHeader crc32 inp s t) t x = bnvmPackHeader crc32 inp m s t x)
      ∧ (HeadersOk inp m s t → ∀ x, blockSize * (1 + l.cpPayload) ≤ x →
          runStores m (bnvmHeader crc32 inp s t) t x
            = overlay (m t) (writePages blockSize false (blockSize * (1 + l.cpPayload))
                (orphanPages inp.orphans)) x) := by
  obtain ⟨m1, hm1, hlow, hhigh⟩ := run_bnvm_front crc32 h
  have hrun : runStores m (bnvmHeader crc32 inp s t)
      = Function.update m1 t (overlay (m1 t) (writePages blockSize false
          (blockSize * (1 + l.cpPayload)) (orphanPages inp.orphans))) := by
    rw [bnvmHeader, runStores_append, hm1]
    rfl
  have hbelow : ∀ x < blockSize * (1 + l.cpPayload), overlay (m1 t) (writePages blockSize false
      (blockSize * (1 + l.cpPayload)) (orphanPages inp.orphans)) x = m1 t x := fun x hx =>
    overlay_of_not_covered (writePages_not_covered (orphanPages_in _) (Or.inl hx))
  constructor
  · intro x hx
    rw [hrun, Function.update_self, hbelow x hx]
    refine ⟨?_, (hlow x hx).2⟩
    rcases eq_or_ne t s with rfl | hts
    · rw [Function.update_self, hbelow x hx]
      exact (hlow x hx).1
    · rw [Function.update_of_ne hts.symm]
      exact (hlow x hx).1
  · intro hok x hx
    rw [hrun, Function.update_self]
    exact overlay_congr (Or.inr (hhigh hok x hx))

/-! ## The whole run -/

/-- The block at which the data summaries start. -/
def summaryStart (inp : CpInput l) : ℕ := 1 + l.cpPayload + orphanBlocks inp

/-- What a run of `bnvm_do_checkpoint` leaves in the target `b`, whose header is `h`; `a` is the
target before. -/
structure BnvmPack (inp : CpInput l) (h a b : Area) : Prop where
  front : ∀ x < blockSize * (1 + l.cpPayload), b x = h x
  orphans : ∀ x, blockSize * (1 + l.cpPayload) ≤ x → x < blockSize * summaryStart inp →
    b x = overlay a (writePages blockSize false (blockSize * (1 + l.cpPayload))
      (orphanPages inp.orphans)) x
  summaries : ∀ x, blockSize * summaryStart inp ≤ x →
    x < blockSize * (summaryStart inp + f2fsNpagesForSummaryFlush (allocType h) inp) →
    b x = overlay a (writePages blockSize false (blockSize * summaryStart inp)
      (compactedSummaries (allocType h) inp)) x
  footer : ∀ k < blockSize,
    b (blockSize * (summaryStart inp + f2fsNpagesForSummaryFlush (allocType h) inp) + k) = h k

lemma isSetCkptFlags_congr {a b : Area} {f : BitVec 32} (h : ∀ x < bitmapStart, a x = b x) :
    isSetCkptFlags a f = isSetCkptFlags b f := by
  unfold isSetCkptFlags
  rw [ckptFlags_congr fun x _ hx => h x (by unfold bitmapStart; omega)]

lemma allocType_congr {a b : Area} (h : ∀ x < bitmapStart, a x = b x) :
    ∀ i < 3, allocType a i = allocType b i := fun i hi =>
  h (176 + i) (by unfold bitmapStart; omega)

lemma dataSummaryPages_of_compact {a h : Area} (hlow : ∀ x < bitmapStart, a x = h x)
    (hset : isSetCkptFlags h cpCompactSumFlag = true) :
    dataSummaryPages a inp = compactedSummaries (allocType h) inp := by
  rw [dataSummaryPages, isSetCkptFlags_congr hlow, hset, if_pos rfl]
  exact compactedSummaries_congr (allocType_congr hlow)

lemma bitmapStart_lt_payload (l : CpLayout) : bitmapStart < blockSize * (1 + l.cpPayload) :=
  lt_of_lt_of_le (by decide) (blockSize_le_payload l)

/-- The stores behind the check. -/
lemma run_bnvm_end (hreason : remainNodeSummaries inp.reason = false)
    (hok : HeadersOk inp m s t)
    (hset : isSetCkptFlags (bnvmPackHeader crc32 inp m s t) cpCompactSumFlag = true) :
    BnvmPack inp (bnvmPackHeader crc32 inp m s t) (m t)
      (runStores (runStores m (bnvmHeader crc32 inp s t))
        [writeDataSummaries inp t s false, commitStore inp t t s] t) := by
  set h := bnvmPackHeader crc32 inp m s t with hh
  set m1 := runStores m (bnvmHeader crc32 inp s t) with hm1
  obtain ⟨hlow, hhigh⟩ := run_bnvmHeader crc32 (hasReason_umount hreason)
  rw [← hm1, ← hh] at hlow
  replace hhigh := hhigh hok
  rw [← hm1] at hhigh
  have hbm := bitmapStart_lt_payload l
  set sums := writePages blockSize false (blockSize * summaryStart inp)
    (compactedSummaries (allocType h) inp) with hsums
  have hin : InPage blockSize (compactedSummaries (allocType h) inp) := compactedSummaries_in _ _
  have hstart : blockSize * (1 + l.cpPayload) ≤ blockSize * summaryStart inp :=
    Nat.mul_le_mul_left _ (by unfold summaryStart; omega)
  set m2 := (writeDataSummaries inp t s false).run m1 with hm2
  have hm2t : m2 t = overlay (m1 t) sums := by
    rw [hm2, show (writeDataSummaries inp t s false).run m1 t = overlay (m1 t)
        ((writeDataSummaries inp t s false).patches m1) from Store.run_same]
    show overlay (m1 t) (writePages blockSize false (blockSize * summaryStart inp)
      (dataSummaryPages (m1 s) inp)) = _
    rw [dataSummaryPages_of_compact (fun x hx => (hlow x (by omega)).1) hset]
  have hsums_below : ∀ x < blockSize * summaryStart inp, overlay (m1 t) sums x = m1 t x := fun x hx =>
    overlay_of_not_covered (writePages_not_covered hin (Or.inl hx))
  have hm2s : ∀ x < bitmapStart, m2 s x = h x := by
    intro x hx
    rcases eq_or_ne t s with rfl | hts
    · rw [hm2t, hsums_below x (by omega)]
      exact (hlow x (by omega)).2
    · rw [hm2, Store.run_other (by exact hts.symm)]
      exact (hlow x (by omega)).1
  have hlast : packBlocks inp (allocType (m2 s)) - 1
      = summaryStart inp + f2fsNpagesForSummaryFlush (allocType h) inp := by
    rw [packBlocks_congr (allocType_congr hm2s), packBlocks_eq, hreason]
    rfl
  set last := blockSize * (summaryStart inp + f2fsNpagesForSummaryFlush (allocType h) inp)
    with hlastoff
  have hend : runStores m1 [writeDataSummaries inp t s false, commitStore inp t t s] t
      = Patch.apply (overlay (m1 t) sums) { off := last, len := blockSize, byte := m2 t } := by
    show (commitStore inp t t s).run m2 t = _
    rw [show (commitStore inp t t s).run m2 t
        = overlay (m2 t) ((commitStore inp t t s).patches m2) from Store.run_same]
    show Patch.apply (m2 t)
      { off := blockSize * (packBlocks inp (allocType (m2 s)) - 1), len := blockSize, byte := m2 t }
        = _
    rw [hlast, hm2t]
  have hlast_ge : blockSize * summaryStart inp ≤ last := Nat.mul_le_mul_left _ (by omega)
  have hbefore : ∀ x < last, runStores m1 [writeDataSummaries inp t s false, commitStore inp t t s] t x
      = overlay (m1 t) sums x := by
    intro x hx
    rw [hend, Patch.apply_of_not_covers]
    simp only [Patch.Covers]
    omega
  constructor
  · intro x hx
    rw [hbefore x (by omega), hsums_below x (by omega)]
    exact (hlow x hx).2
  · intro x hlo hhi
    rw [hbefore x (by omega), hsums_below x hhi]
    exact hhigh x hlo
  · intro x hlo hhi
    rw [hbefore x hhi]
    refine overlay_congr (Or.inr ?_)
    rw [hhigh x (by omega)]
    apply overlay_of_not_covered
    refine writePages_not_covered (orphanPages_in _) (Or.inr ?_)
    rw [orphanPages_length, ← Nat.mul_add]
    exact hlo
  · intro k hk
    rw [hend, Patch.apply_of_covers ⟨Nat.le_add_right _ _, Nat.add_lt_add_left hk _⟩]
    show m2 t (last + k - last) = h k
    have hblock := blockSize_le_payload l
    rw [Nat.add_sub_cancel_left, hm2t, hsums_below k (by omega)]
    exact (hlow k (by omega)).2

variable (crc32) in
/-- **The run of `bnvm_do_checkpoint`.**  It has a meaning iff the header `sbi->ckpt` points to
asks for compacted summaries. -/
theorem exec_bnvm (hreason : remainNodeSummaries inp.reason = false) (hok : HeadersOk inp m s t) :
    (∀ m', exec Instr.step m (bnvmDoCheckpoint crc32 inp s t) = some m' →
        isSetCkptFlags (bnvmPackHeader crc32 inp m s t) cpCompactSumFlag = true
          ∧ BnvmPack inp (bnvmPackHeader crc32 inp m s t) (m t) (m' t))
      ∧ (isSetCkptFlags (bnvmPackHeader crc32 inp m s t) cpCompactSumFlag = true →
        ∃ m', exec Instr.step m (bnvmDoCheckpoint crc32 inp s t) = some m') := by
  have hbm := bitmapStart_lt_payload l
  obtain ⟨hlow, -⟩ := run_bnvmHeader crc32 (hasReason_umount hreason)
  have hflag : isSetCkptFlags (runStores m (bnvmHeader crc32 inp s t) s) cpCompactSumFlag
      = isSetCkptFlags (bnvmPackHeader crc32 inp m s t) cpCompactSumFlag :=
    isSetCkptFlags_congr fun x hx => (hlow x (by omega)).1
  have hexec : exec Instr.step m (bnvmDoCheckpoint crc32 inp s t)
      = if isSetCkptFlags (bnvmPackHeader crc32 inp m s t) cpCompactSumFlag then
          some (runStores (runStores m (bnvmHeader crc32 inp s t))
            [writeDataSummaries inp t s false, commitStore inp t t s])
        else none := by
    rw [bnvmDoCheckpoint, List.append_assoc, exec_append_eq_bind, exec_stores, Option.bind_some,
      List.singleton_append, exec_check, hflag, exec_stores]
  rw [hexec]
  constructor
  · intro m' hm'
    split at hm'
    · next hset =>
        obtain rfl := Option.some.inj hm'
        exact ⟨hset, run_bnvm_end hreason hok hset⟩
    · exact absurd hm' (by simp)
  · intro hset
    rw [if_pos hset]
    exact ⟨_, rfl⟩

/-! ## When the headers agree -/

lemma livePackBlocks_lt (inp : CpInput l) : livePackBlocks inp < 256 ^ 4 :=
  lt_of_le_of_lt (packBlocks_le inp (liveTypes inp)) (by decide)

lemma quiet_total_iff {a : Area} : (putLe 136 4 (livePackBlocks inp)).Quiet a
    ↔ cpPackTotalBlockCount a = livePackBlocks inp := by
  rw [quiet_putLe_iff, Nat.mod_eq_of_lt (livePackBlocks_lt inp)]
  rfl

/-- The stores both writers make miss `cp_pack_total_block_count`. -/
lemma total_sharedPatches (a : Area) :
    cpPackTotalBlockCount (overlay a (sharedPatches inp)) = cpPackTotalBlockCount a := by
  apply getLe_overlay
  intro p hp
  have hdisj : (fieldPatches inp).Pairwise Patch.Disjoint := fieldPatches_disjoint
  exact (List.pairwise_append.mp hdisj).2.2 p hp _ (List.mem_singleton.mpr rfl)

/-- The target is the pack `sbi->ckpt` points into: only the number of blocks is missed. -/
lemma header_same_iff {a : Area} (hc : CrcPlaced a) :
    (∀ x < blockSize * (1 + l.cpPayload),
        storeCrc crc32 (headerWith inp (sharedPatches inp) (doFlags inp) a) x
          = packHeader crc32 inp a x)
      ↔ cpPackTotalBlockCount a = livePackBlocks inp := by
  have hbm := bitmapStart_lt_payload l
  constructor
  · intro h
    have hleft : cpPackTotalBlockCount
        (storeCrc crc32 (headerWith inp (sharedPatches inp) (doFlags inp) a))
          = cpPackTotalBlockCount a := by
      calc cpPackTotalBlockCount
            (storeCrc crc32 (headerWith inp (sharedPatches inp) (doFlags inp) a))
          = cpPackTotalBlockCount (headerWith inp (sharedPatches inp) (doFlags inp) a) :=
            getLe_storeCrc (hc.headerWith sharedPatches_fields) (by decide)
        _ = cpPackTotalBlockCount (overlay a (sharedPatches inp)) :=
            getLe_congr fun k hk => by
              rw [headerWith_of_lt (by unfold bitmapStart; omega), withFlags_of_outside (by omega)]
        _ = cpPackTotalBlockCount a := total_sharedPatches a
    have hright : cpPackTotalBlockCount (packHeader crc32 inp a) = livePackBlocks inp :=
      cpPackTotalBlockCount_packHeader hc
    rw [← hleft, ← hright]
    exact getLe_congr fun k hk =>
      h (136 + k) (lt_trans (show 136 + k < bitmapStart by unfold bitmapStart; omega) hbm)
  · intro h x _
    have hquiet : (putLe 136 4 (livePackBlocks inp)).Quiet (overlay a (sharedPatches inp)) := by
      rw [quiet_total_iff, total_sharedPatches]
      exact h
    unfold packHeader headerWith
    rw [fieldPatches, overlay_append, overlay_cons, overlay_nil,
      Patch.apply_eq_self_iff.mpr hquiet]

/-- The target is the other pack: every store into it has to be one that `sbi->ckpt` does not
need. -/
lemma header_other_iff {a : Area} (hc : CrcPlaced a)
    (hreason : hasReason inp.reason cpUmount = false) :
    (∀ x < blockSize * (1 + l.cpPayload),
        headerWith inp [] (updatedFlags inp false) a x = packHeader crc32 inp a x)
      ↔ (∀ p ∈ fieldPatches inp, p.Quiet a)
        ∧ (isSetCkptFlags a cpCompactSumFlag = compactLive inp ∧ inp.nsbDirty = false)
        ∧ (crcPatch crc32 (headerWith inp [] (updatedFlags inp false) a)).Quiet
            (headerWith inp [] (updatedFlags inp false) a) := by
  have hblock := blockSize_le_payload l
  have hbm := bitmapStart_lt_payload l
  set h' := headerWith inp [] (updatedFlags inp false) a with hh'
  -- with the fields and the flags in place, the two normal forms are the same bytes
  have hsame : (∀ p ∈ fieldPatches inp, p.Quiet a) →
      doFlags inp (ckptFlags a) = updatedFlags inp false (ckptFlags a) →
      headerWith inp (fieldPatches inp) (doFlags inp) a = h' := by
    intro hquiet hflags
    rw [hh', headerWith, headerWith, overlay_eq_self hquiet, overlay_nil, withFlags, withFlags,
      hflags]
  have hplaced : CrcPlaced h' := hc.headerWith fields_nil
  constructor
  · intro h
    have hfields : ∀ p ∈ fieldPatches inp, p.Quiet a := by
      intro p hp
      have hplace := fieldPatches_fields p hp
      have hquiet : p.Quiet (packHeader crc32 inp a) := quiet_packHeader hc hp
      refine hquiet.congr fun x hx => ?_
      unfold Patch.Covers at hx
      have hlow : x < bitmapStart := by
        unfold bitmapStart
        omega
      rw [← h x (by omega), hh', headerWith_of_lt hlow, withFlags_of_outside (by omega),
        overlay_nil]
    have hflags : doFlags inp (ckptFlags a) = updatedFlags inp false (ckptFlags a) := by
      calc doFlags inp (ckptFlags a)
          = ckptFlags (packHeader crc32 inp a) := (ckptFlags_packHeader hc).symm
        _ = ckptFlags h' := ckptFlags_congr fun x _ hx => by
            rw [h x (lt_trans (show x < bitmapStart by unfold bitmapStart; omega) hbm)]
        _ = updatedFlags inp false (ckptFlags a) := ckptFlags_headerWith fields_nil
    refine ⟨hfields, (doFlags_eq_updatedFlags_iff hreason).mp hflags, ?_⟩
    rw [Patch.quiet_iff_covers]
    intro x hx
    have hinside := hplaced.inside
    have hlt : x < blockSize := by
      have hend := hx.2
      rw [crcPatch, putLe_off, putLe_len] at hend
      omega
    rw [h x (by omega), packHeader, hsame hfields hflags]
    exact Patch.apply_of_covers hx
  · rintro ⟨hfields, hflags, hcrc⟩ x _
    rw [packHeader, hsame hfields ((doFlags_eq_updatedFlags_iff hreason).mpr hflags), storeCrc,
      Patch.apply_eq_self_iff.mpr hcrc]

/-! ## The blocks of the pack `do_checkpoint` writes -/

variable (crc32 inp m) in
lemma doPack_orphans (hs : s ≠ .pages) :
    ∃ a : Area, ∀ x, x < blockSize * summaryStart inp →
      doPack crc32 inp s m x = overlay a (writePages blockSize true (blockSize * (1 + l.cpPayload))
        (orphanPages inp.orphans)) x := by
  obtain ⟨rest, heq⟩ := doPack_eq crc32 inp m hs
  refine ⟨fun x => if x < blockSize * (1 + l.cpPayload) then packHeader crc32 inp (m s) x else rest x,
    fun x hx => ?_⟩
  rw [heq, tailPatches, List.append_assoc, List.append_assoc, overlay_append,
    overlay_of_not_covered]
  rintro ⟨p, hp, hcov⟩
  have hge : blockSize * summaryStart inp ≤ p.off := by
    simp only [List.mem_append, List.mem_singleton] at hp
    rcases hp with hdata | hnode | rfl
    · exact (writePages_bounds (dataSummaryPages_in _ _) p hdata).1
    · split at hnode
      · refine le_trans (Nat.mul_le_mul_left _ ?_)
          (writePages_bounds (nodeSummaryPages_in _) p hnode).1
        unfold summaryStart
        omega
      · exact absurd hnode List.not_mem_nil
    · simp only
      rw [packBlocks_eq]
      refine Nat.mul_le_mul_left _ ?_
      unfold summaryStart
      omega
  have := hcov.1
  omega

variable (crc32) in
lemma doPack_summaries (hs : s ≠ .pages) (hc : CrcPlaced (m s))
    (hreason : remainNodeSummaries inp.reason = false) (hcompact : compactLive inp = true) :
    ∃ a : Area, ∀ x,
      x < blockSize * (summaryStart inp + f2fsNpagesForSummaryFlush (liveTypes inp) inp) →
      doPack crc32 inp s m x = overlay a (writePages blockSize true (blockSize * summaryStart inp)
        (compactedSummaries (liveTypes inp) inp)) x := by
  obtain ⟨rest, heq⟩ := doPack_eq crc32 inp m hs
  have htypes : ∀ i < 3, allocType (packHeader crc32 inp (m s)) i = liveTypes inp i :=
    allocType_packHeader hc
  have hpages : dataSummaryPages (packHeader crc32 inp (m s)) inp
      = compactedSummaries (liveTypes inp) inp := by
    rw [dataSummaryPages, compact_packHeader hc, hcompact, if_pos rfl,
      compactedSummaries_congr htypes]
  refine ⟨overlay
    (fun x => if x < blockSize * (1 + l.cpPayload) then packHeader crc32 inp (m s) x else rest x)
    (writePages blockSize true (blockSize * (1 + l.cpPayload)) (orphanPages inp.orphans)),
    fun x hx => ?_⟩
  rw [heq, tailPatches, hreason, hpages, packBlocks_congr htypes, packBlocks_eq, hreason]
  simp only [Bool.false_eq_true, if_false, List.append_nil, Nat.add_zero]
  rw [overlay_append, overlay_append, overlay_cons, overlay_nil, Patch.apply_of_not_covers]
  · rfl
  · simp only [Patch.Covers]
    unfold summaryStart at hx
    omega

/-! ## The main result -/

/-- The conditions under which `bnvm_do_checkpoint` leaves the right pack.

* The summaries are compacted.
* `cp_pack_total_block_count` in `sbi->ckpt` is already right.
* In the target, the bytes of the orphan and summary blocks that are not written are zero.
* If the target is not the pack `sbi->ckpt` points into: what is stored into the target only — the
  log heads, the start of the summaries, two flags — already stands in `sbi->ckpt`, and so does the
  checksum of `sbi->ckpt` with its new flags and bitmaps. -/
structure BnvmFaithful (crc32 : List Byte → BitVec 32) (inp : CpInput l) (m : CpMem)
    (s t : CpRegion) : Prop where
  compact : compactLive inp = true
  total : cpPackTotalBlockCount (m s) = livePackBlocks inp
  orphanGaps : GapsZero blockSize (m t) (blockSize * (1 + l.cpPayload)) (orphanPages inp.orphans)
  summaryGaps : GapsZero blockSize (m t) (blockSize * summaryStart inp)
    (compactedSummaries (liveTypes inp) inp)
  fields : t ≠ s → ∀ p ∈ sharedPatches inp, p.Quiet (m s)
  flag : t ≠ s → isSetCkptFlags (m s) cpCompactSumFlag = true
  nsb : t ≠ s → inp.nsbDirty = false
  crc : t ≠ s → (crcPatch crc32 (headerWith inp [] (updatedFlags inp false) (m s))).Quiet
    (headerWith inp [] (updatedFlags inp false) (m s))

/-- The front of the pack is right iff the conditions that concern the header hold. -/
lemma front_iff (hreason : remainNodeSummaries inp.reason = false) (hc : CrcPlaced (m s)) :
    (∀ x < blockSize * (1 + l.cpPayload),
        bnvmPackHeader crc32 inp m s t x = packHeader crc32 inp (m s) x)
      ↔ cpPackTotalBlockCount (m s) = livePackBlocks inp
        ∧ (t ≠ s → (∀ p ∈ sharedPatches inp, p.Quiet (m s))
          ∧ (isSetCkptFlags (m s) cpCompactSumFlag = compactLive inp ∧ inp.nsbDirty = false)
          ∧ (crcPatch crc32 (headerWith inp [] (updatedFlags inp false) (m s))).Quiet
            (headerWith inp [] (updatedFlags inp false) (m s))) := by
  rcases eq_or_ne t s with rfl | hts
  · rw [bnvmPackHeader, if_pos rfl, header_same_iff hc]
    simp
  · rw [bnvmPackHeader, if_neg hts, header_other_iff hc (hasReason_umount hreason), fieldPatches,
      List.forall_mem_append, ← quiet_total_iff]
    simp only [List.forall_mem_singleton]
    constructor
    · rintro ⟨⟨hshared, htotal⟩, hflags, hcrc⟩
      exact ⟨htotal, fun _ => ⟨hshared, hflags, hcrc⟩⟩
    · rintro ⟨htotal, hother⟩
      obtain ⟨hshared, hflags, hcrc⟩ := hother hts
      exact ⟨⟨hshared, htotal⟩, hflags, hcrc⟩

lemma livePackBlocks_eq (hreason : remainNodeSummaries inp.reason = false) :
    livePackBlocks inp
      = summaryStart inp + f2fsNpagesForSummaryFlush (liveTypes inp) inp + 1 := by
  have h := packBlocks_eq (liveTypes inp) inp
  have hge := livePackBlocks_ge inp
  rw [hreason] at h
  unfold livePackBlocks at hge ⊢
  unfold summaryStart
  simp only [Bool.false_eq_true, if_false] at h
  omega

/-- With the headers alike, the packs are alike iff the gaps are zero. -/
lemma blocks_iff {b : Area} (hs : s ≠ .pages) (hreason : remainNodeSummaries inp.reason = false)
    (hc : CrcPlaced (m s)) (hcompact : compactLive inp = true)
    (hpack : BnvmPack inp (bnvmPackHeader crc32 inp m s t) (m t) b)
    (hfront : ∀ x < blockSize * (1 + l.cpPayload),
      bnvmPackHeader crc32 inp m s t x = packHeader crc32 inp (m s) x) :
    (∀ x < blockSize * livePackBlocks inp, b x = doPack crc32 inp s m x)
      ↔ GapsZero blockSize (m t) (blockSize * (1 + l.cpPayload)) (orphanPages inp.orphans)
        ∧ GapsZero blockSize (m t) (blockSize * summaryStart inp)
          (compactedSummaries (liveTypes inp) inp) := by
  have hbm := bitmapStart_lt_payload l
  have hblock := blockSize_le_payload l
  have htypes : ∀ i < 3, allocType (bnvmPackHeader crc32 inp m s t) i = liveTypes inp i := by
    intro i hi
    rw [allocType_congr (fun x hx => hfront x (by omega)) i hi]
    exact allocType_packHeader hc i hi
  have hnp : f2fsNpagesForSummaryFlush (allocType (bnvmPackHeader crc32 inp m s t)) inp
      = f2fsNpagesForSummaryFlush (liveTypes inp) inp := npages_congr htypes
  have hsums : compactedSummaries (allocType (bnvmPackHeader crc32 inp m s t)) inp
      = compactedSummaries (liveTypes inp) inp := compactedSummaries_congr htypes
  obtain ⟨hpfront, hporph, hpsum, hpfoot⟩ := hpack
  rw [hnp] at hpsum hpfoot
  rw [hsums] at hpsum
  obtain ⟨a1, horph⟩ := doPack_orphans crc32 inp m hs
  obtain ⟨a2, hsum⟩ := doPack_summaries crc32 hs hc hreason hcompact
  have hlive := livePackBlocks_eq hreason
  have hend : blockSize * livePackBlocks inp
      = blockSize * (summaryStart inp + f2fsNpagesForSummaryFlush (liveTypes inp) inp)
        + blockSize := by
    rw [hlive, Nat.mul_succ]
  have hstart : blockSize * (1 + l.cpPayload) ≤ blockSize * summaryStart inp :=
    Nat.mul_le_mul_left _ (by unfold summaryStart; omega)
  have hsumstart : blockSize * summaryStart inp
      ≤ blockSize * (summaryStart inp + f2fsNpagesForSummaryFlush (liveTypes inp) inp) :=
    Nat.mul_le_mul_left _ (Nat.le_add_right _ _)
  rw [← overlay_writePages_eq_iff (a := a1) (orphanPages_in inp.orphans),
    ← overlay_writePages_eq_iff (a := a2) (compactedSummaries_in (liveTypes inp) inp),
    orphanPages_length, compactedSummaries_length (of_decide_eq_true hcompact), ← Nat.mul_add,
    ← Nat.mul_add]
  change _ ↔ (∀ x, blockSize * (1 + l.cpPayload) ≤ x → x < blockSize * summaryStart inp → _) ∧ _
  constructor
  · intro h
    refine ⟨fun x hlo hhi => ?_, fun x hlo hhi => ?_⟩
    · rw [← horph x hhi, ← h x (by omega), hporph x hlo hhi]
    · rw [← hsum x hhi, ← h x (by omega), hpsum x hlo hhi]
  · rintro ⟨hgap1, hgap2⟩ x hx
    by_cases h1 : x < blockSize * (1 + l.cpPayload)
    · rw [hpfront x h1, hfront x h1, doPack_of_lt hs h1]
    · by_cases h2 : x < blockSize * summaryStart inp
      · rw [hporph x (by omega) h2, horph x h2, hgap1 x (by omega) h2]
      · by_cases h3 : x < blockSize * (summaryStart inp
            + f2fsNpagesForSummaryFlush (liveTypes inp) inp)
        · rw [hpsum x (by omega) h3, hsum x h3, hgap2 x (by omega) h3]
        · obtain ⟨k, rfl⟩ := Nat.exists_eq_add_of_le (Nat.not_lt.mp h3)
          have hk : k < blockSize := by omega
          have hfoot : doPack crc32 inp s m (blockSize * (livePackBlocks inp - 1) + k)
              = packHeader crc32 inp (m s) k := doPack_footer hs hc hk
          rw [hlive, Nat.add_sub_cancel] at hfoot
          rw [hpfoot k hk, hfront k (by omega), hfoot]

lemma validate_of_eq {a b : Area} {n : ℕ} (hn : cpPackTotalBlockCount a = n) (hpos : 0 < n)
    (hlt : n < 2 ^ 32) (h : ∀ x < blockSize * n, b x = a x) :
    validateCheckpoint crc32 (packRead b) = validateCheckpoint crc32 (packRead a) := by
  refine (validateCheckpoint_congr ?_ hpos hlt fun i hi x hx => ?_).symm
  · rw [← hn]
    exact getLe_congr fun k _ => by rw [packRead, Nat.mul_zero, Nat.zero_add]
  · refine (h _ ?_).symm
    calc blockSize * i + x < blockSize * i + blockSize := Nat.add_lt_add_left hx _
      _ = blockSize * (i + 1) := (Nat.mul_succ _ _).symm
      _ ≤ blockSize * n := Nat.mul_le_mul_left _ hi

/-- `bnvm_do_checkpoint` ran, and the target holds the pack `do_checkpoint` would have written, one
that a mount accepts with the version `sbi->ckpt` has. -/
def LeavesDoPack (crc32 : List Byte → BitVec 32) (inp : CpInput l) (m : CpMem) (s t : CpRegion) :
    Prop :=
  ∃ m', exec Instr.step m (bnvmDoCheckpoint crc32 inp s t) = some m'
    ∧ (∀ x < blockSize * cpPackTotalBlockCount (doPack crc32 inp s m),
        m' t x = doPack crc32 inp s m x)
    ∧ validateCheckpoint crc32 (packRead (m' t)) = some (curCpVersion (m s))

lemma cpPackTotalBlockCount_doPack (hs : s ≠ .pages) (hc : CrcPlaced (m s)) :
    cpPackTotalBlockCount (doPack crc32 inp s m) = livePackBlocks inp := by
  have hbm := bitmapStart_lt_payload l
  calc cpPackTotalBlockCount (doPack crc32 inp s m)
      = cpPackTotalBlockCount (packHeader crc32 inp (m s)) :=
        getLe_congr fun k hk =>
          doPack_of_lt hs (lt_trans (show 136 + k < bitmapStart by unfold bitmapStart; omega) hbm)
    _ = livePackBlocks inp := cpPackTotalBlockCount_packHeader hc

/-- The conditions are necessary. -/
lemma LeavesDoPack.faithful (hs : s ≠ .pages) (hreason : remainNodeSummaries inp.reason = false)
    (hok : HeadersOk inp m s t) (h : LeavesDoPack crc32 inp m s t) :
    BnvmFaithful crc32 inp m s t := by
  obtain ⟨m', hrun, heq, -⟩ := h
  rw [cpPackTotalBlockCount_doPack hs hok.ckpt] at heq
  obtain ⟨hset, hpack⟩ := (exec_bnvm crc32 hreason hok).1 m' hrun
  have hbm := bitmapStart_lt_payload l
  have hstart : blockSize * (1 + l.cpPayload) ≤ blockSize * livePackBlocks inp := by
    refine Nat.mul_le_mul_left _ ?_
    rw [livePackBlocks_eq hreason, summaryStart]
    omega
  have hfront : ∀ x < blockSize * (1 + l.cpPayload),
      bnvmPackHeader crc32 inp m s t x = packHeader crc32 inp (m s) x := by
    intro x hx
    rw [← hpack.front x hx, heq x (by omega), doPack_of_lt hs hx]
  have hcompact : compactLive inp = true := by
    calc compactLive inp
        = isSetCkptFlags (packHeader crc32 inp (m s)) cpCompactSumFlag :=
          (compact_packHeader hok.ckpt).symm
      _ = isSetCkptFlags (bnvmPackHeader crc32 inp m s t) cpCompactSumFlag :=
          (isSetCkptFlags_congr fun x hx => hfront x (by omega)).symm
      _ = true := hset
  obtain ⟨htotal, hother⟩ := (front_iff hreason hok.ckpt).mp hfront
  obtain ⟨hgap1, hgap2⟩ := (blocks_iff hs hreason hok.ckpt hcompact hpack hfront).mp heq
  exact
    { compact := hcompact
      total := htotal
      orphanGaps := hgap1
      summaryGaps := hgap2
      fields := fun h => (hother h).1
      flag := fun h => by rw [(hother h).2.1.1, hcompact]
      nsb := fun h => (hother h).2.1.2
      crc := fun h => (hother h).2.2 }

/-- The conditions are sufficient. -/
lemma BnvmFaithful.leavesDoPack (hs : s ≠ .pages) (hreason : remainNodeSummaries inp.reason = false)
    (hok : HeadersOk inp m s t) (h : BnvmFaithful crc32 inp m s t) :
    LeavesDoPack crc32 inp m s t := by
  have hbm := bitmapStart_lt_payload l
  have hge := livePackBlocks_ge inp
  have hle : livePackBlocks inp ≤ blocksPerSeg := packBlocks_le inp (liveTypes inp)
  have htotal : cpPackTotalBlockCount (doPack crc32 inp s m) = livePackBlocks inp :=
    cpPackTotalBlockCount_doPack hs hok.ckpt
  have hfront : ∀ x < blockSize * (1 + l.cpPayload),
      bnvmPackHeader crc32 inp m s t x = packHeader crc32 inp (m s) x :=
    (front_iff hreason hok.ckpt).mpr ⟨h.total, fun hts =>
      ⟨h.fields hts, ⟨by rw [h.flag hts, h.compact], h.nsb hts⟩, h.crc hts⟩⟩
  have hset : isSetCkptFlags (bnvmPackHeader crc32 inp m s t) cpCompactSumFlag = true := by
    rw [isSetCkptFlags_congr fun x hx => hfront x (by omega), compact_packHeader hok.ckpt, h.compact]
  obtain ⟨hpack, hruns⟩ := exec_bnvm crc32 hreason hok
  obtain ⟨m', hrun⟩ := hruns hset
  have heq := (blocks_iff hs hreason hok.ckpt h.compact (hpack m' hrun).2 hfront).mpr
    ⟨h.orphanGaps, h.summaryGaps⟩
  refine ⟨m', hrun, htotal ▸ heq, ?_⟩
  rw [validate_of_eq htotal (by omega) (by unfold blocksPerSeg at hle; omega) heq]
  exact doPack_validates hs hok.ckpt

/-- **When the pack in NVM is the pack `do_checkpoint` would have written.**  `p` is the pack
`sbi->ckpt` points into and `cur` is `cur_cp_pack`. -/
theorem bnvm_leaves_do_pack_iff (crc32 : List Byte → BitVec 32) (inp : CpInput l) (m : CpMem)
    (p cur : CpPack) (hreason : remainNodeSummaries inp.reason = false)
    (hok : HeadersOk inp m (.nvm p) (.nvm cur.next)) :
    LeavesDoPack crc32 inp m (.nvm p) (.nvm cur.next)
      ↔ BnvmFaithful crc32 inp m (.nvm p) (.nvm cur.next) :=
  ⟨fun h => h.faithful (by simp) hreason hok, fun h => h.leavesDoPack (by simp) hreason hok⟩

/-! ## Two checkpoints of an idle file system -/

def idleLayout : CpLayout where
  cpBlkaddr := 512
  cpPayload := 0
  natBitsBlocks := 0
  segmentCount := 24
  segmentCountCkpt := 2
  segmentCountSit := 2
  segmentCountNat := 2
  segmentCountSsa := 1
  segmentCountMain := 16
  payload_fits := by decide
  natBits_le := by decide
  cp_end := by decide
  main_lt := by decide

def idleSeg : CurSeg idleLayout where
  segno := 0
  nextBlkoff := 0
  allocType := 0
  entries := fun _ => 0
  journal := fun _ => 0
  footer := fun _ => 0
  segno_lt := by decide
  blkoff_lt := by decide

/-- A checkpoint with the reason `CP_SYNC`, at the time `t`. -/
def idleInput (t : ℕ) : CpInput idleLayout where
  reason := cpSync
  validUserBlocks := 0
  validNodeCount := 0
  validInodeCount := 0
  nextFreeNid := 0
  mtime := t
  freeSegments := 0
  curseg := fun _ => idleSeg
  orphans := []
  sitBitmap := fun _ => 0
  sitBitmapSize := 0
  natBitmap := fun _ => 0
  natBitmapSize := 0
  natBits := fun _ => 0
  nsbDirty := false
  needFsck := false
  kbytesWritten := 0
  orphans_le := Nat.zero_le _

/-- A header of version 2 with its checksum at the end of the block, for a pack of three blocks. -/
def idleHeader : Area :=
  overlay (fun _ => 0) [putLe 0 8 2, putLe 136 4 3, putLe 140 4 1, putLe 164 4 4092]

def idleMem : CpMem := fun _ => idleHeader

lemma idleHeader_placed : CrcPlaced idleHeader where
  behind := by decide
  inside := by decide

lemma idle_headersOk (t : ℕ) (p q : CpPack) :
    HeadersOk (idleInput t) idleMem (.nvm p) (.nvm q) where
  ckpt := idleHeader_placed
  target := idleHeader_placed.inside
  sit_fits := by
    show sitBitmapPtr idleLayout idleHeader + 0 ≤ _
    decide
  nat_fits := by
    show natBitmapPtr idleLayout idleHeader + 0 ≤ _
    decide

/-- The header that an idle checkpoint at the time 60 leaves, with its flags and its checksum. -/
def settledFields : Area :=
  overlay idleHeader [putLe 168 8 60, putFlags (cpCompactSumFlag ||| cpCrcRecoveryFlag)]

/-- `sbi->ckpt` points into the first pack, and the other one holds an older header. -/
def settledMem : CpMem := fun r =>
  if r = .nvm .one then storeCrc f2fsCrc32 settledFields else idleHeader

lemma settledFields_placed : CrcPlaced settledFields where
  behind := by decide
  inside := by decide

lemma settledMem_one : settledMem (.nvm .one) = storeCrc f2fsCrc32 settledFields := if_pos rfl

lemma getLe_settledMem {off w : ℕ} (hw : off + w ≤ bitmapStart) :
    getLe (settledMem (.nvm .one)) off w = getLe settledFields off w := by
  rw [settledMem_one]
  exact getLe_storeCrc settledFields_placed hw

lemma ckptFlags_settledMem :
    ckptFlags (settledMem (.nvm .one)) = cpCompactSumFlag ||| cpCrcRecoveryFlag := by
  rw [ckptFlags, getLe_settledMem (by decide)]
  decide

lemma settled_headersOk : HeadersOk (idleInput 60) settledMem (.nvm .one) (.nvm .two) where
  ckpt := settledMem_one ▸ settledFields_placed.storeCrc
  target := idleHeader_placed.inside
  sit_fits := by
    show sitBitmapPtr idleLayout _ + 0 ≤ _
    rw [sitBitmapPtr, isSetCkptFlags, ckptFlags_settledMem]
    decide
  nat_fits := by
    show natBitmapPtr idleLayout _ + 0 ≤ _
    rw [natBitmapPtr, isSetCkptFlags, ckptFlags_settledMem, sitVerBitmapBytesize,
      getLe_settledMem (by decide)]
    decide

/-- Its flags are those of the checkpoint already, and there are no bitmaps. -/
lemma headerWith_settledMem :
    headerWith (idleInput 60) [] (updatedFlags (idleInput 60) false) (settledMem (.nvm .one))
      = settledMem (.nvm .one) := by
  have hflags : updatedFlags (idleInput 60) false (ckptFlags (settledMem (.nvm .one)))
      = ckptFlags (settledMem (.nvm .one)) := by
    rw [ckptFlags_settledMem]
    decide
  rw [headerWith, overlay_nil, withFlags_eq_self hflags]
  refine overlay_eq_self fun p hp k hk => ?_
  simp only [bitmapPatches, idleInput, List.mem_cons, List.not_mem_nil, or_false] at hp
  rcases hp with rfl | rfl <;> exact absurd hk (Nat.not_lt_zero k)

/-- An idle checkpoint from one pack into the other is faithful, if it stores nothing but what the
first one has. -/
lemma settled_faithful :
    BnvmFaithful f2fsCrc32 (idleInput 60) settledMem (.nvm .one) (.nvm .two) where
  compact := by decide
  total := by
    rw [cpPackTotalBlockCount, getLe_settledMem (by decide)]
    decide
  orphanGaps := trivial
  summaryGaps := by
    refine ⟨fun j _ _ => ?_, trivial⟩
    show idleHeader (4096 + j) = 0
    rw [idleHeader, overlay_of_not_covered]
    rintro ⟨q, hq, hcov⟩
    simp only [List.mem_cons, List.not_mem_nil, or_false] at hq
    unfold Patch.Covers at hcov
    rcases hq with rfl | rfl | rfl | rfl <;> simp only [putLe_off, putLe_len] at hcov <;> omega
  fields := by
    intro _ p hp
    have hquiet : ∀ p ∈ sharedPatches (idleInput 60), p.Quiet settledFields := by
      unfold Patch.Quiet
      decide
    have hplace := sharedPatches_fields p hp
    refine (hquiet p hp).congr fun x hx => ?_
    unfold Patch.Covers at hx
    rw [settledMem_one, storeCrc_of_lt]
    show x < 4092
    omega
  flag := by
    intro _
    rw [isSetCkptFlags, ckptFlags_settledMem]
    decide
  nsb := fun _ => rfl
  crc := by
    intro _
    rw [headerWith_settledMem, settledMem_one]
    exact ((getCheckpointVersion_eq_some_iff settledFields_placed.storeCrc).mp
      (getCheckpointVersion_storeCrc settledFields_placed)).1

theorem bnvm_leaves_do_pack_iff_settled :
    LeavesDoPack f2fsCrc32 (idleInput 60) settledMem (.nvm .one) (.nvm .two) :=
  (bnvm_leaves_do_pack_iff f2fsCrc32 (idleInput 60) settledMem .one .one (by decide)
    settled_headersOk).mpr settled_faithful

/-- **The first checkpoint after a mount**: one second has passed, but the header that is copied
into the other pack still has the old time. -/
theorem bnvm_loses_elapsed_time :
    ¬ LeavesDoPack f2fsCrc32 (idleInput 1) idleMem (.nvm .one) (.nvm .two) := by
  intro h
  have hfaithful := h.faithful (by simp) (by decide) (idle_headersOk 1 .one .two)
  have hquiet := hfaithful.fields (by simp) (putLe 168 8 1)
    (by simp [sharedPatches, cursegPatches, idleInput])
  have htime : getLe idleHeader 168 8 = 1 := quiet_putLe_iff.mp hquiet
  exact absurd htime (by decide)

end Hoit
