import HoitF2fs.Node.FreeNid

/-!
# The list and the bitmaps of free nids

What the functions of the free nid list do to it: which nids are free afterwards, and which bits are
set.

* `ListOk` — the list has the free nids, and they are counted.
* `BitsOk` — a block that was not scanned has no bits, and **the count of a block is the number of
  its bits**.  Clearing a bit while a block is scanned leaves the count alone, which is right only
  because there is no bit to clear yet; this is why a block must not be scanned twice.
* `updateFreeNidBitmap_bit`, `addFreeNid_build_root`, `addFreeNid_flush_root` and the like — the
  functions, one field at a time.
-/

namespace Hoit.FreeNid

open Bitmap

variable {st : NatState} {f f' : FreeNids} {nid x : ℕ}

/-! ## Bits by nid -/

def FreeNids.scanned (f : FreeNids) (nid : ℕ) : Bool := f.natBlockBitmap (natBlockOffset nid)

def FreeNids.bit (f : FreeNids) (nid : ℕ) : Bool :=
  f.freeNidBitmap (natBlockOffset nid) (nid % natEntryPerBlock)

lemma nid_ext (hb : natBlockOffset x = natBlockOffset nid)
    (hi : x % natEntryPerBlock = nid % natEntryPerBlock) : x = nid := by
  calc x = natEntryPerBlock * natBlockOffset x + x % natEntryPerBlock := (Nat.div_add_mod _ _).symm
    _ = natEntryPerBlock * natBlockOffset nid + nid % natEntryPerBlock := by rw [hb, hi]
    _ = nid := Nat.div_add_mod _ _

lemma nid_mod_lt (nid : ℕ) : nid % natEntryPerBlock < natEntryPerBlock :=
  Nat.mod_lt _ (by simp [natEntryPerBlock])

/-! ## Well-formedness -/

structure ListOk (f : FreeNids) : Prop where
  nodup : f.freeNidList.Nodup
  mem : ∀ nid, nid ∈ f.freeNidList ↔ f.freeNidRoot nid = some .freeNid
  cnt : f.nidCnt .freeNid = f.freeNidList.length

structure BitsOk (f : FreeNids) : Prop where
  unscanned : ∀ b i, f.natBlockBitmap b = false → f.freeNidBitmap b i = false
  count : ∀ b, f.freeNidCount b = setBits (f.freeNidBitmap b) natEntryPerBlock

/-- The list and what counts it are the same. -/
structure SameList (f f' : FreeNids) : Prop where
  root : f'.freeNidRoot = f.freeNidRoot
  list : f'.freeNidList = f.freeNidList
  cnt : f'.nidCnt = f.nidCnt

/-- The bitmaps and what counts them are the same. -/
structure SameBits (f f' : FreeNids) : Prop where
  bitmap : f'.freeNidBitmap = f.freeNidBitmap
  blocks : f'.natBlockBitmap = f.natBlockBitmap
  count : f'.freeNidCount = f.freeNidCount

lemma ListOk.same (h : ListOk f) (hs : SameList f f') : ListOk f' where
  nodup := by rw [hs.list]; exact h.nodup
  mem := by rw [hs.list, hs.root]; exact h.mem
  cnt := by rw [hs.list, hs.cnt]; exact h.cnt

lemma BitsOk.same (h : BitsOk f) (hs : SameBits f f') : BitsOk f' where
  unscanned := by rw [hs.bitmap, hs.blocks]; exact h.unscanned
  count := by rw [hs.bitmap, hs.count]; exact h.count

lemma SameBits.refl (f : FreeNids) : SameBits f f := ⟨rfl, rfl, rfl⟩

lemma SameBits.trans {f'' : FreeNids} (h : SameBits f f') (h' : SameBits f' f'') :
    SameBits f f'' :=
  ⟨h'.bitmap.trans h.bitmap, h'.blocks.trans h.blocks, h'.count.trans h.count⟩

lemma SameBits.scanned (h : SameBits f f') (x : ℕ) : f'.scanned x = f.scanned x := by
  rw [FreeNids.scanned, FreeNids.scanned, h.blocks]

lemma SameBits.bit (h : SameBits f f') (x : ℕ) : f'.bit x = f.bit x := by
  rw [FreeNids.bit, FreeNids.bit, h.bitmap]

lemma BitsOk.bit_unscanned (h : BitsOk f) (hx : f.scanned x = false) : f.bit x = false :=
  h.unscanned _ _ hx

/-- Some nid is free iff the count is not 0. -/
lemma ListOk.cnt_ne_zero (h : ListOk f) :
    f.nidCnt .freeNid ≠ 0 ↔ ∃ nid, f.freeNidRoot nid = some .freeNid := by
  rw [h.cnt, ← Nat.pos_iff_ne_zero, List.length_pos_iff_exists_mem]
  exact exists_congr h.mem

/-- The head of the list is free. -/
lemma ListOk.head_free (h : ListOk f) (hne : f.nidCnt .freeNid ≠ 0) :
    f.freeNidRoot (f.freeNidList.headD 0) = some .freeNid := by
  rw [← h.mem]
  rw [h.cnt] at hne
  cases hl : f.freeNidList with
  | nil => exact absurd (by simp [hl]) hne
  | cons nid rest => simp

/-! ## The list -/

lemma insertFreeNid_root (nid x : ℕ) :
    ((insertFreeNid f nid .freeNid).getD f).freeNidRoot x
      = if x = nid ∧ f.freeNidRoot nid = none then some .freeNid else f.freeNidRoot x := by
  unfold insertFreeNid
  cases hr : f.freeNidRoot nid with
  | some s => simp
  | none => simp [Function.update_apply]

lemma insertFreeNid_bits (nid : ℕ) : SameBits f ((insertFreeNid f nid .freeNid).getD f) := by
  unfold insertFreeNid
  cases f.freeNidRoot nid with
  | some s => exact SameBits.refl f
  | none => exact ⟨rfl, rfl, rfl⟩

lemma insertFreeNid_available (nid : ℕ) :
    ((insertFreeNid f nid .freeNid).getD f).availableNids = f.availableNids := by
  unfold insertFreeNid
  cases f.freeNidRoot nid <;> rfl

lemma insertFreeNid_next (nid : ℕ) :
    ((insertFreeNid f nid .freeNid).getD f).nextScanNid = f.nextScanNid := by
  unfold insertFreeNid
  cases f.freeNidRoot nid <;> rfl

lemma ListOk.insert (h : ListOk f) (nid : ℕ) :
    ListOk ((insertFreeNid f nid .freeNid).getD f) := by
  unfold insertFreeNid
  cases hr : f.freeNidRoot nid with
  | some s => exact h
  | none =>
      have hnot : nid ∉ f.freeNidList := by simp [h.mem, hr]
      refine ⟨?_, fun x => ?_, ?_⟩
      · exact h.nodup.append (List.nodup_singleton nid) (by simpa using hnot)
      · by_cases hx : x = nid
        · simp [hx]
        · simp [hx, h.mem]
      · simp [h.cnt]

/-- The count grows, if at all. -/
lemma insertFreeNid_cnt_le (nid : ℕ) :
    f.nidCnt .freeNid ≤ ((insertFreeNid f nid .freeNid).getD f).nidCnt .freeNid := by
  unfold insertFreeNid
  cases f.freeNidRoot nid <;> simp

lemma innerRemoveFreeNid_root (nid x : ℕ) (state : NidState) :
    (innerRemoveFreeNid f nid state).freeNidRoot x
      = if x = nid then none else f.freeNidRoot x := by
  simp [innerRemoveFreeNid, Function.update_apply]

lemma innerRemoveFreeNid_bits (nid : ℕ) (state : NidState) :
    SameBits f (innerRemoveFreeNid f nid state) := ⟨rfl, rfl, rfl⟩

lemma ListOk.innerRemove (h : ListOk f) {state : NidState} (hr : f.freeNidRoot nid = some state) :
    ListOk (innerRemoveFreeNid f nid state) := by
  cases state with
  | freeNid =>
      have hmem : nid ∈ f.freeNidList := (h.mem nid).mpr hr
      refine ⟨h.nodup.erase nid, fun x => ?_, ?_⟩
      · by_cases hx : x = nid
        · simp [innerRemoveFreeNid, hx, h.nodup.mem_erase_iff]
        · simp [innerRemoveFreeNid, hx, h.nodup.mem_erase_iff, h.mem]
      · simp [innerRemoveFreeNid, List.length_erase_of_mem hmem, h.cnt]
  | preallocNid =>
      refine ⟨h.nodup, fun x => ?_, ?_⟩
      · by_cases hx : x = nid
        · simp [innerRemoveFreeNid, hx, h.mem, hr]
        · simp [innerRemoveFreeNid, hx, h.mem]
      · simp [innerRemoveFreeNid, h.cnt]

lemma moveFreeNid_root (nid x : ℕ) (orgState dstState : NidState) :
    (moveFreeNid f nid orgState dstState).freeNidRoot x
      = if x = nid then some dstState else f.freeNidRoot x := by
  simp [moveFreeNid, Function.update_apply]

lemma ListOk.allocate (h : ListOk f) (hr : f.freeNidRoot nid = some .freeNid) :
    ListOk (moveFreeNid f nid .freeNid .preallocNid) := by
  have hmem : nid ∈ f.freeNidList := (h.mem nid).mpr hr
  refine ⟨h.nodup.erase nid, fun x => ?_, ?_⟩
  · by_cases hx : x = nid
    · simp [moveFreeNid, hx, h.nodup.mem_erase_iff]
    · simp [moveFreeNid, hx, h.nodup.mem_erase_iff, h.mem]
  · simp [moveFreeNid, List.length_erase_of_mem hmem, h.cnt]

lemma ListOk.giveBack (h : ListOk f) (hr : f.freeNidRoot nid = some .preallocNid) :
    ListOk (moveFreeNid f nid .preallocNid .freeNid) := by
  have hnot : nid ∉ f.freeNidList := by simp [h.mem, hr]
  refine ⟨?_, fun x => ?_, ?_⟩
  · exact h.nodup.append (List.nodup_singleton nid) (by simpa using hnot)
  · by_cases hx : x = nid
    · simp [moveFreeNid, hx]
    · simp [moveFreeNid, hx, h.mem]
  · simp [moveFreeNid, h.cnt]

lemma removeFreeNid_root (nid x : ℕ) :
    (removeFreeNid f nid).freeNidRoot x
      = if x = nid ∧ f.freeNidRoot nid = some .freeNid then none else f.freeNidRoot x := by
  unfold removeFreeNid
  by_cases hr : f.freeNidRoot nid = some .freeNid
  · simp [hr, innerRemoveFreeNid_root]
  · simp [hr]

lemma removeFreeNid_bits (nid : ℕ) : SameBits f (removeFreeNid f nid) := by
  unfold removeFreeNid
  split_ifs
  · exact innerRemoveFreeNid_bits nid .freeNid
  · exact SameBits.refl f

lemma removeFreeNid_available (nid : ℕ) :
    (removeFreeNid f nid).availableNids = f.availableNids := by
  unfold removeFreeNid
  split_ifs <;> rfl

lemma removeFreeNid_next (nid : ℕ) : (removeFreeNid f nid).nextScanNid = f.nextScanNid := by
  unfold removeFreeNid
  split_ifs <;> rfl

lemma ListOk.remove (h : ListOk f) (nid : ℕ) : ListOk (removeFreeNid f nid) := by
  unfold removeFreeNid
  split_ifs with hr
  · exact h.innerRemove hr
  · exact h

lemma le_removeFreeNid_cnt (nid : ℕ) :
    f.nidCnt .freeNid ≤ (removeFreeNid f nid).nidCnt .freeNid + 1 := by
  unfold removeFreeNid
  split_ifs
  · simp only [innerRemoveFreeNid, Function.update_self]
    omega
  · omega

/-! ## The bitmaps -/

lemma updateFreeNidBitmap_list (nid : ℕ) (set build : Bool) :
    SameList f (updateFreeNidBitmap f nid set build) := by
  unfold updateFreeNidBitmap
  dsimp only
  split_ifs <;> exact ⟨rfl, rfl, rfl⟩

lemma updateFreeNidBitmap_available (nid : ℕ) (set build : Bool) :
    (updateFreeNidBitmap f nid set build).availableNids = f.availableNids := by
  unfold updateFreeNidBitmap
  dsimp only
  split_ifs <;> rfl

lemma updateFreeNidBitmap_next (nid : ℕ) (set build : Bool) :
    (updateFreeNidBitmap f nid set build).nextScanNid = f.nextScanNid := by
  unfold updateFreeNidBitmap
  dsimp only
  split_ifs <;> rfl

lemma updateFreeNidBitmap_blocks (nid : ℕ) (set build : Bool) :
    (updateFreeNidBitmap f nid set build).natBlockBitmap = f.natBlockBitmap := by
  unfold updateFreeNidBitmap
  dsimp only
  split_ifs <;> rfl

lemma updateFreeNidBitmap_scanned (nid x : ℕ) (set build : Bool) :
    (updateFreeNidBitmap f nid set build).scanned x = f.scanned x := by
  rw [FreeNids.scanned, updateFreeNidBitmap_blocks, FreeNids.scanned]

/-- The bitmap, where the block was scanned. -/
lemma updateFreeNidBitmap_bitmap (hs : f.scanned nid = true) (set build : Bool) :
    (updateFreeNidBitmap f nid set build).freeNidBitmap
      = Function.update f.freeNidBitmap (natBlockOffset nid)
          (Function.update (f.freeNidBitmap (natBlockOffset nid)) (nid % natEntryPerBlock)
            set) := by
  have hs' : f.natBlockBitmap (natBlockOffset nid) = true := hs
  unfold updateFreeNidBitmap
  cases hb : f.freeNidBitmap (natBlockOffset nid) (nid % natEntryPerBlock) with
  | false =>
      cases set with
      | false => simp [hs', hb]
      | true => simp [hs', hb]
  | true =>
      cases set with
      | false => cases build <;> simp [hs', hb]
      | true => simp [hs', hb]

lemma updateFreeNidBitmap_of_unscanned (hs : f.scanned nid = false) (set build : Bool) :
    updateFreeNidBitmap f nid set build = f := by
  have hs' : f.natBlockBitmap (natBlockOffset nid) = false := hs
  simp [updateFreeNidBitmap, hs']

lemma updateFreeNidBitmap_bit (nid x : ℕ) (set build : Bool) :
    (updateFreeNidBitmap f nid set build).bit x
      = if x = nid ∧ f.scanned nid = true then set else f.bit x := by
  cases hs : f.scanned nid with
  | false => simp [updateFreeNidBitmap_of_unscanned hs]
  | true =>
      rw [FreeNids.bit, updateFreeNidBitmap_bitmap hs]
      by_cases hx : x = nid
      · simp [hx]
      · by_cases hb : natBlockOffset x = natBlockOffset nid
        · have hi : x % natEntryPerBlock ≠ nid % natEntryPerBlock := fun hi => hx (nid_ext hb hi)
          simp [hx, hb, hi, FreeNids.bit]
        · simp [hx, hb, FreeNids.bit]

/-- **The counts stay right**, when no bit is cleared while a block is scanned. -/
lemma BitsOk.update {set build : Bool} (h : BitsOk f)
    (hb : build = true → set = false → f.bit nid = false) :
    BitsOk (updateFreeNidBitmap f nid set build) := by
  cases hs : f.scanned nid with
  | false => rwa [updateFreeNidBitmap_of_unscanned hs]
  | true =>
      have hset := setBits_update (f.freeNidBitmap (natBlockOffset nid)) (nid_mod_lt nid) set
      have hcount := h.count (natBlockOffset nid)
      refine ⟨fun b i hi => ?_, fun b => ?_⟩
      · rw [updateFreeNidBitmap_blocks] at hi
        rw [updateFreeNidBitmap_bitmap hs]
        have hne : b ≠ natBlockOffset nid := by
          rintro rfl
          rw [FreeNids.scanned, hi] at hs
          exact absurd hs (by simp)
        rw [Function.update_of_ne hne]
        exact h.unscanned b i hi
      · rw [updateFreeNidBitmap_bitmap hs]
        have hs' : f.natBlockBitmap (natBlockOffset nid) = true := hs
        by_cases hbn : b = natBlockOffset nid
        · subst hbn
          rw [Function.update_self]
          unfold updateFreeNidBitmap
          unfold FreeNids.bit at hb
          cases set <;> cases hv : f.freeNidBitmap (natBlockOffset nid) (nid % natEntryPerBlock) <;>
            cases build <;> simp [hs', hv] at hset hb ⊢ <;> omega
        · rw [Function.update_of_ne hbn, ← h.count b]
          unfold updateFreeNidBitmap
          dsimp only
          split_ifs <;> simp [hbn]

/-! ## `add_free_nid` -/

/-- The nid is recognised as free by a scan. -/
def recognised (st : NatState) (f : FreeNids) (nid : ℕ) : Bool :=
  nid != 0 && !cachedInUse st nid && f.freeNidRoot nid != some .preallocNid

lemma recognised_of_ne (hn : nid ≠ 0) :
    recognised st f nid = (!cachedInUse st nid && f.freeNidRoot nid != some .preallocNid) := by
  have hn' : (nid != 0) = true := by simpa using hn
  rw [recognised, hn', Bool.true_and]

/-- What a scan does for a nid: the list, and then the bitmap. -/
lemma addFreeNid_build (hn : nid ≠ 0) (update : Bool) :
    addFreeNid st f nid true update
      = (recognised st f nid,
          let f₁ := if cachedInUse st nid then f else (insertFreeNid f nid .freeNid).getD f
          if update then updateFreeNidBitmap f₁ nid (recognised st f nid) true else f₁) := by
  have hfree : (NidState.preallocNid == NidState.freeNid) = false := rfl
  have hnone : ((none : Option NidState) != some .preallocNid) = true := rfl
  have hsome : (some NidState.freeNid != some .preallocNid) = true := rfl
  rw [recognised_of_ne hn]
  unfold addFreeNid
  rw [if_neg hn]
  cases hu : cachedInUse st nid with
  | true => cases update <;> simp
  | false =>
      cases hr : f.freeNidRoot nid with
      | none => cases update <;> simp [hnone]
      | some s =>
          cases s with
          | freeNid => cases update <;> simp [insertFreeNid, hr, hsome]
          | preallocNid => cases update <;> simp [insertFreeNid, hr, hfree]

lemma addFreeNid_zero (build update : Bool) : addFreeNid st f 0 build update = (false, f) := by
  simp [addFreeNid]

lemma recognised_zero : recognised st f 0 = false := by
  simp [recognised]

lemma addFreeNid_build_root (nid x : ℕ) (update : Bool) :
    (addFreeNid st f nid true update).2.freeNidRoot x
      = if x = nid ∧ recognised st f nid = true ∧ f.freeNidRoot nid = none then some .freeNid
        else f.freeNidRoot x := by
  by_cases hn : nid = 0
  · subst hn
    simp [addFreeNid_zero, recognised_zero]
  · rw [addFreeNid_build hn, recognised_of_ne hn]
    cases hu : cachedInUse st nid with
    | true => cases update <;> simp [(updateFreeNidBitmap_list _ _ _).root]
    | false =>
        cases hr : f.freeNidRoot nid with
        | none =>
            cases update <;> simp [(updateFreeNidBitmap_list _ _ _).root, insertFreeNid_root, hr]
        | some s =>
            cases update <;> simp [(updateFreeNidBitmap_list _ _ _).root, insertFreeNid_root, hr]

lemma addFreeNid_build_available (nid : ℕ) (update : Bool) :
    (addFreeNid st f nid true update).2.availableNids = f.availableNids := by
  by_cases hn : nid = 0
  · simp [hn, addFreeNid_zero]
  · rw [addFreeNid_build hn]
    cases cachedInUse st nid <;> cases update <;>
      simp [updateFreeNidBitmap_available, insertFreeNid_available]

lemma addFreeNid_build_next (nid : ℕ) (update : Bool) :
    (addFreeNid st f nid true update).2.nextScanNid = f.nextScanNid := by
  by_cases hn : nid = 0
  · simp [hn, addFreeNid_zero]
  · rw [addFreeNid_build hn]
    cases cachedInUse st nid <;> cases update <;>
      simp [updateFreeNidBitmap_next, insertFreeNid_next]

lemma addFreeNid_build_bits (nid : ℕ) : SameBits f (addFreeNid st f nid true false).2 := by
  by_cases hn : nid = 0
  · simpa [hn, addFreeNid_zero] using SameBits.refl f
  · rw [addFreeNid_build hn]
    cases cachedInUse st nid with
    | true => exact SameBits.refl f
    | false => exact insertFreeNid_bits nid

lemma addFreeNid_build_blocks (nid : ℕ) :
    (addFreeNid st f nid true true).2.natBlockBitmap = f.natBlockBitmap := by
  by_cases hn : nid = 0
  · simp [hn, addFreeNid_zero]
  · rw [addFreeNid_build hn]
    cases cachedInUse st nid <;> simp [updateFreeNidBitmap_blocks, (insertFreeNid_bits nid).blocks]

lemma addFreeNid_build_bit (hn : nid ≠ 0) (x : ℕ) :
    (addFreeNid st f nid true true).2.bit x
      = if x = nid ∧ f.scanned nid = true then recognised st f nid else f.bit x := by
  rw [addFreeNid_build hn]
  cases cachedInUse st nid <;>
    simp [updateFreeNidBitmap_bit, (insertFreeNid_bits nid).scanned, (insertFreeNid_bits nid).bit]

lemma ListOk.add_build (h : ListOk f) (nid : ℕ) (update : Bool) :
    ListOk (addFreeNid st f nid true update).2 := by
  by_cases hn : nid = 0
  · simpa [hn, addFreeNid_zero] using h
  · rw [addFreeNid_build hn]
    have hins :
        ListOk (if cachedInUse st nid then f else (insertFreeNid f nid .freeNid).getD f) := by
      split_ifs
      · exact h
      · exact h.insert nid
    cases update with
    | false => simpa using hins
    | true => exact hins.same (updateFreeNidBitmap_list _ _ _)

lemma BitsOk.add_build (h : BitsOk f) (hb : f.bit nid = false) :
    BitsOk (addFreeNid st f nid true true).2 := by
  by_cases hn : nid = 0
  · simpa [hn, addFreeNid_zero] using h
  · rw [addFreeNid_build hn]
    have hsame := insertFreeNid_bits (f := f) nid
    cases cachedInUse st nid with
    | true => exact h.update fun _ _ => hb
    | false => exact (h.same hsame).update fun _ _ => by rwa [hsame.bit]

lemma addFreeNid_build_cnt_le (nid : ℕ) :
    f.nidCnt .freeNid ≤ (addFreeNid st f nid true false).2.nidCnt .freeNid := by
  by_cases hn : nid = 0
  · simp [hn, addFreeNid_zero]
  · rw [addFreeNid_build hn]
    cases cachedInUse st nid with
    | true => exact le_refl _
    | false => exact insertFreeNid_cnt_le nid

/-- What a flush does for a nid that is free. -/
lemma addFreeNid_flush_snd (hn : nid ≠ 0) :
    (addFreeNid st f nid false true).2
      = { updateFreeNidBitmap ((insertFreeNid f nid .freeNid).getD f) nid true false with
          availableNids := f.availableNids + 1 } := by
  simp [addFreeNid, hn, updateFreeNidBitmap_available, insertFreeNid_available]

end Hoit.FreeNid
