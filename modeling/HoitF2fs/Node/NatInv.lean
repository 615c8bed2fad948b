import Mathlib.Data.Nat.Bitwise
import HoitF2fs.Node.NatCache

/-!
# The NAT keeps what is recorded

`NatInv` relates everything that holds a copy of an entry to the ghost `recorded`: the cache holds
what is recorded, the device holds it for every node that is not dirty, and **neither the journal
nor a NAT block is ever ahead of what it is a copy of**, nor a NAT block ahead of the journal.

* `natBlockEntry_getNextNatPage`, `natBlockEntry_writeToBlock` — the pair of copies behaves like
  one block; the XOR of `next_nat_addr` leads to the other copy (`nextNatAddr_copy`).
* `NatInv.setNodeAddr`, `NatInv.getNodeInfo`, `NatInv.tryToFreeNats` — the calls that do not touch
  the device.  No check in them fires.
-/

namespace Hoit

open Transition

variable {g : NatGeometry} {st st' : NatState} {nid b : ℕ} {e ne : NatEntry}

/-! ## The two copies of a block -/

lemma natCopyAddr_eq (v : Bool) (b : ℕ) :
    natCopyAddr g v b = g.natBlkaddr + (512 * (2 * (b / 512) + v.toNat) + b % 512) := by
  have hand : b &&& (blocksPerSeg - 1) = b % 512 := Nat.and_two_pow_sub_one_eq_mod b 9
  rw [natCopyAddr, hand, Nat.shiftLeft_eq]
  cases v <;> simp [blocksPerSeg] <;> omega

lemma natCopyAddr_separate (g : NatGeometry) (n : ℕ) : Shadow.Separate (natCopyAddr g) n := by
  intro v w p q _ _ h
  rw [natCopyAddr_eq, natCopyAddr_eq] at h
  cases v <;> cases w <;> simp only [Bool.toNat_false, Bool.toNat_true] at h ⊢ <;> simp <;> omega

lemma currentNatAddr_eq (st : NatState) (b : ℕ) :
    currentNatAddr g st b = natCopyAddr g (st.nat.ver b) b := by
  cases hv : st.nat.ver b <;> simp [currentNatAddr, natCopyAddr, hv]

lemma xor_blocksPerSeg {a o : ℕ} (ho : o < 2 ^ 9) :
    (2 ^ 9 * a + o) ^^^ 2 ^ 9 = 2 ^ 9 * (a ^^^ 2 ^ 0) + o := by
  refine Nat.eq_of_testBit_eq fun j => ?_
  rw [Nat.testBit_xor, Nat.testBit_two_pow_mul_add _ ho, Nat.testBit_two_pow_mul_add _ ho,
    Nat.testBit_two_pow, Nat.testBit_xor, Nat.testBit_two_pow]
  by_cases hj : j < 9
  · have hne : ¬ 9 = j := by omega
    simp [hj, hne]
  · have heq : (9 = j) ↔ (0 = j - 9) := by omega
    simp [hj, heq]

/-- The XOR swaps the segment of a pair. -/
lemma nextNatAddr_copy (v : Bool) (b : ℕ) :
    nextNatAddr g (natCopyAddr g v b) = natCopyAddr g (!v) b := by
  have hxor := xor_blocksPerSeg (a := 2 * (b / 512) + v.toNat) (o := b % 512)
    (Nat.mod_lt _ (by decide))
  have hflip : (2 * (b / 512) + v.toNat) ^^^ 2 ^ 0 = 2 * (b / 512) + (!v).toNat := by
    cases v with
    | false => simp
    | true =>
        have hodd := Nat.xor_one_of_odd (odd_two_mul_add_one (b / 512))
        simpa using hodd
  rw [hflip] at hxor
  rw [natCopyAddr_eq, natCopyAddr_eq, nextNatAddr, Nat.add_sub_cancel_left]
  change ((2 ^ 9 * (2 * (b / 512) + v.toNat) + b % 512) ^^^ 2 ^ 9) + g.natBlkaddr = _
  rw [hxor]
  omega

lemma natBlockOffset_lt (h : nid < g.maxNid) : natBlockOffset nid < g.natBlocks := by
  rw [natBlockOffset, Nat.div_lt_iff_lt_mul (by decide)]
  rwa [NatGeometry.maxNid, Nat.mul_comm] at h

lemma natBlockEntry_eq (st : NatState) (nid : ℕ) :
    natBlockEntry g st nid
      = Shadow.readCurrent (natCopyAddr g) st.nat (natBlockOffset nid) (nid % natEntryPerBlock) := by
  rw [natBlockEntry, currentNatAddr_eq]
  rfl

/-- The copy is the same block. -/
lemma natBlockEntry_getNextNatPage (hb : b < g.natBlocks) (hnid : nid < g.maxNid) :
    natBlockEntry g (getNextNatPage g st b) nid = natBlockEntry g st nid := by
  have hnat : (getNextNatPage g st b).nat
      = Shadow.writeNext (natCopyAddr g) st.nat b
          (Shadow.readCurrent (natCopyAddr g) st.nat b) := by
    simp only [getNextNatPage, currentNatAddr_eq, nextNatAddr_copy]
    rfl
  rw [natBlockEntry_eq, natBlockEntry_eq, hnat,
    Shadow.writeNext_read (natCopyAddr_separate g g.natBlocks) hb (natBlockOffset_lt hnid)]
  split_ifs with h
  · rw [h]
  · rfl

/-- Writing one entry changes one entry. -/
lemma natBlockEntry_writeToBlock {r : Recorded} {x : ℕ} (hnid : nid < g.maxNid)
    (hx : x < g.maxNid) :
    natBlockEntry g (writeToBlock g st nid r) x = if x = nid then r else natBlockEntry g st x := by
  have hnat : (writeToBlock g st nid r).nat
      = Shadow.writeCurrent (natCopyAddr g) st.nat (natBlockOffset nid)
          (Function.update (Shadow.readCurrent (natCopyAddr g) st.nat (natBlockOffset nid))
            (nid % natEntryPerBlock) r) := by
    simp only [writeToBlock, currentNatAddr_eq]
    rfl
  rw [natBlockEntry_eq, natBlockEntry_eq, hnat,
    Shadow.writeCurrent_read (natCopyAddr_separate g g.natBlocks) (natBlockOffset_lt hnid)
      (natBlockOffset_lt hx)]
  by_cases hxn : x = nid
  · simp [hxn]
  · rw [if_neg hxn]
    split_ifs with hb
    · have hmod : x % natEntryPerBlock ≠ nid % natEntryPerBlock := by
        intro hmod
        refine hxn ?_
        rw [← Nat.div_add_mod x natEntryPerBlock, ← Nat.div_add_mod nid natEntryPerBlock, hmod]
        unfold natBlockOffset at hb
        rw [hb]
      rw [Function.update_of_ne hmod, hb]
    · rfl

/-! ## The invariant -/

/-- What is on the device is older than or the same as what is recorded. -/
structure DeviceOk (g : NatGeometry) (st : NatState) : Prop where
  nodup : (Journal.keys st.journal).Nodup
  length_le : st.journal.length ≤ natJournalEntries
  bound : ∀ nid ∈ Journal.keys st.journal, nid < g.maxNid
  /-- **No journal entry is older than the NAT block entry it overrides.** -/
  not_older : ∀ nid r, Journal.get st.journal nid = some r →
    (natBlockEntry g st nid).stamp ≤ r.stamp
  journal_stamp : ∀ nid r, Journal.get st.journal nid = some r →
    r.stamp ≤ (st.recorded nid).stamp
  block_stamp : ∀ nid, nid < g.maxNid → (natBlockEntry g st nid).stamp ≤ (st.recorded nid).stamp
  journal_addr : ∀ nid r, Journal.get st.journal nid = some r → r.ni.blkAddr ≠ newAddr
  block_addr : ∀ nid, nid < g.maxNid → (natBlockEntry g st nid).ni.blkAddr ≠ newAddr

structure NatInv (g : NatGeometry) (st : NatState) : Prop where
  cache : CacheOk g st
  device : DeviceOk g st
  /-- The cache holds what is recorded. -/
  fresh : ∀ nid e, st.cache nid = some e → e.info = st.recorded nid
  /-- So does the device, unless the node is dirty. -/
  persistent : ∀ nid, nid < g.maxNid → st.dirty nid = false →
    persistentNat g st nid = st.recorded nid
  noBug : st.bugOn = false

/-- A node of a set without an address was freed since the last flush. -/
def FreedOk (st : NatState) : Prop :=
  ∀ nid e, st.cache nid = some e → e.inSet = true → e.info.ni.blkAddr = nullAddr →
    st.freed nid = true

lemma journalKey {r : Recorded} (h : Journal.get st.journal nid = some r) :
    nid ∈ Journal.keys st.journal := by
  rw [Journal.mem_keys_iff, h]
  rfl

lemma persistentNat_addr (h : DeviceOk g st) (hnid : nid < g.maxNid) :
    (persistentNat g st nid).ni.blkAddr ≠ newAddr := by
  unfold persistentNat
  cases hj : Journal.get st.journal nid with
  | none => exact h.block_addr nid hnid
  | some r => exact h.journal_addr nid r hj

/-- A step that leaves the device alone. -/
structure SameDevice (st st' : NatState) : Prop where
  journal : st'.journal = st.journal
  nat : st'.nat = st.nat

lemma SameDevice.block (h : SameDevice st st') (nid : ℕ) :
    natBlockEntry g st' nid = natBlockEntry g st nid := by
  rw [natBlockEntry_eq, natBlockEntry_eq, h.nat]

lemma SameDevice.persistent (h : SameDevice st st') (nid : ℕ) :
    persistentNat g st' nid = persistentNat g st nid := by
  rw [persistentNat, persistentNat, h.journal, h.block]

/-- What is recorded only grows. -/
lemma DeviceOk.of_sameDevice (h : DeviceOk g st) (hsame : SameDevice st st')
    (hrec : ∀ nid, (st.recorded nid).stamp ≤ (st'.recorded nid).stamp) : DeviceOk g st' where
  nodup := by rw [hsame.journal]; exact h.nodup
  length_le := by rw [hsame.journal]; exact h.length_le
  bound := by rw [hsame.journal]; exact h.bound
  not_older := by
    intro x r hr
    rw [hsame.journal] at hr
    rw [hsame.block]
    exact h.not_older x r hr
  journal_stamp := by
    intro x r hr
    rw [hsame.journal] at hr
    exact (h.journal_stamp x r hr).trans (hrec x)
  block_stamp := by
    intro x hx
    rw [hsame.block]
    exact (h.block_stamp x hx).trans (hrec x)
  journal_addr := by
    intro x r hr
    rw [hsame.journal] at hr
    exact h.journal_addr x r hr
  block_addr := by
    intro x hx
    rw [hsame.block]
    exact h.block_addr x hx

/-! ## The calls that leave the device alone -/

lemma allocNatEntry_isDirty (r : Recorded) : (allocNatEntry r).isDirty = false := rfl

/-- **The cache fill** puts in what the device says, which is what is recorded. -/
lemma NatInv.fill (h : NatInv g st) (hnone : st.cache nid = none) (hnid : nid < g.maxNid) :
    NatInv g (initNatEntry st nid (allocNatEntry (persistentNat g st nid))) where
  cache := h.cache.change (initNatEntry_change h.cache hnone hnid rfl rfl
    (persistentNat_addr h.device hnid))
  device := h.device.of_sameDevice ⟨rfl, rfl⟩ fun _ => le_rfl
  fresh := by
    intro x e' he'
    by_cases hx : x = nid
    · subst hx
      obtain rfl : allocNatEntry (persistentNat g st x) = e' := by
        simpa [initNatEntry] using he'
      exact h.persistent x hnid (by simp [NatState.dirty, hnone])
    · exact h.fresh x e' (by simpa [initNatEntry, hx] using he')
  persistent := by
    intro x hx hd
    rw [SameDevice.persistent ⟨rfl, rfl⟩]
    refine h.persistent x hx ?_
    by_cases hxn : x = nid
    · simp [NatState.dirty, hxn, hnone]
    · simpa [NatState.dirty, initNatEntry, hxn] using hd
  noBug := h.noBug

/-- **`f2fs_get_node_info` returns what is recorded.** -/
theorem f2fsGetNodeInfo_eq (h : NatInv g st) (hnid : nid < g.maxNid) (fill : Bool) :
    (f2fsGetNodeInfo g st nid fill).1 = (st.recorded nid).ni := by
  unfold f2fsGetNodeInfo
  cases hc : st.cache nid with
  | some e => exact congrArg Recorded.ni (h.fresh nid e hc)
  | none =>
      exact congrArg Recorded.ni (h.persistent nid hnid (by simp [NatState.dirty, hc]))

lemma NatInv.getNodeInfo (h : NatInv g st) (hnid : nid < g.maxNid) (fill : Bool) :
    NatInv g (f2fsGetNodeInfo g st nid fill).2 := by
  unfold f2fsGetNodeInfo
  cases hc : st.cache nid with
  | some e => exact h
  | none =>
      cases fill with
      | false => exact h
      | true => exact h.fill hc hnid

lemma NatInv.delFromNatCache (h : NatInv g st) (he : st.cache nid = some e)
    (hclean : e.isDirty = false) : NatInv g (delFromNatCache st nid) where
  cache := h.cache.change (delFromNatCache_change h.cache he hclean)
  device := h.device.of_sameDevice ⟨rfl, rfl⟩ fun _ => le_rfl
  fresh := by
    intro x e' he'
    by_cases hx : x = nid
    · simp [Hoit.delFromNatCache, hx] at he'
    · exact h.fresh x e' (by simpa [Hoit.delFromNatCache, hx] using he')
  persistent := by
    intro x hx hd
    rw [SameDevice.persistent ⟨rfl, rfl⟩]
    refine h.persistent x hx ?_
    by_cases hxn : x = nid
    · simp [NatState.dirty, hxn, he, hclean]
    · simpa [NatState.dirty, Hoit.delFromNatCache, hxn] using hd
  noBug := h.noBug

lemma NatInv.tryToFreeNats (h : NatInv g st) (nrShrink : ℕ) :
    NatInv g (f2fsTryToFreeNats st nrShrink) := by
  induction nrShrink generalizing st with
  | zero => exact h
  | succ n ih =>
      unfold f2fsTryToFreeNats
      cases hl : st.natEntries with
      | nil => exact h
      | cons x rest =>
          have hclean := (h.cache.mem_clean x).mp (by simp [hl])
          cases hc : st.cache x with
          | none => simp [NatState.clean, hc] at hclean
          | some e =>
              have hd : e.isDirty = false := by simpa [NatState.clean, hc] using hclean
              exact ih (h.delFromNatCache hc hd)

/-! ## Recording an address -/

variable {ni : NodeInfo} {newBlkaddr : BitVec 32}

/-- The entry that `set_node_addr` finds or makes. -/
structure EntryFound (g : NatGeometry) (st : NatState) (nid : ℕ) (ni : NodeInfo)
    (newBlkaddr : BitVec 32) (st₁ : NatState) (e : NatEntry) : Prop where
  cache : CacheOk g st₁
  device : SameDevice st st₁
  recorded : st₁.recorded = st.recorded
  freed : st₁.freed = st.freed
  bugOn : st₁.bugOn = st.bugOn
  other : ∀ x, x ≠ nid → st₁.cache x = st.cache x
  self : ∃ e₀, st₁.cache nid = some e₀ ∧ e.isDirty = e₀.isDirty ∧ e.isPrealloc = e₀.isPrealloc
  info : e.info.ni = ni
  notInSet : newBlkaddr = newAddr → e.inSet = false

/-- **The callers' promise is enough for the checks** on the entry. -/
lemma natEntryFor_found (h : NatInv g st) (hf : FreedOk st)
    (hp : CallerPromise g st nid ni newBlkaddr) :
    EntryFound g st nid ni newBlkaddr (natEntryFor st nid ni newBlkaddr).1
        (natEntryFor st nid ni newBlkaddr).2.1 ∧
      (natEntryFor st nid ni newBlkaddr).2.2 = false := by
  obtain ⟨hnid, hp⟩ := hp
  unfold natEntryFor
  cases hc : st.cache nid with
  | none =>
      have hdev := h.persistent nid hnid (by simp [NatState.dirty, hc])
      have haddr : ni.blkAddr ≠ newAddr := by
        split_ifs at hp with hnew
        · rw [hp.2.1]
          decide
        · rw [hp.2, ← hdev]
          exact persistentNat_addr h.device hnid
      refine ⟨⟨?_, ⟨rfl, rfl⟩, rfl, rfl, rfl, ?_, ?_, rfl, fun _ => rfl⟩, by simpa using haddr⟩
      · exact h.cache.change (initNatEntry_change h.cache hc hnid rfl rfl haddr)
      · intro x hx
        simp [initNatEntry, hx]
      · exact ⟨_, by simp [initNatEntry], rfl, rfl⟩
  | some e =>
      have hfresh := h.fresh nid e hc
      by_cases hnew : newBlkaddr = newAddr
      · rw [if_pos hnew] at hp
        simp only [hnew, if_true]
        refine ⟨⟨h.cache, ⟨rfl, rfl⟩, rfl, rfl, rfl, fun _ _ => rfl, ⟨e, hc, rfl, rfl⟩, rfl, fun _ => ?_⟩,
          by simp [hp.2.1]⟩
        -- An entry in a set without an address was freed, and is not used again so soon.
        by_contra hin
        have hin : e.inSet = true := by simpa [NatEntry.inSet] using hin
        have hfreed := hf nid e hc hin (by rw [hfresh, hp.1])
        rw [hp.2.2] at hfreed
        simp at hfreed
      · rw [if_neg hnew] at hp
        simp only [hnew, if_false]
        refine ⟨⟨h.cache, ⟨rfl, rfl⟩, rfl, rfl, rfl, fun _ _ => rfl, ⟨e, hc, rfl, rfl⟩, ?_, ?_⟩, trivial⟩
        · rw [hfresh, hp.2]
        · exact fun heq => absurd heq hnew

/-- The marks for fsync say nothing about the address. -/
lemma markFsync_cache {ino x : ℕ} {fsyncDone : Bool}
    (he : (markFsync st nid ino fsyncDone).cache x = some ne) :
    ∃ e, st.cache x = some e ∧ ne.info = e.info ∧ ne.isDirty = e.isDirty ∧
      ne.isPrealloc = e.isPrealloc ∧ ne.isCheckpointed = e.isCheckpointed := by
  unfold markFsync at he
  cases hc : st.cache ino with
  | none => exact ⟨ne, by simpa [hc] using he, rfl, rfl, rfl, rfl⟩
  | some e =>
      by_cases hx : x = ino
      · subst hx
        simp only [hc, Function.update_self, Option.some.injEq] at he
        subst he
        exact ⟨e, hc, rfl, rfl, rfl, rfl⟩
      · exact ⟨ne, by simpa [hc, hx] using he, rfl, rfl, rfl, rfl⟩

lemma markFsync_cache_none {ino x : ℕ} {fsyncDone : Bool}
    (he : (markFsync st nid ino fsyncDone).cache x = none) : st.cache x = none := by
  unfold markFsync at he
  cases hc : st.cache ino with
  | none => simpa [hc] using he
  | some e =>
      by_cases hx : x = ino
      · simp [hc, hx] at he
      · simpa [hc, hx] using he

lemma markFsync_eq (st : NatState) (nid ino : ℕ) (fsyncDone : Bool) :
    markFsync st nid ino fsyncDone
      = { st with cache := (markFsync st nid ino fsyncDone).cache } := by
  unfold markFsync
  cases st.cache ino <;> rfl

lemma NatInv.markFsync (h : NatInv g st) (nid ino : ℕ) (fsyncDone : Bool) :
    NatInv g (markFsync st nid ino fsyncDone) := by
  rw [markFsync_eq]
  refine ⟨h.cache.congr ?_ ?_ rfl rfl rfl, h.device.of_sameDevice ⟨rfl, rfl⟩ fun _ => le_rfl,
    ?_, ?_, h.noBug⟩
  · intro x e' he'
    obtain ⟨e, he, hi, hd, hp, -⟩ := markFsync_cache he'
    exact ⟨e, he, hi, hd, hp⟩
  · exact fun x hx => markFsync_cache_none hx
  · intro x e' he'
    obtain ⟨e, he, hi, -⟩ := markFsync_cache he'
    rw [hi]
    exact h.fresh x e he
  · intro x hx hd
    rw [SameDevice.persistent ⟨rfl, rfl⟩]
    refine h.persistent x hx ?_
    cases hc : st.cache x with
    | none => simp [NatState.dirty, hc]
    | some e =>
        cases hc' : (Hoit.markFsync st nid ino fsyncDone).cache x with
        | none => simp [markFsync_cache_none hc'] at hc
        | some e' =>
            obtain ⟨e₀, he₀, -, hd₀, -⟩ := markFsync_cache hc'
            obtain rfl : e = e₀ := by simpa [hc] using he₀
            simpa [NatState.dirty, hc, hc', hd₀] using hd

/-- The checks of `set_node_addr` on the two addresses. -/
lemma callerPromise_checks (hp : CallerPromise g st nid ni newBlkaddr) :
    ((ni.blkAddr == nullAddr && newBlkaddr == nullAddr) ||
      (ni.blkAddr == newAddr && newBlkaddr == newAddr) ||
      (decide (IsValidBlkaddr ni.blkAddr) && newBlkaddr == newAddr)) = false := by
  obtain ⟨-, hp⟩ := hp
  split_ifs at hp with hnew
  · have hne : ¬ nullAddr = newAddr := by decide
    have hne' : ¬ newAddr = nullAddr := by decide
    simp [hp.2.1, hnew, IsValidBlkaddr, hne, hne']
  · have hnn : ni.blkAddr ≠ nullAddr := by rw [hp.2]; exact hp.1
    simp [hnew, hnn]

/-- What `set_node_addr` leaves behind, up to the marks for fsync. -/
lemma NatInv.changeAddr {st₁ : NatState} (h : NatInv g st)
    (hp : CallerPromise g st nid ni newBlkaddr)
    (hfound : EntryFound g st nid ni newBlkaddr st₁ e) :
    NatInv g (changeAddr st₁ nid e false ni newBlkaddr) := by
  obtain ⟨e₀, he₀, hd, hpre⟩ := hfound.self
  have hsame : SameDevice st (Hoit.changeAddr st₁ nid e false ni newBlkaddr) :=
    ⟨hfound.device.journal, hfound.device.nat⟩
  have hrec : ∀ x, x ≠ nid →
      (Hoit.changeAddr st₁ nid e false ni newBlkaddr).recorded x = st.recorded x := by
    intro x hx
    simp [Hoit.changeAddr, setNatCacheDirty, hx, hfound.recorded]
  have hcache : ∀ x, x ≠ nid →
      (Hoit.changeAddr st₁ nid e false ni newBlkaddr).cache x = st.cache x := by
    intro x hx
    simp [Hoit.changeAddr, setNatCacheDirty, hx, hfound.other x hx]
  refine ⟨?_, h.device.of_sameDevice hsame fun x => ?_, fun x e' he' => ?_,
    fun x hxlt hdirty => ?_, ?_⟩
  · refine CacheOk.change ?_ (setNatCacheDirty_change ?_ he₀ hd hpre fun hnew => ?_)
    · exact hfound.cache.congr (fun x e' he' => ⟨e', he', rfl, rfl, rfl⟩) (fun _ hx => hx) rfl rfl rfl
    · exact hfound.cache.congr (fun x e' he' => ⟨e', he', rfl, rfl, rfl⟩) (fun _ hx => hx) rfl rfl rfl
    · have hin := hfound.notInSet hnew
      rwa [NatEntry.inSet, hd, hpre] at hin
  · by_cases hx : x = nid
    · simp [Hoit.changeAddr, setNatCacheDirty, hx, hfound.recorded]
    · rw [hrec x hx]
  · by_cases hx : x = nid
    · subst hx
      simp only [Hoit.changeAddr, setNatCacheDirty, Function.update_self, Option.some.injEq] at he'
      subst he'
      simp [Hoit.changeAddr, setNatCacheDirty, hfound.info]
    · rw [hcache x hx] at he'
      rw [hrec x hx]
      exact h.fresh x e' he'
  · by_cases hx : x = nid
    · simp [NatState.dirty, Hoit.changeAddr, setNatCacheDirty, hx] at hdirty
    · rw [hsame.persistent, hrec x hx]
      refine h.persistent x hxlt ?_
      rwa [NatState.dirty, hcache x hx] at hdirty
  · have hchecks := callerPromise_checks hp
    simp only [Hoit.changeAddr, setNatCacheDirty, hfound.bugOn, h.noBug, hfound.info, hchecks]
    simp

/-- **`set_node_addr` keeps the NAT a map**, and none of its checks fires. -/
lemma NatInv.setNodeAddr (h : NatInv g st) (hf : FreedOk st)
    (hp : CallerPromise g st nid ni newBlkaddr) (fsyncDone : Bool) :
    NatInv g (setNodeAddr st nid ni newBlkaddr fsyncDone) := by
  obtain ⟨hfound, hbug⟩ := natEntryFor_found h hf hp
  simp only [Hoit.setNodeAddr, hbug]
  exact (h.changeAddr hp hfound).markFsync nid ni.ino fsyncDone

/-! ## Freed nodes -/

lemma FreedOk.setNodeAddr (h : NatInv g st) (hf : FreedOk st)
    (hp : CallerPromise g st nid ni newBlkaddr) (fsyncDone : Bool) :
    FreedOk (setNodeAddr st nid ni newBlkaddr fsyncDone) := by
  obtain ⟨hfound, -⟩ := natEntryFor_found h hf hp
  intro x e' he' hin haddr
  simp only [Hoit.setNodeAddr] at he' ⊢
  rw [markFsync_eq]
  obtain ⟨e, he, hi, hd, hpre, -⟩ := markFsync_cache he'
  rw [hi] at haddr
  rw [NatEntry.inSet, hd, hpre] at hin
  by_cases hx : x = nid
  · subst hx
    simp only [changeAddr, setNatCacheDirty, Function.update_self, Option.some.injEq] at he ⊢
    subst he
    have hnull : newBlkaddr = nullAddr := haddr
    simp [hnull]
  · simp only [changeAddr, setNatCacheDirty, ne_eq, hx, not_false_eq_true,
      Function.update_of_ne] at he ⊢
    rw [hfound.other x hx] at he
    rw [hfound.freed]
    exact hf x e he hin haddr

lemma FreedOk.getNodeInfo (hf : FreedOk st) (fill : Bool) :
    FreedOk (f2fsGetNodeInfo g st nid fill).2 := by
  unfold f2fsGetNodeInfo
  cases hc : st.cache nid with
  | some e => exact hf
  | none =>
      cases fill with
      | false => exact hf
      | true =>
          intro x e' he' hin
          by_cases hx : x = nid
          · obtain rfl : allocNatEntry (persistentNat g st nid) = e' := by
              simpa [initNatEntry, hx] using he'
            exact absurd hin (by simp [NatEntry.inSet, allocNatEntry_isDirty])
          · exact hf x e' (by simpa [initNatEntry, hx] using he') hin

lemma FreedOk.tryToFreeNats (hf : FreedOk st) (nrShrink : ℕ) :
    FreedOk (f2fsTryToFreeNats st nrShrink) := by
  induction nrShrink generalizing st with
  | zero => exact hf
  | succ n ih =>
      unfold f2fsTryToFreeNats
      cases hl : st.natEntries with
      | nil => exact hf
      | cons y rest =>
          refine ih fun x e' he' => ?_
          by_cases hx : x = y
          · simp [delFromNatCache, hx] at he'
          · exact hf x e' (by simpa [delFromNatCache, hx] using he')

end Hoit
