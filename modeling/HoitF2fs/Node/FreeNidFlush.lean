import HoitF2fs.Node.FreeNidInv

/-!
# What a flush does to free nids

A flush counts every nid that is flushed without an address.  Those that were freed since the last
flush are counted for the first time.  Those that come from the journal were counted already, and so
are taken out of the count when the journal is emptied.

`Flushing` is the invariant: **`available_nids`, and the nids without an address that wait in the
sets, make up what they were at first.**  At the end nothing waits, and what waited at first is what
was freed (`card_discoverable_flush`).

* `flushNatEntry_nat`, `f2fsFlushNatEntries_nat` — the flush does to the NAT what it does in
  `HoitF2fs.Node.NatTable`.
* `Flushing.removed`, `Flushing.entry`, `Flushing.set` — the steps.
* `NidsOk.flush` — a flush keeps the invariant, and what `available_nids` is off by.
-/

namespace Hoit.FreeNid

variable {g : NatGeometry} {K : ℕ → Prop} {st st' : NatState} {f f' : FreeNids}
  {s s' s₀ : NodeManager} {nid x b : ℕ}

/-! ## The NAT -/

lemma flushNatEntry_nat (toJournal : Bool) (s : NodeManager) (nid : ℕ) :
    (flushNatEntry g toJournal s nid).nat = Hoit.flushNatEntry g toJournal s.nat nid := by
  unfold flushNatEntry
  cases hc : s.nat.cache nid with
  | none => simp [Hoit.flushNatEntry, hc]
  | some ne => rfl

lemma flushEntries_nat (toJournal : Bool) (s : NodeManager) (xs : List ℕ) :
    (xs.foldl (flushNatEntry g toJournal) s).nat
      = xs.foldl (Hoit.flushNatEntry g toJournal) s.nat := by
  induction xs generalizing s with
  | nil => rfl
  | cons x xs ih => rw [List.foldl_cons, List.foldl_cons, ih, flushNatEntry_nat]

lemma flushNatEntrySet_nat (natBits : Bool) (s : NodeManager) (b : ℕ) :
    (flushNatEntrySet g natBits s b).nat = Hoit.flushNatEntrySet g natBits s.nat b := by
  simp only [flushNatEntrySet, Hoit.flushNatEntrySet, flushEntries_nat, apply_ite NodeManager.nat]

lemma flushSets_nat (natBits : Bool) (s : NodeManager) (bs : List ℕ) :
    (bs.foldl (flushNatEntrySet g natBits) s).nat
      = bs.foldl (Hoit.flushNatEntrySet g natBits) s.nat := by
  induction bs generalizing s with
  | nil => rfl
  | cons b bs ih => rw [List.foldl_cons, List.foldl_cons, ih, flushNatEntrySet_nat]

lemma removeEntries_nat (s : NodeManager) (xs : List (ℕ × Recorded)) :
    (xs.foldl removeNatInJournal s).nat = xs.foldl Hoit.removeNatInJournal s.nat := by
  induction xs generalizing s with
  | nil => rfl
  | cons x xs ih => rw [List.foldl_cons, List.foldl_cons, ih]; rfl

lemma removeNatsInJournal_nat (s : NodeManager) :
    (removeNatsInJournal s).nat = Hoit.removeNatsInJournal s.nat := by
  simp only [removeNatsInJournal, Hoit.removeNatsInJournal, removeEntries_nat]

/-- **The flush of the NAT is the one without free nids.** -/
lemma f2fsFlushNatEntries_nat (s : NodeManager) (natBits : Bool) :
    (f2fsFlushNatEntries g s natBits).nat = Hoit.f2fsFlushNatEntries g s.nat natBits := by
  unfold f2fsFlushNatEntries Hoit.f2fsFlushNatEntries
  by_cases hzero : s.nat.dirtyNatCnt = 0
  · simp [hzero]
  · simp only [hzero, if_false, flushSets_nat, apply_ite NodeManager.nat, removeNatsInJournal_nat]

/-! ## The invariant -/

/-- A nid without an address that waits in a set. -/
def pending (st : NatState) (x : ℕ) : Bool :=
  st.inSet x && (st.recorded x).ni.blkAddr == nullAddr

structure Flushing (g : NatGeometry) (K : ℕ → Prop) (s₀ s : NodeManager) : Prop where
  inv : NatInv g s.nat
  marks : NatMarks s.nat
  pool : PoolOk g K s.nat s.free
  recorded : s.nat.recorded = s₀.nat.recorded
  freed : s.nat.freed = s₀.nat.freed
  prealloc : ∀ x, s.free.freeNidRoot x = some .preallocNid ↔
    s₀.free.freeNidRoot x = some .preallocNid
  count : s.free.availableNids + BitVec.ofNat 32 (g.nids (pending s.nat)).card
    = s₀.free.availableNids + BitVec.ofNat 32 (g.nids (pending s₀.nat)).card

/-- The NAT changes, and nothing that the list and the bitmaps depend on is lost. -/
lemma PoolOk.moveNat (h : PoolOk g K st f) (hrec : st'.recorded = st.recorded)
    (hfreed : st'.freed = st.freed)
    (hsource : ∀ x, x < g.maxNid → (st.recorded x).ni.blkAddr = nullAddr →
      JournalNull st x ∨ st.inSet x = true → JournalNull st' x ∨ st'.inSet x = true)
    (hbit : ∀ x, x < g.maxNid →
      blockNull g st x = true ∨ x ∈ Journal.keys st.journal ∨ st.dirty x = true →
      blockNull g st' x = true ∨ x ∈ Journal.keys st'.journal ∨ st'.dirty x = true) :
    PoolOk g K st' f where
  list := h.list
  bits := h.bits
  range := h.range
  null := by rw [hrec]; exact h.null
  prealloc := by rw [hfreed]; exact h.prealloc
  known := by
    intro x hx hnull hle hlt hpre hs
    rw [hrec] at hnull
    rcases h.known x hx hnull hle hlt hpre hs with hb | hsrc
    · exact Or.inl hb
    · exact Or.inr (hsource x hlt hnull hsrc)
  bit := fun x hlt hb => ⟨(h.bit x hlt hb).1, hbit x hlt (h.bit x hlt hb).2⟩
  next := h.next
  aligned := h.aligned

lemma PoolOk.setAvailable (h : PoolOk g K st f) (n : BitVec 32) :
    PoolOk g K st { f with availableNids := n } where
  list := h.list.same ⟨rfl, rfl, rfl⟩
  bits := h.bits.same ⟨rfl, rfl, rfl⟩
  range := h.range
  null := h.null
  prealloc := h.prealloc
  known := fun x hx => (h.known x hx).congr ⟨rfl, rfl, rfl⟩ rfl
  bit := h.bit
  next := h.next
  aligned := h.aligned

/-! ## Emptying the journal -/

lemma inSet_dirty (h : st.inSet x = true) : st.dirty x = true := by
  unfold NatState.inSet at h
  unfold NatState.dirty
  cases hc : st.cache x with
  | none => simp [hc] at h
  | some e =>
      simp only [hc, Option.any_some, NatEntry.inSet, Bool.and_eq_true] at h ⊢
      exact h.1

/-- A dirty node without an address is in its set. -/
lemma inSet_of_dirty (h : NatInv g st) (hnull : (st.recorded x).ni.blkAddr = nullAddr)
    (hd : st.dirty x = true) : st.inSet x = true := by
  unfold NatState.dirty at hd
  cases hc : st.cache x with
  | none => simp [hc] at hd
  | some e => exact inSet_of_null h hc hnull (by simpa [hc] using hd)

/-- Where there is no address, what waits is what is dirty. -/
lemma pending_eq (h : NatInv g st) :
    pending st x = (st.dirty x && (st.recorded x).ni.blkAddr == nullAddr) := by
  unfold pending
  by_cases hnull : (st.recorded x).ni.blkAddr = nullAddr
  · congr 1
    rw [Bool.eq_iff_iff]
    exact ⟨inSet_dirty, inSet_of_dirty h hnull⟩
  · have hfalse : ((st.recorded x).ni.blkAddr == nullAddr) = false := by simpa using hnull
    rw [hfalse, Bool.and_false, Bool.and_false]

/-- The cache after one round, but for the node of the round. -/
lemma removeNatInJournal_cache {y : ℕ × Recorded} (hx : x ≠ y.1) :
    (Hoit.removeNatInJournal st y).cache x = st.cache x := by
  unfold Hoit.removeNatInJournal
  cases st.cache y.1 with
  | none => simp [setNatCacheDirty, initNatEntry, hx]
  | some ne => simp [setNatCacheDirty, hx]

lemma removeNatInJournal_freed (st : NatState) (y : ℕ × Recorded) :
    (Hoit.removeNatInJournal st y).freed = st.freed := by
  unfold Hoit.removeNatInJournal
  cases st.cache y.1 <;> rfl

lemma setNatCacheDirty_isDirty {e ne : NatEntry}
    (he : (setNatCacheDirty st nid ne).cache nid = some e) : e.isDirty = true := by
  simp only [setNatCacheDirty, Function.update_self, Option.some.injEq] at he
  rw [← he]

lemma removeNatInJournal_isDirty {y : ℕ × Recorded} {e : NatEntry}
    (he : (Hoit.removeNatInJournal st y).cache y.1 = some e) : e.isDirty = true := by
  unfold Hoit.removeNatInJournal at he
  cases hc : st.cache y.1 with
  | none =>
      rw [hc] at he
      exact setNatCacheDirty_isDirty he
  | some ne =>
      rw [hc] at he
      exact setNatCacheDirty_isDirty he

/-- **One round**: a free nid that was not dirty is not counted, and waits. -/
lemma Flushing.removed {y : ℕ × Recorded} (h : Flushing g K s₀ s)
    (hy : Journal.get s.nat.journal y.1 = some y.2) :
    Flushing g K s₀ (removeNatInJournal s y) ∧
      (removeNatInJournal s y).nat.journal = s.nat.journal ∧
      ∀ x, x = y.1 ∨ s.nat.dirty x = true → (removeNatInJournal s y).nat.dirty x = true := by
  obtain ⟨hinv, honly, hdirty⟩ := h.inv.removeNatInJournal hy
  have hkey := journalKey hy
  have hlt := h.inv.device.bound y.1 hkey
  have hself : (Hoit.removeNatInJournal s.nat y).dirty y.1 = true := hdirty y.1 (Or.inl rfl)
  have hother : ∀ x, x ≠ y.1 →
      (Hoit.removeNatInJournal s.nat y).dirty x = s.nat.dirty x := fun x hx => by
    rw [NatState.dirty, NatState.dirty, removeNatInJournal_cache hx]
  have hisDirty : (s.nat.cache y.1).any NatEntry.isDirty = s.nat.dirty y.1 := rfl
  have hmarks : NatMarks (Hoit.removeNatInJournal s.nat y) := by
    refine ⟨fun x e he hd => ?_, fun x => ?_, fun x hx => ?_, ?_⟩
    · by_cases hxy : x = y.1
      · subst hxy
        rw [removeNatInJournal_isDirty he] at hd
        exact absurd hd (by simp)
      · rw [removeNatInJournal_cache hxy] at he
        exact h.marks.clean x e he hd
    · rw [honly.recorded]
      exact h.marks.reserved x
    · by_cases hxy : x = y.1
      · rw [hxy]
        exact h.marks.keys y.1 hkey
      · rw [hother x hxy] at hx
        exact h.marks.dirty x hx
    · rw [honly.journal]
      exact h.marks.keys
  have hpool : PoolOk g K (Hoit.removeNatInJournal s.nat y) s.free := by
    refine h.pool.moveNat honly.recorded (removeNatInJournal_freed s.nat y)
      (fun x hx hnull hsrc => ?_) fun x hx hsrc => ?_
    · refine hsrc.imp (fun hj => ?_) fun hin => ?_
      · unfold JournalNull
        rw [honly.journal]
        exact hj
      · refine inSet_of_dirty hinv ?_ (hdirty x (Or.inr (inSet_dirty hin)))
        rw [honly.recorded]
        exact hnull
    · refine hsrc.imp (fun hb => ?_) (Or.imp (fun hk => ?_) fun hd => hdirty x (Or.inr hd))
      · rw [blockNull, honly.block]
        exact hb
      · rw [honly.journal]
        exact hk
  refine ⟨?_, honly.journal, hdirty⟩
  refine ⟨hinv, hmarks, ?_, honly.recorded.trans h.recorded,
    (removeNatInJournal_freed s.nat y).trans h.freed, fun x => ?_, ?_⟩
  · unfold removeNatInJournal
    dsimp only
    split_ifs
    · exact hpool.setAvailable _
    · exact hpool
  · unfold removeNatInJournal
    dsimp only
    split_ifs <;> exact h.prealloc x
  · -- Only the node of the round may begin to wait.
    have hcard : (g.nids (pending (Hoit.removeNatInJournal s.nat y))).card
        + (pending s.nat y.1).toNat = (g.nids (pending s.nat)).card
        + (pending (Hoit.removeNatInJournal s.nat y) y.1).toNat :=
      nids_card_change (fun _ => hlt) (fun _ => hlt) fun x hx => by
        rw [pending_eq h.inv, pending_eq hinv, hother x hx, honly.recorded]
    rw [pending_eq h.inv, pending_eq hinv, hself, honly.recorded, Bool.true_and] at hcard
    rw [← h.count]
    unfold removeNatInJournal
    dsimp only
    rw [hisDirty]
    cases hd : s.nat.dirty y.1 with
    | true =>
        rw [hd, Bool.true_and, Nat.add_right_cancel_iff] at hcard
        simp [hcard]
    | false =>
        have hper := h.inv.persistent y.1 hlt hd
        rw [persistentNat, hy, Option.getD_some] at hper
        rw [hd, ← hper] at hcard
        cases hnull : y.2.ni.blkAddr == nullAddr with
        | true =>
            rw [hnull] at hcard
            simp only [Bool.false_and, Bool.toNat_false, Bool.toNat_true, Nat.add_zero] at hcard
            simp only [Bool.not_false, Bool.true_and, if_true, hcard]
            rw [BitVec.ofNat_add, BitVec.add_comm (BitVec.ofNat 32 _) (BitVec.ofNat 32 1),
              ← BitVec.add_assoc]
            congr 1
            exact BitVec.sub_add_cancel _ _
        | false =>
            rw [hnull] at hcard
            simp only [Bool.false_and, Bool.toNat_false, Nat.add_zero] at hcard
            simp [hcard]

lemma Flushing.removedList {xs : List (ℕ × Recorded)} (h : Flushing g K s₀ s)
    (hxs : ∀ y ∈ xs, Journal.get s.nat.journal y.1 = some y.2) :
    Flushing g K s₀ (xs.foldl removeNatInJournal s) ∧
      (xs.foldl removeNatInJournal s).nat.journal = s.nat.journal ∧
      ∀ x, x ∈ Journal.keys xs ∨ s.nat.dirty x = true →
        (xs.foldl removeNatInJournal s).nat.dirty x = true := by
  induction xs generalizing s with
  | nil =>
      refine ⟨h, rfl, fun x hx => ?_⟩
      simpa [Journal.keys] using hx
  | cons y xs ih =>
      obtain ⟨h₁, hjournal, hdirty⟩ := h.removed (hxs y (by simp))
      obtain ⟨h₂, hjournal', hdirty'⟩ := ih h₁ fun z hz => by
        rw [hjournal]
        exact hxs z (by simp [hz])
      refine ⟨h₂, hjournal'.trans hjournal, fun x hx => hdirty' x ?_⟩
      rw [Journal.keys, List.map_cons, List.mem_cons] at hx
      rcases hx with (rfl | hx) | hx
      · exact Or.inr (hdirty _ (Or.inl rfl))
      · exact Or.inl hx
      · exact Or.inr (hdirty x (Or.inr hx))

/-- **Emptying the journal**: every nid that was in it is dirty now. -/
lemma Flushing.removedAll (h : Flushing g K s₀ s) : Flushing g K s₀ (removeNatsInJournal s) := by
  obtain ⟨h₁, hjournal, hdirty⟩ :=
    h.removedList fun y hy => Journal.get_of_mem h.inv.device.nodup hy
  have hinv : NatInv g (removeNatsInJournal s).nat := by
    rw [removeNatsInJournal_nat]
    exact h.inv.removeNatsInJournal.1
  refine ⟨hinv, ⟨h₁.marks.clean, h₁.marks.reserved, h₁.marks.dirty, by
    simp [removeNatsInJournal, Journal.keys]⟩, ?_, h₁.recorded, h₁.freed, h₁.prealloc, h₁.count⟩
  refine h₁.pool.moveNat rfl rfl (fun x hx hnull hsrc => Or.inr ?_) fun x hx hsrc => ?_
  · rcases hsrc with ⟨r, hr, -⟩ | hin
    · rw [hjournal] at hr
      exact inSet_of_dirty hinv hnull (hdirty x (Or.inl (journalKey hr)))
    · exact hin
  · rcases hsrc with hb | hk | hd
    · exact Or.inl hb
    · rw [hjournal] at hk
      exact Or.inr (Or.inr (hdirty x (Or.inl hk)))
    · exact Or.inr (Or.inr hd)

/-! ## One entry -/

/-- What a flush of a nid does to the list and the bitmaps; `null` is whether it has no address. -/
structure NidFlushed (f f' : FreeNids) (nid : ℕ) (null : Bool) : Prop where
  list : ListOk f'
  bits : BitsOk f'
  root : ∀ x, f'.freeNidRoot x
    = if x = nid ∧ null = true ∧ f.freeNidRoot nid = none then some .freeNid else f.freeNidRoot x
  bit : ∀ x, f'.bit x = if x = nid ∧ f.scanned nid = true then null else f.bit x
  blocks : f'.natBlockBitmap = f.natBlockBitmap
  next : f'.nextScanNid = f.nextScanNid
  available : f'.availableNids = f.availableNids + BitVec.ofNat 32 null.toNat

lemma addFreeNid_flushed (st : NatState) (hn : nid ≠ 0) (hl : ListOk f) (hb : BitsOk f) :
    NidFlushed f (addFreeNid st f nid false true).2 nid true := by
  have hsame := insertFreeNid_bits (f := f) nid
  have hlist := updateFreeNidBitmap_list (f := (insertFreeNid f nid .freeNid).getD f) nid true false
  have hins := (hl.insert nid).same hlist
  have hbits :
      BitsOk (updateFreeNidBitmap ((insertFreeNid f nid .freeNid).getD f) nid true false) :=
    (hb.same hsame).update (by simp)
  rw [addFreeNid_flush_snd hn]
  refine ⟨hins.same ⟨rfl, rfl, rfl⟩, hbits.same ⟨rfl, rfl, rfl⟩, fun x => ?_, fun x => ?_, ?_, ?_,
    rfl⟩
  · change (updateFreeNidBitmap _ nid true false).freeNidRoot x = _
    rw [hlist.root, insertFreeNid_root]
    simp
  · change (updateFreeNidBitmap _ nid true false).bit x = _
    rw [updateFreeNidBitmap_bit, hsame.scanned, hsame.bit]
  · change (updateFreeNidBitmap _ nid true false).natBlockBitmap = _
    rw [updateFreeNidBitmap_blocks, hsame.blocks]
  · change (updateFreeNidBitmap _ nid true false).nextScanNid = _
    rw [updateFreeNidBitmap_next, insertFreeNid_next]

lemma updateFreeNidBitmap_flushed (nid : ℕ) (hl : ListOk f) (hb : BitsOk f) :
    NidFlushed f (updateFreeNidBitmap f nid false false) nid false := by
  have hsame := updateFreeNidBitmap_list (f := f) nid false false
  refine ⟨hl.same hsame, hb.update (by simp), fun x => ?_,
    fun x => updateFreeNidBitmap_bit nid x false false,
    updateFreeNidBitmap_blocks nid false false, updateFreeNidBitmap_next nid false false, ?_⟩
  · rw [hsame.root]
    simp
  · rw [updateFreeNidBitmap_available]
    simp

/-- What a flush of an entry leaves of the other nodes. -/
lemma flushNatEntry_other (st : NatState) (toJournal : Bool) (hnid : nid < g.maxNid)
    (hx : x ≠ nid) :
    (Hoit.flushNatEntry g toJournal st nid).cache x = st.cache x ∧
      Journal.get (Hoit.flushNatEntry g toJournal st nid).journal x = Journal.get st.journal x ∧
      (x < g.maxNid →
        natBlockEntry g (Hoit.flushNatEntry g toJournal st nid) x = natBlockEntry g st x) := by
  unfold Hoit.flushNatEntry
  cases hc : st.cache nid with
  | none => exact ⟨rfl, rfl, fun _ => rfl⟩
  | some e =>
      cases toJournal with
      | true =>
          simp only [if_true, writeToJournal]
          split_ifs
          · exact ⟨by simp [clearNatCacheDirty, hx], Journal.get_put_of_ne hx, fun _ => rfl⟩
          · exact ⟨by simp [clearNatCacheDirty, hx], rfl, fun _ => rfl⟩
      | false =>
          simp only [Bool.false_eq_true, if_false]
          refine ⟨by simp [clearNatCacheDirty, writeToBlock, hx], rfl, fun hlt => ?_⟩
          exact (natBlockEntry_writeToBlock hnid hlt).trans (if_neg hx)

lemma flushNatEntry_freed (toJournal : Bool) (st : NatState) (nid : ℕ) :
    (Hoit.flushNatEntry g toJournal st nid).freed = st.freed := by
  unfold Hoit.flushNatEntry
  cases st.cache nid with
  | none => rfl
  | some e =>
      cases toJournal with
      | true =>
          simp only [if_true, writeToJournal]
          split_ifs <;> rfl
      | false => rfl

/-- The entry is clean after it was flushed. -/
lemma flushNatEntry_self (toJournal : Bool) {e : NatEntry} (hc : st.cache nid = some e) :
    (Hoit.flushNatEntry g toJournal st nid).cache nid
      = some { e.resetFlag with isDirty := false } := by
  unfold Hoit.flushNatEntry
  simp [hc, clearNatCacheDirty]

/-- What a flush of an entry does to the NAT. -/
structure EntryDone (g : NatGeometry) (st st' : NatState) (nid : ℕ) : Prop where
  inv : NatInv g st'
  marks : NatMarks st'
  recorded : st'.recorded = st.recorded
  freed : st'.freed = st.freed
  lt : nid < g.maxNid
  reserved : reservedNodeNum ≤ nid
  /-- **The device has for the nid what is recorded.** -/
  device : (st.recorded nid).ni.blkAddr = nullAddr →
    blockNull g st' nid = true ∨ nid ∈ Journal.keys st'.journal
  clean : st'.dirty nid = false
  inSet : ∀ x, x ≠ nid → st'.inSet x = st.inSet x
  dirty : ∀ x, x ≠ nid → st'.dirty x = st.dirty x
  get : ∀ x, x ≠ nid → Journal.get st'.journal x = Journal.get st.journal x
  block : ∀ x, x ≠ nid → x < g.maxNid → natBlockEntry g st' x = natBlockEntry g st x

lemma EntryDone.key (h : EntryDone g st st' nid) (hx : x ≠ nid) :
    x ∈ Journal.keys st'.journal ↔ x ∈ Journal.keys st.journal := by
  rw [Journal.mem_keys_iff, Journal.mem_keys_iff, h.get x hx]

lemma EntryDone.journalNull (h : EntryDone g st st' nid) (hx : x ≠ nid) :
    JournalNull st' x ↔ JournalNull st x := by
  rw [JournalNull, JournalNull, h.get x hx]

lemma entryDone {toJournal : Bool} {xs : List ℕ} (h : NatInv g st) (hm : NatMarks st)
    (hin : st.inSet nid = true) (hnot : nid ∉ xs) (hroom : FlushRoom toJournal st (nid :: xs)) :
    EntryDone g st (Hoit.flushNatEntry g toJournal st nid) nid := by
  obtain ⟨hinv, hlist, -⟩ := h.flushEntry hin hnot hroom
  cases hc : st.cache nid with
  | none => simp [NatState.inSet, hc] at hin
  | some e =>
      have hlt := h.cache.bound nid e hc
      have hle : reservedNodeNum ≤ nid := hm.dirty nid (inSet_dirty hin)
      have hrec : (Hoit.flushNatEntry g toJournal st nid).recorded = st.recorded := hlist.recorded
      have hself := flushNatEntry_self (g := g) toJournal hc
      have hclean : (Hoit.flushNatEntry g toJournal st nid).dirty nid = false := by
        simp [NatState.dirty, hself]
      have hcache := fun x (hx : x ≠ nid) => (flushNatEntry_other st toJournal hlt hx).1
      have hget := fun x (hx : x ≠ nid) => (flushNatEntry_other st toJournal hlt hx).2.1
      have hdirty : ∀ x, x ≠ nid →
          (Hoit.flushNatEntry g toJournal st nid).dirty x = st.dirty x :=
        fun x hx => by rw [NatState.dirty, NatState.dirty, hcache x hx]
      refine ⟨hinv, ⟨fun x e' he' hd => ?_, ?_, fun x hx => ?_, fun x hx => ?_⟩, hrec,
        flushNatEntry_freed toJournal st nid, hlt, hle, fun hnull => ?_, hclean, fun x hx => ?_,
        hdirty, hget, fun x hx => (flushNatEntry_other _ toJournal hlt hx).2.2⟩
      · by_cases hxn : x = nid
        · subst hxn
          rw [hself, Option.some.injEq] at he'
          rw [← he']
          rfl
        · rw [hcache x hxn] at he'
          exact hm.clean x e' he' hd
      · rw [hrec]
        exact hm.reserved
      · by_cases hxn : x = nid
        · rw [hxn]
          exact hle
        · rw [hdirty x hxn] at hx
          exact hm.dirty x hx
      · by_cases hxn : x = nid
        · rw [hxn]
          exact hle
        · rw [Journal.mem_keys_iff, hget x hxn, ← Journal.mem_keys_iff] at hx
          exact hm.keys x hx
      · have hper := hinv.persistent nid hlt hclean
        rw [hrec] at hper
        unfold persistentNat at hper
        cases hj : Journal.get (Hoit.flushNatEntry g toJournal st nid).journal nid with
        | some r => exact Or.inr (journalKey hj)
        | none =>
            rw [hj, Option.getD_none] at hper
            left
            rw [blockNull, hper]
            simpa using hnull
      · rw [NatState.inSet, NatState.inSet, hcache x hx]

/-- The list and the bitmaps after one entry. -/
lemma PoolOk.entry (h : PoolOk g K st f) (hd : EntryDone g st st' nid)
    (hf : NidFlushed f f' nid ((st.recorded nid).ni.blkAddr == nullAddr)) :
    PoolOk g K st' f' where
  list := hf.list
  bits := hf.bits
  range := by
    intro x t hx
    rw [hf.root] at hx
    split_ifs at hx with hnew
    · rw [hnew.1]
      exact ⟨hd.reserved, hd.lt⟩
    · exact h.range x t hx
  null := by
    intro x hx
    rw [hd.recorded]
    rw [hf.root] at hx
    split_ifs at hx with hnew
    · rw [hnew.1]
      simpa using hnew.2.1
    · exact h.null x hx
  prealloc := by
    intro x hx
    rw [hd.freed]
    rw [hf.root] at hx
    split_ifs at hx
    · exact absurd hx (by simp)
    · exact h.prealloc x hx
  known := by
    intro x hx hnull hle hlt hpre hscan
    rw [hd.recorded] at hnull
    rw [FreeNids.scanned, hf.blocks] at hscan
    by_cases hxn : x = nid
    · subst hxn
      left
      rw [hf.bit, if_pos ⟨rfl, hscan⟩]
      simpa using hnull
    · rw [hf.root, if_neg fun hc => hxn hc.1] at hx hpre
      rw [hf.bit, if_neg fun hc => hxn hc.1, hd.inSet x hxn, hd.journalNull hxn]
      exact h.known x hx hnull hle hlt hpre hscan
  bit := by
    intro x hlt hx
    rw [hf.bit] at hx
    by_cases hxn : x = nid
    · subst hxn
      split_ifs at hx with hc
      · have hle := hd.reserved
        unfold reservedNodeNum at hle
        exact ⟨by omega, (hd.device (by simpa using hx)).imp_right Or.inl⟩
      · rw [h.bits.bit_unscanned (by simpa using hc)] at hx
        exact absurd hx Bool.false_ne_true
    · rw [if_neg fun hc => hxn hc.1] at hx
      rw [blockNull, hd.block x hxn hlt, hd.key hxn, hd.dirty x hxn]
      exact h.bit x hlt hx
  next := by rw [hf.next]; exact h.next
  aligned := by rw [hf.next]; exact h.aligned

lemma flushNatEntry_free (toJournal : Bool) (hinv : NatInv g s.nat) (hp : PoolOk g K s.nat s.free)
    (hin : s.nat.inSet nid = true) (hne : nid ≠ 0) :
    NidFlushed s.free (flushNatEntry g toJournal s nid).free nid
      ((s.nat.recorded nid).ni.blkAddr == nullAddr) := by
  cases hc : s.nat.cache nid with
  | none => simp [NatState.inSet, hc] at hin
  | some e =>
      rw [← hinv.fresh nid e hc]
      unfold flushNatEntry
      simp only [hc]
      by_cases hnull : e.info.ni.blkAddr = nullAddr
      · rw [if_pos hnull, hnull]
        exact addFreeNid_flushed _ hne hp.list hp.bits
      · have hfalse : (e.info.ni.blkAddr == nullAddr) = false := by simpa using hnull
        rw [if_neg hnull, hfalse]
        exact updateFreeNidBitmap_flushed nid hp.list hp.bits

/-- **One entry**: a nid without an address does not wait any more, and is counted. -/
lemma Flushing.entry {toJournal : Bool} {xs : List ℕ} (h : Flushing g K s₀ s)
    (hin : s.nat.inSet nid = true) (hnot : nid ∉ xs)
    (hroom : FlushRoom toJournal s.nat (nid :: xs)) :
    Flushing g K s₀ (flushNatEntry g toJournal s nid) := by
  have hd : EntryDone g s.nat (flushNatEntry g toJournal s nid).nat nid := by
    rw [flushNatEntry_nat]
    exact entryDone h.inv h.marks hin hnot hroom
  have hne : nid ≠ 0 := by
    have hle := hd.reserved
    unfold reservedNodeNum at hle
    omega
  have hf := flushNatEntry_free (g := g) toJournal h.inv h.pool hin hne
  refine ⟨hd.inv, hd.marks, h.pool.entry hd hf, hd.recorded.trans h.recorded,
    hd.freed.trans h.freed, fun x => ?_, ?_⟩
  · rw [hf.root]
    split_ifs with hnew
    · rw [← h.prealloc x, hnew.1, hnew.2.2]
      simp
    · exact h.prealloc x
  · have hcard : (g.nids (pending (flushNatEntry g toJournal s nid).nat)).card
        + (pending s.nat nid).toNat = (g.nids (pending s.nat)).card
        + (pending (flushNatEntry g toJournal s nid).nat nid).toNat :=
      nids_card_change (fun _ => hd.lt) (fun _ => hd.lt) fun x hx => by
        rw [pending, pending, hd.inSet x hx, hd.recorded]
    rw [pending_eq hd.inv, hd.clean, Bool.false_and, Bool.toNat_false, Nat.add_zero, pending, hin,
      Bool.true_and] at hcard
    rw [← h.count, ← hcard, hf.available, BitVec.ofNat_add, BitVec.add_assoc,
      BitVec.add_comm (BitVec.ofNat 32 _)]

/-! ## The loops -/

lemma Flushing.list {toJournal : Bool} {xs : List ℕ} (h : Flushing g K s₀ s) (hnd : xs.Nodup)
    (hin : ∀ x ∈ xs, s.nat.inSet x = true) (hroom : FlushRoom toJournal s.nat xs) :
    Flushing g K s₀ (xs.foldl (flushNatEntry g toJournal) s) := by
  induction xs generalizing s with
  | nil => exact h
  | cons y xs ih =>
      obtain ⟨hy, hnd⟩ := List.nodup_cons.mp hnd
      obtain ⟨-, -, hroom'⟩ := h.inv.flushEntry (hin y (by simp)) hy hroom
      refine ih (h.entry (hin y (by simp)) hy hroom) hnd (fun x hx => ?_) ?_
      · have hne : x ≠ y := fun hxy => hy (hxy ▸ hx)
        rw [flushNatEntry_nat, NatState.inSet]
        cases hc : s.nat.cache y with
        | none =>
            simp only [Hoit.flushNatEntry, hc]
            exact hin x (by simp [hx])
        | some e =>
            rw [(flushNatEntry_other _ toJournal (h.inv.cache.bound y e hc) hne).1]
            exact hin x (by simp [hx])
      · rw [flushNatEntry_nat]
        exact hroom'

/-- A NAT block moves to its other copy. -/
lemma Flushing.nextPage (h : Flushing g K s₀ s) (hb : b < g.natBlocks)
    (hpage : currentNatAddr g s.nat b ∉ s.nat.dirtyPages) :
    Flushing g K s₀ { s with nat := getNextNatPage g s.nat b } where
  inv := h.inv.getNextNatPage hb hpage
  marks := ⟨h.marks.clean, h.marks.reserved, h.marks.dirty, h.marks.keys⟩
  pool := by
    refine h.pool.moveNat rfl rfl (fun x _ _ hsrc => hsrc) fun x hx hsrc => ?_
    refine hsrc.imp_left fun hn => ?_
    rw [blockNull, natBlockEntry_getNextNatPage hb hx]
    exact hn
  recorded := h.recorded
  freed := h.freed
  prealloc := h.prealloc
  count := h.count

lemma Flushing.dropSet (h : Flushing g K s₀ s) (hcnt : setCnt s.nat b = 0) :
    Flushing g K s₀ { s with nat := { s.nat with sets := Function.update s.nat.sets b none } } where
  inv := h.inv.dropSet hcnt
  marks := ⟨h.marks.clean, h.marks.reserved, h.marks.dirty, h.marks.keys⟩
  pool := h.pool.moveNat rfl rfl (fun _ _ _ hsrc => hsrc) fun _ _ hsrc => hsrc
  recorded := h.recorded
  freed := h.freed
  prealloc := h.prealloc
  count := h.count

/-- **One set.** -/
lemma Flushing.set {natBits : Bool} {rem : List ℕ} (h : Flushing g K s₀ s)
    (hloop : FlushLoop g natBits s.nat (b :: rem)) :
    Flushing g K s₀ (flushNatEntrySet g natBits s b) := by
  have hroom := hloop.flushRoom
  have hb := hloop.bound b (by simp)
  have hpage := hloop.pages b (by simp)
  have hin : ∀ x ∈ setList s.nat b, s.nat.inSet x = true :=
    fun x hx => ((h.inv.cache.mem_list b x).mp hx).2
  -- The state in which the loop over the entries starts.
  obtain ⟨s₁, hs₁, h₁, hin₁, hroom₁⟩ : ∃ s₁ : NodeManager,
      s₁ = ⟨if takesJournal natBits s.nat b then s.nat else getNextNatPage g s.nat b, s.free⟩ ∧
      Flushing g K s₀ s₁ ∧ (∀ x ∈ setList s.nat b, s₁.nat.inSet x = true) ∧
      FlushRoom (takesJournal natBits s.nat b) s₁.nat (setList s.nat b) := by
    refine ⟨_, rfl, ?_⟩
    revert hroom
    cases takesJournal natBits s.nat b with
    | true => exact fun hroom => ⟨h, hin, hroom⟩
    | false => exact fun hroom => ⟨h.nextPage hb hpage, hin, hroom⟩
  have h₂ := h₁.list (h.inv.cache.list_nodup b) hin₁ hroom₁
  have hstep : ∀ s₂, s₂ = (setList s.nat b).foldl
      (flushNatEntry g (takesJournal natBits s.nat b)) s₁ →
      flushNatEntrySet g natBits s b
        = if setCnt s₂.nat b = 0 then
            { s₂ with nat := { s₂.nat with sets := Function.update s₂.nat.sets b none } }
          else s₂ := by
    rintro s₂ rfl
    rw [hs₁]
    rfl
  rw [hstep _ rfl]
  split_ifs with hcnt
  · exact h₂.dropSet hcnt
  · exact h₂

lemma Flushing.sets {natBits : Bool} {rem : List ℕ} (h : Flushing g K s₀ s)
    (hloop : FlushLoop g natBits s.nat rem) :
    Flushing g K s₀ (rem.foldl (flushNatEntrySet g natBits) s) := by
  induction rem generalizing s with
  | nil => exact h
  | cons b rem ih =>
      refine ih (h.set hloop) ?_
      rw [flushNatEntrySet_nat]
      exact hloop.step.1

/-! ## The flush -/

/-- What waits between the calls is what was freed. -/
lemma NidsOk.pending_iff (h : NidsOk g K s) : pending s.nat x = true ↔ s.nat.freed x = true := by
  constructor
  · intro hp
    simp only [pending, Bool.and_eq_true, beq_iff_eq] at hp
    obtain ⟨hin, hnull⟩ := hp
    cases hc : s.nat.cache x with
    | none => simp [NatState.inSet, hc] at hin
    | some e =>
        refine h.nat.nat.freed x e hc (by simpa [NatState.inSet, hc] using hin) ?_
        rw [h.nat.nat.inv.fresh x e hc]
        exact hnull
  · intro hf
    obtain ⟨hnull, e, hc, hck⟩ := h.nat.freed x hf
    have hd : e.isDirty = true := by
      cases hd : e.isDirty with
      | true => rfl
      | false =>
          rw [h.nat.marks.clean x e hc hd] at hck
          exact absurd hck (by simp)
    rw [pending, inSet_of_null h.nat.nat.inv hc hnull hd, Bool.true_and]
    simpa using hnull

/-- **A flush makes what was freed discoverable.** -/
lemma card_discoverable_flush (h : NidsOk g K s) (hinv : NatInv g s'.nat)
    (hrec : s'.nat.recorded = s.nat.recorded) (hfreed : ∀ x, s'.nat.freed x = false)
    (hpre : ∀ x, s'.free.freeNidRoot x = some .preallocNid ↔
      s.free.freeNidRoot x = some .preallocNid) :
    (g.nids (discoverable g s')).card
      = (g.nids (discoverable g s)).card + (g.nids (pending s.nat)).card := by
  have hdisjoint : Disjoint (g.nids (discoverable g s)) (g.nids (pending s.nat)) := by
    refine Finset.disjoint_left.mpr fun x hx hx' => ?_
    have hd := (discoverable_iff h.nat.nat.inv).mp (Finset.mem_filter.mp hx).2
    have hf := h.pending_iff.mp (Finset.mem_filter.mp hx').2
    rw [hd.free.freed] at hf
    exact absurd hf Bool.false_ne_true
  rw [← Finset.card_union_of_disjoint hdisjoint]
  congr 1
  ext x
  simp only [NatGeometry.nids, Finset.mem_union, Finset.mem_filter, Finset.mem_range,
    discoverable_iff hinv, discoverable_iff h.nat.nat.inv, h.pending_iff]
  constructor
  · rintro ⟨hlt, ⟨hle, -, hnull, -⟩, hp⟩
    rw [hrec] at hnull
    cases hf : s.nat.freed x with
    | true => exact Or.inr ⟨hlt, rfl⟩
    | false => exact Or.inl ⟨hlt, ⟨hle, hlt, hnull, hf⟩, mt (hpre x).mpr hp⟩
  · rintro (⟨hlt, ⟨hle, -, hnull, -⟩, hp⟩ | ⟨hlt, hf⟩)
    · exact ⟨hlt, ⟨hle, hlt, by rwa [hrec], hfreed x⟩, mt (hpre x).mp hp⟩
    · have hp := h.pending_iff.mpr hf
      simp only [pending, Bool.and_eq_true, beq_iff_eq] at hp
      refine ⟨hlt, ⟨h.nat.marks.dirty x (inSet_dirty hp.1), hlt, ?_, hfreed x⟩, fun hpx => ?_⟩
      · rw [hrec]
        exact hp.2
      · rw [h.pool.prealloc x ((hpre x).mp hpx)] at hf
        exact absurd hf Bool.false_ne_true

lemma NidsOk.flushing (h : NidsOk g K s) : Flushing g K s s :=
  ⟨h.nat.nat.inv, h.nat.marks, h.pool, rfl, rfl, fun _ => Iff.rfl, rfl⟩

/-- The loops of the flush, without the mark that nothing was freed since. -/
lemma NidsOk.flushed (h : NidsOk g K s) (hpages : s.nat.dirtyPages = []) (natBits : Bool) :
    ∃ s', Flushing g K s s' ∧ f2fsFlushNatEntries g s natBits
      = { s' with nat := { s'.nat with freed := fun _ => false } } := by
  have hinv := h.nat.nat.inv
  unfold f2fsFlushNatEntries
  split_ifs with hzero hevict
  · exact ⟨s, h.flushing, rfl⟩
  · obtain ⟨h₁, hpages₁, hnil, -⟩ := hinv.removeNatsInJournal
    rw [← removeNatsInJournal_nat] at h₁ hpages₁ hnil
    exact ⟨_, h.flushing.removedAll.sets (h₁.flushLoop (hpages₁.trans hpages) (Or.inr hnil)), rfl⟩
  · simp only [Bool.or_eq_true, Bool.not_eq_true', decide_eq_false_iff_not, not_or, not_not,
      Bool.not_eq_true] at hevict
    exact ⟨_, h.flushing.sets (hinv.flushLoop hpages (Or.inl hevict)), rfl⟩

/-- **A flush keeps the invariant, and what `available_nids` is off by.** -/
lemma NidsOk.flush (h : NidsOk g K s) (hpages : s.nat.dirtyPages = []) (natBits : Bool) :
    NidsOk g K (f2fsFlushNatEntries g s natBits) ∧
      gap g (f2fsFlushNatEntries g s natBits) = gap g s := by
  obtain ⟨s', hs', heq⟩ := h.flushed hpages natBits
  have hstep : natStep g s.nat (.flush natBits) = some (f2fsFlushNatEntries g s natBits).nat := by
    rw [f2fsFlushNatEntries_nat, natStep, if_pos hpages]
  have hok := (h.nat.nat.step hstep).1
  obtain ⟨-, -, hset⟩ := h.nat.nat.inv.flush hpages natBits
  rw [← f2fsFlushNatEntries_nat] at hset
  rw [heq] at hok hset ⊢
  have hpool : PoolOk g K { s'.nat with freed := fun _ => false } s'.free :=
    { list := hs'.pool.list
      bits := hs'.pool.bits
      range := hs'.pool.range
      null := hs'.pool.null
      prealloc := fun _ _ => rfl
      known := hs'.pool.known
      bit := hs'.pool.bit
      next := hs'.pool.next
      aligned := hs'.pool.aligned }
  refine ⟨⟨⟨hok, ⟨hs'.marks.clean, hs'.marks.reserved, hs'.marks.dirty, hs'.marks.keys⟩, ?_⟩, hpool,
    fun _ _ => rfl⟩, ?_⟩
  · exact fun x hx => absurd hx (by simp)
  · have hcard := card_discoverable_flush h hok.inv hs'.recorded (fun _ => rfl) hs'.prealloc
    -- Nothing waits any more.
    have hnone : (g.nids (pending s'.nat)).card = 0 := by
      refine Finset.card_eq_zero.mpr (Finset.filter_eq_empty_iff.mpr fun x _ => ?_)
      have hx : s'.nat.inSet x = false := hset x
      simp [pending, hx]
    have hcount := hs'.count
    rw [hnone, BitVec.add_zero] at hcount
    rw [gap, gap, hcard, BitVec.ofNat_add]
    change s'.free.availableNids - _ = _
    grind

end Hoit.FreeNid
