import HoitF2fs.Node.FreeNidAlloc
import HoitF2fs.Node.FreeNidFlush

/-!
# What the calls do to free nids

Each call keeps `NidsOk`, and all but one keep what `available_nids` is off by (`gap`).

* `NidsOk.quiet` — what only moves clean entries into the NAT cache and out of it.
* `NidsOk.recordedNode` — `set_node_addr`.
* `NidsOk.alloc`, `NidsOk.done`, `NidsOk.failed` — a nid is taken, used, or given back.
* `NidsOk.recoverInodePage` — **`f2fs_recover_inode_page` takes a nid for an inode, and does not
  count it off.**
* `NidsOk.step` — all of them.
-/

namespace Hoit.FreeNid

open Transition

variable {g : NatGeometry} {K : ℕ → Prop} {st st' st'' : NatState} {f f' : FreeNids}
  {s s' : NodeManager} {nid x : ℕ}

/-! ## What `available_nids` is off by -/

/-- One nid begins to be free, or is so no more. -/
lemma gap_change (hother : ∀ x, x ≠ nid → discoverable g s' x = discoverable g s x) :
    gap g s' - s'.free.availableNids + BitVec.ofNat 32 (discoverable g s' nid).toNat
      = gap g s - s.free.availableNids + BitVec.ofNat 32 (discoverable g s nid).toNat := by
  have hlt : ∀ t : NodeManager, discoverable g t nid = true → nid < g.maxNid := by
    intro t ht
    unfold discoverable at ht
    simp only [Bool.and_eq_true, decide_eq_true_eq] at ht
    exact ht.1.1.1.2
  have hcard : (g.nids (discoverable g s')).card + (discoverable g s nid).toNat
      = (g.nids (discoverable g s)).card + (discoverable g s' nid).toNat :=
    nids_card_change (hlt s) (hlt s') fun x hx => (hother x hx).symm
  have hbits := congrArg (BitVec.ofNat 32) hcard
  rw [BitVec.ofNat_add, BitVec.ofNat_add] at hbits
  rw [gap, gap]
  grind

lemma discoverable_congr (hinv : NatInv g s.nat) (hinv' : NatInv g s'.nat)
    (hrec : s'.nat.recorded x = s.nat.recorded x) (hfreed : s'.nat.freed x = s.nat.freed x)
    (hpre : s'.free.freeNidRoot x = some .preallocNid ↔
      s.free.freeNidRoot x = some .preallocNid) :
    discoverable g s' x = discoverable g s x := by
  rw [Bool.eq_iff_iff, discoverable_iff hinv, discoverable_iff hinv']
  constructor
  · rintro ⟨⟨hle, hlt, hnull, hf⟩, hp⟩
    exact ⟨⟨hle, hlt, by rwa [← hrec], by rwa [← hfreed]⟩, mt hpre.mpr hp⟩
  · rintro ⟨⟨hle, hlt, hnull, hf⟩, hp⟩
    exact ⟨⟨hle, hlt, by rwa [hrec], by rwa [hfreed]⟩, mt hpre.mp hp⟩

lemma gap_congr (hinv : NatInv g s.nat) (hinv' : NatInv g s'.nat)
    (hrec : s'.nat.recorded = s.nat.recorded) (hfreed : s'.nat.freed = s.nat.freed)
    (hpre : ∀ x, s'.free.freeNidRoot x = some .preallocNid ↔
      s.free.freeNidRoot x = some .preallocNid)
    (havail : s'.free.availableNids = s.free.availableNids) : gap g s' = gap g s := by
  have hcard : (g.nids (discoverable g s')).card = (g.nids (discoverable g s)).card :=
    nids_card_congr fun x => discoverable_congr hinv hinv' (congrFun hrec x) (congrFun hfreed x)
      (hpre x)
  rw [gap, gap, hcard, havail]

/-! ## Clean entries come and go -/

/-- Only clean entries come into the cache or leave it. -/
structure Quiet (st st' : NatState) : Prop where
  device : SameDevice st st'
  recorded : st'.recorded = st.recorded
  freed : st'.freed = st.freed
  new : ∀ x e, st'.cache x = some e →
    st.cache x = some e ∨ e.isDirty = false ∧ e.isCheckpointed = true
  keep : ∀ x e, st.cache x = some e → e.isDirty = true → st'.cache x = some e

lemma Quiet.refl (st : NatState) : Quiet st st :=
  ⟨⟨rfl, rfl⟩, rfl, rfl, fun _ _ he => Or.inl he, fun _ _ he _ => he⟩

lemma Quiet.trans (h : Quiet st st') (h' : Quiet st' st'') : Quiet st st'' where
  device := ⟨h'.device.journal.trans h.device.journal, h'.device.nat.trans h.device.nat⟩
  recorded := h'.recorded.trans h.recorded
  freed := h'.freed.trans h.freed
  new := by
    intro x e he
    rcases h'.new x e he with he' | hclean
    · exact h.new x e he'
    · exact Or.inr hclean
  keep := fun x e he hd => h'.keep x e (h.keep x e he hd) hd

lemma Quiet.any_dirty (h : Quiet st st') {p : NatEntry → Bool}
    (hp : ∀ e, p e = true → e.isDirty = true) (x : ℕ) :
    (st'.cache x).any p = (st.cache x).any p := by
  cases hc : st'.cache x with
  | none =>
      cases hc₀ : st.cache x with
      | none => rfl
      | some e =>
          cases hpe : p e with
          | false => simp [hpe]
          | true =>
              rw [h.keep x e hc₀ (hp e hpe)] at hc
              exact absurd hc (by simp)
  | some e' =>
      rcases h.new x e' hc with hc₀ | ⟨hclean, -⟩
      · rw [hc₀]
      · have hfalse : p e' = false := by
          cases hpe : p e' with
          | false => rfl
          | true =>
              rw [hp e' hpe] at hclean
              exact absurd hclean (by simp)
        cases hc₀ : st.cache x with
        | none => simp [hfalse]
        | some e =>
            cases hpe : p e with
            | false => simp [hfalse, hpe]
            | true =>
                rw [h.keep x e hc₀ (hp e hpe), Option.some.injEq] at hc
                rw [hc, hfalse] at hpe
                exact absurd hpe (by simp)

lemma Quiet.dirty (h : Quiet st st') (x : ℕ) : st'.dirty x = st.dirty x :=
  h.any_dirty (fun _ he => he) x

lemma Quiet.inSet (h : Quiet st st') (x : ℕ) : st'.inSet x = st.inSet x :=
  h.any_dirty (fun e he => by
    rw [NatEntry.inSet, Bool.and_eq_true] at he
    exact he.1) x

lemma Quiet.natNidOk (h : Quiet st st') (hok : NatNidOk g st) (hnat : NatOk g st') :
    NatNidOk g st' where
  nat := hnat
  marks :=
    { clean := by
        intro x e he hd
        rcases h.new x e he with he' | hclean
        · exact hok.marks.clean x e he' hd
        · exact hclean.2
      reserved := by rw [h.recorded]; exact hok.marks.reserved
      dirty := by
        intro x hx
        rw [h.dirty] at hx
        exact hok.marks.dirty x hx
      keys := by rw [h.device.journal]; exact hok.marks.keys }
  freed := by
    intro x hx
    rw [h.freed] at hx
    obtain ⟨hnull, e, he, hck⟩ := hok.freed x hx
    have hd : e.isDirty = true := by
      cases hd : e.isDirty with
      | true => rfl
      | false =>
          rw [hok.marks.clean x e he hd] at hck
          exact absurd hck (by simp)
    exact ⟨by rwa [h.recorded], e, h.keep x e he hd, hck⟩

lemma Quiet.pool (h : Quiet st st') (hp : PoolOk g K st f) : PoolOk g K st' f := by
  refine hp.moveNat h.recorded h.freed (fun x _ _ hsrc => ?_) fun x _ hsrc => ?_
  · unfold JournalNull at hsrc ⊢
    rwa [h.device.journal, h.inSet]
  · rwa [blockNull, h.device.block, h.device.journal, h.dirty]

/-- **Calls that leave the dirty entries alone.** -/
lemma NidsOk.quiet (h : NidsOk g K s) (hq : Quiet s.nat st') (hnat : NatOk g st') :
    NidsOk g K { s with nat := st' } ∧ gap g { s with nat := st' } = gap g s := by
  refine ⟨⟨hq.natNidOk h.nat hnat, hq.pool h.pool, fun x hx => ?_⟩, ?_⟩
  · rw [hq.freed]
    exact h.free x hx
  · exact gap_congr h.nat.nat.inv hnat.inv hq.recorded hq.freed (fun _ => Iff.rfl) rfl

lemma quiet_getNodeInfo (g : NatGeometry) (st : NatState) (nid : ℕ) (fill : Bool) :
    Quiet st (f2fsGetNodeInfo g st nid fill).2 := by
  unfold f2fsGetNodeInfo
  cases hc : st.cache nid with
  | some e => exact Quiet.refl st
  | none =>
      cases fill with
      | false => exact Quiet.refl st
      | true =>
          refine ⟨⟨rfl, rfl⟩, rfl, rfl, fun x e he => ?_, fun x e he _ => ?_⟩
          · by_cases hx : x = nid
            · obtain rfl : allocNatEntry (persistentNat g st nid) = e := by
                simpa [initNatEntry, hx] using he
              exact Or.inr ⟨rfl, rfl⟩
            · exact Or.inl (by simpa [initNatEntry, hx] using he)
          · have hx : x ≠ nid := by
              rintro rfl
              rw [hc] at he
              exact absurd he (by simp)
            simpa [initNatEntry, hx] using he

lemma quiet_tryToFreeNats (h : CacheOk g st) (nrShrink : ℕ) :
    Quiet st (f2fsTryToFreeNats st nrShrink) := by
  induction nrShrink generalizing st with
  | zero => exact Quiet.refl st
  | succ n ih =>
      unfold f2fsTryToFreeNats
      cases hl : st.natEntries with
      | nil => exact Quiet.refl st
      | cons y rest =>
          have hclean := (h.mem_clean y).mp (by simp [hl])
          cases hc : st.cache y with
          | none => simp [NatState.clean, hc] at hclean
          | some ne =>
              have hd : ne.isDirty = false := by simpa [NatState.clean, hc] using hclean
              have hdel : Quiet st (delFromNatCache st y) := by
                refine ⟨⟨rfl, rfl⟩, rfl, rfl, fun x e he => ?_, fun x e he hde => ?_⟩
                · by_cases hx : x = y
                  · simp [delFromNatCache, hx] at he
                  · exact Or.inl (by simpa [delFromNatCache, hx] using he)
                · have hx : x ≠ y := by
                    rintro rfl
                    obtain rfl : ne = e := by simpa [hc] using he
                    rw [hd] at hde
                    exact absurd hde (by simp)
                  simpa [delFromNatCache, hx] using he
              exact hdel.trans (ih (h.change (delFromNatCache_change h hc hd)))

/-! ## `set_node_addr` -/

/-- What `set_node_addr` does, as far as free nids go. -/
structure NodeRecorded (g : NatGeometry) (st st' : NatState) (nid : ℕ) (newBlkaddr : BitVec 32) :
    Prop where
  nat : NatOk g st'
  lt : nid < g.maxNid
  addr : (st'.recorded nid).ni.blkAddr = newBlkaddr
  recorded : ∀ x, x ≠ nid → st'.recorded x = st.recorded x
  freedSelf : st'.freed nid = (st.freed nid || newBlkaddr == nullAddr)
  freed : ∀ x, x ≠ nid → st'.freed x = st.freed x
  device : SameDevice st st'
  self : ∃ e, st'.cache nid = some e ∧ e.isDirty = true ∧
    (newBlkaddr = nullAddr → e.isCheckpointed = false)
  /-- The other entries keep their marks, but for those about fsync. -/
  entry : ∀ x, x ≠ nid → ∀ e', st'.cache x = some e' → ∃ e, st.cache x = some e ∧
    e'.isDirty = e.isDirty ∧ e'.isPrealloc = e.isPrealloc ∧ e'.isCheckpointed = e.isCheckpointed
  none : ∀ x, x ≠ nid → st'.cache x = none → st.cache x = none

lemma nodeRecorded {ni : NodeInfo} {newBlkaddr : BitVec 32} (h : NatOk g st)
    (hp : CallerPromise g st nid ni newBlkaddr) (fsyncDone : Bool) :
    NodeRecorded g st (setNodeAddr st nid ni newBlkaddr fsyncDone) nid newBlkaddr := by
  have hstep : natStep g st (.setNodeAddr nid ni newBlkaddr fsyncDone)
      = some (setNodeAddr st nid ni newBlkaddr fsyncDone) := by
    rw [natStep, if_pos hp]
  have hok := (h.step hstep).1
  have hrec := setNodeAddr_recorded h.inv h.freed hp fsyncDone
  obtain ⟨hfound, -⟩ := natEntryFor_found h.inv h.freed hp
  -- the state before the marks for fsync are set
  have hmark : setNodeAddr st nid ni newBlkaddr fsyncDone
      = markFsync (changeAddr (natEntryFor st nid ni newBlkaddr).1 nid
          (natEntryFor st nid ni newBlkaddr).2.1 (natEntryFor st nid ni newBlkaddr).2.2 ni
          newBlkaddr) nid ni.ino fsyncDone := rfl
  have hfreed : (setNodeAddr st nid ni newBlkaddr fsyncDone).freed
      = Function.update st.freed nid (st.freed nid || newBlkaddr == nullAddr) := by
    rw [hmark, markFsync_eq]
    simp only [changeAddr, setNatCacheDirty, hfound.freed]
  have hdevice : SameDevice st (setNodeAddr st nid ni newBlkaddr fsyncDone) := by
    rw [hmark, markFsync_eq]
    exact ⟨hfound.device.journal, hfound.device.nat⟩
  refine ⟨hok, hp.1, ?_, fun x hx => ?_, ?_, fun x hx => ?_, hdevice, ?_, fun x hx e' he' => ?_,
    fun x hx he' => ?_⟩
  · rw [hrec, Function.update_self]
    rfl
  · rw [hrec, Function.update_of_ne hx]
  · rw [hfreed, Function.update_self]
  · rw [hfreed, Function.update_of_ne hx]
  · rw [hmark]
    cases hc : (markFsync (changeAddr (natEntryFor st nid ni newBlkaddr).1 nid
        (natEntryFor st nid ni newBlkaddr).2.1 (natEntryFor st nid ni newBlkaddr).2.2 ni newBlkaddr)
        nid ni.ino fsyncDone).cache nid with
    | none =>
        have hnone := markFsync_cache_none hc
        simp [changeAddr, setNatCacheDirty] at hnone
    | some e' =>
        obtain ⟨e, he, -, hd, -, hck⟩ := markFsync_cache hc
        simp only [changeAddr, setNatCacheDirty, Function.update_self, Option.some.injEq] at he
        refine ⟨e', rfl, by rw [hd, ← he], fun hnull => ?_⟩
        rw [hck, ← he, hnull]
        simp [IsValidBlkaddr]
  · rw [hmark] at he'
    obtain ⟨e, he, -, hd, hpre, hck⟩ := markFsync_cache he'
    simp only [changeAddr, setNatCacheDirty, Function.update_of_ne hx, hfound.other x hx] at he
    exact ⟨e, he, hd, hpre, hck⟩
  · rw [hmark] at he'
    have hnone := markFsync_cache_none he'
    simpa only [changeAddr, setNatCacheDirty, Function.update_of_ne hx, hfound.other x hx]
      using hnone

lemma NodeRecorded.any {newBlkaddr : BitVec 32} (h : NodeRecorded g st st' nid newBlkaddr)
    {p : NatEntry → Bool} (hp : ∀ e e' : NatEntry, e'.isDirty = e.isDirty →
      e'.isPrealloc = e.isPrealloc → p e' = p e) (hx : x ≠ nid) :
    (st'.cache x).any p = (st.cache x).any p := by
  cases hc : st'.cache x with
  | none => rw [h.none x hx hc]
  | some e' =>
      obtain ⟨e, he, hd, hpre, -⟩ := h.entry x hx e' hc
      simp [he, hp e e' hd hpre]

lemma NodeRecorded.dirty {newBlkaddr : BitVec 32} (h : NodeRecorded g st st' nid newBlkaddr)
    (hx : x ≠ nid) : st'.dirty x = st.dirty x :=
  h.any (fun _ _ hd _ => hd) hx

lemma NodeRecorded.inSet {newBlkaddr : BitVec 32} (h : NodeRecorded g st st' nid newBlkaddr)
    (hx : x ≠ nid) : st'.inSet x = st.inSet x :=
  h.any (fun _ _ hd hpre => by rw [NatEntry.inSet, NatEntry.inSet, hd, hpre]) hx

lemma NodeRecorded.dirtySelf {newBlkaddr : BitVec 32}
    (h : NodeRecorded g st st' nid newBlkaddr) : st'.dirty nid = true := by
  obtain ⟨e, he, hd, -⟩ := h.self
  simp [NatState.dirty, he, hd]

lemma NodeRecorded.natNidOk {newBlkaddr : BitVec 32} (h : NodeRecorded g st st' nid newBlkaddr)
    (hok : NatNidOk g st) (hle : reservedNodeNum ≤ nid) (hfreed : st.freed nid = false) :
    NatNidOk g st' where
  nat := h.nat
  marks :=
    { clean := by
        intro x e' he' hd'
        by_cases hx : x = nid
        · obtain ⟨e, he, hd, -⟩ := h.self
          rw [hx, he, Option.some.injEq] at he'
          rw [← he', hd] at hd'
          exact absurd hd' (by simp)
        · obtain ⟨e, he, hd, -, hck⟩ := h.entry x hx e' he'
          rw [hck]
          exact hok.marks.clean x e he (by rw [← hd, hd'])
      reserved := by
        intro x hne hlt
        rw [h.recorded x (by omega)]
        exact hok.marks.reserved x hne hlt
      dirty := by
        intro x hd
        by_cases hx : x = nid
        · rw [hx]
          exact hle
        · rw [h.dirty hx] at hd
          exact hok.marks.dirty x hd
      keys := by rw [h.device.journal]; exact hok.marks.keys }
  freed := by
    intro x hf
    by_cases hx : x = nid
    · rw [hx, h.freedSelf, hfreed, Bool.false_or, beq_iff_eq] at hf
      obtain ⟨e, he, -, hck⟩ := h.self
      rw [hx]
      exact ⟨h.addr.trans hf, e, he, hck hf⟩
    · rw [h.freed x hx] at hf
      obtain ⟨hnull, e, he, hck⟩ := hok.freed x hf
      refine ⟨by rwa [h.recorded x hx], ?_⟩
      cases hc : st'.cache x with
      | none =>
          rw [h.none x hx hc] at he
          exact absurd he (by simp)
      | some e' =>
          obtain ⟨e₀, he₀, -, -, hck'⟩ := h.entry x hx e' hc
          obtain rfl : e = e₀ := by simpa [he] using he₀
          exact ⟨e', rfl, by rw [hck', hck]⟩

lemma NodeRecorded.pool {newBlkaddr : BitVec 32} (h : NodeRecorded g st st' nid newBlkaddr)
    (hp : PoolOk g K st f) (hfree : f.freeNidRoot nid ≠ some .freeNid)
    (hpre : newBlkaddr = nullAddr → f.freeNidRoot nid ≠ some .preallocNid) :
    PoolOk g K st' f where
  list := hp.list
  bits := hp.bits
  range := hp.range
  null := by
    intro x hx
    have hne : x ≠ nid := by
      rintro rfl
      exact hfree hx
    rw [h.recorded x hne]
    exact hp.null x hx
  prealloc := by
    intro x hx
    by_cases hxn : x = nid
    · rw [hxn] at hx
      rw [hxn, h.freedSelf, hp.prealloc nid hx, Bool.false_or, beq_eq_false_iff_ne]
      exact fun hnull => hpre hnull hx
    · rw [h.freed x hxn]
      exact hp.prealloc x hx
  known := by
    intro x hx hnull hle hlt hpx hs
    by_cases hxn : x = nid
    · rw [hxn] at hnull ⊢
      exact Or.inr (Or.inr (inSet_of_dirty h.nat.inv hnull h.dirtySelf))
    · rw [h.recorded x hxn] at hnull
      unfold JournalNull
      rw [h.device.journal, h.inSet hxn]
      exact hp.known x hx hnull hle hlt hpx hs
  bit := by
    intro x hlt hb
    obtain ⟨hne, hsrc⟩ := hp.bit x hlt hb
    refine ⟨hne, ?_⟩
    rw [blockNull, h.device.block, h.device.journal]
    by_cases hxn : x = nid
    · rw [hxn]
      exact Or.inr (Or.inr h.dirtySelf)
    · rw [h.dirty hxn]
      exact hsrc
  next := hp.next
  aligned := hp.aligned

/-- **`set_node_addr`**, for a nid that is not on the list: it is not free afterwards, and if it was
before, nobody has counted it off. -/
lemma NidsOk.recordedNode {newBlkaddr : BitVec 32} (h : NidsOk g K s)
    (hr : NodeRecorded g s.nat st' nid newBlkaddr) (hle : reservedNodeNum ≤ nid)
    (hfreed : s.nat.freed nid = false) (hfree : s.free.freeNidRoot nid ≠ some .freeNid)
    (hpre : newBlkaddr = nullAddr → s.free.freeNidRoot nid ≠ some .preallocNid) :
    NidsOk g K { s with nat := st' } ∧
      gap g { s with nat := st' } = gap g s + BitVec.ofNat 32 (discoverable g s nid).toNat := by
  refine ⟨⟨hr.natNidOk h.nat hle hfreed, hr.pool h.pool hfree hpre, fun x hx => ?_⟩, ?_⟩
  · have hne : x ≠ nid := by
      rintro rfl
      exact hfree hx
    rw [hr.freed x hne]
    exact h.free x hx
  · have hother : ∀ x, x ≠ nid →
        discoverable g { s with nat := st' } x = discoverable g s x := fun x hx =>
      discoverable_congr h.nat.nat.inv hr.nat.inv (hr.recorded x hx) (hr.freed x hx) Iff.rfl
    have hchange := gap_change hother
    have hnot : discoverable g { s with nat := st' } nid = false := by
      rw [Bool.eq_false_iff, ne_eq, discoverable_iff hr.nat.inv]
      rintro ⟨⟨-, -, hnull, hf⟩, -⟩
      rw [hr.addr] at hnull
      change st'.freed nid = false at hf
      rw [hr.freedSelf, hfreed, hnull] at hf
      exact absurd hf (by decide)
    rw [hnot] at hchange
    simp only [Bool.toNat_false] at hchange
    grind

/-! ## One nid of the list -/

/-- The list and the bitmaps change for one nid only. -/
structure Touched (f f' : FreeNids) (nid : ℕ) : Prop where
  list : ListOk f'
  bits : BitsOk f'
  root : ∀ x, x ≠ nid → f'.freeNidRoot x = f.freeNidRoot x
  bit : ∀ x, x ≠ nid → f'.bit x = f.bit x
  blocks : f'.natBlockBitmap = f.natBlockBitmap
  next : f'.nextScanNid = f.nextScanNid

lemma Touched.scanned (h : Touched f f' nid) (x : ℕ) : f'.scanned x = f.scanned x := by
  rw [FreeNids.scanned, FreeNids.scanned, h.blocks]

/-- The bits and the order in which the functions change them do not matter for `Touched`. -/
lemma Touched.of_bits (hl : ListOk f') (hb : BitsOk f) (hs : SameBits f f')
    (hroot : ∀ x, x ≠ nid → f'.freeNidRoot x = f.freeNidRoot x)
    (hnext : f'.nextScanNid = f.nextScanNid) : Touched f f' nid :=
  ⟨hl, hb.same hs, hroot, fun x _ => hs.bit x, hs.blocks, hnext⟩

lemma Touched.update (h : Touched f f' nid) (set : Bool) :
    Touched f (updateFreeNidBitmap f' nid set false) nid where
  list := h.list.same (updateFreeNidBitmap_list nid set false)
  bits := h.bits.update fun hfalse => absurd hfalse (by simp)
  root := by
    intro x hx
    rw [(updateFreeNidBitmap_list nid set false).root]
    exact h.root x hx
  bit := by
    intro x hx
    rw [updateFreeNidBitmap_bit, if_neg (fun hc => hx hc.1)]
    exact h.bit x hx
  blocks := (updateFreeNidBitmap_blocks nid set false).trans h.blocks
  next := (updateFreeNidBitmap_next nid set false).trans h.next

/-- What is free on the device has a source for its bit. -/
lemma TrulyFree.source (h : TrulyFree g st x) (hok : NatOk g st) :
    x ≠ 0 ∧ (blockNull g st x = true ∨ x ∈ Journal.keys st.journal ∨ st.dirty x = true) := by
  refine ⟨h.ne_zero, ?_⟩
  rcases h.device hok with ⟨r, hr, -⟩ | ⟨-, hb⟩
  · exact Or.inr (Or.inl (journalKey hr))
  · exact Or.inl hb

/-- **A nid is put on the list or taken off it.** -/
lemma NidsOk.touched (h : NidsOk g K s) (ht : Touched s.free f' nid)
    (hfree : f'.freeNidRoot nid = some .freeNid → TrulyFree g s.nat nid)
    (hpre : f'.freeNidRoot nid = some .preallocNid →
      reservedNodeNum ≤ nid ∧ nid < g.maxNid ∧ s.nat.freed nid = false)
    (hknown : f'.freeNidRoot nid = some .freeNid ∨ K nid → Known g s.nat f' nid)
    (hbit : f'.bit nid = true → s.free.bit nid = true ∨ TrulyFree g s.nat nid) :
    NidsOk g K { s with free := f' } := by
  refine ⟨h.nat, ⟨ht.list, ht.bits, fun x state hx => ?_, fun x hx => ?_, fun x hx => ?_,
    fun x hx => ?_, fun x hlt hb => ?_, ?_, ?_⟩, fun x hx => ?_⟩
  · by_cases hxn : x = nid
    · subst hxn
      cases state with
      | freeNid => exact ⟨(hfree hx).reserved, (hfree hx).lt⟩
      | preallocNid => exact ⟨(hpre hx).1, (hpre hx).2.1⟩
    · rw [ht.root x hxn] at hx
      exact h.pool.range x state hx
  · by_cases hxn : x = nid
    · subst hxn
      exact (hfree hx).null
    · rw [ht.root x hxn] at hx
      exact h.pool.null x hx
  · by_cases hxn : x = nid
    · subst hxn
      exact (hpre hx).2.2
    · rw [ht.root x hxn] at hx
      exact h.pool.prealloc x hx
  · by_cases hxn : x = nid
    · subst hxn
      exact hknown hx
    · rw [ht.root x hxn] at hx
      intro hnull hle hlt hp hs
      rw [ht.root x hxn] at hp
      rw [ht.scanned] at hs
      rw [ht.bit x hxn]
      exact h.pool.known x hx hnull hle hlt hp hs
  · by_cases hxn : x = nid
    · subst hxn
      rcases hbit hb with hold | htrue
      · exact h.pool.bit x hlt hold
      · exact htrue.source h.nat.nat
    · rw [ht.bit x hxn] at hb
      exact h.pool.bit x hlt hb
  · rw [ht.next]
    exact h.pool.next
  · rw [ht.next]
    exact h.pool.aligned
  · by_cases hxn : x = nid
    · subst hxn
      exact (hfree hx).freed
    · change f'.freeNidRoot x = some .freeNid at hx
      rw [ht.root x hxn] at hx
      exact h.free x hx

/-- What the count is off by, when the list changes for one nid. -/
lemma Touched.gap (h : NidsOk g K s) (ht : Touched s.free f' nid) :
    gap g { s with free := f' } - f'.availableNids
        + BitVec.ofNat 32 (discoverable g { s with free := f' } nid).toNat
      = gap g s - s.free.availableNids + BitVec.ofNat 32 (discoverable g s nid).toNat := by
  have hother : ∀ x, x ≠ nid →
      discoverable g { s with free := f' } x = discoverable g s x := fun x hx =>
    discoverable_congr h.nat.nat.inv h.nat.nat.inv rfl rfl
      (by rw [show ({ s with free := f' } : NodeManager).free.freeNidRoot x
        = s.free.freeNidRoot x from ht.root x hx])
  exact gap_change hother

/-! ## Taking a nid -/

/-- What `f2fs_alloc_nid` makes of the list when it takes a nid off it. -/
def takeNid (f : FreeNids) (nid : ℕ) : FreeNids :=
  updateFreeNidBitmap { moveFreeNid f nid .freeNid .preallocNid with
    availableNids := f.availableNids - 1 } nid false false

lemma takeNid_root (nid x : ℕ) :
    (takeNid f nid).freeNidRoot x = if x = nid then some .preallocNid else f.freeNidRoot x := by
  rw [takeNid, (updateFreeNidBitmap_list nid false false).root]
  exact moveFreeNid_root nid x .freeNid .preallocNid

lemma takeNid_available (nid : ℕ) : (takeNid f nid).availableNids = f.availableNids - 1 :=
  updateFreeNidBitmap_available nid false false

lemma touched_takeNid (hl : ListOk f) (hb : BitsOk f) (hr : f.freeNidRoot nid = some .freeNid) :
    Touched f (takeNid f nid) nid := by
  have ht : Touched f { moveFreeNid f nid .freeNid .preallocNid with
      availableNids := f.availableNids - 1 } nid :=
    Touched.of_bits ((hl.allocate hr).same ⟨rfl, rfl, rfl⟩) hb ⟨rfl, rfl, rfl⟩
      (fun x hx => (moveFreeNid_root nid x .freeNid .preallocNid).trans (if_neg hx)) rfl
  exact ht.update false

/-- A nid of the list can be found. -/
lemma NidsOk.discoverable (h : NidsOk g K s) (hr : s.free.freeNidRoot nid = some .freeNid) :
    discoverable g s nid = true :=
  (discoverable_iff h.nat.nat.inv).mpr ⟨h.trulyFree hr, by simp [hr]⟩

lemma NidsOk.takeNid (h : NidsOk g K s) (hr : s.free.freeNidRoot nid = some .freeNid) :
    NidsOk g K { s with free := takeNid s.free nid } ∧
      gap g { s with free := FreeNid.takeNid s.free nid } = gap g s := by
  have ht := touched_takeNid h.pool.list h.pool.bits hr
  have hroot : (FreeNid.takeNid s.free nid).freeNidRoot nid = some .preallocNid := by
    simp [takeNid_root]
  refine ⟨h.touched ht (fun hfree => ?_) (fun _ => ?_) (fun _ _ _ _ hp => ?_) fun hb => ?_, ?_⟩
  · rw [hroot] at hfree
    exact absurd hfree (by simp)
  · exact ⟨(h.trulyFree hr).reserved, (h.trulyFree hr).lt, (h.trulyFree hr).freed⟩
  · exact absurd hroot hp
  · exact Or.inr (h.trulyFree hr)
  · have hgap := ht.gap h
    have hnot :
        FreeNid.discoverable g { s with free := FreeNid.takeNid s.free nid } nid = false := by
      simp [FreeNid.discoverable, hroot]
    rw [h.discoverable hr, hnot, takeNid_available] at hgap
    simp only [Bool.toNat_false, Bool.toNat_true] at hgap
    grind

/-- **`f2fs_alloc_nid`**, when it ends. -/
lemma NidsOk.alloc {rounds : ℕ} {r : Option ℕ} (h : NidsOk g K s)
    (hr : f2fsAllocNid g s.nat rounds s.free = some (r, f')) :
    (NidsOk g K { s with free := f' } ∧ gap g { s with free := f' } = gap g s) ∧
      (r = none → s.free.availableNids = 0) ∧
      ∀ nid, r = some nid → FreeNid.discoverable g s nid = true ∧
        f'.freeNidRoot nid = some .preallocNid := by
  induction rounds generalizing s with
  | zero => exact absurd hr (by simp [f2fsAllocNid])
  | succ rounds ih =>
      by_cases ha : s.free.availableNids = 0
      · rw [f2fsAllocNid, if_pos ha, Option.some.injEq, Prod.mk.injEq] at hr
        obtain ⟨rfl, rfl⟩ := hr
        exact ⟨⟨h, rfl⟩, fun _ => ha, fun nid hnid => absurd hnid (by simp)⟩
      by_cases hne : s.free.nidCnt .freeNid ≠ 0
      · rw [f2fsAllocNid, if_neg ha, if_pos hne, Option.some.injEq, Prod.mk.injEq] at hr
        obtain ⟨rfl, rfl⟩ := hr
        have hfree := h.pool.list.head_free hne
        refine ⟨h.takeNid hfree, fun hnone => absurd hnone (by simp), fun nid hnid => ?_⟩
        obtain rfl : s.free.freeNidList.headD 0 = nid := by simpa using hnid
        exact ⟨h.discoverable hfree, (takeNid_root _ _).trans (if_pos rfl)⟩
      · have hb := buildFreeNids_rebuilt h.nat h.pool h.sound true true
        rw [alloc_succ rounds ha (not_not.mp hne)] at hr
        have hs : ∀ x, FreeNid.discoverable g
            { s with free := buildFreeNids g s.nat s.free true false true } x
            = FreeNid.discoverable g s x := fun x =>
          discoverable_congr h.nat.nat.inv h.nat.nat.inv rfl rfl (hb.stage.frame.prealloc x)
        obtain ⟨⟨hok, hgap⟩, hnone, hsome⟩ := ih (h.rebuilt hb) hr
        refine ⟨⟨hok, hgap.trans ?_⟩, fun hrn => ?_, fun nid hnid => ?_⟩
        · exact gap_congr h.nat.nat.inv h.nat.nat.inv rfl rfl hb.stage.frame.prealloc
            hb.stage.frame.available
        · rw [← hb.stage.frame.available]
          exact hnone hrn
        · rw [← hs]
          exact hsome nid hnid

/-! ## Giving it back -/

/-- **`f2fs_alloc_nid_done`**: the nid has an address now. -/
lemma NidsOk.done (h : NidsOk g K s) (hr : s.free.freeNidRoot nid = some .preallocNid)
    (hused : nodeBlkaddr g s nid ≠ nullAddr) :
    NidsOk g K { s with free := f2fsAllocNidDone s.free nid } ∧
      gap g { s with free := f2fsAllocNidDone s.free nid } = gap g s := by
  have hlt := (h.pool.range nid _ hr).2
  have hused' : (s.nat.recorded nid).ni.blkAddr ≠ nullAddr := by
    rwa [← nodeBlkaddr_eq h.nat.nat.inv hlt]
  have hroot : (f2fsAllocNidDone s.free nid).freeNidRoot nid = none := by
    simp [f2fsAllocNidDone, innerRemoveFreeNid_root]
  have ht : Touched s.free (f2fsAllocNidDone s.free nid) nid :=
    Touched.of_bits (h.pool.list.innerRemove hr) h.pool.bits
      (innerRemoveFreeNid_bits nid .preallocNid)
      (fun x hx => (innerRemoveFreeNid_root nid x .preallocNid).trans (if_neg hx)) rfl
  refine ⟨h.touched ht (fun hfree => ?_) (fun hp => ?_) (fun _ hnull => absurd hnull hused')
    fun hb => Or.inl hb, ?_⟩
  · rw [hroot] at hfree
    exact absurd hfree (by simp)
  · rw [hroot] at hp
    exact absurd hp (by simp)
  · have hnot : ∀ t : FreeNids, FreeNid.discoverable g { s with free := t } nid = false := by
      intro t
      have hiff : FreeNid.discoverable g { s with free := t } nid = true ↔
          Findable g s.nat t nid := discoverable_iff h.nat.nat.inv
      rw [Bool.eq_false_iff, ne_eq, hiff]
      exact fun hf => hused' hf.free.null
    have hgap := ht.gap h
    rw [hnot, hnot s.free] at hgap
    have havail : (f2fsAllocNidDone s.free nid).availableNids = s.free.availableNids := rfl
    rw [havail] at hgap
    simp only [Bool.toNat_false] at hgap
    grind

/-- **`f2fs_alloc_nid_failed`**: the nid is free again, and known if its block was scanned. -/
lemma NidsOk.failed (h : NidsOk g K s) (hasMemory : Bool)
    (hp : nid ≠ 0 → s.free.freeNidRoot nid = some .preallocNid ∧ nodeBlkaddr g s nid = nullAddr) :
    NidsOk g K { s with free := f2fsAllocNidFailed s.free nid hasMemory } ∧
      gap g { s with free := f2fsAllocNidFailed s.free nid hasMemory } = gap g s := by
  by_cases hn : nid = 0
  · rw [show f2fsAllocNidFailed s.free nid hasMemory = s.free by simp [f2fsAllocNidFailed, hn]]
    exact ⟨h, rfl⟩
  obtain ⟨hr, hnull⟩ := hp hn
  obtain ⟨hle, hlt⟩ := h.pool.range nid _ hr
  rw [nodeBlkaddr_eq h.nat.nat.inv hlt] at hnull
  have htrue : TrulyFree g s.nat nid := ⟨hle, hlt, hnull, h.pool.prealloc nid hr⟩
  -- the list, before the bit is set
  obtain ⟨f₁, hf₁, ht₁, hroot₁, havail₁⟩ : ∃ f₁,
      f2fsAllocNidFailed s.free nid hasMemory = updateFreeNidBitmap f₁ nid true false ∧
      Touched s.free f₁ nid ∧ f₁.freeNidRoot nid ≠ some .preallocNid ∧
      f₁.availableNids = s.free.availableNids + 1 := by
    rw [f2fsAllocNidFailed, if_neg hn]
    cases hasMemory with
    | true =>
        refine ⟨_, rfl, ?_, ?_, rfl⟩
        · exact Touched.of_bits ((h.pool.list.giveBack hr).same ⟨rfl, rfl, rfl⟩) h.pool.bits
            ⟨rfl, rfl, rfl⟩ (fun x hx => (moveFreeNid_root nid x .preallocNid .freeNid).trans
              (if_neg hx)) rfl
        · simp [moveFreeNid]
    | false =>
        refine ⟨_, rfl, ?_, ?_, rfl⟩
        · exact Touched.of_bits ((h.pool.list.innerRemove hr).same ⟨rfl, rfl, rfl⟩) h.pool.bits
            ⟨rfl, rfl, rfl⟩ (fun x hx => (innerRemoveFreeNid_root nid x .preallocNid).trans
              (if_neg hx)) rfl
        · simp [innerRemoveFreeNid]
  have ht := ht₁.update true
  have hroot : (updateFreeNidBitmap f₁ nid true false).freeNidRoot nid ≠ some .preallocNid := by
    rwa [(updateFreeNidBitmap_list nid true false).root]
  rw [hf₁]
  refine ⟨h.touched ht (fun _ => htrue) (fun hpre => absurd hpre hroot)
    (fun _ _ _ _ _ hs => Or.inl ?_) fun _ => Or.inr htrue, ?_⟩
  · rw [updateFreeNidBitmap_scanned] at hs
    rw [updateFreeNidBitmap_bit, if_pos ⟨rfl, hs⟩]
  · have hgap := ht.gap h
    have hiff : FreeNid.discoverable g
        { s with free := updateFreeNidBitmap f₁ nid true false } nid = true ↔
        Findable g s.nat (updateFreeNidBitmap f₁ nid true false) nid :=
      discoverable_iff h.nat.nat.inv
    have hnow := hiff.mpr ⟨htrue, hroot⟩
    have hbefore : FreeNid.discoverable g s nid = false := by
      simp [FreeNid.discoverable, hr]
    rw [hnow, hbefore, updateFreeNidBitmap_available, havail₁] at hgap
    simp only [Bool.toNat_false, Bool.toNat_true] at hgap
    grind

/-- A nid is taken off the list, and can be found again. -/
lemma NidsOk.dropped (h : NidsOk g K s) (hr : s.free.freeNidRoot nid = some .freeNid) :
    NidsOk g K { s with free := innerRemoveFreeNid s.free nid .freeNid } ∧
      gap g { s with free := innerRemoveFreeNid s.free nid .freeNid } = gap g s := by
  have hroot : (innerRemoveFreeNid s.free nid .freeNid).freeNidRoot nid = none := by
    simp [innerRemoveFreeNid_root]
  have hother : ∀ x, x ≠ nid →
      (innerRemoveFreeNid s.free nid .freeNid).freeNidRoot x = s.free.freeNidRoot x :=
    fun x hx => (innerRemoveFreeNid_root nid x .freeNid).trans (if_neg hx)
  have hpre : ∀ x, (innerRemoveFreeNid s.free nid .freeNid).freeNidRoot x = some .preallocNid ↔
      s.free.freeNidRoot x = some .preallocNid := by
    intro x
    by_cases hx : x = nid
    · rw [hx, hroot, hr]
      simp
    · rw [hother x hx]
  have ht : Touched s.free (innerRemoveFreeNid s.free nid .freeNid) nid :=
    Touched.of_bits (h.pool.list.innerRemove hr) h.pool.bits (innerRemoveFreeNid_bits nid .freeNid)
      hother rfl
  refine ⟨h.touched ht (fun hfree => ?_) (fun hp => ?_) (fun _ => ?_) fun hb => Or.inl hb, ?_⟩
  · rw [hroot] at hfree
    exact absurd hfree (by simp)
  · rw [hroot] at hp
    exact absurd hp (by simp)
  · exact (h.pool.known nid (Or.inl hr)).sameBits (innerRemoveFreeNid_bits nid .freeNid) (hpre nid)
  · exact gap_congr h.nat.nat.inv h.nat.nat.inv rfl rfl hpre rfl

lemma NidsOk.tryToFreeNids (h : NidsOk g K s) (nrShrink : ℕ) :
    NidsOk g K { s with free := f2fsTryToFreeNids s.free nrShrink } ∧
      gap g { s with free := f2fsTryToFreeNids s.free nrShrink } = gap g s := by
  induction nrShrink generalizing s with
  | zero => exact ⟨h, rfl⟩
  | succ n ih =>
      rw [f2fsTryToFreeNids]
      by_cases hcnt : s.free.nidCnt .freeNid ≤ maxFreeNids
      · rw [if_pos hcnt]
        exact ⟨h, rfl⟩
      · rw [if_neg hcnt]
        cases hl : s.free.freeNidList with
        | nil => exact ⟨h, rfl⟩
        | cons nid rest =>
            have hr : s.free.freeNidRoot nid = some .freeNid := by
              rw [← h.pool.list.mem, hl]
              simp
            obtain ⟨hok, hgap⟩ := h.dropped hr
            obtain ⟨hok', hgap'⟩ := ih hok
            exact ⟨hok', hgap'.trans hgap⟩

/-- `remove_free_nid`. -/
lemma NidsOk.removeFreeNid (h : NidsOk g K s) (nid : ℕ) :
    NidsOk g K { s with free := removeFreeNid s.free nid } ∧
      gap g { s with free := FreeNid.removeFreeNid s.free nid } = gap g s := by
  unfold FreeNid.removeFreeNid
  by_cases hr : s.free.freeNidRoot nid = some .freeNid
  · rw [if_pos hr]
    exact h.dropped hr
  · rw [if_neg hr]
    exact ⟨h, rfl⟩

/-! ## Nodes -/

lemma quietStep_getNodeInfo (h : NatOk g st) (hlt : nid < g.maxNid) (fill : Bool) :
    NatOk g (f2fsGetNodeInfo g st nid fill).2 := by
  have hstep : natStep g st (.getNodeInfo nid fill) = some (f2fsGetNodeInfo g st nid fill).2 := by
    rw [natStep, if_pos hlt]
  exact (h.step hstep).1

lemma NidsOk.freed_false (h : NidsOk g K s) (hused : (s.nat.recorded nid).ni.blkAddr ≠ nullAddr) :
    s.nat.freed nid = false := by
  cases hf : s.nat.freed nid with
  | false => rfl
  | true => exact absurd (h.nat.freed nid hf).1 hused

lemma NidsOk.undiscoverable (h : NidsOk g K s)
    (hused : (s.nat.recorded nid).ni.blkAddr ≠ nullAddr) :
    FreeNid.discoverable g s nid = false := by
  rw [Bool.eq_false_iff, ne_eq, discoverable_iff h.nat.nat.inv]
  exact fun hf => hused hf.free.null

/-- **A node gets another address, or is truncated.** -/
lemma NidsOk.moveNode {newBlkaddr : BitVec 32} (h : NidsOk g K s) (hle : reservedNodeNum ≤ nid)
    (hlt : nid < g.maxNid) (hused : nodeBlkaddr g s nid ≠ nullAddr) (hnew : newBlkaddr ≠ newAddr)
    (hpre : newBlkaddr = nullAddr → s.free.freeNidRoot nid ≠ some .preallocNid)
    (fsyncDone fill : Bool) :
    NidsOk g K (moveNode g s nid newBlkaddr fsyncDone fill) ∧
      gap g (FreeNid.moveNode g s nid newBlkaddr fsyncDone fill) = gap g s := by
  rw [nodeBlkaddr_eq h.nat.nat.inv hlt] at hused
  have hq := quiet_getNodeInfo g s.nat nid fill
  have hnat := quietStep_getNodeInfo h.nat.nat hlt fill
  obtain ⟨h₁, hgap₁⟩ := h.quiet hq hnat
  have hused₁ : ((f2fsGetNodeInfo g s.nat nid fill).2.recorded nid).ni.blkAddr ≠ nullAddr := by
    rwa [hq.recorded]
  have hpromise : CallerPromise g (f2fsGetNodeInfo g s.nat nid fill).2 nid
      (f2fsGetNodeInfo g s.nat nid fill).1 newBlkaddr := by
    refine ⟨hlt, ?_⟩
    rw [if_neg hnew]
    exact ⟨hused₁, by rw [f2fsGetNodeInfo_eq h.nat.nat.inv hlt, hq.recorded]⟩
  have hfree : s.free.freeNidRoot nid ≠ some .freeNid := fun hr => hused (h.pool.null nid hr)
  obtain ⟨h₂, hgap₂⟩ := h₁.recordedNode (nodeRecorded hnat hpromise fsyncDone) hle
    (h₁.freed_false hused₁) hfree hpre
  refine ⟨h₂, hgap₂.trans ?_⟩
  rw [h₁.undiscoverable hused₁, hgap₁]
  simp

lemma NidsOk.truncateNode (h : NidsOk g K s) (hlive : LiveNode g s nid) (fill : Bool) :
    NidsOk g K (truncateNode g s nid fill) ∧
      gap g (FreeNid.truncateNode g s nid fill) = gap g s :=
  h.moveNode hlive.1 hlive.2.1 hlive.2.2.1 (by decide) (fun _ => hlive.2.2.2) false fill

/-- **A new node**, with a nid that its caller got from `f2fs_alloc_nid`. -/
lemma NidsOk.newNodePage (h : NidsOk g K s) (hr : s.free.freeNidRoot nid = some .preallocNid)
    (hnull : nodeBlkaddr g s nid = nullAddr) (ino : ℕ) :
    NidsOk g K (f2fsNewNodePage s nid ino) ∧ gap g (f2fsNewNodePage s nid ino) = gap g s ∧
      nodeBlkaddr g (f2fsNewNodePage s nid ino) nid ≠ nullAddr := by
  obtain ⟨hle, hlt⟩ := h.pool.range nid _ hr
  rw [nodeBlkaddr_eq h.nat.nat.inv hlt] at hnull
  have hfreed := h.pool.prealloc nid hr
  have hpromise : CallerPromise g s.nat nid ⟨ino, nullAddr, 0⟩ newAddr := by
    refine ⟨hlt, ?_⟩
    rw [if_pos rfl]
    exact ⟨hnull, rfl, hfreed⟩
  have hrec := nodeRecorded h.nat.nat hpromise false
  obtain ⟨hok, hgap⟩ := h.recordedNode hrec hle hfreed (by simp [hr])
    fun hnew => absurd hnew (by decide)
  refine ⟨hok, hgap.trans ?_, ?_⟩
  · have hnot : FreeNid.discoverable g s nid = false := by simp [FreeNid.discoverable, hr]
    rw [hnot]
    simp
  · have haddr : nodeBlkaddr g (f2fsNewNodePage s nid ino) nid = newAddr :=
      (nodeBlkaddr_eq hrec.nat.inv hlt).trans hrec.addr
    rw [haddr]
    decide

/-! ## Roll-forward -/

/-- **`f2fs_recover_inode_page` takes the nid of an inode without an address and does not count it
off.** -/
lemma NidsOk.recoverInodePage {ino : ℕ} (h : NidsOk g K s) (hle : reservedNodeNum ≤ ino)
    (hlt : ino < g.maxNid) (hpre : s.free.freeNidRoot ino ≠ some .preallocNid)
    (hfreed : s.nat.freed ino = false) (fill : Bool) :
    NidsOk g K (f2fsRecoverInodePage g s ino fill).2 ∧
      gap g (f2fsRecoverInodePage g s ino fill).2
        = gap g s + BitVec.ofNat 32 (nodeBlkaddr g s ino == nullAddr).toNat := by
  have hq := quiet_getNodeInfo g s.nat ino fill
  have hnat := quietStep_getNodeInfo h.nat.nat hlt fill
  obtain ⟨h₁, hgap₁⟩ := h.quiet hq hnat
  have haddr : (f2fsGetNodeInfo g s.nat ino fill).1.blkAddr = nodeBlkaddr g s ino := by
    rw [f2fsGetNodeInfo_eq h.nat.nat.inv hlt, nodeBlkaddr_eq h.nat.nat.inv hlt]
  unfold f2fsRecoverInodePage
  by_cases hnull : nodeBlkaddr g s ino = nullAddr
  · have hzero : (f2fsGetNodeInfo g s.nat ino fill).1.blkAddr = nullAddr := haddr.trans hnull
    have htrue : (nodeBlkaddr g s ino == nullAddr) = true := by simpa using hnull
    rw [if_neg (not_not.mpr hzero), htrue]
    have hrec : (s.nat.recorded ino).ni.blkAddr = nullAddr := by
      rwa [← nodeBlkaddr_eq h.nat.nat.inv hlt]
    obtain ⟨h₂, hgap₂⟩ := h₁.removeFreeNid ino
    have hpromise : CallerPromise g (f2fsGetNodeInfo g s.nat ino fill).2 ino
        { (f2fsGetNodeInfo g s.nat ino fill).1 with ino := ino } newAddr := by
      refine ⟨hlt, ?_⟩
      rw [if_pos rfl, hq.recorded, hq.freed]
      exact ⟨hrec, hzero, hfreed⟩
    have hroot : (FreeNid.removeFreeNid s.free ino).freeNidRoot ino ≠ some .freeNid := by
      rw [removeFreeNid_root]
      split_ifs with hc
      · simp
      · simpa using hc
    have hfreed' : (f2fsGetNodeInfo g s.nat ino fill).2.freed ino = false := by
      rwa [hq.freed]
    obtain ⟨h₃, hgap₃⟩ := h₂.recordedNode (nodeRecorded hnat hpromise false) hle hfreed' hroot
      fun hnew => absurd hnew (by decide)
    refine ⟨h₃, hgap₃.trans ?_⟩
    have hroot' : (FreeNid.removeFreeNid s.free ino).freeNidRoot ino ≠ some .preallocNid := by
      rw [removeFreeNid_root]
      split_ifs
      · simp
      · exact hpre
    have hfind : Findable g (f2fsGetNodeInfo g s.nat ino fill).2
        (FreeNid.removeFreeNid s.free ino) ino :=
      ⟨⟨hle, hlt, by rw [hq.recorded]; exact hrec, hfreed'⟩, hroot'⟩
    rw [(discoverable_iff h₂.nat.nat.inv).mpr hfind, hgap₂, hgap₁]
  · rw [if_pos (by rwa [haddr])]
    have hfalse : (nodeBlkaddr g s ino == nullAddr) = false := by simpa using hnull
    refine ⟨h₁, ?_⟩
    rw [hgap₁, hfalse]
    simp

/-- **`f2fs_recover_xattr_data`** counts the nid off, by `f2fs_alloc_nid`. -/
lemma NidsOk.recoverXattrData {ino prevXnid rounds : ℕ} {newErr : Option Errno}
    {fill hasMemory : Bool} {r : Except Errno Unit × NodeManager} (h : NidsOk g K s)
    (hlive : prevXnid ≠ 0 → LiveNode g s prevXnid)
    (hr : f2fsRecoverXattrData g s ino prevXnid rounds newErr fill hasMemory = some r) :
    NidsOk g K r.2 ∧ gap g r.2 = gap g s := by
  unfold f2fsRecoverXattrData at hr
  -- the old node is truncated
  obtain ⟨s₁, hs₁, h₁, hgap₁⟩ : ∃ s₁,
      (if prevXnid = 0 then s else FreeNid.truncateNode g s prevXnid fill) = s₁ ∧
      NidsOk g K s₁ ∧ gap g s₁ = gap g s := by
    refine ⟨_, rfl, ?_⟩
    by_cases hx : prevXnid = 0
    · rw [if_pos hx]
      exact ⟨h, rfl⟩
    · rw [if_neg hx]
      exact h.truncateNode (hlive hx) fill
  rw [hs₁] at hr
  dsimp only at hr
  cases ha : f2fsAllocNid g s₁.nat rounds s₁.free with
  | none =>
      rw [ha] at hr
      exact absurd hr (by simp)
  | some x =>
      obtain ⟨newXnid, f⟩ := x
      obtain ⟨⟨h₂, hgap₂⟩, -, hsome⟩ := h₁.alloc ha
      cases newXnid with
      | none =>
          rw [ha] at hr
          obtain rfl := Option.some.inj hr
          exact ⟨h₂, hgap₂.trans hgap₁⟩
      | some newXnid =>
          obtain ⟨hfind, hroot⟩ := hsome newXnid rfl
          have hnull : nodeBlkaddr g { s₁ with free := f } newXnid = nullAddr := by
            have hfound := (discoverable_iff h₁.nat.nat.inv).mp hfind
            exact (nodeBlkaddr_eq h₁.nat.nat.inv hfound.free.lt).trans hfound.free.null
          cases newErr with
          | some e =>
              rw [ha] at hr
              obtain rfl := Option.some.inj hr
              obtain ⟨h₃, hgap₃⟩ := h₂.failed hasMemory fun _ => ⟨hroot, hnull⟩
              exact ⟨h₃, hgap₃.trans (hgap₂.trans hgap₁)⟩
          | none =>
              rw [ha] at hr
              obtain rfl := Option.some.inj hr
              obtain ⟨h₃, hgap₃, hused⟩ := h₂.newNodePage hroot hnull ino
              obtain ⟨h₄, hgap₄⟩ := h₃.done hroot hused
              exact ⟨h₄, hgap₄.trans (hgap₃.trans (hgap₂.trans hgap₁))⟩

/-! ## A step -/

/-- The call takes a nid that it does not count off. -/
def uncounted (g : NatGeometry) (s : NodeManager) : NidCall → Bool
  | .recoverInodePage ino _ => nodeBlkaddr g s ino == nullAddr
  | _ => false

/-- **A call keeps the invariant**, and what `available_nids` is off by as well, unless it recovers
an inode without an address. -/
lemma NidsOk.step {a : NidCall} (h : NidsOk g K s) (hstep : nidStep g s a = some s') :
    NidsOk g K s' ∧ gap g s' = gap g s + BitVec.ofNat 32 (uncounted g s a).toNat := by
  obtain ⟨hp, hcall⟩ := Option.ite_none_right_eq_some.mp hstep
  -- all calls but one are counted
  have hcounted : ∀ t : NodeManager, NidsOk g K t ∧ gap g t = gap g s →
      NidsOk g K t ∧ gap g t = gap g s + BitVec.ofNat 32 false.toNat := by
    rintro t ⟨hok, hgap⟩
    exact ⟨hok, by simp [hgap]⟩
  cases a with
  | getNodeInfo nid fill =>
      obtain rfl := Option.some.inj hcall
      exact hcounted _ (h.quiet (quiet_getNodeInfo g s.nat nid fill)
        (quietStep_getNodeInfo h.nat.nat hp fill))
  | tryToFreeNats nrShrink =>
      obtain rfl := Option.some.inj hcall
      have hnat : natStep g s.nat (.tryToFreeNats nrShrink)
          = some (f2fsTryToFreeNats s.nat nrShrink) := rfl
      exact hcounted _ (h.quiet (quiet_tryToFreeNats h.nat.nat.inv.cache nrShrink)
        (h.nat.nat.step hnat).1)
  | flushNatEntries natBits =>
      obtain rfl := Option.some.inj hcall
      exact hcounted _ (h.flush hp natBits)
  | syncMetaPages =>
      obtain rfl := Option.some.inj hcall
      have hq : Quiet s.nat { s.nat with dirtyPages := [] } :=
        ⟨⟨rfl, rfl⟩, rfl, rfl, fun _ _ he => Or.inl he, fun _ _ he _ => he⟩
      have hnat : natStep g s.nat .syncMetaPages = some { s.nat with dirtyPages := [] } := rfl
      exact hcounted _ (h.quiet hq (h.nat.nat.step hnat).1)
  | buildFreeNids sync hasMemory =>
      obtain rfl := Option.some.inj hcall
      have hb := buildFreeNids_rebuilt h.nat h.pool h.sound sync hasMemory
      exact hcounted _ ⟨h.rebuilt hb, gap_congr h.nat.nat.inv h.nat.nat.inv rfl rfl
        hb.stage.frame.prealloc hb.stage.frame.available⟩
  | allocNid rounds =>
      obtain ⟨⟨r, f'⟩, hr, rfl⟩ := Option.map_eq_some_iff.mp hcall
      exact hcounted _ (h.alloc hr).1
  | allocNidDone nid =>
      obtain rfl := Option.some.inj hcall
      exact hcounted _ (h.done hp.1 hp.2)
  | allocNidFailed nid hasMemory =>
      obtain rfl := Option.some.inj hcall
      exact hcounted _ (h.failed hasMemory hp)
  | tryToFreeNids nrShrink =>
      obtain rfl := Option.some.inj hcall
      exact hcounted _ (h.tryToFreeNids nrShrink)
  | newNodePage nid ino =>
      obtain rfl := Option.some.inj hcall
      obtain ⟨hok, hgap, -⟩ := h.newNodePage hp.1 hp.2 ino
      exact hcounted _ ⟨hok, hgap⟩
  | truncateNode nid fill =>
      obtain rfl := Option.some.inj hcall
      exact hcounted _ (h.truncateNode hp fill)
  | writeNode nid newBlkaddr fsyncDone fill =>
      obtain rfl := Option.some.inj hcall
      obtain ⟨hle, hlt, hused, hvalid, hnew⟩ := hp
      exact hcounted _ (h.moveNode hle hlt hused hnew (fun hnull => absurd hnull hvalid) fsyncDone
        fill)
  | recoverInodePage ino fill =>
      obtain rfl := Option.some.inj hcall
      exact h.recoverInodePage hp.1 hp.2.1 hp.2.2.1 hp.2.2.2 fill
  | recoverXattrData ino prevXnid rounds newErr fill hasMemory =>
      obtain ⟨r, hr, rfl⟩ := Option.map_eq_some_iff.mp hcall
      exact hcounted _ (h.recoverXattrData hp hr)

end Hoit.FreeNid
