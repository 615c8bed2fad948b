import HoitF2fs.Node.FreeNidScan
import HoitF2fs.Node.NatMap

/-!
# Which nids can be found

`TrulyFree` says from the NAT alone that a nid is free, `Known` that a scan will come across it: its
NAT block was not scanned yet, or it has a bit, or the journal has it without an address.

* `NidsOk` — what holds between the calls.  **Every nid of the list is truly free and known.**  The
  parameter `K` is for further nids that are known, whether they are in the list or not.
* `NatNidOk.candidate` — what a scan comes across is truly free, or in use by the journal, which a
  scan looks at last.
* `NidsOk.build` — a scan keeps this.
-/

namespace Hoit.FreeNid

open Bitmap

variable {g : NatGeometry} {K : ℕ → Prop} {st : NatState} {f f' : FreeNids} {x : ℕ}

/-! ## Free, from the NAT -/

/-- The NAT has no address for the nid, and had none at the last checkpoint. -/
structure TrulyFree (g : NatGeometry) (st : NatState) (x : ℕ) : Prop where
  reserved : reservedNodeNum ≤ x
  lt : x < g.maxNid
  null : (st.recorded x).ni.blkAddr = nullAddr
  freed : st.freed x = false

def JournalNull (st : NatState) (x : ℕ) : Prop :=
  ∃ r, Journal.get st.journal x = some r ∧ r.ni.blkAddr = nullAddr

def JournalUsed (st : NatState) (x : ℕ) : Prop :=
  ∃ r, Journal.get st.journal x = some r ∧ r.ni.blkAddr ≠ nullAddr

/-- What the NAT promises about marks and about reserved nids, at any time. -/
structure NatMarks (st : NatState) : Prop where
  clean : ∀ x e, st.cache x = some e → e.isDirty = false → e.isCheckpointed = true
  reserved : ∀ x, x ≠ 0 → x < reservedNodeNum → (st.recorded x).ni.blkAddr ≠ nullAddr
  dirty : ∀ x, st.dirty x = true → reservedNodeNum ≤ x
  keys : ∀ x ∈ Journal.keys st.journal, reservedNodeNum ≤ x

/-- What it promises between the calls. -/
structure NatNidOk (g : NatGeometry) (st : NatState) : Prop where
  nat : NatOk g st
  marks : NatMarks st
  /-- A nid that was freed is in the cache, with the mark that it was. -/
  freed : ∀ x, st.freed x = true → (st.recorded x).ni.blkAddr = nullAddr ∧
    ∃ e, st.cache x = some e ∧ e.isCheckpointed = false

lemma NatMarks.reserved_le (h : NatMarks st) (hx : x ≠ 0)
    (hnull : (st.recorded x).ni.blkAddr = nullAddr) : reservedNodeNum ≤ x := by
  by_contra hlt
  exact h.reserved x hx (not_le.mp hlt) hnull

lemma NatNidOk.freed_false_of_uncached (h : NatNidOk g st) (hx : st.cache x = none) :
    st.freed x = false := by
  cases hf : st.freed x with
  | false => rfl
  | true =>
      obtain ⟨-, e, he, -⟩ := h.freed x hf
      rw [hx] at he
      exact absurd he (by simp)

lemma dirty_of_uncached (hx : st.cache x = none) : st.dirty x = false := by
  simp [NatState.dirty, hx]

/-- **What a scan comes across**, when the cache does not know better. -/
lemma NatNidOk.candidate (h : NatNidOk g st) (hx : x ≠ 0) (hlt : x < g.maxNid)
    (hu : cachedInUse st x = false)
    (hsrc : blockNull g st x = true ∨ x ∈ Journal.keys st.journal ∨ st.dirty x = true) :
    TrulyFree g st x ∨ JournalUsed st x := by
  cases hc : st.cache x with
  | some e =>
      simp only [cachedInUse, hc, Option.any_some, Bool.or_eq_false_iff, Bool.not_eq_false',
        bne_eq_false_iff_eq] at hu
      have hnull : (st.recorded x).ni.blkAddr = nullAddr := by
        rw [← h.nat.inv.fresh x e hc]
        exact hu.2
      refine Or.inl ⟨h.marks.reserved_le hx hnull, hlt, hnull, ?_⟩
      cases hf : st.freed x with
      | false => rfl
      | true =>
          obtain ⟨-, e', he', hck⟩ := h.freed x hf
          obtain rfl : e = e' := by simpa [hc] using he'
          rw [hu.1] at hck
          exact absurd hck (by simp)
  | none =>
      have hper := h.nat.inv.persistent x hlt (dirty_of_uncached hc)
      unfold persistentNat at hper
      cases hj : Journal.get st.journal x with
      | some r =>
          rw [hj, Option.getD_some] at hper
          by_cases hr : r.ni.blkAddr = nullAddr
          · rw [hper] at hr
            exact Or.inl ⟨h.marks.reserved_le hx hr, hlt, hr, h.freed_false_of_uncached hc⟩
          · exact Or.inr ⟨r, hj, hr⟩
      | none =>
          rw [hj, Option.getD_none] at hper
          rcases hsrc with hnull | hkey | hd
          · have hr : (st.recorded x).ni.blkAddr = nullAddr := by
              rw [← hper]
              simpa [blockNull] using hnull
            exact Or.inl ⟨h.marks.reserved_le hx hr, hlt, hr, h.freed_false_of_uncached hc⟩
          · exact absurd hkey (Journal.get_eq_none_iff.mp hj)
          · rw [dirty_of_uncached hc] at hd
            exact absurd hd Bool.false_ne_true

lemma TrulyFree.ne_zero (h : TrulyFree g st x) : x ≠ 0 := by
  have hle := h.reserved
  unfold reservedNodeNum at hle
  omega

/-- An entry without an address that is dirty is in its set. -/
lemma inSet_of_null {e : NatEntry} (h : NatInv g st) (hc : st.cache x = some e)
    (hnull : (st.recorded x).ni.blkAddr = nullAddr) (hd : e.isDirty = true) :
    st.inSet x = true := by
  have hpre := h.cache.prealloc_eq x e hc
  rw [h.fresh x e hc, hnull] at hpre
  have hne : (nullAddr == newAddr) = false := rfl
  rw [hne] at hpre
  simp [NatState.inSet, hc, NatEntry.inSet, hd, hpre]

/-- **A truly free nid is clean**, so that the device has no address for it either. -/
lemma TrulyFree.dirty_false (h : TrulyFree g st x) (hok : NatOk g st) : st.dirty x = false := by
  cases hd : st.dirty x with
  | false => rfl
  | true =>
      cases hc : st.cache x with
      | none => exact absurd (hd.symm.trans (dirty_of_uncached hc)) (by simp)
      | some e =>
          have hed : e.isDirty = true := by simpa [NatState.dirty, hc] using hd
          have hin := inSet_of_null hok.inv hc h.null hed
          have hfr := hok.freed x e hc (by simpa [NatState.inSet, hc] using hin)
            (by rw [hok.inv.fresh x e hc]; exact h.null)
          rw [h.freed] at hfr
          exact absurd hfr Bool.false_ne_true

lemma TrulyFree.cachedInUse (h : TrulyFree g st x) (hok : NatNidOk g st) :
    cachedInUse st x = false := by
  unfold FreeNid.cachedInUse
  cases hc : st.cache x with
  | none => rfl
  | some e =>
      have hd := h.dirty_false hok.nat
      simp only [NatState.dirty, hc, Option.any_some] at hd
      have hck := hok.marks.clean x e hc hd
      have hnull := h.null
      rw [← hok.nat.inv.fresh x e hc] at hnull
      simp [hck, hnull]

lemma TrulyFree.recognised (h : TrulyFree g st x) (hok : NatNidOk g st)
    (hpre : f.freeNidRoot x ≠ some .preallocNid) : recognised st f x = true := by
  rw [recognised_of_ne h.ne_zero, h.cachedInUse hok]
  simpa using hpre

/-- The journal has no address for it, or has nothing and the NAT block has none. -/
lemma TrulyFree.device (h : TrulyFree g st x) (hok : NatOk g st) :
    JournalNull st x ∨ Journal.get st.journal x = none ∧ blockNull g st x = true := by
  have hper := hok.inv.persistent x h.lt (h.dirty_false hok)
  unfold persistentNat at hper
  have hnull := h.null
  cases hj : Journal.get st.journal x with
  | some r =>
      rw [hj, Option.getD_some] at hper
      rw [← hper] at hnull
      exact Or.inl ⟨r, hj, hnull⟩
  | none =>
      rw [hj, Option.getD_none] at hper
      rw [← hper] at hnull
      exact Or.inr ⟨rfl, by simpa [blockNull] using hnull⟩

lemma TrulyFree.not_journalUsed (h : TrulyFree g st x) (hok : NatOk g st) :
    ¬ JournalUsed st x := by
  rintro ⟨r, hr, hused⟩
  rcases h.device hok with ⟨r', hr', hnull⟩ | ⟨hnone, -⟩
  · obtain rfl : r = r' := by simpa [hr] using hr'
    exact hused hnull
  · rw [hr] at hnone
    exact absurd hnone (by simp)

/-! ## The invariant -/

/-- **A scan will come across the nid**, if it is free and no caller has it. -/
def Known (g : NatGeometry) (st : NatState) (f : FreeNids) (x : ℕ) : Prop :=
  (st.recorded x).ni.blkAddr = nullAddr → reservedNodeNum ≤ x → x < g.maxNid →
    f.freeNidRoot x ≠ some .preallocNid → f.scanned x = true →
    f.bit x = true ∨ JournalNull st x ∨ st.inSet x = true

/-- What holds of the list and the bitmaps at any time, a flush included. -/
structure PoolOk (g : NatGeometry) (K : ℕ → Prop) (st : NatState) (f : FreeNids) : Prop where
  list : ListOk f
  bits : BitsOk f
  range : ∀ x s, f.freeNidRoot x = some s → reservedNodeNum ≤ x ∧ x < g.maxNid
  null : ∀ x, f.freeNidRoot x = some .freeNid → (st.recorded x).ni.blkAddr = nullAddr
  prealloc : ∀ x, f.freeNidRoot x = some .preallocNid → st.freed x = false
  known : ∀ x, f.freeNidRoot x = some .freeNid ∨ K x → Known g st f x
  bit : ∀ x, x < g.maxNid → f.bit x = true →
    x ≠ 0 ∧ (blockNull g st x = true ∨ x ∈ Journal.keys st.journal ∨ st.dirty x = true)
  next : f.nextScanNid < g.maxNid
  aligned : f.nextScanNid % natEntryPerBlock = 0

/-- **What holds between the calls.** -/
structure NidsOk (g : NatGeometry) (K : ℕ → Prop) (s : NodeManager) : Prop where
  nat : NatNidOk g s.nat
  pool : PoolOk g K s.nat s.free
  free : ∀ x, s.free.freeNidRoot x = some .freeNid → s.nat.freed x = false

lemma NidsOk.trulyFree {s : NodeManager} (h : NidsOk g K s)
    (hx : s.free.freeNidRoot x = some .freeNid) : TrulyFree g s.nat x :=
  ⟨(h.pool.range x _ hx).1, (h.pool.range x _ hx).2, h.pool.null x hx, h.free x hx⟩

/-! ## What can be found -/

/-- The nid is free, and no caller has it. -/
structure Findable (g : NatGeometry) (st : NatState) (f : FreeNids) (x : ℕ) : Prop where
  free : TrulyFree g st x
  unclaimed : f.freeNidRoot x ≠ some .preallocNid

/-- The same, from what the code can see: not reserved, not preallocated, without an address in the
NAT, and not freed since the last checkpoint. -/
def discoverable (g : NatGeometry) (s : NodeManager) (x : ℕ) : Bool :=
  decide (reservedNodeNum ≤ x ∧ x < g.maxNid) && nodeBlkaddr g s x == nullAddr &&
    !s.nat.freed x && s.free.freeNidRoot x != some .preallocNid

lemma nodeBlkaddr_eq {s : NodeManager} (h : NatInv g s.nat) (hx : x < g.maxNid) :
    nodeBlkaddr g s x = (s.nat.recorded x).ni.blkAddr := by
  rw [nodeBlkaddr, f2fsGetNodeInfo_eq h hx]

lemma discoverable_iff {s : NodeManager} (h : NatInv g s.nat) :
    discoverable g s x = true ↔ Findable g s.nat s.free x := by
  unfold discoverable
  simp only [Bool.and_eq_true, decide_eq_true_eq, beq_iff_eq, Bool.not_eq_true', bne_iff_ne]
  constructor
  · rintro ⟨⟨⟨⟨hle, hlt⟩, hnull⟩, hfreed⟩, hpre⟩
    rw [nodeBlkaddr_eq h hlt] at hnull
    exact ⟨⟨hle, hlt, hnull, hfreed⟩, hpre⟩
  · rintro ⟨⟨hle, hlt, hnull, hfreed⟩, hpre⟩
    rw [← nodeBlkaddr_eq h hlt] at hnull
    exact ⟨⟨⟨⟨hle, hlt⟩, hnull⟩, hfreed⟩, hpre⟩

/-- **What `available_nids` is off by.** -/
def gap (g : NatGeometry) (s : NodeManager) : BitVec 32 :=
  s.free.availableNids - BitVec.ofNat 32 (g.nids (discoverable g s)).card

/-! ## The parts of a scan -/

/-- Every nid of the list is truly free, or in use by the journal. -/
def Candidates (g : NatGeometry) (st : NatState) (f : FreeNids) : Prop :=
  ∀ x, f.freeNidRoot x = some .freeNid → TrulyFree g st x ∨ JournalUsed st x

/-- What a part of a scan does to the nids that are free. -/
structure Stage (g : NatGeometry) (st : NatState) (f f' : FreeNids) : Prop where
  frame : Frame g st f f'
  candidates : Candidates g st f → Candidates g st f'
  keep : ∀ x, TrulyFree g st x → f.freeNidRoot x = some .freeNid →
    f'.freeNidRoot x = some .freeNid
  known : (∀ x, f.freeNidRoot x = some .freeNid → Known g st f x) →
    ∀ x, f'.freeNidRoot x = some .freeNid → Known g st f' x

lemma Stage.trans {f'' : FreeNids} (h : Stage g st f f') (h' : Stage g st f' f'') :
    Stage g st f f'' where
  frame := h.frame.trans h'.frame
  candidates := fun hc => h'.candidates (h.candidates hc)
  keep := fun x hx hfree => h'.keep x hx (h.keep x hx hfree)
  known := fun hk => h'.known (h.known hk)

/-- What was known stays known while the bitmaps stay as they are. -/
lemma Known.sameBits (h : Known g st f x) (hs : SameBits f f')
    (hpre : f'.freeNidRoot x = some .preallocNid ↔ f.freeNidRoot x = some .preallocNid) :
    Known g st f' x := by
  intro hnull hle hlt hp hscan
  rw [hs.scanned] at hscan
  rw [hs.bit]
  exact h hnull hle hlt (mt hpre.mpr hp) hscan

lemma BitsAdded.stage {nids : List ℕ} (h : BitsAdded st f f' nids) (hok : NatNidOk g st)
    (hb : BitsOk f) (hnids : ∀ x ∈ nids, x < g.maxNid ∧ f.bit x = true)
    (hbit : ∀ x, x < g.maxNid → f.bit x = true →
      x ≠ 0 ∧ (blockNull g st x = true ∨ x ∈ Journal.keys st.journal ∨ st.dirty x = true)) :
    Stage g st f f' where
  frame := h.frame hb
  candidates := by
    intro hc x hx
    cases hr : f.freeNidRoot x with
    | some s =>
        rw [h.keep x s hr] at hx
        exact hc x (by rw [hr, hx])
    | none =>
        rcases h.new x hr with hnone | ⟨-, hmem, hrec⟩
        · rw [hnone] at hx
          exact absurd hx (by simp)
        · obtain ⟨hlt, hset⟩ := hnids x hmem
          obtain ⟨hne, hsrc⟩ := hbit x hlt hset
          exact hok.candidate hne hlt (recognised_root hrec).2.1 hsrc
  keep := fun x _ hfree => h.keep x _ hfree
  known := by
    intro hk x hx
    have hpre := (h.frame (g := g) hb).prealloc x
    cases hr : f.freeNidRoot x with
    | some s =>
        rw [h.keep x s hr] at hx
        exact (hk x (by rw [hr, hx])).sameBits h.bits hpre
    | none =>
        rcases h.new x hr with hnone | ⟨-, hmem, -⟩
        · rw [hnone] at hx
          exact absurd hx (by simp)
        · intro _ _ _ _ _
          rw [h.bits.bit]
          exact Or.inl (hnids x hmem).2

/-- What the journal has after a scan of it. -/
lemma JournalScanned.free_iff (h : JournalScanned st f f' st.journal) :
    f'.freeNidRoot x = some .freeNid ↔
      f.freeNidRoot x = some .freeNid ∧ ¬ JournalUsed st x ∨
        JournalNull st x ∧ recognised st f x = true ∧ f.freeNidRoot x = none := by
  unfold JournalUsed JournalNull
  cases hj : Journal.get st.journal x with
  | none =>
      rw [h.absent x hj]
      simp
  | some r =>
      by_cases hr : r.ni.blkAddr = nullAddr
      · rw [h.null x r hj hr]
        split_ifs with hc
        · simp [hr, hc]
        · simp only [hr, Option.some.injEq, ne_eq, exists_eq_left', not_true_eq_false,
            not_false_eq_true,
            and_true, true_and, exists_eq_left', hc, or_false]
      · rw [h.used x r hj hr]
        split_ifs with hc
        · simp [hr]
        · simp [hr, hc]

lemma JournalScanned.stage (h : JournalScanned st f f' st.journal) (hok : NatNidOk g st)
    (hb : BitsOk f) : Stage g st f f' where
  frame := h.frame hb
  candidates := by
    intro hc x hx
    rcases h.free_iff.mp hx with ⟨hfree, -⟩ | ⟨⟨r, hr, -⟩, hrec, -⟩
    · exact hc x hfree
    · have hkey := journalKey hr
      obtain ⟨hne, hu, -⟩ := recognised_root hrec
      exact hok.candidate hne (hok.nat.inv.device.bound x hkey) hu (Or.inr (Or.inl hkey))
  keep := fun x hx hfree => h.free_iff.mpr (Or.inl ⟨hfree, hx.not_journalUsed hok.nat⟩)
  known := by
    intro hk x hx
    rcases h.free_iff.mp hx with ⟨hfree, -⟩ | ⟨hnull, -, -⟩
    · exact (hk x hfree).sameBits h.bits ((h.frame (g := g) hb).prealloc x)
    · intro _ _ _ _ _
      exact Or.inr (Or.inl hnull)

/-- **The journal has the last word**: after it, what is on the list is truly free. -/
lemma JournalScanned.sound (h : JournalScanned st f f' st.journal) (hok : NatNidOk g st)
    (hc : Candidates g st f) (hx : f'.freeNidRoot x = some .freeNid) : TrulyFree g st x := by
  rcases h.free_iff.mp hx with ⟨hfree, hused⟩ | ⟨⟨r, hr, hnull⟩, hrec, -⟩
  · exact (hc x hfree).resolve_right hused
  · have hkey := journalKey hr
    obtain ⟨hne, hu, -⟩ := recognised_root hrec
    refine (hok.candidate hne (hok.nat.inv.device.bound x hkey) hu
      (Or.inr (Or.inl hkey))).resolve_right ?_
    rintro ⟨r', hr', hused⟩
    obtain rfl : r = r' := by simpa [hr] using hr'
    exact hused hnull

/-- What the loop over the NAT blocks comes to is known, except for what it passes over. -/
lemma PagesScanned.known {start : ℕ} (h : PagesScanned g st f f' start) (hok : NatNidOk g st)
    (hskip : f.scanned x = true ∨ ¬ (natBlockOffset x = natBlockOffset start ∧ x < start))
    (hk : Known g st f x) : Known g st f' x := by
  intro hnull hle hlt hpre hscan
  have hpre' : f.freeNidRoot x ≠ some .preallocNid := mt (h.frame.prealloc x).mpr hpre
  cases hs : f.scanned x with
  | true =>
      rw [h.frame.bit x hs]
      exact hk hnull hle hlt hpre' hs
  | false =>
      rw [hs] at hskip
      have hskip := hskip.resolve_left Bool.false_ne_true
      cases hf : st.freed x with
      | true =>
          obtain ⟨-, e, he, hck⟩ := hok.freed x hf
          have hd : e.isDirty = true := by
            cases hd : e.isDirty with
            | true => rfl
            | false =>
                rw [hok.marks.clean x e he hd] at hck
                exact absurd hck (by simp)
          exact Or.inr (Or.inr (inSet_of_null hok.nat.inv he hnull hd))
      | false =>
          have htrue : TrulyFree g st x := ⟨hle, hlt, hnull, hf⟩
          rcases htrue.device hok.nat with hj | ⟨-, hblock⟩
          · exact Or.inr (Or.inl hj)
          · exact Or.inl (h.all x hs hscan hskip hlt hblock (htrue.recognised hok hpre')).1

lemma PagesScanned.stage {start : ℕ} (h : PagesScanned g st f f' start) (hok : NatNidOk g st)
    (hskip : ∀ x, f.freeNidRoot x = some .freeNid → f.scanned x = true ∨
      ¬ (natBlockOffset x = natBlockOffset start ∧ x < start)) : Stage g st f f' where
  frame := h.frame
  candidates := by
    intro hc x hx
    cases hr : f.freeNidRoot x with
    | some s =>
        rw [h.keep x s hr] at hx
        exact hc x (by rw [hr, hx])
    | none =>
        rcases h.new x hr with hnone | ⟨-, hlt, -, hnull, hrec⟩
        · rw [hnone] at hx
          exact absurd hx (by simp)
        · obtain ⟨hne, hu, -⟩ := recognised_root hrec
          exact hok.candidate hne hlt hu (Or.inl hnull)
  keep := fun x _ hfree => h.keep x _ hfree
  known := by
    intro hk x hx
    cases hr : f.freeNidRoot x with
    | some s =>
        rw [h.keep x s hr] at hx
        have hfree : f.freeNidRoot x = some .freeNid := by rw [hr, hx]
        exact h.known hok (hskip x hfree) (hk x hfree)
    | none =>
        rcases h.new x hr with hnone | ⟨-, -, hbit, -, -⟩
        · rw [hnone] at hx
          exact absurd hx (by simp)
        · exact fun _ _ _ _ _ => Or.inl hbit

/-! ## A whole scan -/

/-- What a scan does, or as much of it as ends with the journal. -/
structure Rebuilt (g : NatGeometry) (st : NatState) (f f' : FreeNids) : Prop where
  stage : Stage g st f f'
  sound : ∀ x, f'.freeNidRoot x = some .freeNid → TrulyFree g st x
  known : ∀ x, Known g st f x → Known g st f' x
  next : f'.nextScanNid < g.maxNid
  aligned : f'.nextScanNid % natEntryPerBlock = 0

lemma Rebuilt.trans {f'' : FreeNids} (h : Rebuilt g st f f') (h' : Rebuilt g st f' f'') :
    Rebuilt g st f f'' where
  stage := h.stage.trans h'.stage
  sound := h'.sound
  known := fun x hx => h'.known x (h.known x hx)
  next := h'.next
  aligned := h'.aligned

/-- **A scan keeps the invariant.** -/
lemma PoolOk.rebuilt (h : PoolOk g K st f) (hb : Rebuilt g st f f') : PoolOk g K st f' where
  list := hb.stage.frame.list
  bits := hb.stage.frame.bits
  range := by
    intro x s hx
    cases s with
    | freeNid => exact ⟨(hb.sound x hx).reserved, (hb.sound x hx).lt⟩
    | preallocNid => exact h.range x _ ((hb.stage.frame.prealloc x).mp hx)
  null := fun x hx => (hb.sound x hx).null
  prealloc := fun x hx => h.prealloc x ((hb.stage.frame.prealloc x).mp hx)
  known := by
    rintro x (hx | hx)
    · exact hb.stage.known (fun y hy => h.known y (Or.inl hy)) x hx
    · exact hb.known x (h.known x (Or.inr hx))
  bit := by
    intro x hlt hbit
    cases hs : f.scanned x with
    | true =>
        rw [hb.stage.frame.bit x hs] at hbit
        exact h.bit x hlt hbit
    | false =>
        obtain ⟨hnull, hne⟩ := hb.stage.frame.fresh x hs hbit
        exact ⟨hne, Or.inl hnull⟩
  next := hb.next
  aligned := hb.aligned

lemma NatNidOk.journal_nodup (h : NatNidOk g st) : (Journal.keys st.journal).Nodup :=
  h.nat.inv.device.nodup

/-- The nids of the list are free, as far as the journal knows. -/
def Sound (g : NatGeometry) (st : NatState) (f : FreeNids) : Prop :=
  ∀ x, f.freeNidRoot x = some .freeNid → TrulyFree g st x

lemma Sound.candidates (h : Sound g st f) : Candidates g st f := fun x hx => Or.inl (h x hx)

lemma addFreeNids_next (nids : List ℕ) :
    (addFreeNids st f nids).nextScanNid = f.nextScanNid := by
  induction nids generalizing f with
  | nil => rfl
  | cons nid nids ih =>
      rw [addFreeNids]
      split_ifs
      · exact addFreeNid_build_next nid false
      · exact (ih (f := (addFreeNid st f nid true false).2)).trans (addFreeNid_build_next nid false)

lemma scanFreeNidBits_next (hok : NatNidOk g st) (hl : ListOk f) :
    (scanFreeNidBits g st f).nextScanNid = f.nextScanNid := by
  have hadd : BitsAdded st f (addFreeNids st f (freeNidBits g f)) (freeNidBits g f) :=
    addFreeNids_scan hl
  exact (scanJournal_scan hok.journal_nodup hadd.list).next.trans (addFreeNids_next _)

/-- The bitmaps and the journal. -/
lemma scanFreeNidBits_rebuilt (hok : NatNidOk g st) (hp : PoolOk g K st f) (hs : Sound g st f) :
    Rebuilt g st f (scanFreeNidBits g st f) := by
  have hadd : BitsAdded st f (addFreeNids st f (freeNidBits g f)) (freeNidBits g f) :=
    addFreeNids_scan hp.list
  have hjournal : JournalScanned st _ (scanFreeNidBits g st f) st.journal :=
    scanJournal_scan hok.journal_nodup hadd.list
  have hstage := hadd.stage hok hp.bits (fun x hx => (mem_freeNidBits hp.bits).mp hx) hp.bit
  have hbits := hp.bits.same hadd.bits
  refine ⟨hstage.trans (hjournal.stage hok hbits), fun x hx => ?_, fun x hx => ?_, ?_, ?_⟩
  · exact hjournal.sound hok (hstage.candidates hs.candidates) hx
  · exact (hx.sameBits hadd.bits (hstage.frame.prealloc x)).sameBits hjournal.bits
      ((hjournal.frame (g := g) hbits).prealloc x)
  · rw [scanFreeNidBits_next hok hp.list]
    exact hp.next
  · rw [scanFreeNidBits_next hok hp.list]
    exact hp.aligned

/-- The next NAT blocks and the journal. -/
def scanBlocks (g : NatGeometry) (st : NatState) (f : FreeNids) (nid : ℕ) : FreeNids :=
  scanCursegCache st { (scanNatPages g st freeNidPages f nid).1 with
    nextScanNid := (scanNatPages g st freeNidPages f nid).2 }

lemma buildFreeNids_eq (sync mount hasMemory : Bool) :
    buildFreeNids g st f sync mount hasMemory
      = if natEntryPerBlock ≤ f.nidCnt .freeNid ∨ (!sync && !hasMemory) = true then f
        else if mount then scanBlocks g st f (if g.maxNid ≤ f.nextScanNid then 0 else f.nextScanNid)
        else if natEntryPerBlock ≤ (scanFreeNidBits g st f).nidCnt .freeNid then
          scanFreeNidBits g st f
        else scanBlocks g st (scanFreeNidBits g st f)
          (if g.maxNid ≤ f.nextScanNid then 0 else f.nextScanNid) := by
  unfold buildFreeNids
  by_cases henough : natEntryPerBlock ≤ f.nidCnt .freeNid
  · simp [henough]
  · cases hmem : !sync && !hasMemory with
    | true => simp
    | false => cases mount <;> simp [henough, scanBlocks]

lemma Known.congr (h : Known g st f x) (hs : SameBits f f')
    (hr : f'.freeNidRoot = f.freeNidRoot) : Known g st f' x :=
  h.sameBits hs (by rw [hr])

lemma Stage.of_next (g : NatGeometry) (st : NatState) (hl : ListOk f) (hb : BitsOk f) (n : ℕ) :
    Stage g st f { f with nextScanNid := n } where
  frame := Frame.of_sameBits (hl.same ⟨rfl, rfl, rfl⟩) hb ⟨rfl, rfl, rfl⟩ rfl fun _ => Iff.rfl
  candidates := fun hc => hc
  keep := fun _ _ h => h
  known := fun hk x hx => (hk x hx).congr ⟨rfl, rfl, rfl⟩ rfl

/-- What the blocks and the journal do, from any nid on. -/
lemma scanBlocks_scan {start : ℕ} (hok : NatNidOk g st) (hl : ListOk f) (hb : BitsOk f)
    (hlt : start < g.maxNid) (hc : Candidates g st f)
    (hskip : ∀ x, f.freeNidRoot x = some .freeNid → f.scanned x = true ∨
      ¬ (natBlockOffset x = natBlockOffset start ∧ x < start)) :
    Stage g st f (scanBlocks g st f start) ∧ Sound g st (scanBlocks g st f start) ∧
      (∀ x, f.scanned x = true ∨ ¬ (natBlockOffset x = natBlockOffset start ∧ x < start) →
        Known g st f x → Known g st (scanBlocks g st f start) x) ∧
      (scanBlocks g st f start).nextScanNid < g.maxNid ∧
      (scanBlocks g st f start).nextScanNid % natEntryPerBlock = 0 ∧
      natBlockOffset (scanBlocks g st f start).nextScanNid
        = (natBlockOffset start + freeNidPages) % g.natBlocks ∧
      ∀ k < freeNidPages, (scanBlocks g st f start).natBlockBitmap
        ((natBlockOffset start + k) % g.natBlocks) = true := by
  obtain ⟨hpages, hnext, hoff, hmod, hall⟩ :=
    scanNatPages_scan st freeNidPages hl hb hlt
  have hstage := hpages.stage hok hskip
  have hset := Stage.of_next g st hstage.frame.list hstage.frame.bits
    (scanNatPages g st freeNidPages f start).2
  have hjournal : JournalScanned st _ (scanBlocks g st f start) st.journal :=
    scanJournal_scan hok.journal_nodup hset.frame.list
  have hjstage := hjournal.stage hok hset.frame.bits
  refine ⟨(hstage.trans hset).trans hjstage, fun x hx => ?_, fun x hx hk => ?_, ?_, ?_, ?_,
    fun k hk => ?_⟩
  · exact hjournal.sound hok (hset.candidates (hstage.candidates hc)) hx
  · have hset : Known g st { (scanNatPages g st freeNidPages f start).1 with
        nextScanNid := (scanNatPages g st freeNidPages f start).2 } x :=
      (hpages.known hok hx hk).congr ⟨rfl, rfl, rfl⟩ rfl
    exact hset.sameBits hjournal.bits (hjstage.frame.prealloc x)
  · rw [hjournal.next]
    exact hnext
  · rw [hjournal.next]
    exact hmod (by decide)
  · rw [hjournal.next]
    exact hoff
  · rw [hjournal.bits.blocks]
    exact hall k hk

lemma scanBlocks_rebuilt (hok : NatNidOk g st) (hp : PoolOk g K st f) (hs : Sound g st f) :
    Rebuilt g st f (scanBlocks g st f f.nextScanNid) := by
  obtain ⟨hstage, hsound, hknown, hnext, hmod, -, -⟩ := scanBlocks_scan hok hp.list hp.bits
    hp.next hs.candidates fun x _ => Or.inr (not_skipped hp.aligned x)
  exact ⟨hstage, hsound, fun x => hknown x (Or.inr (not_skipped hp.aligned x)), hnext, hmod⟩

/-- **`f2fs_build_free_nids` keeps the invariant.** -/
lemma buildFreeNids_rebuilt (hok : NatNidOk g st) (hp : PoolOk g K st f) (hs : Sound g st f)
    (sync hasMemory : Bool) :
    Rebuilt g st f (buildFreeNids g st f sync false hasMemory) := by
  have hsame : Rebuilt g st f f :=
    ⟨⟨Frame.refl hp.list hp.bits, fun hc => hc, fun _ _ h => h, fun hk => hk⟩, hs, fun _ hx => hx,
      hp.next, hp.aligned⟩
  rw [buildFreeNids_eq, if_neg (not_le.mpr hp.next)]
  simp only [Bool.false_eq_true, if_false]
  have hbits := scanFreeNidBits_rebuilt hok hp hs
  split_ifs
  · exact hsame
  · exact hbits
  · have hblocks := scanBlocks_rebuilt hok (hp.rebuilt hbits) hbits.sound
    rw [scanFreeNidBits_next hok hp.list] at hblocks
    exact hbits.trans hblocks

lemma NidsOk.sound {s : NodeManager} (h : NidsOk g K s) : Sound g s.nat s.free :=
  fun _ hx => h.trulyFree hx

lemma NidsOk.rebuilt {s : NodeManager} (h : NidsOk g K s) (hb : Rebuilt g s.nat s.free f') :
    NidsOk g K { s with free := f' } :=
  ⟨h.nat, h.pool.rebuilt hb, fun x hx => (hb.sound x hx).freed⟩

end Hoit.FreeNid
