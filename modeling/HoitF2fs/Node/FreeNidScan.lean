import HoitF2fs.Node.FreeNidList
import HoitF2fs.Node.NatInv

/-!
# Scanning for free nids

`__f2fs_build_free_nids` looks in three places: the bitmaps of the blocks that were scanned before,
the next eight NAT blocks, and the journal.  The journal comes last because it overrides the others:
what it says is in use is taken off the list again.

* `Frame` — what no part of a scan changes: the preallocated nids, `available_nids`, the bits of the
  blocks that were scanned already.
* `addFreeNids_scan`, `scanNatPage_scan`, `scanJournal_scan` — the three places.
* `scanNatPages_scan` — the loop over NAT blocks.  **A block is scanned from the nid that the loop
  starts at, but counts as scanned from its first**, so that the nids before the start of the loop
  are passed over.
-/

namespace Hoit.FreeNid

open Bitmap

variable {g : NatGeometry} {st : NatState} {f f' f'' : FreeNids} {nid x : ℕ}

/-- The NAT block has no address for the nid. -/
def blockNull (g : NatGeometry) (st : NatState) (nid : ℕ) : Bool :=
  (natBlockEntry g st nid).ni.blkAddr == nullAddr

/-! ## What a scan leaves alone -/

structure Frame (g : NatGeometry) (st : NatState) (f f' : FreeNids) : Prop where
  list : ListOk f'
  bits : BitsOk f'
  available : f'.availableNids = f.availableNids
  prealloc : ∀ x, f'.freeNidRoot x = some .preallocNid ↔ f.freeNidRoot x = some .preallocNid
  scanned : ∀ x, f.scanned x = true → f'.scanned x = true
  bit : ∀ x, f.scanned x = true → f'.bit x = f.bit x
  /-- A bit that is new comes from the NAT block. -/
  fresh : ∀ x, f.scanned x = false → f'.bit x = true → blockNull g st x = true ∧ x ≠ 0

lemma Frame.refl (hl : ListOk f) (hb : BitsOk f) : Frame g st f f where
  list := hl
  bits := hb
  available := rfl
  prealloc := fun _ => Iff.rfl
  scanned := fun _ h => h
  bit := fun _ _ => rfl
  fresh := by
    intro x hx hbit
    rw [hb.bit_unscanned hx] at hbit
    exact absurd hbit Bool.false_ne_true

lemma Frame.trans (h : Frame g st f f') (h' : Frame g st f' f'') : Frame g st f f'' where
  list := h'.list
  bits := h'.bits
  available := h'.available.trans h.available
  prealloc := fun x => (h'.prealloc x).trans (h.prealloc x)
  scanned := fun x hx => h'.scanned x (h.scanned x hx)
  bit := fun x hx => (h'.bit x (h.scanned x hx)).trans (h.bit x hx)
  fresh := by
    intro x hx hbit
    cases hs : f'.scanned x with
    | true =>
        rw [h'.bit x hs] at hbit
        exact h.fresh x hx hbit
    | false => exact h'.fresh x hs hbit

/-- Whether a nid is recognised depends on nothing that a scan changes. -/
lemma recognised_congr (h : f'.freeNidRoot x = some .preallocNid ↔
    f.freeNidRoot x = some .preallocNid) : recognised st f' x = recognised st f x := by
  unfold recognised
  congr 1
  rw [Bool.eq_iff_iff]
  simp [h]

lemma Frame.recognised (h : Frame g st f f') (x : ℕ) :
    recognised st f' x = recognised st f x :=
  recognised_congr (h.prealloc x)

/-! ## A NAT block -/

/-- What the scan of some nids of one NAT block does. -/
structure NidsScanned (g : NatGeometry) (st : NatState) (f f' : FreeNids) (nids : List ℕ) :
    Prop where
  list : ListOk f'
  bits : BitsOk f'
  root : ∀ x, f'.freeNidRoot x
    = if x ∈ nids ∧ (blockNull g st x && recognised st f x) = true ∧ f.freeNidRoot x = none
      then some .freeNid else f.freeNidRoot x
  bit : ∀ x, f'.bit x
    = if x ∈ nids then blockNull g st x && recognised st f x else f.bit x
  blocks : f'.natBlockBitmap = f.natBlockBitmap
  available : f'.availableNids = f.availableNids

lemma scanNatEntry_scan (g : NatGeometry) (st : NatState) (hl : ListOk f) (hb : BitsOk f)
    (hs : f.scanned nid = true) (hbit : f.bit nid = false) :
    NidsScanned g st f (scanNatEntry g st f nid) [nid] := by
  unfold scanNatEntry
  by_cases hnull : (natBlockEntry g st nid).ni.blkAddr = nullAddr
  · have hblock : blockNull g st nid = true := by simpa [blockNull] using hnull
    rw [if_pos hnull]
    refine ⟨hl.add_build nid true, hb.add_build hbit, fun x => ?_, fun x => ?_,
      addFreeNid_build_blocks nid, addFreeNid_build_available nid true⟩
    · rw [addFreeNid_build_root]
      by_cases hx : x = nid
      · subst hx
        simp [hblock]
      · simp [hx]
    · by_cases hn : nid = 0
      · subst hn
        by_cases hx : x = 0
        · subst hx
          simp [addFreeNid_zero, recognised_zero, hbit]
        · simp [addFreeNid_zero, hx]
      · rw [addFreeNid_build_bit hn]
        by_cases hx : x = nid
        · subst hx
          simp [hs, hblock]
        · simp [hx]
  · have hblock : blockNull g st nid = false := by simpa [blockNull] using hnull
    rw [if_neg hnull]
    have hsame := updateFreeNidBitmap_list (f := f) nid false true
    refine ⟨hl.same hsame, hb.update fun _ _ => hbit, fun x => ?_, fun x => ?_,
      updateFreeNidBitmap_blocks nid false true, updateFreeNidBitmap_available nid false true⟩
    · rw [hsame.root]
      by_cases hx : x = nid
      · subst hx
        simp [hblock]
      · simp [hx]
    · rw [updateFreeNidBitmap_bit]
      by_cases hx : x = nid
      · subst hx
        simp [hs, hblock]
      · simp [hx]

lemma scanNatEntries_scan {nids : List ℕ} (hnd : nids.Nodup) (hl : ListOk f) (hb : BitsOk f)
    (hs : ∀ x ∈ nids, f.scanned x = true) (hbit : ∀ x ∈ nids, f.bit x = false) :
    NidsScanned g st f (nids.foldl (scanNatEntry g st) f) nids := by
  induction nids generalizing f with
  | nil => exact ⟨hl, hb, fun x => by simp, fun x => by simp, rfl, rfl⟩
  | cons nid nids ih =>
      obtain ⟨hnot, hnd⟩ := List.nodup_cons.mp hnd
      have h₁ := scanNatEntry_scan g st hl hb (hs nid (by simp)) (hbit nid (by simp))
      have hne : ∀ x ∈ nids, x ≠ nid := fun x hx hxn => hnot (hxn ▸ hx)
      have hroot : ∀ x, x ≠ nid → (scanNatEntry g st f nid).freeNidRoot x = f.freeNidRoot x :=
        fun x hx => by rw [h₁.root]; simp [hx]
      have hrec : ∀ x, x ≠ nid →
          recognised st (scanNatEntry g st f nid) x = recognised st f x :=
        fun x hx => recognised_congr (by rw [hroot x hx])
      have h₂ := ih hnd h₁.list h₁.bits
        (fun x hx => by
          rw [FreeNids.scanned, h₁.blocks]
          exact hs x (by simp [hx]))
        (fun x hx => by
          rw [h₁.bit, if_neg (by simp [hne x hx])]
          exact hbit x (by simp [hx]))
      refine ⟨h₂.list, h₂.bits, fun x => ?_, fun x => ?_, h₂.blocks.trans h₁.blocks,
        h₂.available.trans h₁.available⟩
      · rw [List.foldl_cons, h₂.root]
        by_cases hx : x = nid
        · subst hx
          rw [if_neg (by simp [hnot]), h₁.root]
          simp
        · rw [hrec x hx, hroot x hx]
          simp [hx]
      · rw [List.foldl_cons, h₂.bit]
        by_cases hx : x = nid
        · subst hx
          rw [if_neg hnot, h₁.bit]
          simp
        · rw [hrec x hx, h₁.bit]
          simp [hx]

/-- The nids from one to the end of its block. -/
lemma mem_pageNids {start : ℕ} :
    x ∈ (List.range' start (natEntryPerBlock - start % natEntryPerBlock)).takeWhile
        (fun nid => nid < g.maxNid) ↔
      natBlockOffset x = natBlockOffset start ∧ start ≤ x ∧ x < g.maxNid := by
  have hpair : (List.range' start (natEntryPerBlock - start % natEntryPerBlock)).Pairwise (· < ·) :=
    List.pairwise_lt_range'
  rw [Transition.mem_takeWhile_iff hpair, List.mem_range'_1]
  have hdiv := Nat.div_add_mod start natEntryPerBlock
  have hdivx := Nat.div_add_mod x natEntryPerBlock
  have hmod := nid_mod_lt start
  have hmodx := nid_mod_lt x
  have hblock : natBlockOffset x = natBlockOffset start ∧ start ≤ x ↔
      start ≤ x ∧ x < start + (natEntryPerBlock - start % natEntryPerBlock) := by
    unfold natBlockOffset
    simp only [natEntryPerBlock] at *
    omega
  rw [← and_assoc, hblock]
  refine and_congr_right fun hx => ⟨fun h => ?_, fun hlt j hj hle => ?_⟩
  · simpa using h x (List.mem_range'_1.mpr hx) (Or.inr rfl)
  · have hjx : j ≤ x := hle.elim le_of_lt le_of_eq
    simpa using lt_of_le_of_lt hjx hlt

/-- What the scan of a block does, from `start` on. -/
structure PageScanned (g : NatGeometry) (st : NatState) (f f' : FreeNids) (start : ℕ) : Prop where
  frame : Frame g st f f'
  scanned : ∀ x, f'.scanned x = (f.scanned x || decide (natBlockOffset x = natBlockOffset start))
  keep : ∀ x s, f.freeNidRoot x = some s → f'.freeNidRoot x = some s
  new : ∀ x, f.freeNidRoot x = none → f'.freeNidRoot x = none ∨
    f'.freeNidRoot x = some .freeNid ∧ x < g.maxNid ∧ f'.bit x = true ∧
      blockNull g st x = true ∧ recognised st f x = true
  all : ∀ x, natBlockOffset x = natBlockOffset start → start ≤ x → x < g.maxNid →
    blockNull g st x = true → recognised st f x = true →
    f'.bit x = true ∧ f'.freeNidRoot x = some .freeNid
  before : ∀ x, natBlockOffset x = natBlockOffset start → x < start → f'.bit x = false

lemma recognised_root (h : recognised st f x = true) :
    x ≠ 0 ∧ cachedInUse st x = false ∧ f.freeNidRoot x ≠ some .preallocNid := by
  unfold recognised at h
  simp only [Bool.and_eq_true, bne_iff_ne, Bool.not_eq_true'] at h
  exact ⟨h.1.1, h.1.2, h.2⟩

lemma BitsOk.markScanned (h : BitsOk f) (b : ℕ) : BitsOk (markScanned f b) := by
  refine ⟨fun b' i hb' => h.unscanned b' i ?_, h.count⟩
  by_cases hbs : b' = b
  · simp [FreeNid.markScanned, hbs] at hb'
  · simpa [FreeNid.markScanned, hbs] using hb'

lemma markScanned_scanned (b x : ℕ) :
    (markScanned f b).scanned x = (f.scanned x || decide (natBlockOffset x = b)) := by
  by_cases hx : natBlockOffset x = b
  · simp [FreeNids.scanned, markScanned, hx]
  · simp [FreeNids.scanned, markScanned, hx]

lemma scanNatPage_scan (g : NatGeometry) (st : NatState) {start : ℕ} (hl : ListOk f) (hb : BitsOk f)
    (hs : f.scanned start = false) : PageScanned g st f (scanNatPage g st f start) start := by
  have hscan : NidsScanned g st (markScanned f (natBlockOffset start))
      (scanNatPage g st f start) _ :=
    scanNatEntries_scan (List.Nodup.sublist (List.takeWhile_sublist _) List.nodup_range')
      (hl.same ⟨rfl, rfl, rfl⟩) (hb.markScanned _)
      (fun x hx => by
        rw [markScanned_scanned, (mem_pageNids.mp hx).1]
        simp)
      (fun x hx => hb.unscanned _ _ (by rw [(mem_pageNids.mp hx).1]; exact hs))
  have hrec : ∀ x, recognised st (markScanned f (natBlockOffset start)) x = recognised st f x :=
    fun _ => rfl
  have hscanned : ∀ x, (scanNatPage g st f start).scanned x
      = (f.scanned x || decide (natBlockOffset x = natBlockOffset start)) := by
    intro x
    rw [← markScanned_scanned, FreeNids.scanned, hscan.blocks, FreeNids.scanned]
  have hother : ∀ x, f.scanned x = true → natBlockOffset x ≠ natBlockOffset start := by
    intro x hx heq
    rw [FreeNids.scanned, heq] at hx
    rw [FreeNids.scanned, hx] at hs
    exact absurd hs (by simp)
  have hbit : ∀ x, (scanNatPage g st f start).bit x
      = if natBlockOffset x = natBlockOffset start ∧ start ≤ x ∧ x < g.maxNid then
          blockNull g st x && recognised st f x else f.bit x := by
    intro x
    rw [hscan.bit]
    simp only [mem_pageNids, hrec]
    rfl
  have hroot : ∀ x, (scanNatPage g st f start).freeNidRoot x
      = if (natBlockOffset x = natBlockOffset start ∧ start ≤ x ∧ x < g.maxNid) ∧
          (blockNull g st x && recognised st f x) = true ∧ f.freeNidRoot x = none
        then some .freeNid else f.freeNidRoot x := by
    intro x
    rw [hscan.root]
    simp only [mem_pageNids, hrec]
    rfl
  refine ⟨⟨hscan.list, hscan.bits, hscan.available, fun x => ?_, fun x hx => ?_, fun x hx => ?_,
    fun x hx hx' => ?_⟩, hscanned, fun x s hx => ?_, fun x hx => ?_,
    fun x hoff hle hlt hnull hx => ?_, fun x hoff hlt => ?_⟩
  · rw [hroot]
    split_ifs with hc
    · simp [hc.2.2]
    · exact Iff.rfl
  · simp [hscanned, hx]
  · rw [hbit, if_neg fun hc => hother x hx hc.1]
  · rw [hbit] at hx'
    split_ifs at hx' with hc
    · simp only [Bool.and_eq_true] at hx'
      exact ⟨hx'.1, (recognised_root hx'.2).1⟩
    · rw [hb.bit_unscanned hx] at hx'
      exact absurd hx' Bool.false_ne_true
  · rw [hroot, if_neg (by simp [hx]), hx]
  · rw [hroot, hbit]
    split_ifs with hc hc' hc'
    · simp only [Bool.and_eq_true] at hc
      exact Or.inr ⟨rfl, hc'.2.2, by simp [hc.2.1], hc.2.1.1, hc.2.1.2⟩
    · exact absurd hc.1 hc'
    · exact Or.inl hx
    · exact Or.inl hx
  · obtain ⟨-, -, hpre⟩ := recognised_root hx
    rw [hroot, hbit, if_pos ⟨hoff, hle, hlt⟩, hnull, hx]
    refine ⟨rfl, ?_⟩
    cases hr : f.freeNidRoot x with
    | none => simp [hoff, hle, hlt]
    | some s =>
        cases s with
        | freeNid => simp
        | preallocNid => exact absurd hr hpre
  · rw [hbit, if_neg fun hc => absurd hc.2.1 (not_le.mpr hlt)]
    exact hb.unscanned _ _ (by rw [hoff]; exact hs)

/-! ## The loop over NAT blocks -/

/-- What the loop does, from `start` on. -/
structure PagesScanned (g : NatGeometry) (st : NatState) (f f' : FreeNids) (start : ℕ) :
    Prop where
  frame : Frame g st f f'
  keep : ∀ x s, f.freeNidRoot x = some s → f'.freeNidRoot x = some s
  new : ∀ x, f.freeNidRoot x = none → f'.freeNidRoot x = none ∨
    f'.freeNidRoot x = some .freeNid ∧ x < g.maxNid ∧ f'.bit x = true ∧
      blockNull g st x = true ∧ recognised st f x = true
  /-- **Nothing is missed** but what is before `start` in its block. -/
  all : ∀ x, f.scanned x = false → f'.scanned x = true →
    ¬ (natBlockOffset x = natBlockOffset start ∧ x < start) → x < g.maxNid →
    blockNull g st x = true → recognised st f x = true →
    f'.bit x = true ∧ f'.freeNidRoot x = some .freeNid

lemma PagesScanned.refl (hl : ListOk f) (hb : BitsOk f) (start : ℕ) :
    PagesScanned g st f f start where
  frame := Frame.refl hl hb
  keep := fun _ _ h => h
  new := fun _ h => Or.inl h
  all := by
    intro x hx hx'
    rw [hx] at hx'
    exact absurd hx' Bool.false_ne_true

lemma PageScanned.pages {start : ℕ} (h : PageScanned g st f f' start) :
    PagesScanned g st f f' start where
  frame := h.frame
  keep := h.keep
  new := h.new
  all := by
    intro x hx hx' hskip hlt hnull hrec
    have hoff : natBlockOffset x = natBlockOffset start := by
      simpa [h.scanned, hx] using hx'
    exact h.all x hoff (not_lt.mp fun hxs => hskip ⟨hoff, hxs⟩) hlt hnull hrec

/-- No nid of a block is before its start. -/
lemma not_skipped {start : ℕ} (h : start % natEntryPerBlock = 0) (x : ℕ) :
    ¬ (natBlockOffset x = natBlockOffset start ∧ x < start) := by
  rintro ⟨hoff, hlt⟩
  have hdiv := Nat.div_add_mod start natEntryPerBlock
  have hdivx := Nat.div_add_mod x natEntryPerBlock
  unfold natBlockOffset at hoff
  rw [hoff] at hdivx
  omega

/-- The loop goes on at the start of a block. -/
lemma PagesScanned.trans {start next : ℕ} (h : PagesScanned g st f f' start)
    (h' : PagesScanned g st f' f'' next) (hnext : next % natEntryPerBlock = 0) :
    PagesScanned g st f f'' start where
  frame := h.frame.trans h'.frame
  keep := fun x s hx => h'.keep x s (h.keep x s hx)
  new := by
    intro x hx
    rcases h.new x hx with hnone | ⟨hfree, hlt, hbit, hnull, hrec⟩
    · rcases h'.new x hnone with hnone' | ⟨hfree, hlt, hbit, hnull, hrec⟩
      · exact Or.inl hnone'
      · rw [h.frame.recognised] at hrec
        exact Or.inr ⟨hfree, hlt, hbit, hnull, hrec⟩
    · refine Or.inr ⟨h'.keep x _ hfree, hlt, ?_, hnull, hrec⟩
      cases hs : f'.scanned x with
      | true => rw [h'.frame.bit x hs, hbit]
      | false =>
          rw [h.frame.bits.bit_unscanned hs] at hbit
          exact absurd hbit Bool.false_ne_true
  all := by
    intro x hx hx' hskip hlt hnull hrec
    cases hs : f'.scanned x with
    | true =>
        obtain ⟨hbit, hfree⟩ := h.all x hx hs hskip hlt hnull hrec
        exact ⟨by rw [h'.frame.bit x hs, hbit], h'.keep x _ hfree⟩
    | false =>
        exact h'.all x hs hx' (not_skipped hnext x) hlt hnull (by rwa [h.frame.recognised])

/-- The first nid of the block behind that of `nid`, or of the first one. -/
def nextBlock (g : NatGeometry) (nid : ℕ) : ℕ :=
  if g.maxNid ≤ nid + (natEntryPerBlock - nid % natEntryPerBlock) then 0
  else nid + (natEntryPerBlock - nid % natEntryPerBlock)

lemma nextBlock_spec (hnid : nid < g.maxNid) :
    nextBlock g nid % natEntryPerBlock = 0 ∧ nextBlock g nid < g.maxNid ∧
      natBlockOffset (nextBlock g nid) = (natBlockOffset nid + 1) % g.natBlocks := by
  have hdiv := Nat.div_add_mod nid natEntryPerBlock
  have hmod := nid_mod_lt nid
  have hbehind : nid + (natEntryPerBlock - nid % natEntryPerBlock)
      = natEntryPerBlock * (natBlockOffset nid + 1) := by
    unfold natBlockOffset
    rw [Nat.mul_add, Nat.mul_one]
    omega
  have hlt := natBlockOffset_lt hnid
  unfold nextBlock
  rw [hbehind]
  have hpos : 0 < natEntryPerBlock := by decide
  split_ifs with hmax
  · have hlast : natBlockOffset nid + 1 = g.natBlocks := by
      have hle := Nat.le_of_mul_le_mul_left (show natEntryPerBlock * g.natBlocks
        ≤ natEntryPerBlock * (natBlockOffset nid + 1) from hmax) hpos
      omega
    exact ⟨rfl, by omega, by rw [hlast, Nat.mod_self]; rfl⟩
  · have hnot : natBlockOffset nid + 1 < g.natBlocks :=
      Nat.lt_of_mul_lt_mul_left (not_le.mp hmax)
    refine ⟨Nat.mul_mod_right _ _, not_le.mp hmax, ?_⟩
    rw [Nat.mod_eq_of_lt hnot]
    exact Nat.mul_div_cancel_left _ hpos

lemma scanNatPages_succ (i nid : ℕ) :
    scanNatPages g st (i + 1) f nid
      = scanNatPages g st i (if f.scanned nid then f else scanNatPage g st f nid)
          (nextBlock g nid) := rfl

/-- **The loop** scans so many blocks one after the other. -/
lemma scanNatPages_scan (st : NatState) (i : ℕ) (hl : ListOk f) (hb : BitsOk f)
    (hnid : nid < g.maxNid) :
    PagesScanned g st f (scanNatPages g st i f nid).1 nid ∧
      (scanNatPages g st i f nid).2 < g.maxNid ∧
      natBlockOffset (scanNatPages g st i f nid).2 = (natBlockOffset nid + i) % g.natBlocks ∧
      (i ≠ 0 → (scanNatPages g st i f nid).2 % natEntryPerBlock = 0) ∧
      ∀ k < i, (scanNatPages g st i f nid).1.natBlockBitmap
        ((natBlockOffset nid + k) % g.natBlocks) = true := by
  induction i generalizing f nid with
  | zero =>
      exact ⟨PagesScanned.refl hl hb nid, hnid, (Nat.mod_eq_of_lt (natBlockOffset_lt hnid)).symm,
        by simp, by simp⟩
  | succ i ih =>
      rw [scanNatPages_succ]
      obtain ⟨hmod, hlt, hoff⟩ := nextBlock_spec hnid
      have hfirst : PagesScanned g st f (if f.scanned nid then f else scanNatPage g st f nid) nid ∧
          (if f.scanned nid then f else scanNatPage g st f nid).scanned nid = true := by
        cases hs : f.scanned nid with
        | true => exact ⟨PagesScanned.refl hl hb nid, hs⟩
        | false =>
            have hpage := scanNatPage_scan g st hl hb hs
            exact ⟨hpage.pages, by simp [hpage.scanned]⟩
      obtain ⟨hfirst, hscanned⟩ := hfirst
      obtain ⟨hrest, hlt', hoff', hmod', hall⟩ := ih hfirst.frame.list hfirst.frame.bits hlt
      refine ⟨hfirst.trans hrest hmod, hlt', ?_, fun _ => ?_, fun k hk => ?_⟩
      · rw [hoff', hoff, Nat.mod_add_mod]
        congr 1
        omega
      · by_cases hi : i = 0
        · subst hi
          exact hmod
        · exact hmod' hi
      · cases k with
        | zero =>
            rw [Nat.add_zero, Nat.mod_eq_of_lt (natBlockOffset_lt hnid)]
            exact hrest.frame.scanned nid hscanned
        | succ k =>
            have hk' := hall k (by omega)
            rw [hoff, Nat.mod_add_mod] at hk'
            rwa [show natBlockOffset nid + (k + 1) = natBlockOffset nid + 1 + k by omega]

/-- **What is before the start of the loop in its block never gets a bit.** -/
lemma scanNatPages_before (st : NatState) (i : ℕ) (hl : ListOk f) (hb : BitsOk f)
    (hnid : nid < g.maxNid) (hs : f.scanned nid = false)
    (hoff : natBlockOffset x = natBlockOffset nid) (hx : x < nid) :
    (scanNatPages g st (i + 1) f nid).1.scanned x = true ∧
      (scanNatPages g st (i + 1) f nid).1.bit x = false := by
  have hpage := scanNatPage_scan g st hl hb hs
  obtain ⟨-, hlt, -⟩ := nextBlock_spec hnid
  have hrest := (scanNatPages_scan st i hpage.frame.list hpage.frame.bits hlt).1.frame
  have hscanned : (scanNatPage g st f nid).scanned x = true := by simp [hpage.scanned, hoff]
  rw [scanNatPages_succ, if_neg (by simp [hs])]
  exact ⟨hrest.scanned x hscanned, by rw [hrest.bit x hscanned, hpage.before x hoff hx]⟩

/-! ## The journal -/

lemma Frame.of_sameBits (hl : ListOk f') (hb : BitsOk f) (hs : SameBits f f')
    (havail : f'.availableNids = f.availableNids)
    (hpre : ∀ x, f'.freeNidRoot x = some .preallocNid ↔ f.freeNidRoot x = some .preallocNid) :
    Frame g st f f' where
  list := hl
  bits := hb.same hs
  available := havail
  prealloc := hpre
  scanned := fun x hx => by rw [hs.scanned, hx]
  bit := fun x _ => hs.bit x
  fresh := by
    intro x hx hx'
    rw [hs.bit, hb.bit_unscanned hx] at hx'
    exact absurd hx' Bool.false_ne_true

/-- What the scan of some entries of the journal does. -/
structure JournalScanned (st : NatState) (f f' : FreeNids) (xs : List (ℕ × Recorded)) :
    Prop where
  list : ListOk f'
  bits : SameBits f f'
  available : f'.availableNids = f.availableNids
  next : f'.nextScanNid = f.nextScanNid
  absent : ∀ x, Journal.get xs x = none → f'.freeNidRoot x = f.freeNidRoot x
  null : ∀ x r, Journal.get xs x = some r → r.ni.blkAddr = nullAddr →
    f'.freeNidRoot x = if recognised st f x = true ∧ f.freeNidRoot x = none then some .freeNid
      else f.freeNidRoot x
  used : ∀ x r, Journal.get xs x = some r → r.ni.blkAddr ≠ nullAddr →
    f'.freeNidRoot x = if f.freeNidRoot x = some .freeNid then none else f.freeNidRoot x
  /-- At most one nid is lost for each entry. -/
  cnt : f.nidCnt .freeNid ≤ f'.nidCnt .freeNid + xs.length

lemma scanJournal_scan {xs : List (ℕ × Recorded)} (hnd : (Journal.keys xs).Nodup)
    (hl : ListOk f) : JournalScanned st f (xs.foldl (scanJournalEntry st) f) xs := by
  induction xs generalizing f with
  | nil => exact ⟨hl, SameBits.refl f, rfl, rfl, by simp, by simp, by simp, by simp⟩
  | cons y xs ih =>
      obtain ⟨nid, r⟩ := y
      obtain ⟨hnot, hnd⟩ := List.nodup_cons.mp hnd
      -- one entry
      obtain ⟨hl₁, hbits₁, havail₁, hnext₁, hother, hself, hcnt₁⟩ :
          ListOk (scanJournalEntry st f (nid, r)) ∧ SameBits f (scanJournalEntry st f (nid, r)) ∧
          (scanJournalEntry st f (nid, r)).availableNids = f.availableNids ∧
          (scanJournalEntry st f (nid, r)).nextScanNid = f.nextScanNid ∧
          (∀ x, x ≠ nid → (scanJournalEntry st f (nid, r)).freeNidRoot x = f.freeNidRoot x) ∧
          (scanJournalEntry st f (nid, r)).freeNidRoot nid
            = (if r.ni.blkAddr = nullAddr then
                if recognised st f nid = true ∧ f.freeNidRoot nid = none then some .freeNid
                else f.freeNidRoot nid
              else if f.freeNidRoot nid = some .freeNid then none else f.freeNidRoot nid) ∧
          f.nidCnt .freeNid ≤ (scanJournalEntry st f (nid, r)).nidCnt .freeNid + 1 := by
        unfold scanJournalEntry
        by_cases hr : r.ni.blkAddr = nullAddr
        · simp only [if_pos hr]
          refine ⟨hl.add_build nid false, addFreeNid_build_bits nid,
            addFreeNid_build_available nid false, addFreeNid_build_next nid false, fun x hx => ?_,
            ?_, (addFreeNid_build_cnt_le nid).trans (Nat.le_succ _)⟩
          · rw [addFreeNid_build_root]
            simp [hx]
          · rw [addFreeNid_build_root]
            simp
        · simp only [if_neg hr]
          refine ⟨hl.remove nid, removeFreeNid_bits nid, removeFreeNid_available nid,
            removeFreeNid_next nid, fun x hx => ?_, ?_, le_removeFreeNid_cnt nid⟩
          · rw [removeFreeNid_root]
            simp [hx]
          · rw [removeFreeNid_root]
            simp
      have h := ih hnd hl₁
      have hrec : ∀ x, x ≠ nid →
          recognised st (scanJournalEntry st f (nid, r)) x = recognised st f x :=
        fun x hx => recognised_congr (by rw [hother x hx])
      have hget : ∀ x, x ≠ nid → Journal.get ((nid, r) :: xs) x = Journal.get xs x := by
        intro x hx
        have hx' : ¬ nid = x := Ne.symm hx
        simp [Journal.get, hx']
      have hgets : Journal.get ((nid, r) :: xs) nid = some r := by simp [Journal.get]
      have habsent : (xs.foldl (scanJournalEntry st) (scanJournalEntry st f (nid, r))).freeNidRoot
          nid = (scanJournalEntry st f (nid, r)).freeNidRoot nid :=
        h.absent nid (Journal.get_eq_none_iff.mpr hnot)
      rw [List.foldl_cons]
      refine ⟨h.list, hbits₁.trans h.bits, h.available.trans havail₁, h.next.trans hnext₁,
        fun x hx => ?_, fun x r' hx hnull => ?_, fun x r' hx hused => ?_, ?_⟩
      · have hxn : x ≠ nid := by
          rintro rfl
          rw [hgets] at hx
          exact absurd hx (by simp)
        rw [h.absent x (by rwa [hget x hxn] at hx), hother x hxn]
      · by_cases hxn : x = nid
        · subst hxn
          obtain rfl : r = r' := by simpa [hgets] using hx
          rw [habsent, hself, if_pos hnull]
        · rw [hget x hxn] at hx
          rw [h.null x r' hx hnull, hrec x hxn, hother x hxn]
      · by_cases hxn : x = nid
        · subst hxn
          obtain rfl : r = r' := by simpa [hgets] using hx
          rw [habsent, hself, if_neg hused]
        · rw [hget x hxn] at hx
          rw [h.used x r' hx hused, hother x hxn]
      · have hcnt := h.cnt
        rw [List.length_cons]
        omega

lemma JournalScanned.frame {xs : List (ℕ × Recorded)} (h : JournalScanned st f f' xs)
    (hb : BitsOk f) : Frame g st f f' := by
  refine Frame.of_sameBits h.list hb h.bits h.available fun x => ?_
  cases hx : Journal.get xs x with
  | none => rw [h.absent x hx]
  | some r =>
      by_cases hr : r.ni.blkAddr = nullAddr
      · rw [h.null x r hx hr]
        split_ifs with hc
        · simp [hc.2]
        · exact Iff.rfl
      · rw [h.used x r hx hr]
        split_ifs with hc
        · simp [hc]
        · exact Iff.rfl

/-! ## The bitmaps -/

lemma mem_freeNidBits (hb : BitsOk f) :
    x ∈ freeNidBits g f ↔ x < g.maxNid ∧ f.bit x = true := by
  unfold freeNidBits
  simp only [List.mem_flatMap, List.mem_filter, List.mem_range, List.mem_map, Bool.and_eq_true,
    bne_iff_ne]
  have hpos : 0 < natEntryPerBlock := by decide
  constructor
  · rintro ⟨b, ⟨hlt, -, -⟩, idx, ⟨hidx, hbit⟩, rfl⟩
    have hoff : natBlockOffset (b * natEntryPerBlock + idx) = b := by
      rw [natBlockOffset, Nat.mul_comm, Nat.mul_add_div hpos, Nat.div_eq_of_lt hidx, Nat.add_zero]
    have hmod : (b * natEntryPerBlock + idx) % natEntryPerBlock = idx := by
      rw [Nat.mul_comm, Nat.mul_add_mod, Nat.mod_eq_of_lt hidx]
    refine ⟨?_, by rw [FreeNids.bit, hoff, hmod, hbit]⟩
    calc b * natEntryPerBlock + idx < b * natEntryPerBlock + natEntryPerBlock := by omega
      _ = (b + 1) * natEntryPerBlock := (Nat.succ_mul _ _).symm
      _ ≤ g.natBlocks * natEntryPerBlock := Nat.mul_le_mul_right _ hlt
      _ = g.maxNid := Nat.mul_comm _ _
  · rintro ⟨hlt, hbit⟩
    refine ⟨natBlockOffset x, ⟨natBlockOffset_lt hlt, ?_, ?_⟩, x % natEntryPerBlock,
      ⟨nid_mod_lt x, hbit⟩, ?_⟩
    · by_contra hs
      rw [hb.bit_unscanned (x := x) (by simpa [FreeNids.scanned] using hs)] at hbit
      exact absurd hbit Bool.false_ne_true
    · rw [hb.count, ← Nat.pos_iff_ne_zero, setBits_pos]
      exact ⟨x % natEntryPerBlock, nid_mod_lt x, hbit⟩
    · rw [Nat.mul_comm]
      exact Nat.div_add_mod x natEntryPerBlock

/-- What the loop of `scan_free_nid_bits` does. -/
structure BitsAdded (st : NatState) (f f' : FreeNids) (nids : List ℕ) : Prop where
  list : ListOk f'
  bits : SameBits f f'
  available : f'.availableNids = f.availableNids
  keep : ∀ x s, f.freeNidRoot x = some s → f'.freeNidRoot x = some s
  new : ∀ x, f.freeNidRoot x = none → f'.freeNidRoot x = none ∨
    f'.freeNidRoot x = some .freeNid ∧ x ∈ nids ∧ recognised st f x = true
  all : maxFreeNids ≤ f'.nidCnt .freeNid ∨ ∀ x ∈ nids, recognised st f x = true →
    f'.freeNidRoot x = some .freeNid

lemma addFreeNids_scan {nids : List ℕ} (hl : ListOk f) :
    BitsAdded st f (addFreeNids st f nids) nids := by
  induction nids generalizing f with
  | nil => exact ⟨hl, SameBits.refl f, rfl, fun _ _ h => h, fun _ h => Or.inl h, Or.inr (by simp)⟩
  | cons nid nids ih =>
      have hroot : ∀ x, (addFreeNid st f nid true false).2.freeNidRoot x = _ :=
        fun x => addFreeNid_build_root nid x false
      have hkeep : ∀ x s, f.freeNidRoot x = some s →
          (addFreeNid st f nid true false).2.freeNidRoot x = some s := by
        intro x s hx
        rw [hroot]
        split_ifs with hc
        · rw [hc.1, hc.2.2] at hx
          exact absurd hx (by simp)
        · exact hx
      have hnew : ∀ x, f.freeNidRoot x = none →
          (addFreeNid st f nid true false).2.freeNidRoot x = none ∨
          (addFreeNid st f nid true false).2.freeNidRoot x = some .freeNid ∧ x ∈ nid :: nids ∧
            recognised st f x = true := by
        intro x hx
        rw [hroot]
        split_ifs with hc
        · obtain ⟨rfl, hrec, -⟩ := hc
          exact Or.inr ⟨rfl, by simp, hrec⟩
        · exact Or.inl hx
      have hself : recognised st f nid = true →
          (addFreeNid st f nid true false).2.freeNidRoot nid = some .freeNid := by
        intro hrec
        rw [hroot]
        obtain ⟨-, -, hpre⟩ := recognised_root hrec
        cases hr : f.freeNidRoot nid with
        | none => simp [hrec]
        | some s =>
            cases s with
            | freeNid => simp
            | preallocNid => exact absurd hr hpre
      have hrec : ∀ x, recognised st (addFreeNid st f nid true false).2 x = recognised st f x := by
        refine fun x => recognised_congr ?_
        rw [hroot]
        split_ifs with hc
        · obtain ⟨rfl, -, hnone⟩ := hc
          simp [hnone]
        · exact Iff.rfl
      rw [addFreeNids]
      split_ifs with henough
      · exact ⟨hl.add_build nid false, addFreeNid_build_bits nid,
          addFreeNid_build_available nid false, hkeep, hnew, Or.inl henough⟩
      · have hl₁ : ListOk (addFreeNid st f nid true false).2 := hl.add_build nid false
        have h := ih hl₁
        refine ⟨h.list, (addFreeNid_build_bits nid).trans h.bits,
          h.available.trans (addFreeNid_build_available nid false),
          fun x s hx => h.keep x s (hkeep x s hx), fun x hx => ?_, ?_⟩
        · rcases hnew x hx with hnone | ⟨hfree, hmem, hx'⟩
          · rcases h.new x hnone with hnone' | ⟨hfree, hmem, hx'⟩
            · exact Or.inl hnone'
            · rw [hrec] at hx'
              exact Or.inr ⟨hfree, List.mem_cons_of_mem _ hmem, hx'⟩
          · exact Or.inr ⟨h.keep x _ hfree, hmem, hx'⟩
        · refine h.all.imp id fun hall x hx hx' => ?_
          rcases List.mem_cons.mp hx with rfl | hmem
          · exact h.keep x _ (hself hx')
          · exact hall x hmem (by rwa [hrec])

lemma BitsAdded.frame {nids : List ℕ} (h : BitsAdded st f f' nids) (hb : BitsOk f) :
    Frame g st f f' := by
  refine Frame.of_sameBits h.list hb h.bits h.available fun x => ?_
  cases hx : f.freeNidRoot x with
  | none => rcases h.new x hx with hx' | ⟨hx', -, -⟩ <;> simp [hx']
  | some s => rw [h.keep x s hx]

end Hoit.FreeNid
