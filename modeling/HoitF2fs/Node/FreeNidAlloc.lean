import HoitF2fs.Node.FreeNidInv

/-!
# The loop of `f2fs_alloc_nid`

The loop ends when a nid is found or `available_nids` is 0.

* `alloc_finds` — **it ends if there is a free nid that is known.**  If its NAT block was scanned,
  the next scan finds it.  If not, each scan brings `next_scan_nid` eight blocks nearer to it.
* `alloc_never` — **it does not end if there is none**, while `available_nids` says that there is:
  no scan finds anything, or changes anything that a later scan could find.
-/

namespace Hoit.FreeNid

variable {g : NatGeometry} {K : ℕ → Prop} {st : NatState} {f f' : FreeNids} {nid x : ℕ}

/-! ## What a scan finds -/

lemma Findable.frame (h : Findable g st f x) (hf : Frame g st f f') : Findable g st f' x :=
  ⟨h.free, mt (hf.prealloc x).mp h.unclaimed⟩

lemma Findable.frame_iff (hf : Frame g st f f') : Findable g st f' x ↔ Findable g st f x :=
  ⟨fun h => ⟨h.free, mt (hf.prealloc x).mpr h.unclaimed⟩, fun h => h.frame hf⟩

/-- In a block that was scanned, a known nid has a bit or is in the journal. -/
lemma Findable.source (h : Findable g st f x) (hok : NatOk g st) (hk : Known g st f x)
    (hs : f.scanned x = true) : f.bit x = true ∨ JournalNull st x := by
  rcases hk h.free.null h.free.reserved h.free.lt h.unclaimed hs with hbit | hj | hin
  · exact Or.inl hbit
  · exact Or.inr hj
  · have hd := h.free.dirty_false hok
    unfold NatState.inSet at hin
    unfold NatState.dirty at hd
    cases hc : st.cache x with
    | none => simp [hc] at hin
    | some e =>
        simp only [hc, Option.any_some, NatEntry.inSet, Bool.and_eq_true] at hin hd
        rw [hd] at hin
        exact absurd hin.1 Bool.false_ne_true

/-- The count is not 0 as soon as something truly free is on the list. -/
lemma Stage.cnt_ne_zero (h : Stage g st f f') (hs : Sound g st f) (hl : ListOk f)
    (hne : f.nidCnt .freeNid ≠ 0) : f'.nidCnt .freeNid ≠ 0 := by
  obtain ⟨y, hy⟩ := hl.cnt_ne_zero.mp hne
  exact h.frame.list.cnt_ne_zero.mpr ⟨y, h.keep y (hs y hy) hy⟩

/-- **The bitmaps and the journal have every known nid of the blocks that were scanned.** -/
lemma scanFreeNidBits_finds (hok : NatNidOk g st) (hp : PoolOk g K st f) (hs : Sound g st f)
    (hx : Findable g st f x) (hk : Known g st f x) (hscan : f.scanned x = true) :
    (scanFreeNidBits g st f).nidCnt .freeNid ≠ 0 := by
  have hadd : BitsAdded st f (addFreeNids st f (freeNidBits g f)) (freeNidBits g f) :=
    addFreeNids_scan hp.list
  have hjournal : JournalScanned st _ (scanFreeNidBits g st f) st.journal :=
    scanJournal_scan hok.journal_nodup hadd.list
  have hlist := (scanFreeNidBits_rebuilt hok hp hs).stage.frame.list
  have hrec : recognised st f x = true := hx.free.recognised hok hx.unclaimed
  have hkeep : (addFreeNids st f (freeNidBits g f)).freeNidRoot x = some .freeNid →
      (scanFreeNidBits g st f).nidCnt .freeNid ≠ 0 := fun hfree =>
    hlist.cnt_ne_zero.mpr
      ⟨x, hjournal.free_iff.mpr (Or.inl ⟨hfree, hx.free.not_journalUsed hok.nat⟩)⟩
  rcases hx.source hok.nat hk hscan with hbit | hnull
  · rcases hadd.all with henough | hall
    · -- The journal takes fewer nids off the list than there are.
      have hcnt := hjournal.cnt
      have hlen := hok.nat.inv.device.length_le
      simp only [maxFreeNids, natEntryPerBlock, freeNidPages, natJournalEntries] at henough hlen
      omega
    · exact hkeep (hall x ((mem_freeNidBits hp.bits).mpr ⟨hx.free.lt, hbit⟩) hrec)
  · have hframe := hadd.frame (g := g) hp.bits
    have hx' := hx.frame hframe
    cases hr : (addFreeNids st f (freeNidBits g f)).freeNidRoot x with
    | none =>
        exact hlist.cnt_ne_zero.mpr ⟨x, hjournal.free_iff.mpr
          (Or.inr ⟨hnull, by rw [hframe.recognised, hrec], hr⟩)⟩
    | some s =>
        cases s with
        | freeNid => exact hkeep hr
        | preallocNid => exact absurd hr hx'.unclaimed

/-- **A scan that is needed**: something is found, or eight more NAT blocks were scanned. -/
lemma buildFreeNids_finds (hok : NatNidOk g st) (hp : PoolOk g K st f) (hs : Sound g st f)
    (hzero : f.nidCnt .freeNid = 0) :
    (buildFreeNids g st f true false true).nidCnt .freeNid ≠ 0 ∨
      (∀ y, Findable g st f y → Known g st f y → f.scanned y = false) ∧
      natBlockOffset (buildFreeNids g st f true false true).nextScanNid
        = (natBlockOffset f.nextScanNid + freeNidPages) % g.natBlocks ∧
      ∀ k < freeNidPages, (buildFreeNids g st f true false true).natBlockBitmap
        ((natBlockOffset f.nextScanNid + k) % g.natBlocks) = true := by
  have hbits := scanFreeNidBits_rebuilt hok hp hs
  have hpos : ¬ (natEntryPerBlock ≤ f.nidCnt .freeNid ∨ (!true && !true) = true) := by
    rw [hzero]
    simp [natEntryPerBlock]
  rw [buildFreeNids_eq, if_neg hpos, if_neg (not_le.mpr hp.next)]
  simp only [Bool.false_eq_true, if_false]
  split_ifs with henough
  · refine Or.inl fun h => ?_
    rw [h] at henough
    simp [natEntryPerBlock] at henough
  · have hp₁ := hp.rebuilt hbits
    obtain ⟨hstage, -, -, -, -, hoff, hall⟩ := scanBlocks_scan hok hp₁.list hp₁.bits hp₁.next
      (Sound.candidates hbits.sound) fun y _ => Or.inr (not_skipped hp₁.aligned y)
    rw [scanFreeNidBits_next hok hp.list] at hstage hoff hall
    by_cases hne : (scanFreeNidBits g st f).nidCnt .freeNid = 0
    · refine Or.inr ⟨fun y hy hk => ?_, hoff, hall⟩
      by_contra hscan
      exact scanFreeNidBits_finds hok hp hs hy hk (by simpa using hscan) hne
    · exact Or.inl (hstage.cnt_ne_zero hbits.sound hp₁.list hne)

/-! ## When the loop ends -/

/-- How many blocks `next_scan_nid` is away from the block of a nid. -/
def blocksAway (g : NatGeometry) (f : FreeNids) (x : ℕ) : ℕ :=
  (natBlockOffset x + (g.natBlocks - natBlockOffset f.nextScanNid)) % g.natBlocks

lemma add_blocksAway (hx : x < g.maxNid) (hf : f.nextScanNid < g.maxNid) :
    (natBlockOffset f.nextScanNid + blocksAway g f x) % g.natBlocks = natBlockOffset x := by
  have hx' := natBlockOffset_lt hx
  have hf' := natBlockOffset_lt hf
  rw [blocksAway, Nat.add_mod_mod]
  have hsum : natBlockOffset f.nextScanNid
      + (natBlockOffset x + (g.natBlocks - natBlockOffset f.nextScanNid))
      = natBlockOffset x + g.natBlocks := by omega
  rw [hsum, Nat.add_mod_right, Nat.mod_eq_of_lt hx']

lemma blocksAway_next (hf : f.nextScanNid < g.maxNid)
    (hnext : natBlockOffset f'.nextScanNid
      = (natBlockOffset f.nextScanNid + freeNidPages) % g.natBlocks)
    (haway : freeNidPages ≤ blocksAway g f x) :
    blocksAway g f' x + freeNidPages = blocksAway g f x := by
  have hf' := natBlockOffset_lt hf
  have hlt : blocksAway g f x < g.natBlocks := Nat.mod_lt _ (by omega)
  unfold blocksAway at *
  rw [hnext]
  generalize natBlockOffset f.nextScanNid = p at *
  generalize natBlockOffset x = q at *
  generalize g.natBlocks = n at *
  generalize freeNidPages = k at *
  -- `a` is how far it is before, and `p + k` may be past the last block
  have hn : 0 < n := by omega
  have hmod := Nat.mod_lt (q + (n - p)) hn
  have hdiv := Nat.div_add_mod (q + (n - p)) n
  have hpk := Nat.div_add_mod (p + k) n
  have hpkm := Nat.mod_lt (p + k) hn
  generalize (q + (n - p)) % n = a at *
  generalize (p + k) % n = p' at *
  have heq : q + (n - p') = (a - k) + n * ((q + (n - p)) / n + (p + k) / n) := by
    rw [Nat.mul_add]
    generalize n * ((q + (n - p)) / n) = u at *
    generalize n * ((p + k) / n) = v at *
    omega
  rw [heq, Nat.add_mul_mod_self_left, Nat.mod_eq_of_lt (by omega)]
  omega

lemma alloc_succ (rounds : ℕ) (ha : f.availableNids ≠ 0) (hzero : f.nidCnt .freeNid = 0) :
    f2fsAllocNid g st (rounds + 1) f
      = f2fsAllocNid g st rounds (buildFreeNids g st f true false true) := by
  rw [f2fsAllocNid, if_neg ha, if_neg (by simpa using hzero)]

/-- With something on the list, the loop ends at once. -/
lemma alloc_of_cnt (g : NatGeometry) (st : NatState) (ha : f.availableNids ≠ 0)
    (hne : f.nidCnt .freeNid ≠ 0) :
    ∃ nid f', f2fsAllocNid g st 1 f = some (some nid, f') := by
  rw [f2fsAllocNid, if_neg ha, if_pos hne]
  exact ⟨_, _, rfl⟩

/-- **The loop ends with a nid** if there is a free one that is known. -/
lemma alloc_finds (hok : NatNidOk g st) (hp : PoolOk g K st f) (hs : Sound g st f)
    (ha : f.availableNids ≠ 0) (hx : Findable g st f x) (hk : Known g st f x) :
    ∃ rounds nid f', f2fsAllocNid g st rounds f = some (some nid, f') := by
  induction hd : blocksAway g f x using Nat.strong_induction_on generalizing f with
  | _ d ih =>
      by_cases hne : f.nidCnt .freeNid ≠ 0
      · obtain ⟨nid, f', h⟩ := alloc_of_cnt g st ha hne
        exact ⟨1, nid, f', h⟩
      have hzero : f.nidCnt .freeNid = 0 := not_not.mp hne
      have hb := buildFreeNids_rebuilt hok hp hs true true
      have hp' := hp.rebuilt hb
      have ha' : (buildFreeNids g st f true false true).availableNids ≠ 0 := by
        rwa [hb.stage.frame.available]
      -- One more round, and what the scan has left.
      suffices hmore : ∃ rounds nid f',
          f2fsAllocNid g st rounds (buildFreeNids g st f true false true) = some (some nid, f') by
        obtain ⟨rounds, nid, f', h⟩ := hmore
        exact ⟨rounds + 1, nid, f', by rw [alloc_succ rounds ha hzero, h]⟩
      by_cases hne' : (buildFreeNids g st f true false true).nidCnt .freeNid ≠ 0
      · obtain ⟨nid, f', h⟩ := alloc_of_cnt g st ha' hne'
        exact ⟨1, nid, f', h⟩
      have hzero' := not_not.mp hne'
      obtain ⟨-, hoff, hall⟩ := (buildFreeNids_finds hok hp hs hzero).resolve_left hne'
      by_cases haway : blocksAway g f x < freeNidPages
      · -- The block of the nid was scanned, so that the next scan finds it.
        have hscan : (buildFreeNids g st f true false true).scanned x = true := by
          have hblock := hall _ haway
          rwa [add_blocksAway hx.free.lt hp.next] at hblock
        have hb' := buildFreeNids_rebuilt hok hp' hb.sound true true
        rcases buildFreeNids_finds hok hp' hb.sound hzero' with hfound | ⟨hun, -, -⟩
        · obtain ⟨nid, f', h⟩ := alloc_of_cnt g st
            (by rwa [hb'.stage.frame.available]) hfound
          exact ⟨2, nid, f', by rw [alloc_succ 1 ha' hzero', h]⟩
        · have hfalse := hun x (hx.frame hb.stage.frame) (hb.known x hk)
          rw [hscan] at hfalse
          exact absurd hfalse (by simp)
      · have hless := blocksAway_next hp.next hoff (not_lt.mp haway)
        have hpages : 0 < freeNidPages := by decide
        exact ih _ (by omega) hp' hb.sound ha' (hx.frame hb.stage.frame) (hb.known x hk) rfl

/-- **The loop goes on for ever** if no free nid is known, and `available_nids` is not 0. -/
lemma alloc_never (hok : NatNidOk g st) (hp : PoolOk g K st f) (hs : Sound g st f)
    (ha : f.availableNids ≠ 0) (hx : ∀ x, Findable g st f x → ¬ Known g st f x) (rounds : ℕ) :
    f2fsAllocNid g st rounds f = none := by
  induction rounds generalizing f with
  | zero => rfl
  | succ rounds ih =>
      have hzero : f.nidCnt .freeNid = 0 := by
        by_contra hne
        obtain ⟨y, hy⟩ := hp.list.cnt_ne_zero.mp hne
        exact hx y ⟨hs y hy, by simp [hy]⟩ (hp.known y (Or.inl hy))
      have hb := buildFreeNids_rebuilt hok hp hs true true
      rw [alloc_succ rounds ha hzero]
      refine ih (hp.rebuilt hb) hb.sound (by rwa [hb.stage.frame.available]) fun y hy hk => ?_
      have hy' := (Findable.frame_iff hb.stage.frame).mp hy
      refine hx y hy' ?_
      intro hnull hle hlt hpre hscan
      rw [← hb.stage.frame.bit y hscan]
      exact hk hnull hle hlt hy.unclaimed (hb.stage.frame.scanned y hscan)

/-- A result does not depend on how many rounds are allowed. -/
lemma alloc_more {r : Option ℕ × FreeNids} {rounds : ℕ} (h : f2fsAllocNid g st rounds f = some r)
    (more : ℕ) : f2fsAllocNid g st (rounds + more) f = some r := by
  induction rounds generalizing f with
  | zero => exact absurd h (by simp [f2fsAllocNid])
  | succ rounds ih =>
      rw [Nat.add_right_comm, f2fsAllocNid]
      rw [f2fsAllocNid] at h
      split_ifs at h ⊢
      · exact h
      · exact h
      · exact ih h

end Hoit.FreeNid
