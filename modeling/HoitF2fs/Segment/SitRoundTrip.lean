import HoitF2fs.Segment.SitFlush
import HoitF2fs.Segment.SitRuns

/-!
# The segment information table on the device

What `f2fs_flush_sit_entries` has written, `build_sit_entries` reads back.

As with the NAT, a set must not go to its block while the journal still has an entry of that block:
the older entry would override the newer one.  `FlushLoop` is the invariant of the loop over the sets
that rules this out: **either there is room in the journal for all the sets that are left, or no
entry of the journal belongs to one of them.**

* `Flushable` — the states that a mount and the calls leave behind: what is not dirty in memory is on
  the device already.
* `FlushLoop.step`, `FlushLoop.run` — one set, and all of them.
* `Flushable.flush` — after the flush everything is on the device, and no check has fired.
* `buildSitEntries_spec` — a mount reads what is on the device.
-/

namespace Hoit.Segment

open Bitmap

variable {g : SegGeometry} {o : Options} {cpc : CpControl} {s s' : SitInfo} {segno : ℕ}

/-! ## The two copies of a block -/

lemma sitCopyAddr_separate (g : SegGeometry) : Shadow.Separate (sitCopyAddr g) g.sitBlocks := by
  intro v w p q hp hq heq
  unfold sitCopyAddr at heq
  cases v <;> cases w <;> simp only [Bool.false_eq_true, if_false, if_true] at heq
  · exact ⟨rfl, by omega⟩
  · omega
  · omega
  · exact ⟨rfl, by omega⟩

lemma sitBlockOffset_lt (h : segno < g.segmentCountMain) : sitBlockOffset segno < g.sitBlocks := by
  have hfits := g.fits
  unfold sitBlockOffset sitEntryPerBlock
  omega

lemma currentSitAddr_eq (s : SitInfo) (segno : ℕ) : currentSitAddr g s segno
    = sitCopyAddr g (s.sit.ver (sitBlockOffset segno)) (sitBlockOffset segno) := by
  simp only [currentSitAddr, sitCopyAddr]
  split_ifs <;> rfl

lemma nextSitAddr_eq {v : Bool} {b : ℕ} (h : b < g.sitBlocks) :
    nextSitAddr g (sitCopyAddr g v b) = sitCopyAddr g (!v) b := by
  simp only [nextSitAddr, sitCopyAddr]
  cases v
  · have hlt : g.sitBaseAddr + b + 0 - g.sitBaseAddr < g.sitBlocks := by omega
    simp only [Bool.false_eq_true, if_false, Bool.not_false, if_true, if_pos hlt]
    omega
  · have hlt : ¬ g.sitBaseAddr + b + g.sitBlocks - g.sitBaseAddr < g.sitBlocks := by omega
    simp only [if_true, Bool.not_true, Bool.false_eq_true, if_false, if_neg hlt]
    omega

lemma sitBlockEntry_eq (s : SitInfo) (x : ℕ) : sitBlockEntry g s x
    = Shadow.readCurrent (sitCopyAddr g) s.sit (sitBlockOffset x) (x % sitEntryPerBlock) := by
  rw [sitBlockEntry, currentSitAddr_eq]
  rfl

lemma segno_eq_iff (x y : ℕ) : x = y ↔ sitBlockOffset x = sitBlockOffset y ∧
    x % sitEntryPerBlock = y % sitEntryPerBlock := by
  unfold sitBlockOffset sitEntryPerBlock
  omega

/-- A new copy of a block has the entries as they are in memory. -/
lemma sitBlockEntry_getNextSitPage {x : ℕ} (hstart : startSegno segno = segno)
    (hseg : segno < g.segmentCountMain) (hx : x < g.segmentCountMain) :
    sitBlockEntry g (getNextSitPage g s segno) x
      = if startSegno x = segno then segInfoToRawSit (s.sentries x) else sitBlockEntry g s x := by
  have hsit : (getNextSitPage g s segno).sit
      = Shadow.writeNext (sitCopyAddr g) s.sit (sitBlockOffset segno)
          (segInfoToSitPage g s segno) := by
    simp only [getNextSitPage, Shadow.writeNext, currentSitAddr_eq,
      nextSitAddr_eq (sitBlockOffset_lt hseg)]
  have hblock : sitBlockOffset x = sitBlockOffset segno ↔ startSegno x = segno := by
    rw [sitBlockOffset_eq_iff, hstart]
  rw [sitBlockEntry_eq, sitBlockEntry_eq, hsit, Shadow.writeNext_read (sitCopyAddr_separate g)
    (sitBlockOffset_lt hseg) (sitBlockOffset_lt hx)]
  by_cases hb : startSegno x = segno
  · have hidx : segno + x % sitEntryPerBlock = x := by
      rw [← hb]
      unfold startSegno sitBlockOffset sitEntryPerBlock
      omega
    have hin : x < min (segno + sitEntryPerBlock) g.segmentCountMain := by
      have := (startSegno_iff hstart x).mp hb
      omega
    rw [if_pos (hblock.mpr hb), if_pos hb, segInfoToSitPage, hidx, if_pos hin]
  · rw [if_neg fun h => hb (hblock.mp h), if_neg hb]

/-- One entry of a block is changed. -/
lemma sitBlockEntry_writeToSitBlock {x : ℕ} (rs : RawSit) (hseg : segno < g.segmentCountMain)
    (hx : x < g.segmentCountMain) :
    sitBlockEntry g (writeToSitBlock g s segno rs) x
      = if x = segno then rs else sitBlockEntry g s x := by
  have hsit : (writeToSitBlock g s segno rs).sit
      = Shadow.writeCurrent (sitCopyAddr g) s.sit (sitBlockOffset segno)
          (Function.update (Shadow.readCurrent (sitCopyAddr g) s.sit (sitBlockOffset segno))
            (segno % sitEntryPerBlock) rs) := by
    simp only [writeToSitBlock, Shadow.writeCurrent, currentSitAddr_eq]
    rfl
  rw [sitBlockEntry_eq, sitBlockEntry_eq, hsit, Shadow.writeCurrent_read (sitCopyAddr_separate g)
    (sitBlockOffset_lt hseg) (sitBlockOffset_lt hx)]
  by_cases hb : sitBlockOffset x = sitBlockOffset segno
  · rw [if_pos hb]
    by_cases hi : x % sitEntryPerBlock = segno % sitEntryPerBlock
    · rw [if_pos ((segno_eq_iff x segno).mpr ⟨hb, hi⟩), hi, Function.update_self]
    · rw [if_neg fun h => hi ((segno_eq_iff x segno).mp h).2, Function.update_of_ne hi, hb]
  · rw [if_neg hb, if_neg fun h => hb ((segno_eq_iff x segno).mp h).1]

/-! ## Entries on the device -/

lemma CursegType.code_lt (t : CursegType) : t.code < 6 := by
  cases t <;> decide

lemma CursegType.ofCode_code (t : CursegType) : CursegType.ofCode t.code = some t := by
  cases t <;> rfl

lemma segInfoToRawSit_vblocks {se : SegEntry} (h : se.validBlocks < 1024) :
    (segInfoToRawSit se).vblocks.toNat = se.type.code * 1024 + se.validBlocks := by
  have hcode := se.type.code_lt
  have hor : se.type.code <<< 10 ||| se.validBlocks = se.type.code * 1024 + se.validBlocks := by
    rw [← Nat.shiftLeft_add_eq_or_of_lt (i := 10) h, Nat.shiftLeft_eq]
  simp only [segInfoToRawSit, hor, BitVec.toNat_ofNat]
  omega

lemma segInfoToRawSit_validBlocks {se : SegEntry} (h : se.validBlocks < 1024) :
    (segInfoToRawSit se).validBlocks = se.validBlocks := by
  have hmask : (0x3ff#16).toNat = 2 ^ 10 - 1 := rfl
  rw [RawSit.validBlocks, BitVec.toNat_and, segInfoToRawSit_vblocks h, hmask,
    Nat.and_two_pow_sub_one_eq_mod]
  omega

lemma segInfoToRawSit_type {se : SegEntry} (h : se.validBlocks < 1024) :
    (segInfoToRawSit se).type = se.type.code := by
  have hcode := se.type.code_lt
  have hmask : (~~~0x3ff#16).toNat >>> 10 = 2 ^ 6 - 1 := rfl
  rw [RawSit.type, BitVec.toNat_ushiftRight, BitVec.toNat_and, segInfoToRawSit_vblocks h,
    Nat.shiftRight_and_distrib, Nat.shiftRight_eq_div_pow, hmask, Nat.and_two_pow_sub_one_eq_mod]
  omega

/-- An entry that a mount accepts. -/
def RawSit.Readable (rs : RawSit) : Prop :=
  rs.validBlocks ≤ blocksPerSeg ∧ (CursegType.ofCode rs.type).isSome = true

lemma segInfoToRawSit_readable {se : SegEntry} (h : se.validBlocks ≤ blocksPerSeg) :
    (segInfoToRawSit se).Readable := by
  have hlt : se.validBlocks < 1024 := lt_of_le_of_lt h (by decide)
  refine ⟨?_, ?_⟩
  · rw [segInfoToRawSit_validBlocks hlt]
    exact h
  · rw [segInfoToRawSit_type hlt, CursegType.ofCode_code]
    rfl

/-- Two entries with the same data; the checkpoint is not part of it. -/
structure SegEntry.SameData (se se' : SegEntry) : Prop where
  type : se'.type = se.type
  validBlocks : se'.validBlocks = se.validBlocks
  curValidMap : se'.curValidMap = se.curValidMap
  mtime : se'.mtime = se.mtime

lemma SegEntry.SameData.refl (se : SegEntry) : se.SameData se := ⟨rfl, rfl, rfl, rfl⟩

lemma SegEntry.SameData.trans {se se' se'' : SegEntry} (h : se.SameData se')
    (h' : se'.SameData se'') : se.SameData se'' where
  type := h'.type.trans h.type
  validBlocks := h'.validBlocks.trans h.validBlocks
  curValidMap := h'.curValidMap.trans h.curValidMap
  mtime := h'.mtime.trans h.mtime

lemma SegEntry.SameData.raw {se se' : SegEntry} (h : se.SameData se') :
    segInfoToRawSit se' = segInfoToRawSit se := by
  rw [segInfoToRawSit, segInfoToRawSit, h.type, h.validBlocks, h.curValidMap, h.mtime]

lemma EntryFlushed.sameData (h : EntryFlushed s s' segno) (z : ℕ) :
    (s.sentries z).SameData (s'.sentries z) := by
  rw [h.sentries]
  by_cases hz : z = segno
  · subst hz
    rw [Function.update_self]
    exact ⟨rfl, rfl, rfl, rfl⟩
  · rw [Function.update_of_ne hz]
    exact SegEntry.SameData.refl _

/-- Everything a mount reads is accepted. -/
structure DeviceReadable (g : SegGeometry) (s : SitInfo) : Prop where
  blocks : ∀ z < g.segmentCountMain, (sitBlockEntry g s z).Readable
  journal : ∀ e ∈ s.journal, e.2.Readable

/-- The entries `xs` have been written, and nothing else has changed on the device. -/
structure Stored (g : SegGeometry) (s s' : SitInfo) (xs : List ℕ) : Prop where
  sentries : ∀ z, (s.sentries z).SameData (s'.sentries z)
  persistent : ∀ z < g.segmentCountMain, persistentSit g s' z
    = if z ∈ xs then segInfoToRawSit (s.sentries z) else persistentSit g s z
  nodup : (Journal.keys s.journal).Nodup → (Journal.keys s'.journal).Nodup
  keys : ∀ z ∈ Journal.keys s'.journal, z ∈ Journal.keys s.journal ∨ z ∈ xs
  length_le : s'.journal.length ≤ s.journal.length + xs.length
  bugOn : s'.bugOn = s.bugOn
  readable : (∀ z < g.segmentCountMain, (s.sentries z).validBlocks ≤ blocksPerSeg) →
    DeviceReadable g s → DeviceReadable g s'

/-- There is a place for the entries `xs`: room in the journal, or blocks of the table that the
journal does not override. -/
def FlushRoom (toJournal : Bool) (s : SitInfo) (xs : List ℕ) : Prop :=
  if toJournal then s.journal.length + xs.length ≤ sitJournalEntries
  else ∀ x ∈ xs, x ∉ Journal.keys s.journal

/-- Candidates for discards do not touch the device. -/
lemma addDiscardAddrs_device (cpc : CpControl) (s : SitInfo) (segno : ℕ) :
    (addDiscardAddrs g o cpc s segno).journal = s.journal ∧
      (addDiscardAddrs g o cpc s segno).sit = s.sit ∧
      (addDiscardAddrs g o cpc s segno).bugOn = s.bugOn := by
  simp only [addDiscardAddrs]
  split_ifs <;> exact ⟨rfl, rfl, rfl⟩

/-- What the flush of one entry does to the device. -/
lemma flushSitEntry_device (cpc : CpControl) (toJournal : Bool) (s : SitInfo) (segno : ℕ) :
    ∃ s₁ : SitInfo, s₁.journal = s.journal ∧ s₁.sit = s.sit ∧ s₁.bugOn = s.bugOn ∧
      ∃ s₂ : SitInfo, s₂ = (if toJournal then
          writeToSitJournal s₁ segno (segInfoToRawSit (s.sentries segno))
          else writeToSitBlock g s₁ segno (segInfoToRawSit (s.sentries segno))) ∧
        (flushSitEntry g o cpc toJournal s segno).journal = s₂.journal ∧
        (flushSitEntry g o cpc toJournal s segno).sit = s₂.sit ∧
        (flushSitEntry g o cpc toJournal s segno).bugOn = s₂.bugOn := by
  refine ⟨if cpc.force then s else addDiscardAddrs g o cpc s segno, ?_, ?_, ?_, _, rfl, rfl, rfl,
    rfl⟩
  · split_ifs
    · rfl
    · exact (addDiscardAddrs_device cpc s segno).1
  · split_ifs
    · rfl
    · exact (addDiscardAddrs_device cpc s segno).2.1
  · split_ifs
    · rfl
    · exact (addDiscardAddrs_device cpc s segno).2.2

lemma persistentSit_congr (hj : s'.journal = s.journal) (hs : s'.sit = s.sit) (z : ℕ) :
    persistentSit g s' z = persistentSit g s z ∧ sitBlockEntry g s' z = sitBlockEntry g s z := by
  have hblock : sitBlockEntry g s' z = sitBlockEntry g s z := by
    rw [sitBlockEntry_eq, sitBlockEntry_eq, hs]
  exact ⟨by rw [persistentSit, persistentSit, hj, hblock], hblock⟩

/-- **An entry goes to the journal**, where there is room for it. -/
lemma stored_journal (cpc : CpControl) (hlt : segno < g.segmentCountMain)
    (hroom : s.journal.length < sitJournalEntries) :
    Stored g s (flushSitEntry g o cpc true s segno) [segno] := by
  obtain ⟨s₁, hj₁, hs₁, hb₁, s₂, rfl, hj, hs, hb⟩ :=
    flushSitEntry_device (g := g) (o := o) cpc true s segno
  have hmax : segno ∈ Journal.keys s₁.journal ∨ 1 ≤ maxSitJentries s₁ := by
    right
    rw [maxSitJentries, hj₁]
    omega
  rw [if_pos rfl, writeToSitJournal, if_pos hmax] at hj hs hb
  simp only [hj₁, hs₁, hb₁] at hj hs hb
  have hblock : ∀ z, sitBlockEntry g (flushSitEntry g o cpc true s segno) z
      = sitBlockEntry g s z := by
    intro z
    rw [sitBlockEntry_eq, sitBlockEntry_eq, hs]
  refine ⟨(flushSitEntry_flushed cpc true s segno).sameData, fun z hz => ?_, fun hnd => ?_,
    fun z hz => ?_, ?_, hb, fun hbound hread => ⟨fun z hz => ?_, fun e he => ?_⟩⟩
  · rw [persistentSit, persistentSit, hj, hblock]
    simp only [List.mem_singleton]
    split_ifs with hzs
    · rw [hzs, Journal.get_put_self]
      rfl
    · rw [Journal.get_put_of_ne hzs]
  · rw [hj]
    exact Journal.nodup_put hnd
  · rw [hj] at hz
    rcases Journal.mem_keys_put.mp hz with rfl | hz
    · exact Or.inr (List.mem_singleton_self _)
    · exact Or.inl hz
  · rw [hj]
    exact Journal.length_put_le
  · rw [hblock]
    exact hread.blocks z hz
  · obtain ⟨k, v⟩ := e
    rw [hj] at he
    rcases Journal.mem_put he with ⟨rfl, rfl⟩ | he
    · exact segInfoToRawSit_readable (hbound k hlt)
    · exact hread.journal (k, v) he

/-- **An entry goes to its block**, which the journal must not override. -/
lemma stored_block (cpc : CpControl) (hlt : segno < g.segmentCountMain)
    (hkey : segno ∉ Journal.keys s.journal) :
    Stored g s (flushSitEntry g o cpc false s segno) [segno] := by
  obtain ⟨s₁, hj₁, hs₁, hb₁, s₂, rfl, hj, hs, hb⟩ :=
    flushSitEntry_device (g := g) (o := o) cpc false s segno
  simp only [Bool.false_eq_true, if_false] at hj hs hb
  have hj' : (flushSitEntry g o cpc false s segno).journal = s.journal := hj.trans hj₁
  have hblock : ∀ z < g.segmentCountMain,
      sitBlockEntry g (flushSitEntry g o cpc false s segno) z
        = if z = segno then segInfoToRawSit (s.sentries segno) else sitBlockEntry g s z := by
    intro z hz
    rw [sitBlockEntry_eq, hs, ← sitBlockEntry_eq, sitBlockEntry_writeToSitBlock _ hlt hz,
      (persistentSit_congr hj₁ hs₁ z).2]
  refine ⟨(flushSitEntry_flushed cpc false s segno).sameData, fun z hz => ?_, fun hnd => ?_,
    fun z hz => ?_, ?_, hb.trans hb₁, fun hbound hread => ⟨fun z hz => ?_, fun e he => ?_⟩⟩
  · rw [persistentSit, persistentSit, hj', hblock z hz]
    simp only [List.mem_singleton]
    split_ifs with hzs
    · rw [hzs, Journal.get_eq_none_iff.mpr hkey]
      rfl
    · rfl
  · rw [hj']
    exact hnd
  · rw [hj'] at hz
    exact Or.inl hz
  · rw [hj']
    exact Nat.le_add_right _ _
  · rw [hblock z hz]
    split_ifs with hzs
    · exact segInfoToRawSit_readable (hbound segno hlt)
    · exact hread.blocks z hz
  · rw [hj'] at he
    exact hread.journal e he

lemma Stored.trans {s'' : SitInfo} {xs ys : List ℕ} (h : Stored g s s' xs)
    (h' : Stored g s' s'' ys) : Stored g s s'' (xs ++ ys) where
  sentries := fun z => (h.sentries z).trans (h'.sentries z)
  persistent := by
    intro z hz
    rw [h'.persistent z hz, h.persistent z hz, (h.sentries z).raw]
    by_cases hx : z ∈ xs <;> by_cases hy : z ∈ ys <;> simp [hx, hy]
  nodup := fun hnd => h'.nodup (h.nodup hnd)
  keys := by
    intro z hz
    rw [List.mem_append]
    rcases h'.keys z hz with hz | hz
    · rcases h.keys z hz with hz | hz
      · exact Or.inl hz
      · exact Or.inr (Or.inl hz)
    · exact Or.inr (Or.inr hz)
  length_le := by
    have h1 := h.length_le
    have h2 := h'.length_le
    rw [List.length_append]
    omega
  bugOn := h'.bugOn.trans h.bugOn
  readable := by
    intro hbound hread
    refine h'.readable (fun z hz => ?_) (h.readable hbound hread)
    rw [(h.sentries z).validBlocks]
    exact hbound z hz

lemma Stored.refl (g : SegGeometry) (s : SitInfo) : Stored g s s [] :=
  ⟨fun _ => SegEntry.SameData.refl _, fun _ _ => by simp, fun h => h, fun _ h => Or.inl h, le_rfl,
    rfl, fun _ h => h⟩

/-- The entries of a set. -/
lemma stored_segs (cpc : CpControl) {toJournal : Bool} {xs : List ℕ} (hnd : xs.Nodup)
    (hlt : ∀ x ∈ xs, x < g.segmentCountMain) (hroom : FlushRoom toJournal s xs) :
    Stored g s (xs.foldl (flushSitEntry g o cpc toJournal) s) xs := by
  induction xs generalizing s with
  | nil => exact Stored.refl g s
  | cons y xs ih =>
      obtain ⟨hy, hnd⟩ := List.nodup_cons.mp hnd
      have hone : Stored g s (flushSitEntry g o cpc toJournal s y) [y] := by
        cases toJournal with
        | true =>
            have hlen : s.journal.length + (xs.length + 1) ≤ sitJournalEntries := hroom
            exact stored_journal cpc (hlt y List.mem_cons_self) (by omega)
        | false => exact stored_block cpc (hlt y List.mem_cons_self) (hroom y List.mem_cons_self)
      have hroom' : FlushRoom toJournal (flushSitEntry g o cpc toJournal s y) xs := by
        cases toJournal with
        | true =>
            have hlen : s.journal.length + (xs.length + 1) ≤ sitJournalEntries := hroom
            have hle := hone.length_le
            change _ + xs.length ≤ sitJournalEntries
            simp only [List.length_singleton] at hle
            omega
        | false =>
            intro x hx hkey
            rcases hone.keys x hkey with hkey | hmem
            · exact hroom x (List.mem_cons_of_mem y hx) hkey
            · rw [List.mem_singleton] at hmem
              exact hy (hmem ▸ hx)
      exact hone.trans (ih hnd (fun x hx => hlt x (List.mem_cons_of_mem y hx)) hroom')

/-! ## The loop over the sets -/

/-- The dirty entries of a set. -/
def setSegs (g : SegGeometry) (s : SitInfo) (ses : SitEntrySet) : List ℕ :=
  dirtySegs s ses.startSegno (min (ses.startSegno + sitEntryPerBlock) g.segmentCountMain)

lemma mem_setSegs {ses : SitEntrySet} (hstart : startSegno ses.startSegno = ses.startSegno)
    (x : ℕ) : x ∈ setSegs g s ses ↔ startSegno x = ses.startSegno ∧ x < g.segmentCountMain ∧
      s.dirtySentriesBitmap x = true := by
  rw [setSegs, mem_dirtySegs, startSegno_iff hstart]
  constructor
  · rintro ⟨⟨h1, h2⟩, hb⟩
    exact ⟨⟨h1, by omega⟩, by omega, hb⟩
  · rintro ⟨⟨h1, h2⟩, h3, hb⟩
    exact ⟨⟨h1, by omega⟩, hb⟩

structure JournalOk (g : SegGeometry) (s : SitInfo) : Prop where
  nodup : (Journal.keys s.journal).Nodup
  length_le : s.journal.length ≤ sitJournalEntries
  bound : ∀ x ∈ Journal.keys s.journal, x < g.segmentCountMain

/-- What is not dirty in memory is on the device. -/
def Agrees (g : SegGeometry) (s : SitInfo) : Prop :=
  ∀ x < g.segmentCountMain, s.dirtySentriesBitmap x = false →
    persistentSit g s x = segInfoToRawSit (s.sentries x)

/-- **The invariant of the loop**; `rem` are the sets that are left. -/
structure FlushLoop (g : SegGeometry) (s : SitInfo) (toJournal : Bool) (rem : List SitEntrySet) :
    Prop where
  nodup : (rem.map SitEntrySet.startSegno).Nodup
  start : ∀ ses ∈ rem, startSegno ses.startSegno = ses.startSegno ∧
    ses.startSegno < g.segmentCountMain
  count : ∀ ses ∈ rem, ses.entryCnt = (setSegs g s ses).length
  pending : ∀ x < g.segmentCountMain, s.dirtySentriesBitmap x = true →
    ∃ ses ∈ rem, ses.startSegno = startSegno x
  agrees : Agrees g s
  journal : JournalOk g s
  room : (toJournal = true ∧
      s.journal.length + (rem.map SitEntrySet.entryCnt).sum ≤ sitJournalEntries) ∨
    ∀ x ∈ Journal.keys s.journal, ∀ ses ∈ rem, startSegno x ≠ ses.startSegno
  bound : ∀ x < g.segmentCountMain, (s.sentries x).validBlocks ≤ blocksPerSeg
  readable : DeviceReadable g s
  noBug : s.bugOn = false

variable {ses : SitEntrySet} {rem : List SitEntrySet} {toJournal : Bool}

/-- Whether the set goes to the journal. -/
def goesToJournal (s : SitInfo) (toJournal : Bool) (ses : SitEntrySet) : Bool :=
  toJournal && decide (ses.entryCnt ≤ maxSitJentries s)

/-- There is a place for the next set; if it goes to its block, nothing in the journal overrides
it. -/
lemma FlushLoop.flushRoom (h : FlushLoop g s toJournal (ses :: rem)) :
    FlushRoom (goesToJournal s toJournal ses) s (setSegs g s ses) ∧
      (goesToJournal s toJournal ses = false →
        ∀ x ∈ Journal.keys s.journal, startSegno x ≠ ses.startSegno) := by
  have hcnt := h.count ses List.mem_cons_self
  have hlen := h.journal.length_le
  have hstart := (h.start ses List.mem_cons_self).1
  cases hto : goesToJournal s toJournal ses with
  | true =>
      refine ⟨?_, fun hf => absurd hf (by simp)⟩
      rw [goesToJournal, Bool.and_eq_true, decide_eq_true_eq, maxSitJentries] at hto
      change s.journal.length + (setSegs g s ses).length ≤ sitJournalEntries
      omega
  | false =>
      have hkeys : ∀ x ∈ Journal.keys s.journal, startSegno x ≠ ses.startSegno := by
        rcases h.room with ⟨htrue, hroom⟩ | hroom
        · -- With room for all the sets there is room for this one.
          rw [List.map_cons, List.sum_cons] at hroom
          have hfit : ses.entryCnt ≤ maxSitJentries s := by
            rw [maxSitJentries]
            omega
          simp [goesToJournal, htrue, hfit] at hto
        · exact fun x hx => hroom x hx ses List.mem_cons_self
      refine ⟨fun x hx hkey => ?_, fun _ => hkeys⟩
      exact hkeys x hkey ((mem_setSegs hstart x).mp hx).1

/-- The new copy of the block of a set, before any entry is written to it. -/
lemma FlushLoop.page (h : FlushLoop g s toJournal (ses :: rem))
    (hkeys : ∀ x ∈ Journal.keys s.journal, startSegno x ≠ ses.startSegno) :
    ∀ x < g.segmentCountMain, persistentSit g (getNextSitPage g s ses.startSegno) x
      = if x ∈ setSegs g s ses then segInfoToRawSit (s.sentries x) else persistentSit g s x := by
  obtain ⟨hstart, hlt⟩ := h.start ses List.mem_cons_self
  intro x hx
  have hblock := sitBlockEntry_getNextSitPage (s := s) hstart hlt hx
  have hjournal : (getNextSitPage g s ses.startSegno).journal = s.journal := rfl
  by_cases hset : startSegno x = ses.startSegno
  · have hnone : Journal.get s.journal x = none :=
      Journal.get_eq_none_iff.mpr fun hkey => hkeys x hkey hset
    have hraw : persistentSit g (getNextSitPage g s ses.startSegno) x
        = segInfoToRawSit (s.sentries x) := by
      rw [persistentSit, hjournal, hnone, hblock, if_pos hset]
      rfl
    rw [hraw]
    split_ifs with hmem
    · rfl
    · have hclean : s.dirtySentriesBitmap x = false := by
        by_contra hb
        exact hmem ((mem_setSegs hstart x).mpr ⟨hset, hx, by simpa using hb⟩)
      exact (h.agrees x hx hclean).symm
  · rw [if_neg fun hmem => hset ((mem_setSegs hstart x).mp hmem).1, persistentSit, hjournal, hblock,
      if_neg hset, persistentSit]

/-- Entries that go to their block leave the journal alone. -/
lemma flushSegs_journal (cpc : CpControl) (xs : List ℕ) (s : SitInfo) :
    (xs.foldl (flushSitEntry g o cpc false) s).journal = s.journal := by
  induction xs generalizing s with
  | nil => rfl
  | cons x xs ih =>
      obtain ⟨s₁, hj₁, -, -, s₂, rfl, hj, -⟩ :=
        flushSitEntry_device (g := g) (o := o) cpc false s x
      rw [List.foldl_cons, ih, hj]
      exact hj₁

/-- The entries of the next set have been written. -/
lemma FlushLoop.stored (h : FlushLoop g s toJournal (ses :: rem)) (o : Options) (cpc : CpControl) :
    Stored g s (flushSitSet g o cpc (s, toJournal) ses).1 (setSegs g s ses) := by
  obtain ⟨hroom, hkeys⟩ := h.flushRoom
  have hnd : (setSegs g s ses).Nodup := dirtySegs_nodup _ _ _
  have hlt : ∀ x ∈ setSegs g s ses, x < g.segmentCountMain :=
    fun x hx => ((mem_setSegs (h.start ses List.mem_cons_self).1 x).mp hx).2.1
  have hbug : (ses.entryCnt != (setSegs g s ses).length) = false := by
    simp [h.count ses List.mem_cons_self]
  have heq : (flushSitSet g o cpc (s, toJournal) ses).1
      = (setSegs g s ses).foldl (flushSitEntry g o cpc (goesToJournal s toJournal ses))
          (if goesToJournal s toJournal ses then s else getNextSitPage g s ses.startSegno) := by
    have hrec : ∀ s₂ : SitInfo, { s₂ with
        bugOn := s₂.bugOn || (ses.entryCnt != (setSegs g s ses).length) } = s₂ := by
      intro s₂
      rw [hbug, Bool.or_false]
    exact hrec _
  rw [heq]
  cases hto : goesToJournal s toJournal ses with
  | true =>
      rw [hto] at hroom
      exact stored_segs cpc hnd hlt hroom
  | false =>
      have hpage := h.page (hkeys hto)
      obtain ⟨hstart, hseg⟩ := h.start ses List.mem_cons_self
      have hroom₁ : FlushRoom false (getNextSitPage g s ses.startSegno) (setSegs g s ses) := by
        rw [hto] at hroom
        exact hroom
      have hst := stored_segs (o := o) cpc hnd hlt hroom₁
      refine ⟨hst.sentries, fun z hz => ?_, hst.nodup, hst.keys, hst.length_le, hst.bugOn,
        fun hbound hread => hst.readable hbound ⟨fun z hz => ?_, hread.journal⟩⟩
      · refine (hst.persistent z hz).trans ?_
        rw [hpage z hz]
        split_ifs <;> rfl
      · rw [sitBlockEntry_getNextSitPage hstart hseg hz]
        split_ifs
        · exact segInfoToRawSit_readable (hbound z hz)
        · exact hread.blocks z hz

lemma FlushLoop.step (h : FlushLoop g s toJournal (ses :: rem)) (o : Options) (cpc : CpControl) :
    FlushLoop g (flushSitSet g o cpc (s, toJournal) ses).1
      (flushSitSet g o cpc (s, toJournal) ses).2 rem := by
  have hst := h.stored o cpc
  obtain ⟨hframe, hbits⟩ := flushSitSet_frame (g := g) (o := o) cpc (s, toJournal) ses
  obtain ⟨hstart, hseg⟩ := h.start ses List.mem_cons_self
  obtain ⟨hnot, hnd⟩ := List.nodup_cons.mp h.nodup
  have hto : (flushSitSet g o cpc (s, toJournal) ses).2 = goesToJournal s toJournal ses := rfl
  have hne : ∀ ses' ∈ rem, ses'.startSegno ≠ ses.startSegno :=
    fun ses' hs heq => hnot (List.mem_map.mpr ⟨ses', hs, heq⟩)
  -- What is dirty afterwards: the same, without this set.
  have hdirty : ∀ x < g.segmentCountMain,
      (flushSitSet g o cpc (s, toJournal) ses).1.dirtySentriesBitmap x
        = (s.dirtySentriesBitmap x && !decide (startSegno x = ses.startSegno)) := by
    intro x hx
    rw [hbits x]
    congr 2
    rw [decide_eq_decide, startSegno_iff hstart]
    omega
  have hsets : ∀ ses' ∈ rem, setSegs g (flushSitSet g o cpc (s, toJournal) ses).1 ses'
      = setSegs g s ses' := by
    intro ses' hs
    refine List.filter_congr fun x hx => ?_
    rw [List.mem_range'_1] at hx
    have hx' : startSegno x = ses'.startSegno :=
      (startSegno_iff (h.start ses' (List.mem_cons_of_mem ses hs)).1 x).mpr (by omega)
    rw [hdirty x (by omega), hx', decide_eq_false (hne ses' hs)]
    simp
  refine ⟨hnd, fun ses' hs => h.start ses' (List.mem_cons_of_mem ses hs), fun ses' hs => ?_,
    fun x hx hb => ?_, fun x hx hb => ?_, ⟨hst.nodup h.journal.nodup, ?_, fun x hx => ?_⟩, ?_,
    fun x hx => ?_, hst.readable h.bound h.readable, hst.bugOn.trans h.noBug⟩
  · rw [hsets ses' hs]
    exact h.count ses' (List.mem_cons_of_mem ses hs)
  · rw [hdirty x hx, Bool.and_eq_true, Bool.not_eq_true', decide_eq_false_iff_not] at hb
    obtain ⟨ses', hs, hs'⟩ := h.pending x hx hb.1
    rcases List.mem_cons.mp hs with rfl | hs
    · exact absurd hs'.symm hb.2
    · exact ⟨ses', hs, hs'⟩
  · rw [hst.persistent x hx, (hst.sentries x).raw]
    split_ifs with hmem
    · rfl
    · refine h.agrees x hx ?_
      rw [hdirty x hx] at hb
      by_contra hb'
      have hb'' : s.dirtySentriesBitmap x = true := by simpa using hb'
      simp only [hb'', Bool.true_and, Bool.not_eq_false', decide_eq_true_eq] at hb
      exact hmem ((mem_setSegs hstart x).mpr ⟨hb, hx, hb''⟩)
  · -- The journal has room for a set that goes there, and is as it was otherwise.
    obtain ⟨hroom, -⟩ := h.flushRoom
    have hlen := hst.length_le
    cases hgo : goesToJournal s toJournal ses with
    | true =>
        rw [hgo] at hroom
        have hroom' : s.journal.length + (setSegs g s ses).length ≤ sitJournalEntries := hroom
        omega
    | false =>
        have hkeep : (flushSitSet g o cpc (s, toJournal) ses).1.journal = s.journal := by
          change ((setSegs g s ses).foldl (flushSitEntry g o cpc (goesToJournal s toJournal ses))
            (if goesToJournal s toJournal ses then s
              else getNextSitPage g s ses.startSegno)).journal = s.journal
          rw [hgo, flushSegs_journal]
          rfl
        rw [hkeep]
        exact h.journal.length_le
  · rcases hst.keys x hx with hx | hx
    · exact h.journal.bound x hx
    · exact ((mem_setSegs hstart x).mp hx).2.1
  · rcases h.room with ⟨htrue, hroom⟩ | hroom
    · left
      have hlen := hst.length_le
      rw [← h.count ses List.mem_cons_self] at hlen
      rw [List.map_cons, List.sum_cons] at hroom
      have hfit : ses.entryCnt ≤ maxSitJentries s := by
        rw [maxSitJentries]
        omega
      refine ⟨?_, by omega⟩
      rw [hto, goesToJournal, htrue, decide_eq_true hfit]
      rfl
    · right
      intro x hx ses' hs heq
      rcases hst.keys x hx with hx | hx
      · exact hroom x hx ses' (List.mem_cons_of_mem ses hs) heq
      · exact hne ses' hs (heq.symm.trans ((mem_setSegs hstart x).mp hx).1)
  · rw [(hst.sentries x).validBlocks]
    exact h.bound x hx

lemma FlushLoop.run (h : FlushLoop g s toJournal rem) (o : Options) (cpc : CpControl) :
    FlushLoop g (rem.foldl (flushSitSet g o cpc) (s, toJournal)).1
        (rem.foldl (flushSitSet g o cpc) (s, toJournal)).2 [] ∧
      ∀ z, (s.sentries z).SameData
        ((rem.foldl (flushSitSet g o cpc) (s, toJournal)).1.sentries z) := by
  induction rem generalizing s toJournal with
  | nil => exact ⟨h, fun z => SegEntry.SameData.refl _⟩
  | cons ses rem ih =>
      obtain ⟨hdone, hsame⟩ := ih (h.step o cpc)
      exact ⟨hdone, fun z => ((h.stored o cpc).sentries z).trans (hsame z)⟩

/-! ## The start of the loop -/

/-- **What a mount and the calls leave behind.** -/
structure Flushable (g : SegGeometry) (s : SitInfo) : Prop where
  dirty : DirtyCounted g s
  agrees : Agrees g s
  journal : JournalOk g s
  bound : ∀ x < g.segmentCountMain, (s.sentries x).validBlocks ≤ blocksPerSeg
  readable : DeviceReadable g s
  noBug : s.bugOn = false

/-- A list of all dirty entries is as long as `dirty_sentries` says. -/
lemma IsDirtyList.length_eq {segs : List ℕ} (h : IsDirtyList g s segs) (hd : DirtyCounted g s) :
    segs.length = s.dirtySentries := by
  rw [hd, setBits, ← List.toFinset_card_of_nodup h.1]
  congr 1
  ext x
  simp [h.2 x]

/-- The counts of the sets are those of the dirty entries in their blocks. -/
lemma SetsFor.count_setSegs {head : List SitEntrySet} {segs : List ℕ} (h : SetsFor head segs)
    (hsegs : IsDirtyList g s segs) (hmem : ses ∈ head) :
    ses.entryCnt = (setSegs g s ses).length := by
  have hstart : startSegno ses.startSegno = ses.startSegno := by
    obtain ⟨x, -, hx⟩ := h.start ses hmem
    rw [← hx, startSegno_startSegno]
  rw [h.count ses hmem, List.countP_eq_length_filter]
  refine List.Perm.length_eq ?_
  refine (List.perm_ext_iff_of_nodup (hsegs.1.filter _) (dirtySegs_nodup _ _ _)).mpr fun x => ?_
  rw [List.mem_filter, hsegs.2, beq_iff_eq]
  have hset := mem_setSegs (g := g) (s := s) hstart x
  rw [setSegs] at hset
  rw [hset]
  tauto

/-- The invariant holds when the loop starts, whether the journal was emptied or not. -/
lemma Flushable.flushLoop (h : Flushable g s) :
    FlushLoop g (startFlush g s).1 true (startFlush g s).2 := by
  obtain ⟨segs, hsets, hsegs, hse, -⟩ := startFlush_spec h.journal.bound
  have hstarts : ∀ ses ∈ (startFlush g s).2, startSegno ses.startSegno = ses.startSegno ∧
      ses.startSegno < g.segmentCountMain := by
    intro ses hs
    obtain ⟨x, hx, hxs⟩ := hsets.start ses hs
    refine ⟨by rw [← hxs, startSegno_startSegno], ?_⟩
    have hlt := ((hsegs.2 x).mp hx).1
    have hle := ((startSegno_iff (startSegno_startSegno x) x).mp rfl).1
    omega
  have hpending : ∀ x < g.segmentCountMain, (startFlush g s).1.dirtySentriesBitmap x = true →
      ∃ ses ∈ (startFlush g s).2, ses.startSegno = startSegno x :=
    fun x hx hb => hsets.cover x ((hsegs.2 x).mpr ⟨hx, hb⟩)
  have hbound : ∀ x < g.segmentCountMain,
      ((startFlush g s).1.sentries x).validBlocks ≤ blocksPerSeg := by
    rw [hse]
    exact h.bound
  by_cases hfit : s.dirtySentries ≤ maxSitJentries s
  · have heq : startFlush g s = (s, addSitsInSet g s) := if_pos hfit
    rw [heq] at hsets hsegs hstarts hpending hbound ⊢
    refine ⟨hsets.nodup, hstarts, fun ses hs => hsets.count_setSegs hsegs hs, hpending,
      h.agrees, h.journal, Or.inl ⟨rfl, ?_⟩, hbound, h.readable, h.noBug⟩
    have hle := h.journal.length_le
    rw [hsets.total, hsegs.length_eq h.dirty]
    rw [maxSitJentries] at hfit
    change s.journal.length + s.dirtySentries ≤ sitJournalEntries
    omega
  · have heq : (startFlush g s).1 = (removeSitsInJournal s (addSitsInSet g s)).1 := by
      rw [startFlush, if_neg hfit]
    obtain ⟨-, hsit, hbug, hbits⟩ := removeSitsInJournal_marked s (addSitsInSet g s)
    rw [← heq] at hsit hbug hbits
    have hjournal : (startFlush g s).1.journal = [] := by rw [heq]; rfl
    have hblock : ∀ x, sitBlockEntry g (startFlush g s).1 x = sitBlockEntry g s x := by
      intro x
      rw [sitBlockEntry_eq, sitBlockEntry_eq, hsit]
    refine ⟨hsets.nodup, hstarts, fun ses hs => hsets.count_setSegs hsegs hs, hpending,
      fun x hx hb => ?_, ⟨?_, ?_, ?_⟩, Or.inr ?_, hbound, ⟨fun x hx => ?_, ?_⟩, hbug.trans h.noBug⟩
    · rw [hbits x, Bool.or_eq_false_iff, decide_eq_false_iff_not] at hb
      have hper := h.agrees x hx hb.1
      rw [persistentSit, Journal.get_eq_none_iff.mpr hb.2] at hper
      rw [persistentSit, hjournal, hse, hblock]
      exact hper
    · simp [hjournal, Journal.keys]
    · simp [hjournal]
    · simp [hjournal, Journal.keys]
    · simp [hjournal, Journal.keys]
    · rw [hblock]
      exact h.readable.blocks x hx
    · simp [hjournal]

/-- The part of the flush that may add discard candidates does not touch the device. -/
lemma addDiscards_device (segs : List ℕ) (s : SitInfo) :
    (segs.foldl (addDiscardAddrs g o cpc) s).journal = s.journal ∧
      (segs.foldl (addDiscardAddrs g o cpc) s).sit = s.sit ∧
      (segs.foldl (addDiscardAddrs g o cpc) s).bugOn = s.bugOn := by
  induction segs generalizing s with
  | nil => exact ⟨rfl, rfl, rfl⟩
  | cons x segs ih =>
      obtain ⟨h1, h2, h3⟩ := ih (addDiscardAddrs g o cpc s x)
      obtain ⟨h1', h2', h3'⟩ := addDiscardAddrs_device (g := g) (o := o) cpc s x
      exact ⟨h1.trans h1', h2.trans h2', h3.trans h3'⟩

lemma flush_device (s : SitInfo) (cpc : CpControl) :
    (f2fsFlushSitEntries g o s cpc).journal = (flushSits g o s cpc).journal ∧
      (f2fsFlushSitEntries g o s cpc).sit = (flushSits g o s cpc).sit ∧
      (f2fsFlushSitEntries g o s cpc).bugOn = (flushSits g o s cpc).bugOn := by
  simp only [f2fsFlushSitEntries]
  split_ifs
  · exact addDiscards_device _ _
  · exact ⟨rfl, rfl, rfl⟩

lemma DirtyCounted.flush (h : DirtyCounted g s) (o : Options) (cpc : CpControl)
    (hkeys : ∀ x ∈ Journal.keys s.journal, x < g.segmentCountMain) :
    DirtyCounted g (f2fsFlushSitEntries g o s cpc) := by
  refine flush_induction g o cpc ?_ ?_ ?_ ?_ ?_ ?_ h
  · intro s toJournal segno h hlt hb
    have hf := flushSitEntry_flushed (g := g) (o := o) cpc toJournal s segno
    have hbits := setBits_update s.dirtySentriesBitmap hlt false
    rw [hb, Bool.toNat_true, Bool.toNat_false, Nat.add_zero, ← h] at hbits
    rw [DirtyCounted, hf.dirtySentries, hf.bitmap]
    omega
  · exact fun s start h => h
  · exact fun s b h => h
  · exact fun s segno h hkey => h.markSitEntryDirty (hkeys segno hkey)
  · exact fun s h => h
  · intro s segno h _ _
    have hsame : SameTable s (addDiscardAddrs g o cpc s segno) := addDiscardAddrs_sameTable s segno
    rw [DirtyCounted, hsame.dirtySentries, hsame.bitmap]
    exact h

/-- **After the flush everything is on the device**, the journal is in order, nothing is dirty and no
check has fired. -/
lemma Flushable.flush (h : Flushable g s) (o : Options) (cpc : CpControl) :
    Flushable g (f2fsFlushSitEntries g o s cpc) ∧
      (f2fsFlushSitEntries g o s cpc).dirtySentries = 0 ∧
      ∀ z, (s.sentries z).SameData ((f2fsFlushSitEntries g o s cpc).sentries z) := by
  have hdirty := h.dirty.flush o cpc h.journal.bound
  have hzero : (f2fsFlushSitEntries g o s cpc).dirtySentries = 0 := by
    rw [hdirty, setBits_eq_zero]
    exact fun x hx => (flush_clean o cpc h.dirty h.journal.bound x hx).1
  have hsame := flush_sameTable (g := g) (o := o) s cpc
  obtain ⟨hj, hs, hb⟩ := flush_device (g := g) (o := o) s cpc
  -- The same for the part up to `out`.
  have hpart : Agrees g (flushSits g o s cpc) ∧ JournalOk g (flushSits g o s cpc) ∧
      DeviceReadable g (flushSits g o s cpc) ∧ (flushSits g o s cpc).bugOn = false ∧
      ∀ z, (s.sentries z).SameData ((flushSits g o s cpc).sentries z) := by
    have hzero' : (flushSits g o s cpc).dirtySentries = 0 := by rw [← hsame.dirtySentries, hzero]
    by_cases hnone : s.dirtySentries = 0
    · rw [flushSits, if_pos hnone]
      exact ⟨h.agrees, h.journal, h.readable, h.noBug, fun z => SegEntry.SameData.refl _⟩
    · obtain ⟨-, -, -, hse, -⟩ := startFlush_spec h.journal.bound
      obtain ⟨hloop, hdata⟩ := h.flushLoop.run o cpc
      rw [flushSits, if_neg hnone] at hzero' ⊢
      refine ⟨hloop.agrees,
        ⟨hloop.journal.nodup, hloop.journal.length_le, hloop.journal.bound⟩,
        ⟨hloop.readable.blocks, hloop.readable.journal⟩, ?_, fun z => ?_⟩
      · change (_ || _) = false
        have hnoBug := hloop.noBug
        simp only at hzero'
        simp only [hnoBug, hzero']
        rfl
      · rw [← hse]
        exact hdata z
  obtain ⟨hagrees, hjournal, hread, hbug, hdata⟩ := hpart
  have hdata' : ∀ z, (s.sentries z).SameData ((f2fsFlushSitEntries g o s cpc).sentries z) := by
    intro z
    rw [hsame.sentries]
    exact hdata z
  refine ⟨⟨hdirty, fun x hx hb' => ?_, ⟨?_, ?_, ?_⟩, fun x hx => ?_, ⟨fun x hx => ?_, ?_⟩, ?_⟩,
    hzero, hdata'⟩
  · rw [(persistentSit_congr hj hs x).1, hsame.sentries]
    exact hagrees x hx (by rw [← hsame.bitmap]; exact hb')
  · rw [hj]
    exact hjournal.nodup
  · rw [hj]
    exact hjournal.length_le
  · rw [hj]
    exact hjournal.bound
  · rw [(hdata' x).validBlocks]
    exact h.bound x hx
  · rw [(persistentSit_congr hj hs x).2]
    exact hread.blocks x hx
  · rw [hj]
    exact hread.journal
  · rw [hb]
    exact hbug

/-! ## The mount -/

/-- What a mount makes of an entry. -/
def decodedSit (trimmed : Bool) (rs : RawSit) : Option SegEntry :=
  (CursegType.ofCode rs.type).map (segInfoFromRawSit trimmed rs)

lemma readSit_spec (trimmed first : Bool) {rs : RawSit} (hread : rs.Readable) (tab : SitTable)
    (x old : ℕ) : ∃ tab', readSit g o trimmed tab x rs old first = some tab' ∧
      tab'.sentries = Function.update tab.sentries x (decodedSit trimmed rs) := by
  obtain ⟨hle, htype⟩ := hread
  obtain ⟨t, ht⟩ := Option.isSome_iff_exists.mp htype
  have hcheck : checkBlockCount rs = true := by simpa [checkBlockCount] using hle
  refine ⟨_, by rw [readSit, if_pos hcheck, ht]; rfl, ?_⟩
  simp [decodedSit, ht]

/-- The first loop: the blocks of the table. -/
lemma readBlocks_spec (o : Options) (trimmed : Bool)
    (hread : ∀ x < g.segmentCountMain, (sitBlockEntry g s x).Readable) {n : ℕ}
    (hn : n ≤ g.segmentCountMain) :
    ∃ tab, (List.range n).foldl (fun x segno => x.bind fun x =>
        readSit g o trimmed x segno (sitBlockEntry g s segno) 0 true)
          (some ⟨fun _ => none, fun _ => 0, 0⟩) = some tab ∧
      ∀ x < n, tab.sentries x = decodedSit trimmed (sitBlockEntry g s x) := by
  induction n with
  | zero => exact ⟨_, rfl, by simp⟩
  | succ n ih =>
      obtain ⟨tab, htab, hsent⟩ := ih (by omega)
      obtain ⟨tab', htab', hsent'⟩ := readSit_spec (g := g) (o := o) trimmed true
        (hread n (by omega)) tab n 0
      refine ⟨tab', ?_, fun x hx => ?_⟩
      · rw [List.range_succ, List.foldl_append, htab]
        exact htab'
      · rw [hsent']
        by_cases hxn : x = n
        · rw [hxn, Function.update_self]
        · rw [Function.update_of_ne hxn]
          exact hsent x (by omega)

/-- The second loop: the journal over them. -/
lemma readJournal_spec (o : Options) (trimmed : Bool) {j : List (ℕ × RawSit)}
    (hnd : (Journal.keys j).Nodup) (hlt : ∀ x ∈ Journal.keys j, x < g.segmentCountMain)
    (hread : ∀ e ∈ j, e.2.Readable) (tab : SitTable) :
    ∃ tab', j.foldl (fun x e => x.bind fun x =>
        if e.1 < g.segmentCountMain then
          readSit g o trimmed x e.1 e.2 ((x.sentries e.1).elim 0 SegEntry.validBlocks) false
        else none) (some tab) = some tab' ∧
      ∀ x, tab'.sentries x
        = (Journal.get j x).elim (tab.sentries x) (decodedSit trimmed) := by
  induction j generalizing tab with
  | nil => exact ⟨tab, rfl, fun x => rfl⟩
  | cons e j ih =>
      obtain ⟨k, v⟩ := e
      obtain ⟨hk, hnd⟩ := List.nodup_cons.mp hnd
      obtain ⟨tab₁, htab₁, hsent₁⟩ := readSit_spec (g := g) (o := o) trimmed false
        (hread (k, v) List.mem_cons_self) tab k
        ((tab.sentries k).elim 0 SegEntry.validBlocks)
      obtain ⟨tab', htab', hsent'⟩ := ih hnd (fun x hx => hlt x (List.mem_cons_of_mem k hx))
        (fun e he => hread e (List.mem_cons_of_mem (k, v) he)) tab₁
      refine ⟨tab', ?_, fun x => ?_⟩
      · rw [List.foldl_cons, Option.bind_some, if_pos (hlt k List.mem_cons_self), htab₁]
        exact htab'
      · rw [hsent' x, hsent₁, Journal.get]
        by_cases hx : k = x
        · have hnone : Journal.get j x = none := by
            rw [Journal.get_eq_none_iff, ← hx]
            exact hk
          rw [if_pos hx, hnone, hx, Function.update_self]
          rfl
        · rw [if_neg hx, Function.update_of_ne fun h => hx h.symm]

/-- **A mount reads what is on the device.** -/
lemma buildSitEntries_spec (o : Options) (trimmed : Bool) (hjournal : JournalOk g s)
    (hread : DeviceReadable g s) : ∃ tab, buildSitEntries g o trimmed s = some tab ∧
      ∀ x < g.segmentCountMain, tab.sentries x = decodedSit trimmed (persistentSit g s x) := by
  obtain ⟨tab, htab, hsent⟩ := readBlocks_spec o trimmed hread.blocks le_rfl
  obtain ⟨tab', htab', hsent'⟩ :=
    readJournal_spec o trimmed hjournal.nodup hjournal.bound hread.journal tab
  refine ⟨tab', ?_, fun x hx => ?_⟩
  · simp only [buildSitEntries, htab]
    exact htab'
  · rw [hsent' x, hsent x hx, persistentSit]
    cases Journal.get s.journal x <;> rfl

/-- An entry comes back as it was written. -/
lemma decodedSit_segInfoToRawSit (trimmed : Bool) {se : SegEntry}
    (h : se.validBlocks ≤ blocksPerSeg) :
    ∃ se', decodedSit trimmed (segInfoToRawSit se) = some se' ∧ se.SameData se' := by
  have hlt : se.validBlocks < 1024 := lt_of_le_of_lt h (by decide)
  refine ⟨segInfoFromRawSit trimmed (segInfoToRawSit se) se.type, ?_, ?_⟩
  · rw [decodedSit, segInfoToRawSit_type hlt, CursegType.ofCode_code]
    rfl
  · exact ⟨rfl, segInfoToRawSit_validBlocks hlt, rfl, rfl⟩

/-! ## What keeps a state fit for a flush -/

/-- Entries may change where they are dirty afterwards. -/
lemma Flushable.dirtied (h : Flushable g s) (hj : s'.journal = s.journal) (hs : s'.sit = s.sit)
    (hd : DirtyCounted g s') (hb : ∀ x, s'.dirtySentriesBitmap x = false →
      s.dirtySentriesBitmap x = false ∧ s'.sentries x = s.sentries x)
    (hbound : ∀ x < g.segmentCountMain, (s'.sentries x).validBlocks ≤ blocksPerSeg)
    (hbug : s'.bugOn = false) : Flushable g s' where
  dirty := hd
  agrees := by
    intro x hx hclean
    rw [(persistentSit_congr hj hs x).1, (hb x hclean).2]
    exact h.agrees x hx (hb x hclean).1
  journal := ⟨hj ▸ h.journal.nodup, hj ▸ h.journal.length_le, hj ▸ h.journal.bound⟩
  bound := hbound
  readable := by
    refine ⟨fun x hx => ?_, hj ▸ h.readable.journal⟩
    rw [(persistentSit_congr hj hs x).2]
    exact h.readable.blocks x hx
  noBug := hbug

/-- A new type marks the entry. -/
lemma Flushable.setSitEntryType (h : Flushable g s) (hlt : segno < g.segmentCountMain)
    (t : CursegType) : Flushable g (setSitEntryType s t segno true) := by
  have hvalid : ∀ x, ((Segment.setSitEntryType s t segno true).sentries x).validBlocks
      = (s.sentries x).validBlocks := by
    intro x
    by_cases hx : x = segno <;> simp [Segment.setSitEntryType, hx]
  refine h.dirtied (by simp [Segment.setSitEntryType]) (by simp [Segment.setSitEntryType]) ?_
    (fun x hx => ?_) (fun x hx => ?_) (by simp [Segment.setSitEntryType, h.noBug])
  · exact DirtyCounted.markSitEntryDirty h.dirty hlt
  · by_cases hxs : x = segno
    · simp [Segment.setSitEntryType, hxs] at hx
    · simpa [Segment.setSitEntryType, hxs] using hx
  · rw [hvalid]
    exact h.bound x hx

/-- A block that becomes valid or invalid marks its entry, and no check fires. -/
lemma Flushable.updateSitEntry {blk : ℕ} {validate : Bool} {mtime : BitVec 64} (h : Flushable g s)
    (hok : SitOk g o s) (hblk : blk < g.segmentCountMain * blocksPerSeg)
    (hexist : isValid s blk = !validate) :
    Flushable g (updateSitEntry g o s blk validate mtime) := by
  have hseg := getSegno_lt hblk
  have hcounted := hok.entries _ hseg
  have hnew : SitOk g o (Segment.updateSitEntry g o s blk validate mtime) :=
    hok.updateSitEntry hblk hexist
  have hse := updateSitEntry_sentries (g := g) (o := o) s blk validate mtime
  have hbits : (Segment.updateSitEntry g o s blk validate mtime).dirtySentriesBitmap
      = Function.update s.dirtySentriesBitmap (getSegno blk) true := by
    simp [Segment.updateSitEntry]
  refine h.dirtied (by simp [Segment.updateSitEntry]) (by simp [Segment.updateSitEntry]) hnew.dirty
    (fun x hx => ?_) (fun x hx => ?_) ?_
  · rw [hbits] at hx
    by_cases hxs : x = getSegno blk
    · simp [hxs] at hx
    · rw [Function.update_of_ne hxs] at hx
      rw [hse, Function.update_of_ne hxs]
      exact ⟨hx, rfl⟩
  · rw [(hnew.entries x hx).valid]
    exact setBits_le _ _
  · rw [isValid] at hexist
    have hcheck : ((s.sentries (getSegno blk)).curValidMap (getBlkoff blk) == validate) = false := by
      rw [hexist]
      cases validate <;> rfl
    have hfull : (if validate then decide (blocksPerSeg ≤ (s.sentries (getSegno blk)).validBlocks)
        else decide ((s.sentries (getSegno blk)).validBlocks = 0)) = false := by
      cases validate with
      | true =>
          have hbits' := setBits_update (s.sentries (getSegno blk)).curValidMap (getBlkoff_lt blk)
            true
          have hle := setBits_le (Function.update (s.sentries (getSegno blk)).curValidMap
            (getBlkoff blk) true) blocksPerSeg
          have hvalid := hcounted.valid
          rw [hexist] at hbits'
          simp only [Bool.not_true, Bool.toNat_false, Bool.toNat_true] at hbits'
          rw [if_pos rfl, decide_eq_false_iff_not]
          omega
      | false =>
          have hpos := setBits_pos_of (getBlkoff_lt blk) hexist
          rw [← hcounted.valid] at hpos
          rw [if_neg (by simp), decide_eq_false_iff_not]
          omega
    simp only [Segment.updateSitEntry, markSitEntryDirty_bugOn, h.noBug, hcheck, Bool.or_false,
      hfull]

/-! ## The round trip -/

/-- **What a flush writes, a mount reads back.** -/
theorem sit_round_trip (h : Flushable g s) (o : Options) (cpc : CpControl) (trimmed : Bool) :
    (∃ tab, buildSitEntries g o trimmed (f2fsFlushSitEntries g o s cpc) = some tab ∧
      ∀ x < g.segmentCountMain, ∃ se, tab.sentries x = some se ∧
        ((f2fsFlushSitEntries g o s cpc).sentries x).SameData se ∧
        (s.sentries x).SameData se) ∧
    (Journal.keys (f2fsFlushSitEntries g o s cpc).journal).Nodup ∧
    (f2fsFlushSitEntries g o s cpc).journal.length ≤ sitJournalEntries ∧
    (f2fsFlushSitEntries g o s cpc).dirtySentries = 0 ∧
    (f2fsFlushSitEntries g o s cpc).bugOn = false := by
  obtain ⟨hflush, hzero, hdata⟩ := h.flush o cpc
  obtain ⟨tab, htab, hsent⟩ := buildSitEntries_spec o trimmed hflush.journal hflush.readable
  refine ⟨⟨tab, htab, fun x hx => ?_⟩, hflush.journal.nodup, hflush.journal.length_le, hzero,
    hflush.noBug⟩
  have hclean : (f2fsFlushSitEntries g o s cpc).dirtySentriesBitmap x = false :=
    (flush_clean o cpc h.dirty h.journal.bound x hx).1
  obtain ⟨se, hse, hsame⟩ := decodedSit_segInfoToRawSit trimmed (hflush.bound x hx)
  refine ⟨se, ?_, hsame, (hdata x).trans hsame⟩
  rw [hsent x hx, hflush.agrees x hx hclean]
  exact hse

/-! ## A mounted file system -/

lemma packedSit_flushable (types : ℕ → CursegType) {cnt : ℕ → ℕ} (h : ∀ x, cnt x ≤ blocksPerSeg) :
    Flushable g (packedSit g types cnt) := by
  have hblock : ∀ x, sitBlockEntry g (packedSit g types cnt) x
      = segInfoToRawSit (packedEntry (types x) (cnt x)) := by
    intro x
    have hidx : (currentSitAddr g (packedSit g types cnt) x - g.sitBaseAddr) * 55
        + x % sitEntryPerBlock = x := by
      simp only [currentSitAddr, packedSit, sitBlockOffset, sitEntryPerBlock, Bool.false_eq_true,
        if_false]
      omega
    simp only [sitBlockEntry]
    change segInfoToRawSit (packedEntry (types _) (cnt _)) = _
    rw [hidx]
  refine ⟨?_, fun x _ _ => ?_, ⟨?_, ?_, ?_⟩, fun x _ => h x, ⟨fun x _ => ?_, ?_⟩, rfl⟩
  · simp [DirtyCounted, packedSit, setBits]
  · rw [persistentSit, hblock]
    rfl
  · simp [packedSit, Journal.keys]
  · simp [packedSit]
  · simp [packedSit, Journal.keys]
  · rw [hblock]
    exact segInfoToRawSit_readable (h x)
  · simp [packedSit]

/-- The table after the last block of segment 1 was written. -/
def dirtiedSit : SitInfo :=
  updateSitEntry threeSections ⟨true, true, true⟩
    (packedSit threeSections (fun _ => .warmData) crowdedCnt) (512 + 511) true 7

theorem sit_round_trip_dirtiedSit :
    dirtiedSit.dirtySentriesBitmap 1 = true ∧
      ∃ tab, buildSitEntries threeSections ⟨true, true, true⟩ false
          (f2fsFlushSitEntries threeSections ⟨true, true, true⟩ dirtiedSit plainCp) = some tab ∧
        ∃ se, tab.sentries 1 = some se ∧ se.validBlocks = 512 := by
  have hblk : 512 + 511 < threeSections.segmentCountMain * blocksPerSeg := by decide
  have hfit : Flushable threeSections dirtiedSit :=
    (packedSit_flushable _ crowdedCnt_le).updateSitEntry
      (packedSit_accounted _ crowdedCnt_le).toSitOk hblk (by decide +kernel)
  obtain ⟨⟨tab, htab, hsent⟩, -⟩ := sit_round_trip hfit ⟨true, true, true⟩ plainCp false
  obtain ⟨se, hse, -, hsame⟩ := hsent 1 (by decide)
  refine ⟨by decide +kernel, tab, htab, se, hse, ?_⟩
  rw [hsame.validBlocks]
  decide +kernel

/-- A journal that names a segment twice, as no flush leaves it. -/
def doubledSit : SitInfo :=
  { dirtiedSit with journal := [(5, zeroSit), (5, zeroSit)] }

/-- **A journal that starts with a segment in it twice keeps it so**, if there is room for what is
dirty. -/
theorem flush_keeps_doubled :
    doubledSit.journal.length ≤ sitJournalEntries ∧
      ¬ (Journal.keys (f2fsFlushSitEntries threeSections ⟨true, true, true⟩ doubledSit
        plainCp).journal).Nodup := by
  decide +kernel

end Hoit.Segment
