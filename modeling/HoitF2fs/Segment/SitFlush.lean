import Mathlib.Data.List.TakeWhile
import HoitF2fs.Segment.SitAccounting

/-!
# The flush of the segment information table

`f2fs_flush_sit_entries` groups the dirty entries by the block of the table that they belong to and
sends whole sets to the journal or to their block, smaller sets first.  If there is no room in the
journal for *all* dirty entries, those of the journal join them first and the journal is emptied.

* `SetsFor` — what `add_sit_entry` builds, whatever the order of the list: each block has one set,
  and the sets count their entries.
* `FlushFrame` — what a part of the flush does to the entries in memory.
* `flush_clean` — **after the flush no entry is dirty**, and each that was has its current map as the
  map of the checkpoint.

Nothing here depends on what is in the journal.
-/

namespace Hoit.Segment

open Bitmap

variable {g : SegGeometry} {o : Options} {cpc : CpControl} {s s' : SitInfo} {segno : ℕ}

/-! ## Sets -/

lemma startSegno_iff {start : ℕ} (h : startSegno start = start) (x : ℕ) :
    startSegno x = start ↔ start ≤ x ∧ x < start + sitEntryPerBlock := by
  unfold startSegno sitBlockOffset sitEntryPerBlock at *
  omega

lemma startSegno_startSegno (x : ℕ) : startSegno (startSegno x) = startSegno x := by
  unfold startSegno sitBlockOffset sitEntryPerBlock
  omega

lemma sitBlockOffset_eq_iff (x y : ℕ) :
    sitBlockOffset x = sitBlockOffset y ↔ startSegno x = startSegno y := by
  unfold startSegno sitBlockOffset sitEntryPerBlock
  omega

/-- The sets of the entries `segs`. -/
structure SetsFor (head : List SitEntrySet) (segs : List ℕ) : Prop where
  nodup : (head.map SitEntrySet.startSegno).Nodup
  count : ∀ ses ∈ head, ses.entryCnt = segs.countP fun x => startSegno x == ses.startSegno
  cover : ∀ x ∈ segs, ∃ ses ∈ head, ses.startSegno = startSegno x
  start : ∀ ses ∈ head, ∃ x ∈ segs, startSegno x = ses.startSegno
  total : (head.map SitEntrySet.entryCnt).sum = segs.length

lemma SetsFor.perm {head head' : List SitEntrySet} {segs : List ℕ} (h : SetsFor head segs)
    (hp : head'.Perm head) : SetsFor head' segs where
  nodup := (hp.map _).nodup_iff.mpr h.nodup
  count := fun ses hs => h.count ses (hp.mem_iff.mp hs)
  cover := by
    intro x hx
    obtain ⟨ses, hs, hstart⟩ := h.cover x hx
    exact ⟨ses, hp.mem_iff.mpr hs, hstart⟩
  start := fun ses hs => h.start ses (hp.mem_iff.mp hs)
  total := by rw [(hp.map _).sum_eq, h.total]

lemma adjustSitEntrySet_perm (ses : SitEntrySet) (rest : List SitEntrySet) :
    (adjustSitEntrySet ses rest).Perm (ses :: rest) := by
  refine List.perm_middle.trans (List.Perm.cons ses ?_)
  rw [List.takeWhile_append_dropWhile]

/-- `add_sit_entry` makes a new set, or counts one more in the set that is there. -/
lemma addSitEntry_cases (head : List SitEntrySet) (x : ℕ) :
    ((∀ ses ∈ head, ses.startSegno ≠ startSegno x) ∧
        addSitEntry head x = ⟨startSegno x, 1⟩ :: head) ∨
      ∃ ses rest, head.Perm (ses :: rest) ∧ ses.startSegno = startSegno x ∧
        (addSitEntry head x).Perm (⟨startSegno x, ses.entryCnt + 1⟩ :: rest) := by
  have happ := List.takeWhile_append_dropWhile (p := fun ses => ses.startSegno != startSegno x)
    (l := head)
  unfold addSitEntry
  split
  · rename_i hnil
    left
    refine ⟨fun ses hs => ?_, rfl⟩
    simpa using List.dropWhile_eq_nil_iff.mp hnil ses hs
  · rename_i ses rest hcons
    right
    have hstart : ses.startSegno = startSegno x := by
      have hhead := List.head?_dropWhile_not (fun ses => ses.startSegno != startSegno x) head
      rw [hcons] at hhead
      simpa using hhead
    rw [hcons] at happ
    refine ⟨ses, head.takeWhile (fun ses => ses.startSegno != startSegno x) ++ rest, ?_, hstart, ?_⟩
    · nth_rewrite 1 [← happ]
      exact List.perm_middle
    · refine (List.Perm.append_left _ (adjustSitEntrySet_perm _ rest)).trans ?_
      rw [hstart]
      exact List.perm_middle

lemma SetsFor.add {head : List SitEntrySet} {segs : List ℕ} (h : SetsFor head segs) (x : ℕ) :
    SetsFor (addSitEntry head x) (x :: segs) := by
  rcases addSitEntry_cases head x with ⟨hnone, heq⟩ | ⟨ses, rest, hp, hstart, hp'⟩
  · rw [heq]
    have hfresh : segs.countP (fun y => startSegno y == startSegno x) = 0 := by
      rw [List.countP_eq_zero]
      intro y hy hyx
      obtain ⟨ses, hs, hss⟩ := h.cover y hy
      exact hnone ses hs (hss.trans (by simpa using hyx))
    refine ⟨?_, ?_, ?_, ?_, ?_⟩
    · rw [List.map_cons, List.nodup_cons]
      refine ⟨fun hmem => ?_, h.nodup⟩
      obtain ⟨ses, hs, hss⟩ := List.mem_map.mp hmem
      exact hnone ses hs hss
    · intro ses hs
      rcases List.mem_cons.mp hs with rfl | hs
      · rw [List.countP_cons, hfresh]
        simp
      · rw [List.countP_cons, h.count ses hs, if_neg (by simpa using (hnone ses hs).symm)]
        rfl
    · intro y hy
      rcases List.mem_cons.mp hy with rfl | hy
      · exact ⟨_, List.mem_cons_self, rfl⟩
      · obtain ⟨ses, hs, hss⟩ := h.cover y hy
        exact ⟨ses, List.mem_cons_of_mem _ hs, hss⟩
    · intro ses hs
      rcases List.mem_cons.mp hs with rfl | hs
      · exact ⟨x, List.mem_cons_self, rfl⟩
      · obtain ⟨y, hy, hyx⟩ := h.start ses hs
        exact ⟨y, List.mem_cons_of_mem x hy, hyx⟩
    · rw [List.map_cons, List.sum_cons, h.total, List.length_cons, Nat.add_comm]
  · have h₁ := h.perm hp.symm
    refine SetsFor.perm ?_ hp'
    have hnd : ses.startSegno ∉ rest.map SitEntrySet.startSegno ∧
        (rest.map SitEntrySet.startSegno).Nodup := List.nodup_cons.mp h₁.nodup
    refine ⟨?_, ?_, ?_, ?_, ?_⟩
    · rw [List.map_cons, ← hstart]
      exact h₁.nodup
    · intro ses' hs
      rcases List.mem_cons.mp hs with rfl | hs
      · have hcnt := h₁.count ses List.mem_cons_self
        rw [hstart] at hcnt
        rw [List.countP_cons, if_pos (by simp)]
        change ses.entryCnt + 1 = _
        rw [hcnt]
      · have hne : startSegno x ≠ ses'.startSegno := by
          intro heq
          exact hnd.1 (List.mem_map.mpr ⟨ses', hs, heq.symm.trans hstart.symm⟩)
        rw [List.countP_cons, h₁.count ses' (List.mem_cons_of_mem ses hs),
          if_neg (by simpa using hne)]
        rfl
    · intro y hy
      have hcover : ∃ ses' ∈ ses :: rest, ses'.startSegno = startSegno y := by
        rcases List.mem_cons.mp hy with rfl | hy
        · exact ⟨ses, List.mem_cons_self, hstart⟩
        · exact h₁.cover y hy
      obtain ⟨ses', hs, hss⟩ := hcover
      rcases List.mem_cons.mp hs with rfl | hs
      · exact ⟨_, List.mem_cons_self, hstart.symm.trans hss⟩
      · exact ⟨ses', List.mem_cons_of_mem _ hs, hss⟩
    · intro ses' hs
      rcases List.mem_cons.mp hs with rfl | hs
      · exact ⟨x, List.mem_cons_self, rfl⟩
      · obtain ⟨y, hy, hyx⟩ := h₁.start ses' (List.mem_cons_of_mem ses hs)
        exact ⟨y, List.mem_cons_of_mem x hy, hyx⟩
    · have htotal := h₁.total
      rw [List.map_cons, List.sum_cons] at htotal
      rw [List.map_cons, List.sum_cons, List.length_cons]
      change ses.entryCnt + 1 + _ = _
      omega

lemma setsFor_nil : SetsFor [] [] := ⟨by simp, by simp, by simp, by simp, rfl⟩

lemma SetsFor.addAll {head : List SitEntrySet} {segs : List ℕ} (h : SetsFor head segs)
    (xs : List ℕ) : SetsFor (xs.foldl addSitEntry head) (xs.reverse ++ segs) := by
  induction xs generalizing head segs with
  | nil => exact h
  | cons x xs ih => simpa using ih (h.add x)

/-- All the dirty entries, as a list. -/
def IsDirtyList (g : SegGeometry) (s : SitInfo) (segs : List ℕ) : Prop :=
  segs.Nodup ∧ ∀ x, x ∈ segs ↔ x < g.segmentCountMain ∧ s.dirtySentriesBitmap x = true

lemma addSitsInSet_setsFor (s : SitInfo) :
    ∃ segs, SetsFor (addSitsInSet g s) segs ∧ IsDirtyList g s segs := by
  refine ⟨_, setsFor_nil.addAll _, ?_, fun x => ?_⟩
  · rw [List.append_nil, List.nodup_reverse]
    exact dirtySegs_nodup s 0 _
  · rw [List.append_nil, List.mem_reverse, mem_dirtySegs]
    simp

/-- An entry of the journal joins the sets, unless it is in one already. -/
lemma removeSitInJournal_setsFor {x : SitInfo × List SitEntrySet} {segs : List ℕ}
    (h : SetsFor x.2 segs) (hsegs : IsDirtyList g x.1 segs) (hlt : segno < g.segmentCountMain) :
    ∃ segs', SetsFor (removeSitInJournal x segno).2 segs' ∧
      IsDirtyList g (removeSitInJournal x segno).1 segs' := by
  have hbit : ∀ y, (removeSitInJournal x segno).1.dirtySentriesBitmap y
      = Function.update x.1.dirtySentriesBitmap segno true y := by
    intro y
    simp [removeSitInJournal]
  cases hb : x.1.dirtySentriesBitmap segno with
  | true =>
      refine ⟨segs, by simpa [removeSitInJournal, hb] using h, hsegs.1, fun y => ?_⟩
      rw [hbit, hsegs.2, ← hb, Function.update_eq_self]
  | false =>
      refine ⟨segno :: segs, by simpa [removeSitInJournal, hb] using h.add segno, ?_, fun y => ?_⟩
      · refine List.nodup_cons.mpr ⟨fun hmem => ?_, hsegs.1⟩
        rw [hsegs.2, hb] at hmem
        exact absurd hmem.2 (by simp)
      · rw [hbit, List.mem_cons, hsegs.2]
        by_cases hy : y = segno
        · subst hy
          simp [hlt]
        · simp [hy]

lemma removeSitsInJournal_setsFor {head : List SitEntrySet} {segs : List ℕ}
    (h : SetsFor head segs) (hsegs : IsDirtyList g s segs)
    (hkeys : ∀ x ∈ Journal.keys s.journal, x < g.segmentCountMain) :
    ∃ segs', SetsFor (removeSitsInJournal s head).2 segs' ∧
      IsDirtyList g (removeSitsInJournal s head).1 segs' := by
  have hfold : ∀ (keys : List ℕ), (∀ x ∈ keys, x < g.segmentCountMain) →
      ∀ (y : SitInfo × List SitEntrySet) (segs : List ℕ), SetsFor y.2 segs →
        IsDirtyList g y.1 segs → ∃ segs', SetsFor (keys.foldl removeSitInJournal y).2 segs' ∧
          IsDirtyList g (keys.foldl removeSitInJournal y).1 segs' := by
    intro keys
    induction keys with
    | nil => exact fun _ y segs h hsegs => ⟨segs, h, hsegs⟩
    | cons x keys ih =>
        intro hk y segs h hsegs
        obtain ⟨segs', h', hsegs'⟩ := removeSitInJournal_setsFor h hsegs (hk x List.mem_cons_self)
        exact ih (fun z hz => hk z (List.mem_cons_of_mem x hz)) _ segs' h' hsegs'
  exact hfold _ hkeys (s, head) segs h hsegs

/-- The marks that emptying the journal leaves: every entry of it is dirty. -/
lemma removeSitsInJournal_marked (s : SitInfo) (head : List SitEntrySet) :
    (removeSitsInJournal s head).1.sentries = s.sentries ∧
      (removeSitsInJournal s head).1.sit = s.sit ∧
      (removeSitsInJournal s head).1.bugOn = s.bugOn ∧
      ∀ x, (removeSitsInJournal s head).1.dirtySentriesBitmap x
        = (s.dirtySentriesBitmap x || decide (x ∈ Journal.keys s.journal)) := by
  have hfold : ∀ (keys : List ℕ) (y : SitInfo × List SitEntrySet),
      (keys.foldl removeSitInJournal y).1.sentries = y.1.sentries ∧
      (keys.foldl removeSitInJournal y).1.sit = y.1.sit ∧
      (keys.foldl removeSitInJournal y).1.bugOn = y.1.bugOn ∧
      ∀ x, (keys.foldl removeSitInJournal y).1.dirtySentriesBitmap x
        = (y.1.dirtySentriesBitmap x || decide (x ∈ keys)) := by
    intro keys
    induction keys with
    | nil => simp
    | cons k keys ih =>
        intro y
        obtain ⟨h1, h2, h3, h4⟩ := ih (removeSitInJournal y k)
        rw [List.foldl_cons]
        refine ⟨h1.trans (by simp [removeSitInJournal]), h2.trans (by simp [removeSitInJournal]),
          h3.trans (by simp [removeSitInJournal]), fun x => ?_⟩
        rw [h4]
        by_cases hx : x = k
        · simp [removeSitInJournal, hx]
        · simp [removeSitInJournal, hx]
  exact hfold _ (s, head)

/-! ## Every dirty entry is flushed -/

/-- The entries between two points of a flush: those that have become clean are checkpointed. -/
structure FlushFrame (s s' : SitInfo) : Prop where
  bitmap : ∀ x, s'.dirtySentriesBitmap x = true → s.dirtySentriesBitmap x = true
  sentries : ∀ x, s'.sentries x
    = if s.dirtySentriesBitmap x && !s'.dirtySentriesBitmap x then (s.sentries x).checkpointed
      else s.sentries x

lemma FlushFrame.of_eq (hb : s'.dirtySentriesBitmap = s.dirtySentriesBitmap)
    (hse : s'.sentries = s.sentries) : FlushFrame s s' where
  bitmap := by simp [hb]
  sentries := by simp [hb, hse]

lemma FlushFrame.trans {s'' : SitInfo} (h : FlushFrame s s') (h' : FlushFrame s' s'') :
    FlushFrame s s'' where
  bitmap := fun x hx => h.bitmap x (h'.bitmap x hx)
  sentries := by
    intro x
    have hb := h.bitmap x
    have hb' := h'.bitmap x
    rw [h'.sentries x, h.sentries x]
    cases h1 : s.dirtySentriesBitmap x <;> cases h2 : s'.dirtySentriesBitmap x <;>
      cases h3 : s''.dirtySentriesBitmap x <;> simp_all

lemma EntryFlushed.frame (h : EntryFlushed s s' segno) (hb : s.dirtySentriesBitmap segno = true) :
    FlushFrame s s' where
  bitmap := by
    intro x hx
    rw [h.bitmap] at hx
    by_cases hxs : x = segno
    · rw [hxs]
      exact hb
    · rwa [Function.update_of_ne hxs] at hx
  sentries := by
    intro x
    rw [h.sentries, h.bitmap]
    by_cases hxs : x = segno
    · subst hxs
      simp [hb]
    · simp [hxs]

lemma flushSegs_frame (cpc : CpControl) (toJournal : Bool) {segs : List ℕ} (hnd : segs.Nodup)
    (hdirty : ∀ x ∈ segs, s.dirtySentriesBitmap x = true) :
    FlushFrame s (segs.foldl (flushSitEntry g o cpc toJournal) s) ∧
      ∀ x, (segs.foldl (flushSitEntry g o cpc toJournal) s).dirtySentriesBitmap x
        = (s.dirtySentriesBitmap x && !decide (x ∈ segs)) := by
  induction segs generalizing s with
  | nil => exact ⟨FlushFrame.of_eq rfl rfl, by simp⟩
  | cons y segs ih =>
      obtain ⟨hy, hnd⟩ := List.nodup_cons.mp hnd
      have hf := flushSitEntry_flushed (g := g) (o := o) cpc toJournal s y
      have hdirty' : ∀ x ∈ segs,
          (flushSitEntry g o cpc toJournal s y).dirtySentriesBitmap x = true := by
        intro x hx
        have hne : x ≠ y := by
          rintro rfl
          exact hy hx
        rw [hf.bitmap, Function.update_of_ne hne]
        exact hdirty x (List.mem_cons_of_mem y hx)
      obtain ⟨hframe, hbits⟩ := ih hnd hdirty'
      refine ⟨(hf.frame (hdirty y List.mem_cons_self)).trans hframe, fun x => ?_⟩
      rw [List.foldl_cons, hbits x, hf.bitmap]
      by_cases hxy : x = y
      · simp [hxy]
      · simp [hxy]

lemma flushSitSet_frame (cpc : CpControl) (x : SitInfo × Bool) (ses : SitEntrySet) :
    FlushFrame x.1 (flushSitSet g o cpc x ses).1 ∧
      ∀ y, (flushSitSet g o cpc x ses).1.dirtySentriesBitmap y
        = (x.1.dirtySentriesBitmap y && !decide (ses.startSegno ≤ y ∧
            y < min (ses.startSegno + sitEntryPerBlock) g.segmentCountMain)) := by
  have hpage : ∀ b : Bool, FlushFrame x.1 (if b then x.1 else getNextSitPage g x.1 ses.startSegno) ∧
      (if b then x.1 else getNextSitPage g x.1 ses.startSegno).dirtySentriesBitmap
        = x.1.dirtySentriesBitmap := by
    intro b
    cases b <;> exact ⟨FlushFrame.of_eq rfl rfl, rfl⟩
  simp only [flushSitSet]
  generalize (x.2 && decide (ses.entryCnt ≤ maxSitJentries x.1)) = b
  obtain ⟨hframe, hbits⟩ := hpage b
  obtain ⟨hframe', hbits'⟩ := flushSegs_frame (g := g) (o := o) cpc b
    (s := if b then x.1 else getNextSitPage g x.1 ses.startSegno)
    (dirtySegs_nodup x.1 ses.startSegno (min (ses.startSegno + sitEntryPerBlock) g.segmentCountMain))
    (fun y hy => by
      rw [hbits]
      exact (mem_dirtySegs.mp hy).2)
  refine ⟨(hframe.trans hframe').trans (FlushFrame.of_eq rfl rfl), fun y => (hbits' y).trans ?_⟩
  rw [hbits]
  cases hb : x.1.dirtySentriesBitmap y with
  | false => simp
  | true => simp [mem_dirtySegs, hb]

/-- After the sets, the entries of all of them are clean. -/
lemma flushSitSets_frame (cpc : CpControl) (sets : List SitEntrySet) (x : SitInfo × Bool) :
    FlushFrame x.1 (sets.foldl (flushSitSet g o cpc) x).1 ∧
      ∀ y < g.segmentCountMain, (∃ ses ∈ sets, ses.startSegno = startSegno y) →
        (sets.foldl (flushSitSet g o cpc) x).1.dirtySentriesBitmap y = false := by
  induction sets generalizing x with
  | nil => exact ⟨FlushFrame.of_eq rfl rfl, by simp⟩
  | cons ses sets ih =>
      obtain ⟨hframe, hbits⟩ := flushSitSet_frame (g := g) (o := o) cpc x ses
      obtain ⟨hframe', hclean⟩ := ih (flushSitSet g o cpc x ses)
      refine ⟨hframe.trans hframe', fun y hy hex => ?_⟩
      by_cases hrest : ∃ ses ∈ sets, ses.startSegno = startSegno y
      · exact hclean y hy hrest
      · obtain ⟨ses', hs, hstart⟩ := hex
        rcases List.mem_cons.mp hs with rfl | hs
        · by_contra hb
          have hb' := hframe'.bitmap y (by simpa using hb)
          rw [hbits y, hstart] at hb'
          have hin : startSegno y ≤ y ∧
              y < min (startSegno y + sitEntryPerBlock) g.segmentCountMain := by
            have := (startSegno_iff (startSegno_startSegno y) y).mp rfl
            omega
          simp [hin] at hb'
        · exact absurd ⟨ses', hs, hstart⟩ hrest

/-- What the loop over the sets starts from: all the entries that are dirty by then are in them. -/
lemma startFlush_spec (hkeys : ∀ x ∈ Journal.keys s.journal, x < g.segmentCountMain) :
    ∃ segs, SetsFor (startFlush g s).2 segs ∧ IsDirtyList g (startFlush g s).1 segs ∧
      (startFlush g s).1.sentries = s.sentries ∧
      ∀ x, s.dirtySentriesBitmap x = true → (startFlush g s).1.dirtySentriesBitmap x = true := by
  obtain ⟨segs, hsets, hsegs⟩ := addSitsInSet_setsFor (g := g) s
  unfold startFlush
  split_ifs
  · exact ⟨segs, hsets, hsegs, rfl, fun _ hx => hx⟩
  · obtain ⟨segs', hsets', hsegs'⟩ := removeSitsInJournal_setsFor hsets hsegs hkeys
    obtain ⟨hse, -, -, hbits⟩ := removeSitsInJournal_marked s (addSitsInSet g s)
    refine ⟨segs', hsets', hsegs', hse, fun x hx => ?_⟩
    rw [hbits x, hx]
    rfl

lemma addDiscards_sameTable (segs : List ℕ) (s : SitInfo) :
    SameTable s (segs.foldl (addDiscardAddrs g o cpc) s) := by
  induction segs generalizing s with
  | nil => exact SameTable.refl s
  | cons x segs ih => exact (addDiscardAddrs_sameTable s x).trans (ih _)

lemma flush_sameTable (s : SitInfo) (cpc : CpControl) :
    SameTable (flushSits g o s cpc) (f2fsFlushSitEntries g o s cpc) := by
  simp only [f2fsFlushSitEntries]
  split_ifs
  · exact addDiscards_sameTable _ _
  · exact SameTable.refl _

/-- **A flush leaves nothing dirty**, and what was dirty is checkpointed. -/
lemma flush_clean (o : Options) (cpc : CpControl) (hdirty : DirtyCounted g s)
    (hkeys : ∀ x ∈ Journal.keys s.journal, x < g.segmentCountMain) :
    ∀ x < g.segmentCountMain, (f2fsFlushSitEntries g o s cpc).dirtySentriesBitmap x = false ∧
      ((f2fsFlushSitEntries g o s cpc).sentries x = (s.sentries x).checkpointed ∨
        (s.dirtySentriesBitmap x = false ∧
          (f2fsFlushSitEntries g o s cpc).sentries x = s.sentries x)) := by
  intro x hx
  rw [(flush_sameTable s cpc).bitmap, (flush_sameTable s cpc).sentries]
  by_cases hzero : s.dirtySentries = 0
  · rw [flushSits, if_pos hzero]
    rw [DirtyCounted, hzero] at hdirty
    have hclean := setBits_eq_zero.mp hdirty.symm x hx
    exact ⟨hclean, Or.inr ⟨hclean, rfl⟩⟩
  · rw [flushSits, if_neg hzero]
    obtain ⟨segs, hsets, hsegs, hse, hmore⟩ := startFlush_spec hkeys
    obtain ⟨hframe, hclean⟩ := flushSitSets_frame (g := g) (o := o) cpc
      (startFlush g s).2 ((startFlush g s).1, true)
    have hclean' : ((startFlush g s).2.foldl (flushSitSet g o cpc)
        ((startFlush g s).1, true)).1.dirtySentriesBitmap x = false := by
      cases hb : (startFlush g s).1.dirtySentriesBitmap x with
      | false =>
          by_contra hne
          have := hframe.bitmap x (by simpa using hne)
          simp [hb] at this
      | true => exact hclean x hx (hsets.cover x ((hsegs.2 x).mpr ⟨hx, hb⟩))
    refine ⟨hclean', ?_⟩
    have hsent := hframe.sentries x
    simp only [hclean', Bool.not_false, Bool.and_true, hse] at hsent
    cases hb : (startFlush g s).1.dirtySentriesBitmap x with
    | true =>
        left
        simpa [hb] using hsent
    | false =>
        right
        refine ⟨?_, by simpa [hb] using hsent⟩
        by_contra hne
        rw [hmore x (by simpa using hne)] at hb
        exact absurd hb (by simp)

end Hoit.Segment
