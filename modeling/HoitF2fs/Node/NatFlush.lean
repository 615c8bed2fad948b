import HoitF2fs.Node.NatInv

/-!
# The flush of the NAT

`f2fs_flush_nat_entries` sends whole sets of dirty entries to the journal or to their NAT block,
the smaller sets first.  If there is no room in the journal for *all* dirty entries it empties the
journal into the cache before that.

What could go wrong is that a set goes to its NAT block while the journal still has an entry of the
same block, which would then override a newer one.  `FlushLoop` is the invariant of the loop over
the sets that rules this out: **either there is room in the journal for all the sets that are left,
or no entry of the journal belongs to one of them.**  The first case needs that the counts of the
sets are right.

* `NatInv.removeNatsInJournal` — emptying the journal loses nothing.
* `NatInv.flushToJournal`, `NatInv.flushToBlock` — one entry.
* `FlushLoop.step` — one set.
* `NatInv.flush` — the flush: afterwards nothing is in a set.
-/

namespace Hoit

variable {g : NatGeometry} {st st' : NatState} {nid b : ℕ} {e : NatEntry}

/-! ## Emptying the journal -/

/-- Everything but the cache stays. -/
structure CacheOnly (st st' : NatState) : Prop extends SameDevice st st' where
  recorded : st'.recorded = st.recorded
  dirtyPages : st'.dirtyPages = st.dirtyPages

lemma CacheOnly.trans {st'' : NatState} (h : CacheOnly st st') (h' : CacheOnly st' st'') :
    CacheOnly st st'' where
  journal := h'.journal.trans h.journal
  nat := h'.nat.trans h.nat
  recorded := h'.recorded.trans h.recorded
  dirtyPages := h'.dirtyPages.trans h.dirtyPages

/-- An entry of the cache becomes dirty. -/
lemma NatInv.dirtied (h : NatInv g st) (he : st.cache nid = some e) :
    NatInv g (setNatCacheDirty st nid e) where
  cache := by
    refine h.cache.change (setNatCacheDirty_change h.cache he rfl rfl fun hnew => ?_)
    have hpre := h.cache.prealloc_eq nid e he
    simp only [hnew, beq_self_eq_true] at hpre
    simp [NatEntry.inSet, hpre]
  device := h.device.of_sameDevice ⟨rfl, rfl⟩ fun _ => le_rfl
  fresh := by
    intro x e' he'
    by_cases hx : x = nid
    · subst hx
      simp only [setNatCacheDirty, Function.update_self, Option.some.injEq] at he'
      subst he'
      exact h.fresh x e he
    · exact h.fresh x e' (by simpa [setNatCacheDirty, hx] using he')
  persistent := by
    intro x hx hd
    by_cases hxn : x = nid
    · simp [NatState.dirty, setNatCacheDirty, hxn] at hd
    · rw [SameDevice.persistent ⟨rfl, rfl⟩]
      exact h.persistent x hx (by simpa [NatState.dirty, setNatCacheDirty, hxn] using hd)
  noBug := h.noBug

lemma setNatCacheDirty_dirty (x : ℕ) :
    (setNatCacheDirty st nid e).dirty x = (decide (x = nid) || st.dirty x) := by
  by_cases hx : x = nid
  · simp [NatState.dirty, setNatCacheDirty, hx]
  · simp [NatState.dirty, setNatCacheDirty, hx]

/-- One round of the loop makes one more node dirty. -/
lemma NatInv.removeNatInJournal {x : ℕ × Recorded} (h : NatInv g st)
    (hx : Journal.get st.journal x.1 = some x.2) :
    NatInv g (removeNatInJournal st x) ∧ CacheOnly st (removeNatInJournal st x) ∧
      (∀ y, y = x.1 ∨ st.dirty y = true → (removeNatInJournal st x).dirty y = true) := by
  have hnid : x.1 < g.maxNid := h.device.bound x.1 (journalKey hx)
  unfold Hoit.removeNatInJournal
  cases hc : st.cache x.1 with
  | some ne =>
      refine ⟨h.dirtied hc, ⟨⟨rfl, rfl⟩, rfl, rfl⟩, fun y hy => ?_⟩
      rw [setNatCacheDirty_dirty]
      simpa using hy
  | none =>
      have hper : persistentNat g st x.1 = x.2 := by simp [persistentNat, hx]
      have hfill := h.fill hc hnid
      rw [hper] at hfill
      refine ⟨hfill.dirtied (by simp [initNatEntry]), ⟨⟨rfl, rfl⟩, rfl, rfl⟩, fun y hy => ?_⟩
      rw [setNatCacheDirty_dirty]
      rcases hy with rfl | hy
      · simp
      · by_cases hyx : y = x.1
        · simp [hyx]
        · simpa [NatState.dirty, initNatEntry, hyx] using hy

lemma NatInv.removeLoop {xs : List (ℕ × Recorded)} (h : NatInv g st)
    (hxs : ∀ x ∈ xs, Journal.get st.journal x.1 = some x.2) :
    NatInv g (xs.foldl Hoit.removeNatInJournal st) ∧
      CacheOnly st (xs.foldl Hoit.removeNatInJournal st) ∧
      (∀ y, y ∈ Journal.keys xs ∨ st.dirty y = true →
        (xs.foldl Hoit.removeNatInJournal st).dirty y = true) := by
  induction xs generalizing st with
  | nil =>
      refine ⟨h, ⟨⟨rfl, rfl⟩, rfl, rfl⟩, fun y hy => ?_⟩
      simpa [Journal.keys] using hy
  | cons x xs ih =>
      obtain ⟨h₁, honly, hdirty⟩ := h.removeNatInJournal (hxs x (by simp))
      have hxs' : ∀ y ∈ xs, Journal.get (Hoit.removeNatInJournal st x).journal y.1 = some y.2 := by
        intro y hy
        rw [honly.journal]
        exact hxs y (by simp [hy])
      obtain ⟨h₂, honly', hdirty'⟩ := ih h₁ hxs'
      refine ⟨h₂, honly.trans honly', fun y hy => hdirty' y ?_⟩
      rw [Journal.keys, List.map_cons, List.mem_cons] at hy
      rcases hy with (rfl | hy) | hy
      · exact Or.inr (hdirty _ (Or.inl rfl))
      · exact Or.inl hy
      · exact Or.inr (hdirty y (Or.inr hy))

/-- **Emptying the journal loses nothing**: what was in it is dirty in the cache. -/
lemma NatInv.removeNatsInJournal (h : NatInv g st) :
    NatInv g (removeNatsInJournal st) ∧ (removeNatsInJournal st).dirtyPages = st.dirtyPages ∧
      (removeNatsInJournal st).journal = [] ∧ (removeNatsInJournal st).recorded = st.recorded := by
  have hxs : ∀ x ∈ st.journal, Journal.get st.journal x.1 = some x.2 :=
    fun x hx => Journal.get_of_mem h.device.nodup hx
  obtain ⟨h', honly, hdirty⟩ := h.removeLoop hxs
  refine ⟨⟨?_, ?_, h'.fresh, ?_, h'.noBug⟩, honly.dirtyPages, rfl, honly.recorded⟩
  · exact h'.cache.congr (fun x e he => ⟨e, he, rfl, rfl, rfl⟩) (fun _ hx => hx) rfl rfl rfl
  · have hblock : ∀ x, natBlockEntry g (Hoit.removeNatsInJournal st) x
        = natBlockEntry g (st.journal.foldl Hoit.removeNatInJournal st) x := fun x => rfl
    refine ⟨by simp [Hoit.removeNatsInJournal, Journal.keys], by simp [Hoit.removeNatsInJournal],
      by simp [Hoit.removeNatsInJournal, Journal.keys], by simp [Hoit.removeNatsInJournal],
      by simp [Hoit.removeNatsInJournal], fun x hx => ?_, by simp [Hoit.removeNatsInJournal],
      fun x hx => ?_⟩
    · rw [hblock]
      exact h'.device.block_stamp x hx
    · rw [hblock]
      exact h'.device.block_addr x hx
  · intro x hx hd
    have hd' : (st.journal.foldl Hoit.removeNatInJournal st).dirty x = false := hd
    have hkey : x ∉ Journal.keys st.journal := by
      intro hmem
      rw [hdirty x (Or.inl hmem)] at hd'
      simp at hd'
    have hper := h'.persistent x hx hd'
    rw [persistentNat, honly.journal, Journal.get_eq_none_iff.mpr hkey] at hper
    exact hper

/-! ## One entry -/

/-- What a flush of one entry leaves of the rest. -/
structure EntryFlushed (st st' : NatState) (nid : ℕ) : Prop where
  recorded : st'.recorded = st.recorded
  ver : st'.nat.ver = st.nat.ver
  dirtyPages : st'.dirtyPages = st.dirtyPages
  sets : ∀ b, b ≠ natBlockOffset nid → st'.sets b = st.sets b
  cache : ∀ x, x ≠ nid → st'.cache x = st.cache x
  inSet : st'.inSet nid = false

lemma NatInv.addr_of_inSet (h : NatInv g st) (he : st.cache nid = some e) (hin : e.inSet = true) :
    e.info.ni.blkAddr ≠ newAddr := by
  intro hnew
  have hpre := h.cache.prealloc_eq nid e he
  simp only [NatEntry.inSet, Bool.and_eq_true, Bool.not_eq_true'] at hin
  rw [hin.2, hnew] at hpre
  simp at hpre

/-- Clearing the entry of a node, once the device has what is recorded for it. -/
lemma NatInv.cleared (h : NatInv g st) (he : st.cache nid = some e) (hin : e.inSet = true)
    (hcache : st'.cache = st.cache) (hclean : st'.natEntries = st.natEntries)
    (hsets : st'.sets = st.sets) (hcnt : st'.dirtyNatCnt = st.dirtyNatCnt)
    (hrec : st'.recorded = st.recorded) (hbug : st'.bugOn = st.bugOn) (hdev : DeviceOk g st')
    (hself : persistentNat g st' nid = st.recorded nid)
    (hother : ∀ x, x < g.maxNid → x ≠ nid → persistentNat g st' x = persistentNat g st x) :
    NatInv g (clearNatCacheDirty st' nid e.resetFlag) := by
  have haddr := h.addr_of_inSet he hin
  have hpre : e.isPrealloc = false := by
    simp only [NatEntry.inSet, Bool.and_eq_true, Bool.not_eq_true'] at hin
    exact hin.2
  have hok : CacheOk g st' :=
    h.cache.congr (fun x e' he' => ⟨e', by rwa [hcache] at he', rfl, rfl, rfl⟩)
      (fun x hx => by rwa [hcache] at hx) hclean hsets hcnt
  have he' : st'.cache nid = some e := by rw [hcache, he]
  have hper : ∀ x, persistentNat g (clearNatCacheDirty st' nid e.resetFlag) x
      = persistentNat g st' x := fun x => SameDevice.persistent ⟨rfl, rfl⟩ x
  refine ⟨hok.change (clearNatCacheDirty_change hok he' hin hpre haddr),
    hdev.of_sameDevice ⟨rfl, rfl⟩ fun _ => le_rfl, fun x e₁ he₁ => ?_, fun x hx hd => ?_, ?_⟩
  · by_cases hxn : x = nid
    · subst hxn
      simp only [clearNatCacheDirty, Function.update_self, Option.some.injEq] at he₁
      subst he₁
      exact (h.fresh x e he).trans (congrFun hrec x).symm
    · have he₂ : st.cache x = some e₁ := by
        simpa [clearNatCacheDirty, hxn, hcache] using he₁
      exact (h.fresh x e₁ he₂).trans (congrFun hrec x).symm
  · rw [hper]
    refine Eq.trans ?_ (congrFun hrec x).symm
    by_cases hxn : x = nid
    · rw [hxn, hself]
    · rw [hother x hx hxn]
      refine h.persistent x hx ?_
      simpa [NatState.dirty, clearNatCacheDirty, hxn, hcache] using hd
  · exact hbug.trans h.noBug

lemma clearNatCacheDirty_flushed {st₁ : NatState} (hcache : st₁.cache = st.cache)
    (hsets : st₁.sets = st.sets) (hrec : st₁.recorded = st.recorded)
    (hver : st₁.nat.ver = st.nat.ver) (hpages : st₁.dirtyPages = st.dirtyPages) :
    EntryFlushed st (clearNatCacheDirty st₁ nid e) nid where
  recorded := hrec
  ver := hver
  dirtyPages := hpages
  sets := by
    intro b hb
    simp [clearNatCacheDirty, hb, hsets]
  cache := by
    intro x hx
    simp [clearNatCacheDirty, hx, hcache]
  inSet := by simp [NatState.inSet, clearNatCacheDirty, NatEntry.inSet]

/-- **An entry goes to the journal**, where there is room for it. -/
lemma NatInv.flushToJournal (h : NatInv g st) (he : st.cache nid = some e)
    (hin : e.inSet = true) (hroom : st.journal.length < natJournalEntries) :
    NatInv g (flushNatEntry g true st nid) ∧ EntryFlushed st (flushNatEntry g true st nid) nid ∧
      (flushNatEntry g true st nid).journal = Journal.put st.journal nid e.info := by
  have haddr := h.addr_of_inSet he hin
  have hnid := h.cache.bound nid e he
  have hfresh := h.fresh nid e he
  have hmax : nid ∈ Journal.keys st.journal ∨ 1 ≤ maxNatJentries st := by
    right
    unfold maxNatJentries
    omega
  have hstep : flushNatEntry g true st nid
      = clearNatCacheDirty { st with journal := Journal.put st.journal nid e.info } nid
          e.resetFlag := by
    have hbug : (e.info.ni.blkAddr == newAddr) = false := by simpa using haddr
    unfold flushNatEntry
    simp only [he, hbug, Bool.or_false, if_true, writeToJournal]
    rw [if_pos hmax]
  rw [hstep]
  refine ⟨h.cleared he hin rfl rfl rfl rfl rfl rfl ?_ ?_ ?_,
    clearNatCacheDirty_flushed rfl rfl rfl rfl rfl, rfl⟩
  · have hblock : ∀ x, natBlockEntry g { st with journal := Journal.put st.journal nid e.info } x
        = natBlockEntry g st x := fun x => rfl
    have hget : ∀ x r, Journal.get (Journal.put st.journal nid e.info) x = some r →
        (x = nid ∧ r = e.info) ∨ Journal.get st.journal x = some r := by
      intro x r hr
      by_cases hx : x = nid
      · subst hx
        rw [Journal.get_put_self, Option.some.injEq] at hr
        exact Or.inl ⟨rfl, hr.symm⟩
      · rw [Journal.get_put_of_ne hx] at hr
        exact Or.inr hr
    refine ⟨Journal.nodup_put h.device.nodup, ?_, ?_, ?_, ?_, h.device.block_stamp, ?_,
      h.device.block_addr⟩
    · exact Journal.length_put_le.trans hroom
    · intro x hx
      rcases Journal.mem_keys_put.mp hx with rfl | hx
      · exact hnid
      · exact h.device.bound x hx
    · intro x r hr
      rw [hblock]
      rcases hget x r hr with ⟨rfl, rfl⟩ | hr
      · rw [hfresh]
        exact h.device.block_stamp x hnid
      · exact h.device.not_older x r hr
    · intro x r hr
      rcases hget x r hr with ⟨rfl, rfl⟩ | hr
      · rw [hfresh]
      · exact h.device.journal_stamp x r hr
    · intro x r hr
      rcases hget x r hr with ⟨rfl, rfl⟩ | hr
      · exact haddr
      · exact h.device.journal_addr x r hr
  · simp [persistentNat, hfresh]
  · intro x hx hxn
    simp only [persistentNat, Journal.get_put_of_ne hxn]
    rfl

/-- **An entry goes to its NAT block**, which the journal must not override. -/
lemma NatInv.flushToBlock (h : NatInv g st) (he : st.cache nid = some e)
    (hin : e.inSet = true) (hkey : nid ∉ Journal.keys st.journal) :
    NatInv g (flushNatEntry g false st nid) ∧ EntryFlushed st (flushNatEntry g false st nid) nid ∧
      (flushNatEntry g false st nid).journal = st.journal := by
  have haddr := h.addr_of_inSet he hin
  have hnid := h.cache.bound nid e he
  have hfresh := h.fresh nid e he
  have hstep : flushNatEntry g false st nid
      = clearNatCacheDirty (writeToBlock g st nid e.info) nid e.resetFlag := by
    have hbug : (e.info.ni.blkAddr == newAddr) = false := by simpa using haddr
    unfold flushNatEntry
    simp only [he, hbug, Bool.or_false, Bool.false_eq_true, if_false]
  have hblock : ∀ x, x < g.maxNid → natBlockEntry g (writeToBlock g st nid e.info) x
      = if x = nid then e.info else natBlockEntry g st x :=
    fun x hx => natBlockEntry_writeToBlock hnid hx
  have hjournal : (writeToBlock g st nid e.info).journal = st.journal := rfl
  have hnone : Journal.get st.journal nid = none := Journal.get_eq_none_iff.mpr hkey
  rw [hstep]
  refine ⟨h.cleared he hin rfl rfl rfl rfl rfl rfl ?_ ?_ ?_,
    clearNatCacheDirty_flushed rfl rfl rfl rfl rfl, rfl⟩
  · refine ⟨h.device.nodup, h.device.length_le, h.device.bound, ?_, h.device.journal_stamp, ?_,
      h.device.journal_addr, ?_⟩
    · intro x r hr
      have hxn : x ≠ nid := by
        rintro rfl
        rw [hjournal, hnone] at hr
        simp at hr
      rw [hblock x (h.device.bound x (journalKey hr)), if_neg hxn]
      exact h.device.not_older x r hr
    · intro x hx
      rw [hblock x hx]
      split_ifs with hxn
      · rw [hfresh, hxn]
        exact le_rfl
      · exact h.device.block_stamp x hx
    · intro x hx
      rw [hblock x hx]
      split_ifs with hxn
      · exact haddr
      · exact h.device.block_addr x hx
  · rw [persistentNat, hjournal, hnone, hblock nid hnid, if_pos rfl]
    exact hfresh
  · intro x hx hxn
    rw [persistentNat, persistentNat, hjournal, hblock x hx, if_neg hxn]

/-! ## One set -/

/-- There is a place for the entries `xs`: room in the journal, or NAT blocks that the journal does
not override. -/
def FlushRoom (toJournal : Bool) (st : NatState) (xs : List ℕ) : Prop :=
  if toJournal then st.journal.length + xs.length ≤ natJournalEntries
  else ∀ x ∈ xs, x ∉ Journal.keys st.journal

/-- What a flush of the entries `xs` leaves of the rest. -/
structure ListFlushed (st st' : NatState) (xs : List ℕ) : Prop where
  recorded : st'.recorded = st.recorded
  ver : st'.nat.ver = st.nat.ver
  dirtyPages : st'.dirtyPages = st.dirtyPages
  sets : ∀ b, (∀ x ∈ xs, natBlockOffset x ≠ b) → st'.sets b = st.sets b
  cache : ∀ x, x ∉ xs → st'.cache x = st.cache x
  inSet : ∀ x ∈ xs, st'.inSet x = false
  keys : ∀ x ∈ Journal.keys st'.journal, x ∈ Journal.keys st.journal ∨ x ∈ xs
  length_le : st'.journal.length ≤ st.journal.length + xs.length

lemma NatInv.flushEntry {toJournal : Bool} {xs : List ℕ} (h : NatInv g st)
    (hin : st.inSet nid = true) (hnot : nid ∉ xs) (hroom : FlushRoom toJournal st (nid :: xs)) :
    NatInv g (flushNatEntry g toJournal st nid) ∧
      ListFlushed st (flushNatEntry g toJournal st nid) [nid] ∧
      FlushRoom toJournal (flushNatEntry g toJournal st nid) xs := by
  cases hc : st.cache nid with
  | none => simp [NatState.inSet, hc] at hin
  | some e =>
      have hin' : e.inSet = true := by simpa [NatState.inSet, hc] using hin
      have hflushed : ∀ {st'}, EntryFlushed st st' nid →
          (∀ x ∈ Journal.keys st'.journal, x ∈ Journal.keys st.journal ∨ x ∈ [nid]) →
          st'.journal.length ≤ st.journal.length + 1 → ListFlushed st st' [nid] := by
        intro st' hf hkeys hlen
        refine ⟨hf.recorded, hf.ver, hf.dirtyPages, fun b hb => ?_, fun x hx => ?_, fun x hx => ?_,
          hkeys, hlen⟩
        · exact hf.sets b (Ne.symm (hb nid (by simp)))
        · exact hf.cache x (by simpa using hx)
        · rw [List.mem_singleton.mp hx]
          exact hf.inSet
      cases toJournal with
      | true =>
          have hlen : st.journal.length + (xs.length + 1) ≤ natJournalEntries := hroom
          obtain ⟨hinv, hf, hj⟩ := h.flushToJournal hc hin' (by omega)
          have hput := Journal.length_put_le (j := st.journal) (k := nid) (v := e.info)
          refine ⟨hinv, hflushed hf ?_ ?_, ?_⟩
          · intro x hx
            rw [hj] at hx
            rcases Journal.mem_keys_put.mp hx with rfl | hx
            · exact Or.inr (by simp)
            · exact Or.inl hx
          · rw [hj]
            exact hput
          · change _ + xs.length ≤ natJournalEntries
            rw [hj]
            omega
      | false =>
          obtain ⟨hinv, hf, hj⟩ := h.flushToBlock hc hin' (hroom nid (by simp))
          refine ⟨hinv, hflushed hf ?_ ?_, ?_⟩
          · intro x hx
            rw [hj] at hx
            exact Or.inl hx
          · rw [hj]
            omega
          · intro x hx
            rw [hj]
            exact hroom x (by simp [hx])

lemma NatInv.flushList {toJournal : Bool} {xs : List ℕ} (h : NatInv g st) (hnd : xs.Nodup)
    (hin : ∀ x ∈ xs, st.inSet x = true) (hroom : FlushRoom toJournal st xs) :
    NatInv g (xs.foldl (flushNatEntry g toJournal) st) ∧
      ListFlushed st (xs.foldl (flushNatEntry g toJournal) st) xs := by
  induction xs generalizing st with
  | nil =>
      exact ⟨h, rfl, rfl, rfl, fun _ _ => rfl, fun _ _ => rfl, by simp, fun x hx => Or.inl hx,
        le_rfl⟩
  | cons y xs ih =>
      obtain ⟨hy, hnd⟩ := List.nodup_cons.mp hnd
      obtain ⟨h₁, hf, hroom'⟩ := h.flushEntry (hin y (by simp)) hy hroom
      have hin' : ∀ x ∈ xs, (flushNatEntry g toJournal st y).inSet x = true := by
        intro x hx
        have hne : x ∉ [y] := by
          rintro hmem
          rw [List.mem_singleton] at hmem
          exact hy (hmem ▸ hx)
        rw [NatState.inSet, hf.cache x hne]
        exact hin x (by simp [hx])
      obtain ⟨h₂, hf'⟩ := ih h₁ hnd hin' hroom'
      refine ⟨h₂, hf'.recorded.trans hf.recorded, hf'.ver.trans hf.ver,
        hf'.dirtyPages.trans hf.dirtyPages, fun b hb => ?_, fun x hx => ?_, fun x hx => ?_,
        fun x hx => ?_, ?_⟩
      · rw [List.foldl_cons, hf'.sets b fun x hx => hb x (by simp [hx])]
        exact hf.sets b fun x hx => hb x (by simp at hx; simp [hx])
      · simp only [List.mem_cons, not_or] at hx
        rw [List.foldl_cons, hf'.cache x hx.2, hf.cache x (by simpa using hx.1)]
      · by_cases hxs : x ∈ xs
        · exact hf'.inSet x hxs
        · have hxy : x = y := by simpa [hxs] using hx
          rw [List.foldl_cons, NatState.inSet, hf'.cache x hxs, hxy]
          exact hf.inSet y (by simp)
      · rcases hf'.keys x hx with hx | hx
        · rcases hf.keys x hx with hx | hx
          · exact Or.inl hx
          · exact Or.inr (by simp at hx; simp [hx])
        · exact Or.inr (by simp [hx])
      · have h₁' := hf'.length_le
        have h₂' := hf.length_le
        simp only [List.foldl_cons, List.length_cons, List.length_nil] at *
        omega

/-- A set that is not counted any more has nothing on its list. -/
lemma NatInv.dropSet (h : NatInv g st) (hcnt : setCnt st b = 0) :
    NatInv g { st with sets := Function.update st.sets b none } := by
  have hnil : setList st b = [] := List.length_eq_zero_iff.mp (by rw [← h.cache.cnt, hcnt])
  have hlist : ∀ b', setList { st with sets := Function.update st.sets b none } b'
      = setList st b' := by
    intro b'
    by_cases hb : b' = b
    · rw [hb, hnil]
      simp [setList]
    · simp [setList, hb]
  have hcnts : ∀ b', setCnt { st with sets := Function.update st.sets b none } b'
      = setCnt st b' := by
    intro b'
    by_cases hb : b' = b
    · rw [hb, hcnt]
      simp [setCnt]
    · simp [setCnt, hb]
  refine ⟨⟨h.cache.bound, h.cache.prealloc_eq, h.cache.prealloc_dirty, h.cache.clean_nodup,
    h.cache.mem_clean, fun b' => ?_, fun b' x => ?_, fun b' => ?_, h.cache.dirtyCnt⟩,
    h.device.of_sameDevice ⟨rfl, rfl⟩ fun _ => le_rfl, h.fresh, h.persistent, h.noBug⟩
  · rw [hlist]
    exact h.cache.list_nodup b'
  · rw [hlist]
    exact h.cache.mem_list b' x
  · rw [hlist, hcnts]
    exact h.cache.cnt b'

/-- A NAT block moves to its other copy, unless that would lose a page that is not yet written. -/
lemma NatInv.getNextNatPage (h : NatInv g st) (hb : b < g.natBlocks)
    (hpage : currentNatAddr g st b ∉ st.dirtyPages) : NatInv g (getNextNatPage g st b) := by
  have hblock : ∀ x, x < g.maxNid →
      natBlockEntry g (Hoit.getNextNatPage g st b) x = natBlockEntry g st x :=
    fun x hx => natBlockEntry_getNextNatPage hb hx
  refine ⟨?_, ⟨h.device.nodup, h.device.length_le, h.device.bound, fun x r hr => ?_,
    h.device.journal_stamp, fun x hx => ?_, h.device.journal_addr, fun x hx => ?_⟩, h.fresh,
    fun x hx hd => ?_, ?_⟩
  · exact h.cache.congr (fun x e he => ⟨e, he, rfl, rfl, rfl⟩) (fun _ hx => hx) rfl rfl rfl
  · rw [hblock x (h.device.bound x (journalKey hr))]
    exact h.device.not_older x r hr
  · rw [hblock x hx]
    exact h.device.block_stamp x hx
  · rw [hblock x hx]
    exact h.device.block_addr x hx
  · have hper := h.persistent x hx hd
    rw [persistentNat] at hper
    rw [persistentNat, hblock x hx]
    exact hper
  · simp [Hoit.getNextNatPage, h.noBug, hpage]

/-- What a flush of a set leaves of the rest. -/
structure SetFlushed (g : NatGeometry) (st st' : NatState) (b : ℕ) : Prop where
  recorded : st'.recorded = st.recorded
  ver : ∀ b', b' ≠ b → st'.nat.ver b' = st.nat.ver b'
  dirtyPages : ∀ a ∈ st'.dirtyPages, a = natCopyAddr g (!st.nat.ver b) b ∨ a ∈ st.dirtyPages
  sets : ∀ b', b' ≠ b → st'.sets b' = st.sets b'
  inSet : ∀ x, st'.inSet x = true → st.inSet x = true ∧ natBlockOffset x ≠ b
  keys : ∀ x ∈ Journal.keys st'.journal, x ∈ Journal.keys st.journal ∨ natBlockOffset x = b
  length_le : st'.journal.length ≤ st.journal.length + setCnt st b

/-- Whether `__flush_nat_entry_set` takes the journal. -/
def takesJournal (natBits : Bool) (st : NatState) (b : ℕ) : Bool :=
  !(natBits || !decide (setCnt st b ≤ maxNatJentries st))

lemma NatInv.flushSet {natBits : Bool} (h : NatInv g st) (hb : b < g.natBlocks)
    (hpage : currentNatAddr g st b ∉ st.dirtyPages)
    (hroom : FlushRoom (takesJournal natBits st b) st (setList st b)) :
    NatInv g (flushNatEntrySet g natBits st b) ∧
      SetFlushed g st (flushNatEntrySet g natBits st b) b := by
  -- The state in which the loop over the entries starts.
  obtain ⟨st₁, hst₁, h₁, hcache, hsets, hjournal, hrec, hver, hpages⟩ : ∃ st₁,
      st₁ = (if takesJournal natBits st b then st else Hoit.getNextNatPage g st b) ∧
      NatInv g st₁ ∧ st₁.cache = st.cache ∧ st₁.sets = st.sets ∧ st₁.journal = st.journal ∧
      st₁.recorded = st.recorded ∧ (∀ b', b' ≠ b → st₁.nat.ver b' = st.nat.ver b') ∧
      (∀ a ∈ st₁.dirtyPages, a = natCopyAddr g (!st.nat.ver b) b ∨ a ∈ st.dirtyPages) := by
    refine ⟨_, rfl, ?_⟩
    cases takesJournal natBits st b with
    | true => exact ⟨h, rfl, rfl, rfl, rfl, fun _ _ => rfl, fun a ha => Or.inr ha⟩
    | false =>
        refine ⟨h.getNextNatPage hb hpage, rfl, rfl, rfl, rfl, fun b' hb' => ?_, fun a ha => ?_⟩
        · simp [Hoit.getNextNatPage, hb']
        · rw [← nextNatAddr_copy, ← currentNatAddr_eq]
          simpa [Hoit.getNextNatPage] using ha
  have hin : ∀ x ∈ setList st b, st₁.inSet x = true := by
    intro x hx
    rw [NatState.inSet, hcache]
    exact ((h.cache.mem_list b x).mp hx).2
  have hroom₁ : FlushRoom (takesJournal natBits st b) st₁ (setList st b) := by
    unfold FlushRoom at hroom ⊢
    rwa [hjournal]
  obtain ⟨h₂, hf⟩ := h₁.flushList (h.cache.list_nodup b) hin hroom₁
  have hoffset : ∀ x ∈ setList st b, natBlockOffset x = b :=
    fun x hx => ((h.cache.mem_list b x).mp hx).1
  have hset : ∀ b', b' ≠ b →
      ((setList st b).foldl (flushNatEntry g (takesJournal natBits st b)) st₁).sets b'
        = st.sets b' := by
    intro b' hb'
    rw [hf.sets b' fun x hx => (hoffset x hx).trans_ne (Ne.symm hb'), hsets]
  have hflushed : SetFlushed g st
      ((setList st b).foldl (flushNatEntry g (takesJournal natBits st b)) st₁) b := by
    refine ⟨hf.recorded.trans hrec, fun b' hb' => ?_, fun a ha => ?_, hset, fun x hx => ?_,
      fun x hx => ?_, ?_⟩
    · rw [hf.ver]
      exact hver b' hb'
    · rw [hf.dirtyPages] at ha
      exact hpages a ha
    · have hnot : x ∉ setList st b := by
        intro hmem
        rw [hf.inSet x hmem] at hx
        simp at hx
      rw [NatState.inSet, hf.cache x hnot, hcache] at hx
      exact ⟨hx, fun hoff => hnot ((h.cache.mem_list b x).mpr ⟨hoff, hx⟩)⟩
    · rcases hf.keys x hx with hx | hx
      · rw [hjournal] at hx
        exact Or.inl hx
      · exact Or.inr (hoffset x hx)
    · rw [h.cache.cnt b, ← hjournal]
      exact hf.length_le
  have hstep : flushNatEntrySet g natBits st b
      = if setCnt ((setList st b).foldl (flushNatEntry g (takesJournal natBits st b)) st₁) b = 0
        then { (setList st b).foldl (flushNatEntry g (takesJournal natBits st b)) st₁ with
          sets := Function.update
            ((setList st b).foldl (flushNatEntry g (takesJournal natBits st b)) st₁).sets b none }
        else (setList st b).foldl (flushNatEntry g (takesJournal natBits st b)) st₁ := by
    rw [hst₁]
    rfl
  rw [hstep]
  split_ifs with hcnt
  · refine ⟨h₂.dropSet hcnt, hflushed.recorded, hflushed.ver, hflushed.dirtyPages,
      fun b' hb' => ?_, hflushed.inSet, hflushed.keys, hflushed.length_le⟩
    simp only [ne_eq, hb', not_false_eq_true, Function.update_of_ne]
    exact hset b' hb'
  · exact ⟨h₂, hflushed⟩

/-! ## The loop over the sets -/

lemma adjustNatEntrySet_perm (cnt : ℕ → ℕ) (max b : ℕ) (head : List ℕ) :
    (adjustNatEntrySet cnt max b head).Perm (b :: head) := by
  unfold adjustNatEntrySet
  split_ifs with hmax
  · exact List.perm_append_singleton b head
  · refine List.perm_middle.trans (List.Perm.cons b ?_)
    rw [List.takeWhile_append_dropWhile]

lemma adjust_foldl_perm (cnt : ℕ → ℕ) (max : ℕ) (bs head : List ℕ) :
    (bs.foldl (fun head b => adjustNatEntrySet cnt max b head) head).Perm (bs ++ head) := by
  induction bs generalizing head with
  | nil => exact List.Perm.refl head
  | cons b bs ih =>
      refine (ih _).trans ?_
      exact ((adjustNatEntrySet_perm cnt max b head).append_left bs).trans List.perm_middle

/-- The order of the sets matters to nothing that is shown here. -/
lemma setsToFlush_perm (st : NatState) :
    (setsToFlush g st).Perm ((List.range g.natBlocks).filter fun b => (st.sets b).isSome) := by
  have hperm := adjust_foldl_perm (setCnt st) (maxNatJentries st)
    ((List.range g.natBlocks).filter fun b => (st.sets b).isSome) []
  rwa [List.append_nil] at hperm

lemma setsToFlush_nodup (st : NatState) : (setsToFlush g st).Nodup :=
  (setsToFlush_perm st).nodup_iff.mpr (List.nodup_range.filter _)

lemma mem_setsToFlush : b ∈ setsToFlush g st ↔ b < g.natBlocks ∧ (st.sets b).isSome = true := by
  rw [(setsToFlush_perm st).mem_iff, List.mem_filter, List.mem_range]

/-- **The invariant of the loop**; `rem` are the sets that are left. -/
structure FlushLoop (g : NatGeometry) (natBits : Bool) (st : NatState) (rem : List ℕ) : Prop where
  inv : NatInv g st
  nodup : rem.Nodup
  bound : ∀ b ∈ rem, b < g.natBlocks
  pending : ∀ x, st.inSet x = true → natBlockOffset x ∈ rem
  pages : ∀ b ∈ rem, currentNatAddr g st b ∉ st.dirtyPages
  room : (natBits = false ∧ st.journal.length + (rem.map (setCnt st)).sum ≤ natJournalEntries) ∨
    ∀ x ∈ Journal.keys st.journal, natBlockOffset x ∉ rem

/-- There is a place for the next set. -/
lemma FlushLoop.flushRoom {natBits : Bool} {rem : List ℕ} (h : FlushLoop g natBits st (b :: rem)) :
    FlushRoom (takesJournal natBits st b) st (setList st b) := by
  have hlen := h.inv.device.length_le
  cases ht : takesJournal natBits st b with
  | true =>
      have hcnt : setCnt st b ≤ maxNatJentries st := by
        simp only [takesJournal, Bool.not_or, Bool.not_not, Bool.and_eq_true,
          decide_eq_true_eq] at ht
        exact ht.2
      rw [maxNatJentries] at hcnt
      change _ + _ ≤ _
      rw [← h.inv.cache.cnt b]
      omega
  | false =>
      intro x hx hkey
      have hoff := ((h.inv.cache.mem_list b x).mp hx).1
      rcases h.room with ⟨hbits, hroom⟩ | hroom
      · -- With room for all the sets there is room for this one.
        rw [List.map_cons, List.sum_cons] at hroom
        have hcnt : setCnt st b ≤ maxNatJentries st := by
          rw [maxNatJentries]
          omega
        simp [takesJournal, hbits, hcnt] at ht
      · exact hroom x hkey (by simp [hoff])

lemma FlushLoop.step {natBits : Bool} {rem : List ℕ} (h : FlushLoop g natBits st (b :: rem)) :
    FlushLoop g natBits (flushNatEntrySet g natBits st b) rem ∧
      (flushNatEntrySet g natBits st b).recorded = st.recorded := by
  obtain ⟨hnot, hnd⟩ := List.nodup_cons.mp h.nodup
  have hb : b < g.natBlocks := h.bound b (by simp)
  obtain ⟨hinv, hf⟩ := h.inv.flushSet hb (h.pages b (by simp)) h.flushRoom
  have hne : ∀ b' ∈ rem, b' ≠ b := fun b' hb' heq => hnot (heq ▸ hb')
  refine ⟨⟨hinv, hnd, fun b' hb' => h.bound b' (by simp [hb']), fun x hx => ?_, fun b' hb' => ?_,
    ?_⟩, hf.recorded⟩
  · obtain ⟨hin, hoff⟩ := hf.inSet x hx
    rcases List.mem_cons.mp (h.pending x hin) with heq | hmem
    · exact absurd heq hoff
    · exact hmem
  · intro hmem
    rw [currentNatAddr_eq, hf.ver b' (hne b' hb')] at hmem
    rcases hf.dirtyPages _ hmem with heq | hmem
    · exact hne b' hb' (natCopyAddr_separate g g.natBlocks (h.bound b' (by simp [hb'])) hb heq).2
    · rw [← currentNatAddr_eq] at hmem
      exact h.pages b' (by simp [hb']) hmem
  · rcases h.room with ⟨hbits, hroom⟩ | hroom
    · refine Or.inl ⟨hbits, ?_⟩
      have hsum : rem.map (setCnt (flushNatEntrySet g natBits st b)) = rem.map (setCnt st) := by
        refine List.map_congr_left fun b' hb' => ?_
        rw [setCnt, setCnt, hf.sets b' (hne b' hb')]
      have hlen := hf.length_le
      rw [List.map_cons, List.sum_cons] at hroom
      rw [hsum]
      omega
    · refine Or.inr fun x hx hmem => ?_
      rcases hf.keys x hx with hkey | hoff
      · exact hroom x hkey (by simp [hmem])
      · exact hnot (hoff ▸ hmem)

lemma FlushLoop.run {natBits : Bool} {rem : List ℕ} (h : FlushLoop g natBits st rem) :
    FlushLoop g natBits (rem.foldl (flushNatEntrySet g natBits) st) [] ∧
      (rem.foldl (flushNatEntrySet g natBits) st).recorded = st.recorded := by
  induction rem generalizing st with
  | nil => exact ⟨h, rfl⟩
  | cons b rem ih =>
      obtain ⟨h₁, hrec⟩ := h.step
      obtain ⟨h₂, hrec'⟩ := ih h₁
      exact ⟨h₂, hrec'.trans hrec⟩

lemma FlushLoop.done {natBits : Bool} (h : FlushLoop g natBits st []) (x : ℕ) :
    st.inSet x = false := by
  have hpending := h.pending x
  simpa using hpending

/-! ## The start of the loop -/

/-- **The sets have no more entries than are dirty.** -/
lemma NatInv.sum_setCnt_le (h : NatInv g st) {bs : List ℕ} (hnd : bs.Nodup) :
    (bs.map (setCnt st)).sum ≤ st.dirtyNatCnt := by
  have hsum : (bs.map (setCnt st)).sum = (bs.flatMap (setList st)).length := by
    rw [List.length_flatMap]
    congr 1
    exact List.map_congr_left fun b _ => h.cache.cnt b
  have hflat : (bs.flatMap (setList st)).Nodup := by
    refine List.nodup_flatMap.mpr ⟨fun b _ => h.cache.list_nodup b, hnd.imp ?_⟩
    intro b b' hbb x hx hx'
    exact hbb (((h.cache.mem_list b x).mp hx).1.symm.trans ((h.cache.mem_list b' x).mp hx').1)
  rw [hsum, ← List.toFinset_card_of_nodup hflat, h.cache.dirtyCnt]
  refine Finset.card_le_card fun x hx => ?_
  obtain ⟨b, -, hx⟩ := List.mem_flatMap.mp (List.mem_toFinset.mp hx)
  have hin := ((h.cache.mem_list b x).mp hx).2
  rw [NatState.inSet] at hin
  cases hc : st.cache x with
  | none => simp [hc] at hin
  | some e =>
      simp only [hc, Option.any_some, NatEntry.inSet, Bool.and_eq_true] at hin
      have hdirty : st.dirty x = true := by simp [NatState.dirty, hc, hin.1]
      simp [NatGeometry.nids, hdirty, h.cache.bound x e hc]

lemma NatInv.offset_mem_setsToFlush (h : NatInv g st) {x : ℕ} (hin : st.inSet x = true) :
    natBlockOffset x ∈ setsToFlush g st := by
  have hx : x < g.maxNid := by
    cases hc : st.cache x with
    | none => simp [NatState.inSet, hc] at hin
    | some e => exact h.cache.bound x e hc
  refine mem_setsToFlush.mpr ⟨natBlockOffset_lt hx, ?_⟩
  have hmem := (h.cache.mem_list (natBlockOffset x) x).mpr ⟨rfl, hin⟩
  cases hs : st.sets (natBlockOffset x) with
  | none => simp [setList, hs] at hmem
  | some s => rfl

/-- The state in which the loop over the sets starts. -/
lemma NatInv.flushLoop (h : NatInv g st) (hpages : st.dirtyPages = []) {natBits : Bool}
    (hroom : (natBits = false ∧ st.dirtyNatCnt ≤ maxNatJentries st) ∨ st.journal = []) :
    FlushLoop g natBits st (setsToFlush g st) where
  inv := h
  nodup := setsToFlush_nodup st
  bound := fun b hb => (mem_setsToFlush.mp hb).1
  pending := fun x hx => h.offset_mem_setsToFlush hx
  pages := by simp [hpages]
  room := by
    rcases hroom with ⟨hbits, hcnt⟩ | hnil
    · refine Or.inl ⟨hbits, ?_⟩
      have hlen := h.device.length_le
      have hsum := h.sum_setCnt_le (setsToFlush_nodup (g := g) st)
      rw [maxNatJentries] at hcnt
      omega
    · exact Or.inr (by simp [hnil, Journal.keys])

/-! ## The flush -/

/-- **The flush keeps the NAT a map**, no check in it fires, and nothing is left in a set. -/
lemma NatInv.flush (h : NatInv g st) (hpages : st.dirtyPages = []) (natBits : Bool) :
    NatInv g (f2fsFlushNatEntries g st natBits) ∧
      (f2fsFlushNatEntries g st natBits).recorded = st.recorded ∧
      ∀ x, (f2fsFlushNatEntries g st natBits).inSet x = false := by
  have hfreed : ∀ {s : NatState}, NatInv g s → NatInv g { s with freed := fun _ => false } :=
    fun hs => ⟨hs.cache.congr (fun x e he => ⟨e, he, rfl, rfl, rfl⟩) (fun _ hx => hx) rfl rfl rfl,
      hs.device.of_sameDevice ⟨rfl, rfl⟩ fun _ => le_rfl, hs.fresh, hs.persistent, hs.noBug⟩
  unfold f2fsFlushNatEntries
  split_ifs with hzero hevict
  · refine ⟨hfreed h, rfl, fun x => ?_⟩
    by_contra hin
    have hin : st.inSet x = true := by simpa [NatState.inSet] using hin
    have hsum := h.sum_setCnt_le (List.nodup_singleton (natBlockOffset x))
    have hmem := (h.cache.mem_list (natBlockOffset x) x).mpr ⟨rfl, hin⟩
    have hpos := List.length_pos_of_mem hmem
    rw [← h.cache.cnt] at hpos
    simp only [List.map_cons, List.map_nil, List.sum_cons, List.sum_nil] at hsum
    omega
  · obtain ⟨h₁, hpages₁, hnil, hrec⟩ := h.removeNatsInJournal
    have hloop : FlushLoop g natBits (Hoit.removeNatsInJournal st) (setsToFlush g _) :=
      h₁.flushLoop (hpages₁.trans hpages) (Or.inr hnil)
    obtain ⟨h₂, hrec'⟩ := hloop.run
    exact ⟨hfreed h₂.inv, hrec'.trans hrec, h₂.done⟩
  · simp only [Bool.or_eq_true, Bool.not_eq_true', decide_eq_false_iff_not, not_or, not_not,
      Bool.not_eq_true] at hevict
    obtain ⟨h₂, hrec⟩ := (h.flushLoop hpages (Or.inl hevict)).run
    exact ⟨hfreed h₂.inv, hrec, h₂.done⟩

end Hoit
