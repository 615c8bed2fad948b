import HoitF2fs.Ckpt.Blocks

/-!
# Compacted summaries and back

In the compact form the two journals and the entries of the three data logs follow each other in
one stream.  An entry that would reach the last five bytes of a block goes into the next one.
Both writers and both readers find that out for themselves:

* `write_compacted_summaries` drops its page, and grabs and clears the next one with the entry;
* `bnvm_write_compacted_summaries` moves its pointer and **clears nothing**;
* the readers move on as soon as the next entry would not fit.

`SumPos.next` is the rule all four follow.  The writers lay out the pages of `compactedPages`
(`writeCompactedSummaries_eq`, `bnvmWriteCompactedSummaries_eq`), entry `n` of the stream stands
where `n` steps of the rule lead (`compactedLoop_read`), and the readers read there
(`readLoop_entries`).
-/

namespace Hoit.Summaries

open ByteStore

/-- `curseg_info` of a data log, as far as summaries go. -/
structure SumSeg where
  entries : Area
  journal : Area
  allocType : Byte
  nextBlkoff : ℕ

/-- The logs `CURSEG_HOT_DATA`, `CURSEG_WARM_DATA` and `CURSEG_COLD_DATA`. -/
abbrev DataSegs := Fin 3 → SumSeg

variable (a : Area) (segs : DataSegs)

/-! ## How much is written -/

/-- `blkoff` of the writers: the type comes from the header, the offset from memory. -/
def writeBlkoff (i : Fin 3) : ℕ :=
  if allocType a i = ssr then blocksPerSeg else (segs i).nextBlkoff

/-- The entries of one log that are written. -/
def segEntries (i : Fin 3) : List Area :=
  (List.range (writeBlkoff a segs i)).map fun j k => (segs i).entries (7 * j + k)

/-- The entries of all logs, in the order in which they are written. -/
def streamEntries : List Area := segEntries a segs 0 ++ segEntries a segs 1 ++ segEntries a segs 2

/-- `f2fs_npages_for_summary_flush`. -/
def npagesForSummaryFlush : ℕ :=
  let validSumCount := writeBlkoff a segs 0 + writeBlkoff a segs 1 + writeBlkoff a segs 2
  let sumInPage := (blockSize - 2 * 507 - 5) / 7
  if validSumCount ≤ sumInPage then 1
  else if validSumCount - sumInPage ≤ (blockSize - 5) / 7 then 2
  else 3

/-! ## The writers -/

/-- `write_compacted_summaries` between two entries: the META pages by block address, the page that
is being filled, and the address of the next one. -/
structure SummaryWriter where
  pages : ℕ → Area
  page : Option ℕ
  blkaddr : ℕ
  writtenSize : ℕ

/-- Grab and clear the next page. -/
def SummaryWriter.grab (w : SummaryWriter) : SummaryWriter :=
  { pages := Function.update w.pages w.blkaddr fun _ => 0
    page := some w.blkaddr
    blkaddr := w.blkaddr + 1
    writtenSize := 0 }

/-- The body of the loop in `write_compacted_summaries`. -/
def SummaryWriter.entry (w : SummaryWriter) (e : Area) : SummaryWriter :=
  let (w, b) := match w.page with
    | none => (w.grab, w.blkaddr)
    | some b => (w, b)
  let pages := Function.update w.pages b (Patch.apply (w.pages b) ⟨w.writtenSize, 7, e⟩)
  if w.writtenSize + 7 + 7 ≤ blockSize - 5 then
    { w with pages := pages, writtenSize := w.writtenSize + 7 }
  else { w with pages := pages, page := none, writtenSize := w.writtenSize + 7 }

/-- The first page, grabbed, cleared and with the two journals. -/
def SummaryWriter.first (pages : ℕ → Area) (blkaddr : ℕ) : SummaryWriter :=
  { pages := Function.update pages blkaddr
      (overlay (fun _ => 0) [⟨0, 507, (segs 0).journal⟩, ⟨507, 507, (segs 2).journal⟩])
    page := some blkaddr
    blkaddr := blkaddr + 1
    writtenSize := 507 + 507 }

/-- `write_compacted_summaries`. -/
def writeCompactedSummaries (pages : ℕ → Area) (blkaddr : ℕ) : SummaryWriter :=
  (streamEntries a segs).foldl SummaryWriter.entry (SummaryWriter.first segs pages blkaddr)

/-- `bnvm_write_compacted_summaries` between two entries. -/
structure BnvmSummaryWriter where
  nvm : Area
  kaddr : ℕ
  writtenSize : ℕ

/-- The body of the loop in `bnvm_write_compacted_summaries`. -/
def BnvmSummaryWriter.entry (w : BnvmSummaryWriter) (e : Area) : BnvmSummaryWriter :=
  let nvm := Patch.apply w.nvm ⟨w.kaddr + w.writtenSize, 7, e⟩
  if w.writtenSize + 7 + 7 ≤ blockSize - 5 then
    { w with nvm := nvm, writtenSize := w.writtenSize + 7 }
  else { nvm := nvm, kaddr := w.kaddr + blockSize, writtenSize := 0 }

/-- `bnvm_write_compacted_summaries`: NVM afterwards. -/
def bnvmWriteCompactedSummaries (nvm : Area) (dst : ℕ) : Area :=
  let journals := overlay nvm [⟨dst, 507, (segs 0).journal⟩, ⟨dst + 507, 507, (segs 2).journal⟩]
  ((streamEntries a segs).foldl BnvmSummaryWriter.entry ⟨journals, dst, 507 + 507⟩).nvm

/-! ## The readers -/

/-- `blk_off` of the readers: both come from the header. -/
def readBlkoff (i : Fin 3) : ℕ := if allocType a i = ssr then blocksPerSeg else curDataBlkoff a i

/-- The loop of `read_compacted_summaries` over one log, from entry `j` on; `read b` is block `b`
behind the first summary block.  The block number and the offset in the block go on to the next
log. -/
def readLoop (read : ℕ → Area) : (n j : ℕ) → ℕ × ℕ → Area → Area × (ℕ × ℕ)
  | 0, _, pos, entries => (entries, pos)
  | n + 1, j, (blk, offset), entries =>
      let entries := Patch.apply entries ⟨7 * j, 7, fun k => read blk (offset + k)⟩
      if offset + 7 + 7 ≤ blockSize - 5 then readLoop read n (j + 1) (blk, offset + 7) entries
      else readLoop read n (j + 1) (blk + 1, 0) entries

/-- `read_compacted_summaries`; `old` is what the logs were before. -/
def readCompactedSummaries (read : ℕ → Area) (old : DataSegs) : DataSegs :=
  let hot := readLoop read (readBlkoff a 0) 0 (0, 2 * 507) (old 0).entries
  let warm := readLoop read (readBlkoff a 1) 0 hot.2 (old 1).entries
  let cold := readLoop read (readBlkoff a 2) 0 warm.2 (old 2).entries
  fun i =>
    { entries := ![hot.1, warm.1, cold.1] i
      journal := ![Patch.apply (old 0).journal ⟨0, 507, read 0⟩, (old 1).journal,
        Patch.apply (old 2).journal ⟨0, 507, fun k => read 0 (507 + k)⟩] i
      allocType := allocType a i
      nextBlkoff := curDataBlkoff a i }

/-- The loop of `bnvm_read_compacted_summaries` over one log; `kaddr` and the offset go on. -/
def bnvmReadLoop (nvm : Area) : (n j : ℕ) → ℕ × ℕ → Area → Area × (ℕ × ℕ)
  | 0, _, pos, entries => (entries, pos)
  | n + 1, j, (kaddr, offset), entries =>
      let entries := Patch.apply entries ⟨7 * j, 7, fun k => nvm (kaddr + offset + k)⟩
      if offset + 7 + 7 ≤ blockSize - 5 then bnvmReadLoop nvm n (j + 1) (kaddr, offset + 7) entries
      else bnvmReadLoop nvm n (j + 1) (kaddr + blockSize, 0) entries

/-- `bnvm_read_compacted_summaries`, with the summaries at `kaddr`. -/
def bnvmReadCompactedSummaries (nvm : Area) (kaddr : ℕ) (old : DataSegs) : DataSegs :=
  let hot := bnvmReadLoop nvm (readBlkoff a 0) 0 (kaddr, 2 * 507) (old 0).entries
  let warm := bnvmReadLoop nvm (readBlkoff a 1) 0 hot.2 (old 1).entries
  let cold := bnvmReadLoop nvm (readBlkoff a 2) 0 warm.2 (old 2).entries
  fun i =>
    { entries := ![hot.1, warm.1, cold.1] i
      journal := ![Patch.apply (old 0).journal ⟨0, 507, fun k => nvm (kaddr + k)⟩, (old 1).journal,
        Patch.apply (old 2).journal ⟨0, 507, fun k => nvm (kaddr + 507 + k)⟩] i
      allocType := allocType a i
      nextBlkoff := curDataBlkoff a i }

/-! ## What the writers lay out -/

/-- The pages of the stream, each as the patches it receives. -/
def compactedPages : List (List Patch) :=
  compactedLoop (some ([⟨0, 507, (segs 0).journal⟩, ⟨507, 507, (segs 2).journal⟩], 507 + 507))
    (streamEntries a segs)

variable {a segs} {b : ℕ} {pg : List Patch} {es : List Area}

/-- The writer is filling the page at `b`, which has got the patches `pg`. -/
structure SummaryWriter.At (w : SummaryWriter) (b : ℕ) (pg : List Patch) : Prop where
  page : w.page = some b
  blkaddr : w.blkaddr = b + 1
  content : w.pages b = overlay (fun _ => 0) pg

lemma SummaryWriter.grab_at (w : SummaryWriter) : w.grab.At w.blkaddr [] :=
  ⟨rfl, rfl, Function.update_self ..⟩

lemma SummaryWriter.entry_grab {w : SummaryWriter} (h : w.page = none) (e : Area) :
    w.entry e = w.grab.entry e := by
  obtain ⟨pages, page, blkaddr, writtenSize⟩ := w
  obtain rfl : page = none := h
  rfl

/-- The page after the next entry. -/
lemma SummaryWriter.At.content_concat {w : SummaryWriter} (h : w.At b pg) (e : Area) :
    Patch.apply (w.pages b) ⟨w.writtenSize, 7, e⟩
      = overlay (fun _ => 0) (pg ++ [⟨w.writtenSize, 7, e⟩]) := by
  rw [h.content, overlay_append]
  rfl

/-- The step at an open page. -/
lemma SummaryWriter.At.entry {w : SummaryWriter} (h : w.At b pg) (e : Area) :
    w.entry e =
      { pages := Function.update w.pages b (overlay (fun _ => 0) (pg ++ [⟨w.writtenSize, 7, e⟩]))
        page := if w.writtenSize + 7 + 7 ≤ blockSize - 5 then some b else none
        blkaddr := b + 1
        writtenSize := w.writtenSize + 7 } := by
  have hcontent := h.content_concat e
  obtain ⟨pages, page, blkaddr, writtenSize⟩ := w
  obtain rfl : page = some b := h.page
  obtain rfl : blkaddr = b + 1 := h.blkaddr
  simp only [SummaryWriter.entry, hcontent]
  split <;> rfl

lemma compactedLoop_ne_nil (cur : List Patch × ℕ) (es : List Area) :
    compactedLoop (some cur) es ≠ [] := by
  induction es generalizing cur with
  | nil => exact List.cons_ne_nil _ _
  | cons e es ih =>
      rw [compactedLoop_some_cons]
      split
      · exact ih _
      · exact List.cons_ne_nil _ _

/-- What the loop has done at its end: it has filled these pages from `b` on. -/
def SummaryWriter.Filled (w w' : SummaryWriter) (b : ℕ) (pgs : List (List Patch)) : Prop :=
  w'.pages = fillPages w.pages b pgs ∧ w'.blkaddr = b + pgs.length

/-- **The rest of the stream**, with no page open and with one. -/
lemma foldl_summaryEntry (es : List Area) :
    (∀ w : SummaryWriter, w.page = none →
      w.Filled (es.foldl SummaryWriter.entry w) w.blkaddr (compactedLoop none es)) ∧
    ∀ (w : SummaryWriter) (b : ℕ) (pg : List Patch), w.At b pg →
      w.Filled (es.foldl SummaryWriter.entry w) b
        (compactedLoop (some (pg, w.writtenSize)) es) := by
  induction es with
  | nil =>
      refine ⟨fun w _ => ⟨rfl, rfl⟩, fun w b pg h => ⟨?_, h.blkaddr⟩⟩
      show w.pages = Function.update w.pages b (overlay (fun _ => 0) pg)
      rw [← h.content, Function.update_eq_self]
  | cons e es ih =>
      obtain ⟨ihnone, ihsome⟩ := ih
      have hopen : ∀ (w : SummaryWriter) (b : ℕ) (pg : List Patch), w.At b pg →
          w.Filled ((e :: es).foldl SummaryWriter.entry w) b
            (compactedLoop (some (pg, w.writtenSize)) (e :: es)) := by
        intro w b pg h
        rw [List.foldl_cons, h.entry, compactedLoop_some_cons]
        by_cases hroom : w.writtenSize + 7 + 7 ≤ blockSize - 5
        · rw [if_pos hroom, if_pos hroom]
          obtain ⟨hpages, hblkaddr⟩ := ihsome
            { pages := Function.update w.pages b
                (overlay (fun _ => 0) (pg ++ [⟨w.writtenSize, 7, e⟩]))
              page := some b
              blkaddr := b + 1
              writtenSize := w.writtenSize + 7 } b (pg ++ [⟨w.writtenSize, 7, e⟩])
            ⟨rfl, rfl, Function.update_self ..⟩
          exact ⟨hpages.trans (fillPages_update (compactedLoop_ne_nil _ _)), hblkaddr⟩
        · rw [if_neg hroom, if_neg hroom]
          obtain ⟨hpages, hblkaddr⟩ := ihnone
            { pages := Function.update w.pages b
                (overlay (fun _ => 0) (pg ++ [⟨w.writtenSize, 7, e⟩]))
              page := none
              blkaddr := b + 1
              writtenSize := w.writtenSize + 7 } rfl
          refine ⟨hpages, hblkaddr.trans ?_⟩
          rw [List.length_cons, Nat.add_right_comm]
          rfl
      refine ⟨fun w hnone => ?_, hopen⟩
      obtain ⟨hpages, hblkaddr⟩ := hopen w.grab w.blkaddr [] w.grab_at
      rw [List.foldl_cons, ← SummaryWriter.entry_grab hnone, ← List.foldl_cons] at hpages hblkaddr
      exact ⟨hpages.trans (fillPages_update (compactedLoop_ne_nil _ _)), hblkaddr⟩

/-- **`write_compacted_summaries`** fills the pages of the stream from `blkaddr` on. -/
lemma writeCompactedSummaries_eq (pages : ℕ → Area) (blkaddr : ℕ) :
    (writeCompactedSummaries a segs pages blkaddr).pages
        = fillPages pages blkaddr (compactedPages a segs)
      ∧ (writeCompactedSummaries a segs pages blkaddr).blkaddr
        = blkaddr + (compactedPages a segs).length := by
  obtain ⟨hpages, hblkaddr⟩ := (foldl_summaryEntry (streamEntries a segs)).2
    (SummaryWriter.first segs pages blkaddr) blkaddr
    [⟨0, 507, (segs 0).journal⟩, ⟨507, 507, (segs 2).journal⟩]
    ⟨rfl, rfl, Function.update_self ..⟩
  exact ⟨hpages.trans (fillPages_update (compactedLoop_ne_nil _ _)), hblkaddr⟩

/-- **The rest of the stream in NVM**, at the beginning of a block and inside. -/
lemma foldl_bnvmSummaryEntry (es : List Area) :
    (∀ (nvm : Area) (kaddr : ℕ),
      (es.foldl BnvmSummaryWriter.entry ⟨nvm, kaddr, 0⟩).nvm
        = overlay nvm (writePages blockSize false kaddr (compactedLoop none es))) ∧
    ∀ (nvm : Area) (kaddr written : ℕ) (pg : List Patch),
      (es.foldl BnvmSummaryWriter.entry
          ⟨overlay nvm (pg.map (Patch.shift kaddr)), kaddr, written⟩).nvm
        = overlay nvm (writePages blockSize false kaddr
            (compactedLoop (some (pg, written)) es)) := by
  induction es with
  | nil =>
      refine ⟨fun nvm kaddr => rfl, fun nvm kaddr written pg => ?_⟩
      simp only [List.foldl_nil, compactedLoop, writePages, Bool.false_eq_true, if_false,
        List.nil_append, List.append_nil]
  | cons e es ih =>
      obtain ⟨ihnone, ihsome⟩ := ih
      have hopen : ∀ (nvm : Area) (kaddr written : ℕ) (pg : List Patch),
          ((e :: es).foldl BnvmSummaryWriter.entry
              ⟨overlay nvm (pg.map (Patch.shift kaddr)), kaddr, written⟩).nvm
            = overlay nvm (writePages blockSize false kaddr
                (compactedLoop (some (pg, written)) (e :: es))) := by
        intro nvm kaddr written pg
        -- the store of the entry, as a patch of its page
        have hput : Patch.apply (overlay nvm (pg.map (Patch.shift kaddr))) ⟨kaddr + written, 7, e⟩
            = overlay nvm ((pg ++ [(⟨written, 7, e⟩ : Patch)]).map (Patch.shift kaddr)) := by
          rw [List.map_append, overlay_append]
          rfl
        rw [List.foldl_cons, compactedLoop_some_cons, BnvmSummaryWriter.entry, hput]
        by_cases hroom : written + 7 + 7 ≤ blockSize - 5
        · rw [if_pos hroom, if_pos hroom]
          exact ihsome nvm kaddr (written + 7) (pg ++ [⟨written, 7, e⟩])
        · rw [if_neg hroom, if_neg hroom, ihnone]
          simp only [writePages, Bool.false_eq_true, if_false, List.nil_append, overlay_append]
      exact ⟨fun nvm kaddr => hopen nvm kaddr 0 [], hopen⟩

/-- **`bnvm_write_compacted_summaries`** stores the same patches in NVM. -/
lemma bnvmWriteCompactedSummaries_eq (nvm : Area) (dst : ℕ) :
    bnvmWriteCompactedSummaries a segs nvm dst
      = overlay nvm (writePages blockSize false dst (compactedPages a segs)) :=
  (foldl_bnvmSummaryEntry (streamEntries a segs)).2 nvm dst (507 + 507)
    [⟨0, 507, (segs 0).journal⟩, ⟨507, 507, (segs 2).journal⟩]

/-! ## Where an entry stands -/

/-- The position behind an entry: in the same block, if another entry fits in front of the footer,
or at the beginning of the next one. -/
def SumPos.next (pos : ℕ × ℕ) : ℕ × ℕ :=
  if pos.2 + 7 + 7 ≤ blockSize - 5 then (pos.1, pos.2 + 7) else (pos.1 + 1, 0)

/-- **No entry is split**: wherever the rule leads, an entry fits in front of the footer. -/
lemma SumPos.next_fits {pos : ℕ × ℕ} (h : pos.2 + 7 ≤ blockSize - 5) (n : ℕ) :
    (SumPos.next^[n] pos).2 + 7 ≤ blockSize - 5 := by
  induction n generalizing pos with
  | zero => exact h
  | succ n ih =>
      rw [Function.iterate_succ_apply]
      apply ih
      unfold SumPos.next
      split
      · next hroom => exact hroom
      · show 0 + 7 ≤ blockSize - 5
        decide

/-- The page that is being filled only gets patches further behind. -/
lemma compactedLoop_head (pg : List Patch) (written : ℕ) (es : List Area) :
    ∃ tail rest, compactedLoop (some (pg, written)) es = (pg ++ tail) :: rest
      ∧ ∀ q ∈ tail, written ≤ q.off := by
  induction es generalizing pg written with
  | nil =>
      refine ⟨[], [], by rw [List.append_nil]; rfl, ?_⟩
      intro q hq
      exact absurd hq List.not_mem_nil
  | cons e es ih =>
      rw [compactedLoop_some_cons]
      by_cases hroom : written + 7 + 7 ≤ blockSize - 5
      · rw [if_pos hroom]
        obtain ⟨tail, rest, hloop, htail⟩ := ih (pg ++ [⟨written, 7, e⟩]) (written + 7)
        refine ⟨⟨written, 7, e⟩ :: tail, rest, ?_, ?_⟩
        · rw [hloop, List.append_assoc]
          rfl
        · intro q hq
          rcases List.mem_cons.mp hq with rfl | hq
          · exact le_rfl
          · have := htail q hq
            omega
      · rw [if_neg hroom]
        refine ⟨[⟨written, 7, e⟩], compactedLoop none es, rfl, ?_⟩
        intro q hq
        rw [List.mem_singleton.mp hq]

/-- The bytes that the patches at the end of a page leave alone. -/
lemma overlay_append_low {bg : Area} {tail : List Patch} {x written : ℕ}
    (htail : ∀ q ∈ tail, written ≤ q.off) (hx : x < written) :
    overlay bg (pg ++ tail) x = overlay bg pg x := by
  rw [overlay_append]
  apply overlay_of_not_covered
  rintro ⟨q, hq, hcov⟩
  have hle := htail q hq
  have hge := hcov.1
  omega

/-- The blocks `read b`, `read (b + 1)`, … are these pages, over whatever they held. -/
def ReadsPages (read bg : ℕ → Area) (b : ℕ) (pgs : List (List Patch)) : Prop :=
  ∀ (i : ℕ) (hi : i < pgs.length), ∀ j < blockSize, read (b + i) j = overlay (bg i) pgs[i] j

lemma ReadsPages.tail {read bg : ℕ → Area} {pgs : List (List Patch)}
    (h : ReadsPages read bg b (pg :: pgs)) :
    ReadsPages read (fun i => bg (i + 1)) (b + 1) pgs := by
  intro i hi j hj
  have hnext := h (i + 1) (Nat.succ_lt_succ hi) j hj
  rwa [List.getElem_cons_succ, Nat.add_comm i 1, ← Nat.add_assoc, Nat.add_comm 1 i] at hnext

/-- **Entry `n` of the stream stands `n` steps of the rule behind the first.** -/
lemma compactedLoop_read (read : ℕ → Area) (es : List Area) :
    (∀ (b : ℕ) (bg : ℕ → Area), ReadsPages read bg b (compactedLoop none es) →
      ∀ (n : ℕ) (hn : n < es.length), ∀ k < 7,
        read (SumPos.next^[n] (b, 0)).1 ((SumPos.next^[n] (b, 0)).2 + k) = es[n] k) ∧
    ∀ (b : ℕ) (bg : ℕ → Area) (pg : List Patch) (written : ℕ), written + 7 ≤ blockSize - 5 →
      ReadsPages read bg b (compactedLoop (some (pg, written)) es) →
      ∀ (n : ℕ) (hn : n < es.length), ∀ k < 7,
        read (SumPos.next^[n] (b, written)).1 ((SumPos.next^[n] (b, written)).2 + k)
          = es[n] k := by
  induction es with
  | nil =>
      exact ⟨fun _ _ _ n hn => absurd hn (Nat.not_lt_zero n),
        fun _ _ _ _ _ _ n hn => absurd hn (Nat.not_lt_zero n)⟩
  | cons e es ih =>
      obtain ⟨ihnone, ihsome⟩ := ih
      have hopen : ∀ (b : ℕ) (bg : ℕ → Area) (pg : List Patch) (written : ℕ),
          written + 7 ≤ blockSize - 5 →
          ReadsPages read bg b (compactedLoop (some (pg, written)) (e :: es)) →
          ∀ (n : ℕ) (hn : n < (e :: es).length), ∀ k < 7,
            read (SumPos.next^[n] (b, written)).1 ((SumPos.next^[n] (b, written)).2 + k)
              = (e :: es)[n] k := by
        intro b bg pg written hfits hread n hn k hk
        cases n with
        | zero =>
            -- nothing behind the entry reaches back into it
            obtain ⟨tail, rest, hloop, htail⟩ : ∃ tail rest,
                compactedLoop (some (pg, written)) (e :: es)
                  = (pg ++ [⟨written, 7, e⟩] ++ tail) :: rest ∧ ∀ q ∈ tail, written + 7 ≤ q.off := by
              rw [compactedLoop_some_cons]
              by_cases hroom : written + 7 + 7 ≤ blockSize - 5
              · rw [if_pos hroom]
                exact compactedLoop_head _ _ es
              · rw [if_neg hroom]
                refine ⟨[], _, by rw [List.append_nil], ?_⟩
                intro q hq
                exact absurd hq List.not_mem_nil
            rw [hloop] at hread
            have hbyte := hread 0 (Nat.succ_pos _) (written + k) (by omega)
            rw [List.getElem_cons_zero, overlay_append_low htail (by omega), overlay_append,
              overlay_cons, overlay_nil, Patch.apply_of_covers ⟨by simp, by simpa using hk⟩] at hbyte
            simpa using hbyte
        | succ n =>
            rw [Function.iterate_succ_apply, List.getElem_cons_succ]
            rw [compactedLoop_some_cons] at hread
            by_cases hroom : written + 7 + 7 ≤ blockSize - 5
            · rw [if_pos hroom] at hread
              rw [SumPos.next, if_pos hroom]
              exact ihsome b bg _ (written + 7) hroom hread n _ k hk
            · rw [if_neg hroom] at hread
              rw [SumPos.next, if_neg hroom]
              exact ihnone (b + 1) _ hread.tail n _ k hk
      exact ⟨fun b bg hread => hopen b bg [] 0 (by decide) hread, hopen⟩

/-! ## The readers -/

/-- The loop over one log follows the rule and stores what it finds. -/
lemma readLoop_entries (read : ℕ → Area) (n : ℕ) :
    ∀ (j : ℕ) (pos : ℕ × ℕ) (entries : Area),
      (readLoop read n j pos entries).2 = SumPos.next^[n] pos
        ∧ (∀ i < n, ∀ k < 7, (readLoop read n j pos entries).1 (7 * (j + i) + k)
            = read (SumPos.next^[i] pos).1 ((SumPos.next^[i] pos).2 + k))
        ∧ ∀ x < 7 * j, (readLoop read n j pos entries).1 x = entries x := by
  induction n with
  | zero =>
      intro j pos entries
      exact ⟨rfl, fun i hi => absurd hi (Nat.not_lt_zero i), fun x _ => rfl⟩
  | succ n ih =>
      rintro j ⟨blk, offset⟩ entries
      have hstep : readLoop read (n + 1) j (blk, offset) entries
          = readLoop read n (j + 1) (SumPos.next (blk, offset))
              (Patch.apply entries ⟨7 * j, 7, fun k => read blk (offset + k)⟩) := by
        rw [readLoop, SumPos.next]
        split <;> rfl
      obtain ⟨hpos, hread, hlow⟩ := ih (j + 1) (SumPos.next (blk, offset))
        (Patch.apply entries ⟨7 * j, 7, fun k => read blk (offset + k)⟩)
      rw [hstep]
      refine ⟨hpos, ?_, ?_⟩
      · intro i hi k hk
        cases i with
        | zero =>
            rw [Nat.add_zero, hlow _ (by omega),
              Patch.apply_of_covers ⟨by simp, by simpa using hk⟩, Function.iterate_zero_apply]
            simp
        | succ i =>
            rw [show j + (i + 1) = j + 1 + i by omega, Function.iterate_succ_apply]
            exact hread i (Nat.succ_lt_succ_iff.mp hi) k hk
      · intro x hx
        rw [hlow x (by omega), Patch.apply_of_not_covers]
        rintro ⟨hge, -⟩
        exact absurd hx (Nat.not_lt.mpr hge)

/-- Block `b` of the NVM from `kaddr` on. -/
def bnvmBlock (nvm : Area) (kaddr b : ℕ) : Area := fun x => nvm (kaddr + blockSize * b + x)

/-- The loop that walks through NVM is the loop that reads block by block. -/
lemma bnvmReadLoop_eq (nvm : Area) (kaddr n : ℕ) :
    ∀ (j blk offset : ℕ) (entries : Area),
      bnvmReadLoop nvm n j (kaddr + blockSize * blk, offset) entries
        = ((readLoop (bnvmBlock nvm kaddr) n j (blk, offset) entries).1,
            kaddr + blockSize * (readLoop (bnvmBlock nvm kaddr) n j (blk, offset) entries).2.1,
            (readLoop (bnvmBlock nvm kaddr) n j (blk, offset) entries).2.2) := by
  induction n with
  | zero =>
      intro j blk offset entries
      rfl
  | succ n ih =>
      intro j blk offset entries
      have hbytes : (fun k => nvm (kaddr + blockSize * blk + offset + k))
          = fun k => bnvmBlock nvm kaddr blk (offset + k) := by
        funext k
        rw [bnvmBlock, Nat.add_assoc (kaddr + blockSize * blk)]
      rw [bnvmReadLoop, readLoop, hbytes]
      by_cases hroom : offset + 7 + 7 ≤ blockSize - 5
      · rw [if_pos hroom, if_pos hroom]
        exact ih (j + 1) blk (offset + 7) _
      · rw [if_neg hroom, if_neg hroom, Nat.add_assoc kaddr, ← Nat.mul_succ]
        exact ih (j + 1) (blk + 1) 0 _

/-- **The two readers are the same function** of the blocks they read. -/
lemma bnvmReadCompactedSummaries_eq (nvm : Area) (kaddr : ℕ) (old : DataSegs) :
    bnvmReadCompactedSummaries a nvm kaddr old
      = readCompactedSummaries a (bnvmBlock nvm kaddr) old := by
  have hstart : kaddr = kaddr + blockSize * 0 := by rw [Nat.mul_zero, Nat.add_zero]
  have hnat : (fun k => nvm (kaddr + k)) = bnvmBlock nvm kaddr 0 := by
    funext k
    rw [bnvmBlock, Nat.mul_zero, Nat.add_zero]
  have hsit : (fun k => nvm (kaddr + 507 + k)) = fun k => bnvmBlock nvm kaddr 0 (507 + k) := by
    funext k
    simp only [bnvmBlock, Nat.mul_zero, Nat.add_zero, Nat.add_assoc]
  have hhot := bnvmReadLoop_eq nvm kaddr (readBlkoff a 0) 0 0 (2 * 507) (old 0).entries
  rw [← hstart] at hhot
  unfold bnvmReadCompactedSummaries readCompactedSummaries
  simp only [hhot, bnvmReadLoop_eq, hnat, hsit]

/-! ## The round trip -/

/-- The header records the allocation types and offsets of the logs. -/
structure Recorded (a : Area) (segs : DataSegs) : Prop where
  allocType : ∀ i : Fin 3, allocType a i = (segs i).allocType
  blkoff : ∀ i : Fin 3, curDataBlkoff a i = (segs i).nextBlkoff

/-- What a reader is to restore: both journals, and of each log all entries (`SSR`) or those below
`next_blkoff` (`LFS`). -/
structure Restored (segs got : DataSegs) : Prop where
  natJournal : ∀ k < 507, (got 0).journal k = (segs 0).journal k
  sitJournal : ∀ k < 507, (got 2).journal k = (segs 2).journal k
  entries : ∀ i, ∀ j < (if (segs i).allocType = ssr then blocksPerSeg else (segs i).nextBlkoff),
    ∀ k < 7, (got i).entries (7 * j + k) = (segs i).entries (7 * j + k)
  allocType : ∀ i, (got i).allocType = (segs i).allocType
  nextBlkoff : ∀ i, (got i).nextBlkoff = (segs i).nextBlkoff

lemma Recorded.readBlkoff_eq (h : Recorded a segs) (i : Fin 3) :
    readBlkoff a i = writeBlkoff a segs i := by
  rw [readBlkoff, writeBlkoff, h.blkoff]

lemma segEntries_length (i : Fin 3) : (segEntries a segs i).length = writeBlkoff a segs i := by
  rw [segEntries, List.length_map, List.length_range]

lemma segEntries_get {i : Fin 3} {j : ℕ} (hj : j < (segEntries a segs i).length) (k : ℕ) :
    (segEntries a segs i)[j] k = (segs i).entries (7 * j + k) := by
  have hget : (segEntries a segs i)[j] = fun k => (segs i).entries (7 * j + k) := by
    simp only [segEntries, List.getElem_map, List.getElem_range]
  rw [hget]

/-- The two journals do not overlap. -/
lemma journals_read {bg nat sit : Area} {k : ℕ} (hk : k < 507) :
    overlay bg [⟨0, 507, nat⟩, ⟨507, 507, sit⟩] k = nat k
      ∧ overlay bg [⟨0, 507, nat⟩, ⟨507, 507, sit⟩] (507 + k) = sit k := by
  simp only [overlay_cons, overlay_nil]
  constructor
  · rw [Patch.apply_of_not_covers fun hcov => absurd hk (Nat.not_lt.mpr hcov.1),
      Patch.apply_of_covers ⟨Nat.zero_le k, by simpa using hk⟩]
    rfl
  · rw [Patch.apply_of_covers ⟨Nat.le_add_right 507 k, by simp only; omega⟩, Nat.add_sub_cancel_left]

/-- **What stands in the pages is restored.** -/
lemma restored_of_pages {read bg : ℕ → Area} (hrec : Recorded a segs)
    (hread : ReadsPages read bg 0 (compactedPages a segs)) (old : DataSegs) :
    Restored segs (readCompactedSummaries a read old) := by
  obtain ⟨tail, rest, hpages, htail⟩ := compactedLoop_head
    [⟨0, 507, (segs 0).journal⟩, ⟨507, 507, (segs 2).journal⟩] (507 + 507) (streamEntries a segs)
  have hfirst : ∀ x < 507 + 507, read 0 x
      = overlay (bg 0) [⟨0, 507, (segs 0).journal⟩, ⟨507, 507, (segs 2).journal⟩] x := by
    intro x hx
    rw [compactedPages, hpages] at hread
    have hbyte := hread 0 (Nat.succ_pos _) x (hx.trans (by decide))
    rwa [List.getElem_cons_zero, overlay_append_low htail hx] at hbyte
  -- entry `j` of a log, when `n` entries stand in front of its own
  have hlog : ∀ (i : Fin 3) (before after : List Area),
      streamEntries a segs = before ++ (segEntries a segs i ++ after) → ∀ entries : Area,
      ∀ j < writeBlkoff a segs i, ∀ k < 7,
        (readLoop read (writeBlkoff a segs i) 0 (SumPos.next^[before.length] (0, 2 * 507))
          entries).1 (7 * j + k) = (segs i).entries (7 * j + k) := by
    intro i before after hstream entries j hj k hk
    have hin : j < (segEntries a segs i).length := by rwa [segEntries_length]
    have hn : j + before.length < (streamEntries a segs).length := by
      rw [hstream, List.length_append, List.length_append]
      omega
    have hloop := (readLoop_entries read (writeBlkoff a segs i) 0
      (SumPos.next^[before.length] (0, 2 * 507)) entries).2.1 j hj k hk
    have hbyte := (compactedLoop_read read (streamEntries a segs)).2 0 bg _ _ (by decide) hread
      (j + before.length) hn k hk
    have hget : (streamEntries a segs)[j + before.length] = (segEntries a segs i)[j] := by
      simp only [hstream]
      rw [List.getElem_append_right (Nat.le_add_left _ _), List.getElem_append_left (by omega)]
      simp only [Nat.add_sub_cancel]
    rw [Nat.zero_add] at hloop
    rw [hloop, ← Function.iterate_add_apply, hbyte, hget, segEntries_get]
  have hhot := (readLoop_entries read (writeBlkoff a segs 0) 0 (0, 2 * 507) (old 0).entries).1
  have hwarm := (readLoop_entries read (writeBlkoff a segs 1) 0
    (SumPos.next^[writeBlkoff a segs 0] (0, 2 * 507)) (old 1).entries).1
  have hcount : ∀ i, (if (segs i).allocType = ssr then blocksPerSeg else (segs i).nextBlkoff)
      = writeBlkoff a segs i := by
    intro i
    rw [writeBlkoff, hrec.allocType]
  refine ⟨?_, ?_, ?_, hrec.allocType, hrec.blkoff⟩
  · intro k hk
    show Patch.apply (old 0).journal ⟨0, 507, read 0⟩ k = _
    rw [Patch.apply_of_covers ⟨Nat.zero_le k, by simpa using hk⟩]
    exact (hfirst k (by omega)).trans (journals_read hk).1
  · intro k hk
    show Patch.apply (old 2).journal ⟨0, 507, fun k => read 0 (507 + k)⟩ k = _
    rw [Patch.apply_of_covers ⟨Nat.zero_le k, by simpa using hk⟩]
    exact (hfirst (507 + k) (by omega)).trans (journals_read hk).2
  · intro i j hj k hk
    rw [hcount] at hj
    unfold readCompactedSummaries
    simp only [hrec.readBlkoff_eq, hhot, hwarm]
    match i with
    | 0 =>
        exact hlog 0 [] (segEntries a segs 1 ++ segEntries a segs 2)
          (by rw [streamEntries, List.append_assoc]; rfl) (old 0).entries j hj k hk
    | 1 =>
        have h := hlog 1 (segEntries a segs 0) (segEntries a segs 2)
          (by rw [streamEntries, List.append_assoc]) (old 1).entries j hj k hk
        rw [segEntries_length] at h
        exact h
    | 2 =>
        have h := hlog 2 (segEntries a segs 0 ++ segEntries a segs 1) []
          (by rw [streamEntries, List.append_nil]) (old 2).entries j hj k hk
        rw [List.length_append, segEntries_length, segEntries_length, Nat.add_comm,
          Function.iterate_add_apply] at h
        exact h

/-- The stream fills the pages that were counted for it. -/
lemma compactedPages_length (hfits : npagesForSummaryFlush a segs < 3) :
    (compactedPages a segs).length = npagesForSummaryFlush a segs := by
  have hcount : (streamEntries a segs).length
      = writeBlkoff a segs 0 + writeBlkoff a segs 1 + writeBlkoff a segs 2 := by
    simp only [streamEntries, List.length_append, segEntries_length]
  have hnpages : npagesForSummaryFlush a segs
      = if (streamEntries a segs).length ≤ 439 then 1
        else if (streamEntries a segs).length - 439 ≤ 584 then 2 else 3 := by
    rw [hcount]
    rfl
  rw [compactedPages, (compactedLoop_length _).2 _ _ (by decide)]
  rw [hnpages] at hfits ⊢
  split_ifs at hfits ⊢ <;> omega

lemma compactedPages_in : InPage blockSize (compactedPages a segs) := by
  refine (compactedLoop_in _).2 _ _ (by decide) ?_
  intro q hq
  simp only [List.mem_cons, List.not_mem_nil, or_false] at hq
  rcases hq with rfl | rfl <;> simp [blockSize]

/-- The data logs of a checkpoint. -/
def dataSegs {l : CpLayout} (inp : CpInput l) : DataSegs := fun i =>
  { entries := (inp.curseg (i.castLE (by decide))).entries
    journal := (inp.curseg (i.castLE (by decide))).journal
    allocType := (inp.curseg (i.castLE (by decide))).allocType
    nextBlkoff := (inp.curseg (i.castLE (by decide))).nextBlkoff }

/-- The pages are those of a checkpoint, whose log heads are the logs. -/
lemma compactedSummaries_eq {l : CpLayout} (inp : CpInput l) :
    compactedSummaries (allocType a) inp = compactedPages a (dataSegs inp) := rfl

/-- **The blocks of a checkpoint's compacted summaries restore its logs.** -/
theorem checkpoint_summaries_restored {l : CpLayout} {inp : CpInput l} {read bg : ℕ → Area}
    (hrec : Recorded a (dataSegs inp))
    (hread : ReadsPages read bg 0 (compactedSummaries (allocType a) inp)) (old : DataSegs) :
    Restored (dataSegs inp) (readCompactedSummaries a read old) := by
  rw [compactedSummaries_eq] at hread
  exact restored_of_pages hrec hread old

/-- The blocks after `write_compacted_summaries`. -/
lemma readsPages_written (pages : ℕ → Area) (blkaddr : ℕ) :
    ReadsPages (fun b => (writeCompactedSummaries a segs pages blkaddr).pages (blkaddr + b))
      (fun _ _ => 0) 0 (compactedPages a segs) := by
  intro i hi j _
  show (writeCompactedSummaries a segs pages blkaddr).pages (blkaddr + (0 + i)) j
    = overlay (fun _ => 0) _ j
  rw [Nat.zero_add, (writeCompactedSummaries_eq pages blkaddr).1, fillPages_get hi]

/-- The blocks of NVM after `bnvm_write_compacted_summaries`. -/
lemma readsPages_bnvmWritten (nvm : Area) (dst : ℕ) :
    ReadsPages (bnvmBlock (bnvmWriteCompactedSummaries a segs nvm dst) dst) (bnvmBlock nvm dst) 0
      (compactedPages a segs) := by
  intro i hi j hj
  rw [Nat.zero_add, bnvmBlock, bnvmWriteCompactedSummaries_eq,
    overlay_writePages_block compactedPages_in hi hj]
  simp only [Bool.false_eq_true, false_and, if_false]
  rfl

/-- The bytes of a page that no journal and no entry is stored in are zero in NVM. -/
abbrev TailsZero (a : Area) (segs : DataSegs) (nvm : Area) (dst : ℕ) : Prop :=
  GapsZero blockSize nvm dst (compactedPages a segs)

/-- The blocks of the two writers agree just if NVM was cleared where nothing is stored. -/
lemma same_blocks_iff (pages : ℕ → Area) (blkaddr : ℕ) (nvm : Area) (dst : ℕ) :
    (∀ b < (compactedPages a segs).length, ∀ j < blockSize,
        bnvmBlock (bnvmWriteCompactedSummaries a segs nvm dst) dst b j
          = (writeCompactedSummaries a segs pages blkaddr).pages (blkaddr + b) j)
      ↔ TailsZero a segs nvm dst := by
  rw [TailsZero, ← overlay_writePages_eq_iff (a := fun _ => 0) compactedPages_in]
  have hclear : ∀ (b : ℕ) (_ : b < (compactedPages a segs).length), ∀ j < blockSize,
      overlay (fun _ => 0) (writePages blockSize true dst (compactedPages a segs))
          (dst + blockSize * b + j)
        = (writeCompactedSummaries a segs pages blkaddr).pages (blkaddr + b) j := by
    intro b hb j hj
    rw [(writeCompactedSummaries_eq pages blkaddr).1, fillPages_get hb,
      overlay_writePages_block compactedPages_in hb hj]
    congr 1
    funext y
    simp
  constructor
  · intro h x hlo hhi
    obtain ⟨y, rfl⟩ : ∃ y, x = dst + y := ⟨x - dst, by omega⟩
    have hb : y / blockSize < (compactedPages a segs).length := by
      rw [Nat.div_lt_iff_lt_mul (by decide), Nat.mul_comm]
      omega
    have hj : y % blockSize < blockSize := Nat.mod_lt y (by decide)
    have hsplit : dst + y = dst + blockSize * (y / blockSize) + y % blockSize := by
      rw [Nat.add_assoc, Nat.div_add_mod]
    have hbyte := h _ hb _ hj
    rw [hsplit, hclear _ hb _ hj, ← hbyte, bnvmBlock, bnvmWriteCompactedSummaries_eq]
  · intro h b hb j hj
    have hin : blockSize * b + j < blockSize * (compactedPages a segs).length := by
      have hle := Nat.mul_le_mul_left blockSize (Nat.succ_le_of_lt hb)
      rw [Nat.mul_succ] at hle
      omega
    rw [← hclear b hb j hj, h _ (by omega) (by omega), bnvmBlock, bnvmWriteCompactedSummaries_eq]

/-- **Compacted summaries survive**, in both modes: what a writer has written its reader restores,
from exactly the blocks that were counted, and no entry is split.  The blocks are the same in both
modes just if the tails of the blocks in NVM were zero. -/
theorem compacted_round_trip (a : Area) (segs : DataSegs) (hrec : Recorded a segs)
    (hfits : npagesForSummaryFlush a segs < 3) (old : DataSegs) (pages : ℕ → Area) (blkaddr : ℕ)
    (nvm : Area) (dst : ℕ) :
    let w := writeCompactedSummaries a segs pages blkaddr
    let nvm' := bnvmWriteCompactedSummaries a segs nvm dst
    let npages := npagesForSummaryFlush a segs
    Restored segs (readCompactedSummaries a (fun b => w.pages (blkaddr + b)) old)
      ∧ w.blkaddr = blkaddr + npages
      ∧ (∀ b, b < blkaddr ∨ blkaddr + npages ≤ b → w.pages b = pages b)
      ∧ (∀ n, (SumPos.next^[n] (0, 2 * 507)).2 + 7 ≤ blockSize - 5)
      ∧ Restored segs (bnvmReadCompactedSummaries a nvm' dst old)
      ∧ (∀ x, x < dst ∨ dst + blockSize * npages ≤ x → nvm' x = nvm x)
      ∧ ((∀ b < npages, ∀ j < blockSize,
          nvm' (dst + blockSize * b + j) = w.pages (blkaddr + b) j) ↔ TailsZero a segs nvm dst) := by
  have hlen := @compactedPages_length a segs hfits
  refine ⟨restored_of_pages hrec (readsPages_written pages blkaddr) old, ?_, ?_,
    SumPos.next_fits (by decide), ?_, ?_, ?_⟩
  · rw [(writeCompactedSummaries_eq pages blkaddr).2, hlen]
  · intro b hb
    rw [(writeCompactedSummaries_eq pages blkaddr).1]
    apply fillPages_of_not_mem
    rwa [hlen]
  · rw [bnvmReadCompactedSummaries_eq]
    exact restored_of_pages hrec (readsPages_bnvmWritten nvm dst) old
  · intro x hx
    rw [bnvmWriteCompactedSummaries_eq]
    apply overlay_of_not_covered
    apply writePages_not_covered compactedPages_in
    rwa [hlen]
  · rw [← same_blocks_iff pages blkaddr nvm dst, hlen]
    rfl

/-! ## Entries over two blocks -/

/-- The hot data log is filled out of order, so all its entries count; the others are not. -/
def ssrSegs : DataSegs :=
  ![⟨fun x => BitVec.ofNat 8 (x % 251 + 1), fun x => BitVec.ofNat 8 (x % 13 + 1), ssr, 17⟩,
    ⟨fun x => BitVec.ofNat 8 (x % 241 + 1), fun _ => 0, 0, 20⟩,
    ⟨fun x => BitVec.ofNat 8 (x % 239 + 1), fun x => BitVec.ofNat 8 (x % 11 + 1), 0, 30⟩]

/-- The header with the offsets and the allocation types of these logs. -/
def ssrHeader : Area := fun x =>
  if x = 116 then 17 else if x = 118 then 20 else if x = 120 then 30
  else if x = 176 then ssr else 0

lemma ssrSegs_recorded : Recorded ssrHeader ssrSegs := by
  constructor <;> decide

/-- The first block has room for 439 entries of the hot data log, the second one gets the other 73
and those of the other logs. -/
theorem compacted_round_trip_ssr :
    npagesForSummaryFlush ssrHeader ssrSegs = 2 ∧ SumPos.next^[439] (0, 2 * 507) = (1, 0)
      ∧ Restored ssrSegs (readCompactedSummaries ssrHeader (fun b =>
          (writeCompactedSummaries ssrHeader ssrSegs (fun _ _ => 9) 514).pages (514 + b))
            (fun _ => ⟨fun _ => 0, fun _ => 0, 0, 0⟩))
      ∧ (writeCompactedSummaries ssrHeader ssrSegs (fun _ _ => 9) 514).blkaddr = 516
      ∧ Restored ssrSegs (bnvmReadCompactedSummaries ssrHeader
          (bnvmWriteCompactedSummaries ssrHeader ssrSegs (fun _ => 9) 8192) 8192
            (fun _ => ⟨fun _ => 0, fun _ => 0, 0, 0⟩)) := by
  have htrip := compacted_round_trip ssrHeader ssrSegs ssrSegs_recorded (by decide)
    (fun _ => ⟨fun _ => 0, fun _ => 0, 0, 0⟩) (fun _ _ => 9) 514 (fun _ => 9) 8192
  exact ⟨by decide, by decide +kernel, htrip.1, htrip.2.1, htrip.2.2.2.2.1⟩

/-- **A block of NVM that held something else keeps it** behind the last entry, where the page on
the SSD is zero: here in the four bytes in front of the footer of the first block. -/
theorem bnvm_tail_kept :
    Recorded ssrHeader ssrSegs ∧ npagesForSummaryFlush ssrHeader ssrSegs < 3
      ∧ ¬ ∀ b < npagesForSummaryFlush ssrHeader ssrSegs, ∀ j < blockSize,
        bnvmWriteCompactedSummaries ssrHeader ssrSegs (fun _ => 9) 8192 (8192 + blockSize * b + j)
          = (writeCompactedSummaries ssrHeader ssrSegs (fun _ _ => 9) 514).pages (514 + b) j
    := by
  refine ⟨ssrSegs_recorded, by decide, fun hsame => ?_⟩
  have hbyte := hsame 0 (by decide) 4087 (by decide)
  have hkept : bnvmWriteCompactedSummaries ssrHeader ssrSegs (fun _ => 9) 8192
      (8192 + blockSize * 0 + 4087) = 9 := by decide +kernel
  have hzero : (writeCompactedSummaries ssrHeader ssrSegs (fun _ _ => 9) 514).pages (514 + 0) 4087
      = 0 := by decide +kernel
  rw [hkept, hzero] at hbyte
  exact absurd hbyte (by decide)

end Hoit.Summaries
