import HoitF2fs.Dir.Dentries

/-!
# Listing a directory

`readdir` gives the entries of a directory to a consumer that may stop it at any entry; the next
call goes on where `ctx->pos` says, a block and a slot of it in one number.

* `f2fsReaddir`, `f2fsReadInlineDir` — one call; `listing` — one call after the other.
* `Complete` — **however the consumer cuts the listing, it gets each entry once, in order, and then
  nothing more.**
* `listing_of_calls` — for that, each call has to give out the first part of what remains from its
  position, and leave a position from which the rest remains.

In a directory of blocks all positions are `unsigned int`, and from block 20069941 on they wrap.
Such a block is entered in the middle, and the position behind the last block leads back to one of
the first, so that the listing starts over.  `readdir_complete_iff` is exact: what counts is the
position where the listing ends, and that no entry comes behind it.
-/

namespace Hoit.Dir

open Bitmap ByteStore

/-! ## The calls -/

/-- Names are given out as they are. -/
def plainName (_ : ℕ) (name : List Byte) : Option (List Byte) := some name

structure ReaddirResult where
  ctx : DirContext
  /-- The entries given out, with the number of the block. -/
  emitted : List (ℕ × Emit)

/-- `f2fs_read_inline_dir`. -/
def f2fsReadInlineDir (maxInlineData : ℕ) (inlineDentry : Area) (ctx : DirContext) :
    Option ReaddirResult :=
  let d := makeDentryPtrInline maxInlineData inlineDentry
  if ctx.pos = d.max then some ⟨ctx, []⟩
  else
    (f2fsFillDentries ctx d 0 plainName).map fun r =>
      ⟨if r.ret = .done then { r.ctx with pos := d.max } else r.ctx, r.emitted.map (0, ·)⟩

/-- `n * NR_DENTRY_IN_BLOCK`, on `unsigned int`. -/
def blockPos (n : ℕ) : ℕ := n * nrDentryInBlock % 2 ^ 32

/-- The loop of `f2fs_readdir`, with the number of blocks from `n` on.  A block that does not exist
is passed over. -/
def readdirLoop (block : ℕ → Option Area) : ℕ → ℕ → DirContext → Option ReaddirResult
  | 0, _, ctx => some ⟨ctx, []⟩
  | k + 1, n, ctx =>
      match block n with
      | none => readdirLoop block k (n + 1) { ctx with pos := blockPos (n + 1) }
      | some t =>
          (f2fsFillDentries ctx (makeDentryPtrBlock t) (blockPos n) plainName).bind fun r =>
            let emitted := r.emitted.map (n, ·)
            if r.ret = .done then
              (readdirLoop block k (n + 1) { r.ctx with pos := blockPos (n + 1) }).map fun x =>
                { x with emitted := emitted ++ x.emitted }
            else some ⟨r.ctx, emitted⟩

/-- A directory that is not encrypted. -/
inductive Directory where
  | inline (maxInlineData : ℕ) (inlineDentry : Area)
  | regular (npages : ℕ) (block : ℕ → Option Area)

/-- `f2fs_readdir`. -/
def f2fsReaddir : Directory → DirContext → Option ReaddirResult
  | .inline maxInlineData inlineDentry, ctx => f2fsReadInlineDir maxInlineData inlineDentry ctx
  | .regular npages block, ctx =>
      let n := ctx.pos / nrDentryInBlock % 2 ^ 32
      readdirLoop block (npages - n) n ctx

/-- One call after the other from `pos` on; `rooms` says how many entries the consumer takes in
each. -/
def listing (dir : Directory) : ℕ → List ℕ → Option (ℕ × List (ℕ × Emit))
  | pos, [] => some (pos, [])
  | pos, room :: rooms =>
      (f2fsReaddir dir ⟨pos, room⟩).bind fun r =>
        (listing dir r.ctx.pos rooms).map fun x => (x.1, r.emitted ++ x.2)

/-! ## What should be listed -/

/-- The slots with an entry, from `b` on. -/
def DentryPtr.slotsFrom (d : DentryPtr) (b : ℕ) : List ℕ :=
  (List.range' b (d.max - b)).filter fun i => decide (d.HasEntry i)

/-- What is given out for the entry of a slot. -/
def DentryPtr.emit (d : DentryPtr) (i : ℕ) : Emit :=
  ⟨i, d.name (d.nameSlice i), (d.dentry i).ino, f2fsGetDeType (d.dentry i)⟩

/-- An entry has its slots to itself. -/
structure BlockOk (d : DentryPtr) : Prop where
  fits : ∀ i, d.HasEntry i → i + getDentrySlots (d.dentry i).nameLen ≤ d.max
  /-- The slots behind the first one are in use, and have no name of their own. -/
  tail : ∀ i, d.HasEntry i → ∀ j, i < j → j < i + getDentrySlots (d.dentry i).nameLen →
    d.bitmap j = true ∧ (d.dentry j).nameLen = 0

/-- The entries of a block, from slot `b` on. -/
def blockEntries (block : ℕ → Option Area) (n b : ℕ) : List (ℕ × Emit) :=
  match block n with
  | none => []
  | some t =>
      ((makeDentryPtrBlock t).slotsFrom b).map fun i => (n, (makeDentryPtrBlock t).emit i)

/-- **The entries of a directory**, in block and slot order. -/
def Directory.entries : Directory → List (ℕ × Emit)
  | .inline maxInlineData inlineDentry =>
      let d := makeDentryPtrInline maxInlineData inlineDentry
      (d.slotsFrom 0).map fun i => (0, d.emit i)
  | .regular npages block => (List.range npages).flatMap fun n => blockEntries block n 0

/-- A directory of sound blocks.  An inline area is part of an inode, and a file has fewer than
`2 ^ 32` blocks (`max_file_blocks`). -/
def Directory.Ok : Directory → Prop
  | .inline maxInlineData inlineDentry =>
      maxInlineData ≤ 4096 ∧ BlockOk (makeDentryPtrInline maxInlineData inlineDentry)
  | .regular npages block =>
      npages < 2 ^ 32 ∧ ∀ n < npages, ∀ t ∈ block n, BlockOk (makeDentryPtrBlock t)

/-- Whatever the consumer takes in each call, it gets the next entries that there are. -/
def Complete (dir : Directory) : Prop :=
  ∀ rooms : List ℕ, (listing dir 0 rooms).map Prod.snd = some (dir.entries.take rooms.sum)

/-- Where an entry stands in the directory. -/
def entryPos (x : ℕ × Emit) : ℕ := x.1 * nrDentryInBlock + x.2.slot

/-- **The position behind the last block is behind each entry.** -/
def Directory.InReach : Directory → Prop
  | .inline _ _ => True
  | .regular npages block =>
      ∀ x ∈ (Directory.regular npages block).entries, entryPos x < blockPos npages

/-! ## Slots -/

section

variable {d : DentryPtr} {b c i : ℕ}

lemma mem_slotsFrom : i ∈ d.slotsFrom b ↔ b ≤ i ∧ d.HasEntry i := by
  simp only [DentryPtr.slotsFrom, List.mem_filter, List.mem_range'_1, decide_eq_true_eq]
  constructor
  · rintro ⟨⟨hle, -⟩, hi⟩
    exact ⟨hle, hi⟩
  · rintro ⟨hle, hi⟩
    have hlt := hi.1
    exact ⟨by omega, hi⟩

lemma slotsFrom_end (h : d.max ≤ b) : d.slotsFrom b = [] := by
  simp [DentryPtr.slotsFrom, Nat.sub_eq_zero_of_le h]

lemma slotsFrom_step (h : b < d.max) : d.slotsFrom b
    = if d.HasEntry b then b :: d.slotsFrom (b + 1) else d.slotsFrom (b + 1) := by
  obtain ⟨k, hk⟩ : ∃ k, d.max - b = k + 1 := ⟨d.max - b - 1, by omega⟩
  have hk' : d.max - (b + 1) = k := by omega
  simp only [DentryPtr.slotsFrom, hk, hk', List.range'_succ, List.filter_cons, decide_eq_true_eq]

/-- Slots without an entry are passed over. -/
lemma slotsFrom_skip (hbc : b ≤ c) (hnone : ∀ j, b ≤ j → j < c → ¬ d.HasEntry j) :
    d.slotsFrom b = d.slotsFrom c := by
  induction c, hbc using Nat.le_induction with
  | base => rfl
  | succ c hbc ih =>
      rw [ih fun j h1 h2 => hnone j h1 (by omega)]
      by_cases hlt : c < d.max
      · rw [slotsFrom_step hlt, if_neg (hnone c hbc (Nat.lt_succ_self c))]
      · rw [slotsFrom_end (by omega), slotsFrom_end (by omega)]

/-- An entry, and what comes behind its slots. -/
lemma slotsFrom_entry (hok : BlockOk d) (hi : d.HasEntry i) :
    d.slotsFrom i = i :: d.slotsFrom (i + getDentrySlots (d.dentry i).nameLen) := by
  rw [slotsFrom_step hi.1, if_pos hi]
  congr 1
  have hpos := getDentrySlots_pos hi.2.2
  exact slotsFrom_skip (by omega) fun j h1 h2 hj => hj.2.2 (hok.tail i hi j (by omega) h2).2

end

/-! ## One block -/

/-- What `f2fs_fill_dentries` does with a sound block, from slot `b` on. -/
structure Filled (d : DentryPtr) (startPos b : ℕ) (ctx : DirContext) (x : FillResult) : Prop where
  emitted : x.emitted = ((d.slotsFrom b).take ctx.room).map d.emit
  room : x.ctx.room = ctx.room - x.emitted.length
  done : (d.slotsFrom b).length ≤ ctx.room → x.ret = .done
  /-- The consumer has had enough: the position is that of the entry it refused, or of a slot
  before it. -/
  full : ctx.room < (d.slotsFrom b).length → x.ret ≠ .done ∧
    (ctx.pos = (startPos + b) % 2 ^ 32 → ∃ c, x.ctx.pos = (startPos + c) % 2 ^ 32 ∧ b ≤ c ∧
      d.slotsFrom c = (d.slotsFrom b).drop ctx.room)

section

variable {d : DentryPtr} {startPos b c : ℕ} {ctx : DirContext} {x : FillResult}

/-- Slots without an entry make no difference. -/
lemma Filled.skip {ctx' : DirContext} (h : Filled d startPos c ctx' x) (hbc : b ≤ c)
    (hslots : d.slotsFrom b = d.slotsFrom c) (hroom : ctx'.room = ctx.room)
    (hpos : ctx.pos = (startPos + b) % 2 ^ 32 → ctx'.pos = (startPos + c) % 2 ^ 32) :
    Filled d startPos b ctx x := by
  obtain ⟨h1, h2, h3, h4⟩ := h
  rw [hroom] at h1 h2 h3 h4
  rw [← hslots] at h1 h3 h4
  refine ⟨h1, h2, h3, fun hlt => ⟨(h4 hlt).1, fun hp => ?_⟩⟩
  obtain ⟨c', hc', hle, hdrop⟩ := (h4 hlt).2 (hpos hp)
  exact ⟨c', hc', hbc.trans hle, hdrop⟩

lemma Filled.nil (hslots : d.slotsFrom b = []) : Filled d startPos b ctx ⟨.done, ctx, [], []⟩ where
  emitted := by simp [hslots]
  room := by simp
  done := fun _ => rfl
  full := by simp [hslots]

/-- The consumer takes an entry. -/
lemma Filled.cons {i next : ℕ} {name : List Byte} {r : NameSlice}
    (h : Filled d startPos next ⟨(startPos + next) % 2 ^ 32, ctx.room - 1⟩ x) (hroom : ctx.room ≠ 0)
    (hnext : b ≤ next) (hslots : d.slotsFrom b = i :: d.slotsFrom next)
    (hname : name = d.name (d.nameSlice i)) :
    Filled d startPos b ctx
      (x.cons ⟨i, name, (d.dentry i).ino, f2fsGetDeType (d.dentry i)⟩ r) := by
  obtain ⟨h1, h2, h3, h4⟩ := h
  subst hname
  obtain ⟨room, hr⟩ : ∃ room, ctx.room = room + 1 := ⟨ctx.room - 1, by omega⟩
  simp only [hr, Nat.add_sub_cancel] at h1 h2 h3 h4
  refine ⟨?_, ?_, ?_, ?_⟩
  · rw [hslots, hr, List.take_succ_cons, List.map_cons, ← h1]
    rfl
  · simp only [FillResult.cons, h2, hr, List.length_cons]
    omega
  · intro hle
    rw [hslots, hr, List.length_cons] at hle
    exact h3 (by omega)
  · intro hlt
    rw [hslots, hr, List.length_cons] at hlt
    refine ⟨(h4 (by omega)).1, fun _ => ?_⟩
    obtain ⟨c, hc, hle, hdrop⟩ := (h4 (by omega)).2 trivial
    refine ⟨c, hc, by omega, ?_⟩
    rw [hslots, hr, List.drop_succ_cons]
    exact hdrop

lemma fillLoop_spec (hok : BlockOk d) {fuel : ℕ} (hfuel : d.max - b < fuel) :
    ∃ x, fillLoop d startPos plainName fuel b ctx = some x ∧ Filled d startPos b ctx x := by
  induction fuel generalizing b ctx with
  | zero => simp at hfuel
  | succ fuel ih =>
      unfold fillLoop
      by_cases hlt : b < d.max
      · rw [if_pos hlt]
        simp only []
        have hle : b ≤ findNextBit d.bitmap d.max b := le_findNextZeroBit hlt.le
        have hmin : ∀ j, b ≤ j → j < findNextBit d.bitmap d.max b → ¬ d.HasEntry j := by
          intro j h1 h2 hj
          have hclear := findNextBit_min h1 h2
          rw [hj.2.1] at hclear
          simp at hclear
        have hslots := slotsFrom_skip (c := findNextBit d.bitmap d.max b) hle hmin
        by_cases hend : findNextBit d.bitmap d.max b ≥ d.max
        · rw [if_pos hend]
          exact ⟨_, rfl, Filled.nil (hslots.trans (slotsFrom_end hend))⟩
        · rw [if_neg hend]
          have hlt' := not_le.mp hend
          have hbit := findNextBit_set hlt'
          generalize findNextBit d.bitmap d.max b = i at *
          by_cases hlen : (d.dentry i).nameLen = 0
          · simp only [hlen, if_true]
            have hstep : d.slotsFrom i = d.slotsFrom (i + 1) :=
              slotsFrom_skip (Nat.le_succ i) fun j h1 h2 hj => by
                obtain rfl : j = i := by omega
                exact hj.2.2 hlen
            obtain ⟨x, hx, hfilled⟩ := @ih (i + 1)
              { ctx with pos := (startPos + (i + 1)) % 2 ^ 32 } (by omega)
            exact ⟨x, hx, hfilled.skip (by omega) (hslots.trans hstep) rfl fun _ => rfl⟩
          · have hentry : d.HasEntry i := ⟨hlt', hbit, hlen⟩
            have hpos := getDentrySlots_pos hlen
            rw [if_neg hlen]
            simp only [plainName]
            by_cases hroom : ctx.room = 0
            · rw [if_pos hroom]
              refine ⟨_, rfl, by simp [hroom], by simp, ?_, fun _ => ⟨by simp, fun hp => ?_⟩⟩
              · rw [hslots, slotsFrom_entry hok hentry, hroom]
                simp
              · exact ⟨b, hp, le_rfl, by simp [hroom]⟩
            · rw [if_neg hroom]
              obtain ⟨x, hx, hfilled⟩ := @ih (i + getDentrySlots (d.dentry i).nameLen)
                ⟨(startPos + (i + getDentrySlots (d.dentry i).nameLen)) % 2 ^ 32, ctx.room - 1⟩
                (by omega)
              rw [hx]
              exact ⟨_, rfl, hfilled.cons hroom (by omega)
                (hslots.trans (slotsFrom_entry hok hentry)) rfl⟩
      · rw [if_neg hlt]
        exact ⟨_, rfl, Filled.nil (slotsFrom_end (by omega))⟩

/-- The three parts of a dentry block fit together. -/
lemma fillBlock_spec {t : Area} (hok : BlockOk (makeDentryPtrBlock t)) :
    ∃ x, f2fsFillDentries ctx (makeDentryPtrBlock t) startPos plainName = some x ∧
      Filled (makeDentryPtrBlock t) startPos (ctx.pos % nrDentryInBlock) ctx x :=
  fillLoop_spec hok (by omega)

end

/-! ## The blocks of a directory -/

section

variable {block : ℕ → Option Area} {k n b : ℕ} {ctx : DirContext}

def BlocksOk (block : ℕ → Option Area) (n k : ℕ) : Prop :=
  ∀ m, n ≤ m → m < n + k → ∀ t ∈ block m, BlockOk (makeDentryPtrBlock t)

lemma BlocksOk.tail (h : BlocksOk block n (k + 1)) : BlocksOk block (n + 1) k :=
  fun m h1 h2 => h m (by omega) (by omega)

/-- The slot at which the loop enters a block that it comes to. -/
def startBit (n : ℕ) : ℕ := blockPos n % nrDentryInBlock

/-- The entries from slot `b` of block `n` on, with each later block from its own slot on. -/
def entriesFrom (block : ℕ → Option Area) (start : ℕ → ℕ) : ℕ → ℕ → ℕ → List (ℕ × Emit)
  | 0, _, _ => []
  | k + 1, n, b => blockEntries block n b ++ entriesFrom block start k (n + 1) (start (n + 1))

/-- The entries that the loop comes across. -/
abbrev seenFrom (block : ℕ → Option Area) : ℕ → ℕ → ℕ → List (ℕ × Emit) :=
  entriesFrom block startBit

/-- The entries that there are. -/
abbrev remaining (block : ℕ → Option Area) : ℕ → ℕ → ℕ → List (ℕ × Emit) :=
  entriesFrom block fun _ => 0

/-- What one block gives out. -/
lemma Filled.tagged {t : Area} {s : ℕ} {x : FillResult} (ht : block n = some t)
    (h : Filled (makeDentryPtrBlock t) s b ctx x) :
    x.emitted.map (n, ·) = (blockEntries block n b).take ctx.room := by
  simp [blockEntries, ht, h.emitted, List.map_take, List.map_map, Function.comp_def]

lemma blockEntries_length {t : Area} (ht : block n = some t) :
    (blockEntries block n b).length = ((makeDentryPtrBlock t).slotsFrom b).length := by
  simp [blockEntries, ht]

lemma Filled.room_eq {t : Area} {s : ℕ} {x : FillResult} (ht : block n = some t)
    (h : Filled (makeDentryPtrBlock t) s b ctx x)
    (hle : (blockEntries block n b).length ≤ ctx.room) :
    x.ctx.room = ctx.room - (blockEntries block n b).length := by
  have hlen := congrArg List.length (h.tagged ht)
  rw [List.length_map, List.take_of_length_le hle] at hlen
  rw [h.room, hlen]

/-- **One call gives out the first part of what it comes across**, and ends behind the last
block. -/
lemma readdirLoop_seen (hok : BlocksOk block n k) :
    ∃ r, readdirLoop block k n ctx = some r ∧
      r.emitted = (seenFrom block k n (ctx.pos % nrDentryInBlock)).take ctx.room ∧
      ((seenFrom block k n (ctx.pos % nrDentryInBlock)).length ≤ ctx.room →
        r.ctx.pos = if k = 0 then ctx.pos else blockPos (n + k)) := by
  induction k generalizing n ctx with
  | zero => exact ⟨_, rfl, by simp [entriesFrom], fun _ => rfl⟩
  | succ k ih =>
      -- Where the call ends if the blocks behind are passed through.
      have hlast : ∀ pos : ℕ, pos = (if k = 0 then blockPos (n + 1) else blockPos (n + 1 + k)) →
          pos = if k + 1 = 0 then ctx.pos else blockPos (n + (k + 1)) := by
        intro pos hpos
        rw [if_neg (Nat.succ_ne_zero k), hpos]
        split_ifs with hk
        · rw [hk]
        · congr 1
          omega
      unfold readdirLoop
      cases ht : block n with
      | none =>
          obtain ⟨r, hr, hemit, hpos⟩ := @ih (n + 1) { ctx with pos := blockPos (n + 1) } hok.tail
          have hseen : seenFrom block (k + 1) n (ctx.pos % nrDentryInBlock)
              = seenFrom block k (n + 1) (startBit (n + 1)) := by
            simp [entriesFrom, blockEntries, ht]
          rw [hseen]
          exact ⟨r, hr, hemit, fun hle => hlast _ (hpos hle)⟩
      | some t =>
          obtain ⟨x, hx, hfilled⟩ := @fillBlock_spec (blockPos n) ctx t
            (hok n le_rfl (by omega) t ht)
          simp only [hx, Option.bind_some, entriesFrom, hfilled.tagged ht, List.take_append,
            List.length_append]
          have hlen := blockEntries_length (b := ctx.pos % nrDentryInBlock) ht
          by_cases hle : (blockEntries block n (ctx.pos % nrDentryInBlock)).length ≤ ctx.room
          · obtain ⟨r, hr, hemit, hpos⟩ := @ih (n + 1)
              { x.ctx with pos := blockPos (n + 1) } hok.tail
            have hroom := hfilled.room_eq ht hle
            simp only [hroom] at hemit hpos hr
            rw [if_pos (hfilled.done (hlen ▸ hle)), hroom, hr]
            refine ⟨_, rfl, congrArg (List.take ctx.room _ ++ ·) hemit, fun hsum => hlast _ (hpos ?_)⟩
            change (entriesFrom block startBit k (n + 1) (startBit (n + 1))).length ≤ _
            omega
          · rw [if_neg (hfilled.full (by omega)).1]
            refine ⟨_, rfl, ?_, fun hsum => by omega⟩
            rw [Nat.sub_eq_zero_of_le (by omega), List.take_zero, List.append_nil]

lemma mem_blockEntries {x : ℕ × Emit} : x ∈ blockEntries block n b ↔
    ∃ t, block n = some t ∧ ∃ i, b ≤ i ∧ (makeDentryPtrBlock t).HasEntry i ∧
      x = (n, (makeDentryPtrBlock t).emit i) := by
  unfold blockEntries
  cases block n with
  | none => simp
  | some t =>
      simp only [List.mem_map, mem_slotsFrom, and_assoc, Option.some.injEq, exists_eq_left']
      exact ⟨fun ⟨i, h1, h2, h3⟩ => ⟨i, h1, h2, h3.symm⟩, fun ⟨i, h1, h2, h3⟩ => ⟨i, h1, h2, h3.symm⟩⟩

lemma blockEntries_pos {x : ℕ × Emit} (h : x ∈ blockEntries block n b) :
    x.1 = n ∧ b ≤ x.2.slot ∧ x.2.slot < nrDentryInBlock := by
  obtain ⟨t, -, i, hb, hi, rfl⟩ := mem_blockEntries.mp h
  exact ⟨rfl, hb, hi.1⟩

/-- A later start only leaves entries out. -/
lemma blockEntries_mono {c : ℕ} (hbc : b ≤ c) {x : ℕ × Emit} (h : x ∈ blockEntries block n c) :
    x ∈ blockEntries block n b := by
  obtain ⟨t, ht, i, hc, hi, rfl⟩ := mem_blockEntries.mp h
  exact mem_blockEntries.mpr ⟨t, ht, i, hbc.trans hc, hi, rfl⟩

lemma entryPos_emit (d : DentryPtr) (n i : ℕ) :
    entryPos (n, d.emit i) = n * nrDentryInBlock + i := rfl

lemma mem_entriesFrom {start : ℕ → ℕ} {x : ℕ × Emit} : x ∈ entriesFrom block start k n b ↔
    n ≤ x.1 ∧ x.1 < n + k ∧ x ∈ blockEntries block x.1 (if x.1 = n then b else start x.1) := by
  induction k generalizing n b with
  | zero =>
      simp only [entriesFrom, List.not_mem_nil, false_iff]
      omega
  | succ k ih =>
      rw [entriesFrom, List.mem_append, ih]
      constructor
      · rintro (h | ⟨h1, h2, h3⟩)
        · obtain ⟨hn, -⟩ := blockEntries_pos h
          refine ⟨hn.ge, by omega, ?_⟩
          rw [if_pos hn, hn]
          exact h
        · refine ⟨by omega, by omega, ?_⟩
          rw [if_neg (by omega)]
          split_ifs at h3 with heq
          · rw [heq] at h3 ⊢
            exact h3
          · exact h3
      · rintro ⟨h1, h2, h3⟩
        by_cases hn : x.1 = n
        · rw [if_pos hn, hn] at h3
          exact Or.inl h3
        · rw [if_neg hn] at h3
          refine Or.inr ⟨by omega, by omega, ?_⟩
          split_ifs with heq
          · rwa [← heq]
          · exact h3

/-- The entries from `ctx->pos` on. -/
def remainingAt (npages : ℕ) (block : ℕ → Option Area) (pos : ℕ) : List (ℕ × Emit) :=
  remaining block (npages - pos / nrDentryInBlock) (pos / nrDentryInBlock) (pos % nrDentryInBlock)

/-- **What remains** from a position: the entries that stand there or behind it. -/
lemma mem_remainingAt {npages pos : ℕ} {x : ℕ × Emit} : x ∈ remainingAt npages block pos ↔
    x ∈ remaining block npages 0 0 ∧ pos ≤ entryPos x := by
  have hdiv := Nat.div_add_mod pos nrDentryInBlock
  have hmod := Nat.mod_lt pos (show 0 < nrDentryInBlock by decide)
  unfold remainingAt entryPos
  rw [mem_entriesFrom, mem_entriesFrom, ite_self, Nat.mul_comm x.1]
  generalize pos / nrDentryInBlock = q at *
  generalize pos % nrDentryInBlock = r at *
  constructor
  · rintro ⟨h1, h2, h3⟩
    obtain ⟨-, hslot, -⟩ := blockEntries_pos h3
    refine ⟨⟨Nat.zero_le _, by omega, blockEntries_mono (Nat.zero_le _) h3⟩, ?_⟩
    split_ifs at hslot with heq
    · rw [heq]
      omega
    · have hle : nrDentryInBlock * (q + 1) ≤ nrDentryInBlock * x.1 := Nat.mul_le_mul_left _ (by omega)
      rw [Nat.mul_add, Nat.mul_one] at hle
      omega
  · rintro ⟨⟨-, h2, h3⟩, hpos⟩
    obtain ⟨-, -, hslot⟩ := blockEntries_pos h3
    have hle : q ≤ x.1 := by
      by_contra hlt
      have hle : nrDentryInBlock * (x.1 + 1) ≤ nrDentryInBlock * q :=
        Nat.mul_le_mul_left _ (by omega)
      rw [Nat.mul_add, Nat.mul_one] at hle
      omega
    refine ⟨hle, by omega, ?_⟩
    split_ifs with heq
    · obtain ⟨t, ht, i, -, hi, hx⟩ := mem_blockEntries.mp h3
      refine mem_blockEntries.mpr ⟨t, ht, i, ?_, hi, hx⟩
      have hslot' : x.2.slot = i := by rw [hx]; rfl
      rw [heq] at hpos
      omega
    · exact h3

/-! ## Resuming -/

/-- Before the positions wrap, the loop comes across everything. -/
lemma seenFrom_eq (hlt : ∀ x ∈ remaining block k n b, entryPos x < 2 ^ 32) :
    seenFrom block k n b = remaining block k n b := by
  induction k generalizing n b with
  | zero => rfl
  | succ k ih =>
      have hrest : ∀ x ∈ remaining block k (n + 1) 0, entryPos x < 2 ^ 32 := fun x hx =>
        hlt x (List.mem_append_right _ hx)
      by_cases hwrap : (n + 1) * nrDentryInBlock < 2 ^ 32
      · have hstart : startBit (n + 1) = 0 := by
          unfold startBit blockPos
          rw [Nat.mod_eq_of_lt hwrap]
          exact Nat.mul_mod_left _ _
        simp only [seenFrom, entriesFrom, hstart]
        exact congrArg _ (ih hrest)
      · -- Behind the wrap there is no entry, so it does not matter where a block is entered.
        have hnone : ∀ x : ℕ × Emit, n + 1 ≤ x.1 → 2 ^ 32 ≤ entryPos x := by
          intro x hx
          have hle := Nat.mul_le_mul_right nrDentryInBlock hx
          unfold entryPos
          omega
        have hrem : remaining block k (n + 1) 0 = [] := by
          refine List.eq_nil_iff_forall_not_mem.mpr fun x hx => ?_
          have h1 := hnone x (mem_entriesFrom.mp hx).1
          have h2 := hrest x hx
          omega
        have hseen : seenFrom block k (n + 1) (startBit (n + 1)) = [] := by
          refine List.eq_nil_iff_forall_not_mem.mpr fun x hx => ?_
          obtain ⟨h1, h2, h3⟩ := mem_entriesFrom.mp hx
          have hmem : x ∈ remaining block k (n + 1) 0 :=
            mem_entriesFrom.mpr ⟨h1, h2, by rw [ite_self]; exact blockEntries_mono (Nat.zero_le _) h3⟩
          rw [hrem] at hmem
          simp at hmem
        simp only [seenFrom, remaining] at hrem hseen
        simp only [seenFrom, remaining, entriesFrom, hrem, hseen]

/-- **The consumer refuses an entry**: the position is left so that this entry comes next. -/
lemma readdirLoop_full (hok : BlocksOk block n k)
    (hlt : ∀ x ∈ remaining block k n b, entryPos x < 2 ^ 32) (hb : b < nrDentryInBlock)
    (hpos : ctx.pos = n * nrDentryInBlock + b)
    (hfull : ctx.room < (remaining block k n b).length) :
    ∃ r m c, readdirLoop block k n ctx = some r ∧ r.ctx.pos = m * nrDentryInBlock + c ∧
      c < nrDentryInBlock ∧ n ≤ m ∧ m < n + k ∧ r.ctx.pos < 2 ^ 32 ∧
      remaining block (n + k - m) m c = (remaining block k n b).drop ctx.room := by
  induction k generalizing n b ctx with
  | zero => simp [remaining, entriesFrom] at hfull
  | succ k ih =>
      -- The next block that has to be entered begins before the wrap.
      have hnext : ∀ room, room < (remaining block k (n + 1) 0).length →
          blockPos (n + 1) = (n + 1) * nrDentryInBlock + 0 := by
        intro room hroom
        obtain ⟨x, hx⟩ := List.exists_mem_of_length_pos (Nat.zero_lt_of_lt hroom)
        have h1 := (mem_entriesFrom.mp hx).1
        have h2 := hlt x (List.mem_append_right _ hx)
        have hle := Nat.mul_le_mul_right nrDentryInBlock h1
        unfold entryPos at h2
        exact Nat.mod_eq_of_lt (by omega)
      have hrest : ∀ x ∈ remaining block k (n + 1) 0, entryPos x < 2 ^ 32 := fun x hx =>
        hlt x (List.mem_append_right _ hx)
      have hsub : n + (k + 1) = n + 1 + k := by omega
      have hmod : ctx.pos % nrDentryInBlock = b := by
        rw [hpos, Nat.add_comm, Nat.add_mul_mod_self_right]
        exact Nat.mod_eq_of_lt hb
      unfold readdirLoop
      cases ht : block n with
      | none =>
          have hrem : remaining block (k + 1) n b = remaining block k (n + 1) 0 := by
            simp [remaining, entriesFrom, blockEntries, ht]
          rw [hrem] at hfull ⊢
          obtain ⟨r, m, c, hr, h1, h2, h3, h4, h5, h6⟩ := @ih (n + 1) 0
            { ctx with pos := blockPos (n + 1) } hok.tail hrest (by decide)
            (hnext _ hfull) hfull
          exact ⟨r, m, c, hr, h1, h2, by omega, by omega, h5, by rw [hsub]; exact h6⟩
      | some t =>
          obtain ⟨x, hx, hfilled⟩ := @fillBlock_spec (blockPos n) ctx t
            (hok n le_rfl (by omega) t ht)
          rw [hmod] at hfilled
          have hlen := blockEntries_length (b := b) ht
          have hrem : remaining block (k + 1) n b
              = blockEntries block n b ++ remaining block k (n + 1) 0 := rfl
          rw [hrem, List.length_append] at hfull
          simp only [hx, Option.bind_some]
          by_cases hle : (blockEntries block n b).length ≤ ctx.room
          · have hroom := hfilled.room_eq ht hle
            obtain ⟨r, m, c, hr, h1, h2, h3, h4, h5, h6⟩ := @ih (n + 1) 0
              { x.ctx with pos := blockPos (n + 1) } hok.tail hrest (by decide)
              (hnext x.ctx.room (by omega)) (by change x.ctx.room < _; omega)
            rw [if_pos (hfilled.done (hlen ▸ hle)), hr]
            refine ⟨_, m, c, rfl, h1, h2, by omega, by omega, h5, ?_⟩
            rw [hsub, h6, hrem, List.drop_append, List.drop_eq_nil_of_le hle, List.nil_append]
            exact congrArg (fun i => List.drop i _) hroom
          · obtain ⟨hret, hposs⟩ := hfilled.full (by omega)
            rw [if_neg hret]
            have hslots : ∀ i ∈ (makeDentryPtrBlock t).slotsFrom b,
                n * nrDentryInBlock + i < 2 ^ 32 ∧ i < nrDentryInBlock := by
              intro i hi
              obtain ⟨hbi, hentry⟩ := mem_slotsFrom.mp hi
              have hmem : (n, (makeDentryPtrBlock t).emit i) ∈ remaining block (k + 1) n b :=
                List.mem_append_left _ (mem_blockEntries.mpr ⟨t, ht, i, hbi, hentry, rfl⟩)
              have hposlt := hlt _ hmem
              rw [entryPos_emit] at hposlt
              exact ⟨hposlt, hentry.1⟩
            -- The entry that was refused.
            obtain ⟨i, hi⟩ := List.exists_mem_of_length_pos
              (l := ((makeDentryPtrBlock t).slotsFrom b).drop ctx.room)
              (by rw [List.length_drop]; omega)
            obtain ⟨hwrap, hin⟩ := hslots i (List.mem_of_mem_drop hi)
            have hblock : blockPos n = n * nrDentryInBlock := Nat.mod_eq_of_lt (by omega)
            obtain ⟨c, hc, -, hdrop⟩ := hposs (by
              rw [hblock, hpos]
              have hi' := (mem_slotsFrom.mp (List.mem_of_mem_drop hi)).1
              exact (Nat.mod_eq_of_lt (by omega)).symm)
            rw [← hdrop] at hi
            have hci := (mem_slotsFrom.mp hi).1
            rw [hblock, Nat.mod_eq_of_lt (by omega)] at hc
            have hend : x.ctx.pos < 2 ^ 32 := by omega
            refine ⟨⟨x.ctx, x.emitted.map (n, ·)⟩, n, c, rfl, hc, by omega, le_rfl, by omega, hend, ?_⟩
            have hone : n + (k + 1) - n = k + 1 := by omega
            have htail : blockEntries block n c = (blockEntries block n b).drop ctx.room := by
              simp [blockEntries, ht, hdrop, List.map_drop]
            rw [hone, hrem, List.drop_append, Nat.sub_eq_zero_of_le (by omega), List.drop_zero,
              ← htail]
            rfl

/-- The entries are what remains from the beginning. -/
lemma entries_eq_remaining (npages : ℕ) (block : ℕ → Option Area) :
    (Directory.regular npages block).entries = remaining block npages 0 0 := by
  have hfrom : ∀ k n, remaining block k n 0
      = (List.range' n k).flatMap fun m => blockEntries block m 0 := by
    intro k
    induction k with
    | zero => intro n; rfl
    | succ k ih =>
        intro n
        rw [List.range'_succ, List.flatMap_cons, ← ih (n + 1)]
        rfl
  rw [hfrom, Directory.entries, List.range_eq_range']

lemma remainingAt_zero (npages : ℕ) (block : ℕ → Option Area) :
    remainingAt npages block 0 = (Directory.regular npages block).entries := by
  rw [entries_eq_remaining]
  rfl

/-- The position stays below `2 ^ 32`, so the block is not cut. -/
lemma readdir_eq {npages pos room : ℕ} (hpos : pos < 2 ^ 32) :
    f2fsReaddir (.regular npages block) ⟨pos, room⟩
      = readdirLoop block (npages - pos / nrDentryInBlock) (pos / nrDentryInBlock) ⟨pos, room⟩ := by
  simp only [f2fsReaddir,
    Nat.mod_eq_of_lt (lt_of_le_of_lt (Nat.div_le_self pos nrDentryInBlock) hpos)]

/-- **A call from any position** gives out the first part of what remains, and leaves the rest. -/
lemma readdir_regular {npages pos room : ℕ} (hok : (Directory.regular npages block).Ok)
    (hreach : (Directory.regular npages block).InReach) (hpos : pos < 2 ^ 32) :
    ∃ r, f2fsReaddir (.regular npages block) ⟨pos, room⟩ = some r ∧
      r.emitted = (remainingAt npages block pos).take room ∧
      remainingAt npages block r.ctx.pos = (remainingAt npages block pos).drop room ∧
      r.ctx.pos < 2 ^ 32 := by
  obtain ⟨-, hblocks⟩ := hok
  have hE : blockPos npages < 2 ^ 32 := Nat.mod_lt _ (by decide)
  have hlt : ∀ x ∈ remainingAt npages block pos, entryPos x < blockPos npages := by
    intro x hx
    refine hreach x ?_
    rw [entries_eq_remaining]
    exact (mem_remainingAt.mp hx).1
  have hblocksOk : ∀ n k, n + k ≤ npages → BlocksOk block n k := fun n k hnk m h1 h2 =>
    hblocks m (by omega)
  have hsum := Nat.div_add_mod pos nrDentryInBlock
  rw [Nat.mul_comm] at hsum
  have hbit := Nat.mod_lt pos (show 0 < nrDentryInBlock by decide)
  rw [readdir_eq hpos]
  by_cases hin : pos / nrDentryInBlock < npages
  · have hblocksOk' := hblocksOk (pos / nrDentryInBlock) (npages - pos / nrDentryInBlock) (by omega)
    have hlt32 : ∀ x ∈ remainingAt npages block pos, entryPos x < 2 ^ 32 := fun x hx =>
      (hlt x hx).trans hE
    obtain ⟨r, hr, hemit, hlast⟩ := @readdirLoop_seen block _ _ ⟨pos, room⟩ hblocksOk'
    rw [seenFrom_eq hlt32] at hemit hlast
    refine ⟨r, hr, hemit, ?_⟩
    by_cases hroom : room < (remainingAt npages block pos).length
    · obtain ⟨r', m, c, hr', h1, h2, h3, h4, h5, h6⟩ :=
        @readdirLoop_full block _ _ _ ⟨pos, room⟩ hblocksOk' hlt32 hbit hsum.symm hroom
      obtain rfl := Option.some.inj (hr.symm.trans hr')
      refine ⟨?_, h5⟩
      have hm : r.ctx.pos / nrDentryInBlock = m ∧ r.ctx.pos % nrDentryInBlock = c := by
        rw [h1, Nat.add_comm, Nat.add_mul_div_right _ _ (by decide), Nat.div_eq_of_lt h2,
          Nat.add_mul_mod_self_right, Nat.mod_eq_of_lt h2]
        exact ⟨Nat.zero_add _, rfl⟩
      have hsub : pos / nrDentryInBlock + (npages - pos / nrDentryInBlock) - m = npages - m := by
        omega
      rw [hsub] at h6
      unfold remainingAt
      rw [hm.1, hm.2]
      exact h6
    · -- The call has come to the end, and nothing stands behind that.
      have hend := hlast (not_lt.mp hroom)
      rw [if_neg (by omega), show pos / nrDentryInBlock + (npages - pos / nrDentryInBlock) = npages
        by omega] at hend
      rw [hend]
      refine ⟨?_, hE⟩
      rw [List.drop_eq_nil_of_le (by omega)]
      refine List.eq_nil_iff_forall_not_mem.mpr fun x hx => ?_
      obtain ⟨hmem, hle⟩ := mem_remainingAt.mp hx
      rw [← entries_eq_remaining] at hmem
      exact absurd (hreach x hmem) (by omega)
  · have hnil : remainingAt npages block pos = [] := by
      unfold remainingAt
      rw [Nat.sub_eq_zero_of_le (by omega)]
      rfl
    rw [Nat.sub_eq_zero_of_le (by omega), hnil]
    exact ⟨_, rfl, by simp, by simpa using hnil, hpos⟩

/-- The dentry area of an inline directory has less than `2 ^ 32` slots. -/
lemma nrInlineDentry_lt {maxInlineData : ℕ} (h : maxInlineData ≤ 4096) :
    nrInlineDentry maxInlineData < 2 ^ 32 := by
  unfold nrInlineDentry sizeOfDirEntry slotLen
  omega

lemma readdir_inline {maxInlineData pos room : ℕ} {t : Area}
    (hok : (Directory.inline maxInlineData t).Ok)
    (hpos : pos ≤ (makeDentryPtrInline maxInlineData t).max) :
    ∃ r, f2fsReaddir (.inline maxInlineData t) ⟨pos, room⟩ = some r ∧
      r.emitted = (((makeDentryPtrInline maxInlineData t).slotsFrom pos).map fun i =>
        (0, (makeDentryPtrInline maxInlineData t).emit i)).take room ∧
      (((makeDentryPtrInline maxInlineData t).slotsFrom r.ctx.pos).map fun i =>
        (0, (makeDentryPtrInline maxInlineData t).emit i))
          = (((makeDentryPtrInline maxInlineData t).slotsFrom pos).map fun i =>
            (0, (makeDentryPtrInline maxInlineData t).emit i)).drop room ∧
      r.ctx.pos ≤ (makeDentryPtrInline maxInlineData t).max := by
  obtain ⟨hmax, hok⟩ := hok
  have hlt : (makeDentryPtrInline maxInlineData t).max < 2 ^ 32 := nrInlineDentry_lt hmax
  have hreaddir : f2fsReaddir (.inline maxInlineData t) ⟨pos, room⟩
      = if pos = (makeDentryPtrInline maxInlineData t).max then some ⟨⟨pos, room⟩, []⟩
        else
          (fillLoop (makeDentryPtrInline maxInlineData t) 0 plainName
            ((makeDentryPtrInline maxInlineData t).max + 1)
            (pos % (makeDentryPtrInline maxInlineData t).max) ⟨pos, room⟩).map fun r =>
              ⟨if r.ret = .done then { r.ctx with pos := (makeDentryPtrInline maxInlineData t).max }
                else r.ctx, r.emitted.map (0, ·)⟩ := rfl
  rw [hreaddir]
  generalize makeDentryPtrInline maxInlineData t = d at *
  by_cases hend : pos = d.max
  · rw [if_pos hend]
    refine ⟨_, rfl, ?_, ?_, hpos⟩
    · simp [slotsFrom_end hend.ge]
    · simp [slotsFrom_end hend.ge]
  · obtain ⟨x, hx, hfilled⟩ := @fillLoop_spec d 0 (pos % d.max) ⟨pos, room⟩
      hok _ (Nat.lt_succ_of_le (Nat.sub_le _ _))
    rw [Nat.mod_eq_of_lt (by omega)] at hfilled
    simp only [hend, if_false, hx, Option.map_some]
    have hemit : x.emitted.map (0, ·)
        = ((d.slotsFrom pos).map fun i => ((0 : ℕ), d.emit i)).take room := by
      rw [hfilled.emitted]
      simp [List.map_take, List.map_map, Function.comp_def]
    refine ⟨_, rfl, hemit, ?_⟩
    by_cases hroom : (d.slotsFrom pos).length ≤ room
    · rw [if_pos (hfilled.done hroom)]
      refine ⟨?_, le_rfl⟩
      rw [slotsFrom_end le_rfl, List.drop_eq_nil_of_le (by simpa using hroom)]
      rfl
    · obtain ⟨hret, hposs⟩ := hfilled.full (not_le.mp hroom)
      obtain ⟨c, hc, hle, hdrop⟩ := hposs (by
        rw [Nat.zero_add]
        exact (Nat.mod_eq_of_lt (lt_of_le_of_lt hpos hlt)).symm)
      rw [if_neg hret]
      -- The entry that was refused is inside of the area.
      obtain ⟨i, hi⟩ := List.exists_mem_of_length_pos (l := d.slotsFrom c)
        (by rw [hdrop, List.length_drop]; exact Nat.sub_pos_of_lt (not_le.mp hroom))
      obtain ⟨hci, hentry⟩ := mem_slotsFrom.mp hi
      have hin := hentry.1
      rw [Nat.zero_add, Nat.mod_eq_of_lt (by omega)] at hc
      rw [hc, hdrop, List.map_drop]
      exact ⟨rfl, by omega⟩

end

/-! ## One call after the other -/

/-- **Calls that leave what they did not give out** add up to one listing, however it is cut. -/
lemma listing_of_calls {dir : Directory} (rem : ℕ → List (ℕ × Emit)) (Inv : ℕ → Prop)
    (hcall : ∀ pos room, Inv pos → ∃ r, f2fsReaddir dir ⟨pos, room⟩ = some r ∧
      r.emitted = (rem pos).take room ∧ rem r.ctx.pos = (rem pos).drop room ∧ Inv r.ctx.pos)
    (rooms : List ℕ) {pos : ℕ} (hpos : Inv pos) :
    (listing dir pos rooms).map Prod.snd = some ((rem pos).take rooms.sum) := by
  induction rooms generalizing pos with
  | nil => simp [listing]
  | cons room rooms ih =>
      obtain ⟨r, hr, hemit, hrem, hinv⟩ := hcall pos room hpos
      obtain ⟨x, hx, hsnd⟩ := Option.map_eq_some_iff.mp (ih hinv)
      simp only [listing, hr, hx, Option.bind_some, Option.map_some, hsnd, hemit, hrem,
        List.sum_cons, List.take_add]

lemma complete_inline {maxInlineData : ℕ} {t : Area}
    (hok : (Directory.inline maxInlineData t).Ok) : Complete (.inline maxInlineData t) :=
  fun rooms => listing_of_calls
    (fun pos => ((makeDentryPtrInline maxInlineData t).slotsFrom pos).map fun i =>
      (0, (makeDentryPtrInline maxInlineData t).emit i))
    (· ≤ (makeDentryPtrInline maxInlineData t).max) (fun _ _ => readdir_inline hok) rooms
    (Nat.zero_le _)

lemma complete_of_inReach {npages : ℕ} {block : ℕ → Option Area}
    (hok : (Directory.regular npages block).Ok)
    (hreach : (Directory.regular npages block).InReach) : Complete (.regular npages block) := by
  intro rooms
  rw [← remainingAt_zero]
  exact listing_of_calls (remainingAt npages block) (· < 2 ^ 32)
    (fun _ _ => readdir_regular hok hreach) rooms (by decide)

/-- **A listing that is complete ends behind each entry**: else it would start over from its end, or
has left that entry out. -/
lemma inReach_of_complete {npages : ℕ} {block : ℕ → Option Area}
    (hok : (Directory.regular npages block).Ok) (hc : Complete (.regular npages block)) :
    (Directory.regular npages block).InReach := by
  intro x hx
  by_contra hout
  obtain ⟨-, hblocks⟩ := hok
  have hblocksOk : ∀ n k, n + k ≤ npages → BlocksOk block n k := fun n k hnk m h1 h2 =>
    hblocks m (by omega)
  have hE : blockPos npages < 2 ^ 32 := Nat.mod_lt _ (by decide)
  have hrem : x ∈ remainingAt npages block (blockPos npages) :=
    mem_remainingAt.mpr ⟨entries_eq_remaining npages block ▸ hx, not_lt.mp hout⟩
  obtain ⟨hfirst, hlast, hslot⟩ := mem_entriesFrom.mp hrem
  -- The first call takes all there is, and so comes to the end.
  generalize hroom : max (Directory.regular npages block).entries.length
    (seenFrom block npages 0 0).length = room
  have hle : (Directory.regular npages block).entries.length ≤ room := hroom ▸ le_max_left _ _
  obtain ⟨r, hr, hemit, hpos⟩ := @readdirLoop_seen block _ _ ⟨0, room⟩
    (hblocksOk 0 npages (by omega))
  have hend : r.ctx.pos = blockPos npages := by
    have hpos' := hpos (hroom ▸ le_max_right _ _)
    rwa [if_neg (by omega), Nat.zero_add] at hpos'
  have hcall : f2fsReaddir (.regular npages block) ⟨0, room⟩ = some r := by
    rw [readdir_eq (by decide)]
    exact hr
  have hall : r.emitted = (Directory.regular npages block).entries := by
    have h1 := hc [room]
    simp only [listing, hcall, Option.bind_some, Option.map_some, List.append_nil, List.sum_cons,
      List.sum_nil, Nat.add_zero, Option.some.injEq] at h1
    rwa [List.take_of_length_le hle] at h1
  -- So the second call must not give out anything.
  obtain ⟨r', hr', hemit', -⟩ := @readdirLoop_seen block _ _ ⟨blockPos npages, 1⟩
    (hblocksOk (blockPos npages / nrDentryInBlock) (npages - blockPos npages / nrDentryInBlock)
      (by omega))
  have hcall' : f2fsReaddir (.regular npages block) ⟨r.ctx.pos, 1⟩ = some r' := by
    rw [hend, readdir_eq hE]
    exact hr'
  have hnone : r'.emitted = [] := by
    have h2 := hc [room, 1]
    simp only [listing, hcall, hcall', Option.bind_some, Option.map_some, List.append_nil,
      List.sum_cons, List.sum_nil, Nat.add_zero, Option.some.injEq, hall] at h2
    rw [List.take_of_length_le (hle.trans (Nat.le_succ room))] at h2
    simpa using h2
  -- But the entry was seen by the first one, and stands behind the end.
  have hseen : x ∈ seenFrom block npages 0 0 := by
    rw [← hall, hemit] at hx
    exact List.mem_of_mem_take hx
  have hmem : x ∈ seenFrom block (npages - blockPos npages / nrDentryInBlock)
      (blockPos npages / nrDentryInBlock) (blockPos npages % nrDentryInBlock) := by
    refine mem_entriesFrom.mpr ⟨hfirst, hlast, ?_⟩
    split_ifs at hslot ⊢ with heq
    · exact hslot
    · have hstart := (mem_entriesFrom.mp hseen).2.2
      have hne : x.1 ≠ 0 := fun h0 => heq (h0.trans (Nat.le_zero.mp (h0 ▸ hfirst)).symm)
      rwa [if_neg hne] at hstart
  rw [hnone] at hemit'
  have hzero := congrArg List.length hemit'
  rw [List.length_take] at hzero
  have hlen := List.length_pos_of_mem hmem
  change _ = min 1 (seenFrom block _ _ (blockPos npages % nrDentryInBlock)).length at hzero
  simp only [List.length_nil] at hzero
  omega

/-! ## The result -/

/-- **A directory is listed completely**, however the listing is cut, **iff** its end is behind each
of its entries.  Inline directories always are. -/
theorem readdir_complete_iff {dir : Directory} (hok : dir.Ok) : Complete dir ↔ dir.InReach := by
  cases dir with
  | inline maxInlineData inlineDentry => exact iff_of_true (complete_inline hok) trivial
  | regular npages block => exact ⟨inReach_of_complete hok, complete_of_inReach hok⟩

/-- A directory of up to 20069940 blocks has all its entries in reach. -/
lemma inReach_of_npages_le {npages : ℕ} (block : ℕ → Option Area) (h : npages ≤ 20069940) :
    (Directory.regular npages block).InReach := by
  intro x hx
  rw [entries_eq_remaining] at hx
  obtain ⟨-, hlt, hmem⟩ := mem_entriesFrom.mp hx
  obtain ⟨-, -, hslot⟩ := blockEntries_pos hmem
  have hend : blockPos npages = npages * nrDentryInBlock :=
    Nat.mod_eq_of_lt (by unfold nrDentryInBlock; omega)
  have hle := Nat.mul_le_mul_right nrDentryInBlock (show x.1 + 1 ≤ npages by omega)
  rw [Nat.add_mul, Nat.one_mul] at hle
  rw [hend]
  unfold entryPos
  omega

/-- A block is sound if its slots are, one by one. -/
lemma BlockOk.of_forall_lt {d : DentryPtr}
    (h : ∀ i < d.max, d.HasEntry i → i + getDentrySlots (d.dentry i).nameLen ≤ d.max ∧
      ∀ j < i + getDentrySlots (d.dentry i).nameLen, i < j →
        d.bitmap j = true ∧ (d.dentry j).nameLen = 0) : BlockOk d where
  fits := fun i hi => (h i hi.1 hi).1
  tail := fun i hi j h1 h2 => (h i hi.1 hi).2 j h2 h1

/-- A block with one entry, of one byte, in its first slot. -/
def oneEntryBlock : Area := fun x => if x = 0 ∨ x = 38 then 1 else 0

lemma oneEntryBlock_ok : BlockOk (makeDentryPtrBlock oneEntryBlock) :=
  .of_forall_lt (by decide +kernel)

/-- A block with three entries: of one byte in slot 0, of twenty bytes in the slots 2 to 4, and of
five bytes in slot 7. -/
def threeEntryBlock : Area := fun x =>
  if x = 0 then 0x9D else if x = 38 then 1 else if x = 60 then 20 else if x = 115 then 5 else 0

lemma threeEntryBlock_ok : BlockOk (makeDentryPtrBlock threeEntryBlock) :=
  .of_forall_lt (by decide +kernel)

/-- There is no block 1. -/
def holeBlocks : ℕ → Option Area :=
  fun n => if n = 0 then some threeEntryBlock else if n = 2 then some oneEntryBlock else none

theorem readdir_complete_iff_hole :
    (Directory.regular 3 holeBlocks).entries.map entryPos = [0, 2, 7, 428] ∧
      Complete (.regular 3 holeBlocks) := by
  have hreach : (Directory.regular 3 holeBlocks).InReach := inReach_of_npages_le _ (by decide)
  refine ⟨by decide +kernel, (readdir_complete_iff ?_).mpr hreach⟩
  refine ⟨by decide, fun n _ t ht => ?_⟩
  by_cases h0 : n = 0
  · subst h0
    obtain rfl := Option.some.inj ht
    exact threeEntryBlock_ok
  · obtain ⟨-, hsome⟩ := Option.ite_none_right_eq_some.mp ((if_neg h0).symm.trans ht)
    obtain rfl := Option.some.inj hsome
    exact oneEntryBlock_ok

/-- **An entry behind the wrap is not listed**: a sparse directory with one entry, at the beginning
of block 20069941. -/
theorem readdir_misses_entry : ¬ ∀ dir : Directory, dir.Ok → Complete dir := by
  intro hall
  have hok : (Directory.regular 20069942
      fun n => if n = 20069941 then some oneEntryBlock else none).Ok := by
    refine ⟨by decide, fun n _ t ht => ?_⟩
    obtain ⟨-, hsome⟩ := Option.ite_none_right_eq_some.mp ht
    obtain rfl := Option.some.inj hsome
    exact oneEntryBlock_ok
  have hreach := inReach_of_complete hok (hall _ hok)
  have hentry : (makeDentryPtrBlock oneEntryBlock).HasEntry 0 := by decide +kernel
  have hmem : (20069941, (makeDentryPtrBlock oneEntryBlock).emit 0) ∈ (Directory.regular 20069942
      fun n => if n = 20069941 then some oneEntryBlock else none).entries := by
    rw [entries_eq_remaining]
    refine mem_entriesFrom.mpr ⟨Nat.zero_le _, by decide, mem_blockEntries.mpr ?_⟩
    exact ⟨oneEntryBlock, if_pos rfl, 0, by simp, hentry, rfl⟩
  have hlt := hreach _ hmem
  rw [entryPos_emit] at hlt
  exact absurd hlt (by decide)

end Hoit.Dir
