import HoitF2fs.Dir.HashDir
import HoitF2fs.Lib.Places

/-!
# What a lookup finds

The blocks of a directory are in order when each entry stands in the bucket that its hash has on one
of the levels that are in use.  A lookup goes through these buckets level by level; it reads the
numbers of the blocks as `unsigned int`, and stops at a block beyond the last one of a file.

* `InBucket` — a block is in the bucket of a hash on a level.
* `bucket_before` — **the buckets of lower levels lie before a block that a file can have**, so the
  way to an entry meets neither an overflow nor the end of the file.
* `TableInv` — the invariant of the blocks.
* `DirInode.InBlock`, `DirInode.Held` — the places of the entries.
* `findLevels_spec` — a lookup finds an entry with the name iff there is one on the levels it goes
  through, and changes `chash` and `clevel` only.
-/

namespace Hoit.Dir

open NodePath Bitmap ByteStore

variable {lay : AddrLayout} {dirLevel hash level n idx : ℕ}

/-! ## Buckets -/

/-- The block is in the bucket of the hash on this level. -/
def InBucket (dirLevel hash level n : ℕ) : Prop :=
  dirBlockIndex level dirLevel (hash % dirBuckets level dirLevel) ≤ n ∧
    n < dirBlockIndex level dirLevel (hash % dirBuckets level dirLevel) + bucketBlocks level

lemma dirBuckets_pos (level dirLevel : ℕ) : 0 < dirBuckets level dirLevel := by
  unfold dirBuckets maxDirBuckets
  split_ifs
  · exact Nat.two_pow_pos _
  · exact Nat.two_pow_pos _

lemma dirBuckets_le (level dirLevel : ℕ) : dirBuckets level dirLevel ≤ 2 ^ 30 := by
  unfold dirBuckets maxDirBuckets maxDirHashDepth
  split_ifs with h
  · exact Nat.pow_le_pow_right (by decide) (by omega)
  · exact le_rfl

lemma le_dirBuckets (dirLevel : ℕ) (h : level ≤ 30) : 2 ^ level ≤ dirBuckets level dirLevel := by
  unfold dirBuckets maxDirBuckets
  split_ifs
  · exact Nat.pow_le_pow_right (by decide) (by omega)
  · exact Nat.pow_le_pow_right (by decide) h

lemma bucketBlocks_low (h : level ≤ 30) : bucketBlocks level = 2 := if_pos (Nat.lt_succ_of_le h)

lemma bucketBlocks_le (level : ℕ) : bucketBlocks level ≤ 4 := by
  unfold bucketBlocks
  split_ifs <;> omega

lemma levelStart_succ (h : level ≤ 30) :
    levelStart dirLevel (level + 1) = levelStart dirLevel level + dirBuckets level dirLevel * 2 := by
  have hle := dirBuckets_le level dirLevel
  rw [levelStart, bucketBlocks_low h, Nat.mod_eq_of_lt (by omega)]

lemma levelStart_mono (dirLevel : ℕ) {level' : ℕ} (h : level ≤ level') :
    levelStart dirLevel level ≤ levelStart dirLevel level' := by
  induction level', h using Nat.le_induction with
  | base => exact le_rfl
  | succ k _ ih => exact ih.trans (Nat.le_add_right _ _)

/-- There are twice as many blocks on each level as on the one before, or more. -/
lemma le_levelStart (dirLevel : ℕ) (h : level ≤ 31) : 2 ^ (level + 1) ≤ levelStart dirLevel level + 2 := by
  induction level with
  | zero => exact le_of_eq rfl
  | succ level ih =>
      have hbuckets := le_dirBuckets dirLevel (show level ≤ 30 by omega)
      have hbefore := ih (by omega)
      rw [levelStart_succ (by omega)]
      rw [Nat.pow_succ] at hbefore ⊢
      omega

/-- Only the first levels have blocks that a file can have. -/
lemma level_le (hn : n < 2 ^ 31) (h : levelStart dirLevel level ≤ n) : level ≤ 30 := by
  by_contra hnot
  have hlast := le_levelStart dirLevel (show 31 ≤ 31 from le_rfl)
  have hmono := levelStart_mono dirLevel (show 31 ≤ level by omega)
  omega

lemma dirBlockIndex_low (h : level ≤ 30) (hidx : idx < dirBuckets level dirLevel) :
    dirBlockIndex level dirLevel idx = levelStart dirLevel level + idx * 2 := by
  have hle := dirBuckets_le level dirLevel
  rw [dirBlockIndex, bucketBlocks_low h, Nat.mod_eq_of_lt (by omega)]

lemma InBucket.levelStart_le (h : InBucket dirLevel hash level n) :
    levelStart dirLevel level ≤ n :=
  le_trans (Nat.le_add_right _ _) h.1

lemma InBucket.level_le (h : InBucket dirLevel hash level n) (hn : n < 2 ^ 31) : level ≤ 30 :=
  Dir.level_le hn h.levelStart_le

/-- **The buckets of lower levels lie before the block.** -/
lemma bucket_before (hash' : ℕ) {level' : ℕ} (h : InBucket dirLevel hash level n) (hn : n < 2 ^ 31)
    (hlt : level' < level) :
    dirBlockIndex level' dirLevel (hash' % dirBuckets level' dirLevel) + bucketBlocks level' ≤ n := by
  have hle := h.level_le hn
  have hidx := Nat.mod_lt hash' (dirBuckets_pos level' dirLevel)
  have hstart := (levelStart_mono dirLevel hlt).trans h.levelStart_le
  rw [levelStart_succ (by omega)] at hstart
  rw [dirBlockIndex_low (by omega) hidx, bucketBlocks_low (by omega)]
  omega

/-! ## Blocks of a file -/

lemma getNodePath_ne_none_iff : getNodePath lay n ≠ none ↔ n < lay.addrsPerInode + 1057052516 := by
  constructor
  · intro h
    by_contra hge
    exact h (getNodePath_eq_none (not_lt.mp hge))
  · intro h
    obtain ⟨p, hp⟩ := exists_pathOf h
    rw [hp.getNodePath]
    exact Option.some_ne_none p

lemma lt_of_ne_none (h : getNodePath lay n ≠ none) : n < 2 ^ 31 := by
  obtain ⟨p, hp⟩ := Option.ne_none_iff_exists'.mp h
  exact lt_of_path hp

lemma getNodePath_mono {n' : ℕ} (h : getNodePath lay n ≠ none) (hle : n' ≤ n) :
    getNodePath lay n' ≠ none :=
  getNodePath_ne_none_iff.mpr (lt_of_le_of_lt hle (getNodePath_ne_none_iff.mp h))

/-! ## The invariant of the blocks -/

/-- The entry stands in a block, whether or not the directory has an inline area. -/
def DirInode.InBlock (dir : DirInode) (p : ℕ × ℕ) (e : Entry) : Prop :=
  ∃ d, dir.block p.1 = some d ∧ d.Stores p.2 e

/-- The entry stands in the directory. -/
def DirInode.Held (dir : DirInode) (p : ℕ × ℕ) (e : Entry) : Prop :=
  match dir.inlineDentry with
  | some d => p.1 = 0 ∧ d.Stores p.2 e
  | none => dir.InBlock p e

/-- What an entry leads to. -/
def Entry.value (e : Entry) : ℕ × ℕ := (e.ino, e.fileType)

/-- The hash is that of the name, and the type is one of the format. -/
structure Entry.Ok (e : Entry) : Prop where
  hash : e.hash = f2fsDentryHash e.name
  type : e.fileType < 8

structure TableInv (lay : AddrLayout) (dir : DirInode) : Prop where
  inv : ∀ n d, dir.block n = some d → BlockInv d
  max : ∀ n d, dir.block n = some d → d.max = nrDentryInBlock
  range : ∀ n d, dir.block n = some d → getNodePath lay n ≠ none
  size : ∀ n d, dir.block n = some d → (n + 1) * 4096 ≤ dir.iSize
  ok : ∀ p e, dir.InBlock p e → e.Ok
  bucket : ∀ p e, dir.InBlock p e →
    ∃ level < dir.iCurrentDepth, InBucket dir.iDirLevel e.hash level p.1
  depth : dir.iCurrentDepth ≤ maxDirHashDepth
  clevel : dir.clevel ≤ dir.iCurrentDepth

/-- A place has one entry. -/
lemma DirInode.Held.unique {dir : DirInode} {p : ℕ × ℕ} {e e' : Entry} (h : dir.Held p e)
    (h' : dir.Held p e') : e' = e := by
  unfold DirInode.Held at h h'
  cases hin : dir.inlineDentry with
  | some d =>
      rw [hin] at h h'
      exact h'.2.2.symm.trans h.2.2
  | none =>
      rw [hin] at h h'
      obtain ⟨d, hd, -, rfl⟩ := h
      obtain ⟨d', hd', -, rfl⟩ := h'
      rw [hd] at hd'
      rw [Option.some.inj hd']

/-! ## A lookup in a bucket -/

variable {dir : DirInode} {name : List Byte}

/-- No entry with the name is in these blocks. -/
def DirInode.NotIn (dir : DirInode) (name : List Byte) (start stop : ℕ) : Prop :=
  ∀ p e, dir.InBlock p e → e.name = name → ¬ (start ≤ p.1 ∧ p.1 < stop)

/-- What the search of blocks from `start` up to `stop` says. -/
structure BlocksFound (lay : AddrLayout) (dir : DirInode) (name : List Byte) (start stop : ℕ)
    (r : LevelResult) : Prop where
  found : ∀ p, r.de = some p → r.err = none ∧ ∃ e, dir.InBlock p e ∧ e.name = name
  absent : r.de = none → dir.NotIn name start stop
  err : ∀ x, r.err = some x → x = e2big ∧ getNodePath lay (stop - 1) = none

lemma findBlocks_spec (hinv : TableInv lay dir) (name : List Byte) (k bidx : ℕ) (room : Bool) :
    ∃ r, findBlocks lay dir name (f2fsDentryHash name) k bidx room = some r ∧
      BlocksFound lay dir name bidx (bidx + k) r := by
  induction k generalizing bidx room with
  | zero => exact ⟨_, rfl, by simp, fun _ p e _ _ h => absurd h.2 (by omega), by simp⟩
  | succ k ih =>
      have hshift : bidx + 1 + k = bidx + (k + 1) := by omega
      -- the search goes on when the first block has no such entry
      have hgo : (∀ i e, dir.InBlock (bidx, i) e → e.name ≠ name) → ∀ room', ∃ r,
          findBlocks lay dir name (f2fsDentryHash name) k (bidx + 1) room' = some r ∧
            BlocksFound lay dir name bidx (bidx + (k + 1)) r := by
        intro hno room'
        obtain ⟨r, hr, hfound⟩ := ih (bidx + 1) room'
        rw [hshift] at hfound
        refine ⟨r, hr, hfound.found, fun hde p e he hname hp => ?_, hfound.err⟩
        rcases hp.1.eq_or_lt with heq | hlt
        · exact hno p.2 e (by rw [heq]; exact he) hname
        · exact hfound.absent hde p e he hname ⟨hlt, hp.2⟩
      unfold findBlocks f2fsFindDataPage
      cases hpath : getNodePath lay bidx with
      | none =>
          dsimp only
          rw [if_neg (by decide)]
          refine ⟨_, rfl, by simp, fun _ p e he _ hp => ?_, fun x hx => ?_⟩
          · obtain ⟨d, hd, -⟩ := he
            exact getNodePath_mono (hinv.range _ _ hd) hp.1 hpath
          · refine ⟨(Option.some.inj hx).symm, ?_⟩
            by_contra hlast
            exact getNodePath_mono hlast (by omega) hpath
      | some path =>
          dsimp only
          cases hblock : dir.block bidx with
          | none =>
              dsimp only
              rw [if_pos rfl]
              refine hgo (fun i e he => ?_) true
              obtain ⟨d, hd, -⟩ := he
              rw [hblock] at hd
              exact absurd hd.symm (Option.some_ne_none d)
          | some d =>
              dsimp only
              obtain ⟨x, hx, hfound, hnone⟩ :=
                find_target_spec (hinv.inv _ _ hblock) (f2fsDentryHash name) name true
              rw [hx, Option.bind_some]
              cases hde : x.de with
              | some i =>
                  obtain ⟨e, he, -, hname⟩ := hfound i hde
                  refine ⟨_, rfl, fun p hp => ⟨rfl, ?_⟩, fun h => absurd h (by simp), by simp⟩
                  obtain rfl := Option.some.inj hp
                  exact ⟨e, ⟨d, hblock, he⟩, hname⟩
              | none =>
                  refine hgo (fun i e he hname => ?_) _
                  have hok := hinv.ok _ _ he
                  obtain ⟨d', hd', he⟩ := he
                  obtain rfl := Option.some.inj (hblock.symm.trans hd')
                  exact hnone hde i e he ⟨by rw [hok.hash, hname], hname⟩

/-- Only `chash` and `clevel` have changed. -/
structure SameTable (dir dir' : DirInode) : Prop where
  maxInlineData : dir'.maxInlineData = dir.maxInlineData
  inlineDentry : dir'.inlineDentry = dir.inlineDentry
  block : dir'.block = dir.block
  iSize : dir'.iSize = dir.iSize
  iCurrentDepth : dir'.iCurrentDepth = dir.iCurrentDepth
  iDirLevel : dir'.iDirLevel = dir.iDirLevel

lemma SameTable.refl (dir : DirInode) : SameTable dir dir := ⟨rfl, rfl, rfl, rfl, rfl, rfl⟩

lemma SameTable.trans {dir' dir'' : DirInode} (h : SameTable dir dir') (h' : SameTable dir' dir'') :
    SameTable dir dir'' :=
  ⟨h'.maxInlineData.trans h.maxInlineData, h'.inlineDentry.trans h.inlineDentry,
    h'.block.trans h.block, h'.iSize.trans h.iSize, h'.iCurrentDepth.trans h.iCurrentDepth,
    h'.iDirLevel.trans h.iDirLevel⟩

lemma SameTable.inBlock {dir' : DirInode} (h : SameTable dir dir') (p : ℕ × ℕ) (e : Entry) :
    dir'.InBlock p e ↔ dir.InBlock p e := by
  unfold DirInode.InBlock
  rw [h.block]

lemma SameTable.held {dir' : DirInode} (h : SameTable dir dir') (p : ℕ × ℕ) (e : Entry) :
    dir'.Held p e ↔ dir.Held p e := by
  unfold DirInode.Held
  rw [h.inlineDentry]
  cases dir.inlineDentry with
  | some d => exact Iff.rfl
  | none => exact h.inBlock p e

lemma SameTable.tableInv {dir' : DirInode} (h : SameTable dir dir') (hinv : TableInv lay dir)
    (hclevel : dir'.clevel ≤ dir.iCurrentDepth) : TableInv lay dir' where
  inv n d hd := hinv.inv n d (h.block ▸ hd)
  max n d hd := hinv.max n d (h.block ▸ hd)
  range n d hd := hinv.range n d (h.block ▸ hd)
  size n d hd := h.iSize.symm ▸ hinv.size n d (h.block ▸ hd)
  ok p e he := hinv.ok p e ((h.inBlock p e).mp he)
  bucket p e he := by
    rw [h.iCurrentDepth, h.iDirLevel]
    exact hinv.bucket p e ((h.inBlock p e).mp he)
  depth := h.iCurrentDepth.symm ▸ hinv.depth
  clevel := h.iCurrentDepth.symm ▸ hclevel

/-- What a search of one level says about the bucket, if its first block could be one of a file. -/
lemma findInLevel_spec (hinv : TableInv lay dir) (level : ℕ) (name : List Byte) :
    ∃ r dir', findInLevel lay dir level name = some (r, dir') ∧ SameTable dir dir' ∧
      (dir'.clevel = dir.clevel ∨ dir'.clevel = level) ∧
      (∀ p, r.de = some p → r.err = none ∧ ∃ e, dir.InBlock p e ∧ e.name = name) ∧
      (∀ x, r.err = some x → x = e2big) ∧
      let start := dirBlockIndex level dir.iDirLevel
        (f2fsDentryHash name % dirBuckets level dir.iDirLevel)
      (start < 2 ^ 31 → (r.de = none → dir.NotIn name start (start + bucketBlocks level)) ∧
        (getNodePath lay (start + bucketBlocks level - 1) ≠ none → r.err = none)) := by
  set start := dirBlockIndex level dir.iDirLevel
    (f2fsDentryHash name % dirBuckets level dir.iDirLevel) with hstart
  have hblocks := bucketBlocks_le level
  obtain ⟨r, hr, hfound⟩ := findBlocks_spec hinv name
    ((start % 2 ^ 32 + bucketBlocks level) % 2 ^ 32 - start % 2 ^ 32) (start % 2 ^ 32) false
  refine ⟨r, _, by rw [findInLevel, ← hstart, hr]; rfl, ?_, ?_, hfound.found,
    fun x hx => (hfound.err x hx).1, fun hlow => ?_⟩
  · split_ifs
    · exact ⟨rfl, rfl, rfl, rfl, rfl, rfl⟩
    · exact SameTable.refl dir
  · split_ifs
    · exact Or.inr rfl
    · exact Or.inl rfl
  · have hstop : start % 2 ^ 32 + ((start % 2 ^ 32 + bucketBlocks level) % 2 ^ 32 - start % 2 ^ 32)
        = start + bucketBlocks level := by omega
    rw [hstop, Nat.mod_eq_of_lt (by omega)] at hfound
    refine ⟨hfound.absent, fun hpath => ?_⟩
    cases herr : r.err with
    | none => rfl
    | some x => exact absurd (hfound.err x herr).2 hpath

/-! ## A lookup -/

/-- An entry with the name is in its bucket on one of these levels. -/
def DirInode.OnLevels (dir : DirInode) (name : List Byte) (start stop : ℕ) : Prop :=
  ∃ p e, dir.InBlock p e ∧ e.name = name ∧
    ∃ level, start ≤ level ∧ level < stop ∧ InBucket dir.iDirLevel e.hash level p.1

/-- What a lookup says. -/
structure LookupResult (dir : DirInode) (name : List Byte) (r : FoundEntry) : Prop where
  found : ∀ p, r.de = some p → r.err = none ∧ ∃ e, dir.Held p e ∧ e.name = name
  absent : r.de = none → ∀ p e, dir.Held p e → e.name ≠ name
  err : ∀ x, r.err = some x → x = e2big

lemma findLevels_spec (hinv : TableInv lay dir) (name : List Byte) (k level : ℕ)
    (hlevels : level + k ≤ dir.iCurrentDepth) :
    ∃ r dir', findLevels lay name k level dir = some (r, dir') ∧ SameTable dir dir' ∧
      dir'.clevel ≤ dir.iCurrentDepth ∧
      (∀ p, r.de = some p → r.err = none ∧ ∃ e, dir.InBlock p e ∧ e.name = name) ∧
      (r.de = none → ¬ dir.OnLevels name level (level + k)) ∧
      (∀ x, r.err = some x → x = e2big) := by
  induction k generalizing level dir with
  | zero =>
      refine ⟨_, _, rfl, SameTable.refl dir, hinv.clevel, by simp, fun _ => ?_, by simp⟩
      rintro ⟨-, -, -, -, l, h1, h2, -⟩
      omega
  | succ k ih =>
      obtain ⟨r, dir', hr, hsame, hclevel, hfound, herr, hlow⟩ := findInLevel_spec hinv level name
      have hclevel' : dir'.clevel ≤ dir.iCurrentDepth := by
        have := hinv.clevel
        omega
      -- an entry of this level or of a later one keeps this level from failing
      have hpast : r.de = none → ∀ p e l, dir.InBlock p e → e.name = name → level ≤ l →
          InBucket dir.iDirLevel e.hash l p.1 → r.err = none ∧ level < l := by
        intro hde p e l he hname hl hin
        have hhash := (hinv.ok _ _ he).hash
        have hrange : getNodePath lay p.1 ≠ none := by
          obtain ⟨d, hd, -⟩ := he
          exact hinv.range _ _ hd
        have hn := lt_of_ne_none hrange
        rcases hl.eq_or_lt with rfl | hlt
        · rw [hhash, hname] at hin
          exact absurd hin ((hlow (lt_of_le_of_lt hin.1 hn)).1 hde p e he hname)
        · have hbefore := bucket_before (f2fsDentryHash name) hin hn hlt
          exact ⟨(hlow (by omega)).2 (getNodePath_mono hrange (by omega)), hlt⟩
      unfold findLevels
      rw [hr, Option.bind_some]
      by_cases hstop : r.de ≠ none ∨ r.err ≠ none
      · rw [if_pos hstop]
        refine ⟨_, _, rfl, hsame, hclevel', hfound, fun hde => ?_, herr⟩
        rintro ⟨p, e, he, hname, l, h1, -, hin⟩
        exact (hstop.resolve_left fun h => h hde) (hpast hde p e l he hname h1 hin).1
      · rw [if_neg hstop]
        have hde : r.de = none := by
          by_contra h
          exact hstop (Or.inl h)
        obtain ⟨r', dir'', hr', hsame', hclevel'', hfound', habsent', herr'⟩ :=
          ih (hsame.tableInv hinv hclevel') (level + 1)
            (by rw [hsame.iCurrentDepth]; omega)
        refine ⟨r', dir'', hr', hsame.trans hsame', hsame.iCurrentDepth ▸ hclevel'', fun p hp => ?_,
          fun hde' => ?_, herr'⟩
        · obtain ⟨h, e, he, hname⟩ := hfound' p hp
          exact ⟨h, e, (hsame.inBlock p e).mp he, hname⟩
        · rintro ⟨p, e, he, hname, l, h1, h2, hin⟩
          have hlt := (hpast hde p e l he hname h1 hin).2
          exact habsent' hde' ⟨p, e, (hsame.inBlock p e).mpr he, hname, l, hlt, by omega,
            by rw [hsame.iDirLevel]; exact hin⟩

end Hoit.Dir
