import HoitF2fs.Dir.HashLookup

/-!
# Where a new entry goes

`f2fs_add_regular_entry` looks for room in the bucket of each level, and makes each block that it
looks into.  So blocks without entries may come to the directory even if the call fails.

* `Grown` — blocks without entries have come to the directory.
* `AddError` — why no room is found.
* `TableInv.setBlock` — a block is replaced, or given up.
* `f2fsAddRegularEntry_spec` — **a new entry comes to the others, or none does.**
-/

namespace Hoit.Dir

open NodePath Bitmap ByteStore

variable {lay : AddrLayout} {dir dir' : DirInode} {newPageErr : ℕ → Option Err}
  {slots hash level currentDepth fuel : ℕ} {name : List Byte}

/-! ## Blocks without entries -/

lemma emptyDentryBlock_stores (i : ℕ) (e : Entry) : ¬ emptyDentryBlock.Stores i e := fun h =>
  Bool.false_ne_true h.1.2.1

lemma emptyDentryBlock_inv : BlockInv emptyDentryBlock where
  ok := ⟨fun _ hi => absurd hi.2.1 Bool.false_ne_true, fun _ hi => absurd hi.2.1 Bool.false_ne_true⟩
  short _ hi := absurd hi.2.1 Bool.false_ne_true
  cover _ _ hset := absurd hset Bool.false_ne_true
  beyond _ _ := rfl

structure Grown (lay : AddrLayout) (dir dir' : DirInode) : Prop where
  maxInlineData : dir'.maxInlineData = dir.maxInlineData
  inlineDentry : dir'.inlineDentry = dir.inlineDentry
  iCurrentDepth : dir'.iCurrentDepth = dir.iCurrentDepth
  iDirLevel : dir'.iDirLevel = dir.iDirLevel
  clevel : dir'.clevel = dir.clevel
  iSize : dir.iSize ≤ dir'.iSize
  block : ∀ n, dir'.block n = dir.block n ∨
    dir.block n = none ∧ dir'.block n = some emptyDentryBlock ∧ getNodePath lay n ≠ none ∧
      (n + 1) * 4096 ≤ dir'.iSize

lemma Grown.refl (dir : DirInode) : Grown lay dir dir :=
  ⟨rfl, rfl, rfl, rfl, rfl, le_rfl, fun _ => Or.inl rfl⟩

lemma Grown.trans {dir'' : DirInode} (h : Grown lay dir dir') (h' : Grown lay dir' dir'') :
    Grown lay dir dir'' where
  maxInlineData := h'.maxInlineData.trans h.maxInlineData
  inlineDentry := h'.inlineDentry.trans h.inlineDentry
  iCurrentDepth := h'.iCurrentDepth.trans h.iCurrentDepth
  iDirLevel := h'.iDirLevel.trans h.iDirLevel
  clevel := h'.clevel.trans h.clevel
  iSize := h.iSize.trans h'.iSize
  block n := by
    rcases h'.block n with heq' | ⟨hnone', hnew', hpath', hsize'⟩
    · rcases h.block n with heq | ⟨hnone, hnew, hpath, hsize⟩
      · exact Or.inl (heq'.trans heq)
      · exact Or.inr ⟨hnone, heq'.trans hnew, hpath, hsize.trans h'.iSize⟩
    · rcases h.block n with heq | ⟨-, hnew, -, -⟩
      · exact Or.inr ⟨heq ▸ hnone', hnew', hpath', hsize'⟩
      · rw [hnew] at hnone'
        exact absurd hnone' (Option.some_ne_none _)

lemma Grown.block_of_some {n : ℕ} {d : DentryPtr} (h : Grown lay dir dir')
    (hd : dir.block n = some d) : dir'.block n = some d := by
  rcases h.block n with heq | ⟨hnone, -, -, -⟩
  · exact heq.trans hd
  · rw [hd] at hnone
    exact absurd hnone (Option.some_ne_none d)

/-- The entries are those from before. -/
lemma Grown.inBlock (h : Grown lay dir dir') (p : ℕ × ℕ) (e : Entry) :
    dir'.InBlock p e ↔ dir.InBlock p e := by
  constructor
  · rintro ⟨d, hd, he⟩
    rcases h.block p.1 with heq | ⟨-, hnew, -, -⟩
    · exact ⟨d, heq ▸ hd, he⟩
    · rw [hnew] at hd
      obtain rfl := Option.some.inj hd
      exact absurd he (emptyDentryBlock_stores _ _)
  · rintro ⟨d, hd, he⟩
    exact ⟨d, h.block_of_some hd, he⟩

lemma Grown.tableInv (h : Grown lay dir dir') (hinv : TableInv lay dir) : TableInv lay dir' := by
  have hcases : ∀ n d, dir'.block n = some d → dir.block n = some d ∨
      d = emptyDentryBlock ∧ getNodePath lay n ≠ none ∧ (n + 1) * 4096 ≤ dir'.iSize := by
    intro n d hd
    rcases h.block n with heq | ⟨-, hnew, hpath, hsize⟩
    · exact Or.inl (heq ▸ hd)
    · exact Or.inr ⟨(Option.some.inj (hnew.symm.trans hd)).symm, hpath, hsize⟩
  refine ⟨fun n d hd => ?_, fun n d hd => ?_, fun n d hd => ?_, fun n d hd => ?_, fun p e he => ?_,
    fun p e he => ?_, ?_, ?_⟩
  · rcases hcases n d hd with hd | ⟨rfl, -, -⟩
    · exact hinv.inv n d hd
    · exact emptyDentryBlock_inv
  · rcases hcases n d hd with hd | ⟨rfl, -, -⟩
    · exact hinv.max n d hd
    · rfl
  · rcases hcases n d hd with hd | ⟨-, hpath, -⟩
    · exact hinv.range n d hd
    · exact hpath
  · rcases hcases n d hd with hd | ⟨-, -, hsize⟩
    · exact (hinv.size n d hd).trans h.iSize
    · exact hsize
  · exact hinv.ok p e ((h.inBlock p e).mp he)
  · rw [h.iCurrentDepth, h.iDirLevel]
    exact hinv.bucket p e ((h.inBlock p e).mp he)
  · exact h.iCurrentDepth.symm ▸ hinv.depth
  · rw [h.clevel, h.iCurrentDepth]
    exact hinv.clevel

/-! ## The search for room -/

/-- Why no room is found: there are no more blocks, or no more levels, or a block cannot be had. -/
def AddError (newPageErr : ℕ → Option Err) (e : ℤ) : Prop :=
  e = e2big ∨ e = enospc ∨ ∃ n x, newPageErr n = some x ∧ e = x.1

lemma AddError.neg {e : ℤ} (h : AddError newPageErr e) : e < 0 ∧ e ≠ eagain := by
  rcases h with rfl | rfl | ⟨-, x, -, rfl⟩
  · decide
  · decide
  · exact x.2

/-- The block as `f2fs_get_new_data_page` gives it. -/
def DirInode.newBlock (dir : DirInode) (n : ℕ) : DentryPtr := (dir.block n).getD emptyDentryBlock

lemma newBlock_max (hinv : TableInv lay dir) (n : ℕ) : (dir.newBlock n).max = nrDentryInBlock := by
  unfold DirInode.newBlock
  cases hd : dir.block n with
  | none => rfl
  | some d => exact hinv.max n d hd

lemma f2fsGetNewDataPage_ok {d : DentryPtr} {n : ℕ}
    (h : f2fsGetNewDataPage lay newPageErr dir n = .ok (d, dir')) :
    Grown lay dir dir' ∧ dir'.block n = some d ∧ d = dir.newBlock n := by
  unfold f2fsGetNewDataPage at h
  cases hpath : getNodePath lay n with
  | none =>
      rw [hpath] at h
      cases h
  | some path =>
      cases herr : newPageErr n with
      | some e =>
          rw [hpath, herr] at h
          cases h
      | none =>
          rw [hpath, herr] at h
          obtain ⟨rfl, rfl⟩ := Prod.mk.inj (Except.ok.inj h)
          refine ⟨⟨rfl, rfl, rfl, rfl, rfl, le_max_left _ _, fun m => ?_⟩,
            Function.update_self .., rfl⟩
          by_cases hm : m = n
          · subst hm
            cases hd : dir.block m with
            | some d => exact Or.inl (Function.update_self ..)
            | none =>
                refine Or.inr ⟨rfl, Function.update_self .., ?_, le_max_right _ _⟩
                rw [hpath]
                exact Option.some_ne_none path
          · exact Or.inl (Function.update_of_ne hm ..)

lemma f2fsGetNewDataPage_error {e : ℤ} {n : ℕ}
    (h : f2fsGetNewDataPage lay newPageErr dir n = .error e) : AddError newPageErr e := by
  unfold f2fsGetNewDataPage at h
  cases hpath : getNodePath lay n with
  | none =>
      rw [hpath] at h
      exact Or.inl (Except.error.inj h).symm
  | some path =>
      cases herr : newPageErr n with
      | some x =>
          rw [hpath, herr] at h
          exact Or.inr (Or.inr ⟨n, x, herr, (Except.error.inj h).symm⟩)
      | none =>
          rw [hpath, herr] at h
          cases h

/-- Room is found at slot `p` of block `b`. -/
def DirInode.HasRoom (dir : DirInode) (slots b p : ℕ) : Prop :=
  ∃ d, dir.block b = some d ∧ p < d.max ∧ RoomFrom d.bitmap slots d.max 0 p

/-- What the search of blocks from `start` up to `stop` says. -/
structure BlocksAdded (lay : AddrLayout) (newPageErr : ℕ → Option Err) (slots : ℕ)
    (dir : DirInode) (start stop : ℕ) (x : RoomResult × DirInode) : Prop where
  grown : Grown lay dir x.2
  failed : ∀ e, x.1 = .failed e → AddError newPageErr e
  found : ∀ b p, x.1 = .found b p → start ≤ b ∧ b < stop ∧ x.2.HasRoom slots b p
  /-- The first block is taken if it can be. -/
  first : start < stop → ∀ q, Gap (dir.newBlock start).bitmap slots nrDentryInBlock q →
    x.1 ≠ .full ∧ ∀ b p, x.1 = .found b p → b = start

lemma addBlocks_spec (newPageErr : ℕ → Option Err) (hinv : TableInv lay dir) (hslots : 0 < slots) (k block : ℕ) :
    ∃ x, addBlocks lay newPageErr slots k block dir = some x ∧
      BlocksAdded lay newPageErr slots dir block (block + k) x := by
  induction k generalizing block dir with
  | zero => exact ⟨_, rfl, Grown.refl dir, by simp, by simp, by simp⟩
  | succ k ih =>
      unfold addBlocks
      cases hpage : f2fsGetNewDataPage lay newPageErr dir block with
      | error e =>
          refine ⟨_, rfl, Grown.refl dir, fun e' he' => ?_, by simp, by simp⟩
          obtain rfl := RoomResult.failed.inj he'
          exact f2fsGetNewDataPage_error hpage
      | ok y =>
          obtain ⟨d, dir'⟩ := y
          obtain ⟨hgrown, hd, hnew⟩ := f2fsGetNewDataPage_ok hpage
          have hmax : d.max = nrDentryInBlock := by
            rw [hnew]
            exact newBlock_max hinv block
          obtain ⟨r, hr, hroom⟩ := f2fsRoomForFilename_spec d.bitmap nrDentryInBlock hslots
          dsimp only
          rw [hr, Option.bind_some]
          by_cases hlt : r < nrDentryInBlock
          · rw [if_pos hlt]
            refine ⟨_, rfl, hgrown, by simp, fun b p hx => ?_, fun _ q _ => ⟨by simp, ?_⟩⟩
            · obtain ⟨rfl, rfl⟩ := RoomResult.found.inj hx
              exact ⟨le_rfl, by omega, d, hd, by rw [hmax]; exact hlt, by rw [hmax]; exact hroom⟩
            · intro b p hx
              exact (RoomResult.found.inj hx).1.symm
          · rw [if_neg hlt]
            obtain ⟨x, hx, hadded⟩ := ih (hgrown.tableInv hinv) (block + 1)
            refine ⟨x, hx, hgrown.trans hadded.grown, hadded.failed, fun b p hfound => ?_,
              fun _ q hq => ?_⟩
            · obtain ⟨h1, h2, h3⟩ := hadded.found b p hfound
              exact ⟨by omega, by omega, h3⟩
            · rw [← hnew] at hq
              have hfit := hq.1
              exact absurd hq (hroom.first q (Nat.zero_le q) (by omega))

/-- What the search of the levels from `level` on says. -/
structure LevelsAdded (lay : AddrLayout) (newPageErr : ℕ → Option Err) (slots hash : ℕ)
    (dir : DirInode) (level currentDepth : ℕ) (x : RoomResult × ℕ × DirInode) : Prop where
  grown : Grown lay dir x.2.2
  depth : currentDepth ≤ x.2.1 ∧ x.2.1 ≤ maxDirHashDepth
  not_full : x.1 ≠ .full
  failed : ∀ e, x.1 = .failed e → AddError newPageErr e
  found : ∀ b p, x.1 = .found b p → x.2.2.HasRoom slots b p ∧
    ∃ l < x.2.1, InBucket dir.iDirLevel hash l b
  first : ∀ q, Gap (dir.newBlock (dirBlockIndex level dir.iDirLevel
      (hash % dirBuckets level dir.iDirLevel))).bitmap slots nrDentryInBlock q →
    ∀ b p, x.1 = .found b p →
      b = dirBlockIndex level dir.iDirLevel (hash % dirBuckets level dir.iDirLevel)

lemma bucketBlocks_pos (level : ℕ) : 0 < bucketBlocks level := by
  unfold bucketBlocks
  split_ifs <;> omega

lemma addLevels_spec (newPageErr : ℕ → Option Err) (hash : ℕ) (hinv : TableInv lay dir)
    (hslots : 0 < slots) (hlevel : level ≤ currentDepth) (hdepth : currentDepth ≤ maxDirHashDepth)
    (hfuel : maxDirHashDepth < level + fuel) :
    ∃ x, addLevels lay newPageErr slots hash fuel level currentDepth dir = some x ∧
      LevelsAdded lay newPageErr slots hash dir level currentDepth x := by
  induction fuel generalizing level currentDepth dir with
  | zero => omega
  | succ fuel ih =>
      unfold addLevels
      by_cases hlast : currentDepth = maxDirHashDepth
      · rw [if_pos hlast]
        refine ⟨_, rfl, Grown.refl dir, ⟨le_rfl, hdepth⟩, by simp, fun e he => ?_, by simp, by simp⟩
        obtain rfl := RoomResult.failed.inj he
        exact Or.inr (Or.inl rfl)
      rw [if_neg hlast]
      obtain ⟨depth, hdef, hlt, hle, hle'⟩ : ∃ depth,
          (if level = currentDepth then currentDepth + 1 else currentDepth) = depth ∧
            level < depth ∧ currentDepth ≤ depth ∧ depth ≤ maxDirHashDepth := by
        refine ⟨_, rfl, ?_⟩
        split_ifs <;> omega
      dsimp only
      rw [hdef]
      set bidx := dirBlockIndex level dir.iDirLevel (hash % dirBuckets level dir.iDirLevel)
        with hbidx
      obtain ⟨x, hx, hadded⟩ := addBlocks_spec newPageErr hinv hslots
        (bucketBlocks level) bidx
      rw [hx, Option.bind_some]
      have hpos := bucketBlocks_pos level
      cases hres : x.1 with
      | failed e =>
          refine ⟨_, rfl, hadded.grown, ⟨hle, hle'⟩, by simp, fun e' he' => ?_, by simp, by simp⟩
          obtain rfl := RoomResult.failed.inj he'
          exact hadded.failed e hres
      | found b p =>
          obtain ⟨h1, h2, hroom⟩ := hadded.found b p hres
          refine ⟨_, rfl, hadded.grown, ⟨hle, hle'⟩, by simp, by simp, fun b' p' hfound => ?_,
            fun q hq b' p' hfound => ?_⟩
          · obtain ⟨rfl, rfl⟩ := RoomResult.found.inj hfound
            exact ⟨hroom, level, hlt, h1, h2⟩
          · obtain ⟨rfl, rfl⟩ := RoomResult.found.inj hfound
            exact (hadded.first (by omega) q hq).2 b p hres
      | full =>
          obtain ⟨y, hy, hadded'⟩ := ih (hadded.grown.tableInv hinv)
            (show level + 1 ≤ depth from hlt) hle' (by omega)
          refine ⟨y, hy, hadded.grown.trans hadded'.grown, ⟨hle.trans hadded'.depth.1,
            hadded'.depth.2⟩, hadded'.not_full, hadded'.failed, fun b p hfound => ?_,
            fun q hq => ?_⟩
          · rw [← hadded.grown.iDirLevel]
            exact hadded'.found b p hfound
          · exact absurd hres (hadded.first (by omega) q hq).1

/-! ## A block is replaced -/

lemma inBlock_update {dir : DirInode} {n : ℕ} {o : Option DentryPtr} {p : ℕ × ℕ} {e : Entry} :
    { dir with block := Function.update dir.block n o }.InBlock p e
      ↔ p.1 ≠ n ∧ dir.InBlock p e ∨ p.1 = n ∧ ∃ d, o = some d ∧ d.Stores p.2 e := by
  unfold DirInode.InBlock
  dsimp only
  by_cases hp : p.1 = n
  · rw [hp, Function.update_self]
    simp
  · rw [Function.update_of_ne hp]
    simp [hp]

lemma TableInv.setBlock {n depth : ℕ} {o : Option DentryPtr} (h : TableInv lay dir)
    (hn : dir.block n ≠ none) (hdepth : dir.iCurrentDepth ≤ depth)
    (hdepth' : depth ≤ maxDirHashDepth)
    (ho : ∀ d, o = some d → BlockInv d ∧ d.max = nrDentryInBlock ∧
      ∀ i e, d.Stores i e → e.Ok ∧ ∃ level < depth, InBucket dir.iDirLevel e.hash level n) :
    TableInv lay { dir with
      block := Function.update dir.block n o
      iCurrentDepth := depth } := by
  obtain ⟨d₀, hd₀⟩ := Option.ne_none_iff_exists'.mp hn
  have hcases : ∀ m d, Function.update dir.block n o m = some d →
      dir.block m = some d ∨ m = n ∧ o = some d := by
    intro m d hd
    by_cases hm : m = n
    · rw [hm, Function.update_self] at hd
      exact Or.inr ⟨hm, hd⟩
    · rw [Function.update_of_ne hm] at hd
      exact Or.inl hd
  have hentry : ∀ p e, { dir with
      block := Function.update dir.block n o
      iCurrentDepth := depth }.InBlock p e →
      dir.InBlock p e ∨ p.1 = n ∧ ∃ d, o = some d ∧ d.Stores p.2 e :=
    fun p e he => (inBlock_update.mp he).imp And.right id
  refine ⟨fun m d hd => ?_, fun m d hd => ?_, fun m d hd => ?_, fun m d hd => ?_, fun p e he => ?_,
    fun p e he => ?_, hdepth', h.clevel.trans hdepth⟩
  · rcases hcases m d hd with hd | ⟨-, hd⟩
    · exact h.inv m d hd
    · exact (ho d hd).1
  · rcases hcases m d hd with hd | ⟨-, hd⟩
    · exact h.max m d hd
    · exact (ho d hd).2.1
  · rcases hcases m d hd with hd | ⟨rfl, -⟩
    · exact h.range m d hd
    · exact h.range m d₀ hd₀
  · rcases hcases m d hd with hd | ⟨rfl, -⟩
    · exact h.size m d hd
    · exact h.size m d₀ hd₀
  · rcases hentry p e he with he | ⟨-, d, hd, he⟩
    · exact h.ok p e he
    · exact ((ho d hd).2.2 _ e he).1
  · rcases hentry p e he with he | ⟨hp, d, hd, he⟩
    · obtain ⟨level, hlevel, hin⟩ := h.bucket p e he
      exact ⟨level, hlevel.trans_le hdepth, hin⟩
    · rw [hp]
      exact ((ho d hd).2.2 _ e he).2

/-! ## A new entry -/

lemma f2fsTypeByMode_lt (mode : ℕ) : f2fsTypeByMode mode < 8 := by
  have hlt : mode / 2 ^ 12 % 16 < 16 := Nat.mod_lt _ (by decide)
  unfold f2fsTypeByMode
  generalize mode / 2 ^ 12 % 16 = k at hlt
  revert hlt
  revert k
  decide

/-- The entry that is made for a name. -/
def newEntry (name : List Byte) (ino mode : ℕ) : Entry :=
  ⟨f2fsDentryHash name, name, ino, f2fsTypeByMode mode⟩

/-- The first block and the first gap, in the bucket where the search starts. -/
def DirInode.FirstRoom (dir : DirInode) (name : List Byte) (p : ℕ × ℕ) : Prop :=
  let level := if dir.chash = f2fsDentryHash name then dir.clevel else 0
  let bidx := dirBlockIndex level dir.iDirLevel
    (f2fsDentryHash name % dirBuckets level dir.iDirLevel)
  ∀ q, Gap (dir.newBlock bidx).bitmap (getDentrySlots name.length) nrDentryInBlock q →
    p.1 = bidx ∧ p.2 ≤ q ∧ Gap (dir.newBlock bidx).bitmap (getDentrySlots name.length)
      nrDentryInBlock p.2

/-- What `f2fs_add_regular_entry` does. -/
structure Added (lay : AddrLayout) (newPageErr : ℕ → Option Err) (initErr : Option Err)
    (dir : DirInode) (name : List Byte) (ino mode : ℕ) (e : ℤ) (dir' : DirInode) : Prop where
  inv : TableInv lay dir'
  maxInlineData : dir'.maxInlineData = dir.maxInlineData
  inlineDentry : dir'.inlineDentry = dir.inlineDentry
  iDirLevel : dir'.iDirLevel = dir.iDirLevel
  clevel : dir'.clevel = dir.clevel
  failed : e ≠ 0 → (AddError newPageErr e ∨ ∃ x, initErr = some x ∧ e = x.1) ∧
    ∀ q x, dir'.InBlock q x ↔ dir.InBlock q x
  added : e = 0 → ∃ p, dir.FirstRoom name p ∧
    ∀ q x, dir'.InBlock q x ↔ dir.InBlock q x ∨ q = p ∧ x = newEntry name ino mode

lemma slots_of_name (hname : name ≠ []) : 0 < getDentrySlots name.length :=
  getDentrySlots_pos fun h => hname (List.eq_nil_of_length_eq_zero h)

lemma f2fsAddRegularEntry_spec (newPageErr : ℕ → Option Err) (initErr : Option Err) (ino mode : ℕ)
    (hinv : TableInv lay dir) (hname : name ≠ []) (hshort : name.length ≤ f2fsNameLen) :
    ∃ e dir', f2fsAddRegularEntry lay newPageErr initErr dir name ino mode = some (e, dir') ∧
      Added lay newPageErr initErr dir name ino mode e dir' := by
  -- the hint is used once
  obtain ⟨dir₁, hdir₁, hsame, hclevel⟩ : ∃ dir₁,
      (if dir.chash = f2fsDentryHash name then { dir with chash := 0 } else dir) = dir₁ ∧
        SameTable dir dir₁ ∧ dir₁.clevel = dir.clevel := by
    refine ⟨_, rfl, ?_⟩
    split_ifs
    · exact ⟨⟨rfl, rfl, rfl, rfl, rfl, rfl⟩, rfl⟩
    · exact ⟨SameTable.refl dir, rfl⟩
  have hinv₁ : TableInv lay dir₁ := hsame.tableInv hinv (hclevel ▸ hinv.clevel)
  have hlevel : (if dir.chash = f2fsDentryHash name then dir.clevel else 0) ≤ dir₁.iCurrentDepth := by
    rw [hsame.iCurrentDepth]
    split_ifs
    · exact hinv.clevel
    · exact Nat.zero_le _
  obtain ⟨x, hx, hadded⟩ := addLevels_spec newPageErr (f2fsDentryHash name) hinv₁
    (slots_of_name hname) hlevel hinv₁.depth (show maxDirHashDepth < _ + (maxDirHashDepth + 1) by omega)
  have hinv₂ := hadded.grown.tableInv hinv₁
  have hin : ∀ q e, x.2.2.InBlock q e ↔ dir.InBlock q e := fun q e =>
    (hadded.grown.inBlock q e).trans (hsame.inBlock q e)
  have hfailed : ∀ e : ℤ, AddError newPageErr e ∨ (∃ x, initErr = some x ∧ e = x.1) → e ≠ 0 →
      Added lay newPageErr initErr dir name ino mode e x.2.2 := fun e he hne =>
    ⟨hinv₂, hadded.grown.maxInlineData.trans hsame.maxInlineData,
      hadded.grown.inlineDentry.trans hsame.inlineDentry,
      hadded.grown.iDirLevel.trans hsame.iDirLevel, hadded.grown.clevel.trans hclevel,
      fun _ => ⟨he, hin⟩, fun h => absurd h hne⟩
  unfold f2fsAddRegularEntry
  dsimp only
  rw [hdir₁, hx, Option.map_some]
  cases hres : x.1 with
  | full => exact absurd hres hadded.not_full
  | failed e =>
      have herr := hadded.failed e hres
      exact ⟨_, _, rfl, hfailed e (Or.inl herr) herr.neg.1.ne⟩
  | found b p =>
      cases hinit : initErr with
      | some err =>
          dsimp only
          rw [← hinit]
          exact ⟨_, _, rfl, hfailed err.1 (Or.inr ⟨err, hinit, rfl⟩) err.2.1.ne⟩
      | none =>
          obtain ⟨⟨d, hd, hp, hroom⟩, l, hl, hbucket⟩ := hadded.found b p hres
          have hgap := hroom.gap hp
          have hd' := hinv₂.inv b d hd
          have hmax := hinv₂.max b d hd
          dsimp only
          rw [hd, Option.map_some]
          refine ⟨_, _, rfl, ?_, hadded.grown.maxInlineData.trans hsame.maxInlineData,
            hadded.grown.inlineDentry.trans hsame.inlineDentry,
            hadded.grown.iDirLevel.trans hsame.iDirLevel, hadded.grown.clevel.trans hclevel,
            fun h => absurd rfl h, fun _ => ⟨(b, p), fun q hq => ?_, fun q e => ?_⟩⟩
          · refine hinv₂.setBlock (by rw [hd]; exact Option.some_ne_none d)
              (hadded.grown.iCurrentDepth ▸ hadded.depth.1) hadded.depth.2 fun d₁ hd₁ => ?_
            obtain rfl := Option.some.inj hd₁
            refine ⟨update_inv hd' hgap hname hshort, hmax, fun i e he => ?_⟩
            rcases (update_stores hd' hgap hname).mp he with he | ⟨-, rfl⟩
            · obtain ⟨l', hl', hin'⟩ := hinv₂.bucket (b, i) e ⟨d, hd, he⟩
              refine ⟨hinv₂.ok (b, i) e ⟨d, hd, he⟩, l', lt_of_lt_of_le hl' ?_, hin'⟩
              exact hadded.grown.iCurrentDepth ▸ hadded.depth.1
            · refine ⟨⟨rfl, f2fsTypeByMode_lt mode⟩, l, hl, ?_⟩
              rw [hadded.grown.iDirLevel]
              exact hbucket
          · have hnew : ∀ m, dir₁.newBlock m = dir.newBlock m := fun m => by
              unfold DirInode.newBlock
              rw [hsame.block]
            have hfirst := hadded.first q
            rw [hsame.iDirLevel, hnew] at hfirst
            have hb := hfirst hq b p hres
            -- the block is the one that the search has met first
            have hblock : d = dir.newBlock b := by
              unfold DirInode.newBlock
              rcases hadded.grown.block b with heq | ⟨hnone, hnew', -, -⟩
              · rw [← hsame.block, ← heq, hd]
                rfl
              · rw [← hsame.block, hnone]
                exact Option.some.inj (hd.symm.trans hnew')
            rw [← hb, ← hblock] at hq ⊢
            rw [hmax] at hroom hgap
            exact ⟨rfl, not_lt.mp fun hlt => hroom.first q (Nat.zero_le q) hlt hq, hgap⟩
          · refine (inBlock_update.trans ?_ : _ ↔ _)
            constructor
            · rintro (⟨-, he⟩ | ⟨hq, d₁, hd₁, he⟩)
              · exact Or.inl ((hin q e).mp he)
              · obtain rfl := Option.some.inj hd₁
                rcases (update_stores hd' hgap hname).mp he with he | ⟨hqp, rfl⟩
                · exact Or.inl ((hin q e).mp ⟨d, hq ▸ hd, he⟩)
                · exact Or.inr ⟨Prod.ext hq hqp, rfl⟩
            · rintro (he | ⟨rfl, rfl⟩)
              · have he' := (hin q e).mpr he
                by_cases hq : q.1 = b
                · obtain ⟨d₁, hd₁, hs⟩ := he'
                  obtain rfl := Option.some.inj ((hq ▸ hd).symm.trans hd₁)
                  exact Or.inr ⟨hq, _, rfl, (update_stores hd' hgap hname).mpr (Or.inl hs)⟩
                · exact Or.inl ⟨hq, he'⟩
              · exact Or.inr ⟨rfl, _, rfl,
                  (update_stores hd' hgap hname).mpr (Or.inr ⟨rfl, rfl⟩)⟩

end Hoit.Dir
