import HoitF2fs.Dir.HashInsert

/-!
# An inline directory makes room

When there is no room in its inline area, a directory gets blocks.  Without `i_dir_level` the area
is copied into the first of them; otherwise each entry is hashed anew, and if that fails half-way,
the blocks are given up and the area comes back.

* `InlineInv`, `DirInv` — the invariant of an inline directory, and of any.
* `Copied` — what the blocks have while the entries are hashed anew: **just the entries up to the
  one that comes next**.
* `Converted` — a conversion keeps the entries, whether it fails or not.
* `f2fsAddDentry_spec` — a new entry comes to the map, or the map stays as it is.
-/

namespace Hoit.Dir

open NodePath Bitmap ByteStore Places

variable {lay : AddrLayout} {dir dir' : DirInode} {d dst : DentryPtr} {env : DirEnv}
  {name : List Byte}

/-! ## The invariant -/

structure InlineInv (dir : DirInode) (d : DentryPtr) : Prop where
  inline : dir.inlineDentry = some d
  inv : BlockInv d
  max : d.max ≤ nrDentryInBlock
  ok : ∀ i e, d.Stores i e → e.Ok
  noBlock : ∀ n, dir.block n = none
  depth : dir.iCurrentDepth ≤ maxDirHashDepth
  clevel : dir.clevel = 0

structure DirInv (lay : AddrLayout) (dir : DirInode) : Prop where
  inline : ∀ d, dir.inlineDentry = some d → InlineInv dir d
  regular : dir.inlineDentry = none → TableInv lay dir

/-- The directory stands for a map from names to inodes and types. -/
def DirInode.IsMap (dir : DirInode) (m : List Byte → Option (ℕ × ℕ)) : Prop :=
  Represents dir.Held Entry.name Entry.value m

/-- `.` and `..` stand in the first two slots. -/
structure DirInode.HasDots (dir : DirInode) : Prop where
  dot : ∃ e, dir.Held (0, 0) e ∧ e.name = dot
  dotdot : ∃ e, dir.Held (0, 1) e ∧ e.name = dotdot

lemma held_inline (h : dir.inlineDentry = some d) (p : ℕ × ℕ) (e : Entry) :
    dir.Held p e ↔ p.1 = 0 ∧ d.Stores p.2 e := by
  unfold DirInode.Held
  rw [h]

lemma held_regular (h : dir.inlineDentry = none) (p : ℕ × ℕ) (e : Entry) :
    dir.Held p e ↔ dir.InBlock p e := by
  unfold DirInode.Held
  rw [h]

lemma DirInode.HasDots.mono (h : dir.HasDots) (hle : ∀ p e, dir.Held p e → dir'.Held p e) :
    dir'.HasDots := by
  obtain ⟨⟨e, he, hname⟩, ⟨e', he', hname'⟩⟩ := h
  exact ⟨⟨e, hle _ e he, hname⟩, ⟨e', hle _ e' he', hname'⟩⟩

lemma InlineInv.dirInv (h : InlineInv dir d) : DirInv lay dir where
  inline d' hd' := by
    obtain rfl := Option.some.inj (h.inline.symm.trans hd')
    exact h
  regular hno := by
    rw [h.inline] at hno
    exact absurd hno (Option.some_ne_none d)

lemma TableInv.dirInv (h : TableInv lay dir) (hno : dir.inlineDentry = none) : DirInv lay dir where
  inline d hd := by
    rw [hno] at hd
    exact absurd hd.symm (Option.some_ne_none d)
  regular _ := h

/-- No block is in use yet. -/
lemma InlineInv.tableInv (h : InlineInv dir d) : TableInv lay dir := by
  have hno : ∀ {α : Prop} n d', dir.block n = some d' → α := fun n d' hd' => by
    rw [h.noBlock n] at hd'
    exact absurd hd'.symm (Option.some_ne_none d')
  exact ⟨fun n d' hd' => hno n d' hd', fun n d' hd' => hno n d' hd', fun n d' hd' => hno n d' hd',
    fun n d' hd' => hno n d' hd', fun p e he => he.elim fun d' hd' => hno _ d' hd'.1,
    fun p e he => he.elim fun d' hd' => hno _ d' hd'.1, h.depth,
    h.clevel.trans_le (Nat.zero_le _)⟩

/-! ## Conversions -/

/-- Why a call fails: there are no more blocks, or no more levels, or something fails that it
uses. -/
def DirEnv.Gives (env : DirEnv) (e : ℤ) : Prop :=
  e = e2big ∨ e = enospc ∨ (∃ k n x, env.newPageErr k n = some x ∧ e = x.1) ∨
    (∃ x, env.initErr = some x ∧ e = x.1) ∨ ∃ x, env.convertErr = some x ∧ e = x.1

lemma DirEnv.Gives.neg {e : ℤ} (h : env.Gives e) : e < 0 ∧ e ≠ eagain := by
  rcases h with rfl | rfl | ⟨-, -, x, -, rfl⟩ | ⟨x, -, rfl⟩ | ⟨x, -, rfl⟩
  · decide
  · decide
  · exact x.2
  · exact x.2
  · exact x.2

lemma AddError.gives {e : ℤ} {k : ℕ} (h : AddError (env.newPageErr k) e) : env.Gives e := by
  rcases h with h | h | ⟨n, x, h⟩
  · exact Or.inl h
  · exact Or.inr (Or.inl h)
  · exact Or.inr (Or.inr (Or.inl ⟨k, n, x, h⟩))

/-- What a conversion does. -/
structure Converted (lay : AddrLayout) (env : DirEnv) (dir : DirInode) (d : DentryPtr) (e : ℤ)
    (dir' : DirInode) : Prop where
  failed : e ≠ 0 → env.Gives e ∧ InlineInv dir' d
  done : e = 0 → dir'.inlineDentry = none ∧ TableInv lay dir'
  isMap : ∀ m, dir.IsMap m → dir'.IsMap m
  hasDots : dir.HasDots → dir'.HasDots

/-- A conversion that fails leaves the entries in the area. -/
lemma Converted.of_failed {e : ℤ} (h : InlineInv dir d) (h' : InlineInv dir' d)
    (he : env.Gives e) : Converted lay env dir d e dir' := by
  have hheld : ∀ p x, dir'.Held p x ↔ dir.Held p x := fun p x =>
    (held_inline h'.inline p x).trans (held_inline h.inline p x).symm
  exact ⟨fun _ => ⟨he, h'⟩, fun h0 => absurd h0 he.neg.1.ne, fun m hm => hm.congr hheld,
    fun hdots => hdots.mono fun p x hx => (hheld p x).mpr hx⟩

/-! ## The area is copied -/

/-- The block that the area is copied to. -/
def movedBlock (src dst : DentryPtr) : DentryPtr where
  max := nrDentryInBlock
  bitmap := fun i => if i < (src.max + 7) / 8 * 8 then src.bitmap i else false
  dentry := fun i => if i < src.max then src.dentry i else dst.dentry i
  filename := memcpy dst.filename 0 src.filename 0 (src.max * slotLen)

section Moved

variable (hinv : BlockInv d) (hmax : d.max ≤ nrDentryInBlock)

include hinv

lemma moved_bitmap (i : ℕ) : (movedBlock d dst).bitmap i = d.bitmap i := by
  show (if i < (d.max + 7) / 8 * 8 then d.bitmap i else false) = d.bitmap i
  split_ifs with h
  · rfl
  · exact (hinv.beyond i (by omega)).symm

omit hinv in
lemma moved_dentry {i : ℕ} (hi : i < d.max) : (movedBlock d dst).dentry i = d.dentry i := if_pos hi

include hmax

lemma moved_hasEntry (i : ℕ) : (movedBlock d dst).HasEntry i ↔ d.HasEntry i := by
  unfold DentryPtr.HasEntry
  rw [moved_bitmap hinv]
  constructor
  · rintro ⟨-, hset, hlen⟩
    have hlt : i < d.max := by
      by_contra hge
      rw [hinv.beyond i (not_lt.mp hge)] at hset
      exact Bool.false_ne_true hset
    rw [moved_dentry hlt] at hlen
    exact ⟨hlt, hset, hlen⟩
  · rintro ⟨hlt, hset, hlen⟩
    exact ⟨hlt.trans_le hmax, hset, by rw [moved_dentry hlt]; exact hlen⟩

omit hinv hmax in
lemma moved_slots {i : ℕ} (hi : d.HasEntry i) : (movedBlock d dst).slots i = d.slots i := by
  unfold DentryPtr.slots
  rw [moved_dentry hi.1]

omit hmax in
lemma moved_entry {i : ℕ} (hi : d.HasEntry i) : (movedBlock d dst).entry i = d.entry i := by
  have hfits := hinv.slots_le hi
  have hname := le_slots (d.dentry i).nameLen
  unfold DentryPtr.entry DentryPtr.name DentryPtr.nameSlice
  rw [moved_dentry hi.1]
  have hslice : slice (movedBlock d dst).filename (slotLen * i) (d.dentry i).nameLen
      = slice d.filename (slotLen * i) (d.dentry i).nameLen := by
    refine slice_congr fun x _ hx => ?_
    unfold DentryPtr.slots at hfits
    rw [show slotLen = 8 from rfl] at *
    refine (memcpy_in (Nat.zero_le x) (by rw [show slotLen = 8 from rfl]; omega)).trans ?_
    rw [Nat.zero_add, Nat.sub_zero]
  dsimp only
  rw [hslice]

/-- The copy has the same entries in the same slots. -/
lemma moved_stores (i : ℕ) (e : Entry) : (movedBlock d dst).Stores i e ↔ d.Stores i e := by
  unfold DentryPtr.Stores
  rw [moved_hasEntry hinv hmax]
  exact and_congr_right fun hi => by rw [moved_entry hinv hi]

lemma moved_inv : BlockInv (movedBlock d dst) := by
  refine ⟨⟨fun i hi => ?_, fun i hi j h1 h2 => ?_⟩, fun i hi => ?_, fun j hj hset => ?_,
    fun j hj => ?_⟩
  · have hi' := (moved_hasEntry hinv hmax i).mp hi
    rw [moved_dentry hi'.1]
    exact (hinv.slots_le hi').trans hmax
  · have hi' := (moved_hasEntry hinv hmax i).mp hi
    rw [moved_dentry hi'.1] at h2
    obtain ⟨hset, hlen⟩ := hinv.ok.tail i hi' j h1 h2
    have hlt : j < d.max := h2.trans_le (hinv.slots_le hi')
    rw [moved_bitmap hinv, moved_dentry hlt]
    exact ⟨hset, hlen⟩
  · have hi' := (moved_hasEntry hinv hmax i).mp hi
    rw [moved_dentry hi'.1]
    exact hinv.short i hi'
  · rw [moved_bitmap hinv] at hset
    have hlt : j < d.max := by
      by_contra hge
      rw [hinv.beyond j (not_lt.mp hge)] at hset
      exact Bool.false_ne_true hset
    obtain ⟨i, hi, h1, h2⟩ := hinv.cover j hlt hset
    exact ⟨i, (moved_hasEntry hinv hmax i).mpr hi, h1, by rwa [moved_slots hi]⟩
  · rw [moved_bitmap hinv]
    exact hinv.beyond j (hmax.trans hj)

end Moved

lemma f2fsMoveInlineDirents_spec (h : InlineInv dir d) (hlevel : dir.iDirLevel = 0) :
    Converted lay env dir d (f2fsMoveInlineDirents env dir d dst).1
      (f2fsMoveInlineDirents env dir d dst).2 := by
  unfold f2fsMoveInlineDirents
  cases herr : env.convertErr with
  | some e =>
      exact Converted.of_failed h h (Or.inr (Or.inr (Or.inr (Or.inr ⟨e, herr, rfl⟩))))
  | none =>
      dsimp only
      obtain ⟨dir', hdir', hno, hblock, hdepth, hdirLevel, hsize, hclevel⟩ :
          ∃ dir' : DirInode, { dir with
            inlineDentry := none
            block := Function.update dir.block 0 (some (movedBlock d dst))
            iCurrentDepth := 1
            iSize := max dir.iSize 4096 } = dir' ∧ dir'.inlineDentry = none ∧
          (∀ n b, dir'.block n = some b ↔ n = 0 ∧ b = movedBlock d dst) ∧
          dir'.iCurrentDepth = 1 ∧ dir'.iDirLevel = 0 ∧ 4096 ≤ dir'.iSize ∧ dir'.clevel = 0 := by
        refine ⟨_, rfl, rfl, fun n b => ?_, rfl, hlevel, le_max_right _ _, h.clevel⟩
        dsimp only
        by_cases hn : n = 0
        · rw [hn, Function.update_self, Option.some_inj]
          exact ⟨fun hb => ⟨rfl, hb.symm⟩, fun hb => hb.2.symm⟩
        · rw [Function.update_of_ne hn, h.noBlock n]
          simp [hn]
      have hblk : ({
          max := nrDentryInBlock
          bitmap := fun i => if i < (d.max + 7) / 8 * 8 then d.bitmap i else false
          dentry := fun i => if i < d.max then d.dentry i else dst.dentry i
          filename := memcpy dst.filename 0 d.filename 0 (d.max * slotLen) } : DentryPtr)
          = movedBlock d dst := rfl
      rw [hblk, hdir']
      have hin : ∀ p e, dir'.InBlock p e ↔ p.1 = 0 ∧ d.Stores p.2 e := by
        intro p e
        unfold DirInode.InBlock
        constructor
        · rintro ⟨b, hb, he⟩
          obtain ⟨hp, rfl⟩ := (hblock p.1 b).mp hb
          exact ⟨hp, (moved_stores h.inv h.max _ e).mp he⟩
        · rintro ⟨hp, he⟩
          exact ⟨_, (hblock p.1 _).mpr ⟨hp, rfl⟩, (moved_stores h.inv h.max _ e).mpr he⟩
      have hheld : ∀ p e, dir'.Held p e ↔ dir.Held p e := fun p e =>
        (held_regular hno p e).trans ((hin p e).trans (held_inline h.inline p e).symm)
      refine ⟨fun h0 => absurd rfl h0, fun _ => ⟨hno, ?_⟩, fun m hm => hm.congr hheld,
        fun hdots => hdots.mono fun p e he => (hheld p e).mpr he⟩
      refine ⟨fun n b hb => ?_, fun n b hb => ?_, fun n b hb => ?_, fun n b hb => ?_,
        fun p e he => h.ok p.2 e ((hin p e).mp he).2, fun p e he => ⟨0, by omega, ?_⟩,
        by rw [hdepth]; decide, by omega⟩
      · obtain ⟨-, rfl⟩ := (hblock n b).mp hb
        exact moved_inv h.inv h.max
      · obtain ⟨-, rfl⟩ := (hblock n b).mp hb
        rfl
      · obtain ⟨rfl, -⟩ := (hblock n b).mp hb
        exact getNodePath_ne_none_iff.mpr (by omega)
      · obtain ⟨rfl, -⟩ := (hblock n b).mp hb
        omega
      · rw [((hin p e).mp he).1, hdirLevel]
        unfold InBucket
        rw [show dirBuckets 0 0 = 1 from rfl, Nat.mod_one]
        decide

/-! ## The entries are hashed anew -/

/-- The entries of the area up to slot `b`, and no others, stand in the blocks. -/
structure Copied (lay : AddrLayout) (d : DentryPtr) (b : ℕ) (dir : DirInode) : Prop where
  inv : TableInv lay dir
  clevel : dir.clevel = 0
  only : ∀ p e, dir.InBlock p e → ∃ i < b, d.Stores i e
  all : ∀ i e, i < b → d.Stores i e → ∃ p, dir.InBlock p e
  unique : ∀ p e p' e', dir.InBlock p e → dir.InBlock p' e' → e.name = e'.name → p = p'
  /-- `.` and `..` are in their places. -/
  dots : ∀ i < b, i < 2 → (∀ j ≤ i, d.HasEntry j ∧ (d.entry j).name = [dot, dotdot].getD j []) →
    dir.InBlock (0, i) (d.entry i)

/-- No two entries have the same name. -/
def DentryPtr.Distinct (d : DentryPtr) : Prop :=
  ∀ i e i' e', d.Stores i e → d.Stores i' e' → e.name = e'.name → i = i'

/-- A slot without an entry is passed over. -/
lemma Copied.skip {b : ℕ} (h : Copied lay d b dir) (hno : ¬ d.HasEntry b) :
    Copied lay d (b + 1) dir where
  inv := h.inv
  clevel := h.clevel
  only p e he := by
    obtain ⟨i, hi, hs⟩ := h.only p e he
    exact ⟨i, by omega, hs⟩
  all i e hi hs := by
    have hne : i ≠ b := fun heq => hno (heq ▸ hs.1)
    exact h.all i e (by omega) hs
  unique := h.unique
  dots i hi h2 hdots := by
    have hne : i ≠ b := fun heq => hno (heq ▸ (hdots i le_rfl).1)
    exact h.dots i (by omega) h2 hdots

lemma type_of_getDeType (de : DirEntry) (h : de.fileType < 8) :
    f2fsTypeByMode (f2fsGetDeType de * 2 ^ 12) = de.fileType := by
  unfold f2fsGetDeType
  generalize de.fileType = k at h ⊢
  rw [if_pos h]
  revert h
  revert k
  decide

/-- The entry that is made anew is the one that was there. -/
lemma newEntry_of_stores {b : ℕ} (hok : (d.entry b).Ok) :
    newEntry (d.name (d.nameSlice b)) (d.dentry b).ino (f2fsGetDeType (d.dentry b) * 2 ^ 12)
      = d.entry b := by
  unfold newEntry
  rw [type_of_getDeType (d.dentry b) hok.type]
  show (⟨f2fsDentryHash (d.entry b).name, _, _, _⟩ : Entry) = d.entry b
  rw [← hok.hash]
  rfl

lemma name_length (d : DentryPtr) (b : ℕ) :
    (d.name (d.nameSlice b)).length = (d.dentry b).nameLen := by
  unfold DentryPtr.name slice
  rw [List.length_map, List.length_range]
  rfl

lemma f2fsDentryHash_dots {i : ℕ} (hi : i < 2) :
    f2fsDentryHash ([dot, dotdot].getD i []) = 0 ∧
      getDentrySlots ([dot, dotdot].getD i []).length = 1 := by
  interval_cases i <;> exact ⟨rfl, rfl⟩

/-- `.` and `..` go to the first two slots, in this order. -/
lemma Copied.place_dots {b : ℕ} {p : ℕ × ℕ} (h : Copied lay d b dir) (hb : b < 2)
    (hdots : ∀ j ≤ b, d.HasEntry j ∧ (d.entry j).name = [dot, dotdot].getD j [])
    (hfirst : dir.FirstRoom (d.entry b).name p) : p = (0, b) := by
  obtain ⟨hhash, hslots⟩ := f2fsDentryHash_dots hb
  unfold DirInode.FirstRoom at hfirst
  rw [(hdots b le_rfl).2, hhash, hslots, h.clevel, ite_self] at hfirst
  dsimp only at hfirst
  rw [Nat.zero_mod, show dirBlockIndex 0 dir.iDirLevel 0 = 0 by simp [dirBlockIndex, levelStart]] at hfirst
  -- an entry in block 0 is one that is there already
  have hbits : ∀ j, (dir.newBlock 0).bitmap j = true → j < nrDentryInBlock → j < b := by
    intro j hset hj
    unfold DirInode.newBlock at hset
    cases hd : dir.block 0 with
    | none =>
        rw [hd] at hset
        exact absurd hset Bool.false_ne_true
    | some d₀ =>
        rw [hd] at hset
        have hinv := h.inv.inv 0 d₀ hd
        obtain ⟨i, hi, h1, h2⟩ := hinv.cover j (by rw [h.inv.max 0 d₀ hd]; exact hj) hset
        have hin : dir.InBlock (0, i) (d₀.entry i) := ⟨d₀, hd, hi, rfl⟩
        obtain ⟨k, hk, hs⟩ := h.only _ _ hin
        have hk0 : k = 0 := by omega
        subst hk0
        obtain ⟨hentry, hname⟩ := hdots 0 (Nat.zero_le b)
        have hplace := h.dots 0 hk (by omega) fun j hj => hdots j (by omega)
        have hi0 : i = 0 := congrArg Prod.snd (h.unique _ _ _ _ hin hplace (by rw [hs.2]))
        subst hi0
        have hlen : (d₀.dentry 0).nameLen = 1 := by
          rw [← name_length, show d₀.name (d₀.nameSlice 0) = (d₀.entry 0).name from rfl, ← hs.2,
            hname]
          rfl
        unfold DentryPtr.slots at h2
        rw [hlen, show getDentrySlots 1 = 1 from rfl] at h2
        omega
  have hgap : Gap (dir.newBlock 0).bitmap 1 nrDentryInBlock b := by
    refine ⟨by rw [show nrDentryInBlock = 214 from rfl]; omega, fun j h1 h2 => ?_⟩
    by_contra hset
    have hlt := hbits j (by simpa using hset) (by rw [show nrDentryInBlock = 214 from rfl]; omega)
    omega
  obtain ⟨hp1, hp2, hpgap⟩ := hfirst b hgap
  refine Prod.ext hp1 ?_
  rcases hp2.eq_or_lt with heq | hlt
  · exact heq
  -- slot 0 is that of `.`
  · have hb1 : b = 1 := by omega
    have hp0 : p.2 = 0 := by omega
    obtain ⟨d₀, hd, hs⟩ := h.dots 0 (by omega) (by omega) fun j hj => hdots j (by omega)
    have hset := hs.1.2.1
    have hclear := hpgap.2 0 (by omega) (by omega)
    unfold DirInode.newBlock at hclear
    rw [hd] at hclear
    rw [show d₀.bitmap 0 = false from hclear] at hset
    exact absurd hset Bool.false_ne_true

/-- One more entry is hashed. -/
lemma Copied.step {b : ℕ} {e : ℤ} {newPageErr : ℕ → Option Err} (h : Copied lay d b dir)
    (hinv : BlockInv d) (hdistinct : d.Distinct) (hb : d.HasEntry b) (hok : (d.entry b).Ok)
    (hadded : Added lay newPageErr none dir (d.name (d.nameSlice b)) (d.dentry b).ino
      (f2fsGetDeType (d.dentry b) * 2 ^ 12) e dir') (he : e = 0) :
    Copied lay d (b + d.slots b) dir' := by
  obtain ⟨p, hfirst, hin⟩ := hadded.added he
  rw [newEntry_of_stores hok] at hin
  have hpos := slots_pos hb
  have hlast : ∀ i, d.HasEntry i → i < b + d.slots b → i < b ∨ i = b := by
    intro i hi hlt
    by_contra hnot
    have := hinv.apart hb hi (by omega)
    omega
  -- the name is a new one
  have hnew : ∀ q x, dir.InBlock q x → x.name ≠ (d.entry b).name := by
    intro q x hx hname
    obtain ⟨i, hi, hs⟩ := h.only q x hx
    have := hdistinct i x b _ hs ⟨hb, rfl⟩ hname
    omega
  refine ⟨hadded.inv, hadded.clevel.trans h.clevel, fun q x hx => ?_, fun i x hi hs => ?_,
    fun q x q' x' hx hx' hname => ?_, fun i hi h2 hdots => ?_⟩
  · rcases (hin q x).mp hx with hx | ⟨-, rfl⟩
    · obtain ⟨i, hi, hs⟩ := h.only q x hx
      exact ⟨i, by omega, hs⟩
    · exact ⟨b, by omega, hb, rfl⟩
  · rcases hlast i hs.1 hi with hlt | rfl
    · obtain ⟨q, hq⟩ := h.all i x hlt hs
      exact ⟨q, (hin q x).mpr (Or.inl hq)⟩
    · exact ⟨p, (hin p x).mpr (Or.inr ⟨rfl, hs.2.symm⟩)⟩
  · rcases (hin q x).mp hx with hx | ⟨rfl, rfl⟩ <;>
      rcases (hin q' x').mp hx' with hx' | ⟨rfl, rfl⟩
    · exact h.unique q x q' x' hx hx' hname
    · exact absurd hname (hnew q x hx)
    · exact absurd hname.symm (hnew q' x' hx')
    · rfl
  · rcases hlast i (hdots i le_rfl).1 hi with hlt | rfl
    · exact (hin _ _).mpr (Or.inl (h.dots i hlt h2 hdots))
    · exact (hin _ _).mpr (Or.inr ⟨(h.place_dots h2 hdots hfirst).symm, rfl⟩)

lemma addInlineLoop_spec (env : DirEnv) (hinv : BlockInv d) (hok : ∀ i e, d.Stores i e → e.Ok)
    (hdistinct : d.Distinct) {fuel b : ℕ} (hfuel : d.max - b < fuel) (h : Copied lay d b dir) :
    ∃ e dir', addInlineLoop lay env d fuel b dir = some (e, dir') ∧
      dir'.clevel = 0 ∧ (e ≠ 0 → env.Gives e) ∧ (e = 0 → Copied lay d d.max dir') := by
  induction fuel generalizing b dir with
  | zero => omega
  | succ fuel ih =>
      unfold addInlineLoop
      by_cases hlt : b < d.max
      swap
      · rw [if_neg hlt]
        refine ⟨_, _, rfl, h.clevel, fun h0 => absurd rfl h0, fun _ => ?_⟩
        have hcut : ∀ i, d.HasEntry i → i < b → i < d.max := fun i hi _ => hi.1
        refine ⟨h.inv, h.clevel, fun p e he => ?_, fun i e hi => h.all i e (by omega), h.unique,
          fun i hi => h.dots i (by omega)⟩
        obtain ⟨i, hi, hs⟩ := h.only p e he
        exact ⟨i, hcut i hs.1 hi, hs⟩
      rw [if_pos hlt]
      cases hbit : d.bitmap b with
      | false =>
          rw [Bool.not_false, if_pos rfl]
          refine ih (by omega) (h.skip fun hb => ?_)
          rw [hb.2.1] at hbit
          exact Bool.false_ne_true hbit.symm
      | true =>
          rw [Bool.not_true, if_neg Bool.false_ne_true]
          dsimp only
          by_cases hlen : (d.dentry b).nameLen = 0
          · rw [if_pos hlen]
            exact ih (by omega) (h.skip fun hb => hb.2.2 hlen)
          · rw [if_neg hlen]
            have hb : d.HasEntry b := ⟨hlt, hbit, hlen⟩
            have hname : d.name (d.nameSlice b) ≠ [] := by
              intro hnil
              rw [← name_length, hnil] at hlen
              exact hlen rfl
            obtain ⟨e, dir', hadd, hadded⟩ := f2fsAddRegularEntry_spec
              (env.newPageErr (b + 1)) none (d.dentry b).ino
              (f2fsGetDeType (d.dentry b) * 2 ^ 12) h.inv hname
              (by rw [name_length]; exact hinv.short b hb)
            rw [hadd, Option.bind_some]
            by_cases he : e = 0
            · subst he
              rw [if_neg (by simp)]
              have hpos := slots_pos hb
              obtain ⟨e', dir'', hloop, hrest⟩ := ih
                (show d.max - (b + d.slots b) < fuel by omega) (h.step hinv hdistinct hb (hok b _ ⟨hb, rfl⟩) hadded rfl)
              exact ⟨e', dir'', hloop, hrest⟩
            · rw [if_pos he]
              refine ⟨_, _, rfl, hadded.clevel.trans h.clevel, fun _ => ?_, fun h0 => absurd h0 he⟩
              rcases (hadded.failed he).1 with herr | ⟨x, hx, -⟩
              · exact herr.gives
              · exact absurd hx.symm (Option.some_ne_none x)

/-- The names of a directory that stands for a map are distinct. -/
lemma DirInode.IsMap.distinct {m : List Byte → Option (ℕ × ℕ)} (h : dir.IsMap m)
    (hin : dir.inlineDentry = some d) : d.Distinct := by
  intro i e i' e' he he' hname
  exact congrArg Prod.snd (h.unique (0, i) e (0, i') e' ((held_inline hin _ e).mpr ⟨rfl, he⟩)
    ((held_inline hin _ e').mpr ⟨rfl, he'⟩) hname)

lemma f2fsMoveRehashedDirents_spec (h : InlineInv dir d) (hdistinct : d.Distinct) :
    ∃ e dir', f2fsMoveRehashedDirents lay env dir d = some (e, dir') ∧
      Converted lay env dir d e dir' := by
  unfold f2fsMoveRehashedDirents
  cases herr : env.convertErr with
  | some e =>
      exact ⟨_, _, rfl,
        Converted.of_failed h h (Or.inr (Or.inr (Or.inr (Or.inr ⟨e, herr, rfl⟩))))⟩
  | none =>
      have hstart : Copied lay d 0 dir := by
        have hno : ∀ p e, ¬ dir.InBlock p e := fun p e ⟨d', hd', _⟩ => by
          rw [h.noBlock] at hd'
          exact absurd hd'.symm (Option.some_ne_none d')
        exact ⟨h.tableInv, h.clevel, fun p e he => absurd he (hno p e), by omega,
          fun p e _ _ he => absurd he (hno p e), by omega⟩
      obtain ⟨e, dir', hloop, hclevel, hgives, hdone⟩ := addInlineLoop_spec env h.inv
        h.ok hdistinct (show d.max - 0 < d.max + 1 by omega) hstart
      dsimp only
      rw [hloop, Option.map_some]
      by_cases he : e = 0
      swap
      · rw [if_neg he]
        exact ⟨_, _, rfl, Converted.of_failed h
          ⟨rfl, h.inv, h.max, h.ok, fun _ => rfl, Nat.zero_le _, hclevel⟩ (hgives he)⟩
      · subst he
        rw [if_pos rfl]
        have hcopied := hdone rfl
        obtain ⟨dir'', hdir'', hno, hsame⟩ : ∃ dir'' : DirInode,
            { dir' with inlineDentry := none } = dir'' ∧ dir''.inlineDentry = none ∧
              dir''.InBlock = dir'.InBlock := ⟨_, rfl, rfl, rfl⟩
        have hinv : TableInv lay { dir' with inlineDentry := none } :=
          ⟨hcopied.inv.inv, hcopied.inv.max, hcopied.inv.range, hcopied.inv.size, hcopied.inv.ok,
            hcopied.inv.bucket, hcopied.inv.depth, hcopied.inv.clevel⟩
        rw [hdir''] at hinv ⊢
        have hheld : ∀ p e, dir''.Held p e ↔ dir'.InBlock p e := fun p e => by
          rw [held_regular hno, hsame]
        refine ⟨_, _, rfl, fun h0 => absurd rfl h0, fun _ => ⟨hno, hinv⟩, fun m hm => ?_,
          fun hdots => ?_⟩
        · refine ⟨fun p e he => ?_, fun k v hv => ?_, fun p e p' e' he he' => ?_⟩
          · obtain ⟨i, -, hs⟩ := hcopied.only p e ((hheld p e).mp he)
            exact hm.sound (0, i) e ((held_inline h.inline _ e).mpr ⟨rfl, hs⟩)
          · obtain ⟨p, e, he, hk⟩ := hm.complete k v hv
            have hs := ((held_inline h.inline p e).mp he).2
            obtain ⟨q, hq⟩ := hcopied.all p.2 e hs.1.1 hs
            exact ⟨q, e, (hheld q e).mpr hq, hk⟩
          · exact hcopied.unique p e p' e' ((hheld p e).mp he) ((hheld p' e').mp he')
        · obtain ⟨⟨e, he, hname⟩, ⟨e', he', hname'⟩⟩ := hdots
          have hs := ((held_inline h.inline _ e).mp he).2
          have hs' := ((held_inline h.inline _ e').mp he').2
          have hdot : d.HasEntry 0 ∧ (d.entry 0).name = [dot, dotdot].getD 0 [] :=
            ⟨hs.1, by rw [hs.2]; exact hname⟩
          have hdotdot : d.HasEntry 1 ∧ (d.entry 1).name = [dot, dotdot].getD 1 [] :=
            ⟨hs'.1, by rw [hs'.2]; exact hname'⟩
          have hfirst : ∀ j ≤ 1, d.HasEntry j ∧ (d.entry j).name = [dot, dotdot].getD j [] := by
            intro j hj
            interval_cases j
            · exact hdot
            · exact hdotdot
          have h0 := hcopied.dots 0 hs.1.1 (by omega) fun j hj => hfirst j (by omega)
          have h1 := hcopied.dots 1 hs'.1.1 (by omega) hfirst
          exact ⟨⟨_, (hheld _ _).mpr h0, hdot.2⟩, ⟨_, (hheld _ _).mpr h1, hdotdot.2⟩⟩

/-! ## A new entry -/

/-- What an add does to the map. -/
structure AddedToMap (lay : AddrLayout) (env : DirEnv) (dir : DirInode) (name : List Byte)
    (ino mode : ℕ) (e : ℤ) (dir' : DirInode) : Prop where
  inv : DirInv lay dir'
  failed : e ≠ 0 → env.Gives e ∧ ∀ m, dir.IsMap m → dir'.IsMap m
  added : e = 0 → ∀ m, dir.IsMap m → m name = none →
    dir'.IsMap (Function.update m name (some (ino, f2fsTypeByMode mode)))
  hasDots : dir.HasDots → dir'.HasDots
  /-- Entries move only when the directory gets its blocks. -/
  kept : dir.inlineDentry = none ∨ dir'.inlineDentry ≠ none →
    ∀ q x, dir.Held q x → dir'.Held q x

/-- A new entry comes to the blocks. -/
lemma Added.addedToMap {ino mode : ℕ} {e : ℤ} (hno : dir.inlineDentry = none)
    (h : Added lay (env.newPageErr 0) env.initErr dir name ino mode e dir') :
    AddedToMap lay env dir name ino mode e dir' := by
  have hno' := h.inlineDentry.trans hno
  have hkept : ∀ q x, dir.Held q x → dir'.Held q x := by
    intro q x hx
    rw [held_regular hno] at hx
    rw [held_regular hno']
    by_cases he : e = 0
    · obtain ⟨p, -, hin⟩ := h.added he
      exact (hin q x).mpr (Or.inl hx)
    · exact ((h.failed he).2 q x).mpr hx
  refine ⟨h.inv.dirInv hno', fun he => ?_, fun he m hm hnew => ?_, fun hdots => hdots.mono hkept,
    fun _ => hkept⟩
  · obtain ⟨herr, hin⟩ := h.failed he
    refine ⟨herr.elim AddError.gives fun hinit => Or.inr (Or.inr (Or.inr (Or.inl hinit))),
      fun m hm => hm.congr fun q x => ?_⟩
    rw [held_regular hno', held_regular hno]
    exact hin q x
  · obtain ⟨p, -, hin⟩ := h.added he
    refine hm.insert (p := p) (e := newEntry name ino mode) hnew fun q x => ?_
    rw [held_regular hno', held_regular hno]
    exact hin q x

variable {m : List Byte → Option (ℕ × ℕ)} {ino mode : ℕ}

/-- A new entry comes to the inline area. -/
lemma InlineInv.addedToMap {p : ℕ} (h : InlineInv dir d)
    (hgap : Gap d.bitmap (getDentrySlots name.length) d.max p) (hname : name ≠ [])
    (hshort : name.length ≤ f2fsNameLen) :
    AddedToMap lay env dir name ino mode 0 { dir with
      inlineDentry := some (f2fsUpdateDentry ino mode d name (f2fsDentryHash name) p)
      iCurrentDepth := 0 } := by
  have hstores : ∀ i e, (f2fsUpdateDentry ino mode d name (f2fsDentryHash name) p).Stores i e ↔
      d.Stores i e ∨ i = p ∧ e = newEntry name ino mode := fun i e =>
    update_stores h.inv hgap hname
  obtain ⟨dir', hdir', hin', hblock, hdepth, hclevel⟩ : ∃ dir' : DirInode, { dir with
      inlineDentry := some (f2fsUpdateDentry ino mode d name (f2fsDentryHash name) p)
      iCurrentDepth := 0 } = dir' ∧
      dir'.inlineDentry = some (f2fsUpdateDentry ino mode d name (f2fsDentryHash name) p) ∧
      dir'.block = dir.block ∧ dir'.iCurrentDepth = 0 ∧ dir'.clevel = dir.clevel :=
    ⟨_, rfl, rfl, rfl, rfl, rfl⟩
  rw [hdir']
  have hheld : ∀ q x, dir'.Held q x ↔ dir.Held q x ∨ q = (0, p) ∧ x = newEntry name ino mode := by
    intro q x
    rw [held_inline hin', held_inline h.inline, hstores]
    constructor
    · rintro ⟨h1, h2 | ⟨h2, rfl⟩⟩
      · exact Or.inl ⟨h1, h2⟩
      · exact Or.inr ⟨Prod.ext h1 h2, rfl⟩
    · rintro (⟨h1, h2⟩ | ⟨rfl, rfl⟩)
      · exact ⟨h1, Or.inl h2⟩
      · exact ⟨rfl, Or.inr ⟨rfl, rfl⟩⟩
  refine ⟨InlineInv.dirInv ⟨hin', update_inv h.inv hgap hname hshort, h.max, fun i e he => ?_,
    fun n => hblock ▸ h.noBlock n, by rw [hdepth]; exact Nat.zero_le _, hclevel.trans h.clevel⟩,
    fun h0 => absurd rfl h0, fun _ m hm hnew => hm.insert (e := newEntry name ino mode) hnew hheld,
    fun hdots => hdots.mono fun q x hx => (hheld q x).mpr (Or.inl hx),
    fun _ q x hx => (hheld q x).mpr (Or.inl hx)⟩
  rcases (hstores i e).mp he with he | ⟨-, rfl⟩
  · exact h.ok i e he
  · exact ⟨rfl, f2fsTypeByMode_lt mode⟩

/-- **A new entry comes to the map, or the map stays as it is.** -/
lemma f2fsAddDentry_spec (env : DirEnv) (dst : DentryPtr) (ino mode : ℕ) (hinv : DirInv lay dir)
    (hm : dir.IsMap m) (hname : name ≠ []) (hshort : name.length ≤ f2fsNameLen) :
    ∃ e dir', f2fsAddDentry lay env dst dir name ino mode = some (e, dir') ∧
      AddedToMap lay env dir name ino mode e dir' := by
  unfold f2fsAddDentry
  cases hin : dir.inlineDentry with
  | none =>
      dsimp only
      obtain ⟨e, dir', hadd, hadded⟩ := f2fsAddRegularEntry_spec (env.newPageErr 0)
        env.initErr ino mode (hinv.regular hin) hname hshort
      rw [Option.bind_some, if_pos rfl]
      exact ⟨e, dir', hadd, hadded.addedToMap hin⟩
  | some d =>
      have h := hinv.inline d hin
      obtain ⟨p, hp, hroom⟩ := f2fsRoomForFilename_spec d.bitmap d.max
        (slots_of_name hname)
      dsimp only
      unfold f2fsAddInlineEntry
      rw [hp, Option.bind_some]
      by_cases hfull : d.max ≤ p
      swap
      · rw [if_neg hfull]
        cases hinit : env.initErr with
        | some err =>
            rw [Option.bind_some, if_neg err.2.2]
            exact ⟨_, _, rfl, hinv, fun _ => ⟨Or.inr (Or.inr (Or.inr (Or.inl ⟨err, hinit, rfl⟩))),
              fun _ hm => hm⟩, fun h0 => absurd h0 err.2.1.ne, id, fun _ _ _ hx => hx⟩
        | none =>
            rw [Option.bind_some, if_neg (show (0 : ℤ) ≠ eagain by decide)]
            exact ⟨_, _, rfl, h.addedToMap (hroom.gap (not_le.mp hfull)) hname hshort⟩
      rw [if_pos hfull]
      -- the conversion comes first
      obtain ⟨e, dir', hconv, hconverted⟩ : ∃ e dir',
          f2fsConvertInlineDir lay env dir d dst = some (e, dir') ∧
            Converted lay env dir d e dir' := by
        unfold f2fsConvertInlineDir
        by_cases hlevel : dir.iDirLevel = 0
        · rw [if_pos hlevel]
          exact ⟨_, _, rfl, f2fsMoveInlineDirents_spec h hlevel⟩
        · rw [if_neg hlevel]
          exact f2fsMoveRehashedDirents_spec h (hm.distinct hin)
      rw [hconv, Option.map_some, Option.bind_some]
      dsimp only
      by_cases he : e = 0
      swap
      · obtain ⟨hgives, hinv'⟩ := hconverted.failed he
        rw [if_pos he, if_neg hgives.neg.2]
        exact ⟨_, _, rfl, hinv'.dirInv, fun _ => ⟨hgives, hconverted.isMap⟩,
          fun h0 => absurd h0 he, hconverted.hasDots, fun _ q x hx =>
          (held_inline hinv'.inline q x).mpr ((held_inline hin q x).mp hx)⟩
      · obtain ⟨hno, hinv'⟩ := hconverted.done he
        rw [if_neg (not_not.mpr he), if_pos rfl]
        obtain ⟨e', dir'', hadd, hadded⟩ := f2fsAddRegularEntry_spec
          (env.newPageErr 0) env.initErr ino mode hinv' hname hshort
        have hmap := hadded.addedToMap hno
        exact ⟨e', dir'', hadd, hmap.inv, fun h0 => ⟨(hmap.failed h0).1, fun m hm =>
          (hmap.failed h0).2 m (hconverted.isMap m hm)⟩, fun h0 m hm hnew =>
          hmap.added h0 m (hconverted.isMap m hm) hnew, fun hdots =>
          hmap.hasDots (hconverted.hasDots hdots), fun hin' =>
          absurd (hadded.inlineDentry.trans hno)
            (hin'.resolve_left fun h0 => Option.some_ne_none d (hin.symm.trans h0))⟩

end Hoit.Dir
