import HoitF2fs.Dir.InlineConvert
import HoitF2fs.Lib.Answers

/-!
# A directory is a map from names to inodes

* `dirStep` — what `f2fs_lookup`, `f2fs_do_add_link`, `f2fs_unlink` and a rename do to a directory,
  and what its eviction does.
* `MapStep` — the same on a map.
* `dir_refines_map` — **in every run the directory gives the answers of the map**, whatever fails,
  and whether it is inline, of blocks, or becomes one of blocks on the way.
* `f2fsEmptyDir_iff` — a directory is empty for `f2fs_empty_dir` iff it has no other names than `.`
  and `..`.

`f2fs_do_add_link` does not look whether the name is there if the task that calls is the one that
has looked for it in vain.  A caller must not do that for a name that has come since.
-/

namespace Hoit.Dir

open NodePath Bitmap ByteStore Places

variable (lay : AddrLayout)

/-! ## The steps -/

/-- What is asked of a directory. -/
inductive DirRequest where
  /-- `f2fs_lookup`. -/
  | lookup (name : List Byte)
  /-- `f2fs_do_add_link`; `sameTask` is `current == F2FS_I(dir)->task`, and `dst` what is in the
  page for the first block. -/
  | addLink (sameTask : Bool) (name : List Byte) (ino mode : ℕ) (env : DirEnv) (dst : DentryPtr)
  /-- `f2fs_unlink`, with the error of `f2fs_acquire_orphan_inode`. -/
  | unlink (name : List Byte) (acquireErr : Option Err) (env : DirEnv)
  /-- `f2fs_find_entry` and `f2fs_set_link` in a rename. -/
  | setLink (name : List Byte) (ino mode : ℕ)
  /-- The inode is written back and read again. -/
  | evict

inductive DirAnswer where
  | found (ino : ℕ)
  /-- 0, or the dentry without an inode. -/
  | done
  | err (e : ℤ)
deriving DecidableEq

/-- The entry in a place. -/
def DirInode.entryAt (dir : DirInode) (p : ℕ × ℕ) : Option Entry :=
  match dir.inlineDentry with
  | some d => some (d.entry p.2)
  | none => (dir.block p.1).map fun d => d.entry p.2

def dirStep (dir : DirInode) : DirRequest → Option (DirAnswer × DirInode)
  | .lookup name =>
      (f2fsFindEntry lay dir name).map fun x =>
        match x.1.de, x.1.err with
        | some p, _ => (.found (((x.2.entryAt p).map Entry.ino).getD 0), x.2)
        | none, some e => (.err e, x.2)
        | none, none => (.done, x.2)
  | .addLink sameTask name ino mode env dst =>
      (f2fsDoAddLink lay sameTask env dst dir name ino mode).map fun x =>
        (if x.1 = 0 then .done else .err x.1, x.2)
  | .unlink name acquireErr env =>
      (f2fsFindEntry lay dir name).map fun x =>
        match x.1.de, x.1.err with
        | some p, _ =>
            match acquireErr with
            | some e => (.err e.1, x.2)
            | none => (.done, f2fsDeleteEntry env x.2 p.1 p.2)
        | none, some e => (.err e, x.2)
        -- `err` is that of `dquot_initialize`
        | none, none => (.done, x.2)
  | .setLink name ino mode =>
      (f2fsFindEntry lay dir name).map fun x =>
        match x.1.de, x.1.err with
        | some p, _ => (.done, f2fsSetLink x.2 p.1 p.2 ino mode)
        | none, some e => (.err e, x.2)
        | none, none => (.err enoent, x.2)
  | .evict => some (.done, { dir with chash := 0, clevel := 0 })

/-! ## The map -/

/-- What the map answers, and what becomes of it. -/
inductive MapStep : (List Byte → Option (ℕ × ℕ)) → DirRequest → DirAnswer →
    (List Byte → Option (ℕ × ℕ)) → Prop
  | found {m name v} (h : m name = some v) : MapStep m (.lookup name) (.found v.1) m
  | absent {m name} (h : m name = none) : MapStep m (.lookup name) .done m
  /-- A lookup may get to the end of the file, and then the name is not there. -/
  | absentErr {m name} (h : m name = none) : MapStep m (.lookup name) (.err e2big) m
  | exists {m name v ino mode env dst} (h : m name = some v) :
      MapStep m (.addLink false name ino mode env dst) (.err eexist) m
  | added {m sameTask name ino mode env dst} (h : m name = none) :
      MapStep m (.addLink sameTask name ino mode env dst) .done
        (Function.update m name (some (ino, f2fsTypeByMode mode)))
  | addErr {m sameTask name ino mode env dst e} (h : m name = none) (he : DirEnv.Gives env e) :
      MapStep m (.addLink sameTask name ino mode env dst) (.err e) m
  | removed {m name v env} (h : m name = some v) :
      MapStep m (.unlink name none env) .done (Function.update m name none)
  | acquireErr {m name v env} {e : Err} (h : m name = some v) :
      MapStep m (.unlink name (some e) env) (.err e.1) m
  | unlinkAbsent {m name acquireErr env} (h : m name = none) :
      MapStep m (.unlink name acquireErr env) .done m
  | unlinkErr {m name acquireErr env} (h : m name = none) :
      MapStep m (.unlink name acquireErr env) (.err e2big) m
  | linked {m name v ino mode} (h : m name = some v) :
      MapStep m (.setLink name ino mode) .done
        (Function.update m name (some (ino, f2fsTypeByMode mode)))
  | linkAbsent {m name ino mode e} (h : m name = none) (he : e = enoent ∨ e = e2big) :
      MapStep m (.setLink name ino mode) (.err e) m
  | evicted {m} : MapStep m .evict .done m

/-- A name that is added is one, and the check is left out only for a name that is not there. -/
def ProperRequest (m : List Byte → Option (ℕ × ℕ)) : DirRequest → Prop
  | .addLink sameTask name _ _ _ _ =>
      name ≠ [] ∧ name.length ≤ f2fsNameLen ∧ (sameTask = true → m name = none)
  | _ => True

variable {lay} {dir dir' : DirInode} {m : List Byte → Option (ℕ × ℕ)} {name : List Byte}
  {env : DirEnv} {p : ℕ × ℕ} {e : Entry}

/-! ## Lookups -/

lemma DirInode.Held.entryAt (h : dir.Held p e) : dir.entryAt p = some e := by
  unfold DirInode.entryAt
  cases hin : dir.inlineDentry with
  | some d => exact congrArg some ((held_inline hin p e).mp h).2.2
  | none =>
      obtain ⟨d, hd, hs⟩ := (held_regular hin p e).mp h
      dsimp only
      rw [hd, Option.map_some, hs.2]

lemma SameTable.dirInv (h : SameTable dir dir') (hinv : DirInv lay dir)
    (hinline : dir.inlineDentry ≠ none → dir'.clevel = 0)
    (hclevel : dir'.clevel ≤ dir.iCurrentDepth) : DirInv lay dir' where
  inline d hd := by
    rw [h.inlineDentry] at hd
    obtain ⟨-, hblock, hmax, hok, hno, hdepth, -⟩ := hinv.inline d hd
    refine ⟨h.inlineDentry.trans hd, hblock, hmax, hok, fun n => ?_, h.iCurrentDepth ▸ hdepth,
      hinline (by rw [hd]; exact Option.some_ne_none d)⟩
    rw [h.block]
    exact hno n
  regular hno := h.tableInv (hinv.regular (h.inlineDentry ▸ hno)) hclevel

/-- **A lookup finds the entry with the name iff there is one**, and the entries stay. -/
lemma f2fsFindEntry_spec (hinv : DirInv lay dir) (name : List Byte) :
    ∃ r dir', f2fsFindEntry lay dir name = some (r, dir') ∧ SameTable dir dir' ∧
      DirInv lay dir' ∧ LookupResult dir name r := by
  unfold f2fsFindEntry
  cases hin : dir.inlineDentry with
  | some d =>
      have h := hinv.inline d hin
      obtain ⟨x, hx, hfound, hnone⟩ := find_target_spec h.inv (f2fsDentryHash name) name false
      dsimp only
      unfold f2fsFindInInlineDir
      rw [hx, Option.map_some, Option.map_some]
      refine ⟨_, _, rfl, SameTable.refl dir, hinv, fun p hp => ⟨rfl, ?_⟩, fun hde p e he hname => ?_,
        by simp⟩
      · obtain ⟨i, hi, rfl⟩ := Option.map_eq_some_iff.mp hp
        obtain ⟨e, he, -, hname⟩ := hfound i hi
        exact ⟨e, (held_inline hin _ e).mpr ⟨rfl, he⟩, hname⟩
      · have hs := ((held_inline hin p e).mp he).2
        exact hnone (Option.map_eq_none_iff.mp hde) _ e hs
          ⟨by rw [(h.ok _ e hs).hash, hname], hname⟩
  | none =>
      have h := hinv.regular hin
      dsimp only
      by_cases hempty : dir.dirBlocks = 0
      · rw [if_pos hempty]
        refine ⟨_, _, rfl, SameTable.refl dir, hinv, by simp, fun _ p e he _ => ?_, by simp⟩
        obtain ⟨d, hd, -⟩ := (held_regular hin p e).mp he
        have hsize := h.size _ d hd
        unfold DirInode.dirBlocks at hempty
        omega
      · rw [if_neg hempty, if_neg (not_lt.mpr h.depth)]
        obtain ⟨r, dir', hr, hsame, hclevel, hfound, habsent, herr⟩ :=
          findLevels_spec h name dir.iCurrentDepth 0 (by omega)
        refine ⟨r, dir', hr, hsame, hsame.dirInv hinv (fun hne => absurd hin hne) hclevel,
          fun p hp => ?_, fun hde p e he hname => ?_, herr⟩
        · obtain ⟨hno, e, he, hname⟩ := hfound p hp
          exact ⟨hno, e, (held_regular hin p e).mpr he, hname⟩
        · have he' := (held_regular hin p e).mp he
          obtain ⟨level, hlevel, hbucket⟩ := h.bucket p e he'
          exact habsent hde ⟨p, e, he', hname, level, Nat.zero_le _, by omega, hbucket⟩

/-- What a lookup says about the map: an entry of it, or that there is none, and perhaps an
error. -/
lemma find_cases (hinv : DirInv lay dir) (hm : dir.IsMap m) (name : List Byte) :
    ∃ r dir', f2fsFindEntry lay dir name = some (r, dir') ∧ SameTable dir dir' ∧ DirInv lay dir' ∧
      ((∃ p e, r.de = some p ∧ dir'.Held p e ∧ e.name = name ∧ m name = some e.value) ∨
        r.de = none ∧ m name = none ∧ (r.err = none ∨ r.err = some e2big)) := by
  obtain ⟨r, dir', hr, hsame, hinv', hres⟩ := f2fsFindEntry_spec hinv name
  refine ⟨r, dir', hr, hsame, hinv', ?_⟩
  cases hde : r.de with
  | some p =>
      obtain ⟨-, e, he, hname⟩ := hres.found p hde
      exact Or.inl ⟨p, e, rfl, (hsame.held p e).mpr he, hname, hm.lookup he hname⟩
  | none =>
      refine Or.inr ⟨rfl, hm.absent (hres.absent hde), ?_⟩
      cases herr : r.err with
      | none => exact Or.inl rfl
      | some x => exact Or.inr (by rw [hres.err x herr])

lemma SameTable.isMap (h : SameTable dir dir') (hm : dir.IsMap m) : dir'.IsMap m := hm.congr h.held

lemma SameTable.hasDots (h : SameTable dir dir') (hdots : dir.HasDots) : dir'.HasDots :=
  hdots.mono fun q x hx => (h.held q x).mpr hx

/-! ## Changes of an entry -/

/-- The record of a directory without an inline area names that area in two ways. -/
lemma inlineDentry_none (hno : dir.inlineDentry = none) (block : ℕ → Option DentryPtr) :
    ({ dir with
      inlineDentry := none
      block := block } : DirInode) = { dir with block := block } := by
  rw [← hno]

/-- A block without bits has no entries. -/
lemma no_entry {d : DentryPtr} (h : findNextBit d.bitmap d.max 0 = d.max) (i : ℕ) (e : Entry) :
    ¬ d.Stores i e := by
  rintro ⟨⟨hi, hset, -⟩, -⟩
  have hclear := findNextBit_min (Nat.zero_le i) (hi.trans_eq h.symm)
  rw [hset] at hclear
  exact absurd hclear (by decide)

/-- **A deletion takes its entry away, and no other.** -/
lemma f2fsDeleteEntry_spec (hinv : DirInv lay dir) (he : dir.Held p e) (env : DirEnv) :
    DirInv lay (f2fsDeleteEntry env dir p.1 p.2) ∧
      ∀ q x, (f2fsDeleteEntry env dir p.1 p.2).Held q x ↔ dir.Held q x ∧ q ≠ p := by
  unfold f2fsDeleteEntry
  cases hin : dir.inlineDentry with
  | some d =>
      have h := hinv.inline d hin
      obtain ⟨hp, hs⟩ := (held_inline hin p e).mp he
      dsimp only
      have hin' : ({ dir with inlineDentry := some (clearDentry d p.2) } : DirInode).inlineDentry
          = some (clearDentry d p.2) := rfl
      refine ⟨InlineInv.dirInv ⟨hin', clear_inv h.inv hs.1, h.max, fun i x hx => ?_, h.noBlock,
        h.depth, h.clevel⟩, fun q x => ?_⟩
      · exact h.ok i x ((clear_stores h.inv hs.1).mp hx).1
      · rw [held_inline hin', held_inline hin, clear_stores h.inv hs.1, ← and_assoc]
        refine and_congr_right fun hq => not_congr ⟨fun heq => Prod.ext (hq.1.trans hp.symm) heq, ?_⟩
        rintro rfl
        rfl
  | none =>
      have h := hinv.regular hin
      obtain ⟨d, hd, hs⟩ := (held_regular hin p e).mp he
      have hblock := h.inv _ d hd
      have hmax := h.max _ d hd
      dsimp only
      rw [hd]
      dsimp only
      -- what is left in the block, if there is still a block
      obtain ⟨o, ho, hleft, hok⟩ : ∃ o : Option DentryPtr,
          (if findNextBit (clearDentry d p.2).bitmap nrDentryInBlock 0 = nrDentryInBlock ∧
              ¬ env.holeFails then none else some (clearDentry d p.2)) = o ∧
          (∀ i x, (∃ d', o = some d' ∧ d'.Stores i x) ↔ (clearDentry d p.2).Stores i x) ∧
          ∀ d', o = some d' → d' = clearDentry d p.2 := by
        refine ⟨_, rfl, fun i x => ?_, fun d' hd' => ?_⟩
        · split_ifs with hgone
          · refine ⟨by simp, fun hx => absurd hx (no_entry ?_ i x)⟩
            rw [show (clearDentry d p.2).max = nrDentryInBlock from hmax]
            exact hgone.1
          · simp
        · split_ifs at hd' with hgone
          exact (Option.some.inj hd').symm
      rw [ho, inlineDentry_none hin]
      have hno : ({ dir with block := Function.update dir.block p.1 o } : DirInode).inlineDentry
          = none := hin
      refine ⟨TableInv.dirInv ?_ hno, fun q x => ?_⟩
      · refine h.setBlock (by rw [hd]; exact Option.some_ne_none d) le_rfl h.depth fun d' hd' => ?_
        rw [hok d' hd']
        refine ⟨clear_inv hblock hs.1, hmax, fun i x hx => ?_⟩
        have hx' : dir.InBlock (p.1, i) x := ⟨d, hd, ((clear_stores hblock hs.1).mp hx).1⟩
        exact ⟨h.ok _ x hx', h.bucket (p.1, i) x hx'⟩
      · rw [held_regular hno, held_regular hin, inBlock_update, hleft, clear_stores hblock hs.1]
        by_cases hq : q.1 = p.1
        · have hsame : dir.InBlock q x ↔ d.Stores q.2 x := by
            unfold DirInode.InBlock
            rw [hq, hd]
            simp
          rw [hsame]
          refine ⟨?_, fun hx => Or.inr ⟨hq, hx.1, fun h2 => hx.2 (Prod.ext hq h2)⟩⟩
          rintro (hx | ⟨-, hx, hne⟩)
          · exact absurd hq hx.1
          · exact ⟨hx, fun heq => hne (congrArg Prod.snd heq)⟩
        · refine ⟨?_, fun hx => Or.inl ⟨hq, hx.1⟩⟩
          rintro (hx | hx)
          · exact ⟨hx.2, fun heq => hq (congrArg Prod.fst heq)⟩
          · exact absurd hx.1 hq

/-- **A new link replaces its entry, and no other.** -/
lemma f2fsSetLink_spec (hinv : DirInv lay dir) (he : dir.Held p e) (ino mode : ℕ) :
    DirInv lay (f2fsSetLink dir p.1 p.2 ino mode) ∧
      ∀ q x, (f2fsSetLink dir p.1 p.2 ino mode).Held q x ↔ q ≠ p ∧ dir.Held q x ∨
        q = p ∧ x = { e with ino := ino, fileType := f2fsTypeByMode mode } := by
  have hok : e.Ok → Entry.Ok { e with ino := ino, fileType := f2fsTypeByMode mode } := fun h =>
    ⟨h.hash, f2fsTypeByMode_lt mode⟩
  -- in the block, only the entry of the slot is another one
  have hslot : ∀ {d : DentryPtr}, d.Stores p.2 e → ∀ i x, (setDentryIno d p.2 ino mode).Stores i x
      ↔ i ≠ p.2 ∧ d.Stores i x ∨
        i = p.2 ∧ x = { e with ino := ino, fileType := f2fsTypeByMode mode } := by
    intro d hs i x
    rw [setIno_stores]
    refine or_congr_right (and_congr_right fun _ => ⟨?_, fun hx => ⟨e, hs, hx⟩⟩)
    rintro ⟨e', hs', rfl⟩
    rw [← hs'.2, hs.2]
  unfold f2fsSetLink
  cases hin : dir.inlineDentry with
  | some d =>
      have h := hinv.inline d hin
      obtain ⟨hp, hs⟩ := (held_inline hin p e).mp he
      dsimp only
      have hin' : ({ dir with inlineDentry := some (setDentryIno d p.2 ino mode) } :
          DirInode).inlineDentry = some (setDentryIno d p.2 ino mode) := rfl
      refine ⟨InlineInv.dirInv ⟨hin', setIno_inv h.inv, h.max, fun i x hx => ?_, h.noBlock,
        h.depth, h.clevel⟩, fun q x => ?_⟩
      · rcases (hslot hs i x).mp hx with ⟨-, hx⟩ | ⟨-, rfl⟩
        · exact h.ok i x hx
        · exact hok (h.ok _ e hs)
      · rw [held_inline hin', held_inline hin, hslot hs]
        constructor
        · rintro ⟨hq, ⟨hne, hx⟩ | ⟨heq, rfl⟩⟩
          · exact Or.inl ⟨fun hqp => hne (congrArg Prod.snd hqp), hq, hx⟩
          · exact Or.inr ⟨Prod.ext (hq.trans hp.symm) heq, rfl⟩
        · rintro (⟨hne, hq, hx⟩ | ⟨rfl, rfl⟩)
          · exact ⟨hq, Or.inl ⟨fun heq => hne (Prod.ext (hq.trans hp.symm) heq), hx⟩⟩
          · exact ⟨hp, Or.inr ⟨rfl, rfl⟩⟩
  | none =>
      have h := hinv.regular hin
      obtain ⟨d, hd, hs⟩ := (held_regular hin p e).mp he
      dsimp only
      rw [hd, Option.map_some, inlineDentry_none hin]
      have hno : ({ dir with
          block := Function.update dir.block p.1 (some (setDentryIno d p.2 ino mode)) } :
          DirInode).inlineDentry = none := hin
      refine ⟨TableInv.dirInv ?_ hno, fun q x => ?_⟩
      · refine h.setBlock (by rw [hd]; exact Option.some_ne_none d) le_rfl h.depth fun d' hd' => ?_
        obtain rfl := Option.some.inj hd'
        refine ⟨setIno_inv (h.inv _ d hd), h.max _ d hd, fun i x hx => ?_⟩
        rcases (hslot hs i x).mp hx with ⟨-, hx⟩ | ⟨-, rfl⟩
        · have hx' : dir.InBlock (p.1, i) x := ⟨d, hd, hx⟩
          exact ⟨h.ok _ x hx', h.bucket (p.1, i) x hx'⟩
        · have he' : dir.InBlock p e := ⟨d, hd, hs⟩
          exact ⟨hok (h.ok _ e he'), h.bucket _ e he'⟩
      · rw [held_regular hno, held_regular hin, inBlock_update]
        have hblock : (∃ d', some (setDentryIno d p.2 ino mode) = some d' ∧ d'.Stores q.2 x)
            ↔ (setDentryIno d p.2 ino mode).Stores q.2 x := by simp
        rw [hblock, hslot hs]
        by_cases hq : q.1 = p.1
        · have hsame : dir.InBlock q x ↔ d.Stores q.2 x := by
            unfold DirInode.InBlock
            rw [hq, hd]
            simp
          rw [hsame]
          constructor
          · rintro (hx | ⟨-, ⟨hne, hx⟩ | ⟨heq, rfl⟩⟩)
            · exact absurd hq hx.1
            · exact Or.inl ⟨fun hqp => hne (congrArg Prod.snd hqp), hx⟩
            · exact Or.inr ⟨Prod.ext hq heq, rfl⟩
          · rintro (⟨hne, hx⟩ | ⟨rfl, rfl⟩)
            · exact Or.inr ⟨hq, Or.inl ⟨fun heq => hne (Prod.ext hq heq), hx⟩⟩
            · exact Or.inr ⟨rfl, Or.inr ⟨rfl, rfl⟩⟩
        · constructor
          · rintro (⟨-, hx⟩ | hx)
            · exact Or.inl ⟨fun hqp => hq (congrArg Prod.fst hqp), hx⟩
            · exact absurd hx.1 hq
          · rintro (⟨-, hx⟩ | ⟨rfl, rfl⟩)
            · exact Or.inl ⟨hq, hx⟩
            · exact absurd rfl hq

/-! ## One step -/

/-- The request does not take `.` or `..` away. -/
def KeepsDots : DirRequest → Prop
  | .unlink name _ _ => name ≠ dot ∧ name ≠ dotdot
  | _ => True

/-- `.` and `..` stay in their slots when other entries go. -/
lemma DirInode.HasDots.of_delete (h : dir.HasDots) (he : dir.Held p e) (hne : e.name ≠ Dir.dot)
    (hne' : e.name ≠ Dir.dotdot) (hheld : ∀ q x, dir'.Held q x ↔ dir.Held q x ∧ q ≠ p) :
    dir'.HasDots := by
  obtain ⟨⟨e₁, he₁, hname₁⟩, ⟨e₂, he₂, hname₂⟩⟩ := h
  refine ⟨⟨e₁, (hheld _ _).mpr ⟨he₁, ?_⟩, hname₁⟩, ⟨e₂, (hheld _ _).mpr ⟨he₂, ?_⟩, hname₂⟩⟩
  · rintro rfl
    exact hne (by rw [he₁.unique he]; exact hname₁)
  · rintro rfl
    exact hne' (by rw [he₂.unique he]; exact hname₂)

lemma DirInode.HasDots.of_link {b : Entry} (h : dir.HasDots) (he : dir.Held p e)
    (hname : b.name = e.name)
    (hheld : ∀ q x, dir'.Held q x ↔ q ≠ p ∧ dir.Held q x ∨ q = p ∧ x = b) : dir'.HasDots := by
  have hkeep : ∀ q x, dir.Held q x → ∃ x', dir'.Held q x' ∧ x'.name = x.name := by
    intro q x hx
    by_cases hq : q = p
    · subst hq
      exact ⟨b, (hheld _ _).mpr (Or.inr ⟨rfl, rfl⟩), by rw [hname, hx.unique he]⟩
    · exact ⟨x, (hheld q x).mpr (Or.inl ⟨hq, hx⟩), rfl⟩
  obtain ⟨⟨e₁, he₁, hname₁⟩, ⟨e₂, he₂, hname₂⟩⟩ := h
  obtain ⟨x₁, hx₁, hn₁⟩ := hkeep _ _ he₁
  obtain ⟨x₂, hx₂, hn₂⟩ := hkeep _ _ he₂
  exact ⟨⟨x₁, hx₁, hn₁.trans hname₁⟩, ⟨x₂, hx₂, hn₂.trans hname₂⟩⟩

/-- The directory goes on as a map does. -/
structure StepsTo (lay : AddrLayout) (dir : DirInode) (m : List Byte → Option (ℕ × ℕ))
    (a : DirRequest) (o : DirAnswer) (dir' : DirInode) (m' : List Byte → Option (ℕ × ℕ)) :
    Prop where
  step : dirStep lay dir a = some (o, dir')
  map : MapStep m a o m'
  inv : DirInv lay dir'
  isMap : dir'.IsMap m'
  hasDots : KeepsDots a → dir.HasDots → dir'.HasDots

lemma dirStep_lookup (hinv : DirInv lay dir) (hm : dir.IsMap m) (name : List Byte) :
    ∃ o dir' m', StepsTo lay dir m (.lookup name) o dir' m' := by
  obtain ⟨r, dir', hr, hsame, hinv', hcases⟩ := find_cases hinv hm name
  have hm' := hsame.isMap hm
  have hdots := hsame.hasDots
  rcases hcases with ⟨p, e, hde, he, -, hv⟩ | ⟨hde, hnone, herr | herr⟩
  · refine ⟨.found e.ino, dir', m, ?_, .found hv, hinv', hm', fun _ => hdots⟩
    rw [dirStep, hr, Option.map_some, hde]
    dsimp only
    rw [he.entryAt]
    rfl
  · refine ⟨.done, dir', m, ?_, .absent hnone, hinv', hm', fun _ => hdots⟩
    rw [dirStep, hr, Option.map_some, hde, herr]
  · refine ⟨.err e2big, dir', m, ?_, .absentErr hnone, hinv', hm', fun _ => hdots⟩
    rw [dirStep, hr, Option.map_some, hde, herr]

/-- What `f2fs_do_add_link` does to the map. -/
structure LinkAdded (lay : AddrLayout) (sameTask : Bool) (env : DirEnv) (dir : DirInode)
    (m : List Byte → Option (ℕ × ℕ)) (name : List Byte) (ino mode : ℕ) (e : ℤ) (dir' : DirInode) :
    Prop where
  inv : DirInv lay dir'
  failed : e ≠ 0 → dir'.IsMap m ∧
    ((e = eexist ∧ sameTask = false ∧ m name ≠ none) ∨ m name = none ∧ env.Gives e)
  added : e = 0 → m name = none ∧
    dir'.IsMap (Function.update m name (some (ino, f2fsTypeByMode mode)))
  hasDots : dir.HasDots → dir'.HasDots
  kept : dir.inlineDentry = none ∨ dir'.inlineDentry ≠ none → ∀ q x, dir.Held q x → dir'.Held q x

lemma f2fsDoAddLink_spec {sameTask : Bool} (env : DirEnv) (dst : DentryPtr) (ino mode : ℕ)
    (hinv : DirInv lay dir) (hm : dir.IsMap m) (hname : name ≠ [])
    (hshort : name.length ≤ f2fsNameLen) (hsame : sameTask = true → m name = none) :
    ∃ e dir', f2fsDoAddLink lay sameTask env dst dir name ino mode = some (e, dir') ∧
      LinkAdded lay sameTask env dir m name ino mode e dir' := by
  -- what the check comes to
  obtain ⟨r, dir₁, hr, hsame₁, hinv₁, hcases⟩ : ∃ r dir₁,
      (if sameTask then some (⟨none, none⟩, dir) else f2fsFindEntry lay dir name) = some (r, dir₁) ∧
      SameTable dir dir₁ ∧ DirInv lay dir₁ ∧
      ((sameTask = false ∧ r.de ≠ none ∧ m name ≠ none) ∨
        r.de = none ∧ m name = none ∧ (r.err = none ∨ r.err = some e2big)) := by
    cases sameTask with
    | true => exact ⟨_, _, rfl, SameTable.refl dir, hinv, Or.inr ⟨rfl, hsame rfl, Or.inl rfl⟩⟩
    | false =>
        obtain ⟨r, dir₁, hr, hsame₁, hinv₁, hcases⟩ := find_cases hinv hm name
        refine ⟨r, dir₁, hr, hsame₁, hinv₁, hcases.imp_left ?_⟩
        rintro ⟨p, e, hde, -, -, hv⟩
        exact ⟨rfl, by rw [hde]; exact Option.some_ne_none p, by rw [hv]; exact Option.some_ne_none _⟩
  have hm₁ := hsame₁.isMap hm
  have hdots₁ := hsame₁.hasDots
  unfold f2fsDoAddLink
  rw [hr, Option.bind_some]
  rcases hcases with ⟨htask, hde, hv⟩ | ⟨hde, hnone, herr | herr⟩
  · obtain ⟨p, hp⟩ := Option.ne_none_iff_exists'.mp hde
    rw [hp]
    exact ⟨_, _, rfl, hinv₁, fun _ => ⟨hm₁, Or.inl ⟨rfl, htask, hv⟩⟩,
      fun h0 => absurd h0 (by decide), hdots₁, fun _ q x hx => (hsame₁.held q x).mpr hx⟩
  · obtain ⟨e, dir', hadd, hadded⟩ := f2fsAddDentry_spec env dst ino mode hinv₁ hm₁ hname hshort
    rw [hde, herr]
    refine ⟨e, dir', hadd, hadded.inv, fun he => ?_, fun he => ⟨hnone, hadded.added he m hm₁ hnone⟩,
      fun hdots => hadded.hasDots (hdots₁ hdots), fun hin q x hx => ?_⟩
    · obtain ⟨hgives, hkeep⟩ := hadded.failed he
      exact ⟨hkeep m hm₁, Or.inr ⟨hnone, hgives⟩⟩
    · exact hadded.kept (by rw [hsame₁.inlineDentry]; exact hin) q x ((hsame₁.held q x).mpr hx)
  · rw [hde, herr]
    exact ⟨_, _, rfl, hinv₁, fun _ => ⟨hm₁, Or.inr ⟨hnone, Or.inl rfl⟩⟩,
      fun h0 => absurd h0 (by decide), hdots₁, fun _ q x hx => (hsame₁.held q x).mpr hx⟩

lemma dirStep_addLink {sameTask : Bool} {ino mode : ℕ} {dst : DentryPtr} (hinv : DirInv lay dir)
    (hm : dir.IsMap m) (hproper : ProperRequest m (.addLink sameTask name ino mode env dst)) :
    ∃ o dir' m', StepsTo lay dir m (.addLink sameTask name ino mode env dst) o dir' m' := by
  obtain ⟨hname, hshort, hsame⟩ := hproper
  obtain ⟨e, dir', hadd, hadded⟩ := f2fsDoAddLink_spec env dst ino mode hinv hm hname hshort hsame
  have hstep : dirStep lay dir (.addLink sameTask name ino mode env dst)
      = some (if e = 0 then .done else .err e, dir') := by
    rw [dirStep, hadd, Option.map_some]
  by_cases he : e = 0
  · obtain ⟨hnone, hm'⟩ := hadded.added he
    rw [if_pos he] at hstep
    exact ⟨_, dir', _, hstep, .added hnone, hadded.inv, hm', fun _ => hadded.hasDots⟩
  · obtain ⟨hm', hwhy⟩ := hadded.failed he
    rw [if_neg he] at hstep
    refine ⟨_, dir', m, hstep, ?_, hadded.inv, hm', fun _ => hadded.hasDots⟩
    rcases hwhy with ⟨rfl, rfl, hv⟩ | ⟨hnone, hgives⟩
    · obtain ⟨v, hv⟩ := Option.ne_none_iff_exists'.mp hv
      exact .exists hv
    · exact .addErr hnone hgives

lemma dirStep_unlink {acquireErr : Option Err} (hinv : DirInv lay dir) (hm : dir.IsMap m)
    (name : List Byte) : ∃ o dir' m', StepsTo lay dir m (.unlink name acquireErr env) o dir' m' := by
  obtain ⟨r, dir₁, hr, hsame, hinv₁, hcases⟩ := find_cases hinv hm name
  have hm₁ := hsame.isMap hm
  have hdots₁ := hsame.hasDots
  rcases hcases with ⟨p, e, hde, he, hname, hv⟩ | ⟨hde, hnone, herr | herr⟩
  · cases acquireErr with
    | some x =>
        refine ⟨.err x.1, dir₁, m, ?_, .acquireErr hv, hinv₁, hm₁, fun _ => hdots₁⟩
        rw [dirStep, hr, Option.map_some, hde]
    | none =>
        obtain ⟨hinv', hheld⟩ := f2fsDeleteEntry_spec hinv₁ he env
        have herase := hm₁.erase he (fun x hx => he.unique hx) hheld
        rw [hname] at herase
        refine ⟨.done, _, _, ?_, .removed hv, hinv', herase, fun hkeep hdots => ?_⟩
        · rw [dirStep, hr, Option.map_some, hde]
        · exact (hdots₁ hdots).of_delete he (hname ▸ hkeep.1) (hname ▸ hkeep.2) hheld
  · refine ⟨.done, dir₁, m, ?_, .unlinkAbsent hnone, hinv₁, hm₁, fun _ => hdots₁⟩
    rw [dirStep, hr, Option.map_some, hde, herr]
  · refine ⟨.err e2big, dir₁, m, ?_, .unlinkErr hnone, hinv₁, hm₁, fun _ => hdots₁⟩
    rw [dirStep, hr, Option.map_some, hde, herr]

lemma dirStep_setLink {ino mode : ℕ} (hinv : DirInv lay dir) (hm : dir.IsMap m)
    (name : List Byte) : ∃ o dir' m', StepsTo lay dir m (.setLink name ino mode) o dir' m' := by
  obtain ⟨r, dir₁, hr, hsame, hinv₁, hcases⟩ := find_cases hinv hm name
  have hm₁ := hsame.isMap hm
  have hdots₁ := hsame.hasDots
  rcases hcases with ⟨p, e, hde, he, hname, hv⟩ | ⟨hde, hnone, herr | herr⟩
  · obtain ⟨hinv', hheld⟩ := f2fsSetLink_spec hinv₁ he ino mode
    have hreplace := hm₁.replace (b := { e with ino := ino, fileType := f2fsTypeByMode mode }) he
      (fun x hx => he.unique hx) rfl hheld
    rw [hname] at hreplace
    refine ⟨.done, _, _, ?_, .linked hv, hinv', hreplace,
      fun _ hdots => (hdots₁ hdots).of_link
        (b := { e with ino := ino, fileType := f2fsTypeByMode mode }) he rfl hheld⟩
    rw [dirStep, hr, Option.map_some, hde]
  · refine ⟨.err enoent, dir₁, m, ?_, .linkAbsent hnone (Or.inl rfl), hinv₁, hm₁, fun _ => hdots₁⟩
    rw [dirStep, hr, Option.map_some, hde, herr]
  · refine ⟨.err e2big, dir₁, m, ?_, .linkAbsent hnone (Or.inr rfl), hinv₁, hm₁, fun _ => hdots₁⟩
    rw [dirStep, hr, Option.map_some, hde, herr]

/-- **One step, whatever is asked.** -/
lemma dirStep_spec (hinv : DirInv lay dir) (hm : dir.IsMap m) (a : DirRequest)
    (hproper : ProperRequest m a) : ∃ o dir' m', StepsTo lay dir m a o dir' m' := by
  cases a with
  | lookup name => exact dirStep_lookup hinv hm name
  | addLink sameTask name ino mode env dst => exact dirStep_addLink hinv hm hproper
  | unlink name acquireErr env => exact dirStep_unlink hinv hm name
  | setLink name ino mode => exact dirStep_setLink hinv hm name
  | evict =>
      have hsame : SameTable dir { dir with
          chash := 0
          clevel := 0 } := ⟨rfl, rfl, rfl, rfl, rfl, rfl⟩
      exact ⟨_, _, m, rfl, .evicted, hsame.dirInv hinv (fun _ => rfl) (Nat.zero_le _),
        hsame.isMap hm, fun _ => hsame.hasDots⟩

/-! ## A new directory -/

/-- The inline area of a new inode. -/
def emptyInlineDentry (maxInlineData : ℕ) : DentryPtr where
  max := nrInlineDentry maxInlineData
  bitmap := fun _ => false
  dentry := fun _ => ⟨0, 0, 0, 0⟩
  filename := fun _ => 0

/-- `make_empty_dir` on a new inode, with `f2fs_make_empty_inline_dir`. -/
def makeEmptyDir (hasInlineDentry : Bool) (maxInlineData iDirLevel ino parentIno mode
    parentMode : ℕ) : DirInode :=
  let dir : DirInode := {
    maxInlineData := maxInlineData
    inlineDentry := none
    block := fun _ => none
    iSize := 0
    iCurrentDepth := 1
    iDirLevel := iDirLevel
    chash := 0
    clevel := 0 }
  if hasInlineDentry then
    { dir with
      inlineDentry := some (f2fsDoMakeEmptyDir (emptyInlineDentry maxInlineData) ino parentIno mode
        parentMode)
      iSize := maxInlineData }
  else
    { dir with
      block := Function.update dir.block 0
        (some (f2fsDoMakeEmptyDir emptyDentryBlock ino parentIno mode parentMode))
      iSize := 4096 }

/-- The map of a new directory. -/
def emptyDirMap (ino parentIno mode parentMode : ℕ) : List Byte → Option (ℕ × ℕ) :=
  Function.update (Function.update (fun _ => none) dot (some (ino, f2fsTypeByMode mode))) dotdot
    (some (parentIno, f2fsTypeByMode parentMode))

section MakeEmptyDir

variable {d : DentryPtr} {ino parentIno mode parentMode maxInlineData iDirLevel : ℕ}

/-- A block without bits gets `.` and `..`, and nothing else. -/
lemma doMakeEmptyDir_spec (ino parentIno mode parentMode : ℕ) (hinv : BlockInv d) (hclear : ∀ i, d.bitmap i = false) (hmax : 2 ≤ d.max) :
    BlockInv (f2fsDoMakeEmptyDir d ino parentIno mode parentMode) ∧
      ∀ i e, (f2fsDoMakeEmptyDir d ino parentIno mode parentMode).Stores i e ↔
        i = 0 ∧ e = newEntry dot ino mode ∨ i = 1 ∧ e = newEntry dotdot parentIno parentMode := by
  have hgap : Gap d.bitmap (getDentrySlots dot.length) d.max 0 :=
    ⟨by rw [show getDentrySlots dot.length = 1 from rfl]; omega, fun j _ _ => hclear j⟩
  have hinv' : BlockInv (f2fsUpdateDentry ino mode d dot 0 0) :=
    update_inv hinv hgap (by decide) (by decide)
  have hgap' : Gap (f2fsUpdateDentry ino mode d dot 0 0).bitmap (getDentrySlots dotdot.length)
      (f2fsUpdateDentry ino mode d dot 0 0).max 1 := by
    rw [show getDentrySlots dotdot.length = 1 from rfl]
    refine ⟨hmax, fun j h1 h2 => ?_⟩
    show (if 0 ≤ j ∧ j < 0 + getDentrySlots dot.length then true else d.bitmap j) = false
    rw [show getDentrySlots dot.length = 1 from rfl, if_neg (by omega)]
    exact hclear j
  refine ⟨update_inv hinv' hgap' (by decide) (by decide), fun i e => ?_⟩
  unfold f2fsDoMakeEmptyDir
  rw [update_stores hinv' hgap' (by decide), update_stores hinv hgap (by decide)]
  have hnone : ¬ d.Stores i e := by
    rintro ⟨⟨-, hset, -⟩, -⟩
    rw [hclear] at hset
    exact Bool.false_ne_true hset
  simp only [hnone, false_or]
  rfl

lemma nrInlineDentry_two (h : 40 ≤ maxInlineData) : 2 ≤ nrInlineDentry maxInlineData := by
  unfold nrInlineDentry
  rw [show (sizeOfDirEntry + slotLen) * 8 + 1 = 153 from rfl]
  omega

lemma nrInlineDentry_le (h : maxInlineData ≤ 4096) :
    nrInlineDentry maxInlineData ≤ nrDentryInBlock := by
  unfold nrInlineDentry
  rw [show (sizeOfDirEntry + slotLen) * 8 + 1 = 153 from rfl, show nrDentryInBlock = 214 from rfl]
  omega

lemma newEntry_ok (name : List Byte) (ino mode : ℕ) : (newEntry name ino mode).Ok :=
  ⟨rfl, f2fsTypeByMode_lt mode⟩

/-- Where `.` and `..` are, in a new directory. -/
lemma makeEmptyDir_held (hasInlineDentry : Bool) (hmin : 40 ≤ maxInlineData) (p : ℕ × ℕ)
    (e : Entry) :
    (makeEmptyDir hasInlineDentry maxInlineData iDirLevel ino parentIno mode parentMode).Held p e ↔
      p = (0, 0) ∧ e = newEntry dot ino mode ∨
        p = (0, 1) ∧ e = newEntry dotdot parentIno parentMode := by
  have hpair : ∀ k, (p.1 = 0 ∧ p.2 = k) ↔ p = (0, k) := fun k =>
    ⟨fun h => Prod.ext h.1 h.2, fun h => by rw [h]; exact ⟨rfl, rfl⟩⟩
  cases hasInlineDentry with
  | true =>
      have hinv : BlockInv (emptyInlineDentry maxInlineData) :=
        ⟨⟨fun _ hi => absurd hi.2.1 Bool.false_ne_true, fun _ hi =>
          absurd hi.2.1 Bool.false_ne_true⟩, fun _ hi => absurd hi.2.1 Bool.false_ne_true,
          fun _ _ hset => absurd hset Bool.false_ne_true, fun _ _ => rfl⟩
      have hspec := (doMakeEmptyDir_spec ino parentIno mode parentMode hinv (fun _ => rfl) (nrInlineDentry_two hmin)).2
      refine (held_inline rfl p e).trans ?_
      rw [hspec, and_or_left, ← and_assoc, ← and_assoc, hpair, hpair]
  | false =>
      have hspec := (doMakeEmptyDir_spec ino parentIno mode parentMode emptyDentryBlock_inv (fun _ => rfl) (by decide)).2
      refine (held_regular rfl p e).trans (inBlock_update.trans ?_)
      simp only [hspec, Option.some_inj, exists_eq_left', and_or_left, ← and_assoc, hpair]
      refine or_iff_right ?_
      rintro ⟨-, d, hd, -⟩
      exact Option.some_ne_none d hd.symm

lemma emptyInlineDentry_inv (maxInlineData : ℕ) : BlockInv (emptyInlineDentry maxInlineData) where
  ok := ⟨fun _ hi => absurd hi.2.1 Bool.false_ne_true, fun _ hi => absurd hi.2.1 Bool.false_ne_true⟩
  short _ hi := absurd hi.2.1 Bool.false_ne_true
  cover _ _ hset := absurd hset Bool.false_ne_true
  beyond _ _ := rfl

/-- Each new directory is in order. -/
lemma makeEmptyDir_inv (hasInlineDentry : Bool) (hmin : 40 ≤ maxInlineData)
    (hmax : maxInlineData ≤ 4096) : DirInv lay
      (makeEmptyDir hasInlineDentry maxInlineData iDirLevel ino parentIno mode parentMode) := by
  have hheld := @makeEmptyDir_held ino parentIno mode parentMode maxInlineData iDirLevel
    hasInlineDentry hmin
  have hok : ∀ p e, (makeEmptyDir hasInlineDentry maxInlineData iDirLevel ino parentIno mode
      parentMode).Held p e → p.1 = 0 ∧ e.Ok ∧ e.hash = 0 := by
    intro p e he
    rcases (hheld p e).mp he with ⟨rfl, rfl⟩ | ⟨rfl, rfl⟩
    · exact ⟨rfl, newEntry_ok _ _ _, rfl⟩
    · exact ⟨rfl, newEntry_ok _ _ _, rfl⟩
  cases hasInlineDentry with
  | true =>
      exact InlineInv.dirInv ⟨rfl, (doMakeEmptyDir_spec ino parentIno mode parentMode
        (emptyInlineDentry_inv maxInlineData) (fun _ => rfl) (nrInlineDentry_two hmin)).1,
        nrInlineDentry_le hmax, fun i e he => (hok (0, i) e ((held_inline rfl _ e).mpr ⟨rfl, he⟩)).2.1,
        fun _ => rfl, show 1 ≤ maxDirHashDepth by decide, rfl⟩
  | false =>
      have hblock : ∀ n d, (makeEmptyDir false maxInlineData iDirLevel ino parentIno mode
          parentMode).block n = some d →
          n = 0 ∧ d = f2fsDoMakeEmptyDir emptyDentryBlock ino parentIno mode parentMode := by
        intro n d hd
        have hd' : Function.update (fun _ => none) 0
            (some (f2fsDoMakeEmptyDir emptyDentryBlock ino parentIno mode parentMode)) n
            = some d := hd
        by_cases hn : n = 0
        · rw [hn, Function.update_self] at hd'
          exact ⟨hn, (Option.some.inj hd').symm⟩
        · rw [Function.update_of_ne hn] at hd'
          exact absurd hd'.symm (Option.some_ne_none d)
      have hin := fun p e he => hok p e ((held_regular rfl p e).mpr he)
      refine TableInv.dirInv ⟨fun n d hd => ?_, fun n d hd => ?_, fun n d hd => ?_,
        fun n d hd => ?_, fun p e he => (hin p e he).2.1, fun p e he => ⟨0, Nat.zero_lt_one, ?_⟩,
        show 1 ≤ maxDirHashDepth by decide, Nat.zero_le _⟩ rfl
      · rw [(hblock n d hd).2]
        exact (doMakeEmptyDir_spec ino parentIno mode parentMode emptyDentryBlock_inv
          (fun _ => rfl) (by decide)).1
      · rw [(hblock n d hd).2]
        rfl
      · rw [(hblock n d hd).1]
        exact getNodePath_ne_none_iff.mpr (by omega)
      · rw [(hblock n d hd).1]
        exact le_rfl
      · obtain ⟨hp, -, hhash⟩ := hin p e he
        rw [hp, hhash]
        unfold InBucket
        rw [Nat.zero_mod, dirBlockIndex, levelStart, Nat.zero_mul]
        decide

lemma makeEmptyDir_isMap (hasInlineDentry : Bool) (hmin : 40 ≤ maxInlineData) :
    (makeEmptyDir hasInlineDentry maxInlineData iDirLevel ino parentIno mode parentMode).IsMap
      (emptyDirMap ino parentIno mode parentMode) := by
  have hnone : Represents (fun (_ : ℕ × ℕ) (_ : Entry) => False) Entry.name Entry.value
      (fun _ => none) :=
    ⟨fun _ _ h => h.elim, fun _ _ h => absurd h.symm (Option.some_ne_none _),
      fun _ _ _ _ h => h.elim⟩
  have hdot := hnone.insert (p := (0, 0)) (e := newEntry dot ino mode) rfl fun _ _ => Iff.rfl
  have hnew : Function.update (fun _ => none) (newEntry dot ino mode).name
      (some (newEntry dot ino mode).value) (newEntry dotdot parentIno parentMode).name = none :=
    Function.update_of_ne (show dotdot ≠ dot by decide) ..
  refine hdot.insert (p := (0, 1)) hnew fun q x => ?_
  rw [makeEmptyDir_held hasInlineDentry hmin, false_or]

lemma makeEmptyDir_hasDots (hasInlineDentry : Bool) (hmin : 40 ≤ maxInlineData) :
    (makeEmptyDir hasInlineDentry maxInlineData iDirLevel ino parentIno mode parentMode).HasDots
    where
  dot := ⟨_, (makeEmptyDir_held hasInlineDentry hmin _ _).mpr (Or.inl ⟨rfl, rfl⟩), rfl⟩
  dotdot := ⟨_, (makeEmptyDir_held hasInlineDentry hmin _ _).mpr (Or.inr ⟨rfl, rfl⟩), rfl⟩

end MakeEmptyDir

/-! ## Empty directories -/

/-- There is no entry behind the first slots iff there is no bit. -/
lemma findNextBit_end_iff {d : DentryPtr} {start : ℕ} (hinv : BlockInv d)
    (hcut : ∀ i, d.HasEntry i → i < start → i + d.slots i ≤ start) :
    d.max ≤ findNextBit d.bitmap d.max start ↔ ∀ i e, d.Stores i e → i < start := by
  rw [le_findNextBit_iff]
  constructor
  · rintro h i e ⟨hi, -⟩
    by_contra hge
    have hclear := h i (not_lt.mp hge) hi.1
    rw [hi.2.1] at hclear
    exact absurd hclear (by decide)
  · intro h j h1 h2
    by_contra hset
    obtain ⟨i, hi, h3, h4⟩ := hinv.cover j h2 (by simpa using hset)
    have := hcut i hi (h i _ ⟨hi, rfl⟩)
    omega

/-- `.` and `..` take one slot each. -/
lemma dots_cut {d : DentryPtr} (h0 : ∃ e, d.Stores 0 e ∧ e.name = dot)
    (h1 : ∃ e, d.Stores 1 e ∧ e.name = dotdot) (i : ℕ) (_ : d.HasEntry i) (hi : i < 2) :
    i + d.slots i ≤ 2 := by
  have hslots : ∀ j e, d.Stores j e → d.slots j = getDentrySlots e.name.length := by
    rintro j e ⟨-, rfl⟩
    exact congrArg getDentrySlots (name_length d j).symm
  obtain ⟨e₀, he₀, hname₀⟩ := h0
  obtain ⟨e₁, he₁, hname₁⟩ := h1
  interval_cases i
  · rw [hslots 0 e₀ he₀, hname₀]
    decide
  · rw [hslots 1 e₁ he₁, hname₁]
    decide

/-- The check finds nothing in the block. -/
def DirInode.ClearBlock (dir : DirInode) (n : ℕ) : Prop :=
  ∀ d, dir.block n = some d →
    nrDentryInBlock ≤ findNextBit d.bitmap nrDentryInBlock (if n = 0 then 2 else 0)

lemma emptyBlocks_succ (k bidx : ℕ) : emptyBlocks dir (k + 1) bidx = true ↔
    dir.ClearBlock bidx ∧ emptyBlocks dir k (bidx + 1) = true := by
  rw [emptyBlocks]
  unfold DirInode.ClearBlock
  cases hd : dir.block bidx with
  | none => simp
  | some d =>
      dsimp only
      generalize (if bidx = 0 then 2 else 0) = bitPos
      by_cases hlt : findNextBit d.bitmap nrDentryInBlock bitPos < nrDentryInBlock
      · rw [if_pos hlt]
        refine ⟨fun h => absurd h Bool.false_ne_true, fun h => ?_⟩
        exact absurd (h.1 d rfl) (not_le.mpr hlt)
      · rw [if_neg hlt]
        refine (and_iff_right fun d' hd' => ?_).symm
        obtain rfl := Option.some.inj hd'
        exact not_lt.mp hlt

lemma emptyBlocks_iff (k bidx : ℕ) : emptyBlocks dir k bidx = true ↔
    ∀ n, bidx ≤ n → n < bidx + k → dir.ClearBlock n := by
  induction k generalizing bidx with
  | zero => exact ⟨fun _ n h1 h2 => by omega, fun _ => rfl⟩
  | succ k ih =>
      rw [emptyBlocks_succ, ih]
      refine ⟨fun h n h1 h2 => ?_, fun h => ⟨h bidx le_rfl (by omega), fun n h1 h2 =>
        h n (by omega) (by omega)⟩⟩
      rcases h1.eq_or_lt with rfl | hlt
      · exact h.1
      · exact h.2 n hlt (by omega)

/-- The check of `f2fs_empty_dir`, by places. -/
lemma f2fsEmptyDir_places (hinv : DirInv lay dir) (hdots : dir.HasDots) :
    f2fsEmptyDir dir = true ↔ ∀ p e, dir.Held p e → p = (0, 0) ∨ p = (0, 1) := by
  have htwo : ∀ p : ℕ × ℕ, (p = (0, 0) ∨ p = (0, 1)) ↔ p.1 = 0 ∧ p.2 < 2 := by
    intro p
    constructor
    · rintro (rfl | rfl) <;> decide
    · rintro ⟨h1, h2⟩
      have : p.2 = 0 ∨ p.2 = 1 := by omega
      exact this.imp (Prod.ext h1) (Prod.ext h1)
  simp only [htwo]
  obtain ⟨⟨e₀, he₀, hname₀⟩, ⟨e₁, he₁, hname₁⟩⟩ := hdots
  unfold f2fsEmptyDir
  cases hin : dir.inlineDentry with
  | some d =>
      have h := hinv.inline d hin
      have hcut := dots_cut ⟨e₀, ((held_inline hin _ _).mp he₀).2, hname₀⟩
        ⟨e₁, ((held_inline hin _ _).mp he₁).2, hname₁⟩
      simp only [decide_eq_true_eq, held_inline hin]
      rw [findNextBit_end_iff h.inv hcut]
      exact ⟨fun hno p e he => ⟨he.1, hno _ e he.2⟩, fun hno i e he => (hno (0, i) e ⟨rfl, he⟩).2⟩
  | none =>
      have h := hinv.regular hin
      simp only [held_regular hin]
      rw [emptyBlocks_iff]
      -- what one block says
      have hblock : ∀ n d, dir.block n = some d →
          (nrDentryInBlock ≤ findNextBit d.bitmap nrDentryInBlock (if n = 0 then 2 else 0) ↔
            ∀ i e, d.Stores i e → i < if n = 0 then 2 else 0) := by
        intro n d hd
        have hmax := h.max n d hd
        rw [← hmax]
        refine findNextBit_end_iff (h.inv n d hd) ?_
        by_cases hn : n = 0
        · subst hn
          rw [if_pos rfl]
          have hs : ∀ i e, dir.Held (0, i) e → d.Stores i e := by
            intro i e he
            obtain ⟨d', hd', hs⟩ := (held_regular hin _ e).mp he
            rwa [Option.some.inj (hd.symm.trans hd')]
          exact dots_cut ⟨e₀, hs 0 e₀ he₀, hname₀⟩ ⟨e₁, hs 1 e₁ he₁, hname₁⟩
        · rw [if_neg hn]
          omega
      constructor
      · rintro hno p e ⟨d, hd, hs⟩
        have hsize := h.size p.1 d hd
        have hlt : p.1 < 0 + dir.dirBlocks := by
          unfold DirInode.dirBlocks
          omega
        have hi := (hblock _ d hd).mp (hno p.1 (Nat.zero_le _) hlt d hd) p.2 e hs
        by_cases hp : p.1 = 0
        · rw [if_pos hp] at hi
          exact ⟨hp, hi⟩
        · rw [if_neg hp] at hi
          omega
      · intro hno n _ _ d hd
        refine (hblock n d hd).mpr fun i e hs => ?_
        obtain ⟨hn, hi⟩ := hno (n, i) e ⟨d, hd, hs⟩
        rw [if_pos hn]
        exact hi

/-- **Empty is what has no other names.** -/
lemma f2fsEmptyDir_iff (hinv : DirInv lay dir) (hm : dir.IsMap m) (hdots : dir.HasDots) :
    f2fsEmptyDir dir = true ↔ ∀ name, m name ≠ none → name = dot ∨ name = dotdot := by
  rw [f2fsEmptyDir_places hinv hdots]
  obtain ⟨⟨e₀, he₀, hname₀⟩, ⟨e₁, he₁, hname₁⟩⟩ := hdots
  constructor
  · intro h name hname
    obtain ⟨v, hv⟩ := Option.ne_none_iff_exists'.mp hname
    obtain ⟨p, e, he, rfl⟩ := hm.complete name v hv
    rcases h p e he with rfl | rfl
    · exact Or.inl (by rw [he₀.unique he]; exact hname₀)
    · exact Or.inr (by rw [he₁.unique he]; exact hname₁)
  · intro h p e he
    rcases h e.name (by rw [hm.sound p e he]; exact Option.some_ne_none _) with hname | hname
    · exact Or.inl (hm.unique p e _ e₀ he he₀ (hname.trans hname₀.symm))
    · exact Or.inr (hm.unique p e _ e₁ he he₁ (hname.trans hname₁.symm))

/-! ## Runs -/

/-- A name is added, looked up and taken away again. -/
def sampleRequests (env : DirEnv) : List DirRequest :=
  [.addLink false [0x61, 0x62] 7 0x81A4 env emptyDentryBlock, .lookup [0x61, 0x62],
    .unlink [0x61, 0x62] none env]

/-- Nothing fails. -/
def calmEnv : DirEnv where
  newPageErr := fun _ _ => none
  initErr := none
  convertErr := none
  holeFails := false

lemma sampleRequests_proper (m : List Byte → Option (ℕ × ℕ)) :
    Answers.Proper MapStep (fun m a => ProperRequest m a ∧ KeepsDots a) m
      (sampleRequests calmEnv) := by
  refine ⟨⟨⟨by decide, by decide, fun h => absurd h Bool.false_ne_true⟩, trivial⟩, fun _ _ _ =>
    ⟨⟨trivial, trivial⟩, fun _ _ _ => ⟨⟨trivial, by decide, by decide⟩, fun _ _ _ => trivial⟩⟩⟩

/-- **A directory is a map, in every run.**  The requests have an answer each, and each is one that
the map gives. -/
theorem dir_refines_map (hinv : DirInv lay dir) (hm : dir.IsMap m) {requests : List DirRequest}
    (hproper : Answers.Proper MapStep ProperRequest m requests) :
    ∃ answers dir' m', Answers.run (dirStep lay) dir requests = some (answers, dir') ∧
      Answers.Permits MapStep m requests answers m' ∧ DirInv lay dir' ∧ dir'.IsMap m' := by
  refine Answers.run_refines (R := fun dir m => DirInv lay dir ∧ dir.IsMap m)
    (fun dir m a h hgood => ?_) ⟨hinv, hm⟩ hproper
  obtain ⟨o, dir', m', hstep⟩ := dirStep_spec h.1 h.2 a hgood
  exact ⟨o, dir', m', hstep.step, hstep.map, hstep.inv, hstep.isMap⟩

/-- An inline area that is full with `.` and `..`. -/
theorem dir_refines_map_full_area :
    (Answers.run (dirStep plainLayout) (makeEmptyDir true 40 0 5 3 0x41ED 0x41ED)
      (sampleRequests calmEnv)).map Prod.fst = some [.done, .found 7, .done] ∧
    ∃ answers dir' m', Answers.run (dirStep plainLayout) (makeEmptyDir true 40 0 5 3 0x41ED 0x41ED)
        (sampleRequests calmEnv) = some (answers, dir') ∧
      Answers.Permits MapStep (emptyDirMap 5 3 0x41ED 0x41ED) (sampleRequests calmEnv) answers m' ∧
      DirInv plainLayout dir' ∧ dir'.IsMap m' :=
  ⟨by decide +kernel, dir_refines_map (makeEmptyDir_inv true (by decide) (by decide))
    (makeEmptyDir_isMap true (by decide))
    ((sampleRequests_proper _).mono fun _ _ h => h.1)⟩

lemma run_hasDots (hinv : DirInv lay dir) (hm : dir.IsMap m) (hdots : dir.HasDots)
    {requests : List DirRequest}
    (hproper : Answers.Proper MapStep (fun m a => ProperRequest m a ∧ KeepsDots a) m requests) :
    ∃ answers dir' m', Answers.run (dirStep lay) dir requests = some (answers, dir') ∧
      Answers.Permits MapStep m requests answers m' ∧
      DirInv lay dir' ∧ dir'.IsMap m' ∧ dir'.HasDots := by
  refine Answers.run_refines (R := fun dir m => DirInv lay dir ∧ dir.IsMap m ∧ dir.HasDots)
    (fun dir m a h hgood => ?_) ⟨hinv, hm, hdots⟩ hproper
  obtain ⟨o, dir', m', hstep⟩ := dirStep_spec h.1 h.2.1 a hgood.1
  exact ⟨o, dir', m', hstep.step, hstep.map, hstep.inv, hstep.isMap, hstep.hasDots hgood.2 h.2.2⟩

/-- **`f2fs_rmdir` refuses just the directories with other names**, whatever has happened to them
since they were made. -/
theorem empty_dir_exact (lay : AddrLayout) (hasInlineDentry : Bool) {maxInlineData : ℕ}
    (hmin : 40 ≤ maxInlineData) (hmax : maxInlineData ≤ 4096)
    (iDirLevel ino parentIno mode parentMode : ℕ) {requests : List DirRequest}
    (hproper : Answers.Proper MapStep (fun m a => ProperRequest m a ∧ KeepsDots a)
      (emptyDirMap ino parentIno mode parentMode) requests) :
    ∃ answers dir' m', Answers.run (dirStep lay) (makeEmptyDir hasInlineDentry maxInlineData
        iDirLevel ino parentIno mode parentMode) requests = some (answers, dir') ∧
      Answers.Permits MapStep (emptyDirMap ino parentIno mode parentMode) requests answers m' ∧
      (f2fsEmptyDir dir' = true ↔ ∀ name, m' name ≠ none → name = dot ∨ name = dotdot) := by
  obtain ⟨answers, dir', m', hrun, hperm, hinv, hm, hdots⟩ := run_hasDots
    (show DirInv lay _ from makeEmptyDir_inv hasInlineDentry hmin hmax) (makeEmptyDir_isMap hasInlineDentry hmin)
    (makeEmptyDir_hasDots hasInlineDentry hmin) hproper
  exact ⟨answers, dir', m', hrun, hperm, f2fsEmptyDir_iff hinv hm hdots⟩

theorem empty_dir_exact_regular :
    ∃ answers dir' m', Answers.run (dirStep plainLayout) (makeEmptyDir false 40 1 5 3 0x41ED 0x41ED)
        (sampleRequests calmEnv) = some (answers, dir') ∧
      Answers.Permits MapStep (emptyDirMap 5 3 0x41ED 0x41ED) (sampleRequests calmEnv) answers m' ∧
      (f2fsEmptyDir dir' = true ↔ ∀ name, m' name ≠ none → name = dot ∨ name = dotdot) :=
  empty_dir_exact plainLayout false (by decide) (by decide) 1 5 3 0x41ED 0x41ED
    (sampleRequests_proper _)

end Hoit.Dir
