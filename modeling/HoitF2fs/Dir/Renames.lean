import HoitF2fs.Dir.NameSpecs

/-!
# Renames

A rename makes the new entry, or turns the one that is there to the old inode, and then takes the old
entry away.  Its place has been found before the new entry came.

* `Halfway` — the directories between the two steps: **the old entry is still in its place**, or has
  been found anew.
* `renameTo_half`, `renameOver_half`, `whiteout_half` — the way there.
* `Halfway.tail` — the rest.
* `rename_spec`, `crossRename_spec` — the calls.
-/

namespace Hoit.Namei

open Dir NodePath ByteStore RefCount

variable {lay : AddrLayout} {root max : ℕ} {t : Tree} {fs fs' : Fs} {i j : ℕ}
  {x y : ℕ × List Byte} {live : Set ℕ} {names : Names} {env : RenameEnv} {q : ℕ × ℕ}
  {parent : Option (ℕ × ℕ)} {u : Inodes}

/-- The new entry is there, and so is the old one. -/
structure Halfway (lay : AddrLayout) (live : Set ℕ) (names : Names) (x y : ℕ × List Byte) (i : ℕ)
    (q : ℕ × ℕ) (parent : Option (ℕ × ℕ)) (u : Inodes) (fs : Fs) : Prop where
  inodes : fs.toInodes = u
  dirs : DirsInv lay live (Function.update names y (some i)) fs
  old : fs.At x.1 x.2 q
  parent : ∀ p, parent = some p → fs.At i dotdot p

/-! ## The first step -/

/-- A new entry is made. -/
lemma renameTo_half (h : FsInv lay root max t fs) (hx : t.names x = some i) (hy : y.1 ∈ t.names.live)
    (hnew : NewName t.names env.add y.1 y.2) (hne : y ≠ x) (isDir : Bool) {isOldInline : Bool}
    (hinline : isOldInline = (fs.dir x.1).inlineDentry.isSome) (hat : fs.At x.1 x.2 q)
    (hparent : ∀ p, parent = some p → fs.At i dotdot p ∧ y.1 ≠ i)
    (f : ℕ × ℕ → Fs → Outcome) :
    (∃ e fs', AddErr t.names env.add y.1 y.2 e ∧ FsInv lay root max t fs' ∧
        fs.renameTo lay env isDir isOldInline x.1 y.1 x.2 y.2 i q f = some (e, fs')) ∨
      t.names y = none ∧ ∃ q' fs', Halfway lay t.names.live t.names x y i q' parent
          (if isDir then fs.f2fsILinksWrite y.1 true else fs.toInodes) fs' ∧
        fs.renameTo lay env isDir isOldInline x.1 y.1 x.2 y.2 i q f = f q' fs' := by
  obtain ⟨e, fs₁, hlinked, hadd⟩ := addLink_spec h.dirs hy hnew i false false
  rw [link_file fs₁ env.add y.1 fun hno => absurd hno Bool.false_ne_true] at hadd
  have hsame : ({ fs₁ with toInodes := fs₁.initLink i false } : Fs) = fs₁ := rfl
  rw [hsame, ite_self] at hadd
  unfold Fs.renameTo Outcome.andThen
  rw [hadd, Option.bind_some]
  dsimp only
  by_cases he : e = 0
  swap
  · obtain ⟨herr, hdirs⟩ := hlinked.failed he
    rw [if_neg he]
    exact Or.inl ⟨e, fs₁, herr, h.same hlinked.inodes hdirs, rfl⟩
  obtain ⟨hfree, hdirs⟩ := hlinked.added he
  rw [if_pos he]
  refine Or.inr ⟨hfree, ?_⟩
  -- the count of the new parent does not matter to the directories
  obtain ⟨fs₂, hfs₂, hdir₂, hin₂⟩ : ∃ fs₂ : Fs, (if isDir then
      ({ fs₁ with toInodes := fs₁.f2fsILinksWrite y.1 true } : Fs) else fs₁) = fs₂ ∧
      fs₂.dir = fs₁.dir ∧
      fs₂.toInodes = if isDir then fs.f2fsILinksWrite y.1 true else fs.toInodes := by
    refine ⟨_, rfl, ?_, ?_⟩
    · cases isDir <;> rfl
    · rw [← hlinked.inodes]
      cases isDir <;> rfl
  have hmode₂ : fs₂.iMode = fs₁.iMode := by
    rw [hin₂, ← hlinked.inodes]
    cases isDir <;> rfl
  have hdirs₂ : DirsInv lay t.names.live (Function.update t.names y (some i)) fs₂ :=
    hdirs.congr_inodes (fun c _ => congrFun hdir₂ c) fun _ j _ => congrFun hmode₂ j
  have hat₂ : ∀ c n p, fs₁.At c n p → fs₂.At c n p := by
    rintro c n p ⟨e, he, hn⟩
    exact ⟨e, by rw [hdir₂]; exact he, hn⟩
  have hparent₂ : ∀ p, parent = some p → fs₂.At i dotdot p := by
    intro p hp
    obtain ⟨hatp, hyi⟩ := hparent p hp
    obtain ⟨e, he, hn⟩ := hatp
    exact hat₂ _ _ _ ⟨e, by rw [hlinked.other i hyi.symm]; exact he, hn⟩
  rw [hfs₂]
  by_cases hconv : isOldInline = true ∧ (fs₂.dir x.1).inlineDentry.isNone = true
  · rw [if_pos hconv]
    have hx' : Function.update t.names y (some i) x = some i := by
      rw [Function.update_of_ne hne.symm]
      exact hx
    obtain ⟨q', fs₃, hfound, hsame₃, hdirs₃, hat₃⟩ :=
      withEntry_found hdirs₂ x.1 x.2 (h.shape.live_of_some hx) hx' enoent f
    exact ⟨q', fs₃, ⟨hsame₃.inodes.trans hin₂, hdirs₃, hat₃, fun p hp =>
      hsame₃.at (hparent₂ p hp)⟩, hfound⟩
  · rw [if_neg hconv]
    refine ⟨q, fs₂, ⟨hin₂, hdirs₂, hat₂ _ _ _ ?_, hparent₂⟩, rfl⟩
    by_cases hxy : x.1 = y.1
    · rw [hxy]
      refine hlinked.kept ?_ x.2 q (hxy ▸ hat)
      rw [hinline, hdir₂, hxy, Option.isNone_iff_eq_none, Option.isSome_iff_ne_none] at hconv
      by_cases hno : (fs.dir y.1).inlineDentry = none
      · exact Or.inl hno
      · exact Or.inr fun hnone => hconv ⟨hno, hnone⟩
    · obtain ⟨e, he, hn⟩ := hat
      exact ⟨e, by rw [hlinked.other x.1 hxy]; exact he, hn⟩

/-- The entry that is there leads to the old inode now. -/
lemma renameOver_half (h : FsInv lay root max t fs) (env : RenameEnv) (hy : t.names y = some j)
    (hyn : IsName y.2) (hne : y ≠ x) {isDir : Bool}
    (hdir : t.isDir i = isDir) (hdir' : t.isDir j = isDir) (hat : fs.At x.1 x.2 q)
    (hparent : ∀ p, parent = some p → fs.At i dotdot p) (f : Fs → Outcome) :
    (∃ e fs', TargetErr max t env.add y i (some j) e ∧ FsInv lay root max t fs' ∧
        (fs.renameOver lay isDir y.1 y.2 i j).andThen f = some (e, fs')) ∨
      (isDir = true → t.Empty j) ∧ ∃ fs', Halfway lay t.names.live t.names x y i q parent
          (((if isDir then fs.acquired.f2fsILinksWrite j false else fs.acquired).f2fsILinksWrite j
            false).orphanOrRelease j) fs' ∧
        (fs.renameOver lay isDir y.1 y.2 i j).andThen f = f fs' := by
  unfold Fs.renameOver Outcome.andThen
  by_cases hempty : isDir = true ∧ ¬ f2fsEmptyDir (fs.dir j) = true
  · rw [if_pos hempty, Option.bind_some, if_neg (show enotempty ≠ 0 by decide)]
    have hmode : sIsDir (fs.iMode j) = true := by
      rw [← h.isDir_of_name hy, hdir', hempty.1]
    have hiff := h.empty_iff ((h.shape.target y j hy).2 hmode)
    exact Or.inl ⟨_, fs, Or.inl ⟨rfl, hdir.trans hempty.1, fun he => hempty.2 (hiff.mpr he)⟩, h, rfl⟩
  rw [if_neg hempty]
  obtain ⟨p, fs₁, hfound, hsame, h₁, hat₁⟩ := h.found y.1 y.2 hy enoent
    fun newEntry fs =>
      let x := fs.f2fsAcquireOrphanInode
      if x.1 ≠ 0 then some (x.1, { fs with toInodes := x.2 })
      else
        let fs := { fs with toInodes := x.2 }.setLink y.1 newEntry i
        let t := if isDir then fs.f2fsILinksWrite j false else fs.toInodes
        some (0, { fs with toInodes := (t.f2fsILinksWrite j false).orphanOrRelease j })
  rw [hfound]
  dsimp only
  rcases h₁.acquire with ⟨hfull, hacq⟩ | hacq
  · rw [hacq, if_pos (show enospc ≠ 0 by decide), Option.bind_some,
      if_neg (show enospc ≠ 0 by decide)]
    exact Or.inl ⟨_, _, Or.inr ⟨rfl, hfull⟩, h₁, rfl⟩
  rw [hacq, if_neg (show ¬ (0 : ℤ) ≠ 0 by simp), Option.bind_some, if_pos rfl]
  obtain ⟨hdirs, hkeep⟩ := h₁.dirs.setLink (h.shape.live_of_some hy) hat₁ i
  refine Or.inr ⟨fun hd => ?_, _, ?_, rfl⟩
  · have hmode : sIsDir (fs.iMode j) = true := by
      rw [← h.isDir_of_name hy, hdir', hd]
    rw [← h.empty_iff ((h.shape.target y j hy).2 hmode)]
    by_contra hno
    exact hempty ⟨hd, hno⟩
  refine ⟨?_, hdirs.congr_inodes (fun _ _ => rfl) fun _ c _ => ?_,
    hkeep x.1 x.2 q hne.symm (hsame.at hat), fun p hp =>
    hkeep i dotdot p (hyn.ne_dotdot i) (hsame.at (hparent p hp))⟩
  · rw [← hsame.inodes]
    cases isDir <;> rfl
  · show (Inodes.orphanOrRelease _ j).iMode c = fs₁.iMode c
    rw [Inodes.orphanOrRelease_iMode, Inodes.links_iMode]
    cases isDir <;> rfl

/-! ## The second step -/

lemma Halfway.delete (h : Halfway lay live names x y i q parent u fs) (hx : x.1 ∈ live)
    (hxn : IsName x.2) (hne : y ≠ x) (del : DirEnv) :
    (fs.deleteEntry del x.1 q).toInodes = u ∧
      DirsInv lay live (Function.update (Function.update names x none) y (some i))
        (fs.deleteEntry del x.1 q) ∧
      ∀ p, parent = some p → (fs.deleteEntry del x.1 q).At i dotdot p := by
  obtain ⟨hdirs, hkeep⟩ := h.dirs.deleteEntry hx hxn h.old del
  rw [Function.update_comm hne] at hdirs
  exact ⟨h.inodes, hdirs, fun p hp => hkeep i dotdot p (hxn.ne_dotdot i) (h.parent p hp)⟩

/-- **The rest of a rename.** -/
lemma Halfway.tail (h : Halfway lay live names x y i q parent u fs) (hx : x.1 ∈ live)
    (hxn : IsName x.2) (hyn : IsName y.2) (hne : y ≠ x) {isDir : Bool} (hparent : parent.isSome = isDir)
    (hdd : isDir = true → i ∈ live ∧ names (i, dotdot) = some x.1) (env : RenameEnv) :
    ∃ fs', fs.renameTail lay env x.1 y.1 x.2 i parent none q = some (0, fs') ∧
      fs'.toInodes = (if isDir then u.f2fsILinksWrite x.1 false else u) ∧
      DirsInv lay live (names.move isDir x y i) fs' := by
  obtain ⟨hin, hdirs, hat⟩ := h.delete hx hxn hne env.del
  unfold Fs.renameTail Outcome.andThen
  rw [Option.bind_some, if_pos rfl]
  cases parent with
  | none =>
      obtain rfl : false = isDir := hparent
      exact ⟨_, rfl, hin, hdirs⟩
  | some p =>
      obtain rfl : true = isDir := hparent
      obtain ⟨hlive, hdot⟩ := hdd rfl
      obtain ⟨hset, -⟩ := hdirs.setLink hlive (hat p rfl) y.1
      dsimp only
      by_cases hxy : x.1 = y.1
      · rw [if_neg fun hno => hno.1 hxy]
        refine ⟨_, rfl, by rw [if_pos rfl, ← hin], ?_⟩
        have hsame : names.move true x y i
            = Function.update (Function.update names x none) y (some i) := by
          have hkeep : Function.update (Function.update names x none) y (some i) (i, dotdot)
              = some y.1 := by
            rw [Function.update_of_ne (hyn.ne_dotdot i), Function.update_of_ne (hxn.ne_dotdot i),
              hdot, hxy]
          unfold Names.move Names.setParent
          rw [if_pos rfl, ← hkeep, Function.update_eq_self]
        rw [hsame]
        exact hdirs.congr_inodes (fun _ _ => rfl) fun _ _ _ => rfl
      · rw [if_pos ⟨hxy, rfl⟩]
        exact ⟨_, rfl, by rw [if_pos rfl, ← hin]; rfl,
          hset.congr_inodes (fun _ _ => rfl) fun _ _ _ => rfl⟩

/-! ## Both steps -/

/-- What a rename does after the lookups. -/
def Fs.renameBody (lay : AddrLayout) (fs : Fs) (env : RenameEnv) (isDir isOldInline : Bool)
    (x y : ℕ × List Byte) (i : ℕ) (target : Option ℕ) (parent : Option (ℕ × ℕ))
    (whiteout : Option Whiteout) (q : ℕ × ℕ) : Outcome :=
  let tail := fun q (fs : Fs) => fs.renameTail lay env x.1 y.1 x.2 i parent whiteout q
  match target with
  | some j => (fs.renameOver lay isDir y.1 y.2 i j).andThen (tail q)
  | none => fs.renameTo lay env isDir isOldInline x.1 y.1 x.2 y.2 i q tail

/-- What the first step does to the inodes. -/
def Inodes.renamed (u : Inodes) (isDir : Bool) (d : ℕ) : Option ℕ → Inodes
  | none => if isDir then u.f2fsILinksWrite d true else u
  | some j =>
      ((if isDir then u.acquired.f2fsILinksWrite j false else u.acquired).f2fsILinksWrite j
        false).orphanOrRelease j

lemma renamed_same (u : Inodes) (isDir : Bool) (d : ℕ) (target : Option ℕ) :
    (u.renamed isDir d target).iMode = u.iMode ∧ (u.renamed isDir d target).inodes = u.inodes ∧
      (u.renamed isDir d target).maxOrphans = u.maxOrphans := by
  cases target with
  | none => cases isDir <;> exact ⟨rfl, rfl, rfl⟩
  | some j =>
      unfold Inodes.renamed
      rw [Inodes.orphanOrRelease_iMode, Inodes.orphanOrRelease_inodes,
        Inodes.orphanOrRelease_maxOrphans]
      cases isDir <;> exact ⟨rfl, rfl, rfl⟩

variable {target : Option ℕ} {whiteout : Option Whiteout}

lemma TargetErr.ne_zero {a : AddEnv} {e : ℤ} (h : TargetErr max t a y i target e) : e ≠ 0 := by
  unfold TargetErr at h
  cases target with
  | none => exact AddErr.ne_zero h
  | some j =>
      rcases h with ⟨rfl, -⟩ | ⟨rfl, -⟩
      · decide
      · decide

/-- A rename fails before it has changed a name, or it gets halfway. -/
lemma renameBody_half (h : FsInv lay root max t fs) (env : RenameEnv)
    (whiteout : Option Whiteout) (hx : t.names x = some i)
    (hy : t.names y = target) (hyl : y.1 ∈ t.names.live) (hyn : IsName y.2) (hne : y ≠ x)
    (hnew : target = none → NewName t.names env.add y.1 y.2)
    (hsame : ∀ j, target = some j → t.isDir j = t.isDir i) {isDir isOldInline : Bool}
    (hdir : t.isDir i = isDir) (hinline : isOldInline = (fs.dir x.1).inlineDentry.isSome)
    (hat : fs.At x.1 x.2 q)
    (hparent : ∀ p, parent = some p → fs.At i dotdot p ∧ y.1 ≠ i) :
    (∃ e fs', TargetErr max t env.add y i target e ∧ FsInv lay root max t fs' ∧
        fs.renameBody lay env isDir isOldInline x y i target parent whiteout q
          = some (e, fs')) ∨
      (∀ j, target = some j → t.isDir i = true → t.Empty j) ∧
        ∃ q' fs', Halfway lay t.names.live t.names x y i q' parent
            (fs.renamed isDir y.1 target) fs' ∧
          fs.renameBody lay env isDir isOldInline x y i target parent whiteout q
            = fs'.renameTail lay env x.1 y.1 x.2 i parent whiteout q' := by
  unfold Fs.renameBody
  cases target with
  | none =>
      rcases renameTo_half h hx hyl (hnew rfl) hne isDir hinline hat hparent
          fun q (fs : Fs) => fs.renameTail lay env x.1 y.1 x.2 i parent whiteout q with
        hfail | ⟨-, q', fs', hhalf, hbody⟩
      · exact Or.inl hfail
      · exact Or.inr ⟨fun j hj => absurd hj.symm (Option.some_ne_none j), q', fs', hhalf, hbody⟩
  | some j =>
      rcases renameOver_half h env hy hyn hne hdir ((hsame j rfl).trans hdir) hat
          (fun p hp => (hparent p hp).1)
          fun fs => fs.renameTail lay env x.1 y.1 x.2 i parent whiteout q with
        hfail | ⟨hempty, fs', hhalf, hbody⟩
      · exact Or.inl hfail
      · refine Or.inr ⟨fun j' hj' hi => ?_, q, fs', hhalf, hbody⟩
        exact Option.some.inj hj' ▸ hempty (hdir.symm.trans hi)

/-- The names that are left when a directory has moved over another. -/
lemma rmdir_move_eq (names : Names) {c : ℕ} (hc : c ≠ j) (n : List Byte) :
    (names.rmdir y.1 y.2 j).move true x y i (c, n) = names.move true x y i (c, n) := by
  unfold Names.move Names.setParent
  rw [if_pos rfl, if_pos rfl]
  by_cases h1 : (c, n) = (i, dotdot)
  · rw [h1, Function.update_self, Function.update_self]
  rw [Function.update_of_ne h1, Function.update_of_ne h1]
  by_cases h2 : (c, n) = y
  · rw [h2, Function.update_self, Function.update_self]
  rw [Function.update_of_ne h2, Function.update_of_ne h2]
  by_cases h3 : (c, n) = x
  · rw [h3, Function.update_self, Function.update_self]
  rw [Function.update_of_ne h3, Function.update_of_ne h3]
  unfold Names.rmdir
  rw [Function.update_of_ne fun heq => hc (congrArg Prod.fst heq),
    Function.update_of_ne fun heq => hc (congrArg Prod.fst heq), Function.update_of_ne h2]

/-- `rmdir` only takes names away. -/
lemma rmdir_less {d : ℕ} {name : List Byte} {z : ℕ × List Byte} {k : ℕ}
    (h : names.rmdir d name j z = some k) : names z = some k := by
  unfold Names.rmdir at h
  by_cases h1 : z = (j, dotdot)
  · rw [h1, Function.update_self] at h
    exact absurd h.symm (Option.some_ne_none k)
  rw [Function.update_of_ne h1] at h
  by_cases h2 : z = (j, dot)
  · rw [h2, Function.update_self] at h
    exact absurd h.symm (Option.some_ne_none k)
  rw [Function.update_of_ne h2] at h
  by_cases h3 : z = (d, name)
  · rw [h3, Function.update_self] at h
    exact absurd h.symm (Option.some_ne_none k)
  · rwa [Function.update_of_ne h3] at h

lemma rmdir_of_name (names : Names) {d : ℕ} {name : List Byte} {z : ℕ × List Byte}
    (hz : IsName z.2) (hne : z ≠ (d, name)) : names.rmdir d name j z = names z := by
  unfold Names.rmdir
  rw [Function.update_of_ne (hz.ne_dotdot j).symm, Function.update_of_ne (hz.ne_dot j).symm,
    Function.update_of_ne hne]

/-- **The tree and the counts are right again** when both steps have been made. -/
lemma FsInv.rename (h : FsInv lay root max t fs) (hx : t.names x = some i) (hxn : IsName x.2)
    (hy : t.names y = target) (hyl : y.1 ∈ t.names.live) (hyn : IsName y.2) (hne : y ≠ x)
    (hsame : ∀ j, target = some j → t.isDir j = t.isDir i)
    (hbelow : t.isDir i = true → ¬ t.names.Below root y.1 i)
    (hempty : ∀ j, target = some j → t.isDir i = true → t.Empty j)
    (hin : fs'.toInodes = if t.isDir i then (fs.renamed (t.isDir i) y.1 target).f2fsILinksWrite x.1
      false else fs.renamed (t.isDir i) y.1 target)
    (hdirs : DirsInv lay t.names.live (t.names.move (t.isDir i) x y i) fs') :
    FsInv lay root max (t.rename x y i target) fs' := by
  obtain ⟨hmode, hinodes, hmax⟩ := renamed_same fs.toInodes (t.isDir i) y.1 target
  have hi := h.isDir_of_name hx
  have hxl := h.shape.live_of_some hx
  -- what the last change of a count leaves as it is
  have hin' : fs'.maxOrphans = max ∧ fs'.inodes = t.inodes ∧ fs'.iMode = fs.iMode := by
    rw [hin]
    cases hd : t.isDir i <;> rw [hd] at hmode hinodes hmax
    · exact ⟨hmax.trans h.maxOrphans, hinodes.trans h.inodes, hmode⟩
    · exact ⟨hmax.trans h.maxOrphans, hinodes.trans h.inodes, hmode⟩
  obtain ⟨hmax', hinodes', hmode'⟩ := hin'
  have hfin : ∀ {live : Set ℕ}, DirsInv lay live (t.rename x y i target).names fs' →
      Shape root fs.iMode fs.inodes live ∅ (t.rename x y i target).names →
      Counts fs'.toInodes (t.rename x y i target).names →
      FsInv lay root max (t.rename x y i target) fs' := fun hd hs hc =>
    FsInv.intro _ rfl hmax' hinodes' (fun i hi => by rw [hmode']; exact h.iMode i hi) hd
      (by rw [hmode', hinodes', ← h.inodes]; exact hs) hc
  unfold Tree.rename at hfin ⊢
  cases target with
  | none =>
      cases hd : t.isDir i with
      | false =>
          rw [hd] at hi hdirs hin hfin
          refine hfin hdirs (h.shape.moveFile hx hxn hi.symm hyl hyn (fun j hj => ?_) hne) ?_
          · rw [hy] at hj
            exact absurd hj.symm (Option.some_ne_none j)
          · rw [hin]
            exact h.counts.moveFile h.shape hi.symm hx hxn hy hyn hne
      | true =>
          rw [hd] at hi hdirs hin hfin
          have hs := h.shape.moveDir hx hxn hi.symm hyl hyn hy (hbelow hd)
          refine hfin hdirs hs ?_
          rw [hin]
          exact h.counts.moveDir h.shape hs hi.symm hx hxn hy hyl hyn hne
  | some j =>
      have hj := (hsame j rfl).symm.trans (h.isDir_of_name hy)
      cases hd : t.isDir i with
      | false =>
          rw [hd] at hi hj hdirs hin hfin
          refine hfin hdirs (h.shape.moveFile hx hxn hi.symm hyl hyn (fun k hk => ?_) hne) ?_
          · obtain rfl := Option.some.inj (hy.symm.trans hk)
            exact hj.symm
          · rw [hin]
            exact h.counts.moveOverFile h.shape hi.symm hx hxn hy hyn hne
      | true =>
          rw [hd] at hi hj hdirs hin hfin
          have hs := h.shape.rmdir hyn hy hj.symm (hempty j rfl hd)
          have hx' : t.names.rmdir y.1 y.2 j x = some i :=
            (rmdir_of_name t.names hxn hne.symm).trans hx
          have hy' : t.names.rmdir y.1 y.2 j y = none := by
            unfold Names.rmdir
            rw [Function.update_of_ne (hyn.ne_dotdot j).symm,
              Function.update_of_ne (hyn.ne_dot j).symm, Function.update_self]
          have hyj : y.1 ≠ j := fun heq => h.shape.not_below hy hyn hj.symm (heq ▸ .refl)
          have hs' := hs.moveDir hx' hxn hi.symm ⟨hyl, hyj⟩ hyn hy'
            fun hup => hbelow hd (hup.of_less fun _ _ => rmdir_less)
          refine hfin (hdirs.congr_names (fun c hc => hc.1) fun c hc n => ?_) hs' ?_
          · exact rmdir_move_eq t.names hc.2 n
          · rw [hin]
            exact h.counts.moveOverDir h.shape hs hs' hi.symm hj.symm hx' hxn hy hy' hyn hne

/-! ## The call -/

/-- What is looked up first. -/
lemma rename_lookups (h : FsInv lay root max t fs) (hx : t.names x = some i) (hxn : IsName x.2)
    (env : RenameEnv) (y : ℕ × List Byte) (target : Option ℕ) (whiteout : Option Whiteout) :
    ∃ q parent fs', FsInv lay root max t fs' ∧ fs'.At x.1 x.2 q ∧ parent.isSome = t.isDir i ∧
      (∀ p, parent = some p → fs'.At i dotdot p) ∧
      f2fsRename lay fs env x.1 x.2 i y.1 y.2 target whiteout
        = fs'.withWhiteout whiteout fun fs => fs.renameBody lay env (t.isDir i)
            (fs'.dir x.1).inlineDentry.isSome x y i target parent whiteout q := by
  have hi := h.isDir_of_name hx
  obtain ⟨q, fs₁, hfound, hsame, h₁, hat⟩ := h.found x.1 x.2 hx 0
    fun oldEntry fs₁ => fs₁.withParent lay (sIsDir (fs.iMode i)) i fun oldDirEntry fs₂ =>
      fs₂.withWhiteout whiteout fun fs₃ => fs₃.renameBody lay env (sIsDir (fs.iMode i))
        (fs.dir x.1).inlineDentry.isSome x y i target oldDirEntry whiteout oldEntry
  obtain ⟨parent, fs₂, hfound₂, hsame₂, hdirs₂, hsome, hat₂⟩ :=
    withParent_found (d := i) h₁.dirs (sIsDir (fs.iMode i))
      (fun hdir => ⟨(h.shape.target x i hx).2 hdir, x.1, h.shape.parent_eq hx hxn hdir⟩)
      fun oldDirEntry fs₂ => fs₂.withWhiteout whiteout fun fs₃ => fs₃.renameBody lay env
        (sIsDir (fs.iMode i)) (fs.dir x.1).inlineDentry.isSome x y i target oldDirEntry whiteout q
  refine ⟨q, parent, fs₂, h₁.same hsame₂.inodes hdirs₂, hsame₂.at hat, hsome.trans hi.symm, hat₂, ?_⟩
  rw [(hsame₂.same x.1).inlineDentry, (hsame.same x.1).inlineDentry, hi, ← hfound₂, ← hfound]
  rfl

/-- Without a whiteout. -/
lemma rename_plain (h : FsInv lay root max t fs)
    (hp : ProperRename root t env x y i target none) :
    Reaches lay root max t (.rename env x.1 x.2 i y.1 y.2 target none)
      (f2fsRename lay fs env x.1 x.2 i y.1 y.2 target none) := by
  obtain ⟨q, parent, fs₁, h₁, hat, hsome, hdots, hrename⟩ :=
    rename_lookups h hp.old hp.oldName env y target none
  have hi := h.isDir_of_name hp.old
  have hyi : ∀ p, parent = some p → fs₁.At i dotdot p ∧ y.1 ≠ i := fun p hpar => by
    refine ⟨hdots p hpar, fun heq => ?_⟩
    rw [hpar] at hsome
    exact hp.below hsome.symm (heq ▸ .refl)
  rw [hrename]
  unfold Fs.withWhiteout
  dsimp only
  rcases renameBody_half h₁ env none hp.old hp.new hp.live hp.newName hp.ne hp.add
      (fun j hj => (hp.same j hj).2) rfl rfl hat hyi with
    ⟨e, fs₂, herr, h₂, hbody⟩ | ⟨hempty, q', fs₂, hhalf, hbody⟩
  · exact ⟨e, fs₂, t, hbody, .failed (Or.inr herr), h₂⟩
  obtain ⟨fs₃, htail, hin, hdirs⟩ := hhalf.tail (h.shape.live_of_some hp.old) hp.oldName hp.newName
    hp.ne hsome (fun hdir => ⟨(h.shape.target x i hp.old).2 (hi ▸ hdir),
      h.shape.parent_eq hp.old hp.oldName (hi ▸ hdir)⟩) env
  refine ⟨0, fs₃, _, hbody.trans htail, .done ⟨hempty, fun w hw => ?_⟩, ?_⟩
  · exact absurd hw.symm (Option.some_ne_none w)
  · exact h₁.rename hp.old hp.oldName hp.new hp.live hp.newName hp.ne
      (fun j hj => (hp.same j hj).2) hp.below hempty hin hdirs

/-- What the names of a rename lead to. -/
lemma move_file_eq (names : Names) {z : ℕ × List Byte} {k : ℕ}
    (h : names.move false x y i z = some k) : k = i ∨ names z = some k := by
  have h' : Function.update (Function.update names x none) y (some i) z = some k := h
  by_cases h1 : z = y
  · rw [h1, Function.update_self] at h'
    exact Or.inl (Option.some.inj h').symm
  rw [Function.update_of_ne h1] at h'
  by_cases h2 : z = x
  · rw [h2, Function.update_self] at h'
    exact absurd h'.symm (Option.some_ne_none k)
  · rw [Function.update_of_ne h2] at h'
    exact Or.inr h'

lemma rename_file (t : Tree) (hfile : t.isDir i = false) (x y : ℕ × List Byte)
    (target : Option ℕ) : (t.rename x y i target).names = t.names.move false x y i := by
  unfold Tree.rename
  cases target with
  | none => rw [hfile]
  | some j =>
      dsimp only
      rw [hfile, if_neg Bool.false_ne_true]

/-- The inode of a whiteout goes again. -/
lemma FsInv.evictNew {t' : Tree} {ino : ℕ} (h : FsInv lay root max t' fs)
    (hnames : t'.names = t.names) (hinodes : t'.inodes = insert ino t.inodes)
    (hmode : ∀ j ∈ t.inodes, t'.iMode j = t.iMode j) (hino : ino ∉ t.inodes)
    (hno : ∀ z, t.names z ≠ some ino) :
    FsInv lay root max t { fs with toInodes := fs.f2fsEvictInode ino } := by
  have hmem : ino ∈ t'.inodes := by
    rw [hinodes]
    exact Finset.mem_insert_self ..
  have herase : t'.inodes.erase ino = t.inodes := by
    rw [hinodes, Finset.erase_insert hino]
  have hevict : FsInv lay root max { t' with inodes := t'.inodes.erase ino }
      { fs with toInodes := fs.f2fsEvictInode ino } :=
    h.evict hmem (by rw [hnames]; exact hno) (fun _ _ => rfl) rfl
  refine hevict.congr_tree hnames.symm herase.symm fun j hj => (hmode j ?_).symm
  rw [← herase]
  exact hj

/-- The rename, without its whiteout. -/
lemma ProperRename.plain (h : ProperRename root t env x y i target whiteout) :
    ProperRename root t env x y i target none where
  old := h.old
  oldName := h.oldName
  new := h.new
  newName := h.newName
  live := h.live
  ne := h.ne
  add := h.add
  same := h.same
  below := h.below
  noWhiteout _ := rfl
  fresh w hw := absurd hw.symm (Option.some_ne_none w)
  whiteoutName w hw := absurd hw.symm (Option.some_ne_none w)

lemma FsInv.newInode_isDir {ino : ℕ} (h : FsInv lay root max t fs) (hino : ino ∉ t.inodes)
    (mode : ℕ) {z : ℕ × List Byte} {k : ℕ} (hz : t.names z = some k) :
    (t.newInode ino mode).isDir k = t.isDir k :=
  congrArg sIsDir (Function.update_of_ne (ne_of_mem_of_not_mem (h.mem_of_name hz) hino) ..)

/-- With a whiteout as well, a rename fails before it has changed a name, or it gets halfway. -/
lemma whiteout_half {w : Whiteout} (h : FsInv lay root max t fs)
    (hp : ProperRename root t env x y i target none) (hino : w.ino ∉ t.inodes) :
    (∃ e fs', e ≠ 0 ∧ MayFail max t (.rename env x.1 x.2 i y.1 y.2 target (some w)) e ∧
        FsInv lay root max t fs' ∧
        f2fsRename lay fs env x.1 x.2 i y.1 y.2 target (some w) = some (e, fs')) ∨
      w.initErr = none ∧ (∀ j, target = some j → t.isDir i = true → t.Empty j) ∧
        ∃ fs₂ parent q fs₃, FsInv lay root max (t.newInode w.ino whiteoutMode) fs₂ ∧
          parent.isSome = t.isDir i ∧
          Halfway lay t.names.live t.names x y i q parent (fs₂.renamed (t.isDir i) y.1 target) fs₃ ∧
          f2fsRename lay fs env x.1 x.2 i y.1 y.2 target (some w)
            = (fs₃.renameTail lay env x.1 y.1 x.2 i parent (some w) q).map fun z =>
              if z.1 = 0 then z else (z.1, { z.2 with toInodes := z.2.f2fsEvictInode w.ino }) := by
  obtain ⟨q, parent, fs₁, h₁, hat, hsome, hdots, hrename⟩ :=
    rename_lookups h hp.old hp.oldName env y target (some w)
  rw [hrename]
  unfold Fs.withWhiteout
  dsimp only
  -- the inode of the whiteout
  obtain ⟨e, u, htmp, ⟨he, hwhy, h₂⟩ | ⟨rfl, hinit, h₂⟩⟩ :=
    tmpfile_cases h₁ whiteoutMode hino w.initErr
  · rw [htmp, if_pos he]
    exact Or.inl ⟨e, _, he, Or.inl ⟨w, rfl, hwhy⟩, h₂, rfl⟩
  rw [htmp, if_neg (show ¬ (0 : ℤ) ≠ 0 by simp)]
  dsimp only
  have hkind := fun {z k} (hz : t.names z = some k) => h.newInode_isDir hino whiteoutMode hz
  have hyi : ∀ p, parent = some p → fs₁.At i dotdot p ∧ y.1 ≠ i := fun p hpar => by
    refine ⟨hdots p hpar, fun heq => ?_⟩
    rw [hpar] at hsome
    exact hp.below hsome.symm (heq ▸ .refl)
  rcases renameBody_half h₂ env (some w) hp.old hp.new hp.live hp.newName hp.ne hp.add
      (fun j hj => by rw [hkind (hp.new.trans hj), hkind hp.old, (hp.same j hj).2])
      (hkind hp.old) rfl hat hyi with
    ⟨e, fs₃, herr, h₃, hbody⟩ | ⟨hempty, q', fs₃, hhalf, hbody⟩
  · rw [hbody, Option.map_some, if_neg herr.ne_zero]
    exact Or.inl ⟨e, _, herr.ne_zero, Or.inr herr, h₃.evictNew rfl rfl
      (fun j hj => Function.update_of_ne (ne_of_mem_of_not_mem hj hino) ..) hino
      fun z hz => hino (h.mem_of_name hz), rfl⟩
  · rw [hbody]
    exact Or.inr ⟨hinit, fun j hj hdir => hempty j hj ((hkind hp.old).trans hdir), _, parent, q',
      fs₃, h₂, hsome, hhalf, rfl⟩

/-- A file, with a whiteout. -/
lemma rename_whiteout {w : Whiteout} (h : FsInv lay root max t fs)
    (hp : ProperRename root t env x y i target (some w)) :
    Reaches lay root max t (.rename env x.1 x.2 i y.1 y.2 target (some w))
      (f2fsRename lay fs env x.1 x.2 i y.1 y.2 target (some w)) := by
  have hfile : t.isDir i = false := by
    by_contra hdir
    exact Option.some_ne_none w (hp.noWhiteout (Bool.eq_true_of_not_eq_false hdir))
  have hino := hp.fresh w rfl
  have hold := hp.old
  rcases whiteout_half h hp.plain hino with ⟨e, fs₁, -, hwhy, h₁, hrename⟩ |
    ⟨hinit, -, fs₂, parent, q', fs₃, h₂, hsome, hhalf, hrename⟩
  · exact ⟨e, fs₁, t, hrename, .failed hwhy, h₁⟩
  rw [hfile, Option.isSome_eq_false_iff, Option.isNone_iff_eq_none] at hsome
  subst hsome
  rw [hrename]
  obtain ⟨t', ht', hnames, hinodes, hmode⟩ : ∃ t', t.newInode w.ino whiteoutMode = t' ∧
      t'.names = t.names ∧ t'.inodes = insert w.ino t.inodes ∧
      ∀ j ∈ t.inodes, t'.iMode j = t.iMode j :=
    ⟨_, rfl, rfl, rfl, fun j hj => Function.update_of_ne (ne_of_mem_of_not_mem hj hino) ..⟩
  have hkind : ∀ {z k}, t.names z = some k → t'.isDir k = t.isDir k := fun hz =>
    ht' ▸ h.newInode_isDir hino whiteoutMode hz
  rw [ht'] at h₂
  have hfile' : t'.isDir i = false := (hkind hold).trans hfile
  rw [← hnames] at hold hhalf
  rw [hfile] at hhalf
  have hsame : ∀ j, target = some j → t'.isDir j = t'.isDir i := fun j hj => by
    rw [hkind (hp.new.trans hj), hkind hp.old]
    exact (hp.same j hj).2
  have hnew : t'.names y = target := by
    rw [hnames]
    exact hp.new
  have hlive : y.1 ∈ t'.names.live := by
    rw [hnames]
    exact hp.live
  unfold Fs.renameTail Outcome.andThen
  dsimp only
  obtain ⟨hin, hdirs, -⟩ := hhalf.delete (h₂.shape.live_of_some hold)
    hp.oldName hp.ne env.del
  have h₄ : FsInv lay root max (t'.rename x y i target) (fs₃.deleteEntry env.del x.1 q') :=
    h₂.rename hold hp.oldName hnew hlive hp.newName hp.ne hsame
      (fun hdir => absurd (hfile'.symm.trans hdir) Bool.false_ne_true)
      (fun _ _ hdir => absurd (hfile'.symm.trans hdir) Bool.false_ne_true)
      (by rw [hfile', if_neg Bool.false_ne_true]; exact hin) (by rw [hfile']; exact hdirs)
  have hnames₄ := rename_file t' hfile' x y target
  have hmove : ∀ z, t'.names.move false x y i z
      = Function.update (Function.update t'.names x none) y (some i) z := fun _ => rfl
  have hxlive : x.1 ∈ (t'.rename x y i target).names.live := by
    show (t'.rename x y i target).names (x.1, dot) ≠ none
    rw [hnames₄, hmove, Function.update_of_ne (hp.newName.ne_dot x.1),
      Function.update_of_ne (hp.oldName.ne_dot x.1)]
    exact h₂.shape.live_of_some hold
  have hfree : (t'.rename x y i target).names x = none := by
    rw [hnames₄, hmove, Function.update_of_ne hp.ne.symm, Function.update_self]
  have hmem₄ : w.ino ∈ (t'.rename x y i target).inodes := by
    show w.ino ∈ t'.inodes
    rw [hinodes]
    exact Finset.mem_insert_self ..
  have hkind₄ : (t'.rename x y i target).isDir w.ino = false := by
    rw [← ht']
    exact (congrArg sIsDir (Function.update_self ..)).trans (by decide)
  obtain ⟨e, fs₅, hadd, ⟨herr, h₅⟩ | ⟨rfl, -, h₅⟩⟩ := link_cases (a := env.addWhiteout) (i := w.ino)
    h₄ hxlive ⟨hp.oldName, (hp.whiteoutName w rfl).1, (hp.whiteoutName w rfl).2,
      fun _ => hfree⟩ hmem₄ hkind₄
  · rw [hadd, Option.bind_some, if_neg herr.ne_zero, Option.map_some, if_neg herr.ne_zero]
    have hgives : env.addWhiteout.env.Gives e := by
      rcases herr with ⟨-, -, hno⟩ | ⟨-, hgives⟩
      · exact absurd hfree hno
      · exact hgives
    have hnames' : (t'.rename x y i target).names = (t.rename x y i target).names := by
      rw [hnames₄, rename_file t hfile, hnames]
    refine ⟨e, _, _, rfl, .whiteoutGone ⟨fun j hj hdir => ?_, fun w' hw' => ?_⟩ hgives,
      h₅.evictNew hnames' hinodes hmode hino fun z hz => ?_⟩
    · exact absurd (hfile.symm.trans hdir) Bool.false_ne_true
    · exact Option.some.inj hw' ▸ hinit
    · have hz' : (t.rename x y i target).names z = some w.ino := hz
      rw [rename_file t hfile] at hz'
      rcases move_file_eq t.names hz' with heq | hk
      · exact hino (heq ▸ h.mem_of_name hp.old)
      · exact hino (h.mem_of_name hk)
  · rw [hadd, Option.bind_some, if_pos rfl, Option.map_some, if_pos rfl]
    refine ⟨0, fs₅, _, rfl, .done ⟨fun j hj hdir => ?_, fun w' hw' => ?_⟩, ?_⟩
    · exact absurd (hfile.symm.trans hdir) Bool.false_ne_true
    · exact Option.some.inj hw' ▸ hinit
    · rw [← ht'] at h₅
      exact h₅

lemma rename_spec (h : FsInv lay root max t fs)
    (hp : ProperRename root t env x y i target whiteout) :
    Reaches lay root max t (.rename env x.1 x.2 i y.1 y.2 target whiteout)
      (f2fsRename lay fs env x.1 x.2 i y.1 y.2 target whiteout) := by
  cases whiteout with
  | none => exact rename_plain h hp
  | some w => exact rename_whiteout h hp

/-! ## Exchanges -/

lemma setParent_update (names : Names) (isDir : Bool) (i d : ℕ) {z : ℕ × List Byte}
    (hz : IsName z.2) (o : Option ℕ) :
    Function.update (names.setParent isDir i d) z o
      = Names.setParent (Function.update names z o) isDir i d := by
  unfold Names.setParent
  cases isDir with
  | false => rfl
  | true => exact Function.update_comm (hz.ne_dotdot i) ..

lemma setParent_self {isDir : Bool} {d : ℕ} (h : isDir = true → names (i, dotdot) = some d) :
    names.setParent isDir i d = names := by
  unfold Names.setParent
  cases isDir with
  | false => rfl
  | true =>
      rw [if_pos rfl, ← h rfl, Function.update_eq_self]

/-- A directory learns of its parent, if the entry has been looked up. -/
def Fs.linkParent (fs : Fs) (i d : ℕ) : Option (ℕ × ℕ) → Fs
  | some p => fs.setLink i p d
  | none => fs

lemma DirsInv.linkParent (h : DirsInv lay live names fs) (parent : Option (ℕ × ℕ)) (d : ℕ)
    (hat : ∀ p, parent = some p → i ∈ live ∧ fs.At i dotdot p) :
    (fs.linkParent i d parent).toInodes = fs.toInodes ∧
      DirsInv lay live (names.setParent parent.isSome i d) (fs.linkParent i d parent) ∧
      KeepsOthers i dotdot fs (fs.linkParent i d parent) := by
  cases parent with
  | none => exact ⟨rfl, h, fun _ _ _ _ hq => hq⟩
  | some p =>
      obtain ⟨hlive, hatp⟩ := hat p rfl
      obtain ⟨hdirs, hkeep⟩ := h.setLink hlive hatp d
      exact ⟨rfl, hdirs, hkeep⟩

variable {parent' : Option (ℕ × ℕ)} {q' : ℕ × ℕ}

/-- **Two entries change places**, and directories learn of their parents. -/
lemma DirsInv.crossLinks (h : DirsInv lay live names fs) (hxl : x.1 ∈ live) (hxn : IsName x.2)
    (hyl : y.1 ∈ live) (hyn : IsName y.2) (hne : y ≠ x) (hat : fs.At x.1 x.2 q)
    (hat' : fs.At y.1 y.2 q') (hparent : ∀ p, parent = some p → i ∈ live ∧ fs.At i dotdot p)
    (hparent' : ∀ p, parent' = some p → j ∈ live ∧ j ≠ i ∧ fs.At j dotdot p) :
    (fs.crossLinks x.1 i y.1 j q q' parent parent').toInodes = fs.toInodes ∧
      DirsInv lay live (names.cross parent.isSome parent'.isSome x y i j)
        (fs.crossLinks x.1 i y.1 j q q' parent parent') := by
  obtain ⟨hin₁, hdirs₁, hkeep₁⟩ := h.linkParent parent y.1 hparent
  obtain ⟨hin₂, hdirs₂, hkeep₂⟩ := hdirs₁.linkParent parent' (i := j) x.1 fun p hp => by
    obtain ⟨hlive, hji, hatp⟩ := hparent' p hp
    exact ⟨hlive, hkeep₁ j dotdot p (fun heq => hji (congrArg Prod.fst heq)) hatp⟩
  set fs₂ := (fs.linkParent i y.1 parent).linkParent j x.1 parent'
  have hstay : ∀ {z : ℕ × List Byte} {r : ℕ × ℕ}, IsName z.2 → fs.At z.1 z.2 r →
      fs₂.At z.1 z.2 r := fun hz hr =>
    hkeep₂ _ _ _ (hz.ne_dotdot j).symm (hkeep₁ _ _ _ (hz.ne_dotdot i).symm hr)
  obtain ⟨hdirs₃, hkeep₃⟩ := hdirs₂.setLink hxl (hstay hxn hat) j
  obtain ⟨hdirs₄, -⟩ := hdirs₃.setLink hyl (hkeep₃ _ _ _ hne (hstay hyn hat')) i
  have hlinks : fs.crossLinks x.1 i y.1 j q q' parent parent'
      = (fs₂.setLink x.1 q j).setLink y.1 q' i := by
    cases parent <;> cases parent' <;> rfl
  rw [hlinks]
  refine ⟨hin₂.trans hin₁, ?_⟩
  have hcross : Function.update (Function.update (Names.setParent (names.setParent parent.isSome i
      y.1) parent'.isSome j x.1) x (some j)) y (some i)
      = names.cross parent.isSome parent'.isSome x y i j := by
    unfold Names.cross
    rw [setParent_update _ _ _ _ hxn, setParent_update _ _ _ _ hyn, setParent_update _ _ _ _ hxn,
      setParent_update _ _ _ _ hyn]
  rw [← hcross]
  exact hdirs₄

/-- In one directory, the parents are what they were. -/
lemma cross_same {iDir jDir : Bool} (hi : iDir = true → names (i, dotdot) = some x.1)
    (hj : jDir = true → names (j, dotdot) = some y.1) (hxn : IsName x.2) (hyn : IsName y.2) :
    names.cross (x.1 != y.1 && iDir) (x.1 != y.1 && jDir) x y i j
      = names.cross iDir jDir x y i j := by
  by_cases hxy : x.1 = y.1
  · have hkeep : ∀ {k : ℕ} {kDir : Bool}, (kDir = true → names (k, dotdot) = some x.1) →
        Names.setParent (Function.update (Function.update names x (some j)) y (some i)) kDir k x.1
          = Function.update (Function.update names x (some j)) y (some i) := by
      intro k kDir hk
      refine setParent_self fun hdir => ?_
      rw [Function.update_of_ne (hyn.ne_dotdot k), Function.update_of_ne (hxn.ne_dotdot k), hk hdir]
    unfold Names.cross
    have hj' : jDir = true → names (j, dotdot) = some x.1 := fun hdir => by rw [hj hdir, hxy]
    rw [← hxy, bne_self_eq_false, Bool.false_and, Bool.false_and, hkeep hi, hkeep hj']
    rfl
  · rw [bne_iff_ne.mpr hxy, Bool.true_and, Bool.true_and]

lemma Shape.cross {iMode : ℕ → ℕ} {inodes : Finset ℕ} {iDir jDir : Bool}
    (h : Shape root iMode inodes live ∅ names) (hx : names x = some i) (hxn : IsName x.2)
    (hi : sIsDir (iMode i) = iDir) (hy : names y = some j) (hyn : IsName y.2)
    (hj : sIsDir (iMode j) = jDir) (hne : y ≠ x) (hbelow : iDir = true → ¬ names.Below root y.1 i)
    (hbelow' : jDir = true → ¬ names.Below root x.1 j) :
    Shape root iMode inodes live ∅ (names.cross iDir jDir x y i j) := by
  cases iDir with
  | false =>
      cases jDir with
      | false => exact h.crossFiles hx hxn hi hy hyn hj hne
      | true =>
          have hcross := h.crossDirFile hy hyn hj hx hxn hi hne.symm (hbelow' rfl)
          have hsame : names.cross true false y x j i = names.cross false true x y i j := by
            unfold Names.cross Names.setParent
            rw [Function.update_comm hne]
            rfl
          rwa [hsame] at hcross
  | true =>
      cases jDir with
      | false => exact h.crossDirFile hx hxn hi hy hyn hj hne (hbelow rfl)
      | true => exact h.crossDirs hx hxn hi hy hyn hj hne (hbelow rfl) (hbelow' rfl)

/-- **The tree and the counts are right again** after an exchange. -/
lemma FsInv.cross {oldInc newInc : Bool} (h : FsInv lay root max t fs) (hx : t.names x = some i)
    (hxn : IsName x.2) (hy : t.names y = some j) (hyn : IsName y.2) (hne : y ≠ x)
    (hbelow : t.isDir i = true → ¬ t.names.Below root y.1 i)
    (hbelow' : t.isDir j = true → ¬ t.names.Below root x.1 j)
    (hold : oldInc = (!(x.1 != y.1 && t.isDir i) && (x.1 != y.1 && t.isDir j)))
    (hnew : newInc = (!(x.1 != y.1 && t.isDir j) && (x.1 != y.1 && t.isDir i)))
    (hin : fs'.toInodes = if oldInc ∨ newInc then
      (fs.f2fsILinksWrite x.1 oldInc).f2fsILinksWrite y.1 newInc else fs.toInodes)
    (hdirs : DirsInv lay t.names.live (t.names.cross (t.isDir i) (t.isDir j) x y i j) fs') :
    FsInv lay root max { t with names := t.names.cross (t.isDir i) (t.isDir j) x y i j } fs' := by
  have hi := h.isDir_of_name hx
  have hj := h.isDir_of_name hy
  have hs := h.shape.cross hx hxn hi.symm hy hyn hj.symm hne hbelow hbelow'
  refine FsInv.intro _ hin ?_ ?_ ?_ hdirs ?_
    (h.counts.cross h.shape hs hi.symm hj.symm hx hxn hy hyn hne hold hnew)
  · split_ifs <;> exact h.maxOrphans
  · split_ifs <;> exact h.inodes
  · split_ifs <;> exact h.iMode
  · split_ifs <;> exact hs

lemma crossRename_spec (h : FsInv lay root max t fs) (hx : t.names x = some i) (hxn : IsName x.2)
    (hy : t.names y = some j) (hyn : IsName y.2) (hne : y ≠ x)
    (hbelow : t.isDir i = true → ¬ t.names.Below root y.1 i)
    (hbelow' : t.isDir j = true → ¬ t.names.Below root x.1 j) :
    Reaches lay root max t (.crossRename x.1 x.2 i y.1 y.2 j)
      (f2fsCrossRename lay fs x.1 x.2 i y.1 y.2 j) := by
  have hi := h.isDir_of_name hx
  have hj := h.isDir_of_name hy
  have hxl := h.shape.live_of_some hx
  have hyl := h.shape.live_of_some hy
  unfold f2fsCrossRename
  -- the four lookups
  obtain ⟨q, fs₁, hfound₁, hsame₁, h₁, hat₁⟩ := h.found x.1 x.2 hx 0 _
  rw [hfound₁]
  obtain ⟨q', fs₂, hfound₂, hsame₂, h₂, hat₂⟩ := h₁.found y.1 y.2 hy 0 _
  rw [hfound₂]
  have hmode₂ : fs₂.toInodes = fs.toInodes := hsame₂.inodes.trans hsame₁.inodes
  obtain ⟨parent, fs₃, hfound₃, hsame₃, hdirs₃, hsome, hat₃⟩ := withParent_found (d := i) h₂.dirs
    (x.1 != y.1 && sIsDir (fs₂.iMode i))
    (fun hw => ⟨(h₂.shape.target x i hx).2 (Bool.and_eq_true_iff.mp hw).2, x.1,
      h₂.shape.parent_eq hx hxn (Bool.and_eq_true_iff.mp hw).2⟩) _
  rw [hfound₃]
  have h₃ := h₂.same hsame₃.inodes hdirs₃
  obtain ⟨parent', fs₄, hfound₄, hsame₄, hdirs₄, hsome', hat₄⟩ := withParent_found (d := j) h₃.dirs
    (x.1 != y.1 && sIsDir (fs₃.iMode j))
    (fun hw => ⟨(h₃.shape.target y j hy).2 (Bool.and_eq_true_iff.mp hw).2, y.1,
      h₃.shape.parent_eq hy hyn (Bool.and_eq_true_iff.mp hw).2⟩) _
  rw [hfound₄]
  have h₄ := h₃.same hsame₄.inodes hdirs₄
  rw [← h₂.isDir_of_name hx] at hsome
  rw [← h₃.isDir_of_name hy] at hsome'
  dsimp only
  rw [← Option.not_isSome, ← Option.not_isSome, hsome, hsome']
  obtain ⟨oldInc, hold⟩ : ∃ b, (!(x.1 != y.1 && t.isDir i) && (x.1 != y.1 && t.isDir j)) = b :=
    ⟨_, rfl⟩
  obtain ⟨newInc, hnew⟩ : ∃ b, (!(x.1 != y.1 && t.isDir j) && (x.1 != y.1 && t.isDir i)) = b :=
    ⟨_, rfl⟩
  rw [hold, hnew]
  by_cases hmax : oldInc = true ∧ 2 ^ 32 - 1 ≤ fs₄.iNlink x.1 ∨
      newInc = true ∧ 2 ^ 32 - 1 ≤ fs₄.iNlink y.1
  · rw [if_pos hmax]
    refine ⟨emlink, fs₄, t, rfl, .failed ⟨rfl, ?_⟩, h₄⟩
    have hcount : ∀ d ∈ t.names.live, fs₄.iNlink d = count t.names d := fun d hd =>
      h₄.counts.links d (h₄.shape.live_mem d hd).1
    rw [hcount _ hxl, hcount _ hyl] at hmax
    rcases hmax with ⟨rfl, hle⟩ | ⟨rfl, hle⟩
    · simp only [Bool.and_eq_true, bne_iff_ne] at hold
      have hfile : t.isDir i = false := by simpa [hold.2.1] using hold.1
      refine ⟨hold.2.1, by simp [hfile, hold.2.2], ?_⟩
      rw [hfile, if_neg Bool.false_ne_true]
      exact hle
    · simp only [Bool.and_eq_true, bne_iff_ne] at hnew
      have hfile : t.isDir j = false := by simpa [hnew.2.1] using hnew.1
      refine ⟨hnew.2.1, by simp [hfile, hnew.2.2], ?_⟩
      rw [hnew.2.2, if_pos rfl]
      exact hle
  rw [if_neg hmax]
  have hdir : ∀ p, parent = some p → t.isDir i = true := by
    rintro p rfl
    exact (Bool.and_eq_true_iff.mp hsome.symm).2
  have hdir' : ∀ p, parent' = some p → t.isDir j = true := by
    rintro p rfl
    exact (Bool.and_eq_true_iff.mp hsome'.symm).2
  have hij : t.isDir j = true → j ≠ i := by
    rintro hd rfl
    exact hne (h.shape.single y x j (hj.symm.trans hd) hyn hxn hy hx)
  -- the entries are still in their places
  obtain ⟨hin, hdirs⟩ := h₄.dirs.crossLinks (i := i) (j := j) hxl hxn hyl hyn hne
    (hsame₄.at (hsame₃.at (hsame₂.at hat₁))) (hsame₄.at (hsame₃.at hat₂))
    (fun p hp => ⟨(h.shape.target x i hx).2 (hi.symm.trans (hdir p hp)), hsame₄.at (hat₃ p hp)⟩)
    fun p hp => ⟨(h.shape.target y j hy).2 (hj.symm.trans (hdir' p hp)), hij (hdir' p hp), hat₄ p hp⟩
  rw [hsome, hsome', cross_same
    (fun hd => h.shape.parent_eq hx hxn (hi.symm.trans hd))
    (fun hd => h.shape.parent_eq hy hyn (hj.symm.trans hd)) hxn hyn] at hdirs
  by_cases hinc : oldInc = true ∨ newInc = true
  · rw [if_pos hinc]
    refine ⟨0, _, _, rfl, .done trivial, h₄.cross hx hxn hy hyn hne hbelow hbelow' hold.symm
      hnew.symm ?_ (hdirs.congr_inodes (fun _ _ => rfl) fun _ _ _ => rfl)⟩
    rw [if_pos hinc, ← hin]
  · rw [if_neg hinc]
    refine ⟨0, _, _, rfl, .done trivial, h₄.cross hx hxn hy hyn hne hbelow hbelow' hold.symm
      hnew.symm ?_ hdirs⟩
    rw [if_neg hinc, hin]

end Hoit.Namei
