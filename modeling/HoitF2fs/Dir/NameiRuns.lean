import HoitF2fs.Dir.Renames
import HoitF2fs.Lib.Answers

/-!
# The names of a file system, in every run

* `fsStep_spec` — one call, whichever it is.
* `names_in_every_run` — **in every run of calls the names are those that the calls are for**, the
  directories are a tree, each link count is the number of entries that lead to the inode, and the
  orphans are the inodes without one.
-/

namespace Hoit.Namei

open Dir NodePath ByteStore RefCount

variable {lay : AddrLayout} {root max : ℕ} {t : Tree} {fs : Fs}

lemma fsStep_spec (h : FsInv lay root max t fs) (c : Call) (hp : ProperCall root t c) :
    Reaches lay root max t c (fsStep lay fs c) := by
  cases c with
  | create a dir name ino mode => exact create_spec h hp
  | mkdir a dir name ino mode => exact mkdir_spec h hp
  | symlink a dir name ino mode dataErr env => exact symlink_spec h hp dataErr env
  | link a inode dir name => exact link_spec h hp.1 hp.2.1 hp.2.2.1 hp.2.2.2
  | unlink env dir name inode => exact unlink_spec h hp.1 hp.2.1 hp.2.2 env
  | rmdir env dir name inode => exact rmdir_spec h hp.1 hp.2.1 hp.2.2 env
  | tmpfile ino mode initErr => exact tmpfile_spec h hp.1 initErr
  | rename env oldDir oldName oldInode newDir newName newInode whiteout => exact rename_spec h hp
  | crossRename oldDir oldName oldInode newDir newName newInode =>
      obtain ⟨hxn, hx, hyn, hy, hne, hbelow, hbelow'⟩ := hp
      exact crossRename_spec (x := (oldDir, oldName)) (y := (newDir, newName)) h hx hxn hy hyn hne
        hbelow hbelow'
  | evict ino => exact evict_spec h hp

/-! ## A new file system -/

/-- A file system with nothing but its root. -/
def rootFs (root maxOrphans : ℕ) : Fs where
  iMode := fun _ => 0x41ED
  iNlink := fun _ => 2
  inodes := {root}
  orphans := ∅
  inoNum := 0
  maxOrphans := maxOrphans
  dir := fun _ => makeEmptyDir false 40 0 root root 0x41ED 0x41ED

def rootTree (root : ℕ) : Tree where
  names := Function.update (Function.update (fun _ => none) (root, dot) (some root)) (root, dotdot)
    (some root)
  iMode := fun _ => 0x41ED
  inodes := {root}

lemma rootTree_names {x : ℕ × List Byte} {i : ℕ} (h : (rootTree root).names x = some i) :
    i = root ∧ x.1 = root ∧ (x.2 = dot ∨ x.2 = dotdot) := by
  have h' : Function.update (Function.update (fun _ => none) (root, dot) (some root)) (root, dotdot)
    (some root) x = some i := h
  by_cases h1 : x = (root, dotdot)
  · rw [h1, Function.update_self] at h'
    exact ⟨(Option.some.inj h').symm, by rw [h1], Or.inr (by rw [h1])⟩
  rw [Function.update_of_ne h1] at h'
  by_cases h2 : x = (root, dot)
  · rw [h2, Function.update_self] at h'
    exact ⟨(Option.some.inj h').symm, by rw [h2], Or.inl (by rw [h2])⟩
  · rw [Function.update_of_ne h2] at h'
    exact absurd h'.symm (Option.some_ne_none i)

lemma rootTree_dot (root : ℕ) : (rootTree root).names (root, dot) = some root := by
  refine (Function.update_of_ne ?_ ..).trans (Function.update_self ..)
  exact fun heq => dot_ne_dotdot (congrArg Prod.snd heq)

lemma rootTree_dotdot (root : ℕ) : (rootTree root).names (root, dotdot) = some root :=
  Function.update_self ..

lemma rootFs_inv (lay : AddrLayout) (root max : ℕ) :
    FsInv lay root max (rootTree root) (rootFs root max) := by
  have hshape : Shape root (rootFs root max).iMode {root} {root} ∅ (rootTree root).names := by
    refine ⟨?_, fun d hd => ⟨?_, show sIsDir 0x41ED = true by decide⟩, fun d name hd => ?_,
      fun x i hx => ?_, fun d hd => ?_, ⟨rfl, rootTree_dotdot root⟩,
      fun c hc hne => absurd hc hne, fun c hc => hc.elim, fun x y i _ hx _ hxi _ => ?_,
      fun x hx hxr => ?_, fun c hc => ⟨root, Or.inl rfl, ?_⟩⟩
    · refine Finite.update (Finite.update ?_ _ _) _ _
      exact Set.finite_empty.subset fun x hx => hx rfl
    · rw [hd]
      exact Finset.mem_singleton_self root
    · cases hx : (rootTree root).names (d, name) with
      | none => rfl
      | some i => exact absurd (rootTree_names hx).2.1 hd
    · obtain ⟨rfl, -⟩ := rootTree_names hx
      exact ⟨Finset.mem_singleton_self i, fun _ => rfl⟩
    · rw [hd]
      exact rootTree_dot root
    · exact ((rootTree_names hxi).2.2.elim (fun h => hx.1 h) fun h => hx.2 h).elim
    · exact (rootTree_names hxr).2.2.elim (fun h => hx.1 h) fun h => hx.2 h
    · rw [hc]
      exact .refl
  have hnone : Finite (fun _ : ℕ × List Byte => (none : Option ℕ)) :=
    Set.finite_empty.subset fun x hx => hx rfl
  have hcount : count (rootTree root).names root = 2 := by
    have hdot := count_set hnone (x := (root, dot)) rfl (some root) root
    have hdd := count_set (hnone.update (root, dot) (some root)) (x := (root, dotdot)) (o := none)
      (Function.update_of_ne (fun heq => dot_ne_dotdot (congrArg Prod.snd heq).symm) ..)
      (some root) root
    rw [count_eq_zero fun _ h0 => Option.some_ne_none _ h0.symm, ind_none, ind_self] at hdot
    rw [ind_none, ind_self, Nat.add_zero] at hdd
    rw [Nat.add_zero, Nat.zero_add] at hdot
    exact hdd.trans (congrArg (· + 1) hdot)
  refine FsInv.intro {root} rfl rfl rfl (fun _ _ => rfl) ?_ hshape ?_
  · have hmap : dirMap (rootFs root max).iMode (rootTree root).names root
        = emptyDirMap root root 0x41ED 0x41ED :=
      (dirMap_update_self ..).trans (congrArg (Function.update · dotdot _) (dirMap_update_self ..))
    refine ⟨fun d _ => makeEmptyDir_inv false (by decide) (by decide), fun d hd => ?_,
      fun d _ => makeEmptyDir_hasDots false (by decide)⟩
    obtain rfl := Set.mem_singleton_iff.mp hd
    rw [hmap]
    exact makeEmptyDir_isMap false (by decide)
  · refine ⟨fun i hi => ?_, fun i => ?_, rfl⟩
    · obtain rfl := Finset.mem_singleton.mp hi
      exact hcount.symm
    · refine ⟨fun hi => absurd hi (Finset.notMem_empty i), fun hi => ?_⟩
      obtain rfl := Finset.mem_singleton.mp hi.1
      rw [hcount] at hi
      exact absurd hi.2 (by decide)

/-! ## Runs -/

/-- Nothing fails. -/
def calmAdd : AddEnv where
  sameTask := false
  env := calmEnv
  dst := emptyDentryBlock
  new := ⟨true, 3488, 0, by decide⟩

/-- A call that fails says so. -/
lemma MayFail.ne_zero {c : Call} {e : ℤ} (h : MayFail max t c e) : e ≠ 0 := by
  have hfull : ∀ {t : Tree}, e = enospc ∧ t.Full max → e ≠ 0 := by
    rintro t ⟨rfl, -⟩
    decide
  have herr : ∀ {o : Option Err}, (∃ x, o = some x ∧ e = x.1) → e ≠ 0 := by
    rintro o ⟨x, -, rfl⟩
    exact x.2.1.ne
  cases c with
  | create a dir name ino mode => exact AddErr.ne_zero h
  | mkdir a dir name ino mode => exact AddErr.ne_zero h
  | symlink a dir name ino mode dataErr env => exact AddErr.ne_zero h
  | link a inode dir name => exact AddErr.ne_zero h
  | unlink env dir name inode => exact hfull h
  | rmdir env dir name inode =>
      rcases h with ⟨rfl, -⟩ | h
      · decide
      · exact hfull h
  | tmpfile ino mode initErr => exact h.elim hfull herr
  | rename env oldDir oldName oldInode newDir newName newInode whiteout =>
      rcases h with ⟨w, -, h⟩ | h
      · exact h.elim hfull herr
      · cases newInode with
        | none => exact AddErr.ne_zero h
        | some j =>
            rcases h with ⟨rfl, -⟩ | h
            · decide
            · exact hfull h
  | crossRename oldDir oldName oldInode newDir newName newInode =>
      rw [h.1]
      decide
  | evict ino => exact h.elim

/-- A call that returns 0 has done what it is for. -/
lemma NameStep.after_of_zero {c : Call} {t' : Tree} (h : NameStep max t c 0 t')
    (hc : ∀ ino, c ≠ .evict ino) : t' = t.after c := by
  generalize he : (0 : ℤ) = e at h
  cases h with
  | done _ => rfl
  | failed hfail => exact absurd he.symm hfail.ne_zero
  | @symlinkGone _ _ _ _ _ _ err _ => exact absurd he.symm err.2.1.ne
  | @symlinkKept _ _ _ _ _ _ err _ _ => exact absurd he.symm err.2.1.ne
  | whiteoutGone _ hgives => exact absurd he.symm hgives.neg.1.ne
  | evicted _ => exact absurd rfl (hc _)

/-- A directory gets a file, which gets a second name, moves out of it and loses both names. -/
def sampleCalls : List Call :=
  [.mkdir calmAdd 3 [0x61] 4 0x41ED, .create calmAdd 4 [0x62] 5 0x81A4,
    .link calmAdd 5 3 [0x63],
    .rename ⟨calmAdd, calmAdd, calmEnv⟩ 4 [0x62] 5 3 [0x64] none none,
    .unlink calmEnv 3 [0x63] 5, .unlink calmEnv 3 [0x64] 5, .tmpfile 6 0x8180 none]

/-- A name of one letter is new. -/
lemma newName_calm (names : Names) (d : ℕ) (b : Byte) (hdot : b ≠ 0x2E) :
    NewName names calmAdd d [b] where
  isName := ⟨fun h => hdot (List.cons.inj h).1, fun h => by simp [dotdot] at h⟩
  ne := List.cons_ne_nil _ _
  short := by
    show 1 ≤ 255
    decide
  free := fun h => absurd h Bool.false_ne_true

lemma sampleCalls_proper :
    Answers.ProperAlong (NameStep max) (ProperCall 3) (rootTree 3) sampleCalls
      (List.replicate 7 0) := by
  refine ⟨⟨show _ ≠ none by decide, newName_calm _ _ _ (by decide), by decide, by decide⟩,
    fun t₁ h₁ => ?_⟩
  obtain rfl := h₁.after_of_zero (by simp)
  refine ⟨⟨show _ ≠ none by decide, newName_calm _ _ _ (by decide), by decide, by decide⟩,
    fun t₂ h₂ => ?_⟩
  obtain rfl := h₂.after_of_zero (by simp)
  refine ⟨⟨show _ ≠ none by decide, newName_calm _ _ _ (by decide), by decide, by decide⟩,
    fun t₃ h₃ => ?_⟩
  obtain rfl := h₃.after_of_zero (by simp)
  refine ⟨?_, fun t₄ h₄ => ?_⟩
  · exact
      { old := by decide
        oldName := ⟨by decide, by decide⟩
        new := by decide
        newName := ⟨by decide, by decide⟩
        live := show _ ≠ none by decide
        ne := by decide
        add := fun _ => newName_calm _ _ _ (by decide)
        same := fun j h => absurd h (by simp)
        below := fun h => absurd h (by decide)
        noWhiteout := fun _ => rfl
        fresh := fun w h => absurd h (by simp)
        whiteoutName := fun w h => absurd h (by simp) }
  obtain rfl := h₄.after_of_zero (by simp)
  refine ⟨⟨⟨by decide, by decide⟩, by decide, by decide⟩, fun t₅ h₅ => ?_⟩
  obtain rfl := h₅.after_of_zero (by simp)
  refine ⟨⟨⟨by decide, by decide⟩, by decide, by decide⟩, fun t₆ h₆ => ?_⟩
  obtain rfl := h₆.after_of_zero (by simp)
  exact ⟨⟨by decide, by decide⟩, fun _ _ => trivial⟩

/-- **The names, in every run.**  The calls are proper along the answers that they get.  Each
returns, does what it is for or fails for a reason, and the link counts and the orphans are what the
names say. -/
theorem names_in_every_run (h : FsInv lay root max t fs) {calls : List Call}
    (hproper : Answers.ProperAlong (NameStep max) (ProperCall root) t calls
      (Answers.answers (fsStep lay) fs calls)) :
    ∃ answers fs' t', Answers.run (fsStep lay) fs calls = some (answers, fs') ∧
      Answers.Permits (NameStep max) t calls answers t' ∧ FsInv lay root max t' fs' := by
  refine Answers.run_refines_along (R := fun fs t => FsInv lay root max t fs)
    (fun fs t c h hc => ?_) h hproper
  obtain ⟨e, fs', t', hstep, hname, h'⟩ := fsStep_spec h c hc
  exact ⟨e, fs', t', hstep, hname, h'⟩

theorem names_in_every_run_root :
    ((Answers.run (fsStep plainLayout) (rootFs 3 16) sampleCalls).map fun x =>
      (x.1, x.2.iNlink 3, x.2.iNlink 4, x.2.iNlink 5, x.2.orphans))
        = some (List.replicate 7 0, 3, 2, 0, {5, 6}) ∧
    ∃ answers fs' t', Answers.run (fsStep plainLayout) (rootFs 3 16) sampleCalls
        = some (answers, fs') ∧
      Answers.Permits (NameStep 16) (rootTree 3) sampleCalls answers t' ∧
      FsInv plainLayout 3 16 t' fs' := by
  have hanswers : Answers.answers (fsStep plainLayout) (rootFs 3 16) sampleCalls
      = List.replicate 7 0 := by decide +kernel
  refine ⟨by decide +kernel, names_in_every_run (rootFs_inv plainLayout 3 16) ?_⟩
  rw [hanswers]
  exact sampleCalls_proper

end Hoit.Namei
