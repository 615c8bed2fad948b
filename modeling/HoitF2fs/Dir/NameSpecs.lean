import HoitF2fs.Dir.NameModel

/-!
# The calls, one by one

* `FsInv` — the directories stand for the tree of names, which is a tree, and **each link count is the
  number of entries that lead to the inode**; the orphans are the inodes without one.
* `create_spec`, `mkdir_spec`, `link_spec`, `symlink_spec`, `unlink_spec`, `rmdir_spec`,
  `tmpfile_spec`, `evict_spec` — a call does what it is for, or fails and leaves the names, and the
  invariant holds again.
-/

namespace Hoit.Namei

open Dir NodePath ByteStore RefCount

structure FsInv (lay : AddrLayout) (root max : ℕ) (t : Tree) (fs : Fs) : Prop where
  maxOrphans : fs.maxOrphans = max
  inodes : fs.inodes = t.inodes
  iMode : ∀ i ∈ t.inodes, fs.iMode i = t.iMode i
  dirs : DirsInv lay t.names.live t.names fs
  shape : Shape root fs.iMode fs.inodes t.names.live ∅ t.names
  counts : Counts fs.toInodes t.names

variable {lay : AddrLayout} {root max : ℕ} {t : Tree} {fs fs' : Fs} {d i j ino mode inode : ℕ}
  {name : List Byte} {x y p : ℕ × List Byte} {live : Set ℕ}

/-- A call comes to a state as it should. -/
def Reaches (lay : AddrLayout) (root max : ℕ) (t : Tree) (c : Call) (o : Outcome) : Prop :=
  ∃ e fs' t', o = some (e, fs') ∧ NameStep max t c e t' ∧ FsInv lay root max t' fs'

namespace FsInv

/-- The directories that are there have names. -/
lemma intro {u : Inodes} (live : Set ℕ) (hin : fs.toInodes = u) (hmax : u.maxOrphans = max)
    (hinodes : u.inodes = t.inodes) (hmode : ∀ i ∈ t.inodes, u.iMode i = t.iMode i)
    (hdirs : DirsInv lay live t.names fs) (hshape : Shape root u.iMode u.inodes live ∅ t.names)
    (hcounts : Counts u t.names) : FsInv lay root max t fs := by
  obtain rfl := hin
  obtain rfl := hshape.live_eq
  exact ⟨hmax, hinodes, hmode, hdirs, hshape, hcounts⟩

lemma isDir_eq (h : FsInv lay root max t fs) (hi : i ∈ t.inodes) :
    t.isDir i = sIsDir (fs.iMode i) :=
  congrArg sIsDir (h.iMode i hi).symm

lemma mem_of_name (h : FsInv lay root max t fs) (hx : t.names x = some i) : i ∈ t.inodes :=
  h.inodes ▸ (h.shape.target x i hx).1

lemma isDir_of_name (h : FsInv lay root max t fs) (hx : t.names x = some i) :
    t.isDir i = sIsDir (fs.iMode i) :=
  h.isDir_eq (h.mem_of_name hx)

lemma same (h : FsInv lay root max t fs) (hin : fs'.toInodes = fs.toInodes)
    (hdirs : DirsInv lay t.names.live t.names fs') : FsInv lay root max t fs' :=
  intro _ hin h.maxOrphans h.inodes h.iMode hdirs h.shape h.counts

/-- The same tree, but for inodes that are not there. -/
lemma congr_tree {t' : Tree} (h : FsInv lay root max t fs) (hnames : t'.names = t.names)
    (hinodes : t'.inodes = t.inodes) (hmode : ∀ i ∈ t.inodes, t'.iMode i = t.iMode i) :
    FsInv lay root max t' fs := by
  refine ⟨h.maxOrphans, h.inodes.trans hinodes.symm, fun i hi => ?_, ?_, ?_, ?_⟩
  · rw [hinodes] at hi
    rw [hmode i hi]
    exact h.iMode i hi
  · rw [hnames]
    exact h.dirs
  · rw [hnames]
    exact h.shape
  · rw [hnames]
    exact h.counts

/-- `f2fs_acquire_orphan_inode` fails if there are as many inodes without a name as there may be. -/
lemma full_iff (h : FsInv lay root max t fs) : fs.maxOrphans ≤ fs.inoNum ↔ t.Full max := by
  have hset : {i | i ∈ t.inodes ∧ ∀ x, t.names x ≠ some i} = (fs.orphans : Set ℕ) := by
    ext i
    rw [Finset.mem_coe, h.counts.orphan, h.inodes, count_eq_zero_iff h.shape.finite]
    rfl
  unfold Tree.Full
  rw [hset, Set.ncard_coe_finset, ← h.counts.inoNum, h.maxOrphans]

lemma acquire (h : FsInv lay root max t fs) :
    (t.Full max ∧ fs.f2fsAcquireOrphanInode = (enospc, fs.toInodes)) ∨
      fs.f2fsAcquireOrphanInode = (0, fs.acquired) := by
  unfold Inodes.f2fsAcquireOrphanInode
  by_cases hfull : fs.maxOrphans ≤ fs.inoNum
  · rw [if_pos hfull]
    exact Or.inl ⟨h.full_iff.mp hfull, rfl⟩
  · rw [if_neg hfull]
    exact Or.inr rfl

/-- A name that is there is found. -/
lemma found (h : FsInv lay root max t fs) (d : ℕ) (name : List Byte)
    (hx : t.names (d, name) = some i) (absent : ℤ)
    (f : ℕ × ℕ → Fs → Outcome) :
    ∃ p fs', fs.withEntry lay d name absent f = f p fs' ∧ SameDirs fs fs' ∧
      FsInv lay root max t fs' ∧ fs'.At d name p := by
  obtain ⟨p, fs', hfound, hsame, hdirs, hat⟩ :=
    withEntry_found h.dirs d name (h.shape.live_of_some hx) hx absent f
  exact ⟨p, fs', hfound, hsame, h.same hsame.inodes hdirs, hat⟩

/-- The directories do not see a new inode. -/
lemma dirs_newInode (h : FsInv lay root max t fs) (hino : ino ∉ t.inodes) (mode : ℕ) :
    DirsInv lay t.names.live t.names { fs with toInodes := fs.f2fsNewInode ino mode } := by
  refine h.dirs.congr_inodes (fun _ _ => rfl) fun x i hx => ?_
  exact Function.update_of_ne (ne_of_mem_of_not_mem (h.mem_of_name hx) hino) ..

lemma newInode_iMode (h : FsInv lay root max t fs) (ino mode : ℕ) :
    ∀ i ∈ (t.newInode ino mode).inodes,
      (fs.f2fsNewInode ino mode).iMode i = (t.newInode ino mode).iMode i := by
  intro i hi
  show Function.update fs.iMode ino mode i = Function.update t.iMode ino mode i
  by_cases hne : i = ino
  · rw [hne, Function.update_self, Function.update_self]
  · rw [Function.update_of_ne hne, Function.update_of_ne hne]
    exact h.iMode i (Finset.mem_of_mem_insert_of_ne hi hne)

/-- The inode of a call that fails goes again. -/
lemma createFailed (h : FsInv lay root max t fs) (hino : ino ∉ t.inodes)
    (hin : fs'.toInodes = fs.f2fsNewInode ino mode)
    (hdirs : DirsInv lay t.names.live t.names fs') :
    FsInv lay root max t { fs' with toInodes := fs'.f2fsHandleFailedInode ino } := by
  have hmode : ∀ i ∈ t.inodes, (fs.f2fsNewInode ino mode).iMode i = fs.iMode i := fun i hi =>
    Function.update_of_ne (ne_of_mem_of_not_mem hi hino) ..
  have hinodes : ((fs.f2fsNewInode ino mode).f2fsHandleFailedInode ino).inodes = t.inodes :=
    (Finset.erase_insert (h.inodes ▸ hino)).trans h.inodes
  refine intro _ (u := (fs.f2fsNewInode ino mode).f2fsHandleFailedInode ino) (by rw [← hin])
    h.maxOrphans hinodes (fun i hi => (hmode i hi).trans (h.iMode i hi))
    (hdirs.congr_inodes (fun _ _ => rfl) fun _ _ _ => rfl) ?_
    (h.counts.createFailed (h.inodes ▸ hino))
  refine h.shape.congr_inodes fun x i hx => ?_
  have hi := h.mem_of_name hx
  exact ⟨hinodes ▸ hi, hmode i hi⟩

end FsInv

/-! ## New entries -/

/-- A link to what is not a new directory changes only its own count. -/
lemma link_file (fs : Fs) (a : AddEnv) (d : ℕ) {isNew incLink : Bool}
    (hfile : isNew = true → sIsDir (fs.iMode inode) = false) :
    ({ fs.f2fsInitInodeMetadata a d inode isNew incLink with
      toInodes := (fs.f2fsInitInodeMetadata a d inode isNew incLink).f2fsUpdateParentMetadata
        d inode isNew } : Fs) = { fs with toInodes := fs.initLink inode incLink } := by
  have hno : ¬ (isNew = true ∧ sIsDir (fs.iMode inode) = true) := fun ⟨hnew, hdir⟩ => by
    rw [hfile hnew] at hdir
    exact Bool.false_ne_true hdir
  have hinit : fs.f2fsInitInodeMetadata a d inode isNew incLink
      = { fs with toInodes := fs.initLink inode incLink } := by
    unfold Fs.f2fsInitInodeMetadata
    rw [if_neg hno]
  rw [hinit]
  unfold Inodes.f2fsUpdateParentMetadata
  rw [Inodes.initLink_iMode, if_neg hno]

/-- A new file with its name, or none of it. -/
lemma create_file (h : FsInv lay root max t fs) {a : AddEnv}
    (hnew : NewEntry t a d name ino mode false) :
    ∃ e fs', f2fsCreate lay fs a d name ino mode false = some (e, fs') ∧
      ((AddErr t.names a d name e ∧ FsInv lay root max t fs') ∨
        (e = 0 ∧ t.names (d, name) = none ∧
          FsInv lay root max ((t.newInode ino mode).set (d, name) (some ino)) fs')) := by
  obtain ⟨hlive, hname, hino, hmode⟩ := hnew
  have hino' : ino ∉ fs.inodes := h.inodes ▸ hino
  obtain ⟨e, fs', hlinked, hadd⟩ := addLink_spec (h.dirs_newInode hino mode) hlive hname ino true
    false
  have hin : fs'.toInodes = fs.f2fsNewInode ino mode := hlinked.inodes
  have hcreate : f2fsCreate lay fs a d name ino mode false
      = some (if e = 0 then (e, fs') else
        (e, { fs' with toInodes := fs'.f2fsHandleFailedInode ino })) := by
    have hfile : sIsDir (fs'.iMode ino) = false := by
      rw [hin]
      exact (congrArg sIsDir (Function.update_self ..)).trans hmode
    unfold f2fsCreate
    dsimp only
    rw [hadd, Option.map_some, link_file fs' a d fun _ => hfile]
    by_cases he : e = 0
    · simp [he, Inodes.initLink]
    · simp [he]
  rw [hcreate]
  by_cases he : e = 0
  swap
  · obtain ⟨herr, hdirs⟩ := hlinked.failed he
    rw [if_neg he]
    exact ⟨_, _, rfl, Or.inl ⟨herr, h.createFailed hino hin hdirs⟩⟩
  · obtain ⟨hfree, hdirs⟩ := hlinked.added he
    rw [if_pos he]
    exact ⟨_, _, rfl, Or.inr ⟨he, hfree, FsInv.intro _ hin h.maxOrphans
      (congrArg (insert ino) h.inodes) (h.newInode_iMode ino mode) hdirs
      (h.shape.create hlive hname.isName hfree hino' hmode) (h.counts.create h.shape hfree hino')⟩⟩

/-- What a new directory changes. -/
lemma link_newDir (fs : Fs) (a : AddEnv) (d : ℕ) {incLink : Bool}
    (hdir : sIsDir (fs.iMode inode) = true) :
    ({ fs.f2fsInitInodeMetadata a d inode true incLink with
      toInodes := (fs.f2fsInitInodeMetadata a d inode true incLink).f2fsUpdateParentMetadata
        d inode true } : Fs) =
      { fs.setDir inode (makeEmptyDir a.new.hasInlineDentry a.new.maxInlineData a.new.iDirLevel inode
          d (fs.iMode inode) (fs.iMode d)) with
        toInodes := (fs.initLink inode incLink).f2fsILinksWrite d true } := by
  have hinit : fs.f2fsInitInodeMetadata a d inode true incLink
      = { fs.setDir inode (makeEmptyDir a.new.hasInlineDentry a.new.maxInlineData a.new.iDirLevel
            inode d (fs.iMode inode) (fs.iMode d)) with
          toInodes := fs.initLink inode incLink } := by
    unfold Fs.f2fsInitInodeMetadata
    rw [if_pos ⟨rfl, hdir⟩]
    rfl
  rw [hinit]
  unfold Inodes.f2fsUpdateParentMetadata
  rw [Inodes.initLink_iMode, if_pos ⟨rfl, hdir⟩]

/-- The new directory has its first names. -/
lemma DirsInv.newDir {names : Names} (h : DirsInv lay live (Function.update names (d, name) (some i)) fs)
    (hdead : ∀ n, names (i, n) = none) (hd : d ≠ i) (a : AddEnv) :
    DirsInv lay (insert i live) (names.mkdir d name i)
      (fs.setDir i (makeEmptyDir a.new.hasInlineDentry a.new.maxInlineData a.new.iDirLevel i d
        (fs.iMode i) (fs.iMode d))) := by
  have hold : ∀ c ≠ i, dirMap fs.iMode (names.mkdir d name i) c
      = dirMap fs.iMode (Function.update names (d, name) (some i)) c := by
    intro c hc
    funext n
    unfold dirMap Names.mkdir
    rw [Function.update_of_ne fun heq => hc (congrArg Prod.fst heq)]
    by_cases hx : (c, n) = (d, name)
    · rw [hx, Function.update_self, Function.update_self]
    · rw [Function.update_of_ne hx, Function.update_of_ne hx,
        Function.update_of_ne fun heq => hc (congrArg Prod.fst heq)]
  have hnew : dirMap fs.iMode (names.mkdir d name i) i
      = emptyDirMap i d (fs.iMode i) (fs.iMode d) := by
    have hne : ∀ n, (i, n) ≠ (d, name) := fun n heq => hd (congrArg Prod.fst heq).symm
    funext n
    unfold dirMap Names.mkdir emptyDirMap
    by_cases h1 : n = dotdot
    · rw [h1, Function.update_self, Function.update_self]
      rfl
    by_cases h2 : n = dot
    · rw [h2, Function.update_of_ne fun heq => dot_ne_dotdot (congrArg Prod.snd heq),
        Function.update_of_ne (hne dot), Function.update_self,
        Function.update_of_ne dot_ne_dotdot, Function.update_self]
      rfl
    · rw [Function.update_of_ne fun heq => h1 (congrArg Prod.snd heq), Function.update_of_ne (hne n),
        Function.update_of_ne fun heq => h2 (congrArg Prod.snd heq), hdead,
        Function.update_of_ne h1, Function.update_of_ne h2]
      rfl
  refine ⟨fun c hc => ?_, fun c hc => ?_, fun c hc => ?_⟩
  · by_cases hci : c = i
    · rw [hci, setDir_self]
      exact makeEmptyDir_inv _ a.new.fits.1 a.new.fits.2
    · rw [setDir_of_ne fs _ hci]
      exact h.inv c (hc.resolve_left hci)
  · by_cases hci : c = i
    · rw [hci, setDir_self, setDir_toInodes, hnew]
      exact makeEmptyDir_isMap _ a.new.fits.1
    · rw [setDir_of_ne fs _ hci, setDir_toInodes, hold c hci]
      exact h.isMap c (hc.resolve_left hci)
  · by_cases hci : c = i
    · rw [hci, setDir_self]
      exact makeEmptyDir_hasDots _ a.new.fits.1
    · rw [setDir_of_ne fs _ hci]
      exact h.hasDots c (hc.resolve_left hci)

lemma mkdir_spec (h : FsInv lay root max t fs) {a : AddEnv}
    (hnew : NewEntry t a d name ino mode true) :
    Reaches lay root max t (.mkdir a d name ino mode) (f2fsMkdir lay fs a d name ino mode) := by
  obtain ⟨hlive, hname, hino, hmode⟩ := hnew
  have hino' : ino ∉ fs.inodes := h.inodes ▸ hino
  have hdead : ino ∉ t.names.live := fun hl => hino' (h.shape.live_mem ino hl).1
  obtain ⟨e, fs', hlinked, hadd⟩ := addLink_spec (h.dirs_newInode hino mode) hlive hname ino true
    true
  have hin : fs'.toInodes = fs.f2fsNewInode ino mode := hlinked.inodes
  have hdir : sIsDir (fs'.iMode ino) = true := by
    rw [hin]
    exact (congrArg sIsDir (Function.update_self ..)).trans hmode
  have hmkdir : f2fsMkdir lay fs a d name ino mode
      = some (if e = 0 then (e, { fs'.setDir ino (makeEmptyDir a.new.hasInlineDentry
            a.new.maxInlineData a.new.iDirLevel ino d (fs'.iMode ino) (fs'.iMode d)) with
          toInodes := (fs'.initLink ino true).f2fsILinksWrite d true })
        else (e, { fs' with toInodes := fs'.f2fsHandleFailedInode ino })) := by
    unfold f2fsMkdir f2fsCreate
    dsimp only
    rw [hadd, Option.map_some, link_newDir fs' a d hdir]
    by_cases he : e = 0
    · simp [he]
    · simp [he]
  rw [hmkdir]
  by_cases he : e = 0
  swap
  · obtain ⟨herr, hdirs⟩ := hlinked.failed he
    rw [if_neg he]
    exact ⟨_, _, t, rfl, .failed herr, h.createFailed hino hin hdirs⟩
  · obtain ⟨hfree, hdirs⟩ := hlinked.added he
    rw [if_pos he, he]
    refine ⟨_, _, _, rfl, .done hfree, FsInv.intro _
      (u := ((fs.f2fsNewInode ino mode).initLink ino true).f2fsILinksWrite d true) (by rw [← hin])
      ?_ ?_ ?_ ((hdirs.newDir (fun n => h.shape.dead ino n hdead)
        (ne_of_mem_of_not_mem hlive hdead) a).congr_inodes (fun _ _ => rfl) fun x i _ => ?_) ?_
      (h.counts.mkdir h.shape hlive hname.isName hfree hino')⟩
    · rw [Inodes.links_maxOrphans, Inodes.initLink_maxOrphans]
      exact h.maxOrphans
    · rw [Inodes.links_inodes, Inodes.initLink_inodes]
      exact congrArg (insert ino) h.inodes
    · rw [Inodes.links_iMode, Inodes.initLink_iMode]
      exact h.newInode_iMode ino mode
    · show ((fs'.initLink ino true).f2fsILinksWrite d true).iMode i = fs'.iMode i
      rw [Inodes.links_iMode, Inodes.initLink_iMode]
    · rw [Inodes.links_iMode, Inodes.initLink_iMode, Inodes.links_inodes, Inodes.initLink_inodes]
      exact h.shape.mkdir hlive hname.isName hfree hino' hmode

/-- A file gets another name, or not. -/
lemma link_cases (h : FsInv lay root max t fs) {a : AddEnv} (hd : d ∈ t.names.live)
    (hname : NewName t.names a d name) (hi : i ∈ t.inodes) (hfile : t.isDir i = false) :
    ∃ e fs', fs.addLink lay a d name i false true = some (e, fs') ∧
      ((AddErr t.names a d name e ∧ FsInv lay root max t fs') ∨
        (e = 0 ∧ t.names (d, name) = none ∧
          FsInv lay root max (t.set (d, name) (some i)) fs')) := by
  obtain ⟨e, fs', hlinked, hadd⟩ := addLink_spec h.dirs hd hname i false true
  have hin := hlinked.inodes
  rw [hadd, link_file fs' a d fun hno => absurd hno Bool.false_ne_true]
  by_cases he : e = 0
  swap
  · obtain ⟨herr, hdirs⟩ := hlinked.failed he
    rw [if_neg he]
    exact ⟨_, _, rfl, Or.inl ⟨herr, h.same hin hdirs⟩⟩
  · obtain ⟨hfree, hdirs⟩ := hlinked.added he
    rw [if_pos he]
    refine ⟨_, _, rfl, Or.inr ⟨he, hfree, FsInv.intro t.names.live
      (u := fs.initLink i true) (by rw [← hin]) ?_ ?_ ?_
      (hdirs.congr_inodes (fun _ _ => rfl) fun x j _ => ?_) ?_
      (h.counts.add h.shape hfree (h.inodes ▸ hi))⟩⟩
    · rw [Inodes.initLink_maxOrphans]
      exact h.maxOrphans
    · rw [Inodes.initLink_inodes]
      exact h.inodes
    · rw [Inodes.initLink_iMode]
      exact h.iMode
    · show (fs'.initLink i true).iMode j = fs'.iMode j
      rw [Inodes.initLink_iMode]
    · rw [Inodes.initLink_iMode, Inodes.initLink_inodes]
      refine h.shape.setEntry hd hname.isName (fun j hj => ?_) fun j hj => ?_
      · rw [hfree] at hj
        exact absurd hj.symm (Option.some_ne_none j)
      · obtain rfl := Option.some.inj hj
        exact ⟨h.inodes ▸ hi, h.isDir_eq hi ▸ hfile⟩

lemma link_spec (h : FsInv lay root max t fs) {a : AddEnv} (hd : d ∈ t.names.live)
    (hname : NewName t.names a d name) (hi : i ∈ t.inodes) (hfile : t.isDir i = false) :
    Reaches lay root max t (.link a i d name) (f2fsLink lay fs a i d name) := by
  obtain ⟨e, fs', hlink, ⟨herr, h'⟩ | ⟨rfl, hfree, h'⟩⟩ := link_cases h hd hname hi hfile
  · exact ⟨e, fs', t, hlink, .failed herr, h'⟩
  · exact ⟨0, fs', _, hlink, .done hfree, h'⟩

lemma create_spec (h : FsInv lay root max t fs) {a : AddEnv}
    (hnew : NewEntry t a d name ino mode false) :
    Reaches lay root max t (.create a d name ino mode)
      (f2fsCreate lay fs a d name ino mode false) := by
  obtain ⟨e, fs', hcreate, ⟨herr, h'⟩ | ⟨rfl, hfree, h'⟩⟩ := create_file h hnew
  · exact ⟨e, fs', t, hcreate, .failed herr, h'⟩
  · exact ⟨0, fs', _, hcreate, .done hfree, h'⟩

/-! ## Entries that go -/

lemma dropNlink_dir_file (h : sIsDir (fs.iMode i) = false) :
    (fs.f2fsDropNlink d i).dir = fs.dir :=
  if_neg (by rw [h]; exact Bool.false_ne_true)

lemma dropNlink_dir_ne (fs : Fs) (h : j ≠ i) : (fs.f2fsDropNlink d i).dir j = fs.dir j := by
  unfold Fs.f2fsDropNlink
  dsimp only
  split_ifs
  · exact Function.update_of_ne h ..
  · rfl

/-- An entry is found, and an orphan more is allowed, or not. -/
lemma unlink_cases (h : FsInv lay root max t fs) (hx : t.names (d, name) = some i) (env : DirEnv) :
    ∃ p fs', FsInv lay root max t fs' ∧ fs'.At d name p ∧
      ((t.Full max ∧ f2fsUnlink lay fs env d name i = some (enospc, fs')) ∨
        f2fsUnlink lay fs env d name i = some (0,
          (({ fs' with toInodes := fs'.acquired } : Fs).deleteEntry env d p).f2fsDropNlink d i)) := by
  unfold f2fsUnlink
  obtain ⟨p, fs', hfound, -, h', hat⟩ := h.found d name hx 0 fun p fs =>
    let x := fs.f2fsAcquireOrphanInode
    if x.1 ≠ 0 then some (x.1, { fs with toInodes := x.2 })
    else some (0, ({ fs with toInodes := x.2 }.deleteEntry env d p).f2fsDropNlink d i)
  refine ⟨p, fs', h', hat, ?_⟩
  rw [hfound]
  rcases h'.acquire with ⟨hfull, hacq⟩ | hacq
  · refine Or.inl ⟨hfull, ?_⟩
    dsimp only
    rw [hacq]
    rfl
  · refine Or.inr ?_
    dsimp only
    rw [hacq]
    rfl

/-- A file loses a name, if that is allowed. -/
lemma unlink_file (h : FsInv lay root max t fs) (hname : IsName name)
    (hx : t.names (d, name) = some i) (hfile : t.isDir i = false) (env : DirEnv) :
    ∃ e fs', f2fsUnlink lay fs env d name i = some (e, fs') ∧
      ((e = enospc ∧ t.Full max ∧ FsInv lay root max t fs') ∨
        (e = 0 ∧ FsInv lay root max (t.set (d, name) none) fs')) := by
  obtain ⟨p, fs', h', hat, hcases⟩ := unlink_cases h hx env
  rcases hcases with ⟨hfull, hunlink⟩ | hunlink
  · exact ⟨_, _, hunlink, Or.inl ⟨rfl, hfull, h'⟩⟩
  have hd := h'.shape.live_of_some hx
  have hmode : sIsDir (fs'.iMode i) = false := h'.isDir_of_name hx ▸ hfile
  obtain ⟨hdirs, -⟩ := h'.dirs.deleteEntry hd hname hat env
  refine ⟨_, _, hunlink, Or.inr ⟨rfl, FsInv.intro t.names.live
    (u := fs'.acquired.dropNlink d i) rfl ?_ ?_ ?_
    (hdirs.congr_inodes (fun c _ => ?_) fun x j _ => ?_) ?_ (h'.counts.unlink h'.shape hx hmode)⟩⟩
  · rw [Inodes.dropNlink_maxOrphans]
    exact h'.maxOrphans
  · rw [Inodes.dropNlink_inodes]
    exact h'.inodes
  · rw [Inodes.dropNlink_iMode]
    exact h'.iMode
  · refine congrFun (dropNlink_dir_file ?_) c
    exact hmode
  · exact congrFun (Inodes.dropNlink_iMode ..) j
  · rw [Inodes.dropNlink_iMode, Inodes.dropNlink_inodes]
    refine h'.shape.setEntry hd hname (fun j hj => ?_) fun j hj => absurd hj.symm (Option.some_ne_none j)
    obtain rfl := Option.some.inj (hx.symm.trans hj)
    exact hmode

lemma unlink_spec (h : FsInv lay root max t fs) (hname : IsName name)
    (hx : t.names (d, name) = some i) (hfile : t.isDir i = false) (env : DirEnv) :
    Reaches lay root max t (.unlink env d name i) (f2fsUnlink lay fs env d name i) := by
  obtain ⟨e, fs', hunlink, ⟨he, hfull, h'⟩ | ⟨he, h'⟩⟩ := unlink_file h hname hx hfile env
  · exact ⟨e, fs', t, hunlink, .failed ⟨he, hfull⟩, h'⟩
  · subst he
    exact ⟨0, fs', _, hunlink, .done trivial, h'⟩

/-- A directory is empty if it has no names but `.` and `..`. -/
lemma FsInv.empty_iff (h : FsInv lay root max t fs) (hi : i ∈ t.names.live) :
    f2fsEmptyDir (fs.dir i) = true ↔ t.Empty i := by
  rw [f2fsEmptyDir_iff (h.dirs.inv i hi) (h.dirs.isMap i hi) (h.dirs.hasDots i hi)]
  have hnone : ∀ name, dirMap fs.iMode t.names i name ≠ none ↔ t.names (i, name) ≠ none := by
    intro name
    unfold dirMap
    rw [ne_eq, ne_eq, Option.map_eq_none_iff]
  constructor
  · intro hno name hname
    by_contra hne
    rcases hno name ((hnone name).mpr hne) with h1 | h2
    · exact hname.1 h1
    · exact hname.2 h2
  · intro hempty name hne
    by_contra hnot
    rw [not_or] at hnot
    exact (hnone name).mp hne (hempty name hnot)

/-- The directory that goes is no longer looked at. -/
lemma DirsInv.rmdir {names : Names} (h : DirsInv lay live (Function.update names (d, name) none) fs) :
    DirsInv lay (live \ {i}) (names.rmdir d name i) fs := by
  refine h.congr_names (fun c hc => hc.1) fun c hc n => ?_
  have hne : c ≠ i := hc.2
  unfold Names.rmdir
  rw [Function.update_of_ne fun heq => hne (congrArg Prod.fst heq),
    Function.update_of_ne fun heq => hne (congrArg Prod.fst heq)]

lemma rmdir_spec (h : FsInv lay root max t fs) (hname : IsName name)
    (hx : t.names (d, name) = some i) (hdir : t.isDir i = true) (env : DirEnv) :
    Reaches lay root max t (.rmdir env d name i) (f2fsRmdir lay fs env d name i) := by
  have hmode : sIsDir (fs.iMode i) = true := h.isDir_of_name hx ▸ hdir
  have hempty := h.empty_iff ((h.shape.target _ i hx).2 hmode)
  unfold f2fsRmdir
  by_cases hno : f2fsEmptyDir (fs.dir i) = true
  swap
  · rw [if_neg hno]
    exact ⟨_, fs, t, rfl, .failed (Or.inl ⟨rfl, fun he => hno (hempty.mpr he)⟩), h⟩
  rw [if_pos hno]
  obtain ⟨p, fs', h', hat, hcases⟩ := unlink_cases h hx env
  rcases hcases with ⟨hfull, hunlink⟩ | hunlink
  · exact ⟨_, _, t, hunlink, .failed (Or.inr ⟨rfl, hfull⟩), h'⟩
  have hd := h'.shape.live_of_some hx
  have hmode' : sIsDir (fs'.iMode i) = true := h'.isDir_of_name hx ▸ hdir
  obtain ⟨hdirs, -⟩ := h'.dirs.deleteEntry hd hname hat env
  refine ⟨_, _, _, hunlink, .done (hempty.mp hno), FsInv.intro (t.names.live \ {i})
    (u := fs'.acquired.dropNlink d i) rfl ?_ ?_ ?_
    ((DirsInv.rmdir hdirs).congr_inodes (fun c hc => ?_) fun x j _ => ?_) ?_
    (h'.counts.rmdir h'.shape hname hx hmode')⟩
  · rw [Inodes.dropNlink_maxOrphans]
    exact h'.maxOrphans
  · rw [Inodes.dropNlink_inodes]
    exact h'.inodes
  · rw [Inodes.dropNlink_iMode]
    exact h'.iMode
  · exact dropNlink_dir_ne _ hc.2
  · exact congrFun (Inodes.dropNlink_iMode ..) j
  · rw [Inodes.dropNlink_iMode, Inodes.dropNlink_inodes]
    exact h'.shape.rmdir hname hx hmode' (hempty.mp hno)

/-- The contents of a link are written after its name. -/
lemma symlink_spec (h : FsInv lay root max t fs) {a : AddEnv}
    (hnew : NewEntry t a d name ino mode false) (dataErr : Option Err) (env : DirEnv) :
    Reaches lay root max t (.symlink a d name ino mode dataErr env)
      (f2fsSymlink lay fs a d name ino mode dataErr env) := by
  obtain ⟨e, fs', hcreate, ⟨herr, h'⟩ | ⟨rfl, hfree, h'⟩⟩ := create_file h hnew
  · unfold f2fsSymlink Outcome.andThen
    rw [hcreate, Option.bind_some, if_neg herr.ne_zero]
    exact ⟨e, fs', t, rfl, .failed herr, h'⟩
  unfold f2fsSymlink Outcome.andThen
  rw [hcreate, Option.bind_some, if_pos rfl]
  cases dataErr with
  | none => exact ⟨0, fs', _, rfl, .done ⟨hfree, rfl⟩, h'⟩
  | some x =>
      obtain ⟨hlive, hname, hino, hmode⟩ := hnew
      have hx : ((t.newInode ino mode).set (d, name) (some ino)).names (d, name) = some ino :=
        Function.update_self ..
      have hfile : ((t.newInode ino mode).set (d, name) (some ino)).isDir ino = false :=
        (congrArg sIsDir (Function.update_self ..)).trans hmode
      obtain ⟨e, fs'', hunlink, ⟨-, hfull, h''⟩ | ⟨-, h''⟩⟩ :=
        unlink_file h' hname.isName hx hfile env
      · dsimp only
        rw [hunlink, Option.map_some]
        exact ⟨x.1, fs'', _, rfl, .symlinkKept hfree hfull, h''⟩
      · dsimp only
        rw [hunlink, Option.map_some]
        have hback : ((t.newInode ino mode).set (d, name) (some ino)).set (d, name) none
            = t.newInode ino mode := by
          have hnames : Function.update (Function.update t.names (d, name) (some ino)) (d, name) none
              = t.names := by
            rw [Function.update_idem, ← hfree, Function.update_eq_self]
          unfold Tree.set
          rw [show (t.newInode ino mode).names = t.names from rfl, hnames]
          rfl
        rw [hback] at h''
        exact ⟨x.1, fs'', _, rfl, .symlinkGone hfree, h''⟩

/-! ## Inodes without a name -/

/-- A new inode that has no name. -/
lemma Counts.tmpfile {u : Inodes} {names : Names} (h : Counts u names) (hino : ino ∉ u.inodes)
    (hfresh : count names ino = 0) :
    Counts (((u.f2fsNewInode ino mode).acquired.f2fsAddOrphanInode ino).f2fsILinksWrite ino false)
      names := by
  have hout : ino ∉ u.orphans := fun hin => hino ((h.orphan ino).mp hin).1
  refine ⟨fun j hj => ?_, fun j => ?_, ?_⟩
  · rw [Inodes.iNlink_dec]
    show (u.f2fsNewInode ino mode).iNlink j - _ = _
    by_cases hne : j = ino
    · rw [hne, hfresh, ind_self,
        show (u.f2fsNewInode ino mode).iNlink ino = 1 from Function.update_self ..]
    · rw [newInode_iNlink u mode hne, ind_of_ne fun heq => hne heq.symm]
      exact h.links j (Finset.mem_of_mem_insert_of_ne hj hne)
  · show j ∈ insert ino u.orphans ↔ j ∈ insert ino u.inodes ∧ _
    rw [Finset.mem_insert, Finset.mem_insert, h.orphan]
    by_cases hne : j = ino
    · rw [hne]
      simp [hfresh]
    · simp [hne]
  · show u.inoNum + 1 = (insert ino u.orphans).card
    rw [Finset.card_insert_of_notMem hout, h.inoNum]

/-- `__f2fs_tmpfile`. -/
lemma tmpfile_cases (h : FsInv lay root max t fs) (mode : ℕ) (hino : ino ∉ t.inodes)
    (initErr : Option Err) :
    ∃ e u, fs.f2fsTmpfile ino mode initErr = (e, u) ∧
      ((e ≠ 0 ∧ ((e = enospc ∧ t.Full max) ∨ ∃ x, initErr = some x ∧ e = x.1) ∧
          FsInv lay root max t { fs with toInodes := u }) ∨
        (e = 0 ∧ initErr = none ∧
          FsInv lay root max (t.newInode ino mode) { fs with toInodes := u })) := by
  have hino' : ino ∉ fs.inodes := h.inodes ▸ hino
  have hdirs := h.dirs_newInode hino mode
  have hback : FsInv lay root max t { fs with
      toInodes := (fs.f2fsNewInode ino mode).f2fsHandleFailedInode ino } :=
    h.createFailed hino rfl hdirs
  unfold Inodes.f2fsTmpfile Inodes.f2fsAcquireOrphanInode
  by_cases hfull : (fs.f2fsNewInode ino mode).maxOrphans ≤ (fs.f2fsNewInode ino mode).inoNum
  · rw [if_pos hfull]
    exact ⟨_, _, rfl, Or.inl ⟨show enospc ≠ 0 by decide, Or.inl ⟨rfl, h.full_iff.mp hfull⟩,
      hback⟩⟩
  rw [if_neg hfull]
  cases initErr with
  | some x =>
      exact ⟨_, _, rfl, Or.inl ⟨x.2.1.ne, Or.inr ⟨x, rfl, rfl⟩, hback⟩⟩
  | none =>
      refine ⟨_, _, rfl, Or.inr ⟨rfl, rfl, FsInv.intro _ rfl h.maxOrphans
        (congrArg (insert ino) h.inodes) (h.newInode_iMode ino mode)
        (hdirs.congr_inodes (fun _ _ => rfl) fun _ _ _ => rfl) (h.shape.newInode hino' mode)
        (h.counts.tmpfile hino' (h.shape.count_fresh hino'))⟩⟩

lemma tmpfile_spec (h : FsInv lay root max t fs) (hino : ino ∉ t.inodes)
    (initErr : Option Err) :
    Reaches lay root max t (.tmpfile ino mode initErr)
      (fsStep lay fs (.tmpfile ino mode initErr)) := by
  obtain ⟨e, u, htmp, hcases⟩ := tmpfile_cases h mode hino initErr
  unfold fsStep
  dsimp only
  rw [htmp]
  rcases hcases with ⟨-, hwhy, h'⟩ | ⟨rfl, hinit, h'⟩
  · exact ⟨e, _, t, rfl, .failed hwhy, h'⟩
  · exact ⟨0, _, _, rfl, .done hinit, h'⟩

/-- The inode goes if it has no name. -/
lemma Counts.evict {u : Inodes} {names : Names} (h : Counts u names) (hino : ino ∈ u.inodes)
    (hno : count names ino = 0) :
    u.f2fsEvictInode ino = { u with
        orphans := u.orphans.erase ino
        inoNum := u.inoNum - 1
        inodes := u.inodes.erase ino } ∧ Counts (u.f2fsEvictInode ino) names := by
  have hin : ino ∈ u.orphans := (h.orphan ino).mpr ⟨hino, hno⟩
  have hevict : u.f2fsEvictInode ino = { u with
      orphans := u.orphans.erase ino
      inoNum := u.inoNum - 1
      inodes := u.inodes.erase ino } := by
    unfold Inodes.f2fsEvictInode Inodes.f2fsRemoveOrphanInode
    rw [if_pos ((h.links ino hino).trans hno), if_pos hin]
  refine ⟨hevict, ?_⟩
  rw [hevict]
  refine ⟨fun j hj => h.links j (Finset.mem_of_mem_erase hj), fun j => ?_, ?_⟩
  · show j ∈ u.orphans.erase ino ↔ j ∈ u.inodes.erase ino ∧ _
    rw [Finset.mem_erase, Finset.mem_erase, h.orphan, and_assoc]
  · show u.inoNum - 1 = (u.orphans.erase ino).card
    rw [Finset.card_erase_of_mem hin, h.inoNum]

/-- An inode without a name goes, with what it still has. -/
lemma FsInv.evict (h : FsInv lay root max t fs) (hino : ino ∈ t.inodes)
    (hno : ∀ x, t.names x ≠ some ino) (hdir : ∀ c ≠ ino, fs'.dir c = fs.dir c)
    (hin : fs'.toInodes = fs.f2fsEvictInode ino) :
    FsInv lay root max { t with inodes := t.inodes.erase ino } fs' := by
  obtain ⟨hevict, hcounts⟩ := h.counts.evict (h.inodes ▸ hino) (count_eq_zero hno)
  rw [hevict] at hin hcounts
  have hne : ∀ x i, t.names x = some i → i ≠ ino := fun x i hx heq => hno x (heq ▸ hx)
  refine FsInv.intro _ hin h.maxOrphans (congrArg (Finset.erase · ino) h.inodes)
    (fun i hi => h.iMode i (Finset.mem_of_mem_erase hi))
    (h.dirs.congr_inodes (fun c hc => hdir c (hne (c, dot) c (h.shape.self c hc))) fun x i _ => ?_)
    (h.shape.congr_inodes fun x i hx => ⟨?_, rfl⟩) hcounts
  · rw [hin]
  · exact Finset.mem_erase_of_ne_of_mem (hne x i hx) (h.shape.target x i hx).1

lemma evict_spec (h : FsInv lay root max t fs) (hino : ino ∈ t.inodes) :
    Reaches lay root max t (.evict ino) (fsStep lay fs (.evict ino)) := by
  have hino' : ino ∈ fs.inodes := h.inodes ▸ hino
  by_cases hno : ∀ x, t.names x ≠ some ino
  · exact ⟨0, _, _, rfl, .evicted hno, h.evict hino hno (fun c hc => setDir_of_ne fs _ hc) rfl⟩
  · have hlinked : ∃ x, t.names x = some ino := by
      by_contra hnone
      exact hno fun x hx => hnone ⟨x, hx⟩
    obtain ⟨x, hx⟩ := hlinked
    have hin : fs.f2fsEvictInode ino = fs.toInodes := by
      unfold Inodes.f2fsEvictInode
      rw [if_neg]
      rw [h.counts.links ino hino']
      exact count_ne_zero h.shape.finite hx
    have hsame : SameTable (fs.dir ino) { fs.dir ino with
        chash := 0
        clevel := 0 } := ⟨rfl, rfl, rfl, rfl, rfl, rfl⟩
    refine ⟨0, _, _, rfl, .done ⟨x, hx⟩, h.same hin ?_⟩
    by_cases hlive : ino ∈ t.names.live
    · have hinv := hsame.dirInv (h.dirs.inv ino hlive) (fun _ => rfl) (Nat.zero_le _)
      exact (h.dirs.setDir_same hsame hinv).congr_inodes (fun _ _ => rfl) fun _ i _ =>
        congrFun (congrArg Inodes.iMode hin) i
    · exact h.dirs.congr_inodes (fun c hc => setDir_of_ne fs _ (ne_of_mem_of_not_mem hc hlive))
        fun _ i _ => congrFun (congrArg Inodes.iMode hin) i

end Hoit.Namei
