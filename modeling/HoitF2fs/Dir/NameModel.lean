import HoitF2fs.Dir.NameCalls

/-!
# What the calls are for

The file system as its callers see it: a tree of names.  A call changes the names as it should, or it
fails for a reason that it has, and then the names are as they were.  There are two exceptions, both
in calls that do two things one after the other.

* `Tree`, `Call` — the names with the inodes, and what is asked of the file system.
* `Tree.after` — what a call is for; `Allows` — when it can do so.
* `MayFail` — the reasons.
* `NameStep` — what may come of a call; `NameStep.symlinkGone`, `NameStep.symlinkKept` and
  `NameStep.whiteoutGone` are the exceptions.
* `ProperCall` — what the VFS promises: the dentries are what the entries lead to, a directory is not
  moved below itself, and so on.  A directory is not renamed with a whiteout, since that goes wrong if
  it gets another parent.
* `fsStep` — the calls.
-/

namespace Hoit.Namei

open Dir NodePath ByteStore

structure Tree where
  names : Names
  iMode : ℕ → ℕ
  inodes : Finset ℕ

inductive Call where
  /-- `f2fs_create` and `f2fs_mknod`. -/
  | create (a : AddEnv) (dir : ℕ) (name : List Byte) (ino mode : ℕ)
  | mkdir (a : AddEnv) (dir : ℕ) (name : List Byte) (ino mode : ℕ)
  | symlink (a : AddEnv) (dir : ℕ) (name : List Byte) (ino mode : ℕ) (dataErr : Option Err)
    (env : DirEnv)
  | link (a : AddEnv) (inode dir : ℕ) (name : List Byte)
  | unlink (env : DirEnv) (dir : ℕ) (name : List Byte) (inode : ℕ)
  | rmdir (env : DirEnv) (dir : ℕ) (name : List Byte) (inode : ℕ)
  | tmpfile (ino mode : ℕ) (initErr : Option Err)
  | rename (env : RenameEnv) (oldDir : ℕ) (oldName : List Byte) (oldInode newDir : ℕ)
    (newName : List Byte) (newInode : Option ℕ) (whiteout : Option Whiteout)
  | crossRename (oldDir : ℕ) (oldName : List Byte) (oldInode newDir : ℕ) (newName : List Byte)
    (newInode : ℕ)
  /-- The last reference to an inode goes. -/
  | evict (ino : ℕ)

def fsStep (lay : AddrLayout) (fs : Fs) : Call → Outcome
  | .create a dir name ino mode => f2fsCreate lay fs a dir name ino mode false
  | .mkdir a dir name ino mode => f2fsMkdir lay fs a dir name ino mode
  | .symlink a dir name ino mode dataErr env => f2fsSymlink lay fs a dir name ino mode dataErr env
  | .link a inode dir name => f2fsLink lay fs a inode dir name
  | .unlink env dir name inode => f2fsUnlink lay fs env dir name inode
  | .rmdir env dir name inode => f2fsRmdir lay fs env dir name inode
  | .tmpfile ino mode initErr =>
      let x := fs.f2fsTmpfile ino mode initErr
      some (x.1, { fs with toInodes := x.2 })
  | .rename env oldDir oldName oldInode newDir newName newInode whiteout =>
      f2fsRename lay fs env oldDir oldName oldInode newDir newName newInode whiteout
  | .crossRename oldDir oldName oldInode newDir newName newInode =>
      f2fsCrossRename lay fs oldDir oldName oldInode newDir newName newInode
  | .evict ino =>
      -- a directory that is read again has not been looked in
      some (0, { fs.setDir ino { fs.dir ino with
        chash := 0
        clevel := 0 } with toInodes := fs.f2fsEvictInode ino })

/-! ## The tree of names -/

namespace Tree

variable (t : Tree)

def isDir (i : ℕ) : Bool := sIsDir (t.iMode i)

/-- There are no names in the directory but `.` and `..`. -/
def Empty (i : ℕ) : Prop := ∀ name, IsName name → t.names (i, name) = none

/-- There may not be more inodes without a name. -/
def Full (max : ℕ) : Prop := max ≤ {i | i ∈ t.inodes ∧ ∀ x, t.names x ≠ some i}.ncard

def newInode (ino mode : ℕ) : Tree :=
  { t with
    iMode := Function.update t.iMode ino mode
    inodes := insert ino t.inodes }

def set (x : ℕ × List Byte) (o : Option ℕ) : Tree :=
  { t with names := Function.update t.names x o }

/-- The inode moves from `x` to `y`, where `target` goes. -/
def rename (x y : ℕ × List Byte) (i : ℕ) (target : Option ℕ) : Tree :=
  { t with names :=
      match target with
      | none => t.names.move (t.isDir i) x y i
      | some j =>
          if t.isDir i then (t.names.rmdir y.1 y.2 j).move true x y i
          else t.names.move false x y i }

/-- The tree with the inode of a whiteout. -/
def withWhiteout : Option Whiteout → Tree
  | none => t
  | some w => t.newInode w.ino whiteoutMode

/-- What a call is for. -/
def after : Call → Tree
  | .create _ dir name ino mode => (t.newInode ino mode).set (dir, name) (some ino)
  | .mkdir _ dir name ino mode =>
      { t.newInode ino mode with names := t.names.mkdir dir name ino }
  | .symlink _ dir name ino mode _ _ => (t.newInode ino mode).set (dir, name) (some ino)
  | .link _ inode dir name => t.set (dir, name) (some inode)
  | .unlink _ dir name _ => t.set (dir, name) none
  | .rmdir _ dir name inode => { t with names := t.names.rmdir dir name inode }
  | .tmpfile ino mode _ => t.newInode ino mode
  | .rename _ oldDir oldName oldInode newDir newName newInode whiteout =>
      let t' := (t.withWhiteout whiteout).rename (oldDir, oldName) (newDir, newName) oldInode newInode
      match whiteout with
      | none => t'
      | some w => t'.set (oldDir, oldName) (some w.ino)
  | .crossRename oldDir oldName oldInode newDir newName newInode =>
      { t with
        names := t.names.cross (t.isDir oldInode) (t.isDir newInode) (oldDir, oldName)
          (newDir, newName) oldInode newInode }
  | .evict _ => t

end Tree

/-- When a call can do what it is for. -/
def Allows (t : Tree) : Call → Prop
  | .create _ dir name _ _ | .mkdir _ dir name _ _ | .link _ _ dir name =>
      t.names (dir, name) = none
  | .symlink _ dir name _ _ dataErr _ => t.names (dir, name) = none ∧ dataErr = none
  | .unlink .. | .crossRename .. => True
  | .rmdir _ _ _ inode => t.Empty inode
  | .tmpfile _ _ initErr => initErr = none
  | .rename _ _ _ oldInode _ _ newInode whiteout =>
      (∀ j, newInode = some j → t.isDir oldInode = true → t.Empty j) ∧
        ∀ w, whiteout = some w → w.initErr = none
  | .evict ino => ∃ x, t.names x = some ino

/-- Why the target of a rename is not taken. -/
def TargetErr (max : ℕ) (t : Tree) (a : AddEnv) (y : ℕ × List Byte) (i : ℕ) (target : Option ℕ)
    (e : ℤ) : Prop :=
  match target with
  | none => AddErr t.names a y.1 y.2 e
  | some j => (e = enotempty ∧ t.isDir i = true ∧ ¬ t.Empty j) ∨ (e = enospc ∧ t.Full max)

/-- Why a call fails. -/
def MayFail (max : ℕ) (t : Tree) : Call → ℤ → Prop
  | .create a dir name _ _, e | .mkdir a dir name _ _, e | .symlink a dir name _ _ _ _, e
  | .link a _ dir name, e => AddErr t.names a dir name e
  | .unlink .., e => e = enospc ∧ t.Full max
  | .rmdir _ _ _ inode, e => (e = enotempty ∧ ¬ t.Empty inode) ∨ (e = enospc ∧ t.Full max)
  | .tmpfile _ _ initErr, e => (e = enospc ∧ t.Full max) ∨ ∃ x, initErr = some x ∧ e = x.1
  | .rename env _ _ oldInode newDir newName newInode whiteout, e =>
      (∃ w, whiteout = some w ∧ ((e = enospc ∧ t.Full max) ∨ ∃ x, w.initErr = some x ∧ e = x.1)) ∨
        TargetErr max (t.withWhiteout whiteout) env.add (newDir, newName) oldInode newInode e
  | .crossRename oldDir _ oldInode newDir _ newInode, e =>
      -- a directory would get one more entry than can be counted
      e = emlink ∧ oldDir ≠ newDir ∧ t.isDir oldInode ≠ t.isDir newInode ∧
        2 ^ 32 - 1 ≤ RefCount.count t.names (if t.isDir oldInode then newDir else oldDir)
  | .evict _, _ => False

inductive NameStep (max : ℕ) : Tree → Call → ℤ → Tree → Prop
  | done {t c} (h : Allows t c) : NameStep max t c 0 (t.after c)
  | failed {t c e} (h : MayFail max t c e) : NameStep max t c e t
  /-- The file of the link goes, if its contents could not be written. -/
  | symlinkGone {t a dir name ino mode env} {e : Err} (h : t.names (dir, name) = none) :
      NameStep max t (.symlink a dir name ino mode (some e) env) e.1 (t.newInode ino mode)
  | symlinkKept {t a dir name ino mode env} {e : Err} (h : t.names (dir, name) = none)
      (hfull : ((t.newInode ino mode).set (dir, name) (some ino)).Full max) :
      NameStep max t (.symlink a dir name ino mode (some e) env) e.1
        ((t.newInode ino mode).set (dir, name) (some ino))
  /-- The inode has its new name, but there is no whiteout. -/
  | whiteoutGone {t env oldDir oldName oldInode newDir newName newInode w e}
      (h : Allows t (.rename env oldDir oldName oldInode newDir newName newInode (some w)))
      (he : env.addWhiteout.env.Gives e) :
      NameStep max t (.rename env oldDir oldName oldInode newDir newName newInode (some w)) e
        (t.rename (oldDir, oldName) (newDir, newName) oldInode newInode)
  | evicted {t ino} (h : ∀ x, t.names x ≠ some ino) :
      NameStep max t (.evict ino) 0 { t with inodes := t.inodes.erase ino }

/-! ## What the VFS promises -/

/-- A new entry in a directory, for a new inode. -/
structure NewEntry (t : Tree) (a : AddEnv) (dir : ℕ) (name : List Byte) (ino mode : ℕ)
    (isDir : Bool) : Prop where
  live : dir ∈ t.names.live
  name : NewName t.names a dir name
  fresh : ino ∉ t.inodes
  mode : sIsDir mode = isDir

structure ProperRename (root : ℕ) (t : Tree) (env : RenameEnv) (x y : ℕ × List Byte) (i : ℕ)
    (target : Option ℕ) (whiteout : Option Whiteout) : Prop where
  old : t.names x = some i
  oldName : IsName x.2
  new : t.names y = target
  newName : IsName y.2
  live : y.1 ∈ t.names.live
  ne : y ≠ x
  add : target = none → NewName t.names env.add y.1 y.2
  same : ∀ j, target = some j → j ≠ i ∧ t.isDir j = t.isDir i
  below : t.isDir i = true → ¬ t.names.Below root y.1 i
  /-- What is the matter with a whiteout for a directory is in `HoitF2fs.Dir.Whiteouts`. -/
  noWhiteout : t.isDir i = true → whiteout = none
  fresh : ∀ w, whiteout = some w → w.ino ∉ t.inodes
  whiteoutName : ∀ w, whiteout = some w → x.2 ≠ [] ∧ x.2.length ≤ f2fsNameLen

def ProperCall (root : ℕ) (t : Tree) : Call → Prop
  | .create a dir name ino mode => NewEntry t a dir name ino mode false
  | .symlink a dir name ino mode _ _ => NewEntry t a dir name ino mode false
  | .mkdir a dir name ino mode => NewEntry t a dir name ino mode true
  | .link a inode dir name => dir ∈ t.names.live ∧ NewName t.names a dir name ∧
      inode ∈ t.inodes ∧ t.isDir inode = false
  | .unlink _ dir name inode => IsName name ∧ t.names (dir, name) = some inode ∧
      t.isDir inode = false
  | .rmdir _ dir name inode => IsName name ∧ t.names (dir, name) = some inode ∧
      t.isDir inode = true
  | .tmpfile ino mode _ => ino ∉ t.inodes ∧ sIsDir mode = false
  | .rename env oldDir oldName oldInode newDir newName newInode whiteout =>
      ProperRename root t env (oldDir, oldName) (newDir, newName) oldInode newInode whiteout
  | .crossRename oldDir oldName oldInode newDir newName newInode =>
      IsName oldName ∧ t.names (oldDir, oldName) = some oldInode ∧
      IsName newName ∧ t.names (newDir, newName) = some newInode ∧
      (newDir, newName) ≠ (oldDir, oldName) ∧
      (t.isDir oldInode = true → ¬ t.names.Below root newDir oldInode) ∧
      (t.isDir newInode = true → ¬ t.names.Below root oldDir newInode)
  | .evict ino => ino ∈ t.inodes

end Hoit.Namei
